import CameraClient.WheelRange

/-! Measuring and drawing a wheel, in any order with new lists and new items: over every run
the column shows consecutive items, each in its place. -/
namespace CameraClient
open Runs Slices StateError

namespace WheelItems
variable {st st' : WheelItems} {j : Int}

def Placed (st : WheelItems) : Prop :=
  ∀ (k : Nat) (view : ItemView), st.children[k]? = some view → view.place = some k

def laidOut (st : WheelItems) : WheelItems :=
  { st with itemsLayout := st.itemsLayout.map fun children =>
      children.mapIdx fun k view => { view with place := some k } }

theorem layoutChildren_eq {children : List ItemView} (hl : st.itemsLayout = some children) :
    layoutChildren st = .ok () st.laidOut := by
  simp [layoutChildren, laidOut, hl]

theorem children_laidOut : st.laidOut.children =
    st.children.mapIdx fun k view => { view with place := some k } := by
  cases hl : st.itemsLayout with
  | none => simp [children, laidOut, hl]
  | some children => simp [WheelItems.children, laidOut, hl]

theorem map_laidOut {β : Type} (f : ItemView → β)
    (hf : ∀ view place, f { view with place := place } = f view) :
    st.laidOut.children.map f = st.children.map f := by
  rw [children_laidOut]
  apply List.ext_getElem?
  intro k
  rw [List.getElem?_map, List.getElem?_map, List.getElem?_mapIdx]
  cases st.children[k]? with
  | none => rfl
  | some view => exact congrArg some (hf view (some k))

theorem length_laidOut : st.laidOut.children.length = st.children.length := by
  rw [children_laidOut, List.length_mapIdx]

theorem placed_laidOut : st.laidOut.Placed := by
  intro k view hk
  rw [children_laidOut, List.getElem?_mapIdx, Option.map_eq_some_iff] at hk
  obtain ⟨_, -, rfl⟩ := hk
  rfl

theorem Pool.laidOut (hp : st.Pool) : st.laidOut.Pool := by
  have hids : (st.laidOut.children ++ st.laidOut.items).map ItemView.id =
      (st.children ++ st.items).map ItemView.id := by
    rw [List.map_append, map_laidOut ItemView.id fun _ _ => rfl, List.map_append]
    rfl
  refine ⟨by rw [hids]; exact hp.distinct, ?_, hp.noEmpty⟩
  intro view hv
  have hmem : view.id ∈ (st.children ++ st.items).map ItemView.id := by
    rw [← hids]
    exact List.mem_map_of_mem hv
  obtain ⟨u, hu, he⟩ := List.mem_map.mp hmem
  have := hp.made u hu
  rw [he] at this
  exact this

theorem Kept.laidOut (hk : st.Kept) : st.laidOut.Kept :=
  ⟨hk.toPool.laidOut, by rw [map_laidOut ItemView.text fun _ _ => rfl]; exact hk.rows⟩

theorem total_laidOut : st.laidOut.total = st.total := by
  rw [total, length_laidOut]
  rfl

theorem Filled.laidOut {range : ItemsRange} (h : st.Filled range st') :
    st.Filled range st'.laidOut := by
  obtain ⟨children, hl⟩ := h.column
  refine ⟨h.kept.laidOut, ⟨_, by rw [WheelItems.laidOut, hl]; rfl⟩, h.view, ?_, ?_, ?_, ?_, ?_⟩
  · rw [total_laidOut]
    exact h.total
  · rw [total_laidOut]
    exact h.created
  · rw [length_laidOut]
    exact h.count
  · rw [length_laidOut]
    exact h.covers
  · intro hs
    refine ⟨?_, (h.stale hs).2⟩
    rw [children_laidOut, (h.stale hs).1]
    rfl

theorem updateView_yields {layout : Layout} {range : ItemsRange} (hk : st.Kept) (hp : st.Placed)
    (hr : st.getItemsRange layout = some range) :
    Yields st.view.Raises (updateView layout) st fun _ st' =>
      st.Filled range st' ∧ st'.Placed := by
  rw [updateView]
  apply (rebuildItems_yields hk hr).bind
  intro updated st1 hf
  obtain ⟨children1, hl1⟩ := hf.1.column
  cases updated with
  | true =>
    rw [if_pos rfl]
    exact yields_ok (layoutChildren_eq hl1) ⟨hf.1.laidOut, placed_laidOut⟩
  | false =>
    rw [if_neg (by simp)]
    refine yields_ok rfl ⟨hf.1, ?_⟩
    intro k view hv
    obtain ⟨tails, ht⟩ := hf.2 rfl
    apply hp k view
    rw [← ht, List.getElem?_append_left (List.getElem?_eq_some_iff.mp hv).1, hv]

theorem onDraw_yields {layout : Layout} {range : ItemsRange} {adapter : ArrayWheelAdapter}
    (hk : st.Kept) (hp : st.Placed) (ha : st.view.viewAdapter = some adapter)
    (hn : 0 < adapter.getItemsCount) (hr : st.getItemsRange layout = some range) :
    Yields st.view.Raises (onDraw layout) st fun _ st' => st.Filled range st' ∧ st'.Placed := by
  rw [Yields, onDraw, bind_ok (get_apply _)]
  simp only [ha]
  rw [if_pos hn, ← Yields]
  apply (updateView_yields hk hp hr).bind
  intro _ st1 hf
  obtain ⟨children1, hl1⟩ := hf.1.column
  refine yields_ok (b := ()) ?_ hf
  simp only [bind_apply, get_apply, hl1]
  rfl

theorem onDraw_nothing (layout : Layout)
    (h : ∀ adapter, st.view.viewAdapter = some adapter → adapter.getItemsCount ≤ 0) :
    onDraw layout st = .ok () st := by
  rw [onDraw, bind_ok (get_apply _)]
  cases ha : st.view.viewAdapter with
  | none => rfl
  | some adapter =>
    have hn := h adapter ha
    simp only
    rw [if_neg (by omega)]
    rfl

theorem addForMeasuring_yields (n : Nat) {i : Int} {children : List ItemView} (hk : st.Kept)
    (hl : st.itemsLayout = some children)
    (hi : st.children = [] ∨ i + 1 = st.firstItem ∨ ∀ j ≤ i, ¬ st.view.HasItem j) :
    Yields st.view.Raises (addForMeasuring n i) st fun _ st' => st'.Kept ∧ ∃ k ≤ n,
      st.Extends k st' ∧ ∀ j, i - n < j → j ≤ i → st.view.HasItem j →
        st.children = [] → st'.children ≠ [] := by
  induction n generalizing st i children with
  | zero =>
    refine yields_ok rfl ⟨hk, 0, Nat.le_refl _, Extends.refl hk.toPool hl, ?_⟩
    intro j hlo hhi
    omega
  | succ n ih =>
    by_cases hj : st.view.HasItem i
    · rw [addForMeasuring]
      apply (addViewItem_some true hk.toPool hl hj).bind
      rintro _ st1 ⟨rfl, hadds⟩
      have hs : IsSlice st.view.textAt (i + 1) (st.children.map ItemView.text) := by
        rcases hi with hnil | hnext | hnone
        · rw [hnil]
          trivial
        · rw [hnext]
          exact hk.rows
        · exact absurd hj (hnone i (Int.le_refl _))
      have hrows := hadds.rows_above hs
      let st2 : WheelItems := { st1 with firstItem := i }
      have hext : st.Extends 1 st2 := hadds.extends.withFirst i
      have hk2 : st2.Kept := ⟨hext.pool, by rw [hext.view]; exact hrows⟩
      obtain ⟨children2, hl2⟩ := hext.column
      rw [if_pos rfl, Yields, bind_ok (modify_apply _ _), ← Yields, ← hext.view]
      have hstart : i - 1 + 1 = st2.firstItem := Int.sub_add_cancel i 1
      apply (ih hk2 hl2 (Or.inr (Or.inl hstart))).mono
      rintro _ st' ⟨hk', k, hkn, hext', -⟩
      refine ⟨hk', 1 + k, by omega, hext.trans hext', ?_⟩
      intro j _ _ _ _ hnil
      have hcount := (hext.trans hext').count
      rw [hnil, List.length_nil] at hcount
      omega
    · have hrun : addForMeasuring (n + 1) i st = addForMeasuring n (i - 1) st := by
        rw [addForMeasuring, bind_ok (addViewItem_none true hk.toPool hj)]
        rfl
      rw [Yields, hrun, ← Yields]
      have hnext : st.children = [] ∨ i - 1 + 1 = st.firstItem ∨
          ∀ j ≤ i - 1, ¬ st.view.HasItem j := by
        by_cases hnil : st.children = []
        · exact Or.inl hnil
        · right
          right
          intro j hle hitem
          have hpos := List.length_pos_of_ne_nil hnil
          have hhead := hasItem_of_rows hk.rows (Int.le_refl _) (by omega)
          rcases hi with h | h | h
          · exact hnil h
          · exact hj (hasItem_between hitem (by omega) (by omega) hhead)
          · exact h j (by omega) hitem
      apply (ih hk hl hnext).mono
      rintro _ st' ⟨hk', k, hkn, hext', hcov⟩
      refine ⟨hk', k, by omega, hext', ?_⟩
      intro j hlo hhi hitem
      by_cases he : j = i
      · rw [he] at hitem
        exact absurd hitem hj
      · exact hcov j (by omega) (by omega) hitem

structure Measured (st st' : WheelItems) : Prop where
  kept : st'.Kept
  column : ∃ children, st'.itemsLayout = some children
  view : st'.view = st.view
  total : st'.total ≤ max st.total 5
  created : st'.created + st.total = st.created + st'.total
  shows : st.view.HasItem st.view.currentItem → st'.children ≠ []

theorem buildViewForMeasuring_eq (hk : st.Kept) : ∃ st1,
    buildViewForMeasuring st = addForMeasuring 5 (st.view.currentItem + 2) st1 ∧
    st1.Pool ∧ st1.itemsLayout = some [] ∧ st1.view = st.view ∧ st1.total = st.total ∧
    st1.created = st.created := by
  cases hl : st.itemsLayout with
  | none =>
    have hc : st.children = [] := by rw [children, hl, Option.getD_none]
    have hd := hk.distinct
    have hm := hk.made
    rw [hc] at hd hm
    refine ⟨{ st with itemsLayout := some [] }, ?_, ⟨hd, hm, hk.noEmpty⟩, rfl, rfl, ?_, rfl⟩
    · rw [buildViewForMeasuring, bind_ok (get_apply _)]
      simp only [hl]
      rfl
    · simp [total, children, hl]
  | some children =>
    obtain ⟨first, st1, h1, -, hrec⟩ := recycleItems_eq {} hk hl
    obtain ⟨children1, hl1⟩ := hrec.column
    have hnil : st1.children = [] := by
      by_contra hne
      have hin := hrec.inside hne
      have hpos := List.length_pos_of_ne_nil hne
      simp only [ItemsRange.getLast] at hin
      omega
    rw [children_eq hl1] at hnil
    rw [hnil] at hl1
    refine ⟨st1, ?_, hrec.pool, hl1, hrec.view, hrec.total, hrec.created⟩
    rw [buildViewForMeasuring, bind_ok (get_apply _)]
    simp only [hl]
    rw [bind_ok h1]
    rfl

theorem buildViewForMeasuring_yields (hk : st.Kept) :
    Yields st.view.Raises buildViewForMeasuring st fun _ st' => st.Measured st' := by
  obtain ⟨st1, hrun, hp, hl, hview, htotal, hcreated⟩ := buildViewForMeasuring_eq hk
  have hnil : st1.children = [] := children_eq hl
  have hk1 : st1.Kept := ⟨hp, by rw [hnil]; trivial⟩
  rw [Yields, hrun, ← Yields, ← hview]
  apply (addForMeasuring_yields 5 hk1 hl (Or.inl hnil)).mono
  rintro _ st' ⟨hk', k, hk5, hext, hcov⟩
  have hcount := hext.count
  rw [hnil, List.length_nil] at hcount
  have hle := hext.total
  have hmade := hext.created
  refine ⟨hk', hext.column, hext.view.trans hview, by omega, by omega, ?_⟩
  intro hitem
  rw [← hview] at hitem
  exact hcov st1.view.currentItem (by omega) (by omega) hitem hnil

theorem measure_yields (hk : st.Kept) :
    Yields st.view.Raises ItemsEvent.measure.callback st fun _ st' =>
      st.Measured st' ∧ st'.Placed := by
  rw [ItemsEvent.callback]
  apply (buildViewForMeasuring_yields hk).bind
  intro _ st1 hm
  obtain ⟨children1, hl1⟩ := hm.column
  refine yields_ok (layoutChildren_eq hl1) ⟨⟨hm.kept.laidOut,
    ⟨_, by rw [laidOut, hl1]; rfl⟩, hm.view, ?_, ?_, ?_⟩, placed_laidOut⟩
  · rw [total_laidOut]
    exact hm.total
  · rw [total_laidOut]
    exact hm.created
  · intro hitem hnil
    have hlen := congrArg List.length hnil
    rw [length_laidOut, List.length_nil] at hlen
    exact hm.shows hitem (List.length_eq_zero_iff.mp hlen)

theorem addForMeasuring_nothing (n : Nat) (i : Int) (hp : st.Pool)
    (hno : ∀ j, ¬ st.view.HasItem j) : addForMeasuring n i st = .ok () st := by
  induction n generalizing i with
  | zero => rfl
  | succ n ih =>
    rw [addForMeasuring, bind_ok (addViewItem_none true hp (hno i)), if_neg (by simp)]
    exact ih (i - 1)

/-- A wheel without items measures no views. -/
theorem measure_nothing (hk : st.Kept) (hno : ∀ j, ¬ st.view.HasItem j) :
    ∃ st', ItemsEvent.measure.callback st = .ok () st' ∧ st'.total = st.total := by
  obtain ⟨st1, hrun, hp, hl, hview, htotal, -⟩ := buildViewForMeasuring_eq hk
  rw [addForMeasuring_nothing 5 _ hp (by rw [hview]; exact hno)] at hrun
  refine ⟨st1.laidOut, ?_, by rw [total_laidOut, htotal]⟩
  rw [ItemsEvent.callback, bind_ok hrun]
  exact layoutChildren_eq hl

theorem step_eq_some {e : ItemsEvent} : st.step e = some st' ↔ e.callback st = .ok () st' := by
  unfold step
  cases e.callback st <;> simp

theorem kept_setViewAdapter (st : WheelItems) (adapter : ArrayWheelAdapter) :
    (st.setViewAdapter adapter).children = [] ∧ (st.setViewAdapter adapter).Kept := by
  have hnil : (st.setViewAdapter adapter).children = [] := by
    cases hl : st.itemsLayout <;> simp [children, setViewAdapter, hl]
  refine ⟨hnil, ⟨?_, ?_, rfl⟩, ?_⟩
  · rw [hnil]
    exact List.nodup_nil
  · rw [hnil]
    intro view hv
    cases hv
  · rw [hnil]
    trivial

def HasItems (st : WheelItems) : Prop :=
  ∃ adapter, st.view.viewAdapter = some adapter ∧ 0 < adapter.getItemsCount

theorem onDraw_empty (layout : Layout) (h : ¬ st.HasItems) : onDraw layout st = .ok () st := by
  apply onDraw_nothing
  intro adapter ha
  by_contra hn
  exact h ⟨adapter, ha, by omega⟩

theorem onDraw_flat {layout : Layout} (h0 : layout.itemHeight = 0)
    (h : onDraw layout st = .ok () st') : st' = st := by
  have hnone : st.getItemsRange layout = none := by simp [getItemsRange, h0]
  have hupdate : updateView layout st = .ok () st := by
    simp [updateView, rebuildItems, hnone]
  by_cases hi : st.HasItems
  · obtain ⟨adapter, ha, hn⟩ := hi
    rw [onDraw, bind_ok (get_apply _)] at h
    simp only [ha] at h
    rw [if_pos hn, bind_ok hupdate, bind_ok (get_apply _)] at h
    cases hl : st.itemsLayout with
    | none =>
      simp only [hl] at h
      cases h
    | some children =>
      simp only [hl] at h
      cases h
      rfl
  · rw [onDraw_empty layout hi] at h
    cases h
    rfl

theorem exists_range (st : WheelItems) {layout : Layout} (h0 : layout.itemHeight ≠ 0) :
    ∃ range, st.getItemsRange layout = some range := by
  rw [getItemsRange, if_neg h0]
  dsimp only
  split_ifs <;> exact ⟨_, rfl⟩

theorem step_kept {e : ItemsEvent} (hk : st.Kept ∧ st.Placed) (h : st.step e = some st') :
    st'.Kept ∧ st'.Placed := by
  rw [step_eq_some] at h
  cases e with
  | attach adapter =>
    cases h
    obtain ⟨hnil, hkept⟩ := kept_setViewAdapter st adapter
    refine ⟨hkept, ?_⟩
    intro k view hv
    rw [hnil] at hv
    cases hv
  | turn currentItem offset =>
    cases h
    exact ⟨⟨⟨hk.1.distinct, hk.1.made, hk.1.noEmpty⟩, hk.1.rows⟩, hk.2⟩
  | measure =>
    have hm := (measure_yields hk.1).of_ok h
    exact ⟨hm.1.kept, hm.2⟩
  | draw layout =>
    by_cases h0 : layout.itemHeight = 0
    · rw [onDraw_flat h0 h]
      exact hk
    by_cases hi : st.HasItems
    · obtain ⟨adapter, ha, hn⟩ := hi
      obtain ⟨range, hr⟩ := exists_range st h0
      have hf := (onDraw_yields hk.1 hk.2 ha hn hr).of_ok h
      exact ⟨hf.1.kept, hf.2⟩
    · rw [ItemsEvent.callback, onDraw_empty layout hi] at h
      cases h
      exact hk

theorem kept_new : ({} : WheelItems).Kept ∧ ({} : WheelItems).Placed := by
  refine ⟨⟨⟨List.nodup_nil, ?_, rfl⟩, trivial⟩, ?_⟩
  · intro view hv
    cases hv
  · intro k view hv
    cases hv

theorem kept_run {es : List ItemsEvent} (h : run WheelItems.step {} es = some st) :
    st.Kept ∧ st.Placed := by
  have hc : Meets WheelItems.step (fun _ _ => True) {} es :=
    meets_of_forall (fun _ _ => trivial) _
  exact run_invariant (I := fun st => st.Kept ∧ st.Placed) (fun _ _ _ hi _ hs => step_kept hi hs) kept_new hc h

end WheelItems

end CameraClient
