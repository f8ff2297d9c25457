import CameraClient.WheelItems

/-! What the operations on a wheel's rows keep: the column shows consecutive items of the
adapter, no view is in two places, and a layout pass follows whenever a row was added. -/
namespace CameraClient
open Runs Slices StateError

def ArrayWheelAdapter.textAt (a : ArrayWheelAdapter) (j : Int) : Option String :=
  if j < 0 then none else (a.items[j.toNat]?).join

def WheelView.textAt (v : WheelView) (j : Int) : Option String :=
  v.viewAdapter.bind fun adapter => adapter.textAt j

def WheelView.HasItem (v : WheelView) (j : Int) : Prop :=
  ∃ adapter, v.viewAdapter = some adapter ∧ 0 ≤ j ∧ j < adapter.getItemsCount

def WheelView.Raises (v : WheelView) (e : JavaException) : Prop :=
  e = .nullPointer ∧ ∃ adapter, v.viewAdapter = some adapter ∧ none ∈ adapter.items

namespace WheelItems
variable {st st' : WheelItems} {j : Int}

theorem children_eq {children : List ItemView} (hl : st.itemsLayout = some children) :
    st.children = children := by
  rw [WheelItems.children, hl, Option.getD_some]

/-- No view is in two places, none is kept for the rows beyond the ends. -/
structure Pool (st : WheelItems) : Prop where
  distinct : ((st.children ++ st.items).map ItemView.id).Nodup
  made : ∀ view ∈ st.children ++ st.items, view.id < st.created
  noEmpty : st.emptyItems = []

def total (st : WheelItems) : Nat := st.children.length + st.items.length

structure Takes (st : WheelItems) (view : ItemView) (st' : WheelItems) : Prop where
  kept : st' = { st with items := st'.items, created := st'.created }
  distinct : ((view :: (st.children ++ st'.items)).map ItemView.id).Nodup
  made : ∀ v ∈ view :: (st.children ++ st'.items), v.id < st'.created
  total : st.children.length + 1 + st'.items.length ≤ max st.total (st.children.length + 1)
  created : st'.created + st.total = st.created + (st.children.length + 1 + st'.items.length)

theorem textAt_of_getItemText {adapter : ArrayWheelAdapter} {text : Option String}
    (h0 : 0 ≤ j) (hn : j < adapter.getItemsCount) (h : adapter.getItemText j = .ok text) :
    adapter.textAt j = some (text.getD "") := by
  rw [ArrayWheelAdapter.getItemText, if_pos ⟨h0, hn⟩] at h
  have hlt : j.toNat < adapter.items.length := by
    simp only [ArrayWheelAdapter.getItemsCount] at hn
    omega
  rw [List.getD_eq_getElem?_getD, List.getElem?_eq_getElem hlt, Option.getD_some] at h
  rw [ArrayWheelAdapter.textAt, if_neg (by omega), List.getElem?_eq_getElem hlt]
  cases hi : adapter.items[j.toNat] with
  | none => simp [hi] at h
  | some item =>
    rw [hi] at h
    cases h
    rfl

theorem null_of_getItemText {adapter : ArrayWheelAdapter} {e : JavaException}
    (h0 : 0 ≤ j) (hn : j < adapter.getItemsCount) (h : adapter.getItemText j = .error e) :
    e = .nullPointer ∧ none ∈ adapter.items := by
  rw [ArrayWheelAdapter.getItemText, if_pos ⟨h0, hn⟩] at h
  have hlt : j.toNat < adapter.items.length := by
    simp only [ArrayWheelAdapter.getItemsCount] at hn
    omega
  rw [List.getD_eq_getElem?_getD, List.getElem?_eq_getElem hlt, Option.getD_some] at h
  cases hi : adapter.items[j.toNat] with
  | none =>
    rw [hi] at h
    cases h
    exact ⟨rfl, hi ▸ List.getElem_mem hlt⟩
  | some item => simp [hi] at h

theorem hasItem_of_textAt {v : WheelView} {text : String} (h : v.textAt j = some text) :
    v.HasItem j := by
  rw [WheelView.textAt, Option.bind_eq_some_iff] at h
  obtain ⟨adapter, ha, h⟩ := h
  rw [ArrayWheelAdapter.textAt] at h
  split_ifs at h with h0
  refine ⟨adapter, ha, by omega, ?_⟩
  by_contra hn
  rw [List.getElem?_eq_none (by simp only [ArrayWheelAdapter.getItemsCount] at hn; omega)] at h
  cases h

theorem getItem_yields {adapter : ArrayWheelAdapter} (ha : st.view.viewAdapter = some adapter)
    (hp : st.Pool) (h0 : 0 ≤ j) (hn : j < adapter.getItemsCount) :
    Yields st.view.Raises (WheelRecycle.getItem >>= adapter.getItem j) st fun view st' =>
      ∃ v, view = some v ∧ st.view.textAt j = some v.text ∧ st.Takes v st' := by
  have hd := hp.distinct
  have hm := hp.made
  cases ht : adapter.getItemText j with
  | error e =>
    obtain ⟨rfl, hnull⟩ := null_of_getItemText h0 hn ht
    have hraise : st.view.Raises .nullPointer := ⟨rfl, adapter, ha, hnull⟩
    cases hi : st.items with
    | nil =>
      exact yields_error (by simp [WheelRecycle.getItem, WheelRecycle.getCachedView, hi,
        ArrayWheelAdapter.getItem, h0, hn, ht, newTextView]; rfl) hraise
    | cons u pool =>
      exact yields_error (by simp [WheelRecycle.getItem, WheelRecycle.getCachedView, hi,
        ArrayWheelAdapter.getItem, h0, hn, ht]; rfl) hraise
  | ok text =>
    have htext : st.view.textAt j = some (text.getD "") := by
      rw [WheelView.textAt, ha, Option.bind_some, textAt_of_getItemText h0 hn ht]
    cases hi : st.items with
    | nil =>
      rw [hi, List.append_nil] at hd hm
      refine yields_ok (b := some { id := st.created, text := text.getD "" })
        (t := { st with items := [], created := st.created + 1 }) ?_ ⟨_, rfl, htext, ?_⟩
      · simp [WheelRecycle.getItem, WheelRecycle.getCachedView, hi, ArrayWheelAdapter.getItem, h0,
          hn, ht, newTextView]
      · refine ⟨rfl, ?_, ?_, ?_, ?_⟩
        · rw [List.map_cons, List.nodup_cons, List.append_nil]
          refine ⟨?_, hd⟩
          intro hmem
          obtain ⟨v, hv, he⟩ := List.mem_map.mp hmem
          have := hm v hv
          dsimp only at he
          omega
        · intro v hv
          rw [List.append_nil, List.mem_cons] at hv
          rcases hv with rfl | hv
          · exact Nat.lt_succ_self _
          · exact Nat.lt_succ_of_lt (hm v hv)
        · simp only [WheelItems.total, List.length_nil]
          omega
        · simp only [WheelItems.total, hi, List.length_nil]
          omega
    | cons u pool =>
      rw [hi] at hd hm
      refine yields_ok (b := some { u with text := text.getD "" })
        (t := { st with items := pool }) ?_ ⟨_, rfl, htext, ?_⟩
      · simp [WheelRecycle.getItem, WheelRecycle.getCachedView, hi, ArrayWheelAdapter.getItem, h0,
          hn, ht]
      · refine ⟨rfl, ?_, ?_, ?_, ?_⟩
        · have hperm : (st.children ++ u :: pool).Perm (u :: (st.children ++ pool)) :=
            List.perm_middle
          exact (hperm.map ItemView.id).nodup_iff.mp hd
        · intro v hv
          rcases List.mem_cons.mp hv with rfl | hv
          · exact hm u (by simp)
          · apply hm v
            rcases List.mem_append.mp hv with hv | hv
            · simp [hv]
            · simp [hv]
        · simp only [WheelItems.total, hi, List.length_cons]
          omega
        · simp only [WheelItems.total, hi, List.length_cons]
          omega

structure AddsRow (st : WheelItems) (j : Int) (first : Bool) (st' : WheelItems) : Prop where
  row : ∃ v, st.view.textAt j = some v.text ∧
    st'.itemsLayout = some (if first then v :: st.children else st.children ++ [v])
  pool : st'.Pool
  view : st'.view = st.view
  firstItem : st'.firstItem = st.firstItem
  total : st'.total ≤ max st.total (st.children.length + 1)
  created : st'.created + st.total = st.created + st'.total

theorem addsRow_of_takes {v : ItemView} {children : List ItemView} (first : Bool)
    (hp : st.Pool) (hl : st.itemsLayout = some children) (ht : st.view.textAt j = some v.text)
    (h : st.Takes v st') :
    addView v first st' = .ok () { st' with
      itemsLayout := some (if first then v :: children else children ++ [v]) } ∧
    st.AddsRow j first { st' with
      itemsLayout := some (if first then v :: children else children ++ [v]) } := by
  have hc : st.children = children := children_eq hl
  have hl' : st'.itemsLayout = some children := by
    rw [h.kept]
    exact hl
  obtain ⟨hkept, hd, hm, htotal, hcreated⟩ := h
  rw [hc] at hd hm htotal hcreated
  have hlen : (if first then v :: children else children ++ [v]).length =
      children.length + 1 := by
    cases first <;> simp
  refine ⟨by simp [addView, hl'], ⟨v, ht, by rw [hc]⟩, ?_, ?_, ?_, ?_, ?_⟩
  · have hperm : ((if first then v :: children else children ++ [v]) ++ st'.items).Perm
        (v :: (children ++ st'.items)) := by
      cases first with
      | true => exact List.Perm.refl _
      | false =>
        simp only [Bool.false_eq_true, if_false, List.append_assoc, List.singleton_append]
        exact List.perm_middle
    refine ⟨(hperm.map ItemView.id).nodup_iff.mpr hd, ?_, ?_⟩
    · intro u hu
      exact hm u (hperm.mem_iff.mp hu)
    · have he : st'.emptyItems = st.emptyItems := by rw [hkept]
      exact he.trans hp.noEmpty
  · rw [hkept]
  · rw [hkept]
  · simp only [WheelItems.total, WheelItems.children, Option.getD_some, hlen]
    rw [hl, Option.getD_some]
    simp only [WheelItems.total, hc] at htotal
    exact htotal
  · show st'.created + st.total =
      st.created + ((if first then v :: children else children ++ [v]).length + st'.items.length)
    rw [hlen]
    exact hcreated

theorem addViewItem_none (first : Bool) (hp : st.Pool) (hj : ¬ st.view.HasItem j) :
    addViewItem j first st = .ok false st := by
  cases ha : st.view.viewAdapter with
  | none => simp [addViewItem, getItemView, ha]
  | some adapter =>
    by_cases h0 : adapter.getItemsCount = 0
    · simp [addViewItem, getItemView, ha, h0]
    · have hout : ¬ (0 ≤ j ∧ j < adapter.getItemsCount) := by
        intro h
        exact hj ⟨adapter, ha, h⟩
      have hinvalid : st.isValidItemIndex j = false := by
        simp only [isValidItemIndex, ha, WheelView.isCyclic, Bool.false_or]
        simp only [Bool.and_eq_false_iff, decide_eq_false_iff_not]
        omega
      have hsame : { st with emptyItems := [] } = st := by rw [← hp.noEmpty]
      simp [addViewItem, getItemView, ha, h0, hinvalid, WheelRecycle.getEmptyItem,
        WheelRecycle.getCachedView, hp.noEmpty, ArrayWheelAdapter.getEmptyItem, hsame]

theorem addViewItem_some {children : List ItemView} (first : Bool) (hp : st.Pool)
    (hl : st.itemsLayout = some children) (hj : st.view.HasItem j) :
    Yields st.view.Raises (addViewItem j first) st fun added st' =>
      added = true ∧ st.AddsRow j first st' := by
  obtain ⟨adapter, ha, h0, hn⟩ := hj
  have hvalid : st.isValidItemIndex j = true := by
    simp only [isValidItemIndex, ha, WheelView.isCyclic, Bool.false_or, Bool.and_eq_true,
      decide_eq_true_eq, gt_iff_lt, ge_iff_le]
    omega
  have hmod : j % adapter.getItemsCount = j := Int.emod_eq_of_lt h0 hn
  have hne : adapter.getItemsCount ≠ 0 := by omega
  have hview : getItemView j st = (WheelRecycle.getItem >>= adapter.getItem j) st := by
    simp only [getItemView, bind_apply, get_apply, ha, hne, if_false, hvalid, if_true, hmod]
  have hyields := getItem_yields ha hp h0 hn
  rw [Yields, ← hview, ← Yields] at hyields
  rw [addViewItem]
  apply hyields.bind
  rintro _ t ⟨v, rfl, ht, htakes⟩
  obtain ⟨he, hadds⟩ := addsRow_of_takes first hp hl ht htakes
  exact yields_ok (by simp [he]) ⟨rfl, hadds⟩

structure Kept (st : WheelItems) : Prop extends Pool st where
  rows : IsSlice st.view.textAt st.firstItem (st.children.map ItemView.text)

structure Extends (st : WheelItems) (k : Nat) (st' : WheelItems) : Prop where
  pool : st'.Pool
  column : ∃ children, st'.itemsLayout = some children
  view : st'.view = st.view
  count : st'.children.length = st.children.length + k
  total : st'.total ≤ max st.total st'.children.length
  created : st'.created + st.total = st.created + st'.total

theorem Extends.refl {children : List ItemView} (hp : st.Pool)
    (hl : st.itemsLayout = some children) : st.Extends 0 st :=
  ⟨hp, ⟨children, hl⟩, rfl, rfl, Nat.le_max_left _ _, rfl⟩

theorem Extends.trans {st1 : WheelItems} {k m : Nat} (h1 : st.Extends k st1)
    (h2 : st1.Extends m st') : st.Extends (k + m) st' := by
  have ht1 := h1.total
  have ht2 := h2.total
  have hc1 := h1.count
  have hc2 := h2.count
  have hm1 := h1.created
  have hm2 := h2.created
  exact ⟨h2.pool, h2.column, h2.view.trans h1.view, by omega, by omega, by omega⟩

theorem Pool.withFirst (hp : st.Pool) (first : Int) :
    ({ st with firstItem := first } : WheelItems).Pool :=
  ⟨hp.distinct, hp.made, hp.noEmpty⟩

theorem Extends.withFirst {k : Nat} (h : st.Extends k st') (first : Int) :
    st.Extends k { st' with firstItem := first } :=
  ⟨h.pool.withFirst first, h.column, h.view, h.count, h.total, h.created⟩

theorem AddsRow.length {first : Bool} (h : st.AddsRow j first st') :
    st'.children.length = st.children.length + 1 := by
  obtain ⟨v, -, hl⟩ := h.row
  rw [children_eq hl]
  cases first <;> simp

theorem AddsRow.extends {first : Bool} (h : st.AddsRow j first st') : st.Extends 1 st' := by
  have hlen := h.length
  obtain ⟨v, -, hl⟩ := h.row
  exact ⟨h.pool, ⟨_, hl⟩, h.view, hlen, by rw [hlen]; exact h.total, h.created⟩

theorem AddsRow.rows_above (h : st.AddsRow j true st')
    (hs : IsSlice st.view.textAt (j + 1) (st.children.map ItemView.text)) :
    IsSlice st.view.textAt j (st'.children.map ItemView.text) := by
  obtain ⟨v, ht, hl⟩ := h.row
  rw [if_pos rfl] at hl
  rw [children_eq hl, List.map_cons, isSlice_cons]
  exact ⟨ht, hs⟩

theorem AddsRow.rows_below {first : Int} (h : st.AddsRow j false st')
    (hs : IsSlice st.view.textAt first (st.children.map ItemView.text))
    (hj : j = first + st.children.length) :
    IsSlice st.view.textAt first (st'.children.map ItemView.text) := by
  obtain ⟨v, ht, hl⟩ := h.row
  rw [if_neg (by simp)] at hl
  rw [children_eq hl, List.map_append, isSlice_append, List.length_map, ← hj]
  exact ⟨hs, isSlice_singleton.mpr ht⟩

theorem addAbove_yields (n : Nat) {i : Int} {children : List ItemView} (hk : st.Kept)
    (hl : st.itemsLayout = some children) (hi : i = st.firstItem - 1) :
    Yields st.view.Raises (addAbove n i) st fun _ st' => st'.Kept ∧ ∃ k ≤ n,
      st.Extends k st' ∧ st'.firstItem = st.firstItem - k ∧
      (k < n → ¬ st.view.HasItem (st'.firstItem - 1)) := by
  induction n generalizing st i children with
  | zero =>
    refine yields_ok rfl ⟨hk, 0, Nat.le_refl _, Extends.refl hk.toPool hl, ?_, ?_⟩
    · simp
    · intro h
      omega
  | succ n ih =>
    by_cases hj : st.view.HasItem i
    · apply (addViewItem_some true hk.toPool hl hj).bind
      rintro _ st1 ⟨rfl, hadds⟩
      have hs : IsSlice st.view.textAt (i + 1) (st.children.map ItemView.text) := by
        have he : i + 1 = st.firstItem := by omega
        rw [he]
        exact hk.rows
      have hrows := hadds.rows_above hs
      have hext := hadds.extends
      let st2 : WheelItems := { st1 with firstItem := i }
      have hview : st2.view = st.view := hadds.view
      have hk2 : st2.Kept := ⟨hext.pool.withFirst i, by rw [hview]; exact hrows⟩
      obtain ⟨children2, hl2⟩ := hext.column
      rw [if_pos rfl, Yields, bind_ok (modify_apply _ _), ← Yields]
      have hih := ih (i := i - 1) hk2 hl2 rfl
      rw [hview] at hih
      apply hih.mono
      rintro _ st' ⟨hk', k, hkn, he, hf, hno⟩
      have hext2 : st.Extends 1 st2 := hext.withFirst i
      have hfirst : st2.firstItem = i := rfl
      refine ⟨hk', 1 + k, by omega, hext2.trans he, by omega, ?_⟩
      intro hlt
      exact hno (by omega)
    · rw [addAbove, Yields, bind_ok (addViewItem_none true hk.toPool hj), ← Yields]
      refine yields_ok rfl ⟨hk, 0, by omega, Extends.refl hk.toPool hl, by simp, ?_⟩
      intro _
      rwa [← hi]

/-- What `addBelow` makes of a column whose rows start at `first`, up to the number `stop`. -/
structure AddsBelow (st : WheelItems) (n : Nat) (first stop first' : Int) (st' : WheelItems) :
    Prop where
  extend : ∃ k ≤ n, st.Extends k st'
  firstItem : st'.firstItem = st.firstItem
  rows : IsSlice st.view.textAt first' (st'.children.map ItemView.text)
  later : first ≤ first'
  same : st.children ≠ [] → first' = first
  none : st'.children = [] → first' = first + n
  covers : ∀ j, first ≤ j → j < stop → st.view.HasItem j →
    first' ≤ j ∧ j < first' + st'.children.length

theorem addBelow_behind (n : Nat) {start i first : Int} (hp : st.Pool) (hne : st.children ≠ [])
    (hend : ∀ j, start + i ≤ j → ¬ st.view.HasItem j) :
    addBelow start n i first st = .ok first st := by
  induction n generalizing i with
  | zero => rfl
  | succ n ih =>
    have hcount : st.childCount ≠ 0 := by
      have := List.length_pos_of_ne_nil hne
      simp only [childCount]
      omega
    rw [addBelow, bind_ok (addViewItem_none false hp (hend _ (Int.le_refl _)))]
    simp only [bind_apply, get_apply, hcount, and_false, if_false]
    apply ih
    intro j hj
    exact hend j (by omega)

theorem hasItem_between {v : WheelView} {a b : Int} (ha : v.HasItem a) (hab : a ≤ j) (hjb : j ≤ b)
    (hb : v.HasItem b) : v.HasItem j := by
  obtain ⟨adapter, hv, h0, -⟩ := ha
  obtain ⟨adapter', hv', -, hn⟩ := hb
  rw [hv] at hv'
  cases hv'
  exact ⟨adapter, hv, by omega, by omega⟩

theorem hasItem_of_rows {v : WheelView} {first : Int} {children : List ItemView}
    (hs : IsSlice v.textAt first (children.map ItemView.text)) (h0 : first ≤ j)
    (hn : j < first + children.length) : v.HasItem j := by
  obtain ⟨text, -, ht⟩ := hs.exists_get h0 (by rwa [List.length_map])
  exact hasItem_of_textAt ht

/-- The rows below are added down to that of the last item; a column still empty starts with
the first item there is. -/
theorem addBelow_yields (n : Nat) {start i first : Int} {children : List ItemView}
    (hp : st.Pool) (hl : st.itemsLayout = some children)
    (hs : IsSlice st.view.textAt first (st.children.map ItemView.text))
    (hi : start + i = first + st.children.length) :
    Yields st.view.Raises (addBelow start n i first) st fun first' st' =>
      st.AddsBelow n first (start + i + n) first' st' := by
  induction n generalizing st i first children with
  | zero =>
    refine yields_ok rfl ⟨⟨0, Nat.le_refl _, Extends.refl hp hl⟩, rfl, hs, Int.le_refl _,
      fun _ => rfl, fun _ => (Int.add_zero first).symm, ?_⟩
    intro j h0 hn _
    refine ⟨h0, ?_⟩
    omega
  | succ n ih =>
    by_cases hj : st.view.HasItem (start + i)
    · rw [addBelow]
      apply (addViewItem_some false hp hl hj).bind
      rintro _ st1 ⟨rfl, hadds⟩
      have hrows := hadds.rows_below hs hi
      have hext := hadds.extends
      have hlen := hadds.length
      obtain ⟨children1, hl1⟩ := hext.column
      rw [Yields, bind_ok (get_apply _), ← Yields, if_neg (by simp)]
      have hih := ih hext.pool hl1 (by rw [hext.view]; exact hrows)
        (show start + (i + 1) = first + st1.children.length by omega)
      rw [hext.view] at hih
      apply hih.mono
      intro first' st' h
      obtain ⟨k, hkn, hek⟩ := h.extend
      have hne : st1.children ≠ [] := by
        intro hnil
        rw [hnil] at hlen
        simp at hlen
      have hcount := (hext.trans hek).count
      refine ⟨⟨1 + k, by omega, hext.trans hek⟩, h.firstItem.trans hadds.firstItem, ?_, h.later,
        fun _ => h.same hne, ?_, ?_⟩
      · rw [← hext.view]
        exact h.rows
      · intro hnil
        rw [hnil, List.length_nil] at hcount
        omega
      · intro j h0 hlt hitem
        exact h.covers j h0 (by omega) (by rw [hext.view]; exact hitem)
    · rw [addBelow, Yields, bind_ok (addViewItem_none false hp hj), bind_ok (get_apply _),
        ← Yields]
      by_cases hnil : st.children = []
      · have hcount : st.childCount = 0 := by simp [childCount, hnil]
        rw [if_pos (by simp [hcount])]
        have hlen : st.children.length = 0 := by simp [hnil]
        have hempty : IsSlice st.view.textAt (first + 1) (st.children.map ItemView.text) := by
          rw [hnil]
          trivial
        have hih := ih hp hl hempty (show start + (i + 1) = first + 1 + st.children.length by omega)
        apply hih.mono
        intro first' st' h
        obtain ⟨k, hkn, hek⟩ := h.extend
        have hlater := h.later
        refine ⟨⟨k, by omega, hek⟩, h.firstItem, h.rows, by omega, fun h => absurd hnil h, ?_, ?_⟩
        · intro hnone
          have := h.none hnone
          omega
        intro j h0 hlt hitem
        by_cases he : j = start + i
        · rw [he] at hitem
          exact absurd hitem hj
        · exact h.covers j (by omega) (by omega) hitem
      · have hpos : 0 < st.children.length := List.length_pos_of_ne_nil hnil
        have hhead : st.view.HasItem first := hasItem_of_rows hs (Int.le_refl _) (by omega)
        have hend : ∀ j, start + (i + 1) ≤ j → ¬ st.view.HasItem j := by
          intro j hle hitem
          exact hj (hasItem_between hhead (by omega) (by omega) hitem)
        have hcount : st.childCount ≠ 0 := by
          simp only [childCount]
          omega
        rw [if_neg (by simp [hcount])]
        refine yields_ok (addBelow_behind n hp hnil hend) ⟨⟨0, by omega, Extends.refl hp hl⟩, rfl,
          hs, Int.le_refl _, fun _ => rfl, fun h => absurd h hnil, ?_⟩
        intro j h0 _ hitem
        refine ⟨h0, ?_⟩
        by_contra hlt
        exact hj (hasItem_between hhead (by omega) (by omega) hitem)

end WheelItems

end CameraClient
