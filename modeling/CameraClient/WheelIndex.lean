import CameraClient.Panel

/-! The index of a wheel against the list it shows. A status replaces the list
first and the index in a second step that a scrolling wheel, or a reported value
missing from its list, skips. `wheel_index_valid_iff` says exactly which
statuses keep every index valid, and that a valid index is what keeps a drag too
short to change the item from posting one. -/
namespace CameraClient
open Runs

instance (v : WheelView) : Decidable v.IndexValid :=
  inferInstanceAs (Decidable (∀ adapter ∈ v.viewAdapter, adapter.items ≠ [] →
    0 ≤ v.currentItem ∧ v.currentItem < adapter.getItemsCount))

instance {p : WheelId → Prop} [DecidablePred p] : Decidable (∀ w, p w) :=
  decidable_of_iff (p .aperture ∧ p .shutterSpeed ∧ p .exposureMode ∧ p .iso)
    ⟨fun ⟨a, s, e, i⟩ w => by cases w <;> assumption, fun h => ⟨h _, h _, h _, h _⟩⟩

/-- A status fits a wheel: the wheel is at rest and its value is in the list, or
the list is empty or long enough for the current index. The ISO wheel keeps its
list while it scrolls. -/
def FullStatus.Fits (s : FullStatus) (w : WheelId) (v : WheelView) : Prop :=
  (w = .iso ∧ v.isScrolling) ∨ (¬ v.isScrolling ∧ s.shown w ∈ s.items w) ∨ s.items w = [] ∨
    v.currentItem < (s.items w).length

def StatusFits (st : UiState) : PanelEvent → Prop
  | .status s => ∀ w, s.Fits w (st.wheel w)
  | .wheel _ => True

/-- The drag leaves the wheel closer to the current item than to its neighbours. -/
def ShortDrag (v : WheelView) (layout : Layout) (distance : Int) : Prop :=
  ((v.scrollingOffset + distance).natAbs : Int) ≤ layout.itemHeight.tdiv 2

structure WheelsSound (st : UiState) : Prop where
  valid : ∀ w, (st.wheel w).IndexValid
  shortDrag : ∀ w layout distance st', ShortDrag (st.wheel w) layout distance →
    panelStep st (.wheel (.scrolled w layout distance)) = some st' → posted st st' = []

theorem indexValid_ofTexts {v : WheelView} {texts : List String}
    (ha : v.viewAdapter = some (.ofTexts texts)) (h0 : 0 ≤ v.currentItem) :
    v.IndexValid ↔ texts = [] ∨ v.currentItem < texts.length := by
  simp only [WheelView.IndexValid, ha, Option.mem_some_iff, forall_eq',
    ArrayWheelAdapter.getItemsCount_ofTexts]
  simp only [ArrayWheelAdapter.ofTexts, ne_eq, List.map_eq_nil_iff, h0, true_and]
  tauto

theorem showOn_currentItem_nonneg {s : FullStatus} {w : WheelId} {v : WheelView}
    (h : 0 ≤ v.currentItem) : 0 ≤ (s.showOn w v).currentItem := by
  unfold FullStatus.showOn
  split_ifs
  · exact h
  · rw [WheelView.currentItem_load]
    split_ifs
    · exact h
    · omega

/-- Installing a status keeps a wheel's index valid exactly when the status fits. -/
theorem showOn_indexValid_iff {s : FullStatus} {w : WheelId} {v : WheelView}
    (h0 : 0 ≤ v.currentItem) (hv : v.IndexValid) : (s.showOn w v).IndexValid ↔ s.Fits w v := by
  unfold FullStatus.showOn FullStatus.Fits
  by_cases hi : w = .iso ∧ v.isScrolling
  · rw [if_pos hi]
    exact ⟨fun _ => .inl hi, fun _ => hv⟩
  · have hn : 0 ≤ (v.load (s.items w) (s.shown w)).currentItem := by
      simpa [FullStatus.showOn, hi] using showOn_currentItem_nonneg (s := s) (w := w) h0
    rw [if_neg hi, indexValid_ofTexts (WheelView.viewAdapter_load _ _ _) hn,
      WheelView.currentItem_load]
    by_cases hs : v.isScrolling = true
    · have hw : w ≠ .iso := fun h => hi ⟨h, hs⟩
      simp [hs, hw]
    · by_cases ht : s.shown w ∈ s.items w
      · have hlt := List.idxOf_lt_length_iff.mpr ht
        simp [hs, ht, hlt]
      · simp [hs, ht]

theorem wheel_event_index {st st' : UiState} {e : WheelEvent} (h : e.callback st = .ok () st')
    (w : WheelId) : (st'.wheel w).viewAdapter = (st.wheel w).viewAdapter ∧
      ((st'.wheel w).currentItem = (st.wheel w).currentItem ∨ 0 ≤ (st'.wheel w).currentItem ∧
        ∀ adapter ∈ (st.wheel w).viewAdapter, (st'.wheel w).currentItem < adapter.getItemsCount) := by
  by_cases hw : w = e.wheel
  · subst hw
    rcases WheelEvent.callback_ok h with
      ⟨_, _, rfl⟩ | ⟨i, text, ⟨adapter, ha, h0, hi, -⟩, -, _, _, rfl⟩
    · simp [WheelView.scrolledTo]
    · simp [UiState.wheel_tasks, WheelView.scrolledTo, WheelView.movedTo, ha, h0, hi]
  · rcases WheelEvent.callback_ok h with ⟨_, _, rfl⟩ | ⟨i, text, -, -, _, _, rfl⟩
    · simp [hw]
    · simp [UiState.wheel_tasks, hw]

theorem wheel_event_indexValid {st st' : UiState} {e : WheelEvent} (h : e.callback st = .ok () st')
    {w : WheelId} (hv : (st.wheel w).IndexValid) : (st'.wheel w).IndexValid := by
  obtain ⟨ha, hi⟩ := wheel_event_index h w
  intro adapter hm hne
  rw [ha] at hm
  rcases hi with hi | ⟨h0, hi⟩
  · rw [hi]
    exact hv adapter hm hne
  · exact ⟨h0, hi adapter hm⟩

theorem panelStep_currentItem_nonneg {st st' : UiState} {e : PanelEvent}
    (h0 : ∀ w, 0 ≤ (st.wheel w).currentItem) (h : panelStep st e = some st') (w : WheelId) :
    0 ≤ (st'.wheel w).currentItem := by
  cases e with
  | status s =>
    rw [panelStep_status h, wheel_applyTo]
    exact showOn_currentItem_nonneg (h0 w)
  | wheel e =>
    rcases (wheel_event_index (panelStep_wheel h).2 w).2 with hi | hi
    · rw [hi]
      exact h0 w
    · exact hi.1

theorem natAbs_lt_of_short {x itemHeight : Int} (hx : x ≠ 0)
    (h : (x.natAbs : Int) ≤ itemHeight.tdiv 2) : x.natAbs < itemHeight.natAbs := by
  rcases Int.le_total 0 itemHeight with hp | hn
  · rw [Int.tdiv_eq_ediv_of_nonneg hp] at h
    omega
  · have hneg : itemHeight.tdiv 2 ≤ 0 := by
      have := Int.tdiv_eq_ediv_of_nonneg (b := 2) (a := -itemHeight) (by omega)
      rw [Int.neg_tdiv] at this
      omega
    omega

theorem scrollPos_shortDrag {v : WheelView} {itemCount : Int} {layout : Layout} {distance : Int}
    (h0 : 0 ≤ v.currentItem) (hi : v.currentItem < itemCount) (hs : ShortDrag v layout distance) :
    v.scrollPos itemCount layout distance = v.currentItem := by
  have hc : (v.scrollingOffset + distance).tdiv layout.itemHeight = 0 := by
    by_cases hx : v.scrollingOffset + distance = 0
    · simp [hx]
    · have hlt := natAbs_lt_of_short hx hs
      rw [← Int.natAbs_eq_zero, Int.natAbs_tdiv]
      exact Nat.div_eq_of_lt hlt
  have hm : (v.scrollingOffset + distance).tmod layout.itemHeight = v.scrollingOffset + distance := by
    have hd := Int.mul_tdiv_add_tmod (v.scrollingOffset + distance) layout.itemHeight
    rw [hc] at hd
    omega
  unfold ShortDrag at hs
  simp only [WheelView.scrollPos, WheelView.scrollTarget, hc, hm, if_pos hs, WheelView.isCyclic,
    Int.sub_zero]
  rw [if_neg (by simp), if_neg (by omega), if_neg (by omega), if_neg (by omega), if_neg (by omega)]

theorem shortDrag_posts_nothing {st st' : UiState} {w : WheelId} {layout : Layout} {distance : Int}
    (hv : (st.wheel w).IndexValid) (hs : ShortDrag (st.wheel w) layout distance)
    (h : onScroll w layout distance st = .ok () st') : st'.tasks = st.tasks := by
  rcases onScroll_ok h with ⟨_, rfl⟩ | ⟨adapter, text, ha, hm⟩
  · rfl
  · obtain ⟨adapter', ha', h0, hi, -⟩ := hm.adapter
    obtain rfl : adapter = adapter' := by simpa [ha] using ha'
    have hne : adapter.items ≠ [] := by
      intro hnil
      have h00 : adapter.getItemsCount = 0 := by simp [ArrayWheelAdapter.getItemsCount, hnil]
      omega
    obtain ⟨hc0, hci⟩ := hv adapter ha hne
    exact absurd (scrollPos_shortDrag hc0 hci hs) hm.changed

theorem wheelsSound_iff (st : UiState) : WheelsSound st ↔ ∀ w, (st.wheel w).IndexValid := by
  refine ⟨fun h => h.valid, fun h => ⟨h, fun w layout distance st' hs hst => ?_⟩⟩
  rw [posted, shortDrag_posts_nothing (h w) hs (panelStep_wheel hst).2, List.drop_length]

/-- Every wheel's index stays valid, and no short drag posts a setting,
throughout a run exactly when each of its statuses fits every wheel. -/
theorem wheel_index_valid_iff (es : List PanelEvent) :
    Always panelStep WheelsSound {} es ↔ Meets panelStep StatusFits {} es := by
  refine always_iff_meets (K := fun st => ∀ w, 0 ≤ (st.wheel w).currentItem)
    (fun st e st' h0 _ hst w => panelStep_currentItem_nonneg h0 hst w) ?_ ?_ ?_ ?_
  · intro st e st' h0 hs hst
    rw [wheelsSound_iff] at hs ⊢
    cases e with
    | status s =>
      rw [panelStep_status hst]
      simp only [wheel_applyTo]
      exact forall_congr' fun w => showOn_indexValid_iff (h0 w) (hs w)
    | wheel e =>
      exact ⟨fun _ => trivial, fun _ w => wheel_event_indexValid (panelStep_wheel hst).2 (hs w)⟩
  · intro st e he
    cases e with
    | status s => simp [panelStep_status_eq] at he
    | wheel e => trivial
  · intro w
    cases w <;> decide
  · rw [wheelsSound_iff]
    decide

instance (v : WheelView) (layout : Layout) (distance : Int) : Decidable (ShortDrag v layout distance) :=
  inferInstanceAs (Decidable (_ ≤ _))

/-- Shortening the aperture list under a value it does not hold strands the
index, and a drag by one pixel then posts the last item. -/
theorem shortened_list_strands_index : ∃ es st st',
    run panelStep {} es = some st ∧ ¬ (st.wheel .aperture).IndexValid ∧
    ShortDrag (st.wheel .aperture) ⟨40, 200⟩ 1 ∧
    panelStep st (.wheel (.scrolled .aperture ⟨40, 200⟩ 1)) = some st' ∧
    posted st st' = [.postSettings { aperture := some "f/4" }] :=
  ⟨[.status (sampleStatus ["f/2", "f/4", "f/8"] "f/8" ["100"] "100"),
      .status (sampleStatus ["f/2", "f/4"] "f/5.6" ["100"] "100"), .wheel (.started .aperture)],
    _, _, rfl, by decide, by decide, rfl, rfl⟩

end CameraClient
