import CameraClient.Panel

/-! Runs of status deliveries alone: they post nothing, the last one decides, and a
wheel the user is turning is left alone only where the new list changes nothing. -/
namespace CameraClient
open Runs

def updateStatuses (cameraStatuses : List CameraStatus) : Ui Unit :=
  cameraStatuses.forM updateStatus

theorem updateStatuses_cons (s : CameraStatus) (ss : List CameraStatus) (st : UiState) :
    updateStatuses (s :: ss) st = (updateStatus s >>= fun _ => updateStatuses ss) st := rfl

theorem updateStatuses_full (ss : List FullStatus) (st : UiState) :
    updateStatuses (ss.map FullStatus.toCameraStatus) st =
      .ok () { st with activity := ss.foldl (fun a s => s.applyTo a) st.activity } := by
  induction ss generalizing st with
  | nil => rfl
  | cons s ss ih =>
    rw [List.map_cons, updateStatuses_cons, Ui.bind_ok (updateStatus_full s st), ih]
    rfl

theorem exists_full {ss : List CameraStatus} (h : ∀ s ∈ ss, s.FullyPopulated) :
    ∃ fs : List FullStatus, fs.map FullStatus.toCameraStatus = ss := by
  induction ss with
  | nil => exact ⟨[], rfl⟩
  | cons s ss ih =>
    obtain ⟨f, hf⟩ := s.fullyPopulated_iff.mp (h s (by simp))
    obtain ⟨fs, hfs⟩ := ih fun x hx => h x (List.mem_cons_of_mem s hx)
    exact ⟨f :: fs, by rw [List.map_cons, hf, hfs]⟩

/-- Applying statuses never writes back: whatever the activity remembers and shows, any
number of fully populated statuses is applied without a request to the camera. -/
theorem statuses_post_nothing (st : UiState) (ss : List CameraStatus)
    (h : ∀ s ∈ ss, s.FullyPopulated) :
    ∃ st', updateStatuses ss st = .ok () st' ∧ st'.tasks = st.tasks := by
  obtain ⟨fs, rfl⟩ := exists_full h
  exact ⟨_, updateStatuses_full fs st, rfl⟩

/-- Two statuses that move the aperture wheel there and back, and the ISO wheel to AUTO. -/
theorem statuses_post_nothing_there_and_back : ∃ st', updateStatuses
    [(sampleStatus ["f/2", "f/4"] "f/4" ["AUTO"] "100").toCameraStatus,
      { sampleStatus ["f/2", "f/4"] "f/2" ["100"] "100" with isoAuto := true }.toCameraStatus] {} =
        .ok () st' ∧ st'.tasks = [] := by
  refine statuses_post_nothing {} _ fun s hs => (s.fullyPopulated_iff).mpr ?_
  rcases List.mem_cons.mp hs with rfl | hs
  · exact ⟨_, rfl⟩
  · exact ⟨_, (List.mem_singleton.mp hs).symm⟩

/-- Every current value is in its list, the ISO one unless auto ISO is on. -/
def FullStatus.ValuesListed (s : FullStatus) : Prop :=
  ∀ w, ¬ (w = .iso ∧ s.isoAuto) → s.values.get w ∈ s.lists.get w

theorem FullStatus.ValuesListed.shown_mem {s : FullStatus} (h : s.ValuesListed) (w : WheelId) :
    s.shown w ∈ s.items w := by
  cases w with
  | iso =>
    cases ha : s.isoAuto with
    | true => simp [FullStatus.shown, FullStatus.items, ha]
    | false =>
      have hv := h .iso (by simp [ha])
      simpa [FullStatus.shown, FullStatus.items, ha] using .inr hv
  | aperture => exact h .aperture (by simp)
  | shutterSpeed => exact h .shutterSpeed (by simp)
  | exposureMode => exact h .exposureMode (by simp)

theorem FullStatus.applyTo_applyTo {s : FullStatus} {a : FullscreenActivity} (f : FullStatus)
    (hrest : ∀ w, (a.wheels.get w).isScrolling = false) (hs : s.ValuesListed) :
    s.applyTo (f.applyTo a) = s.applyTo a := by
  have hw (w : WheelId) : s.showOn w ((f.applyTo a).wheels.get w) = s.showOn w (a.wheels.get w) := by
    have hf : ((f.applyTo a).wheels.get w).isScrolling = false := by simp [applyTo, hrest w]
    rw [showOn_listed hf (hs.shown_mem w), showOn_listed (hrest w) (hs.shown_mem w)]
  simp only [applyTo] at hw ⊢
  simp only [hw]

theorem FullStatus.applyTo_foldl {s : FullStatus} (hs : s.ValuesListed) (fs : List FullStatus)
    {a : FullscreenActivity} (hrest : ∀ w, (a.wheels.get w).isScrolling = false) :
    s.applyTo (fs.foldl (fun a f => f.applyTo a) a) = s.applyTo a := by
  induction fs generalizing a with
  | nil => rfl
  | cons f fs ih =>
    have hf : ∀ w, ((f.applyTo a).wheels.get w).isScrolling = false := by
      simpa [applyTo] using hrest
    rw [List.foldl_cons, ih hf, applyTo_applyTo f hrest hs]

/-- Only the last status counts: with no wheel scrolling, what came before a status whose
values are in its lists leaves no trace. -/
theorem only_last_status_counts (st : UiState) (ss : List CameraStatus) (s : FullStatus)
    (hrest : ∀ w, (st.wheel w).isScrolling = false) (hss : ∀ t ∈ ss, t.FullyPopulated)
    (hs : s.ValuesListed) :
    ∃ st', updateStatuses (ss ++ [s.toCameraStatus]) st = .ok () st' ∧
      updateStatus s.toCameraStatus st = .ok () st' := by
  obtain ⟨fs, rfl⟩ := exists_full hss
  have hlast : fs.map FullStatus.toCameraStatus ++ [s.toCameraStatus] =
      (fs ++ [s]).map FullStatus.toCameraStatus := by simp
  refine ⟨_, ?_, updateStatus_full s st⟩
  rw [hlast, updateStatuses_full, List.foldl_append, List.foldl_cons, List.foldl_nil,
    FullStatus.applyTo_foldl hs fs hrest]

/-- The lists, the wheels and the mode change; the last status does not remember. -/
theorem only_last_status_counts_two : ∃ st', updateStatuses
    ([(sampleStatus ["f/2", "f/4"] "f/4" ["100"] "100").toCameraStatus] ++
      [(sampleStatus ["f/4", "f/8"] "f/8" ["200"] "200").toCameraStatus]) {} = .ok () st' ∧
    updateStatus (sampleStatus ["f/4", "f/8"] "f/8" ["200"] "200").toCameraStatus {} =
      .ok () st' := by
  refine only_last_status_counts {} _ _ ?_ ?_ ?_
  · intro w
    cases w <;> rfl
  · intro s hs
    obtain rfl := List.mem_singleton.mp hs
    exact (CameraStatus.fullyPopulated_iff _).mpr ⟨_, rfl⟩
  · intro w _
    cases w <;> decide

/-- The index of a wheel, the text there and the scroll offset are what they were. -/
structure WheelView.Undisturbed (v v' : WheelView) : Prop where
  currentItem : v'.currentItem = v.currentItem
  currentText : v'.currentText = v.currentText
  scrollingOffset : v'.scrollingOffset = v.scrollingOffset

/-- The wheels the user is turning are left alone, those at rest show what is reported if
their list holds it. -/
structure LeavesScrolling (s : FullStatus) (st st' : UiState) : Prop where
  scrolling : ∀ w, (st.wheel w).isScrolling = true → (st.wheel w).Undisturbed (st'.wheel w)
  atRest : ∀ w, (st.wheel w).isScrolling = false → s.shown w ∈ s.items w →
    (st'.wheel w).currentText = some (s.shown w)

theorem undisturbed_setViewAdapter (v : WheelView) (texts : List String) :
    v.Undisturbed (v.setViewAdapter (.ofTexts texts)) ↔ v.scrollingOffset = 0 ∧
      { v with viewAdapter := some (.ofTexts texts) }.currentText = v.currentText := by
  constructor
  · rintro ⟨-, ht, ho⟩
    exact ⟨ho.symm, ht⟩
  · rintro ⟨ho, ht⟩
    exact ⟨rfl, ht, ho.symm⟩

/-- A status leaves the wheels being turned alone exactly when each of them, but for the
ISO wheel, whose list waits, is right on an item that the new list has at the same index. -/
theorem scrolling_wheels_undisturbed_iff (st : UiState) (s : FullStatus) :
    ∃ st', updateStatus s.toCameraStatus st = .ok () st' ∧
      (LeavesScrolling s st st' ↔ ∀ w, w ≠ .iso → (st.wheel w).isScrolling = true →
        (st.wheel w).scrollingOffset = 0 ∧
        { st.wheel w with viewAdapter := some (.ofTexts (s.items w)) }.currentText =
          (st.wheel w).currentText) := by
  refine ⟨_, updateStatus_full s st, ?_⟩
  have hload {w : WheelId} (hw : w ≠ .iso) (hs : (st.wheel w).isScrolling = true) :
      s.showOn w (st.wheel w) = (st.wheel w).setViewAdapter (.ofTexts (s.items w)) := by
    simp [FullStatus.showOn, WheelView.load, hw, hs]
  constructor
  · intro h w hw hs
    have hu := h.scrolling w hs
    rw [wheel_applyTo, hload hw hs] at hu
    exact (undisturbed_setViewAdapter _ _).mp hu
  · intro h
    refine ⟨fun w hs => ?_, fun w hs hl => ?_⟩
    · rw [wheel_applyTo]
      by_cases hw : w = .iso
      · rw [FullStatus.showOn, if_pos ⟨hw, hs⟩]
        exact ⟨rfl, rfl, rfl⟩
      · rw [hload hw hs]
        exact (undisturbed_setViewAdapter _ _).mpr (h w hw hs)
    · rw [wheel_applyTo]
      exact currentText_showOn hs hl

/-- The user turns the aperture wheel, and a status with the same lists puts it back right
on its item. -/
theorem status_resets_scroll_offset : ∃ st st' : UiState,
    run panelStep {} [.status (sampleStatus ["f/2", "f/4"] "f/2" ["100"] "100"),
      .wheel (.started .aperture), .wheel (.scrolled .aperture ⟨40, 120⟩ 15)] = some st ∧
    (st.wheel .aperture).isScrolling = true ∧ (st.wheel .aperture).scrollingOffset = 15 ∧
    updateStatus (sampleStatus ["f/2", "f/4"] "f/2" ["100"] "100").toCameraStatus st = .ok () st' ∧
    (st'.wheel .aperture).scrollingOffset = 0 ∧
    ¬ LeavesScrolling (sampleStatus ["f/2", "f/4"] "f/2" ["100"] "100") st st' := by
  refine ⟨_, _, rfl, rfl, rfl, rfl, rfl, fun h => ?_⟩
  have ho := (h.scrolling .aperture rfl).scrollingOffset
  exact absurd ho (by decide)

end CameraClient
