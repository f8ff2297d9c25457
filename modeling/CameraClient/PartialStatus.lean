import CameraClient.Panel

/-! What is left behind when a status cannot be applied. The remembered values are written
before anything can raise, and the parts after them up to the one that does, so a raise goes
unnoticed only where each of these writes changes nothing. -/
namespace CameraClient
open Parts

def CameraStatus.Incomplete (s : CameraStatus) (st : UiState) : Prop :=
  s.isoAuto = none ∨ ∃ part ∈ StatusPart.order, s.Raises st part

theorem updateStatus_raises_iff (s : CameraStatus) (st : UiState) :
    (∃ e st', updateStatus s st = .error e st') ↔ s.Incomplete st := by
  by_cases ha : s.isoAuto = none
  · rw [updateStatus_parts, if_pos ha]
    simp [CameraStatus.Incomplete, ha]
  · by_cases hr : ∃ part ∈ StatusPart.order, s.Raises st part
    · obtain ⟨e, he⟩ := updateStatus_raise ha hr
      exact ⟨fun _ => .inr hr, fun _ => ⟨e, _, he⟩⟩
    · rw [updateStatus_no_raise ha (by simpa using hr)]
      simp [CameraStatus.Incomplete, ha, hr]

def WheelView.Shows (v : WheelView) (items : List (Option String)) (value : Option String) : Prop :=
  v.viewAdapter = some ⟨items⟩ ∧ v.scrollingOffset = 0 ∧
    (v.isScrolling = false → value ∈ items → v.currentItem = items.idxOf value)

theorem WheelView.setViewAdapter_eq_self_iff (v : WheelView) (adapter : ArrayWheelAdapter) (i : Int) :
    { v.setViewAdapter adapter with currentItem := i } = v ↔
      v.viewAdapter = some adapter ∧ v.scrollingOffset = 0 ∧ v.currentItem = i := by
  cases v with
  | mk a item offset scrolling =>
    simp only [setViewAdapter, mk.injEq, and_true]
    constructor
    · rintro ⟨ha, hi, ho⟩
      exact ⟨ha.symm, ho.symm, hi.symm⟩
    · rintro ⟨ha, ho, hi⟩
      exact ⟨ha.symm, hi.symm, ho.symm⟩

theorem WheelView.showItems_eq_self_iff (v : WheelView) (items : List (Option String))
    (value : Option String) : v.showItems items value = v ↔ v.Shows items value := by
  by_cases hl : v.isScrolling = true ∨ value ∉ items
  · have hstay : v.isScrolling = false → value ∈ items → v.currentItem = items.idxOf value := by
      intro hs hm
      rcases hl with h | h
      · rw [hs] at h
        cases h
      · exact absurd hm h
    have hset := v.setViewAdapter_eq_self_iff ⟨items⟩ v.currentItem
    rw [showItems_stay hl, Shows]
    simp only [and_true] at hset
    exact ⟨fun h => ⟨(hset.mp h).1, (hset.mp h).2, hstay⟩, fun h => hset.mpr ⟨h.1, h.2.1⟩⟩
  · obtain ⟨hs, hm⟩ := not_or.mp hl
    simp only [Bool.not_eq_true, not_not] at hs hm
    rw [showItems_move hs hm, setViewAdapter_eq_self_iff, Shows]
    exact ⟨fun h => ⟨h.1, h.2.1, fun _ _ => h.2.2⟩, fun h => ⟨h.1, h.2.1, h.2.2 hs hm⟩⟩

def CameraStatus.Keeps (s : CameraStatus) (st : UiState) : StatusPart → Prop
  | .wheel w => ∀ items ∈ s.listed w,
      ¬ (w = .iso ∧ (st.wheel w).isScrolling = true) → (st.wheel w).Shows items (s.reported.get w)
  | .captureMode => ∀ value ∈ s.captureMode, CaptureMode.fromValue value = st.activity.mCaptureMode
  | .isInLiveView => ∀ isInLiveview ∈ s.isInLiveView, isInLiveview = st.activity.mIsInLiveview

theorem setWheel_eq_self_iff {st : UiState} {w : WheelId} {v : WheelView} :
    st.setWheel w v = st ↔ v = st.wheel w := by
  constructor
  · intro h
    have hv : (st.setWheel w v).wheel w = st.wheel w := by rw [h]
    rwa [UiState.wheel_setWheel_self] at hv
  · rintro rfl
    exact st.setWheel_wheel w

theorem write_eq_self_iff (s : CameraStatus) (st : UiState) (part : StatusPart) :
    s.write st part = st ↔ s.Keeps st part := by
  cases part with
  | wheel w =>
    rw [CameraStatus.write, setWheel_eq_self_iff, CameraStatus.showOn]
    cases hl : s.listed w with
    | none => simp [CameraStatus.Keeps, hl]
    | some items =>
      simp only [CameraStatus.Keeps, hl, Option.mem_def, Option.some.injEq, forall_eq']
      by_cases hi : w = .iso ∧ (st.wheel w).isScrolling = true
      · rw [if_pos hi]
        exact ⟨fun _ h => absurd hi h, fun _ => rfl⟩
      · rw [if_neg hi, WheelView.showItems_eq_self_iff]
        exact ⟨fun h _ => h, fun h => h hi⟩
  | captureMode =>
    have hw : s.write st .captureMode = st ↔
        s.captureMode.elim st.activity.mCaptureMode CaptureMode.fromValue =
          st.activity.mCaptureMode :=
      ⟨fun h => congrArg (fun t : UiState => t.activity.mCaptureMode) h,
        fun h => by simp only [CameraStatus.write, h]⟩
    rw [hw]
    cases hc : s.captureMode <;> simp [CameraStatus.Keeps, hc]
  | isInLiveView =>
    have hw : s.write st .isInLiveView = st ↔
        s.isInLiveView.getD st.activity.mIsInLiveview = st.activity.mIsInLiveview :=
      ⟨fun h => congrArg (fun t : UiState => t.activity.mIsInLiveview) h,
        fun h => by simp only [CameraStatus.write, h]⟩
    rw [hw]
    cases hl : s.isInLiveView <;> simp [CameraStatus.Keeps, hl]

theorem tasks_write (s : CameraStatus) (st : UiState) (part : StatusPart) :
    (s.write st part).tasks = st.tasks := by
  cases part <;> rfl

theorem foldl_write_frame (s : CameraStatus) (parts : List StatusPart) (st : UiState) :
    (parts.foldl s.write st).tasks = st.tasks ∧
    (parts.foldl s.write st).activity.remembered = st.activity.remembered := by
  induction parts generalizing st with
  | nil => exact ⟨rfl, rfl⟩
  | cons part parts ih =>
    obtain ⟨ht, hr⟩ := ih (s.write st part)
    exact ⟨ht.trans (tasks_write s st part), hr.trans (remembered_write s st part)⟩

theorem remember_eq_self_iff {st : UiState} {values : PerWheel (Option String)} :
    st.remember values = st ↔ st.activity.remembered = values := by
  constructor
  · intro h
    exact (congrArg (fun t : UiState => t.activity.remembered) h).symm
  · rintro rfl
    rfl

/-- A status that raises leaves the activity as it was exactly when what was written up to
there had been there before: the values to remember and, unless the flag of auto ISO is
missing, the parts up to the one that raises. -/
theorem updateStatus_all_or_nothing_iff (s : CameraStatus) (st : UiState) :
    (∀ e st', updateStatus s st = .error e st' → st'.activity = st.activity) ↔
      (s.Incomplete st → st.activity.remembered = s.reported ∧
        (s.isoAuto ≠ none → ∀ part ∈ upTo (s.Raises st) StatusPart.order, s.Keeps st part)) := by
  by_cases ha : s.isoAuto = none
  · have hinc : s.Incomplete st := .inl ha
    rw [updateStatus_parts, if_pos ha]
    constructor
    · intro h _
      have hact := h _ _ rfl
      exact ⟨(congrArg FullscreenActivity.remembered hact).symm, fun hn => absurd ha hn⟩
    · rintro h _ _ ⟨⟩
      rw [remember_eq_self_iff.mpr (h hinc).1]
  · by_cases hr : ∃ part ∈ StatusPart.order, s.Raises st part
    · have hinc : s.Incomplete st := .inr hr
      obtain ⟨e, he⟩ := updateStatus_raise ha hr
      have hn : (upTo (s.Raises st) StatusPart.order).Nodup :=
        (upTo_sublist _ _).nodup (by decide)
      have hkeep := (program_separate s).foldl_eq_iff hn st
      simp only [write_eq_self_iff] at hkeep
      obtain ⟨htasks, hremembered⟩ :=
        foldl_write_frame s (upTo (s.Raises st) StatusPart.order) (st.remember s.reported)
      rw [he]
      constructor
      · intro h _
        have hact := h _ _ rfl
        have hvalues : st.activity.remembered = s.reported := by
          rw [← congrArg FullscreenActivity.remembered hact, hremembered]
          rfl
        rw [remember_eq_self_iff.mpr hvalues] at hact htasks
        refine ⟨hvalues, fun _ => hkeep.mp ?_⟩
        generalize (upTo (s.Raises st) StatusPart.order).foldl s.write st = st' at hact htasks
        calc st' = ⟨st'.activity, st'.tasks⟩ := rfl
          _ = ⟨st.activity, st.tasks⟩ := by rw [hact, htasks]
          _ = st := rfl
      · rintro h _ _ ⟨⟩
        obtain ⟨hvalues, hparts⟩ := h hinc
        rw [remember_eq_self_iff.mpr hvalues, hkeep.mpr (hparts ha)]
    · rw [updateStatus_no_raise ha (by simpa using hr)]
      simp [CameraStatus.Incomplete, ha, hr]

/-- Without the flag of auto ISO nothing is shown, but the four values are remembered. -/
theorem missing_isoAuto_half_applied : ∃ st' : UiState,
    updateStatus { (sampleStatus ["f/2"] "f/2" ["100"] "100").toCameraStatus with
      isoAuto := none } {} = .error .nullPointer st' ∧
    st'.activity.remembered = ⟨some "f/2", some "1/60", some "M", some "100"⟩ ∧
    st'.activity.wheels = ({} : FullscreenActivity).wheels ∧ st'.activity ≠ {} := by
  refine ⟨_, rfl, rfl, rfl, fun h => ?_⟩
  have hremembered := congrArg FullscreenActivity.remembered h
  exact absurd hremembered (by decide)

end CameraClient
