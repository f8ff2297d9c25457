import CameraClient.StatusParts

/-! What a fully populated status does to the activity. `FullStatus.applyTo` is the
effect of a status as one function; `updateStatus_full` identifies it with the
source's sequence of steps. -/
namespace CameraClient

theorem idxOf_texts (texts : List String) (t : String) :
    (texts.map some).idxOf (some t) = texts.idxOf t := by
  induction texts with
  | nil => rfl
  | cons x texts ih => simp [List.idxOf_cons, ih]

theorem showItems_texts (v : WheelView) (texts : List String) (t : String) :
    v.showItems (texts.map some) (some t) = v.load texts t := by
  simp [WheelView.showItems, WheelView.load, idxOf_texts, ArrayWheelAdapter.ofTexts]

def FullStatus.showOn (s : FullStatus) (w : WheelId) (v : WheelView) : WheelView :=
  if w = .iso ∧ v.isScrolling then v else v.load (s.items w) (s.shown w)

@[simp] theorem WheelView.isScrolling_load (v : WheelView) (texts : List String) (t : String) :
    (v.load texts t).isScrolling = v.isScrolling := by
  unfold load
  split_ifs <;> rfl

@[simp] theorem FullStatus.isScrolling_showOn (s : FullStatus) (w : WheelId) (v : WheelView) :
    (s.showOn w v).isScrolling = v.isScrolling := by
  unfold showOn
  split_ifs
  · rfl
  · exact v.isScrolling_load _ _

def WheelView.restingOn (texts : List String) (index : Int) : WheelView :=
  { viewAdapter := some (.ofTexts texts), currentItem := index }

theorem WheelView.load_listed {v : WheelView} {texts : List String} {t : String}
    (hs : v.isScrolling = false) (ht : t ∈ texts) :
    v.load texts t = .restingOn texts (texts.idxOf t) := by
  have hl : ¬ (v.isScrolling = true ∨ t ∉ texts) := by simp [hs, ht]
  unfold load
  rw [if_neg hl]
  cases v with
  | mk adapter item offset scrolling =>
    obtain rfl : scrolling = false := hs
    rfl

theorem FullStatus.showOn_listed {s : FullStatus} {w : WheelId} {v : WheelView}
    (hs : v.isScrolling = false) (h : s.shown w ∈ s.items w) :
    s.showOn w v = .restingOn (s.items w) ((s.items w).idxOf (s.shown w)) := by
  have hn : ¬ (w = .iso ∧ v.isScrolling = true) := by simp [hs]
  rw [showOn, if_neg hn, WheelView.load_listed hs h]

theorem currentText_restingOn {texts : List String} {t : String} (ht : t ∈ texts) :
    (WheelView.restingOn texts (texts.idxOf t)).currentText = some t := by
  have hlt := List.idxOf_lt_length_iff.mpr ht
  simp [WheelView.restingOn, WheelView.currentText, ArrayWheelAdapter.ofTexts,
    List.getElem?_eq_getElem hlt]

theorem currentText_showOn {s : FullStatus} {w : WheelId} {v : WheelView}
    (hs : v.isScrolling = false) (hl : s.shown w ∈ s.items w) :
    (s.showOn w v).currentText = some (s.shown w) := by
  rw [FullStatus.showOn_listed hs hl]
  exact currentText_restingOn hl

def FullStatus.applyTo (s : FullStatus) (a : FullscreenActivity) : FullscreenActivity where
  mCaptureMode := some s.captureMode
  mIsRecording := a.mIsRecording
  mIsInLiveview := s.isInLiveView
  remembered := .ofFun fun w => some (s.shown w)
  wheels := .ofFun fun w => s.showOn w (a.wheels.get w)

theorem reported_full (s : FullStatus) (w : WheelId) :
    s.toCameraStatus.reported.get w = some (s.shown w) := by
  cases w with
  | iso => cases ha : s.isoAuto <;>
      simp [CameraStatus.reported, FullStatus.toCameraStatus, FullStatus.shown, PerWheel.get, ha]
  | _ => rfl

theorem listed_full (s : FullStatus) (w : WheelId) :
    s.toCameraStatus.listed w = some ((s.items w).map some) := by
  cases w <;> rfl

theorem showOn_full (s : FullStatus) (w : WheelId) (v : WheelView) :
    s.toCameraStatus.showOn w v = s.showOn w v := by
  simp only [CameraStatus.showOn, FullStatus.showOn, listed_full, reported_full, showItems_texts]

theorem not_raises_full (s : FullStatus) (st : UiState) (part : StatusPart) :
    ¬ s.toCameraStatus.Raises st part := by
  cases part with
  | wheel w => simp [CameraStatus.Raises, listed_full, reported_full, WheelView.MeetsNull]
  | captureMode => simp [CameraStatus.Raises, FullStatus.toCameraStatus]
  | isInLiveView => simp [CameraStatus.Raises, FullStatus.toCameraStatus]

/-- A fully populated status never raises, posts nothing, and its effect on the
activity is `applyTo`. -/
theorem updateStatus_full (s : FullStatus) (st : UiState) :
    updateStatus s.toCameraStatus st = .ok () { st with activity := s.applyTo st.activity } := by
  have hauto : s.toCameraStatus.isoAuto ≠ none := by simp [FullStatus.toCameraStatus]
  have hremembered : s.toCameraStatus.reported = .ofFun fun w => some (s.shown w) :=
    PerWheel.ext (reported_full s .aperture) (reported_full s .shutterSpeed)
      (reported_full s .exposureMode) (reported_full s .iso)
  have hmode : s.toCameraStatus.captureMode = some s.captureMode.value := rfl
  have hliveview : s.toCameraStatus.isInLiveView = some s.isInLiveView := rfl
  rw [updateStatus_no_raise hauto fun part _ => not_raises_full s st part, foldl_write]
  simp only [UiState.remember, hremembered, hmode, hliveview, showOn_full, FullStatus.applyTo,
    Option.elim_some, CaptureMode.fromValue_value, Option.getD_some]
  rfl

end CameraClient
