import CameraClient.Lib.Parts
import CameraClient.Activity

/-! `updateStatus` on whatever status arrives, as a program made of parts: the four
loads, the mode and the liveview flag, after the values to remember. Each part has
a wheel or a flag of the activity to itself. -/
namespace CameraClient
open Parts

/-- What a changing listener posts for an item: nothing if it is the remembered value. -/
def posts (st : UiState) (w : WheelId) (text : String) : List Task :=
  if st.activity.remembered.get w = some text then [] else [.postSettings (settingsFor w text)]

theorem onChanged_eq (w : WheelId) : onChanged w = onWheelChanged w (settingsFor w) := by
  cases w <;> rfl

theorem captureMode_settingsFor (w : WheelId) (text : String) :
    (settingsFor w text).captureMode = none := by
  cases w with
  | iso =>
    change (isoSettings text).captureMode = none
    unfold isoSettings
    split_ifs <;> rfl
  | _ => rfl

theorem onChanged_item {st : UiState} {w : WheelId} {adapter : ArrayWheelAdapter} {i : Int}
    {text : String} (ha : (st.wheel w).viewAdapter = some adapter)
    (hi : adapter.getItemText i = .ok (some text)) :
    onChanged w i st = .ok () { st with tasks := st.tasks ++ posts st w text } := by
  simp only [onChanged_eq, onWheelChanged, Ui.bind_apply, Ui.get_apply, ha, Ui.unbox_some, itemText,
    hi, Ui.pure_apply, stringValueOf]
  by_cases hr : st.activity.remembered.get w = some text
  · simp [posts, hr]
  · simp [posts, hr, applyCameraSettings, executeOnExecutor]

theorem onChanged_null {st : UiState} {w : WheelId} {adapter : ArrayWheelAdapter} {i : Int}
    {e : JavaException} (ha : (st.wheel w).viewAdapter = some adapter)
    (hi : adapter.getItemText i = .error e) : onChanged w i st = .error e st := by
  simp [onChanged_eq, onWheelChanged, ha, itemText, hi]

theorem setCurrentItem_stay {st : UiState} {w : WheelId} {i : Int}
    (h : (st.wheel w).checkedIndex i = none ∨ i = (st.wheel w).currentItem) :
    setCurrentItem w i st = .ok () st := by
  have hs : (st.wheel w).setCurrentItem i = (st.wheel w, none) := by
    rcases (st.wheel w).setCurrentItem_cases i with ⟨hs, -⟩ | ⟨hc, hne, -⟩
    · exact hs
    · rcases h with h | h
      · simp [h] at hc
      · exact absurd h hne
  simp [setCurrentItem, hs]

def WheelView.movedTo (v : WheelView) (i : Int) : WheelView :=
  { v with scrollingOffset := 0, currentItem := i }

theorem setCurrentItem_change {st : UiState} {w : WheelId} {i : Int}
    (hc : (st.wheel w).checkedIndex i = some i) (hne : i ≠ (st.wheel w).currentItem) :
    setCurrentItem w i st = onChanged w i (st.setWheel w ((st.wheel w).movedTo i)) := by
  have hs : (st.wheel w).setCurrentItem i =
      ((st.wheel w).movedTo i, some ((st.wheel w).currentItem, i)) := by
    rcases (st.wheel w).setCurrentItem_cases i with ⟨-, h | h⟩ | ⟨-, -, hs⟩
    · simp [h] at hc
    · exact absurd h hne
    · exact hs
  simp [setCurrentItem, hs]

theorem setCurrentItem_item {st : UiState} {w : WheelId} {adapter : ArrayWheelAdapter} {i : Int}
    {text : String} (ha : (st.wheel w).viewAdapter = some adapter)
    (hc : (st.wheel w).checkedIndex i = some i) (hi : adapter.getItemText i = .ok (some text))
    (hne : i ≠ (st.wheel w).currentItem) :
    setCurrentItem w i st = .ok () { st.setWheel w ((st.wheel w).movedTo i) with
      tasks := st.tasks ++ posts st w text } := by
  have ha' : ((st.setWheel w ((st.wheel w).movedTo i)).wheel w).viewAdapter = some adapter := by
    simpa [WheelView.movedTo] using ha
  rw [setCurrentItem_change hc hne, onChanged_item ha' hi]
  rfl

theorem setCaptureMode_some (m : CaptureMode) (st : UiState) : setCaptureMode (some m) st =
    .ok () { st with activity := { st.activity with mCaptureMode := some m } } := by
  by_cases h : some m = st.activity.mCaptureMode
  · simp only [setCaptureMode, Ui.bind_apply, Ui.get_apply, ← h, if_true, Ui.pure_apply]
    rw [h]
  · simp [setCaptureMode, h]

theorem setCaptureMode_cases {st st' : UiState} {m : Option CaptureMode}
    (h : setCaptureMode m st = .ok () st') :
    st' = st ∨ ∃ mode, st' = { st with activity := { st.activity with mCaptureMode := some mode } } := by
  cases m with
  | some mode =>
    rw [setCaptureMode_some] at h
    cases h
    exact .inr ⟨mode, rfl⟩
  | none =>
    cases hm : st.activity.mCaptureMode with
    | none =>
      simp [setCaptureMode, hm] at h
      exact .inl h.symm
    | some mode => simp [setCaptureMode, hm] at h

/-- The wheel after a load: the list is installed, and a wheel at rest goes to the
value if the list holds it. -/
def WheelView.showItems (v : WheelView) (items : List (Option String)) (value : Option String) :
    WheelView :=
  if v.isScrolling ∨ ¬ items.contains value then v.setViewAdapter ⟨items⟩
  else { v.setViewAdapter ⟨items⟩ with currentItem := items.idxOf value }

theorem WheelView.showItems_stay {v : WheelView} {items : List (Option String)} {value : Option String}
    (h : v.isScrolling = true ∨ value ∉ items) : v.showItems items value = v.setViewAdapter ⟨items⟩ := by
  have hc : v.isScrolling = true ∨ ¬ items.contains value = true := by simpa using h
  rw [showItems, if_pos hc]

theorem WheelView.showItems_move {v : WheelView} {items : List (Option String)} {value : Option String}
    (hs : v.isScrolling = false) (hm : value ∈ items) : v.showItems items value =
      { v.setViewAdapter ⟨items⟩ with currentItem := items.idxOf value } := by
  have hc : ¬ (v.isScrolling = true ∨ ¬ items.contains value = true) := by simp [hs, hm]
  rw [showItems, if_neg hc]

def WheelView.MeetsNull (v : WheelView) (items : List (Option String)) (value : Option String) :
    Prop :=
  v.isScrolling = false ∧ value = none ∧ value ∈ items ∧ (items.idxOf value : Int) ≠ v.currentItem

instance (v : WheelView) (items : List (Option String)) (value : Option String) :
    Decidable (v.MeetsNull items value) :=
  inferInstanceAs (Decidable (_ ∧ _ ∧ _ ∧ _))

theorem getItemText_idxOf {items : List (Option String)} {value : Option String}
    (h : value ∈ items) : (⟨items⟩ : ArrayWheelAdapter).getItemText (items.idxOf value) =
      value.elim (.error .nullPointer) fun text => .ok (some text) := by
  have hlt := List.idxOf_lt_length_iff.mpr h
  have hi : items.getD (items.idxOf value) none = value := by
    rw [List.getD_eq_getElem?_getD, List.getElem?_eq_getElem hlt, List.getElem_idxOf]
    rfl
  have hlt' : (items.idxOf value : Int) < items.length := by omega
  simp only [ArrayWheelAdapter.getItemText, ArrayWheelAdapter.getItemsCount, Int.toNat_natCast, hi,
    Int.natCast_nonneg, hlt', and_self, if_true]
  cases value <;> rfl

theorem indexOf_of_mem {items : List (Option String)} {value : Option String} (h : value ∈ items) :
    indexOf items value = items.idxOf value := by
  simp [indexOf, h]

theorem setCurrentItem_absent {st : UiState} {w : WheelId} {items : List (Option String)}
    {value : Option String} (h : value ∉ items) :
    setCurrentItem w (indexOf items value) st = .ok () st := by
  have hi : indexOf items value = -1 := by simp [indexOf, h]
  rw [hi]
  exact setCurrentItem_stay (.inl (WheelView.checkedIndex_of_neg (by omega)))

theorem setCurrentItem_listed {st : UiState} {w : WheelId} {items : List (Option String)}
    {value : Option String} (ha : (st.wheel w).viewAdapter = some ⟨items⟩)
    (hr : st.activity.remembered.get w = value) (hm : value ∈ items)
    (hne : (items.idxOf value : Int) ≠ (st.wheel w).currentItem) :
    let st' := st.setWheel w ((st.wheel w).movedTo (items.idxOf value))
    (value ≠ none → setCurrentItem w (indexOf items value) st = .ok () st') ∧
    (value = none → setCurrentItem w (indexOf items value) st = .error .nullPointer st') := by
  intro st'
  have hlt := List.idxOf_lt_length_iff.mpr hm
  have hc : (st.wheel w).checkedIndex (items.idxOf value) = some (items.idxOf value : Int) :=
    WheelView.checkedIndex_of_lt ha (by omega) (by simp [ArrayWheelAdapter.getItemsCount, hlt])
  have ht := getItemText_idxOf hm
  rw [indexOf_of_mem hm]
  cases value with
  | some text =>
    refine ⟨fun _ => ?_, fun h => by cases h⟩
    have hp : posts st w text = [] := by simp [posts, hr]
    rw [setCurrentItem_item ha hc ht hne, hp, List.append_nil]
    rfl
  | none =>
    refine ⟨fun h => absurd rfl h, fun _ => ?_⟩
    have ha' : (st'.wheel w).viewAdapter = some ⟨items⟩ := by
      simpa [st', WheelView.movedTo] using ha
    rw [setCurrentItem_change hc hne]
    exact onChanged_null ha' ht

/-- Showing the remembered value on a wheel at rest posts nothing; it raises on a null
item the wheel is not on yet. -/
theorem setCurrentItem_remembered {st : UiState} {w : WheelId} {items : List (Option String)}
    {value : Option String} (hr : st.activity.remembered.get w = value)
    (hs : (st.wheel w).isScrolling = false) :
    let st1 := st.setWheel w ((st.wheel w).setViewAdapter ⟨items⟩)
    let st2 := st.setWheel w ((st.wheel w).showItems items value)
    (¬ (st.wheel w).MeetsNull items value → setCurrentItem w (indexOf items value) st1 = .ok () st2) ∧
    ((st.wheel w).MeetsNull items value →
      setCurrentItem w (indexOf items value) st1 = .error .nullPointer st2) := by
  intro st1 st2
  have hv : st1.wheel w = (st.wheel w).setViewAdapter ⟨items⟩ := UiState.wheel_setWheel_self ..
  by_cases hm : value ∈ items
  · by_cases he : (items.idxOf value : Int) = (st.wheel w).currentItem
    · have hst : st2 = st1 := by
        simp only [st2, WheelView.showItems_move hs hm, he]
        rfl
      refine ⟨fun _ => ?_, fun h => absurd he h.2.2.2⟩
      rw [hst, indexOf_of_mem hm]
      exact setCurrentItem_stay (.inr (by rw [hv, he]; rfl))
    · have hst : st2 = st1.setWheel w ((st1.wheel w).movedTo (items.idxOf value)) := by
        rw [hv, UiState.setWheel_setWheel]
        simp only [st2, WheelView.showItems_move hs hm]
        rfl
      have ha : (st1.wheel w).viewAdapter = some ⟨items⟩ := by rw [hv]; rfl
      have hne : (items.idxOf value : Int) ≠ (st1.wheel w).currentItem := by
        rw [hv]
        exact he
      obtain ⟨hok, herror⟩ := setCurrentItem_listed ha hr hm hne
      rw [hst]
      exact ⟨fun h => hok fun hn => h ⟨hs, hn, hm, he⟩, fun h => herror h.2.1⟩
  · have hst : st2 = st1 := by simp only [st2, WheelView.showItems_stay (.inr hm)]; rfl
    refine ⟨fun _ => ?_, fun h => absurd h.2.2.1 hm⟩
    rw [hst]
    exact setCurrentItem_absent hm

/-- The parts of `updateStatus` after the assignments to the remembered values. -/
inductive StatusPart where
  | wheel (w : WheelId)
  | captureMode
  | isInLiveView
  deriving DecidableEq, Repr

def StatusPart.order : List StatusPart :=
  [.wheel .aperture, .wheel .shutterSpeed, .wheel .exposureMode, .wheel .iso, .captureMode,
    .isInLiveView]

namespace CameraStatus

def reported (s : CameraStatus) : PerWheel (Option String) :=
  ⟨s.aperture, s.shutterSpeed, s.exposureMode,
    if s.isoAuto = some true then some ISO_AUTO else s.iso⟩

def listed (s : CameraStatus) : WheelId → Option (List (Option String))
  | .aperture => s.apertures
  | .shutterSpeed => s.shutterSpeeds
  | .exposureMode => s.exposureModes
  | .iso => s.isos.map (some ISO_AUTO :: ·)

def program (s : CameraStatus) : StatusPart → Ui Unit
  | .wheel .aperture => loadApertures s
  | .wheel .shutterSpeed => loadShutterSpeeds s
  | .wheel .exposureMode => loadExposureModes s
  | .wheel .iso => loadIsos s
  | .captureMode => do setCaptureMode (CaptureMode.fromValue (← unbox s.captureMode))
  | .isInLiveView => do setIsInLiveview (← unbox s.isInLiveView)

/-- What the load makes of a wheel; the ISO list waits for a scrolling wheel. -/
def showOn (s : CameraStatus) (w : WheelId) (v : WheelView) : WheelView :=
  match s.listed w with
  | none => v
  | some items => if w = .iso ∧ v.isScrolling then v else v.showItems items (s.reported.get w)

/-- What a part has written when it ends, by itself or with an exception. -/
def write (s : CameraStatus) (st : UiState) : StatusPart → UiState
  | .wheel w => st.setWheel w (s.showOn w (st.wheel w))
  | .captureMode => { st with activity := { st.activity with
      mCaptureMode := s.captureMode.elim st.activity.mCaptureMode CaptureMode.fromValue } }
  | .isInLiveView => { st with activity := { st.activity with
      mIsInLiveview := s.isInLiveView.getD st.activity.mIsInLiveview } }

/-- A part raises on what is absent, on a null item, and on an unknown mode after a known one. -/
def Raises (s : CameraStatus) (st : UiState) : StatusPart → Prop
  | .wheel w => ∀ items ∈ s.listed w, (st.wheel w).MeetsNull items (s.reported.get w)
  | .captureMode => ∀ value ∈ s.captureMode,
      CaptureMode.fromValue value = none ∧ st.activity.mCaptureMode ≠ none
  | .isInLiveView => s.isInLiveView = none

instance (s : CameraStatus) (st : UiState) : DecidablePred (s.Raises st) := fun part => by
  cases part <;> unfold Raises <;> infer_instance

end CameraStatus

/-- The part of the activity a part of `updateStatus` has to itself. -/
def StatusPart.Piece : StatusPart → Type
  | .wheel _ => WheelView
  | .captureMode => Option CaptureMode
  | .isInLiveView => Bool

def StatusPart.piece : (part : StatusPart) → UiState → part.Piece
  | .wheel w => fun st => st.wheel w
  | .captureMode => fun st => st.activity.mCaptureMode
  | .isInLiveView => fun st => st.activity.mIsInLiveview

variable {s : CameraStatus} {st : UiState}

theorem loadWheel_remembered {w : WheelId} (hw : w ≠ .iso)
    (hr : st.activity.remembered.get w = s.reported.get w) :
    let st' := s.write st (.wheel w)
    (¬ s.Raises st (.wheel w) → loadWheel w (s.listed w) (s.reported.get w) st = .ok () st') ∧
    (s.Raises st (.wheel w) →
      loadWheel w (s.listed w) (s.reported.get w) st = .error .nullPointer st') := by
  intro st'
  cases hl : s.listed w with
  | none =>
    have hst : st' = st := by simp [st', CameraStatus.write, CameraStatus.showOn, hl]
    rw [hst]
    exact ⟨fun h => absurd (by simp [CameraStatus.Raises, hl]) h, fun _ => by simp [loadWheel]⟩
  | some items =>
    have hst : st' = st.setWheel w ((st.wheel w).showItems items (s.reported.get w)) := by
      simp [st', CameraStatus.write, CameraStatus.showOn, hl, hw]
    have hraise : s.Raises st (.wheel w) ↔ (st.wheel w).MeetsNull items (s.reported.get w) := by
      simp [CameraStatus.Raises, hl]
    have hload : loadWheel w (some items) (s.reported.get w) st =
        if (st.wheel w).isScrolling then
          .ok () (st.setWheel w ((st.wheel w).setViewAdapter ⟨items⟩))
        else setCurrentItem w (indexOf items (s.reported.get w))
          (st.setWheel w ((st.wheel w).setViewAdapter ⟨items⟩)) := by
      by_cases hs : (st.wheel w).isScrolling = true <;> simp [loadWheel, setViewAdapter, hs]
    rw [hst, hraise, hload]
    by_cases hs : (st.wheel w).isScrolling = true
    · refine ⟨fun _ => by simp [hs, WheelView.showItems], fun h => ?_⟩
      simp [WheelView.MeetsNull, hs] at h
    · simp only [Bool.not_eq_true] at hs
      simpa [hs] using setCurrentItem_remembered hr hs

theorem loadIsos_remembered (hr : st.activity.remembered.get .iso = s.reported.get .iso) :
    let st' := s.write st (.wheel .iso)
    (¬ s.Raises st (.wheel .iso) → loadIsos s st = .ok () st') ∧
    (s.Raises st (.wheel .iso) → loadIsos s st = .error .nullPointer st') := by
  intro st'
  cases hl : s.isos with
  | none =>
    have hst : st' = st := by simp [st', CameraStatus.write, CameraStatus.showOn, CameraStatus.listed, hl]
    rw [hst]
    exact ⟨fun h => absurd (by simp [CameraStatus.Raises, CameraStatus.listed, hl]) h,
      fun _ => by simp [loadIsos, hl]⟩
  | some isos =>
    have hlist : s.listed .iso = some (some ISO_AUTO :: isos) := by simp [CameraStatus.listed, hl]
    have hraise : s.Raises st (.wheel .iso) ↔
        (st.wheel .iso).MeetsNull (some ISO_AUTO :: isos) (s.reported.get .iso) := by
      simp [CameraStatus.Raises, hlist]
    have hload : loadIsos s st = if (st.wheel .iso).isScrolling then .ok () st
        else setCurrentItem .iso (indexOf (some ISO_AUTO :: isos) (s.reported.get .iso))
          (st.setWheel .iso ((st.wheel .iso).setViewAdapter ⟨some ISO_AUTO :: isos⟩)) := by
      by_cases hs : (st.wheel .iso).isScrolling = true
      · simp [loadIsos, hl, hs]
      · by_cases ha : s.isoAuto = some true
        · have hi : indexOf (some ISO_AUTO :: isos) (s.reported.get .iso) = 0 := by
            simp [indexOf, CameraStatus.reported, PerWheel.get, ha]
          simp [loadIsos, setViewAdapter, hl, hs, ha, hi]
        · have hv : s.reported.get .iso = s.iso := by
            simp [CameraStatus.reported, PerWheel.get, ha]
          simp [loadIsos, setViewAdapter, hl, hs, ha, hv]
    rw [hraise, hload]
    by_cases hs : (st.wheel .iso).isScrolling = true
    · have hst : st' = st := by simp [st', CameraStatus.write, CameraStatus.showOn, hlist, hs]
      rw [hst]
      refine ⟨fun _ => by simp [hs], fun h => ?_⟩
      simp [WheelView.MeetsNull, hs] at h
    · simp only [Bool.not_eq_true] at hs
      have hst : st' = st.setWheel .iso
          ((st.wheel .iso).showItems (some ISO_AUTO :: isos) (s.reported.get .iso)) := by
        simp [st', CameraStatus.write, CameraStatus.showOn, hlist, hs]
      rw [hst]
      simpa [hs] using setCurrentItem_remembered hr hs

theorem program_wheel (s : CameraStatus) {w : WheelId} (hw : w ≠ .iso) :
    s.program (.wheel w) = loadWheel w (s.listed w) (s.reported.get w) := by
  cases w with
  | iso => exact absurd rfl hw
  | _ => rfl

theorem setCaptureMode_reported (value : Int) :
    let m := CaptureMode.fromValue value
    let st' : UiState := { st with activity := { st.activity with mCaptureMode := m } }
    (¬ (m = none ∧ st.activity.mCaptureMode ≠ none) → setCaptureMode m st = .ok () st') ∧
    (m = none ∧ st.activity.mCaptureMode ≠ none →
      setCaptureMode m st = .error .nullPointer st') := by
  intro m st'
  cases hm : m with
  | some mode =>
    refine ⟨fun _ => ?_, fun h => absurd h.1 (by simp)⟩
    simp only [st', hm, setCaptureMode_some]
  | none =>
    cases hc : st.activity.mCaptureMode with
    | none =>
      have hst : st' = st := by simp only [st', hm, ← hc]
      refine ⟨fun _ => ?_, fun h => absurd rfl h.2⟩
      simp [setCaptureMode, hc, hst]
    | some mode =>
      refine ⟨fun h => absurd ⟨rfl, by simp⟩ h, fun _ => ?_⟩
      simp [setCaptureMode, hc, st', hm]

/-- A part writes what `write` says while the activity remembers what the status reports,
and raises exactly where `Raises` says. -/
theorem program_result (hr : st.activity.remembered = s.reported) (part : StatusPart) :
    (¬ s.Raises st part → s.program part st = .ok () (s.write st part)) ∧
    (s.Raises st part → s.program part st = .error .nullPointer (s.write st part)) := by
  cases part with
  | wheel w =>
    have hw : st.activity.remembered.get w = s.reported.get w := by rw [hr]
    by_cases hi : w = .iso
    · subst hi
      exact loadIsos_remembered hw
    · rw [program_wheel s hi]
      exact loadWheel_remembered hi hw
  | captureMode =>
    cases hc : s.captureMode with
    | none =>
      have hraise : s.Raises st .captureMode := by simp [CameraStatus.Raises, hc]
      exact ⟨fun h => absurd hraise h, fun _ => by simp [CameraStatus.program, CameraStatus.write, hc]⟩
    | some value =>
      simp only [CameraStatus.Raises, hc, Option.mem_def, Option.some.injEq, forall_eq']
      simpa [CameraStatus.program, CameraStatus.write, hc] using setCaptureMode_reported value
  | isInLiveView =>
    cases hl : s.isInLiveView with
    | none =>
      exact ⟨fun h => absurd hl h, fun _ => by simp [CameraStatus.program, CameraStatus.write, hl]⟩
    | some l =>
      refine ⟨fun _ => ?_, fun h => ?_⟩
      · simp [CameraStatus.program, CameraStatus.write, hl, setIsInLiveview]
      · simp [CameraStatus.Raises, hl] at h

theorem remembered_write (s : CameraStatus) (st : UiState) (part : StatusPart) :
    (s.write st part).activity.remembered = st.activity.remembered := by
  cases part <;> rfl

theorem program_spec (s : CameraStatus) : Spec s.program
    (fun st => st.activity.remembered = s.reported) s.write s.Raises where
  ok part _ hr h := (program_result hr part).1 h
  error part _ hr h := ⟨.nullPointer, (program_result hr part).2 h⟩
  keep part st hr := (remembered_write s st part).trans hr

theorem program_separate (s : CameraStatus) : Separate StatusPart.piece s.write s.Raises where
  other i j st hij := by
    cases i with
    | wheel w =>
      cases j with
      | wheel v =>
        have hv : v ≠ w := fun h => hij (by rw [h])
        exact UiState.wheel_setWheel_ne st w _ hv
      | captureMode => rfl
      | isInLiveView => rfl
    | captureMode =>
      cases j with
      | captureMode => exact absurd rfl hij
      | _ => rfl
    | isInLiveView =>
      cases j with
      | isInLiveView => exact absurd rfl hij
      | _ => rfl
  all i st h := by
    cases i with
    | wheel w =>
      have hv : (st.setWheel w (s.showOn w (st.wheel w))).wheel w = st.wheel w := h
      rw [UiState.wheel_setWheel_self] at hv
      simp only [CameraStatus.write, hv, UiState.setWheel_wheel]
    | captureMode =>
      have hm : s.captureMode.elim st.activity.mCaptureMode CaptureMode.fromValue =
          st.activity.mCaptureMode := h
      simp only [CameraStatus.write, hm]
    | isInLiveView =>
      have hl : s.isInLiveView.getD st.activity.mIsInLiveview = st.activity.mIsInLiveview := h
      simp only [CameraStatus.write, hl]
  raises i st st' h := by
    cases i with
    | wheel w =>
      have hv : st.wheel w = st'.wheel w := h
      simp only [CameraStatus.Raises, hv]
    | captureMode =>
      have hm : st.activity.mCaptureMode = st'.activity.mCaptureMode := h
      simp only [CameraStatus.Raises, hm]
    | isInLiveView => exact Iff.rfl

def UiState.remember (st : UiState) (values : PerWheel (Option String)) : UiState :=
  { st with activity := { st.activity with remembered := values } }

/-- `updateStatus` remembers the values and runs the parts. It unboxes `isoAuto` in
between, when the four values are written already. -/
theorem updateStatus_parts (s : CameraStatus) (st : UiState) : updateStatus s st =
    if s.isoAuto = none then .error .nullPointer (st.remember s.reported)
    else StatusPart.order.forM s.program (st.remember s.reported) := by
  have hparts : (StatusPart.order.forM s.program : Ui Unit) = (do
      loadApertures s
      loadShutterSpeeds s
      loadExposureModes s
      loadIsos s
      setCaptureMode (CaptureMode.fromValue (← unbox s.captureMode))
      setIsInLiveview (← unbox s.isInLiveView)) := by
    funext st'
    simp [StatusPart.order, CameraStatus.program]
  rw [hparts]
  cases ha : s.isoAuto with
  | none => simp [updateStatus, setRemembered, ha, UiState.remember, CameraStatus.reported, PerWheel.set]
  | some auto =>
    cases auto <;>
      simp [updateStatus, setRemembered, ha, UiState.remember, CameraStatus.reported, PerWheel.set]

theorem raises_remember (s : CameraStatus) (st : UiState) (values : PerWheel (Option String)) :
    s.Raises (st.remember values) = s.Raises st := by
  funext part
  cases part <;> rfl

theorem foldl_write (s : CameraStatus) (st : UiState) : StatusPart.order.foldl s.write st =
    { st with activity := { st.activity with
      mCaptureMode := s.captureMode.elim st.activity.mCaptureMode CaptureMode.fromValue
      mIsInLiveview := s.isInLiveView.getD st.activity.mIsInLiveview
      wheels := .ofFun fun w => s.showOn w (st.wheel w) } } := rfl

theorem updateStatus_no_raise (ha : s.isoAuto ≠ none)
    (h : ∀ part ∈ StatusPart.order, ¬ s.Raises st part) :
    updateStatus s st = .ok () (StatusPart.order.foldl s.write (st.remember s.reported)) := by
  rw [updateStatus_parts, if_neg ha]
  refine forM_ok (program_spec s) (program_separate s) (by decide) rfl ?_
  rw [raises_remember]
  exact h

theorem updateStatus_raise (ha : s.isoAuto ≠ none) (h : ∃ part ∈ StatusPart.order, s.Raises st part) :
    ∃ e, updateStatus s st =
      .error e ((upTo (s.Raises st) StatusPart.order).foldl s.write (st.remember s.reported)) := by
  rw [updateStatus_parts, if_neg ha]
  have hn : StatusPart.order.Nodup := by decide
  have hI : (st.remember s.reported).activity.remembered = s.reported := rfl
  have hr := forM_error (program_spec s) (program_separate s) hn hI (by rwa [raises_remember])
  have hup : upTo (s.Raises (st.remember s.reported)) StatusPart.order =
      upTo (s.Raises st) StatusPart.order :=
    upTo_congr fun part _ => by rw [raises_remember]
  rwa [hup] at hr

theorem updateStatus_ok {st' : UiState} (h : updateStatus s st = .ok () st') :
    st'.tasks = st.tasks := by
  by_cases ha : s.isoAuto = none
  · rw [updateStatus_parts, if_pos ha] at h
    cases h
  · by_cases hr : ∃ part ∈ StatusPart.order, s.Raises st part
    · obtain ⟨e, he⟩ := updateStatus_raise ha hr
      rw [he] at h
      cases h
    · rw [updateStatus_no_raise ha (by simpa using hr)] at h
      cases h
      rfl

end CameraClient
