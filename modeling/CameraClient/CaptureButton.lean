import CameraClient.Results
import CameraClient.Statuses

/-! What the capture button dispatches on: the mode, the liveview flag and the recording
flag. A status writes the first two only, and the mode may be one the client does not know. -/
namespace CameraClient
open Runs

def UiAction.perform : UiAction → Ui Unit
  | .executeOnExecutor task => CameraClient.executeOnExecutor task
  | .loadLiveview => pure ()
  | .openWebsocket => pure ()
  | .updateStatus cameraStatus => CameraClient.updateStatus cameraStatus
  | .setCaptureMode captureMode => CameraClient.setCaptureMode captureMode
  | .setIsRecording isRecording => CameraClient.setIsRecording isRecording

def runCallback (callback : List UiAction) : Ui Unit := callback.forM UiAction.perform

def press (control : Control) : Ui Unit := do
  match onClick (← get).activity control with
  | .ok callback => runCallback callback
  | .error e => throw e

def Task.IsCapture (task : Task) : Prop :=
  task = .capturePhoto ∨ task = .captureStart ∨ task = .captureStop

theorem press_capture (st : UiState) : press .mCaptureButton st =
    match captureTask st.activity with
    | .ok task => .ok () { st with tasks := st.tasks ++ [task] }
    | .error e => .error e st := by
  cases h : captureTask st.activity with
  | ok task =>
    simp [press, onClick, mCaptureButtonOnClick, h, Except.map, runCallback, UiAction.perform,
      executeOnExecutor]
  | error e => simp [press, onClick, mCaptureButtonOnClick, h, Except.map]

def PressEnqueues (st : UiState) (task : Task) : Prop :=
  press .mCaptureButton st = .ok () { st with tasks := st.tasks ++ [task] }

theorem pressEnqueues_iff {st : UiState} {task : Task} :
    PressEnqueues st task ↔ captureTask st.activity = .ok task := by
  unfold PressEnqueues
  rw [press_capture]
  cases h : captureTask st.activity with
  | ok t => simp
  | error e => simp

def FullStatus.reportedCapture (s : FullStatus) : Task :=
  if s.isInLiveView ∧ s.captureMode = .video then
    if s.isRecording then .captureStop else .captureStart
  else .capturePhoto

theorem captureTask_applyTo (s : FullStatus) (a : FullscreenActivity) :
    captureTask (s.applyTo a) = .ok { s with isRecording := a.mIsRecording }.reportedCapture := by
  cases hl : s.isInLiveView with
  | false => simp [captureTask, FullStatus.applyTo, FullStatus.reportedCapture, hl]
  | true =>
    cases hm : s.captureMode with
    | photo => simp [captureTask, FullStatus.applyTo, FullStatus.reportedCapture, hl, hm]
    | video =>
      cases hr : a.mIsRecording <;>
        simp [captureTask, FullStatus.applyTo, FullStatus.reportedCapture, hl, hm, hr]

/-- After a status the capture button asks for what suits it exactly when, in video
liveview, the activity had the camera's recording state already: the status is not asked. -/
theorem capture_follows_report_iff (st : UiState) (s : FullStatus) :
    ∃ st', updateStatus s.toCameraStatus st = .ok () st' ∧
      (PressEnqueues st' s.reportedCapture ↔
        (s.isInLiveView ∧ s.captureMode = .video → st.activity.mIsRecording = s.isRecording)) := by
  refine ⟨_, updateStatus_full s st, ?_⟩
  rw [pressEnqueues_iff, captureTask_applyTo]
  simp only [FullStatus.reportedCapture, Except.ok.injEq]
  by_cases hv : s.isInLiveView = true ∧ s.captureMode = .video
  · cases hr : s.isRecording <;> cases ha : st.activity.mIsRecording <;> simp [hv]
  · simp [hv]

/-- Another client starts a recording. The status says so, and nothing is queued or runs,
but the press asks for a second start. -/
theorem recording_of_another_client_started_again : ∃ a b : App,
    run App.step { camera := sampleStatus ["f/2"] "f/2" ["100"] "100" }
      [.cameraChanged { sampleStatus ["f/2"] "f/2" ["100"] "100" with
        captureMode := .video, isInLiveView := true, isRecording := true }, .push] = some a ∧
    a.state.tasks = [] ∧ a.running = none ∧ a.camera.reportedCapture = .captureStop ∧
    run App.step a [.press .mCaptureButton, .proceed] = some b ∧ b.state.tasks = [.captureStart] :=
  ⟨_, _, rfl, rfl, rfl, rfl, rfl, rfl⟩

def FullStatus.withCaptureMode (s : FullStatus) (captureMode : Int) : CameraStatus :=
  { s.toCameraStatus with captureMode := some captureMode }

inductive ModeEvent where
  | status (s : FullStatus) (captureMode : Int)
  | postSettings (cameraSettings : CameraSettings)
  | press (control : Control)
  deriving DecidableEq, Repr

def ModeEvent.callback : ModeEvent → Ui Unit
  | status s captureMode => updateStatus (s.withCaptureMode captureMode)
  | postSettings cameraSettings => runCallback (onPostExecute (.postSettings cameraSettings))
  | press control => CameraClient.press control

def modeStep (st : UiState) (e : ModeEvent) : Option UiState := e.callback.outcome st

/-- In liveview the mode is known, and pressing the capture button asks for one capture. -/
structure CaptureReady (st : UiState) : Prop where
  modeKnown : st.activity.mIsInLiveview = true → st.activity.mCaptureMode ≠ none
  press : ∃ task, task.IsCapture ∧ PressEnqueues st task

/-- No status turns the liveview on with an unknown mode while no mode is known yet. -/
def TakesKnownMode (st : UiState) : ModeEvent → Prop
  | .status s captureMode => s.isInLiveView = true → st.activity.mCaptureMode = none →
      CaptureMode.fromValue captureMode ≠ none
  | _ => True

theorem captureReady_iff {st : UiState} : CaptureReady st ↔
    (st.activity.mIsInLiveview = true → st.activity.mCaptureMode ≠ none) := by
  refine ⟨fun h => h.modeKnown, fun h => ⟨h, ?_⟩⟩
  cases hl : st.activity.mIsInLiveview with
  | false => exact ⟨.capturePhoto, .inl rfl, pressEnqueues_iff.mpr (by simp [captureTask, hl])⟩
  | true =>
    cases hm : st.activity.mCaptureMode with
    | none => exact absurd hm (h hl)
    | some m =>
      cases m with
      | photo => exact ⟨.capturePhoto, .inl rfl, pressEnqueues_iff.mpr (by simp [captureTask, hl, hm])⟩
      | video =>
        cases hr : st.activity.mIsRecording with
        | true =>
          exact ⟨.captureStop, .inr (.inr rfl), pressEnqueues_iff.mpr (by simp [captureTask, hl, hm, hr])⟩
        | false =>
          exact ⟨.captureStart, .inr (.inl rfl), pressEnqueues_iff.mpr (by simp [captureTask, hl, hm, hr])⟩

theorem raises_withCaptureMode (s : FullStatus) (captureMode : Int) (st : UiState) :
    (∃ part ∈ StatusPart.order, (s.withCaptureMode captureMode).Raises st part) ↔
      CaptureMode.fromValue captureMode = none ∧ st.activity.mCaptureMode ≠ none := by
  constructor
  · rintro ⟨part, -, hr⟩
    cases part with
    | wheel w =>
      have hr' : s.toCameraStatus.Raises st (.wheel w) := by cases w <;> exact hr
      exact absurd hr' (not_raises_full s st _)
    | captureMode => exact hr captureMode rfl
    | isInLiveView => exact absurd hr (not_raises_full s st .isInLiveView)
  · rintro ⟨hn, hm⟩
    refine ⟨.captureMode, by decide, fun value hv => ?_⟩
    obtain rfl : captureMode = value := by simpa [FullStatus.withCaptureMode] using hv
    exact ⟨hn, hm⟩

theorem modeStep_status (st : UiState) (s : FullStatus) (captureMode : Int) :
    (CaptureMode.fromValue captureMode = none ∧ st.activity.mCaptureMode ≠ none →
      modeStep st (.status s captureMode) = none) ∧
    (¬ (CaptureMode.fromValue captureMode = none ∧ st.activity.mCaptureMode ≠ none) →
      ∃ st', modeStep st (.status s captureMode) = some st' ∧
        st'.activity.mCaptureMode = CaptureMode.fromValue captureMode ∧
        st'.activity.mIsInLiveview = s.isInLiveView) := by
  have ha : (s.withCaptureMode captureMode).isoAuto ≠ none := by
    simp [FullStatus.withCaptureMode, FullStatus.toCameraStatus]
  rw [← raises_withCaptureMode s captureMode st]
  refine ⟨fun hr => ?_, fun hr => ?_⟩
  · obtain ⟨e, he⟩ := updateStatus_raise ha hr
    simp [modeStep, ModeEvent.callback, Ui.outcome, he]
  · have hok := updateStatus_no_raise ha (by simpa using hr)
    rw [foldl_write] at hok
    exact ⟨_, Ui.outcome_eq_some.mpr hok, rfl, rfl⟩

theorem modeStep_postSettings {st st' : UiState} {cameraSettings : CameraSettings}
    (h : modeStep st (.postSettings cameraSettings) = some st') :
    st' = st ∨ ∃ mode, st' = { st with activity := { st.activity with mCaptureMode := some mode } } := by
  have hok := Ui.outcome_eq_some.mp h
  cases hc : cameraSettings.captureMode with
  | none =>
    simp [ModeEvent.callback, onPostExecute, hc, runCallback] at hok
    exact .inl hok.symm
  | some value =>
    have hset : setCaptureMode (CaptureMode.fromValue value) st = .ok () st' := by
      have hrun : runCallback [.setCaptureMode (CaptureMode.fromValue value)] st = .ok () st' := by
        simpa [ModeEvent.callback, onPostExecute, hc] using hok
      obtain ⟨_, s, hs, hp⟩ := Ui.bind_eq_ok.mp hrun
      cases hp
      exact hs
    exact setCaptureMode_cases hset

theorem runCallback_neutral {callback : List UiAction} (h : ∀ action ∈ callback, action.Neutral)
    (st : UiState) : runCallback callback st =
      .ok () { st with tasks := st.tasks ++ callback.flatMap UiAction.submits } := by
  induction callback generalizing st with
  | nil => simp [runCallback]
  | cons action callback ih =>
    have hrest := ih fun x hx => h x (List.mem_cons_of_mem action hx)
    have hcons : runCallback (action :: callback) = (action.perform >>= fun _ => runCallback callback) :=
      rfl
    have hfirst : action.perform st = .ok () { st with tasks := st.tasks ++ action.submits } := by
      have hn := h action (by simp)
      cases action with
      | executeOnExecutor task => rfl
      | loadLiveview => simp [UiAction.perform, UiAction.submits]
      | openWebsocket => simp [UiAction.perform, UiAction.submits]
      | _ => exact hn.elim
    rw [hcons, Ui.bind_ok hfirst, hrest]
    simp

theorem modeStep_press {st st' : UiState} {control : Control}
    (h : modeStep st (.press control) = some st') : st'.activity = st.activity := by
  have hok := Ui.outcome_eq_some.mp h
  simp only [ModeEvent.callback, press, Ui.bind_apply, Ui.get_apply] at hok
  cases hc : onClick st.activity control with
  | ok callback =>
    simp only [hc, runCallback_neutral (App.onClick_neutral hc)] at hok
    cases hok
    rfl
  | error e => simp [hc] at hok

/-- One event keeps the button ready exactly when it takes no unknown mode into liveview. -/
theorem captureReady_step {st st' : UiState} {e : ModeEvent} (hi : CaptureReady st)
    (h : modeStep st e = some st') : CaptureReady st' ↔ TakesKnownMode st e := by
  rw [captureReady_iff] at hi ⊢
  cases e with
  | status s captureMode =>
    by_cases hr : CaptureMode.fromValue captureMode = none ∧ st.activity.mCaptureMode ≠ none
    · rw [(modeStep_status st s captureMode).1 hr] at h
      cases h
    · obtain ⟨st'', hst, hm, hl⟩ := (modeStep_status st s captureMode).2 hr
      obtain rfl : st'' = st' := by simpa [hst] using h
      rw [hm, hl]
      simp only [TakesKnownMode]
      constructor
      · intro hk hs _
        exact hk hs
      · intro hk hs hn
        exact hr ⟨hn, fun hnone => hk hs hnone hn⟩
  | postSettings cameraSettings =>
    simp only [TakesKnownMode, iff_true]
    rcases modeStep_postSettings h with rfl | ⟨mode, rfl⟩
    · exact hi
    · simp
  | press control =>
    simp only [TakesKnownMode, iff_true]
    rw [modeStep_press h]
    exact hi

/-- In every state of a run of statuses, settings results and presses the mode is known in
liveview and the capture button works, exactly when no status turns the liveview on with an
unknown mode before a known one. -/
theorem liveview_mode_known_iff (es : List ModeEvent) :
    Always modeStep CaptureReady {} es ↔ Meets modeStep TakesKnownMode {} es := by
  have h0 : CaptureReady {} := captureReady_iff.mpr (by simp)
  refine always_iff_meets (K := fun _ => True) (fun _ _ _ _ _ _ => trivial)
    (fun _ _ _ _ hi h => captureReady_step hi h) ?_ trivial h0
  intro st e h
  cases e with
  | status s captureMode =>
    by_cases hr : CaptureMode.fromValue captureMode = none ∧ st.activity.mCaptureMode ≠ none
    · exact fun _ hn => absurd hn hr.2
    · obtain ⟨st', hst, -⟩ := (modeStep_status st s captureMode).2 hr
      rw [hst] at h
      cases h
  | postSettings cameraSettings => trivial
  | press control => trivial

/-- The first status reports liveview and the unknown mode 2; the press then raises. -/
theorem unknown_mode_in_liveview : ∃ st : UiState,
    run modeStep {} [.status { sampleStatus ["f/2"] "f/2" ["100"] "100" with
      isInLiveView := true } 2] = some st ∧
    st.activity.mIsInLiveview = true ∧ st.activity.mCaptureMode = none ∧
    press .mCaptureButton st = .error .nullPointer st :=
  ⟨_, rfl, rfl, rfl, rfl⟩

end CameraClient
