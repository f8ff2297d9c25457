import CameraClient.App

/-! The requests submitted and not yet executed, as a pipeline in front of the
camera: the executor runs them in order, events append to them, and nothing else
reaches the camera. `App.settled` is the camera once they all have run. -/
namespace CameraClient
open Runs Pipeline

def Task.isQuery : Task → Bool
  | .getCameraInfo | .getCameraStatus => true
  | _ => false

def UiAction.submits : UiAction → List Task
  | .executeOnExecutor task => [task]
  | _ => []

/-- The camera is driven by this activity only, and no request fails. -/
def Event.ByActivity : Event → Prop
  | .cameraChanged _ => False
  | .request outcome => outcome = none
  | _ => True

theorem serve_query {task : Task} (h : task.isQuery) (camera : FullStatus) :
    serve camera task = camera := by
  cases task <;> simp_all [Task.isQuery, serve]

namespace App

def submitted (a : App) : List Task :=
  (a.running.map (·.task)).toList ++ a.state.tasks ++ a.callback.flatMap UiAction.submits

def pending (a : App) : List Task := a.submitted.filter (! ·.isQuery)

def settled (a : App) : FullStatus := settle serve a.camera a.pending

def commands (a : App) : Event → List Task
  | .press control =>
    ((a.click control).callback.flatMap UiAction.submits).filter (! ·.isQuery)
  | .wheel e => posted a.state (a.perform e.callback).state
  | _ => []

variable {a b : App} {e : Event}

theorem wheel_tasks (st st' : UiState) (e : WheelEvent) (h : e.callback st = .ok () st') :
    st'.tasks = st.tasks ∨ ∃ text, st'.tasks = st.tasks ++ posts st e.wheel text := by
  rcases WheelEvent.callback_ok h with ⟨_, _, rfl⟩ | ⟨_, text, -, -, _, _, rfl⟩
  · exact .inl rfl
  · exact .inr ⟨text, rfl⟩

theorem posts_cases (st : UiState) (w : WheelId) (text : String) :
    posts st w text = [] ∨ posts st w text = [.postSettings (settingsFor w text)] := by
  unfold posts
  split_ifs
  · exact .inl rfl
  · exact .inr rfl

theorem perform_wheel_tasks (a : App) (e : WheelEvent) : (a.perform e.callback).state.tasks =
    a.state.tasks ++ posted a.state (a.perform e.callback).state := by
  rcases a.perform_cases e.callback with ⟨st, hst, hp⟩ | hp
  · rw [hp]
    rcases wheel_tasks _ _ e hst with ht | ⟨text, ht⟩ <;> simp [posted, ht]
  · simp [hp, posted]

theorem posted_perform (a : App) (e : WheelEvent) :
    posted a.state (a.perform e.callback).state = [] ∨
    ∃ text, posted a.state (a.perform e.callback).state =
      [.postSettings (settingsFor e.wheel text)] := by
  rcases a.perform_cases e.callback with ⟨st, hst, hp⟩ | hp
  · rw [hp]
    rcases wheel_tasks _ _ e hst with ht | ⟨text, ht⟩
    · exact .inl (by simp [posted, ht])
    · rcases posts_cases a.state e.wheel text with hn | hn
      · exact .inl (by simp [posted, ht, hn])
      · exact .inr ⟨text, by simp [posted, ht, hn]⟩
  · exact .inl (by simp [hp, posted])

theorem onPostExecute_queries (result : TaskResult) :
    ((onPostExecute result).flatMap UiAction.submits).filter (! ·.isQuery) = [] := by
  cases result with
  | postSettings cameraSettings => cases h : cameraSettings.captureMode <;>
      simp [onPostExecute, h, UiAction.submits]
  | _ => rfl

theorem onResume_queries (a : FullscreenActivity) :
    ((onResume a).flatMap UiAction.submits).filter (! ·.isQuery) = [] := by
  unfold onResume
  cases a.mIsInLiveview <;> rfl

theorem background_query {running : RunningTask} {task : Task}
    (h : .executeOnExecutor task ∈ running.actions) : task.isQuery := by
  have hm := running.isSuffix.subset h
  cases ht : running.task with
  | liveviewStop =>
    rw [ht] at hm
    simp only [doInBackground, disableLiveview, refreshCameraStatus, List.map_cons, List.map_nil,
      List.cons_append, List.nil_append, List.mem_cons, reduceCtorEq, false_or,
      BackgroundAction.executeOnExecutor.injEq, List.not_mem_nil, or_false] at hm
    rcases hm with rfl | rfl <;> rfl
  | _ =>
    rw [ht] at hm
    simp [doInBackground] at hm

theorem runUiAction_submitted (a : App) (action : UiAction) (callback : List UiAction)
    (hc : a.callback = action :: callback) :
    ({ a with callback := callback }.runUiAction action).camera = a.camera ∧
    (({ a with callback := callback }.runUiAction action).submitted = a.submitted) := by
  have hperform (x : Ui Unit) (hn : action.submits = [])
      (hx : ∀ st st', x st = .ok () st' → st'.tasks = st.tasks) :
      ({ a with callback := callback }.perform x).camera = a.camera ∧
      ({ a with callback := callback }.perform x).submitted = a.submitted := by
    rcases perform_cases { a with callback := callback } x with ⟨st, hst, hp⟩ | hp
    · rw [hp]
      exact ⟨rfl, by simp [submitted, hx _ _ hst, hc, hn]⟩
    · rw [hp]
      exact ⟨rfl, by simp [submitted, hc, hn]⟩
  cases action with
  | executeOnExecutor task =>
    refine ⟨rfl, ?_⟩
    simp [runUiAction, perform, executeOnExecutor, submitted, hc, UiAction.submits]
  | loadLiveview => exact ⟨rfl, by simp [runUiAction, loadLiveview, submitted, hc, UiAction.submits]⟩
  | openWebsocket => exact ⟨rfl, by simp [runUiAction, openWebsocket, submitted, hc, UiAction.submits]⟩
  | updateStatus s => exact hperform _ rfl fun _ _ => updateStatus_ok
  | setCaptureMode m => exact hperform _ rfl fun _ _ => setCaptureMode_ok
  | setIsRecording r =>
    refine hperform _ rfl fun st st' h => ?_
    cases h
    rfl

/-- All but an executed request leaves the camera and appends to the pending requests. -/
theorem pending_step (h : step a e = some b) (hown : e.ByActivity) (hr : e ≠ .request none) :
    b.camera = a.camera ∧ b.pending = a.pending ++ a.commands e := by
  cases e with
  | press control =>
    obtain ⟨⟨-, hc⟩, rfl⟩ := step_press.mp h
    rcases a.click_cases control with ⟨callback, -, hk⟩ | hk
    · exact ⟨by rw [hk], by simp [hk, pending, submitted, commands, hc]⟩
    · exact ⟨by rw [hk], by simp [hk, pending, submitted, commands, hc]⟩
  | resume =>
    obtain ⟨⟨-, hc⟩, rfl⟩ := step_resume.mp h
    exact ⟨rfl, by simp [pending, submitted, commands, hc, onResume_queries]⟩
  | wheel e =>
    obtain ⟨-, ⟨-, hc⟩, rfl⟩ := step_wheel.mp h
    have hq : (posted a.state (a.perform e.callback).state).filter (! ·.isQuery) =
        posted a.state (a.perform e.callback).state := by
      rcases a.posted_perform e with hn | ⟨text, hn⟩ <;> rw [hn] <;> rfl
    have hf : ((a.perform e.callback).camera, (a.perform e.callback).running,
        (a.perform e.callback).callback) = (a.camera, a.running, a.callback) :=
      perform_frame (fun a => (a.camera, a.running, a.callback)) a e.callback fun _ _ => rfl
    simp only [Prod.mk.injEq] at hf
    refine ⟨hf.1, ?_⟩
    simp only [pending, submitted, commands, hf.2.1, hf.2.2, hc, a.perform_wheel_tasks e,
      List.flatMap_nil, List.append_nil, ← List.append_assoc]
    rw [List.filter_append, hq]
  | push =>
    obtain ⟨s, pushes, -, -, rfl⟩ := step_push.mp h
    rcases perform_cases { a with pushes := pushes } (updateStatus s) with ⟨st, hst, hp⟩ | hp
    · rw [hp]
      exact ⟨rfl, by simp [pending, submitted, commands, updateStatus_ok hst]⟩
    · rw [hp]
      exact ⟨rfl, by simp [pending, submitted, commands]⟩
  | deliver =>
    obtain ⟨r, results, -, ⟨-, hc⟩, rfl⟩ := step_deliver.mp h
    exact ⟨rfl, by simp [pending, submitted, commands, hc, onPostExecute_queries]⟩
  | proceed =>
    obtain ⟨action, callback, hc, -, rfl⟩ := step_proceed.mp h
    obtain ⟨hcam, hsub⟩ := runUiAction_submitted a action callback hc
    exact ⟨hcam, by simp [pending, hsub, commands]⟩
  | start =>
    obtain ⟨task, tasks, hr, ht, -, rfl⟩ := step_start.mp h
    exact ⟨rfl, by simp [pending, submitted, commands, startNext, hr, ht]⟩
  | background =>
    obtain ⟨task, action, actions, hs, hr, -, -, rfl⟩ := step_background.mp h
    cases action with
    | executeOnExecutor t =>
      have hm : .executeOnExecutor t ∈ (⟨task, _, hs⟩ : RunningTask).actions := List.mem_cons_self
      have hq : t.isQuery = true := background_query hm
      refine ⟨rfl, ?_⟩
      simp only [runBackgroundAction, pending, submitted, commands, hr, List.filter_append]
      simp [hq]
    | _ => exact ⟨rfl, by simp [runBackgroundAction, pending, submitted, commands, hr]⟩
  | request outcome => exact absurd (congrArg Event.request hown) hr
  | cameraChanged camera => exact hown.elim
  | surfaceCreated =>
    obtain ⟨-, rfl⟩ := step_surfaceCreated.mp h
    exact ⟨rfl, by simp [pending, submitted, commands]⟩
  | surfaceDestroyed =>
    obtain ⟨-, rfl⟩ := step_surfaceDestroyed.mp h
    exact ⟨rfl, by simp [pending, submitted, commands]⟩
  | connected k =>
    obtain ⟨-, -, rfl⟩ := step_connected.mp h
    exact ⟨rfl, by simp [pending, submitted, commands]⟩
  | connectionFailed k =>
    obtain ⟨-, -, rfl⟩ := step_connectionFailed.mp h
    exact ⟨rfl, by simp [pending, submitted, commands]⟩
  | message s =>
    obtain ⟨-, rfl⟩ := step_message.mp h
    exact ⟨rfl, by simp [pending, submitted, commands]⟩

theorem captureTask_cases {activity : FullscreenActivity} {task : Task}
    (h : captureTask activity = .ok task) :
    task = .capturePhoto ∨ task = .captureStart ∨ task = .captureStop := by
  unfold captureTask at h
  cases hm : activity.mCaptureMode with
  | none =>
    rw [hm] at h
    split_ifs at h
    cases h
    exact .inl rfl
  | some mode =>
    rw [hm] at h
    cases mode <;> split_ifs at h <;> cases h <;> simp

theorem mem_commands_press {control : Control} {task : Task}
    (h : step a (.press control) = some b) (ht : task ∈ a.commands (.press control)) :
    (control = .mCaptureButton ∧ captureTask a.state.activity = .ok task) ∨
    task = .liveviewStart ∨ task = .liveviewStop ∨
    (∃ mode : CaptureMode, task = .postSettings { captureMode := some mode.value }) ∨
    ∃ x y, task = .postAutofocus x y := by
  obtain ⟨⟨-, hc⟩, -⟩ := step_press.mp h
  cases control with
  | mRefreshButton =>
    simp only [commands, click, onClick, mRefreshButtonOnClick, readCameraInfo,
      refreshCameraStatus] at ht
    split_ifs at ht <;> simp [UiAction.submits, Task.isQuery] at ht
  | mCaptureButton =>
    simp only [commands, click, onClick, mCaptureButtonOnClick] at ht
    cases hk : captureTask a.state.activity with
    | error e => simp [hk, Except.map, hc] at ht
    | ok t =>
      simp only [hk, Except.map, List.flatMap_cons, UiAction.submits, List.flatMap_nil,
        List.append_nil, List.mem_filter, List.mem_singleton] at ht
      exact .inl ⟨rfl, by rw [ht.1]⟩
  | mCaptureModePhotoButton =>
    have hm : task = .liveviewStop ∨ task = .liveviewStart ∨
        task = .postSettings { captureMode := some 0 } := by
      simp only [commands, click, onClick, mCaptureModePhotoButtonOnClick] at ht
      split_ifs at ht <;> simp [UiAction.submits] at ht <;> tauto
    rcases hm with rfl | rfl | rfl
    · simp
    · simp
    · exact .inr (.inr (.inr (.inl ⟨.photo, rfl⟩)))
  | mCaptureModeVideoButton =>
    have hm : task = .liveviewStart ∨ task = .postSettings { captureMode := some 1 } := by
      simp [commands, click, onClick, mCaptureModeVideoButtonOnClick, UiAction.submits] at ht
      tauto
    rcases hm with rfl | rfl
    · simp
    · exact .inr (.inr (.inr (.inl ⟨.video, rfl⟩)))
  | mContentView x y =>
    simp [commands, click, onClick, UiAction.submits] at ht
    exact .inr (.inr (.inr (.inr ⟨x, y, ht.1⟩)))

/-- An executed request is the oldest submitted one. -/
theorem pending_request (h : step a (.request none) = some b) : ∃ task,
    a.requesting = some task ∧ b.camera = serve a.camera task ∧
    a.pending = [task].filter (! ·.isQuery) ++ b.pending := by
  obtain ⟨task, hr, -, rfl⟩ := step_request.mp h
  obtain ⟨_, hr'⟩ := requesting_eq_some hr
  refine ⟨task, hr, rfl, ?_⟩
  simp only [pending, ← List.filter_append]
  simp [submitted, endRequest, succeed, hr']

/-- However far the executor is, the camera the pending requests lead to changes
only by what an event submits. -/
theorem settled_step (h : step a e = some b) (hown : e.ByActivity) :
    b.settled = settle serve a.settled (a.commands e) := by
  by_cases hr : e = .request none
  · subst hr
    obtain ⟨task, -, hc, hp⟩ := pending_request h
    rw [settled, settled, hp, hc, settle_append]
    cases hq : task.isQuery with
    | true => simp [hq, commands, serve_query hq]
    | false => simp [hq, commands]
  · obtain ⟨hc, hp⟩ := pending_step h hown hr
    rw [settled, hc, hp, settle_append]
    rfl

end App

end CameraClient
