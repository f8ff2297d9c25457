import CameraClient.Requests

/-! The results under way to the UI thread, as the callback steps they will
become. `Prepared` says that none of these steps raises, and is kept by every
step while the camera is reached and heard of through requests only. -/
namespace CameraClient
open Runs

def UiAction.Sound : UiAction → Prop
  | .updateStatus s => ∃ full : FullStatus, s = full.toCameraStatus
  | .setCaptureMode captureMode => captureMode ≠ none
  | _ => True

def UiAction.Neutral : UiAction → Prop
  | .executeOnExecutor _ | .loadLiveview | .openWebsocket => True
  | _ => False

def Task.KnownMode : Task → Prop
  | .postSettings cameraSettings =>
    ∀ value ∈ cameraSettings.captureMode, CaptureMode.fromValue value ≠ none
  | _ => True

/-- No request fails, and the camera is reached and heard of through requests only. -/
def Event.Undisturbed : Event → Prop
  | .push | .message _ => False
  | e => e.ByActivity

theorem Event.Undisturbed.byActivity {e : Event} (h : e.Undisturbed) : e.ByActivity := by
  cases e <;> trivial

namespace App

def todo (a : App) : List UiAction := a.callback ++ a.results.flatMap onPostExecute

structure Prepared (a : App) : Prop where
  sound : ∀ action ∈ a.todo, action.Sound
  known : ∀ task ∈ a.pending, task.KnownMode

variable {a b : App} {e : Event}

theorem neutral_sound {action : UiAction} (h : action.Neutral) : action.Sound := by
  cases action <;> trivial

theorem onClick_neutral {activity : FullscreenActivity} {control : Control}
    {callback : List UiAction} (h : onClick activity control = .ok callback) :
    ∀ action ∈ callback, action.Neutral := by
  cases control with
  | mCaptureButton =>
    simp only [onClick, mCaptureButtonOnClick] at h
    cases hk : captureTask activity with
    | error e => simp [hk, Except.map] at h
    | ok task =>
      obtain rfl : [UiAction.executeOnExecutor task] = callback := by simpa [hk, Except.map] using h
      simp [UiAction.Neutral]
  | mRefreshButton =>
    obtain rfl : mRefreshButtonOnClick activity = callback := by simpa [onClick] using h
    unfold mRefreshButtonOnClick
    split_ifs <;> simp [UiAction.Neutral, readCameraInfo, refreshCameraStatus]
  | mCaptureModePhotoButton =>
    obtain rfl : mCaptureModePhotoButtonOnClick activity = callback := by simpa [onClick] using h
    unfold mCaptureModePhotoButtonOnClick
    split_ifs <;> simp [UiAction.Neutral]
  | mCaptureModeVideoButton =>
    obtain rfl : mCaptureModeVideoButtonOnClick = callback := by simpa [onClick] using h
    simp [mCaptureModeVideoButtonOnClick, UiAction.Neutral]
  | mContentView x y =>
    obtain rfl : [UiAction.executeOnExecutor (.postAutofocus x y)] = callback := by
      simpa [onClick] using h
    simp [UiAction.Neutral]

theorem onResume_neutral (activity : FullscreenActivity) :
    ∀ action ∈ onResume activity, action.Neutral := by
  unfold onResume
  split_ifs <;> simp [UiAction.Neutral, readCameraInfo, refreshCameraStatus]

theorem commands_known (h : step a e = some b) : ∀ task ∈ a.commands e, task.KnownMode := by
  intro task ht
  cases e with
  | press control =>
    rcases mem_commands_press h ht with ⟨-, hk⟩ | rfl | rfl | ⟨mode, rfl⟩ | ⟨_, _, rfl⟩
    · rcases captureTask_cases hk with rfl | rfl | rfl <;> trivial
    · trivial
    · trivial
    · simp [Task.KnownMode]
    · trivial
  | wheel e =>
    rcases a.posted_perform e with hp | ⟨text, hp⟩
    · simp [commands, hp] at ht
    · obtain rfl : task = .postSettings (settingsFor e.wheel text) := by
        simpa [commands, hp] using ht
      simp [Task.KnownMode, captureMode_settingsFor]
  | _ => simp [commands] at ht

theorem known_step (hk : ∀ task ∈ a.pending, task.KnownMode) (h : step a e = some b)
    (hown : e.ByActivity) : ∀ task ∈ b.pending, task.KnownMode := by
  intro task ht
  by_cases hr : e = .request none
  · subst hr
    obtain ⟨_, -, -, hp⟩ := pending_request h
    exact hk task (hp ▸ List.mem_append_right _ ht)
  · rw [(pending_step h hown hr).2, List.mem_append] at ht
    rcases ht with ht | ht
    · exact hk task ht
    · exact commands_known h task ht

theorem result_sound {task : Task} (hk : task.KnownMode) (camera : FullStatus) :
    ∀ action ∈ onPostExecute (task.result camera), action.Sound := by
  cases task with
  | getCameraStatus => simp [Task.result, onPostExecute, UiAction.Sound]
  | postSettings c =>
    cases hm : c.captureMode with
    | none => simp [Task.result, onPostExecute, hm]
    | some value => simpa [Task.result, onPostExecute, hm, UiAction.Sound] using hk value hm
  | _ => simp [Task.result, onPostExecute, enableLiveview, refreshCameraStatus, UiAction.Sound]

theorem runUiAction_sound {action : UiAction} (hs : action.Sound) (a : App) :
    (a.runUiAction action).alive = a.alive ∧ (a.runUiAction action).running = a.running ∧
    (a.runUiAction action).results = a.results ∧ (a.runUiAction action).callback = a.callback ∧
    (a.runUiAction action).state.tasks = a.state.tasks ++ action.submits := by
  cases action with
  | executeOnExecutor task => exact ⟨rfl, rfl, rfl, rfl, rfl⟩
  | loadLiveview => simp [runUiAction, loadLiveview, UiAction.submits]
  | openWebsocket => simp [runUiAction, openWebsocket, UiAction.submits]
  | updateStatus s =>
    obtain ⟨full, rfl⟩ := hs
    simp [runUiAction, perform_ok (updateStatus_full full a.state), UiAction.submits]
  | setCaptureMode m =>
    obtain ⟨mode, rfl⟩ := Option.ne_none_iff_exists'.mp hs
    simp [runUiAction, perform_ok (setCaptureMode_some mode a.state), UiAction.submits]
  | setIsRecording r => simp [runUiAction, perform, setIsRecording, UiAction.submits]

theorem todo_step (h : step a e = some b) (hi : a.Prepared) (he : e.Undisturbed) :
    ∀ action ∈ b.todo, action ∈ a.todo ∨ action.Sound := by
  intro action ha
  cases e with
  | press control =>
    obtain ⟨-, rfl⟩ := step_press.mp h
    rcases a.click_cases control with ⟨callback, hon, hp⟩ | hp
    · rw [hp] at ha
      rcases List.mem_append.mp ha with ha | ha
      · exact .inr (neutral_sound (onClick_neutral hon action ha))
      · exact .inl (List.mem_append_right _ ha)
    · rw [hp] at ha
      exact .inl ha
  | resume =>
    obtain ⟨-, rfl⟩ := step_resume.mp h
    rcases List.mem_append.mp ha with ha | ha
    · exact .inr (neutral_sound (onResume_neutral _ action ha))
    · exact .inl (List.mem_append_right _ ha)
  | wheel w =>
    obtain ⟨-, -, rfl⟩ := step_wheel.mp h
    rw [perform_frame todo a w.callback fun _ _ => rfl] at ha
    exact .inl ha
  | deliver =>
    obtain ⟨r, results, hr, ⟨-, hc⟩, rfl⟩ := step_deliver.mp h
    refine .inl ?_
    simpa [todo, hr, hc] using ha
  | proceed =>
    obtain ⟨x, callback, hc, -, rfl⟩ := step_proceed.mp h
    have hx : x.Sound := hi.sound x (by simp [todo, hc])
    obtain ⟨-, -, hr, hcb, -⟩ := runUiAction_sound hx { a with callback := callback }
    rw [todo, hr, hcb] at ha
    rw [todo, hc]
    exact .inl (List.mem_cons_of_mem x ha)
  | start =>
    obtain ⟨task, tasks, -, -, -, rfl⟩ := step_start.mp h
    exact .inl ha
  | background =>
    obtain ⟨task, x, actions, _, -, -, -, rfl⟩ := step_background.mp h
    cases x <;> exact .inl ha
  | request outcome =>
    obtain rfl : outcome = none := he
    obtain ⟨task, ht, -, rfl⟩ := step_request.mp h
    obtain ⟨_, hr⟩ := requesting_eq_some ht
    have hk : task.KnownMode := by
      cases hq : task.isQuery with
      | true => cases task <;> trivial
      | false => exact hi.known task (by simp [pending, submitted, hr, hq])
    simp only [endRequest, succeed, todo, List.flatMap_append, List.flatMap_cons, List.flatMap_nil,
      List.append_nil, ← List.append_assoc] at ha
    exact (List.mem_append.mp ha).imp_right fun ha => result_sound hk _ action ha
  | surfaceCreated =>
    obtain ⟨-, rfl⟩ := step_surfaceCreated.mp h
    exact .inl ha
  | surfaceDestroyed =>
    obtain ⟨-, rfl⟩ := step_surfaceDestroyed.mp h
    exact .inl ha
  | connected k =>
    obtain ⟨-, -, rfl⟩ := step_connected.mp h
    exact .inl ha
  | connectionFailed k =>
    obtain ⟨-, -, rfl⟩ := step_connectionFailed.mp h
    exact .inl ha
  | push => exact he.elim
  | cameraChanged camera => exact he.elim
  | message s => exact he.elim

theorem prepared_step (hi : a.Prepared) (he : e.Undisturbed) (h : step a e = some b) :
    b.Prepared where
  sound action ha := (todo_step h hi he action ha).elim (hi.sound action) id
  known := known_step hi.known h he.byActivity

end App

end CameraClient
