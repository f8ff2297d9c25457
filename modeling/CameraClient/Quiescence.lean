import CameraClient.Failures

/-! Whatever the client, its camera and its connections do on their own comes to an
end: a task leads to results, results to tasks and statuses, and none of them back to
the settings a wheel posts. Each step is paid for by the event of the user, of
somebody else at the camera or of the server that set it off. -/
namespace CameraClient
open Runs

def Event.Internal : Event → Bool
  | .connected _ | .connectionFailed _ | .push | .deliver | .proceed | .start | .background
  | .request _ => true
  | _ => false

def Event.income : Event → Nat
  | .press _ => 42
  | .resume => 34
  | .wheel _ => 8
  | .cameraChanged _ | .message _ => 1
  | _ => 0

def Event.cost (e : Event) : Nat := if e.Internal then 1 else 0

namespace App

/-- Statuses and connections under way count once, what leads to them twice. -/
def effort (a : App) : Nat := 2 * a.work + a.pushes.length + a.connecting.length

variable {a b : App} {e : Event} {es : List Event}

theorem work_eq {a b : App} (hc : b.callback = a.callback) (hr : b.results = a.results)
    (ht : b.state.tasks = a.state.tasks) (hrun : b.running = a.running) : b.work = a.work := by
  simp [work, hc, hr, ht, hrun]

theorem perform_work (a : App) (x : Ui Unit)
    (hx : ∀ st st', x st = .ok () st' → st'.tasks = st.tasks) : (a.perform x).work = a.work := by
  rcases a.perform_cases x with ⟨st, hst, hp⟩ | hp
  · rw [hp]
    exact work_eq rfl rfl (hx _ _ hst) rfl
  · rw [hp]
    rfl

theorem perform_under_way (a : App) (x : Ui Unit) : (a.perform x).pushes = a.pushes ∧
    (a.perform x).connecting = a.connecting :=
  ⟨perform_frame App.pushes a x fun _ _ => rfl, perform_frame App.connecting a x fun _ _ => rfl⟩

theorem runUiAction_effort (a : App) (action : UiAction) :
    (a.runUiAction action).effort < a.effort + 2 * action.work := by
  have hperform (x : Ui Unit) (hx : ∀ st st', x st = .ok () st' → st'.tasks = st.tasks) :
      (a.perform x).effort = a.effort := by
    obtain ⟨hp, hc⟩ := a.perform_under_way x
    rw [effort, effort, perform_work a x hx, hp, hc]
  cases action with
  | executeOnExecutor task =>
    simp only [runUiAction, perform, executeOnExecutor, Ui.modify_apply, effort, work,
      UiAction.work, UiAction.submits, List.map_append, List.sum_append, List.map_cons,
      List.map_nil, List.sum_cons, List.sum_nil]
    omega
  | loadLiveview =>
    simp only [runUiAction, loadLiveview, effort, work, UiAction.work, UiAction.submits,
      List.map_nil, List.sum_nil, List.length_append, List.length_cons, List.length_nil]
    omega
  | openWebsocket =>
    simp only [runUiAction, openWebsocket, effort, work, UiAction.work, UiAction.submits,
      List.map_nil, List.sum_nil]
    omega
  | updateStatus s =>
    rw [runUiAction, hperform _ fun _ _ => updateStatus_ok, UiAction.work]
    omega
  | setCaptureMode m =>
    rw [runUiAction, hperform _ fun _ _ => setCaptureMode_ok, UiAction.work]
    omega
  | setIsRecording r =>
    rw [runUiAction, hperform _ fun st st' h => by cases h; rfl, UiAction.work]
    omega

theorem endRequest_effort {task : Task} {hs : [.request] <:+ doInBackground task}
    (hr : a.running = some ⟨task, [.request], hs⟩) (outcome : Option RequestException) :
    (a.endRequest task outcome).effort < a.effort := by
  have hw := result_work task (serve a.camera task)
  cases outcome with
  | none =>
    have hn : (announce (serve a.camera task) task).length ≤ 1 := by
      unfold announce
      split_ifs <;> simp
    simp only [effort, work, endRequest, succeed, hr, RunningTask.work, List.map_append,
      List.map_cons, List.map_nil, List.sum_append, List.sum_cons, List.sum_nil,
      Option.elim_some, Option.elim_none, List.length_append]
    omega
  | some e =>
    simp only [effort, work, endRequest, hr, RunningTask.work, List.map_cons, List.map_nil,
      List.sum_cons, List.sum_nil, Option.elim_some, Option.elim_none]
    omega

/-- A step nobody outside takes uses up effort, whether it succeeds or not. -/
theorem internal_step_effort (he : e.Internal) (h : step a e = some b) : b.effort < a.effort := by
  cases e with
  | connected k =>
    obtain ⟨hk, -, rfl⟩ := step_connected.mp h
    have hlen := List.length_erase_of_mem hk
    have hpos := List.length_pos_of_mem hk
    simp only [effort, work, hlen]
    omega
  | connectionFailed k =>
    obtain ⟨hk, -, rfl⟩ := step_connectionFailed.mp h
    have hlen := List.length_erase_of_mem hk
    have hpos := List.length_pos_of_mem hk
    simp only [effort, work, hlen]
    omega
  | push =>
    obtain ⟨s, pushes, hp, -, rfl⟩ := step_push.mp h
    obtain ⟨hpu, hco⟩ := perform_under_way { a with pushes := pushes } (updateStatus s)
    rw [effort, effort, perform_work _ _ fun _ _ => updateStatus_ok, hpu, hco, hp]
    simp [work]
  | deliver =>
    obtain ⟨r, results, hr, ⟨-, hc⟩, rfl⟩ := step_deliver.mp h
    simp only [effort, work, hr, hc, TaskResult.work, List.map_cons, List.map_nil, List.sum_cons,
      List.sum_nil]
    omega
  | proceed =>
    obtain ⟨action, callback, hc, -, rfl⟩ := step_proceed.mp h
    have hw := runUiAction_effort { a with callback := callback } action
    simp only [effort, work, hc, List.map_cons, List.sum_cons] at hw ⊢
    omega
  | start =>
    obtain ⟨task, tasks, hr, ht, -, rfl⟩ := step_start.mp h
    have hw := doInBackground_work task
    simp only [effort, work, startNext, hr, ht, RunningTask.work, List.map_cons, List.sum_cons,
      Option.elim_some, Option.elim_none]
    omega
  | background =>
    obtain ⟨task, action, actions, hs, hr, -, -, rfl⟩ := step_background.mp h
    have hw := runBackgroundAction_work
      { a with running := some ⟨task, actions, (List.suffix_cons action actions).trans hs⟩ }
      task action
    have hsame (c : App) : (c.runBackgroundAction action).pushes = c.pushes ∧
        (c.runBackgroundAction action).connecting = c.connecting := by
      cases action <;> exact ⟨rfl, rfl⟩
    simp only [effort, (hsame _).1, (hsame _).2]
    simp only [work, hr, RunningTask.work, List.map_cons, List.sum_cons, Option.elim_some] at hw ⊢
    omega
  | request outcome =>
    obtain ⟨task, ht, -, rfl⟩ := step_request.mp h
    obtain ⟨_, hr⟩ := requesting_eq_some ht
    exact endRequest_effort hr outcome
  | _ => simp [Event.Internal] at he

theorem onClick_work {activity : FullscreenActivity} {control : Control}
    {callback : List UiAction} (h : onClick activity control = .ok callback) :
    (callback.map UiAction.work).sum ≤ 21 := by
  cases control with
  | mCaptureButton =>
    simp only [onClick, mCaptureButtonOnClick] at h
    cases hk : captureTask activity with
    | error e => simp [hk, Except.map] at h
    | ok task =>
      obtain rfl : [UiAction.executeOnExecutor task] = callback := by simpa [hk, Except.map] using h
      cases task <;> simp [UiAction.work, UiAction.submits, Task.work]
  | mRefreshButton =>
    obtain rfl : mRefreshButtonOnClick activity = callback := by simpa [onClick] using h
    unfold mRefreshButtonOnClick
    split_ifs <;>
      simp [UiAction.work, UiAction.submits, Task.work, readCameraInfo, refreshCameraStatus]
  | mCaptureModePhotoButton =>
    obtain rfl : mCaptureModePhotoButtonOnClick activity = callback := by simpa [onClick] using h
    unfold mCaptureModePhotoButtonOnClick
    split_ifs <;> simp [UiAction.work, UiAction.submits, Task.work]
  | mCaptureModeVideoButton =>
    obtain rfl : mCaptureModeVideoButtonOnClick = callback := by simpa [onClick] using h
    simp [mCaptureModeVideoButtonOnClick, UiAction.work, UiAction.submits, Task.work]
  | mContentView x y =>
    obtain rfl : [UiAction.executeOnExecutor (.postAutofocus x y)] = callback := by
      simpa [onClick] using h
    simp [UiAction.work, UiAction.submits, Task.work]

theorem onResume_work (activity : FullscreenActivity) :
    ((onResume activity).map UiAction.work).sum ≤ 17 := by
  unfold onResume
  split_ifs <;>
    simp [UiAction.work, UiAction.submits, Task.work, readCameraInfo, refreshCameraStatus]

theorem click_effort (hc : a.callback = []) (control : Control) :
    (a.click control).effort ≤ 42 + a.effort := by
  rcases a.click_cases control with ⟨callback, hon, hp⟩ | hp
  · have hw := onClick_work hon
    rw [hp]
    simp only [effort, work, hc, List.map_nil, List.sum_nil]
    omega
  · rw [hp]
    simp only [effort, work]
    omega

theorem perform_wheel_effort (a : App) (w : WheelEvent) :
    (a.perform w.callback).effort ≤ 8 + a.effort := by
  obtain ⟨hp, hc⟩ := a.perform_under_way w.callback
  have hposted : ((posted a.state (a.perform w.callback).state).map Task.work).sum ≤ 4 := by
    rcases a.posted_perform w with h | ⟨text, h⟩ <;> simp [h, Task.work]
  have hcb : (a.perform w.callback).callback = a.callback :=
    perform_frame App.callback a w.callback fun _ _ => rfl
  have hres : (a.perform w.callback).results = a.results :=
    perform_frame App.results a w.callback fun _ _ => rfl
  have hrun : (a.perform w.callback).running = a.running :=
    perform_frame App.running a w.callback fun _ _ => rfl
  simp only [effort, work, hp, hc, hcb, hres, hrun, a.perform_wheel_tasks w, List.map_append,
    List.sum_append]
  omega

/-- Every step is paid for by its event or out of the effort already due. -/
theorem step_cost (h : step a e = some b) : e.cost + b.effort ≤ e.income + a.effort := by
  by_cases he : e.Internal
  · have hlt := internal_step_effort he h
    simp only [Event.cost, he, if_true]
    omega
  · simp only [Event.cost, he, Bool.false_eq_true, if_false, Nat.zero_add]
    cases e with
    | press control =>
      obtain ⟨⟨-, hc⟩, rfl⟩ := step_press.mp h
      exact click_effort hc control
    | resume =>
      obtain ⟨⟨-, hc⟩, rfl⟩ := step_resume.mp h
      have hw := onResume_work a.state.activity
      simp only [effort, work, Event.income, hc, List.map_nil, List.sum_nil]
      omega
    | wheel w =>
      obtain ⟨-, -, rfl⟩ := step_wheel.mp h
      exact a.perform_wheel_effort w
    | surfaceCreated =>
      obtain ⟨-, rfl⟩ := step_surfaceCreated.mp h
      exact Nat.le_add_left _ _
    | surfaceDestroyed =>
      obtain ⟨-, rfl⟩ := step_surfaceDestroyed.mp h
      exact Nat.le_add_left _ _
    | cameraChanged camera =>
      obtain ⟨-, rfl⟩ := step_cameraChanged.mp h
      simp only [effort, work, Event.income, List.length_append, List.length_cons, List.length_nil]
      omega
    | message s =>
      obtain ⟨-, rfl⟩ := step_message.mp h
      simp only [effort, work, Event.income, List.length_append, List.length_cons, List.length_nil]
      omega
    | _ => simp [Event.Internal] at he

/-- However the events interleave, the client takes no more steps on its own than
were under way and than the events from outside pay for: no chain of requests,
results, statuses and connections feeds itself. -/
theorem run_internal_le (h : run step a es = some b) :
    es.countP Event.Internal + b.effort ≤ a.effort + (es.map Event.income).sum := by
  have hcost : (es.map Event.cost).sum = es.countP Event.Internal := by
    clear h
    induction es with
    | nil => rfl
    | cons e es ih =>
      by_cases he : e.Internal <;> simp [Event.cost, he, ih, Nat.add_comm]
  have hle := run_cost_le (fun _ e _ hs => step_cost (e := e) hs) h
  omega

theorem run_internal_le_video : ∃ b : App,
    run step { camera := sampleStatus ["f/2"] "f/2" ["100"] "100" }
      [.press .mCaptureModeVideoButton, .proceed, .start, .proceed, .request none, .push] = some b ∧
    5 + b.effort ≤ 42 := by
  refine ⟨_, rfl, ?_⟩
  have hle := run_internal_le (show run step
    { camera := sampleStatus ["f/2"] "f/2" ["100"] "100" }
    [.press .mCaptureModeVideoButton, .proceed, .start, .proceed, .request none, .push] = some _
    from rfl)
  simpa [List.countP_cons, Event.Internal, Event.income, effort, work] using hle

end App

end CameraClient
