import CameraClient.Results
import Mathlib.Algebra.GroupWithZero.Nat

/-! A queue of tasks some of whose requests fail. Every `doInBackground` wraps
what its request throws and lets it escape, so the first failure ends the
process; up to there it has touched nothing, but for the playback that a stopping
liveview ends before its request. -/
namespace CameraClient
open Runs

def Event.RunsQueue : Event → Prop
  | .start | .background | .deliver | .proceed => True
  | .request outcome => outcome = none
  | _ => False

/-- Bounds on the steps that running a task, a callback step, a result and a step of
a task take, with all that they submit. -/
def Task.work : Task → Nat
  | .liveviewStart | .liveviewStop => 15
  | _ => 4

def UiAction.work (action : UiAction) : Nat := 1 + (action.submits.map Task.work).sum

def TaskResult.work (result : TaskResult) : Nat := 1 + ((onPostExecute result).map UiAction.work).sum

def BackgroundAction.work (task : Task) : BackgroundAction → Nat
  | .stopLiveview => 1
  | .executeOnExecutor t => 1 + t.work
  | .request => if task = .liveviewStart then 13 else 3

def RunningTask.work (running : RunningTask) : Nat :=
  (running.actions.map (BackgroundAction.work running.task)).sum

theorem doInBackground_work (task : Task) :
    ((doInBackground task).map (BackgroundAction.work task)).sum < task.work := by
  cases task <;>
    simp [doInBackground, disableLiveview, refreshCameraStatus, BackgroundAction.work, Task.work]

theorem result_work (task : Task) (camera : FullStatus) :
    (task.result camera).work < BackgroundAction.work task .request := by
  cases task with
  | postSettings cameraSettings =>
    cases h : cameraSettings.captureMode <;>
      simp [Task.result, TaskResult.work, onPostExecute, h, UiAction.work, UiAction.submits,
        BackgroundAction.work]
  | getCameraStatus =>
    simp [Task.result, TaskResult.work, onPostExecute, UiAction.work, UiAction.submits,
      BackgroundAction.work]
  | _ => simp [Task.result, TaskResult.work, onPostExecute, enableLiveview, refreshCameraStatus,
      UiAction.work, UiAction.submits, BackgroundAction.work, Task.work]

theorem Event.RunsQueue.undisturbed {e : Event} (h : e.RunsQueue) : e.Undisturbed := by
  cases e <;> trivial

namespace App

def waiting (a : App) : List Task := (a.running.map (·.task)).toList ++ a.state.tasks

def attempts (a : App) : Event → List Task
  | .request none => a.requesting.toList
  | _ => []

structure Queued (a : App) : Prop where
  running : a.running = none
  results : a.results = []
  callback : a.callback = []
  alive : a.alive = true

/-- What holds while a queue is worked off: a running task has its request ahead. -/
structure Working (a : App) : Prop where
  prepared : a.Prepared
  alive : a.alive = true
  busy : ∀ running ∈ a.running, running.actions ≠ []

def work (a : App) : Nat :=
  (a.callback.map UiAction.work).sum + (a.results.map TaskResult.work).sum +
    (a.state.tasks.map Task.work).sum + (a.running.elim 0 RunningTask.work)

def withTasks (a : App) (tasks : List Task) : App := { a with state := { a.state with tasks := tasks } }

def withExecutor (a : App) (running : Option RunningTask) (tasks : List Task) (view : MjpegView) :
    App :=
  { a with running := running, state := { a.state with tasks := tasks }, view := view }

variable {a b : App} {e : Event} {es : List Event}

theorem runUiAction_withExecutor {action : UiAction} (hs : action.Sound) (a : App)
    (running : Option RunningTask) (tasks : List Task) (view : MjpegView) :
    (a.withExecutor running tasks view).runUiAction action =
      (a.runUiAction action).withExecutor running (tasks ++ action.submits) view := by
  cases action with
  | executeOnExecutor task => rfl
  | loadLiveview => simp [runUiAction, loadLiveview, withExecutor, UiAction.submits]
  | openWebsocket => simp [runUiAction, openWebsocket, withExecutor, UiAction.submits]
  | updateStatus s =>
    obtain ⟨full, rfl⟩ := hs
    simp [runUiAction, perform_ok (updateStatus_full full _), withExecutor, UiAction.submits]
  | setCaptureMode m =>
    obtain ⟨mode, rfl⟩ := Option.ne_none_iff_exists'.mp hs
    simp [runUiAction, perform_ok (setCaptureMode_some mode _), withExecutor, UiAction.submits]
  | setIsRecording r => simp [runUiAction, perform, setIsRecording, withExecutor, UiAction.submits]

theorem runUiAction_view (a : App) (action : UiAction) : (a.runUiAction action).view = a.view := by
  cases action with
  | loadLiveview => rfl
  | openWebsocket => rfl
  | executeOnExecutor task => exact perform_frame App.view a _ fun _ _ => rfl
  | updateStatus s => exact perform_frame App.view a _ fun _ _ => rfl
  | setCaptureMode m => exact perform_frame App.view a _ fun _ _ => rfl
  | setIsRecording r => exact perform_frame App.view a _ fun _ _ => rfl

theorem runUiAction_withTasks {action : UiAction} (hs : action.Sound) (a : App) (tasks : List Task) :
    (a.withTasks tasks).runUiAction action =
      (a.runUiAction action).withTasks (tasks ++ action.submits) := by
  have h := runUiAction_withExecutor hs a a.running tasks a.view
  simpa [withExecutor, withTasks, (runUiAction_sound hs a).2.1, runUiAction_view] using h

theorem Queued.working (hq : a.Queued) (hk : ∀ task ∈ a.state.tasks, task.KnownMode) :
    a.Working where
  prepared :=
    ⟨by simp [todo, hq.callback, hq.results], by
      simp only [pending, submitted, hq.running, hq.callback]
      exact fun task ht => hk task (by simpa using (List.mem_filter.mp ht).1)⟩
  alive := hq.alive
  busy := by simp [hq.running]

theorem runBackgroundAction_work (a : App) (task : Task) (action : BackgroundAction) :
    (a.runBackgroundAction action).work < a.work + action.work task := by
  cases action with
  | stopLiveview =>
    simp only [work, runBackgroundAction, BackgroundAction.work]
    omega
  | executeOnExecutor t =>
    simp only [work, runBackgroundAction, BackgroundAction.work, List.map_append, List.map_cons,
      List.map_nil, List.sum_append, List.sum_cons, List.sum_nil]
    omega
  | request =>
    simp only [runBackgroundAction, BackgroundAction.work]
    split_ifs <;> omega

/-- One step on the queue: the process stays alive, there is less to do, and the
tasks keep their order. -/
theorem queue_step (hi : a.Working) (he : e.RunsQueue) (h : step a e = some b) :
    b.Working ∧ b.work < a.work ∧ a.waiting <+: a.attempts e ++ b.waiting := by
  have hp : b.Prepared := prepared_step hi.prepared he.undisturbed h
  cases e with
  | start =>
    obtain ⟨task, tasks, hr, ht, ha, rfl⟩ := step_start.mp h
    have hw := doInBackground_work task
    refine ⟨⟨hp, ha, ?_⟩, ?_, by simp [attempts, waiting, startNext, hr, ht]⟩
    · cases task <;> simp [startNext, doInBackground]
    · simp only [work, startNext, hr, ht, RunningTask.work, List.map_cons, List.sum_cons,
        Option.elim_some, Option.elim_none]
      omega
  | background =>
    obtain ⟨task, action, actions, hs, hr, hne, ha, rfl⟩ := step_background.mp h
    have hsuf := (List.suffix_cons action actions).trans hs
    have hw : ({ a with running := some ⟨task, actions, hsuf⟩ } : App).work + action.work task =
        a.work := by
      simp only [work, hr, RunningTask.work, List.map_cons, List.sum_cons, Option.elim_some]
      omega
    refine ⟨⟨hp, ?_, ?_⟩, hw ▸ runBackgroundAction_work _ task action, ?_⟩
    · cases action <;> exact ha
    · cases action <;> simpa [runBackgroundAction] using hne
    · cases action <;> simp [attempts, waiting, runBackgroundAction, hr]
  | request outcome =>
    obtain rfl : outcome = none := he
    obtain ⟨task, ht, ha, rfl⟩ := step_request.mp h
    obtain ⟨_, hr⟩ := requesting_eq_some ht
    have hw := result_work task (serve a.camera task)
    refine ⟨⟨hp, ha, by simp [endRequest, succeed]⟩, ?_,
      by simp [attempts, ht, waiting, endRequest, succeed, hr]⟩
    simp only [work, endRequest, succeed, hr, RunningTask.work, List.map_append, List.map_cons,
      List.map_nil, List.sum_append, List.sum_cons, List.sum_nil, Option.elim_some,
      Option.elim_none]
    omega
  | deliver =>
    obtain ⟨r, results, hr, ⟨ha, hc⟩, rfl⟩ := step_deliver.mp h
    refine ⟨⟨hp, ha, hi.busy⟩, ?_, by simp [attempts, waiting]⟩
    simp only [work, hr, hc, TaskResult.work, List.map_cons, List.map_nil, List.sum_cons,
      List.sum_nil]
    omega
  | proceed =>
    obtain ⟨action, callback, hc, ha, rfl⟩ := step_proceed.mp h
    have hs : action.Sound := hi.prepared.sound action (by simp [todo, hc])
    obtain ⟨hal, hrun, hres, hcb, ht⟩ := runUiAction_sound hs { a with callback := callback }
    refine ⟨⟨hp, hal.trans ha, by simpa [hrun] using hi.busy⟩, ?_,
      by simp [attempts, waiting, hrun, ht]⟩
    simp only [work, hrun, hres, hcb, ht, hc, UiAction.work, List.map_append, List.map_cons,
      List.sum_append, List.sum_cons]
    omega
  | _ => exact he.elim

theorem drained_of_stuck (ha : a.alive = true) (hbusy : ∀ running ∈ a.running, running.actions ≠ [])
    (hstuck : ∀ e, e.RunsQueue → step a e = none) : a.waiting = [] ∧ a.todo = [] := by
  have hc : a.callback = [] := by
    cases hc : a.callback with
    | nil => rfl
    | cons action callback =>
      have hp := step_proceed.mpr ⟨action, callback, hc, ha, rfl⟩
      simp [hstuck .proceed trivial] at hp
  have hres : a.results = [] := by
    cases hr : a.results with
    | nil => rfl
    | cons r results =>
      have hd := step_deliver.mpr ⟨r, results, hr, ⟨ha, hc⟩, rfl⟩
      simp [hstuck .deliver trivial] at hd
  have hrun : a.running = none := by
    rcases hr : a.running with _ | ⟨task, _ | ⟨action, actions⟩, hs⟩
    · rfl
    · exact absurd rfl (hbusy _ hr)
    · by_cases hne : actions = []
      · subst hne
        obtain rfl : action = .request := by
          have hlast := hs.getLast (by simp)
          cases task <;> simpa [doInBackground] using hlast
        have hq : step a (.request none) = some (a.endRequest task none) :=
          step_request.mpr ⟨task, by simp [requesting, hr], ha, rfl⟩
        simp [hstuck (.request none) rfl] at hq
      · have hb := step_background.mpr ⟨task, action, actions, hs, hr, hne, ha, rfl⟩
        simp [hstuck .background trivial] at hb
  have ht : a.state.tasks = [] := by
    cases ht : a.state.tasks with
    | nil => rfl
    | cons task tasks =>
      have hs := step_start.mpr ⟨task, tasks, hrun, ht, ha, rfl⟩
      simp [hstuck .start trivial] at hs
  simp [waiting, todo, hc, hres, hrun, ht]

theorem queue_progress (hi : a.Working) (hstuck : ∀ e, e.RunsQueue → step a e = none) :
    a.waiting = [] ∧ a.todo = [] :=
  drained_of_stuck hi.alive hi.busy hstuck

/-- While the task waits, the client without it takes every step but its start. -/
theorem without_step_waiting {task : Task} {us vs : List Task}
    (ht : a.state.tasks = us ++ task :: vs) (hi : a.Working) (he : e.RunsQueue)
    (h : step a e = some b) :
    (us = [] ∧ a.running = none ∧ a.attempts e = [] ∧ b = a.startNext task vs) ∨
    ∃ us' vs', b.state.tasks = us' ++ task :: vs' ∧
      a.running.toList.length + us.length =
        (a.attempts e).length + (b.running.toList.length + us'.length) ∧
      step (a.withTasks (us ++ vs)) e = some (b.withTasks (us' ++ vs')) := by
  cases e with
  | start =>
    obtain ⟨u, tasks, hr, hts, ha, rfl⟩ := step_start.mp h
    rw [ht] at hts
    cases us with
    | nil =>
      obtain ⟨rfl, rfl⟩ : task = u ∧ vs = tasks := by simpa using hts
      exact .inl ⟨rfl, hr, rfl, rfl⟩
    | cons u' us =>
      obtain ⟨rfl, rfl⟩ : u' = u ∧ us ++ task :: vs = tasks := by simpa using hts
      refine .inr ⟨us, vs, rfl, ?_, step_start.mpr ⟨u', us ++ vs, hr, rfl, ha, rfl⟩⟩
      simp [hr, attempts, startNext, Nat.add_comm]
  | background =>
    obtain ⟨u, action, actions, hs, hr, hne, ha, rfl⟩ := step_background.mp h
    have hstep (x : App) := step_background (a := a.withTasks (us ++ vs)) (b := x)
    cases action with
    | executeOnExecutor t =>
      refine .inr ⟨us, vs ++ [t], by simp [runBackgroundAction, ht], ?_,
        (hstep _).mpr ⟨u, _, actions, hs, hr, hne, ha, ?_⟩⟩
      · simp [runBackgroundAction, attempts, hr]
      · simp [runBackgroundAction, withTasks]
    | _ =>
      refine .inr ⟨us, vs, ht, ?_, (hstep _).mpr ⟨u, _, actions, hs, hr, hne, ha, rfl⟩⟩
      simp [runBackgroundAction, attempts, hr]
  | request outcome =>
    obtain rfl : outcome = none := he
    obtain ⟨u, hu, ha, rfl⟩ := step_request.mp h
    obtain ⟨_, hr⟩ := requesting_eq_some hu
    refine .inr ⟨us, vs, ht, ?_, step_request.mpr ⟨u, hu, ha, rfl⟩⟩
    simp [hr, attempts, hu, endRequest, succeed]
  | deliver =>
    obtain ⟨r, results, hr, hc, rfl⟩ := step_deliver.mp h
    exact .inr ⟨us, vs, ht, by simp [attempts], step_deliver.mpr ⟨r, results, hr, hc, rfl⟩⟩
  | proceed =>
    obtain ⟨action, callback, hc, ha, rfl⟩ := step_proceed.mp h
    have hs : action.Sound := hi.prepared.sound action (by simp [todo, hc])
    obtain ⟨-, hrun, -, -, hts⟩ := runUiAction_sound hs { a with callback := callback }
    refine .inr ⟨us, vs ++ action.submits, by simp [hts, ht], by simp [attempts, hrun],
      step_proceed.mpr ⟨action, callback, hc, ha, ?_⟩⟩
    rw [← List.append_assoc, ← runUiAction_withTasks hs]
    rfl
  | _ => exact he.elim

theorem background_actions {running : RunningTask} {action : BackgroundAction}
    {actions : List BackgroundAction} (ha : running.actions = action :: actions)
    (hne : actions ≠ []) : running.task = .liveviewStop ∧ .stopLiveview ∉ actions ∧
      (action = .stopLiveview ∨
        .stopLiveview ∉ running.actions ∧ ∃ t, action = .executeOnExecutor t) := by
  have hs := running.isSuffix
  rw [ha] at hs ⊢
  cases ht : running.task with
  | liveviewStop =>
    rw [ht] at hs
    simp only [doInBackground, disableLiveview, refreshCameraStatus, List.map_cons, List.map_nil,
      List.cons_append, List.nil_append, List.suffix_cons_iff, List.cons.injEq] at hs
    rcases hs with ⟨rfl, rfl⟩ | ⟨rfl, rfl⟩ | ⟨rfl, rfl⟩ | ⟨rfl, rfl⟩ | hs
    · simp
    · simp
    · simp
    · exact absurd rfl hne
    · simp at hs
  | _ =>
    rw [ht] at hs
    have hlen := hs.length_le
    cases actions with
    | nil => exact absurd rfl hne
    | cons x actions => simp [doInBackground] at hlen

theorem without_step_running {running : RunningTask} {view : MjpegView} (tasks : List Task)
    (hr : a.running = some running)
    (hv : a.view = if running.task = .liveviewStop ∧ .stopLiveview ∉ running.actions
      then view.stopPlayback else view) (hi : a.Working) (he : e.RunsQueue)
    (hn : a.attempts e = []) (h : step a e = some b) :
    ∃ running', b.running = some running' ∧ running'.task = running.task ∧
      b.view = (if running.task = .liveviewStop ∧ .stopLiveview ∉ running'.actions
        then view.stopPlayback else view) ∧
      (a.withExecutor none tasks view = b.withExecutor none tasks view ∨
        ∃ tasks', step (a.withExecutor none tasks view) e = some (b.withExecutor none tasks' view)) := by
  cases e with
  | start =>
    obtain ⟨u, ts, hr', -⟩ := step_start.mp h
    simp [hr] at hr'
  | background =>
    obtain ⟨u, action, actions, hs, hr', hne, ha, rfl⟩ := step_background.mp h
    obtain rfl : running = ⟨u, action :: actions, hs⟩ := by simpa [hr] using hr'
    have hacts : (⟨u, action :: actions, hs⟩ : RunningTask).actions = action :: actions := rfl
    obtain ⟨hstop, hnot, hcase⟩ := background_actions hacts hne
    rcases hcase with rfl | ⟨hnot', t, rfl⟩
    · refine ⟨⟨u, actions, _⟩, rfl, rfl, ?_, .inl rfl⟩
      have hv : a.view = view := by simpa using hv
      simp only at hstop
      simp [runBackgroundAction, hstop, hnot, hv]
    · refine ⟨⟨u, actions, _⟩, rfl, rfl, ?_, .inl rfl⟩
      simp only at hstop hnot'
      simp only [hstop, hnot', not_false_eq_true, and_self, if_true] at hv
      simp [runBackgroundAction, hstop, hnot, hv]
  | request outcome =>
    obtain rfl : outcome = none := he
    obtain ⟨u, hu, -⟩ := step_request.mp h
    simp [attempts, hu] at hn
  | deliver =>
    obtain ⟨r, results, hres, hc, rfl⟩ := step_deliver.mp h
    exact ⟨running, hr, rfl, hv, .inr ⟨tasks, step_deliver.mpr ⟨r, results, hres, hc, rfl⟩⟩⟩
  | proceed =>
    obtain ⟨action, callback, hc, ha, rfl⟩ := step_proceed.mp h
    have hs : action.Sound := hi.prepared.sound action (by simp [todo, hc])
    obtain ⟨-, hrun, -, -, -⟩ := runUiAction_sound hs { a with callback := callback }
    refine ⟨running, hrun.trans hr, rfl, (runUiAction_view _ _).trans hv, .inr
      ⟨tasks ++ action.submits, step_proceed.mpr ⟨action, callback, hc, ha, ?_⟩⟩⟩
    rw [← runUiAction_withExecutor hs]
    rfl
  | _ => exact he.elim

theorem attempts_idle (hr : a.running = none) (e : Event) : a.attempts e = [] := by
  cases e with
  | request outcome => cases outcome <;> simp [attempts, requesting, hr]
  | _ => rfl

theorem run_without_running {running : RunningTask} {view : MjpegView} (tasks : List Task)
    (hr : a.running = some running)
    (hv : a.view = if running.task = .liveviewStop ∧ .stopLiveview ∉ running.actions
      then view.stopPlayback else view) (hi : a.Working) (hes : ∀ e ∈ es, e.RunsQueue)
    (hn : trace step attempts a es = []) (h : run step a es = some b) :
    ∃ running' es' tasks', b.running = some running' ∧ running'.task = running.task ∧
      b.view = (if running.task = .liveviewStop ∧ .stopLiveview ∉ running'.actions
        then view.stopPlayback else view) ∧
      es'.Sublist es ∧ trace step attempts (a.withExecutor none tasks view) es' = [] ∧
      run step (a.withExecutor none tasks view) es' = some (b.withExecutor none tasks' view) := by
  induction es generalizing a running tasks with
  | nil =>
    obtain rfl : a = b := by simpa using h
    exact ⟨running, [], tasks, hr, rfl, hv, List.nil_sublist [], rfl, rfl⟩
  | cons e es ih =>
    obtain ⟨a', hs, hrun⟩ := run_cons_iff.mp h
    have he : e.RunsQueue := hes e (by simp)
    simp only [trace, hs, Option.elim_some, List.append_eq_nil_iff] at hn
    obtain ⟨running', hr', ht', hv', hstep⟩ :=
      without_step_running tasks hr hv hi he hn.1 hs
    have ih' (tasks' : List Task) := ih tasks' hr' (ht' ▸ hv') (queue_step hi he hs).1
      (fun x hx => hes x (List.mem_cons_of_mem e hx)) hn.2 hrun
    rcases hstep with heq | ⟨tasks', hstep⟩
    · obtain ⟨running'', es', tasks', hr'', ht'', hv'', hsub, htr, hd⟩ := ih' tasks
      exact ⟨running'', es', tasks', hr'', ht''.trans ht', ht' ▸ hv'', hsub.cons e, heq ▸ htr,
        heq ▸ hd⟩
    · obtain ⟨running'', es', tasks'', hr'', ht'', hv'', hsub, htr, hd⟩ := ih' tasks'
      refine ⟨running'', e :: es', tasks'', hr'', ht''.trans ht', ht' ▸ hv'', hsub.cons_cons e, ?_,
        run_cons_iff.mpr ⟨_, hstep, hd⟩⟩
      simp only [trace, hstep, Option.elim_some, htr, List.append_nil]
      exact attempts_idle rfl e

/-- Up to the request of a waiting task, the client makes the same run without it. -/
theorem run_without_waiting {task : Task} {us vs : List Task}
    (ht : a.state.tasks = us ++ task :: vs) (hi : a.Working) (hes : ∀ e ∈ es, e.RunsQueue)
    (hn : (trace step attempts a es).length = a.running.toList.length + us.length)
    (h : run step a es = some b) (hb : b.running ≠ none) :
    ∃ running es' tasks view, b.running = some running ∧ running.task = task ∧
      b.view = (if task = .liveviewStop ∧ .stopLiveview ∉ running.actions
        then view.stopPlayback else view) ∧
      es'.Sublist es ∧
      trace step attempts (a.withTasks (us ++ vs)) es' = trace step attempts a es ∧
      run step (a.withTasks (us ++ vs)) es' = some (b.withExecutor none tasks view) := by
  induction es generalizing a us vs with
  | nil =>
    obtain rfl : a = b := by simpa using h
    cases hr : a.running with
    | none => exact absurd hr hb
    | some running =>
      simp only [trace, hr, List.length_nil, Option.toList_some, List.length_singleton] at hn
      omega
  | cons e es ih =>
    obtain ⟨a', hs, hrun⟩ := run_cons_iff.mp h
    have he : e.RunsQueue := hes e (by simp)
    have hes' : ∀ x ∈ es, x.RunsQueue := fun x hx => hes x (List.mem_cons_of_mem e hx)
    have hi' : a'.Working := (queue_step hi he hs).1
    simp only [trace, hs, Option.elim_some, List.length_append] at hn
    rcases without_step_waiting ht hi he hs with ⟨rfl, hr, hat, rfl⟩ | ⟨us', vs', ht', hlen, hstep⟩
    · have hn' : trace step attempts (a.startNext task vs) es = [] := by
        simpa [hat, hr] using hn
      have hv : a.view = if task = .liveviewStop ∧ .stopLiveview ∉ doInBackground task
          then a.view.stopPlayback else a.view := by
        cases task <;> simp [doInBackground, disableLiveview]
      obtain ⟨running, es', tasks, hr', ht', hv', hsub, htr, hd⟩ :=
        run_without_running vs rfl hv hi' hes' hn' hrun
      have heq : (a.startNext task vs).withExecutor none vs a.view = a.withTasks ([] ++ vs) := by
        simp [startNext, withExecutor, withTasks, hr]
      rw [heq] at htr hd
      refine ⟨running, es', tasks, a.view, hr', ht', hv', hsub.cons e, ?_, hd⟩
      simpa [trace, hs, hat, hn'] using htr
    · obtain ⟨running, es', tasks, view, hr', ht'', hv', hsub, htr, hd⟩ :=
        ih ht' hi' hes' (by omega) hrun
      refine ⟨running, e :: es', tasks, view, hr', ht'', hv', hsub.cons_cons e, ?_,
        run_cons_iff.mpr ⟨_, hstep, hd⟩⟩
      have hsame : (a.withTasks (us ++ vs)).attempts e = a.attempts e := by
        cases e <;> rfl
      rw [trace, trace, hs, hstep, hsame, Option.elim_some, Option.elim_some, htr]

/-- The tasks of a queue are attempted in order, all of them unless a request fails.
The failure ends the process and changes nothing else: taken out of the queue at any
moment it waits there, the failed task leaves a run that makes the same requests and
ends in the same activity, and in the same view but for the playback that a stopping
liveview has ended. -/
theorem queue_runs_to_first_failure (hq : a.Queued)
    (hk : ∀ task ∈ a.state.tasks, task.KnownMode) (hes : ∀ e ∈ es, e.RunsQueue)
    (h : run step a es = some b) :
    b.alive = true ∧ es.length ≤ a.work ∧
    a.state.tasks <+: trace step attempts a es ++ b.waiting ∧
    ((∀ e, e.RunsQueue → step b e = none) → b.waiting = [] ∧ b.todo = []) ∧
    ∀ task exception c, b.requesting = some task → step b (.request (some exception)) = some c →
      (∀ e, step c e = none) ∧ c.state = b.state ∧ c.view = b.view ∧
      ∀ es₁ es₂ m us vs, es = es₁ ++ es₂ → run step a es₁ = some m →
        m.state.tasks = us ++ task :: vs →
        (trace step attempts m es₂).length = m.running.toList.length + us.length →
        ∃ es' d, es'.Sublist es₂ ∧ run step (m.withTasks (us ++ vs)) es' = some d ∧
          d.alive = true ∧
          trace step attempts (m.withTasks (us ++ vs)) es' = trace step attempts m es₂ ∧
          c.state.activity = d.state.activity ∧
          c.view = if task = .liveviewStop then d.view.stopPlayback else d.view := by
  have hw := hq.working hk
  have hruns {x y : App} {fs : List Event} (hx : x.Working) (hfs : ∀ e ∈ fs, e.RunsQueue)
      (hr : run step x fs = some y) : y.Working :=
    run_invariant (fun _ _ _ hi he hst => (queue_step hi he hst).1) hx
      (meets_of_forall hfs _) hr
  have hb : b.Working := hruns hw hes h
  refine ⟨hb.alive, ?_, ?_, queue_progress hb, ?_⟩
  · have hle := run_length_le (fun _ _ _ hi he hst => ⟨(queue_step hi he hst).1,
      (queue_step hi he hst).2.1⟩) hw (meets_of_forall hes _) h
    omega
  · have hserved := run_serves_queue (fun _ _ _ hi he hst => ⟨(queue_step hi he hst).1,
      (queue_step hi he hst).2.2⟩) hw (meets_of_forall hes _) h
    simpa [waiting, hq.running] using hserved
  · intro task exception c hreq hc
    obtain ⟨_, -, -, rfl⟩ := step_request.mp hc
    obtain ⟨hs, hr⟩ := requesting_eq_some hreq
    refine ⟨fun e => step_dead rfl e, rfl, rfl, ?_⟩
    rintro es₁ es₂ m us vs rfl hm hts hn
    obtain ⟨m', hm', hb'⟩ := run_append_iff.mp h
    obtain rfl : m = m' := by simpa [hm] using hm'
    have hmw : m.Working := hruns hw (fun e he => hes e (List.mem_append_left _ he)) hm
    obtain ⟨running, es', tasks, view, hr', ht, hv, hsub, htr, hd⟩ := run_without_waiting hts hmw
      (fun e he => hes e (List.mem_append_right _ he)) hn hb' (by simp [hr])
    obtain rfl : (⟨task, [.request], hs⟩ : RunningTask) = running := by simpa [hr] using hr'
    refine ⟨es', _, hsub, hd, hb.alive, htr, rfl, ?_⟩
    simpa [endRequest, withExecutor] using hv

/-- Recording starts, then the request that stops the liveview fails. -/
theorem queue_runs_to_first_failure_stop : ∃ a b c : App,
    a.state.tasks = [.captureStart, .liveviewStop] ∧
    run step a [.start, .request none, .start, .deliver, .background, .proceed, .background,
      .background] = some b ∧
    step b (.request (some .timeoutException)) = some c ∧ (∀ e, step c e = none) ∧
    c.state.activity.mIsRecording = true ∧
    ∃ es' d, run step (a.withTasks [.captureStart]) es' = some d ∧ d.alive = true ∧
      c.state.activity = d.state.activity ∧ c.view = d.view.stopPlayback := by
  let a : App :=
    { camera := sampleStatus ["f/2"] "f/2" ["100"] "100"
      view := MjpegView.setSource {} 0
      state := { tasks := [.captureStart, .liveviewStop] } }
  obtain ⟨b, c, hb, hreq, hc, hrec⟩ : ∃ b c : App,
      run step a [.start, .request none, .start, .deliver, .background, .proceed, .background,
        .background] = some b ∧
      b.requesting = some .liveviewStop ∧ step b (.request (some .timeoutException)) = some c ∧
      c.state.activity.mIsRecording = true := ⟨_, _, rfl, rfl, rfl, rfl⟩
  obtain ⟨-, -, -, -, hfail⟩ := queue_runs_to_first_failure (a := a) ⟨rfl, rfl, rfl, rfl⟩
    (by simp [a, Task.KnownMode]) (by simp [Event.RunsQueue]) hb
  obtain ⟨hdead, -, -, hwithout⟩ := hfail _ _ c hreq hc
  obtain ⟨es', d, -, hd, ha, -, hact, hview⟩ :=
    hwithout [] _ a [.captureStart] [] rfl rfl rfl rfl
  exact ⟨a, b, c, rfl, hb, hc, hdead, hrec, es', d, hd, ha, hact, by simpa using hview⟩

/-- A photo that fails takes the recording behind it along. -/
theorem failed_photo_stops_queue : ∃ c d : App,
    run step
      { camera := sampleStatus ["f/2"] "f/2" ["100"] "100"
        state := { tasks := [.capturePhoto, .captureStart] } }
      [.start, .request (some .apiException)] = some c ∧
    c.alive = false ∧ c.waiting = [.captureStart] ∧ (∀ es x, run step c es = some x → x = c) ∧
    run step
      { camera := sampleStatus ["f/2"] "f/2" ["100"] "100", state := { tasks := [.captureStart] } }
      [.start, .request none, .deliver, .proceed] = some d ∧
    c.state.activity.mIsRecording = false ∧ d.state.activity.mIsRecording = true := by
  refine ⟨_, _, rfl, rfl, rfl, fun es x h => ?_, rfl, rfl, rfl⟩
  cases es with
  | nil => exact (Option.some.inj h).symm
  | cons e es =>
    obtain ⟨_, hs, -⟩ := run_cons_iff.mp h
    rw [step_dead rfl e] at hs
    cases hs

end App

end CameraClient
