import CameraClient.Results

/-! The activity's mode and liveview flag against the camera's. The results not
yet delivered are writes on their way to the flags; `Agreement` says that these
writes end on the camera's values unless a status is still to be fetched, and a
drained client has neither. -/
namespace CameraClient
open Runs Pipeline

def writeFlags (flags : Option CaptureMode × Bool) : UiAction → Option CaptureMode × Bool
  | .updateStatus s => (s.captureMode.bind CaptureMode.fromValue, s.isInLiveView.getD flags.2)
  | .setCaptureMode captureMode => (captureMode, flags.2)
  | _ => flags

namespace App

def flags (a : App) : Option CaptureMode × Bool :=
  (a.state.activity.mCaptureMode, a.state.activity.mIsInLiveview)

def cameraFlags (a : App) : Option CaptureMode × Bool :=
  (some a.camera.captureMode, a.camera.isInLiveView)

/-- A status is still to be fetched, or a delivered result will ask for one. -/
def Owed (a : App) : Prop :=
  .getCameraStatus ∈ a.submitted ∨
    .executeOnExecutor .getCameraStatus ∈ a.results.flatMap onPostExecute

structure Drained (a : App) : Prop where
  submitted : a.submitted = []
  results : a.results = []
  callback : a.callback = []

/-- The stopping task has its refresh before it or in the queue. -/
structure Agreement (a : App) : Prop where
  prepared : a.Prepared
  stop : ∀ running ∈ a.running, running.task = .liveviewStop →
    .executeOnExecutor .getCameraStatus ∈ running.actions ∨ .getCameraStatus ∈ a.state.tasks
  agree : a.Owed ∨ settle writeFlags a.flags a.todo = a.cameraFlags

variable {a b : App} {e : Event}

theorem settle_neutral {actions : List UiAction} (h : ∀ action ∈ actions, action.Neutral)
    (flags : Option CaptureMode × Bool) : settle writeFlags flags actions = flags := by
  refine settle_frame (fun flags => flags) flags actions fun action ha _ => ?_
  have hn := h action ha
  cases action <;> first | rfl | exact hn.elim

theorem agreement_enter {callback : List UiAction} (hi : a.Agreement) (hc : a.callback = [])
    (hn : ∀ action ∈ callback, action.Neutral)
    (hp : ({ a with callback := callback } : App).Prepared) :
    ({ a with callback := callback } : App).Agreement where
  prepared := hp
  stop := hi.stop
  agree := by
    refine hi.agree.imp ?_ fun hs => ?_
    · rintro (ho | ho)
      · refine .inl ?_
        simp only [submitted, hc, List.flatMap_nil, List.append_nil] at ho
        exact List.mem_append_left _ ho
      · exact .inr ho
    · simp only [todo, hc, List.nil_append] at hs
      simp only [todo, settle_append, settle_neutral hn]
      exact hs

theorem agreement_frame (more : List Task) (hi : a.Agreement) (hc : b.callback = a.callback)
    (hr : b.results = a.results) (hrun : b.running = a.running) (hcam : b.camera = a.camera)
    (hf : b.flags = a.flags) (ht : b.state.tasks = a.state.tasks ++ more)
    (hp : b.Prepared) : b.Agreement where
  prepared := hp
  stop := by
    intro running hrr hl
    rw [hrun] at hrr
    refine (hi.stop running hrr hl).imp_right fun hm => ?_
    rw [ht]
    exact List.mem_append_left _ hm
  agree := by
    refine hi.agree.imp ?_ fun hs => ?_
    · rintro (ho | ho)
      · refine .inl ?_
        simp only [submitted, List.mem_append, hrun, ht, hc] at ho ⊢
        tauto
      · rw [Owed, hr]
        exact .inr ho
    · rw [hf, todo, hc, hr, cameraFlags, hcam]
      exact hs

theorem wheel_event_flags {st st' : UiState} {e : WheelEvent} (h : e.callback st = .ok () st') :
    st'.activity.mCaptureMode = st.activity.mCaptureMode ∧
      st'.activity.mIsInLiveview = st.activity.mIsInLiveview := by
  rcases WheelEvent.callback_ok h with ⟨_, _, rfl⟩ | ⟨_, _, -, -, _, _, rfl⟩ <;> exact ⟨rfl, rfl⟩

theorem agreement_wheel {w : WheelEvent} (hi : a.Agreement) (h : step a (.wheel w) = some b)
    (hp : b.Prepared) : b.Agreement := by
  obtain ⟨-, -, rfl⟩ := step_wheel.mp h
  have ht := a.perform_wheel_tasks w
  rcases a.perform_cases w.callback with ⟨st, hst, hpf⟩ | hpf
  · rw [hpf] at ht hp ⊢
    obtain ⟨hm, hl⟩ := wheel_event_flags hst
    exact agreement_frame _ hi rfl rfl rfl rfl (by simp [flags, hm, hl]) ht hp
  · rw [hpf] at ht hp ⊢
    exact agreement_frame _ hi rfl rfl rfl rfl rfl ht hp

theorem runUiAction_flags {action : UiAction} (hs : action.Sound) (a : App) :
    (a.runUiAction action).flags = writeFlags a.flags action := by
  cases action with
  | updateStatus s =>
    obtain ⟨full, rfl⟩ := hs
    rw [runUiAction, perform_ok (updateStatus_full full a.state)]
    simp [flags, writeFlags, FullStatus.applyTo, FullStatus.toCameraStatus]
  | setCaptureMode m =>
    obtain ⟨mode, rfl⟩ := Option.ne_none_iff_exists'.mp hs
    rw [runUiAction, perform_ok (setCaptureMode_some mode a.state)]
    rfl
  | _ => rfl

theorem agreement_proceed (hi : a.Agreement) (h : step a .proceed = some b) (hp : b.Prepared) :
    b.Agreement := by
  obtain ⟨action, callback, hc, -, rfl⟩ := step_proceed.mp h
  have hs : action.Sound := hi.prepared.sound action (by simp [todo, hc])
  obtain ⟨hcam, hsub⟩ := runUiAction_submitted a action callback hc
  have hf := runUiAction_flags hs { a with callback := callback }
  obtain ⟨-, hrun, hr, hcb, ht⟩ := runUiAction_sound hs { a with callback := callback }
  refine ⟨hp, ?_, ?_⟩
  · intro running hrr hl
    rw [hrun] at hrr
    refine (hi.stop running hrr hl).imp_right fun hm => ?_
    rw [ht]
    exact List.mem_append_left _ hm
  · refine hi.agree.imp ?_ fun hs => ?_
    · rw [Owed, Owed, hsub, hr]
      exact id
    · rw [todo, hcb, hr, hf, cameraFlags, hcam]
      rw [todo, hc, List.cons_append, settle_cons] at hs
      exact hs

theorem agreement_deliver (hi : a.Agreement) (h : step a .deliver = some b) (hp : b.Prepared) :
    b.Agreement := by
  obtain ⟨result, results, hr, ⟨-, hc⟩, rfl⟩ := step_deliver.mp h
  have htodo : ({ a with results := results, callback := onPostExecute result } : App).todo =
      a.todo := by
    simp [todo, hr, hc]
  refine ⟨hp, hi.stop, hi.agree.imp ?_ fun hs => ?_⟩
  · rintro (ho | ho)
    · refine .inl ?_
      simp only [submitted, hc, List.flatMap_nil, List.append_nil] at ho
      exact List.mem_append_left _ ho
    · rw [hr, List.flatMap_cons, List.mem_append] at ho
      rcases ho with ho | ho
      · exact .inl (List.mem_append_right _ (List.mem_flatMap.mpr ⟨_, ho, by simp [UiAction.submits]⟩))
      · exact .inr ho
  · rw [htodo]
    exact hs

theorem agreement_start (hi : a.Agreement) (h : step a .start = some b) (hp : b.Prepared) :
    b.Agreement := by
  obtain ⟨task, tasks, hr, ht, -, rfl⟩ := step_start.mp h
  have hsub : (a.startNext task tasks).submitted = a.submitted := by
    simp [submitted, startNext, hr, ht]
  refine ⟨hp, ?_, ?_⟩
  · intro running hrr hl
    obtain rfl : RunningTask.mk task (doInBackground task) List.suffix_rfl = running := by
      simpa [startNext] using hrr
    obtain rfl : task = .liveviewStop := hl
    exact .inl (by decide)
  · rw [Owed, hsub]
    exact hi.agree

theorem agreement_background (hi : a.Agreement) (h : step a .background = some b)
    (hp : b.Prepared) : b.Agreement := by
  obtain ⟨task, action, actions, hs, hr, -, -, rfl⟩ := step_background.mp h
  have hstop : task = .liveviewStop →
      .executeOnExecutor .getCameraStatus ∈ action :: actions ∨ .getCameraStatus ∈ a.state.tasks :=
    fun hl => hi.stop _ hr hl
  cases action with
  | executeOnExecutor t =>
    refine ⟨hp, ?_, ?_⟩
    · intro running hrr hl
      obtain rfl : RunningTask.mk task actions _ = running := by
        simpa [runBackgroundAction] using hrr
      simp only [runBackgroundAction, List.mem_append, List.mem_singleton]
      rcases hstop hl with hm | hm
      · rcases List.mem_cons.mp hm with hm | hm
        · exact .inr (.inr (by simpa using hm))
        · exact .inl hm
      · exact .inr (.inl hm)
    · refine hi.agree.imp_left ?_
      rintro (ho | ho)
      · refine .inl ?_
        simp only [submitted, hr, runBackgroundAction, List.mem_append, Option.map_some,
          Option.toList_some] at ho ⊢
        tauto
      · exact .inr ho
  | _ =>
    refine ⟨hp, ?_, ?_⟩
    · intro running hrr hl
      obtain rfl : RunningTask.mk task actions _ = running := by
        simpa [runBackgroundAction] using hrr
      simpa [runBackgroundAction] using hstop hl
    · refine hi.agree.imp_left ?_
      rintro (ho | ho)
      · refine .inl ?_
        simpa [submitted, hr, runBackgroundAction] using ho
      · exact .inr ho

/-- Writes that end on the camera's flags still do so after the request of a task
that asks for no status and after its result. -/
theorem settle_result {task : Task} (hk : task.KnownMode) (h1 : task ≠ .liveviewStart)
    (h2 : task ≠ .liveviewStop) (camera : FullStatus) :
    settle writeFlags (some camera.captureMode, camera.isInLiveView)
        (onPostExecute (task.result (serve camera task))) =
      (some (serve camera task).captureMode, (serve camera task).isInLiveView) := by
  cases task with
  | getCameraStatus => simp [Task.result, onPostExecute, writeFlags, serve, FullStatus.toCameraStatus]
  | postSettings c =>
    cases hm : c.captureMode with
    | none => simp [Task.result, onPostExecute, serve, FullStatus.applySettings, hm]
    | some value =>
      obtain ⟨mode, hv⟩ := Option.ne_none_iff_exists'.mp (hk value hm)
      simp [Task.result, onPostExecute, serve, FullStatus.applySettings, hm, hv, writeFlags]
  | liveviewStart => exact absurd rfl h1
  | liveviewStop => exact absurd rfl h2
  | _ => simp [Task.result, onPostExecute, serve, writeFlags]

theorem agreement_request (hi : a.Agreement) (h : step a (.request none) = some b)
    (hp : b.Prepared) : b.Agreement := by
  obtain ⟨task, ht, -, rfl⟩ := step_request.mp h
  obtain ⟨_, hr⟩ := requesting_eq_some ht
  have hk : task.KnownMode := by
    cases hq : task.isQuery with
    | true => cases task <;> trivial
    | false => exact hi.prepared.known task (by simp [pending, submitted, hr, hq])
  have htodo : (a.succeed task).todo =
      a.todo ++ onPostExecute (task.result (serve a.camera task)) := by
    simp [todo, succeed]
  have howed : .getCameraStatus ∈ a.state.tasks → (a.succeed task).Owed := fun hm =>
    .inl (by simp [submitted, succeed, hm])
  refine ⟨hp, by simp [endRequest, succeed], ?_⟩
  · change (a.succeed task).Owed ∨
      settle writeFlags a.flags (a.succeed task).todo = (a.succeed task).cameraFlags
    by_cases hstart : task = .liveviewStart
    · subst hstart
      exact .inl (.inr (by simp [succeed, Task.result, onPostExecute, enableLiveview,
        refreshCameraStatus]))
    by_cases hstop : task = .liveviewStop
    · exact .inl (howed ((hi.stop _ hr hstop).resolve_left (by simp)))
    by_cases hstatus : task = .getCameraStatus
    · subst hstatus
      refine .inr ?_
      rw [htodo, settle_append]
      simp [Task.result, onPostExecute, writeFlags, serve, FullStatus.toCameraStatus, cameraFlags,
        succeed]
    refine hi.agree.imp ?_ fun hs => ?_
    · rintro (ho | ho)
      · refine .inl ?_
        simp only [submitted, hr, Option.map_some, Option.toList_some, List.mem_append,
          List.mem_singleton, Ne.symm hstatus, false_or] at ho
        simpa [submitted, succeed] using ho
      · exact .inr (by simp only [succeed, List.flatMap_append, List.mem_append]; exact .inl ho)
    · rw [htodo, settle_append, hs]
      exact settle_result hk hstart hstop a.camera

theorem agreement_step (hi : a.Agreement) (he : e.Undisturbed) (h : step a e = some b) :
    b.Agreement := by
  have hp := prepared_step hi.prepared he h
  cases e with
  | press control =>
    obtain ⟨⟨-, hc⟩, rfl⟩ := step_press.mp h
    rcases a.click_cases control with ⟨callback, hon, hk⟩ | hk
    · rw [hk] at hp ⊢
      exact agreement_enter hi hc (onClick_neutral hon) hp
    · rw [hk] at hp ⊢
      exact agreement_frame [] hi rfl rfl rfl rfl rfl (by simp) hp
  | resume =>
    obtain ⟨⟨-, hc⟩, rfl⟩ := step_resume.mp h
    exact agreement_enter hi hc (onResume_neutral _) hp
  | wheel w => exact agreement_wheel hi h hp
  | surfaceCreated =>
    obtain ⟨-, rfl⟩ := step_surfaceCreated.mp h
    exact agreement_frame [] hi rfl rfl rfl rfl rfl (by simp) hp
  | surfaceDestroyed =>
    obtain ⟨-, rfl⟩ := step_surfaceDestroyed.mp h
    exact agreement_frame [] hi rfl rfl rfl rfl rfl (by simp) hp
  | connected k =>
    obtain ⟨-, -, rfl⟩ := step_connected.mp h
    exact agreement_frame [] hi rfl rfl rfl rfl rfl (by simp) hp
  | connectionFailed k =>
    obtain ⟨-, -, rfl⟩ := step_connectionFailed.mp h
    exact agreement_frame [] hi rfl rfl rfl rfl rfl (by simp) hp
  | deliver => exact agreement_deliver hi h hp
  | proceed => exact agreement_proceed hi h hp
  | start => exact agreement_start hi h hp
  | background => exact agreement_background hi h hp
  | request outcome =>
    obtain rfl : outcome = none := he
    exact agreement_request hi h hp
  | push => exact he.elim
  | cameraChanged camera => exact he.elim
  | message s => exact he.elim

theorem agreement_resume (hd : a.Drained) (h : step a .resume = some b) : b.Agreement := by
  obtain ⟨⟨-, hc⟩, rfl⟩ := step_resume.mp h
  have hrun : a.running = none := by
    have hs := hd.submitted
    cases hr : a.running with
    | none => rfl
    | some running => simp [submitted, hr] at hs
  refine ⟨⟨?_, ?_⟩, by simp [hrun], .inl (.inl ?_)⟩
  · simp only [todo, hd.results, List.flatMap_nil, List.append_nil]
    exact fun action ha => neutral_sound (onResume_neutral _ action ha)
  · have hp : ({ a with callback := onResume a.state.activity } : App).pending = a.pending := by
      simp [pending, submitted, hc, onResume_queries]
    rw [hp]
    simp [pending, hd.submitted]
  · refine List.mem_append_right _ ?_
    simp [onResume, readCameraInfo, refreshCameraStatus, UiAction.submits]

/-- However presses, task executions and deliveries interleave after `onResume`,
the drained activity agrees with the camera on the mode and the liveview. -/
theorem drained_flags_agree {es : List Event} (hd : a.Drained) (he : ∀ e ∈ es, e.Undisturbed)
    (h : run step a (.resume :: es) = some b) (hb : b.Drained) :
    b.state.activity.mCaptureMode = some b.camera.captureMode ∧
      b.state.activity.mIsInLiveview = b.camera.isInLiveView := by
  obtain ⟨m, hm, hr⟩ := run_cons_iff.mp h
  have hi : b.Agreement := run_invariant (I := Agreement) (C := fun _ e => e.Undisturbed)
    (fun _ _ _ hi he hst => agreement_step hi he hst) (agreement_resume hd hm)
    (meets_of_forall he m) hr
  rcases hi.agree with (ho | ho) | hs
  · simp [hb.submitted] at ho
  · simp [hb.results] at ho
  · simpa [todo, hb.callback, hb.results, flags, cameraFlags] using hs

def videoEvents : List Event :=
  [.proceed, .proceed, .proceed, .proceed, .start, .request none, .start, .request none, .start,
    .request none, .deliver, .deliver, .deliver, .proceed, .press .mCaptureModeVideoButton, .proceed,
    .proceed, .start, .request none, .start, .request none, .deliver, .proceed, .proceed, .proceed,
    .deliver, .proceed, .start, .request none, .start, .request none, .deliver, .deliver, .proceed,
    .press .mCaptureModePhotoButton, .proceed, .start, .request none, .deliver, .proceed]

theorem drained_flags_agree_video : ∃ b : App,
    run step { camera := sampleStatus ["f/2"] "f/2" ["100"] "100" } (.resume :: videoEvents) =
      some b ∧
    b.camera.captureMode = .photo ∧ b.camera.isInLiveView = true ∧
    b.state.activity.mCaptureMode = some b.camera.captureMode ∧
    b.state.activity.mIsInLiveview = b.camera.isInLiveView := by
  have hes : ∀ e ∈ videoEvents, e.Undisturbed := by
    simp [videoEvents, Event.Undisturbed, Event.ByActivity]
  have hfresh : ({ camera := sampleStatus ["f/2"] "f/2" ["100"] "100" } : App).Drained :=
    ⟨rfl, rfl, rfl⟩
  exact ⟨_, rfl, rfl, rfl, drained_flags_agree hfresh hes rfl ⟨rfl, rfl, rfl⟩⟩

end App

end CameraClient
