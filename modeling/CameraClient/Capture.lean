import CameraClient.Requests

/-! Capture requests and the camera they find. The button chooses the request
when it is pressed and the camera meets it when its turn comes, so what has to
suit the request is the camera the pending requests lead to. -/
namespace CameraClient
open Runs Pipeline

def suits (camera : FullStatus) : Task → Prop
  | .captureStart => camera.isInLiveView ∧ camera.captureMode = .video ∧ camera.isRecording = false
  | .captureStop => camera.isRecording
  | .capturePhoto => ¬ (camera.isInLiveView ∧ camera.captureMode = .video)
  | _ => True

instance (camera : FullStatus) (task : Task) : Decidable (suits camera task) := by
  cases task <;> unfold suits <;> infer_instance

/-- The flags agree with the camera as far as they choose a capture: a camera in video liveview
is known to be, with its recording; one that is not is not taken for it, unless by an activity
that records on a camera that does. -/
def FlagsAgree (flags : FullscreenActivity) (camera : FullStatus) : Prop :=
  if camera.isInLiveView ∧ camera.captureMode = .video then
    flags.mIsInLiveview ∧ (flags.mCaptureMode = none ∨
      flags.mCaptureMode = some .video ∧ flags.mIsRecording = camera.isRecording)
  else
    flags.mIsInLiveview ∧ flags.mCaptureMode = some .video →
      flags.mIsRecording ∧ camera.isRecording

instance (flags : FullscreenActivity) (camera : FullStatus) :
    Decidable (FlagsAgree flags camera) := by
  unfold FlagsAgree
  infer_instance

def Alternates : Bool → List Bool → Prop
  | _, [] => True
  | recording, x :: xs => x = !recording ∧ Alternates x xs

namespace App

def FindsCameraReady (a : App) (e : Event) : Prop :=
  e = .request none → ∀ task ∈ a.requesting, suits a.camera task

instance (a : App) (e : Event) : Decidable (a.FindsCameraReady e) :=
  inferInstanceAs (Decidable (_ → ∀ task ∈ a.requesting, suits a.camera task))

/-- A press of the capture button finds the flags in agreement with the camera that the
requests submitted before it lead to. -/
def PressMatches (a : App) : Event → Prop
  | .press .mCaptureButton => FlagsAgree a.state.activity a.settled
  | _ => True

def recordings (a : App) : Event → List Bool
  | .request none =>
    match a.requesting with
    | some .captureStart => [true]
    | some .captureStop => [false]
    | _ => []
  | _ => []

instance (a : App) (e : Event) : Decidable (a.PressMatches e) := by
  unfold PressMatches
  split <;> infer_instance

structure CapturesSuit (a : App) (es : List Event) : Prop where
  ready : Meets step FindsCameraReady a es
  alternate : Alternates a.camera.isRecording (trace step recordings a es)

variable {a b : App} {e : Event}

theorem safe_of_forall {camera : FullStatus} {tasks : List Task}
    (h : ∀ task ∈ tasks, ∀ camera, suits camera task) : Safe serve suits camera tasks := by
  induction tasks generalizing camera with
  | nil => trivial
  | cons task tasks ih =>
    exact ⟨h task (by simp) camera, ih fun t ht => h t (List.mem_cons_of_mem task ht)⟩

/-- What the capture button selects suits a camera just when the flags agree with it. -/
theorem captureTask_suits_iff (flags : FullscreenActivity) (camera : FullStatus) :
    (∀ task, captureTask flags = .ok task → suits camera task) ↔ FlagsAgree flags camera := by
  unfold FlagsAgree captureTask
  by_cases hv : camera.isInLiveView ∧ camera.captureMode = .video
  · rw [if_pos hv]
    cases hl : flags.mIsInLiveview with
    | false => simp [suits, hv]
    | true =>
      rcases hm : flags.mCaptureMode with - | - | -
      · simp
      · simp [suits, hv]
      · cases hr : flags.mIsRecording <;> cases hc : camera.isRecording <;> simp [suits, hv, hc]
  · rw [if_neg hv]
    cases hl : flags.mIsInLiveview with
    | false => simpa [suits] using hv
    | true =>
      rcases hm : flags.mCaptureMode with - | - | -
      · simp
      · simpa [suits] using hv
      · cases hr : flags.mIsRecording with
        | true => simp [suits]
        | false =>
          simp only [suits, if_true, Bool.false_eq_true, if_false, Except.ok.injEq, forall_eq',
            and_self, false_and, imp_false, not_true_eq_false, iff_false]
          rintro ⟨hlive, hvideo, -⟩
          exact hv ⟨hlive, hvideo⟩

theorem safe_commands_iff (h : step a e = some b) (camera : FullStatus) :
    Safe serve suits camera (a.commands e) ↔
      (e = .press .mCaptureButton → ∀ task, captureTask a.state.activity = .ok task →
        suits camera task) := by
  cases e with
  | press control =>
    by_cases hcb : control = .mCaptureButton
    · subst hcb
      obtain ⟨⟨-, hc⟩, -⟩ := step_press.mp h
      simp only [commands, click, onClick, mCaptureButtonOnClick]
      cases ht : captureTask a.state.activity with
      | error e => simp [Except.map, hc, Safe]
      | ok task =>
        have hq : task.isQuery = false := by
          rcases captureTask_cases ht with rfl | rfl | rfl <;> rfl
        simp [Except.map, UiAction.submits, hq, Safe]
    · refine ⟨fun _ he => absurd (by simpa using he) hcb, fun _ => safe_of_forall fun task ht c => ?_⟩
      rcases mem_commands_press h ht with ⟨h, -⟩ | rfl | rfl | ⟨_, rfl⟩ | ⟨_, _, rfl⟩
      · exact absurd h hcb
      all_goals trivial
  | wheel e =>
    refine ⟨fun _ => by simp, fun _ => safe_of_forall ?_⟩
    rcases a.posted_perform e with hn | ⟨text, hn⟩ <;> simp [commands, hn, suits]
  | _ => simp [commands, Safe]

theorem pressMatches_iff : a.PressMatches e ↔ (e = .press .mCaptureButton →
    ∀ task, captureTask a.state.activity = .ok task → suits a.settled task) := by
  rw [captureTask_suits_iff]
  unfold PressMatches
  split
  · simp
  · next hne =>
    simp only [true_iff]
    exact fun he => absurd he hne

theorem suits_query {task : Task} (h : task.isQuery) (camera : FullStatus) : suits camera task := by
  cases task <;> simp_all [Task.isQuery, suits]

/-- A step either checks a request against the camera now or leaves it pending. -/
theorem ready_exchange (hown : e.ByActivity) (h : step a e = some b) :
    (a.FindsCameraReady e ∧ Safe serve suits b.camera b.pending) ↔
      (Safe serve suits a.camera a.pending ∧ a.PressMatches e) := by
  by_cases hr : e = .request none
  · subst hr
    obtain ⟨task, ht, hc, hp⟩ := pending_request h
    rw [hp, safe_append, hc]
    cases hq : task.isQuery with
    | true =>
      simp [FindsCameraReady, ht, hq, suits_query hq, Safe, serve_query hq, PressMatches]
    | false => simp [FindsCameraReady, ht, hq, Safe, PressMatches]
  · obtain ⟨hc, hp⟩ := pending_step h hown hr
    rw [hc, hp, safe_append, ← settled, safe_commands_iff h, ← pressMatches_iff]
    simp [FindsCameraReady, hr]

/-- An executed start finds the camera not recording and leaves it recording, a
stop the other way round, and nothing else touches the recording. -/
theorem recordings_step (hown : e.ByActivity) (hready : a.FindsCameraReady e)
    (h : step a e = some b) :
    (a.recordings e = [] ∧ b.camera.isRecording = a.camera.isRecording) ∨
    (a.recordings e = [!a.camera.isRecording] ∧ b.camera.isRecording = !a.camera.isRecording) := by
  by_cases hr : e = .request none
  · subst hr
    obtain ⟨task, ht, hc, -⟩ := pending_request h
    have hs := hready rfl task ht
    rw [hc]
    cases task with
    | captureStart => exact .inr ⟨by simp [recordings, ht, hs.2.2], by simp [serve, hs.2.2]⟩
    | captureStop =>
      have hs : a.camera.isRecording = true := hs
      exact .inr ⟨by simp [recordings, ht, hs], by simp [serve, hs]⟩
    | _ => exact .inl ⟨by simp [recordings, ht], rfl⟩
  · refine .inl ⟨?_, by rw [(pending_step h hown hr).1]⟩
    unfold recordings
    split
    · exact absurd rfl hr
    · rfl

theorem alternates_of_ready {es : List Event} (hown : ∀ e ∈ es, e.ByActivity)
    (hready : Meets step FindsCameraReady a es) (h : run step a es = some b) :
    Alternates a.camera.isRecording (trace step recordings a es) := by
  induction es generalizing a with
  | nil => trivial
  | cons e es ih =>
    obtain ⟨m, hm, hr⟩ := run_cons_iff.mp h
    have hrest := ih (fun x hx => hown x (List.mem_cons_of_mem e hx)) (hready.2 m hm) hr
    simp only [trace, hm, Option.elim_some]
    rcases recordings_step (hown e (by simp)) hready.1 hm with ⟨ho, hc⟩ | ⟨ho, hc⟩
    · rw [ho, List.nil_append, ← hc]
      exact hrest
    · rw [ho, List.singleton_append, ← hc]
      exact ⟨hc, hrest⟩

/-- Captures suit the camera throughout a run when every press matches the camera
that the requests before it lead to; and only then, once all requests have run. -/
theorem captures_suit_iff {es : List Event} (hidle : a.pending = [])
    (hown : ∀ e ∈ es, e.ByActivity) (h : run step a es = some b) :
    (Meets step PressMatches a es → CapturesSuit a es) ∧
      (b.pending = [] → (CapturesSuit a es ↔ Meets step PressMatches a es)) := by
  have hx := meets_exchange (P := fun s => Safe serve suits s.camera s.pending)
    (fun _ _ _ => ready_exchange) hown h
  have hsuit (hm : Meets step PressMatches a es) : CapturesSuit a es := by
    have hready := (hx.mpr ⟨by simp [hidle, Safe], hm⟩).1
    exact ⟨hready, alternates_of_ready hown hready h⟩
  refine ⟨hsuit, fun hb => ⟨fun hc => ?_, hsuit⟩⟩
  exact (hx.mp ⟨hc.ready, by simp [hb, Safe]⟩).2

def videoLiveview : App where
  camera := { sampleStatus ["f/2"] "f/2" ["100"] "100" with captureMode := .video, isInLiveView := true }
  state := { activity := { mCaptureMode := some .video, mIsInLiveview := true } }

/-- Pressing again once the start has been reported stops the recording. -/
theorem captures_suit_iff_record_once : CapturesSuit videoLiveview
    [.press .mCaptureButton, .proceed, .start, .request none, .deliver, .proceed,
      .press .mCaptureButton, .proceed, .start, .request none] :=
  (captures_suit_iff rfl (by simp [Event.ByActivity]) rfl).1
    (by decide)

/-- Two presses in a row start twice: the second start finds the camera recording. -/
theorem double_press_starts_twice : ∃ a : App,
    run step videoLiveview [.press .mCaptureButton, .proceed, .press .mCaptureButton, .proceed,
      .start, .request none, .start] = some a ∧
    a.requesting = some .captureStart ∧ a.camera.isRecording = true ∧
    ¬ a.FindsCameraReady (.request none) :=
  ⟨_, rfl, rfl, rfl, by decide⟩

end App

end CameraClient
