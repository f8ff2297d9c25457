import CameraClient.Requests

/-! Whether the wheels show the camera's values once everything is at rest. A
status is the last word on a wheel at rest; on a scrolling wheel it sets the
remembered value and not the item, and only a later move can mend that. -/
namespace CameraClient
open Runs

def Event.AtWheels : Event → Prop
  | .wheel _ | .cameraChanged _ | .push | .deliver | .proceed | .start | .background => True
  | .request outcome => outcome = none
  | _ => False

def Task.FromWheel (task : Task) : Prop := ∃ w text, task = .postSettings (settingsFor w text)

theorem Task.FromWheel.onPostExecute_result {task : Task} (h : task.FromWheel)
    (camera : FullStatus) : onPostExecute (task.result camera) = [] := by
  obtain ⟨w, text, rfl⟩ := h
  simp [Task.result, onPostExecute, captureMode_settingsFor]

def Reads (items : List (Option String)) (index : Int) (text : String) : Prop :=
  0 ≤ index ∧ items[index.toNat]? = some (some text)

/-- The list a scrolling wheel has once a status is applied: the ISO wheel keeps its own. -/
def FullStatus.listAfter (s : FullStatus) (w : WheelId) (v : WheelView) : List (Option String) :=
  if w = .iso then v.viewAdapter.elim [] ArrayWheelAdapter.items else (s.items w).map some

theorem currentText_eq_some {v : WheelView} {text : String} : v.currentText = some text ↔
    Reads (v.viewAdapter.elim [] ArrayWheelAdapter.items) v.currentItem text := by
  unfold WheelView.currentText Reads
  cases v.viewAdapter with
  | none => simp
  | some adapter =>
    by_cases h0 : v.currentItem < 0
    · have hno : ¬ 0 ≤ v.currentItem := by omega
      simp [h0, hno]
    · have hle : 0 ≤ v.currentItem := by omega
      simp [h0, hle, Option.join_eq_some_iff]

theorem currentText_showOn_scrolling {s : FullStatus} {w : WheelId} {v : WheelView} {text : String}
    (hs : v.isScrolling = true) : (s.showOn w v).currentText = some text ↔
      Reads (s.listAfter w v) v.currentItem text := by
  rw [currentText_eq_some, FullStatus.showOn, FullStatus.listAfter]
  by_cases hw : w = .iso
  · rw [if_pos ⟨hw, hs⟩, if_pos hw]
  · rw [if_neg (fun h => hw h.1), if_neg hw, WheelView.currentItem_load, if_pos (.inl hs),
      WheelView.viewAdapter_load]
    rfl

namespace App

/-- Only wheel posts are under way, and the newest status under way reports the
camera as it is. -/
structure Relays (a : App) : Prop where
  callback : a.callback = []
  submitted : ∀ task ∈ a.submitted, task.FromWheel
  results : ∀ result ∈ a.results, onPostExecute result = []
  full : ∀ s ∈ a.pushes, ∃ full : FullStatus, s = full.toCameraStatus
  newest : a.pushes ≠ [] → a.pushes.getLast? = some a.camera.toCameraStatus

structure Quiet (a : App) : Prop where
  submitted : a.submitted = []
  pushes : a.pushes = []

variable {a b : App} {e : Event}

theorem relays_perform_wheel {w : WheelEvent} (hi : a.Relays) : (a.perform w.callback).Relays := by
  have hf : ((a.perform w.callback).running, (a.perform w.callback).callback,
      (a.perform w.callback).results, (a.perform w.callback).pushes,
      (a.perform w.callback).camera) = (a.running, a.callback, a.results, a.pushes, a.camera) :=
    perform_frame (fun a => (a.running, a.callback, a.results, a.pushes, a.camera)) a _
      fun _ _ => rfl
  simp only [Prod.mk.injEq] at hf
  obtain ⟨hrun, hc, hr, hp, hcam⟩ := hf
  refine ⟨hc.trans hi.callback, ?_, hr ▸ hi.results, hp ▸ hi.full, by rw [hp, hcam]; exact hi.newest⟩
  intro task ht
  simp only [submitted, hrun, hc, a.perform_wheel_tasks w, List.mem_append] at ht
  have hsub (h : task ∈ a.submitted) : task.FromWheel := hi.submitted task h
  simp only [submitted, List.mem_append] at hsub
  rcases ht with (ht | ht | ht) | ht
  · exact hsub (.inl (.inl ht))
  · exact hsub (.inl (.inr ht))
  · rcases a.posted_perform w with hn | ⟨text, hn⟩
    · simp [hn] at ht
    · exact ⟨w.wheel, text, by simpa [hn] using ht⟩
  · exact hsub (.inr ht)

theorem relays_step (hi : a.Relays) (he : e.AtWheels) (h : step a e = some b) : b.Relays := by
  cases e with
  | wheel w =>
    obtain ⟨-, -, rfl⟩ := step_wheel.mp h
    exact relays_perform_wheel hi
  | cameraChanged camera =>
    obtain ⟨-, rfl⟩ := step_cameraChanged.mp h
    refine ⟨hi.callback, hi.submitted, hi.results, ?_, by simp⟩
    intro s hs
    rcases List.mem_append.mp hs with hs | hs
    · exact hi.full s hs
    · exact ⟨camera, by simpa using hs⟩
  | push =>
    obtain ⟨s, pushes, hp, -, rfl⟩ := step_push.mp h
    obtain ⟨full, rfl⟩ := hi.full s (by simp [hp])
    rw [perform_ok (updateStatus_full full _)]
    refine ⟨hi.callback, hi.submitted, hi.results, fun s hs => hi.full s (by simp [hp, hs]), ?_⟩
    intro hne
    rw [← hi.newest (by simp [hp]), hp, List.getLast?_cons_of_ne_nil hne]
  | deliver =>
    obtain ⟨r, results, hr, -, rfl⟩ := step_deliver.mp h
    have hcb : onPostExecute r = [] := hi.results r (by simp [hr])
    refine ⟨hcb, ?_, fun r hr' => hi.results r (by simp [hr, hr']), hi.full, hi.newest⟩
    intro task ht
    refine hi.submitted task ?_
    simpa [submitted, hcb, hi.callback] using ht
  | proceed =>
    obtain ⟨action, callback, hc, -⟩ := step_proceed.mp h
    simp [hi.callback] at hc
  | start =>
    obtain ⟨task, tasks, hr, ht, -, rfl⟩ := step_start.mp h
    refine ⟨hi.callback, ?_, hi.results, hi.full, hi.newest⟩
    intro t hm
    refine hi.submitted t ?_
    simpa [submitted, startNext, hr, ht] using hm
  | background =>
    obtain ⟨task, action, actions, hs, hr, hne, -, -⟩ := step_background.mp h
    obtain ⟨w, text, rfl⟩ := hi.submitted task (by simp [submitted, hr])
    have hlen := hs.length_le
    cases actions with
    | nil => exact absurd rfl hne
    | cons x actions => simp [doInBackground] at hlen
  | request outcome =>
    obtain rfl : outcome = none := he
    obtain ⟨task, ht, -, rfl⟩ := step_request.mp h
    obtain ⟨_, hr⟩ := requesting_eq_some ht
    have hw : task.FromWheel := hi.submitted task (by simp [submitted, hr])
    have hacts : task.acts = true := by
      obtain ⟨w, text, rfl⟩ := hw
      rfl
    refine ⟨hi.callback, ?_, ?_, ?_, by simp [endRequest, succeed, announce, hacts]⟩
    · intro t hm
      refine hi.submitted t ?_
      simp only [endRequest, succeed, submitted, Option.map_none, Option.toList_none,
        List.nil_append] at hm
      simp only [submitted, hr, List.append_assoc]
      exact List.mem_append_right _ hm
    · intro r hm
      rcases List.mem_append.mp hm with hm | hm
      · exact hi.results r hm
      · obtain rfl : r = task.result (serve a.camera task) := by simpa using hm
        exact hw.onPostExecute_result _
    · intro s hm
      simp only [endRequest, succeed, announce, hacts, if_true] at hm
      rcases List.mem_append.mp hm with hm | hm
      · exact hi.full s hm
      · exact ⟨_, by simpa using hm⟩
  | _ => exact he.elim

/-- A step into a quiet state comes from one, leaves the camera alone and does
nothing to the UI but a wheel event that posts nothing. -/
theorem quiet_step (hi : a.Relays) (he : e.AtWheels) (hpush : e ≠ .push) (h : step a e = some b)
    (hq : b.Quiet) : a.Quiet ∧ b.camera = a.camera ∧ (b.state = a.state ∨
      ∃ w : WheelEvent, w.callback a.state = .ok () b.state ∧ b.state.tasks = a.state.tasks) := by
  have hs := hq.submitted
  have hp := hq.pushes
  cases e with
  | wheel w =>
    obtain ⟨-, -, rfl⟩ := step_wheel.mp h
    have ht := a.perform_wheel_tasks w
    rcases a.perform_cases w.callback with ⟨st, hst, hpf⟩ | hpf
    · rw [hpf] at hs hp ht ⊢
      simp only [submitted, List.append_eq_nil_iff] at hs
      have ht' := hs.1.2
      rw [ht, List.append_eq_nil_iff] at ht'
      refine ⟨⟨by simp [submitted, hs.1.1, ht'.1, hs.2], hp⟩, rfl, .inr ⟨w, hst, ?_⟩⟩
      rw [ht, ht'.2, List.append_nil]
    · rw [hpf] at hs hp ⊢
      exact ⟨⟨hs, hp⟩, rfl, .inl rfl⟩
  | cameraChanged camera =>
    obtain ⟨-, rfl⟩ := step_cameraChanged.mp h
    simp at hp
  | push => exact absurd rfl hpush
  | deliver =>
    obtain ⟨r, results, hr, -, rfl⟩ := step_deliver.mp h
    have hcb : onPostExecute r = [] := hi.results r (by simp [hr])
    exact ⟨⟨by simpa [submitted, hcb, hi.callback] using hs, hp⟩, rfl, .inl rfl⟩
  | proceed =>
    obtain ⟨action, callback, hc, -⟩ := step_proceed.mp h
    simp [hi.callback] at hc
  | start =>
    obtain ⟨task, tasks, -, -, -, rfl⟩ := step_start.mp h
    simp [submitted, startNext] at hs
  | background =>
    obtain ⟨task, action, actions, _, -, -, -, rfl⟩ := step_background.mp h
    cases action <;> simp [submitted, runBackgroundAction] at hs
  | request outcome =>
    obtain rfl : outcome = none := he
    obtain ⟨task, ht, -, rfl⟩ := step_request.mp h
    obtain ⟨_, hr⟩ := requesting_eq_some ht
    obtain ⟨w, text, rfl⟩ := hi.submitted task (by simp [submitted, hr])
    simp [endRequest, succeed, announce, Task.acts] at hp
  | _ => exact he.elim

/-- The event does not move the wheel to another item. -/
def KeepsItem (w : WheelId) (a : App) (e : Event) : Prop :=
  ∀ b ∈ step a e, (b.state.wheel w).currentItem = (a.state.wheel w).currentItem

theorem silent_wheel_event {st st' : UiState} {e : WheelEvent} (h : e.callback st = .ok () st')
    (ht : st'.tasks = st.tasks) (w : WheelId) :
    ((st'.wheel w).currentItem = (st.wheel w).currentItem ∧
      (st'.wheel w).currentText = (st.wheel w).currentText) ∨
    ((st'.wheel w).currentItem ≠ (st.wheel w).currentItem ∧
      (st'.wheel w).currentText = st.activity.remembered.get w) := by
  by_cases hw : w = e.wheel
  · subst hw
    rcases WheelEvent.callback_ok h with
      ⟨_, _, rfl⟩ | ⟨i, text, ⟨adapter, ha, h0, _, hitem⟩, hne, _, _, rfl⟩
    · exact .inl ⟨by simp [WheelView.scrolledTo], by simp [WheelView.scrolledTo, WheelView.currentText]⟩
    · have hr : st.activity.remembered.get e.wheel = some text := by
        by_contra hr
        simp [posts, hr] at ht
      refine .inr ⟨by simpa [UiState.wheel_tasks, WheelView.scrolledTo, WheelView.movedTo] using hne, ?_⟩
      simp [UiState.wheel_tasks, WheelView.scrolledTo, WheelView.movedTo, WheelView.currentText, ha, hr,
        h0, hitem]
  · rcases WheelEvent.callback_ok h with ⟨_, _, rfl⟩ | ⟨i, text, -, -, _, _, rfl⟩
    · simp [hw]
    · simp [UiState.wheel_tasks, hw]

theorem quiet_run {es : List Event} {w : WheelId} (hi : a.Relays)
    (he : ∀ e ∈ es, e.AtWheels ∧ e ≠ .push) (h : run step a es = some b) (hq : b.Quiet) :
    a.Quiet ∧ b.camera = a.camera ∧
    b.state.activity.remembered = a.state.activity.remembered ∧
    ((b.state.wheel w).currentText = a.state.activity.remembered.get w ↔
      (a.state.wheel w).currentText = a.state.activity.remembered.get w ∨
        ¬ Meets step (KeepsItem w) a es) := by
  induction es generalizing a with
  | nil =>
    obtain rfl : a = b := by simpa using h
    simp [hq, Meets]
  | cons e es ih =>
    obtain ⟨m, hm, hr⟩ := run_cons_iff.mp h
    obtain ⟨hew, hep⟩ := he e (by simp)
    obtain ⟨hqm, hcam, hrem, hiff⟩ :=
      ih (relays_step hi hew hm) (fun x hx => he x (List.mem_cons_of_mem e hx)) hr
    obtain ⟨hqa, hcama, hst⟩ := quiet_step hi hew hep hm hqm
    have hkeep : KeepsItem w a e ↔
        (m.state.wheel w).currentItem = (a.state.wheel w).currentItem := by
      simp [KeepsItem, hm]
    rw [meets_cons_of_step hm, hkeep]
    rcases hst with hst | ⟨we, hwe, ht⟩
    · rw [hst] at hrem hiff ⊢
      exact ⟨hqa, hcam.trans hcama, hrem, by simpa using hiff⟩
    · have hremm : m.state.activity.remembered = a.state.activity.remembered := by
        rcases WheelEvent.callback_ok hwe with ⟨_, _, hs⟩ | ⟨_, _, -, -, _, _, hs⟩ <;> rw [hs] <;> rfl
      rw [hremm] at hrem hiff
      refine ⟨hqa, hcam.trans hcama, hrem, ?_⟩
      rcases silent_wheel_event hwe ht w with ⟨hitem, htext⟩ | ⟨hitem, htext⟩
      · rw [hiff, htext]
        simp [hitem]
      · rw [hiff, htext]
        simp [hitem]

/-- Once nothing is pending, undelivered or left to report, a wheel shows the
camera's value exactly when it rested as the last status was applied, or its index then
read the value in the list it was left with, or it was moved to another item since. -/
theorem wheel_at_rest_shows_iff {camera : FullStatus} {us vs : List Event} {applied : App}
    {w : WheelId} (hus : ∀ e ∈ us, e.AtWheels) (ha : run step { camera := camera } us = some a)
    (hpush : step a .push = some applied) (hvs : ∀ e ∈ vs, e.AtWheels ∧ e ≠ .push)
    (h : run step applied vs = some b) (hq : b.Quiet) (hl : b.camera.shown w ∈ b.camera.items w) :
    (b.state.wheel w).currentText = some (b.camera.shown w) ↔
      (a.state.wheel w).isScrolling = false ∨
      Reads (a.camera.listAfter w (a.state.wheel w)) (a.state.wheel w).currentItem
        (a.camera.shown w) ∨
      ¬ Meets step (KeepsItem w) applied vs := by
  have hi : a.Relays := run_invariant (I := Relays) (C := fun _ e => e.AtWheels)
    (fun _ _ _ hi he hst => relays_step hi he hst)
    ⟨rfl, by simp [submitted], by simp, by simp, by simp⟩ (meets_of_forall hus _) ha
  have hip : applied.Relays := relays_step (e := .push) hi trivial hpush
  obtain ⟨hqp, hcam, -, hiff⟩ := quiet_run (w := w) hip hvs h hq
  obtain ⟨s, pushes, hp, -, rfl⟩ := step_push.mp hpush
  obtain ⟨full, rfl⟩ := hi.full s (by simp [hp])
  rw [perform_ok (updateStatus_full full _)] at hqp hcam hiff ⊢
  obtain rfl : pushes = [] := hqp.pushes
  have hfull : full.toCameraStatus = a.camera.toCameraStatus := by
    simpa [hp] using hi.newest (by simp [hp])
  obtain rfl := FullStatus.toCameraStatus_injective hfull
  have hrem : (a.camera.applyTo a.state.activity).remembered.get w = some (a.camera.shown w) := by
    simp [FullStatus.applyTo]
  rw [hcam] at hl ⊢
  simp only [hrem, wheel_applyTo] at hiff
  rw [hiff]
  cases hs : (a.state.wheel w).isScrolling with
  | false => exact ⟨fun _ => .inl rfl, fun _ => .inl (currentText_showOn hs hl)⟩
  | true =>
    rw [currentText_showOn_scrolling hs]
    simp

theorem wheel_at_rest_shows_iff_rested : ∃ b : App,
    run step { camera := sampleStatus ["f/2"] "f/2" ["100"] "100" }
      [.cameraChanged (sampleStatus ["f/2", "f/4"] "f/4" ["100"] "100"), .push,
        .wheel (.started .aperture), .wheel (.finished .aperture)] = some b ∧
    (b.state.wheel .aperture).currentText = some "f/4" := by
  obtain ⟨a, applied, b, ha, hp, hb, hq, hl, hs, hc⟩ : ∃ a applied b : App,
      run step { camera := sampleStatus ["f/2"] "f/2" ["100"] "100" }
        [.cameraChanged (sampleStatus ["f/2", "f/4"] "f/4" ["100"] "100")] = some a ∧
      step a .push = some applied ∧
      run step applied [.wheel (.started .aperture), .wheel (.finished .aperture)] = some b ∧
      b.Quiet ∧ b.camera.shown .aperture ∈ b.camera.items .aperture ∧
      (a.state.wheel .aperture).isScrolling = false ∧ b.camera.shown .aperture = "f/4" :=
    ⟨_, _, _, rfl, rfl, rfl, ⟨rfl, rfl⟩, by decide, rfl, rfl⟩
  have hrun := run_append_iff.mpr ⟨a, ha, run_cons_iff.mpr ⟨applied, hp, hb⟩⟩
  refine ⟨b, hrun, hc ▸ ?_⟩
  exact (wheel_at_rest_shows_iff (by simp [Event.AtWheels]) ha hp (by simp [Event.AtWheels]) hb hq
    hl).mpr (.inl hs)

/-- The camera goes to f/4 while the user holds the aperture wheel, who lets go
without a move: the wheel rests on f/2. -/
theorem status_during_scroll_not_shown : ∃ b : App,
    run step { camera := sampleStatus ["f/2", "f/4"] "f/2" ["100"] "100" }
      [.cameraChanged (sampleStatus ["f/2", "f/4"] "f/2" ["100"] "100"), .push,
        .wheel (.started .aperture),
        .cameraChanged (sampleStatus ["f/2", "f/4"] "f/4" ["100"] "100"), .push,
        .wheel (.finished .aperture)] = some b ∧
    b.Quiet ∧ (∀ w, (b.state.wheel w).isScrolling = false) ∧
    b.camera.shown .aperture = "f/4" ∧
    (b.state.wheel .aperture).currentText = some "f/2" :=
  ⟨_, rfl, ⟨rfl, rfl⟩, fun w => by cases w <;> rfl, rfl, rfl⟩

end App

end CameraClient
