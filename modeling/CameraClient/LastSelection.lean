import CameraClient.Requests

/-! Whether the user's last selection on a wheel wins. The listener compares the
new item with the last reported value, while posts that lead elsewhere may still
be pending; `last_selection_wins_iff` says exactly when that loses a selection. -/
namespace CameraClient
open Runs Pipeline

/-- The event may change the item of the wheel. -/
def Event.Turns (w : WheelId) : Event → Prop
  | .wheel (.moved v _) => v = w
  | .wheel (.scrolled v _ _) => v = w
  | _ => False

theorem serve_settingsFor {v w : WheelId} (hw : w ≠ .iso) (camera : FullStatus) (text : String) :
    (serve camera (.postSettings (settingsFor v text))).values.get w =
      if v = w then text else camera.values.get w := by
  cases v with
  | iso =>
    have hv : WheelId.iso ≠ w := Ne.symm hw
    by_cases hauto : text = ISO_AUTO <;> cases w <;>
      simp_all [settingsFor, isoSettings, serve, FullStatus.applySettings, PerWheel.get]
  | _ => cases w <;> first | exact absurd rfl hw | rfl

namespace App
variable {a b : App} {e : Event}

theorem started_finished_post_nothing {w : WheelId} {e : WheelEvent}
    (he : e = .started w ∨ e = .finished w) (a : App) :
    posted a.state (a.perform e.callback).state = [] := by
  rcases he with rfl | rfl <;>
    simp [WheelEvent.callback, perform, onScrollStarted, onScrollFinished, posted]

/-- Only an event that turns the wheel submits a request that sets its value. -/
theorem commands_keep_value {w : WheelId} (hw : w ≠ .iso) (hn : ¬ e.Turns w)
    (h : step a e = some b) {task : Task} (ht : task ∈ a.commands e) (camera : FullStatus) :
    (serve camera task).values.get w = camera.values.get w := by
  cases e with
  | press control =>
    rcases mem_commands_press h ht with ⟨-, hk⟩ | rfl | rfl | ⟨_, rfl⟩ | ⟨_, _, rfl⟩
    · rcases captureTask_cases hk with rfl | rfl | rfl <;> rfl
    all_goals rfl
  | wheel e =>
    rcases a.posted_perform e with hp | ⟨text, hp⟩
    · simp [commands, hp] at ht
    · obtain rfl : task = .postSettings (settingsFor e.wheel text) := by
        simpa [commands, hp] using ht
      rw [serve_settingsFor hw, if_neg]
      intro hv
      cases e with
      | moved v i => exact hn hv
      | scrolled v layout distance => exact hn hv
      | started v => simp [started_finished_post_nothing (.inl rfl)] at hp
      | finished v => simp [started_finished_post_nothing (.inr rfl)] at hp
  | _ => simp [commands] at ht

theorem settled_value_step {w : WheelId} (hw : w ≠ .iso) (hown : e.ByActivity) (hn : ¬ e.Turns w)
    (h : step a e = some b) : b.settled.values.get w = a.settled.values.get w := by
  rw [settled_step h hown]
  exact settle_frame (·.values.get w) a.settled _ fun _ ht c => commands_keep_value hw hn h ht c

theorem settled_value_run {w : WheelId} {es : List Event} (hw : w ≠ .iso)
    (hown : ∀ e ∈ es, e.ByActivity ∧ ¬ e.Turns w) (h : run step a es = some b) :
    b.settled.values.get w = a.settled.values.get w :=
  run_invariant (I := fun s => s.settled.values.get w = a.settled.values.get w)
    (fun _ _ _ hs he hst => (settled_value_step hw he.1 he.2 hst).trans hs) rfl
    (meets_of_forall hown a) h

/-- A move to another item leads to a camera with that item's text, unless the
listener takes the text for the camera's value already. -/
theorem settled_value_move {w : WheelId} {texts : List String} {i : Nat} {t : String}
    (hw : w ≠ .iso) (ha : (a.state.wheel w).viewAdapter = some (.ofTexts texts))
    (ht : texts[i]? = some t) (h : step a (.wheel (.moved w i)) = some b) :
    b.settled.values.get w =
      if a.state.activity.remembered.get w = some t then a.settled.values.get w else t := by
  obtain ⟨⟨hc, hne⟩, -, -⟩ := step_wheel.mp h
  have hm := setCurrentItem_item ha hc (ArrayWheelAdapter.getItemText_ofTexts ht) hne
  have hp : a.commands (.wheel (.moved w i)) = posts a.state w t := by
    simp [commands, WheelEvent.callback, perform, hm, posted]
  rw [settled_step h trivial, hp, posts]
  by_cases hr : a.state.activity.remembered.get w = some t
  · simp [hr]
  · simp [hr, serve_settingsFor hw]

/-- After the user's last move of a wheel, once no request is pending any more,
the camera's value is the selected item exactly when the listener was right to
post it or to take it for the value the pending requests lead to. -/
theorem last_selection_wins_iff {w : WheelId} {texts : List String} {i : Nat} {t : String}
    {moved : App} {es : List Event} (hw : w ≠ .iso)
    (ha : (a.state.wheel w).viewAdapter = some (.ofTexts texts)) (ht : texts[i]? = some t)
    (hmove : step a (.wheel (.moved w i)) = some moved)
    (hlast : ∀ e ∈ es, e.ByActivity ∧ ¬ e.Turns w) (h : run step moved es = some b)
    (hquiet : b.pending = []) :
    b.camera.values.get w = t ↔
      (a.state.activity.remembered.get w = some t → a.settled.values.get w = t) := by
  have hb : b.settled = b.camera := by simp [settled, hquiet]
  rw [← hb, settled_value_run hw hlast h, settled_value_move hw ha ht hmove]
  by_cases hr : a.state.activity.remembered.get w = some t <;> simp [hr]

def twoApertures : App where
  camera := sampleStatus ["f/2", "f/4"] "f/2" ["100"] "100"
  state := { activity := (sampleStatus ["f/2", "f/4"] "f/2" ["100"] "100").applyTo {} }

theorem last_selection_wins_iff_one_move : ∃ moved b : App,
    step twoApertures (.wheel (.moved .aperture 1)) = some moved ∧
    run step moved [.start, .request none] = some b ∧ b.camera.values.aperture = "f/4" := by
  refine ⟨_, _, rfl, rfl, ?_⟩
  have ha : (twoApertures.state.wheel .aperture).viewAdapter = some (.ofTexts ["f/2", "f/4"]) := rfl
  have hlast : ∀ e ∈ [Event.start, .request none], e.ByActivity ∧ ¬ e.Turns .aperture := by
    simp [Event.ByActivity, Event.Turns]
  exact (last_selection_wins_iff (i := 1) (by decide) ha rfl rfl hlast rfl rfl).mpr (by decide)

/-- Moving away and back before the first report: the way back is not posted, and
the camera stays on the other aperture. -/
theorem move_and_back_loses : ∃ a b : App,
    run step twoApertures [.wheel (.moved .aperture 1), .wheel (.moved .aperture 0)] = some a ∧
    (a.state.wheel .aperture).currentText = some "f/2" ∧
    run step a [.start, .request none, .deliver, .push] = some b ∧
    b.submitted = [] ∧ b.callback = [] ∧ b.results = [] ∧ b.pushes = [] ∧
    b.camera.values.aperture = "f/4" :=
  ⟨_, _, rfl, rfl, rfl, rfl, rfl, rfl, rfl, rfl⟩

end App

end CameraClient
