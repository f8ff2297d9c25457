import CameraClient.WheelIndex
import CameraClient.WheelScroller

/-! The four wheels with their scrollers: fingers, animation frames and status
deliveries in any order. Every run of them is a run of the panel in which each
wheel's scrolling starts and finishes in turn, so what is proved of panel runs
holds of what fingers can do. -/
namespace CameraClient
open Runs

structure TouchPanel where
  ui : UiState := {}
  scrollers : PerWheel WheelScroller := ⟨{}, {}, {}, {}⟩
  fingers : PerWheel Bool := ⟨false, false, false, false⟩
  deriving DecidableEq, Repr

/-- `frame` delivers the next message of a wheel's handler. -/
inductive TouchEvent where
  | touch (w : WheelId) (layout : Layout) (touch : Touch)
  | frame (w : WheelId) (layout : Layout) (position : Int)
  | status (s : FullStatus)
  deriving DecidableEq, Repr

def Touch.begins : Touch → Bool
  | down => true
  | _ => false

def Touch.stays : Touch → Bool
  | down => true
  | move _ => true
  | _ => false

namespace TouchPanel

def scrolling (st : TouchPanel) (w : WheelId) : Scrolling := ⟨st.scrollers.get w, st.ui⟩

def withScrolling (st : TouchPanel) (w : WheelId) (s : Scrolling) : TouchPanel :=
  { st with ui := s.ui, scrollers := st.scrollers.set w s.scroller }

def withFinger (st : TouchPanel) (w : WheelId) (finger : Bool) : TouchPanel :=
  { st with fingers := st.fingers.set w finger }

/-- Runs a callback of wheel `w`; `none` when an exception escaped it. -/
def perform (st : TouchPanel) (w : WheelId) (x : Scroll Unit) : Option TouchPanel :=
  match x (st.scrolling w) with
  | .ok _ s => some (st.withScrolling w s)
  | .error _ _ => none

def step (st : TouchPanel) : TouchEvent → Option TouchPanel
  | .touch w layout touch =>
    if touch.begins = !st.fingers.get w then
      (st.perform w (onWheelTouch w layout touch)).map (·.withFinger w touch.stays)
    else none
  | .frame w layout position =>
    match (st.scrollers.get w).messages with
    | [] => none
    | message :: messages =>
      (st.withScrolling w ⟨{ st.scrollers.get w with messages := messages }, st.ui⟩).perform w
        (WheelScroller.handleMessage w layout position message)
  | .status s => ((updateStatus s.toCameraStatus).outcome st.ui).map fun ui => { st with ui := ui }

variable {st st' : TouchPanel} {w u : WheelId}

theorem perform_eq_some {x : Scroll Unit} :
    st.perform w x = some st' ↔ ∃ s, x (st.scrolling w) = .ok () s ∧ st' = st.withScrolling w s := by
  unfold perform
  cases x (st.scrolling w) with
  | ok a s => simp [eq_comm]
  | error e s => simp

@[simp] theorem scrolling_withScrolling_self (s : Scrolling) :
    (st.withScrolling w s).scrolling w = s := by
  simp [scrolling, withScrolling]

@[simp] theorem scrollers_withScrolling_ne (h : u ≠ w) (s : Scrolling) :
    (st.withScrolling w s).scrollers.get u = st.scrollers.get u := by
  simp [withScrolling, h]

@[simp] theorem ui_withScrolling (s : Scrolling) : (st.withScrolling w s).ui = s.ui := rfl

@[simp] theorem fingers_withScrolling (s : Scrolling) :
    (st.withScrolling w s).fingers = st.fingers := rfl

@[simp] theorem scrolling_withFinger (b : Bool) :
    (st.withFinger w b).scrolling u = st.scrolling u := rfl

@[simp] theorem withScrolling_withScrolling (s s' : Scrolling) :
    (st.withScrolling w s).withScrolling w s' = st.withScrolling w s' := by
  cases w <;> rfl

theorem step_touch {layout : Layout} {touch : Touch}
    (h : st.step (.touch w layout touch) = some st') :
    touch.begins = !st.fingers.get w ∧ ∃ s,
      onWheelTouch w layout touch (st.scrolling w) = .ok () s ∧
      st' = (st.withScrolling w s).withFinger w touch.stays := by
  simp only [step] at h
  split_ifs at h with hb
  obtain ⟨st1, h1, rfl⟩ := Option.map_eq_some_iff.mp h
  obtain ⟨s, hs, rfl⟩ := perform_eq_some.mp h1
  exact ⟨hb, s, hs, rfl⟩

theorem step_frame {layout : Layout} {position : Int}
    (h : st.step (.frame w layout position) = some st') :
    ∃ message messages s, (st.scrollers.get w).messages = message :: messages ∧
      WheelScroller.handleMessage w layout position message
        ⟨{ st.scrollers.get w with messages := messages }, st.ui⟩ = .ok () s ∧
      st' = st.withScrolling w s := by
  simp only [step] at h
  cases hm : (st.scrollers.get w).messages with
  | nil => simp [hm] at h
  | cons message messages =>
    simp only [hm] at h
    obtain ⟨s, hs, rfl⟩ := perform_eq_some.mp h
    rw [scrolling_withScrolling_self] at hs
    exact ⟨message, messages, s, rfl, hs, by simp⟩

theorem touch_of_callback {layout : Layout} {touch : Touch} {s : Scrolling}
    (hb : touch.begins = !st.fingers.get w)
    (hs : onWheelTouch w layout touch (st.scrolling w) = .ok () s) :
    st.step (.touch w layout touch) = some ((st.withScrolling w s).withFinger w touch.stays) := by
  simp only [step, if_pos hb, perform, hs, Option.map_some]

theorem frame_of_message {layout : Layout} {position : Int} {message : AnimationMessage}
    {messages : List AnimationMessage} {s : Scrolling}
    (hm : (st.scrollers.get w).messages = message :: messages)
    (hs : WheelScroller.handleMessage w layout position message
      ⟨{ st.scrollers.get w with messages := messages }, st.ui⟩ = .ok () s) :
    st.step (.frame w layout position) = some (st.withScrolling w s) := by
  simp only [step, hm, perform, scrolling_withScrolling_self, hs, withScrolling_withScrolling]

theorem step_status {s : FullStatus} (h : st.step (.status s) = some st') :
    st' = { st with ui := { st.ui with activity := s.applyTo st.ui.activity } } := by
  simp only [step] at h
  obtain ⟨ui, hui, rfl⟩ := Option.map_eq_some_iff.mp h
  have hp : panelStep st.ui (.status s) = some ui := hui
  rw [panelStep_status hp]

end TouchPanel

/-- The scrolling of a wheel starts and finishes in turn. -/
def bracketStep (w : WheelId) (scrolling : Bool) : WheelEvent → Option Bool
  | .started u => if u = w then (if scrolling then none else some true) else some scrolling
  | .finished u => if u = w then (if scrolling then some false else none) else some scrolling
  | _ => some scrolling

/-- The listener calls by which a callback of wheel `w` changes the panel. -/
structure Acts (w : WheelId) (st st' : Scrolling) (es : List WheelEvent) : Prop where
  run : run panelStep st.ui (es.map .wheel) = some st'.ui
  own : ∀ e ∈ es, e.wheel = w
  brackets : Runs.run (bracketStep w) st.scroller.isScrollingPerformed es =
    some st'.scroller.isScrollingPerformed

namespace Acts
variable {w u : WheelId} {st st1 st' : Scrolling} {es fs : List WheelEvent}

theorem silent (hui : st'.ui = st.ui)
    (hs : st'.scroller.isScrollingPerformed = st.scroller.isScrollingPerformed) :
    Acts w st st' [] := ⟨by simp [hui], by simp, by simp [hs]⟩

theorem single {e : WheelEvent} (he : e.Enabled st.ui) (hc : e.callback st.ui = .ok () st'.ui)
    (hw : e.wheel = w) (hb : bracketStep w st.scroller.isScrollingPerformed e =
      some st'.scroller.isScrollingPerformed) : Acts w st st' [e] := by
  refine ⟨?_, by simpa using hw, ?_⟩
  · simp [Runs.run, panelStep, he, Ui.outcome_eq_some.mpr hc]
  · simp [Runs.run, hb]

theorem trans (h1 : Acts w st st1 es) (h2 : Acts w st1 st' fs) : Acts w st st' (es ++ fs) := by
  refine ⟨?_, ?_, ?_⟩
  · rw [List.map_append]
    exact run_append_iff.mpr ⟨st1.ui, h1.run, h2.run⟩
  · intro e he
    rcases List.mem_append.mp he with he | he
    · exact h1.own e he
    · exact h2.own e he
  · exact run_append_iff.mpr ⟨_, h1.brackets, h2.brackets⟩

end Acts

theorem run_wheel_adapter {st st' : UiState} {es : List WheelEvent}
    (h : run panelStep st (es.map .wheel) = some st') (u : WheelId) :
    (st'.wheel u).viewAdapter = (st.wheel u).viewAdapter := by
  induction es generalizing st with
  | nil =>
    cases h
    rfl
  | cons e es ih =>
    obtain ⟨st1, h1, h2⟩ := run_cons_iff.mp h
    rw [ih h2, (wheel_event_index (panelStep_wheel h1).2 u).1]

theorem run_wheel_frame {st st' : UiState} {es : List WheelEvent} {w u : WheelId}
    (h : run panelStep st (es.map .wheel) = some st') (hw : ∀ e ∈ es, e.wheel = w) (hu : u ≠ w) :
    st'.wheel u = st.wheel u := by
  induction es generalizing st with
  | nil =>
    cases h
    rfl
  | cons e es ih =>
    obtain ⟨st1, h1, h2⟩ := run_cons_iff.mp h
    have hne : u ≠ e.wheel := by
      rw [hw e (by simp)]
      exact hu
    rw [ih h2 (fun f hf => hw f (by simp [hf]))]
    rcases WheelEvent.callback_ok (panelStep_wheel h1).2 with ⟨_, _, rfl⟩ | ⟨i, text, -, -, _, _, rfl⟩
    · simp [hne]
    · simp [UiState.wheel_tasks, hne]

theorem onChanged_activity {st st' : UiState} {w : WheelId} {i : Int}
    (h : onChanged w i st = .ok () st') : st'.activity = st.activity := by
  rw [onChanged_eq] at h
  simp only [onWheelChanged, Ui.bind_eq_ok, Ui.get_apply] at h
  obtain ⟨_, _, hg, adapter, _, hu, text, st1, ht, _, _, hg2, h⟩ := h
  cases hg
  cases hg2
  obtain ⟨-, rfl⟩ := unbox_eq_ok.mp hu
  have hst : st1 = st := by
    unfold itemText at ht
    cases hi : adapter.getItemText i with
    | ok t =>
      simp only [hi, Ui.pure_apply] at ht
      cases ht
      rfl
    | error e => simp [hi] at ht
  rw [hst] at h
  by_cases hr : st.activity.remembered.get w = some text
  · simp [hr] at h
    rw [← h]
  · simp [hr, applyCameraSettings, executeOnExecutor] at h
    rw [← h]

theorem setCurrentItem_flag {st st' : UiState} {w : WheelId} {i : Int}
    (h : setCurrentItem w i st = .ok () st') :
    (st'.wheel w).isScrolling = (st.wheel w).isScrolling := by
  rcases (st.wheel w).setCurrentItem_cases i with ⟨-, hs⟩ | ⟨hc, hne, -⟩
  · rw [setCurrentItem_stay hs] at h
    cases h
    rfl
  · rw [setCurrentItem_change hc hne] at h
    rw [UiState.wheel, onChanged_activity h, ← UiState.wheel, UiState.wheel_setWheel_self]
    rfl

theorem onScroll_flag {st st' : UiState} {w : WheelId} {layout : Layout} {d : Int}
    (h : onScroll w layout d st = .ok () st') :
    (st'.wheel w).isScrolling = (st.wheel w).isScrolling := by
  simp only [onScroll, Ui.bind_eq_ok, Ui.modify_apply] at h
  obtain ⟨_, s, hs, h⟩ := h
  cases h
  unfold doScroll at hs
  simp only [Ui.bind_eq_ok, Ui.get_apply, Ui.modify_apply, divisor_eq_ok, unbox_eq_ok] at hs
  obtain ⟨_, s0, h0, v, _, hv, _, _, ⟨-, rfl, rfl⟩, adapter, _, ⟨ha, rfl⟩, hs⟩ := hs
  obtain ⟨_, s1, h1, _, s2, h2, h3⟩ := hs
  cases h0
  cases hv
  have hitem : (s1.wheel w).isScrolling = (st.wheel w).isScrolling := by
    simp only [scrollToItem, Ui.bind_apply, Ui.get_apply] at h1
    split_ifs at h1
    · cases h1
      rw [UiState.wheel_setWheel_self]
      rfl
    · rw [setCurrentItem_flag h1, UiState.wheel_setWheel_self]
      rfl
  rw [setScrollingOffset_eq] at h2
  cases h2
  obtain ⟨o, rfl⟩ := wrapScrollingOffset_ok h3
  simpa [WheelView.scrolledTo, WheelView.isScrolling] using hitem

theorem bracketStep_started {w : WheelId} {a b : Bool} :
    bracketStep w a (.started w) = some b ↔ a = false ∧ b = true := by
  cases a <;> simp [bracketStep, eq_comm]

theorem bracketStep_finished {w : WheelId} {a b : Bool} :
    bracketStep w a (.finished w) = some b ↔ a = true ∧ b = false := by
  cases a <;> simp [bracketStep, eq_comm]

theorem flag_callback {st st' : UiState} {w : WheelId} {e : WheelEvent} {b : Bool}
    (h : e.callback st = .ok () st') (hw : e.wheel = w)
    (hb : bracketStep w (st.wheel w).isScrolling e = some b) : (st'.wheel w).isScrolling = b := by
  cases e with
  | started u =>
    obtain rfl : u = w := hw
    obtain ⟨-, rfl⟩ := bracketStep_started.mp hb
    cases h
    simp [WheelView.onStarted, WheelView.isScrolling]
  | finished u =>
    obtain rfl : u = w := hw
    obtain ⟨-, rfl⟩ := bracketStep_finished.mp hb
    cases h
    simp [WheelView.onFinished, WheelView.isScrolling]
  | moved u index =>
    obtain rfl : u = w := hw
    rw [setCurrentItem_flag h]
    exact Option.some.inj hb
  | scrolled u layout distance =>
    obtain rfl : u = w := hw
    rw [onScroll_flag h]
    exact Option.some.inj hb

theorem run_wheel_flag {st st' : UiState} {es : List WheelEvent} {w : WheelId} {b : Bool}
    (h : run panelStep st (es.map .wheel) = some st') (hw : ∀ e ∈ es, e.wheel = w)
    (hb : run (bracketStep w) (st.wheel w).isScrolling es = some b) :
    (st'.wheel w).isScrolling = b := by
  induction es generalizing st with
  | nil =>
    cases h
    exact Option.some.inj hb
  | cons e es ih =>
    obtain ⟨st1, h1, h2⟩ := run_cons_iff.mp h
    obtain ⟨b1, hb1, hb2⟩ := run_cons_iff.mp hb
    have hf := flag_callback (panelStep_wheel h1).2 (hw e (by simp)) hb1
    exact ih h2 (fun f hf => hw f (by simp [hf])) (by rw [hf]; exact hb2)

section Calls
variable {w : WheelId} {layout : Layout} {st st' : Scrolling}

theorem Acts.adapter {es : List WheelEvent} (h : Acts w st st' es) (u : WheelId) :
    (st'.ui.wheel u).viewAdapter = (st.ui.wheel u).viewAdapter :=
  run_wheel_adapter h.run u

theorem acts_started (st : Scrolling) (ha : (st.ui.wheel w).viewAdapter ≠ none) :
    ∃ es, Acts w st (st.started w) es := by
  by_cases h : st.scroller.isScrollingPerformed = true
  · rw [Scrolling.started, if_pos h]
    exact ⟨[], .silent rfl rfl⟩
  · rw [Scrolling.started, if_neg h]
    exact ⟨[.started w], .single ha rfl rfl (bracketStep_started.mpr ⟨by simpa using h, rfl⟩)⟩

theorem acts_finished : ∃ es, Acts w st (st.finished w) es := by
  by_cases h : st.scroller.isScrollingPerformed = true
  · rw [Scrolling.finished, if_pos h]
    exact ⟨[.finished w], .single trivial rfl rfl (bracketStep_finished.mpr ⟨h, rfl⟩)⟩
  · rw [Scrolling.finished, if_neg h]
    exact ⟨[], .silent rfl rfl⟩

theorem acts_justified (ha : (st.ui.wheel w).viewAdapter ≠ none) :
    ∃ es, Acts w st (st.justified w) es := by
  unfold Scrolling.justified
  split_ifs
  · exact ⟨[], .silent rfl rfl⟩
  · let st1 := st.mapScroller (WheelScroller.animate (st.offset w))
    obtain ⟨es, hes⟩ := acts_started st1 ha
    have h1 : Acts w st st1 [] := .silent rfl rfl
    exact ⟨_, (h1.trans hes).trans (.silent rfl rfl)⟩

theorem acts_onScroll {d : Int} (ha : (st.ui.wheel w).viewAdapter ≠ none)
    (h : WheelScroller.onScroll w layout d st = .ok () st') : ∃ es, Acts w st st' es := by
  obtain ⟨hui, hs⟩ := WheelScroller.onScroll_ok h
  have hflag : st'.scroller.isScrollingPerformed = st.scroller.isScrollingPerformed := by
    rcases hs with hs | hs
    · rw [hs]
    · rw [hs]
      rfl
  exact ⟨[.scrolled w layout d], .single ha hui rfl (by rw [hflag]; rfl)⟩

theorem acts_proceeded (message : AnimationMessage) (ha : (st.ui.wheel w).viewAdapter ≠ none) :
    ∃ es, Acts w st (st.proceeded w message) es := by
  unfold Scrolling.proceeded
  split_ifs
  · exact acts_justified ha
  · exact acts_finished
  · exact ⟨[], .silent rfl rfl⟩

theorem acts_checked : Acts w st st.checked [] := by
  unfold Scrolling.checked
  split_ifs
  · exact .silent rfl rfl
  · exact .silent rfl rfl

theorem acts_handleMessage {position : Int} {message : AnimationMessage}
    (ha : (st.ui.wheel w).viewAdapter ≠ none)
    (h : WheelScroller.handleMessage w layout position message st = .ok () st') :
    ∃ es, Acts w st st' es := by
  obtain ⟨mid, hf, rfl⟩ := WheelScroller.handleMessage_ok.mp h
  have h1 : Acts w st (st.mapScroller (WheelScroller.atFrame position)) [] := .silent rfl rfl
  have h2 : ∃ es, Acts w (st.mapScroller (WheelScroller.atFrame position)) mid es := by
    unfold WheelScroller.follow at hf
    split_ifs at hf
    · cases hf
      exact ⟨[], .silent rfl rfl⟩
    · exact acts_onScroll ha hf
  obtain ⟨es, h2⟩ := h2
  have h3 := (h1.trans h2).trans acts_checked
  have ha' : (mid.checked.ui.wheel w).viewAdapter ≠ none := by
    rw [h3.adapter w]
    exact ha
  obtain ⟨fs, h4⟩ := acts_proceeded message ha'
  exact ⟨_, h3.trans h4⟩

theorem acts_onWheelTouch {touch : Touch} (h : onWheelTouch w layout touch st = .ok () st') :
    ∃ es, Acts w st st' es := by
  rcases WheelScroller.onWheelTouch_ok h with ⟨-, rfl⟩ | ⟨ha, h⟩
  · exact ⟨[], .silent rfl rfl⟩
  cases touch with
  | down =>
    cases h
    exact ⟨[], .silent rfl rfl⟩
  | move d =>
    by_cases hd : d = 0
    · rw [hd, WheelScroller.onTouchEvent_move_zero] at h
      cases h
      exact ⟨[], .silent rfl rfl⟩
    · rw [WheelScroller.onTouchEvent_move hd] at h
      obtain ⟨es, h1⟩ := acts_started st ha
      obtain ⟨fs, h2⟩ := acts_onScroll (by rw [h1.adapter w]; exact ha) h
      exact ⟨_, h1.trans h2⟩
  | up fling =>
    cases fling with
    | none =>
      rw [WheelScroller.onTouchEvent, WheelScroller.justify_eq] at h
      cases h
      exact acts_justified ha
    | some finalY =>
      cases h
      exact ⟨[], .silent rfl rfl⟩
  | cancel =>
    cases h
    exact ⟨[], .silent rfl rfl⟩

end Calls

def TouchEvent.status? : TouchEvent → Option FullStatus
  | status s => some s
  | _ => none

def PanelEvent.status? : PanelEvent → Option FullStatus
  | status s => some s
  | _ => none

def PanelEvent.wheel? : PanelEvent → Option WheelEvent
  | wheel e => some e
  | _ => none

namespace TouchPanel
variable {st st' : TouchPanel} {e : TouchEvent} {es : List TouchEvent}

def flag (st : TouchPanel) (w : WheelId) : Bool := (st.scrollers.get w).isScrollingPerformed

/-- The panel does in one step what the listeners of one wheel were called for. -/
theorem panel_of_acts {w : WheelId} {s : Scrolling} {es : List WheelEvent}
    (h : Acts w (st.scrolling w) s es) (hui : st'.ui = s.ui)
    (hs : st'.scrollers = st.scrollers.set w s.scroller) : ∃ ps : List PanelEvent,
      run panelStep st.ui ps = some st'.ui ∧ ps.filterMap PanelEvent.status? = [] ∧
      ∀ u, run (bracketStep u) (st.flag u) (ps.filterMap PanelEvent.wheel?) =
        some (st'.flag u) := by
  have hwheel : (es.map PanelEvent.wheel).filterMap PanelEvent.wheel? = es := by
    rw [List.filterMap_map]
    exact List.filterMap_some
  refine ⟨es.map .wheel, ?_, ?_, ?_⟩
  · rw [hui]
    exact h.run
  · simp [PanelEvent.status?]
  · intro u
    rw [hwheel, flag, flag, hs]
    by_cases hu : u = w
    · rw [hu, PerWheel.get_set_self]
      exact h.brackets
    · rw [PerWheel.get_set_ne _ hu]
      have hown := h.own
      clear h hwheel
      generalize (st.scrollers.get u).isScrollingPerformed = b
      induction es with
      | nil => rfl
      | cons e es ih =>
        have he : bracketStep u b e = some b := by
          have hne : e.wheel ≠ u := by
            rw [hown e (by simp)]
            exact Ne.symm hu
          cases e <;> simp_all [bracketStep, WheelEvent.wheel]
        exact run_cons_iff.mpr ⟨b, he, ih (fun f hf => hown f (by simp [hf]))⟩

theorem panel_of_step (hf : ∀ w, (st.scrollers.get w).messages ≠ [] →
      (st.ui.wheel w).viewAdapter ≠ none) (h : st.step e = some st') :
    ∃ ps : List PanelEvent, run panelStep st.ui ps = some st'.ui ∧
      ps.filterMap PanelEvent.status? = [e].filterMap TouchEvent.status? ∧
      ∀ u, run (bracketStep u) (st.flag u) (ps.filterMap PanelEvent.wheel?) =
        some (st'.flag u) := by
  cases e with
  | touch w layout touch =>
    obtain ⟨-, s, hs, rfl⟩ := step_touch h
    obtain ⟨es, hes⟩ := acts_onWheelTouch hs
    exact panel_of_acts hes rfl rfl
  | frame w layout position =>
    obtain ⟨message, messages, s, hm, hs, rfl⟩ := step_frame h
    have ha := hf w (by rw [hm]; simp)
    obtain ⟨es, hes⟩ := acts_handleMessage ha hs
    have h0 : Acts w (st.scrolling w)
        ⟨{ st.scrollers.get w with messages := messages }, st.ui⟩ [] := .silent rfl rfl
    exact panel_of_acts (h0.trans hes) rfl rfl
  | status s =>
    rw [step_status h]
    exact ⟨[.status s], by simp [Runs.run, panelStep_status_eq], rfl, fun u => rfl⟩

end TouchPanel

end CameraClient
