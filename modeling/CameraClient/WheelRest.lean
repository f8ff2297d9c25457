import CameraClient.WheelTouch

/-! What a wheel's scroller owes: whatever runs has a message to drive it, and a wheel
that scrolls under no finger has a message to end its scrolling, unless its last
touch was cancelled. -/
namespace CameraClient
open Runs

def touchOf (w : WheelId) (last : Option Touch) : TouchEvent → Option Touch
  | .touch u _ touch => if u = w then some touch else last
  | _ => last

def lastTouch (w : WheelId) (es : List TouchEvent) : Option Touch := es.foldl (touchOf w) none

def Touch.holds (touch : Touch) : Bool := !touch.isUp

/-- A wheel and its scroller after the touch `last`. -/
structure Steady (last : Option Touch) (s : WheelScroller) (v : WheelView) : Prop where
  one : s.messages.length ≤ 1
  flags : v.isScrolling = s.isScrollingPerformed
  driven : s.scroller.isFinished = false → s.messages ≠ []
  held : last.any Touch.holds → s.messages = []
  shown : s.messages ≠ [] ∨ s.isScrollingPerformed → v.viewAdapter ≠ none
  owed : s.isScrollingPerformed → s.messages ≠ [] ∨ last.any Touch.holds

namespace Steady
variable {w : WheelId} {layout : Layout} {st st' : Scrolling} {last : Option Touch} {touch : Touch}

theorem untouched {s : WheelScroller} {v : WheelView} (h : Steady last s v)
    (ha : v.viewAdapter = none) (t : Option Touch) : Steady t s v := by
  have hm : s.messages = [] := by
    by_contra hm
    exact h.shown (Or.inl hm) ha
  have hf : ¬ s.isScrollingPerformed = true := fun hf => h.shown (Or.inr hf) ha
  exact ⟨h.one, h.flags, h.driven, fun _ => hm, h.shown, fun hs => absurd hs hf⟩

theorem flags_of_acts {es : List WheelEvent} (h : Acts w st st' es)
    (hf : (st.ui.wheel w).isScrolling = st.scroller.isScrollingPerformed) :
    (st'.ui.wheel w).isScrolling = st'.scroller.isScrollingPerformed :=
  run_wheel_flag h.run h.own (by rw [hf]; exact h.brackets)

theorem of_message {m : AnimationMessage} (hm : st'.scroller.messages = [m])
    (hf : (st'.ui.wheel w).isScrolling = st'.scroller.isScrollingPerformed)
    (ha : (st'.ui.wheel w).viewAdapter ≠ none) (hl : last.any Touch.holds = false) :
    Steady last st'.scroller (st'.ui.wheel w) := by
  refine ⟨by simp [hm], hf, by simp [hm], by simp [hl], fun _ => ha, by simp [hm]⟩

theorem of_stopped (hm : st'.scroller.messages = [])
    (hf : (st'.ui.wheel w).isScrolling = st'.scroller.isScrollingPerformed)
    (ha : (st'.ui.wheel w).viewAdapter ≠ none) (hs : st'.scroller.scroller.isFinished = true)
    (ho : st'.scroller.isScrollingPerformed → last.any Touch.holds) :
    Steady last st'.scroller (st'.ui.wheel w) := by
  refine ⟨by simp [hm], hf, by simp [hs], fun _ => hm, fun _ => ha, fun h => Or.inr (ho h)⟩

end Steady

namespace Scrolling
variable {w : WheelId} {st : Scrolling}

@[simp] theorem messages_started : (st.started w).scroller.messages = st.scroller.messages := by
  unfold started
  split_ifs <;> rfl

@[simp] theorem scroller_started : (st.started w).scroller.scroller = st.scroller.scroller := by
  unfold started
  split_ifs <;> rfl

@[simp] theorem messages_justified : (st.justified w).scroller.messages = [.justify] := by
  unfold justified
  split_ifs <;> simp [mapScroller]

@[simp] theorem messages_finished : (st.finished w).scroller.messages = st.scroller.messages := by
  unfold finished
  split_ifs <;> rfl

@[simp] theorem scroller_finished : (st.finished w).scroller.scroller = st.scroller.scroller := by
  unfold finished
  split_ifs <;> rfl

@[simp] theorem flag_finished : (st.finished w).scroller.isScrollingPerformed = false := by
  unfold finished
  split_ifs with h
  · rfl
  · simpa using h

@[simp] theorem messages_checked : st.checked.scroller.messages = st.scroller.messages := by
  unfold checked
  split_ifs <;> rfl

end Scrolling

namespace Steady
variable {w : WheelId} {layout : Layout} {st st' : Scrolling} {last : Option Touch}

theorem under_finger {s : WheelScroller} {v : WheelView} (h : Steady last s v)
    (hl : last.any Touch.stays = true) : s.messages = [] ∧ s.scroller.isFinished = true := by
  have hm : s.messages = [] := by
    apply h.held
    cases last with
    | none => simp at hl
    | some t => cases t <;> simp_all [Touch.stays, Touch.holds, Touch.isUp]
  refine ⟨hm, ?_⟩
  by_contra hf
  exact h.driven (by simpa using hf) hm

theorem onWheelTouch {touch : Touch} (h : Steady last st.scroller (st.ui.wheel w))
    (hb : touch.begins = !last.any Touch.stays)
    (hs : CameraClient.onWheelTouch w layout touch st = .ok () st') :
    Steady (some touch) st'.scroller (st'.ui.wheel w) := by
  obtain ⟨es, hes⟩ := acts_onWheelTouch hs
  have hflags := flags_of_acts hes h.flags
  rcases WheelScroller.onWheelTouch_ok hs with ⟨ha, rfl⟩ | ⟨ha, hs⟩
  · exact h.untouched ha _
  have ha' : (st'.ui.wheel w).viewAdapter ≠ none := by
    rw [hes.adapter w]
    exact ha
  have hheld : touch.begins = false →
      st.scroller.messages = [] ∧ st.scroller.scroller.isFinished = true :=
    fun hn => h.under_finger (by simpa [hn] using hb)
  cases touch with
  | down =>
    cases hs
    exact of_stopped (by simp) hflags ha' rfl (fun _ => rfl)
  | move d =>
    by_cases hd : d = 0
    · rw [hd, WheelScroller.onTouchEvent_move_zero] at hs
      cases hs
      exact of_stopped (hheld rfl).1 hflags ha' (hheld rfl).2 (fun _ => rfl)
    · rw [WheelScroller.onTouchEvent_move hd] at hs
      obtain ⟨-, hsc⟩ := WheelScroller.onScroll_ok hs
      have hm : st'.scroller.messages = [] := by
        rcases hsc with hsc | hsc
        · rw [hsc, Scrolling.messages_started, (hheld rfl).1]
        · rw [hsc, WheelScroller.forceFinished, Scrolling.messages_started, (hheld rfl).1]
      have hf : st'.scroller.scroller.isFinished = true := by
        rcases hsc with hsc | hsc
        · rw [hsc, Scrolling.scroller_started, (hheld rfl).2]
        · rw [hsc]
          rfl
      exact of_stopped hm hflags ha' hf (fun _ => rfl)
  | up fling =>
    cases fling with
    | none =>
      rw [WheelScroller.onTouchEvent, WheelScroller.justify_eq] at hs
      cases hs
      exact of_message Scrolling.messages_justified hflags ha' rfl
    | some finalY =>
      cases hs
      exact of_message (WheelScroller.messages_setNextMessage _ _) hflags ha' rfl
  | cancel =>
    cases hs
    exact of_stopped (hheld rfl).1 hflags ha' (hheld rfl).2 (fun _ => rfl)

theorem at_rest {s : WheelScroller} {v : WheelView} (h : Steady last s v) (hm : s.messages = [])
    (hl : last.any Touch.holds = false) : v.isScrolling = false := by
  rw [h.flags]
  by_contra hflag
  rcases h.owed (by simpa using hflag) with h' | h'
  · exact h' hm
  · simp [hl] at h'

theorem lifted {s : WheelScroller} {v : WheelView} (h : Steady last s v) (hm : s.messages ≠ []) :
    last.any Touch.holds = false := by
  by_contra hl
  exact hm (h.held (by simpa using hl))

theorem messages_handleMessage {position : Int} {message : AnimationMessage}
    (hm : st.scroller.messages = [])
    (hs : WheelScroller.handleMessage w layout position message st = .ok () st') :
    st'.scroller.messages = [message] ∨
      (message = .scroll ∧ st'.scroller.messages = [.justify]) ∨
      (message = .justify ∧ st'.scroller.messages = [] ∧
        st'.scroller.scroller.isFinished = true ∧ st'.scroller.isScrollingPerformed = false) := by
  obtain ⟨mid, hf, rfl⟩ := WheelScroller.handleMessage_ok.mp hs
  have hmid : mid.scroller.messages = [] := by
    rcases WheelScroller.follow_scroller hf with hsc | hsc
    · rw [hsc]
      exact hm
    · rw [hsc]
      exact hm
  unfold Scrolling.proceeded
  split_ifs with hfin hmsg
  · exact Or.inr (Or.inl ⟨hmsg, Scrolling.messages_justified⟩)
  · right
    right
    refine ⟨by cases message <;> simp_all, ?_, ?_, ?_⟩
    · rw [Scrolling.messages_finished, Scrolling.messages_checked, hmid]
    · rw [Scrolling.scroller_finished, hfin]
    · exact Scrolling.flag_finished
  · left
    simp [Scrolling.mapScroller, WheelScroller.sendEmptyMessage, hmid]

theorem handleMessage {s : WheelScroller} {ui : UiState} {position : Int}
    {message : AnimationMessage} {messages : List AnimationMessage}
    (h : Steady last s (ui.wheel w)) (hm : s.messages = message :: messages)
    (hs : WheelScroller.handleMessage w layout position message
      ⟨{ s with messages := messages }, ui⟩ = .ok () st') :
    Steady last st'.scroller (st'.ui.wheel w) := by
  have hne : s.messages ≠ [] := by simp [hm]
  have ha := h.shown (Or.inl hne)
  have hnil : messages = [] := by
    have hone := h.one
    rw [hm, List.length_cons] at hone
    exact List.length_eq_zero_iff.mp (by omega)
  obtain ⟨es, hes⟩ := acts_handleMessage ha hs
  have hflags := flags_of_acts hes h.flags
  have ha' : (st'.ui.wheel w).viewAdapter ≠ none := by
    rw [hes.adapter w]
    exact ha
  rcases messages_handleMessage hnil hs with hm' | ⟨-, hm'⟩ | ⟨-, hm', hf, hflag⟩
  · exact of_message hm' hflags ha' (h.lifted hne)
  · exact of_message hm' hflags ha' (h.lifted hne)
  · exact of_stopped hm' hflags ha' hf (fun hp => by simp [hflag] at hp)

theorem status {s : WheelScroller} {v : WheelView} (h : Steady last s v) (f : FullStatus) :
    Steady last s (f.showOn w v) := by
  have hf : (f.showOn w v).isScrolling = v.isScrolling := f.isScrolling_showOn w v
  refine ⟨h.one, by rw [hf, h.flags], h.driven, h.held, ?_, h.owed⟩
  intro hs
  unfold FullStatus.showOn
  split_ifs
  · exact h.shown hs
  · simp

end Steady

namespace TouchPanel
variable {st st' : TouchPanel} {w : WheelId} {e : TouchEvent} {es : List TouchEvent}

def Rests (last : WheelId → Option Touch) (st : TouchPanel) : Prop :=
  ∀ w, st.fingers.get w = (last w).any Touch.stays ∧
    Steady (last w) (st.scrollers.get w) (st.ui.wheel w)

theorem rests_of_acts {last last' : WheelId → Option Touch} {s : Scrolling} {es : List WheelEvent}
    (h : st.Rests last) (ha : Acts w (st.scrolling w) s es) (hui : st'.ui = s.ui)
    (hs : st'.scrollers = st.scrollers.set w s.scroller)
    (hw : st'.fingers.get w = (last' w).any Touch.stays ∧
      Steady (last' w) s.scroller (s.ui.wheel w))
    (hl : ∀ u, u ≠ w → last' u = last u ∧ st'.fingers.get u = st.fingers.get u) :
    st'.Rests last' := by
  intro u
  by_cases hu : u = w
  · subst hu
    rw [hui, hs, PerWheel.get_set_self]
    exact hw
  · obtain ⟨hlast, hfinger⟩ := hl u hu
    rw [hlast, hfinger, hs, PerWheel.get_set_ne _ hu, hui, run_wheel_frame ha.run ha.own hu]
    exact h u

theorem rests_step {last : WheelId → Option Touch} (h : st.Rests last) (hs : st.step e = some st') :
    st'.Rests (fun w => touchOf w (last w) e) := by
  cases e with
  | touch w layout touch =>
    obtain ⟨hb, s, htouch, rfl⟩ := step_touch hs
    obtain ⟨es, hes⟩ := acts_onWheelTouch htouch
    rw [(h w).1] at hb
    refine rests_of_acts h hes rfl rfl ⟨?_, ?_⟩ ?_
    · simp [withFinger, touchOf]
    · simpa [touchOf] using (h w).2.onWheelTouch hb htouch
    · intro u hu
      simp [withFinger, touchOf, hu, Ne.symm hu]
  | frame w layout position =>
    obtain ⟨message, messages, s, hm, hmsg, rfl⟩ := step_frame hs
    obtain ⟨es, hes⟩ := acts_handleMessage ((h w).2.shown (Or.inl (by simp [hm]))) hmsg
    have h0 : Acts w (st.scrolling w)
        ⟨{ st.scrollers.get w with messages := messages }, st.ui⟩ [] := .silent rfl rfl
    refine rests_of_acts h (h0.trans hes) rfl rfl ⟨(h w).1, (h w).2.handleMessage hm hmsg⟩ ?_
    intro u hu
    exact ⟨rfl, rfl⟩
  | status f =>
    rw [step_status hs]
    intro w
    refine ⟨(h w).1, ?_⟩
    rw [wheel_applyTo]
    exact (h w).2.status f

theorem rests_initial : ({} : TouchPanel).Rests fun _ => none := by
  intro w
  cases w <;> exact ⟨rfl, by decide, rfl, by decide, by decide, by decide, by decide⟩

theorem foldl_touchOf (es : List TouchEvent) (last : WheelId → Option Touch) (w : WheelId) :
    es.foldl (fun last e w => touchOf w (last w) e) last w = es.foldl (touchOf w) (last w) := by
  induction es generalizing last with
  | nil => rfl
  | cons e es ih => exact ih _

theorem rests_run (h : run step {} es = some st) : st.Rests fun w => lastTouch w es := by
  have hc : Meets step (fun _ _ => True) ({} : TouchPanel) es :=
    meets_of_forall (fun _ _ => trivial) _
  have hi : st.Rests (es.foldl (fun last e w => touchOf w (last w) e) fun _ => none) :=
    run_history_invariant (fun _ _ _ _ hl _ hs => rests_step hl hs) rests_initial hc h
  intro w
  have hw := hi w
  rw [foldl_touchOf] at hw
  exact hw

theorem steady_run (h : run step {} es = some st) (w : WheelId) :
    Steady (lastTouch w es) (st.scrollers.get w) (st.ui.wheel w) :=
  (rests_run h w).2

theorem panel_of_run {last : WheelId → Option Touch} (hr : st.Rests last)
    (h : run step st es = some st') : ∃ ps : List PanelEvent,
      run panelStep st.ui ps = some st'.ui ∧
      ps.filterMap PanelEvent.status? = es.filterMap TouchEvent.status? ∧
      ∀ w, run (bracketStep w) (st.flag w) (ps.filterMap PanelEvent.wheel?) =
        some (st'.flag w) := by
  induction es generalizing st last with
  | nil =>
    cases h
    exact ⟨[], rfl, rfl, fun w => rfl⟩
  | cons e es ih =>
    obtain ⟨m, h1, h2⟩ := run_cons_iff.mp h
    obtain ⟨ps, hps, hstatus, hbrackets⟩ :=
      panel_of_step (fun w hw => (hr w).2.shown (Or.inl hw)) h1
    obtain ⟨qs, hqs, hstatus', hbrackets'⟩ := ih (rests_step hr h1) h2
    refine ⟨ps ++ qs, run_append_iff.mpr ⟨_, hps, hqs⟩, ?_, ?_⟩
    · rw [List.filterMap_append, hstatus, hstatus', ← List.filterMap_append]
      rfl
    · intro w
      rw [List.filterMap_append]
      exact run_append_iff.mpr ⟨_, hbrackets w, hbrackets' w⟩

/-- A first status, and a drag of the aperture wheel let go 10 pixels off an item. -/
def apertureDrag : List TouchEvent :=
  [.status threeApertureStatus, .touch .aperture ⟨40, 200⟩ .down,
    .touch .aperture ⟨40, 200⟩ (.move (-30)), .touch .aperture ⟨40, 200⟩ (.up none)]

/-- Whatever fingers do, the panel runs as it may: the statuses come in their order, and
the scrolling of each wheel starts and finishes in turn. -/
theorem touch_run_is_panel_run (h : run step {} es = some st) : ∃ ps : List PanelEvent,
    run panelStep {} ps = some st.ui ∧
    ps.filterMap PanelEvent.status? = es.filterMap TouchEvent.status? ∧
    ∀ w, run (bracketStep w) false (ps.filterMap PanelEvent.wheel?) =
      some (st.ui.wheel w).isScrolling := by
  obtain ⟨ps, hps, hstatus, hbrackets⟩ := panel_of_run rests_initial h
  refine ⟨ps, hps, hstatus, fun w => ?_⟩
  have hw := hbrackets w
  rw [(steady_run h w).flags]
  cases w <;> exact hw

theorem touch_run_is_panel_run_drag : ∃ st ps,
    run step {} apertureDrag = some st ∧ run panelStep {} ps = some st.ui ∧
    ps.filterMap PanelEvent.status? = [threeApertureStatus] ∧
    run (bracketStep .aperture) false (ps.filterMap PanelEvent.wheel?) =
      some (st.ui.wheel .aperture).isScrolling := by
  have hs : (run step {} apertureDrag).isSome := by decide
  obtain ⟨st, h⟩ := Option.isSome_iff_exists.mp hs
  obtain ⟨ps, hps, hstatus, hb⟩ := touch_run_is_panel_run h
  exact ⟨st, ps, h, hps, hstatus, hb .aperture⟩

end TouchPanel

def TouchEvent.touches (w : WheelId) : TouchEvent → Bool
  | touch u _ _ => u = w
  | _ => false

def AnimationMessage.phase : AnimationMessage → Nat
  | justify => 1
  | scroll => 2

/-- The animations a scroller still has to complete before its wheel rests. -/
def WheelScroller.phase (s : WheelScroller) : Nat :=
  match s.messages with
  | [] => 0
  | message :: _ => message.phase

/-- The animation of wheel `w` is over at this frame. -/
def TouchPanel.completed (w : WheelId) (st : TouchPanel) : TouchEvent → List Unit
  | .frame u _ position =>
    let s := (st.scrollers.get w).scroller
    if u = w ∧ (s.isFinished ∨ position = s.finalY) then [()] else []
  | _ => []

namespace Steady
variable {w : WheelId} {layout : Layout} {st st' : Scrolling} {position : Int}
  {message : AnimationMessage}

theorem finished_of_over (st : Scrolling) (hover : st.scroller.scroller.isFinished = true ∨
      position = st.scroller.scroller.finalY) {mid : Scrolling}
    (hf : WheelScroller.follow w layout (st.scroller.delta position)
      (st.mapScroller (WheelScroller.atFrame position)) = .ok () mid) :
    mid.checked.scroller.scroller.isFinished = true := by
  have hkeep : mid.scroller.scroller.isFinished = true ∨
      mid.scroller.scroller.currY = mid.scroller.scroller.finalY := by
    have hstart : (WheelScroller.atFrame position st.scroller).scroller.isFinished = true ∨
        (WheelScroller.atFrame position st.scroller).scroller.currY =
          (WheelScroller.atFrame position st.scroller).scroller.finalY := by
      simp only [WheelScroller.atFrame, Scroller.computeScrollOffset]
      split_ifs with h
      · exact Or.inl h
      · rcases hover with h' | h'
        · exact absurd h' h
        · exact Or.inr h'
    rcases WheelScroller.follow_scroller hf with hs | hs
    · rw [hs]
      exact hstart
    · rw [hs]
      exact Or.inl rfl
  unfold Scrolling.checked
  split_ifs with hy
  · rfl
  · rcases hkeep with h | h
    · exact h
    · exact absurd h hy

theorem phase_nil {s : WheelScroller} (h : s.messages = []) : s.phase = 0 := by
  simp [WheelScroller.phase, h]

theorem phase_single {s : WheelScroller} (h : s.messages = [message]) : s.phase = message.phase := by
  simp [WheelScroller.phase, h]

theorem phase_handleMessage {s : WheelScroller} {ui : UiState}
    (hm : s.messages = [message])
    (hs : WheelScroller.handleMessage w layout position message ⟨{ s with messages := [] }, ui⟩ =
      .ok () st') :
    (if s.scroller.isFinished ∨ position = s.scroller.finalY then 1 else 0) + st'.scroller.phase ≤
      s.phase := by
  rw [phase_single hm]
  by_cases hover : s.scroller.isFinished = true ∨ position = s.scroller.finalY
  · obtain ⟨mid, hf, rfl⟩ := WheelScroller.handleMessage_ok.mp hs
    have hfin := finished_of_over ⟨{ s with messages := [] }, ui⟩ hover hf
    have hmid : mid.scroller.messages = [] := by
      rcases WheelScroller.follow_scroller hf with hsc | hsc
      · rw [hsc]
        rfl
      · rw [hsc]
        rfl
    rw [if_pos hover, Scrolling.proceeded, if_pos hfin]
    cases message with
    | scroll =>
      rw [if_pos rfl, phase_single Scrolling.messages_justified]
      decide
    | justify =>
      rw [if_neg (by decide), phase_nil (by simp [hmid])]
      decide
  · rw [if_neg hover, Nat.zero_add]
    rcases messages_handleMessage rfl hs with h | ⟨rfl, h⟩ | ⟨-, h, -⟩
    · rw [phase_single h]
    · rw [phase_single h]
      decide
    · rw [phase_nil h]
      exact Nat.zero_le _

end Steady

namespace TouchPanel
variable {st st' m : TouchPanel} {w : WheelId} {e : TouchEvent} {us vs : List TouchEvent}

/-- Without a touch a wheel's scroller keeps to what it has to complete. -/
theorem phase_step {last : WheelId → Option Touch} (hr : st.Rests last)
    (hw : e.touches w = false) (h : st.step e = some st') :
    (st.completed w e).length + (st'.scrollers.get w).phase ≤ (st.scrollers.get w).phase := by
  cases e with
  | touch u layout touch =>
    have hu : w ≠ u := by
      intro hwu
      simp [TouchEvent.touches, hwu] at hw
    obtain ⟨-, s, -, rfl⟩ := step_touch h
    simp [completed, withFinger, hu]
  | frame u layout position =>
    obtain ⟨message, messages, s, hm, hs, rfl⟩ := step_frame h
    by_cases hu : u = w
    · subst hu
      have hone := (hr u).2.one
      rw [hm, List.length_cons] at hone
      obtain rfl : messages = [] := List.length_eq_zero_iff.mp (by omega)
      have hp := Steady.phase_handleMessage hm hs
      simp only [completed, true_and]
      split_ifs at hp ⊢ with hc
      · simpa [withScrolling] using hp
      · simpa [withScrolling] using hp
    · simp [completed, hu, Ne.symm hu]
  | status f =>
    rw [step_status h]
    simp [completed]

/-- Between two touches a wheel completes at most two animations, and rests then. -/
theorem completed_run {last : WheelId → Option Touch} (hr : st.Rests last)
    (hw : ∀ e ∈ vs, e.touches w = false) (h : run step st vs = some st') :
    (trace step (completed w) st vs).length + (st'.scrollers.get w).phase ≤
      (st.scrollers.get w).phase := by
  induction vs generalizing st last with
  | nil =>
    cases h
    simp [trace]
  | cons e es ih =>
    obtain ⟨st1, h1, h2⟩ := run_cons_iff.mp h
    have hstep := phase_step hr (hw e (by simp)) h1
    have hrest := ih (rests_step hr h1) (fun f hf => hw f (by simp [hf])) h2
    simp only [trace, h1, Option.elim_some, List.length_append]
    omega

theorem lastTouch_untouched (us : List TouchEvent) (hw : ∀ e ∈ vs, e.touches w = false) :
    lastTouch w (us ++ vs) = lastTouch w us := by
  rw [lastTouch, List.foldl_append, ← lastTouch]
  generalize lastTouch w us = last
  induction vs with
  | nil => rfl
  | cons e es ih =>
    have he : touchOf w last e = last := by
      have hn := hw e (by simp)
      cases e with
      | touch u layout touch =>
        have hu : ¬ u = w := by simpa [TouchEvent.touches] using hn
        simp [touchOf, hu]
      | frame u layout position => rfl
      | status f => rfl
    rw [List.foldl_cons, he]
    exact ih (fun f hf => hw f (by simp [hf]))

/-- After a finger was lifted its wheel completes at most two animations, and when it has
completed those it had to, it rests: it is not scrolling, and no message is left. -/
theorem wheel_comes_to_rest (hus : run step {} us = some m)
    (hl : (lastTouch w us).any Touch.holds = false) (hw : ∀ e ∈ vs, e.touches w = false)
    (h : run step m vs = some st) :
    (trace step (completed w) m vs).length ≤ (m.scrollers.get w).phase ∧
    (m.scrollers.get w).phase ≤ 2 ∧
    ((trace step (completed w) m vs).length = (m.scrollers.get w).phase →
      (st.ui.wheel w).isScrolling = false ∧ (st.scrollers.get w).messages = []) := by
  have hc := completed_run (rests_run hus) hw h
  refine ⟨by omega, ?_, ?_⟩
  · unfold WheelScroller.phase
    split
    · decide
    · rename_i message _ _
      cases message <;> decide
  · intro heq
    have hr := steady_run (run_append_iff.mpr ⟨m, hus, h⟩) w
    rw [lastTouch_untouched us hw] at hr
    have hm : (st.scrollers.get w).messages = [] := by
      have hp : (st.scrollers.get w).phase = 0 := by omega
      unfold WheelScroller.phase at hp
      split at hp
      · assumption
      · rename_i message _ _
        cases message <;> simp [AnimationMessage.phase] at hp
    exact ⟨hr.at_rest hm hl, hm⟩

theorem wheel_comes_to_rest_drag : ∃ m st, run step {} apertureDrag = some m ∧
    run step m [.frame .aperture ⟨40, 200⟩ 4, .frame .aperture ⟨40, 200⟩ 10] = some st ∧
    (st.ui.wheel .aperture).isScrolling = false ∧
    (st.scrollers.get .aperture).messages = [] := by
  let m := (run step {} apertureDrag).get (by decide)
  let vs : List TouchEvent := [.frame .aperture ⟨40, 200⟩ 4, .frame .aperture ⟨40, 200⟩ 10]
  let st := (run step m vs).get (by decide)
  have hus : run step {} apertureDrag = some m := (Option.some_get _).symm
  have hvs : run step m vs = some st := (Option.some_get _).symm
  have hall : (trace step (completed .aperture) m vs).length =
      (m.scrollers.get .aperture).phase := by decide
  have hrest := (wheel_comes_to_rest hus (by decide) (by decide) hvs).2.2 hall
  exact ⟨m, st, hus, hvs, hrest⟩

def Worded (st : TouchPanel) : Prop :=
  ∀ w, ∀ adapter ∈ (st.ui.wheel w).viewAdapter, ∃ texts, adapter = .ofTexts texts

theorem worded_step {last : WheelId → Option Touch} (hr : st.Rests last) (hw : st.Worded)
    (h : st.step e = some st') : st'.Worded := by
  have hacts {w : WheelId} {s s' : Scrolling} {es : List WheelEvent} (ha : Acts w s s' es)
      (h1 : s.ui = st.ui) (h2 : st'.ui = s'.ui) : st'.Worded := by
    intro u adapter hm
    rw [h2, ha.adapter u, h1] at hm
    exact hw u adapter hm
  cases e with
  | touch w layout touch =>
    obtain ⟨-, s, hs, rfl⟩ := step_touch h
    obtain ⟨es, hes⟩ := acts_onWheelTouch hs
    exact hacts hes rfl rfl
  | frame w layout position =>
    obtain ⟨message, messages, s, hm, hs, rfl⟩ := step_frame h
    obtain ⟨es, hes⟩ := acts_handleMessage ((hr w).2.shown (Or.inl (by simp [hm]))) hs
    exact hacts hes rfl rfl
  | status f =>
    rw [step_status h]
    intro u adapter hm
    rw [wheel_applyTo] at hm
    unfold FullStatus.showOn at hm
    split_ifs at hm
    · exact hw u adapter hm
    · rw [WheelView.viewAdapter_load] at hm
      exact ⟨_, (Option.some.inj hm).symm⟩

theorem reached {P : TouchPanel → Prop} (h0 : P {})
    (hstep : ∀ last st e st', Rests last st → P st → st.step e = some st' → P st')
    (h : run step {} us = some st) : P st := by
  have hc : Meets step (fun _ _ => True) ({} : TouchPanel) us :=
    meets_of_forall (fun _ _ => trivial) _
  have hinv (s : TouchPanel) (e : TouchEvent) (s' : TouchPanel)
      (hi : (∃ last, Rests last s) ∧ P s) (_ : True) (hs : s.step e = some s') :
      (∃ last, Rests last s') ∧ P s' := by
    obtain ⟨⟨last, hr⟩, hp⟩ := hi
    exact ⟨⟨_, rests_step hr hs⟩, hstep last s e s' hr hp hs⟩
  exact (run_invariant hinv ⟨⟨_, rests_initial⟩, h0⟩ hc h).2

theorem worded_run (h : run step {} us = some st) : st.Worded :=
  reached (fun w adapter hm => by cases w <;> cases hm)
    (fun _ _ _ _ hr hp hs => worded_step hr hp hs) h

theorem frame_enabled {last : WheelId → Option Touch} {layout : Layout} (position : Int)
    (hr : st.Rests last) (hw : st.Worded) (hl : layout.Drawn)
    (hm : (st.scrollers.get w).messages ≠ []) :
    ∃ st', st.step (.frame w layout position) = some st' := by
  obtain ⟨adapter, ha⟩ := Option.ne_none_iff_exists'.mp ((hr w).2.shown (Or.inl hm))
  obtain ⟨texts, rfl⟩ := hw w adapter ha
  cases hmsg : (st.scrollers.get w).messages with
  | nil => exact absurd hmsg hm
  | cons message messages =>
    have hno : ∃ s, WheelScroller.handleMessage w layout position message
        ⟨{ st.scrollers.get w with messages := messages }, st.ui⟩ = .ok () s :=
      WheelScroller.handleMessage_no_raise position message ha hl
    obtain ⟨s, hs⟩ := hno
    exact ⟨_, frame_of_message hmsg hs⟩

/-- A lifted wheel gets to rest by frames alone, one for each animation. -/
theorem exists_rest {last : WheelId → Option Touch} {layout : Layout} (hl : layout.Drawn)
    (hr : st.Rests last) (hw : st.Worded) : ∃ fs t,
      fs.length ≤ (st.scrollers.get w).phase ∧ (∀ e ∈ fs, ∃ y, e = .frame w layout y) ∧
      run step st fs = some t ∧ (t.scrollers.get w).messages = [] := by
  induction hn : (st.scrollers.get w).phase using Nat.strongRecOn generalizing st last with
  | ind n ih =>
    by_cases hm : (st.scrollers.get w).messages = []
    · exact ⟨[], st, Nat.zero_le _, by simp, rfl, hm⟩
    · let y := (st.scrollers.get w).scroller.finalY
      obtain ⟨st1, h1⟩ := frame_enabled y hr hw hl hm
      have hp := phase_step (w := w) hr rfl h1
      have hc : (st.completed w (.frame w layout y)).length = 1 := by
        simp [completed, y]
      obtain ⟨fs, t, hlen, hfs, ht, htm⟩ := ih _ (by omega) (rests_step hr h1)
        (worded_step hr hw h1) rfl
      refine ⟨.frame w layout y :: fs, t, ?_, ?_, ?_, htm⟩
      · rw [List.length_cons]
        omega
      · intro e he
        rcases List.mem_cons.mp he with rfl | he
        · exact ⟨y, rfl⟩
        · exact hfs e he
      · exact run_cons_iff.mpr ⟨st1, h1, ht⟩

theorem idle_run (hm : (st.scrollers.get w).messages = []) (hs : (st.ui.wheel w).isScrolling)
    {last : WheelId → Option Touch} (hr : st.Rests last)
    (hw : ∀ e ∈ vs, e.touches w = false) (h : run step st vs = some st') :
    st'.scrollers.get w = st.scrollers.get w ∧ (st'.ui.wheel w).isScrolling ∧
      (st'.ui.wheel w).currentItem = (st.ui.wheel w).currentItem := by
  induction vs generalizing st last with
  | nil =>
    cases h
    exact ⟨rfl, hs, rfl⟩
  | cons e es ih =>
    obtain ⟨st1, h1, h2⟩ := run_cons_iff.mp h
    have hstep : st1.scrollers.get w = st.scrollers.get w ∧ (st1.ui.wheel w).isScrolling ∧
        (st1.ui.wheel w).currentItem = (st.ui.wheel w).currentItem := by
      have he := hw e (by simp)
      cases e with
      | touch u layout touch =>
        have hu : w ≠ u := by
          intro hwu
          simp [TouchEvent.touches, hwu] at he
        obtain ⟨-, s, htouch, rfl⟩ := step_touch h1
        obtain ⟨es, hes⟩ := acts_onWheelTouch htouch
        have hf : s.ui.wheel w = st.ui.wheel w := run_wheel_frame hes.run hes.own hu
        simp [withFinger, hu, hf, hs]
      | frame u layout position =>
        obtain ⟨message, messages, s, hmsg, hs', rfl⟩ := step_frame h1
        have hu : w ≠ u := by
          intro hwu
          rw [hwu, hmsg] at hm
          cases hm
        obtain ⟨es, hes⟩ := acts_handleMessage ((hr u).2.shown (Or.inl (by simp [hmsg]))) hs'
        have hf : s.ui.wheel w = st.ui.wheel w := run_wheel_frame hes.run hes.own hu
        simp [hu, hf, hs]
      | status f =>
        rw [step_status h1]
        dsimp only
        rw [wheel_applyTo]
        refine ⟨rfl, by simpa using hs, ?_⟩
        unfold FullStatus.showOn
        split_ifs
        · rfl
        · rw [WheelView.currentItem_load, if_pos (Or.inl hs)]
    obtain ⟨hsc, hfl, hi⟩ := hstep
    obtain ⟨hsc', hfl', hi'⟩ := ih (by rw [hsc]; exact hm) hfl (rests_step hr h1)
      (fun f hf => hw f (by simp [hf])) h2
    exact ⟨hsc'.trans hsc, hfl', hi'.trans hi⟩

/-- Once no finger is on it, a wheel can come to rest without another touch exactly when
it is not left scrolling by a cancelled touch; the frames of its animations then do. -/
theorem rests_untouched_iff {layout : Layout} (hl : layout.Drawn) (h : run step {} us = some st)
    (hf : st.fingers.get w = false) :
    (∃ vs t, (∀ e ∈ vs, e.touches w = false) ∧ run step st vs = some t ∧
      (t.ui.wheel w).isScrolling = false) ↔
    ¬ (lastTouch w us = some .cancel ∧ (st.ui.wheel w).isScrolling) := by
  have hr := rests_run h
  constructor
  · intro ⟨vs, t, hvs, ht, hrest⟩ ⟨hc, hs⟩
    have hm := (steady_run h w).held (by rw [hc]; rfl)
    have hstay := idle_run hm hs hr hvs ht
    rw [hrest] at hstay
    exact Bool.false_ne_true hstay.2.1
  · intro hn
    by_cases hs : (st.ui.wheel w).isScrolling = true
    · have hlast : (lastTouch w us).any Touch.holds = false := by
        have hfinger := (hr w).1
        rw [hf] at hfinger
        have hc : lastTouch w us ≠ some .cancel := fun hc => hn ⟨hc, hs⟩
        dsimp only at hfinger
        cases hlt : lastTouch w us with
        | none => rfl
        | some t =>
          rw [hlt] at hfinger hc
          cases t with
          | down => cases hfinger
          | move d => cases hfinger
          | up fling => rfl
          | cancel => exact absurd rfl hc
      obtain ⟨fs, t, -, hfs, ht, htm⟩ := exists_rest (w := w) hl hr (worded_run h)
      have hvs : ∀ e ∈ fs, e.touches w = false := by
        intro e he
        obtain ⟨y, rfl⟩ := hfs e he
        rfl
      have hrt := steady_run (run_append_iff.mpr ⟨st, h, ht⟩) w
      rw [lastTouch_untouched us hvs] at hrt
      exact ⟨fs, t, hvs, ht, hrt.at_rest htm hlast⟩
    · exact ⟨[], st, by simp, rfl, by simpa using hs⟩

theorem cancelled_drag_never_rests : ∃ st,
    run step {} [.status threeApertureStatus, .touch .aperture ⟨40, 200⟩ .down,
      .touch .aperture ⟨40, 200⟩ (.move (-30)), .touch .aperture ⟨40, 200⟩ .cancel] = some st ∧
    ¬ ∃ vs t, (∀ e ∈ vs, e.touches .aperture = false) ∧ run step st vs = some t ∧
      (t.ui.wheel .aperture).isScrolling = false := by
  let us : List TouchEvent := [.status threeApertureStatus, .touch .aperture ⟨40, 200⟩ .down,
    .touch .aperture ⟨40, 200⟩ (.move (-30)), .touch .aperture ⟨40, 200⟩ .cancel]
  let st := (run step {} us).get (by decide)
  have hus : run step {} us = some st := (Option.some_get _).symm
  have hl : Layout.Drawn ⟨40, 200⟩ := ⟨by decide, by decide⟩
  refine ⟨st, hus, fun h => ?_⟩
  exact (rests_untouched_iff hl hus (by decide)).mp h ⟨by decide, by decide⟩

end TouchPanel

end CameraClient
