import CameraClient.WheelRest

/-! What a stopped scroller remembers. A new animation starts from 0, but until its
first frame the scroller still reads where the last one was; stopping it in between
leaves that distance to the next message. A wheel that is not scrolling has neither
that distance nor an offset left, as long as only wheels that were moved are flung. -/
namespace CameraClient
open Runs

def WheelScroller.Settled (s : WheelScroller) : Prop :=
  s.scroller.isFinished = true → s.lastScrollY = s.scroller.currY

instance (s : WheelScroller) : Decidable s.Settled :=
  inferInstanceAs (Decidable (_ → _))

theorem WheelScroller.settled_iff (s : WheelScroller) :
    s.Settled ↔ ∀ position, s.scroller.isFinished = true → s.delta position = 0 := by
  unfold Settled delta Scroller.computeScrollOffset
  constructor
  · intro h position hf
    rw [if_pos hf, h hf, Int.sub_self]
  · intro h hf
    have h0 := h 0 hf
    rw [if_pos hf] at h0
    omega

namespace WheelScroller
variable {w : WheelId} {layout : Layout} {st st' : Scrolling} {s : WheelScroller}

theorem Settled.of_eq {t : WheelScroller} (h : t.lastScrollY = t.scroller.currY) : t.Settled :=
  fun _ => h

theorem settled_justified (h : st.scroller.Settled) : (st.justified w).scroller.Settled := by
  unfold Scrolling.justified
  split_ifs
  · exact h
  · intro hf
    simp [Scrolling.mapScroller, setNextMessage, sendEmptyMessage, clearMessages, removeMessages,
      animate, Scroller.start] at hf

theorem checked_settled {position : Int} {mid : Scrolling}
    (hf : follow w layout (st.scroller.delta position) (st.mapScroller (atFrame position)) =
      .ok () mid) :
    mid.checked.scroller.lastScrollY = mid.checked.scroller.scroller.currY := by
  have hmid : mid.scroller.lastScrollY = mid.scroller.scroller.currY := by
    rcases follow_scroller hf with hs | hs
    · rw [hs]
      rfl
    · rw [hs]
      rfl
  unfold Scrolling.checked
  split_ifs
  · exact hmid
  · exact hmid

theorem settled_handleMessage {position : Int} {message : AnimationMessage}
    (h : handleMessage w layout position message st = .ok () st') : st'.scroller.Settled := by
  obtain ⟨mid, hf, rfl⟩ := handleMessage_ok.mp h
  have hchecked := checked_settled hf
  unfold Scrolling.proceeded
  split_ifs
  · exact settled_justified (.of_eq hchecked)
  · unfold Scrolling.finished
    split_ifs
    · exact .of_eq hchecked
    · exact .of_eq hchecked
  · exact .of_eq hchecked

/-- Of the touches only a finger coming down can strand a distance. -/
theorem settled_onTouchEvent {touch : Touch} (hn : touch ≠ .down) (h : s.Settled)
    (hst : st.scroller = s) (hfin : touch.isUp = false → s.scroller.isFinished = true)
    (hs : onTouchEvent w layout touch st = .ok () st') : st'.scroller.Settled := by
  subst hst
  cases touch with
  | down => exact absurd rfl hn
  | move d =>
    by_cases hd : d = 0
    · rw [hd, onTouchEvent_move_zero] at hs
      cases hs
      exact h
    · rw [onTouchEvent_move hd] at hs
      have hst : (st.started w).scroller.lastScrollY =
          (st.started w).scroller.scroller.currY := by
        rw [Scrolling.scroller_started, ← h (hfin rfl)]
        unfold Scrolling.started
        split_ifs <;> rfl
      rcases (onScroll_ok hs).2 with hsc | hsc
      · rw [hsc]
        exact .of_eq hst
      · rw [hsc]
        exact .of_eq hst
  | up fling =>
    cases fling with
    | none =>
      rw [onTouchEvent, justify_eq] at hs
      cases hs
      exact settled_justified h
    | some finalY =>
      cases hs
      intro hf
      simp [setNextMessage, sendEmptyMessage, clearMessages, removeMessages, animate,
        Scroller.start] at hf
  | cancel =>
    cases hs
    exact h

end WheelScroller

namespace TouchPanel
variable {st st' : TouchPanel} {e : TouchEvent} {es : List TouchEvent}

def Settled (st : TouchPanel) : Prop := ∀ w, (st.scrollers.get w).Settled

/-- A finger that comes down on a wheel stops its scroller where the last frame has drawn it. An
animation stopped before its first frame is not, unless the one before ended at 0. -/
def StopsDrawn (st : TouchPanel) : TouchEvent → Prop
  | .touch w _ .down => st.fingers.get w = false → (st.ui.wheel w).viewAdapter ≠ none →
      (st.scrollers.get w).lastScrollY = (st.scrollers.get w).scroller.currY
  | _ => True

instance (st : TouchPanel) (e : TouchEvent) : Decidable (st.StopsDrawn e) := by
  unfold StopsDrawn
  split <;> infer_instance

theorem settled_step {last : WheelId → Option Touch} (hr : st.Rests last) (hs : st.Settled)
    (h : st.step e = some st') : st'.Settled ↔ st.StopsDrawn e := by
  have hother {w : WheelId} {s : Scrolling} (hsc : st'.scrollers = st.scrollers.set w s.scroller) :
      st'.Settled ↔ s.scroller.Settled := by
    constructor
    · intro hset
      have hw := hset w
      rwa [hsc, PerWheel.get_set_self] at hw
    · intro hset u
      by_cases hu : u = w
      · rw [hsc, hu, PerWheel.get_set_self]
        exact hset
      · rw [hsc, PerWheel.get_set_ne _ hu]
        exact hs u
  cases e with
  | touch w layout touch =>
    obtain ⟨hb, s, htouch, rfl⟩ := step_touch h
    rw [hother (w := w) (s := s) rfl]
    rcases WheelScroller.onWheelTouch_ok htouch with ⟨ha, rfl⟩ | ⟨ha, htouch⟩
    · refine iff_of_true (hs w) ?_
      cases touch with
      | down => exact fun _ hne => absurd ha hne
      | move d => trivial
      | up fling => trivial
      | cancel => trivial
    · by_cases hdown : touch = .down
      · subst hdown
        cases htouch
        have hup : st.fingers.get w = false := by simpa [Touch.begins] using hb
        exact ⟨fun hset _ _ => hset rfl, fun hc _ => hc hup ha⟩
      · refine iff_of_true (WheelScroller.settled_onTouchEvent hdown (hs w) rfl ?_ htouch) ?_
        · intro hn
          have hbegin : touch.begins = false := by
            cases touch <;> first | rfl | exact absurd rfl hdown
          rw [(hr w).1, hbegin] at hb
          exact ((hr w).2.under_finger (by simpa using hb)).2
        · cases touch with
          | down => exact absurd rfl hdown
          | move d => trivial
          | up fling => trivial
          | cancel => trivial
  | frame w layout position =>
    obtain ⟨message, messages, s, hm, hmsg, rfl⟩ := step_frame h
    rw [hother (w := w) (s := s) rfl]
    exact iff_of_true (WheelScroller.settled_handleMessage hmsg) trivial
  | status f =>
    rw [step_status h]
    exact iff_of_true hs trivial

theorem stopsDrawn_of_stuck (h : st.step e = none) : st.StopsDrawn e := by
  cases e with
  | frame w layout position => trivial
  | status f => trivial
  | touch w layout touch =>
    cases touch with
    | move d => trivial
    | up fling => trivial
    | cancel => trivial
    | down =>
      intro hf ha
      -- a finger coming down on such a wheel raises nothing
      exfalso
      have hb : Touch.begins .down = !st.fingers.get w := by
        rw [hf]
        rfl
      rw [touch_of_callback hb (WheelScroller.onWheelTouch_down ha)] at h
      cases h

/-- Throughout a run no stopped scroller has a distance left with which a message could scroll
its wheel exactly when each finger stops the scroller where it has drawn. -/
theorem no_replay_iff (es : List TouchEvent) :
    Always step (fun st => ∀ w position, (st.scrollers.get w).scroller.isFinished = true →
      (st.scrollers.get w).delta position = 0) {} es ↔ Meets step StopsDrawn {} es := by
  have hsettled (st : TouchPanel) : st.Settled ↔ ∀ w position,
      (st.scrollers.get w).scroller.isFinished = true →
        (st.scrollers.get w).delta position = 0 :=
    forall_congr' fun w => (st.scrollers.get w).settled_iff
  simp only [← hsettled]
  refine always_iff_meets (K := fun st => ∃ last, Rests last st) ?_ ?_ ?_ ?_ ?_
  · intro s e s' ⟨last, hr⟩ _ hs
    exact ⟨_, rests_step hr hs⟩
  · intro s e s' ⟨last, hr⟩ hp hs
    exact settled_step hr hp hs
  · intro s e he
    exact stopsDrawn_of_stuck he
  · exact ⟨_, rests_initial⟩
  · intro w _
    cases w <;> rfl

end TouchPanel

/-- A wheel is flung, its animation draws a frame, and a second fling is caught before its
first one: lifting that finger leaves a message that replays the frame drawn before. -/
example : ¬ Meets TouchPanel.step TouchPanel.StopsDrawn ({} : TouchPanel) (TouchPanel.apertureDrag ++
    [.frame .aperture ⟨40, 200⟩ 4, .touch .aperture ⟨40, 200⟩ .down,
      .touch .aperture ⟨40, 200⟩ (.up (some 50)), .touch .aperture ⟨40, 200⟩ .down]) := by
  decide

/-- A wheel that is not scrolling is on its item, and its scroller has no distance left. -/
def Centred (s : WheelScroller) (v : WheelView) : Prop :=
  s.isScrollingPerformed = false →
    v.scrollingOffset = 0 ∧ s.scroller.isFinished = true ∧ s.lastScrollY = s.scroller.currY

namespace Centred
variable {w : WheelId} {layout : Layout} {st st' : Scrolling}

theorem of_flag {s : WheelScroller} {v : WheelView} (h : s.isScrollingPerformed = true) :
    Centred s v := by
  intro hf
  rw [h] at hf
  cases hf

theorem flag_started (st : Scrolling) : (st.started w).scroller.isScrollingPerformed = true := by
  unfold Scrolling.started
  split_ifs with h
  · exact h
  · rfl

theorem justified (h : Centred st.scroller (st.ui.wheel w)) :
    Centred (st.justified w).scroller ((st.justified w).ui.wheel w) := by
  unfold Scrolling.justified
  split_ifs
  · exact h
  · apply of_flag
    exact flag_started (st.mapScroller (WheelScroller.animate (st.offset w)))

theorem onScroll {d : Int} (hf : st.scroller.isScrollingPerformed = true)
    (hs : WheelScroller.onScroll w layout d st = .ok () st') :
    st'.scroller.isScrollingPerformed = true := by
  rcases (WheelScroller.onScroll_ok hs).2 with hsc | hsc
  · rw [hsc, hf]
  · rw [hsc]
    exact hf

theorem onTouchEvent {touch : Touch} (h : Centred st.scroller (st.ui.wheel w))
    (hfling : ∀ finalY, touch = .up (some finalY) → st.scroller.isScrollingPerformed = true)
    (hs : WheelScroller.onTouchEvent w layout touch st = .ok () st') :
    Centred st'.scroller (st'.ui.wheel w) := by
  cases touch with
  | down =>
    cases hs
    intro hf
    obtain ⟨h0, -, hl⟩ := h hf
    exact ⟨h0, rfl, hl⟩
  | move d =>
    by_cases hd : d = 0
    · rw [hd, WheelScroller.onTouchEvent_move_zero] at hs
      cases hs
      exact h
    · rw [WheelScroller.onTouchEvent_move hd] at hs
      exact of_flag (onScroll (flag_started st) hs)
  | up fling =>
    cases fling with
    | none =>
      rw [WheelScroller.onTouchEvent, WheelScroller.justify_eq] at hs
      cases hs
      exact h.justified
    | some finalY =>
      cases hs
      exact of_flag (hfling finalY rfl)
  | cancel =>
    cases hs
    exact h

theorem handleMessage {position : Int} {message : AnimationMessage}
    (h : Centred st.scroller (st.ui.wheel w))
    (hs : WheelScroller.handleMessage w layout position message st = .ok () st') :
    Centred st'.scroller (st'.ui.wheel w) := by
  obtain ⟨mid, hf, rfl⟩ := WheelScroller.handleMessage_ok.mp hs
  have hdistance := WheelScroller.checked_settled hf
  have hmid : Centred mid.scroller (mid.ui.wheel w) := by
    cases hflag : st.scroller.isScrollingPerformed with
    | true =>
      apply of_flag
      rcases WheelScroller.follow_scroller hf with hsc | hsc
      · rw [hsc]
        exact hflag
      · rw [hsc]
        exact hflag
    | false =>
      obtain ⟨h0, hfin, hl⟩ := h hflag
      have hd : st.scroller.delta position = 0 := (st.scroller.settled_iff.mp fun _ => hl) _ hfin
      rw [WheelScroller.follow, if_pos hd] at hf
      cases hf
      have hkeep : st.scroller.scroller.computeScrollOffset position = st.scroller.scroller :=
        if_pos hfin
      intro _
      simp [Scrolling.mapScroller, WheelScroller.atFrame, hkeep, h0, hfin]
  have hchecked : Centred mid.checked.scroller (mid.checked.ui.wheel w) := by
    unfold Scrolling.checked
    split_ifs
    · intro hflag
      obtain ⟨h0, -, hl⟩ := hmid hflag
      exact ⟨h0, rfl, hl⟩
    · exact hmid
  unfold Scrolling.proceeded
  split_ifs with hfin
  · exact hchecked.justified
  · intro hflag
    unfold Scrolling.finished at hflag ⊢
    split_ifs at hflag ⊢ with hperf
    · exact ⟨by simp [WheelView.onFinished], hfin, hdistance⟩
    · exact hchecked hflag
  · exact hchecked

theorem status {s : WheelScroller} {v : WheelView} (h : Centred s v) (f : FullStatus) :
    Centred s (f.showOn w v) := by
  intro hflag
  obtain ⟨h0, hrest⟩ := h hflag
  refine ⟨?_, hrest⟩
  unfold FullStatus.showOn
  split_ifs
  · exact h0
  · unfold WheelView.load
    split_ifs <;> rfl

end Centred

namespace TouchPanel
variable {st st' : TouchPanel} {e : TouchEvent} {es : List TouchEvent}

/-- Only a wheel that was moved is flung. -/
def FlingsMoved (st : TouchPanel) : TouchEvent → Prop
  | .touch w _ (.up (some _)) => (st.ui.wheel w).isScrolling
  | _ => True

instance (st : TouchPanel) (e : TouchEvent) : Decidable (st.FlingsMoved e) := by
  unfold FlingsMoved
  split <;> infer_instance

def AllCentred (st : TouchPanel) : Prop :=
  ∀ w, Centred (st.scrollers.get w) (st.ui.wheel w)

theorem centred_step {last : WheelId → Option Touch} (hr : st.Rests last) (hi : st.AllCentred)
    (hc : st.FlingsMoved e) (h : st.step e = some st') : st'.AllCentred := by
  have hother {w : WheelId} {s : Scrolling} {es : List WheelEvent}
      (ha : Acts w (st.scrolling w) s es) (hui : st'.ui = s.ui)
      (hsc : st'.scrollers = st.scrollers.set w s.scroller)
      (hw : Centred s.scroller (s.ui.wheel w)) : st'.AllCentred := by
    intro u
    by_cases hu : u = w
    · rw [hsc, hu, PerWheel.get_set_self, hui]
      exact hw
    · rw [hsc, PerWheel.get_set_ne _ hu, hui, run_wheel_frame ha.run ha.own hu]
      exact hi u
  cases e with
  | touch w layout touch =>
    obtain ⟨-, s, htouch, rfl⟩ := step_touch h
    obtain ⟨es, hes⟩ := acts_onWheelTouch htouch
    refine hother hes rfl rfl ?_
    rcases WheelScroller.onWheelTouch_ok htouch with ⟨-, rfl⟩ | ⟨-, htouch⟩
    · exact hi w
    · refine Centred.onTouchEvent (hi w) ?_ htouch
      rintro finalY rfl
      exact (hr w).2.flags.symm.trans hc
  | frame w layout position =>
    obtain ⟨message, messages, s, hm, hmsg, rfl⟩ := step_frame h
    obtain ⟨es, hes⟩ := acts_handleMessage ((hr w).2.shown (Or.inl (by simp [hm]))) hmsg
    have h0 : Acts w (st.scrolling w)
        ⟨{ st.scrollers.get w with messages := messages }, st.ui⟩ [] := .silent rfl rfl
    exact hother (h0.trans hes) rfl rfl (Centred.handleMessage (hi w) hmsg)
  | status f =>
    rw [step_status h]
    intro w
    rw [wheel_applyTo]
    exact (hi w).status f

/-- In a run in which only moved wheels are flung, every wheel that is not scrolling is
exactly on its item, and a message it still has scrolls it nowhere. -/
theorem resting_wheel_centred (h : run step {} es = some st)
    (hc : Meets step FlingsMoved ({} : TouchPanel) es) (w : WheelId)
    (hw : (st.ui.wheel w).isScrolling = false) :
    (st.ui.wheel w).scrollingOffset = 0 ∧
      ∀ position, (st.scrollers.get w).delta position = 0 := by
  have hstep (s : TouchPanel) (e : TouchEvent) (s' : TouchPanel)
      (hi : (∃ last, Rests last s) ∧ s.AllCentred) (hf : s.FlingsMoved e)
      (hs : s.step e = some s') : (∃ last, Rests last s') ∧ s'.AllCentred := by
    obtain ⟨⟨last, hr⟩, hi⟩ := hi
    exact ⟨⟨_, rests_step hr hs⟩, centred_step hr hi hf hs⟩
  have hstart : ({} : TouchPanel).AllCentred := by
    intro u _
    cases u <;> exact ⟨rfl, rfl, rfl⟩
  have hinv := run_invariant hstep ⟨⟨_, rests_initial⟩, hstart⟩ hc h
  obtain ⟨h0, hfin, hl⟩ := hinv.2 w (by rw [← (steady_run h w).flags, hw])
  exact ⟨h0, fun position => ((st.scrollers.get w).settled_iff.mp fun _ => hl) _ hfin⟩

theorem resting_wheel_centred_drag : ∃ st,
    run step {} (apertureDrag ++ [.frame .aperture ⟨40, 200⟩ 4, .frame .aperture ⟨40, 200⟩ 10]) =
      some st ∧
    (st.ui.wheel .aperture).scrollingOffset = 0 ∧
    ∀ position, (st.scrollers.get .aperture).delta position = 0 := by
  let us := apertureDrag ++ [.frame .aperture ⟨40, 200⟩ 4, .frame .aperture ⟨40, 200⟩ 10]
  let st := (run step {} us).get (by decide)
  have hus : run step {} us = some st := (Option.some_get _).symm
  exact ⟨st, hus, resting_wheel_centred hus (by decide) .aperture (by decide)⟩

end TouchPanel

end CameraClient
