import CameraClient.WheelRest

/-! A whole gesture: the wheel is dragged, let go without a fling and justified. The item
under the finger's last move is the one it ends on, and justifying posts nothing. -/
namespace CameraClient
open Runs Detents StateError

def Between (o y : Int) : Prop := (0 ≤ y ∧ y ≤ o) ∨ (o ≤ y ∧ y ≤ 0)

/-- A wheel let go `o` pixels off its item, which is the nearest. -/
structure Released (ui : UiState) (w : WheelId) (layout : Layout) (texts : List String)
    (o : Int) : Prop where
  drawn : layout.Drawn
  adapter : (ui.wheel w).viewAdapter = some (.ofTexts texts)
  nearest : IsNearest texts.length layout.itemHeight
    ((ui.wheel w).currentItem * layout.itemHeight - o) (ui.wheel w).currentItem
  inside : (o.natAbs : Int) ≤ layout.height

def justifying (ui : UiState) (w : WheelId) (o y : Int) : UiState :=
  ui.setWheel w { ui.wheel w with scrollingOffset := o - y, isScrollingPerformed := true }

def centred (ui : UiState) (w : WheelId) : UiState :=
  ui.setWheel w { ui.wheel w with scrollingOffset := 0, isScrollingPerformed := false }

namespace Released
variable {ui : UiState} {w : WheelId} {layout : Layout} {texts : List String} {o y y' : Int}

theorem nearest_between (h : Released ui w layout texts o) (hy : Between o y) :
    IsNearest texts.length layout.itemHeight
      ((ui.wheel w).currentItem * layout.itemHeight - (o - y)) (ui.wheel w).currentItem := by
  have hp : (ui.wheel w).currentItem * layout.itemHeight - o -
      (ui.wheel w).currentItem * layout.itemHeight = -o := by omega
  have hq : (ui.wheel w).currentItem * layout.itemHeight - (o - y) -
      (ui.wheel w).currentItem * layout.itemHeight = -(o - y) := by omega
  apply h.nearest.of_between h.drawn.itemHeight
  · rw [hp, hq, abs_neg, abs_neg, Int.abs_eq_natAbs, Int.abs_eq_natAbs]
    unfold Between at hy
    omega
  · rw [hp, hq, neg_mul_neg]
    rcases hy with ⟨h0, hle⟩ | ⟨hle, h0⟩
    · exact mul_nonneg (by omega) (by omega)
    · exact mul_nonneg_of_nonpos_of_nonpos (by omega) (by omega)

theorem follow_justifying {s : WheelScroller} (h : Released ui w layout texts o)
    (hy' : Between o y') : WheelScroller.follow w layout (y - y') ⟨s, justifying ui w o y⟩ =
      .ok () ⟨s, justifying ui w o y'⟩ := by
  unfold WheelScroller.follow
  split_ifs with hd
  · have he : y = y' := by omega
    rw [he]
    rfl
  · have hin := h.inside
    have hle : o - y' ≤ layout.height := by
      unfold Between at hy'
      omega
    have hge : -layout.height ≤ o - y' := by
      unfold Between at hy'
      omega
    have ha : ((justifying ui w o y).wheel w).viewAdapter = some (.ofTexts texts) := by
      simpa [justifying] using h.adapter
    have ho : ((justifying ui w o y).wheel w).scrollingOffset + (y - y') = o - y' := by
      simp only [justifying, UiState.wheel_setWheel_self]
      omega
    have hd := doScroll_stay ha h.drawn.itemHeight ho
      (by simpa [justifying] using h.nearest_between hy') hle
    have hc : WheelView.clampOffset layout.height (o - y') = o - y' := by
      rw [WheelView.clampOffset, if_neg (by omega), if_neg (by omega)]
    rw [WheelScroller.onScroll_eq, hd]
    simp [justifying, hc]

def animation (o c y : Int) : WheelScroller :=
  { scroller := ⟨c, o, false⟩, lastScrollY := y, isScrollingPerformed := true,
    messages := [.justify] }

def arrived (o : Int) : WheelScroller :=
  { scroller := ⟨o, o, true⟩, lastScrollY := o, isScrollingPerformed := false, messages := [] }

variable {c : Int} {st : TouchPanel}

theorem frame_moves (h : Released ui w layout texts o) (hy' : Between o y') (hne : y' ≠ o) :
    (st.withScrolling w ⟨animation o c y, justifying ui w o y⟩).step (.frame w layout y') =
      some (st.withScrolling w ⟨animation o y' y', justifying ui w o y'⟩) := by
  have hs : WheelScroller.handleMessage w layout y' .justify
      ⟨{ animation o c y with messages := [] }, justifying ui w o y⟩ =
        .ok () ⟨animation o y' y', justifying ui w o y'⟩ := by
    rw [WheelScroller.handleMessage_ok]
    refine ⟨_, h.follow_justifying hy', ?_⟩
    simp [Scrolling.checked, Scrolling.proceeded, WheelScroller.atFrame, animation,
      Scroller.computeScrollOffset, hne, Scrolling.mapScroller, WheelScroller.sendEmptyMessage]
  have hm : ((st.withScrolling w ⟨animation o c y, justifying ui w o y⟩).scrollers.get w).messages =
      [.justify] := by
    simp [TouchPanel.withScrolling, animation]
  rw [TouchPanel.frame_of_message hm (by simpa [TouchPanel.withScrolling] using hs)]
  simp

theorem frame_arrives (h : Released ui w layout texts o) :
    (st.withScrolling w ⟨animation o c y, justifying ui w o y⟩).step (.frame w layout o) =
      some (st.withScrolling w ⟨arrived o, centred ui w⟩) := by
  have ho : Between o o := by
    unfold Between
    omega
  have hs : WheelScroller.handleMessage w layout o .justify
      ⟨{ animation o c y with messages := [] }, justifying ui w o y⟩ =
        .ok () ⟨arrived o, centred ui w⟩ := by
    rw [WheelScroller.handleMessage_ok]
    refine ⟨_, h.follow_justifying ho, ?_⟩
    simp [Scrolling.checked, Scrolling.proceeded, Scrolling.finished, WheelScroller.atFrame,
      animation, Scroller.computeScrollOffset, Scrolling.mapScroller, WheelScroller.forceFinished,
      Scroller.forceFinished, arrived, centred, justifying, WheelView.onFinished]
  have hm : ((st.withScrolling w ⟨animation o c y, justifying ui w o y⟩).scrollers.get w).messages =
      [.justify] := by
    simp [TouchPanel.withScrolling, animation]
  rw [TouchPanel.frame_of_message hm (by simpa [TouchPanel.withScrolling] using hs)]
  simp

theorem frames_arrive (h : Released ui w layout texts o) (ys : List Int)
    (hys : ∀ y ∈ ys, Between o y ∧ y ≠ o) :
    run TouchPanel.step (st.withScrolling w ⟨animation o c y, justifying ui w o y⟩)
        (ys.map (TouchEvent.frame w layout) ++ [.frame w layout o]) =
      some (st.withScrolling w ⟨arrived o, centred ui w⟩) := by
  induction ys generalizing c y with
  | nil => exact run_cons_iff.mpr ⟨_, h.frame_arrives, rfl⟩
  | cons y' ys ih =>
    obtain ⟨hb, hne⟩ := hys y' (by simp)
    exact run_cons_iff.mpr ⟨_, h.frame_moves hb hne, ih (fun z hz => hys z (by simp [hz]))⟩

end Released

/-- A wheel a finger has dragged `o` pixels off the nearest of its items. -/
structure Held (st : TouchPanel) (w : WheelId) (layout : Layout) (texts : List String)
    (o : Int) : Prop where
  finger : st.fingers.get w = true
  stopped : (st.scrollers.get w).messages = []
  finished : (st.scrollers.get w).scroller.isFinished = true
  scrolling : (st.scrollers.get w).isScrollingPerformed = true
  flag : (st.ui.wheel w).isScrollingPerformed = true
  offset : (st.ui.wheel w).scrollingOffset = o
  released : Released st.ui w layout texts o

/-- The positions of the frames after a wheel was let go `o` pixels off its item. An offset
of a pixel starts no animation, there is one frame then. -/
def Settles (o : Int) (ys : List Int) : Prop :=
  (1 < o.natAbs ∧ ∃ zs, ys = zs ++ [o] ∧ ∀ y ∈ zs, Between o y ∧ y ≠ o) ∨
    (o.natAbs ≤ 1 ∧ ys.length = 1)

namespace Held
variable {st : TouchPanel} {w : WheelId} {layout : Layout} {texts : List String} {o : Int}

theorem step_up (h : Held st w layout texts o) {s : Scrolling}
    (hs : (st.scrolling w).justified w = s) :
    st.step (.touch w layout (.up none)) = some ((st.withFinger w false).withScrolling w s) := by
  have ha : (st.ui.wheel w).viewAdapter ≠ none := by simp [h.released.adapter]
  have hbegin : Touch.begins (.up none) = !st.fingers.get w := by
    rw [h.finger]
    rfl
  have hup : onWheelTouch w layout (.up none) (st.scrolling w) = .ok () s := by
    rw [WheelScroller.onWheelTouch_eq ha h.released.drawn.itemHeight.ne',
      WheelScroller.onTouchEvent, WheelScroller.justify_eq, hs]
  exact TouchPanel.touch_of_callback hbegin hup

theorem ui_eq (h : Held st w layout texts o) : justifying st.ui w o 0 = st.ui := by
  have hw : { st.ui.wheel w with
      scrollingOffset := o - 0, isScrollingPerformed := true } = st.ui.wheel w := by
    rw [Int.sub_zero, ← h.offset, ← h.flag]
  rw [justifying, hw, UiState.setWheel_wheel]

theorem justified_far (h : Held st w layout texts o) (ho : 1 < o.natAbs) :
    (st.scrolling w).justified w =
      ⟨Released.animation o (st.scrollers.get w).scroller.currY 0, justifying st.ui w o 0⟩ := by
  have hfar : ¬ ((st.scrolling w).offset w).natAbs ≤ 1 := by
    rw [Scrolling.offset, TouchPanel.scrolling, h.offset]
    omega
  rw [Scrolling.justified, if_neg hfar, h.ui_eq]
  simp [TouchPanel.scrolling, Scrolling.offset, Scrolling.started, Scrolling.mapScroller,
    WheelScroller.animate, WheelScroller.setNextMessage, WheelScroller.clearMessages,
    WheelScroller.removeMessages, WheelScroller.sendEmptyMessage, h.scrolling, h.stopped, h.offset,
    Scroller.start, Released.animation]

theorem justified_near (h : Held st w layout texts o) (ho : o.natAbs ≤ 1) :
    (st.scrolling w).justified w = ⟨{ st.scrollers.get w with messages := [.justify] }, st.ui⟩ := by
  have hnear : ((st.scrolling w).offset w).natAbs ≤ 1 := by
    rw [Scrolling.offset, TouchPanel.scrolling, h.offset]
    omega
  rw [Scrolling.justified, if_pos hnear]
  simp [TouchPanel.scrolling, Scrolling.mapScroller, WheelScroller.setNextMessage,
    WheelScroller.clearMessages, WheelScroller.removeMessages, WheelScroller.sendEmptyMessage,
    h.stopped]

/-- The one frame of a wheel that starts no animation. -/
theorem frame_near (h : Held st w layout texts o) (y : Int)
    (hl : (st.scrollers.get w).lastScrollY = (st.scrollers.get w).scroller.currY) (b : Bool) :
    ∃ s, s.ui = centred st.ui w ∧ s.scroller.messages = [] ∧
      ((st.withFinger w b).withScrolling w
        ⟨{ st.scrollers.get w with messages := [.justify] }, st.ui⟩).step (.frame w layout y) =
          some ((st.withFinger w b).withScrolling w s) := by
  let s0 : Scrolling := ⟨{ st.scrollers.get w with messages := [] }, st.ui⟩
  let mid := s0.mapScroller (WheelScroller.atFrame y)
  have hscroller : mid.scroller.scroller = (st.scrollers.get w).scroller := by
    simp [mid, s0, Scrolling.mapScroller, WheelScroller.atFrame, Scroller.computeScrollOffset,
      h.finished]
  have hdelta : s0.scroller.delta y = 0 := by
    simp [WheelScroller.delta, s0, Scroller.computeScrollOffset, h.finished, hl]
  have hfin : mid.checked.scroller.scroller.isFinished = true := by
    unfold Scrolling.checked
    split_ifs
    · rfl
    · rw [hscroller, h.finished]
  have hflag : mid.checked.scroller.isScrollingPerformed = true := by
    unfold Scrolling.checked
    split_ifs <;> exact h.scrolling
  have hui : mid.checked.ui = st.ui := by
    unfold Scrolling.checked
    split_ifs <;> rfl
  have hs : WheelScroller.handleMessage w layout y .justify s0 =
      .ok () (mid.checked.finished w) := by
    rw [WheelScroller.handleMessage_ok]
    refine ⟨mid, by rw [hdelta]; rfl, ?_⟩
    rw [Scrolling.proceeded, if_pos hfin, if_neg (by decide)]
  refine ⟨mid.checked.finished w, ?_, ?_, ?_⟩
  · rw [Scrolling.finished, if_pos hflag, hui]
    rfl
  · rw [Scrolling.messages_finished, Scrolling.messages_checked]
    rfl
  · have hm : (((st.withFinger w b).withScrolling w
        ⟨{ st.scrollers.get w with messages := [.justify] }, st.ui⟩).scrollers.get w).messages =
          [.justify] := by
      simp [TouchPanel.withScrolling]
    rw [TouchPanel.frame_of_message hm (by simpa [TouchPanel.withScrolling, s0] using hs)]
    simp

/-- A wheel let go without a fling ends on the item it was on, whatever frames it is drawn
in; nothing but the wheel changes, and nothing is posted. -/
theorem settles (h : Held st w layout texts o) {ys : List Int}
    (hy : Settles o ys)
    (hl : o.natAbs ≤ 1 → (st.scrollers.get w).lastScrollY = (st.scrollers.get w).scroller.currY) :
    ∃ s, s.ui = centred st.ui w ∧ s.scroller.messages = [] ∧
      run TouchPanel.step st (.touch w layout (.up none) :: ys.map (TouchEvent.frame w layout)) =
        some ((st.withFinger w false).withScrolling w s) := by
  rcases hy with ⟨ho, zs, rfl, hzs⟩ | ⟨ho, hlen⟩
  · refine ⟨⟨Released.arrived o, centred st.ui w⟩, rfl, rfl, ?_⟩
    rw [List.map_append]
    exact run_cons_iff.mpr ⟨_, h.step_up (h.justified_far ho), h.released.frames_arrive zs hzs⟩
  · obtain ⟨y, rfl⟩ := List.length_eq_one_iff.mp hlen
    obtain ⟨s, hui, hm, hs⟩ := h.frame_near y (hl ho) false
    exact ⟨s, hui, hm, run_cons_iff.mpr ⟨_, h.step_up (h.justified_near ho),
      run_cons_iff.mpr ⟨_, hs, rfl⟩⟩⟩

end Held

structure Touched (st : TouchPanel) (w : WheelId) (texts : List String) : Prop where
  finger : st.fingers.get w = true
  stopped : (st.scrollers.get w).messages = []
  finished : (st.scrollers.get w).scroller.isFinished = true
  flags : (st.ui.wheel w).isScrollingPerformed = (st.scrollers.get w).isScrollingPerformed
  adapter : (st.ui.wheel w).viewAdapter = some (.ofTexts texts)

namespace Touched
variable {st : TouchPanel} {w : WheelId} {layout : Layout} {texts : List String}

theorem move (h : Touched st w texts) (hne : texts ≠ []) (hl : layout.Drawn) {d : Int}
    (hd : d ≠ 0) : ∃ st', st.step (.touch w layout (.move d)) = some st' ∧
      Held st' w layout texts (st'.ui.wheel w).scrollingOffset ∧
      (st'.ui.wheel w).strip layout.itemHeight = clamp layout.top (layout.bottom texts.length)
        ((st.ui.wheel w).strip layout.itemHeight - d) ∧
      (st'.scrollers.get w).lastScrollY = (st.scrollers.get w).lastScrollY ∧
      (st'.scrollers.get w).scroller.currY = (st.scrollers.get w).scroller.currY := by
  have hn : (0 : Int) < texts.length := by
    have := List.length_pos_of_ne_nil hne
    omega
  let st0 := (st.scrolling w).started w
  have hflag0 : st0.scroller.isScrollingPerformed = true := by
    simp only [st0, Scrolling.started]
    split_ifs with hf
    · exact hf
    · rfl
  have hw0 : st0.ui.wheel w = { st.ui.wheel w with isScrollingPerformed := true } := by
    simp only [st0, Scrolling.started]
    split_ifs with hf
    · have hf' : (st.ui.wheel w).isScrollingPerformed = true := by
        rw [h.flags]
        exact hf
      rw [← hf']
      rfl
    · exact UiState.wheel_setWheel_self _ _ _
  have ha0 : (st0.ui.wheel w).viewAdapter = some (.ofTexts texts) := by
    rw [hw0]
    exact h.adapter
  obtain ⟨s, hs⟩ := WheelScroller.onScroll_no_raise d ha0 hl
  obtain ⟨hui, hsc⟩ := WheelScroller.onScroll_ok hs
  rw [onScroll_scrolledBy ha0 hne hl] at hui
  have hsw : s.ui.wheel w = (st0.ui.wheel w).scrolledBy texts.length layout d := by
    rw [← (EStateM.Result.ok.inj hui).2]
    simp [UiState.wheel_tasks]
  obtain ⟨hstrip, hnear⟩ := scrolledBy_nearest (st0.ui.wheel w) d hl hn
  have hinside := scrolledBy_inside (st0.ui.wheel w) d hl hn
  have hb : Touch.begins (.move d) = !st.fingers.get w := by
    rw [h.finger]
    rfl
  have htouch : onWheelTouch w layout (.move d) (st.scrolling w) = .ok () s := by
    have ha : ((st.scrolling w).ui.wheel w).viewAdapter ≠ none := by
      simp [TouchPanel.scrolling, h.adapter]
    rw [WheelScroller.onWheelTouch_eq ha hl.itemHeight.ne', WheelScroller.onTouchEvent_move hd]
    exact hs
  have hkeep : s.scroller.messages = [] ∧ s.scroller.scroller.isFinished = true ∧
      s.scroller.isScrollingPerformed = true ∧
      s.scroller.lastScrollY = (st.scrollers.get w).lastScrollY ∧
      s.scroller.scroller.currY = (st.scrollers.get w).scroller.currY := by
    have h0 : st0.scroller = { st.scrollers.get w with isScrollingPerformed := true } := by
      rw [← hflag0]
      simp only [st0, Scrolling.started]
      split_ifs <;> rfl
    rcases hsc with hsc | hsc
    · rw [hsc, h0]
      exact ⟨h.stopped, h.finished, rfl, rfl, rfl⟩
    · rw [hsc, h0]
      exact ⟨h.stopped, rfl, rfl, rfl, rfl⟩
  obtain ⟨hstopped, hfinished, hscrolling, hlast, hcurr⟩ := hkeep
  rw [← hsw] at hstrip hnear hinside
  refine ⟨_, TouchPanel.touch_of_callback hb htouch, ?_, ?_, ?_, ?_⟩
  · refine ⟨?_, ?_, ?_, ?_, ?_, rfl, hl, ?_, ?_, hinside⟩
    · simp [TouchPanel.withFinger, Touch.stays]
    · simpa [TouchPanel.withFinger, TouchPanel.withScrolling] using hstopped
    · simpa [TouchPanel.withFinger, TouchPanel.withScrolling] using hfinished
    · simpa [TouchPanel.withFinger, TouchPanel.withScrolling] using hscrolling
    · change (s.ui.wheel w).isScrollingPerformed = true
      rw [hsw, WheelView.scrolledBy, hw0]
    · change (s.ui.wheel w).viewAdapter = _
      rw [hsw]
      exact ha0
    · exact hnear
  · change (s.ui.wheel w).strip layout.itemHeight = _
    rw [hstrip, hw0]
    rfl
  · simpa [TouchPanel.withFinger, TouchPanel.withScrolling] using hlast
  · simpa [TouchPanel.withFinger, TouchPanel.withScrolling] using hcurr

end Touched

theorem Held.touched {st : TouchPanel} {w : WheelId} {layout : Layout} {texts : List String}
    {o : Int} (h : Held st w layout texts o) : Touched st w texts :=
  ⟨h.finger, h.stopped, h.finished, by rw [h.flag, h.scrolling], h.released.adapter⟩

namespace Touched
variable {st : TouchPanel} {w : WheelId} {layout : Layout} {texts : List String}

theorem moves (h : Touched st w texts) (hne : texts ≠ []) (hl : layout.Drawn) {ds : List Int}
    (hd : ∀ d ∈ ds, d ≠ 0) (hds : ds ≠ []) : ∃ st',
      run TouchPanel.step st (ds.map fun d => .touch w layout (.move d)) = some st' ∧
      Held st' w layout texts (st'.ui.wheel w).scrollingOffset ∧
      (st'.ui.wheel w).strip layout.itemHeight = walk layout.top (layout.bottom texts.length)
        ((st.ui.wheel w).strip layout.itemHeight) ds ∧
      (st'.scrollers.get w).lastScrollY = (st.scrollers.get w).lastScrollY ∧
      (st'.scrollers.get w).scroller.currY = (st.scrollers.get w).scroller.currY := by
  induction ds generalizing st with
  | nil => exact absurd rfl hds
  | cons d ds ih =>
    obtain ⟨st1, h1, hheld, hstrip, hlast, hcurr⟩ := h.move hne hl (hd d (by simp))
    by_cases hnil : ds = []
    · subst hnil
      exact ⟨st1, run_cons_iff.mpr ⟨st1, h1, rfl⟩, hheld, by simp [hstrip], hlast, hcurr⟩
    · obtain ⟨st2, h2, hheld2, hwalk, hlast2, hcurr2⟩ :=
        ih hheld.touched (fun e he => hd e (by simp [he])) hnil
      refine ⟨st2, run_cons_iff.mpr ⟨st1, h1, h2⟩, hheld2, ?_, hlast2.trans hlast,
        hcurr2.trans hcurr⟩
      rw [hwalk, hstrip, walk_cons]

theorem down {us : List TouchEvent} (layout : Layout) (hus : run TouchPanel.step {} us = some st)
    (hf : st.fingers.get w = false)
    (ha : (st.ui.wheel w).viewAdapter = some (.ofTexts texts)) : ∃ st',
      st.step (.touch w layout .down) = some st' ∧ Touched st' w texts ∧ st'.ui = st.ui ∧
      (st'.scrollers.get w).lastScrollY = (st.scrollers.get w).lastScrollY ∧
      (st'.scrollers.get w).scroller.currY = (st.scrollers.get w).scroller.currY := by
  have hflags : (st.ui.wheel w).isScrollingPerformed =
      (st.scrollers.get w).isScrollingPerformed := (TouchPanel.steady_run hus w).flags
  have hb : Touch.begins .down = !st.fingers.get w := by
    rw [hf]
    rfl
  have hdown : onWheelTouch w layout .down (st.scrolling w) =
      .ok () ((st.scrolling w).mapScroller fun s => s.forceFinished.clearMessages) :=
    WheelScroller.onWheelTouch_down (by simp [TouchPanel.scrolling, ha])
  refine ⟨_, TouchPanel.touch_of_callback hb hdown, ?_, rfl, ?_, ?_⟩
  · refine ⟨?_, ?_, ?_, ?_, ha⟩
    · simp [TouchPanel.withFinger, Touch.stays]
    · simp [TouchPanel.withFinger, TouchPanel.withScrolling, Scrolling.mapScroller]
    · simp [TouchPanel.withFinger, TouchPanel.withScrolling, Scrolling.mapScroller,
        WheelScroller.clearMessages, WheelScroller.removeMessages, WheelScroller.forceFinished,
        Scroller.forceFinished]
    · simpa [TouchPanel.withFinger, TouchPanel.withScrolling, Scrolling.mapScroller,
        WheelScroller.clearMessages, WheelScroller.removeMessages, WheelScroller.forceFinished,
        TouchPanel.scrolling] using hflags
  · simp [TouchPanel.withFinger, TouchPanel.withScrolling, Scrolling.mapScroller,
      WheelScroller.clearMessages, WheelScroller.removeMessages, WheelScroller.forceFinished,
      TouchPanel.scrolling]
  · simp [TouchPanel.withFinger, TouchPanel.withScrolling, Scrolling.mapScroller,
      WheelScroller.clearMessages, WheelScroller.removeMessages, WheelScroller.forceFinished,
      Scroller.forceFinished, TouchPanel.scrolling]

end Touched

/-- A drag without a fling, begun at any moment of any run, ends on the item nearest to
where its moves pulled the strip, centred and at rest, however its last animation runs. Let go
within a pixel of the item it does so unless it began by stopping an animation that had drawn
nothing yet. -/
theorem drag_selects_nearest {us : List TouchEvent} {m : TouchPanel} {w : WheelId}
    {layout : Layout} {texts : List String} {ds : List Int}
    (hus : run TouchPanel.step {} us = some m) (hf : m.fingers.get w = false)
    (ha : (m.ui.wheel w).viewAdapter = some (.ofTexts texts)) (hne : texts ≠ [])
    (hl : layout.Drawn) (hd : ∀ d ∈ ds, d ≠ 0) (hds : ds ≠ []) : ∃ i,
      let p := walk layout.top (layout.bottom texts.length)
        ((m.ui.wheel w).strip layout.itemHeight) ds
      IsNearest texts.length layout.itemHeight p i ∧
      ∀ ys, Settles (i * layout.itemHeight - p) ys →
        ((i * layout.itemHeight - p).natAbs ≤ 1 →
          (m.scrollers.get w).lastScrollY = (m.scrollers.get w).scroller.currY) → ∃ st,
        run TouchPanel.step m (.touch w layout .down ::
          (ds.map fun d => .touch w layout (.move d)) ++
          .touch w layout (.up none) :: ys.map (TouchEvent.frame w layout)) = some st ∧
        (st.ui.wheel w).currentItem = i ∧ (st.ui.wheel w).scrollingOffset = 0 ∧
        (st.ui.wheel w).isScrolling = false ∧ (st.scrollers.get w).messages = [] := by
  obtain ⟨m1, h1, htouched, hui, hlast1, hcurr1⟩ := Touched.down layout hus hf ha
  obtain ⟨m2, h2, hheld, hwalk, hlast2, hcurr2⟩ := htouched.moves hne hl hd hds
  rw [hui] at hwalk
  have ho : (m2.ui.wheel w).scrollingOffset =
      (m2.ui.wheel w).currentItem * layout.itemHeight -
        (m2.ui.wheel w).strip layout.itemHeight := by
    rw [WheelView.strip]
    omega
  refine ⟨(m2.ui.wheel w).currentItem, ?_, ?_⟩
  · rw [← hwalk]
    exact hheld.released.nearest
  · intro ys hys hl0
    rw [← hwalk, ← ho] at hys hl0
    obtain ⟨s, hsui, hsm, hs⟩ := hheld.settles hys fun hsmall => by
      rw [hlast2, hcurr2, hlast1, hcurr1]
      exact hl0 hsmall
    refine ⟨_, run_cons_iff.mpr ⟨m1, h1, run_append_iff.mpr ⟨m2, h2, hs⟩⟩, ?_, ?_, ?_, ?_⟩
    · rw [TouchPanel.ui_withScrolling, hsui, centred, UiState.wheel_setWheel_self]
    · rw [TouchPanel.ui_withScrolling, hsui, centred, UiState.wheel_setWheel_self]
    · rw [TouchPanel.ui_withScrolling, hsui, centred, UiState.wheel_setWheel_self]
      rfl
    · simpa [TouchPanel.withScrolling] using hsm

theorem drag_selects_nearest_first : ∃ m i,
    run TouchPanel.step {} [.status threeApertureStatus] = some m ∧ IsNearest 3 40 30 i ∧
    ∀ ys, Settles (i * 40 - 30) ys → ∃ st,
      run TouchPanel.step m (.touch .aperture ⟨40, 200⟩ .down ::
        [.touch .aperture ⟨40, 200⟩ (.move (-30))] ++ .touch .aperture ⟨40, 200⟩ (.up none) ::
          ys.map (TouchEvent.frame .aperture ⟨40, 200⟩)) = some st ∧
      (st.ui.wheel .aperture).currentItem = i ∧ (st.ui.wheel .aperture).scrollingOffset = 0 ∧
      (st.ui.wheel .aperture).isScrolling = false ∧
      (st.scrollers.get .aperture).messages = [] := by
  let m := (run TouchPanel.step {} [.status threeApertureStatus]).get (by decide)
  have hus : run TouchPanel.step {} [.status threeApertureStatus] = some m :=
    (Option.some_get _).symm
  have ha : (m.ui.wheel .aperture).viewAdapter = some (.ofTexts ["f/2", "f/4", "f/8"]) := by
    decide
  have hl : Layout.Drawn ⟨40, 200⟩ := ⟨by decide, by decide⟩
  have hd : ∀ d ∈ [(-30 : Int)], d ≠ 0 := by decide
  obtain ⟨i, hi, hrun⟩ := drag_selects_nearest hus (by decide) ha (by decide) hl hd (by decide)
  exact ⟨m, i, hus, hi, fun ys hys => hrun ys hys fun _ => by decide⟩

end CameraClient
