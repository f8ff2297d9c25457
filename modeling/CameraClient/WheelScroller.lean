import CameraClient.Lib.StateError
import CameraClient.WheelStrip

/-! The scroller behind a wheel: touches drag the wheel and start or stop its
animations, the messages of `animationHandler` drive them. Where a running
`android.widget.Scroller` is at a frame, where a fling will end and how far a move
went in whole pixels come with the event; all of them stay within an `int`. -/
namespace CameraClient
open Runs

/-- What the wheel reads of its `android.widget.Scroller`. -/
structure Scroller where
  currY : Int := 0
  finalY : Int := 0
  isFinished : Bool := true
  deriving DecidableEq, Repr

namespace Scroller

def forceFinished (s : Scroller) : Scroller := { s with isFinished := true }

/-- `startScroll` and `fling` from 0; where the last animation was stays readable. -/
def start (s : Scroller) (finalY : Int) : Scroller := { s with finalY := finalY, isFinished := false }

def computeScrollOffset (s : Scroller) (position : Int) : Scroller :=
  if s.isFinished then s else { s with currY := position }

end Scroller

/-- `MESSAGE_SCROLL` and `MESSAGE_JUSTIFY`. -/
inductive AnimationMessage where
  | scroll
  | justify
  deriving DecidableEq, Repr

structure WheelScroller where
  scroller : Scroller := {}
  lastScrollY : Int := 0
  isScrollingPerformed : Bool := false
  messages : List AnimationMessage := []
  deriving DecidableEq, Repr

structure Scrolling where
  scroller : WheelScroller
  ui : UiState
  deriving DecidableEq, Repr

abbrev Scroll := EStateM JavaException Scrolling

def onUi {α : Type} (x : Ui α) : Scroll α := fun st =>
  match x st.ui with
  | .ok a ui => .ok a { st with ui := ui }
  | .error e ui => .error e { st with ui := ui }

/-- What a finger does to a wheel. A released wheel may go on to the final position
of a fling. -/
inductive Touch where
  | down
  | move (distanceY : Int)
  | up (fling : Option Int)
  | cancel
  deriving DecidableEq, Repr

def Touch.isUp : Touch → Bool
  | up _ => true
  | _ => false

namespace WheelScroller

def MIN_DELTA_FOR_SCROLLING : Int := 1

def forceFinished (s : WheelScroller) : WheelScroller := { s with scroller := s.scroller.forceFinished }

def removeMessages (message : AnimationMessage) (s : WheelScroller) : WheelScroller :=
  { s with messages := s.messages.filter (· ≠ message) }

def clearMessages (s : WheelScroller) : WheelScroller :=
  (s.removeMessages .scroll).removeMessages .justify

def sendEmptyMessage (message : AnimationMessage) (s : WheelScroller) : WheelScroller :=
  { s with messages := s.messages ++ [message] }

def setNextMessage (message : AnimationMessage) (s : WheelScroller) : WheelScroller :=
  s.clearMessages.sendEmptyMessage message

def animate (finalY : Int) (s : WheelScroller) : WheelScroller :=
  { s with lastScrollY := 0, scroller := s.scroller.start finalY }.setNextMessage .scroll

def modifyScroller (f : WheelScroller → WheelScroller) : Scroll Unit :=
  modify fun st => { st with scroller := f st.scroller }

def stopScrolling : Scroll Unit := modifyScroller forceFinished

def startScrolling (w : WheelId) : Scroll Unit := do
  unless (← get).scroller.isScrollingPerformed do
    modifyScroller fun s => { s with isScrollingPerformed := true }
    onUi (onScrollStarted w)

def finishScrolling (w : WheelId) : Scroll Unit := do
  if (← get).scroller.isScrollingPerformed then
    onUi (onScrollFinished w)
    modifyScroller fun s => { s with isScrollingPerformed := false }

def scroll (w : WheelId) (distance : Int) : Scroll Unit := do
  modifyScroller forceFinished
  modifyScroller (animate distance)
  startScrolling w

/-- The wheel's `onScroll`, which stops the scroller where it clamps the offset. -/
def onScroll (w : WheelId) (layout : Layout) (distance : Int) : Scroll Unit := do
  onUi (doScroll w layout distance)
  let offset := ((← get).ui.wheel w).scrollingOffset
  if offset > layout.height then
    onUi (setScrollingOffset w layout.height)
    stopScrolling
  else if offset < -layout.height then
    onUi (setScrollingOffset w (-layout.height))
    stopScrolling

def onJustify (w : WheelId) : Scroll Unit := do
  let offset := ((← get).ui.wheel w).scrollingOffset
  if (offset.natAbs : Int) > MIN_DELTA_FOR_SCROLLING then
    scroll w offset

def justify (w : WheelId) : Scroll Unit := do
  onJustify w
  modifyScroller (setNextMessage .justify)

/-- The parts of `handleMessage`: the wheel follows the position, the scroller is finished
by hand where it comes to its final position, and the next message is chosen. -/
def follow (w : WheelId) (layout : Layout) (delta : Int) : Scroll Unit :=
  if delta = 0 then pure () else onScroll w layout delta

def finishAt (currY : Int) : Scroll Unit := do
  if ((currY - (← get).scroller.scroller.finalY).natAbs : Int) < MIN_DELTA_FOR_SCROLLING then
    modifyScroller forceFinished

def proceed (w : WheelId) (message : AnimationMessage) : Scroll Unit := do
  if ¬ (← get).scroller.scroller.isFinished then
    modifyScroller (sendEmptyMessage message)
  else if message = .scroll then
    justify w
  else
    finishScrolling w

def handleMessage (w : WheelId) (layout : Layout) (position : Int) (message : AnimationMessage) :
    Scroll Unit := do
  modifyScroller fun s => { s with scroller := s.scroller.computeScrollOffset position }
  let currY := (← get).scroller.scroller.currY
  let delta := (← get).scroller.lastScrollY - currY
  modifyScroller fun s => { s with lastScrollY := currY }
  follow w layout delta
  finishAt currY
  proceed w message

/-- `onTouchEvent` with its gesture listener, which recognises flings only. -/
def onTouchEvent (w : WheelId) (layout : Layout) : Touch → Scroll Unit
  | .down => do
    modifyScroller forceFinished
    modifyScroller clearMessages
  | .move distanceY => do
    unless distanceY = 0 do
      startScrolling w
      onScroll w layout distanceY
  | .up (some finalY) => modifyScroller (animate finalY)
  | .up none => justify w
  | .cancel => pure ()

end WheelScroller

/-- The wheel's own `onTouchEvent`. No clicking listener is registered; what is left
of a click is the division by the item height. -/
def onWheelTouch (w : WheelId) (layout : Layout) (touch : Touch) : Scroll Unit := do
  let v := (← get).ui.wheel w
  if v.viewAdapter = none then
    pure ()
  else do
    if touch.isUp ∧ ¬ v.isScrolling then
      discard (onUi (divisor layout.itemHeight))
    WheelScroller.onTouchEvent w layout touch

namespace Scrolling

def mapScroller (f : WheelScroller → WheelScroller) (st : Scrolling) : Scrolling :=
  { st with scroller := f st.scroller }

def offset (st : Scrolling) (w : WheelId) : Int := (st.ui.wheel w).scrollingOffset

def started (st : Scrolling) (w : WheelId) : Scrolling :=
  if st.scroller.isScrollingPerformed then st
  else ⟨{ st.scroller with isScrollingPerformed := true },
    st.ui.setWheel w (st.ui.wheel w).onStarted⟩

def finished (st : Scrolling) (w : WheelId) : Scrolling :=
  if st.scroller.isScrollingPerformed then
    ⟨{ st.scroller with isScrollingPerformed := false },
      st.ui.setWheel w (st.ui.wheel w).onFinished⟩
  else st

def justified (st : Scrolling) (w : WheelId) : Scrolling :=
  if (st.offset w).natAbs ≤ 1 then st.mapScroller (WheelScroller.setNextMessage .justify)
  else ((st.mapScroller (WheelScroller.animate (st.offset w))).started w).mapScroller
    (WheelScroller.setNextMessage .justify)

def checked (st : Scrolling) : Scrolling :=
  if st.scroller.scroller.currY = st.scroller.scroller.finalY then
    st.mapScroller WheelScroller.forceFinished
  else st

def proceeded (st : Scrolling) (w : WheelId) (message : AnimationMessage) : Scrolling :=
  if st.scroller.scroller.isFinished then
    if message = .scroll then st.justified w else st.finished w
  else st.mapScroller (WheelScroller.sendEmptyMessage message)

end Scrolling

namespace WheelScroller
open StateError
variable {w : WheelId} {st st' : Scrolling} {layout : Layout}

@[simp] theorem modifyScroller_apply (f : WheelScroller → WheelScroller) (st : Scrolling) :
    modifyScroller f st = .ok () (st.mapScroller f) := rfl

theorem startScrolling_eq (w : WheelId) (st : Scrolling) :
    startScrolling w st = .ok () (st.started w) := by
  by_cases h : st.scroller.isScrollingPerformed = true
  · simp [startScrolling, Scrolling.started, h]
  · simp [startScrolling, Scrolling.started, h, onUi, onScrollStarted, Scrolling.mapScroller]

theorem finishScrolling_eq (w : WheelId) (st : Scrolling) :
    finishScrolling w st = .ok () (st.finished w) := by
  by_cases h : st.scroller.isScrollingPerformed = true
  · simp [finishScrolling, Scrolling.finished, h, onUi, onScrollFinished, Scrolling.mapScroller]
  · simp [finishScrolling, Scrolling.finished, h]

theorem scroll_eq (w : WheelId) (distance : Int) (st : Scrolling) :
    scroll w distance st = .ok () ((st.mapScroller (animate distance)).started w) := by
  simp only [scroll, bind_apply, modifyScroller_apply, startScrolling_eq]
  rfl

theorem justify_eq (w : WheelId) (st : Scrolling) : justify w st = .ok () (st.justified w) := by
  simp only [justify, onJustify, bind_apply, get_apply, Scrolling.justified]
  by_cases h : (st.offset w).natAbs ≤ 1
  · have hn : ¬ ((st.ui.wheel w).scrollingOffset.natAbs : Int) > MIN_DELTA_FOR_SCROLLING := by
      simp only [Scrolling.offset] at h
      simp only [MIN_DELTA_FOR_SCROLLING]
      omega
    rw [if_neg hn, if_pos h]
    rfl
  · have hn : ((st.ui.wheel w).scrollingOffset.natAbs : Int) > MIN_DELTA_FOR_SCROLLING := by
      simp only [Scrolling.offset] at h
      simp only [MIN_DELTA_FOR_SCROLLING]
      omega
    rw [if_pos hn, if_neg h, scroll_eq]
    rfl

theorem onScroll_eq (w : WheelId) (layout : Layout) (distance : Int) (st : Scrolling) :
    onScroll w layout distance st =
      match doScroll w layout distance st.ui with
      | .ok _ ui =>
        let offset := (ui.wheel w).scrollingOffset
        let clamped := WheelView.clampOffset layout.height offset
        .ok () ⟨if clamped = offset then st.scroller else st.scroller.forceFinished,
          ui.setWheel w { ui.wheel w with scrollingOffset := clamped }⟩
      | .error e ui => .error e { st with ui := ui } := by
  simp only [onScroll, bind_apply, onUi]
  cases doScroll w layout distance st.ui with
  | error e ui => rfl
  | ok a ui =>
    simp only [get_apply]
    by_cases h1 : (ui.wheel w).scrollingOffset > layout.height
    · have hc : WheelView.clampOffset layout.height (ui.wheel w).scrollingOffset =
          layout.height := if_pos h1
      simp [hc, h1, h1.ne, setScrollingOffset, stopScrolling, Scrolling.mapScroller, onUi]
    · by_cases h2 : (ui.wheel w).scrollingOffset < -layout.height
      · have hc : WheelView.clampOffset layout.height (ui.wheel w).scrollingOffset =
            -layout.height := by rw [WheelView.clampOffset, if_neg h1, if_pos h2]
        simp [hc, h1, h2, h2.ne', setScrollingOffset, stopScrolling, Scrolling.mapScroller, onUi]
      · have hc : WheelView.clampOffset layout.height (ui.wheel w).scrollingOffset =
            (ui.wheel w).scrollingOffset := by
          rw [WheelView.clampOffset, if_neg h1, if_neg h2]
        simp [hc, h1, h2]
        exact (ui.setWheel_wheel w).symm

theorem onScroll_ok {distance : Int} (h : onScroll w layout distance st = .ok () st') :
    CameraClient.onScroll w layout distance st.ui = .ok () st'.ui ∧
      (st'.scroller = st.scroller ∨ st'.scroller = st.scroller.forceFinished) := by
  rw [onScroll_eq] at h
  cases hd : doScroll w layout distance st.ui with
  | error e ui => simp [hd] at h
  | ok a ui =>
    simp only [hd] at h
    cases h
    constructor
    · rw [CameraClient.onScroll, Ui.bind_ok hd]
      rfl
    · dsimp only
      split_ifs
      · exact Or.inl rfl
      · exact Or.inr rfl

theorem follow_scroller {distance : Int} (h : follow w layout distance st = .ok () st') :
    st'.scroller = st.scroller ∨ st'.scroller = st.scroller.forceFinished := by
  unfold follow at h
  split_ifs at h
  · cases h
    exact Or.inl rfl
  · exact (onScroll_ok h).2

theorem proceed_eq (w : WheelId) (message : AnimationMessage) (st : Scrolling) :
    proceed w message st = .ok () (st.proceeded w message) := by
  simp only [proceed, bind_apply, get_apply, Scrolling.proceeded]
  by_cases hf : st.scroller.scroller.isFinished = true
  · simp only [hf, not_true_eq_false, if_false, if_true]
    split_ifs
    · exact justify_eq w st
    · exact finishScrolling_eq w st
  · simp [hf]

theorem finishAt_eq (st : Scrolling) : finishAt st.scroller.scroller.currY st = .ok () st.checked := by
  simp only [finishAt, bind_apply, get_apply, Scrolling.checked]
  by_cases hy : st.scroller.scroller.currY = st.scroller.scroller.finalY
  · simp [hy, MIN_DELTA_FOR_SCROLLING]
  · have hn : ¬ ((st.scroller.scroller.currY - st.scroller.scroller.finalY).natAbs : Int) <
        MIN_DELTA_FOR_SCROLLING := by
      simp only [MIN_DELTA_FOR_SCROLLING]
      omega
    rw [if_neg hn, if_neg hy]
    rfl

def atFrame (position : Int) (s : WheelScroller) : WheelScroller :=
  { s with
    scroller := s.scroller.computeScrollOffset position
    lastScrollY := (s.scroller.computeScrollOffset position).currY }

def delta (position : Int) (s : WheelScroller) : Int :=
  s.lastScrollY - (s.scroller.computeScrollOffset position).currY

theorem handleMessage_ok {position : Int} {message : AnimationMessage} :
    handleMessage w layout position message st = .ok () st' ↔
      ∃ mid, follow w layout (st.scroller.delta position) (st.mapScroller (atFrame position)) =
        .ok () mid ∧ st' = mid.checked.proceeded w message := by
  have hform : handleMessage w layout position message st =
      (follow w layout (st.scroller.delta position) >>= fun _ =>
        finishAt (st.scroller.scroller.computeScrollOffset position).currY >>= fun _ =>
          proceed w message) (st.mapScroller (atFrame position)) := by
    simp only [handleMessage, bind_apply, modifyScroller_apply, get_apply]
    rfl
  have hy {mid : Scrolling} (hf : follow w layout (st.scroller.delta position)
      (st.mapScroller (atFrame position)) = .ok () mid) :
      (st.scroller.scroller.computeScrollOffset position).currY =
        mid.scroller.scroller.currY := by
    rcases follow_scroller hf with hs | hs
    · rw [hs]
      rfl
    · rw [hs]
      rfl
  rw [hform, bind_eq_ok]
  constructor
  · intro ⟨_, mid, hf, h⟩
    rw [hy hf, bind_ok (finishAt_eq mid), proceed_eq] at h
    cases h
    exact ⟨mid, hf, rfl⟩
  · intro ⟨mid, hf, h⟩
    exact ⟨(), mid, hf, by rw [hy hf, bind_ok (finishAt_eq mid), proceed_eq, h]⟩

theorem onScroll_no_raise (distance : Int) {texts : List String}
    (ha : (st.ui.wheel w).viewAdapter = some (.ofTexts texts)) (hl : layout.Drawn) :
    ∃ st', onScroll w layout distance st = .ok () st' := by
  obtain ⟨ui, hui⟩ := CameraClient.onScroll_no_raise distance ha hl
  rw [CameraClient.onScroll, Ui.bind_eq_ok] at hui
  obtain ⟨_, ui1, hd, -⟩ := hui
  rw [onScroll_eq, hd]
  exact ⟨_, rfl⟩

theorem handleMessage_no_raise (position : Int) (message : AnimationMessage) {texts : List String}
    (ha : (st.ui.wheel w).viewAdapter = some (.ofTexts texts)) (hl : layout.Drawn) :
    ∃ st', handleMessage w layout position message st = .ok () st' := by
  have hfollow : ∃ mid, follow w layout (st.scroller.delta position)
      (st.mapScroller (atFrame position)) = .ok () mid := by
    unfold follow
    split_ifs
    · exact ⟨_, rfl⟩
    · exact onScroll_no_raise _ ha hl
  obtain ⟨mid, hf⟩ := hfollow
  exact ⟨_, handleMessage_ok.mpr ⟨mid, hf, rfl⟩⟩

@[simp] theorem messages_clearMessages (s : WheelScroller) : s.clearMessages.messages = [] := by
  simp only [clearMessages, removeMessages, List.filter_filter, List.filter_eq_nil_iff]
  intro m _
  cases m <;> simp

@[simp] theorem messages_setNextMessage (m : AnimationMessage) (s : WheelScroller) :
    (setNextMessage m s).messages = [m] := by
  simp [setNextMessage, sendEmptyMessage]

theorem onTouchEvent_move_zero (w : WheelId) (layout : Layout) (st : Scrolling) :
    onTouchEvent w layout (.move 0) st = .ok () st := by
  simp [onTouchEvent]

theorem onTouchEvent_move {d : Int} (hd : d ≠ 0) (w : WheelId) (layout : Layout) (st : Scrolling) :
    onTouchEvent w layout (.move d) st = onScroll w layout d (st.started w) := by
  simp [onTouchEvent, hd, startScrolling_eq]

theorem onWheelTouch_eq {touch : Touch} (ha : (st.ui.wheel w).viewAdapter ≠ none)
    (hh : layout.itemHeight ≠ 0) :
    onWheelTouch w layout touch st = onTouchEvent w layout touch st := by
  simp only [onWheelTouch, bind_apply, get_apply, if_neg ha]
  split_ifs
  · simp [onUi, divisor, hh, discard, Functor.discard, Functor.mapConst, EStateM.map]
  · rfl

theorem onWheelTouch_down (ha : (st.ui.wheel w).viewAdapter ≠ none) :
    onWheelTouch w layout .down st =
      .ok () (st.mapScroller fun s => s.forceFinished.clearMessages) := by
  simp only [onWheelTouch, bind_apply, get_apply]
  rw [if_neg ha, if_neg (by simp [Touch.isUp])]
  rfl

theorem onWheelTouch_ok {touch : Touch} (h : onWheelTouch w layout touch st = .ok () st') :
    ((st.ui.wheel w).viewAdapter = none ∧ st' = st) ∨
      ((st.ui.wheel w).viewAdapter ≠ none ∧ onTouchEvent w layout touch st = .ok () st') := by
  simp only [onWheelTouch, bind_apply, get_apply] at h
  by_cases ha : (st.ui.wheel w).viewAdapter = none
  · rw [if_pos ha] at h
    cases h
    exact Or.inl ⟨ha, rfl⟩
  · rw [if_neg ha] at h
    right
    refine ⟨ha, ?_⟩
    by_cases hc : touch.isUp = true ∧ ¬ (st.ui.wheel w).isScrolling = true
    · rw [if_pos hc] at h
      obtain ⟨_, st1, hd, h⟩ := bind_eq_ok.mp h
      have hst : st1 = st := by
        by_cases hz : layout.itemHeight = 0
        · simp [onUi, divisor, hz, discard, Functor.discard, Functor.mapConst, EStateM.map] at hd
        · simp [onUi, divisor, hz, discard, Functor.discard, Functor.mapConst, EStateM.map] at hd
          exact hd.symm
      rw [hst] at h
      exact h
    · rw [if_neg hc] at h
      exact h

end WheelScroller

end CameraClient
