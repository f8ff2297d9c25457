import CameraClient.Lib.Runs
import CameraClient.StatusEffect

/-! The four wheels under status deliveries and user scrolls, in any order.
Every lemma about such runs rests on two facts: what a status makes of a wheel
(`FullStatus.showOn`) and what a wheel event can do (`WheelEvent.callback_ok`).
Distances and offsets are unbounded here: a step leaves an offset within the height of
the wheel, and what a finger or a fling scrolls by stays within an `int`. -/
namespace CameraClient
open Runs

/-- What the user does to a wheel. `moved` is an item change as such, `scrolled`
one step of a drag or of its animation. -/
inductive WheelEvent where
  | started (w : WheelId)
  | moved (w : WheelId) (index : Int)
  | scrolled (w : WheelId) (layout : Layout) (distance : Int)
  | finished (w : WheelId)
  deriving DecidableEq, Repr

namespace WheelEvent

def wheel : WheelEvent → WheelId
  | started w => w
  | moved w _ => w
  | scrolled w _ _ => w
  | finished w => w

def callback : WheelEvent → Ui Unit
  | started w => onScrollStarted w
  | moved w index => setCurrentItem w index
  | scrolled w layout distance => onScroll w layout distance
  | finished w => onScrollFinished w

/-- `onTouchEvent` ignores a wheel without adapter. A move goes to an index of
the adapter other than the current one. -/
def Enabled (st : UiState) : WheelEvent → Prop
  | started w => (st.wheel w).viewAdapter ≠ none
  | moved w index =>
    (st.wheel w).checkedIndex index = some index ∧ index ≠ (st.wheel w).currentItem
  | scrolled w _ _ => (st.wheel w).viewAdapter ≠ none
  | finished _ => True

instance (st : UiState) (e : WheelEvent) : Decidable (e.Enabled st) := by
  cases e <;> unfold Enabled <;> infer_instance

end WheelEvent

inductive PanelEvent where
  | status (s : FullStatus)
  | wheel (e : WheelEvent)
  deriving DecidableEq, Repr

/-- The state a callback leaves; `none` when an exception escaped it, which
ends the process. -/
def Ui.outcome (x : Ui Unit) (st : UiState) : Option UiState :=
  match x st with
  | .ok _ st' => some st'
  | .error _ _ => none

def panelStep (st : UiState) : PanelEvent → Option UiState
  | .status s => (updateStatus s.toCameraStatus).outcome st
  | .wheel e => if e.Enabled st then e.callback.outcome st else none

def latest (last : Option FullStatus) : PanelEvent → Option FullStatus
  | .status s => some s
  | .wheel _ => last

def lastStatus (es : List PanelEvent) : Option FullStatus := es.foldl latest none

def posted (st st' : UiState) : List Task := st'.tasks.drop st.tasks.length

def sampleStatus (apertures : List String) (aperture : String) (isos : List String) (iso : String) :
    FullStatus where
  captureMode := .photo
  values := ⟨aperture, "1/60", "M", iso⟩
  lists := ⟨apertures, ["1/60"], ["M"], isos⟩
  isoAuto := false
  isInLiveView := false
  isRecording := false

theorem Ui.outcome_eq_some {x : Ui Unit} {st st' : UiState} :
    x.outcome st = some st' ↔ x st = .ok () st' := by
  unfold Ui.outcome
  cases x st <;> simp

theorem panelStep_status {st st' : UiState} {s : FullStatus}
    (h : panelStep st (.status s) = some st') :
    st' = { st with activity := s.applyTo st.activity } := by
  rw [panelStep, Ui.outcome_eq_some, updateStatus_full] at h
  simpa using h.symm

theorem panelStep_status_eq (st : UiState) (s : FullStatus) :
    panelStep st (.status s) = some { st with activity := s.applyTo st.activity } := by
  rw [panelStep, Ui.outcome_eq_some, updateStatus_full]

theorem wheel_applyTo (st : UiState) (s : FullStatus) (w : WheelId) :
    ({ st with activity := s.applyTo st.activity } : UiState).wheel w = s.showOn w (st.wheel w) := by
  simp [UiState.wheel, FullStatus.applyTo]

theorem panelStep_wheel {st st' : UiState} {e : WheelEvent}
    (h : panelStep st (.wheel e) = some st') : e.Enabled st ∧ e.callback st = .ok () st' := by
  by_cases he : e.Enabled st
  · exact ⟨he, by simpa [panelStep, he, Ui.outcome_eq_some] using h⟩
  · simp [panelStep, he] at h

def WheelView.scrolledTo (v : WheelView) (offset : Int) (scrolling : Bool) : WheelView :=
  { v with scrollingOffset := offset, isScrollingPerformed := scrolling }

structure MovesTo (st st' : UiState) (w : WheelId) (i : Int) (text : String) : Prop where
  adapter : ∃ adapter, (st.wheel w).viewAdapter = some adapter ∧ 0 ≤ i ∧
    i < adapter.getItemsCount ∧ adapter.items[i.toNat]? = some (some text)
  changed : i ≠ (st.wheel w).currentItem
  state : ∃ offset scrolling, st' = { st.setWheel w
      (((st.wheel w).movedTo i).scrolledTo offset scrolling) with
    tasks := st.tasks ++ posts st w text }

theorem setCurrentItem_ok {st st' : UiState} {w : WheelId} {i : Int}
    (h : setCurrentItem w i st = .ok () st') :
    st' = st ∨ ∃ text, MovesTo st st' w i text := by
  rcases (st.wheel w).setCurrentItem_cases i with ⟨-, hs⟩ | ⟨hc, hne, -⟩
  · rw [setCurrentItem_stay hs] at h
    exact .inl (by simpa using h.symm)
  · obtain ⟨-, h0, adapter, ha, hi⟩ := WheelView.checkedIndex_eq_some hc
    have hlt : i.toNat < adapter.items.length := by
      simp only [ArrayWheelAdapter.getItemsCount] at hi
      omega
    obtain ⟨item, hitem⟩ : ∃ item, adapter.items[i.toNat]? = some item :=
      ⟨_, List.getElem?_eq_getElem hlt⟩
    cases item with
    | none =>
      have ht : adapter.getItemText i = .error .nullPointer := by
        simp [ArrayWheelAdapter.getItemText, h0, hi, hitem]
      rw [setCurrentItem_change hc hne,
        onChanged_null (by simpa [WheelView.movedTo] using ha) ht] at h
      cases h
    | some text =>
      have ht : adapter.getItemText i = .ok (some text) := by
        simp [ArrayWheelAdapter.getItemText, h0, hi, hitem]
      rw [setCurrentItem_item ha hc ht hne] at h
      obtain rfl : _ = st' := by simpa using h
      exact .inr ⟨text, ⟨adapter, ha, h0, hi, hitem⟩, hne,
        ((st.wheel w).movedTo i).scrollingOffset, (st.wheel w).isScrollingPerformed, rfl⟩

theorem setScrollingOffset_eq (w : WheelId) (offset : Int) (st : UiState) :
    setScrollingOffset w offset st =
      .ok () (st.setWheel w ((st.wheel w).scrolledTo offset (st.wheel w).isScrollingPerformed)) :=
  rfl

def OffsetOnly (w : WheelId) (st st' : UiState) : Prop :=
  ∃ offset, st' = st.setWheel w ((st.wheel w).scrolledTo offset (st.wheel w).isScrollingPerformed)

theorem OffsetOnly.refl (w : WheelId) (st : UiState) : OffsetOnly w st st :=
  ⟨(st.wheel w).scrollingOffset, (st.setWheel_wheel w).symm⟩

theorem OffsetOnly.trans {w : WheelId} {st st1 st2 : UiState} (h1 : OffsetOnly w st st1)
    (h2 : OffsetOnly w st1 st2) : OffsetOnly w st st2 := by
  obtain ⟨o1, rfl⟩ := h1
  obtain ⟨o2, rfl⟩ := h2
  exact ⟨o2, by simp [WheelView.scrolledTo]⟩

theorem MovesTo.of_offset {st st1 st2 : UiState} {w : WheelId} {i : Int} {text : String}
    (h1 : OffsetOnly w st st1) (h2 : MovesTo st1 st2 w i text) : MovesTo st st2 w i text := by
  obtain ⟨o, rfl⟩ := h1
  obtain ⟨ha, hne, offset, scrolling, rfl⟩ := h2
  refine ⟨by simpa [WheelView.scrolledTo] using ha, by simpa [WheelView.scrolledTo] using hne,
    offset, scrolling, ?_⟩
  simp [WheelView.scrolledTo, WheelView.movedTo, posts]
  rfl

theorem MovesTo.offset {st st1 st2 : UiState} {w : WheelId} {i : Int} {text : String}
    (h1 : MovesTo st st1 w i text) (h2 : OffsetOnly w st1 st2) : MovesTo st st2 w i text := by
  obtain ⟨ha, hne, offset, scrolling, rfl⟩ := h1
  obtain ⟨o, rfl⟩ := h2
  refine ⟨ha, hne, o, scrolling, ?_⟩
  simp [UiState.setWheel_tasks, UiState.wheel_tasks, WheelView.scrolledTo, WheelView.movedTo]

theorem divisor_eq_ok {n a : Int} {st st' : UiState} :
    divisor n st = .ok a st' ↔ n ≠ 0 ∧ n = a ∧ st = st' := by
  by_cases hn : n = 0 <;> simp [divisor, hn]

theorem unbox_eq_ok {α : Type} {o : Option α} {a : α} {st st' : UiState} :
    unbox o st = .ok a st' ↔ o = some a ∧ st = st' := by
  cases o <;> simp

theorem wrapScrollingOffset_ok {st st' : UiState} {w : WheelId} {height : Int}
    (h : wrapScrollingOffset w height st = .ok () st') : OffsetOnly w st st' := by
  by_cases hgt : (st.wheel w).scrollingOffset > height
  · simp only [wrapScrollingOffset, Ui.bind_eq_ok, Ui.get_apply] at h
    obtain ⟨_, _, hg, h⟩ := h
    cases hg
    rw [if_pos hgt, Ui.bind_eq_ok] at h
    obtain ⟨n, s, hd, h⟩ := h
    obtain ⟨-, rfl, rfl⟩ := divisor_eq_ok.mp hd
    rw [setScrollingOffset_eq] at h
    cases h
    exact ⟨_, rfl⟩
  · simp [wrapScrollingOffset, hgt] at h
    exact h ▸ .refl w st

theorem scrollToItem_ok {st st' : UiState} {w : WheelId} {pos : Int}
    (h : scrollToItem w pos st = .ok () st') : st' = st ∨ ∃ text, MovesTo st st' w pos text := by
  simp only [scrollToItem, Ui.bind_apply, Ui.get_apply] at h
  split_ifs at h with hp
  · exact .inl (by simpa using h.symm)
  · exact setCurrentItem_ok h

/-- The item `doScroll` moves a wheel to. -/
def WheelView.scrollPos (v : WheelView) (itemCount : Int) (layout : Layout) (delta : Int) : Int :=
  ({ v with scrollingOffset := v.scrollingOffset + delta }.scrollTarget
    itemCount layout.itemHeight).1

theorem doScroll_ok {st st' : UiState} {w : WheelId} {layout : Layout} {delta : Int}
    (h : doScroll w layout delta st = .ok () st') :
    OffsetOnly w st st' ∨ ∃ adapter text, (st.wheel w).viewAdapter = some adapter ∧
      MovesTo st st' w ((st.wheel w).scrollPos adapter.getItemsCount layout delta) text := by
  unfold doScroll at h
  simp only [Ui.bind_eq_ok, Ui.get_apply, Ui.modify_apply, divisor_eq_ok, unbox_eq_ok] at h
  obtain ⟨_, s0, h0, v, _, hv, _, _, ⟨-, rfl, rfl⟩, adapter, _, ⟨ha, rfl⟩, h⟩ := h
  obtain ⟨_, s1, h1, _, s2, h2, h3⟩ := h
  cases h0
  cases hv
  simp only [UiState.wheel_setWheel_self] at ha h1 h2
  have hfirst : OffsetOnly w st (st.setWheel w
      { st.wheel w with scrollingOffset := (st.wheel w).scrollingOffset + delta }) := ⟨_, rfl⟩
  have hlast : OffsetOnly w s1 st' := by
    rw [setScrollingOffset_eq] at h2
    cases h2
    exact .trans ⟨_, rfl⟩ (wrapScrollingOffset_ok h3)
  rcases scrollToItem_ok h1 with rfl | ⟨text, hm⟩
  · exact .inl (hfirst.trans hlast)
  · exact .inr ⟨adapter, text, ha, (hm.of_offset hfirst).offset hlast⟩

theorem onScroll_ok {st st' : UiState} {w : WheelId} {layout : Layout} {distance : Int}
    (h : onScroll w layout distance st = .ok () st') :
    OffsetOnly w st st' ∨ ∃ adapter text, (st.wheel w).viewAdapter = some adapter ∧
      MovesTo st st' w ((st.wheel w).scrollPos adapter.getItemsCount layout distance) text := by
  simp only [onScroll, Ui.bind_eq_ok, Ui.modify_apply] at h
  obtain ⟨_, s, hs, h⟩ := h
  cases h
  have hlast : OffsetOnly w s (s.setWheel w { s.wheel w with
      scrollingOffset := WheelView.clampOffset layout.height (s.wheel w).scrollingOffset }) :=
    ⟨_, rfl⟩
  rcases doScroll_ok hs with h | ⟨adapter, text, ha, h⟩
  · exact .inl (h.trans hlast)
  · exact .inr ⟨adapter, text, ha, h.offset hlast⟩

theorem WheelEvent.callback_ok {st st' : UiState} {e : WheelEvent}
    (h : e.callback st = .ok () st') :
    (∃ offset scrolling, st' = st.setWheel e.wheel ((st.wheel e.wheel).scrolledTo offset scrolling)) ∨
    ∃ i text, MovesTo st st' e.wheel i text := by
  cases e with
  | started w =>
    cases h
    exact .inl ⟨(st.wheel w).scrollingOffset, true, rfl⟩
  | moved w index =>
    rcases setCurrentItem_ok h with rfl | ⟨text, hm⟩
    · exact .inl ⟨(st'.wheel w).scrollingOffset, (st'.wheel w).isScrollingPerformed,
        (st'.setWheel_wheel w).symm⟩
    · exact .inr ⟨index, text, hm⟩
  | scrolled w layout distance =>
    rcases onScroll_ok h with ⟨offset, ho⟩ | ⟨adapter, text, -, hm⟩
    · exact .inl ⟨offset, (st.wheel w).isScrollingPerformed, ho⟩
    · exact .inr ⟨_, text, hm⟩
  | finished w =>
    cases h
    exact .inl ⟨0, false, rfl⟩

theorem setCaptureMode_ok {st st' : UiState} {m : Option CaptureMode}
    (h : setCaptureMode m st = .ok () st') : st'.tasks = st.tasks := by
  rcases setCaptureMode_cases h with rfl | ⟨mode, rfl⟩
  · rfl
  · rfl

end CameraClient
