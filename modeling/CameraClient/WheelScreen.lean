import CameraClient.WheelFrame
import CameraClient.WheelStrip

/-! The wheels of the panel on screen: over every run the frame is a window on the list, which
holds every visible item unless the strip is pulled far over its end or the list just got
shorter; and the views a wheel needs are as few as fit its height. -/
namespace CameraClient
open Runs Slices StateError Detents

def PanelEvent.Measures (w : WheelId) (layout : Layout) : PanelEvent → Prop
  | .wheel (.scrolled u l _) => u = w → l = layout
  | _ => True

namespace WheelItems
variable {st st' : WheelItems} {layout : Layout}

theorem pulled_at_rest {v : WheelView} (hh : 0 < layout.itemHeight) (h0 : v.scrollingOffset = 0)
    (ht : ∀ adapter, v.viewAdapter = some adapter → ∃ texts, adapter = .ofTexts texts) :
    Pulled v layout := by
  refine ⟨ht, ?_⟩
  intro ho
  omega

theorem pulled_showOn {v : WheelView} (s : FullStatus) (w : WheelId) (hh : 0 < layout.itemHeight)
    (h : Pulled v layout) : Pulled (s.showOn w v) layout := by
  rw [FullStatus.showOn]
  split_ifs with hkeep
  · exact h
  · apply pulled_at_rest hh
    · rw [WheelView.load]
      split_ifs <;> rfl
    · intro adapter ha
      rw [WheelView.viewAdapter_load, Option.some.injEq] at ha
      exact ⟨_, ha.symm⟩

theorem pulled_setCurrentItem {ui ui' : UiState} {w : WheelId} {index : Int}
    (hh : 0 < layout.itemHeight) (h : Pulled (ui.wheel w) layout)
    (hs : setCurrentItem w index ui = .ok () ui') : Pulled (ui'.wheel w) layout := by
  rcases (ui.wheel w).setCurrentItem_cases index with ⟨-, hstay⟩ | ⟨hc, hne, -⟩
  · rw [setCurrentItem_stay hstay] at hs
    cases hs
    exact h
  · rw [setCurrentItem_change hc hne] at hs
    have hw : ui'.wheel w = (ui.wheel w).movedTo index := by
      rw [UiState.wheel, onChanged_activity hs]
      exact ui.wheel_setWheel_self w _
    rw [hw]
    exact pulled_at_rest hh rfl h.texts

/-- A scroll step leaves the wheel on the nearest item, so that only the last one can be pulled
over the end. -/
theorem pulled_onScroll {ui ui' : UiState} {w : WheelId} {d : Int} (hl : layout.Drawn)
    (h : Pulled (ui.wheel w) layout) (ha : (ui.wheel w).viewAdapter ≠ none)
    (hs : onScroll w layout d ui = .ok () ui') : Pulled (ui'.wheel w) layout := by
  obtain ⟨adapter, ha⟩ := Option.ne_none_iff_exists'.mp ha
  obtain ⟨texts, rfl⟩ := h.texts adapter ha
  have hadapter : (ui'.wheel w).viewAdapter = some (.ofTexts texts) := by
    have hc : (WheelEvent.scrolled w layout d).callback ui = .ok () ui' := hs
    rw [(wheel_event_index hc w).1, ha]
  have htexts : ∀ adapter, (ui'.wheel w).viewAdapter = some adapter →
      ∃ texts, adapter = .ofTexts texts := by
    intro adapter h'
    rw [hadapter, Option.some.injEq] at h'
    exact ⟨texts, h'.symm⟩
  refine ⟨htexts, ?_⟩
  intro ho j hj
  obtain ⟨adapter, h', h0, hn⟩ := hj
  rw [hadapter, Option.some.injEq] at h'
  subst h'
  rw [ArrayWheelAdapter.getItemsCount_ofTexts] at hn
  have hne : texts ≠ [] := by
    rintro rfl
    rw [List.length_nil] at hn
    omega
  rw [onScroll_scrolledBy ha hne hl] at hs
  cases hs
  have hnear := (scrolledBy_nearest (ui.wheel w) d hl (show (0 : Int) < texts.length by omega)).2
  rw [isNearest_iff hl.itemHeight] at hnear
  have hh := hl.itemHeight
  simp only [UiState.wheel_tasks, UiState.wheel_setWheel_self, WheelView.strip] at hnear ho ⊢
  omega

theorem pulled_step {ui ui' : UiState} {w : WheelId} {e : PanelEvent} (hl : layout.Drawn)
    (h : Pulled (ui.wheel w) layout) (hm : e.Measures w layout) (hs : panelStep ui e = some ui') :
    Pulled (ui'.wheel w) layout := by
  have hh := hl.itemHeight
  cases e with
  | status s =>
    rw [panelStep_status hs, wheel_applyTo]
    exact pulled_showOn s w hh h
  | wheel e =>
    obtain ⟨he, hc⟩ := panelStep_wheel hs
    have hadapter := (wheel_event_index hc w).1
    by_cases hw : w = e.wheel
    · cases e with
      | started u =>
        obtain rfl : w = u := hw
        have hstart : ui'.wheel w = (ui.wheel w).onStarted := by
          cases hc
          exact ui.wheel_setWheel_self w _
        rw [hstart]
        exact ⟨h.texts, h.ends⟩
      | moved u index =>
        obtain rfl : w = u := hw
        exact pulled_setCurrentItem hh h hc
      | scrolled u l d =>
        obtain rfl : w = u := hw
        obtain rfl : l = layout := hm rfl
        exact pulled_onScroll hl h he hc
      | finished u =>
        obtain rfl : w = u := hw
        have hrest : ui'.wheel w = (ui.wheel w).onFinished := by
          cases hc
          exact ui.wheel_setWheel_self w _
        rw [hrest]
        exact pulled_at_rest hh rfl h.texts
    · have hrun : run panelStep ui ([e].map .wheel) = some ui' := by
        simp [run, hs]
      rw [run_wheel_frame hrun (w := e.wheel) (by simp) hw]
      exact h

theorem pulled_run {es : List PanelEvent} {ui : UiState} {w : WheelId} (hl : layout.Drawn)
    (hm : ∀ e ∈ es, e.Measures w layout) (h : run panelStep {} es = some ui) :
    Pulled (ui.wheel w) layout := by
  have hc : Meets panelStep (fun _ e => e.Measures w layout) {} es := meets_of_forall hm _
  refine run_invariant (I := fun ui => Pulled (ui.wheel w) layout)
    (fun _ _ _ hi hm hs => pulled_step hl hi hm hs) ?_ hc h
  apply pulled_at_rest hl.itemHeight
  · cases w <;> rfl
  · intro adapter ha
    cases w <;> cases ha

/-- A wheel of the panel, scrolling or not, with the rows it is drawn by, in any order of status
deliveries, scroll steps, measure passes and draws before. -/
structure OnScreen (w : WheelId) (layout : Layout) (st : WheelItems) : Prop where
  panel : ∃ (es : List PanelEvent) (ui : UiState), run panelStep {} es = some ui ∧
    (∀ e ∈ es, e.Measures w layout) ∧ st.view.viewAdapter = (ui.wheel w).viewAdapter ∧
    st.view.currentItem = (ui.wheel w).currentItem ∧
    st.view.scrollingOffset = (ui.wheel w).scrollingOffset
  rows : ∃ fs, run WheelItems.step {} fs = some st

theorem OnScreen.pulled {w : WheelId} (h : st.OnScreen w layout) (hl : layout.Drawn) :
    Pulled st.view layout := by
  obtain ⟨es, ui, hui, hm, ha, hi, ho⟩ := h.panel
  have hp := pulled_run hl hm hui
  refine ⟨by rw [ha]; exact hp.texts, ?_⟩
  unfold WheelView.HasItem
  rw [ha, hi, ho]
  exact hp.ends

def draggedRows (distance : Int) : WheelItems where
  view := ⟨some (.ofTexts ["f/2", "f/4", "f/8"]), 0, distance, false⟩
  itemsLayout := some [⟨2, "f/2", some 0⟩, ⟨1, "f/4", some 1⟩, ⟨0, "f/8", some 2⟩]
  created := 3

theorem run_draggedRows (distance : Int) : run WheelItems.step {}
    [.attach (.ofTexts ["f/2", "f/4", "f/8"]), .measure, .turn 0 distance] =
      some (draggedRows distance) :=
  rfl

/-- Whatever happened to a wheel's rows, a frame shows consecutive items of its list, each where
the strip has it, and no view is in two places. -/
theorem frame_is_window {fs : List ItemsEvent} (h : run WheelItems.step {} fs = some st) :
    (∃ texts, IsSlice st.view.textAt st.firstItem texts ∧ ∀ layout, st.frame layout =
      texts.mapIdx fun k text => (st.view.rowTop layout (st.firstItem + k), text)) ∧
    ((st.children ++ st.items).map ItemView.id).Nodup := by
  obtain ⟨hk, hp⟩ := kept_run h
  exact ⟨⟨_, hk.rows, frame_eq hp⟩, hk.distinct⟩

theorem frame_is_window_three : (∃ texts,
    IsSlice (draggedRows 15).view.textAt (draggedRows 15).firstItem texts ∧ ∀ layout,
      (draggedRows 15).frame layout = texts.mapIdx fun k text =>
        ((draggedRows 15).view.rowTop layout ((draggedRows 15).firstItem + k), text)) ∧
    (((draggedRows 15).children ++ (draggedRows 15).items).map ItemView.id).Nodup :=
  frame_is_window (run_draggedRows 15)

/-- A draw of a wheel shows every item with a visible row, unless the strip is pulled over by two
items or more, or the column starts behind the end of a list that got shorter. -/
theorem frame_shows_strip_iff {w : WheelId} (h : st.OnScreen w layout) (hl : layout.Drawn) :
    ∃ st', st.step (.draw layout) = some st' ∧ (st'.FrameComplete layout ↔
      ((st.view.scrollingOffset.natAbs : Int) < 2 * layout.itemHeight ∧ ¬ st.Blank layout) ∨
      ∀ j, st.view.HasItem j → ¬ st.view.RowVisible layout j) := by
  obtain ⟨fs, hfs⟩ := h.rows
  have hk := kept_run hfs
  have hp := h.pulled hl
  obtain ⟨st', hd⟩ := exists_draw hk hp hl.itemHeight
  exact ⟨st', hd, (draws_of_step hk hl.itemHeight hd).complete_iff hp hl.itemHeight⟩

theorem draggedRows_onScreen {distance : Int}
    (h : (((run panelStep threeApertures [.wheel (.started .aperture),
      .wheel (.scrolled .aperture ⟨40, 200⟩ distance)]).map fun ui => ui.wheel .aperture) =
        some { (draggedRows distance).view with isScrollingPerformed := true })) :
    (draggedRows distance).OnScreen .aperture ⟨40, 200⟩ := by
  obtain ⟨ui, hui, hw⟩ := Option.map_eq_some_iff.mp h
  constructor
  · refine ⟨[.status threeApertureStatus, .wheel (.started .aperture),
      .wheel (.scrolled .aperture ⟨40, 200⟩ distance)], ui, ?_, ?_, ?_⟩
    · exact run_cons_iff.mpr ⟨threeApertures, panelStep_status_eq {} threeApertureStatus, hui⟩
    · intro e he
      simp only [List.mem_cons, List.not_mem_nil, or_false] at he
      rcases he with rfl | rfl | rfl
      · trivial
      · trivial
      · exact fun _ => rfl
    · rw [hw]
      exact ⟨rfl, rfl, rfl⟩
  · exact ⟨_, run_draggedRows distance⟩

theorem frame_shows_strip_iff_far : ∃ st',
    (draggedRows 100).step (.draw ⟨40, 200⟩) = some st' ∧ ¬ st'.FrameComplete ⟨40, 200⟩ := by
  have h : (draggedRows 100).OnScreen .aperture ⟨40, 200⟩ :=
    draggedRows_onScreen (by decide +kernel)
  obtain ⟨st', hd, hiff⟩ := frame_shows_strip_iff h ⟨by decide, by decide⟩
  refine ⟨st', hd, ?_⟩
  rw [hiff]
  rintro (⟨ho, -⟩ | hnone)
  · exact absurd ho (by decide)
  · exact hnone 0 ⟨_, rfl, by decide, by decide⟩ ⟨by decide, by decide⟩

theorem getItemsRange_congr (h : st'.view = st.view) (layout : Layout) :
    st'.getItemsRange layout = st.getItemsRange layout := by
  rw [getItemsRange, getItemsRange, h]

/-- The draw after a draw does not start behind the list, unless the items of the list are far
from the wheel. -/
theorem Draws.fresh (hd : st.Draws layout st') (hp : Pulled st.view layout)
    (hh : 0 < layout.itemHeight)
    (ho : (st.view.scrollingOffset.natAbs : Int) < 2 * layout.itemHeight)
    (hb : st'.Blank layout) (j : Int) (hj : st.view.HasItem j) :
    ¬ st.view.RowVisible layout j := by
  intro hv
  obtain ⟨range, hr, hf⟩ := hd.fills (hasItems_of_hasItem hj)
  obtain ⟨range', hr', hs'⟩ := hb
  rw [getItemsRange_congr hd.view, hr] at hr'
  cases hr'
  by_cases hs : st.Stale range
  · have hbehind := (hf.stale hs).2
    have hbelow := hs'.below
    omega
  · have hin := visible_inRange hh ho (fun h => hp.ends h j hj) hr hv
    have hcov := hf.covers hs j hj hin.1 hin.2
    rw [hs'.empty, List.length_nil] at hcov
    omega

/-- After a measure pass on a wheel that has its item, or after another draw, only a strip pulled
over by two items or more leaves out visible rows. -/
theorem next_frame_iff {w : WheelId} {e : ItemsEvent} (h : st.OnScreen w layout)
    (hl : layout.Drawn)
    (he : e = .draw layout ∨ (e = .measure ∧ st.view.HasItem st.view.currentItem)) :
    ∃ st1 st2, st.step e = some st1 ∧ st1.step (.draw layout) = some st2 ∧
      (st2.FrameComplete layout ↔
        (st.view.scrollingOffset.natAbs : Int) < 2 * layout.itemHeight ∨
        ∀ j, st.view.HasItem j → ¬ st.view.RowVisible layout j) := by
  obtain ⟨fs, hfs⟩ := h.rows
  have hk := kept_run hfs
  have hp := h.pulled hl
  have hh := hl.itemHeight
  obtain ⟨st1, h1, hview, hfresh⟩ : ∃ st1, st.step e = some st1 ∧ st1.view = st.view ∧
      ((st.view.scrollingOffset.natAbs : Int) < 2 * layout.itemHeight → st1.Blank layout →
        ∀ j, st.view.HasItem j → ¬ st.view.RowVisible layout j) := by
    rcases he with rfl | ⟨rfl, hitem⟩
    · obtain ⟨st1, h1⟩ := exists_draw hk hp hh
      have hd := draws_of_step hk hh h1
      exact ⟨st1, h1, hd.view, fun ho hb => hd.fresh hp hh ho hb⟩
    · obtain ⟨_, st1, h1, hm, -⟩ := (measure_yields hk.1).exists_ok hp.no_raise
      refine ⟨st1, step_eq_some.mpr h1, hm.view, ?_⟩
      rintro - ⟨range, -, hs⟩
      exact absurd hs.empty (hm.shows hitem)
  have hk1 := step_kept hk h1
  have hp1 : Pulled st1.view layout := by
    rw [hview]
    exact hp
  obtain ⟨st2, h2⟩ := exists_draw hk1 hp1 hh
  refine ⟨st1, st2, h1, h2, ?_⟩
  rw [(draws_of_step hk1 hh h2).complete_iff hp1 hh, hview]
  constructor
  · rintro (⟨ho, -⟩ | hnone)
    · exact Or.inl ho
    · exact Or.inr hnone
  · rintro (ho | hnone)
    · by_cases hb : st1.Blank layout
      · exact Or.inr (hfresh ho hb)
      · exact Or.inl ⟨ho, hb⟩
    · exact Or.inr hnone

theorem next_frame_iff_near : ∃ st1 st2, (draggedRows 15).step .measure = some st1 ∧
    st1.step (.draw ⟨40, 200⟩) = some st2 ∧ st2.FrameComplete ⟨40, 200⟩ := by
  have h : (draggedRows 15).OnScreen .aperture ⟨40, 200⟩ :=
    draggedRows_onScreen (by decide +kernel)
  have hitem : (draggedRows 15).view.HasItem (draggedRows 15).view.currentItem :=
    ⟨_, rfl, by decide, by decide⟩
  obtain ⟨st1, st2, h1, h2, hiff⟩ :=
    next_frame_iff h ⟨by decide, by decide⟩ (Or.inr ⟨rfl, hitem⟩)
  exact ⟨st1, st2, h1, h2, hiff.mpr (Or.inl (by decide))⟩

theorem getItemsRange_count {range : ItemsRange} {m : Nat} (hh : 0 < layout.itemHeight)
    (hm : layout.height ≤ (1 + 2 * m) * layout.itemHeight)
    (hr : st.getItemsRange layout = some range) : range.count ≤ 2 * m + 3 := by
  obtain ⟨n, -, hless, he⟩ := st.getItemsRange_eq hh
  have hle : n ≤ m := by
    rcases hless with rfl | hless
    · exact Nat.zero_le m
    · have hlt : (1 + 2 * (n : Int) - 2) < 1 + 2 * m :=
        lt_of_mul_lt_mul_right (hless.trans_le hm) hh.le
      omega
  rw [he] at hr
  by_cases h0 : st.view.scrollingOffset = 0
  · rw [if_pos h0] at hr
    cases hr
    dsimp only
    omega
  · rw [if_neg h0] at hr
    cases hr
    simp only [addAsin]
    split_ifs <;> omega

end WheelItems

/-- Lists without null items, and draws of a wheel at most `2 * m + 1` rows high. -/
def ItemsEvent.Fits (m : Nat) : ItemsEvent → Prop
  | attach adapter => none ∉ adapter.items
  | draw layout => 0 < layout.itemHeight ∧ layout.height ≤ (1 + 2 * m) * layout.itemHeight
  | _ => True

def ItemsEvent.isAttach : ItemsEvent → Bool
  | attach _ => true
  | _ => false

namespace WheelItems
variable {st st' : WheelItems} {layout : Layout}

def enough (m : Nat) : Nat := max 5 (2 * m + 3)

/-- The views made after `n` lists have been attached: `enough` for each list but the last, and
those of the last one. -/
structure Counted (m n : Nat) (st : WheelItems) : Prop where
  total : st.total ≤ enough m
  created : st.created ≤ enough m * (n - 1) + st.total
  bare : n = 0 → st.view.viewAdapter = none ∧ st.total = 0

/-- With a new list the wheel starts from no views at all. -/
theorem Counted.attached {m n : Nat} (hc : st.Counted m n) (adapter : ArrayWheelAdapter) :
    (st.setViewAdapter adapter).Counted m (n + 1) := by
  have hnil := (kept_setViewAdapter st adapter).1
  have hzero : (st.setViewAdapter adapter).total = 0 := by
    rw [WheelItems.total, hnil]
    rfl
  have hsame : (st.setViewAdapter adapter).created = st.created := rfl
  have ht := hc.total
  have hcr := hc.created
  refine ⟨by omega, ?_, fun h0 => by omega⟩
  rw [hsame, hzero, Nat.add_sub_cancel]
  cases n with
  | zero =>
    have hbare := (hc.bare rfl).2
    omega
  | succ n =>
    rw [Nat.add_sub_cancel] at hcr
    rw [Nat.mul_add]
    omega

/-- The views of a measure pass or a draw: no more than before, or than what is enough. -/
theorem Counted.grown {m n k : Nat} (hc : st.Counted m n) (hle : st'.total ≤ max st.total k)
    (hk : k ≤ enough m) (hmade : st'.created + st.total = st.created + st'.total)
    (hbare : n = 0 → st'.view.viewAdapter = none ∧ st'.total = 0) : st'.Counted m n := by
  have ht := hc.total
  have hcr := hc.created
  exact ⟨by omega, by omega, hbare⟩

/-- One event: it does not raise, and makes views only where more than ever are shown. -/
theorem step_fits {m n : Nat} {e : ItemsEvent} (hk : st.Kept ∧ st.Placed)
    (hn : ∀ x, ¬ st.view.Raises x) (hc : st.Counted m n) (he : e.Fits m) :
    ∃ st', st.step e = some st' ∧ (∀ x, ¬ st'.view.Raises x) ∧
      st'.Counted m (n + if e.isAttach then 1 else 0) := by
  cases e with
  | attach adapter =>
    refine ⟨st.setViewAdapter adapter, rfl, ?_, hc.attached adapter⟩
    rintro x ⟨-, adapter', ha, hmem⟩
    cases ha
    exact he hmem
  | turn currentItem offset => exact ⟨_, rfl, hn, hc.total, hc.created, hc.bare⟩
  | measure =>
    obtain ⟨_, st1, h1, hm, -⟩ := (measure_yields hk.1).exists_ok hn
    have hfive : 5 ≤ enough m := Nat.le_max_left _ _
    refine ⟨st1, step_eq_some.mpr h1, by rwa [hm.view], hc.grown hm.total hfive hm.created ?_⟩
    intro h0
    obtain ⟨hnone, hzero⟩ := hc.bare h0
    have hno : ∀ j, ¬ st.view.HasItem j := by
      rintro j ⟨adapter, ha, -⟩
      rw [hnone] at ha
      cases ha
    obtain ⟨st2, h2, htotal⟩ := measure_nothing hk.1 hno
    rw [h1] at h2
    cases h2
    exact ⟨by rw [hm.view, hnone], htotal.trans hzero⟩
  | draw layout =>
    obtain ⟨hh, hfit⟩ := he
    by_cases hi : st.HasItems
    · obtain ⟨adapter, ha, hpos⟩ := hi
      obtain ⟨range, hr⟩ := exists_range st hh.ne'
      obtain ⟨_, st1, h1, hf, -⟩ := (onDraw_yields hk.1 hk.2 ha hpos hr).exists_ok hn
      have hcount := getItemsRange_count hh hfit hr
      have hrange : range.count.toNat ≤ enough m := by
        rw [enough]
        omega
      refine ⟨st1, step_eq_some.mpr h1, by rwa [hf.view],
        hc.grown hf.total hrange hf.created ?_⟩
      intro h0
      rw [(hc.bare h0).1] at ha
      cases ha
    · exact ⟨st, step_eq_some.mpr (onDraw_empty layout hi), hn, hc.total, hc.created, hc.bare⟩

theorem run_fits {m n : Nat} {es : List ItemsEvent} (hk : st.Kept ∧ st.Placed)
    (hn : ∀ x, ¬ st.view.Raises x) (hc : st.Counted m n) (hes : ∀ e ∈ es, e.Fits m) :
    ∃ st', run WheelItems.step st es = some st' ∧
      st'.Counted m (n + es.countP ItemsEvent.isAttach) := by
  induction es generalizing st n with
  | nil => exact ⟨st, rfl, hc⟩
  | cons e es ih =>
    obtain ⟨st1, h1, hn1, hc1⟩ := step_fits hk hn hc (hes e (by simp))
    obtain ⟨st', h', hc'⟩ := ih (step_kept hk h1) hn1 hc1 fun x hx => hes x (by simp [hx])
    refine ⟨st', run_cons_iff.mpr ⟨st1, h1, h'⟩, ?_⟩
    rw [List.countP_cons, Nat.add_comm (es.countP _), ← Nat.add_assoc]
    exact hc'

/-- However long the lists and the drags, no event raises, and for each list the wheel makes no
more views than the rows that fit in and two, or the five it is measured with. -/
theorem views_bounded {m : Nat} {es : List ItemsEvent} (hes : ∀ e ∈ es, e.Fits m) :
    ∃ st, run WheelItems.step {} es = some st ∧
      st.children.length + st.items.length ≤ max 5 (2 * m + 3) ∧
      st.created ≤ max 5 (2 * m + 3) * es.countP ItemsEvent.isAttach := by
  have hn : ∀ x, ¬ ({} : WheelItems).view.Raises x := by
    rintro x ⟨-, adapter, ha, -⟩
    cases ha
  have hnew : ({} : WheelItems).Counted m 0 := ⟨Nat.zero_le _, Nat.zero_le _, fun _ => ⟨rfl, rfl⟩⟩
  obtain ⟨st, h, hc⟩ := run_fits kept_new hn hnew hes
  refine ⟨st, h, hc.total, ?_⟩
  have ht := hc.total
  have hcr := hc.created
  rw [Nat.zero_add] at hcr
  change st.created ≤ enough m * _
  cases hcount : es.countP ItemsEvent.isAttach with
  | zero =>
    have hbare := (hc.bare (by omega)).2
    rw [hcount] at hcr
    omega
  | succ k =>
    rw [hcount, Nat.add_sub_cancel] at hcr
    rw [Nat.mul_add]
    omega

theorem views_bounded_five : ∃ st, run WheelItems.step {}
      [.attach (.ofTexts ["f/2", "f/4", "f/8"]), .measure, .turn 2 (-15), .draw ⟨40, 200⟩] = some st ∧
    st.children.length + st.items.length ≤ max 5 (2 * 2 + 3) ∧
    st.created ≤ max 5 (2 * 2 + 3) * 1 := by
  apply views_bounded
  intro e he
  simp only [List.mem_cons, List.not_mem_nil, or_false] at he
  rcases he with rfl | rfl | rfl | rfl
  · show none ∉ (ArrayWheelAdapter.ofTexts ["f/2", "f/4", "f/8"]).items
    decide
  · trivial
  · trivial
  · exact ⟨by decide, by decide⟩

end WheelItems

end CameraClient
