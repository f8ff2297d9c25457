import CameraClient.Lib.Detents
import CameraClient.Panel

/-! Scrolling as the user sees it: the items of a wheel are stops on a strip, a
scroll step moves the strip under the centre line, and the wheel goes to the stop
nearest to the line. `scrollingOffset` and `currentItem` only encode the strip's
position (`WheelView.strip`). -/
namespace CameraClient
open Detents Runs

/-- The position of the strip under the centre line. -/
def WheelView.strip (v : WheelView) (itemHeight : Int) : Int :=
  v.currentItem * itemHeight - v.scrollingOffset

/-- A laid out wheel: its items have a height, and at least half an item fits in. -/
structure Layout.Drawn (layout : Layout) : Prop where
  itemHeight : 0 < layout.itemHeight
  height : layout.itemHeight ≤ 2 * layout.height

def Layout.top (layout : Layout) : Int := -layout.height

def Layout.bottom (layout : Layout) (itemCount : Int) : Int :=
  (itemCount - 1) * layout.itemHeight + layout.height

theorem tdiv_add_tmod_bounds {x h : Int} (hh : 0 < h) :
    x = x.tdiv h * h + x.tmod h ∧ -h < x.tmod h ∧ x.tmod h < h := by
  have hd := Int.mul_tdiv_add_tmod x h
  have hlt : (x.tmod h).natAbs < h.natAbs := by
    rw [Int.natAbs_tmod]
    exact Nat.mod_lt _ (by omega)
  have hc : h * x.tdiv h = x.tdiv h * h := Int.mul_comm _ _
  omega

theorem tdiv_tmod_sign (x : Int) {h : Int} (hh : 0 < h) :
    (0 ≤ x ∧ 0 ≤ x.tdiv h ∧ 0 ≤ x.tmod h) ∨ (x < 0 ∧ x.tdiv h ≤ 0 ∧ x.tmod h ≤ 0) := by
  rcases le_or_gt 0 x with hx | hx
  · exact Or.inl ⟨hx, Int.tdiv_nonneg hx hh.le, Int.tmod_nonneg h hx⟩
  · right
    have hq := Int.tdiv_nonneg (a := -x) (by omega) hh.le
    have hr := Int.tmod_nonneg (a := -x) h (by omega)
    rw [Int.neg_tdiv] at hq
    rw [Int.neg_tmod] at hr
    omega

/-- `doScroll` moves a wheel to the stop nearest to its strip and counts the items in between. -/
theorem scrollTarget_nearest {v : WheelView} {itemCount itemHeight : Int} (hh : 0 < itemHeight)
    (hn : 0 < itemCount) :
    (v.scrollTarget itemCount itemHeight).2 =
      v.currentItem - (v.scrollTarget itemCount itemHeight).1 ∧
    IsNearest itemCount itemHeight (v.strip itemHeight)
      (v.scrollTarget itemCount itemHeight).1 := by
  obtain ⟨hx, hlo, hhi⟩ := tdiv_add_tmod_bounds (x := v.scrollingOffset) hh
  have hhalf : itemHeight.tdiv 2 = itemHeight / 2 := Int.tdiv_eq_ediv_of_nonneg hh.le
  rw [isNearest_iff hh]
  simp only [WheelView.scrollTarget, WheelView.isCyclic, Bool.false_eq_true, false_and, if_false,
    hhalf, WheelView.strip]
  generalize v.scrollingOffset.tdiv itemHeight = count at *
  generalize v.scrollingOffset.tmod itemHeight = rest at *
  obtain ⟨pos, hpos⟩ : ∃ pos, pos = v.currentItem - count := ⟨_, rfl⟩
  -- the strip lies `rest` before the stop `count` items back
  have hstrip : v.currentItem * itemHeight - v.scrollingOffset = pos * itemHeight - rest := by
    rw [hx, hpos, Int.sub_mul]
    omega
  rw [hstrip, ← hpos]
  by_cases hneg : pos < 0
  · have hle : pos * itemHeight ≤ (-1) * itemHeight :=
      Int.mul_le_mul_of_nonneg_right (by omega) hh.le
    rw [if_pos hneg]
    omega
  rw [if_neg hneg]
  by_cases hbig : pos ≥ itemCount
  · have hle : itemCount * itemHeight ≤ pos * itemHeight :=
      Int.mul_le_mul_of_nonneg_right hbig hh.le
    have he : (itemCount - 1) * itemHeight = itemCount * itemHeight - itemHeight := by
      rw [Int.sub_mul, Int.one_mul]
    rw [if_pos hbig]
    dsimp only
    omega
  rw [if_neg hbig]
  have hback : (pos - 1) * itemHeight = pos * itemHeight - itemHeight := by
    rw [Int.sub_mul, Int.one_mul]
  have hforth : (pos + 1) * itemHeight = pos * itemHeight + itemHeight := by
    rw [Int.add_mul, Int.one_mul]
  by_cases hr : (rest.natAbs : Int) ≤ itemHeight / 2
  · rw [if_pos hr, if_neg (by omega), if_neg (by omega)]
    dsimp only
    omega
  · rw [if_neg hr]
    split_ifs with h1 h2
    · dsimp only
      omega
    · dsimp only
      omega
    · dsimp only
      omega

theorem scrollTarget_stay {v : WheelView} {itemCount itemHeight : Int} (hh : 0 < itemHeight)
    (hi : IsNearest itemCount itemHeight (v.strip itemHeight) v.currentItem) :
    (v.scrollTarget itemCount itemHeight).1 = v.currentItem := by
  obtain ⟨hx, hlo, hhi⟩ := tdiv_add_tmod_bounds (x := v.scrollingOffset) hh
  have hhalf : itemHeight.tdiv 2 = itemHeight / 2 := Int.tdiv_eq_ediv_of_nonneg hh.le
  rw [isNearest_iff hh] at hi
  simp only [WheelView.strip] at hi
  obtain ⟨h0, hn, hr, hf⟩ := hi
  simp only [WheelView.scrollTarget, WheelView.isCyclic, Bool.false_eq_true, false_and, if_false,
    hhalf]
  have hquot : v.scrollingOffset.tdiv itemHeight = 0 ∨
      (0 < v.scrollingOffset.tdiv itemHeight ∧ itemHeight ≤ v.scrollingOffset) ∨
      (v.scrollingOffset.tdiv itemHeight < 0 ∧ v.scrollingOffset ≤ -itemHeight) := by
    have hsign := tdiv_tmod_sign v.scrollingOffset hh
    rcases lt_trichotomy (v.scrollingOffset.tdiv itemHeight) 0 with hq | hq | hq
    · have hle : v.scrollingOffset.tdiv itemHeight * itemHeight ≤ (-1) * itemHeight :=
        Int.mul_le_mul_of_nonneg_right (by omega) hh.le
      omega
    · exact Or.inl hq
    · have hle : 1 * itemHeight ≤ v.scrollingOffset.tdiv itemHeight * itemHeight :=
        Int.mul_le_mul_of_nonneg_right (by omega) hh.le
      omega
  generalize v.scrollingOffset.tdiv itemHeight = count at *
  generalize v.scrollingOffset.tmod itemHeight = rest at *
  rcases hquot with rfl | ⟨hc, ho⟩ | ⟨hc, ho⟩
  · have hrest : v.scrollingOffset = rest := by omega
    rw [Int.sub_zero, if_neg (by omega), if_neg (by omega)]
    by_cases hsmall : (rest.natAbs : Int) ≤ itemHeight / 2
    · rw [if_pos hsmall, if_neg (by omega), if_neg (by omega)]
    · rw [if_neg hsmall, if_neg (by omega), if_neg (by omega)]
  · have hfirst : v.currentItem = 0 := by omega
    rw [if_pos (by omega), hfirst]
  · have hlast : v.currentItem = itemCount - 1 := by omega
    rw [if_neg (by omega), if_pos (by omega), hlast]

theorem clampOffset_wrap {height offset : Int} (hh : 0 < height) (h : offset > height) :
    WheelView.clampOffset height (offset.tmod height + height) =
      WheelView.clampOffset height offset := by
  have hpos : 0 ≤ offset.tmod height := Int.tmod_nonneg height (by omega)
  simp only [WheelView.clampOffset, if_pos h]
  by_cases h0 : offset.tmod height = 0
  · rw [h0, Int.zero_add, if_neg (by omega), if_neg (by omega)]
  · rw [if_pos (by omega)]

theorem strip_clampOffset {layout : Layout} {itemCount p i : Int} (hl : layout.Drawn)
    (hi : IsNearest itemCount layout.itemHeight p i) :
    i * layout.itemHeight - WheelView.clampOffset layout.height (i * layout.itemHeight - p) =
      clamp layout.top (layout.bottom itemCount) p := by
  have hh := hl.itemHeight
  have hv := hl.height
  rw [isNearest_iff hh] at hi
  obtain ⟨h0, hn, hr, hf⟩ := hi
  have hlow : 0 ≤ i * layout.itemHeight := Int.mul_nonneg h0 hh.le
  have hhigh : i * layout.itemHeight ≤ (itemCount - 1) * layout.itemHeight :=
    Int.mul_le_mul_of_nonneg_right (by omega) hh.le
  have hfirst : i = 0 → i * layout.itemHeight = 0 := fun h => by rw [h, Int.zero_mul]
  have hlast : i = itemCount - 1 →
      i * layout.itemHeight = (itemCount - 1) * layout.itemHeight := fun h => by rw [h]
  simp only [clamp, WheelView.clampOffset, Layout.top, Layout.bottom]
  split_ifs with h1 h2
  · omega
  · omega
  · omega

def WheelView.scrolledBy (v : WheelView) (itemCount : Int) (layout : Layout) (distance : Int) :
    WheelView :=
  let pos := v.scrollPos itemCount layout distance
  { v with
    currentItem := pos
    scrollingOffset := pos * layout.itemHeight -
      clamp layout.top (layout.bottom itemCount) (v.strip layout.itemHeight - distance) }

/-- What a wheel posts on its way from one item to another. -/
def reaches (st : UiState) (w : WheelId) (texts : List String) (i : Int) : List Task :=
  if i = (st.wheel w).currentItem then [] else posts st w (texts.getD i.toNat "")

section Step
variable {st : UiState} {w : WheelId} {layout : Layout} {texts : List String}

theorem scrollToItem_then_offset {pos offset : Int}
    (ha : (st.wheel w).viewAdapter = some (.ofTexts texts)) (h0 : 0 ≤ pos)
    (hn : pos < texts.length) :
    (scrollToItem w pos >>= fun _ => setScrollingOffset w offset) st = .ok ()
      { st.setWheel w { st.wheel w with currentItem := pos, scrollingOffset := offset } with
        tasks := st.tasks ++ reaches st w texts pos } := by
  by_cases hp : pos = (st.wheel w).currentItem
  · simp [scrollToItem, setScrollingOffset, reaches, hp]
    rfl
  · have hlt : pos.toNat < texts.length := by omega
    have ht : (ArrayWheelAdapter.ofTexts texts).getItemText pos =
        .ok (some (texts.getD pos.toNat "")) := by
      have hg := ArrayWheelAdapter.getItemText_ofTexts (List.getElem?_eq_getElem hlt)
      rw [Int.toNat_of_nonneg h0] at hg
      rw [hg, List.getD_eq_getElem?_getD, List.getElem?_eq_getElem hlt, Option.getD_some]
    have hc : (st.wheel w).checkedIndex pos = some pos :=
      WheelView.checkedIndex_of_lt ha h0 (by simpa using hn)
    simp [scrollToItem, hp, setCurrentItem_item ha hc ht hp, reaches, setScrollingOffset,
      WheelView.movedTo, UiState.setWheel_tasks, UiState.wheel_tasks]

theorem wrap_then_clamp (hh : 0 < layout.height) :
    (wrapScrollingOffset w layout.height >>= fun _ => modify fun st => st.setWheel w
      { st.wheel w with
        scrollingOffset := WheelView.clampOffset layout.height (st.wheel w).scrollingOffset }) st =
    .ok () (st.setWheel w { st.wheel w with
      scrollingOffset := WheelView.clampOffset layout.height (st.wheel w).scrollingOffset }) := by
  by_cases hg : (st.wheel w).scrollingOffset > layout.height
  · have hd : layout.height ≠ 0 := by omega
    simp [wrapScrollingOffset, hg, divisor, hd, setScrollingOffset, clampOffset_wrap hh hg]
  · simp [wrapScrollingOffset, hg]

def WheelView.dragged (v : WheelView) (delta : Int) : WheelView :=
  { v with scrollingOffset := v.scrollingOffset + delta }

theorem doScroll_eq {adapter : ArrayWheelAdapter} {delta : Int}
    (ha : (st.wheel w).viewAdapter = some adapter) (hh : layout.itemHeight ≠ 0) :
    doScroll w layout delta st =
      (let v := (st.wheel w).dragged delta
       let target := v.scrollTarget adapter.getItemsCount layout.itemHeight
       scrollToItem w target.1 >>= fun _ =>
        setScrollingOffset w (v.scrollingOffset - target.2 * layout.itemHeight) >>= fun _ =>
        wrapScrollingOffset w layout.height) (st.setWheel w ((st.wheel w).dragged delta)) := by
  simp [doScroll, divisor, hh, ha, WheelView.dragged]

/-- A scroll step moves the strip by its distance, up to the ends, and the wheel to the
nearest item. -/
theorem onScroll_scrolledBy {distance : Int}
    (ha : (st.wheel w).viewAdapter = some (.ofTexts texts)) (hne : texts ≠ [])
    (hl : layout.Drawn) :
    onScroll w layout distance st = .ok ()
      { st.setWheel w ((st.wheel w).scrolledBy texts.length layout distance) with
        tasks := st.tasks ++
          reaches st w texts ((st.wheel w).scrollPos texts.length layout distance) } := by
  have hh := hl.itemHeight
  have hv := hl.height
  have hn : (0 : Int) < texts.length := by
    have := List.length_pos_of_ne_nil hne
    omega
  let v := (st.wheel w).dragged distance
  let target := v.scrollTarget texts.length layout.itemHeight
  obtain ⟨hcount, hnear⟩ : target.2 = v.currentItem - target.1 ∧
      IsNearest texts.length layout.itemHeight (v.strip layout.itemHeight) target.1 :=
    scrollTarget_nearest hh hn
  have hva : ((st.setWheel w v).wheel w).viewAdapter = some (.ofTexts texts) := by
    simpa [v, WheelView.dragged] using ha
  have hoffset : v.scrollingOffset - target.2 * layout.itemHeight =
      target.1 * layout.itemHeight - v.strip layout.itemHeight := by
    rw [hcount, Int.sub_mul, WheelView.strip]
    omega
  have hstart : onScroll w layout distance st =
      ((scrollToItem w target.1 >>= fun _ => setScrollingOffset w
          (target.1 * layout.itemHeight - v.strip layout.itemHeight)) >>= fun _ =>
        (wrapScrollingOffset w layout.height >>= fun _ => modify fun st => st.setWheel w
          { st.wheel w with scrollingOffset :=
              WheelView.clampOffset layout.height (st.wheel w).scrollingOffset }))
        (st.setWheel w v) := by
    rw [onScroll, Ui.bind_apply, doScroll_eq ha hh.ne', ← Ui.bind_apply, ← hoffset]
    simp only [bind_assoc, ArrayWheelAdapter.getItemsCount_ofTexts]
    rfl
  rw [hstart, Ui.bind_ok (scrollToItem_then_offset hva hnear.1 hnear.2.1),
    wrap_then_clamp (by omega)]
  have hstrip : v.strip layout.itemHeight = (st.wheel w).strip layout.itemHeight - distance := by
    simp only [v, WheelView.strip, WheelView.dragged]
    omega
  have hpos : (st.wheel w).scrollPos texts.length layout distance = target.1 := rfl
  have hclamp : WheelView.clampOffset layout.height
      (target.1 * layout.itemHeight - v.strip layout.itemHeight) =
      target.1 * layout.itemHeight - clamp layout.top (layout.bottom texts.length)
        ((st.wheel w).strip layout.itemHeight - distance) := by
    rw [← hstrip, ← strip_clampOffset hl hnear]
    omega
  have hreaches : reaches (st.setWheel w v) w texts target.1 = reaches st w texts target.1 := by
    simp [reaches, posts, v, WheelView.dragged]
  rw [hreaches, WheelView.scrolledBy]
  simp only [UiState.wheel_tasks, UiState.setWheel_tasks, UiState.wheel_setWheel_self,
    UiState.setWheel_setWheel, UiState.tasks_setWheel, hpos, hclamp]
  rfl

theorem doScroll_stay {delta offset : Int} (ha : (st.wheel w).viewAdapter = some (.ofTexts texts))
    (hh : 0 < layout.itemHeight) (ho : (st.wheel w).scrollingOffset + delta = offset)
    (hi : IsNearest texts.length layout.itemHeight
      ((st.wheel w).currentItem * layout.itemHeight - offset) (st.wheel w).currentItem)
    (hle : offset ≤ layout.height) :
    doScroll w layout delta st =
      .ok () (st.setWheel w { st.wheel w with scrollingOffset := offset }) := by
  let v := (st.wheel w).dragged delta
  have hv : v.scrollingOffset = offset := ho
  have hva : ((st.setWheel w v).wheel w).viewAdapter = some (.ofTexts texts) := by
    simpa [v, WheelView.dragged] using ha
  have hitem : (v.scrollTarget texts.length layout.itemHeight).1 = (st.wheel w).currentItem :=
    scrollTarget_stay hh (by rw [WheelView.strip, hv]; exact hi)
  have hn : (0 : Int) < texts.length := lt_of_le_of_lt hi.1 hi.2.1
  have hcount := (scrollTarget_nearest (v := v) hh hn).1
  have hzero : (v.scrollTarget texts.length layout.itemHeight).2 = 0 := by
    rw [hcount, hitem]
    exact Int.sub_self _
  rw [doScroll_eq ha hh.ne']
  dsimp only
  rw [ArrayWheelAdapter.getItemsCount_ofTexts, hitem, hzero, Int.zero_mul, Int.sub_zero, hv,
    ← bind_assoc, Ui.bind_ok (scrollToItem_then_offset hva hi.1 hi.2.1)]
  have hnot : ¬ offset > layout.height := by omega
  simp [wrapScrollingOffset, UiState.wheel_tasks, hnot, reaches, v, WheelView.dragged]
  rfl

theorem onScroll_no_raise (distance : Int) (ha : (st.wheel w).viewAdapter = some (.ofTexts texts))
    (hl : layout.Drawn) : ∃ st', onScroll w layout distance st = .ok () st' := by
  by_cases hne : texts = []
  · have hstay (pos : Int) : scrollToItem w pos (st.setWheel w ((st.wheel w).dragged distance)) =
        .ok () (st.setWheel w ((st.wheel w).dragged distance)) := by
      have hc : ((st.wheel w).dragged distance).checkedIndex pos = none := by
        simp [WheelView.checkedIndex, WheelView.dragged, ha, hne, ArrayWheelAdapter.getItemsCount,
          ArrayWheelAdapter.ofTexts]
      simp only [scrollToItem, Ui.bind_apply, Ui.get_apply]
      split_ifs
      · rfl
      · exact setCurrentItem_stay (.inl (by simpa using hc))
    have hh := hl.itemHeight
    have hv := hl.height
    rw [onScroll, Ui.bind_apply, doScroll_eq ha hh.ne']
    dsimp only
    rw [Ui.bind_ok (hstay _), ← Ui.bind_apply, bind_assoc, Ui.bind_ok (setScrollingOffset_eq _ _ _),
      wrap_then_clamp (by omega)]
    exact ⟨_, rfl⟩
  · exact ⟨_, onScroll_scrolledBy ha hne hl⟩

theorem isNearest_clamp {itemCount p i : Int} (hl : layout.Drawn)
    (h : IsNearest itemCount layout.itemHeight p i) :
    IsNearest itemCount layout.itemHeight (clamp layout.top (layout.bottom itemCount) p) i := by
  have hh := hl.itemHeight
  have hs := strip_clampOffset hl h
  have hv := hl.height
  rw [isNearest_iff hh] at h ⊢
  rw [← hs]
  refine ⟨h.1, h.2.1, ?_, ?_⟩
  · simp only [WheelView.clampOffset]
    split_ifs <;> omega
  · simp only [WheelView.clampOffset]
    split_ifs <;> omega

theorem dragged_nearest (v : WheelView) {itemCount : Int} (distance : Int) (hl : layout.Drawn)
    (hn : 0 < itemCount) : IsNearest itemCount layout.itemHeight
      (v.strip layout.itemHeight - distance)
      ((v.dragged distance).scrollTarget itemCount layout.itemHeight).1 := by
  have hstrip : (v.dragged distance).strip layout.itemHeight =
      v.strip layout.itemHeight - distance := by
    simp only [WheelView.strip, WheelView.dragged]
    omega
  rw [← hstrip]
  exact (scrollTarget_nearest (v := v.dragged distance) hl.itemHeight hn).2

theorem scrolledBy_nearest (v : WheelView) {itemCount : Int} (distance : Int) (hl : layout.Drawn)
    (hn : 0 < itemCount) :
    (v.scrolledBy itemCount layout distance).strip layout.itemHeight =
      clamp layout.top (layout.bottom itemCount) (v.strip layout.itemHeight - distance) ∧
    IsNearest itemCount layout.itemHeight
      ((v.scrolledBy itemCount layout distance).strip layout.itemHeight)
      (v.scrolledBy itemCount layout distance).currentItem := by
  have hnear := dragged_nearest v distance hl hn
  have hs : (v.scrolledBy itemCount layout distance).strip layout.itemHeight =
      clamp layout.top (layout.bottom itemCount) (v.strip layout.itemHeight - distance) := by
    simp only [WheelView.strip, WheelView.scrolledBy]
    omega
  exact ⟨hs, hs ▸ isNearest_clamp hl hnear⟩

theorem scrolledBy_inside (v : WheelView) {itemCount : Int} (distance : Int) (hl : layout.Drawn)
    (hn : 0 < itemCount) :
    ((v.scrolledBy itemCount layout distance).scrollingOffset.natAbs : Int) ≤ layout.height := by
  have hh := hl.itemHeight
  have hv := hl.height
  have hnear := dragged_nearest v distance hl hn
  have hc := strip_clampOffset hl hnear
  have ho : (v.scrolledBy itemCount layout distance).scrollingOffset =
      v.scrollPos itemCount layout distance * layout.itemHeight -
        clamp layout.top (layout.bottom itemCount) (v.strip layout.itemHeight - distance) := rfl
  have hp : v.scrollPos itemCount layout distance =
      ((v.dragged distance).scrollTarget itemCount layout.itemHeight).1 := rfl
  rw [ho, hp, ← hc]
  simp only [WheelView.clampOffset]
  split_ifs <;> omega

def scrolls (w : WheelId) (layout : Layout) (ds : List Int) : List PanelEvent :=
  ds.map fun d => .wheel (.scrolled w layout d)

theorem panelStep_scrolled {d : Int} (ha : (st.wheel w).viewAdapter = some (.ofTexts texts))
    (hne : texts ≠ []) (hl : layout.Drawn) : ∃ st',
      panelStep st (.wheel (.scrolled w layout d)) = some st' ∧
      st'.wheel w = (st.wheel w).scrolledBy texts.length layout d := by
  have hd : (WheelEvent.scrolled w layout d).Enabled st := by simp [WheelEvent.Enabled, ha]
  refine ⟨{ st.setWheel w ((st.wheel w).scrolledBy texts.length layout d) with
    tasks := st.tasks ++
      reaches st w texts ((st.wheel w).scrollPos texts.length layout d) }, ?_, ?_⟩
  · simp [panelStep, hd, Ui.outcome_eq_some, WheelEvent.callback, onScroll_scrolledBy ha hne hl]
  · simp [UiState.wheel_tasks]

theorem scrolls_walk (ds : List Int) (ha : (st.wheel w).viewAdapter = some (.ofTexts texts))
    (hne : texts ≠ []) (hl : layout.Drawn) : ∃ st',
      run panelStep st (scrolls w layout ds) = some st' ∧
      (st'.wheel w).strip layout.itemHeight = walk layout.top (layout.bottom texts.length)
        ((st.wheel w).strip layout.itemHeight) ds ∧
      (ds ≠ [] → IsNearest texts.length layout.itemHeight
        ((st'.wheel w).strip layout.itemHeight) (st'.wheel w).currentItem) := by
  have hn : (0 : Int) < texts.length := by
    have := List.length_pos_of_ne_nil hne
    omega
  induction ds generalizing st with
  | nil => exact ⟨st, rfl, rfl, fun h => absurd rfl h⟩
  | cons d ds ih =>
    obtain ⟨st1, h1, hw⟩ := panelStep_scrolled (d := d) ha hne hl
    obtain ⟨hs, hnear⟩ := scrolledBy_nearest (st.wheel w) d hl hn
    rw [← hw] at hs hnear
    obtain ⟨st2, h2, hwalk, hi⟩ := ih (show (st1.wheel w).viewAdapter = _ by rw [hw]; exact ha)
    refine ⟨st2, run_cons_iff.mpr ⟨st1, h1, h2⟩, ?_, ?_⟩
    · rw [hwalk, hs, walk_cons]
    · intro _
      by_cases hnil : ds = []
      · subst hnil
        cases h2
        exact hnear
      · exact hi hnil

def threeApertureStatus : FullStatus := sampleStatus ["f/2", "f/4", "f/8"] "f/2" ["100"] "100"

def threeApertures : UiState := { activity := threeApertureStatus.applyTo {} }

/-- However a drag is delivered, the strip walks by its distances between its ends, and the
wheel shows the item nearest to where the strip comes to. -/
theorem drag_follows_strip {ds : List Int} (hds : ds ≠ [])
    (ha : (st.wheel w).viewAdapter = some (.ofTexts texts)) (hne : texts ≠ [])
    (hl : layout.Drawn) : ∃ st', run panelStep st (scrolls w layout ds) = some st' ∧
      (st'.wheel w).strip layout.itemHeight = walk layout.top (layout.bottom texts.length)
        ((st.wheel w).strip layout.itemHeight) ds ∧
      IsNearest texts.length layout.itemHeight ((st'.wheel w).strip layout.itemHeight)
        (st'.wheel w).currentItem := by
  obtain ⟨st', h, hwalk, hi⟩ := scrolls_walk ds ha hne hl
  exact ⟨st', h, hwalk, hi hds⟩

theorem drag_follows_strip_past_end : ∃ st',
    run panelStep threeApertures (scrolls .aperture ⟨40, 200⟩ [-30, -300, 270]) = some st' ∧
    (st'.wheel .aperture).strip 40 = 10 ∧ IsNearest 3 40 10 (st'.wheel .aperture).currentItem := by
  have ha : (threeApertures.wheel .aperture).viewAdapter =
      some (.ofTexts ["f/2", "f/4", "f/8"]) := rfl
  have hl : Layout.Drawn ⟨40, 200⟩ := ⟨by decide, by decide⟩
  have hds : [-30, -300, (270 : Int)] ≠ [] := by decide
  obtain ⟨st', h, hs, hi⟩ := drag_follows_strip hds ha (by decide) hl
  have hw : (st'.wheel .aperture).strip 40 = 10 := hs.trans (by decide)
  rw [hw] at hi
  exact ⟨st', h, hw, hi⟩

/-- A drag that does not turn back takes the strip where one step by its whole length
would, into however many steps it is cut. -/
theorem one_way_drag {ds : List Int} (ha : (st.wheel w).viewAdapter = some (.ofTexts texts))
    (hne : texts ≠ []) (hl : layout.Drawn)
    (hlo : layout.top ≤ (st.wheel w).strip layout.itemHeight)
    (hhi : (st.wheel w).strip layout.itemHeight ≤ layout.bottom texts.length)
    (hd : (∀ d ∈ ds, 0 ≤ d) ∨ ∀ d ∈ ds, d ≤ 0) : ∃ st' one,
      run panelStep st (scrolls w layout ds) = some st' ∧
      run panelStep st (scrolls w layout [ds.sum]) = some one ∧
      (st'.wheel w).strip layout.itemHeight = (one.wheel w).strip layout.itemHeight := by
  have hends : layout.top ≤ layout.bottom texts.length := hlo.trans hhi
  obtain ⟨st', h, hwalk, -⟩ := scrolls_walk ds ha hne hl
  obtain ⟨one, h1, hwalk1, -⟩ := scrolls_walk [ds.sum] ha hne hl
  refine ⟨st', one, h, h1, ?_⟩
  rw [hwalk, hwalk1, walk_cons, walk_nil]
  rcases hd with hd | hd
  · exact walk_forward hends ds hlo hhi hd
  · exact walk_backward hends ds hlo hhi hd

theorem one_way_drag_two : ∃ st' one,
    run panelStep threeApertures (scrolls .aperture ⟨40, 200⟩ [-30, -300]) = some st' ∧
    run panelStep threeApertures (scrolls .aperture ⟨40, 200⟩ [-330]) = some one ∧
    (st'.wheel .aperture).strip 40 = (one.wheel .aperture).strip 40 := by
  have ha : (threeApertures.wheel .aperture).viewAdapter =
      some (.ofTexts ["f/2", "f/4", "f/8"]) := rfl
  have hl : Layout.Drawn ⟨40, 200⟩ := ⟨by decide, by decide⟩
  have hd : ∀ d ∈ [-30, (-300 : Int)], d ≤ 0 := by decide
  exact one_way_drag ha (by decide) hl (by decide) (by decide) (Or.inr hd)

end Step

end CameraClient
