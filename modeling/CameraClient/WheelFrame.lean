import CameraClient.WheelDraw
import CameraClient.WheelTouch
import Mathlib.Analysis.Real.Pi.Bounds
import Mathlib.Analysis.SpecialFunctions.Trigonometric.Inverse

/-! What a drawn wheel looks like: where the rows of a frame stand on the strip of items, and
when every item the wheel's height leaves room for is there. -/
namespace CameraClient
open Runs Slices StateError Detents

def WheelView.rowTop (v : WheelView) (layout : Layout) (j : Int) : Int :=
  (j - v.currentItem) * layout.itemHeight - (layout.itemHeight - layout.height).tdiv 2 +
    v.scrollingOffset

def WheelView.RowVisible (v : WheelView) (layout : Layout) (j : Int) : Prop :=
  -layout.itemHeight < v.rowTop layout j ∧ v.rowTop layout j < layout.height

/-- Up to one item `addAsin` is the sum with the arcsine, cut to a whole number. -/
theorem addAsin_eq {count n : Int} (hc : 2 ≤ count) (h1 : -1 ≤ n) (h2 : n ≤ 1) :
    0 ≤ (count : ℝ) + Real.arcsin n ∧ addAsin count n = ⌊(count : ℝ) + Real.arcsin n⌋ := by
  have hlo := Real.pi_gt_three
  have hhi := Real.pi_lt_d2
  have hcount : (2 : ℝ) ≤ count := by exact_mod_cast hc
  rw [eq_comm, Int.floor_eq_iff]
  obtain rfl | rfl | rfl : n = 0 ∨ n = 1 ∨ n = -1 := by omega
  · simp [addAsin]
    linarith
  · simp only [addAsin, Int.cast_one, Real.arcsin_one]
    norm_num
    refine ⟨?_, ?_, ?_⟩ <;> linarith
  · simp only [addAsin, Int.cast_neg, Int.cast_one, Real.arcsin_neg_one]
    norm_num
    refine ⟨?_, ?_, ?_⟩ <;> linarith

namespace WheelItems
variable {st st' : WheelItems} {layout : Layout} {j : Int}

theorem rowsAround_eq (fuel : Nat) {first count : Int}
    (hf : layout.height ≤ (count + 2 * fuel) * layout.itemHeight) : ∃ m : Nat,
    rowsAround layout fuel ⟨first, count⟩ = ⟨first - m, count + 2 * m⟩ ∧
    layout.height ≤ (count + 2 * m) * layout.itemHeight ∧
    (m = 0 ∨ (count + 2 * m - 2) * layout.itemHeight < layout.height) := by
  induction fuel generalizing first count with
  | zero =>
    refine ⟨0, ?_, ?_, Or.inl rfl⟩
    · simp [rowsAround]
    · simpa using hf
  | succ fuel ih =>
    by_cases hlow : count * layout.itemHeight < layout.height
    · have he : count + 2 * ((fuel + 1 : Nat) : Int) = count + 2 + 2 * (fuel : Int) := by omega
      rw [he] at hf
      obtain ⟨m, hm, hfill, hless⟩ := @ih (first - 1) (count + 2) hf
      have hc : count + 2 * ((m + 1 : Nat) : Int) = count + 2 + 2 * (m : Int) := by omega
      refine ⟨m + 1, ?_, by rw [hc]; exact hfill, ?_⟩
      · rw [rowsAround, if_pos hlow, hm, hc]
        congr 1
        omega
      · right
        rw [hc]
        rcases hless with rfl | hless
        · simpa using hlow
        · exact hless
    · refine ⟨0, ?_, ?_, Or.inl rfl⟩
      · rw [rowsAround, if_neg hlow]
        simp
      · simp only [Nat.cast_zero, mul_zero, add_zero]
        omega

/-- The range of a draw: as many rows at both sides of the current item as fill the height,
shifted by the whole items of the offset. -/
theorem getItemsRange_eq (st : WheelItems) (hh : 0 < layout.itemHeight) : ∃ m : Nat,
    layout.height ≤ (1 + 2 * m) * layout.itemHeight ∧
    (m = 0 ∨ (1 + 2 * m - 2) * layout.itemHeight < layout.height) ∧
    st.getItemsRange layout = some
      (if st.view.scrollingOffset = 0 then ⟨st.view.currentItem - m, 1 + 2 * m⟩
      else
        let rows := st.view.scrollingOffset.tdiv layout.itemHeight
        ⟨(if st.view.scrollingOffset > 0 then st.view.currentItem - m - 1
          else st.view.currentItem - m) - rows, addAsin (1 + 2 * m + 1) rows⟩) := by
  have hf : layout.height ≤ (1 + 2 * (layout.height.toNat : Int)) * layout.itemHeight := by
    have h1 : (1 + 2 * (layout.height.toNat : Int)) * 1 ≤
        (1 + 2 * (layout.height.toNat : Int)) * layout.itemHeight :=
      Int.mul_le_mul_of_nonneg_left hh (by omega)
    omega
  obtain ⟨m, hm, hfill, hless⟩ := @rowsAround_eq layout _ st.view.currentItem _ hf
  refine ⟨m, hfill, hless, ?_⟩
  rw [getItemsRange, if_neg hh.ne', hm]
  by_cases h0 : st.view.scrollingOffset = 0
  · simp [h0]
  · simp [h0]

theorem tdiv_bounds {x h : Int} (hh : 0 < h) :
    (x.tdiv h = 0 → -h < x ∧ x < h) ∧ (x.tdiv h = 1 → h ≤ x ∧ x < 2 * h) ∧
    (x.tdiv h = -1 → -(2 * h) < x ∧ x ≤ -h) ∧
    ((x.natAbs : Int) < 2 * h → x.tdiv h = 0 ∨ x.tdiv h = 1 ∨ x.tdiv h = -1) := by
  obtain ⟨hx, hlo, hhi⟩ := tdiv_add_tmod_bounds (x := x) hh
  have hsign := tdiv_tmod_sign x hh
  generalize x.tdiv h = q at *
  generalize x.tmod h = r at *
  refine ⟨?_, ?_, ?_, ?_⟩
  · rintro rfl
    omega
  · rintro rfl
    omega
  · rintro rfl
    omega
  · intro hlt
    by_contra hq
    rcases hsign with ⟨h0, hq0, hr0⟩ | ⟨h0, hq0, hr0⟩
    · have hle : 2 * h ≤ q * h := Int.mul_le_mul_of_nonneg_right (by omega) hh.le
      omega
    · have hle : q * h ≤ (-2) * h := Int.mul_le_mul_of_nonneg_right (by omega) hh.le
      omega

/-- At two items' heights from the current item the range is empty: the arcsine of the number
of items pulled over is not a number. -/
theorem getItemsRange_far {range : ItemsRange} (hh : 0 < layout.itemHeight)
    (ho : 2 * layout.itemHeight ≤ st.view.scrollingOffset.natAbs)
    (hr : st.getItemsRange layout = some range) : range.count = 0 := by
  obtain ⟨m, -, -, he⟩ := st.getItemsRange_eq hh
  rw [he, if_neg (by omega)] at hr
  cases hr
  obtain ⟨h0, h1, h2, -⟩ := tdiv_bounds (x := st.view.scrollingOffset) hh
  have hq : ∀ q, q = st.view.scrollingOffset.tdiv layout.itemHeight →
      q ≠ 0 ∧ q ≠ 1 ∧ q ≠ -1 := by
    rintro q rfl
    refine ⟨fun h => ?_, fun h => ?_, fun h => ?_⟩
    · have := h0 h
      omega
    · have := h1 h
      omega
    · have := h2 h
      omega
  obtain ⟨hq0, hq1, hq2⟩ := hq _ rfl
  simp only [addAsin, if_neg hq0, if_neg hq1, if_neg hq2]

theorem visible_bounds {v : WheelView} {m : Nat}
    (hfill : layout.height ≤ (1 + 2 * m) * layout.itemHeight) (hv : v.RowVisible layout j) :
    (j - v.currentItem) * layout.itemHeight < (m + 1) * layout.itemHeight - v.scrollingOffset ∧
    -((m + 1) * layout.itemHeight) - v.scrollingOffset <
      (j - v.currentItem) * layout.itemHeight := by
  obtain ⟨hlo, hhi⟩ := hv
  simp only [WheelView.rowTop] at hlo hhi
  have hm : (1 + 2 * (m : Int)) * layout.itemHeight =
      2 * ((m + 1) * layout.itemHeight) - layout.itemHeight := by ring
  rw [hm] at hfill
  obtain ⟨hhalf, hr1, hr2⟩ := tdiv_add_tmod_bounds (x := layout.itemHeight - layout.height) two_pos
  generalize ((m : Int) + 1) * layout.itemHeight = half at *
  generalize (j - v.currentItem) * layout.itemHeight = y at *
  omega

/-- As long as the strip is pulled over by less than two items, the range holds every item with
a visible row. -/
theorem visible_inRange {range : ItemsRange} (hh : 0 < layout.itemHeight)
    (ho : (st.view.scrollingOffset.natAbs : Int) < 2 * layout.itemHeight)
    (hend : st.view.scrollingOffset ≤ -layout.itemHeight → j ≤ st.view.currentItem)
    (hr : st.getItemsRange layout = some range) (hv : st.view.RowVisible layout j) :
    range.first ≤ j ∧ j ≤ range.getLast := by
  obtain ⟨m, hfill, -, he⟩ := st.getItemsRange_eq hh
  obtain ⟨hlo, hhi⟩ := visible_bounds hfill hv
  have hlt (a b : Int) (h : a * layout.itemHeight < b * layout.itemHeight) : a < b :=
    lt_of_mul_lt_mul_right h hh.le
  obtain ⟨h0, h1, h2, hq⟩ := tdiv_bounds (x := st.view.scrollingOffset) hh
  have hup : ((m : Int) + 2) * layout.itemHeight =
      (m + 1) * layout.itemHeight + layout.itemHeight := by ring
  have hup' : ((m : Int) + 3) * layout.itemHeight =
      (m + 1) * layout.itemHeight + 2 * layout.itemHeight := by ring
  have hdown : (m : Int) * layout.itemHeight =
      (m + 1) * layout.itemHeight - layout.itemHeight := by ring
  have hneg (a : Int) : -a * layout.itemHeight = -(a * layout.itemHeight) := by ring
  rw [he] at hr
  by_cases hzero : st.view.scrollingOffset = 0
  · rw [if_pos hzero] at hr
    cases hr
    have ha := hlt (j - st.view.currentItem) (m + 1) (by omega)
    have hb := hlt (-(m + 1)) (j - st.view.currentItem) (by rw [hneg]; omega)
    simp only [ItemsRange.getLast]
    omega
  · rw [if_neg hzero] at hr
    cases hr
    rcases hq ho with hq | hq | hq
    · have hb := h0 hq
      simp only [hq, addAsin, if_true, ItemsRange.getLast]
      split_ifs with hpos
      · have ha := hlt (j - st.view.currentItem) (m + 1) (by omega)
        have hc := hlt (-(m + 2)) (j - st.view.currentItem) (by rw [hneg]; omega)
        omega
      · have ha := hlt (j - st.view.currentItem) (m + 2) (by omega)
        have hc := hlt (-(m + 1)) (j - st.view.currentItem) (by rw [hneg]; omega)
        omega
    · have hb := h1 hq
      have ha := hlt (j - st.view.currentItem) (m + 1) (by omega)
      have hc := hlt (-(m + 3)) (j - st.view.currentItem) (by rw [hneg]; omega)
      simp only [hq, addAsin, ItemsRange.getLast]
      rw [if_pos (by omega), if_neg (by omega), if_pos trivial]
      omega
    · have hb := h2 hq
      have ha := hend hb.2
      have hc := hlt (-m) (j - st.view.currentItem) (by rw [hneg]; omega)
      simp only [hq, addAsin, ItemsRange.getLast]
      rw [if_neg (by omega), if_neg (by omega), if_neg (by omega), if_pos trivial]
      omega

theorem frame_eq (hp : st.Placed) (layout : Layout) :
    st.frame layout = (st.children.map ItemView.text).mapIdx fun k text =>
      (st.view.rowTop layout (st.firstItem + k), text) := by
  apply filterMap_eq_mapIdx
  intro k view hk
  have htop : -((st.view.currentItem - st.firstItem) * layout.itemHeight +
      (layout.itemHeight - layout.height).tdiv 2) + st.view.scrollingOffset +
      k * layout.itemHeight = st.view.rowTop layout (st.firstItem + k) := by
    rw [WheelView.rowTop]
    ring
  rw [hp k view hk, Option.map_some, htop]

theorem mem_frame (hk : st.Kept) (hp : st.Placed) {y : Int} {text : String} :
    (y, text) ∈ st.frame layout ↔ ∃ j, st.firstItem ≤ j ∧ j < st.firstItem + st.children.length ∧
      y = st.view.rowTop layout j ∧ st.view.textAt j = some text := by
  rw [frame_eq hp, List.mem_mapIdx]
  constructor
  · rintro ⟨k, hlt, he⟩
    rw [List.length_map] at hlt
    obtain ⟨hy, ht⟩ := Prod.mk.inj he
    refine ⟨st.firstItem + k, by omega, by omega, hy.symm, ?_⟩
    exact hk.rows.get (by rw [← ht, List.getElem?_eq_getElem])
  · rintro ⟨j, h0, hn, hy, ht⟩
    obtain ⟨text', hk', ht'⟩ := hk.rows.exists_get h0 (by rwa [List.length_map])
    rw [ht, Option.some.injEq] at ht'
    obtain ⟨hlt, he⟩ := List.getElem?_eq_some_iff.mp hk'
    have hj : st.firstItem + ((j - st.firstItem).toNat : Int) = j := by omega
    refine ⟨(j - st.firstItem).toNat, hlt, ?_⟩
    rw [he, hj, hy, ht']

def FrameComplete (st : WheelItems) (layout : Layout) : Prop :=
  ∀ j, st.view.HasItem j → st.view.RowVisible layout j → ∃ text,
    st.view.textAt j = some text ∧ (st.view.rowTop layout j, text) ∈ st.frame layout

/-- The wheel shows a list of texts, and is pulled over the end only from its last item. -/
structure Pulled (v : WheelView) (layout : Layout) : Prop where
  texts : ∀ adapter, v.viewAdapter = some adapter → ∃ texts, adapter = .ofTexts texts
  ends : v.scrollingOffset ≤ -layout.itemHeight → ∀ j, v.HasItem j → j ≤ v.currentItem

/-- Nothing is drawn because the column starts behind the end of a list that got shorter. -/
def Blank (st : WheelItems) (layout : Layout) : Prop :=
  ∃ range, st.getItemsRange layout = some range ∧ st.Stale range

theorem Pulled.no_raise {v : WheelView} (h : Pulled v layout) (e : JavaException) :
    ¬ v.Raises e := by
  rintro ⟨-, adapter, ha, hmem⟩
  obtain ⟨texts, rfl⟩ := h.texts adapter ha
  simp [ArrayWheelAdapter.ofTexts] at hmem

theorem hasItems_of_hasItem (h : st.view.HasItem j) : st.HasItems := by
  obtain ⟨adapter, ha, h0, hn⟩ := h
  exact ⟨adapter, ha, by omega⟩

structure Draws (st : WheelItems) (layout : Layout) (st' : WheelItems) : Prop where
  kept : st'.Kept
  placed : st'.Placed
  view : st'.view = st.view
  fills : st.HasItems → ∃ range, st.getItemsRange layout = some range ∧ st.Filled range st'

theorem draws_of_step (hk : st.Kept ∧ st.Placed) (hh : 0 < layout.itemHeight)
    (h : st.step (.draw layout) = some st') : st.Draws layout st' := by
  rw [step_eq_some] at h
  by_cases hi : st.HasItems
  · obtain ⟨adapter, ha, hn⟩ := hi
    obtain ⟨range, hr⟩ := exists_range st hh.ne'
    have hf := (onDraw_yields hk.1 hk.2 ha hn hr).of_ok h
    exact ⟨hf.1.kept, hf.2, hf.1.view, fun _ => ⟨range, hr, hf.1⟩⟩
  · rw [ItemsEvent.callback, onDraw_empty layout hi] at h
    cases h
    exact ⟨hk.1, hk.2, rfl, fun h => absurd h hi⟩

theorem exists_draw (hk : st.Kept ∧ st.Placed) (hp : Pulled st.view layout)
    (hh : 0 < layout.itemHeight) : ∃ st', st.step (.draw layout) = some st' := by
  by_cases hi : st.HasItems
  · obtain ⟨adapter, ha, hn⟩ := hi
    obtain ⟨range, hr⟩ := exists_range st hh.ne'
    obtain ⟨_, st', h, -⟩ := (onDraw_yields hk.1 hk.2 ha hn hr).exists_ok hp.no_raise
    exact ⟨st', step_eq_some.mpr h⟩
  · exact ⟨st, step_eq_some.mpr (onDraw_empty layout hi)⟩

/-- Of a pulled wheel the items with a visible row are drawn just when the strip is pulled over
by less than two items and the column did not start behind the list. -/
theorem Draws.complete_iff (hd : st.Draws layout st') (hp : Pulled st.view layout)
    (hh : 0 < layout.itemHeight) : st'.FrameComplete layout ↔
      ((st.view.scrollingOffset.natAbs : Int) < 2 * layout.itemHeight ∧ ¬ st.Blank layout) ∨
      ∀ j, st.view.HasItem j → ¬ st.view.RowVisible layout j := by
  rw [FrameComplete, hd.view]
  constructor
  · intro hc
    by_cases hnone : ∀ j, st.view.HasItem j → ¬ st.view.RowVisible layout j
    · exact Or.inr hnone
    · left
      push Not at hnone
      obtain ⟨j, hj, hv⟩ := hnone
      obtain ⟨text, -, hmem⟩ := hc j hj hv
      obtain ⟨j', h0, hn, -, -⟩ := (mem_frame hd.kept hd.placed).mp hmem
      obtain ⟨range, hr, hf⟩ := hd.fills (hasItems_of_hasItem hj)
      constructor
      · by_contra hfar
        have hzero := getItemsRange_far hh (by omega) hr
        have hcount := hf.count
        rw [hzero] at hcount
        omega
      · rintro ⟨range', hr', hs⟩
        rw [hr] at hr'
        cases hr'
        rw [(hf.stale hs).1, List.length_nil] at hn
        omega
  · rintro (⟨hnear, hfresh⟩ | hnone) j hj hv
    · obtain ⟨range, hr, hf⟩ := hd.fills (hasItems_of_hasItem hj)
      have hs : ¬ st.Stale range := fun hs => hfresh ⟨range, hr, hs⟩
      have hin := visible_inRange hh hnear (fun ho => hp.ends ho j hj) hr hv
      obtain ⟨h0, hn⟩ := hf.covers hs j hj hin.1 hin.2
      have hrows := hd.kept.rows
      rw [hd.view] at hrows
      obtain ⟨text, -, ht⟩ := hrows.exists_get h0 (by rwa [List.length_map])
      refine ⟨text, ht, (mem_frame hd.kept hd.placed).mpr ⟨j, h0, hn, ?_, ?_⟩⟩
      · rw [hd.view]
      · rw [hd.view]
        exact ht
    · exact absurd hv (hnone j hj)

end WheelItems

end CameraClient
