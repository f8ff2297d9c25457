import Mathlib.Data.Rat.Floor
import CameraClient.Lib.Strips
import CameraClient.App

/-! Where a frame is drawn and which of its points a long touch asks to focus on. Java's
floats are rationals here. -/
namespace CameraClient
open Strips

/-- The conversion `(int)` of a number: towards zero, and into the range of an int. -/
def toInt (x : ℚ) : Int := max (-2147483648) (min 2147483647 (if 0 ≤ x then ⌊x⌋ else ⌈x⌉))

inductive DisplayMode where
  | standard
  | bestFit
  | fullscreen
  deriving DecidableEq, Repr

def SIZE_STANDARD : Int := 1
def SIZE_BEST_FIT : Int := 4
def SIZE_FULLSCREEN : Int := 8

def DisplayMode.getValue : DisplayMode → Int
  | standard => 1
  | bestFit => 4
  | fullscreen => 8

def calculateDisplayMode : DisplayMode := .bestFit

structure Rect where
  left : Int
  top : Int
  right : Int
  bottom : Int
  deriving DecidableEq, Repr

/-- The rectangle of the surface a bitmap of `bmw` by `bmh` is drawn to. -/
def destRect (displayMode dispWidth dispHeight bmw bmh : Int) : Option Rect :=
  if displayMode = SIZE_STANDARD then
    let tempx := dispWidth.tdiv 2 - bmw.tdiv 2
    let tempy := dispHeight.tdiv 2 - bmh.tdiv 2
    some ⟨tempx, tempy, bmw + tempx, bmh + tempy⟩
  else if displayMode = SIZE_BEST_FIT then
    let bmasp : ℚ := bmw / bmh
    let (bmw, bmh) :=
      if toInt (dispWidth / bmasp) > dispHeight then (toInt (dispHeight * bmasp), dispHeight)
      else (dispWidth, toInt (dispWidth / bmasp))
    let tempx := dispWidth.tdiv 2 - bmw.tdiv 2
    let tempy := dispHeight.tdiv 2 - bmh.tdiv 2
    some ⟨tempx, tempy, bmw + tempx, bmh + tempy⟩
  else if displayMode = SIZE_FULLSCREEN then some ⟨0, 0, dispWidth, dispHeight⟩
  else none

inductive MotionAction where
  | down
  | up
  | other
  deriving DecidableEq, Repr

structure MotionEvent where
  action : MotionAction
  x : ℚ
  y : ℚ
  eventTime : Int
  downTime : Int

/-- What the content view makes of a touch event: `none` when it is not handled. -/
inductive TouchAction where
  | nothing
  | toggle
  | executeOnExecutor (task : Task)
  deriving DecidableEq, Repr

def onTouch (width height : Int) (motionEvent : MotionEvent) : Option TouchAction :=
  match motionEvent.action with
  | .down => some .nothing
  | .up =>
    if motionEvent.eventTime - motionEvent.downTime < 200 then some .toggle
    else
      let x := toInt (motionEvent.x * 640 / width)
      let y := toInt (motionEvent.y * 426 / height)
      some (.executeOnExecutor (.postAutofocus x y))
  | .other => none

def MotionEvent.IsLongRelease (e : MotionEvent) : Prop :=
  e.action = .up ∧ 200 ≤ e.eventTime - e.downTime

theorem onTouch_long {e : MotionEvent} (h : e.IsLongRelease) (W H : Int) : onTouch W H e =
    some (.executeOnExecutor (.postAutofocus (toInt (e.x * 640 / W)) (toInt (e.y * 426 / H)))) := by
  obtain ⟨ha, ht⟩ := h
  have hn : ¬ e.eventTime - e.downTime < 200 := by omega
  simp only [onTouch, ha, if_neg hn]

theorem toInt_of_nonneg {x : ℚ} (h0 : 0 ≤ x) (h : x < 2147483648) : toInt x = ⌊x⌋ := by
  have hlo : 0 ≤ ⌊x⌋ := Int.floor_nonneg.mpr h0
  have hhi : ⌊x⌋ < 2147483648 := Int.floor_lt.mpr (by exact_mod_cast h)
  rw [toInt, if_pos h0]
  omega

theorem toInt_le {x : ℚ} (h0 : 0 ≤ x) : 0 ≤ toInt x ∧ (toInt x : ℚ) ≤ x := by
  have hlo : 0 ≤ ⌊x⌋ := Int.floor_nonneg.mpr h0
  have hle : toInt x ≤ ⌊x⌋ := by
    rw [toInt, if_pos h0]
    omega
  refine ⟨?_, ?_⟩
  · rw [toInt, if_pos h0]
    omega
  · calc (toInt x : ℚ) ≤ (⌊x⌋ : ℚ) := by exact_mod_cast hle
      _ ≤ x := Int.floor_le x

theorem centred_inside {length size : Int} (h0 : 0 ≤ length) (h : length ≤ size) :
    0 ≤ size.tdiv 2 - length.tdiv 2 ∧ length + (size.tdiv 2 - length.tdiv 2) ≤ size := by
  rw [Int.tdiv_eq_ediv_of_nonneg h0, Int.tdiv_eq_ediv_of_nonneg (h0.trans h)]
  omega

theorem destRect_bestFit {W H bmw bmh : Int} (hW : 0 < W) (hH : 0 < H) (hw : 0 < bmw) (hh : 0 < bmh) :
    ∃ r, destRect SIZE_BEST_FIT W H bmw bmh = some r ∧
      0 ≤ r.left ∧ r.right ≤ W ∧ 0 ≤ r.top ∧ r.bottom ≤ H := by
  have hW' : (0 : ℚ) < W := by exact_mod_cast hW
  have hH' : (0 : ℚ) < H := by exact_mod_cast hH
  have hasp : (0 : ℚ) < (bmw : ℚ) / bmh :=
    div_pos (by exact_mod_cast hw) (by exact_mod_cast hh)
  obtain ⟨hb0, hb⟩ := toInt_le (div_nonneg hW'.le hasp.le)
  by_cases hc : toInt (W / ((bmw : ℚ) / bmh)) > H
  · obtain ⟨ha0, ha⟩ := toInt_le (mul_nonneg hH'.le hasp.le)
    have hlt : (H : ℚ) < W / ((bmw : ℚ) / bmh) := lt_of_lt_of_le (by exact_mod_cast hc) hb
    have hfit : toInt (H * ((bmw : ℚ) / bmh)) ≤ W := by
      have hle : (toInt (H * ((bmw : ℚ) / bmh)) : ℚ) ≤ W := ha.trans ((lt_div_iff₀ hasp).mp hlt).le
      exact_mod_cast hle
    obtain ⟨hl, hr⟩ := centred_inside ha0 hfit
    obtain ⟨ht, hbot⟩ := centred_inside hH.le le_rfl
    refine ⟨_, by simp only [destRect, SIZE_BEST_FIT, SIZE_STANDARD, hc]; rfl, hl, hr, ht, hbot⟩
  · obtain ⟨hl, hr⟩ := centred_inside hW.le le_rfl
    obtain ⟨ht, hbot⟩ := centred_inside hb0 (not_lt.mp hc)
    refine ⟨_, by simp only [destRect, SIZE_BEST_FIT, SIZE_STANDARD, hc]; rfl, hl, hr, ht, hbot⟩

def Rect.width (r : Rect) : Int := r.right - r.left

def Rect.height (r : Rect) : Int := r.bottom - r.top

theorem Rect.right_eq (r : Rect) : (r.right : ℚ) = r.left + r.width := by simp [Rect.width]

theorem Rect.bottom_eq (r : Rect) : (r.bottom : ℚ) = r.top + r.height := by simp [Rect.height]

theorem Rect.eq_of_origin {r : Rect} {W H : Int} (hl : r.left = 0) (hw : r.width = W)
    (ht : r.top = 0) (hh : r.height = H) : r = ⟨0, 0, W, H⟩ := by
  cases r with
  | mk left top right bottom =>
    simp only [Rect.width, Rect.height] at hl hw ht hh
    simp only [Rect.mk.injEq]
    omega

structure MotionEvent.IsIn (e : MotionEvent) (r : Rect) : Prop where
  left : r.left ≤ e.x
  right : e.x < r.right
  top : r.top ≤ e.y
  bottom : e.y < r.bottom

/-- The pixel of a 640 by 426 frame in the rectangle that is under the touch. -/
def MotionEvent.pixel (e : MotionEvent) (r : Rect) : Int × Int :=
  (⌊(e.x - r.left) * 640 / r.width⌋, ⌊(e.y - r.top) * 426 / r.height⌋)

/-- A touch in the rectangle asks for the pixel under it, which is one of the frame's, and
one outside it asks for none. -/
structure FocusesUnderTouch (W H : Int) (r : Rect) (e : MotionEvent) : Prop where
  inside : e.IsIn r → onTouch W H e =
    some (.executeOnExecutor (.postAutofocus (e.pixel r).1 (e.pixel r).2)) ∧
    0 ≤ (e.pixel r).1 ∧ (e.pixel r).1 < 640 ∧ 0 ≤ (e.pixel r).2 ∧ (e.pixel r).2 < 426
  outside : ¬ e.IsIn r → ∀ x y, onTouch W H e ≠ some (.executeOnExecutor (.postAutofocus x y))

theorem toInt_scaled {n : ℕ} (hn : 0 < n) (hn' : n < 2147483648) {x : ℚ} {size : Int} (h0 : 0 ≤ x)
    (h : x < size) : toInt (x * n / size) = strip n 0 (size : ℚ) x := by
  have hs : (0 : ℚ) < size := lt_of_le_of_lt h0 h
  have hx : x < 0 + (size : ℚ) := by linarith
  have hb : 0 ≤ strip n 0 (size : ℚ) x ∧ strip n 0 (size : ℚ) x < n := strip_bounds hn h0 hx
  have hfloor : strip n 0 (size : ℚ) x = ⌊x * n / (size : ℚ)⌋ := by rw [strip, sub_zero]
  rw [hfloor] at hb ⊢
  refine toInt_of_nonneg (div_nonneg (mul_nonneg h0 (Nat.cast_nonneg n)) hs.le) ?_
  have hlt : x * n / (size : ℚ) < ((n : ℤ) : ℚ) := Int.floor_lt.mp hb.2
  have hn2 : ((n : ℤ) : ℚ) < 2147483648 := by exact_mod_cast hn'
  linarith

theorem pixel_eq (e : MotionEvent) (r : Rect) : e.pixel r =
    (strip 640 (r.left : ℚ) r.width e.x, strip 426 (r.top : ℚ) r.height e.y) := by
  simp [MotionEvent.pixel, strip]

theorem onTouch_in_rect {W H : Int} {r : Rect} {e : MotionEvent} (he : e.IsLongRelease)
    (hin : e.IsIn r) (hr : 0 ≤ r.left ∧ r.right ≤ W ∧ 0 ≤ r.top ∧ r.bottom ≤ H) :
    onTouch W H e = some (.executeOnExecutor
      (.postAutofocus (strip 640 0 (W : ℚ) e.x) (strip 426 0 (H : ℚ) e.y))) := by
  obtain ⟨hl, hri, ht, hb⟩ := hin
  have hx0 : (0 : ℚ) ≤ e.x := le_trans (by exact_mod_cast hr.1) hl
  have hxW : e.x < W := lt_of_lt_of_le hri (by exact_mod_cast hr.2.1)
  have hy0 : (0 : ℚ) ≤ e.y := le_trans (by exact_mod_cast hr.2.2.1) ht
  have hyH : e.y < H := lt_of_lt_of_le hb (by exact_mod_cast hr.2.2.2)
  have hx := toInt_scaled (n := 640) (by norm_num) (by norm_num) hx0 hxW
  have hy := toInt_scaled (n := 426) (by norm_num) (by norm_num) hy0 hyH
  rw [onTouch_long he, ← hx, ← hy]
  norm_num

theorem pixel_bounds {r : Rect} {e : MotionEvent} (hin : e.IsIn r) :
    (0 ≤ (e.pixel r).1 ∧ (e.pixel r).1 < 640) ∧ 0 ≤ (e.pixel r).2 ∧ (e.pixel r).2 < 426 := by
  obtain ⟨hl, hri, ht, hb⟩ := hin
  rw [r.right_eq] at hri
  rw [r.bottom_eq] at hb
  have hx := strip_bounds (n := 640) (by norm_num) hl hri
  have hy := strip_bounds (n := 426) (by norm_num) ht hb
  rw [pixel_eq]
  exact ⟨by exact_mod_cast hx, by exact_mod_cast hy⟩

/-- A touch is right exactly when it is in the rectangle and lies, in both directions, in
strips of the same number of the view and of the rectangle. -/
theorem focusesUnderTouch_iff {W H : Int} {r : Rect} {e : MotionEvent} (he : e.IsLongRelease)
    (hr : 0 ≤ r.left ∧ r.right ≤ W ∧ 0 ≤ r.top ∧ r.bottom ≤ H) :
    FocusesUnderTouch W H r e ↔ e.IsIn r ∧
      strip 640 0 (W : ℚ) e.x = strip 640 (r.left : ℚ) r.width e.x ∧
      strip 426 0 (H : ℚ) e.y = strip 426 (r.top : ℚ) r.height e.y := by
  constructor
  · rintro ⟨hi, ho⟩
    by_cases hin : e.IsIn r
    · have hpix := (hi hin).1
      rw [onTouch_in_rect he hin hr, pixel_eq] at hpix
      exact ⟨hin, by simpa using hpix⟩
    · exact absurd (onTouch_long he W H) (ho hin _ _)
  · rintro ⟨hin, hx, hy⟩
    refine ⟨fun _ => ⟨?_, ?_⟩, fun h => absurd hin h⟩
    · rw [onTouch_in_rect he hin hr, pixel_eq, hx, hy]
    · obtain ⟨⟨h1, h2⟩, h3, h4⟩ := pixel_bounds hin
      exact ⟨h1, h2, h3, h4⟩

def longRelease (x y : ℚ) : MotionEvent := ⟨.up, x, y, 200, 0⟩

theorem longRelease_isLongRelease (x y : ℚ) : (longRelease x y).IsLongRelease :=
  ⟨rfl, by simp [longRelease]⟩

/-- All touches in the rectangle are right only where the rectangle is the whole view. -/
theorem all_focus_iff {W H : Int} {r : Rect} (hw : 0 < r.width) (hh : 0 < r.height)
    (hr : 0 ≤ r.left ∧ r.right ≤ W ∧ 0 ≤ r.top ∧ r.bottom ≤ H) :
    (∀ e : MotionEvent, e.IsLongRelease → e.IsIn r → FocusesUnderTouch W H r e) ↔
      r = ⟨0, 0, W, H⟩ := by
  have hw' : (0 : ℚ) < r.width := by exact_mod_cast hw
  have hh' : (0 : ℚ) < r.height := by exact_mod_cast hh
  have hl0 : (0 : ℚ) ≤ r.left := by exact_mod_cast hr.1
  have ht0 : (0 : ℚ) ≤ r.top := by exact_mod_cast hr.2.2.1
  have hW : (r.left : ℚ) + r.width ≤ 0 + W := by
    rw [zero_add, ← r.right_eq]
    exact_mod_cast hr.2.1
  have hH : (r.top : ℚ) + r.height ≤ 0 + H := by
    rw [zero_add, ← r.bottom_eq]
    exact_mod_cast hr.2.2.2
  constructor
  · intro h
    have hin {x y : ℚ} (hx0 : (r.left : ℚ) ≤ x) (hx1 : x < r.left + r.width)
        (hy0 : (r.top : ℚ) ≤ y) (hy1 : y < r.top + r.height) :=
      ((focusesUnderTouch_iff (longRelease_isLongRelease x y) hr).mp
        (h (longRelease x y) (longRelease_isLongRelease x y)
          ⟨hx0, by rw [r.right_eq]; exact hx1, hy0, by rw [r.bottom_eq]; exact hy1⟩)).2
    -- the touches along the upper edge decide the width, those along the left one the height
    have hx : ∀ x : ℚ, (r.left : ℚ) ≤ x → x < r.left + r.width →
        strip 640 0 (W : ℚ) x = strip 640 (r.left : ℚ) r.width x := fun x h1 h2 =>
      (hin h1 h2 le_rfl (lt_add_of_pos_right _ hh')).1
    have hy : ∀ y : ℚ, (r.top : ℚ) ≤ y → y < r.top + r.height →
        strip 426 0 (H : ℚ) y = strip 426 (r.top : ℚ) r.height y := fun y h1 h2 =>
      (hin le_rfl (lt_add_of_pos_right _ hw') h1 h2).2
    obtain ⟨hl, hwW⟩ := (strip_eq_everywhere_iff (by norm_num) hw' hl0 hW).mp hx
    obtain ⟨ht, hhH⟩ := (strip_eq_everywhere_iff (by norm_num) hh' ht0 hH).mp hy
    exact Rect.eq_of_origin (by exact_mod_cast hl) (by exact_mod_cast hwW) (by exact_mod_cast ht)
      (by exact_mod_cast hhH)
  · rintro rfl e he hin
    refine (focusesUnderTouch_iff he hr).mpr ⟨hin, ?_, ?_⟩ <;> simp [Rect.width, Rect.height]

/-- The frame fills a view whose height is its width's share, rounded down. -/
theorem destRect_fills_iff {W H : Int} {r : Rect} (hW : 0 < W) (hH : 0 < H) (hmax : W < 2147483648)
    (h : destRect SIZE_BEST_FIT W H 640 426 = some r) :
    r = ⟨0, 0, W, H⟩ ↔ 320 * H ≤ 213 * W ∧ 213 * W < 320 * (H + 1) := by
  have hW' : (0 : ℚ) < W := by exact_mod_cast hW
  have hWmax : (W : ℚ) < 2147483648 := by exact_mod_cast hmax
  have hasp : (W : ℚ) / (((640 : Int) : ℚ) / ((426 : Int) : ℚ)) = 213 * W / 320 := by
    push_cast
    ring
  obtain ⟨k, hk⟩ : ∃ k, toInt ((W : ℚ) / (((640 : Int) : ℚ) / ((426 : Int) : ℚ))) = k := ⟨_, rfl⟩
  have hfloor : k = ⌊(213 * W / 320 : ℚ)⌋ := by
    rw [← hk, hasp]
    exact toInt_of_nonneg (by positivity) (by linarith)
  have hlo : 320 * k ≤ 213 * W := by
    have hle := Int.floor_le (213 * W / 320 : ℚ)
    rw [← hfloor, le_div_iff₀ (by norm_num)] at hle
    have hq : (320 * k : ℚ) ≤ 213 * W := by linarith
    exact_mod_cast hq
  have hhi : 213 * W < 320 * (k + 1) := by
    have hlt := Int.lt_floor_add_one (213 * W / 320 : ℚ)
    rw [← hfloor, div_lt_iff₀ (by norm_num)] at hlt
    have hq : (213 * W : ℚ) < 320 * (k + 1) := by linarith
    exact_mod_cast hq
  simp only [destRect, SIZE_BEST_FIT, SIZE_STANDARD, hk] at h
  by_cases hc : k > H
  · simp only [hc, if_true, if_false, Int.reduceEq, Option.some.injEq] at h
    obtain ⟨w, hw⟩ : ∃ w, toInt ((H : ℚ) * (((640 : Int) : ℚ) / ((426 : Int) : ℚ))) = w := ⟨_, rfl⟩
    rw [hw] at h
    subst h
    have hno : ¬ 213 * W < 320 * (H + 1) := by omega
    refine ⟨fun hwhole => ?_, fun hfill => absurd hfill.2 hno⟩
    simp only [Rect.mk.injEq] at hwhole
    obtain ⟨hleft, -, hright, -⟩ := hwhole
    have hwW : w = W := by omega
    have hH0 : (0 : ℚ) ≤ (H : ℚ) * (((640 : Int) : ℚ) / ((426 : Int) : ℚ)) :=
      mul_nonneg (by exact_mod_cast hH.le) (by norm_num)
    have hle := (toInt_le hH0).2
    rw [hw, hwW] at hle
    have hq : (213 * W : ℚ) ≤ 320 * H := by
      push_cast at hle
      linarith
    have hz : 213 * W ≤ 320 * H := by exact_mod_cast hq
    omega
  · simp only [hc, if_true, if_false, Int.reduceEq, Option.some.injEq] at h
    subst h
    simp only [Rect.mk.injEq, sub_self, true_and, add_zero]
    constructor
    · intro hk
      omega
    · intro hfill
      obtain rfl : k = H := by omega
      simp

/-- Touch focus on a letterboxed frame: a release focuses under the touch exactly when it is
in the rectangle of the frame and its strips in view and rectangle agree; for all releases in
the rectangle this is so exactly when the frame fills the view. -/
theorem touch_focus_iff {W H : Int} (hW : 0 < W) (hH : 0 < H) :
    ∃ r, destRect calculateDisplayMode.getValue W H 640 426 = some r ∧
      (∀ e : MotionEvent, e.IsLongRelease → (FocusesUnderTouch W H r e ↔ e.IsIn r ∧
        strip 640 0 (W : ℚ) e.x = strip 640 (r.left : ℚ) r.width e.x ∧
        strip 426 0 (H : ℚ) e.y = strip 426 (r.top : ℚ) r.height e.y)) ∧
      (0 < r.width → 0 < r.height →
        ((∀ e : MotionEvent, e.IsLongRelease → e.IsIn r → FocusesUnderTouch W H r e) ↔
          r = ⟨0, 0, W, H⟩)) ∧
      (W < 2147483648 →
        (r = ⟨0, 0, W, H⟩ ↔ 320 * H ≤ 213 * W ∧ 213 * W < 320 * (H + 1))) := by
  obtain ⟨r, hdest, hr⟩ := destRect_bestFit hW hH (by norm_num : (0 : Int) < 640)
    (by norm_num : (0 : Int) < 426)
  exact ⟨r, hdest, fun e he => focusesUnderTouch_iff he hr, fun hw hh => all_focus_iff hw hh hr,
    fun hmax => destRect_fills_iff hW hH hmax hdest⟩

/-- On a view of the frame's own size the touches in it are right. -/
theorem touch_focus_iff_frame_size :
    destRect calculateDisplayMode.getValue 640 426 640 426 = some ⟨0, 0, 640, 426⟩ ∧
    FocusesUnderTouch 640 426 ⟨0, 0, 640, 426⟩ (longRelease 320 213) := by
  obtain ⟨r, hdest, -, hall, -⟩ := touch_focus_iff (by norm_num : (0 : Int) < 640)
    (by norm_num : (0 : Int) < 426)
  have hr : destRect calculateDisplayMode.getValue 640 426 640 426 = some ⟨0, 0, 640, 426⟩ := by
    decide +kernel
  obtain rfl : r = ⟨0, 0, 640, 426⟩ := Option.some.inj (hdest.symm.trans hr)
  refine ⟨hr, (hall (by decide) (by decide)).mpr rfl _ (longRelease_isLongRelease _ _) ?_⟩
  constructor <;> norm_num [longRelease]

/-- On a wide screen the frame has bars at its sides: its left edge is taken for column 50,
and a touch of the bar focuses too. -/
theorem letterboxed_touch_misses :
    destRect calculateDisplayMode.getValue 1280 720 640 426 = some ⟨100, 0, 1181, 720⟩ ∧
    (longRelease 100 0).pixel ⟨100, 0, 1181, 720⟩ = (0, 0) ∧
    onTouch 1280 720 (longRelease 100 0) = some (.executeOnExecutor (.postAutofocus 50 0)) ∧
    onTouch 1280 720 (longRelease 50 0) = some (.executeOnExecutor (.postAutofocus 25 0)) ∧
    ¬ FocusesUnderTouch 1280 720 ⟨100, 0, 1181, 720⟩ (longRelease 100 0) ∧
    ¬ FocusesUnderTouch 1280 720 ⟨100, 0, 1181, 720⟩ (longRelease 50 0) := by
  have hpixel : (longRelease 100 0).pixel ⟨100, 0, 1181, 720⟩ = (0, 0) := by decide +kernel
  have hedge : onTouch 1280 720 (longRelease 100 0) =
      some (.executeOnExecutor (.postAutofocus 50 0)) := by decide +kernel
  have hbar : onTouch 1280 720 (longRelease 50 0) =
      some (.executeOnExecutor (.postAutofocus 25 0)) := by decide +kernel
  refine ⟨by decide +kernel, hpixel, hedge, hbar, fun h => ?_, fun h => ?_⟩
  · have hin : (longRelease 100 0).IsIn ⟨100, 0, 1181, 720⟩ := by
      constructor <;> norm_num [longRelease]
    have hpost := (h.inside hin).1
    rw [hedge, hpixel] at hpost
    exact absurd hpost (by decide)
  · refine h.outside (fun hin => ?_) 25 0 hbar
    have hleft := hin.left
    norm_num [longRelease] at hleft

end CameraClient
