import Mathlib.Algebra.Order.Field.Basic
import Mathlib.Algebra.Order.Floor.Ring
import Mathlib.Tactic.Linarith
import Mathlib.Tactic.FieldSimp
import Mathlib.Tactic.Ring

/-! An interval cut into equal strips, numbered from its start. Two such cuttings agree on
a whole interval only if they cut the same one. -/
namespace Strips
variable {K : Type*} [Field K] [LinearOrder K] [IsStrictOrderedRing K] [FloorRing K]

def strip (n : ℕ) (start length x : K) : ℤ := ⌊(x - start) * n / length⌋

variable {n : ℕ} {start length start' length' x : K}

theorem le_strip_iff (hl : 0 < length) (k : ℤ) :
    k ≤ strip n start length x ↔ k * length ≤ (x - start) * n := by
  rw [strip, Int.le_floor, le_div_iff₀ hl]

theorem strip_lt_iff (hl : 0 < length) (k : ℤ) :
    strip n start length x < k ↔ (x - start) * n < k * length := by
  rw [strip, Int.floor_lt, div_lt_iff₀ hl]

theorem strip_bounds (hn : 0 < n) (hs : start ≤ x) (hx : x < start + length) :
    0 ≤ strip n start length x ∧ strip n start length x < n := by
  have hl : 0 < length := by linarith
  have hn' : (0 : K) < n := by exact_mod_cast hn
  constructor
  · rw [le_strip_iff hl]
    have h0 : 0 ≤ x - start := by linarith
    have hp : 0 ≤ (x - start) * n := mul_nonneg h0 hn'.le
    simpa using hp
  · rw [strip_lt_iff hl]
    have h1 : x - start < length := by linarith
    have hp : (x - start) * n < length * n := mul_lt_mul_of_pos_right h1 hn'
    calc (x - start) * n < length * n := hp
      _ = ((n : ℤ) : K) * length := by push_cast; ring

theorem first_line_le (hn : 0 < n) (hl : 0 < length) (hl' : 0 < length')
    (h : ∀ x, start ≤ x → x < start + length → strip n start' length' x = strip n start length x) :
    (start - start') * n + length ≤ length' := by
  have hn' : (0 : K) < n := by exact_mod_cast hn
  by_contra hlt
  rw [not_le] at hlt
  -- a point before the first line of the inner cutting and not before that of the outer
  let x := max start (start' + length' / n)
  have hxs : start ≤ x := le_max_left _ _
  have hfirst : x < start + length / n := by
    refine max_lt (by linarith [div_pos hl hn']) ?_
    have hd : length' / n < (start - start') + length / n := by
      rw [div_lt_iff₀ hn', add_mul, div_mul_cancel₀ _ hn'.ne']
      exact hlt
    linarith
  have hle : length / n ≤ length := div_le_self hl.le (by exact_mod_cast hn)
  have heq := h x hxs (by linarith)
  have hinner : strip n start length x < 1 := by
    rw [strip_lt_iff hl, Int.cast_one, one_mul, ← lt_div_iff₀ hn']
    linarith
  have houter : 1 ≤ strip n start' length' x := by
    rw [le_strip_iff hl', Int.cast_one, one_mul, ← div_le_iff₀ hn']
    have hx : start' + length' / n ≤ x := le_max_right _ _
    linarith
  omega

theorem second_line_le (hn : 3 ≤ n) (hl : 0 < length) (hl' : 0 < length')
    (h : ∀ x, start ≤ x → x < start + length → strip n start' length' x = strip n start length x) :
    2 * length' ≤ (start - start') * n + 2 * length := by
  have hn' : (0 : K) < n := by exact_mod_cast (by omega : 0 < n)
  have hn3 : (3 : K) ≤ n := by exact_mod_cast hn
  have hpos : 0 < 2 * length / n := div_pos (by linarith) hn'
  have hin : 2 * length / n < length := by
    rw [div_lt_iff₀ hn']
    nlinarith
  have heq := h (start + 2 * length / n) (by linarith) (by linarith)
  have hinner : 2 ≤ strip n start length (start + 2 * length / n) := by
    rw [le_strip_iff hl, add_sub_cancel_left, div_mul_cancel₀ _ hn'.ne']
    simp
  rw [← heq, le_strip_iff hl'] at hinner
  have hx : (start + 2 * length / n - start') * n = (start - start') * n + 2 * length := by
    field_simp
    ring
  rw [hx] at hinner
  simpa using hinner

/-- Two cuttings, the one inside the other, agree on the inner interval exactly when they
cut the same interval. -/
theorem strip_eq_everywhere_iff (hn : 3 ≤ n) (hl : 0 < length) (hs : start' ≤ start)
    (he : start + length ≤ start' + length') :
    (∀ x, start ≤ x → x < start + length → strip n start' length' x = strip n start length x) ↔
      start = start' ∧ length = length' := by
  have hl' : 0 < length' := by linarith
  constructor
  · intro h
    have h1 := first_line_le (by omega) hl hl' h
    have h2 := second_line_le hn hl hl' h
    have hlen : length = length' := by linarith
    exact ⟨by linarith, hlen⟩
  · rintro ⟨rfl, rfl⟩ x _ _
    rfl

end Strips
