import Mathlib.Algebra.Order.Ring.Abs
import Mathlib.Algebra.Order.Ring.Int
import Mathlib.Algebra.Order.BigOperators.Group.List
import Mathlib.Algebra.BigOperators.Group.List.Basic
import Mathlib.Tactic.Linarith
import Mathlib.Tactic.Ring

/-! A strip with stops a fixed pitch apart: the stop nearest to a position, and
positions walked along the strip between two ends. -/
namespace Detents

/-- Of the stops `0, pitch, ..., (n - 1) * pitch`, the one numbered `i` is nearest to `p`. -/
def IsNearest (n pitch p i : ℤ) : Prop :=
  0 ≤ i ∧ i < n ∧ ∀ j, 0 ≤ j → j < n → |p - i * pitch| ≤ |p - j * pitch|

variable {n pitch p q i j : ℤ}

/-- It is enough to look half a pitch to each side that has a stop. -/
theorem isNearest_iff (hp : 0 < pitch) : IsNearest n pitch p i ↔ 0 ≤ i ∧ i < n ∧
    (i = n - 1 ∨ 2 * (p - i * pitch) ≤ pitch) ∧ (i = 0 ∨ -pitch ≤ 2 * (p - i * pitch)) := by
  constructor
  · intro ⟨h0, hn, h⟩
    refine ⟨h0, hn, ?_, ?_⟩
    · by_cases hl : i = n - 1
      · exact Or.inl hl
      · right
        have hj := h (i + 1) (by omega) (by omega)
        have he : p - (i + 1) * pitch = p - i * pitch - pitch := by ring
        rw [he] at hj
        by_contra hc
        rw [abs_of_pos (by omega)] at hj
        have hlt : |p - i * pitch - pitch| < p - i * pitch := by
          rw [abs_lt]
          constructor <;> omega
        omega
    · by_cases hl : i = 0
      · exact Or.inl hl
      · right
        have hj := h (i - 1) (by omega) (by omega)
        have he : p - (i - 1) * pitch = p - i * pitch + pitch := by ring
        rw [he] at hj
        by_contra hc
        rw [abs_of_neg (by omega)] at hj
        have hlt : |p - i * pitch + pitch| < -(p - i * pitch) := by
          rw [abs_lt]
          constructor <;> omega
        omega
  · intro ⟨h0, hn, hr, hl⟩
    refine ⟨h0, hn, ?_⟩
    intro j hj0 hjn
    rcases lt_trichotomy i j with hij | hij | hij
    · have hle : (i + 1) * pitch ≤ j * pitch := mul_le_mul_of_nonneg_right (by omega) hp.le
      have he : (i + 1) * pitch = i * pitch + pitch := by ring
      have hright : 2 * (p - i * pitch) ≤ pitch := by
        rcases hr with hr | hr
        · omega
        · exact hr
      calc |p - i * pitch| ≤ j * pitch - p := by
            rw [abs_le]
            constructor <;> omega
        _ = -(p - j * pitch) := by ring
        _ ≤ |p - j * pitch| := neg_le_abs _
    · rw [hij]
    · have hle : j * pitch ≤ (i - 1) * pitch := mul_le_mul_of_nonneg_right (by omega) hp.le
      have he : (i - 1) * pitch = i * pitch - pitch := by ring
      have hleft : -pitch ≤ 2 * (p - i * pitch) := by
        rcases hl with hl | hl
        · omega
        · exact hl
      calc |p - i * pitch| ≤ p - j * pitch := by
            rw [abs_le]
            constructor <;> omega
        _ ≤ |p - j * pitch| := le_abs_self _

theorem IsNearest.of_between (hp : 0 < pitch) (h : IsNearest n pitch p i)
    (hq : |q - i * pitch| ≤ |p - i * pitch|)
    (hs : 0 ≤ (q - i * pitch) * (p - i * pitch)) : IsNearest n pitch q i := by
  rw [isNearest_iff hp] at h ⊢
  obtain ⟨h0, hn, hr, hl⟩ := h
  refine ⟨h0, hn, ?_, ?_⟩
  · rcases hr with hr | hr
    · exact Or.inl hr
    · right
      by_contra hc
      have hpos : 0 < q - i * pitch := by omega
      have hp0 : 0 ≤ p - i * pitch := nonneg_of_mul_nonneg_right hs hpos
      rw [abs_of_pos hpos, abs_of_nonneg hp0] at hq
      omega
  · rcases hl with hl | hl
    · exact Or.inl hl
    · right
      by_contra hc
      have hneg : q - i * pitch < 0 := by omega
      have hp0 : p - i * pitch ≤ 0 := by
        by_contra hpos
        rw [not_le] at hpos
        have := mul_neg_of_neg_of_pos hneg hpos
        omega
      rw [abs_of_neg hneg, abs_of_nonpos hp0] at hq
      omega

def clamp (lo hi x : ℤ) : ℤ := max lo (min hi x)

variable {lo hi : ℤ}

theorem clamp_of_inside (hl : lo ≤ p) (hh : p ≤ hi) : clamp lo hi p = p := by
  rw [clamp, min_eq_right hh, max_eq_right hl]

theorem le_clamp : lo ≤ clamp lo hi p := le_max_left _ _

theorem clamp_le (h : lo ≤ hi) : clamp lo hi p ≤ hi := max_le h (min_le_left _ _)

def walk (lo hi p : ℤ) (ds : List ℤ) : ℤ := ds.foldl (fun p d => clamp lo hi (p - d)) p

@[simp] theorem walk_nil : walk lo hi p [] = p := rfl

@[simp] theorem walk_cons (d : ℤ) (ds : List ℤ) :
    walk lo hi p (d :: ds) = walk lo hi (clamp lo hi (p - d)) ds := rfl

/-- Distances in one direction lead where their sum does. -/
theorem walk_forward (h : lo ≤ hi) (ds : List ℤ) (hl : lo ≤ p) (hh : p ≤ hi)
    (hd : ∀ d ∈ ds, 0 ≤ d) : walk lo hi p ds = clamp lo hi (p - ds.sum) := by
  induction ds generalizing p with
  | nil => simp [clamp_of_inside hl hh]
  | cons d ds ih =>
    have hd0 : 0 ≤ d := hd d (by simp)
    have htail : ∀ e ∈ ds, 0 ≤ e := fun e he => hd e (by simp [he])
    have hsum : 0 ≤ ds.sum := List.sum_nonneg htail
    rw [walk_cons, ih le_clamp (clamp_le h) htail, List.sum_cons]
    simp only [clamp]
    omega

theorem walk_mirror (h : lo ≤ hi) (ds : List ℤ) :
    walk (-hi) (-lo) (-p) (ds.map fun d => -d) = -walk lo hi p ds := by
  induction ds generalizing p with
  | nil => rfl
  | cons d ds ih =>
    have hc : clamp (-hi) (-lo) (-p - -d) = -clamp lo hi (p - d) := by
      simp only [clamp]
      omega
    rw [List.map_cons, walk_cons, walk_cons, hc, ih]

theorem walk_backward (h : lo ≤ hi) (ds : List ℤ) (hl : lo ≤ p) (hh : p ≤ hi)
    (hd : ∀ d ∈ ds, d ≤ 0) : walk lo hi p ds = clamp lo hi (p - ds.sum) := by
  have hneg : ∀ e ∈ ds.map fun d => -d, 0 ≤ e := by
    intro e he
    obtain ⟨d, hmem, rfl⟩ := List.mem_map.mp he
    have hle := hd d hmem
    omega
  have hm : walk (-hi) (-lo) (-p) (ds.map fun d => -d) =
      clamp (-hi) (-lo) (-p - (ds.map fun d => -d).sum) :=
    walk_forward (by omega) _ (by omega) (by omega) hneg
  have hs : (ds.map fun d => -d).sum = -ds.sum := (List.sum_neg ds).symm
  rw [walk_mirror h, hs] at hm
  simp only [clamp] at hm ⊢
  omega

end Detents
