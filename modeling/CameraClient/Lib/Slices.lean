import Mathlib.Data.List.Basic
import Mathlib.Tactic.Common

/-! Consecutive entries of a source numbered by integers: a window on it that is
shortened and extended at both ends. -/
namespace Slices
variable {α : Type*} {source : Int → Option α} {first j : Int} {xs ys : List α} {x : α}

/-- `xs` are the entries of the source from the one numbered `first` on. -/
def IsSlice (source : Int → Option α) : Int → List α → Prop
  | _, [] => True
  | first, x :: xs => source first = some x ∧ IsSlice source (first + 1) xs

@[simp] theorem isSlice_nil : IsSlice source first [] := trivial

@[simp] theorem isSlice_cons :
    IsSlice source first (x :: xs) ↔ source first = some x ∧ IsSlice source (first + 1) xs :=
  Iff.rfl

theorem isSlice_append : IsSlice source first (xs ++ ys) ↔
    IsSlice source first xs ∧ IsSlice source (first + xs.length) ys := by
  induction xs generalizing first with
  | nil => simp
  | cons x xs ih =>
    have he : first + 1 + (xs.length : Int) = first + ((x :: xs).length : Int) := by
      rw [List.length_cons]
      omega
    rw [List.cons_append, isSlice_cons, ih, isSlice_cons, he, and_assoc]

theorem isSlice_singleton : IsSlice source first [x] ↔ source first = some x := by
  simp

theorem IsSlice.get (h : IsSlice source first xs) {k : Nat} (hk : xs[k]? = some x) :
    source (first + k) = some x := by
  induction xs generalizing first k with
  | nil => simp at hk
  | cons y ys ih =>
    rw [isSlice_cons] at h
    cases k with
    | zero =>
      rw [List.getElem?_cons_zero] at hk
      have he : first + ((0 : Nat) : Int) = first := by omega
      rw [he, h.1, hk]
    | succ k =>
      rw [List.getElem?_cons_succ] at hk
      have he : first + ((k + 1 : Nat) : Int) = first + 1 + k := by omega
      rw [he]
      exact ih h.2 hk

theorem IsSlice.exists_get (h : IsSlice source first xs) (h0 : first ≤ j)
    (hn : j < first + xs.length) :
    ∃ x, xs[(j - first).toNat]? = some x ∧ source j = some x := by
  have hk : (j - first).toNat < xs.length := by omega
  have hx := List.getElem?_eq_getElem hk
  refine ⟨_, hx, ?_⟩
  have hs := h.get hx
  have he : first + ((j - first).toNat : Int) = j := by omega
  rwa [he] at hs

theorem IsSlice.middle {heads mid tails : List α} (h : IsSlice source first (heads ++ mid ++ tails)) :
    IsSlice source (first + heads.length) mid := by
  rw [isSlice_append, isSlice_append] at h
  exact h.1.2

theorem filterMap_eq_mapIdx {β γ : Type*} {g : α → Option β} {t : α → γ} {f : Nat → γ → β}
    (h : ∀ (k : Nat) (x : α), xs[k]? = some x → g x = some (f k (t x))) :
    xs.filterMap g = (xs.map t).mapIdx f := by
  induction xs generalizing f with
  | nil => rfl
  | cons x xs ih =>
    have hx := h 0 x List.getElem?_cons_zero
    have hxs : xs.filterMap g = (xs.map t).mapIdx fun k => f (k + 1) := by
      apply ih
      intro k y hk
      exact h (k + 1) y (by rw [List.getElem?_cons_succ, hk])
    rw [List.filterMap_cons, hx, List.map_cons, List.mapIdx_cons, hxs]

end Slices
