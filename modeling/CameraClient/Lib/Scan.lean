import Mathlib.Algebra.Ring.Parity
import Mathlib.Data.List.DropRight
import Mathlib.Tactic.Common
import Mathlib.Tactic.IntervalCases

/-! A matcher that starts over at the symbol after a mismatch. It does not look at the
mismatching symbol again, so that of a run of first symbols it only uses every other. -/
namespace Scan
variable {α : Type} [DecidableEq α]

/-- The number of symbols read up to the end of a match, with `i` symbols matched already. -/
def scanFrom (sequence : List α) : Nat → List α → Option Nat
  | _, [] => none
  | i, c :: cs =>
    if sequence[i]? = some c then
      if i + 1 = sequence.length then some 1
      else (scanFrom sequence (i + 1) cs).map (· + 1)
    else (scanFrom sequence 0 cs).map (· + 1)

theorem scanFrom_le {sequence : List α} {i k : Nat} {l : List α}
    (h : scanFrom sequence i l = some k) : 1 ≤ k ∧ k ≤ l.length := by
  induction l generalizing i k with
  | nil => cases h
  | cons c cs ih =>
    rw [scanFrom] at h
    split_ifs at h
    · obtain rfl : 1 = k := by simpa using h
      simp
    · obtain ⟨j, hj, rfl⟩ := Option.map_eq_some_iff.mp h
      have := ih hj
      simp only [List.length_cons]
      omega
    · obtain ⟨j, hj, rfl⟩ := Option.map_eq_some_iff.mp h
      have := ih hj
      simp only [List.length_cons]
      omega

theorem scanFrom_append {sequence : List α} {i k : Nat} {l : List α} (r : List α)
    (h : scanFrom sequence i l = some k) : scanFrom sequence i (l ++ r) = some k := by
  induction l generalizing i k with
  | nil => cases h
  | cons c cs ih =>
    rw [List.cons_append, scanFrom]
    rw [scanFrom] at h
    split_ifs at h ⊢ with h1 h2
    · exact h
    · obtain ⟨j, hj, rfl⟩ := Option.map_eq_some_iff.mp h
      rw [ih hj]
      rfl
    · obtain ⟨j, hj, rfl⟩ := Option.map_eq_some_iff.mp h
      rw [ih hj]
      rfl

theorem scanFrom_take {sequence : List α} {i k n : Nat} {l : List α}
    (h : scanFrom sequence i l = some k) (hn : k ≤ n) :
    scanFrom sequence i (l.take n) = some k := by
  induction l generalizing i k n with
  | nil => cases h
  | cons c cs ih =>
    obtain ⟨n, rfl⟩ : ∃ m, n = m + 1 := ⟨n - 1, by have := scanFrom_le h; omega⟩
    rw [List.take_succ_cons, scanFrom]
    rw [scanFrom] at h
    split_ifs at h ⊢ with h1 h2
    · exact h
    · obtain ⟨j, hj, rfl⟩ := Option.map_eq_some_iff.mp h
      rw [ih hj (by omega)]
      rfl
    · obtain ⟨j, hj, rfl⟩ := Option.map_eq_some_iff.mp h
      rw [ih hj (by omega)]
      rfl

theorem scanFrom_take_iff {sequence : List α} {i k n : Nat} {l : List α} :
    scanFrom sequence i (l.take n) = some k ↔ scanFrom sequence i l = some k ∧ k ≤ n := by
  constructor
  · intro h
    have hle := (scanFrom_le h).2
    have happ := scanFrom_append (l.drop n) h
    rw [List.take_append_drop] at happ
    exact ⟨happ, by simp at hle; omega⟩
  · rintro ⟨h, hn⟩
    exact scanFrom_take h hn

/-- Two symbols end at `k`, the first of them the last of an odd run. -/
def EndsAt (x y : α) (l : List α) (k : Nat) : Prop :=
  ∃ p r, l = p ++ y :: r ∧ k = p.length + 1 ∧ Odd (p.rtakeWhile (· = x)).length

theorem rtakeWhile_concat_self (x : α) (p : List α) :
    ((p ++ [x]).rtakeWhile (· = x)).length = (p.rtakeWhile (· = x)).length + 1 := by
  rw [List.rtakeWhile_concat_pos _ _ _ (by simp)]
  simp

theorem rtakeWhile_concat_ne {x c : α} (h : c ≠ x) (p : List α) :
    ((p ++ [c]).rtakeWhile (· = x)).length = 0 := by
  rw [List.rtakeWhile_concat_neg _ _ _ (by simpa using h)]
  rfl

theorem scanFrom_pair {x y : α} (hxy : x ≠ y) {i : Nat} {q l : List α}
    (hi : i = (q.rtakeWhile (· = x)).length % 2) {k : Nat} :
    scanFrom [x, y] i l = some k ↔
      (∃ p r, l = p ++ y :: r ∧ k = p.length + 1 ∧ Odd ((q ++ p).rtakeWhile (· = x)).length) ∧
      ∀ p r, l = p ++ y :: r → Odd ((q ++ p).rtakeWhile (· = x)).length → k ≤ p.length + 1 := by
  induction l generalizing i q k with
  | nil => simp [scanFrom]
  | cons c cs ih =>
    have hcons (p r : List α) : c :: cs = p ++ y :: r ↔
        (p = [] ∧ c = y ∧ cs = r) ∨ ∃ p', p = c :: p' ∧ cs = p' ++ y :: r := by
      cases p with
      | nil => simp
      | cons a p => simp [and_comm, eq_comm]
    have hq (p : List α) : q ++ c :: p = q ++ [c] ++ p := by simp
    by_cases hy : c = y ∧ i = 1
    · obtain ⟨rfl, rfl⟩ := hy
      have hodd : Odd (q.rtakeWhile (· = x)).length := Nat.odd_iff.mpr hi.symm
      have hs : scanFrom [x, c] 1 (c :: cs) = some 1 := by simp [scanFrom]
      rw [hs, Option.some.injEq]
      constructor
      · rintro rfl
        exact ⟨⟨[], cs, rfl, rfl, by simpa using hodd⟩, fun p r _ _ => by omega⟩
      · rintro ⟨⟨p, r, -, rfl, -⟩, hmin⟩
        have := hmin [] cs rfl (by simpa using hodd)
        simp only [List.length_nil] at this
        omega
    · have hstep : ∃ i', i' = ((q ++ [c]).rtakeWhile (· = x)).length % 2 ∧
          scanFrom [x, y] i (c :: cs) = (scanFrom [x, y] i' cs).map (· + 1) := by
        have hi2 : i < 2 := hi ▸ Nat.mod_lt _ (by omega)
        by_cases hx : c = x
        · subst hx
          refine ⟨_, rfl, ?_⟩
          rw [rtakeWhile_concat_self, Nat.add_mod, ← hi]
          interval_cases i
          · simp [scanFrom]
          · simp [scanFrom, hxy.symm]
        · refine ⟨_, rfl, ?_⟩
          rw [rtakeWhile_concat_ne hx]
          interval_cases i
          · simp [scanFrom, Ne.symm hx]
          · have hcy : c ≠ y := fun h => hy ⟨h, rfl⟩
            simp [scanFrom, hcy.symm]
      obtain ⟨i', hi', hs⟩ := hstep
      have hnil : ¬ (c = y ∧ Odd (q.rtakeWhile (· = x)).length) := by
        rintro ⟨hc, hodd⟩
        exact hy ⟨hc, hi.trans (Nat.odd_iff.mp hodd)⟩
      rw [hs, Option.map_eq_some_iff]
      constructor
      · rintro ⟨j, hj, rfl⟩
        obtain ⟨⟨p, r, rfl, rfl, hodd⟩, hmin⟩ := (ih hi').mp hj
        refine ⟨⟨c :: p, r, rfl, rfl, by rwa [hq]⟩, fun p' r' hp hodd' => ?_⟩
        rcases (hcons p' r').mp hp with ⟨rfl, hc, -⟩ | ⟨p'', rfl, hp''⟩
        · exact absurd ⟨hc, by simpa using hodd'⟩ hnil
        · have := hmin p'' r' hp'' (by rwa [hq] at hodd')
          simp only [List.length_cons]
          omega
      · rintro ⟨⟨p, r, hp, rfl, hodd⟩, hmin⟩
        rcases (hcons p r).mp hp with ⟨rfl, hc, -⟩ | ⟨p', rfl, hp'⟩
        · exact absurd ⟨hc, by simpa using hodd⟩ hnil
        · refine ⟨p'.length + 1, (ih hi').mpr ⟨⟨p', r, hp', rfl, by rwa [hq] at hodd⟩,
            fun p'' r'' hp'' hodd'' => ?_⟩, by simp⟩
          have := hmin (c :: p'') r'' (by rw [hp'']; rfl) (by rwa [hq])
          simp only [List.length_cons] at this
          omega

/-- The matcher stops at the first pair whose first symbol ends an odd run of its kind. -/
theorem scanFrom_eq_some_iff {x y : α} (hxy : x ≠ y) {l : List α} {k : Nat} :
    scanFrom [x, y] 0 l = some k ↔ EndsAt x y l k ∧ ∀ j, EndsAt x y l j → k ≤ j := by
  rw [scanFrom_pair (q := []) hxy (by simp)]
  simp only [List.nil_append, EndsAt]
  constructor
  · rintro ⟨h, hmin⟩
    exact ⟨h, fun j ⟨p, r, hl, hj, hodd⟩ => hj ▸ hmin p r hl hodd⟩
  · rintro ⟨h, hmin⟩
    exact ⟨h, fun p r hl hodd => hmin _ ⟨p, r, hl, rfl, hodd⟩⟩

theorem scanFrom_pair_two_le {x y : α} (hxy : x ≠ y) {l : List α} {k : Nat}
    (h : scanFrom [x, y] 0 l = some k) : 2 ≤ k := by
  obtain ⟨⟨p, r, -, rfl, hodd⟩, -⟩ := (scanFrom_eq_some_iff hxy).mp h
  cases p with
  | nil => simp at hodd
  | cons a p => simp

theorem scanFrom_eq_none_iff {x y : α} (hxy : x ≠ y) {l : List α} :
    scanFrom [x, y] 0 l = none ↔ ∀ k, ¬ EndsAt x y l k := by
  constructor
  · intro h k hk
    -- the least place where a pair ends is where the matcher would stop
    classical
    have hex : ∃ j, EndsAt x y l j := ⟨k, hk⟩
    have hs := (scanFrom_eq_some_iff hxy).mpr
      ⟨Nat.find_spec hex, fun j hj => Nat.find_min' hex hj⟩
    rw [h] at hs
    cases hs
  · intro h
    cases hs : scanFrom [x, y] 0 l with
    | none => rfl
    | some k => exact absurd ((scanFrom_eq_some_iff hxy).mp hs).1 (h k)

theorem drop_of_scanFrom {x y : α} (hxy : x ≠ y) {l : List α} {k : Nat}
    (h : scanFrom [x, y] 0 l = some (k + 2)) : ∃ r, l.drop k = x :: y :: r := by
  obtain ⟨⟨p, r, rfl, hk, hodd⟩, -⟩ := (scanFrom_eq_some_iff hxy).mp h
  rcases List.eq_nil_or_concat p with rfl | ⟨q, c, rfl⟩
  · simp at hodd
  · have hc : c = x := by
      by_contra hne
      rw [List.concat_eq_append, rtakeWhile_concat_ne hne] at hodd
      exact absurd hodd (by decide)
    subst hc
    refine ⟨r, ?_⟩
    obtain rfl : k = q.length := by
      simp at hk
      exact hk
    simp

theorem scanFrom_skip {x : α} {sequence l r : List α} (h : ∀ c ∈ l, c ≠ x) :
    scanFrom (x :: sequence) 0 (l ++ r) = (scanFrom (x :: sequence) 0 r).map (l.length + ·) := by
  induction l with
  | nil => simp
  | cons c l ih =>
    have hc : x ≠ c := (h c (by simp)).symm
    have hstep : scanFrom (x :: sequence) 0 (c :: (l ++ r)) =
        (scanFrom (x :: sequence) 0 (l ++ r)).map (· + 1) := by
      simp [scanFrom, hc]
    rw [List.cons_append, hstep, ih fun d hd => h d (List.mem_cons_of_mem c hd), Option.map_map]
    congr 1
    funext k
    simp only [Function.comp, List.length_cons]
    omega

end Scan
