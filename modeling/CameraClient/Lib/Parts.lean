import Mathlib.Data.List.Basic
import Mathlib.Data.List.Nodup
import Mathlib.Tactic.Common

/-! Programs made of parts that run one after the other until one raises. Each
part has a piece of the state to itself: what it makes of that piece, and whether
it raises, depends on nothing else, so the whole run can be read off the state it
starts from. -/
namespace Parts
variable {ι ε σ : Type} {β : ι → Type}

/-- While `I` holds, part `i` writes `write s i`, and raises exactly where `raises` says. -/
structure Spec (program : ι → EStateM ε σ PUnit) (I : σ → Prop) (write : σ → ι → σ)
    (raises : σ → ι → Prop) : Prop where
  ok : ∀ i s, I s → ¬ raises s i → program i s = .ok ⟨⟩ (write s i)
  error : ∀ i s, I s → raises s i → ∃ e, program i s = .error e (write s i)
  keep : ∀ i s, I s → I (write s i)

structure Separate (piece : ∀ i, σ → β i) (write : σ → ι → σ) (raises : σ → ι → Prop) : Prop where
  other : ∀ i j s, i ≠ j → piece j (write s i) = piece j s
  all : ∀ i s, piece i (write s i) = piece i s → write s i = s
  raises : ∀ i s t, piece i s = piece i t → (raises s i ↔ raises t i)

def upTo (p : ι → Prop) [DecidablePred p] : List ι → List ι
  | [] => []
  | i :: is => if p i then [i] else i :: upTo p is

theorem upTo_sublist (p : ι → Prop) [DecidablePred p] (is : List ι) : (upTo p is).Sublist is := by
  induction is with
  | nil => exact List.Sublist.slnil
  | cons i is ih =>
    unfold upTo
    split_ifs
    · exact (List.nil_sublist is).cons_cons i
    · exact ih.cons_cons i

theorem upTo_congr {p q : ι → Prop} [DecidablePred p] [DecidablePred q] {is : List ι}
    (h : ∀ i ∈ is, p i ↔ q i) : upTo p is = upTo q is := by
  induction is with
  | nil => rfl
  | cons i is ih =>
    unfold upTo
    rw [ih fun j hj => h j (List.mem_cons_of_mem i hj)]
    by_cases hq : q i
    · rw [if_pos hq, if_pos ((h i (by simp)).mpr hq)]
    · rw [if_neg hq, if_neg fun hp => hq ((h i (by simp)).mp hp)]

variable {program : ι → EStateM ε σ PUnit} {I : σ → Prop} {write : σ → ι → σ}
  {raises : σ → ι → Prop} {piece : ∀ i, σ → β i}

theorem Separate.piece_foldl (hsep : Separate piece write raises) {i : ι} {is : List ι}
    (hi : i ∉ is) (s : σ) : piece i (is.foldl write s) = piece i s := by
  induction is generalizing s with
  | nil => rfl
  | cons j js ih =>
    have hij : j ≠ i := fun h => hi (by simp [h])
    rw [List.foldl_cons, ih (fun h => hi (List.mem_cons_of_mem j h)), hsep.other j i s hij]

theorem forM_ok (hspec : Spec program I write raises) (hsep : Separate piece write raises)
    {is : List ι} (hn : is.Nodup) {s : σ} (hI : I s) (h : ∀ i ∈ is, ¬ raises s i) :
    is.forM program s = .ok ⟨⟩ (is.foldl write s) := by
  induction is generalizing s with
  | nil => rfl
  | cons i is ih =>
    obtain ⟨hi, hn⟩ := List.nodup_cons.mp hn
    have hrest : ∀ j ∈ is, ¬ raises (write s i) j := by
      intro j hj hr
      have hij : i ≠ j := fun h => hi (h ▸ hj)
      exact h j (List.mem_cons_of_mem i hj) ((hsep.raises j _ _ (hsep.other i j s hij)).mp hr)
    have hrun := ih hn (hspec.keep i s hI) hrest
    change (program i >>= fun _ => is.forM program) s = _
    simp only [bind, EStateM.bind, hspec.ok i s hI (h i (by simp))]
    exact hrun

/-- A run that raises writes the parts up to the one that does. -/
theorem forM_error (hspec : Spec program I write raises) (hsep : Separate piece write raises)
    [∀ s, DecidablePred (raises s)] {is : List ι} (hn : is.Nodup) {s : σ} (hI : I s)
    (h : ∃ i ∈ is, raises s i) :
    ∃ e, is.forM program s = .error e ((upTo (raises s) is).foldl write s) := by
  induction is generalizing s with
  | nil => simp at h
  | cons i is ih =>
    obtain ⟨hi, hn⟩ := List.nodup_cons.mp hn
    unfold upTo
    change ∃ e, (program i >>= fun _ => is.forM program) s = _
    by_cases hr : raises s i
    · obtain ⟨e, he⟩ := hspec.error i s hI hr
      refine ⟨e, ?_⟩
      simp only [bind, EStateM.bind, he, if_pos hr]
      rfl
    · have hiff : ∀ j ∈ is, raises (write s i) j ↔ raises s j := by
        intro j hj
        have hij : i ≠ j := fun h => hi (h ▸ hj)
        exact hsep.raises j _ _ (hsep.other i j s hij)
      obtain ⟨j, hj, hrj⟩ : ∃ j ∈ is, raises s j := by simpa [hr] using h
      obtain ⟨e, he⟩ := ih hn (hspec.keep i s hI) ⟨j, hj, (hiff j hj).mpr hrj⟩
      refine ⟨e, ?_⟩
      simp only [bind, EStateM.bind, hspec.ok i s hI hr, if_neg hr]
      rw [← upTo_congr hiff]
      exact he

/-- Parts leave the state as it is together exactly when each of them does. -/
theorem Separate.foldl_eq_iff (hsep : Separate piece write raises) {is : List ι} (hn : is.Nodup)
    (s : σ) : is.foldl write s = s ↔ ∀ i ∈ is, write s i = s := by
  induction is with
  | nil => simp
  | cons i is ih =>
    obtain ⟨hi, hn⟩ := List.nodup_cons.mp hn
    rw [List.foldl_cons, List.forall_mem_cons]
    constructor
    · intro h
      have hw : write s i = s := by
        have hp := hsep.piece_foldl hi (write s i)
        rw [h] at hp
        exact hsep.all i s hp.symm
      exact ⟨hw, (ih hn).mp (by rwa [hw] at h)⟩
    · rintro ⟨hw, h⟩
      rw [hw]
      exact (ih hn).mpr h

end Parts
