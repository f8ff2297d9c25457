import Mathlib.Tactic.Common

/-! Running a state transformer that may raise: what it wrote before raising stays.
`Yields` is its specification, with one rule for sequencing. -/
namespace StateError
variable {ε σ β γ : Type}

@[simp] theorem pure_apply (b : β) (s : σ) : (pure b : EStateM ε σ β) s = .ok b s := rfl

@[simp] theorem throw_apply (e : ε) (s : σ) : (throw e : EStateM ε σ β) s = .error e s := rfl

@[simp] theorem get_apply (s : σ) : (get : EStateM ε σ σ) s = .ok s s := rfl

@[simp] theorem modify_apply (f : σ → σ) (s : σ) :
    (modify f : EStateM ε σ PUnit) s = .ok ⟨⟩ (f s) := rfl

@[simp] theorem bind_apply (x : EStateM ε σ β) (f : β → EStateM ε σ γ) (s : σ) :
    (x >>= f) s = match x s with | .ok b t => f b t | .error e t => .error e t := by
  cases h : x s <;> simp [bind, EStateM.bind, h]

@[simp] theorem map_apply (f : β → γ) (x : EStateM ε σ β) (s : σ) :
    (f <$> x) s = match x s with | .ok b t => .ok (f b) t | .error e t => .error e t := by
  cases h : x s <;> simp [Functor.map, EStateM.map, h]

theorem bind_ok {x : EStateM ε σ β} {f : β → EStateM ε σ γ} {s t : σ} {b : β}
    (h : x s = .ok b t) : (x >>= f) s = f b t := by
  simp [h]

theorem bind_error {x : EStateM ε σ β} {f : β → EStateM ε σ γ} {s t : σ} {e : ε}
    (h : x s = .error e t) : (x >>= f) s = .error e t := by
  simp [h]

theorem bind_eq_ok {x : EStateM ε σ β} {f : β → EStateM ε σ γ} {s t : σ} {c : γ} :
    (x >>= f) s = .ok c t ↔ ∃ b u, x s = .ok b u ∧ f b u = .ok c t := by
  rw [bind_apply]
  cases x s <;> simp

/-- Run from `s`, the transformer returns with `Q` or raises with `E`. -/
def Yields (E : ε → Prop) (x : EStateM ε σ β) (s : σ) (Q : β → σ → Prop) : Prop :=
  match x s with
  | .ok b t => Q b t
  | .error e _ => E e

section Yields
variable {E : ε → Prop} {x : EStateM ε σ β} {f : β → EStateM ε σ γ} {s t : σ} {b : β}
  {P Q : β → σ → Prop} {R : γ → σ → Prop}

theorem yields_ok (h : x s = .ok b t) (hq : Q b t) : Yields E x s Q := by
  simpa [Yields, h] using hq

theorem yields_error {e : ε} (h : x s = .error e t) (he : E e) : Yields E x s Q := by
  simpa [Yields, h] using he

theorem Yields.bind (h : Yields E x s P) (hf : ∀ b t, P b t → Yields E (f b) t R) :
    Yields E (x >>= f) s R := by
  unfold Yields at h ⊢
  rw [bind_apply]
  cases hx : x s with
  | ok b t =>
    rw [hx] at h
    exact hf b t h
  | error e t =>
    rw [hx] at h
    exact h

theorem Yields.mono (h : Yields E x s P) (hq : ∀ b t, P b t → Q b t) : Yields E x s Q := by
  unfold Yields at h ⊢
  cases hx : x s with
  | ok b t =>
    rw [hx] at h
    exact hq b t h
  | error e t =>
    rw [hx] at h
    exact h

theorem Yields.of_ok (h : Yields E x s Q) (hx : x s = .ok b t) : Q b t := by
  simpa [Yields, hx] using h

theorem Yields.exists_ok (h : Yields E x s Q) (hE : ∀ e, ¬ E e) : ∃ b t, x s = .ok b t ∧ Q b t := by
  unfold Yields at h
  cases hx : x s with
  | ok b t =>
    rw [hx] at h
    exact ⟨b, t, rfl, h⟩
  | error e t =>
    rw [hx] at h
    exact absurd h (hE e)

end Yields

end StateError
