import Mathlib.Data.List.Basic
import Mathlib.Tactic.Common

/-! A device served by a first-in first-out pipeline: the state it will reach
once the pending operations have run, and whether each of them will find the
device in a state it is meant for. -/
namespace Pipeline
variable {δ τ : Type*}

def settle (exec : δ → τ → δ) (d : δ) (pending : List τ) : δ := pending.foldl exec d

/-- Each pending operation meets `ok` at the moment its turn comes. -/
def Safe (exec : δ → τ → δ) (ok : δ → τ → Prop) : δ → List τ → Prop
  | _, [] => True
  | d, t :: ts => ok d t ∧ Safe exec ok (exec d t) ts

variable {exec : δ → τ → δ} {ok : δ → τ → Prop}

@[simp] theorem settle_nil (d : δ) : settle exec d [] = d := rfl

@[simp] theorem settle_cons (d : δ) (t : τ) (ts : List τ) :
    settle exec d (t :: ts) = settle exec (exec d t) ts := rfl

@[simp] theorem settle_append (d : δ) (us vs : List τ) :
    settle exec d (us ++ vs) = settle exec (settle exec d us) vs := by
  simp [settle]

theorem safe_append (d : δ) (us vs : List τ) :
    Safe exec ok d (us ++ vs) ↔ Safe exec ok d us ∧ Safe exec ok (settle exec d us) vs := by
  induction us generalizing d with
  | nil => simp [Safe]
  | cons u us ih => simp [Safe, ih, and_assoc]

theorem settle_frame {β : Type*} (f : δ → β) (d : δ) (ts : List τ)
    (h : ∀ t ∈ ts, ∀ d, f (exec d t) = f d) : f (settle exec d ts) = f d := by
  induction ts generalizing d with
  | nil => rfl
  | cons t ts ih =>
    rw [settle_cons, ih _ (fun u hu => h u (List.mem_cons_of_mem t hu)), h t (by simp)]

end Pipeline
