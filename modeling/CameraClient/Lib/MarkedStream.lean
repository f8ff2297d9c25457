import CameraClient.Lib.StateError
import Mathlib.Data.List.Basic
import Mathlib.Tactic.Common

/-! Readers of a buffered stream that can be marked and reset. The mark is good for as
many symbols as the buffer holds or the mark asked for; a reader that goes further
loses it. -/
namespace MarkedStream
open StateError
variable {α φ : Type}

/-- How a reader may end; `fault` is for what it raises of its own. -/
inductive Stop (φ : Type) where
  | endOfFile
  | invalidMark
  | fault (f : φ)
  deriving DecidableEq, Repr

/-- `symbols` are those from the last mark on, `pos` of them are read. -/
structure Stream (α : Type) where
  symbols : List α
  pos : Nat := 0
  size : Nat
  marklimit : Nat := 0
  marked : Bool := false
  deriving DecidableEq, Repr

abbrev Reader (α φ : Type) := EStateM (Stop φ) (Stream α)

namespace Stream

def rest (s : Stream α) : List α := s.symbols.drop s.pos

def reach (s : Stream α) : Nat := max s.size s.marklimit

def ask (s : Stream α) (n : Nat) : Stream α :=
  { s with marked := s.marked && decide (s.pos + n ≤ s.reach) }

def advance (s : Stream α) (n : Nat) : Stream α := { s.ask n with pos := s.pos + n }

def remark (s : Stream α) (readlimit : Nat) : Stream α :=
  { s with symbols := s.rest, pos := 0, marklimit := readlimit, marked := true }

def exhaust (s : Stream α) : Stream α := (s.advance s.rest.length).ask 1

/-- The mark is only kept within its reach. -/
def Sound (s : Stream α) : Prop := s.marked → s.pos ≤ s.reach

theorem sound_advance (s : Stream α) (n : Nat) : (s.advance n).Sound := by
  intro h
  have hm : s.marked = true ∧ s.pos + n ≤ s.reach := by simpa [advance, ask] using h
  exact hm.2

theorem sound_remark (s : Stream α) (n : Nat) : (s.remark n).Sound := by
  simp [Sound, remark]

theorem advance_zero {s : Stream α} (h : s.Sound) : s.advance 0 = s := by
  have hb : (s.marked && decide (s.pos ≤ s.reach)) = s.marked := by
    cases hm : s.marked with
    | false => rfl
    | true => simp [h hm]
  simp only [advance, ask, Nat.add_zero, hb]

theorem advance_advance (s : Stream α) (m n : Nat) :
    (s.advance m).advance n = s.advance (m + n) := by
  have hb : ((s.marked && decide (s.pos + m ≤ s.reach)) && decide (s.pos + m + n ≤ s.reach)) =
      (s.marked && decide (s.pos + (m + n) ≤ s.reach)) := by
    by_cases h : s.pos + (m + n) ≤ s.reach
    · simp [h, Nat.add_assoc, show s.pos + m ≤ s.reach by omega]
    · simp [h, Nat.add_assoc]
  simp only [advance, ask, Nat.add_assoc] at hb ⊢
  exact congrArg (fun b => ({ s with pos := s.pos + (m + n), marked := b } : Stream α)) hb

@[simp] theorem rest_advance (s : Stream α) (n : Nat) : (s.advance n).rest = s.rest.drop n := by
  simp [rest, advance, ask, List.drop_drop]

@[simp] theorem rest_ask (s : Stream α) (n : Nat) : (s.ask n).rest = s.rest := rfl

@[simp] theorem rest_remark (s : Stream α) (n : Nat) : (s.remark n).rest = s.rest := by
  simp [rest, remark]

@[simp] theorem rest_exhaust (s : Stream α) : s.exhaust.rest = [] := by
  simp [exhaust]

@[simp] theorem size_advance (s : Stream α) (n : Nat) : (s.advance n).size = s.size := rfl

@[simp] theorem size_remark (s : Stream α) (n : Nat) : (s.remark n).size = s.size := rfl

theorem exhaust_advance {s : Stream α} {n : Nat} (h : n ≤ s.rest.length) :
    (s.advance n).exhaust = s.exhaust := by
  rw [exhaust, advance_advance, rest_advance, List.length_drop, Nat.add_sub_cancel' h, exhaust]

theorem exhaust_eq_of_nil {s : Stream α} (h : s.rest = []) (hs : s.Sound) :
    s.exhaust = s.ask 1 := by
  rw [exhaust, h, List.length_nil, advance_zero hs]

end Stream

def mark (readlimit : Nat) : Reader α φ Unit := fun s => .ok () (s.remark readlimit)

def reset : Reader α φ Unit := fun s =>
  if s.marked then .ok () { s with pos := 0 } else .error .invalidMark s

def read : Reader α φ α := fun s =>
  match s.rest with
  | a :: _ => .ok a (s.advance 1)
  | [] => .error .endOfFile (s.ask 1)

def readFully : Nat → Reader α φ (List α)
  | 0 => pure []
  | n + 1 => do
    let a ← read
    let as ← readFully n
    pure (a :: as)

def skipBytes (n : Nat) : Reader α φ Unit := fun s =>
  if n ≤ s.rest.length then .ok () (s.advance n) else .ok () s.exhaust

@[simp] theorem mark_apply (n : Nat) (s : Stream α) :
    (mark n : Reader α φ Unit) s = .ok () (s.remark n) := rfl

theorem read_cons {s : Stream α} {a : α} {as : List α} (h : s.rest = a :: as) :
    (read : Reader α φ α) s = .ok a (s.advance 1) := by
  simp [read, h]

theorem read_nil {s : Stream α} (h : s.rest = []) :
    (read : Reader α φ α) s = .error .endOfFile (s.ask 1) := by
  simp [read, h]

theorem skipBytes_of_le {s : Stream α} {n : Nat} (h : n ≤ s.rest.length) :
    (skipBytes n : Reader α φ Unit) s = .ok () (s.advance n) := by
  simp [skipBytes, h]

theorem reset_remark (s : Stream α) (readlimit n : Nat) :
    (reset : Reader α φ Unit) ((s.remark readlimit).advance n) =
      if n ≤ max s.size readlimit then .ok () (s.remark readlimit)
      else .error .invalidMark ((s.remark readlimit).advance n) := by
  by_cases h : n ≤ max s.size readlimit <;>
    simp [reset, Stream.advance, Stream.ask, Stream.remark, Stream.reach, h]

theorem readFully_of_le {s : Stream α} {n : Nat} (hs : s.Sound) (h : n ≤ s.rest.length) :
    (readFully n : Reader α φ (List α)) s = .ok (s.rest.take n) (s.advance n) := by
  induction n generalizing s with
  | zero => simp [readFully, Stream.advance_zero hs]
  | succ n ih =>
    cases hr : s.rest with
    | nil => simp [hr] at h
    | cons a as =>
      have hle : n ≤ (s.advance 1).rest.length := by
        rw [hr, List.length_cons] at h
        rw [Stream.rest_advance, hr, List.drop_one, List.tail_cons]
        omega
      rw [readFully, bind_ok (read_cons hr), bind_ok (ih (s.sound_advance 1) hle)]
      simp [hr, Stream.advance_advance, Nat.add_comm]

theorem readFully_of_lt {s : Stream α} {n : Nat} (hs : s.Sound) (h : s.rest.length < n) :
    (readFully n : Reader α φ (List α)) s = .error .endOfFile s.exhaust := by
  induction n generalizing s with
  | zero => omega
  | succ n ih =>
    cases hr : s.rest with
    | nil => rw [readFully, bind_error (read_nil hr), Stream.exhaust_eq_of_nil hr hs]
    | cons a as =>
      have hlt : (s.advance 1).rest.length < n := by
        rw [hr, List.length_cons] at h
        rw [Stream.rest_advance, hr, List.drop_one, List.tail_cons]
        omega
      rw [readFully, bind_ok (read_cons hr), bind_error (ih (s.sound_advance 1) hlt),
        Stream.exhaust_advance (by simp [hr])]

end MarkedStream
