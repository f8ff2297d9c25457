import Mathlib.Data.Nat.Digits.Defs
import Mathlib.Tactic.Common

/-! `java.util.Properties.load` and `Integer.parseInt` on a text of bytes, in UTF-16 code
units. A text is read line by line; a line of plain characters stands for itself. -/
namespace Properties

def backslash : Nat := 0x5C
def lineFeed : Nat := 0x0A
def carriageReturn : Nat := 0x0D

def isBlank (c : Nat) : Bool := c == 0x20 || c == 0x09 || c == 0x0C
def isEol (c : Nat) : Bool := c == lineFeed || c == carriageReturn
def isComment (c : Nat) : Bool := c == 0x23 || c == 0x21
def isSeparator (c : Nat) : Bool := c == 0x3D || c == 0x3A

/-- The state of `LineReader.readLine`. -/
structure LineReader where
  skipWhiteSpace : Bool := true
  isCommentLine : Bool := false
  isNewLine : Bool := true
  appendedLineBegin : Bool := false
  precedingBackslash : Bool := false
  skipLF : Bool := false
  lineBuf : List Nat := []
  deriving DecidableEq, Repr

namespace LineReader

def line (r : LineReader) : List Nat :=
  if r.precedingBackslash then r.lineBuf.dropLast else r.lineBuf

def endLine (r : LineReader) (c : Nat) (atEnd : Bool) : LineReader × Option (List Nat) :=
  if r.isCommentLine || r.lineBuf.isEmpty then ({}, none)
  else if r.precedingBackslash && !atEnd then
    ({ r with
      lineBuf := r.line, skipWhiteSpace := true, appendedLineBegin := true
      precedingBackslash := false, skipLF := c == carriageReturn }, none)
  else ({}, some r.line)

def next (r : LineReader) (c : Nat) (atEnd : Bool) : LineReader × Option (List Nat) :=
  if r.skipLF && c == lineFeed then ({ r with skipLF := false }, none)
  else if r.skipWhiteSpace && (isBlank c || !r.appendedLineBegin && isEol c) then
    ({ r with skipLF := false }, none)
  else
    let r := if r.skipWhiteSpace then { r with skipWhiteSpace := false, appendedLineBegin := false }
      else r
    let r := { r with skipLF := false }
    if r.isNewLine && isComment c then ({ r with isNewLine := false, isCommentLine := true }, none)
    else if isEol c then { r with isNewLine := false }.endLine c atEnd
    else ({ r with
      isNewLine := false, lineBuf := r.lineBuf ++ [c]
      precedingBackslash := c == backslash && !r.precedingBackslash }, none)

def lines (r : LineReader) : List Nat → List (List Nat)
  | [] => if r.isCommentLine || r.lineBuf.isEmpty then [] else [r.line]
  | c :: cs =>
    match r.next c cs.isEmpty with
    | (r, line) => line.toList ++ r.lines cs

end LineReader

/-- The key of a line, whether a separator ended it, and what follows. -/
def splitKey (precedingBackslash : Bool) : List Nat → List Nat × Bool × List Nat
  | [] => ([], false, [])
  | c :: cs =>
    if isSeparator c && !precedingBackslash then ([], true, cs)
    else if isBlank c && !precedingBackslash then ([], false, cs)
    else
      let (key, hasSep, value) := splitKey (c == backslash && !precedingBackslash) cs
      (c :: key, hasSep, value)

def valueStart (hasSep : Bool) : List Nat → List Nat
  | [] => []
  | c :: cs =>
    if isBlank c then valueStart hasSep cs
    else if !hasSep && isSeparator c then valueStart true cs
    else c :: cs

def hexDigit (c : Nat) : Option Nat :=
  if 0x30 ≤ c ∧ c ≤ 0x39 then some (c - 0x30)
  else if 0x61 ≤ c ∧ c ≤ 0x66 then some (c - 0x61 + 10)
  else if 0x41 ≤ c ∧ c ≤ 0x46 then some (c - 0x41 + 10)
  else none

def escaped (c : Nat) : Nat :=
  if c = 0x74 then 0x09 else if c = 0x72 then 0x0D else if c = 0x6E then 0x0A
  else if c = 0x66 then 0x0C else c

/-- Undoes the escapes; `none` stands for an `IllegalArgumentException`. -/
def loadConvert : List Nat → Option (List Nat)
  | [] => some []
  | c :: cs =>
    if c ≠ backslash then (loadConvert cs).map (c :: ·)
    else match cs with
      | [] => some []
      | d :: ds =>
        if d ≠ 0x75 then (loadConvert ds).map (escaped d :: ·)
        else match ds with
          | d₁ :: d₂ :: d₃ :: d₄ :: ds => do
            let value := (((← hexDigit d₁) * 16 + (← hexDigit d₂)) * 16 + (← hexDigit d₃)) * 16
            let value := value + (← hexDigit d₄)
            (loadConvert ds).map (value :: ·)
          | _ => none

def property (line : List Nat) : Option (List Nat × List Nat) := do
  let (key, hasSep, value) := splitKey false line
  pure (← loadConvert key, ← loadConvert (valueStart hasSep value))

def load (text : List UInt8) : Option (List (List Nat × List Nat)) :=
  (LineReader.lines {} (text.map UInt8.toNat)).mapM property

/-- A later property replaces an earlier one of the same key. -/
def getProperty (properties : List (List Nat × List Nat)) (key : List Nat) : Option (List Nat) :=
  (properties.reverse.find? fun p => p.1 == key).map Prod.snd

/-- The zeros of the decimal digits that are one code unit, each with its nine successors. -/
def digitZeros : List Nat :=
  [0x0030, 0x0660, 0x06F0, 0x07C0, 0x0966, 0x09E6, 0x0A66, 0x0AE6, 0x0B66, 0x0BE6, 0x0C66, 0x0CE6,
    0x0D66, 0x0DE6, 0x0E50, 0x0ED0, 0x0F20, 0x1040, 0x1090, 0x17E0, 0x1810, 0x1946, 0x19D0, 0x1A80,
    0x1A90, 0x1B50, 0x1BB0, 0x1C40, 0x1C50, 0xA620, 0xA8D0, 0xA900, 0xA9D0, 0xA9F0, 0xAA50, 0xABF0,
    0xFF10]

/-- `Character.digit` to base ten. -/
def digit (c : Nat) : Option Nat :=
  (digitZeros.find? fun z => decide (z ≤ c) && decide (c < z + 10)).map (c - ·)

def decimal (acc : Nat) : List Nat → Option Nat
  | [] => some acc
  | c :: cs => do decimal (acc * 10 + (← digit c)) cs

def magnitude : List Nat → Option Nat
  | [] => none
  | cs => decimal 0 cs

def signed : List Nat → Option Int
  | [] => none
  | c :: cs =>
    if c = 0x2D then (magnitude cs).map fun n : Nat => -(n : Int)
    else if c = 0x2B then (magnitude cs).map fun n : Nat => (n : Int)
    else (magnitude (c :: cs)).map fun n : Nat => (n : Int)

def inRange (value : Int) : Bool := decide (-2147483648 ≤ value) && decide (value ≤ 2147483647)

/-- `Integer.parseInt`; `none` stands for a `NumberFormatException`. -/
def parseInt (text : Option (List Nat)) : Option Int := do
  let value ← signed (← text)
  if inRange value then some value else none

/-- A line the reader takes as it stands. -/
structure Plain (l : List Nat) : Prop where
  chars : ∀ c ∈ l, isEol c = false ∧ c ≠ backslash
  head : ∀ c ∈ l.head?, isBlank c = false ∧ isComment c = false
  ne_nil : l ≠ []

def text (lines : List (List Nat)) : List Nat :=
  lines.flatMap fun l => l ++ [carriageReturn, lineFeed]

theorem lines_inside {l : List Nat} (hl : ∀ c ∈ l, isEol c = false ∧ c ≠ backslash)
    (cs buf : List Nat) (hbuf : buf ++ l ≠ []) :
    LineReader.lines { skipWhiteSpace := false, isNewLine := false, lineBuf := buf }
      (l ++ carriageReturn :: lineFeed :: cs) = (buf ++ l) :: LineReader.lines {} cs := by
  induction l generalizing buf with
  | nil =>
    have hb : buf.isEmpty = false := by simpa using hbuf
    simp [LineReader.lines, LineReader.next, LineReader.endLine, LineReader.line, isEol, hb,
      carriageReturn, lineFeed, isComment, isBlank]
  | cons c l ih =>
    obtain ⟨he, hb⟩ := hl c (by simp)
    have hih := ih (fun x hx => hl x (List.mem_cons_of_mem c hx)) (buf ++ [c]) (by simp)
    have hb' : (c == backslash) = false := by simpa using hb
    simpa [LineReader.lines, LineReader.next, he, hb'] using hih

theorem lines_plain {l cs : List Nat} (h : Plain l) :
    LineReader.lines {} (l ++ carriageReturn :: lineFeed :: cs) =
      l :: LineReader.lines {} cs := by
  cases l with
  | nil => exact absurd rfl h.ne_nil
  | cons c l =>
    obtain ⟨he, hb⟩ := h.chars c (by simp)
    obtain ⟨hbl, hco⟩ := h.head c (by simp)
    have hin := lines_inside (fun x hx => h.chars x (List.mem_cons_of_mem c hx)) cs [c] (by simp)
    have hb' : (c == backslash) = false := by simpa using hb
    simpa [LineReader.lines, LineReader.next, he, hb', hbl, hco] using hin

theorem lines_empty (cs : List Nat) :
    LineReader.lines {} (carriageReturn :: lineFeed :: cs) = LineReader.lines {} cs := by
  simp [LineReader.lines, LineReader.next, isEol]

theorem lines_text {ls : List (List Nat)} (h : ∀ l ∈ ls, l = [] ∨ Plain l) :
    LineReader.lines {} (text ls) = ls.filter (· ≠ []) := by
  induction ls with
  | nil => rfl
  | cons l ls ih =>
    have hls := ih fun x hx => h x (List.mem_cons_of_mem l hx)
    have ht : text (l :: ls) = l ++ carriageReturn :: lineFeed :: text ls := by simp [text]
    rw [ht]
    rcases h l (by simp) with rfl | hl
    · simpa [lines_empty] using hls
    · simp [lines_plain hl, hls, hl.ne_nil]

theorem loadConvert_plain {l : List Nat} (h : ∀ c ∈ l, c ≠ backslash) : loadConvert l = some l := by
  induction l with
  | nil => rfl
  | cons c l ih =>
    have hc : c ≠ backslash := h c (by simp)
    simp [loadConvert.eq_def (c :: l), hc, ih fun x hx => h x (List.mem_cons_of_mem c hx)]

theorem mem_splitKey {b : Bool} {l : List Nat} {c : Nat}
    (h : c ∈ (splitKey b l).1 ∨ c ∈ (splitKey b l).2.2) : c ∈ l := by
  induction l generalizing b with
  | nil => simp [splitKey] at h
  | cons d l ih =>
    rw [splitKey] at h
    split_ifs at h
    · exact List.mem_cons_of_mem d (by simpa using h)
    · exact List.mem_cons_of_mem d (by simpa using h)
    · rcases h with h | h
      · rcases List.mem_cons.mp h with rfl | h
        · exact List.mem_cons_self
        · exact List.mem_cons_of_mem d (ih (.inl h))
      · exact List.mem_cons_of_mem d (ih (.inr h))

theorem mem_valueStart {b : Bool} {l : List Nat} {c : Nat} (h : c ∈ valueStart b l) : c ∈ l := by
  induction l generalizing b with
  | nil => exact h
  | cons d l ih =>
    rw [valueStart] at h
    split_ifs at h
    · exact List.mem_cons_of_mem d (ih h)
    · exact List.mem_cons_of_mem d (ih h)
    · exact h

/-- A line without a backslash is its key and its value as they stand. -/
def plainProperty (l : List Nat) : List Nat × List Nat :=
  ((splitKey false l).1, valueStart (splitKey false l).2.1 (splitKey false l).2.2)

theorem property_plain {l : List Nat} (h : ∀ c ∈ l, c ≠ backslash) :
    property l = some (plainProperty l) := by
  have hk : loadConvert (splitKey false l).1 = some (splitKey false l).1 :=
    loadConvert_plain fun c hc => h c (mem_splitKey (.inl hc))
  have hv : loadConvert (valueStart (splitKey false l).2.1 (splitKey false l).2.2) =
      some (valueStart (splitKey false l).2.1 (splitKey false l).2.2) :=
    loadConvert_plain fun c hc => h c (mem_splitKey (.inr (mem_valueStart hc)))
  simp [property, plainProperty, hk, hv]

theorem mapM_some {β γ : Type} {f : β → Option γ} {g : β → γ} {l : List β}
    (h : ∀ b ∈ l, f b = some (g b)) : l.mapM f = some (l.map g) := by
  induction l with
  | nil => rfl
  | cons b l ih =>
    simp [List.mapM_cons, h b (by simp), ih fun x hx => h x (List.mem_cons_of_mem b hx)]

/-- A text of plain and empty lines holds the properties of its plain lines. -/
theorem load_text {bytes : List UInt8} {ls : List (List Nat)} (hb : bytes.map UInt8.toNat = text ls)
    (h : ∀ l ∈ ls, l = [] ∨ Plain l) :
    load bytes = some ((ls.filter (· ≠ [])).map plainProperty) := by
  rw [load, hb, lines_text h]
  refine mapM_some fun l hl => property_plain fun c hc => ?_
  obtain ⟨hmem, hne⟩ := List.mem_filter.mp hl
  rcases h l hmem with rfl | hp
  · simp at hne
  · exact (hp.chars c hc).2

theorem getProperty_append (ps : List (List Nat × List Nat)) {qs : List (List Nat × List Nat)}
    {key : List Nat} (h : ∀ q ∈ qs, q.1 ≠ key) (value : List Nat) : getProperty (ps ++ (key, value) :: qs) key = some value := by
  have hn : qs.reverse.find? (fun p => p.1 == key) = none := by
    rw [List.find?_eq_none]
    intro q hq
    simpa using h q (List.mem_reverse.mp hq)
  simp [getProperty, List.find?_append, hn]

theorem valueStart_blanks {value : List Nat} (hv : ∀ c ∈ value.head?, isBlank c = false)
    (blanks : Nat) : valueStart true (List.replicate blanks 0x20 ++ value) = value := by
  induction blanks with
  | zero =>
    cases value with
    | nil => rfl
    | cons c value => simp [valueStart, hv c rfl]
  | succ n ih => simpa [List.replicate_succ, valueStart, isBlank] using ih

theorem plainProperty_separated {key value : List Nat} {sep : Nat} (hs : isSeparator sep = true)
    (hk : ∀ c ∈ key, isSeparator c = false ∧ isBlank c = false ∧ c ≠ backslash)
    (hv : ∀ c ∈ value.head?, isBlank c = false) (blanks : Nat) :
    plainProperty (key ++ sep :: (List.replicate blanks 0x20 ++ value)) = (key, value) := by
  have hsplit (l : List Nat) : splitKey false (key ++ sep :: l) = (key, true, l) := by
    induction key with
    | nil => simp [splitKey, hs]
    | cons c key ih =>
      obtain ⟨hcs, hcb, hne⟩ := hk c (by simp)
      have hne' : (c == backslash) = false := by simpa using hne
      simp [splitKey, hcs, hcb, hne', ih fun x hx => hk x (List.mem_cons_of_mem c hx)]
  simp [plainProperty, hsplit, valueStart_blanks hv]

theorem decimal_digits (ds : List Nat) (h : ∀ d ∈ ds, d < 10) (acc : Nat) :
    decimal acc (ds.map (0x30 + ·)) = some (ds.foldl (fun n d => n * 10 + d) acc) := by
  induction ds generalizing acc with
  | nil => rfl
  | cons d ds ih =>
    have hd : d < 10 := h d (by simp)
    have hdig : digit (0x30 + d) = some d := by
      simp [digit, digitZeros, show 0x30 + d < 0x3A by omega]
    simp [decimal, hdig, ih (fun x hx => h x (List.mem_cons_of_mem d hx))]

def number (ds : List Nat) : Nat := ds.foldl (fun n d => n * 10 + d) 0

theorem magnitude_cons (c : Nat) (cs : List Nat) : magnitude (c :: cs) = decimal 0 (c :: cs) := rfl

theorem signed_cons {c : Nat} (h1 : c ≠ 0x2D) (h2 : c ≠ 0x2B) (cs : List Nat) :
    signed (c :: cs) = (decimal 0 (c :: cs)).map fun n : Nat => (n : Int) := by
  simp [signed, h1, h2, magnitude_cons]

theorem inRange_natCast {n : Nat} (h : n < 2147483648) : inRange n = true := by
  have h1 : (-2147483648 : Int) ≤ n := by omega
  have h2 : (n : Int) ≤ 2147483647 := by omega
  simp [inRange, h1, h2]

theorem parseInt_digits {ds : List Nat} (hne : ds ≠ []) (h : ∀ d ∈ ds, d < 10)
    (hlt : number ds < 2147483648) :
    parseInt (some (ds.map (0x30 + ·))) = some (number ds : Int) := by
  have hsigned : signed (ds.map (0x30 + ·)) = some (number ds : Int) := by
    have hdec := decimal_digits ds h 0
    cases ds with
    | nil => exact absurd rfl hne
    | cons d ds =>
      rw [List.map_cons] at hdec ⊢
      rw [signed_cons (by omega) (by omega), hdec]
      rfl
  simp [parseInt, hsigned, inRange_natCast hlt]

end Properties
