import Mathlib.Algebra.GroupWithZero.Nat
import Mathlib.Tactic.Common

/-! `my_jpeg_load_dht`, which reads Huffman tables from a DHT segment into the slots of a
decompressor. Reading or writing outside an array ends the C program's meaning: `Overrun`. -/
namespace CameraClient

inductive Overrun where
  | overrun
  deriving DecidableEq, Repr

/-- A `JHUFF_TBL`: the numbers of codes by length, the first of them unused, and the symbols.
The symbols behind those counted are whatever the stack held and are left out. -/
structure HuffTable where
  bits : List UInt8
  huffval : List UInt8
  deriving DecidableEq, Repr

structure HuffTables where
  ac : List (Option HuffTable) := [none, none, none, none]
  dc : List (Option HuffTable) := [none, none, none, none]
  deriving DecidableEq, Repr

def NUM_HUFF_TBLS : Nat := 4

namespace HuffTables

def set (t : HuffTables) (isAc : Bool) (index : Nat) (table : HuffTable) : HuffTables :=
  if isAc then { t with ac := t.ac.set index (some table) }
  else { t with dc := t.dc.set index (some table) }

end HuffTables

def readBytes (dht : List UInt8) (pos n : Nat) : Except Overrun (List UInt8) :=
  if pos + n ≤ dht.length then .ok ((dht.drop pos).take n) else .error .overrun

def codeCount (bits : List UInt8) : Nat := (bits.map UInt8.toNat).sum

/-- The loop of `my_jpeg_load_dht`. Its `length` shrinks by 17 at least, so that the fuel it is
given with lasts. -/
def loadDhtLoop (dht : List UInt8) :
    Nat → Nat → Nat → HuffTables → Except Overrun (Int × HuffTables)
  | 0, _, _, tables => .ok (-1, tables)
  | fuel + 1, length, pos, tables =>
    if length > 16 then do
      let head ← readBytes dht pos 1
      let bits ← readBytes dht (pos + 1) 16
      let count := codeCount bits
      let index := (head.headD 0).toNat
      let length := length - 17
      if count > 256 ∨ count > length then .ok (-1, tables)
      else do
        let huffval ← readBytes dht (pos + 17) count
        let length := length - count
        let isAc := decide (index / 16 % 2 = 1)
        let index := if isAc then index - 16 else index
        if index ≥ NUM_HUFF_TBLS then .ok (-1, tables)
        else
          loadDhtLoop dht fuel length (pos + 17 + count)
            (tables.set isAc index ⟨0 :: bits, huffval⟩)
    else .ok (if length ≠ 0 then -1 else 0, tables)

def lengthField (dht : List UInt8) : Nat :=
  (dht.getD 2 0).toNat * 256 + (dht.getD 3 0).toNat

def my_jpeg_load_dht (dht : List UInt8) (tables : HuffTables) :
    Except Overrun (Int × HuffTables) := do
  let _ ← readBytes dht 2 2
  -- an unsigned difference, which wraps around for a field below 2
  let length := (lengthField dht + 2 ^ 32 - 2) % 2 ^ 32
  loadDhtLoop dht (length + 1) length 4 tables

/-- The segment every image is decoded with. -/
def my_jpeg_odml_dht : List UInt8 := [
  0xff, 0xc4, 0x01, 0xa2, 0x00, 0x00, 0x01, 0x05, 0x01, 0x01, 0x01, 0x01, 0x01, 0x01, 0x00, 0x00, 0x00, 0x00,
  0x00, 0x00, 0x00, 0x00, 0x01, 0x02, 0x03, 0x04, 0x05, 0x06, 0x07, 0x08, 0x09, 0x0a, 0x0b, 0x01, 0x00, 0x03,
  0x01, 0x01, 0x01, 0x01, 0x01, 0x01, 0x01, 0x01, 0x01, 0x00, 0x00, 0x00, 0x00, 0x00, 0x00, 0x01, 0x02, 0x03,
  0x04, 0x05, 0x06, 0x07, 0x08, 0x09, 0x0a, 0x0b, 0x10, 0x00, 0x02, 0x01, 0x03, 0x03, 0x02, 0x04, 0x03, 0x05,
  0x05, 0x04, 0x04, 0x00, 0x00, 0x01, 0x7d, 0x01, 0x02, 0x03, 0x00, 0x04, 0x11, 0x05, 0x12, 0x21, 0x31, 0x41,
  0x06, 0x13, 0x51, 0x61, 0x07, 0x22, 0x71, 0x14, 0x32, 0x81, 0x91, 0xa1, 0x08, 0x23, 0x42, 0xb1, 0xc1, 0x15,
  0x52, 0xd1, 0xf0, 0x24, 0x33, 0x62, 0x72, 0x82, 0x09, 0x0a, 0x16, 0x17, 0x18, 0x19, 0x1a, 0x25, 0x26, 0x27,
  0x28, 0x29, 0x2a, 0x34, 0x35, 0x36, 0x37, 0x38, 0x39, 0x3a, 0x43, 0x44, 0x45, 0x46, 0x47, 0x48, 0x49, 0x4a,
  0x53, 0x54, 0x55, 0x56, 0x57, 0x58, 0x59, 0x5a, 0x63, 0x64, 0x65, 0x66, 0x67, 0x68, 0x69, 0x6a, 0x73, 0x74,
  0x75, 0x76, 0x77, 0x78, 0x79, 0x7a, 0x83, 0x84, 0x85, 0x86, 0x87, 0x88, 0x89, 0x8a, 0x92, 0x93, 0x94, 0x95,
  0x96, 0x97, 0x98, 0x99, 0x9a, 0xa2, 0xa3, 0xa4, 0xa5, 0xa6, 0xa7, 0xa8, 0xa9, 0xaa, 0xb2, 0xb3, 0xb4, 0xb5,
  0xb6, 0xb7, 0xb8, 0xb9, 0xba, 0xc2, 0xc3, 0xc4, 0xc5, 0xc6, 0xc7, 0xc8, 0xc9, 0xca, 0xd2, 0xd3, 0xd4, 0xd5,
  0xd6, 0xd7, 0xd8, 0xd9, 0xda, 0xe1, 0xe2, 0xe3, 0xe4, 0xe5, 0xe6, 0xe7, 0xe8, 0xe9, 0xea, 0xf1, 0xf2, 0xf3,
  0xf4, 0xf5, 0xf6, 0xf7, 0xf8, 0xf9, 0xfa, 0x11, 0x00, 0x02, 0x01, 0x02, 0x04, 0x04, 0x03, 0x04, 0x07, 0x05,
  0x04, 0x04, 0x00, 0x01, 0x02, 0x77, 0x00, 0x01, 0x02, 0x03, 0x11, 0x04, 0x05, 0x21, 0x31, 0x06, 0x12, 0x41,
  0x51, 0x07, 0x61, 0x71, 0x13, 0x22, 0x32, 0x81, 0x08, 0x14, 0x42, 0x91, 0xa1, 0xb1, 0xc1, 0x09, 0x23, 0x33,
  0x52, 0xf0, 0x15, 0x62, 0x72, 0xd1, 0x0a, 0x16, 0x24, 0x34, 0xe1, 0x25, 0xf1, 0x17, 0x18, 0x19, 0x1a, 0x26,
  0x27, 0x28, 0x29, 0x2a, 0x35, 0x36, 0x37, 0x38, 0x39, 0x3a, 0x43, 0x44, 0x45, 0x46, 0x47, 0x48, 0x49, 0x4a,
  0x53, 0x54, 0x55, 0x56, 0x57, 0x58, 0x59, 0x5a, 0x63, 0x64, 0x65, 0x66, 0x67, 0x68, 0x69, 0x6a, 0x73, 0x74,
  0x75, 0x76, 0x77, 0x78, 0x79, 0x7a, 0x82, 0x83, 0x84, 0x85, 0x86, 0x87, 0x88, 0x89, 0x8a, 0x92, 0x93, 0x94,
  0x95, 0x96, 0x97, 0x98, 0x99, 0x9a, 0xa2, 0xa3, 0xa4, 0xa5, 0xa6, 0xa7, 0xa8, 0xa9, 0xaa, 0xb2, 0xb3, 0xb4,
  0xb5, 0xb6, 0xb7, 0xb8, 0xb9, 0xba, 0xc2, 0xc3, 0xc4, 0xc5, 0xc6, 0xc7, 0xc8, 0xc9, 0xca, 0xd2, 0xd3, 0xd4,
  0xd5, 0xd6, 0xd7, 0xd8, 0xd9, 0xda, 0xe2, 0xe3, 0xe4, 0xe5, 0xe6, 0xe7, 0xe8, 0xe9, 0xea, 0xf2, 0xf3, 0xf4,
  0xf5, 0xf6, 0xf7, 0xf8, 0xf9, 0xfa]

/-- A table of a DHT segment, with the slot it is for. -/
structure DhtEntry where
  isAc : Bool
  index : Nat
  bits : List UInt8
  huffval : List UInt8
  index_lt : index < NUM_HUFF_TBLS
  bits_length : bits.length = 16
  huffval_length : huffval.length = codeCount bits
  count_le : codeCount bits ≤ 256

namespace DhtEntry

def slot (e : DhtEntry) : UInt8 := UInt8.ofNat (e.index + if e.isAc then 16 else 0)

def encode (e : DhtEntry) : List UInt8 := e.slot :: (e.bits ++ e.huffval)

def install (tables : HuffTables) (e : DhtEntry) : HuffTables :=
  tables.set e.isAc e.index ⟨0 :: e.bits, e.huffval⟩

end DhtEntry

def encodeEntries (entries : List DhtEntry) : List UInt8 := entries.flatMap DhtEntry.encode

section Entries
variable {dht xs tail bits : List UInt8} {pos n : Nat}

theorem readBytes_eq (hd : dht.drop pos = xs ++ tail) (hn : xs.length = n) (hp : pos ≤ dht.length) :
    readBytes dht pos n = .ok xs := by
  have hlen := congrArg List.length hd
  rw [List.length_drop, List.length_append] at hlen
  rw [readBytes, if_pos (by omega), hd, ← hn, List.take_left]

theorem slot_toNat (e : DhtEntry) : e.slot.toNat = e.index + if e.isAc then 16 else 0 := by
  have hlt := e.index_lt
  rw [NUM_HUFF_TBLS] at hlt
  rw [DhtEntry.slot, UInt8.toNat_ofNat_of_lt']
  split_ifs
  · show _ < 256
    omega
  · show _ < 256
    omega

theorem length_encode (e : DhtEntry) : e.encode.length = 17 + codeCount e.bits := by
  rw [DhtEntry.encode, List.length_cons, List.length_append, e.bits_length, e.huffval_length]
  omega

theorem encode_append_inj (e : DhtEntry) {b : UInt8} (hb : bits.length = 16)
    (h : e.encode ++ xs = b :: (bits ++ tail)) :
    e.slot = b ∧ e.bits = bits ∧ e.huffval = tail.take (codeCount bits) ∧
      xs = tail.drop (codeCount bits) ∧ codeCount bits ≤ tail.length := by
  rw [DhtEntry.encode, List.cons_append, List.append_assoc] at h
  obtain ⟨hslot, h⟩ := List.cons.inj h
  obtain ⟨hbits, h⟩ := List.append_inj h (by rw [e.bits_length, hb])
  have hcount : e.huffval.length = codeCount bits := by rw [e.huffval_length, hbits]
  refine ⟨hslot, hbits, ?_, ?_, ?_⟩
  · rw [← h, ← hcount, List.take_left]
  · rw [← h, ← hcount, List.drop_left]
  · rw [← h, List.length_append]
    omega

theorem encodeEntries_cons (e : DhtEntry) (es : List DhtEntry) :
    encodeEntries (e :: es) = e.encode ++ encodeEntries es := by
  rw [encodeEntries, List.flatMap_cons, encodeEntries]

def slotIsAc (b : UInt8) : Bool := decide (b.toNat / 16 % 2 = 1)

def slotIndex (b : UInt8) : Nat := if slotIsAc b then b.toNat - 16 else b.toNat

theorem slot_decoded (e : DhtEntry) : slotIsAc e.slot = e.isAc ∧ slotIndex e.slot = e.index := by
  have hs := slot_toNat e
  have hlt := e.index_lt
  rw [NUM_HUFF_TBLS] at hlt
  rw [slotIndex, slotIsAc]
  cases ha : e.isAc with
  | true =>
    rw [ha, if_pos rfl] at hs
    have hac : e.slot.toNat / 16 % 2 = 1 := by omega
    rw [decide_eq_true hac, if_pos rfl]
    exact ⟨rfl, by omega⟩
  | false =>
    rw [ha, if_neg (by simp)] at hs
    have hac : ¬ e.slot.toNat / 16 % 2 = 1 := by omega
    rw [decide_eq_false hac, if_neg (by simp)]
    exact ⟨rfl, by omega⟩

theorem slot_eq {b : UInt8} (hlt : slotIndex b < NUM_HUFF_TBLS) :
    UInt8.ofNat (slotIndex b + if slotIsAc b then 16 else 0) = b := by
  apply UInt8.toNat_inj.mp
  rw [NUM_HUFF_TBLS] at hlt
  have hb : b.toNat < 256 := b.toNat_lt
  cases ha : slotIsAc b with
  | true =>
    have hi : slotIndex b = b.toNat - 16 := by rw [slotIndex, ha, if_pos rfl]
    rw [slotIsAc, decide_eq_true_eq] at ha
    rw [if_pos rfl, UInt8.toNat_ofNat_of_lt' (show slotIndex b + 16 < 256 by omega)]
    omega
  | false =>
    have hi : slotIndex b = b.toNat := by rw [slotIndex, ha, if_neg (by simp)]
    rw [if_neg (by simp), UInt8.toNat_ofNat_of_lt' (show slotIndex b + 0 < 256 by omega)]
    omega

theorem segment_split (ys : List UInt8) (h : 16 < ys.length) :
    ∃ b bits tail, bits.length = 16 ∧ ys = b :: (bits ++ tail) := by
  cases ys with
  | nil => simp at h
  | cons b rest =>
    rw [List.length_cons] at h
    refine ⟨b, rest.take 16, rest.drop 16, ?_, ?_⟩
    · rw [List.length_take]
      omega
    · rw [List.take_append_drop]

theorem first_entry {b : UInt8} {entries : List DhtEntry} (hb : bits.length = 16)
    (h : b :: (bits ++ tail) = encodeEntries entries) : ∃ e es, entries = e :: es ∧
      e.isAc = slotIsAc b ∧ e.index = slotIndex b ∧ e.bits = bits ∧
      e.huffval = tail.take (codeCount bits) ∧ tail.drop (codeCount bits) = encodeEntries es ∧
      codeCount bits ≤ tail.length := by
  cases entries with
  | nil => cases h
  | cons e es =>
    rw [encodeEntries_cons] at h
    obtain ⟨hslot, hbits, hvals, hrest, hle⟩ := encode_append_inj e hb h.symm
    obtain ⟨hac, hindex⟩ := slot_decoded e
    rw [hslot] at hac hindex
    exact ⟨e, es, rfl, hac.symm, hindex.symm, hbits, hvals, hrest.symm, hle⟩

theorem exists_entry {b : UInt8} (tail : List UInt8) (hb : bits.length = 16)
    (hslot : slotIndex b < NUM_HUFF_TBLS) (h256 : codeCount bits ≤ 256) (hle : codeCount bits ≤ tail.length) :
    ∃ e : DhtEntry, e.encode = b :: (bits ++ tail.take (codeCount bits)) ∧
      ∀ tables, e.install tables =
        tables.set (slotIsAc b) (slotIndex b) ⟨0 :: bits, tail.take (codeCount bits)⟩ := by
  have hlen : (tail.take (codeCount bits)).length = codeCount bits := by
    rw [List.length_take, Nat.min_eq_left hle]
  refine ⟨⟨slotIsAc b, slotIndex b, bits, tail.take (codeCount bits), hslot, hb, hlen, h256⟩, ?_, ?_⟩
  · rw [DhtEntry.encode, DhtEntry.slot, slot_eq hslot]
  · intro tables
    rfl

theorem loadDhtLoop_round {b : UInt8} {fuel length : Nat} {tables : HuffTables}
    (hlong : 16 < length) (hl : pos + length = dht.length)
    (hnext : dht.drop pos = b :: (bits ++ tail)) (hb : bits.length = 16)
    (htail : tail.length = length - 17) : loadDhtLoop dht (fuel + 1) length pos tables =
      if codeCount bits > 256 ∨ codeCount bits > length - 17 then .ok (-1, tables)
      else if slotIndex b ≥ NUM_HUFF_TBLS then .ok (-1, tables)
      else loadDhtLoop dht fuel (length - 17 - codeCount bits) (pos + 17 + codeCount bits)
        (tables.set (slotIsAc b) (slotIndex b) ⟨0 :: bits, tail.take (codeCount bits)⟩) := by
  have hd1 : dht.drop (pos + 1) = bits ++ tail := by
    rw [← List.drop_drop, hnext, List.drop_one, List.tail_cons]
  have hd17 : dht.drop (pos + 17) = tail := by
    have he : pos + 17 = pos + 1 + 16 := rfl
    rw [he, ← List.drop_drop, hd1, ← hb, List.drop_left]
  have hr0 : readBytes dht pos 1 = .ok [b] := readBytes_eq hnext rfl (by omega)
  have hr1 : readBytes dht (pos + 1) 16 = .ok bits := readBytes_eq hd1 hb (by omega)
  simp only [loadDhtLoop, gt_iff_lt, hlong, if_true, hr0, hr1, bind, Except.bind,
    List.headD_cons]
  by_cases hcount : 256 < codeCount bits ∨ length - 17 < codeCount bits
  · rw [if_pos hcount, if_pos hcount]
  · have hr17 : readBytes dht (pos + 17) (codeCount bits) =
        .ok (tail.take (codeCount bits)) := by
      have hd : dht.drop (pos + 17) =
          tail.take (codeCount bits) ++ tail.drop (codeCount bits) := by
        rw [hd17, List.take_append_drop]
      refine readBytes_eq hd ?_ (by omega)
      rw [List.length_take]
      omega
    rw [if_neg hcount, if_neg hcount, hr17]
    rfl

/-- The loop never leaves the segment. It succeeds on entries and on nothing else, and then has
installed them in order. -/
theorem loadDhtLoop_cases (fuel : Nat) {length : Nat} {tables : HuffTables}
    (hf : length < fuel) (hl : pos + length = dht.length) :
    (∃ entries, dht.drop pos = encodeEntries entries ∧ loadDhtLoop dht fuel length pos tables =
      .ok (0, entries.foldl DhtEntry.install tables)) ∨
    ((∀ entries, dht.drop pos ≠ encodeEntries entries) ∧
      ∃ tables', loadDhtLoop dht fuel length pos tables = .ok (-1, tables')) := by
  induction fuel generalizing length pos tables with
  | zero => omega
  | succ fuel ih =>
    have hdrop : (dht.drop pos).length = length := by
      rw [List.length_drop]
      omega
    by_cases hlong : 16 < length
    · obtain ⟨b, bits, tail, hb, hnext⟩ := segment_split (dht.drop pos) (by omega)
      have htail : tail.length = length - 17 := by
        rw [hnext, List.length_cons, List.length_append, hb] at hdrop
        omega
      rw [loadDhtLoop_round hlong hl hnext hb htail, hnext]
      by_cases hcount : codeCount bits > 256 ∨ codeCount bits > length - 17
      · right
        rw [if_pos hcount]
        refine ⟨?_, tables, rfl⟩
        intro entries h
        obtain ⟨e, es, -, -, -, hbits, -, -, hle⟩ := first_entry hb h
        have hmax := e.count_le
        rw [hbits] at hmax
        omega
      rw [if_neg hcount]
      by_cases hslot : slotIndex b ≥ NUM_HUFF_TBLS
      · right
        rw [if_pos hslot]
        refine ⟨?_, tables, rfl⟩
        intro entries h
        obtain ⟨e, es, -, -, hindex, -⟩ := first_entry hb h
        have hlt := e.index_lt
        omega
      rw [if_neg hslot]
      obtain ⟨e, hencode, hinstall⟩ := exists_entry tail hb (Nat.lt_of_not_le hslot) (by omega)
        (by omega)
      have hd17 : dht.drop (pos + 17 + codeCount bits) = tail.drop (codeCount bits) := by
        have he : pos + 17 + codeCount bits = pos + (1 + 16 + codeCount bits) := by omega
        rw [he, ← List.drop_drop, hnext, ← List.drop_drop, ← List.drop_drop, List.drop_one,
          List.tail_cons, ← hb, List.drop_left]
      have hpos : pos + 17 + codeCount bits + (length - 17 - codeCount bits) = dht.length := by
        omega
      have hrec := @ih _ _ (e.install tables) (by omega) hpos
      rw [hd17, hinstall] at hrec
      rcases hrec with ⟨es, hes, hrun⟩ | ⟨hno, hrun⟩
      · left
        refine ⟨e :: es, ?_, ?_⟩
        · rw [encodeEntries_cons, hencode, ← hes, List.cons_append, List.append_assoc,
            List.take_append_drop]
        · rw [hrun, List.foldl_cons, hinstall]
      · right
        refine ⟨?_, hrun⟩
        intro entries h
        obtain ⟨e', es, -, -, -, -, -, hes, -⟩ := first_entry hb h
        exact hno es hes
    · by_cases hzero : length = 0
      · left
        refine ⟨[], ?_, ?_⟩
        · rw [encodeEntries, List.flatMap_nil]
          exact List.length_eq_zero_iff.mp (by omega)
        · rw [loadDhtLoop, if_neg hlong, if_neg (by omega), List.foldl_nil]
      · right
        refine ⟨?_, tables, by rw [loadDhtLoop, if_neg hlong, if_pos hzero]⟩
        intro entries he
        rw [he] at hdrop
        cases entries with
        | nil =>
          rw [encodeEntries, List.flatMap_nil, List.length_nil] at hdrop
          omega
        | cons e es =>
          rw [encodeEntries_cons, List.length_append, length_encode] at hdrop
          omega

theorem encodeEntries_inj {es fs : List DhtEntry} (h : encodeEntries es = encodeEntries fs) :
    es = fs := by
  induction fs generalizing es with
  | nil =>
    cases es with
    | nil => rfl
    | cons e es =>
      rw [encodeEntries_cons, DhtEntry.encode] at h
      cases h
  | cons f fs ih =>
    have hf : encodeEntries (f :: fs) =
        f.slot :: (f.bits ++ (f.huffval ++ encodeEntries fs)) := by
      rw [encodeEntries_cons, DhtEntry.encode, List.cons_append, List.append_assoc]
    obtain ⟨e, es', rfl, hac, hindex, hbits, hvals, hrest, -⟩ :=
      first_entry f.bits_length (hf.symm.trans h.symm)
    rw [← f.huffval_length, List.take_left] at hvals
    rw [← f.huffval_length, List.drop_left] at hrest
    rw [(slot_decoded f).1] at hac
    rw [(slot_decoded f).2] at hindex
    rw [ih hrest.symm]
    cases e
    cases f
    simp only [List.cons.injEq, and_true, DhtEntry.mk.injEq]
    exact ⟨hac, hindex, hbits, hvals⟩

theorem my_jpeg_load_dht_cases (tables : HuffTables) (hlen : dht.length = 2 + lengthField dht)
    (h2 : 2 ≤ lengthField dht) :
    (∃ entries, dht.drop 4 = encodeEntries entries ∧
      my_jpeg_load_dht dht tables = .ok (0, entries.foldl DhtEntry.install tables)) ∨
    ((∀ entries, dht.drop 4 ≠ encodeEntries entries) ∧
      ∃ tables', my_jpeg_load_dht dht tables = .ok (-1, tables')) := by
  have hfield : lengthField dht < 2 ^ 16 := by
    have hhi := (dht.getD 2 0).toNat_lt
    have hlo := (dht.getD 3 0).toNat_lt
    rw [lengthField]
    omega
  have hread : readBytes dht 2 2 = .ok ((dht.drop 2).take 2) := if_pos (by omega)
  have hlength : (lengthField dht + 2 ^ 32 - 2) % 2 ^ 32 = lengthField dht - 2 := by omega
  have hrun : my_jpeg_load_dht dht tables =
      loadDhtLoop dht (lengthField dht - 2 + 1) (lengthField dht - 2) 4 tables := by
    simp only [my_jpeg_load_dht, hread, hlength, bind, Except.bind]
  rw [hrun]
  exact loadDhtLoop_cases _ (Nat.lt_succ_self _) (by omega)

/-- Loading a segment whose length field counts its bytes never leaves it, succeeds just on
well-formed tables, and then has installed them in order. -/
theorem load_dht_iff (tables : HuffTables) (hlen : dht.length = 2 + lengthField dht)
    (h2 : 2 ≤ lengthField dht) : ∃ r tables', my_jpeg_load_dht dht tables = .ok (r, tables') ∧
      (r = 0 ↔ ∃ entries, dht.drop 4 = encodeEntries entries) ∧
      ∀ entries, dht.drop 4 = encodeEntries entries →
        tables' = entries.foldl DhtEntry.install tables := by
  rcases my_jpeg_load_dht_cases tables hlen h2 with ⟨entries, he, hrun⟩ | ⟨hno, tables', hrun⟩
  · refine ⟨0, _, hrun, ⟨fun _ => ⟨entries, he⟩, fun _ => rfl⟩, ?_⟩
    intro entries' he'
    rw [encodeEntries_inj (he'.symm.trans he)]
  · refine ⟨-1, tables', hrun, ⟨?_, ?_⟩, ?_⟩
    · intro h
      cases h
    · rintro ⟨entries, he⟩
      exact absurd he (hno entries)
    · intro entries he
      exact absurd he (hno entries)

end Entries

def entryBits (dht : List UInt8) (pos : Nat) : List UInt8 := (dht.drop (pos + 1)).take 16

def entryValues (dht : List UInt8) (pos n : Nat) : List UInt8 := (dht.drop (pos + 17)).take n

def odmlEntries : List DhtEntry := [
  ⟨false, 0, entryBits my_jpeg_odml_dht 4, entryValues my_jpeg_odml_dht 4 12,
    by decide +kernel, by decide +kernel, by decide +kernel, by decide +kernel⟩,
  ⟨false, 1, entryBits my_jpeg_odml_dht 33, entryValues my_jpeg_odml_dht 33 12,
    by decide +kernel, by decide +kernel, by decide +kernel, by decide +kernel⟩,
  ⟨true, 0, entryBits my_jpeg_odml_dht 62, entryValues my_jpeg_odml_dht 62 162,
    by decide +kernel, by decide +kernel, by decide +kernel, by decide +kernel⟩,
  ⟨true, 1, entryBits my_jpeg_odml_dht 241, entryValues my_jpeg_odml_dht 241 162,
    by decide +kernel, by decide +kernel, by decide +kernel, by decide +kernel⟩]

theorem odml_encoded : my_jpeg_odml_dht.drop 4 = encodeEntries odmlEntries := by decide +kernel

theorem odml_length : my_jpeg_odml_dht.length = 2 + lengthField my_jpeg_odml_dht ∧
    2 ≤ lengthField my_jpeg_odml_dht := by
  decide +kernel

theorem load_dht_iff_odml : ∃ r tables',
    my_jpeg_load_dht my_jpeg_odml_dht {} = .ok (r, tables') ∧ r = 0 ∧
    tables' = odmlEntries.foldl DhtEntry.install {} := by
  obtain ⟨r, tables', h, hr, ht⟩ := load_dht_iff {} odml_length.1 odml_length.2
  exact ⟨r, tables', h, hr.mpr ⟨odmlEntries, odml_encoded⟩, ht _ odml_encoded⟩

theorem load_odml (tables : HuffTables) : my_jpeg_load_dht my_jpeg_odml_dht tables =
    .ok (0, odmlEntries.foldl DhtEntry.install tables) := by
  rcases my_jpeg_load_dht_cases tables odml_length.1 odml_length.2 with
    ⟨entries, he, hrun⟩ | ⟨hno, -⟩
  · rw [hrun, encodeEntries_inj (he.symm.trans odml_encoded)]
  · exact absurd odml_encoded (hno odmlEntries)

end CameraClient
