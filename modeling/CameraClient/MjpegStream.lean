import CameraClient.Lib.MarkedStream
import CameraClient.Lib.Properties
import CameraClient.Lib.Scan

/-! `MjpegInputStreamDefault`, the frames it cuts out of a stream. A part of the stream
is a header and a frame; the frame begins at the first marker the scanner finds and is
as long as the header says, or ends at the next end marker. -/
namespace CameraClient
open MarkedStream StateError Scan

inductive MjpegException where
  | negativeArraySize
  | outOfMemory
  | indexOutOfBounds
  | illegalArgument
  deriving DecidableEq, Repr

abbrev FrameReader := Reader UInt8 MjpegException

def SOI_MARKER : List UInt8 := [0xFF, 0xD8]
def EOF_MARKER : List UInt8 := [0xFF, 0xD9]
def CONTENT_LENGTH : List Nat := "Content-Length".toList.map Char.toNat
def HEADER_MAX_LENGTH : Nat := 100

/-- The loop of `getEndOfSeqeunce` from its `i`th iteration, `n` before the last. -/
def seekSequence (sequence : List UInt8) : Nat → Int → Nat → FrameReader Int
  | 0, _, _ => pure (-1)
  | n + 1, i, seqIndex => do
    let c ← read
    if sequence[seqIndex]? = some c then
      if seqIndex + 1 = sequence.length then pure (i + 1)
      else seekSequence sequence n (i + 1) (seqIndex + 1)
    else seekSequence sequence n (i + 1) 0

def getEndOfSeqeunce (FRAME_MAX_LENGTH : Nat) (sequence : List UInt8) : FrameReader Int :=
  seekSequence sequence FRAME_MAX_LENGTH 0 0

def getStartOfSequence (FRAME_MAX_LENGTH : Nat) (sequence : List UInt8) : FrameReader Int := do
  let last ← getEndOfSeqeunce FRAME_MAX_LENGTH sequence
  pure (if last < 0 then -1 else last - sequence.length)

inductive ParseException where
  | numberFormat
  | illegalArgument
  deriving DecidableEq, Repr

def parseContentLength (headerBytes : List UInt8) : Except ParseException Int :=
  match Properties.load headerBytes with
  | none => .error .illegalArgument
  | some props =>
    match Properties.parseInt (Properties.getProperty props CONTENT_LENGTH) with
    | none => .error .numberFormat
    | some value => .ok value

/-- The longest byte array the virtual machine allocates. It has room for the arrays whose
length no header gives; the longest of them is the native reader's. -/
class Heap where
  maxArray : Nat
  room : 200000 + HEADER_MAX_LENGTH ≤ maxArray
  int : maxArray < 2147483648

def newBytes [Heap] (n : Int) : FrameReader Nat :=
  if n < 0 then throw (.fault .negativeArraySize)
  else if Heap.maxArray < n then throw (.fault .outOfMemory)
  else pure n.toNat

namespace MjpegInputStreamDefault
variable [Heap]

def FRAME_MAX_LENGTH : Nat := 40000 + HEADER_MAX_LENGTH

/-- The constructor buffers as much as a mark may ask for. -/
def ofBytes (bytes : List UInt8) : Stream UInt8 := { symbols := bytes, size := FRAME_MAX_LENGTH }

def contentLength (header : List UInt8) : FrameReader Int :=
  match parseContentLength header with
  | .ok value => pure value
  | .error .numberFormat => getEndOfSeqeunce FRAME_MAX_LENGTH EOF_MARKER
  | .error .illegalArgument => throw (.fault .illegalArgument)

def readMjpegFrame : FrameReader (List UInt8) := do
  mark FRAME_MAX_LENGTH
  let headerLen ← getStartOfSequence FRAME_MAX_LENGTH SOI_MARKER
  reset
  let header ← readFully (← newBytes headerLen)
  let mContentLength ← contentLength header
  reset
  let frameData ← newBytes mContentLength
  skipBytes headerLen.toNat
  readFully frameData

/-- One turn of the thread's loop, which takes no notice of an `IOException`. -/
def nextFrame : FrameReader (Option (List UInt8)) := fun s =>
  match readMjpegFrame s with
  | .ok frame t => .ok (some frame) t
  | .error (.fault e) t => .error (.fault e) t
  | .error _ t => .ok none t

/-- The frames of so many turns of the loop. -/
def readFrames : Nat → FrameReader (List (List UInt8))
  | 0 => pure []
  | n + 1 => do
    let frame ← nextFrame
    let frames ← readFrames n
    pure (frame.toList ++ frames)

end MjpegInputStreamDefault

/-- The loop is the restarting matcher on the bytes it may read. -/
theorem seekSequence_eq (sequence : List UInt8) (n : Nat) (i : Int) (seqIndex : Nat)
    {s : Stream UInt8} (hs : s.Sound) : seekSequence sequence n i seqIndex s =
      match scanFrom sequence seqIndex (s.rest.take n) with
      | some k => .ok (i + k) (s.advance k)
      | none => if n ≤ s.rest.length then .ok (-1) (s.advance n) else .error .endOfFile s.exhaust := by
  induction n generalizing i seqIndex s with
  | zero => simp [seekSequence, scanFrom, Stream.advance_zero hs]
  | succ n ih =>
    cases hr : s.rest with
    | nil =>
      rw [seekSequence, bind_error (read_nil hr), Stream.exhaust_eq_of_nil hr hs]
      simp [scanFrom]
    | cons c cs =>
      have hrest : (s.advance 1).rest = cs := by simp [hr]
      have hstep (j : Nat) : seekSequence sequence n (i + 1) j (s.advance 1) =
          match (scanFrom sequence j (cs.take n)).map (fun k : Nat => k + 1) with
          | some k => .ok (i + k) (s.advance k)
          | none =>
            if n + 1 ≤ (c :: cs).length then .ok (-1) (s.advance (n + 1))
            else .error .endOfFile s.exhaust := by
        rw [ih (i + 1) j (s.sound_advance 1), hrest]
        cases hscan : scanFrom sequence j (cs.take n) with
        | some k =>
          have hk : i + 1 + (k : Int) = i + ((k + 1 : Nat) : Int) := by omega
          simp only [Option.map_some, Stream.advance_advance, hk, Nat.add_comm 1 k]
        | none =>
          simp [Stream.advance_advance, Nat.add_comm 1 n, Stream.exhaust_advance (s := s) (n := 1)
            (by simp [hr])]
      rw [seekSequence, bind_ok (read_cons hr), List.take_succ_cons, scanFrom]
      by_cases h1 : sequence[seqIndex]? = some c
      · by_cases h2 : seqIndex + 1 = sequence.length
        · simp [h1, h2]
        · simp only [h1, h2, if_true, if_false]
          exact hstep (seqIndex + 1)
      · simp only [h1, if_false]
        exact hstep 0

variable {limit : Nat} {sequence : List UInt8} {s : Stream UInt8}

theorem getEndOfSeqeunce_found (hs : s.Sound) {k : Nat}
    (hscan : scanFrom sequence 0 s.rest = some k) (hk : k ≤ limit) :
    getEndOfSeqeunce limit sequence s = .ok (k : Int) (s.advance k) := by
  rw [getEndOfSeqeunce, seekSequence_eq _ _ _ _ hs, scanFrom_take hscan hk]
  simp

theorem getEndOfSeqeunce_missing (hs : s.Sound)
    (hscan : scanFrom sequence 0 (s.rest.take limit) = none) :
    getEndOfSeqeunce limit sequence s =
      if limit ≤ s.rest.length then .ok (-1) (s.advance limit) else .error .endOfFile s.exhaust := by
  rw [getEndOfSeqeunce, seekSequence_eq _ _ _ _ hs, hscan]

/-- The scanner stops behind the first marker whose first byte ends an odd run of its
kind; a marker behind a fill byte is passed over. Failing that it has looked at as many
bytes as it may, or it has come to the end of the stream. -/
theorem getEndOfSeqeunce_cases (limit : Nat) {y : UInt8} (hy : 0xFF ≠ y) (hs : s.Sound) :
    (∃ k ≤ limit, EndsAt 0xFF y s.rest k ∧ (∀ j, EndsAt 0xFF y s.rest j → k ≤ j) ∧
      getEndOfSeqeunce limit [0xFF, y] s = .ok (k : Int) (s.advance k)) ∨
    ((∀ k ≤ limit, ¬ EndsAt 0xFF y s.rest k) ∧ limit ≤ s.rest.length ∧
      getEndOfSeqeunce limit [0xFF, y] s = .ok (-1) (s.advance limit)) ∨
    ((∀ k, ¬ EndsAt 0xFF y s.rest k) ∧ s.rest.length < limit ∧
      getEndOfSeqeunce limit [0xFF, y] s = .error .endOfFile s.exhaust) := by
  cases hscan : scanFrom [0xFF, y] 0 (s.rest.take limit) with
  | some k =>
    obtain ⟨hfull, hk⟩ := scanFrom_take_iff.mp hscan
    obtain ⟨hend, hmin⟩ := (scanFrom_eq_some_iff hy).mp hfull
    exact .inl ⟨k, hk, hend, hmin, getEndOfSeqeunce_found hs hfull hk⟩
  | none =>
    have hmiss := getEndOfSeqeunce_missing hs hscan
    have hnone (k : Nat) (hk : k ≤ limit) : ¬ EndsAt 0xFF y s.rest k := by
      intro hend
      cases hfull : scanFrom [0xFF, y] 0 s.rest with
      | none => exact (scanFrom_eq_none_iff hy).mp hfull k hend
      | some j =>
        have hj := ((scanFrom_eq_some_iff hy).mp hfull).2 k hend
        rw [scanFrom_take hfull (by omega)] at hscan
        cases hscan
    by_cases hlen : limit ≤ s.rest.length
    · rw [if_pos hlen] at hmiss
      exact .inr (.inl ⟨hnone, hlen, hmiss⟩)
    · rw [if_neg hlen] at hmiss
      refine .inr (.inr ⟨fun k hk => ?_, by omega, hmiss⟩)
      obtain ⟨p, r, hl, rfl, -⟩ := id hk
      refine hnone _ ?_ hk
      have hlen' := congrArg List.length hl
      rw [List.length_append, List.length_cons] at hlen'
      omega

/-- A fill byte before the marker hides it. -/
theorem getEndOfSeqeunce_cases_fill :
    let s : Stream UInt8 := { symbols := [0xFF, 0xFF, 0xD8, 0xFF, 0xD8], size := 10 }
    getEndOfSeqeunce 10 SOI_MARKER s = .ok 5 (s.advance 5) := by
  intro s
  have hscan : scanFrom [0xFF, 0xD8] 0 s.rest = some 5 := by decide
  obtain ⟨hend, hmin⟩ := (scanFrom_eq_some_iff (by decide)).mp hscan
  rcases getEndOfSeqeunce_cases 10 (y := 0xD8) (s := s) (by decide)
    (by simp [Stream.Sound, s]) with ⟨k, -, hk, hkmin, h⟩ | ⟨hnone, -⟩ | ⟨hnone, -⟩
  · obtain rfl : k = 5 := Nat.le_antisymm (hkmin 5 hend) (hmin k hk)
    exact h
  · exact absurd hend (hnone 5 (by decide))
  · exact absurd hend (hnone 5)

theorem getStartOfSequence_found (hs : s.Sound) {h : Nat}
    (hscan : scanFrom sequence 0 s.rest = some (h + sequence.length))
    (hle : h + sequence.length ≤ limit) :
    getStartOfSequence limit sequence s = .ok (h : Int) (s.advance (h + sequence.length)) := by
  rw [getStartOfSequence, bind_ok (getEndOfSeqeunce_found hs hscan hle), pure_apply,
    if_neg (by omega)]
  congr 1
  omega

theorem newBytes_natCast [Heap] {n : Nat} (hn : n ≤ Heap.maxArray) (s : Stream UInt8) :
    newBytes n s = .ok n s := by
  rw [newBytes, if_neg (by omega), if_neg (by omega), pure_apply, Int.toNat_natCast]

theorem newBytes_big [Heap] {n : Int} (hn : Heap.maxArray < n) (s : Stream UInt8) :
    newBytes n s = .error (.fault .outOfMemory) s := by
  rw [newBytes, if_neg (by omega), if_pos hn, throw_apply]

theorem newBytes_neg [Heap] {n : Int} (hn : n < 0) (s : Stream UInt8) :
    newBytes n s = .error (.fault .negativeArraySize) s := by
  rw [newBytes, if_pos hn, throw_apply]

namespace MjpegInputStreamDefault
variable [Heap]

/-- The frame, once its length is known. -/
def cutFrame (headerLen : Int) (mContentLength : Int) : FrameReader (List UInt8) := do
  reset
  let frameData ← newBytes mContentLength
  skipBytes headerLen.toNat
  readFully frameData

theorem le_maxArray : FRAME_MAX_LENGTH ≤ Heap.maxArray := by
  have := Heap.room
  rw [FRAME_MAX_LENGTH]
  omega

theorem readMjpegFrame_header {h : Nat} (hscan : scanFrom SOI_MARKER 0 s.rest = some (h + 2))
    (hle : h + 2 ≤ FRAME_MAX_LENGTH) : readMjpegFrame s =
      (contentLength (s.rest.take h) >>= cutFrame h) ((s.remark FRAME_MAX_LENGTH).advance h) := by
  let t := s.remark FRAME_MAX_LENGTH
  have hrest : t.rest = s.rest := Stream.rest_remark ..
  have hlen : h ≤ t.rest.length := by
    have := (scanFrom_le hscan).2
    rw [hrest]
    omega
  have hstart : getStartOfSequence FRAME_MAX_LENGTH SOI_MARKER t = .ok (h : Int) (t.advance (h + 2)) :=
    getStartOfSequence_found (s.sound_remark _) (by simpa [hrest, SOI_MARKER] using hscan)
      (by simpa [SOI_MARKER] using hle)
  have hreset : (reset : FrameReader Unit) (t.advance (h + 2)) = .ok () t := by
    rw [reset_remark, if_pos (by omega)]
  have hheader : (readFully h : FrameReader (List UInt8)) t = .ok (s.rest.take h) (t.advance h) := by
    rw [readFully_of_le (s.sound_remark _) hlen, hrest]
  have harray : h ≤ Heap.maxArray := by
    have := le_maxArray
    omega
  rw [readMjpegFrame, bind_ok (mark_apply _ s), bind_ok hstart, bind_ok hreset,
    bind_ok (newBytes_natCast harray t), bind_ok hheader]
  rfl

theorem cutFrame_eq {h k : Nat} {m : Int} (hs : h ≤ s.rest.length) (hk : k ≤ FRAME_MAX_LENGTH) :
    cutFrame h m ((s.remark FRAME_MAX_LENGTH).advance k) =
      if m < 0 then .error (.fault .negativeArraySize) (s.remark FRAME_MAX_LENGTH)
      else if Heap.maxArray < m then .error (.fault .outOfMemory) (s.remark FRAME_MAX_LENGTH)
      else if h + m.toNat ≤ s.rest.length then
        .ok ((s.rest.drop h).take m.toNat) ((s.remark FRAME_MAX_LENGTH).advance (h + m.toNat))
      else .error .endOfFile (s.remark FRAME_MAX_LENGTH).exhaust := by
  let t := s.remark FRAME_MAX_LENGTH
  have hrest : t.rest = s.rest := Stream.rest_remark ..
  have hreset : (reset : FrameReader Unit) (t.advance k) = .ok () t := by
    rw [reset_remark, if_pos (by omega)]
  rw [cutFrame, bind_ok hreset]
  by_cases hm : m < 0
  · rw [bind_error (newBytes_neg hm t), if_pos hm]
  rw [if_neg hm]
  by_cases hbig : Heap.maxArray < m
  · rw [bind_error (newBytes_big hbig t), if_pos hbig]
  · obtain ⟨n, rfl⟩ := Int.eq_ofNat_of_zero_le (Int.not_lt.mp hm)
    have hskip : (skipBytes h : FrameReader Unit) t = .ok () (t.advance h) :=
      skipBytes_of_le (by rwa [hrest])
    rw [if_neg hbig, bind_ok (newBytes_natCast (by omega) t), Int.toNat_natCast,
      Int.toNat_natCast, bind_ok hskip]
    have hdrop : (t.advance h).rest = s.rest.drop h := by rw [Stream.rest_advance, hrest]
    split_ifs with hle
    · rw [readFully_of_le (t.sound_advance h) (by rw [hdrop, List.length_drop]; omega), hdrop,
        Stream.advance_advance]
    · rw [readFully_of_lt (t.sound_advance h) (by rw [hdrop, List.length_drop]; omega),
        Stream.exhaust_advance (by rwa [hrest])]

/-- A mark that is lost makes the frame an `IOException`; the stream stands where the
search for its end stopped. -/
theorem cutFrame_lost {h k : Nat} {m : Int} (hsize : s.size = FRAME_MAX_LENGTH)
    (hk : FRAME_MAX_LENGTH < k) : cutFrame h m ((s.remark FRAME_MAX_LENGTH).advance k) =
      .error .invalidMark ((s.remark FRAME_MAX_LENGTH).advance k) := by
  have hreset : (reset : FrameReader Unit) ((s.remark FRAME_MAX_LENGTH).advance k) =
      .error .invalidMark ((s.remark FRAME_MAX_LENGTH).advance k) := by
    rw [reset_remark, if_neg (by omega)]
  rw [cutFrame, bind_error hreset]

inductive Outcome where
  | frame (headerLen length : Nat)
  | endOfFile
  | invalidMark (taken : Nat)
  | negativeArraySize
  | outOfMemory
  | illegalArgument (headerLen : Nat)
  deriving DecidableEq, Repr

def unannounced (bytes : List UInt8) (headerLen : Nat) : Outcome :=
  match scanFrom EOF_MARKER 0 ((bytes.drop headerLen).take FRAME_MAX_LENGTH) with
  | some k =>
    if headerLen + k ≤ FRAME_MAX_LENGTH then .frame headerLen k else .invalidMark (headerLen + k)
  | none =>
    if bytes.length < headerLen + FRAME_MAX_LENGTH then .endOfFile
    else if headerLen = 0 then .negativeArraySize
    else .invalidMark (headerLen + FRAME_MAX_LENGTH)

def announced (bytes : List UInt8) (headerLen : Nat) (length : Int) : Outcome :=
  if length < 0 then .negativeArraySize
  else if Heap.maxArray < length then .outOfMemory
  else if headerLen + length.toNat ≤ bytes.length then .frame headerLen length.toNat
  else .endOfFile

def outcome (bytes : List UInt8) : Outcome :=
  match scanFrom SOI_MARKER 0 (bytes.take FRAME_MAX_LENGTH) with
  | none => if FRAME_MAX_LENGTH ≤ bytes.length then .negativeArraySize else .endOfFile
  | some e =>
    match parseContentLength (bytes.take (e - 2)) with
    | .ok length => announced bytes (e - 2) length
    | .error .numberFormat => unannounced bytes (e - 2)
    | .error .illegalArgument => .illegalArgument (e - 2)

/-- The stream is left behind what was taken, at its end, or where the call began. -/
def Outcome.result (s : Stream UInt8) : Outcome → EStateM.Result (Stop MjpegException)
    (Stream UInt8) (List UInt8)
  | .frame headerLen length => .ok ((s.rest.drop headerLen).take length)
      ((s.remark FRAME_MAX_LENGTH).advance (headerLen + length))
  | .endOfFile => .error .endOfFile (s.remark FRAME_MAX_LENGTH).exhaust
  | .invalidMark taken => .error .invalidMark ((s.remark FRAME_MAX_LENGTH).advance taken)
  | .negativeArraySize => .error (.fault .negativeArraySize) (s.remark FRAME_MAX_LENGTH)
  | .outOfMemory => .error (.fault .outOfMemory) (s.remark FRAME_MAX_LENGTH)
  | .illegalArgument headerLen =>
    .error (.fault .illegalArgument) ((s.remark FRAME_MAX_LENGTH).advance headerLen)

theorem readMjpegFrame_unannounced {h : Nat} (hsize : s.size = FRAME_MAX_LENGTH)
    (hs : h ≤ s.rest.length) (hh : h ≤ FRAME_MAX_LENGTH) :
    (getEndOfSeqeunce FRAME_MAX_LENGTH EOF_MARKER >>= cutFrame h)
      ((s.remark FRAME_MAX_LENGTH).advance h) = (unannounced s.rest h).result s := by
  let t := s.remark FRAME_MAX_LENGTH
  have hdrop : (t.advance h).rest = s.rest.drop h := by simp [t]
  have hpos (k : Nat) : (t.advance h).advance k = t.advance (h + k) := t.advance_advance h k
  unfold unannounced
  cases hscan : scanFrom EOF_MARKER 0 ((s.rest.drop h).take FRAME_MAX_LENGTH) with
  | some k =>
    obtain ⟨hfull, hk⟩ := scanFrom_take_iff.mp hscan
    have hkr := (scanFrom_le hfull).2
    rw [List.length_drop] at hkr
    have hend : getEndOfSeqeunce FRAME_MAX_LENGTH EOF_MARKER (t.advance h) =
        .ok (k : Int) (t.advance (h + k)) := by
      rw [getEndOfSeqeunce_found (t.sound_advance h) (by rwa [hdrop]) hk, hpos]
    rw [bind_ok hend]
    by_cases hle : h + k ≤ FRAME_MAX_LENGTH
    · have := le_maxArray
      rw [cutFrame_eq hs hle, if_neg (by omega), if_neg (by omega), Int.toNat_natCast,
        if_pos (by omega)]
      simp [hle, Outcome.result]
    · rw [cutFrame_lost hsize (by omega)]
      simp [hle, Outcome.result]
  | none =>
    have hmiss := getEndOfSeqeunce_missing (t.sound_advance h) (hdrop.symm ▸ hscan)
    rw [hdrop, List.length_drop, hpos] at hmiss
    by_cases hlen : s.rest.length < h + FRAME_MAX_LENGTH
    · rw [if_neg (by omega), Stream.exhaust_advance (by simpa [t] using hs)] at hmiss
      rw [bind_error hmiss]
      simp [hlen, Outcome.result, t]
    · rw [if_pos (by omega)] at hmiss
      rw [bind_ok hmiss]
      by_cases h0 : h = 0
      · subst h0
        rw [Nat.zero_add] at hlen
        rw [cutFrame_eq hs (by omega), if_pos (by omega)]
        simp [hlen, Outcome.result]
      · rw [cutFrame_lost hsize (by omega)]
        simp [hlen, h0, Outcome.result]

/-- With its marks and resets, a call is a function of the bytes before it. -/
theorem readMjpegFrame_eq (hsize : s.size = FRAME_MAX_LENGTH) :
    readMjpegFrame s = (outcome s.rest).result s := by
  let t := s.remark FRAME_MAX_LENGTH
  have hrest : t.rest = s.rest := Stream.rest_remark ..
  unfold outcome
  cases hscan : scanFrom SOI_MARKER 0 (s.rest.take FRAME_MAX_LENGTH) with
  | none =>
    have hmiss := getEndOfSeqeunce_missing (s.sound_remark FRAME_MAX_LENGTH)
      (hrest.symm ▸ hscan)
    rw [hrest] at hmiss
    by_cases hlen : FRAME_MAX_LENGTH ≤ s.rest.length
    · rw [if_pos hlen] at hmiss
      have hstart : getStartOfSequence FRAME_MAX_LENGTH SOI_MARKER t =
          .ok (-1) (t.advance FRAME_MAX_LENGTH) := by
        rw [getStartOfSequence, bind_ok hmiss]
        rfl
      have hreset : (reset : FrameReader Unit) (t.advance FRAME_MAX_LENGTH) = .ok () t := by
        rw [reset_remark, if_pos (by omega)]
      rw [readMjpegFrame, bind_ok (mark_apply _ s), bind_ok hstart, bind_ok hreset,
        bind_error (newBytes_neg (by omega) t)]
      simp [hlen, Outcome.result, t]
    · rw [if_neg hlen] at hmiss
      rw [readMjpegFrame, bind_ok (mark_apply _ s), getStartOfSequence,
        bind_error (bind_error hmiss)]
      simp [hlen, Outcome.result]
  | some e =>
    obtain ⟨hfull, he⟩ := scanFrom_take_iff.mp hscan
    have hle := (scanFrom_le hfull).2
    have h2 : 2 ≤ e := scanFrom_pair_two_le (by decide) hfull
    obtain ⟨h, rfl⟩ : ∃ h, e = h + 2 := ⟨e - 2, by omega⟩
    rw [readMjpegFrame_header hfull he]
    simp only [Nat.add_sub_cancel]
    cases hp : parseContentLength (s.rest.take h) with
    | ok length =>
      have hc : contentLength (s.rest.take h) (t.advance h) = .ok length (t.advance h) := by
        simp [contentLength, hp]
      rw [bind_ok hc, cutFrame_eq (by omega) (by omega)]
      change _ = (announced s.rest h length).result s
      unfold announced
      split_ifs <;> rfl
    | error exception =>
      cases exception with
      | numberFormat =>
        have hc : contentLength (s.rest.take h) =
            getEndOfSeqeunce FRAME_MAX_LENGTH EOF_MARKER := by
          simp [contentLength, hp]
        rw [hc, readMjpegFrame_unannounced hsize (by omega) (by omega)]
      | illegalArgument =>
        have hc : contentLength (s.rest.take h) (t.advance h) =
            .error (.fault .illegalArgument) (t.advance h) := by
          simp [contentLength, hp]
        rw [bind_error hc]
        rfl

end MjpegInputStreamDefault

end CameraClient
