import CameraClient.FrameStream

/-! `MjpegInputStreamNative`. A frame whose header does not say how long it is is looked
for where the last one ended, and failing that from the mark on, that is with its
header. -/
namespace CameraClient
open MarkedStream StateError Scan

/-- The reader with the fields it keeps between calls; of its two arrays the lengths. -/
structure NativeStream where
  stream : Stream UInt8
  mContentLength : Int := -1
  header : Option Nat := none
  headerLenPrev : Int := -1
  frameData : Option Nat := none
  deriving DecidableEq, Repr

namespace MjpegInputStreamNative
variable [Heap]

def FRAME_MAX_LENGTH : Nat := 200000

/-- The field; the methods that find a header have a variable of this name. -/
def headerLen : Int := -1

abbrev NativeReader := EStateM (Stop MjpegException) NativeStream

def ofBytes (bytes : List UInt8) : NativeStream where
  stream := { symbols := bytes, size := FRAME_MAX_LENGTH }

/-- Arithmetic on `int`. -/
def wrap (n : Int) : Int := n.bmod (2 ^ 32)

def onStream {β : Type} (x : FrameReader β) : NativeReader β := fun s =>
  match x s.stream with
  | .ok b t => .ok b { s with stream := t }
  | .error e t => .error e { s with stream := t }

def startPos (mContentLength : Int) : Int := mContentLength.tdiv 2
def endPos (mContentLength : Int) : Int := (wrap (3 * mContentLength)).tdiv 2

def getEndOfSeqeunceSimplified (sequence : List UInt8) : NativeReader Int := do
  let s ← get
  let first := startPos s.mContentLength
  let last := endPos s.mContentLength
  onStream (skipBytes (headerLen + first).toNat)
  onStream (seekSequence sequence (wrap (last - first)).toNat (headerLen + first) 0)

/-- What both handlers around `parseContentLength` do. -/
def searchLength : NativeReader Int := do
  let contentLengthNew ← getEndOfSeqeunceSimplified EOF_MARKER
  if contentLengthNew < 0 then
    onStream reset
    onStream (getEndOfSeqeunce FRAME_MAX_LENGTH EOF_MARKER)
  else pure contentLengthNew

def contentLength (header : List UInt8) : NativeReader Int :=
  match parseContentLength header with
  | .ok value => pure value
  | .error _ => searchLength

/-- `none` where the stream ends before a marker; that is caught. -/
def startOfFrame : NativeReader (Option Int) := fun s =>
  match getStartOfSequence FRAME_MAX_LENGTH SOI_MARKER s.stream with
  | .ok n t => .ok (some n) { s with stream := t }
  | .error (.fault e) t => .error (.fault e) { s with stream := t }
  | .error _ t => .ok none { s with stream := t }

/-- The header array is only renewed for a header of another length. -/
def renewHeader (headerLen : Int) : NativeReader Unit := do
  let s ← get
  if s.header = none ∨ headerLen ≠ s.headerLenPrev then
    let n ← onStream (newBytes headerLen)
    modify fun s => { s with header := some n }
  modify fun s => { s with headerLenPrev := headerLen }

def firstFrameData : NativeReader Unit := do
  let s ← get
  if s.frameData = none then
    let n ← onStream (newBytes FRAME_MAX_LENGTH)
    modify fun s => { s with frameData := some n }

def renewFrameData (mContentLength : Int) : NativeReader Unit := do
  firstFrameData
  if wrap (mContentLength + HEADER_MAX_LENGTH) > FRAME_MAX_LENGTH then
    let n ← onStream (newBytes (wrap (mContentLength + HEADER_MAX_LENGTH)))
    modify fun s => { s with frameData := some n }

def readFrameData (mContentLength : Int) : NativeReader (List UInt8) := do
  let s ← get
  if mContentLength < 0 ∨ (s.frameData.getD 0 : Int) < mContentLength then
    throw (.fault .indexOutOfBounds)
  else onStream (readFully mContentLength.toNat)

/-- The bytes handed to `pixeltobmp`; `none` is the result -1. -/
def readMjpegFrame : NativeReader (Option (List UInt8)) := do
  onStream (mark FRAME_MAX_LENGTH)
  match ← startOfFrame with
  | none =>
    onStream reset
    pure none
  | some headerLen =>
    onStream reset
    renewHeader headerLen
    let header ← onStream (readFully ((← get).header.getD 0))
    let contentLengthNew ← contentLength header
    modify fun s => { s with mContentLength := contentLengthNew }
    onStream reset
    renewFrameData contentLengthNew
    onStream (skipBytes headerLen.toNat)
    some <$> readFrameData contentLengthNew

/-- What the thread's loop makes of a call: it ends on -1, also on that of the decoder. -/
inductive Turn where
  | decode (frameData : List UInt8)
  | lost
  | over
  deriving DecidableEq, Repr

def nextFrame : NativeReader Turn := fun s =>
  match readMjpegFrame s with
  | .ok (some frameData) t => .ok (.decode frameData) t
  | .ok none t => .ok .over t
  | .error (.fault e) t => .error (.fault e) t
  | .error _ t => .ok .lost t

/-- The frames handed to the decoder in so many turns of the loop. The decoder has a state of
its own, the globals of `ImageProc` and the bitmap; it gives -1 where the bitmap has not the
format or the size of the picture (`pixeltobmp_cases`). -/
def readFrames {σ : Type} (pixeltobmp : σ → List UInt8 → Int × σ) :
    Nat → σ → NativeReader (List (List UInt8))
  | 0, _ => pure []
  | n + 1, d => do
    match ← nextFrame with
    | .decode frameData =>
      match pixeltobmp d frameData with
      | (ret, d) =>
        if ret = -1 then pure [frameData]
        else
          let frames ← readFrames pixeltobmp n d
          pure (frameData :: frames)
    | .lost => readFrames pixeltobmp n d
    | .over => pure []

/-- Of some frames those up to the first for which the decoder gives -1. -/
def decoded {σ : Type} (pixeltobmp : σ → List UInt8 → Int × σ) :
    σ → List (List UInt8) → List (List UInt8)
  | _, [] => []
  | d, frame :: frames =>
    match pixeltobmp d frame with
    | (ret, d) => if ret = -1 then [frame] else frame :: decoded pixeltobmp d frames

omit [Heap] in
theorem onStream_ok {β : Type} {x : FrameReader β} {s : NativeStream} {b : β} {t : Stream UInt8}
    (h : x s.stream = .ok b t) : onStream x s = .ok b { s with stream := t } := by
  simp [onStream, h]

/-- What holds between calls: the buffers are as large as they have to be. -/
structure Ready (s : NativeStream) : Prop where
  size : s.stream.size = FRAME_MAX_LENGTH
  header : ∀ n ∈ s.header, s.headerLenPrev = (n : Int)
  frameData : ∀ n ∈ s.frameData, FRAME_MAX_LENGTH ≤ n

omit [Heap] in
theorem ready_ofBytes (bytes : List UInt8) : Ready (ofBytes bytes) :=
  ⟨rfl, by simp [ofBytes], by simp [ofBytes]⟩

variable {s : NativeStream}

theorem renewHeader_ok (hs : Ready s) {h : Nat} (hh : h ≤ Heap.maxArray) :
    renewHeader h s = .ok () { s with header := some h, headerLenPrev := h } := by
  by_cases hn : s.header = none ∨ (h : Int) ≠ s.headerLenPrev
  · simp [renewHeader, hn, onStream, newBytes_natCast hh]
  · simp only [not_or, not_not] at hn
    obtain ⟨hne, hprev⟩ := hn
    obtain ⟨n, hhead⟩ := Option.ne_none_iff_exists'.mp hne
    obtain rfl : h = n := by
      have := hs.header n hhead
      omega
    simp [renewHeader, hhead, hprev]

theorem le_maxArray : FRAME_MAX_LENGTH + HEADER_MAX_LENGTH ≤ Heap.maxArray := Heap.room

theorem firstFrameData_ok (hs : Ready s) : ∃ m,
    firstFrameData s = .ok () { s with frameData := some m } ∧ FRAME_MAX_LENGTH ≤ m := by
  rw [firstFrameData, bind_ok (get_apply _)]
  cases hf : s.frameData with
  | none =>
    have hroom := le_maxArray
    refine ⟨FRAME_MAX_LENGTH, ?_, le_rfl⟩
    rw [if_pos rfl, bind_ok (onStream_ok (newBytes_natCast (by omega) _)), modify_apply]
  | some m =>
    refine ⟨m, ?_, hs.frameData m hf⟩
    rw [if_neg (by simp), pure_apply, ← hf]

theorem renewFrameData_ok (hs : Ready s) {n : Nat} (hn : n + HEADER_MAX_LENGTH ≤ Heap.maxArray) :
    ∃ m, renewFrameData n s = .ok () { s with frameData := some m } ∧ FRAME_MAX_LENGTH ≤ m ∧ n ≤ m := by
  have hint := Heap.int
  have hw : wrap ((n : Int) + HEADER_MAX_LENGTH) = ((n + HEADER_MAX_LENGTH : Nat) : Int) := by
    rw [wrap, Int.bmod_eq_of_le] <;> omega
  obtain ⟨m, hfirst, hm⟩ := firstFrameData_ok hs
  rw [renewFrameData, bind_ok hfirst, hw]
  by_cases hbig : FRAME_MAX_LENGTH < n + HEADER_MAX_LENGTH
  · refine ⟨n + HEADER_MAX_LENGTH, ?_, by omega, by omega⟩
    rw [if_pos (by omega), bind_ok (onStream_ok (newBytes_natCast hn _)), modify_apply]
  · refine ⟨m, ?_, hm, by omega⟩
    rw [if_neg (by omega), pure_apply]

/-- The reader once it has read a header of `h` bytes and looked at `k` in all. -/
def atHeader (s : NativeStream) (h k : Nat) : NativeStream :=
  { s with
    stream := (s.stream.remark FRAME_MAX_LENGTH).advance k
    header := some h
    headerLenPrev := h }

omit [Heap] in
theorem sound_atHeader (s : NativeStream) (h k : Nat) : (atHeader s h k).stream.Sound :=
  Stream.sound_advance _ _

/-- Once its length is known the frame behind the header is read. -/
theorem readMjpegFrame_found (hs : Ready s) {h k n : Nat}
    (hscan : scanFrom SOI_MARKER 0 s.stream.rest = some (h + 2)) (hle : h + 2 ≤ FRAME_MAX_LENGTH)
    (hlen : contentLength (s.stream.rest.take h) (atHeader s h h) = .ok (n : Int) (atHeader s h k))
    (hk : k ≤ FRAME_MAX_LENGTH) (hfit : h + n ≤ s.stream.rest.length)
    (hn : n + HEADER_MAX_LENGTH ≤ Heap.maxArray) :
    ∃ t, readMjpegFrame s = .ok (some ((s.stream.rest.drop h).take n)) t ∧ Ready t ∧
      t.mContentLength = n ∧ t.stream.rest = s.stream.rest.drop (h + n) := by
  let u := s.stream.remark FRAME_MAX_LENGTH
  have hrest : u.rest = s.stream.rest := Stream.rest_remark ..
  have husize : u.size = FRAME_MAX_LENGTH := hs.size
  have hmark : onStream (mark FRAME_MAX_LENGTH) s = .ok () { s with stream := u } :=
    onStream_ok (mark_apply ..)
  have hstart : startOfFrame { s with stream := u } =
      .ok (some (h : Int)) { s with stream := u.advance (h + 2) } := by
    have hfound : getStartOfSequence FRAME_MAX_LENGTH SOI_MARKER u = .ok (h : Int) (u.advance (h + 2)) :=
      getStartOfSequence_found (s.stream.sound_remark _) (by simpa [hrest, SOI_MARKER] using hscan)
        (by simpa [SOI_MARKER] using hle)
    simp [startOfFrame, hfound]
  have hreset (j : Nat) (hj : j ≤ FRAME_MAX_LENGTH) (x : NativeStream) (hx : x.stream = u.advance j) :
      onStream reset x = .ok () { x with stream := u } := by
    refine onStream_ok ?_
    rw [hx, reset_remark, if_pos (by omega)]
  have harray : h ≤ Heap.maxArray := by
    have := le_maxArray
    omega
  have hready : Ready { s with stream := u } := ⟨husize, hs.header, hs.frameData⟩
  have hheader : onStream (readFully h) { s with stream := u, header := some h, headerLenPrev := h } =
      .ok (s.stream.rest.take h) (atHeader s h h) := by
    refine onStream_ok ?_
    rw [readFully_of_le (s.stream.sound_remark _) (by rw [hrest]; omega), hrest]
  let v : NativeStream := { s with
    stream := u, header := some h, headerLenPrev := h, mContentLength := n }
  have hv : Ready v := ⟨husize, by simp [v], hs.frameData⟩
  obtain ⟨m, hdata, hmge, hnm⟩ := renewFrameData_ok hv hn
  have hskip : onStream (skipBytes (h : Int).toNat) { v with frameData := some m } =
      .ok () { v with frameData := some m, stream := u.advance h } := by
    refine onStream_ok ?_
    rw [Int.toNat_natCast]
    exact skipBytes_of_le (by rw [hrest]; omega)
  have hdrop : (u.advance h).rest = s.stream.rest.drop h := by rw [Stream.rest_advance, hrest]
  have hread : readFrameData n { v with frameData := some m, stream := u.advance h } =
      .ok ((s.stream.rest.drop h).take n)
        { v with frameData := some m, stream := u.advance (h + n) } := by
    have hbounds : ¬ ((n : Int) < 0 ∨ ((some m).getD 0 : Int) < (n : Int)) := by
      simp only [Option.getD_some]
      omega
    simp only [readFrameData, bind_apply, get_apply, if_neg hbounds]
    refine onStream_ok ?_
    rw [Int.toNat_natCast, readFully_of_le (u.sound_advance h)
      (by rw [hdrop, List.length_drop]; omega), hdrop, Stream.advance_advance]
  refine ⟨{ v with frameData := some m, stream := u.advance (h + n) }, ?_,
    ⟨husize, by simp [v], by simpa using hmge⟩, rfl, by rw [Stream.rest_advance, hrest]⟩
  rw [readMjpegFrame, bind_ok hmark, bind_ok hstart]
  simp only []
  rw [bind_ok (hreset (h + 2) (by omega) _ rfl), bind_ok (renewHeader_ok hready harray),
    bind_ok (get_apply _)]
  simp only [Option.getD_some]
  rw [bind_ok hheader, bind_ok hlen, bind_ok (modify_apply _ _), bind_ok (hreset k hk _ rfl)]
  change (do renewFrameData n; onStream (skipBytes (h : Int).toNat); some <$> readFrameData n :
    NativeReader (Option (List UInt8))) v = _
  rw [bind_ok hdata, bind_ok hskip, map_eq_pure_bind, bind_ok hread, pure_apply]

def windowStart (mContentLength : Int) : Nat := (headerLen + startPos mContentLength).toNat

def windowLength (mContentLength : Int) : Nat :=
  (wrap (endPos mContentLength - startPos mContentLength)).toNat

omit [Heap] in
theorem simplified_eq {h m : Nat} (hm : s.mContentLength = m) (h2 : 2 ≤ m)
    (hfrom : h + windowStart m ≤ s.stream.rest.length) :
    getEndOfSeqeunceSimplified EOF_MARKER (atHeader s h h) =
      onStream (seekSequence EOF_MARKER (windowLength m) (windowStart m) 0)
        (atHeader s h (h + windowStart m)) := by
  have hpos : headerLen + startPos m = (windowStart m : Int) := by
    have hdiv : startPos m = ((m / 2 : Nat) : Int) := rfl
    rw [windowStart, hdiv, headerLen]
    omega
  have hrest : (atHeader s h h).stream.rest = s.stream.rest.drop h := by
    rw [atHeader, Stream.rest_advance, Stream.rest_remark]
  have hskip : onStream (skipBytes (windowStart m)) (atHeader s h h) =
      .ok () (atHeader s h (h + windowStart m)) := by
    refine onStream_ok ?_
    rw [skipBytes_of_le (by rw [hrest, List.length_drop]; omega)]
    simp only [atHeader, Stream.advance_advance]
  have hfield : (atHeader s h h).mContentLength = (m : Int) := hm
  rw [getEndOfSeqeunceSimplified, bind_ok (get_apply _), hfield, hpos, Int.toNat_natCast,
    bind_ok hskip]
  rfl

omit [Heap] in
theorem searchLength_found {h m k : Nat} (hm : s.mContentLength = m) (h2 : 2 ≤ m)
    (hscan : scanFrom EOF_MARKER 0
      (((s.stream.rest.drop h).drop (windowStart m)).take (windowLength m)) = some k) :
    searchLength (atHeader s h h) = .ok ((windowStart m + k : Nat) : Int)
      (atHeader s h (h + (windowStart m + k))) := by
  have hfull := (scanFrom_take_iff.mp hscan).1
  have hlen := scanFrom_le hfull
  simp only [List.length_drop] at hlen
  have hseek : seekSequence EOF_MARKER (windowLength m) (windowStart m) 0
      (atHeader s h (h + windowStart m)).stream =
      .ok ((windowStart m : Int) + k) ((s.stream.remark FRAME_MAX_LENGTH).advance
        (h + windowStart m + k)) := by
    have hrest : (atHeader s h (h + windowStart m)).stream.rest =
        (s.stream.rest.drop h).drop (windowStart m) := by
      rw [atHeader, Stream.rest_advance, Stream.rest_remark, List.drop_drop]
    rw [seekSequence_eq _ _ _ _ (sound_atHeader s h _), hrest, hscan]
    simp only [atHeader, Stream.advance_advance]
  have hsimple : getEndOfSeqeunceSimplified EOF_MARKER (atHeader s h h) =
      .ok ((windowStart m : Int) + k) (atHeader s h (h + (windowStart m + k))) := by
    rw [simplified_eq hm h2 (by omega), onStream_ok hseek, Nat.add_assoc]
    rfl
  rw [searchLength, bind_ok hsimple, if_neg (by omega), pure_apply, Int.natCast_add]

omit [Heap] in
theorem searchLength_first {h k : Nat} (hm : s.mContentLength = -1) (hh : h ≤ FRAME_MAX_LENGTH)
    (hscan : scanFrom EOF_MARKER 0 s.stream.rest = some k) (hk : k ≤ FRAME_MAX_LENGTH) :
    searchLength (atHeader s h h) = .ok (k : Int) (atHeader s h k) := by
  have hskip : onStream (skipBytes 0) (atHeader s h h) = .ok () (atHeader s h h) := by
    refine onStream_ok ?_
    rw [skipBytes_of_le (Nat.zero_le _), Stream.advance_zero (sound_atHeader s h h)]
    rfl
  have hsimple : getEndOfSeqeunceSimplified EOF_MARKER (atHeader s h h) =
      .ok (-1) (atHeader s h h) := by
    have hfield : (atHeader s h h).mContentLength = -1 := hm
    rw [getEndOfSeqeunceSimplified, bind_ok (get_apply _), hfield]
    exact bind_ok hskip
  have hreset : onStream reset (atHeader s h h) = .ok () { atHeader s h h with
      stream := s.stream.remark FRAME_MAX_LENGTH } := by
    refine onStream_ok ?_
    rw [atHeader, reset_remark, if_pos (by omega)]
  have hend : onStream (getEndOfSeqeunce FRAME_MAX_LENGTH EOF_MARKER) { atHeader s h h with
      stream := s.stream.remark FRAME_MAX_LENGTH } = .ok (k : Int) (atHeader s h k) :=
    onStream_ok (getEndOfSeqeunce_found (s.stream.sound_remark _)
      (by rwa [Stream.rest_remark]) hk)
  rw [searchLength, bind_ok hsimple, if_pos (by omega), bind_ok hreset, hend]

structure InWindow (mContentLength : Int) (frame : List UInt8) : Prop where
  start : 2 ≤ mContentLength
  found : scanFrom EOF_MARKER 0
    ((frame.drop (windowStart mContentLength)).take (windowLength mContentLength)) =
      some (frame.length - windowStart mContentLength)

open MjpegInputStreamDefault (Part)

/-- A part whose frame is read as it is after one of the length given. -/
structure Follows (mContentLength : Int) (p : Part) : Prop where
  marker : scanFrom SOI_MARKER 0 p.content = some (p.header.length + 2)
  reach : p.header.length + 2 ≤ FRAME_MAX_LENGTH
  array : p.frame.length + HEADER_MAX_LENGTH ≤ Heap.maxArray
  length : parseContentLength p.header = .ok (p.frame.length : Int) ∨
    (∃ e, parseContentLength p.header = .error e) ∧ InWindow mContentLength p.frame ∧
      p.header.length + p.frame.length ≤ FRAME_MAX_LENGTH

def Chain : Int → List Part → Prop
  | _, [] => True
  | m, p :: ps => Follows m p ∧ Chain p.frame.length ps

theorem contentLength_part {p : Part} {tail : List UInt8} (hs : s.stream.rest = p.content ++ tail)
    (hp : Follows s.mContentLength p) : ∃ k ≤ FRAME_MAX_LENGTH,
      contentLength (s.stream.rest.take p.header.length) (atHeader s p.header.length p.header.length) =
        .ok (p.frame.length : Int) (atHeader s p.header.length k) := by
  have htake : s.stream.rest.take p.header.length = p.header := by simp [hs, Part.content]
  have hdrop : s.stream.rest.drop p.header.length = p.frame ++ tail := by simp [hs, Part.content]
  rcases hp.length with hann | ⟨⟨e, he⟩, hwin, hle⟩
  · have := hp.reach
    exact ⟨p.header.length, by omega, by simp [contentLength, htake, hann]⟩
  · obtain ⟨m, hm⟩ := Int.eq_ofNat_of_zero_le (by have := hwin.start; omega :
      0 ≤ s.mContentLength)
    obtain ⟨hstart, hfound⟩ := hwin
    rw [hm] at hstart hfound
    obtain ⟨hf, hk⟩ := scanFrom_take_iff.mp hfound
    have hpos := (scanFrom_le hf).1
    have hscan : scanFrom EOF_MARKER 0
        (((s.stream.rest.drop p.header.length).drop (windowStart m)).take (windowLength m)) =
          some (p.frame.length - windowStart m) := by
      rw [hdrop, List.drop_append_of_le_length (by omega)]
      exact scanFrom_take (scanFrom_append tail hf) hk
    have hsearch := searchLength_found hm (by omega) hscan
    rw [Nat.add_sub_cancel' (by omega)] at hsearch
    exact ⟨p.header.length + p.frame.length, hle, by simp [contentLength, htake, he, hsearch]⟩

theorem nextFrame_part {p : Part} {tail : List UInt8} (hr : Ready s)
    (hs : s.stream.rest = p.content ++ tail) (hp : Follows s.mContentLength p) :
    ∃ t, nextFrame s = .ok (.decode p.frame) t ∧ Ready t ∧ t.mContentLength = p.frame.length ∧
      t.stream.rest = tail := by
  obtain ⟨k, hk, hlen⟩ := contentLength_part hs hp
  have hfit : p.header.length + p.frame.length ≤ s.stream.rest.length := by
    simp [hs, Part.content]
  obtain ⟨t, ht, hready, hm, hrest⟩ := readMjpegFrame_found hr
    (by rw [hs]; exact scanFrom_append tail hp.marker) hp.reach hlen hk hfit hp.array
  have hframe : (s.stream.rest.drop p.header.length).take p.frame.length = p.frame := by
    simp [hs, Part.content]
  refine ⟨t, by rw [nextFrame, ht, hframe], hready, hm, ?_⟩
  rw [hrest, hs, Part.content, ← List.length_append]
  exact List.drop_left

variable {σ : Type} (pixeltobmp : σ → List UInt8 → Int × σ)

theorem readFrames_decode {frame : List UInt8} {u : NativeStream} (d : σ) (n : Nat)
    (h : nextFrame s = .ok (.decode frame) u) : readFrames pixeltobmp (n + 1) d s =
      if (pixeltobmp d frame).1 = -1 then .ok [frame] u
      else (readFrames pixeltobmp n (pixeltobmp d frame).2 >>= fun frames =>
        pure (frame :: frames)) u := by
  rw [readFrames, bind_ok h]
  change (ite _ _ _ : NativeReader (List (List UInt8))) u = _
  split_ifs <;> rfl

omit [Heap] in
theorem decoded_cons (d : σ) (frame : List UInt8) (frames : List (List UInt8)) :
    decoded pixeltobmp d (frame :: frames) =
      if (pixeltobmp d frame).1 = -1 then [frame]
      else frame :: decoded pixeltobmp (pixeltobmp d frame).2 frames := rfl

theorem readFrames_chain {parts : List Part} {tail : List UInt8} (d : σ)
    (hr : Ready s) (hs : s.stream.rest = parts.flatMap Part.content ++ tail)
    (hp : Chain s.mContentLength parts) :
    ∃ t, readFrames pixeltobmp parts.length d s =
        .ok (decoded pixeltobmp d (parts.map Part.frame)) t ∧
      t.stream.rest = (parts.drop
        (decoded pixeltobmp d (parts.map Part.frame)).length).flatMap Part.content ++ tail := by
  induction parts generalizing s d with
  | nil => exact ⟨s, rfl, hs⟩
  | cons p parts ih =>
    rw [List.flatMap_cons, List.append_assoc] at hs
    obtain ⟨u, hu, hur, hm, hurest⟩ := nextFrame_part hr hs hp.1
    rw [List.length_cons, readFrames_decode pixeltobmp d _ hu, List.map_cons, decoded_cons]
    split_ifs with hret
    · exact ⟨u, rfl, by simpa using hurest⟩
    · obtain ⟨t, ht, htrest⟩ := ih (pixeltobmp d p.frame).2 hur hurest (hm ▸ hp.2)
      exact ⟨t, by rw [bind_ok ht, pure_apply], by simpa using htrest⟩

/-- Where neither reader is at a loss for the end of a frame, the one that looks for it
around the last one hands the same frames to its decoder as the other, in the same order, up
to the first on which the decoder gives -1 and ends the loop. -/
theorem readers_agree (d : σ) (parts : List Part) (tail : List UInt8)
    (hv : ∀ p ∈ parts, p.Valid ∧ p.delivered = true) (hc : Chain (-1) parts) :
    ∃ t u,
      MjpegInputStreamDefault.readFrames parts.length
        (MjpegInputStreamDefault.ofBytes (parts.flatMap Part.content ++ tail)) =
          .ok (parts.map Part.frame) t ∧ t.rest = tail ∧
      readFrames pixeltobmp parts.length d (ofBytes (parts.flatMap Part.content ++ tail)) =
        .ok (decoded pixeltobmp d (parts.map Part.frame)) u ∧
      u.stream.rest = (parts.drop
        (decoded pixeltobmp d (parts.map Part.frame)).length).flatMap Part.content ++ tail := by
  obtain ⟨t, ht, htrest⟩ := MjpegInputStreamDefault.readFrames_valid (fun p hp => (hv p hp).1)
    (s := MjpegInputStreamDefault.ofBytes (parts.flatMap Part.content ++ tail)) rfl rfl
  obtain ⟨u, hu, hurest⟩ := readFrames_chain pixeltobmp d
    (ready_ofBytes (parts.flatMap Part.content ++ tail)) rfl hc
  have hall : parts.filter Part.delivered = parts :=
    List.filter_eq_self.mpr fun p hp => (hv p hp).2
  rw [hall] at ht
  exact ⟨t, u, ht, htrest, hu, hurest⟩

omit [Heap] in
/-- The second part does not say how long it is and is found around the first one's end. The
decoder gives -1 on its second frame. -/
theorem readers_agree_two : ∃ _ : Heap, ∃ t u,
    MjpegInputStreamDefault.readFrames 2 (MjpegInputStreamDefault.ofBytes
      (MjpegInputStreamDefault.announcedPart.content ++
        (MjpegInputStreamDefault.barePart.content ++ []) ++ [0x2D])) =
      .ok [[0xFF, 0xD8, 0xFF, 0xD9], [0xFF, 0xD8, 0x00, 0xFF, 0xD9]] t ∧
    readFrames (fun n _ => (-n, n + 1)) 2 (0 : Int) (ofBytes
      (MjpegInputStreamDefault.announcedPart.content ++
        (MjpegInputStreamDefault.barePart.content ++ []) ++ [0x2D])) =
      .ok [[0xFF, 0xD8, 0xFF, 0xD9], [0xFF, 0xD8, 0x00, 0xFF, 0xD9]] u ∧
    t.rest = [0x2D] ∧ u.stream.rest = [0x2D] := by
  refine ⟨MjpegInputStreamDefault.sampleHeap, ?_⟩
  let := MjpegInputStreamDefault.sampleHeap
  have hchain : Chain (-1) [MjpegInputStreamDefault.announcedPart, MjpegInputStreamDefault.barePart] :=
    ⟨⟨by decide +kernel, by decide +kernel, by decide +kernel, .inl (by decide +kernel)⟩,
      ⟨by decide +kernel, by decide +kernel, by decide +kernel,
        .inr ⟨⟨.numberFormat, by decide +kernel⟩, ⟨by decide +kernel, by decide +kernel⟩,
          by decide +kernel⟩⟩, trivial⟩
  obtain ⟨t, u, ht, htr, hu, hur⟩ := readers_agree (fun n _ => (-n, n + 1)) (0 : Int)
    [MjpegInputStreamDefault.announcedPart, MjpegInputStreamDefault.barePart] [0x2D]
    (by simp only [List.mem_cons, List.not_mem_nil, or_false]
        rintro p (rfl | rfl)
        · exact ⟨MjpegInputStreamDefault.announcedPart_valid, by decide +kernel⟩
        · exact ⟨MjpegInputStreamDefault.barePart_valid, by decide +kernel⟩)
    hchain
  exact ⟨t, u, ht, hu, htr, hur⟩

/-- The frame behind a header that gives no length comes with as many bytes of what follows as
the header has, when it is the first. -/
theorem nextFrame_first {p : Part} {e : ParseException} (rest : List UInt8)
    (hmark : scanFrom SOI_MARKER 0 p.content = some (p.header.length + 2))
    (hnone : parseContentLength p.header = .error e)
    (hend : scanFrom EOF_MARKER 0 p.content = some p.content.length)
    (hlen : p.content.length ≤ FRAME_MAX_LENGTH) (hrest : p.header.length ≤ rest.length) :
    ∃ u, nextFrame (ofBytes (p.content ++ rest)) =
        .ok (.decode (p.frame ++ rest.take p.header.length)) u ∧ Ready u ∧
      u.mContentLength = p.content.length ∧ u.stream.rest = rest.drop p.header.length := by
  let s := ofBytes (p.content ++ rest)
  have hbytes : s.stream.rest = p.header ++ (p.frame ++ rest) := by
    simp [s, ofBytes, Stream.rest, Part.content]
  have hcontent : p.content.length = p.header.length + p.frame.length := by simp [Part.content]
  have hlong := (scanFrom_le hmark).2
  have hfirst : contentLength (s.stream.rest.take p.header.length)
      (atHeader s p.header.length p.header.length) =
        .ok (p.content.length : Int) (atHeader s p.header.length p.content.length) := by
    have htake : s.stream.rest.take p.header.length = p.header := by simp [hbytes]
    have hscan : scanFrom EOF_MARKER 0 s.stream.rest = some p.content.length := by
      change scanFrom EOF_MARKER 0 (p.content ++ _) = _
      exact scanFrom_append _ hend
    have hsearch := searchLength_first (h := p.header.length) (s := s) rfl (by omega) hscan hlen
    simp [contentLength, htake, hnone, hsearch]
  have harray : p.content.length + HEADER_MAX_LENGTH ≤ Heap.maxArray := by
    have := le_maxArray
    omega
  have hfit : p.header.length + p.content.length ≤ s.stream.rest.length := by
    simp only [hbytes, List.length_append]
    omega
  have hscan : scanFrom SOI_MARKER 0 s.stream.rest = some (p.header.length + 2) := by
    change scanFrom SOI_MARKER 0 (p.content ++ _) = _
    exact scanFrom_append _ hmark
  obtain ⟨u, hu, hready, hm, hurest⟩ :=
    readMjpegFrame_found (ready_ofBytes _) hscan (by omega) hfirst hlen hfit harray
  have hdrop : s.stream.rest.drop p.header.length = p.frame ++ rest := by simp [hbytes]
  have hover : p.content.length = p.frame.length + p.header.length := by omega
  refine ⟨u, ?_, hready, hm, ?_⟩
  · rw [nextFrame, hu, hdrop, hover, List.take_length_add_append]
  · rw [hurest, ← List.drop_drop, hdrop, hover, List.drop_length_add_append]

/-- Of a stream whose first header does not give a length, the first frame comes with as
many bytes as its header has of what follows it. With headers of one length that is the
next header, and the reader is in step again. -/
theorem readFrames_bare {p : Part} {e : ParseException} (d : σ)
    (hmark : scanFrom SOI_MARKER 0 p.content = some (p.header.length + 2))
    (hnone : parseContentLength p.header = .error e)
    (hend : scanFrom EOF_MARKER 0 p.content = some p.content.length)
    (hlen : p.content.length ≤ FRAME_MAX_LENGTH) :
    (∀ rest : List UInt8, p.header.length ≤ rest.length →
      ∃ u, nextFrame (ofBytes (p.content ++ rest)) =
          .ok (.decode (p.frame ++ rest.take p.header.length)) u ∧
        u.stream.rest = rest.drop p.header.length) ∧
    ∀ (q : Part) (parts : List Part) (tail : List UInt8), q.header.length = p.header.length →
      Chain p.content.length (⟨[], q.frame⟩ :: parts) →
      ∃ frames t, frames =
          decoded pixeltobmp d ((p.frame ++ q.header) :: q.frame :: parts.map Part.frame) ∧
        readFrames pixeltobmp (parts.length + 2) d
          (ofBytes (p.content ++ (q.content ++ (parts.flatMap Part.content ++ tail)))) =
            .ok frames t ∧
        (frames.length = parts.length + 2 → t.stream.rest = tail) := by
  refine ⟨fun rest hrest => ?_, fun q parts tail hq hc => ?_⟩
  · obtain ⟨u, hu, -, -, hurest⟩ := nextFrame_first rest hmark hnone hend hlen hrest
    exact ⟨u, hu, hurest⟩
  · obtain ⟨u, hu, hready, hm, hurest⟩ := nextFrame_first
      (q.content ++ (parts.flatMap Part.content ++ tail)) hmark hnone hend hlen
      (by simp [Part.content, hq])
    have htake : (q.content ++ (parts.flatMap Part.content ++ tail)).take p.header.length =
        q.header := by
      simp [Part.content, ← hq]
    have hleft : u.stream.rest = (⟨[], q.frame⟩ :: parts).flatMap Part.content ++ tail := by
      simp [hurest, Part.content, ← hq]
    rw [htake] at hu
    rw [readFrames_decode pixeltobmp d _ hu, decoded_cons]
    split_ifs with hret
    · exact ⟨_, u, rfl, rfl, by simp⟩
    · obtain ⟨t, ht, htrest⟩ := readFrames_chain pixeltobmp (pixeltobmp d (p.frame ++ q.header)).2
        hready hleft (hm ▸ hc)
      rw [List.length_cons, List.map_cons] at ht
      refine ⟨_, t, rfl, by rw [bind_ok ht, pure_apply], fun hall => ?_⟩
      rw [htrest, List.drop_of_length_le, List.flatMap_nil, List.nil_append]
      rw [List.length_cons] at hall
      simp only [List.length_cons, List.map_cons]
      omega

omit [Heap] in
theorem readFrames_bare_two : ∃ _ : Heap, ∃ t,
    readFrames (fun _ _ => (0, ())) 2 () (ofBytes ([0x2D, 0x0A, 0xFF, 0xD8, 0x00, 0xFF, 0xD9] ++
      ([0x2B, 0x0A, 0xFF, 0xD8, 0xFF, 0xD9] ++ ([] ++ [0x2D])))) =
      .ok [[0xFF, 0xD8, 0x00, 0xFF, 0xD9, 0x2B, 0x0A], [0xFF, 0xD8, 0xFF, 0xD9]] t ∧
    t.stream.rest = [0x2D] := by
  refine ⟨MjpegInputStreamDefault.sampleHeap, ?_⟩
  let := MjpegInputStreamDefault.sampleHeap
  obtain ⟨-, hbare⟩ := readFrames_bare (fun _ _ => (0, ())) (d := ())
    (p := ⟨[0x2D, 0x0A], [0xFF, 0xD8, 0x00, 0xFF, 0xD9]⟩) (e := .numberFormat)
    (by decide +kernel) (by decide +kernel) (by decide +kernel) (by decide +kernel)
  obtain ⟨_, t, rfl, ht, hrest⟩ := hbare ⟨[0x2B, 0x0A], [0xFF, 0xD8, 0xFF, 0xD9]⟩ [] [0x2D] rfl
    ⟨⟨by decide +kernel, by decide +kernel, by decide +kernel,
      .inr ⟨⟨.numberFormat, by decide +kernel⟩, ⟨by decide +kernel, by decide +kernel⟩,
        by decide +kernel⟩⟩, trivial⟩
  exact ⟨t, ht, hrest rfl⟩

end MjpegInputStreamNative

end CameraClient
