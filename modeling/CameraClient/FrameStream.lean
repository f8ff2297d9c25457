import CameraClient.MjpegStream

/-! The playback loop over a whole stream: what it delivers of any bytes, when it ends
the process, and that it delivers the frames of well-formed parts in order. -/
namespace CameraClient
open MarkedStream StateError Scan

/-- Frames cut out of the bytes one after the other. -/
inductive Cut : List UInt8 → List (List UInt8) → List UInt8 → Prop
  | done (bytes : List UInt8) : Cut bytes [] bytes
  | skip {bytes rest : List UInt8} {frames : List (List UInt8)} (gap : List UInt8) :
      Cut bytes frames rest → Cut (gap ++ bytes) frames rest
  | take {bytes rest : List UInt8} {frames : List (List UInt8)} (frame : List UInt8) :
      Cut bytes frames rest → Cut (frame ++ bytes) (frame :: frames) rest

def BeginsWithMarker (frame : List UInt8) : Prop := frame <+: SOI_MARKER ∨ SOI_MARKER <+: frame

theorem beginsWithMarker_take {bytes : List UInt8} {h : Nat}
    (hscan : scanFrom SOI_MARKER 0 bytes = some (h + 2)) (n : Nat) :
    BeginsWithMarker ((bytes.drop h).take n) := by
  obtain ⟨r, hr⟩ := drop_of_scanFrom (by decide) hscan
  have hpre : SOI_MARKER <+: bytes.drop h := ⟨r, by rw [hr]; rfl⟩
  exact List.prefix_or_prefix_of_prefix (List.take_prefix n _) hpre

namespace MjpegInputStreamDefault
variable [Heap] {s t : Stream UInt8} {bytes : List UInt8}

omit [Heap] in
theorem unannounced_frame {h k n : Nat} (hu : unannounced bytes h = .frame k n) :
    k = h ∧ 2 ≤ n ∧ h + n ≤ bytes.length := by
  unfold unannounced at hu
  cases hscan : scanFrom EOF_MARKER 0 ((bytes.drop h).take FRAME_MAX_LENGTH) with
  | none =>
    simp only [hscan] at hu
    split_ifs at hu
  | some j =>
    obtain ⟨hfull, -⟩ := scanFrom_take_iff.mp hscan
    have hj := scanFrom_pair_two_le (by decide) hfull
    have hle := (scanFrom_le hfull).2
    rw [List.length_drop] at hle
    simp only [hscan] at hu
    split_ifs at hu
    obtain ⟨rfl, rfl⟩ : h = k ∧ j = n := by simpa using hu
    exact ⟨rfl, hj, by omega⟩

theorem outcome_frame {h n : Nat} (ho : outcome bytes = .frame h n) :
    scanFrom SOI_MARKER 0 bytes = some (h + 2) ∧ h + n ≤ bytes.length ∧ 0 < h + n := by
  unfold outcome at ho
  cases hscan : scanFrom SOI_MARKER 0 (bytes.take FRAME_MAX_LENGTH) with
  | none =>
    simp only [hscan] at ho
    split_ifs at ho
  | some e =>
    obtain ⟨hfull, -⟩ := scanFrom_take_iff.mp hscan
    have h2 : 2 ≤ e := scanFrom_pair_two_le (by decide) hfull
    obtain ⟨k, rfl⟩ : ∃ k, e = k + 2 := ⟨e - 2, by omega⟩
    simp only [hscan, Nat.add_sub_cancel] at ho
    cases hp : parseContentLength (bytes.take k) with
    | ok length =>
      simp only [hp, announced] at ho
      split_ifs at ho with hneg hbig hfit
      obtain ⟨rfl, rfl⟩ : k = h ∧ length.toNat = n := by simpa using ho
      refine ⟨hfull, hfit, ?_⟩
      -- an empty header says nothing about the length
      rcases Nat.eq_zero_or_pos k with rfl | hk
      · cases hp
      · omega
    | error exception =>
      cases exception with
      | numberFormat =>
        simp only [hp] at ho
        obtain ⟨rfl, hn, hle⟩ := unannounced_frame ho
        exact ⟨hfull, hle, by omega⟩
      | illegalArgument => simp [hp] at ho

theorem outcome_invalidMark {n : Nat} (ho : outcome bytes = .invalidMark n) :
    0 < n ∧ n ≤ bytes.length := by
  unfold outcome at ho
  cases hscan : scanFrom SOI_MARKER 0 (bytes.take FRAME_MAX_LENGTH) with
  | none =>
    simp only [hscan] at ho
    split_ifs at ho
  | some e =>
    simp only [hscan] at ho
    cases hp : parseContentLength (bytes.take (e - 2)) with
    | ok length =>
      simp only [hp, announced] at ho
      split_ifs at ho
    | error exception =>
      cases exception with
      | numberFormat =>
        simp only [hp, unannounced] at ho
        cases hend : scanFrom EOF_MARKER 0 ((bytes.drop (e - 2)).take FRAME_MAX_LENGTH) with
        | some j =>
          have he := (scanFrom_le (scanFrom_take_iff.mp hscan).1).2
          have hle := (scanFrom_le (scanFrom_take_iff.mp hend).1).2
          rw [List.length_drop] at hle
          simp only [hend] at ho
          split_ifs at ho
          obtain rfl : e - 2 + j = n := by simpa using ho
          omega
        | none =>
          simp only [hend] at ho
          split_ifs at ho
          obtain rfl : e - 2 + FRAME_MAX_LENGTH = n := by simpa using ho
          exact ⟨by rw [FRAME_MAX_LENGTH]; omega, by omega⟩
      | illegalArgument => simp [hp] at ho

/-- A turn of the loop takes bytes off the front of the stream, some unless it is at
its end, and the frame it delivers is the last of them. -/
theorem nextFrame_step (hsize : s.size = FRAME_MAX_LENGTH) {frame : Option (List UInt8)}
    (h : nextFrame s = .ok frame t) : t.size = FRAME_MAX_LENGTH ∧
      (∃ gap, s.rest = gap ++ (frame.toList.flatten ++ t.rest)) ∧
      (∀ f ∈ frame, BeginsWithMarker f) ∧
      t.rest.length + (frame.toList.length) ≤ s.rest.length ∧
      (s.rest ≠ [] → t.rest.length < s.rest.length) := by
  rw [nextFrame, readMjpegFrame_eq hsize] at h
  cases ho : outcome s.rest with
  | frame k n =>
    obtain ⟨hscan, hle, hpos⟩ := outcome_frame ho
    obtain ⟨rfl, rfl⟩ : some ((s.rest.drop k).take n) = frame ∧
        (s.remark FRAME_MAX_LENGTH).advance (k + n) = t := by
      simpa [ho, Outcome.result] using h
    refine ⟨hsize, ⟨s.rest.take k, ?_⟩, ?_, ?_, ?_⟩
    · rw [Option.toList_some, List.flatten_singleton, Stream.rest_advance, Stream.rest_remark,
        ← List.drop_drop, List.take_append_drop, List.take_append_drop]
    · intro f hf
      obtain rfl : (s.rest.drop k).take n = f := by simpa using hf
      exact beginsWithMarker_take hscan n
    · simp
      omega
    · simp
      omega
  | endOfFile =>
    obtain ⟨rfl, rfl⟩ : none = frame ∧ (s.remark FRAME_MAX_LENGTH).exhaust = t := by
      simpa [ho, Outcome.result] using h
    refine ⟨hsize, ⟨s.rest, by simp⟩, by simp, by simp, fun hne => ?_⟩
    simpa using List.length_pos_iff.mpr hne
  | invalidMark n =>
    obtain ⟨hpos, hle⟩ := outcome_invalidMark ho
    obtain ⟨rfl, rfl⟩ : none = frame ∧ (s.remark FRAME_MAX_LENGTH).advance n = t := by
      simpa [ho, Outcome.result] using h
    refine ⟨hsize, ⟨s.rest.take n, by simp⟩, by simp, by simp, fun hne => ?_⟩
    simp
    omega
  | negativeArraySize => simp [ho, Outcome.result] at h
  | outOfMemory => simp [ho, Outcome.result] at h
  | illegalArgument k => simp [ho, Outcome.result] at h

/-- Whatever bytes arrive, a loop that goes on delivers slices of them in order, each
beginning with the marker; it takes a byte for every frame, and as many turns as there
are bytes bring it to their end. -/
theorem readFrames_cut {n : Nat} {frames : List (List UInt8)} (hsize : s.size = FRAME_MAX_LENGTH)
    (h : readFrames n s = .ok frames t) :
    Cut s.rest frames t.rest ∧ (∀ f ∈ frames, BeginsWithMarker f) ∧
    frames.length + t.rest.length ≤ s.rest.length ∧ (s.rest.length ≤ n → t.rest = []) := by
  induction n generalizing s frames with
  | zero =>
    obtain ⟨rfl, rfl⟩ : [] = frames ∧ s = t := by simpa [readFrames] using h
    exact ⟨.done _, by simp, by simp, fun hn => by simpa using hn⟩
  | succ n ih =>
    rw [readFrames, bind_apply] at h
    cases hnext : nextFrame s with
    | error e u => simp [hnext] at h
    | ok frame u =>
      simp only [hnext, bind_apply] at h
      obtain ⟨husize, ⟨gap, hgap⟩, hbegin, hlen, hprog⟩ := nextFrame_step hsize hnext
      cases hrest : readFrames n u with
      | error e v => simp [hrest] at h
      | ok fs v =>
        obtain ⟨rfl, rfl⟩ : frame.toList ++ fs = frames ∧ v = t := by simpa [hrest] using h
        obtain ⟨hcut, hfs, hle, hend⟩ := ih husize hrest
        refine ⟨?_, ?_, ?_, ?_⟩
        · rw [hgap]
          refine .skip gap ?_
          cases frame with
          | none => exact hcut
          | some f => simpa using Cut.take f hcut
        · intro f hf
          rcases List.mem_append.mp hf with hf | hf
          · exact hbegin f (by simpa using hf)
          · exact hfs f hf
        · rw [List.length_append]
          omega
        · intro hn
          refine hend ?_
          by_cases hnil : s.rest = []
          · have hzero : s.rest.length = 0 := by simp [hnil]
            omega
          · have := hprog hnil
            omega

abbrev sampleHeap : Heap := ⟨1048576, by decide, by decide⟩

omit [Heap] in
theorem readFrames_cut_bare : ∃ _ : Heap, ∃ t,
    readFrames 1 (ofBytes [0x2D, 0x0A, 0xFF, 0xD8, 0x00, 0xFF, 0xD9, 0x2D]) =
      .ok [[0xFF, 0xD8, 0x00, 0xFF, 0xD9]] t ∧
    Cut [0x2D, 0x0A, 0xFF, 0xD8, 0x00, 0xFF, 0xD9, 0x2D] [[0xFF, 0xD8, 0x00, 0xFF, 0xD9]] t.rest ∧
    1 + t.rest.length ≤ 8 := by
  refine ⟨sampleHeap, ?_⟩
  let := sampleHeap
  let s := ofBytes [0x2D, 0x0A, 0xFF, 0xD8, 0x00, 0xFF, 0xD9, 0x2D]
  have ho : outcome s.rest = .frame 2 5 := by decide +kernel
  have hnext : nextFrame s = .ok (some [0xFF, 0xD8, 0x00, 0xFF, 0xD9])
      ((s.remark FRAME_MAX_LENGTH).advance 7) := by
    rw [nextFrame, readMjpegFrame_eq rfl, ho]
    rfl
  have hrun : readFrames 1 s = .ok [[0xFF, 0xD8, 0x00, 0xFF, 0xD9]]
      ((s.remark FRAME_MAX_LENGTH).advance 7) := by
    rw [readFrames, bind_ok hnext]
    rfl
  obtain ⟨hcut, -, hle, -⟩ := readFrames_cut rfl hrun
  exact ⟨_, hrun, hcut, hle⟩

/-- A header and the frame behind it. -/
structure Part where
  header : List UInt8
  frame : List UInt8
  deriving DecidableEq, Repr

namespace Part

def content (p : Part) : List UInt8 := p.header ++ p.frame

/-- The scanner finds the frame where it begins, there is memory for it, and the header says
how long it is or its end marker does. -/
structure Valid (p : Part) : Prop where
  marker : scanFrom SOI_MARKER 0 p.content = some (p.header.length + 2)
  reach : p.header.length + 2 ≤ FRAME_MAX_LENGTH
  array : p.frame.length ≤ Heap.maxArray
  length : parseContentLength p.header = .ok (p.frame.length : Int) ∨
    parseContentLength p.header = .error .numberFormat ∧
      scanFrom EOF_MARKER 0 p.frame = some p.frame.length ∧ p.frame.length ≤ FRAME_MAX_LENGTH

def delivered (p : Part) : Bool :=
  match parseContentLength p.header with
  | .ok _ => true
  | .error _ => decide (p.header.length + p.frame.length ≤ FRAME_MAX_LENGTH)

theorem outcome_part {p : Part} (hp : p.Valid) (tail : List UInt8) :
    outcome (p.content ++ tail) =
      if p.delivered then .frame p.header.length p.frame.length
      else .invalidMark (p.header.length + p.frame.length) := by
  have hscan : scanFrom SOI_MARKER 0 ((p.content ++ tail).take FRAME_MAX_LENGTH) =
      some (p.header.length + 2) :=
    scanFrom_take (scanFrom_append tail hp.marker) hp.reach
  have htake : (p.content ++ tail).take p.header.length = p.header := by simp [content]
  have hdrop : (p.content ++ tail).drop p.header.length = p.frame ++ tail := by simp [content]
  have hlen : p.header.length + p.frame.length ≤ p.content.length + tail.length := by
    simp [content]
  unfold outcome
  simp only [hscan, Nat.add_sub_cancel, htake]
  rcases hp.length with hann | ⟨hnone, hend, hle⟩
  · have hneg : ¬ ((p.frame.length : Int) < 0) := by omega
    have hbig : ¬ ((Heap.maxArray : Int) < p.frame.length) := by
      have := hp.array
      omega
    simp [hann, announced, hneg, hbig, hlen, delivered]
  · have hend' : scanFrom EOF_MARKER 0 ((p.frame ++ tail).take FRAME_MAX_LENGTH) =
        some p.frame.length :=
      scanFrom_take (scanFrom_append tail hend) hle
    simp [hnone, unannounced, hdrop, hend', delivered]

theorem nextFrame_part {p : Part} (hp : p.Valid) {tail : List UInt8}
    (hsize : s.size = FRAME_MAX_LENGTH) (hs : s.rest = p.content ++ tail) :
    ∃ t, nextFrame s = .ok (if p.delivered then some p.frame else none) t ∧
      t.size = FRAME_MAX_LENGTH ∧ t.rest = tail := by
  have hframe : (s.rest.drop p.header.length).take p.frame.length = p.frame := by
    simp [hs, content]
  have hrest : s.rest.drop (p.header.length + p.frame.length) = tail := by
    rw [hs, ← List.length_append]
    exact List.drop_left
  refine ⟨(s.remark FRAME_MAX_LENGTH).advance (p.header.length + p.frame.length), ?_, hsize, ?_⟩
  · rw [nextFrame, readMjpegFrame_eq hsize, hs, outcome_part hp]
    cases p.delivered with
    | true => simp [Outcome.result, hframe]
    | false => simp [Outcome.result]
  · rw [Stream.rest_advance, Stream.rest_remark, hrest]

end Part

theorem readFrames_valid {parts : List Part} (hp : ∀ p ∈ parts, p.Valid) {tail : List UInt8}
    (hsize : s.size = FRAME_MAX_LENGTH) (hs : s.rest = parts.flatMap Part.content ++ tail) :
    ∃ t, readFrames parts.length s = .ok ((parts.filter Part.delivered).map Part.frame) t ∧
      t.rest = tail := by
  induction parts generalizing s with
  | nil => exact ⟨s, rfl, by simpa using hs⟩
  | cons p parts ih =>
    rw [List.flatMap_cons, List.append_assoc] at hs
    obtain ⟨u, hu, husize, hurest⟩ := Part.nextFrame_part (hp p (by simp)) hsize hs
    obtain ⟨t, ht, htrest⟩ := ih (fun x hx => hp x (List.mem_cons_of_mem p hx)) husize hurest
    refine ⟨t, ?_, htrest⟩
    rw [List.length_cons, readFrames, bind_ok hu, bind_ok ht, pure_apply]
    cases hd : p.delivered <;> simp [hd]

/-- Of a stream of well-formed parts the loop delivers the frames in order, each as it was
sent, and leaves what follows them. Only a frame whose header does not say how long it
is and that reaches further than the mark is lost, and nothing with it. -/
theorem readFrames_parts (parts : List Part) (hp : ∀ p ∈ parts, p.Valid) (tail : List UInt8) :
    ∃ t, readFrames parts.length (ofBytes (parts.flatMap Part.content ++ tail)) =
      .ok ((parts.filter Part.delivered).map Part.frame) t ∧ t.rest = tail :=
  readFrames_valid hp rfl rfl

def announcedPart : Part where
  header := CONTENT_LENGTH.map Nat.toUInt8 ++ [0x3A, 0x20, 0x34, 0x0D, 0x0A, 0x0D, 0x0A]
  frame := [0xFF, 0xD8, 0xFF, 0xD9]

def barePart : Part where
  header := [0x2D, 0x2D, 0x0D, 0x0A]
  frame := [0xFF, 0xD8, 0x00, 0xFF, 0xD9]

theorem announcedPart_valid : announcedPart.Valid :=
  ⟨by decide +kernel, by decide +kernel, le_maxArray.trans' (by decide +kernel),
    .inl (by decide +kernel)⟩

theorem barePart_valid : barePart.Valid :=
  ⟨by decide +kernel, by decide +kernel, le_maxArray.trans' (by decide +kernel),
    .inr (by decide +kernel)⟩

omit [Heap] in
theorem readFrames_parts_two : ∃ _ : Heap, ∃ t,
    readFrames 2 (ofBytes (announcedPart.content ++ (barePart.content ++ []) ++ [0x2D])) =
      .ok [[0xFF, 0xD8, 0xFF, 0xD9], [0xFF, 0xD8, 0x00, 0xFF, 0xD9]] t ∧ t.rest = [0x2D] := by
  refine ⟨sampleHeap, ?_⟩
  let := sampleHeap
  have hd : ([announcedPart, barePart].filter Part.delivered).map Part.frame =
      [[0xFF, 0xD8, 0xFF, 0xD9], [0xFF, 0xD8, 0x00, 0xFF, 0xD9]] := by
    decide +kernel
  have h := readFrames_parts [announcedPart, barePart]
    (by simp [announcedPart_valid, barePart_valid]) [0x2D]
  rwa [hd] at h

end MjpegInputStreamDefault

open MjpegInputStreamDefault Properties

/-- A header in which the last line about it gives the length. -/
structure LengthHeader (header : List UInt8) (length : Nat) where
  before : List (List Nat)
  after : List (List Nat)
  blanks : Nat
  digits : List Nat
  text_eq : header.map UInt8.toNat = text (before ++
    (CONTENT_LENGTH ++ 0x3A :: (List.replicate blanks 0x20 ++ digits.map (0x30 + ·))) :: after)
  before_plain : ∀ l ∈ before, l = [] ∨ Plain l
  after_plain : ∀ l ∈ after, l = [] ∨ Plain l ∧ (plainProperty l).1 ≠ CONTENT_LENGTH
  digits_ne : digits ≠ []
  digit_lt : ∀ d ∈ digits, d < 10
  number_eq : number digits = length

theorem contentLength_plain :
    ∀ c ∈ CONTENT_LENGTH, isSeparator c = false ∧ isBlank c = false ∧ c ≠ backslash ∧
      isEol c = false := by
  decide

theorem contentLength_cons : CONTENT_LENGTH = 0x43 :: CONTENT_LENGTH.tail := by
  decide

theorem LengthHeader.line_plain {header : List UInt8} {length : Nat} (h : LengthHeader header length) :
    Plain (CONTENT_LENGTH ++ 0x3A :: (List.replicate h.blanks 0x20 ++ h.digits.map (0x30 + ·))) where
  chars := by
    intro c hc
    simp only [List.mem_append, List.mem_cons, List.mem_replicate, List.mem_map] at hc
    rcases hc with hc | rfl | ⟨-, rfl⟩ | ⟨d, hd, rfl⟩
    · exact ⟨(contentLength_plain c hc).2.2.2, (contentLength_plain c hc).2.2.1⟩
    · decide
    · decide
    · have hlt := h.digit_lt d hd
      simp only [isEol, lineFeed, carriageReturn, backslash, Bool.or_eq_false_iff, beq_eq_false_iff_ne]
      omega
  head := by
    intro c hc
    rw [contentLength_cons, List.cons_append, List.head?_cons] at hc
    obtain rfl : 0x43 = c := Option.some.inj hc
    decide
  ne_nil := by simp

/-- The reader understands the length of a text header, in whatever lines it stands. -/
theorem parseContentLength_text {header : List UInt8} {length : Nat}
    (h : LengthHeader header length) (hlt : length < 2147483648) :
    parseContentLength header = .ok (length : Int) := by
  let line := CONTENT_LENGTH ++ 0x3A :: (List.replicate h.blanks 0x20 ++ h.digits.map (0x30 + ·))
  have hplain : ∀ l ∈ h.before ++ line :: h.after, l = [] ∨ Plain l := by
    intro l hl
    rcases List.mem_append.mp hl with hl | hl
    · exact h.before_plain l hl
    · rcases List.mem_cons.mp hl with rfl | hl
      · exact .inr h.line_plain
      · exact (h.after_plain l hl).imp_right And.left
  have hline : plainProperty line = (CONTENT_LENGTH, h.digits.map (0x30 + ·)) := by
    refine plainProperty_separated (by decide) (fun c hc => ?_) (fun c hc => ?_) h.blanks
    · obtain ⟨h1, h2, h3, -⟩ := contentLength_plain c hc
      exact ⟨h1, h2, h3⟩
    · obtain ⟨d, hd, rfl⟩ := List.mem_map.mp (List.mem_of_mem_head? hc)
      have hlt := h.digit_lt d hd
      simp only [isBlank, Bool.or_eq_false_iff, beq_eq_false_iff_ne]
      omega
  have hload := load_text h.text_eq hplain
  rw [List.filter_append, List.filter_cons_of_pos (by simp), List.map_append, List.map_cons,
    hline] at hload
  have hafter : ∀ q ∈ (h.after.filter (· ≠ [])).map plainProperty, q.1 ≠ CONTENT_LENGTH := by
    intro q hq
    obtain ⟨l, hl, rfl⟩ := List.mem_map.mp hq
    obtain ⟨hmem, hne⟩ := List.mem_filter.mp hl
    rcases h.after_plain l hmem with rfl | hl
    · simp at hne
    · exact hl.2
  have hget := getProperty_append ((h.before.filter (· ≠ [])).map plainProperty) hafter
    (h.digits.map (0x30 + ·))
  have hparse : parseInt (some (h.digits.map (0x30 + ·))) = some (length : Int) := by
    rw [parseInt_digits h.digits_ne h.digit_lt (by rw [h.number_eq]; exact hlt), h.number_eq]
  unfold parseContentLength
  rw [hload]
  simp only [hget, hparse]

/-- A part with a text header is delivered whatever its frame holds, if there is memory for it
and the header itself is within reach. -/
theorem textPart_valid [Heap] {p : Part} (h : LengthHeader p.header p.frame.length)
    (harray : p.frame.length ≤ Heap.maxArray) (hff : ∀ b ∈ p.header, b ≠ 0xFF)
    (hsoi : SOI_MARKER <+: p.frame) (hreach : p.header.length + 2 ≤ FRAME_MAX_LENGTH) :
    p.Valid ∧ p.delivered = true := by
  have hlen := parseContentLength_text h (harray.trans_lt Heap.int)
  obtain ⟨r, hr⟩ := hsoi
  have hscan : scanFrom SOI_MARKER 0 p.frame = some 2 := by
    rw [← hr]
    exact scanFrom_append r (by decide)
  refine ⟨⟨?_, hreach, harray, .inl hlen⟩, by simp [Part.delivered, hlen]⟩
  have hskip : scanFrom SOI_MARKER 0 (p.header ++ p.frame) =
      (scanFrom SOI_MARKER 0 p.frame).map (p.header.length + ·) :=
    scanFrom_skip hff
  rw [Part.content, hskip, hscan, Option.map_some]

/-- The boundary and the type come before the length here, an empty line after it. -/
theorem textPart_valid_boundary : ∃ _ : Heap,
    let p : Part := ⟨[0x2D, 0x2D, 0x62, 0x0D, 0x0A] ++ CONTENT_LENGTH.map Nat.toUInt8 ++
      [0x3A, 0x20, 0x30, 0x35, 0x0D, 0x0A, 0x0D, 0x0A], [0xFF, 0xD8, 0xFF, 0xD8, 0x00]⟩
    p.Valid ∧ p.delivered = true := by
  refine ⟨sampleHeap, ?_⟩
  let := sampleHeap
  intro p
  refine textPart_valid (p := p) ⟨[[0x2D, 0x2D, 0x62]], [[]], 1, [0, 5], by decide +kernel, ?_, by simp,
    by simp, by simp, rfl⟩ (by decide +kernel) (by decide +kernel) (by decide +kernel)
    (by decide +kernel)
  intro l hl
  obtain rfl : l = [0x2D, 0x2D, 0x62] := by simpa using hl
  exact .inr ⟨by decide, by decide, by simp⟩

end CameraClient
