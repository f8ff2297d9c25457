import CameraClient.HuffmanTables
import CameraClient.Lib.Runs

/-! `ImageProc.c`, which decodes the frames of the native reader into a bitmap. libjpeg is its
environment: what it does with the bytes of a frame is given as a `JpegImage`. -/
namespace CameraClient
open Runs

/-- What a call of `jpeg_read_scanlines` does: it delivers a row of samples, or leaves the
decoder by `my_error_exit`. -/
inductive ScanRead where
  | row (samples : List UInt8)
  | failed
  deriving DecidableEq, Repr

/-- An image whose header libjpeg accepts: its size, the tables of its header, and what decoding
with given tables does, `none` when `jpeg_start_decompress` fails. Where the reads end the data
does: `memory_fill_input_buffer` brings no more, and no call delivers a row again. -/
structure JpegImage where
  image_width : Nat
  image_height : Nat
  num_components : Nat
  tables : HuffTables
  start : HuffTables → Option (List ScanRead)
  width_pos : 0 < image_width
  height_pos : 0 < image_height
  /-- The conversion from `JCS_YCbCr` starts on images of three components only. -/
  components : ∀ t reads, start t = some reads → num_components = 3
  row_length : ∀ t reads samples, start t = some reads → .row samples ∈ reads →
    samples.length = 3 * image_width

/-- The globals of `ImageProc.c`. An entry of `rgb` is `none` until it is written. -/
structure ImageProc where
  IMG_WIDTH : Int := -1
  IMG_HEIGHT : Int := -1
  rgb : Option (List (Option UInt32)) := none
  deriving DecidableEq, Repr

structure Bitmap where
  width : Nat
  height : Nat
  rgba8888 : Bool
  pixels : List (Option UInt32)
  deriving DecidableEq, Repr

def pixelOf (red green blue : UInt8) : UInt32 :=
  (0xff000000 : UInt32) ||| blue.toUInt32 <<< 16 ||| green.toUInt32 <<< 8 ||| red.toUInt32

/-- The pixel of the samples from `x3` on; a row shorter than that is not read. -/
def pixelAt (samples : List UInt8) (x3 : Nat) : Option UInt32 :=
  match samples.drop x3 with
  | red :: green :: blue :: _ => some (pixelOf red green blue)
  | _ => none

namespace ImageProc

/-- The loop over the pixels of a row, `x3` being `3 * xx`; it makes at most `width` rounds. -/
def writePixels (width row_stride : Nat) (samples : List UInt8) (y : Nat) :
    Nat → Nat → List (Option UInt32) → Except Overrun (List (Option UInt32))
  | 0, _, rgb => .ok rgb
  | fuel + 1, xx, rgb =>
    if xx < width ∧ 3 * xx < row_stride then
      match pixelAt samples (3 * xx) with
      | none => .error .overrun
      | some pixel =>
        if y + xx < rgb.length then
          writePixels width row_stride samples y fuel (xx + 1) (rgb.set (y + xx) (some pixel))
        else .error .overrun
    else .ok rgb

/-- The loop over the scanlines. Once the data has ended it goes on without a row, each round
one row further down, until it has left `rgb`. -/
def readScanlines (width row_stride image_height : Nat) :
    List ScanRead → Nat → Nat → List (Option UInt32) → Except Overrun (List (Option UInt32))
  | [], output_scanline, _, rgb =>
    if output_scanline < image_height then .error .overrun else .ok rgb
  | .failed :: _, _, _, rgb => .ok rgb
  | .row samples :: reads, output_scanline, y, rgb =>
    if output_scanline < image_height then do
      let rgb ← writePixels width row_stride samples y width 0 rgb
      readScanlines width row_stride image_height reads (output_scanline + 1) (y + width) rgb
    else .ok rgb

/-- The memory for a picture, when there is none. `granted` says whether `malloc` gives what it
is asked for: four bytes for a pixel, in a `size_t` of 32 bits as on each `APP_ABI`. -/
def allocate (st : ImageProc) (image_width image_height : Nat) (granted : Bool) : ImageProc :=
  match st.rgb with
  | none => ⟨image_width, image_height,
      if granted then some (List.replicate (image_width * image_height % 2 ^ 30) none) else none⟩
  | some _ => st

/-- `processimage`; `none` for bytes libjpeg finds no image in. What `malloc` refuses is written
through all the same. -/
def processimage (st : ImageProc) (granted : Bool) : Option JpegImage → Except Overrun ImageProc
  | none => .ok st
  | some image => do
    let (_, tables) ← my_jpeg_load_dht my_jpeg_odml_dht image.tables
    match image.start tables with
    | none => .ok st
    | some reads =>
      let row_stride := image.image_width * image.num_components
      let st := st.allocate image.image_width image.image_height granted
      let rgb ← readScanlines st.IMG_WIDTH.toNat row_stride image.image_height reads 0 0
        (st.rgb.getD [])
      .ok { st with rgb := st.rgb.map fun _ => rgb }

def copyPixels (rgb : List (Option UInt32)) :
    Nat → Nat → List (Option UInt32) → Except Overrun (List (Option UInt32))
  | 0, _, colors => .ok colors
  | n + 1, i, colors =>
    match rgb[i]? with
    | none => .error .overrun
    | some color =>
      if i < colors.length then copyPixels rgb n (i + 1) (colors.set i color)
      else .error .overrun

def pixeltobmp (st : ImageProc) (granted : Bool) (jpeg : Option JpegImage) (bmp : Bitmap) :
    Except Overrun (Int × ImageProc × Bitmap) := do
  let st ← st.processimage granted jpeg
  if bmp.rgba8888 = false then .ok (-1, st, bmp)
  else if (bmp.width : Int) ≠ st.IMG_WIDTH ∨ (bmp.height : Int) ≠ st.IMG_HEIGHT then
    .ok (-1, st, bmp)
  else do
    let pixels ← copyPixels (st.rgb.getD [])
      ((st.IMG_WIDTH * st.IMG_HEIGHT).bmod (2 ^ 32)).toNat 0 bmp.pixels
    .ok (0, st, { bmp with pixels := pixels })

/-- `freeCameraMemory`; the size of the freed picture stays behind. -/
def freeCameraMemory (st : ImageProc) : ImageProc := { st with rgb := none }

end ImageProc

structure NativeView where
  proc : ImageProc := {}
  bmp : Bitmap
  deriving DecidableEq, Repr

inductive ImageEvent where
  | frame (jpeg : Option JpegImage) (granted : Bool)
  | free
  | bitmap (bmp : Bitmap)

def NativeView.step (st : NativeView) : ImageEvent → Option NativeView
  | .frame jpeg granted =>
    match st.proc.pixeltobmp granted jpeg st.bmp with
    | .ok (_, proc, bmp) => some ⟨proc, bmp⟩
    | .error _ => none
  | .free => some { st with proc := st.proc.freeCameraMemory }
  | .bitmap bmp => some { st with bmp := bmp }

def delivered : Nat → List ScanRead → List (List UInt8)
  | n + 1, .row samples :: reads => samples :: delivered n reads
  | _, _ => []

def dataEnds : Nat → List ScanRead → Bool
  | _ + 1, [] => true
  | n + 1, .row _ :: reads => dataEnds n reads
  | _, _ => false

/-- What decoding makes of a frame: the size of its image, the rows that arrive, and whether the
data ends before them. -/
structure Decoded where
  width : Nat
  height : Nat
  rows : List (List UInt8)
  ended : Bool
  deriving DecidableEq, Repr

def Decoded.pixel (d : Decoded) (x r : Nat) : Option UInt32 :=
  d.rows[r]?.bind fun samples => pixelAt samples (3 * x)

def JpegImage.loaded (image : JpegImage) : HuffTables :=
  odmlEntries.foldl DhtEntry.install image.tables

def JpegImage.decoded (image : JpegImage) : Option Decoded :=
  (image.start image.loaded).map fun reads =>
    ⟨image.image_width, image.image_height, delivered image.image_height reads,
      dataEnds image.image_height reads⟩

section Loops
variable {width image_width height : Nat} {samples : List UInt8} {reads : List ScanRead}
  {rgb : List (Option UInt32)}

theorem exists_pixelAt (samples : List UInt8) (x3 : Nat) (h : x3 + 3 ≤ samples.length) :
    ∃ pixel, pixelAt samples x3 = some pixel := by
  rcases hd : samples.drop x3 with - | ⟨red, - | ⟨green, - | ⟨blue, rest⟩⟩⟩
  all_goals
    have hlen := congrArg List.length hd
    simp only [List.length_drop, List.length_nil, List.length_cons] at hlen
  · omega
  · omega
  · omega
  · exact ⟨pixelOf red green blue, by rw [pixelAt, hd]⟩

theorem pixelAt_none {x3 : Nat} (h : samples.length ≤ x3) : pixelAt samples x3 = none := by
  rw [pixelAt, List.drop_of_length_le h]

theorem writePixels_ok (width y fuel xx : Nat) (rgb : List (Option UInt32))
    (hs : samples.length = 3 * image_width) (hf : width ≤ xx + fuel)
    (hy : y + min width image_width ≤ rgb.length) :
    ∃ rgb', ImageProc.writePixels width (3 * image_width) samples y fuel xx rgb = .ok rgb' ∧
      rgb'.length = rgb.length ∧ ∀ i, rgb'[i]?.join =
        if y + xx ≤ i ∧ i < y + width then (pixelAt samples (3 * (i - y))).or rgb[i]?.join
        else rgb[i]?.join := by
  induction fuel generalizing xx rgb with
  | zero =>
    refine ⟨rgb, rfl, rfl, fun i => ?_⟩
    rw [if_neg (by omega)]
  | succ fuel ih =>
    by_cases hxx : xx < width ∧ 3 * xx < 3 * image_width
    · obtain ⟨pixel, hp⟩ := exists_pixelAt samples (3 * xx) (by omega)
      have hin : y + xx < rgb.length := by omega
      have hstep : ImageProc.writePixels width (3 * image_width) samples y (fuel + 1) xx rgb =
          ImageProc.writePixels width (3 * image_width) samples y fuel (xx + 1)
            (rgb.set (y + xx) (some pixel)) := by
        simp only [ImageProc.writePixels, hxx, and_self, if_true, hp, hin]
      obtain ⟨rgb', hrun, hlen, hcell⟩ := ih (xx + 1)
        (rgb.set (y + xx) (some pixel)) (by omega) (by rw [List.length_set]; exact hy)
      refine ⟨rgb', hstep.trans hrun, by rw [hlen, List.length_set], fun i => ?_⟩
      rw [hcell]
      by_cases hi : i = y + xx
      · subst hi
        rw [if_neg (by omega), if_pos (by omega), List.getElem?_set_self hin, Nat.add_sub_cancel_left,
          hp, Option.join_some, Option.some_or]
      · rw [List.getElem?_set_ne (by omega)]
        by_cases hr : y + xx ≤ i ∧ i < y + width
        · rw [if_pos hr, if_pos (by omega)]
        · rw [if_neg hr, if_neg (by omega)]
    · refine ⟨rgb, by rw [ImageProc.writePixels, if_neg hxx], rfl, fun i => ?_⟩
      split_ifs with hi
      · rw [pixelAt_none (by omega), Option.none_or]
      · rfl

theorem writePixels_overrun (width y fuel xx : Nat) (rgb : List (Option UInt32))
    (hs : samples.length = 3 * image_width) (hf : width ≤ xx + fuel)
    (hxx : xx < min width image_width) (hy : rgb.length < y + min width image_width) :
    ImageProc.writePixels width (3 * image_width) samples y fuel xx rgb = .error .overrun := by
  induction fuel generalizing xx rgb with
  | zero => omega
  | succ fuel ih =>
    obtain ⟨pixel, hp⟩ := exists_pixelAt samples (3 * xx) (by omega)
    have hin : xx < width ∧ 3 * xx < 3 * image_width := by omega
    simp only [ImageProc.writePixels, hin, and_self, if_true, hp]
    split_ifs with hlen
    · exact ih (xx + 1) _ (by omega) (by omega) (by rwa [List.length_set])
    · rfl

/-- `rgb'` is `rgb` with rows written one below the other from `y` on. -/
structure Painted (width y : Nat) (rows : List (List UInt8)) (rgb rgb' : List (Option UInt32)) :
    Prop where
  length : rgb'.length = rgb.length
  above : ∀ i < y, rgb'[i]?.join = rgb[i]?.join
  cells : ∀ r, ∀ x < width, rgb'[y + r * width + x]?.join =
    (rows[r]?.bind fun samples => pixelAt samples (3 * x)).or rgb[y + r * width + x]?.join

theorem painted_nothing (width y : Nat) (rgb : List (Option UInt32)) :
    Painted width y [] rgb rgb := by
  refine ⟨rfl, fun i _ => rfl, fun r x _ => ?_⟩
  rw [List.getElem?_nil, Option.bind_none, Option.none_or]

theorem Painted.cons {y : Nat} {rows : List (List UInt8)} {mid rgb' : List (Option UInt32)}
    (h : Painted width (y + width) rows mid rgb') (hlen : mid.length = rgb.length)
    (hmid : ∀ i, mid[i]?.join = if y + 0 ≤ i ∧ i < y + width then
      (pixelAt samples (3 * (i - y))).or rgb[i]?.join else rgb[i]?.join) :
    Painted width y (samples :: rows) rgb rgb' := by
  refine ⟨h.length.trans hlen, fun i hi => ?_, fun r x hx => ?_⟩
  · rw [h.above i (by omega), hmid, if_neg (by omega)]
  · cases r with
    | zero =>
      rw [Nat.zero_mul, Nat.add_zero, h.above _ (by omega), hmid, if_pos (by omega),
        Nat.add_sub_cancel_left, List.getElem?_cons_zero, Option.bind_some]
    | succ r =>
      have hpos : y + (r + 1) * width + x = y + width + r * width + x := by
        rw [Nat.add_mul]
        omega
      rw [hpos, h.cells r x hx, hmid, if_neg (by omega), List.getElem?_cons_succ]

theorem add_pred_mul {β : Type} (y width : Nat) {rows : List β} (h : rows ≠ []) :
    y + width + (rows.length - 1) * width = y + rows.length * width := by
  obtain ⟨k, hk⟩ : ∃ k, rows.length = k + 1 :=
    ⟨rows.length - 1, by have := List.length_pos_of_ne_nil h; omega⟩
  rw [hk, Nat.add_sub_cancel, Nat.add_mul]
  omega

theorem readScanlines_ok (n o y : Nat) (rgb : List (Option UInt32))
    (hrows : ∀ samples, .row samples ∈ reads → samples.length = 3 * image_width)
    (hend : dataEnds n reads = false) (ho : o + n = height)
    (hfit : delivered n reads ≠ [] →
      y + ((delivered n reads).length - 1) * width + min width image_width ≤ rgb.length) :
    ∃ rgb', ImageProc.readScanlines width (3 * image_width) height reads o y rgb = .ok rgb' ∧
      Painted width y (delivered n reads) rgb rgb' := by
  induction reads generalizing n o y rgb with
  | nil =>
    cases n with
    | succ n => cases hend
    | zero => exact ⟨rgb, if_neg (by omega), painted_nothing width y rgb⟩
  | cons read reads ih =>
    cases read with
    | failed =>
      refine ⟨rgb, rfl, ?_⟩
      rw [delivered]
      · exact painted_nothing width y rgb
      · simp
    | row samples =>
      cases n with
      | zero => exact ⟨rgb, if_neg (by omega), painted_nothing width y rgb⟩
      | succ n =>
        have hlast := hfit (by simp [delivered])
        rw [delivered, List.length_cons, Nat.add_sub_cancel] at hlast
        have hs := hrows samples List.mem_cons_self
        obtain ⟨mid, hmid, hmlen, hmcell⟩ := writePixels_ok width y width 0 rgb hs
          (by omega) (by omega)
        obtain ⟨rgb', hrun, hpaint⟩ := ih n (o + 1) (y + width) mid
          (fun s h => hrows s (List.mem_cons_of_mem _ h)) hend (by omega) fun hne => by
            rw [hmlen, add_pred_mul y width hne]
            exact hlast
        refine ⟨rgb', ?_, ?_⟩
        · simp only [ImageProc.readScanlines, show o < height by omega, if_true, hmid, bind,
            Except.bind, hrun]
        · rw [delivered]
          exact hpaint.cons hmlen hmcell

/-- Data that ends early, and rows that end outside the memory, leave it. -/
theorem readScanlines_overrun (n o y : Nat) (rgb : List (Option UInt32))
    (hrows : ∀ samples, .row samples ∈ reads → samples.length = 3 * image_width)
    (hw : 0 < width) (hi : 0 < image_width) (ho : o + n = height)
    (hbad : dataEnds n reads = true ∨ delivered n reads ≠ [] ∧
      rgb.length < y + ((delivered n reads).length - 1) * width + min width image_width) :
    ImageProc.readScanlines width (3 * image_width) height reads o y rgb = .error .overrun := by
  induction reads generalizing n o y rgb with
  | nil =>
    cases n with
    | zero => simp [dataEnds, delivered] at hbad
    | succ n => exact if_pos (by omega)
  | cons read reads ih =>
    cases read with
    | failed => cases n <;> simp [dataEnds, delivered] at hbad
    | row samples =>
      have hs := hrows samples List.mem_cons_self
      cases n with
      | zero => simp [dataEnds, delivered] at hbad
      | succ n =>
        rw [dataEnds, delivered, List.length_cons, Nat.add_sub_cancel] at hbad
        by_cases hfits : y + min width image_width ≤ rgb.length
        · obtain ⟨mid, hmid, hmlen, -⟩ := writePixels_ok width y width 0 rgb hs
            (by omega) hfits
          have hbad' : dataEnds n reads = true ∨ delivered n reads ≠ [] ∧ mid.length <
              y + width + ((delivered n reads).length - 1) * width + min width image_width := by
            refine hbad.imp_right fun ⟨_, hlong⟩ => ?_
            have hne : delivered n reads ≠ [] := by
              intro hnil
              rw [hnil, List.length_nil] at hlong
              omega
            exact ⟨hne, by rwa [hmlen, add_pred_mul y width hne]⟩
          have hrest := ih n (o + 1) (y + width) mid
            (fun s h => hrows s (List.mem_cons_of_mem _ h)) (by omega) hbad'
          simp only [ImageProc.readScanlines, show o < height by omega, if_true, hmid, bind,
            Except.bind, hrest]
        · have hout := writePixels_overrun width y width 0 rgb hs (by omega) (by omega)
            (by omega)
          simp only [ImageProc.readScanlines, show o < height by omega, if_true, hout, bind,
            Except.bind]

theorem copyPixels_ok (n : Nat) {i : Nat} {colors : List (Option UInt32)}
    (hr : rgb.length = i + n) (hc : colors.length = i + n) (hi : colors.take i = rgb.take i) :
    ImageProc.copyPixels rgb n i colors = .ok rgb := by
  induction n generalizing i colors with
  | zero =>
    rw [List.take_of_length_le (by omega), List.take_of_length_le (by omega)] at hi
    rw [ImageProc.copyPixels, hi]
  | succ n ih =>
    have hget : rgb[i]? = some rgb[i] := List.getElem?_eq_getElem (by omega)
    have hin : i < colors.length := by omega
    simp only [ImageProc.copyPixels, hget, hin, if_true]
    refine ih (by omega) (by rw [List.length_set]; omega) ?_
    rw [List.take_add_one, List.take_add_one, List.take_set_of_le (Nat.le_refl i), hi,
      List.getElem?_set_self hin, hget]

theorem copyPixels_freed {n : Nat} (colors : List (Option UInt32)) (hn : 0 < n) :
    ImageProc.copyPixels [] n 0 colors = .error .overrun := by
  obtain ⟨m, rfl⟩ : ∃ m, n = m + 1 := ⟨n - 1, by omega⟩
  rfl

end Loops

/-- A bitmap as Android makes it; the size of its pixels is an `int`. -/
structure Bitmap.Sound (bmp : Bitmap) : Prop where
  width_pos : 0 < bmp.width
  height_pos : 0 < bmp.height
  length : bmp.pixels.length = bmp.width * bmp.height
  size : bmp.rgba8888 = true → 4 * (bmp.width * bmp.height) < 2 ^ 31

def Bitmap.Fits (bmp : Bitmap) (st : ImageProc) : Prop :=
  bmp.rgba8888 = true ∧ (bmp.width : Int) = st.IMG_WIDTH ∧ (bmp.height : Int) = st.IMG_HEIGHT

namespace ImageEvent

def Sound : ImageEvent → Prop
  | .bitmap bmp => bmp.Sound
  | _ => True

def record (h : List Decoded) : ImageEvent → List Decoded
  | .frame jpeg granted => (jpeg.bind JpegImage.decoded).elim h fun d =>
      if h = [] ∧ granted = false then [] else d :: h
  | .free => []
  | .bitmap _ => h

/-- The images decoded since the memory was freed last, from the first that was given memory on,
the newest first. -/
def history (es : List ImageEvent) : List Decoded := es.foldl record []

end ImageEvent

/-- The rows of an image, written `width` pixels apart, end within `size` pixels. -/
def Decoded.Within (d : Decoded) (width size : Nat) : Prop :=
  d.rows ≠ [] → (d.rows.length - 1) * width + min width d.width ≤ size

/-- The frames that leave no memory: the data of one that decodes does not end early, and its rows
end within the picture's memory; and no bitmap of the picture's size is there when no memory is. -/
def NativeView.Harmless (v : NativeView) : ImageEvent → Prop
  | .frame jpeg granted =>
    match jpeg.bind JpegImage.decoded with
    | none => v.proc.rgb = none → ¬ v.bmp.Fits v.proc
    | some d =>
      let st := v.proc.allocate d.width d.height granted
      d.ended = false ∧ d.Within st.IMG_WIDTH.toNat (st.rgb.getD []).length ∧
        (st.rgb = none → ¬ v.bmp.Fits st)
  | _ => True

/-- `rgb` has the size of the first of the images decoded, as far as `malloc` was told it, and
shows at each place the newest of them that has a row there. -/
structure Picture (first : Decoded) (h : List Decoded) (st : ImageProc)
    (rgb : List (Option UInt32)) : Prop where
  held : st.rgb = some rgb
  width : st.IMG_WIDTH = first.width
  height : st.IMG_HEIGHT = first.height
  width_pos : 0 < first.width
  length : rgb.length = first.width * first.height % 2 ^ 30
  cells : ∀ r, ∀ x < first.width,
    rgb[r * first.width + x]?.join = h.findSome? fun d => d.pixel x r

/-- What the globals hold after images. -/
def Holds (h : List Decoded) (st : ImageProc) : Prop :=
  (h = [] ∧ st.rgb = none) ∨ ∃ first rgb, h.getLast? = some first ∧ Picture first h st rgb

section Frames
variable {image : JpegImage} {jpeg : Option JpegImage} {reads : List ScanRead}
  {d first : Decoded} {h : List Decoded} {st mid st' : ImageProc} {rgb : List (Option UInt32)}
  {bmp : Bitmap} {granted : Bool}

theorem decoded_eq_some (hd : image.decoded = some d) :
    ∃ reads, image.start image.loaded = some reads ∧
      d = ⟨image.image_width, image.image_height, delivered image.image_height reads,
        dataEnds image.image_height reads⟩ := by
  rw [JpegImage.decoded, Option.map_eq_some_iff] at hd
  obtain ⟨reads, hr, hd⟩ := hd
  exact ⟨reads, hr, hd.symm⟩

theorem processimage_undecoded (st : ImageProc) (granted : Bool)
    (hd : jpeg.bind JpegImage.decoded = none) : st.processimage granted jpeg = .ok st := by
  cases jpeg with
  | none => rfl
  | some image =>
    rw [Option.bind_some, JpegImage.decoded, Option.map_eq_none_iff] at hd
    have hstart : image.start (odmlEntries.foldl DhtEntry.install image.tables) = none := hd
    simp only [ImageProc.processimage, load_odml, bind, Except.bind, hstart]

theorem processimage_decoded (hr : image.start image.loaded = some reads)
    (ha : st.allocate image.image_width image.image_height granted = mid) :
    st.processimage granted (some image) =
      (ImageProc.readScanlines mid.IMG_WIDTH.toNat (3 * image.image_width) image.image_height reads
        0 0 (mid.rgb.getD [])).map fun rgb => { mid with rgb := mid.rgb.map fun _ => rgb } := by
  have hstart : image.start (odmlEntries.foldl DhtEntry.install image.tables) = some reads := hr
  have hstride : image.image_width * image.num_components = 3 * image.image_width := by
    rw [image.components _ _ hr, Nat.mul_comm]
  simp only [ImageProc.processimage, load_odml, bind, Except.bind, hstart, hstride, ha]
  cases ImageProc.readScanlines mid.IMG_WIDTH.toNat (3 * image.image_width) image.image_height
    reads 0 0 (mid.rgb.getD []) <;> rfl

theorem image_rows (hr : image.start image.loaded = some reads) (samples : List UInt8)
    (hmem : .row samples ∈ reads) : samples.length = 3 * image.image_width :=
  image.row_length _ _ samples hr hmem

theorem processimage_within (hd : image.decoded = some d)
    (ha : st.allocate d.width d.height granted = mid) (hend : d.ended = false)
    (hfit : d.Within mid.IMG_WIDTH.toNat (mid.rgb.getD []).length) :
    ∃ rgb, st.processimage granted (some image) =
        .ok { mid with rgb := mid.rgb.map fun _ => rgb } ∧
      Painted mid.IMG_WIDTH.toNat 0 d.rows (mid.rgb.getD []) rgb := by
  obtain ⟨reads, hr, rfl⟩ := decoded_eq_some hd
  obtain ⟨rgb, hrun, hpaint⟩ := readScanlines_ok image.image_height 0 0 (mid.rgb.getD [])
    (image_rows hr) hend (Nat.zero_add _) fun hne => by
      rw [Nat.zero_add]
      exact hfit hne
  exact ⟨rgb, by rw [processimage_decoded hr ha, hrun]; rfl, hpaint⟩

theorem processimage_overruns (hd : image.decoded = some d)
    (ha : st.allocate d.width d.height granted = mid) (hw : 0 < mid.IMG_WIDTH.toNat)
    (hbad : d.ended = true ∨ ¬ d.Within mid.IMG_WIDTH.toNat (mid.rgb.getD []).length) :
    st.processimage granted (some image) = .error .overrun := by
  obtain ⟨reads, hr, rfl⟩ := decoded_eq_some hd
  have hout := readScanlines_overrun image.image_height 0 0 (mid.rgb.getD []) (image_rows hr) hw
    image.width_pos (Nat.zero_add _) (hbad.imp_right fun hno => by
      rw [Nat.zero_add]
      simpa [Decoded.Within] using hno)
  rw [processimage_decoded hr ha, hout]
  rfl

theorem decoded_width_pos (hd : image.decoded = some d) : 0 < d.width := by
  obtain ⟨reads, -, rfl⟩ := decoded_eq_some hd
  exact image.width_pos

theorem Holds.picture (hh : Holds h st) (hrgb : st.rgb = some rgb) :
    ∃ first, h.getLast? = some first ∧ Picture first h st rgb := by
  rcases hh with ⟨-, hnone⟩ | ⟨first, rgb', hlast, hp⟩
  · rw [hnone] at hrgb
    cases hrgb
  · rw [hp.held, Option.some_inj] at hrgb
    rw [hrgb] at hp
    exact ⟨first, hlast, hp⟩

theorem Picture.fits_iff (hp : Picture first h st rgb) : bmp.Fits st ↔
    bmp.rgba8888 = true ∧ bmp.width = first.width ∧ bmp.height = first.height := by
  rw [Bitmap.Fits, hp.width, hp.height, Int.natCast_inj, Int.natCast_inj]

/-- Before its rows are read, an image finds memory of the size of the first one, or was refused
memory of its own. -/
theorem allocated_cases (hh : Holds h st) (hd : image.decoded = some d) (granted : Bool) :
    (∃ first rgb, ImageEvent.record h (.frame (some image) granted) = d :: h ∧
      (d :: h).getLast? = some first ∧
      Picture first h (st.allocate d.width d.height granted) rgb) ∨
    (ImageEvent.record h (.frame (some image) granted) = [] ∧
      st.allocate d.width d.height granted = ⟨d.width, d.height, none⟩) := by
  have hbind : (some image).bind JpegImage.decoded = some d := hd
  simp only [ImageEvent.record, hbind, Option.elim_some]
  rcases hh with ⟨rfl, hnone⟩ | ⟨first, rgb, hlast, hp⟩
  · cases granted with
    | false => exact .inr ⟨rfl, by rw [ImageProc.allocate, hnone]; rfl⟩
    | true =>
      refine .inl ⟨d, List.replicate (d.width * d.height % 2 ^ 30) none, rfl, rfl, ?_⟩
      rw [ImageProc.allocate, hnone]
      refine ⟨rfl, rfl, rfl, decoded_width_pos hd, List.length_replicate, fun r x _ => ?_⟩
      rw [List.getElem?_replicate, List.findSome?_nil]
      split_ifs <;> rfl
  · have hne : h ≠ [] := by
      rintro rfl
      cases hlast
    refine .inl ⟨first, rgb, if_neg fun hno => hne hno.1, ?_, ?_⟩
    · rw [List.getLast?_cons, hlast]
      rfl
    · rw [ImageProc.allocate, hp.held]
      exact hp

theorem Picture.painted (hp : Picture first h st rgb) {rgb' : List (Option UInt32)}
    (hpaint : Painted first.width 0 d.rows rgb rgb') :
    Picture first (d :: h) { st with rgb := some rgb' } rgb' := by
  refine ⟨rfl, hp.width, hp.height, hp.width_pos, hpaint.length.trans hp.length, fun r x hx => ?_⟩
  have hpos := hpaint.cells r x hx
  rw [Nat.zero_add] at hpos
  rw [hpos, hp.cells r x hx, List.findSome?_cons, Decoded.pixel]
  cases d.rows[r]?.bind fun samples => pixelAt samples (3 * x) <;> rfl

theorem pixeltobmp_other (hp : st.processimage granted jpeg = .ok st') (hf : ¬ bmp.Fits st') :
    st.pixeltobmp granted jpeg bmp = .ok (-1, st', bmp) := by
  simp only [ImageProc.pixeltobmp, hp, bind, Except.bind]
  by_cases hformat : bmp.rgba8888 = false
  · rw [if_pos hformat]
  · rw [if_neg hformat]
    have hsize : (bmp.width : Int) ≠ st'.IMG_WIDTH ∨ (bmp.height : Int) ≠ st'.IMG_HEIGHT := by
      rw [← not_and_or]
      rintro ⟨hw, hh⟩
      exact hf ⟨by simpa using hformat, hw, hh⟩
    rw [if_pos hsize]

theorem pixeltobmp_fits (hp : st.processimage granted jpeg = .ok st') (hb : bmp.Sound)
    (hf : bmp.Fits st') :
    st.pixeltobmp granted jpeg bmp = (ImageProc.copyPixels (st'.rgb.getD [])
      (bmp.width * bmp.height) 0 bmp.pixels).map fun pixels =>
        (0, st', { bmp with pixels := pixels }) := by
  obtain ⟨hformat, hw, hh⟩ := hf
  have hsize : ¬ ((bmp.width : Int) ≠ st'.IMG_WIDTH ∨ (bmp.height : Int) ≠ st'.IMG_HEIGHT) := by
    omega
  have hcount : ((st'.IMG_WIDTH * st'.IMG_HEIGHT).bmod (2 ^ 32)).toNat =
      bmp.width * bmp.height := by
    have hbytes := hb.size hformat
    rw [← hw, ← hh, ← Int.natCast_mul, Int.bmod_eq_of_le, Int.toNat_natCast] <;> omega
  simp only [ImageProc.pixeltobmp, hp, bind, Except.bind, hformat, hcount]
  rw [if_neg (by simp), if_neg hsize]
  cases ImageProc.copyPixels (st'.rgb.getD []) (bmp.width * bmp.height) 0 bmp.pixels <;> rfl

theorem Picture.length_of_fits (hp : Picture first h st rgb) (hb : bmp.Sound) (hf : bmp.Fits st) :
    rgb.length = bmp.width * bmp.height := by
  obtain ⟨hformat, hw, hh⟩ := hp.fits_iff.mp hf
  have hbytes := hb.size hformat
  rw [hp.length, ← hw, ← hh, Nat.mod_eq_of_lt (by omega)]

theorem pixeltobmp_picture (hp : st.processimage granted jpeg = .ok st')
    (hpic : Picture first h st' rgb) (hb : bmp.Sound) (hf : bmp.Fits st') :
    st.pixeltobmp granted jpeg bmp = .ok (0, st', { bmp with pixels := rgb }) := by
  have hlen := hpic.length_of_fits hb hf
  have hcopy : ImageProc.copyPixels rgb (bmp.width * bmp.height) 0 bmp.pixels = .ok rgb :=
    copyPixels_ok _ (by omega) (by rw [hb.length, Nat.zero_add]) rfl
  rw [pixeltobmp_fits hp hb hf, hpic.held, Option.getD_some, hcopy]
  rfl

theorem pixeltobmp_freed (hp : st.processimage granted jpeg = .ok st') (hn : st'.rgb = none)
    (hb : bmp.Sound) (hf : bmp.Fits st') : st.pixeltobmp granted jpeg bmp = .error .overrun := by
  rw [pixeltobmp_fits hp hb hf, hn, Option.getD_none,
    copyPixels_freed bmp.pixels (Nat.mul_pos hb.width_pos hb.height_pos)]
  rfl

theorem pixeltobmp_cases (hp : st.processimage granted jpeg = .ok st') (hh : Holds h st')
    (hb : bmp.Sound) :
    ((st'.rgb = none → ¬ bmp.Fits st') ∧
      ((∃ rgb, bmp.Fits st' ∧ st'.rgb = some rgb ∧
        st.pixeltobmp granted jpeg bmp = .ok (0, st', { bmp with pixels := rgb })) ∨
      (¬ bmp.Fits st' ∧ st.pixeltobmp granted jpeg bmp = .ok (-1, st', bmp)))) ∨
    (¬ (st'.rgb = none → ¬ bmp.Fits st') ∧
      st.pixeltobmp granted jpeg bmp = .error .overrun) := by
  by_cases hf : bmp.Fits st'
  · cases hrgb : st'.rgb with
    | none => exact .inr ⟨fun hno => hno rfl hf, pixeltobmp_freed hp hrgb hb hf⟩
    | some rgb =>
      obtain ⟨first, -, hpic⟩ := hh.picture hrgb
      exact .inl ⟨fun hno => (by cases hno), .inl ⟨rgb, hf, rfl, pixeltobmp_picture hp hpic hb hf⟩⟩
  · exact .inl ⟨fun _ => hf, .inr ⟨hf, pixeltobmp_other hp hf⟩⟩

theorem processimage_holds (hh : Holds h st) (hd : image.decoded = some d)
    (hend : d.ended = false) (ha : st.allocate d.width d.height granted = mid)
    (hfit : d.Within mid.IMG_WIDTH.toNat (mid.rgb.getD []).length) :
    ∃ st', st.processimage granted (some image) = .ok st' ∧
      Holds (ImageEvent.record h (.frame (some image) granted)) st' ∧
      (st'.rgb = none ↔ mid.rgb = none) ∧ ∀ bmp : Bitmap, bmp.Fits st' ↔ bmp.Fits mid := by
  obtain ⟨rgb', hproc, hpaint⟩ := processimage_within hd ha hend hfit
  refine ⟨_, hproc, ?_, by simp, fun _ => Iff.rfl⟩
  rcases allocated_cases hh hd granted with ⟨first, rgb, hrec, hfirst, hp⟩ | ⟨hrec, hnone⟩
  · rw [ha] at hp
    rw [hp.width, hp.held, Int.toNat_natCast, Option.getD_some] at hpaint
    rw [hrec, hp.held]
    exact .inr ⟨first, rgb', hfirst, hp.painted hpaint⟩
  · rw [hrec, ← ha, hnone]
    exact .inl ⟨rfl, rfl⟩

theorem allocated_width_pos (hh : Holds h st) (hd : image.decoded = some d)
    (ha : st.allocate d.width d.height granted = mid) : 0 < mid.IMG_WIDTH.toNat := by
  rcases allocated_cases hh hd granted with ⟨first, rgb, -, -, hp⟩ | ⟨-, hnone⟩
  · rw [ha] at hp
    rw [hp.width, Int.toNat_natCast]
    exact hp.width_pos
  · rw [← ha, hnone, Int.toNat_natCast]
    exact decoded_width_pos hd

/-- What a frame comes to: it shows the picture, leaves a bitmap of another size as it was, or is
written or read past the memory. -/
theorem frame_cases {v : NativeView} (jpeg : Option JpegImage) (granted : Bool)
    (hh : Holds h v.proc) (hb : v.bmp.Sound) :
    (v.Harmless (.frame jpeg granted) ∧
      ∃ proc, Holds (ImageEvent.record h (.frame jpeg granted)) proc ∧
        ((∃ rgb, v.bmp.Fits proc ∧ proc.rgb = some rgb ∧
          v.proc.pixeltobmp granted jpeg v.bmp = .ok (0, proc, { v.bmp with pixels := rgb })) ∨
        (¬ v.bmp.Fits proc ∧ v.proc.pixeltobmp granted jpeg v.bmp = .ok (-1, proc, v.bmp)))) ∨
    (¬ v.Harmless (.frame jpeg granted) ∧
      v.proc.pixeltobmp granted jpeg v.bmp = .error .overrun) := by
  rcases hd : jpeg.bind JpegImage.decoded with - | d
  · have hrec : ImageEvent.record h (.frame jpeg granted) = h := by
      rw [ImageEvent.record, hd]
      rfl
    simp only [hrec, NativeView.Harmless, hd]
    rcases pixeltobmp_cases (processimage_undecoded v.proc granted hd) hh hb with
      ⟨hharm, hcases⟩ | herr
    · exact .inl ⟨hharm, v.proc, hh, hcases⟩
    · exact .inr herr
  · cases jpeg with
    | none => cases hd
    | some image =>
      have hdec : image.decoded = some d := hd
      obtain ⟨mid, ha⟩ : ∃ mid, v.proc.allocate d.width d.height granted = mid := ⟨_, rfl⟩
      simp only [NativeView.Harmless, hd, ha]
      by_cases hok : d.ended = false ∧ d.Within mid.IMG_WIDTH.toNat (mid.rgb.getD []).length
      · obtain ⟨st', hproc, hst', hrgb, hfits⟩ := processimage_holds hh hdec hok.1 ha hok.2
        have hiff : (st'.rgb = none → ¬ v.bmp.Fits st') ↔ (mid.rgb = none → ¬ v.bmp.Fits mid) := by
          rw [hrgb, hfits]
        refine (pixeltobmp_cases hproc hst' hb).imp ?_ ?_
        · rintro ⟨hharm, hcases⟩
          exact ⟨⟨hok.1, hok.2, hiff.mp hharm⟩, st', hst', hcases⟩
        · rintro ⟨hharm, herr⟩
          exact ⟨fun hno => hharm (hiff.mpr hno.2.2), herr⟩
      · right
        refine ⟨fun hno => hok ⟨hno.1, hno.2.1⟩, ?_⟩
        have hbad : d.ended = true ∨ ¬ d.Within mid.IMG_WIDTH.toNat (mid.rgb.getD []).length := by
          cases hend : d.ended with
          | true => exact .inl rfl
          | false => exact .inr fun hfit => hok ⟨hend, hfit⟩
        rw [ImageProc.pixeltobmp,
          processimage_overruns hdec ha (allocated_width_pos hh hdec ha) hbad]
        rfl

end Frames

section Runs
variable {v v' : NativeView} {e : ImageEvent} {es : List ImageEvent} {h : List Decoded}
  {jpeg : Option JpegImage} {bmp : Bitmap} {granted : Bool}

theorem step_iff_harmless (hh : Holds h v.proc) (hb : v.bmp.Sound) :
    (∃ v', v.step e = some v') ↔ v.Harmless e := by
  cases e with
  | frame jpeg granted =>
    rcases frame_cases jpeg granted hh hb with
      ⟨hharm, proc, -, ⟨rgb, -, -, hrun⟩ | ⟨-, hrun⟩⟩ | ⟨hharm, hrun⟩
    · exact ⟨fun _ => hharm, fun _ => ⟨_, by rw [NativeView.step, hrun]⟩⟩
    · exact ⟨fun _ => hharm, fun _ => ⟨_, by rw [NativeView.step, hrun]⟩⟩
    · refine ⟨?_, fun hno => absurd hno hharm⟩
      rintro ⟨v', hv⟩
      rw [NativeView.step, hrun] at hv
      cases hv
  | free => exact ⟨fun _ => trivial, fun _ => ⟨_, rfl⟩⟩
  | bitmap bmp => exact ⟨fun _ => trivial, fun _ => ⟨_, rfl⟩⟩

theorem step_holds (hh : Holds h v.proc) (hb : v.bmp.Sound) (he : e.Sound)
    (hs : v.step e = some v') : Holds (e.record h) v'.proc ∧ v'.bmp.Sound := by
  cases e with
  | frame jpeg granted =>
    rcases frame_cases jpeg granted hh hb with
      ⟨-, proc, hproc, ⟨rgb, hf, hrgb, hrun⟩ | ⟨-, hrun⟩⟩ | ⟨-, hrun⟩
    · rw [NativeView.step, hrun, Option.some_inj] at hs
      subst hs
      obtain ⟨first, -, hp⟩ := hproc.picture hrgb
      have hlen := hp.length_of_fits hb hf
      exact ⟨hproc, hb.width_pos, hb.height_pos, hlen, hb.size⟩
    · rw [NativeView.step, hrun, Option.some_inj] at hs
      subst hs
      exact ⟨hproc, hb⟩
    · rw [NativeView.step, hrun] at hs
      cases hs
  | free =>
    obtain rfl := Option.some_inj.mp hs
    exact ⟨.inl ⟨rfl, rfl⟩, hb⟩
  | bitmap bmp =>
    obtain rfl := Option.some_inj.mp hs
    exact ⟨hh, he⟩

theorem holds_run {v0 : NativeView} (h0 : v0.proc = {}) (hb : v0.bmp.Sound)
    (hes : ∀ e ∈ es, e.Sound) (hrun : run NativeView.step v0 es = some v) :
    Holds (ImageEvent.history es) v.proc ∧ v.bmp.Sound := by
  rw [ImageEvent.history]
  exact run_history_invariant (I := fun h v => Holds h v.proc ∧ v.bmp.Sound)
    (C := fun _ e => e.Sound) (fun _ _ _ _ hi he hs => step_holds hi.1 hi.2 he hs)
    ⟨.inl ⟨rfl, by rw [h0]⟩, hb⟩ (meets_of_forall hes v0) hrun

/-- A run of frames, of freeings and of new bitmaps stays inside the memory just when none of its
frames ends early or has rows that reach further than the picture's memory, and no bitmap is
filled from memory that was freed or refused. -/
theorem frames_stay_inside_iff (hb : bmp.Sound) (hes : ∀ e ∈ es, e.Sound) :
    (∃ v, run NativeView.step { bmp := bmp } es = some v) ↔
      Meets NativeView.step NativeView.Harmless { bmp := bmp } es := by
  refine exists_run_iff_meets (I := fun v => (∃ h, Holds h v.proc) ∧ v.bmp.Sound) ?_ ?_ ?_ hes
  · rintro v e ⟨⟨h, hh⟩, hv⟩ -
    exact step_iff_harmless hh hv
  · rintro v e v' ⟨⟨h, hh⟩, hv⟩ he hs
    obtain ⟨hh', hv'⟩ := step_holds hh hv he hs
    exact ⟨⟨_, hh'⟩, hv'⟩
  · exact ⟨⟨[], .inl ⟨rfl, rfl⟩⟩, hb⟩

def columnImage (reads : List ScanRead)
    (row_length : ∀ samples, .row samples ∈ reads → samples.length = 3) : JpegImage where
  image_width := 1
  image_height := 2
  num_components := 3
  tables := {}
  start := fun _ => some reads
  width_pos := Nat.one_pos
  height_pos := Nat.two_pos
  components := fun _ _ _ => rfl
  row_length := by
    intro t reads' samples h
    obtain rfl := Option.some_inj.mp h
    exact row_length samples

def column : Bitmap := ⟨1, 2, true, [none, none]⟩

def wholeColumn : JpegImage := columnImage [.row [1, 2, 3], .row [4, 5, 6]] (by simp)

def brokenColumn : JpegImage := columnImage [.row [7, 8, 9], .failed] (by simp)

def shortColumn : JpegImage := columnImage [.row [1, 2, 3]] (by simp)

theorem column_sound : column.Sound :=
  ⟨Nat.one_pos, Nat.two_pos, rfl, fun _ => by decide⟩

theorem frames_stay_inside_iff_column :
    (∃ v, run NativeView.step { bmp := column } [.frame (some wholeColumn) true] = some v) ∧
    ¬ ∃ v, run NativeView.step { bmp := column } [.frame (some shortColumn) true] = some v := by
  constructor
  · rw [frames_stay_inside_iff column_sound (by simp [ImageEvent.Sound])]
    exact ⟨⟨rfl, fun _ => by decide, fun hno => by cases hno⟩, fun _ _ => trivial⟩
  · rw [frames_stay_inside_iff column_sound (by simp [ImageEvent.Sound])]
    rintro ⟨⟨hend, -⟩, -⟩
    cases hend

/-- A frame that leaves no memory is shown just when the bitmap has the size of the first image
that was given memory since it was freed last, and then each place shows the newest image with a row there. -/
theorem frame_shows_newest_rows {r : Int} {proc : ImageProc} {bmp' : Bitmap} (hb : bmp.Sound)
    (hes : ∀ e ∈ es, e.Sound) (hrun : run NativeView.step { bmp := bmp } es = some v)
    (hframe : v.proc.pixeltobmp granted jpeg v.bmp = .ok (r, proc, bmp')) :
    (r = 0 ↔ v.bmp.rgba8888 = true ∧
      ∃ first, (ImageEvent.history (es ++ [.frame jpeg granted])).getLast? = some first ∧
        v.bmp.width = first.width ∧ v.bmp.height = first.height) ∧
    (r = 0 → ∀ x < v.bmp.width, ∀ y < v.bmp.height, bmp'.pixels[y * v.bmp.width + x]?.join =
      (ImageEvent.history (es ++ [.frame jpeg granted])).findSome? fun d => d.pixel x y) ∧
    (r ≠ 0 → bmp' = v.bmp) := by
  obtain ⟨hh, hbmp⟩ := holds_run rfl hb hes hrun
  have hrec : ImageEvent.history (es ++ [.frame jpeg granted]) =
      ImageEvent.record (ImageEvent.history es) (.frame jpeg granted) := by
    rw [ImageEvent.history, List.foldl_append, List.foldl_cons, List.foldl_nil, ImageEvent.history]
  rw [hrec]
  rcases frame_cases jpeg granted hh hbmp with
    ⟨-, proc', hproc, ⟨rgb, hf, hrgb, hok⟩ | ⟨hf, hok⟩⟩ | ⟨-, herr⟩
  · rw [hok] at hframe
    simp only [Except.ok.injEq, Prod.mk.injEq] at hframe
    obtain ⟨rfl, rfl, rfl⟩ := hframe
    obtain ⟨first, hlast, hp⟩ := hproc.picture hrgb
    obtain ⟨hformat, hw, hheight⟩ := hp.fits_iff.mp hf
    refine ⟨⟨fun _ => ⟨hformat, first, hlast, hw, hheight⟩, fun _ => rfl⟩, ?_, ?_⟩
    · intro _ x hx y hy
      rw [hw] at hx ⊢
      exact hp.cells y x hx
    · intro hne
      exact absurd rfl hne
  · rw [hok] at hframe
    simp only [Except.ok.injEq, Prod.mk.injEq] at hframe
    obtain ⟨rfl, rfl, rfl⟩ := hframe
    refine ⟨⟨fun hzero => (by cases hzero), ?_⟩, fun hzero => (by cases hzero), fun _ => rfl⟩
    rintro ⟨hformat, first, hlast, hw, hheight⟩
    rcases hproc with ⟨hnil, -⟩ | ⟨first', rgb, hlast', hp⟩
    · rw [hnil] at hlast
      cases hlast
    · obtain rfl : first' = first := by
        rw [hlast'] at hlast
        exact Option.some_inj.mp hlast
      exact absurd (hp.fits_iff.mpr ⟨hformat, hw, hheight⟩) hf
  · rw [herr] at hframe
    cases hframe

def shownColumn : NativeView where
  proc := ⟨1, 2, some [some (pixelOf 1 2 3), some (pixelOf 4 5 6)]⟩
  bmp := ⟨1, 2, true, [some (pixelOf 1 2 3), some (pixelOf 4 5 6)]⟩

theorem frame_shows_newest_rows_column : ∃ proc bmp',
    shownColumn.proc.pixeltobmp true (some brokenColumn) shownColumn.bmp = .ok (0, proc, bmp') ∧
      bmp'.pixels[0]?.join = some (pixelOf 7 8 9) ∧
      bmp'.pixels[1]?.join = some (pixelOf 4 5 6) := by
  have hrun : run NativeView.step { bmp := column } [.frame (some wholeColumn) true] =
      some shownColumn := by decide +kernel
  have hframe : shownColumn.proc.pixeltobmp true (some brokenColumn) shownColumn.bmp =
      .ok (0, ⟨1, 2, some [some (pixelOf 7 8 9), some (pixelOf 4 5 6)]⟩,
        ⟨1, 2, true, [some (pixelOf 7 8 9), some (pixelOf 4 5 6)]⟩) := by
    simp only [ImageProc.pixeltobmp, ImageProc.processimage, load_odml, bind, Except.bind]
    rfl
  obtain ⟨-, hshown, -⟩ := frame_shows_newest_rows column_sound (by simp [ImageEvent.Sound])
    hrun hframe
  refine ⟨_, _, hframe, ?_, ?_⟩
  · exact hshown rfl 0 Nat.one_pos 0 Nat.two_pos
  · exact hshown rfl 0 Nat.one_pos 1 Nat.one_lt_two

end Runs

end CameraClient
