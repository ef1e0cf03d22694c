import ClipboardHelper.Library.Layout

/-!
# Device-independent bitmaps

`BuildCfDibV5Payload` puts an image on the clipboard behind a
`BITMAPV5HEADER`, with the height negated for rows from the top down.
`ReadClipboardDibToBgra` reads what any application has put there through a
`BITMAPINFOHEADER`: rows in either order, with 24 or 32 bits a pixel, each
row filled up to a multiple of four bytes.

* **`dib_read_back`**: what is built is read back as it was;
* **`readDib_wellFormed`**: whatever is read, the image has its dimensions
  inside the cap and four bytes for each pixel, all taken from inside the
  blob.
-/

namespace DibFormat

open Library

/-- `BgraImage`: 32 bits a pixel, rows from the top down, no padding. -/
structure BgraImage where
  width : Nat
  height : Nat
  pixels : Bytes
deriving DecidableEq, Repr

def kMaxImageDimension : Nat := 16384
def sizeofBitmapInfoHeader : Nat := 40
def sizeofBitmapV5Header : Nat := 124
def biRgb : Nat := 0
def biBitfields : Nat := 3
def sRgb : Nat := 0x73524742
def lcsGmGraphics : Nat := 2

/-- The four bytes of a field as a `LONG`. -/
def toLong (n : Nat) : Int := if n < 2 ^ 31 then n else (n : Int) - 2 ^ 32

/-- A `LONG` as what its four bytes hold. -/
def ofLong (n : Int) : Nat := (n % 2 ^ 32).toNat

def longMin : Int := -2 ^ 31

/-! ## Building -/

/-- The fields of the `BITMAPV5HEADER`, in the order of the structure. -/
def bitmapV5Header (width height : Int) (expectedLen : Nat) : List (Nat × Nat) :=
  [(4, sizeofBitmapV5Header), (4, ofLong width), (4, ofLong (-height)), (2, 1), (2, 32),
    (4, biBitfields), (4, expectedLen),
    -- resolution and palette are not set
    (4, 0), (4, 0), (4, 0), (4, 0),
    (4, 0x00FF0000), (4, 0x0000FF00), (4, 0x000000FF), (4, 0xFF000000), (4, sRgb),
    -- endpoints and gamma
    (36, 0), (4, 0), (4, 0), (4, 0),
    (4, lcsGmGraphics), (4, 0), (4, 0), (4, 0)]

/-- `BuildCfDibV5Payload`; `bgraPixels` is `none` for a null pointer. -/
def buildCfDibV5Payload (width height : Int) (bgraPixels : Option Bytes) (pixelBytesLen : Nat) :
    Bytes :=
  if width ≤ 0 ∨ height ≤ 0 then []
  else if kMaxImageDimension < width ∨ kMaxImageDimension < height then []
  else
    let stride := width.toNat * 4
    let expectedLen := stride * height.toNat
    if pixelBytesLen ≠ expectedLen then []
    else
      match bgraPixels with
      | none => if 0 < expectedLen then [] else record (bitmapV5Header width height expectedLen)
      | some pixels => record (bitmapV5Header width height expectedLen) ++ pixels.take expectedLen

/-! ## Reading -/

/-- The fields of a `BITMAPINFOHEADER` that are looked at. -/
structure BitmapInfoHeader where
  biSize : Nat
  biWidth : Int
  biHeight : Int
  biBitCount : Nat
  biCompression : Nat
deriving DecidableEq, Repr

/-- The header, if the blob has room for one. -/
def readInfoHeader (blob : Bytes) : Option BitmapInfoHeader := do
  if blob.length < sizeofBitmapInfoHeader then none
  else
    let biSize ← readLE blob 0 4
    let biWidth ← readLE blob 4 4
    let biHeight ← readLE blob 8 4
    let biBitCount ← readLE blob 14 2
    let biCompression ← readLE blob 16 4
    return {
      biSize := biSize, biWidth := toLong biWidth, biHeight := toLong biHeight
      biBitCount := biBitCount, biCompression := biCompression }

/-- Where the pixels begin: behind the masks, if these follow the header. -/
def BitmapInfoHeader.headerBytes (bih : BitmapInfoHeader) : Nat :=
  if bih.biCompression = biBitfields ∧ bih.biSize = sizeofBitmapInfoHeader then bih.biSize + 3 * 4
  else bih.biSize

def BitmapInfoHeader.topDown (bih : BitmapInfoHeader) : Bool := bih.biHeight < 0
def BitmapInfoHeader.width (bih : BitmapInfoHeader) : Nat := bih.biWidth.toNat
def BitmapInfoHeader.height (bih : BitmapInfoHeader) : Nat := bih.biHeight.natAbs
def BitmapInfoHeader.bytesPerPixel (bih : BitmapInfoHeader) : Nat := bih.biBitCount / 8

/-- The length of a row with its padding; `& ~3` clears the two lowest bits. -/
def BitmapInfoHeader.srcStride (bih : BitmapInfoHeader) : Nat :=
  (bih.width * bih.bytesPerPixel + 3) / 4 * 4

/-- 24 bits a pixel become 32, the alpha 0xFF. -/
def bgrToBgra : Bytes → Bytes
  | b :: g :: r :: rest => b :: g :: r :: 0xFF :: bgrToBgra rest
  | _ => []

/-- Row `y` of the image, from the pixels of the blob. -/
def BitmapInfoHeader.row (bih : BitmapInfoHeader) (srcPixels : Bytes) (y : Nat) : Bytes :=
  let srcY := if bih.topDown then y else bih.height - 1 - y
  let start := srcY * bih.srcStride
  let src := segment srcPixels start (start + bih.width * bih.bytesPerPixel)
  if bih.bytesPerPixel = 4 then src else bgrToBgra src

/-- The header says something that can be read. -/
def BitmapInfoHeader.Supported (bih : BitmapInfoHeader) (blobSize : Nat) : Prop :=
  sizeofBitmapInfoHeader ≤ bih.biSize ∧ bih.biSize ≤ blobSize ∧
    0 < bih.biWidth ∧ bih.biHeight ≠ longMin ∧
    bih.biWidth ≤ kMaxImageDimension ∧ bih.height ≤ kMaxImageDimension ∧ 0 < bih.height ∧
    (bih.biCompression = biRgb ∨ bih.biCompression = biBitfields) ∧
    (bih.biBitCount = 24 ∨ bih.biBitCount = 32) ∧
    bih.headerBytes ≤ blobSize ∧ bih.headerBytes + bih.srcStride * bih.height ≤ blobSize

instance (bih : BitmapInfoHeader) (blobSize : Nat) : Decidable (bih.Supported blobSize) := by
  unfold BitmapInfoHeader.Supported
  infer_instance

/-- `ReadClipboardDibToBgra`, from the size of the blob on. -/
def readClipboardDibToBgra (blob : Bytes) : Option BgraImage := do
  let bih ← readInfoHeader blob
  if bih.Supported blob.length then
    return {
      width := bih.width
      height := bih.height
      pixels := (List.range bih.height).flatMap (bih.row (blob.drop bih.headerBytes)) }
  else none

/-! ## What is accepted -/

/-- A pixel and the rest of its row. -/
theorem eq_cons_three {n : Nat} {src : Bytes} (h : src.length = (n + 1) * 3) :
    ∃ b g r rest, src = b :: g :: r :: rest ∧ rest.length = n * 3 := by
  cases src with
  | nil =>
      rw [List.length_nil] at h
      omega
  | cons b src =>
      cases src with
      | nil =>
          rw [List.length_singleton] at h
          omega
      | cons g src =>
          cases src with
          | nil =>
              rw [List.length_cons, List.length_singleton] at h
              omega
          | cons r rest =>
              simp only [List.length_cons] at h
              exact ⟨b, g, r, rest, rfl, by omega⟩

theorem length_bgrToBgra {n : Nat} {src : Bytes} (h : src.length = n * 3) :
    (bgrToBgra src).length = n * 4 := by
  induction n generalizing src with
  | zero =>
      rw [Nat.zero_mul] at h
      rw [List.length_eq_zero_iff.mp h]
      rfl
  | succ n ih =>
      obtain ⟨b, g, r, rest, rfl, hrest⟩ := eq_cons_three h
      simp only [bgrToBgra, List.length_cons, ih hrest]
      omega

/-- A row is taken from inside the blob, whole. -/
theorem BitmapInfoHeader.length_row {bih : BitmapInfoHeader} {blob : Bytes}
    (h : bih.Supported blob.length) {y : Nat} (hy : y < bih.height) :
    (bih.row (blob.drop bih.headerBytes) y).length = bih.width * 4 := by
  obtain ⟨-, -, -, -, -, -, -, -, hbits, -, hneeded⟩ := h
  have hrow : bih.width * bih.bytesPerPixel ≤ bih.srcStride := by
    rw [srcStride]
    omega
  have hinside : ∀ srcY < bih.height,
      srcY * bih.srcStride + bih.width * bih.bytesPerPixel ≤
        (blob.drop bih.headerBytes).length := by
    intro srcY hsrcY
    calc srcY * bih.srcStride + bih.width * bih.bytesPerPixel
        ≤ srcY * bih.srcStride + bih.srcStride := Nat.add_le_add_left hrow _
      _ = (srcY + 1) * bih.srcStride := (Nat.succ_mul _ _).symm
      _ ≤ bih.height * bih.srcStride := Nat.mul_le_mul_right _ hsrcY
      _ = bih.srcStride * bih.height := Nat.mul_comm _ _
      _ ≤ (blob.drop bih.headerBytes).length := by
          rw [List.length_drop]
          omega
  have hsource : (if bih.topDown then y else bih.height - 1 - y) < bih.height := by
    split <;> omega
  have hsegment := length_segment (blob.drop bih.headerBytes)
    (a := (if bih.topDown then y else bih.height - 1 - y) * bih.srcStride) (hinside _ hsource)
  rw [Nat.add_sub_cancel_left] at hsegment
  rcases hbits with h24 | h32
  · have hbytes : bih.bytesPerPixel = 3 := by rw [bytesPerPixel, h24]
    rw [hbytes] at hsegment
    simp only [row, hbytes, Nat.reduceEqDiff, if_false]
    exact length_bgrToBgra hsegment
  · have hbytes : bih.bytesPerPixel = 4 := by rw [bytesPerPixel, h32]
    rw [hbytes] at hsegment
    simp only [row, hbytes, if_true]
    exact hsegment

/-- **Whatever is read is an image**: dimensions inside the cap, and four bytes
for each pixel. -/
theorem readDib_wellFormed {blob : Bytes} {out : BgraImage}
    (h : readClipboardDibToBgra blob = some out) :
    (1 ≤ out.width ∧ out.width ≤ kMaxImageDimension) ∧
      (1 ≤ out.height ∧ out.height ≤ kMaxImageDimension) ∧
      out.pixels.length = out.height * (out.width * 4) := by
  simp only [readClipboardDibToBgra, Option.bind_eq_bind, Option.bind_eq_some_iff] at h
  obtain ⟨bih, -, hout⟩ := h
  split at hout
  case isFalse => cases hout
  case isTrue hsupported =>
    cases hout
    obtain ⟨-, -, hwidth, -, hwidthCap, hheightCap, hheight, -⟩ := id hsupported
    refine ⟨?_, ⟨hheight, hheightCap⟩, ?_⟩
    · simp only [BitmapInfoHeader.width]
      omega
    · have hrow : ∀ y ∈ List.range bih.height,
          (bih.row (blob.drop bih.headerBytes) y).length = bih.width * 4 :=
        fun y hy => bih.length_row hsupported (List.mem_range.mp hy)
      have hrows := length_flatMap_const hrow
      rw [List.length_range] at hrows
      exact hrows

/-! ## Reading back -/

theorem toLong_ofLong {n : Int} (hlow : -2 ^ 31 ≤ n) (hhigh : n < 2 ^ 31) :
    toLong (ofLong n % 256 ^ 4) = n := by
  have hfits : ofLong n < 256 ^ 4 := by
    rw [ofLong]
    omega
  rw [Nat.mod_eq_of_lt hfits, toLong, ofLong]
  split <;> omega

/-- The header of a built image, as the reader sees it. -/
def builtHeader (width height : Nat) : BitmapInfoHeader where
  biSize := sizeofBitmapV5Header
  biWidth := width
  biHeight := -height
  biBitCount := 32
  biCompression := biBitfields

section Built

variable {width height : Nat}

theorem readInfoHeader_built (hwidth : width ≤ 16384) (hheight : height ≤ 16384)
    (expectedLen : Nat) (pixels : Bytes) :
    readInfoHeader (record (bitmapV5Header width height expectedLen) ++ pixels) =
      some (builtHeader width height) := by
  have hlength : ¬ (record (bitmapV5Header width height expectedLen) ++ pixels).length <
      sizeofBitmapInfoHeader := by
    rw [List.length_append, length_record]
    change ¬ 124 + pixels.length < 40
    omega
  have hcount : (bitmapV5Header width height expectedLen).length = 24 := rfl
  have hfield := fun k hk =>
    readLE_record (bitmapV5Header width height expectedLen) pixels (k := k) hk
  have hsize := hfield 0 (by omega)
  have hw := hfield 1 (by omega)
  have hh := hfield 2 (by omega)
  have hbits := hfield 4 (by omega)
  have hcompression := hfield 5 (by omega)
  change readLE _ 0 4 = some 124 at hsize
  change readLE _ 4 4 = some (ofLong width % 256 ^ 4) at hw
  change readLE _ 8 4 = some (ofLong (-height) % 256 ^ 4) at hh
  change readLE _ 14 2 = some 32 at hbits
  change readLE _ 16 4 = some 3 at hcompression
  have hwidthBack : toLong (ofLong width % 256 ^ 4) = width := toLong_ofLong (by omega) (by omega)
  have hheightBack : toLong (ofLong (-height) % 256 ^ 4) = -height :=
    toLong_ofLong (by omega) (by omega)
  simp only [readInfoHeader, if_neg hlength, hsize, hw, hh, hbits, hcompression,
    Option.bind_eq_bind, Option.bind_some, hwidthBack, hheightBack]
  rfl

@[simp] theorem width_built : (builtHeader width height).width = width := Int.toNat_natCast width

@[simp] theorem height_built : (builtHeader width height).height = height := by
  rw [builtHeader, BitmapInfoHeader.height, Int.natAbs_neg, Int.natAbs_natCast]

@[simp] theorem bytesPerPixel_built : (builtHeader width height).bytesPerPixel = 4 := by
  change 32 / 8 = 4
  rfl

@[simp] theorem headerBytes_built : (builtHeader width height).headerBytes = 124 := rfl

/-- A row of 32-bit pixels has no padding. -/
@[simp] theorem srcStride_built : (builtHeader width height).srcStride = width * 4 := by
  rw [BitmapInfoHeader.srcStride, width_built, bytesPerPixel_built]
  omega

theorem topDown_built (hheight : 1 ≤ height) : (builtHeader width height).topDown = true := by
  have hnegative : (-height : Int) < 0 := by omega
  exact decide_eq_true hnegative

theorem supported_built (hwidth : 1 ≤ width ∧ width ≤ 16384)
    (hheight : 1 ≤ height ∧ height ≤ 16384) {blobSize : Nat}
    (hsize : 124 + width * 4 * height ≤ blobSize) :
    (builtHeader width height).Supported blobSize := by
  have hw : (builtHeader width height).biWidth = width := rfl
  have hh : (builtHeader width height).biHeight = -height := rfl
  have hbiSize : (builtHeader width height).biSize = 124 := rfl
  have hcompression : (builtHeader width height).biCompression = biBitfields := rfl
  have hbits : (builtHeader width height).biBitCount = 32 := rfl
  rw [BitmapInfoHeader.Supported, height_built, headerBytes_built, srcStride_built, hw, hh, hbiSize,
    hcompression, hbits, longMin, kMaxImageDimension, sizeofBitmapInfoHeader]
  omega

/-- The rows of a built image are its pixels. -/
theorem rows_built (hheight : 1 ≤ height) {pixels : Bytes}
    (hpixels : pixels.length = width * 4 * height) :
    (List.range height).flatMap ((builtHeader width height).row pixels) = pixels := by
  have hrow : ∀ y, (builtHeader width height).row pixels y =
      segment pixels (y * (width * 4)) ((y + 1) * (width * 4)) := by
    intro y
    simp only [BitmapInfoHeader.row, topDown_built hheight, if_true, srcStride_built, width_built,
      bytesPerPixel_built, Nat.succ_mul]
  rw [funext hrow, flatMap_segment, Nat.mul_comm height, ← hpixels, segment_all]

/-- **An image is read back** as it was built. -/
theorem dib_read_back {pixels : Bytes} (hwidth : 1 ≤ width ∧ width ≤ 16384)
    (hheight : 1 ≤ height ∧ height ≤ 16384) (hpixels : pixels.length = 4 * width * height) :
    readClipboardDibToBgra (buildCfDibV5Payload width height (some pixels) pixels.length) =
      some { width := width, height := height, pixels := pixels } := by
  have hexpected : pixels.length = width * 4 * height := by
    rw [hpixels, Nat.mul_comm 4 width]
  have hbuilt : buildCfDibV5Payload width height (some pixels) pixels.length =
      record (bitmapV5Header width height pixels.length) ++ pixels := by
    have hpositive : ¬ ((width : Int) ≤ 0 ∨ (height : Int) ≤ 0) := by omega
    have hcap : ¬ ((kMaxImageDimension : Int) < width ∨ (kMaxImageDimension : Int) < height) := by
      rw [kMaxImageDimension]
      omega
    simp only [buildCfDibV5Payload, if_neg hpositive, if_neg hcap, Int.toNat_natCast,
      ← hexpected, ne_eq, not_true_eq_false, if_false, List.take_length]
  have hheaderLength : (record (bitmapV5Header width height pixels.length)).length = 124 := by
    rw [length_record]
    rfl
  have hlength : (record (bitmapV5Header width height pixels.length) ++ pixels).length =
      124 + width * 4 * height := by
    rw [List.length_append, hheaderLength, hexpected]
  rw [readClipboardDibToBgra, hbuilt, readInfoHeader_built hwidth.2 hheight.2, hlength]
  simp only [Option.bind_eq_bind, Option.bind_some, if_pos (supported_built hwidth hheight le_rfl),
    headerBytes_built, List.drop_left' hheaderLength, width_built, height_built,
    rows_built hheight.1 hexpected]
  rfl

end Built

/-- Two pixels side by side. -/
theorem dib_read_back_two :
    readClipboardDibToBgra (buildCfDibV5Payload (2 : Nat) (1 : Nat)
        (some [1, 2, 3, 4, 5, 6, 7, 8]) 8) =
      some { width := 2, height := 1, pixels := [1, 2, 3, 4, 5, 6, 7, 8] } :=
  dib_read_back (by decide) (by decide) rfl

end DibFormat
