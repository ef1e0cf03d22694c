import ClipboardHelper.DibFormat
import ClipboardHelper.Library.Checked

/-!
# Decoding a bitmap without leaving its buffers

`ReadClipboardDibToBgra` once more, statement by statement as a checked
program: every number in the width the source gives it, every byte loaded from
the blob or stored into the pixels by its index.  The header is whatever an
application has put on the clipboard.

**`readDib_safe`**: on every blob the checked program ends without a fault,
with the result of `readClipboardDibToBgra`.  What makes it so is the one
comparison of the needed size with the size of the blob (`Supported`): it
covers the padding of the last row, so every row lies inside
(`row_inside`).
-/

namespace DibFormat

open Library Library.Outcome

/-! ## The program -/

/-- The locals that the checks leave behind. -/
structure DibLayout where
  width : Nat
  height : Nat
  topDown : Bool
  headerBytes : Nat
  bytesPerPixel : Nat
  srcStride : Nat
deriving DecidableEq, Repr

/-- `abs_h`. -/
def absHeight (rawH : Int) : Outcome Int := if rawH < 0 then int64 (-rawH) else int64 rawH

/-- `header_bytes`. -/
def checkedHeaderBytes (biCompression biSize : Nat) : Outcome Nat :=
  if biCompression = biBitfields ∧ biSize = sizeofBitmapInfoHeader then size (biSize + 3 * 4)
  else size biSize

/-- From the size of the blob to the comparison with the needed size. -/
def checkDib (blob : Bytes) : Outcome DibLayout := do
  rejectIf (blob.length < sizeofBitmapInfoHeader)
  let biSize ← loadLE blob 0 4
  rejectIf (biSize < sizeofBitmapInfoHeader ∨ blob.length < biSize)
  let biWidth ← loadLE blob 4 4
  let biHeight ← loadLE blob 8 4
  let rawW := toLong biWidth
  let rawH := toLong biHeight
  rejectIf (rawW ≤ 0 ∨ rawH = longMin)
  let topDown := decide (rawH < 0)
  let absH ← absHeight rawH
  rejectIf ((kMaxImageDimension : Int) < rawW ∨ (kMaxImageDimension : Int) < absH)
  let width ← int32 rawW
  let height ← int32 absH
  rejectIf (height ≤ 0)
  let biCompression ← loadLE blob 16 4
  rejectIf (biCompression ≠ biRgb ∧ biCompression ≠ biBitfields)
  let biBitCount ← loadLE blob 14 2
  rejectIf (biBitCount ≠ 24 ∧ biBitCount ≠ 32)
  let headerBytes ← checkedHeaderBytes biCompression biSize
  rejectIf (blob.length < headerBytes)
  let bytesPerPixel ← int32 (biBitCount / 8 : Nat)
  let rowBytes ← size (width.toNat * bytesPerPixel.toNat)
  let padded ← size (rowBytes + 3)
  let srcStride := padded / 4 * 4
  let needed ← size (srcStride * height.toNat)
  let total ← size (headerBytes + needed)
  rejectIf (blob.length < total)
  return {
    width := width.toNat, height := height.toNat, topDown := topDown
    headerBytes := headerBytes, bytesPerPixel := bytesPerPixel.toNat, srcStride := srcStride }

/-- `x * n + c` of two `int`s, as an index. -/
def pixelIndex (x n c : Nat) : Outcome Nat := do
  let scaled ← int32 (x * n : Nat)
  let index ← int32 (scaled + c)
  return index.toNat

/-- `dst_row[x * 4 + c] = src_row[x * 3 + c]`. -/
def copyChannel (blob : Bytes) (srcRow dstRow x c : Nat) (pixels : Bytes) : Outcome Bytes := do
  let dst ← pixelIndex x 4 c
  let src ← pixelIndex x 3 c
  let b ← load blob (srcRow + src)
  store pixels (dstRow + dst) b

/-- The conversion of pixel `x`. -/
def convertPixel (blob : Bytes) (srcRow dstRow x : Nat) (pixels : Bytes) : Outcome Bytes := do
  let pixels ← copyChannel blob srcRow dstRow x 0 pixels
  let pixels ← copyChannel blob srcRow dstRow x 1 pixels
  let pixels ← copyChannel blob srcRow dstRow x 2 pixels
  let alpha ← pixelIndex x 4 3
  store pixels (dstRow + alpha) 0xFF

/-- The conversion of `n` pixels from pixel `x` on. -/
def convertRow (blob : Bytes) (srcRow dstRow : Nat) : Nat → Nat → Bytes → Outcome Bytes
  | _, 0, pixels => ok pixels
  | x, n + 1, pixels => do
    let pixels ← convertPixel blob srcRow dstRow x pixels
    convertRow blob srcRow dstRow (x + 1) n pixels

/-- `src_y`. -/
def sourceRow (dib : DibLayout) (y : Nat) : Outcome Int :=
  if dib.topDown then int32 y
  else do
    let last ← int32 (dib.height - 1)
    int32 (last - y)

/-- One row of the output. -/
def copyRow (blob : Bytes) (dib : DibLayout) (y : Nat) (pixels : Bytes) : Outcome Bytes := do
  let srcY ← sourceRow dib y
  let srcOffset ← size (srcY.toNat * dib.srcStride)
  let srcRow ← size (dib.headerBytes + srcOffset)
  let dstPixels ← size (y * dib.width)
  let dstRow ← size (dstPixels * 4)
  if dib.bytesPerPixel = 4 then do
    let length ← size (dib.width * 4)
    memcpy pixels blob dstRow srcRow length
  else convertRow blob srcRow dstRow 0 dib.width pixels

/-- The rows from `y` on. -/
def copyRows (blob : Bytes) (dib : DibLayout) : Nat → Nat → Bytes → Outcome Bytes
  | _, 0, pixels => ok pixels
  | y, n + 1, pixels => do
    let pixels ← copyRow blob dib y pixels
    copyRows blob dib (y + 1) n pixels

def readDibChecked (blob : Bytes) : Outcome BgraImage := do
  let dib ← checkDib blob
  let count ← size (dib.width * dib.height)
  let length ← size (count * 4)
  let pixels ← copyRows blob dib 0 dib.height (List.replicate length 0)
  return { width := dib.width, height := dib.height, pixels := pixels }

/-! ## The checks -/

/-- The locals for a header. -/
def BitmapInfoHeader.layout (bih : BitmapInfoHeader) : DibLayout where
  width := bih.width
  height := bih.height
  topDown := bih.topDown
  headerBytes := bih.headerBytes
  bytesPerPixel := bih.bytesPerPixel
  srcStride := bih.srcStride

/-- The needed size of a picture inside the cap fits into 64 bits, whatever
the header's own size. -/
theorem BitmapInfoHeader.needed_lt {bih : BitmapInfoHeader} (hwidth : bih.width ≤ 16384)
    (hheight : bih.height ≤ 16384) (hbits : bih.biBitCount = 24 ∨ bih.biBitCount = 32) :
    bih.width * bih.bytesPerPixel + 3 < 2 ^ 17 ∧ bih.srcStride * bih.height < 2 ^ 31 := by
  have hbytes : bih.bytesPerPixel ≤ 4 := by
    rw [bytesPerPixel]
    omega
  have hrow : bih.width * bih.bytesPerPixel ≤ 16384 * 4 := Nat.mul_le_mul hwidth hbytes
  have hstride : bih.srcStride ≤ 65536 := by
    rw [srcStride]
    omega
  have hneeded : bih.srcStride * bih.height ≤ 65536 * 16384 := Nat.mul_le_mul hstride hheight
  exact ⟨by omega, by omega⟩

theorem toLong_bounds {n : Nat} (h : n < 256 ^ 4) : -2 ^ 31 ≤ toLong n ∧ toLong n < 2 ^ 31 := by
  rw [toLong]
  split <;> omega

/-- The magnitude of a height that has one. -/
theorem BitmapInfoHeader.absHeight_eq {bih : BitmapInfoHeader}
    (hbounds : -2 ^ 31 ≤ bih.biHeight ∧ bih.biHeight < 2 ^ 31) :
    absHeight bih.biHeight = ok (bih.height : Int) := by
  rw [absHeight, height, Int.natCast_natAbs]
  by_cases hneg : bih.biHeight < 0
  · rw [if_pos hneg, int64_eq (by omega) (by omega), abs_of_neg hneg]
  · rw [if_neg hneg, int64_eq (by omega) (by omega), abs_of_nonneg (Int.not_lt.mp hneg)]

theorem BitmapInfoHeader.headerBytes_eq {bih : BitmapInfoHeader} (h : bih.biSize < 2 ^ 32) :
    checkedHeaderBytes bih.biCompression bih.biSize = ok bih.headerBytes := by
  rw [checkedHeaderBytes, headerBytes]
  split
  · rw [size_eq (by omega)]
  · rw [size_eq (by omega)]

theorem BitmapInfoHeader.headerBytes_lt {bih : BitmapInfoHeader} (h : bih.biSize < 2 ^ 32) :
    bih.headerBytes < 2 ^ 33 := by
  rw [headerBytes]
  split <;> omega

theorem checkDib_eq (blob : Bytes) :
    checkDib blob =
      match readInfoHeader blob with
      | none => reject
      | some bih => if bih.Supported blob.length then ok bih.layout else reject := by
  by_cases hlength : blob.length < sizeofBitmapInfoHeader
  · rw [checkDib, rejectIf_pos hlength, reject_bind, readInfoHeader, if_pos hlength]
  have hroom : 40 ≤ blob.length := Nat.not_lt.mp hlength
  obtain ⟨biSize, hsize, hsize'⟩ := loadLE_eq blob 0 4 (by omega)
  obtain ⟨biWidth, hw, hw'⟩ := loadLE_eq blob 4 4 (by omega)
  obtain ⟨biHeight, hh, hh'⟩ := loadLE_eq blob 8 4 (by omega)
  obtain ⟨biBitCount, hbits, hbits'⟩ :=
    loadLE_eq blob 14 2 (by omega)
  obtain ⟨biCompression, hcompression, hcompression'⟩ :=
    loadLE_eq blob 16 4 (by omega)
  have hsizeLt := readLE_lt hsize
  have hheader : readInfoHeader blob = some ⟨biSize, toLong biWidth, toLong biHeight, biBitCount,
      biCompression⟩ := by
    simp [readInfoHeader, if_neg hlength, hsize, hw, hh, hbits, hcompression]
  rw [hheader]
  generalize hbih : BitmapInfoHeader.mk biSize (toLong biWidth) (toLong biHeight) biBitCount
    biCompression = bih
  have hbiSize : biSize = bih.biSize := by rw [← hbih]
  have hbiWidth : toLong biWidth = bih.biWidth := by rw [← hbih]
  have hbiHeight : toLong biHeight = bih.biHeight := by rw [← hbih]
  have hbiBitCount : biBitCount = bih.biBitCount := by rw [← hbih]
  have hbiCompression : biCompression = bih.biCompression := by rw [← hbih]
  rw [checkDib]
  simp only [rejectIf_neg hlength, hsize', hw', hh', hbits', hcompression', ok_bind, hbiSize,
    hbiWidth, hbiHeight, hbiBitCount, hbiCompression]
  have hwidthBounds := hbiWidth ▸ toLong_bounds (readLE_lt hw)
  have hheightBounds := hbiHeight ▸ toLong_bounds (readLE_lt hh)
  rw [hbiSize] at hsizeLt
  refine rejectIf_then ?_ fun hsizeOk => ?_
  · intro hsizeBad hsupported
    obtain ⟨hmin, hmax, -⟩ := hsupported
    omega
  refine rejectIf_then ?_ fun hsignOk => ?_
  · intro hsignBad hsupported
    obtain ⟨-, -, hpositive, hmin, -⟩ := hsupported
    omega
  rw [bih.absHeight_eq hheightBounds, ok_bind]
  refine rejectIf_then ?_ fun hcap => ?_
  · intro hcapBad hsupported
    obtain ⟨-, -, -, -, hcapWidth, hcapHeight, -⟩ := hsupported
    omega
  rw [kMaxImageDimension] at hcap
  rw [int32_eq hwidthBounds.1 hwidthBounds.2, ok_bind, int32_eq (by omega) (by omega), ok_bind]
  refine rejectIf_then ?_ fun hheightOk => ?_
  · intro hflat hsupported
    obtain ⟨-, -, -, -, -, -, hheight, -⟩ := hsupported
    omega
  refine rejectIf_then ?_ fun hcompression => ?_
  · intro hcompressed hsupported
    obtain ⟨-, -, -, -, -, -, -, hkind, -⟩ := hsupported
    exact hkind.elim hcompressed.1 hcompressed.2
  refine rejectIf_then ?_ fun hdepth => ?_
  · intro hdepthBad hsupported
    obtain ⟨-, -, -, -, -, -, -, -, hbits, -⟩ := hsupported
    exact hbits.elim hdepthBad.1 hdepthBad.2
  rw [bih.headerBytes_eq hsizeLt, ok_bind]
  refine rejectIf_then ?_ fun hheaderOk => ?_
  · intro hheaderBad hsupported
    obtain ⟨-, -, -, -, -, -, -, -, -, hfits, -⟩ := hsupported
    omega
  -- what is left is the size of the pixels, which the cap keeps small
  have hdepth' : bih.biBitCount = 24 ∨ bih.biBitCount = 32 := by omega
  have hwidth : bih.width ≤ 16384 := by
    rw [BitmapInfoHeader.width]
    omega
  obtain ⟨hrowLt, hneededLt⟩ := bih.needed_lt hwidth (by omega) hdepth'
  have hheaderLt := bih.headerBytes_lt hsizeLt
  have hbytes : ((bih.biBitCount / 8 : Nat) : Int).toNat = bih.bytesPerPixel := rfl
  have hwidthNat : bih.biWidth.toNat = bih.width := rfl
  have hheightNat : (bih.height : Int).toNat = bih.height := rfl
  have hstride : (bih.width * bih.bytesPerPixel + 3) / 4 * 4 = bih.srcStride := rfl
  rw [int32_eq (by omega) (by omega), ok_bind]
  simp only [hbytes, hwidthNat, hheightNat]
  rw [size_eq (by omega), ok_bind, size_eq (by omega), ok_bind, hstride, size_eq (by omega),
    ok_bind, size_eq (by omega), ok_bind]
  refine rejectIf_then ?_ fun hneeded => ?_
  · intro hneededBad hsupported
    obtain ⟨-, -, -, -, -, -, -, -, -, -, hfits⟩ := hsupported
    omega
  rw [if_pos]
  · rfl
  refine ⟨by omega, by omega, by omega, by omega, by rw [kMaxImageDimension]; omega,
    by rw [kMaxImageDimension]; omega, by omega, ?_, hdepth', by omega, by omega⟩
  by_cases hrgb : bih.biCompression = biRgb
  · exact .inl hrgb
  · exact .inr (not_not.mp fun hother => hcompression ⟨hrgb, hother⟩)

/-! ## The rows -/

section Rows

variable {blob : Bytes}

theorem pixelIndex_eq {x n c : Nat} (h : x * n + c < 2 ^ 31) :
    pixelIndex x n c = ok (x * n + c) := by
  rw [pixelIndex, int32_eq (by omega) (by omega), ok_bind, int32_eq (by omega) (by omega), ok_bind]
  rfl

/-- One channel goes behind what has been filled. -/
theorem copyChannel_eq {srcRow x c : Nat} {b : UInt8} (front rest : Bytes) (old : UInt8)
    (dstRow : Nat) (hb : blob[srcRow + (x * 3 + c)]? = some b) (hx : x * 4 + c < 2 ^ 31)
    (hfront : front.length = dstRow + (x * 4 + c)) :
    copyChannel blob srcRow dstRow x c (front ++ old :: rest) = ok (front ++ b :: rest) := by
  have hload : load blob (srcRow + (x * 3 + c)) = ok b := by
    rw [load, hb]
  rw [copyChannel, pixelIndex_eq hx, ok_bind, pixelIndex_eq (by omega), ok_bind, hload, ok_bind,
    ← hfront, store_append]

/-- **A converted pixel** takes the place of four bytes. -/
theorem convertPixel_eq {srcRow dstRow x : Nat} {front gap rest : Bytes} {blue green red : UInt8}
    {tail : Bytes} (hgap : gap.length = 4) (hx : x * 4 + 3 < 2 ^ 31)
    (hfront : front.length = dstRow + x * 4)
    (hpixel : blob.drop (srcRow + x * 3) = blue :: green :: red :: tail) :
    convertPixel blob srcRow dstRow x (front ++ (gap ++ rest)) =
      ok (front ++ [blue, green, red, 0xFF] ++ rest) := by
  obtain ⟨a, b, c, d, rfl⟩ : ∃ a b c d, gap = [a, b, c, d] := by
    match gap, hgap with
    | [a, b, c, d], _ => exact ⟨a, b, c, d, rfl⟩
  have hchannel : ∀ k : Nat, blob[srcRow + (x * 3 + k)]? = (blue :: green :: red :: tail)[k]? := by
    intro k
    rw [← hpixel, List.getElem?_drop, Nat.add_assoc]
  have hblue := copyChannel_eq front (b :: c :: d :: rest) a dstRow (hchannel 0) (by omega)
    (by omega)
  have hgreen := copyChannel_eq (front ++ [blue]) (c :: d :: rest) b dstRow (hchannel 1) (by omega)
    (by simp only [List.length_append, List.length_singleton]; omega)
  have hred := copyChannel_eq (front ++ [blue] ++ [green]) (d :: rest) c dstRow (hchannel 2)
    (by omega) (by simp only [List.length_append, List.length_singleton]; omega)
  have halpha := store_append (front ++ [blue] ++ [green] ++ [red]) rest d 0xFF
  have hlength : (front ++ [blue] ++ [green] ++ [red]).length = dstRow + (x * 4 + 3) := by
    simp only [List.length_append, List.length_singleton]
    omega
  rw [hlength] at halpha
  simp only [List.append_assoc, List.cons_append, List.nil_append] at hblue hgreen hred halpha ⊢
  rw [convertPixel, hblue, ok_bind, hgreen, ok_bind, hred, ok_bind, pixelIndex_eq hx, ok_bind,
    halpha]

/-- The three channels of a pixel, in the blob. -/
theorem drop_three (blob : Bytes) {i : Nat} (h : i + 2 < blob.length) :
    blob.drop i = blob[i] :: blob[i + 1] :: blob[i + 2] :: blob.drop (i + 3) := by
  rw [List.drop_eq_getElem_cons (by omega), List.drop_eq_getElem_cons (i := i + 1) (by omega),
    List.drop_eq_getElem_cons (i := i + 1 + 1) h]

/-- **A converted row**: by induction on the pixels left, each of which takes
four bytes of the gap. -/
theorem convertRow_eq (blob : Bytes) (n : Nat) :
    ∀ (srcRow dstRow x : Nat) (front gap rest : Bytes), gap.length = n * 4 →
      front.length = dstRow + x * 4 → (x + n) * 4 < 2 ^ 31 →
      srcRow + (x + n) * 3 ≤ blob.length →
      convertRow blob srcRow dstRow x n (front ++ (gap ++ rest)) =
        ok (front ++ (bgrToBgra ((blob.drop (srcRow + x * 3)).take (n * 3)) ++ rest)) := by
  induction n with
  | zero =>
      intro srcRow dstRow x front gap rest hgap _ _ _
      rw [List.length_eq_zero_iff.mp hgap, convertRow, Nat.zero_mul, List.take_zero]
      rfl
  | succ n ih =>
      intro srcRow dstRow x front gap rest hgap hfront hx hsrc
      have hpixel := drop_three blob (i := srcRow + x * 3) (by omega)
      have hfour : (gap.take 4).length = 4 := by
        rw [List.length_take]
        omega
      have hgap' : gap ++ rest = gap.take 4 ++ (gap.drop 4 ++ rest) := by
        rw [← List.append_assoc, List.take_append_drop]
      have hrest := ih srcRow dstRow (x + 1)
        (front ++ [blob[srcRow + x * 3], blob[srcRow + x * 3 + 1], blob[srcRow + x * 3 + 2], 0xFF])
        (gap.drop 4) rest
        (by rw [List.length_drop]; omega)
        (by simp only [List.length_append, List.length_cons, List.length_nil]; omega)
        (by omega) (by omega)
      have hnext : srcRow + x * 3 + 3 = srcRow + (x + 1) * 3 := by omega
      have htake : (n + 1) * 3 = n * 3 + 3 := by omega
      rw [convertRow, hgap', convertPixel_eq hfour (by omega) hfront hpixel, ok_bind, hrest, hpixel,
        htake, List.take_succ_cons, List.take_succ_cons, List.take_succ_cons, bgrToBgra, hnext]
      simp

/-- A source row lies inside the blob, with its padding. -/
theorem BitmapInfoHeader.row_inside {bih : BitmapInfoHeader} {size srcY : Nat}
    (h : bih.Supported size) (hsrcY : srcY < bih.height) :
    bih.headerBytes + srcY * bih.srcStride + bih.srcStride ≤ size := by
  obtain ⟨-, -, -, -, -, -, -, -, -, -, hneeded⟩ := h
  have hrows : (srcY + 1) * bih.srcStride ≤ bih.srcStride * bih.height := by
    rw [Nat.mul_comm bih.srcStride]
    exact Nat.mul_le_mul_right _ hsrcY
  rw [Nat.succ_mul] at hrows
  omega

theorem BitmapInfoHeader.rowBytes_le (bih : BitmapInfoHeader) :
    bih.width * bih.bytesPerPixel ≤ bih.srcStride := by
  rw [srcStride]
  omega

/-- **One row**: what `row` says takes its place in the output. -/
theorem copyRow_eq {bih : BitmapInfoHeader} (h : bih.Supported blob.length)
    (hsizeLt : bih.biSize < 2 ^ 32) {y : Nat} (hy : y < bih.height) {front gap : Bytes}
    (rest : Bytes) (hfront : front.length = y * (bih.width * 4))
    (hgap : gap.length = bih.width * 4) :
    copyRow blob bih.layout y (front ++ (gap ++ rest)) =
      ok (front ++ (bih.row (blob.drop bih.headerBytes) y ++ rest)) := by
  obtain ⟨-, -, -, -, hwidthCap, hheightCap, -, -, hbits, hheader, hneeded⟩ := id h
  rw [kMaxImageDimension] at hwidthCap hheightCap
  have hwidth : bih.width ≤ 16384 := by
    rw [BitmapInfoHeader.width]
    omega
  obtain ⟨-, hneededLt⟩ := bih.needed_lt hwidth (by omega) hbits
  generalize hsrcY : (if bih.topDown then y else bih.height - 1 - y) = srcY
  have hsrcYLt : srcY < bih.height := by
    rw [← hsrcY]
    split <;> omega
  have hsource : sourceRow bih.layout y = ok (srcY : Int) := by
    rw [← hsrcY, sourceRow]
    change (if bih.topDown then int32 y
      else int32 (bih.height - 1) >>= fun last => int32 (last - y)) = _
    cases bih.topDown with
    | true => rw [if_pos rfl, if_pos rfl, int32_eq (by omega) (by omega)]
    | false =>
        rw [if_neg Bool.false_ne_true, if_neg Bool.false_ne_true, int32_eq (by omega) (by omega),
          ok_bind, int32_eq (by omega) (by omega)]
        congr 1
        omega
  have hinside := bih.row_inside h hsrcYLt
  have hrowBytes := bih.rowBytes_le
  have hoffset : srcY * bih.srcStride < 2 ^ 31 :=
    (Nat.mul_comm bih.srcStride bih.height ▸ Nat.mul_le_mul_right _ hsrcYLt.le).trans_lt hneededLt
  have hheaderLt := bih.headerBytes_lt hsizeLt
  have hdst : y * bih.width ≤ 16384 * 16384 := Nat.mul_le_mul (by omega) hwidth
  have hdstRow : y * bih.width * 4 = front.length := by
    rw [hfront, Nat.mul_assoc]
  have hrowLt : bih.headerBytes + srcY * bih.srcStride < 2 ^ 64 := by omega
  have hsrcOffset : size ((srcY : Int).toNat * bih.layout.srcStride) =
      ok (srcY * bih.srcStride) := size_eq (n := srcY * bih.srcStride) (by omega)
  have hsrcRow : size (bih.layout.headerBytes + srcY * bih.srcStride) =
      ok (bih.headerBytes + srcY * bih.srcStride) := size_eq hrowLt
  have hdstPixels : size (y * bih.layout.width) = ok (y * bih.width) :=
    size_eq (n := y * bih.width) (by omega)
  have hdstBytes : size (y * bih.width * 4) = ok front.length := by
    rw [size_eq (by omega), hdstRow]
  have hsegment : segment (blob.drop bih.headerBytes) (srcY * bih.srcStride)
      (srcY * bih.srcStride + bih.width * bih.bytesPerPixel) =
      (blob.drop (bih.headerBytes + srcY * bih.srcStride)).take
        (bih.width * bih.bytesPerPixel) := by
    rw [segment_eq_take_drop, List.drop_drop]
  rw [copyRow, hsource, ok_bind, hsrcOffset, ok_bind, hsrcRow, ok_bind, hdstPixels, ok_bind,
    hdstBytes, ok_bind]
  simp only [BitmapInfoHeader.row, hsrcY, hsegment]
  by_cases hfour : bih.bytesPerPixel = 4
  · have hlayout : bih.layout.bytesPerPixel = 4 := hfour
    have hlength : size (bih.layout.width * 4) = ok (bih.width * 4) :=
      size_eq (n := bih.width * 4) (by omega)
    rw [hfour] at hrowBytes
    rw [if_pos hlayout, if_pos hfour, hlength, ok_bind, hfour]
    exact memcpy_eq hgap front rest _ (by omega)
  · have hlayout : ¬ bih.layout.bytesPerPixel = 4 := hfour
    have hthree : bih.bytesPerPixel = 3 := by
      rw [BitmapInfoHeader.bytesPerPixel] at hfour ⊢
      omega
    rw [hthree] at hrowBytes
    rw [if_neg hlayout, if_neg hfour, hthree]
    have hconvert := convertRow_eq blob bih.width (bih.headerBytes + srcY * bih.srcStride)
      front.length 0 front gap rest hgap (by omega) (by omega) (by omega)
    rw [Nat.zero_mul, Nat.add_zero] at hconvert
    exact hconvert

/-- The rows from `y` on, each in its place. -/
theorem copyRows_eq {bih : BitmapInfoHeader} (h : bih.Supported blob.length)
    (hsizeLt : bih.biSize < 2 ^ 32) (n : Nat) :
    ∀ (y : Nat) (front gap : Bytes), y + n = bih.height →
      front.length = y * (bih.width * 4) → gap.length = n * (bih.width * 4) →
      copyRows blob bih.layout y n (front ++ gap) =
        ok (front ++
          (List.range' y n).flatMap (bih.row (blob.drop bih.headerBytes))) := by
  induction n with
  | zero =>
      intro y front gap _ _ hgap
      rw [Nat.zero_mul] at hgap
      rw [List.length_eq_zero_iff.mp hgap, copyRows]
      rfl
  | succ n ih =>
      intro y front gap hy hfront hgap
      rw [Nat.succ_mul] at hgap
      have hfirst : (gap.take (bih.width * 4)).length = bih.width * 4 := by
        rw [List.length_take]
        omega
      have hrow := copyRow_eq h hsizeLt (y := y) (by omega) (gap.drop (bih.width * 4)) hfront
        hfirst
      rw [List.take_append_drop] at hrow
      have hlength := bih.length_row h (y := y) (by omega)
      have hrest := ih (y + 1) (front ++ bih.row (blob.drop bih.headerBytes) y)
        (gap.drop (bih.width * 4)) (by omega)
        (by rw [List.length_append, hlength, hfront, Nat.succ_mul])
        (by rw [List.length_drop]; omega)
      rw [List.append_assoc] at hrest
      rw [copyRows, hrow, ok_bind, hrest, List.range'_succ, List.flatMap_cons, List.append_assoc]

end Rows

theorem biSize_lt {blob : Bytes} {bih : BitmapInfoHeader} (h : readInfoHeader blob = some bih) :
    bih.biSize < 2 ^ 32 := by
  simp only [readInfoHeader, Option.bind_eq_bind] at h
  split at h
  · cases h
  · simp only [Option.bind_eq_some_iff] at h
    obtain ⟨biSize, hsize, _, -, _, -, _, -, _, -, hbih⟩ := h
    cases hbih
    exact readLE_lt hsize

/-- **The checked program does not fault**, and ends as the decoder does. -/
theorem readDibChecked_eq (blob : Bytes) :
    readDibChecked blob =
      match readClipboardDibToBgra blob with
      | none => reject
      | some out => ok out := by
  rw [readDibChecked, readClipboardDibToBgra, checkDib_eq]
  cases hinfo : readInfoHeader blob with
  | none => rfl
  | some bih =>
      simp only [Option.bind_eq_bind, Option.bind_some]
      by_cases hsupported : bih.Supported blob.length
      · obtain ⟨-, -, -, -, hwidthCap, hheightCap, -⟩ := id hsupported
        rw [kMaxImageDimension] at hwidthCap hheightCap
        have hwidth : bih.width ≤ 16384 := by
          rw [BitmapInfoHeader.width]
          omega
        have hcount : bih.width * bih.height ≤ 16384 * 16384 := Nat.mul_le_mul hwidth hheightCap
        have hlayoutCount : size (bih.layout.width * bih.layout.height) =
            ok (bih.width * bih.height) := size_eq (n := bih.width * bih.height) (by omega)
        have hzeros : (List.replicate (bih.width * bih.height * 4) (0 : UInt8)).length =
            bih.height * (bih.width * 4) := by
          rw [List.length_replicate]
          ring
        have hrows := copyRows_eq hsupported (biSize_lt hinfo) bih.height 0 [] _
          (Nat.zero_add _) (by simp) hzeros
        rw [List.nil_append, List.nil_append, ← List.range_eq_range'] at hrows
        have hlayoutRows : copyRows blob bih.layout 0 bih.layout.height
            (List.replicate (bih.width * bih.height * 4) 0) =
            ok ((List.range bih.height).flatMap (bih.row (blob.drop bih.headerBytes))) := hrows
        rw [if_pos hsupported, if_pos hsupported, ok_bind, hlayoutCount, ok_bind,
          size_eq (by omega), ok_bind, hlayoutRows]
        rfl
      · rw [if_neg hsupported, if_neg hsupported]
        rfl

/-! ## The pixels -/

/-- Where output row `y` comes from. -/
def BitmapInfoHeader.srcY (bih : BitmapInfoHeader) (y : Nat) : Nat :=
  if bih.topDown then y else bih.height - 1 - y

/-- The place of channel `c` of pixel `(x, y)` in the blob. -/
def BitmapInfoHeader.srcIndex (bih : BitmapInfoHeader) (x y c : Nat) : Nat :=
  bih.headerBytes + bih.srcY y * bih.srcStride + x * bih.bytesPerPixel + c

/-- Channel `c` of a converted pixel. -/
theorem getElem?_bgrToBgra {n : Nat} :
    ∀ (src : Bytes) (x c : Nat), src.length = n * 3 → x < n → c < 4 →
      (bgrToBgra src)[x * 4 + c]? = if c = 3 then some 0xFF else src[x * 3 + c]? := by
  induction n with
  | zero =>
      intro src x c _ hx _
      omega
  | succ n ih =>
      intro src x c hsrc hx hc
      obtain ⟨b, g, r, rest, rfl, hrest⟩ := eq_cons_three hsrc
      rw [bgrToBgra]
      cases x with
      | zero =>
          obtain rfl | rfl | rfl | rfl : c = 0 ∨ c = 1 ∨ c = 2 ∨ c = 3 := by omega
          · rfl
          · rfl
          · rfl
          · rfl
      | succ x =>
          have hnext := ih rest x c hrest (by omega) hc
          have hout : (x + 1) * 4 + c = x * 4 + c + 4 := by omega
          have hin : (x + 1) * 3 + c = x * 3 + c + 3 := by omega
          rw [hout, hin]
          exact hnext

/-- **The place of every pixel**, in both depths and both row orders. -/
theorem BitmapInfoHeader.getElem?_pixels {bih : BitmapInfoHeader} {blob : Bytes}
    (h : bih.Supported blob.length) {x y c : Nat} (hx : x < bih.width) (hy : y < bih.height)
    (hc : c < 4) :
    ((List.range bih.height).flatMap (bih.row (blob.drop bih.headerBytes)))[
        (y * bih.width + x) * 4 + c]? =
      if bih.bytesPerPixel = 3 ∧ c = 3 then some 0xFF else blob[bih.srcIndex x y c]? := by
  have hindex : (y * bih.width + x) * 4 + c = y * (bih.width * 4) + (x * 4 + c) := by ring
  have hrowLength : ∀ y ∈ List.range bih.height,
      (bih.row (blob.drop bih.headerBytes) y).length = bih.width * 4 :=
    fun y hy => bih.length_row h (List.mem_range.mp hy)
  have hdrop := drop_flatMap hrowLength (i := y) (by rwa [List.length_range])
  rw [List.getElem_range] at hdrop
  have hinRow : x * 4 + c < (bih.row (blob.drop bih.headerBytes) y).length := by
    rw [bih.length_row h hy]
    omega
  rw [hindex, ← List.getElem?_drop, hdrop, List.getElem?_append_left hinRow]
  have hsrcY : (if bih.topDown then y else bih.height - 1 - y) = bih.srcY y := rfl
  have hsrcYLt : bih.srcY y < bih.height := by
    rw [srcY]
    split <;> omega
  have hinside := bih.row_inside h hsrcYLt
  have hrowBytes := bih.rowBytes_le
  simp only [row, hsrcY, segment_eq_take_drop, List.drop_drop]
  obtain ⟨-, -, -, -, -, -, -, -, hbits, -, -⟩ := h
  cases hbits with
  | inl h24 =>
      have hthree : bih.bytesPerPixel = 3 := by rw [bytesPerPixel, h24]
      rw [hthree] at hrowBytes
      rw [hthree, if_neg (by omega)]
      rw [getElem?_bgrToBgra (n := bih.width) _ x c
        (by rw [List.length_take, List.length_drop]; omega) hx hc]
      by_cases halpha : c = 3
      · rw [if_pos halpha, if_pos ⟨rfl, halpha⟩]
      · rw [if_neg halpha, if_neg (fun hboth => halpha hboth.2),
          List.getElem?_take_of_lt (by omega), List.getElem?_drop, srcIndex, hthree]
        congr 1
        omega
  | inr h32 =>
      have hfour : bih.bytesPerPixel = 4 := by rw [bytesPerPixel, h32]
      rw [hfour, if_pos rfl, if_neg (by omega), List.getElem?_take_of_lt (by omega),
        List.getElem?_drop, srcIndex, hfour]
      congr 1
      omega

/-- **Decoding is memory-safe.**  On every blob the checked program ends
without a fault, as the decoder does.  What is accepted has four bytes a
pixel, and every one of them is the alpha of a 24-bit source or the byte of
the blob in its row, `y` from the top or from the bottom, at a stride of a
multiple of four bytes. -/
theorem readDib_safe (blob : Bytes) :
    (readDibChecked blob =
      match readClipboardDibToBgra blob with
      | none => reject
      | some out => ok out)
    ∧ ∀ out, readClipboardDibToBgra blob = some out →
        ∃ bih, readInfoHeader blob = some bih ∧ (bih.bytesPerPixel = 3 ∨ bih.bytesPerPixel = 4)
          ∧ (4 ∣ bih.srcStride ∧ bih.width * bih.bytesPerPixel ≤ bih.srcStride
            ∧ bih.srcStride < bih.width * bih.bytesPerPixel + 4)
          ∧ out.width = bih.biWidth.toNat ∧ out.height = bih.biHeight.natAbs
          ∧ out.pixels.length = 4 * out.width * out.height
          ∧ ∀ x y c, x < out.width → y < out.height → c < 4 →
              if bih.bytesPerPixel = 3 ∧ c = 3
              then out.pixels[(y * out.width + x) * 4 + c]? = some 0xFF
              else bih.srcIndex x y c < blob.length
                ∧ out.pixels[(y * out.width + x) * 4 + c]? = blob[bih.srcIndex x y c]? := by
  refine ⟨readDibChecked_eq blob, ?_⟩
  intro out hout
  have hwell := readDib_wellFormed hout
  simp only [readClipboardDibToBgra, Option.bind_eq_bind, Option.bind_eq_some_iff] at hout
  obtain ⟨bih, hinfo, hout⟩ := hout
  by_cases hsupported : bih.Supported blob.length
  · rw [if_pos hsupported] at hout
    cases hout
    have hbytes : bih.bytesPerPixel = 3 ∨ bih.bytesPerPixel = 4 := by
      obtain ⟨-, -, -, -, -, -, -, -, hbits, -, -⟩ := id hsupported
      rw [BitmapInfoHeader.bytesPerPixel]
      omega
    have hstride : 4 ∣ bih.srcStride ∧ bih.width * bih.bytesPerPixel ≤ bih.srcStride
        ∧ bih.srcStride < bih.width * bih.bytesPerPixel + 4 := by
      rw [BitmapInfoHeader.srcStride]
      omega
    refine ⟨bih, hinfo, hbytes, hstride, rfl, rfl, ?_, ?_⟩
    · rw [hwell.2.2]
      ring
    · intro x y c hx hy hc
      have hpixel := bih.getElem?_pixels hsupported hx hy hc
      by_cases halpha : bih.bytesPerPixel = 3 ∧ c = 3
      · rw [if_pos halpha] at hpixel ⊢
        exact hpixel
      · rw [if_neg halpha] at hpixel ⊢
        refine ⟨?_, hpixel⟩
        have hsrcYLt : bih.srcY y < bih.height := by
          change y < bih.height at hy
          rw [BitmapInfoHeader.srcY]
          split <;> omega
        have hinside := bih.row_inside hsupported hsrcYLt
        have hrow : (x + 1) * bih.bytesPerPixel ≤ bih.width * bih.bytesPerPixel :=
          Nat.mul_le_mul_right _ hx
        rw [Nat.succ_mul] at hrow
        rw [BitmapInfoHeader.srcIndex]
        omega
  · rw [if_neg hsupported] at hout
    cases hout

end DibFormat
