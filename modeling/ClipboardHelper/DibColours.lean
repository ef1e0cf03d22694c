import ClipboardHelper.DibSafety

/-!
# The colours of a bitmap

What a DIB says about a pixel: where the pixel array begins, behind the
header, the masks and the colour table, and which of the bytes of a pixel is
its blue, green and red.  `ReadClipboardDibToBgra` takes neither the colour
table nor the masks into account.

The pixels of a blob say little (a black picture has the right colours
whatever the masks), so the decoder is held against all pixels that can stand
behind one header: **`dib_colours_iff`**.
-/

namespace DibFormat

open Library

/-! ## The format -/

/-- The number of colour table entries, which the decoder does not read. -/
def biClrUsed (blob : Bytes) : Option Nat := readLE blob 32 4

/-- The mask of a channel: blue is 0, green is 1, red is 2.  The masks of
`BI_BITFIELDS` stand at the same place behind a `BITMAPINFOHEADER` and inside
a longer header. -/
def maskOf (blob : Bytes) (bih : BitmapInfoHeader) (c : Nat) : Option Nat :=
  if bih.biCompression = biRgb then some (0xFF <<< (8 * c)) else readLE blob (48 - 4 * c) 4

/-- The byte that a mask of eight bits selects. -/
def byteOfMask (mask : Nat) : Option Nat :=
  [0, 1, 2, 3].find? (fun j => decide (mask = 0xFF <<< (8 * j)))

/-- Behind the header, the three masks of a `BITMAPINFOHEADER` with
`BI_BITFIELDS`, and the colour table. -/
def BitmapInfoHeader.pixelStart (bih : BitmapInfoHeader) (clrUsed : Nat) : Nat :=
  bih.biSize
    + (if bih.biSize = sizeofBitmapInfoHeader ∧ bih.biCompression = biBitfields then 12 else 0)
    + 4 * clrUsed

/-- Rows are filled up to a multiple of 32 bits. -/
def BitmapInfoHeader.rowStride (bih : BitmapInfoHeader) : Nat :=
  (bih.width * bih.biBitCount + 31) / 32 * 4

/-- Rows come from the bottom up unless the height is negative. -/
def BitmapInfoHeader.rowOf (bih : BitmapInfoHeader) (y : Nat) : Nat :=
  if bih.biHeight < 0 then y else bih.height - 1 - y

/-- Channel `c` of pixel `(x, y)`, as the format gives it. -/
def formatChannel (blob : Bytes) (bih : BitmapInfoHeader) (x y c : Nat) : Option Nat := do
  let clrUsed ← biClrUsed blob
  let mask ← maskOf blob bih c
  let byte ← byteOfMask mask
  let pixel ← readLE blob
    (bih.pixelStart clrUsed + bih.rowOf y * bih.rowStride + x * (bih.biBitCount / 8))
    (bih.biBitCount / 8)
  return (pixel &&& mask) >>> (8 * byte)

/-- Every channel that the format gives is the one that was decoded. -/
def ColoursFollow (blob : Bytes) : Prop :=
  ∀ out bih, readClipboardDibToBgra blob = some out → readInfoHeader blob = some bih →
    ∀ x y c, x < out.width → y < out.height → c < 3 →
      ∀ n, formatChannel blob bih x y c = some n →
        (out.pixels[(y * out.width + x) * 4 + c]?).map UInt8.toNat = some n

/-- A DIB of 24 or 32 bits a pixel: the decoder accepts the header, the masks
select bytes of a pixel, and there is room for the pixel array. -/
structure IsDib (blob : Bytes) (bih : BitmapInfoHeader) : Prop where
  header : readInfoHeader blob = some bih
  supported : bih.Supported blob.length
  room : ∀ clrUsed, biClrUsed blob = some clrUsed →
    bih.pixelStart clrUsed + bih.rowStride * bih.height ≤ blob.length
  longHeader : bih.biCompression = biBitfields →
    bih.biSize = sizeofBitmapInfoHeader ∨ 52 ≤ bih.biSize
  masks : ∀ c < 3, ∃ mask byte, maskOf blob bih c = some mask ∧ byteOfMask mask = some byte
    ∧ byte < bih.biBitCount / 8

/-- No colour table, and blue, green and red in this order. -/
def StandardColours (blob : Bytes) (bih : BitmapInfoHeader) : Prop :=
  biClrUsed blob = some 0 ∧
    (bih.biCompression = biRgb ∨ ∀ c < 3, maskOf blob bih c = some (0xFF <<< (8 * c)))

/-! ## Bytes of a number -/

theorem ofLittleEndian_byte {bytes : Bytes} :
    ∀ {j : Nat} {b : UInt8}, bytes[j]? = some b →
      ofLittleEndian bytes / 256 ^ j % 256 = b.toNat := by
  induction bytes with
  | nil =>
      intro j b h
      cases h
  | cons first bytes ih =>
      intro j b h
      have hfirst := first.toNat_lt
      rw [ofLittleEndian]
      cases j with
      | zero =>
          rw [List.getElem?_cons_zero, Option.some.injEq] at h
          subst h
          omega
      | succ j =>
          rw [List.getElem?_cons_succ] at h
          have hrest := ih h
          have hdiv : (first.toNat + 256 * ofLittleEndian bytes) / 256 = ofLittleEndian bytes := by
            omega
          rw [Nat.pow_succ', ← Nat.div_div_eq_div_mul, hdiv, hrest]

/-- A byte mask takes its byte. -/
theorem and_byteMask (v j : Nat) :
    (v &&& (0xFF <<< (8 * j))) >>> (8 * j) = v / 256 ^ j % 256 := by
  have hpow : 2 ^ (8 * j) = 256 ^ j := Nat.pow_mul 2 8 j
  rw [Nat.shiftRight_and_distrib, Nat.shiftLeft_shiftRight, Nat.shiftRight_eq_div_pow, hpow]
  exact Nat.and_two_pow_sub_one_eq_mod (v / 256 ^ j) 8

theorem byteOfMask_eq_some {mask byte : Nat} (h : byteOfMask mask = some byte) :
    mask = 0xFF <<< (8 * byte) := by
  have hfound := List.find?_some h
  exact of_decide_eq_true hfound

theorem byteOfMask_standard {c : Nat} (hc : c < 3) : byteOfMask (0xFF <<< (8 * c)) = some c := by
  match c, hc with
  | 0, _ | 1, _ | 2, _ => decide

/-- A channel of the format is one byte of the blob. -/
theorem readLE_byte {blob : Bytes} {i n v : Nat} (h : readLE blob i n = some v) {j : Nat}
    (hj : j < n) : (blob[i + j]?).map UInt8.toNat = some (v / 256 ^ j % 256) := by
  unfold readLE at h
  split at h
  · next hle =>
      rw [Option.some.injEq] at h
      have hlt : i + j < blob.length := by omega
      have hbyte : (segment blob i (i + n))[j]? = some blob[i + j] := by
        rw [segment_eq_take_drop, List.getElem?_take_of_lt hj, List.getElem?_drop,
          List.getElem?_eq_getElem hlt]
      rw [List.getElem?_eq_getElem hlt, ← h, ofLittleEndian_byte hbyte, Option.map_some]
  · cases h

/-- A field is read from the bytes in front of a cut. -/
theorem readLE_congr {blob blob' : Bytes} {n offset width : Nat}
    (hlength : blob'.length = blob.length) (htake : blob'.take n = blob.take n)
    (h : offset + width ≤ n) : readLE blob' offset width = readLE blob offset width := by
  have hsegment : segment blob' offset (offset + width) = segment blob offset (offset + width) := by
    have hcut : ∀ xs : Bytes, xs.take (offset + width) = (xs.take n).take (offset + width) := by
      intro xs
      rw [List.take_take, Nat.min_eq_left h]
    rw [Library.segment, Library.segment, hcut blob', hcut blob, htake]
  rw [readLE, readLE, hlength, hsegment]

/-! ## The decoder against the format -/

section Colours

variable {blob : Bytes} {bih : BitmapInfoHeader}

theorem IsDib.bytesPerPixel (h : IsDib blob bih) :
    bih.bytesPerPixel = 3 ∨ bih.bytesPerPixel = 4 := by
  obtain ⟨-, -, -, -, -, -, -, -, hbits, -, -⟩ := h.supported
  rw [BitmapInfoHeader.bytesPerPixel]
  omega

/-- The padding of the format is that of the decoder. -/
theorem IsDib.rowStride_eq (h : IsDib blob bih) : bih.rowStride = bih.srcStride := by
  obtain ⟨-, -, -, -, -, -, -, -, hbits, -, -⟩ := h.supported
  rw [BitmapInfoHeader.rowStride, BitmapInfoHeader.srcStride, BitmapInfoHeader.bytesPerPixel]
  obtain h24 | h32 := hbits
  · rw [h24]
    omega
  · rw [h32]
    omega

theorem rowOf_eq (y : Nat) : bih.rowOf y = bih.srcY y := by
  rw [BitmapInfoHeader.rowOf, BitmapInfoHeader.srcY, BitmapInfoHeader.topDown]
  simp only [decide_eq_true_eq]

/-- The format starts a colour table behind the place where the decoder
starts. -/
theorem pixelStart_eq (clrUsed : Nat) :
    bih.pixelStart clrUsed = bih.headerBytes + 4 * clrUsed := by
  rw [BitmapInfoHeader.pixelStart, BitmapInfoHeader.headerBytes]
  by_cases hmasks : bih.biCompression = biBitfields ∧ bih.biSize = sizeofBitmapInfoHeader
  · rw [if_pos hmasks, if_pos hmasks.symm]
  · rw [if_neg hmasks, if_neg (fun h => hmasks h.symm), Nat.add_zero]

/-- **A channel of the format** stands a colour table and a byte of the mask
behind the pixel that the decoder takes. -/
theorem formatChannel_eq (h : IsDib blob bih) {clrUsed mask byte x y c n : Nat}
    (hclrUsed : biClrUsed blob = some clrUsed) (hmask : maskOf blob bih c = some mask)
    (hbyte : byteOfMask mask = some byte) (hbyteLt : byte < bih.biBitCount / 8)
    (hformat : formatChannel blob bih x y c = some n) :
    (blob[bih.srcIndex x y (4 * clrUsed + byte)]?).map UInt8.toNat = some n := by
  simp only [formatChannel, hclrUsed, hmask, hbyte, Option.bind_eq_bind, Option.bind_some,
    Option.bind_eq_some_iff] at hformat
  obtain ⟨pixel, hpixel, hn⟩ := hformat
  have hchannel := readLE_byte hpixel hbyteLt
  have hn' : (pixel &&& mask) >>> (8 * byte) = n := by simpa using hn
  rw [byteOfMask_eq_some hbyte, and_byteMask] at hn'
  rw [hn', pixelStart_eq, rowOf_eq, h.rowStride_eq] at hchannel
  have hindex : bih.headerBytes + 4 * clrUsed + bih.srcY y * bih.srcStride
      + x * (bih.biBitCount / 8) + byte = bih.srcIndex x y (4 * clrUsed + byte) := by
    rw [BitmapInfoHeader.srcIndex, BitmapInfoHeader.bytesPerPixel]
    omega
  rwa [hindex] at hchannel

/-- A decoded channel stands at its own place in the pixel. -/
theorem decodedChannel_eq (h : IsDib blob bih) {out : BgraImage}
    (hout : readClipboardDibToBgra blob = some out) {x y c : Nat} (hx : x < out.width)
    (hy : y < out.height) (hc : c < 3) :
    out.pixels[(y * out.width + x) * 4 + c]? = blob[bih.srcIndex x y c]? := by
  simp only [readClipboardDibToBgra, Option.bind_eq_bind, h.header, Option.bind_some,
    if_pos h.supported] at hout
  cases hout
  have hpixel := bih.getElem?_pixels h.supported hx hy (c := c) (by omega)
  rwa [if_neg (fun hboth => absurd hboth.2 (by omega))] at hpixel

/-- The standard masks select the bytes in their order. -/
theorem StandardColours.byte_eq (h : StandardColours blob bih) {c mask byte : Nat} (hc : c < 3)
    (hmask : maskOf blob bih c = some mask) (hbyte : byteOfMask mask = some byte) : byte = c := by
  have hstandard : maskOf blob bih c = some (0xFF <<< (8 * c)) := by
    cases h.2 with
    | inl hrgb => rw [maskOf, if_pos hrgb]
    | inr hmasks => exact hmasks c hc
  rw [hstandard, Option.some.injEq] at hmask
  rw [← hmask, byteOfMask_standard hc, Option.some.injEq] at hbyte
  exact hbyte.symm

/-- **Standard colours are decoded.** -/
theorem coloursFollow_of_standard (h : IsDib blob bih) (hstandard : StandardColours blob bih) :
    ColoursFollow blob := by
  intro out bih' hout hheader x y c hx hy hc n hformat
  rw [h.header, Option.some.injEq] at hheader
  subst hheader
  obtain ⟨mask, byte, hmask, hbyte, hbyteLt⟩ := h.masks c hc
  have hchannel := formatChannel_eq h hstandard.1 hmask hbyte hbyteLt hformat
  rw [hstandard.byte_eq hc hmask hbyte, Nat.mul_zero, Nat.zero_add] at hchannel
  rw [decodedChannel_eq h hout hx hy hc]
  exact hchannel

/-! ## Other pixels behind the same header -/

/-- The other blob has the same header, masks included, and the same size. -/
def SameHeader (bih : BitmapInfoHeader) (blob blob' : Bytes) : Prop :=
  blob'.length = blob.length ∧ blob'.take bih.headerBytes = blob.take bih.headerBytes

theorem IsDib.headerBytes_bounds (h : IsDib blob bih) :
    40 ≤ bih.headerBytes ∧ bih.headerBytes ≤ blob.length
      ∧ (bih.biCompression ≠ biRgb → 52 ≤ bih.headerBytes) := by
  have hlong := h.longHeader
  obtain ⟨hsize, -, -, -, -, -, -, hkind, -, hheader, -⟩ := h.supported
  rw [sizeofBitmapInfoHeader] at hsize hlong
  refine ⟨?_, hheader, ?_⟩
  · rw [BitmapInfoHeader.headerBytes]
    split <;> omega
  · intro hrgb
    have hbitfields : bih.biCompression = biBitfields := hkind.resolve_left hrgb
    rw [BitmapInfoHeader.headerBytes, sizeofBitmapInfoHeader]
    cases hlong hbitfields with
    | inl h40 =>
        rw [if_pos ⟨hbitfields, h40⟩]
        omega
    | inr h52 =>
        split <;> omega

theorem maskOf_congr (h : IsDib blob bih) {blob' : Bytes} (hsame : SameHeader bih blob blob')
    (c : Nat) : maskOf blob' bih c = maskOf blob bih c := by
  obtain ⟨-, -, hmasks⟩ := h.headerBytes_bounds
  rw [maskOf, maskOf]
  by_cases hrgb : bih.biCompression = biRgb
  · rw [if_pos hrgb, if_pos hrgb]
  · have hroom := hmasks hrgb
    rw [if_neg hrgb, if_neg hrgb, readLE_congr hsame.1 hsame.2 (by omega)]

theorem biClrUsed_congr (h : IsDib blob bih) {blob' : Bytes} (hsame : SameHeader bih blob blob') :
    biClrUsed blob' = biClrUsed blob := by
  obtain ⟨hroom, -, -⟩ := h.headerBytes_bounds
  exact readLE_congr hsame.1 hsame.2 (by omega)

/-- **The header decides** what a DIB is. -/
theorem IsDib.congr (h : IsDib blob bih) {blob' : Bytes} (hsame : SameHeader bih blob blob') :
    IsDib blob' bih := by
  obtain ⟨hroom, -, -⟩ := h.headerBytes_bounds
  have hfield : ∀ offset width, offset + width ≤ 40 →
      readLE blob' offset width = readLE blob offset width :=
    fun offset width hle => readLE_congr hsame.1 hsame.2 (by omega)
  refine ⟨?_, ?_, ?_, h.longHeader, ?_⟩
  · have hheader := h.header
    simp only [readInfoHeader, hsame.1, hfield 0 4 (by omega), hfield 4 4 (by omega),
      hfield 8 4 (by omega), hfield 14 2 (by omega), hfield 16 4 (by omega)] at hheader ⊢
    exact hheader
  · rw [hsame.1]
    exact h.supported
  · intro clrUsed hclrUsed
    rw [biClrUsed_congr h hsame] at hclrUsed
    rw [hsame.1]
    exact h.room clrUsed hclrUsed
  · intro c hc
    rw [maskOf_congr h hsame]
    exact h.masks c hc

/-- One byte behind the header is 0xFF, the others are zero. -/
def probe (blob : Bytes) (bih : BitmapInfoHeader) (c : Nat) : Bytes :=
  blob.take bih.headerBytes ++
    (List.replicate (blob.length - bih.headerBytes) (0 : UInt8)).set c 0xFF

theorem probe_sameHeader (h : IsDib blob bih) (c : Nat) :
    SameHeader bih blob (probe blob bih c) := by
  obtain ⟨-, hheader, -⟩ := h.headerBytes_bounds
  have hfront : (blob.take bih.headerBytes).length = bih.headerBytes :=
    List.length_take_of_le hheader
  refine ⟨?_, ?_⟩
  · rw [probe, List.length_append, hfront, List.length_set, List.length_replicate]
    omega
  · rw [probe, List.take_left' hfront]

theorem probe_getElem? (h : IsDib blob bih) {c k : Nat} {b : UInt8}
    (hb : (probe blob bih c)[bih.headerBytes + k]? = some b) (hbright : b = 0xFF) : k = c := by
  obtain ⟨-, hheader, -⟩ := h.headerBytes_bounds
  have hfront : (blob.take bih.headerBytes).length = bih.headerBytes :=
    List.length_take_of_le hheader
  rw [probe, List.getElem?_append_right (by omega), hfront, Nat.add_sub_cancel_left] at hb
  by_contra hne
  rw [List.getElem?_set_ne (Ne.symm hne), List.getElem?_replicate] at hb
  split at hb
  · rw [Option.some.injEq, hbright] at hb
    exact absurd hb (by decide)
  · cases hb

/-- The output row that comes from the first row of the blob. -/
def BitmapInfoHeader.firstRow (bih : BitmapInfoHeader) : Nat :=
  if bih.topDown then 0 else bih.height - 1

theorem firstRow_lt (h : IsDib blob bih) : bih.firstRow < bih.height := by
  obtain ⟨-, -, -, -, -, -, hheight, -⟩ := h.supported
  rw [BitmapInfoHeader.firstRow]
  split <;> omega

theorem srcY_firstRow : bih.srcY bih.firstRow = 0 := by
  rw [BitmapInfoHeader.srcY, BitmapInfoHeader.firstRow]
  cases bih.topDown with
  | true => rfl
  | false =>
      rw [if_neg Bool.false_ne_true, if_neg Bool.false_ne_true]
      omega

theorem srcIndex_firstRow (c : Nat) : bih.srcIndex 0 bih.firstRow c = bih.headerBytes + c := by
  rw [BitmapInfoHeader.srcIndex, srcY_firstRow]
  omega

/-- The format gives every channel of the first pixel of the blob. -/
theorem formatChannel_firstRow (h : IsDib blob bih) {clrUsed mask byte c : Nat}
    (hclrUsed : biClrUsed blob = some clrUsed) (hmask : maskOf blob bih c = some mask)
    (hbyte : byteOfMask mask = some byte) :
    ∃ n, formatChannel blob bih 0 bih.firstRow c = some n := by
  have hroom := h.room clrUsed hclrUsed
  have hbytes := h.bytesPerPixel
  have hrow : bih.rowOf bih.firstRow = 0 := (rowOf_eq _).trans srcY_firstRow
  obtain ⟨-, -, hwidth, -, -, -, hheight, -⟩ := h.supported
  have hwidthPos : 0 < bih.width := by
    rw [BitmapInfoHeader.width]
    omega
  have hpixel : bih.biBitCount / 8 ≤ bih.rowStride * bih.height := by
    have hone : bih.bytesPerPixel ≤ bih.width * bih.bytesPerPixel :=
      Nat.le_mul_of_pos_left _ hwidthPos
    have hrowBytes := bih.rowBytes_le
    have hrows : bih.srcStride ≤ bih.srcStride * bih.height := Nat.le_mul_of_pos_right _ hheight
    rw [h.rowStride_eq]
    rw [BitmapInfoHeader.bytesPerPixel] at hone hrowBytes
    omega
  have hread : (readLE blob (bih.pixelStart clrUsed + bih.rowOf bih.firstRow * bih.rowStride
      + 0 * (bih.biBitCount / 8)) (bih.biBitCount / 8)).isSome := by
    rw [readLE_isSome_iff, hrow]
    omega
  obtain ⟨pixel, hpixel⟩ := Option.isSome_iff_exists.mp hread
  refine ⟨(pixel &&& mask) >>> (8 * byte), ?_⟩
  simp only [formatChannel, hclrUsed, hmask, hbyte, hpixel, Option.bind_eq_bind, Option.bind_some]
  rfl

/-- **A probe finds the place of a channel.** -/
theorem place_of_probe (h : IsDib blob bih) {clrUsed mask byte c : Nat} (hc : c < 3)
    (hclrUsed : biClrUsed blob = some clrUsed) (hmask : maskOf blob bih c = some mask)
    (hbyte : byteOfMask mask = some byte) (hbyteLt : byte < bih.biBitCount / 8)
    (hfollow : ColoursFollow (probe blob bih c)) : 4 * clrUsed + byte = c := by
  have hsame := probe_sameHeader h c
  have hprobe := h.congr hsame
  rw [← biClrUsed_congr h hsame] at hclrUsed
  rw [← maskOf_congr h hsame] at hmask
  obtain ⟨n, hn⟩ := formatChannel_firstRow hprobe hclrUsed hmask hbyte
  have hformat := formatChannel_eq hprobe hclrUsed hmask hbyte hbyteLt hn
  obtain ⟨hroom, hheader, -⟩ := h.headerBytes_bounds
  obtain ⟨out, hout⟩ : ∃ out, readClipboardDibToBgra (probe blob bih c) = some out := by
    simp only [readClipboardDibToBgra, Option.bind_eq_bind, hprobe.header, Option.bind_some,
      if_pos hprobe.supported]
    exact ⟨_, rfl⟩
  have hdims : out.width = bih.width ∧ out.height = bih.height := by
    have hout' := hout
    simp only [readClipboardDibToBgra, Option.bind_eq_bind, hprobe.header, Option.bind_some,
      if_pos hprobe.supported] at hout'
    cases hout'
    exact ⟨rfl, rfl⟩
  obtain ⟨-, -, hwidth, -, -, -, -, -, -, -, hneeded⟩ := h.supported
  have hx : 0 < out.width := by
    rw [hdims.1, BitmapInfoHeader.width]
    omega
  have hy : bih.firstRow < out.height := by
    rw [hdims.2]
    exact firstRow_lt h
  have hdecoded := hfollow out bih hout hprobe.header 0 bih.firstRow c hx hy hc n hn
  rw [decodedChannel_eq hprobe hout hx hy hc, srcIndex_firstRow] at hdecoded
  rw [srcIndex_firstRow] at hformat
  -- the decoder takes the bright byte
  have hbright : (probe blob bih c)[bih.headerBytes + c]? = some 0xFF := by
    have hfront : (blob.take bih.headerBytes).length = bih.headerBytes :=
      List.length_take_of_le hheader
    have hpixels : c < blob.length - bih.headerBytes := by
      have hone := bih.row_inside h.supported (firstRow_lt h)
      have hrowBytes := bih.rowBytes_le
      have hbytes := h.bytesPerPixel
      have hwidthPos : 0 < bih.width := by omega
      have hpixel : bih.bytesPerPixel ≤ bih.width * bih.bytesPerPixel :=
        Nat.le_mul_of_pos_left _ hwidthPos
      omega
    rw [probe, List.getElem?_append_right (by omega), hfront, Nat.add_sub_cancel_left,
      List.getElem?_set_self (by rwa [List.length_replicate])]
  rw [hbright, Option.map_some, Option.some.injEq] at hdecoded
  rw [← hdecoded, Option.map_eq_some_iff] at hformat
  obtain ⟨b, hb, hvalue⟩ := hformat
  exact probe_getElem? h hb (UInt8.toNat_inj.mp hvalue)

/-- **When the colours follow the header.**  All pixels that can stand behind
the header of a DIB are decoded with the colours of the format exactly when
the header has no colour table and the standard masks. -/
theorem dib_colours_iff (h : IsDib blob bih) :
    (∀ blob', SameHeader bih blob blob' → ColoursFollow blob') ↔ StandardColours blob bih := by
  constructor
  · intro hfollow
    obtain ⟨hroom, hheader, -⟩ := h.headerBytes_bounds
    have hread : (biClrUsed blob).isSome := by
      rw [biClrUsed, readLE_isSome_iff]
      omega
    obtain ⟨clrUsed, hclrUsed⟩ := Option.isSome_iff_exists.mp hread
    have hplace : ∀ c < 3, clrUsed = 0 ∧ maskOf blob bih c = some (0xFF <<< (8 * c)) := by
      intro c hc
      obtain ⟨mask, byte, hmask, hbyte, hbyteLt⟩ := h.masks c hc
      have hfound := place_of_probe h hc hclrUsed hmask hbyte hbyteLt
        (hfollow _ (probe_sameHeader h c))
      have hsame : byte = c := by omega
      refine ⟨by omega, ?_⟩
      rw [hmask, byteOfMask_eq_some hbyte, hsame]
    refine ⟨?_, .inr fun c hc => (hplace c hc).2⟩
    rw [hclrUsed, (hplace 0 (by omega)).1]
  · intro hstandard blob' hsame
    refine coloursFollow_of_standard (h.congr hsame) ⟨?_, ?_⟩
    · rw [biClrUsed_congr h hsame]
      exact hstandard.1
    · cases hstandard.2 with
      | inl hrgb => exact .inl hrgb
      | inr hmasks =>
          refine .inr ?_
          intro c hc
          rw [maskOf_congr h hsame]
          exact hmasks c hc

end Colours

/-- A header of one pixel with 32 bits, in the order of the structure. -/
def onePixelHeader (compression clrUsed : Nat) : List (Nat × Nat) :=
  [(4, 40), (4, 1), (4, 1), (2, 1), (2, 32), (4, compression), (4, 0), (4, 0), (4, 0),
    (4, clrUsed), (4, 0)]

/-- The header as the decoder sees it. -/
def onePixel (compression : Nat) : BitmapInfoHeader where
  biSize := 40
  biWidth := 1
  biHeight := 1
  biBitCount := 32
  biCompression := compression

theorem isDib_onePixel :
    IsDib (record (onePixelHeader biRgb 0) ++ [1, 2, 3, 0]) (onePixel biRgb) := by
  refine ⟨by decide, by decide, ?_, by decide, ?_⟩
  · intro clrUsed hclrUsed
    have hnone : biClrUsed (record (onePixelHeader biRgb 0) ++ [1, 2, 3, 0]) = some 0 := by decide
    rw [hnone, Option.some.injEq] at hclrUsed
    subst hclrUsed
    decide
  · intro c hc
    exact ⟨_, c, rfl, byteOfMask_standard hc, by change c < 4; omega⟩

/-- One pixel without masks. -/
theorem dib_colours_one :
    (∀ blob', SameHeader (onePixel biRgb) (record (onePixelHeader biRgb 0) ++ [1, 2, 3, 0]) blob' →
      ColoursFollow blob') ↔
      StandardColours (record (onePixelHeader biRgb 0) ++ [1, 2, 3, 0]) (onePixel biRgb) :=
  dib_colours_iff isDib_onePixel

/-- A pixel behind one colour table entry, which is taken for the pixel; and
a pixel with the red mask in front, whose red is taken for blue. -/
theorem dib_colours_differ :
    ∃ palette masked : Bytes, ¬ ColoursFollow palette ∧ ¬ ColoursFollow masked
      ∧ (readClipboardDibToBgra palette).map BgraImage.pixels = some [1, 2, 3, 0]
      ∧ formatChannel palette (onePixel biRgb) 0 0 0 = some 9
      ∧ (readClipboardDibToBgra masked).map BgraImage.pixels = some [1, 2, 3, 0]
      ∧ formatChannel masked (onePixel biBitfields) 0 0 0 = some 3 := by
  have hpalette : readClipboardDibToBgra
      (record (onePixelHeader biRgb 1) ++ [1, 2, 3, 0] ++ [9, 8, 7, 0]) =
      some ⟨1, 1, [1, 2, 3, 0]⟩ := by decide
  have hmasked : readClipboardDibToBgra
      (record (onePixelHeader biBitfields 0 ++ [(4, 0xFF), (4, 0xFF00), (4, 0xFF0000)])
        ++ [1, 2, 3, 0]) = some ⟨1, 1, [1, 2, 3, 0]⟩ := by decide
  refine ⟨_, _, ?_, ?_, congrArg (Option.map BgraImage.pixels) hpalette, by decide,
    congrArg (Option.map BgraImage.pixels) hmasked, by decide⟩
  · intro hfollow
    have hblue := hfollow _ (onePixel biRgb) hpalette (by decide) 0 0 0 (by decide) (by decide)
      (by decide) 9 (by decide)
    exact absurd hblue (by decide)
  · intro hfollow
    have hblue := hfollow _ (onePixel biBitfields) hmasked (by decide) 0 0 0 (by decide) (by decide)
      (by decide) 3 (by decide)
    exact absurd hblue (by decide)

end DibFormat
