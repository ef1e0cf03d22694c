import ClipboardHelper.Library.Bytes

/-!
# Length-prefixed frames

A frame on a byte stream is a four-byte little-endian length followed by
that many bytes.

* `readLengthLE_writeLengthLE`, `writeLengthLE_readLengthLE`: the length
  field and its value determine each other;
* `Framed cap stream frames rest`: the stream is these frames, none longer
  than `cap`, and then a rest off which no further frame can be cut.  Every
  stream has exactly one such decomposition (`framed_parseFrames`,
  `Framed.unique`), and it grows with the stream (`Framed.append`).
-/

namespace Library

/-- A length as four bytes, least significant first. -/
def writeLengthLE (len : UInt32) : Bytes :=
  [(len &&& 0xFF).toUInt8, ((len >>> 8) &&& 0xFF).toUInt8, ((len >>> 16) &&& 0xFF).toUInt8,
    ((len >>> 24) &&& 0xFF).toUInt8]

def readLengthLE (b₀ b₁ b₂ b₃ : UInt8) : UInt32 :=
  b₀.toUInt32 ||| (b₁.toUInt32 <<< 8) ||| (b₂.toUInt32 <<< 16) ||| (b₃.toUInt32 <<< 24)

@[simp] theorem length_writeLengthLE (len : UInt32) : (writeLengthLE len).length = 4 := rfl

/-- Stacking a byte on top of `k` bits adds its weight. -/
theorem or_shiftLeft_eq_add {low high k : Nat} (hlow : low < 2 ^ k) :
    low ||| high <<< k = low + high * 2 ^ k := by
  rw [Nat.or_comm, ← Nat.shiftLeft_add_eq_or_of_lt hlow, Nat.shiftLeft_eq, Nat.add_comm]

/-- The value of a length field, digit by digit. -/
theorem toNat_readLengthLE (b₀ b₁ b₂ b₃ : UInt8) :
    (readLengthLE b₀ b₁ b₂ b₃).toNat =
      b₀.toNat + b₁.toNat * 2 ^ 8 + b₂.toNat * 2 ^ 16 + b₃.toNat * 2 ^ 24 := by
  have h₀ := b₀.toNat_lt
  have h₁ := b₁.toNat_lt
  have h₂ := b₂.toNat_lt
  have h₃ := b₃.toNat_lt
  have hshift : ∀ (b : UInt8) (k : Nat), k ≤ 24 →
      b.toNat <<< k % 2 ^ 32 = b.toNat <<< k := by
    intro b k hk
    have hb := b.toNat_lt
    rw [Nat.shiftLeft_eq]
    apply Nat.mod_eq_of_lt
    calc b.toNat * 2 ^ k < 2 ^ 8 * 2 ^ k := Nat.mul_lt_mul_of_pos_right hb (by positivity)
      _ = 2 ^ (8 + k) := (pow_add 2 8 k).symm
      _ ≤ 2 ^ 32 := Nat.pow_le_pow_right (by omega) (by omega)
  simp only [readLengthLE, UInt32.toNat_or, UInt32.toNat_shiftLeft, UInt8.toNat_toUInt32]
  have h8 := hshift b₁ 8 (by omega)
  have h16 := hshift b₂ 16 (by omega)
  have h24 := hshift b₃ 24 (by omega)
  calc b₀.toNat ||| b₁.toNat <<< 8 % 2 ^ 32 ||| b₂.toNat <<< 16 % 2 ^ 32 |||
        b₃.toNat <<< 24 % 2 ^ 32
      = b₀.toNat ||| b₁.toNat <<< 8 ||| b₂.toNat <<< 16 ||| b₃.toNat <<< 24 := by
        rw [h8, h16, h24]
    _ = b₀.toNat + b₁.toNat * 2 ^ 8 + b₂.toNat * 2 ^ 16 + b₃.toNat * 2 ^ 24 := by
        have hlow₁ : b₀.toNat + b₁.toNat * 2 ^ 8 < 2 ^ 16 := by omega
        have hlow₂ : b₀.toNat + b₁.toNat * 2 ^ 8 + b₂.toNat * 2 ^ 16 < 2 ^ 24 := by omega
        rw [or_shiftLeft_eq_add h₀, or_shiftLeft_eq_add hlow₁, or_shiftLeft_eq_add hlow₂]

/-- A byte of the length field. -/
theorem toNat_byte (len k : UInt32) (n : Nat) (hk : k.toNat % 32 = n) :
    ((len >>> k) &&& 0xFF).toUInt8.toNat = len.toNat / 2 ^ n % 256 := by
  rw [UInt32.toNat_toUInt8, UInt32.toNat_and, UInt32.toNat_shiftRight, Nat.shiftRight_eq_div_pow,
    hk]
  have hmask : (0xFF : UInt32).toNat = 2 ^ 8 - 1 := rfl
  rw [hmask, Nat.and_two_pow_sub_one_eq_mod, Nat.mod_mod]

/-- The four digits of a length. -/
theorem map_toNat_writeLengthLE (len : UInt32) :
    (writeLengthLE len).map UInt8.toNat =
      [len.toNat % 256, len.toNat / 2 ^ 8 % 256, len.toNat / 2 ^ 16 % 256,
        len.toNat / 2 ^ 24 % 256] := by
  have h0 := toNat_byte len 0 0 rfl
  rw [UInt32.shiftRight_zero, Nat.pow_zero, Nat.div_one] at h0
  simp only [writeLengthLE, List.map_cons, List.map_nil, h0, toNat_byte len 8 8 rfl,
    toNat_byte len 16 16 rfl, toNat_byte len 24 24 rfl]

/-- **The length field holds its value.** -/
theorem readLengthLE_of_write {len : UInt32} {b₀ b₁ b₂ b₃ : UInt8}
    (h : writeLengthLE len = [b₀, b₁, b₂, b₃]) : readLengthLE b₀ b₁ b₂ b₃ = len := by
  have hdigits := map_toNat_writeLengthLE len
  simp only [h, List.map_cons, List.map_nil, List.cons.injEq, and_true] at hdigits
  obtain ⟨h₀, h₁, h₂, h₃⟩ := hdigits
  have hlen := len.toNat_lt
  apply UInt32.toNat.inj
  rw [toNat_readLengthLE, h₀, h₁, h₂, h₃]
  omega

/-- **The value determines the length field.** -/
theorem writeLengthLE_readLengthLE (b₀ b₁ b₂ b₃ : UInt8) :
    writeLengthLE (readLengthLE b₀ b₁ b₂ b₃) = [b₀, b₁, b₂, b₃] := by
  have h₀ := b₀.toNat_lt
  have h₁ := b₁.toNat_lt
  have h₂ := b₂.toNat_lt
  have h₃ := b₃.toNat_lt
  apply List.map_injective_iff.mpr (fun _ _ => UInt8.toNat.inj)
  rw [map_toNat_writeLengthLE, toNat_readLengthLE]
  simp only [List.map_cons, List.map_nil, List.cons.injEq, and_true]
  omega

/-! ## Frames -/

/-- A payload with its length in front. -/
def frame (payload : Bytes) : Bytes := writeLengthLE (UInt32.ofNat payload.length) ++ payload

@[simp] theorem length_frame (payload : Bytes) : (frame payload).length = payload.length + 4 := by
  simp [frame, Nat.add_comm]

/-- What the front of a stream holds. -/
inductive Cut
  | incomplete
  | oversized
  | frame (payload rest : Bytes)
deriving DecidableEq, Repr

/-- Cut one frame off the front of a stream. -/
def cutFrame (cap : UInt32) : Bytes → Cut
  | b₀ :: b₁ :: b₂ :: b₃ :: body =>
    let len := readLengthLE b₀ b₁ b₂ b₃
    if len > cap then .oversized
    else if body.length < len.toNat then .incomplete
    else .frame (body.take len.toNat) (body.drop len.toNat)
  | _ => .incomplete

variable {cap : UInt32}

/-- The length field in front of a stream, read back. -/
theorem cutFrame_writeLengthLE (len : UInt32) (body : Bytes) :
    cutFrame cap (writeLengthLE len ++ body) =
      if len > cap then .oversized
      else if body.length < len.toNat then .incomplete
      else .frame (body.take len.toNat) (body.drop len.toNat) := by
  have hread : readLengthLE _ _ _ _ = len := readLengthLE_of_write rfl
  simp only [writeLengthLE, List.cons_append, List.nil_append, cutFrame]
  rw [hread]

/-- A frame within the cap is cut off as it was put there. -/
theorem cutFrame_frame {payload : Bytes} (hfits : payload.length ≤ cap.toNat) (rest : Bytes) :
    cutFrame cap (frame payload ++ rest) = .frame payload rest := by
  have hlen : (UInt32.ofNat payload.length).toNat = payload.length := by
    have hcap := cap.toNat_lt
    rw [UInt32.toNat_ofNat']
    exact Nat.mod_eq_of_lt (by omega)
  have hle : ¬ UInt32.ofNat payload.length > cap := by
    rw [gt_iff_lt, UInt32.lt_iff_toNat_lt, hlen]
    omega
  rw [frame, List.append_assoc, cutFrame_writeLengthLE, if_neg hle, hlen,
    if_neg (by rw [List.length_append]; omega)]
  simp

/-- **Whatever is cut off was a frame** within the cap. -/
theorem eq_frame_of_cutFrame {stream payload rest : Bytes}
    (h : cutFrame cap stream = .frame payload rest) :
    stream = frame payload ++ rest ∧ payload.length ≤ cap.toNat := by
  unfold cutFrame at h
  split at h
  · rename_i b₀ b₁ b₂ b₃ body
    simp only at h
    split at h
    · cases h
    · rename_i hcap
      split at h
      · cases h
      · rename_i hbody
        cases h
        have hlen : (body.take (readLengthLE b₀ b₁ b₂ b₃).toNat).length =
            (readLengthLE b₀ b₁ b₂ b₃).toNat := by
          rw [List.length_take]
          omega
        refine ⟨?_, ?_⟩
        · rw [frame, hlen, UInt32.ofNat_toNat, writeLengthLE_readLengthLE]
          simp
        · rw [hlen]
          rw [gt_iff_lt, UInt32.lt_iff_toNat_lt] at hcap
          omega
  · cases h

/-- An oversized length stays oversized however the stream goes on. -/
theorem cutFrame_oversized_append {stream : Bytes} (h : cutFrame cap stream = .oversized)
    (more : Bytes) : cutFrame cap (stream ++ more) = .oversized := by
  unfold cutFrame at h
  split at h
  · simp only at h
    split at h
    · rename_i hcap
      simp [cutFrame, hcap]
    · split at h <;> cases h
  · cases h

/-! ## The frames of a stream -/

/-- The stream is `frames`, none longer than `cap`, and then `rest`, off which
no further frame can be cut. -/
structure Framed (cap : UInt32) (stream : Bytes) (frames : List Bytes) (rest : Bytes) : Prop where
  eq : stream = frames.flatMap frame ++ rest
  fits : ∀ payload ∈ frames, payload.length ≤ cap.toNat
  stuck : ∀ payload rest', cutFrame cap rest ≠ .frame payload rest'

/-- **A stream has one decomposition** only. -/
theorem Framed.unique {stream rest rest' : Bytes} {frames frames' : List Bytes}
    (h : Framed cap stream frames rest) (h' : Framed cap stream frames' rest') :
    frames = frames' ∧ rest = rest' := by
  induction frames generalizing stream frames' with
  | nil =>
      have hstream : stream = rest := h.eq
      cases frames' with
      | nil => exact ⟨rfl, hstream.symm.trans h'.eq⟩
      | cons payload frames' =>
          have hcut := cutFrame_frame (h'.fits payload (by simp)) (frames'.flatMap frame ++ rest')
          rw [← List.append_assoc, ← List.flatMap_cons, ← h'.eq, hstream] at hcut
          exact absurd hcut (h.stuck _ _)
  | cons payload frames ih =>
      have hcut := cutFrame_frame (h.fits payload (by simp)) (frames.flatMap frame ++ rest)
      rw [← List.append_assoc, ← List.flatMap_cons, ← h.eq] at hcut
      cases frames' with
      | nil =>
          have hstream : stream = rest' := h'.eq
          rw [hstream] at hcut
          exact absurd hcut (h'.stuck _ _)
      | cons payload' frames' =>
          have hcut' := cutFrame_frame (h'.fits payload' (by simp))
            (frames'.flatMap frame ++ rest')
          rw [← List.append_assoc, ← List.flatMap_cons, ← h'.eq, hcut] at hcut'
          obtain ⟨rfl, htail⟩ := Cut.frame.inj hcut'
          have hrec : Framed cap (frames.flatMap frame ++ rest) frames rest :=
            ⟨rfl, fun p hp => h.fits p (by simp [hp]), h.stuck⟩
          obtain ⟨rfl, rfl⟩ := ih hrec
            ⟨htail, fun p hp => h'.fits p (by simp [hp]), h'.stuck⟩
          exact ⟨rfl, rfl⟩

/-- **More input, more frames**: what the longer rest decomposes into is
appended. -/
theorem Framed.append {stream rest more rest' : Bytes} {frames frames' : List Bytes}
    (h : Framed cap stream frames rest) (hmore : Framed cap (rest ++ more) frames' rest') :
    Framed cap (stream ++ more) (frames ++ frames') rest' where
  eq := by
    rw [h.eq, List.append_assoc, hmore.eq, List.flatMap_append, List.append_assoc]
  fits payload hmem := by
    rcases List.mem_append.mp hmem with hold | hnew
    · exact h.fits payload hold
    · exact hmore.fits payload hnew
  stuck := hmore.stuck

/-- After an oversized length no input makes a difference. -/
theorem Framed.oversized {stream rest : Bytes} {frames : List Bytes}
    (h : Framed cap stream frames rest) (hrest : cutFrame cap rest = .oversized) (more : Bytes) :
    Framed cap (stream ++ more) frames (rest ++ more) where
  eq := by rw [h.eq, List.append_assoc]
  fits := h.fits
  stuck payload rest' := by
    rw [cutFrame_oversized_append hrest]
    exact Cut.noConfusion

/-- Parse a whole stream at once. -/
def parseFrames (cap : UInt32) (stream : Bytes) : List Bytes × Bytes :=
  match _h : cutFrame cap stream with
  | .frame payload rest =>
    let parsed := parseFrames cap rest
    (payload :: parsed.1, parsed.2)
  | _ => ([], stream)
termination_by stream.length
decreasing_by
  rw [(eq_frame_of_cutFrame _h).1, List.length_append, length_frame]
  omega

/-- **Every stream decomposes**, and parsing it at once finds how. -/
theorem framed_parseFrames (stream : Bytes) :
    Framed cap stream (parseFrames cap stream).1 (parseFrames cap stream).2 := by
  fun_induction parseFrames cap stream with
  | case1 stream payload rest hcut parsed ih =>
      obtain ⟨hstream, hfits⟩ := eq_frame_of_cutFrame hcut
      refine ⟨?_, ?_, ih.stuck⟩
      · rw [List.flatMap_cons, List.append_assoc, ← ih.eq]
        exact hstream
      · simp only [List.mem_cons, forall_eq_or_imp]
        exact ⟨hfits, ih.fits⟩
  | case2 stream hcut =>
      exact ⟨rfl, by simp, hcut⟩

end Library
