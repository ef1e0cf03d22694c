import ClipboardHelper.CodecRoundTrip
import ClipboardHelper.WireIntegers

/-!
# Varints are canonical

`WriteVarint` writes the shortest bytes on which `ReadVarint` returns the
value, and `ReadVarint` takes exactly these bytes off a buffer.  A reader
accepts longer ones too, and on ten bytes it drops what exceeds 64 bits
(`wire_integers_wrap`); neither makes a string shorter than the writer's.

A signed field goes through 64 bits: the sign extension is written, and the
narrowing of what is read gives the value back.
-/

namespace WireIntegers

open Library Library.Base128 ProtoWire

/-- **The writer is the shortest**: a reader that returns a value has passed
at least as many bytes as the writer writes for it. -/
theorem length_varintBytes_le_consumed {r after : Reader} {value : UInt64}
    (h : r.readVarint = some (value, after)) :
    (varintBytes 9 value).length ≤ after.pos - r.pos := by
  obtain ⟨num, hnum, hlen, hread, -⟩ | ⟨-, hread, -⟩ := read_cases r
  · rw [hread, Option.some.injEq, Prod.mk.injEq] at h
    obtain ⟨rfl, rfl⟩ := h
    rw [Nat.add_sub_cancel_left]
    by_cases hten : num.length = 10
    · rw [hten]
      exact length_varintBytes_le 9 _
    · -- fewer than ten groups denote the value itself
      obtain ⟨k, hk⟩ : ∃ k, num.length = k + 1 :=
        ⟨num.length - 1, by have := length_numeral_pos hnum; omega⟩
      have hsize := denotes_lt num
      have hpow : 128 ^ num.length = 2 ^ (7 * (k + 1)) := by
        rw [hk, Nat.pow_mul]
      have hwide : 2 ^ (7 * (k + 1)) ≤ 2 ^ 64 := Nat.pow_le_pow_right (by omega) (by omega)
      rw [hk, length_varintBytes_le_iff 9 k _ (by omega),
        UInt64.toNat_ofNat_of_lt' (by rw [hpow] at hsize; exact hsize.trans_le hwide), ← hpow]
      exact hsize
  · rw [hread] at h
    cases h

/-- A reader that returns has passed no more than the buffer. -/
theorem readVarint_pos_le {r after : Reader} {value : UInt64}
    (h : r.readVarint = some (value, after)) (hpos : r.pos ≤ r.data.length) :
    after.pos ≤ r.data.length := by
  obtain ⟨num, hnum, -, hread, -⟩ | ⟨-, hread, -⟩ := read_cases r
  · rw [hread, Option.some.injEq, Prod.mk.injEq] at h
    obtain ⟨-, rfl⟩ := h
    obtain ⟨rest, hrest, -⟩ := numeral_eq_some hnum
    have hroom := congrArg List.length hrest
    rw [List.length_drop, List.length_append] at hroom
    show r.pos + num.length ≤ r.data.length
    omega
  · rw [hread] at h
    cases h

/-- What is left behind a written varint is the rest. -/
theorem readVarint_writeVarint (value : UInt64) (rest : Bytes) :
    ∃ after, Reader.readVarint ⟨Writer.writeVarint [] value ++ rest, 0⟩ = some (value, after) ∧
      after.data.drop after.pos = rest := by
  have hdrop : (Writer.writeVarint [] value ++ rest).drop 0 = varintBytes 9 value ++ rest := rfl
  have hread := readVarint_complete (r := ⟨Writer.writeVarint [] value ++ rest, 0⟩) hdrop
  exact ⟨_, hread, drop_add_length hdrop⟩

/-- A byte string on which the reader returns is at least as long as the
writer's. -/
theorem length_writeVarint_le {s : Bytes} {value : UInt64} {after : Reader}
    (h : Reader.readVarint ⟨s, 0⟩ = some (value, after)) :
    (Writer.writeVarint [] value).length ≤ s.length := by
  have hconsumed := length_varintBytes_le_consumed h
  have hpos : after.pos ≤ s.length := readVarint_pos_le h (Nat.zero_le _)
  rw [Nat.sub_zero] at hconsumed
  exact hconsumed.trans hpos

/-- A field is left out for zero alone. -/
theorem writeInt32Field_eq_self_iff (w : Writer) (fieldNumber : UInt32) (x : Int32) :
    w.writeInt32Field fieldNumber x = w ↔ x = 0 := by
  rw [Writer.writeInt32Field]
  by_cases hx : x = 0
  · simp [hx]
  · rw [if_neg hx]
    constructor
    · intro hsame
      have hlength := congrArg List.length hsame
      have hpos := length_varintBytes_pos 9 x.toInt64.toUInt64
      simp only [Writer.writeTag, Writer.writeVarint, List.length_append] at hlength
      omega
    · exact fun hzero => absurd hzero hx

/-- A field that is written is read back as its number, the varint type, and
the sign extension of its value. -/
theorem readField_writeInt32Field (w : Writer) {fieldNumber : UInt32} {x : Int32} (rest : Bytes)
    (hfield : fieldNumber.toNat < 2 ^ 29) (hx : x ≠ 0) :
    ∃ behindTag after,
      Reader.readTag ⟨w.writeInt32Field fieldNumber x ++ rest, w.length⟩ =
        some (fieldNumber, .varint, behindTag) ∧
      behindTag.readVarint = some (x.toInt64.toUInt64, after) ∧
      after.data.drop after.pos = rest := by
  have hdrop : (w.writeInt32Field fieldNumber x ++ rest).drop w.length =
      varintBytes 9 (makeTag fieldNumber .varint).toUInt64 ++
        (varintBytes 9 x.toInt64.toUInt64 ++ rest) := by
    rw [Writer.writeInt32Field, if_neg hx]
    simp [Writer.writeTag, Writer.writeVarint]
  have htag := readTag_complete
    (r := ⟨w.writeInt32Field fieldNumber x ++ rest, w.length⟩) hfield (by decide) hdrop
  have hbehind := drop_add_length hdrop
  have hvarint := readVarint_complete
    (r := ⟨w.writeInt32Field fieldNumber x ++ rest,
      w.length + (varintBytes 9 (makeTag fieldNumber .varint).toUInt64).length⟩) hbehind
  exact ⟨_, _, htag, hvarint, drop_add_length hbehind⟩

/-- **Varints are canonical.**  A written varint is read back in front of any
rest, it takes one to ten bytes and no reader returns its value on fewer; and
a signed field comes back through its tag, its sign extension and the cast. -/
theorem varint_canonical :
    (∀ (value : UInt64) (rest : Bytes),
      (∃ after,
        Reader.readVarint ⟨Writer.writeVarint [] value ++ rest, 0⟩ = some (value, after) ∧
        after.data.drop after.pos = rest) ∧
      1 ≤ (Writer.writeVarint [] value).length ∧ (Writer.writeVarint [] value).length ≤ 10) ∧
    (∀ (value : UInt64) (s : Bytes) (after : Reader),
      Reader.readVarint ⟨s, 0⟩ = some (value, after) →
        (Writer.writeVarint [] value).length ≤ s.length) ∧
    ∀ (w : Writer) (fieldNumber : UInt32) (x : Int32) (rest : Bytes),
      fieldNumber.toNat < 2 ^ 29 →
        (w.writeInt32Field fieldNumber x = w ↔ x = 0) ∧
        (x ≠ 0 → ∃ behindTag value after,
          Reader.readTag ⟨w.writeInt32Field fieldNumber x ++ rest, w.length⟩ =
            some (fieldNumber, .varint, behindTag) ∧
          behindTag.readVarint = some (value, after) ∧
          after.data.drop after.pos = rest ∧
          value = x.toInt64.toUInt64 ∧ DispatchCodec.enumOfVarint value = x) := by
  refine ⟨?_, ?_, ?_⟩
  · intro value rest
    exact ⟨readVarint_writeVarint value rest, length_varintBytes_pos 9 value,
      length_varintBytes_le 9 value⟩
  · intro value s after h
    exact length_writeVarint_le h
  · intro w fieldNumber x rest hfield
    refine ⟨writeInt32Field_eq_self_iff w fieldNumber x, ?_⟩
    intro hx
    obtain ⟨behindTag, after, htag, hvarint, hrest⟩ :=
      readField_writeInt32Field w rest hfield hx
    exact ⟨behindTag, _, after, htag, hvarint, hrest, rfl,
      DispatchCodec.enumOfVarint_signExtend x⟩

/-- Minus one under field three, and a one of two bytes where one is enough. -/
theorem varint_canonical_minus_one :
    (∃ behindTag value after,
      Reader.readTag ⟨Writer.writeInt32Field [0x08, 0x01] 3 (-1) ++ [0x20], 2⟩ =
        some (3, .varint, behindTag) ∧
      behindTag.readVarint = some (value, after) ∧
      after.data.drop after.pos = [0x20] ∧
      value = (-1 : Int32).toInt64.toUInt64 ∧ DispatchCodec.enumOfVarint value = -1) ∧
    (Writer.writeVarint [] 1).length ≤ [(0x81 : UInt8), 0x00].length :=
  ⟨(varint_canonical.2.2 [0x08, 0x01] 3 (-1) [0x20] (by decide)).2 (by decide),
    varint_canonical.2.1 1 [0x81, 0x00] ⟨[0x81, 0x00], 2⟩ (by decide)⟩

end WireIntegers
