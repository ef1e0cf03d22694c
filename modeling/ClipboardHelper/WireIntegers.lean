import ClipboardHelper.Library.Base128
import ClipboardHelper.ProtoWire

/-!
# The integers of the wire format

What `ReadVarint` and `ReadTag` return, compared with the number that the
bytes denote.  `readVarint_eq` says what the loop does with any buffer: it
rejects a numeral that the buffer cuts off or that has more than ten bytes,
and keeps 64 bits of every other one.  Only the bytes of the numeral enter,
so the reader sees the same wherever they stand.

The tenth group is shifted by 63 and leaves one of its seven bits in the
result (`varintExact_iff`); a tag loses everything from the sixth group on,
since its field number is narrowed to 32 bits (`tagExact_iff`).
`proto_wire.cpp` of the Linux helper has the same two functions.
-/

namespace WireIntegers

open Library Library.Base128 ProtoWire

/-- The bytes that a reader has passed. -/
def consumed (before after : Reader) : Bytes :=
  (before.data.drop before.pos).take (after.pos - before.pos)

/-- The numeral at the position of a reader. -/
def numeralAt (r : Reader) : Option Bytes := numeral (r.data.drop r.pos)

/-! ## What the loop does -/

/-- Joining the next group to an accumulator that has not reached it: what
does not fit into 64 bits is lost. -/
theorem toNat_join_wrap {acc g : UInt64} {shift : Nat} (hacc : acc.toNat < 2 ^ shift)
    (hshift : shift < 64) :
    (acc ||| (g <<< UInt64.ofNat shift)).toNat = (acc.toNat + g.toNat * 2 ^ shift) % 2 ^ 64 := by
  have hs : (UInt64.ofNat shift).toNat % 64 = shift := by
    rw [UInt64.toNat_ofNat']
    omega
  have hpow : 2 ^ 64 = 2 ^ shift * 2 ^ (64 - shift) := by
    rw [← Nat.pow_add]
    congr 1
    omega
  -- the bits of the group that stay
  have hkept : g.toNat * 2 ^ shift % 2 ^ 64 = 2 ^ shift * (g.toNat % 2 ^ (64 - shift)) := by
    rw [hpow, Nat.mul_comm, Nat.mul_mod_mul_left]
  have hjoined : 2 ^ shift * (g.toNat % 2 ^ (64 - shift)) + acc.toNat < 2 ^ 64 := by
    have hlt : g.toNat % 2 ^ (64 - shift) + 1 ≤ 2 ^ (64 - shift) :=
      Nat.mod_lt _ (Nat.two_pow_pos _)
    calc 2 ^ shift * (g.toNat % 2 ^ (64 - shift)) + acc.toNat
        < 2 ^ shift * (g.toNat % 2 ^ (64 - shift) + 1) := by
          rw [Nat.mul_succ]
          omega
      _ ≤ 2 ^ shift * 2 ^ (64 - shift) := Nat.mul_le_mul_left _ hlt
      _ = 2 ^ 64 := hpow.symm
  rw [UInt64.toNat_or, UInt64.toNat_shiftLeft, hs, Nat.shiftLeft_eq, hkept, Nat.or_comm,
    ← Nat.two_pow_add_eq_or_of_lt hacc, Nat.add_mod, hkept, Nat.mod_eq_of_lt acc.toNat_lt,
    Nat.add_comm acc.toNat, Nat.mod_eq_of_lt hjoined]

/-- The loop with `n` rounds left: by induction on the rounds, with the
groups already read in the accumulator. -/
theorem readVarintLoop_eq (data : Bytes) (n : Nat) :
    ∀ (pos shift : Nat) (acc : UInt64), shift + 7 * n = 70 → acc.toNat < 2 ^ shift →
      readVarintLoop data n pos acc shift =
        match numeral (data.drop pos) with
        | none => none
        | some num =>
          if num.length ≤ n then
            some (UInt64.ofNat (acc.toNat + denotes num * 2 ^ shift), pos + num.length)
          else none := by
  induction n with
  | zero =>
      intro pos shift acc _ _
      rw [readVarintLoop]
      cases hnum : numeral (data.drop pos) with
      | none => rfl
      | some num =>
          have hpos := length_numeral_pos hnum
          simp only
          rw [if_neg (by omega)]
  | succ n ih =>
      intro pos shift acc hshift hacc
      rw [readVarintLoop]
      cases hrest : data.drop pos with
      | nil =>
          have hnone : data[pos]? = none := by
            rw [List.getElem?_eq_none_iff]
            exact List.drop_eq_nil_iff.mp hrest
          rw [hnone]
          rfl
      | cons b rest =>
          have hwrap := toNat_join_wrap (g := (b &&& 0x7F).toUInt64) hacc (by omega)
          rw [toNat_low_seven] at hwrap
          simp only [getElem?_of_drop_eq_cons hrest, high_bit_clear_iff]
          by_cases hb : b.toNat < 128
          · -- the last group
            rw [if_pos hb, numeral_cons_last hb]
            simp only [List.length_singleton, denotes_cons, denotes_nil, Nat.mul_zero, Nat.add_zero]
            rw [if_pos (by omega), ← UInt64.toNat_inj.mp (hwrap.trans UInt64.toNat_ofNat'.symm)]
          · rw [if_neg hb, numeral_cons_more hb]
            have hnext : data.drop (pos + 1) = rest := by
              rw [← List.drop_drop, hrest, List.drop_one, List.tail_cons]
            by_cases hlast : 63 < shift + 7
            · -- the tenth byte says that an eleventh follows
              have hn : n = 0 := by omega
              subst hn
              rw [if_pos hlast]
              cases hnum : numeral rest with
              | none => rfl
              | some num =>
                  have hpos := length_numeral_pos hnum
                  simp only [Option.map_some, List.length_cons]
                  rw [if_neg (by omega)]
            · rw [if_neg hlast]
              have hpow : 2 ^ (shift + 7) = 2 ^ shift * 128 := Nat.pow_add 2 shift 7
              have hmod : b.toNat % 128 < 128 := Nat.mod_lt _ (by omega)
              have hfit : acc.toNat + b.toNat % 128 * 2 ^ shift < 2 ^ (shift + 7) := by
                rw [hpow]
                nlinarith
              have hwide : 2 ^ (shift + 7) ≤ 2 ^ 64 :=
                Nat.pow_le_pow_right (by omega) (by omega)
              rw [Nat.mod_eq_of_lt (hfit.trans_le hwide)] at hwrap
              rw [ih (pos + 1) (shift + 7) _ (by omega) (hwrap ▸ hfit), hnext, hwrap]
              cases numeral rest with
              | none => rfl
              | some num =>
                  simp only [Option.map_some, List.length_cons, Nat.add_le_add_iff_right,
                    denotes_cons, hpow]
                  have hsum : acc.toNat + b.toNat % 128 * 2 ^ shift +
                      denotes num * (2 ^ shift * 128) =
                      acc.toNat + (b.toNat % 128 + 128 * denotes num) * 2 ^ shift := by
                    ring
                  have hpos : pos + 1 + num.length = pos + (num.length + 1) := by omega
                  rw [hsum, hpos]

/-- **`ReadVarint` on any buffer**: a numeral of at most ten bytes is read,
and 64 bits of it are kept. -/
theorem readVarint_eq (r : Reader) :
    r.readVarint =
      match numeralAt r with
      | none => none
      | some num =>
        if num.length ≤ 10 then
          some (UInt64.ofNat (denotes num), { r with pos := r.pos + num.length })
        else none := by
  have hloop := readVarintLoop_eq r.data 10 r.pos 0 0 rfl (by decide)
  rw [Reader.readVarint, hloop, numeralAt]
  cases numeral (r.data.drop r.pos) with
  | none => rfl
  | some num =>
      by_cases hlen : num.length ≤ 10
      · simp [hlen]
      · simp [hlen]

/-- `ReadTag` on any buffer: the three low bits, and 32 of the bits above
them. -/
theorem readTag_eq (r : Reader) :
    r.readTag =
      match numeralAt r with
      | none => none
      | some num =>
        if num.length ≤ 10 then
          some (UInt32.ofNat (denotes num % 2 ^ 64 / 8), ⟨UInt8.ofNat (denotes num % 8)⟩,
            { r with pos := r.pos + num.length })
        else none := by
  rw [Reader.readTag, readVarint_eq]
  cases numeralAt r with
  | none => rfl
  | some num =>
      by_cases hlen : num.length ≤ 10
      · have hfield : (UInt64.ofNat (denotes num) >>> 3).toUInt32 =
            UInt32.ofNat (denotes num % 2 ^ 64 / 8) := by
          apply UInt32.toNat_inj.mp
          rw [UInt64.toNat_toUInt32, UInt64.toNat_shiftRight, UInt64.toNat_ofNat',
            UInt32.toNat_ofNat']
          simp only [UInt64.reduceToNat, Nat.reduceMod, Nat.shiftRight_eq_div_pow]
        have hwire : (UInt64.ofNat (denotes num) &&& 0x07).toUInt8 =
            UInt8.ofNat (denotes num % 8) := by
          apply UInt8.toNat_inj.mp
          have hmask := Nat.and_two_pow_sub_one_eq_mod (denotes num % 2 ^ 64) 3
          rw [UInt64.toNat_toUInt8, UInt64.toNat_and, UInt64.toNat_ofNat', UInt8.toNat_ofNat']
          change ((denotes num % 2 ^ 64) &&& (2 ^ 3 - 1)) % 2 ^ 8 = _
          rw [hmask]
          omega
        simp only [if_pos hlen, hfield, hwire]
      · simp only [if_neg hlen]

/-! ## Exactness -/

/-- `ReadVarint` is exact at a position: what it returns is what the bytes
it consumed denote, and a number beyond 64 bits is rejected. -/
def VarintExact (r : Reader) : Prop :=
  (∀ value after, r.readVarint = some (value, after) →
    value.toNat = denotes (consumed r after)) ∧
  (∀ num, numeralAt r = some num → 2 ^ 64 ≤ denotes num → r.readVarint = none)

/-- `ReadTag` is exact at a position: field and wire type are what the bytes
denote, and a field number beyond 32 bits is rejected. -/
def TagExact (r : Reader) : Prop :=
  (∀ field wire after, r.readTag = some (field, wire, after) →
    8 * field.toNat + wire.value.toNat = denotes (consumed r after)) ∧
  (∀ num, numeralAt r = some num → 2 ^ 32 ≤ denotes num / 8 → r.readTag = none)

/-- The numeral at the position has ten bytes of which the last exceeds
one. -/
def TenthByteTooLarge (r : Reader) : Prop :=
  ∃ num, numeralAt r = some num ∧ num.length = 10 ∧ ∃ b ∈ num.getLast?, 1 < b.toNat

/-- The numeral at the position has at most ten bytes, and one of them from
the sixth on has a non-zero group. -/
def GroupBehindFifth (r : Reader) : Prop :=
  ∃ num, numeralAt r = some num ∧ num.length ≤ 10 ∧ ∃ b ∈ num.drop 5, b.toNat % 128 ≠ 0

/-- What a reader passes when it moves over the numeral. -/
theorem consumed_numeral {r : Reader} {num : Bytes} (h : numeralAt r = some num) :
    consumed r { r with pos := r.pos + num.length } = num := by
  obtain ⟨rest, hrest, -⟩ := numeral_eq_some h
  simp only [consumed, hrest, Nat.add_sub_cancel_left, List.take_left]

/-- The tenth group of a number of ten groups decides whether it fits into 64
bits: it counts with `2 ^ 63`. -/
theorem denotes_lt_two_pow_64_iff {r : Reader} {num : Bytes} (h : numeralAt r = some num)
    (hlen : num.length ≤ 10) : denotes num < 2 ^ 64 ↔ ¬ TenthByteTooLarge r := by
  have hcond : TenthByteTooLarge r ↔ num.length = 10 ∧ ∃ b ∈ num.getLast?, 1 < b.toNat := by
    rw [TenthByteTooLarge, h]
    simp
  obtain ⟨init, last, rfl, hlast⟩ := numeral_last h
  have hcut := denotes_append init [last]
  have hlow := denotes_lt init
  simp only [denotes_cons, denotes_nil, Nat.mod_eq_of_lt hlast, Nat.mul_zero,
    Nat.add_zero] at hcut
  simp only [List.length_append, List.length_singleton] at hlen hcond
  simp only [List.getLast?_append, List.getLast?_singleton, Option.mem_def, Option.some_or,
    Option.some.injEq, exists_eq_left'] at hcond
  rw [hcond, hcut]
  by_cases hten : init.length = 9
  · rw [hten] at hlow ⊢
    omega
  · have hpow : 128 ^ init.length ≤ 128 ^ 8 := Nat.pow_le_pow_right (by omega) (by omega)
    have hterm : 128 ^ init.length * last.toNat ≤ 128 ^ 8 * 127 :=
      Nat.mul_le_mul hpow (by omega)
    constructor
    · intro _ hlarge
      omega
    · intro _
      omega

/-- The same for a field number: the groups from the sixth on count with
`2 ^ 35`. -/
theorem field_lt_two_pow_32_iff {r : Reader} {num : Bytes} (h : numeralAt r = some num)
    (hlen : num.length ≤ 10) : denotes num / 8 < 2 ^ 32 ↔ ¬ GroupBehindFifth r := by
  have hcond : GroupBehindFifth r ↔
      num.length ≤ 10 ∧ ∃ b ∈ num.drop 5, b.toNat % 128 ≠ 0 := by
    rw [GroupBehindFifth, h]
    simp
  have hsize := denotes_lt_pow 5 num
  have hfield : denotes num / 8 < 2 ^ 32 ↔ denotes num < 128 ^ 5 := by omega
  rw [hfield, hsize, hcond]
  constructor
  · intro hzero hbad
    obtain ⟨b, hb, hne⟩ := hbad.2
    exact hne (hzero b hb)
  · intro hgood b hb
    by_contra hne
    exact hgood ⟨hlen, b, hb, hne⟩

/-- Either both readers take a numeral of at most ten bytes, or both reject
and there is none. -/
theorem read_cases (r : Reader) :
    (∃ num, numeralAt r = some num ∧ num.length ≤ 10
      ∧ r.readVarint =
        some (UInt64.ofNat (denotes num), { r with pos := r.pos + num.length })
      ∧ r.readTag = some (UInt32.ofNat (denotes num % 2 ^ 64 / 8),
          ⟨UInt8.ofNat (denotes num % 8)⟩, { r with pos := r.pos + num.length }))
    ∨ ((∀ num, numeralAt r = some num → ¬ num.length ≤ 10)
      ∧ r.readVarint = none ∧ r.readTag = none) := by
  have hvarint := readVarint_eq r
  have htag := readTag_eq r
  cases hnum : numeralAt r with
  | none =>
      rw [hnum] at hvarint htag
      exact .inr ⟨by simp, hvarint, htag⟩
  | some num =>
      rw [hnum] at hvarint htag
      by_cases hlen : num.length ≤ 10
      · simp only [if_pos hlen] at hvarint htag
        exact .inl ⟨num, rfl, hlen, hvarint, htag⟩
      · simp only [if_neg hlen] at hvarint htag
        refine .inr ⟨?_, hvarint, htag⟩
        intro num' hnum'
        rw [Option.some.injEq] at hnum'
        exact hnum' ▸ hlen

theorem varintExact_iff (r : Reader) : VarintExact r ↔ ¬ TenthByteTooLarge r := by
  obtain ⟨num, hnum, hlen, hread, -⟩ | ⟨hnone, hread, -⟩ := read_cases r
  · rw [← denotes_lt_two_pow_64_iff hnum hlen, VarintExact, hread, hnum]
    constructor
    · intro hexact
      by_contra hlarge
      cases hexact.2 num rfl (by omega)
    · intro hsmall
      refine ⟨?_, ?_⟩
      · intro value after hsome
        rw [Option.some.injEq, Prod.mk.injEq] at hsome
        obtain ⟨rfl, rfl⟩ := hsome
        rw [consumed_numeral hnum]
        exact UInt64.toNat_ofNat_of_lt' hsmall
      · intro num' hnum' hlarge
        rw [Option.some.injEq] at hnum'
        subst hnum'
        omega
  · have hshort : ¬ TenthByteTooLarge r := by
      intro ⟨num, hnum, hten, _⟩
      exact hnone num hnum hten.le
    simp [VarintExact, hread, hshort]

theorem tagExact_iff (r : Reader) : TagExact r ↔ ¬ GroupBehindFifth r := by
  obtain ⟨num, hnum, hlen, -, hread⟩ | ⟨hnone, -, hread⟩ := read_cases r
  · rw [← field_lt_two_pow_32_iff hnum hlen, TagExact, hread, hnum]
    constructor
    · intro hexact
      by_contra hlarge
      cases hexact.2 num rfl (by omega)
    · intro hsmall
      have hwide : denotes num < 2 ^ 64 := by omega
      refine ⟨?_, ?_⟩
      · intro field wire after hsome
        simp only [Option.some.injEq, Prod.mk.injEq] at hsome
        obtain ⟨rfl, rfl, rfl⟩ := hsome
        rw [consumed_numeral hnum, Nat.mod_eq_of_lt hwide, UInt32.toNat_ofNat_of_lt' hsmall]
        simp only [UInt8.toNat_ofNat']
        omega
      · intro num' hnum' hlarge
        rw [Option.some.injEq] at hnum'
        subst hnum'
        omega
  · have hshort : ¬ GroupBehindFifth r := by
      intro ⟨num, hnum, hlen, _⟩
      exact hnone num hnum hlen
    simp [TagExact, hread, hshort]

/-- **When the integers of the wire are exact.**  At every position of every
buffer: `ReadVarint` returns the number its bytes denote and rejects what
does not fit, unless the numeral has ten bytes and the last exceeds one;
`ReadTag` does, unless a numeral of at most ten bytes has a non-zero group
behind the fifth. -/
theorem wire_integers_exact_iff (r : Reader) :
    (VarintExact r ↔ ¬ TenthByteTooLarge r) ∧ (TagExact r ↔ ¬ GroupBehindFifth r) :=
  ⟨varintExact_iff r, tagExact_iff r⟩

/-- Nine bytes of zero groups and a tenth one of value two denote `2 ^ 64`;
the reader returns zero.  A tag with a sixth group denotes field `2 ^ 32 + 1`
and is taken for field 1. -/
theorem wire_integers_wrap :
    ∃ r s : Reader, ¬ VarintExact r ∧ ¬ TagExact s
      ∧ r.readVarint = some (0, ⟨r.data, 10⟩)
      ∧ s.readTag = some (1, .varint, ⟨s.data, 6⟩) := by
  refine ⟨⟨[0x80, 0x80, 0x80, 0x80, 0x80, 0x80, 0x80, 0x80, 0x80, 0x02], 0⟩,
    ⟨[0x88, 0x80, 0x80, 0x80, 0x80, 0x01], 0⟩, ?_, ?_, by decide, by decide⟩
  · rw [varintExact_iff, not_not]
    exact ⟨_, rfl, rfl, 2, rfl, by decide⟩
  · rw [tagExact_iff, not_not]
    exact ⟨_, rfl, by decide, 1, by decide, by decide⟩

end WireIntegers
