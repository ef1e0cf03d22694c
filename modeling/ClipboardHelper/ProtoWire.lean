import ClipboardHelper.Library.Bytes

/-!
# The protobuf wire primitives of the Windows helper

`proto_wire.cpp`, translated.  A `Writer` is the buffer it has filled so far;
a `Reader` is a buffer and a position.  Unsigned machine integers are Lean's
`UIntN`, so that shifts, masks and narrowing casts are those of the source.

A parser of `dispatch_codec.cpp` is a loop that reads a tag and hands the
field over; the loop is `parseFields`, and what a parser does with one field
is its parameter.  `Absorbs` is the compositional form of a round trip: a
piece of the input that the loop reads in full, and what it does to the
output.  Pieces concatenate (`Absorbs.append`), and a whole message is
`Absorbs.parse`.
-/

namespace ProtoWire

open Library

/-! ## Tags -/

/-- The three low bits of a tag.  The source casts any value below eight to
its enumeration, so the unnamed ones exist as well. -/
structure WireType where
  value : UInt8
deriving DecidableEq, Repr

namespace WireType

def varint : WireType := ⟨0⟩
def fixed64 : WireType := ⟨1⟩
def lengthDelim : WireType := ⟨2⟩
def startGroup : WireType := ⟨3⟩
def endGroup : WireType := ⟨4⟩
def fixed32 : WireType := ⟨5⟩

end WireType

/-- `MakeTag`. -/
def makeTag (fieldNumber : UInt32) (wire : WireType) : UInt32 :=
  (fieldNumber <<< 3) ||| wire.value.toUInt32

/-! ## Writer -/

/-- The bytes written so far. -/
abbrev Writer := Bytes

/-- The bytes of the `WriteVarint` loop.  A 64-bit value is below 128 after
nine rounds, which bounds the recursion. -/
def varintBytes : Nat → UInt64 → Bytes
  | 0, value => [value.toUInt8]
  | n + 1, value =>
    if 0x80 ≤ value then
      ((value &&& 0x7F) ||| 0x80).toUInt8 :: varintBytes n (value >>> 7)
    else [value.toUInt8]

namespace Writer

def writeVarint (w : Writer) (value : UInt64) : Writer :=
  w ++ varintBytes 9 value

def writeTag (w : Writer) (fieldNumber : UInt32) (wire : WireType) : Writer :=
  w.writeVarint (makeTag fieldNumber wire).toUInt64

def writeInt32Field (w : Writer) (fieldNumber : UInt32) (value : Int32) : Writer :=
  if value = 0 then w
  else (w.writeTag fieldNumber .varint).writeVarint value.toInt64.toUInt64

def writeUint64Field (w : Writer) (fieldNumber : UInt32) (value : UInt64) : Writer :=
  if value = 0 then w
  else (w.writeTag fieldNumber .varint).writeVarint value

def writeBoolField (w : Writer) (fieldNumber : UInt32) (value : Bool) : Writer :=
  if !value then w
  else (w.writeTag fieldNumber .varint).writeVarint (if value then 1 else 0)

def writeEnumField (w : Writer) (fieldNumber : UInt32) (value : Int32) : Writer :=
  w.writeInt32Field fieldNumber value

/-- `WriteSubMessageField`: the length and the body, also when it is empty. -/
def writeSubMessageField (w : Writer) (fieldNumber : UInt32) (sub : Bytes) : Writer :=
  (w.writeTag fieldNumber .lengthDelim).writeVarint (UInt64.ofNat sub.length) ++ sub

/-- `WriteBytesField`: as a sub-message, but an empty value is left out. -/
def writeBytesField (w : Writer) (fieldNumber : UInt32) (value : Bytes) : Writer :=
  if value = [] then w else w.writeSubMessageField fieldNumber value

/-- `WriteStringField` writes what `WriteBytesField` writes. -/
def writeStringField (w : Writer) (fieldNumber : UInt32) (value : Bytes) : Writer :=
  w.writeBytesField fieldNumber value

end Writer

/-! ## Reader -/

/-- A buffer and the position of the next byte. -/
structure Reader where
  data : Bytes
  pos : Nat := 0
deriving DecidableEq, Repr

/-- The `ReadVarint` loop.  The shift passes 63 after ten bytes, so ten
rounds are never too few. -/
def readVarintLoop (data : Bytes) : Nat → Nat → UInt64 → Nat → Option (UInt64 × Nat)
  | 0, _, _, _ => none
  | n + 1, pos, value, shift =>
    match data[pos]? with
    | none => none
    | some b =>
      let value' := value ||| ((b &&& 0x7F).toUInt64 <<< UInt64.ofNat shift)
      if b &&& 0x80 = 0 then some (value', pos + 1)
      else if 63 < shift + 7 then none
      else readVarintLoop data n (pos + 1) value' (shift + 7)

namespace Reader

def eof (r : Reader) : Bool := decide (r.data.length ≤ r.pos)

def remaining (r : Reader) : Nat := r.data.length - r.pos

def readVarint (r : Reader) : Option (UInt64 × Reader) :=
  match readVarintLoop r.data 10 r.pos 0 0 with
  | none => none
  | some (value, pos) => some (value, { r with pos := pos })

def readTag (r : Reader) : Option (UInt32 × WireType × Reader) :=
  match r.readVarint with
  | none => none
  | some (tag, r) => some ((tag >>> 3).toUInt32, ⟨(tag &&& 0x07).toUInt8⟩, r)

/-- `ReadLengthDelim`: the slice and the reader behind it. -/
def readLengthDelim (r : Reader) : Option (Bytes × Reader) :=
  match r.readVarint with
  | none => none
  | some (len, r) =>
    if r.remaining < len.toNat then none
    else some ((r.data.drop r.pos).take len.toNat, { r with pos := r.pos + len.toNat })

def skipField (r : Reader) (wire : WireType) : Option Reader :=
  if wire = .varint then r.readVarint.map Prod.snd
  else if wire = .fixed64 then
    if r.remaining < 8 then none else some { r with pos := r.pos + 8 }
  else if wire = .lengthDelim then r.readLengthDelim.map Prod.snd
  else if wire = .fixed32 then
    if r.remaining < 4 then none else some { r with pos := r.pos + 4 }
  else none

end Reader

/-- What a parser does with one field: the output so far, the tag, and the
reader behind the tag. -/
abbrev OnField (α : Type) := α → UInt32 → WireType → Reader → Option (α × Reader)

/-- The loop of every parser: `while (!r.eof())`, read a tag, handle the
field.  A round consumes at least one byte, so the size of the buffer bounds
the rounds. -/
def parseFields {α : Type} (onField : OnField α) : Nat → α → Reader → Option α
  | 0, out, r => if r.eof then some out else none
  | n + 1, out, r =>
    if r.eof then some out
    else
      match r.readTag with
      | none => none
      | some (field, wire, r) =>
        match onField out field wire r with
        | none => none
        | some (out, r) => parseFields onField n out r

/-- A parser run over a whole buffer. -/
def parse {α : Type} (onField : OnField α) (data : Bytes) (out : α) : Option α :=
  parseFields onField data.length out ⟨data, 0⟩

/-! ## Varints -/

theorem toNat_low_seven (b : UInt8) : (b &&& 0x7F).toUInt64.toNat = b.toNat % 128 := by
  rw [UInt8.toNat_toUInt64, UInt8.toNat_and]
  exact Nat.and_two_pow_sub_one_eq_mod b.toNat 7

theorem high_bit_clear_iff (b : UInt8) : b &&& 0x80 = 0 ↔ b.toNat < 128 := by
  have hand : (b &&& 0x80).toNat = (b.toNat.testBit 7).toNat * 128 := by
    rw [UInt8.toNat_and]
    exact Nat.and_two_pow b.toNat 7
  have hb := b.toNat_lt
  rw [← UInt8.toNat_inj, hand, Nat.testBit_eq_decide_div_mod_eq]
  by_cases h : b.toNat / 2 ^ 7 % 2 = 1
  · simp
    omega
  · simp
    omega

theorem toNat_shiftRight_seven (v : UInt64) : (v >>> 7).toNat = v.toNat / 128 := by
  rw [UInt64.toNat_shiftRight]
  simp [Nat.shiftRight_eq_div_pow]

theorem toNat_final_byte {v : UInt64} (h : v.toNat < 128) : v.toUInt8.toNat = v.toNat := by
  rw [UInt64.toNat_toUInt8]
  omega

theorem toNat_continued_byte (v : UInt64) :
    ((v &&& 0x7F) ||| 0x80).toUInt8.toNat = v.toNat % 128 + 128 := by
  have hlow : (v &&& 0x7F).toNat = v.toNat % 128 := by
    rw [UInt64.toNat_and]
    exact Nat.and_two_pow_sub_one_eq_mod v.toNat 7
  have hor : (v.toNat % 128) ||| 2 ^ 7 * 1 = 2 ^ 7 * 1 + v.toNat % 128 := by
    rw [Nat.or_comm, Nat.two_pow_add_eq_or_of_lt (by omega)]
  rw [UInt64.toNat_toUInt8, UInt64.toNat_or, hlow]
  change (v.toNat % 128 ||| 2 ^ 7 * 1) % 2 ^ 8 = _
  rw [hor]
  omega

/-- Joining the next group to an accumulator that has not reached it. -/
theorem toNat_join {acc g : UInt64} {shift : Nat} (hacc : acc.toNat < 2 ^ shift)
    (hshift : shift < 64) (hfit : g.toNat * 2 ^ shift < 2 ^ 64) :
    (acc ||| (g <<< UInt64.ofNat shift)).toNat = acc.toNat + g.toNat * 2 ^ shift := by
  have hs : (UInt64.ofNat shift).toNat % 64 = shift := by
    rw [UInt64.toNat_ofNat']
    omega
  rw [UInt64.toNat_or, UInt64.toNat_shiftLeft, hs, Nat.shiftLeft_eq, Nat.mod_eq_of_lt hfit,
    Nat.mul_comm, Nat.or_comm, ← Nat.two_pow_add_eq_or_of_lt hacc, Nat.add_comm]

theorem getElem?_of_drop_eq_cons {α : Type} {data rest : List α} {pos : Nat} {b : α}
    (h : data.drop pos = b :: rest) : data[pos]? = some b := by
  have hget := congrArg (·[0]?) h
  simpa [List.getElem?_drop] using hget

theorem drop_add_length {α : Type} {data front rest : List α} {pos : Nat}
    (h : data.drop pos = front ++ rest) : data.drop (pos + front.length) = rest := by
  rw [← List.drop_drop, h, List.drop_left]

/-- The loop stops at a byte without the continuation bit. -/
theorem readVarintLoop_final {data rest : Bytes} {pos shift : Nat} {acc : UInt64} {b : UInt8}
    (n : Nat) (hdata : data.drop pos = b :: rest) (hb : b.toNat < 128)
    (hacc : acc.toNat < 2 ^ shift) (hshift : shift < 64)
    (hfit : b.toNat * 2 ^ shift < 2 ^ 64) :
    readVarintLoop data (n + 1) pos acc shift =
      some (UInt64.ofNat (acc.toNat + b.toNat * 2 ^ shift), pos + 1) := by
  have hlow : (b &&& 0x7F).toUInt64.toNat = b.toNat := by
    rw [toNat_low_seven, Nat.mod_eq_of_lt hb]
  have hjoin := toNat_join hacc hshift (hlow ▸ hfit)
  rw [hlow] at hjoin
  simp only [readVarintLoop, getElem?_of_drop_eq_cons hdata, (high_bit_clear_iff b).mpr hb,
    if_true]
  rw [← hjoin, UInt64.ofNat_toNat]

/-- **Reading back the groups.**  The accumulator holds the groups already
read; `n` more rounds are left for the value that remains. -/
theorem readVarintLoop_varintBytes {data : Bytes} (n : Nat) :
    ∀ {pos shift : Nat} {value acc : UInt64} {rest : Bytes},
      data.drop pos = varintBytes n value ++ rest →
      shift + 7 * n = 63 → value.toNat < 2 ^ (7 * n + 1) → acc.toNat < 2 ^ shift →
      readVarintLoop data (n + 1) pos acc shift =
        some (UInt64.ofNat (acc.toNat + value.toNat * 2 ^ shift),
          pos + (varintBytes n value).length) := by
  induction n with
  | zero =>
      intro pos shift value acc rest hdata hshift hvalue hacc
      have hshift' : shift = 63 := by omega
      subst hshift'
      have hv : value.toUInt8.toNat = value.toNat := toNat_final_byte (by omega)
      have hfinal := readVarintLoop_final 0 hdata (by omega) hacc (by omega) (by omega)
      rwa [hv] at hfinal
  | succ n ih =>
      intro pos shift value acc rest hdata hshift hvalue hacc
      have hpow : 2 ^ shift * 2 ^ (7 * (n + 1) + 1) = 2 ^ 64 := by
        rw [← Nat.pow_add]
        congr 1
        omega
      have hfit : value.toNat * 2 ^ shift < 2 ^ 64 := by
        calc value.toNat * 2 ^ shift < 2 ^ (7 * (n + 1) + 1) * 2 ^ shift :=
              Nat.mul_lt_mul_of_pos_right hvalue (Nat.two_pow_pos shift)
          _ = 2 ^ 64 := by rw [Nat.mul_comm, hpow]
      by_cases hbig : 0x80 ≤ value
      · have hlarge : 128 ≤ value.toNat := UInt64.le_iff_toNat_le.mp hbig
        have hbyte := toNat_continued_byte value
        simp only [varintBytes, if_pos hbig, List.cons_append, List.length_cons] at hdata ⊢
        generalize ((value &&& 0x7F) ||| 0x80).toUInt8 = b at hbyte hdata ⊢
        have hmore : ¬ (b &&& 0x80 = 0) := by
          rw [high_bit_clear_iff, hbyte]
          omega
        have hlow : (b &&& 0x7F).toUInt64.toNat = value.toNat % 128 := by
          rw [toNat_low_seven, hbyte]
          omega
        have hgroup : value.toNat % 128 * 2 ^ shift < 2 ^ 64 :=
          (Nat.mul_le_mul_right _ (Nat.mod_le _ _)).trans_lt hfit
        have hjoin := toNat_join hacc (by omega) (hlow ▸ hgroup)
        rw [hlow] at hjoin
        rw [readVarintLoop]
        simp only [getElem?_of_drop_eq_cons hdata, if_neg hmore]
        generalize acc ||| ((b &&& 0x7F).toUInt64 <<< UInt64.ofNat shift) = acc' at hjoin ⊢
        have hrest : data.drop (pos + 1) = varintBytes n (value >>> 7) ++ rest := by
          rw [← List.drop_drop, hdata, List.drop_one, List.tail_cons]
        have hvalue' : (value >>> 7).toNat < 2 ^ (7 * n + 1) := by
          rw [toNat_shiftRight_seven, Nat.div_lt_iff_lt_mul (by omega)]
          exact hvalue.trans_eq (by rw [Nat.mul_succ, Nat.add_right_comm, Nat.pow_add])
        have hpow7 : 2 ^ (shift + 7) = 2 ^ shift * 128 := Nat.pow_add 2 shift 7
        have hacc' : acc'.toNat < 2 ^ (shift + 7) := by
          rw [hjoin, hpow7]
          have hmod : value.toNat % 128 < 128 := Nat.mod_lt _ (by omega)
          nlinarith
        rw [if_neg (by omega), ih hrest (by omega) hvalue' hacc', hjoin, hpow7,
          toNat_shiftRight_seven]
        have hsplit : value.toNat % 128 * 2 ^ shift + value.toNat / 128 * (2 ^ shift * 128) =
            value.toNat * 2 ^ shift := by
          calc _ = (128 * (value.toNat / 128) + value.toNat % 128) * 2 ^ shift := by ring
            _ = value.toNat * 2 ^ shift := by rw [Nat.div_add_mod]
        rw [Nat.add_assoc, hsplit, Nat.add_assoc, Nat.add_comm 1]
      · have hsmall : value.toNat < 128 := by
          rw [UInt64.le_iff_toNat_le, not_le] at hbig
          exact hbig
        simp only [varintBytes, if_neg hbig, List.singleton_append] at hdata ⊢
        have hv := toNat_final_byte hsmall
        have hfinal := readVarintLoop_final (n + 1) hdata (by omega) hacc (by omega)
          (by rwa [hv])
        rwa [hv] at hfinal

/-- **Varint round trip**, in the middle of any buffer. -/
theorem readVarint_complete {r : Reader} {value : UInt64} {rest : Bytes}
    (h : r.data.drop r.pos = varintBytes 9 value ++ rest) :
    r.readVarint = some (value, { r with pos := r.pos + (varintBytes 9 value).length }) := by
  have hloop : readVarintLoop r.data 10 r.pos 0 0 = some
      (UInt64.ofNat ((0 : UInt64).toNat + value.toNat * 2 ^ 0),
        r.pos + (varintBytes 9 value).length) :=
    readVarintLoop_varintBytes 9 h rfl value.toNat_lt (by decide)
  rw [Reader.readVarint, hloop]
  simp

/-! ## Fields -/

theorem makeTag_toNat {fieldNumber : UInt32} {wire : WireType}
    (hfield : fieldNumber.toNat < 2 ^ 29) (hwire : wire.value.toNat < 8) :
    (makeTag fieldNumber wire).toUInt64.toNat = 8 * fieldNumber.toNat + wire.value.toNat := by
  have hshift : (fieldNumber <<< 3).toNat = 2 ^ 3 * fieldNumber.toNat := by
    rw [UInt32.toNat_shiftLeft, Nat.shiftLeft_eq, Nat.mul_comm]
    exact Nat.mod_eq_of_lt (by change 2 ^ 3 * fieldNumber.toNat < 2 ^ 32; omega)
  rw [UInt32.toNat_toUInt64, makeTag, UInt32.toNat_or, hshift, UInt8.toNat_toUInt32,
    ← Nat.two_pow_add_eq_or_of_lt hwire]

/-- The tag that `WriteTag` wrote is the tag that `ReadTag` reads. -/
theorem readTag_complete {r : Reader} {fieldNumber : UInt32} {wire : WireType} {rest : Bytes}
    (hfield : fieldNumber.toNat < 2 ^ 29) (hwire : wire.value.toNat < 8)
    (h : r.data.drop r.pos =
      varintBytes 9 (makeTag fieldNumber wire).toUInt64 ++ rest) :
    r.readTag = some (fieldNumber, wire,
      { r with pos := r.pos + (varintBytes 9 (makeTag fieldNumber wire).toUInt64).length }) := by
  have htag := makeTag_toNat hfield hwire
  rw [Reader.readTag, readVarint_complete h]
  have hf : ((makeTag fieldNumber wire).toUInt64 >>> 3).toUInt32 = fieldNumber := by
    apply UInt32.toNat_inj.mp
    rw [UInt64.toNat_toUInt32, UInt64.toNat_shiftRight, htag]
    simp only [UInt64.reduceToNat, Nat.reduceMod, Nat.shiftRight_eq_div_pow]
    omega
  have hw : ((makeTag fieldNumber wire).toUInt64 &&& 0x07).toUInt8 = wire.value := by
    apply UInt8.toNat_inj.mp
    rw [UInt64.toNat_toUInt8, UInt64.toNat_and, htag]
    have hmask := Nat.and_two_pow_sub_one_eq_mod (8 * fieldNumber.toNat + wire.value.toNat) 3
    change ((8 * fieldNumber.toNat + wire.value.toNat) &&& (2 ^ 3 - 1)) % 2 ^ 8 = _
    rw [hmask]
    omega
  simp only [hf, hw]

/-- The length-delimited body that was written is the slice that is read. -/
theorem readLengthDelim_complete {r : Reader} {body rest : Bytes}
    (hlen : body.length < 2 ^ 64)
    (h : r.data.drop r.pos = varintBytes 9 (UInt64.ofNat body.length) ++ (body ++ rest)) :
    r.readLengthDelim = some (body, { r with
      pos := r.pos + (varintBytes 9 (UInt64.ofNat body.length)).length + body.length }) := by
  have hbody : r.data.drop (r.pos + (varintBytes 9 (UInt64.ofNat body.length)).length) =
      body ++ rest := drop_add_length h
  have hnat : (UInt64.ofNat body.length).toNat = body.length := by
    rw [UInt64.toNat_ofNat', Nat.mod_eq_of_lt hlen]
  have hroom := congrArg List.length hbody
  rw [List.length_drop, List.length_append] at hroom
  rw [Reader.readLengthDelim, readVarint_complete h]
  simp only [hnat, Reader.remaining, hbody, List.take_left]
  rw [if_neg (by omega)]

/-! ## Pieces of a message -/

/-- Wherever `piece` stands in a buffer, the loop reads exactly `piece` and
takes the output from `out` to `out'`. -/
def Absorbs {α : Type} (onField : OnField α) (piece : Bytes) (out out' : α) : Prop :=
  ∀ (data rest : Bytes) (pos fuel : Nat),
    data.drop pos = piece ++ rest → (piece ++ rest).length ≤ fuel →
    ∃ fuel', rest.length ≤ fuel' ∧
      parseFields onField fuel out ⟨data, pos⟩ =
        parseFields onField fuel' out' ⟨data, pos + piece.length⟩

section Pieces

variable {α : Type} {onField : OnField α} {out out' out'' : α}

theorem Absorbs.nil : Absorbs onField [] out out := by
  intro data rest pos fuel _ hfuel
  exact ⟨fuel, hfuel, rfl⟩

theorem Absorbs.append {front back : Bytes} (hfront : Absorbs onField front out out')
    (hback : Absorbs onField back out' out'') : Absorbs onField (front ++ back) out out'' := by
  intro data rest pos fuel hdata hfuel
  rw [List.append_assoc] at hdata hfuel
  obtain ⟨fuel₁, hfuel₁, hrun₁⟩ := hfront data (back ++ rest) pos fuel hdata hfuel
  obtain ⟨fuel₂, hfuel₂, hrun₂⟩ := hback data rest _ fuel₁ (drop_add_length hdata) hfuel₁
  refine ⟨fuel₂, hfuel₂, ?_⟩
  rw [hrun₁, hrun₂, List.length_append, Nat.add_assoc]

/-- **A message made of absorbed pieces parses.** -/
theorem Absorbs.parse {data : Bytes} (h : Absorbs onField data out out') :
    parse onField data out = some out' := by
  obtain ⟨fuel, -, hrun⟩ := h data [] 0 data.length (by simp) (by simp)
  rw [ProtoWire.parse, hrun]
  cases fuel with
  | zero => simp [parseFields, Reader.eof]
  | succ fuel => simp [parseFields, Reader.eof]

/-- One field: a tag, and a body that the parser's own step consumes. -/
theorem Absorbs.field {fieldNumber : UInt32} {wire : WireType} {body : Bytes}
    (hfield : fieldNumber.toNat < 2 ^ 29) (hwire : wire.value.toNat < 8)
    (hstep : ∀ (r : Reader) (rest : Bytes), r.data.drop r.pos = body ++ rest →
      onField out fieldNumber wire r = some (out', { r with pos := r.pos + body.length })) :
    Absorbs onField (varintBytes 9 (makeTag fieldNumber wire).toUInt64 ++ body) out out' := by
  intro data rest pos fuel hdata hfuel
  generalize htag : varintBytes 9 (makeTag fieldNumber wire).toUInt64 = tag at hdata hfuel ⊢
  have htagpos : 0 < tag.length := by
    rw [← htag, varintBytes]
    split <;> simp
  rw [List.append_assoc] at hdata hfuel
  simp only [List.length_append] at hfuel
  obtain ⟨n, rfl⟩ : ∃ n, fuel = n + 1 := ⟨fuel - 1, by omega⟩
  refine ⟨n, by omega, ?_⟩
  have hmore : Reader.eof ⟨data, pos⟩ = false := by
    have hlen := congrArg List.length hdata
    simp only [List.length_drop, List.length_append] at hlen
    simp only [Reader.eof, decide_eq_false_iff_not]
    omega
  have hread := readTag_complete (r := ⟨data, pos⟩) hfield hwire (htag ▸ hdata)
  rw [htag] at hread
  have hnext := hstep ⟨data, pos + tag.length⟩ rest (drop_add_length hdata)
  simp only [parseFields, hmore, hread, hnext, List.length_append, Nat.add_assoc]
  rfl

/-- A field goes behind what has been written so far. -/
theorem Writer.writeUint64Field_append (w : Writer) (fieldNumber : UInt32) (value : UInt64) :
    w.writeUint64Field fieldNumber value = w ++ writeUint64Field [] fieldNumber value := by
  unfold writeUint64Field
  split <;> simp [writeTag, writeVarint]

theorem Writer.writeBoolField_append (w : Writer) (fieldNumber : UInt32) (value : Bool) :
    w.writeBoolField fieldNumber value = w ++ writeBoolField [] fieldNumber value := by
  unfold writeBoolField
  split <;> simp [writeTag, writeVarint]

theorem Writer.writeSubMessageField_append (w : Writer) (fieldNumber : UInt32) (sub : Bytes) :
    w.writeSubMessageField fieldNumber sub = w ++ writeSubMessageField [] fieldNumber sub := by
  simp [writeSubMessageField, writeTag, writeVarint]

theorem Writer.writeBytesField_append (w : Writer) (fieldNumber : UInt32) (value : Bytes) :
    w.writeBytesField fieldNumber value = w ++ writeBytesField [] fieldNumber value := by
  unfold writeBytesField
  split
  · simp
  · exact writeSubMessageField_append w fieldNumber value

/-- A varint field read by `ReadVarint`. -/
theorem Absorbs.varint {fieldNumber : UInt32} (set : UInt64 → α → α)
    (hfield : fieldNumber.toNat < 2 ^ 29)
    (hstep : ∀ r, onField out fieldNumber .varint r =
      r.readVarint.map (fun (v, r) => (set v out, r))) (value : UInt64) :
    Absorbs onField (varintBytes 9 (makeTag fieldNumber .varint).toUInt64 ++
      varintBytes 9 value) out (set value out) := by
  refine Absorbs.field hfield (by decide) ?_
  intro r rest hdata
  rw [hstep, readVarint_complete hdata, Option.map_some]

/-- A field that is left out when it is zero: the output must already hold
the zero that the message does not carry. -/
theorem Absorbs.uint64Field {fieldNumber : UInt32} (set : UInt64 → α → α)
    (hfield : fieldNumber.toNat < 2 ^ 29)
    (hstep : ∀ r, onField out fieldNumber .varint r =
      r.readVarint.map (fun (v, r) => (set v out, r)))
    (hzero : set 0 out = out) (value : UInt64) :
    Absorbs onField (Writer.writeUint64Field [] fieldNumber value) out (set value out) := by
  by_cases hvalue : value = 0
  · rw [Writer.writeUint64Field, if_pos hvalue, hvalue, hzero]
    exact .nil
  · rw [Writer.writeUint64Field, if_neg hvalue]
    exact Absorbs.varint set hfield hstep value

theorem Absorbs.int32Field {fieldNumber : UInt32} (set : UInt64 → α → α)
    (hfield : fieldNumber.toNat < 2 ^ 29)
    (hstep : ∀ r, onField out fieldNumber .varint r =
      r.readVarint.map (fun (v, r) => (set v out, r)))
    (hzero : set 0 out = out) (value : Int32) :
    Absorbs onField (Writer.writeInt32Field [] fieldNumber value) out
      (set value.toInt64.toUInt64 out) := by
  by_cases hvalue : value = 0
  · rw [Writer.writeInt32Field, if_pos hvalue, hvalue]
    exact hzero.symm ▸ .nil
  · rw [Writer.writeInt32Field, if_neg hvalue]
    exact Absorbs.varint set hfield hstep value.toInt64.toUInt64

theorem Absorbs.boolField {fieldNumber : UInt32} (set : UInt64 → α → α)
    (hfield : fieldNumber.toNat < 2 ^ 29)
    (hstep : ∀ r, onField out fieldNumber .varint r =
      r.readVarint.map (fun (v, r) => (set v out, r)))
    (hzero : set 0 out = out) (value : Bool) :
    Absorbs onField (Writer.writeBoolField [] fieldNumber value) out
      (set (if value then 1 else 0) out) := by
  cases value with
  | false => exact hzero.symm ▸ .nil
  | true => exact Absorbs.varint set hfield hstep 1

/-- A length-delimited field read by `ReadLengthDelim`. -/
theorem Absorbs.subMessageField {fieldNumber : UInt32} (set : Bytes → α → α)
    (hfield : fieldNumber.toNat < 2 ^ 29)
    (hstep : ∀ r, onField out fieldNumber .lengthDelim r =
      r.readLengthDelim.map (fun (d, r) => (set d out, r)))
    {sub : Bytes} (hlen : sub.length < 2 ^ 64) :
    Absorbs onField (Writer.writeSubMessageField [] fieldNumber sub) out (set sub out) := by
  have hbytes : Writer.writeSubMessageField [] fieldNumber sub =
      varintBytes 9 (makeTag fieldNumber .lengthDelim).toUInt64 ++
        (varintBytes 9 (UInt64.ofNat sub.length) ++ sub) := by
    simp [Writer.writeSubMessageField, Writer.writeTag, Writer.writeVarint]
  rw [hbytes]
  refine Absorbs.field hfield (by decide) ?_
  intro r rest hdata
  rw [List.append_assoc] at hdata
  rw [hstep, readLengthDelim_complete hlen hdata, Option.map_some, List.length_append,
    Nat.add_assoc]

theorem Absorbs.bytesField {fieldNumber : UInt32} (set : Bytes → α → α)
    (hfield : fieldNumber.toNat < 2 ^ 29)
    (hstep : ∀ r, onField out fieldNumber .lengthDelim r =
      r.readLengthDelim.map (fun (d, r) => (set d out, r)))
    (hempty : set [] out = out) {value : Bytes} (hlen : value.length < 2 ^ 64) :
    Absorbs onField (Writer.writeBytesField [] fieldNumber value) out (set value out) := by
  by_cases hvalue : value = []
  · rw [Writer.writeBytesField, if_pos hvalue, hvalue, hempty]
    exact .nil
  · rw [Writer.writeBytesField, if_neg hvalue]
    exact Absorbs.subMessageField set hfield hstep hlen

end Pieces

end ProtoWire
