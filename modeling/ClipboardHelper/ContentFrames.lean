import ClipboardHelper.DispatchCodec

/-!
# How long the frames with clipboard content are

Both helpers wrap content twice: in a `ClipboardData`, and that in an envelope
with a type and a timestamp.  `WriteFrame` refuses what comes out when it is
longer than 16 MiB.

Near that cap a length takes four bytes.  **`envelope_fits_iff`**: a
`ClipboardData` fits into a frame if and only if it falls short of the cap by
seven bytes and the timestamp.  **`payload_fits_iff`**: for a text or a
picture it is twice that (`overhead`).
-/

namespace ProtoWire

open Library

theorem length_varintBytes_pos (n : Nat) (v : UInt64) : 0 < (varintBytes n v).length := by
  cases n with
  | zero => simp [varintBytes]
  | succ n =>
      unfold varintBytes
      split
      · simp
      · simp

theorem length_varintBytes_le (n : Nat) (v : UInt64) : (varintBytes n v).length ≤ n + 1 := by
  induction n generalizing v with
  | zero => simp [varintBytes]
  | succ n ih =>
      unfold varintBytes
      split
      · exact Nat.succ_le_succ (ih _)
      · simp

/-- A varint of at most `k` bytes holds seven bits in each. -/
theorem length_varintBytes_le_iff (n k : Nat) (v : UInt64) (hk : k < n) :
    (varintBytes n v).length ≤ k + 1 ↔ v.toNat < 2 ^ (7 * (k + 1)) := by
  induction n generalizing k v with
  | zero => cases hk
  | succ n ih =>
      by_cases hmore : 0x80 ≤ v
      · have hlarge : 128 ≤ v.toNat := hmore
        have hrest := toNat_shiftRight_seven v
        cases k with
        | zero =>
            have hpos := length_varintBytes_pos n (v >>> 7)
            simp only [varintBytes, if_pos hmore, List.length_cons]
            omega
        | succ k =>
            have hpow : 2 ^ (7 * (k + 1 + 1)) = 128 * 2 ^ (7 * (k + 1)) := by
              rw [Nat.mul_succ 7 (k + 1), Nat.pow_add, Nat.mul_comm]
            have hshort := ih k (v >>> 7) (by omega)
            rw [hrest, Nat.div_lt_iff_lt_mul (by decide), Nat.mul_comm, ← hpow] at hshort
            rw [← hshort]
            simp only [varintBytes, if_pos hmore, List.length_cons]
            omega
      · have hsmall : v.toNat < 128 := Nat.lt_of_not_le hmore
        have hpow : 128 ≤ 2 ^ (7 * (k + 1)) := by
          calc 128 = 2 ^ 7 := rfl
            _ ≤ 2 ^ (7 * (k + 1)) := Nat.pow_le_pow_right (by decide) (by omega)
        simp only [varintBytes, if_neg hmore, List.length_singleton]
        omega

/-- The length of the varint that holds a length. -/
def lengthLength (n : Nat) : Nat := (varintBytes 9 (UInt64.ofNat n)).length

theorem lengthLength_le_iff {n k : Nat} (hn : n < 2 ^ 64) (hk : k < 9) :
    lengthLength n ≤ k + 1 ↔ n < 2 ^ (7 * (k + 1)) := by
  rw [lengthLength, length_varintBytes_le_iff 9 k _ hk, UInt64.toNat_ofNat',
    Nat.mod_eq_of_lt hn]

theorem lengthLength_of_small {n : Nat} (hn : n < 2097152) : lengthLength n ≤ 3 :=
  (lengthLength_le_iff (k := 2) (by omega) (by decide)).mpr (by simpa using hn)

/-- The lengths in a frame near the cap take four bytes. -/
theorem lengthLength_of_large {n : Nat} (hlow : 2097152 ≤ n) (hhigh : n < 268435456) :
    lengthLength n = 4 := by
  have hfour : lengthLength n ≤ 4 :=
    (lengthLength_le_iff (k := 3) (by omega) (by decide)).mpr (by simpa using hhigh)
  have hthree : ¬ lengthLength n ≤ 3 := by
    rw [lengthLength_le_iff (k := 2) (by omega) (by decide)]
    omega
  omega

/-! ### Fields with a tag of one byte -/

/-- What a number adds: nothing when it is zero. -/
def numberLength (value : UInt64) : Nat :=
  if value = 0 then 0 else 1 + (varintBytes 9 value).length

/-- What an enumeration adds: nothing when it is zero. -/
def enumLength (value : Int32) : Nat :=
  if value = 0 then 0 else 1 + (varintBytes 9 value.toInt64.toUInt64).length

/-- What a sub-message adds, also when it is empty. -/
def subMessageLength (n : Nat) : Nat := 1 + lengthLength n + n

/-- What a string adds: nothing when it is empty. -/
def stringLength (n : Nat) : Nat := if n = 0 then 0 else subMessageLength n

theorem numberLength_le (value : UInt64) : numberLength value ≤ 11 := by
  have hvalue := length_varintBytes_le 9 value
  unfold numberLength
  split
  · simp
  · omega

theorem subMessageLength_le (n : Nat) : subMessageLength n ≤ 11 + n := by
  have hlength := length_varintBytes_le 9 (UInt64.ofNat n)
  rw [subMessageLength, lengthLength]
  omega

theorem stringLength_le (n : Nat) : stringLength n ≤ 11 + n := by
  unfold stringLength
  split
  · simp
  · exact subMessageLength_le n

theorem le_stringLength (n : Nat) : n ≤ stringLength n := by
  unfold stringLength subMessageLength
  split
  · omega
  · omega

theorem Writer.length_writeUint64Field {fieldNumber : UInt32} (w : Writer) (value : UInt64)
    (htag : (varintBytes 9 (makeTag fieldNumber .varint).toUInt64).length = 1) :
    (w.writeUint64Field fieldNumber value).length = w.length + numberLength value := by
  unfold Writer.writeUint64Field numberLength
  split
  · rfl
  · simp only [Writer.writeTag, Writer.writeVarint, List.length_append, htag]
    omega

theorem Writer.length_writeEnumField {fieldNumber : UInt32} (w : Writer) (value : Int32)
    (htag : (varintBytes 9 (makeTag fieldNumber .varint).toUInt64).length = 1) :
    (w.writeEnumField fieldNumber value).length = w.length + enumLength value := by
  unfold Writer.writeEnumField Writer.writeInt32Field enumLength
  split
  · rfl
  · simp only [Writer.writeTag, Writer.writeVarint, List.length_append, htag]
    omega

theorem Writer.length_writeSubMessageField {fieldNumber : UInt32} (w : Writer) (sub : Bytes)
    (htag : (varintBytes 9 (makeTag fieldNumber .lengthDelim).toUInt64).length = 1) :
    (w.writeSubMessageField fieldNumber sub).length = w.length + subMessageLength sub.length := by
  simp only [Writer.writeSubMessageField, Writer.writeTag, Writer.writeVarint, lengthLength,
    subMessageLength, List.length_append, htag]
  omega

/-- The bytes or the string of a field. -/
theorem Writer.length_writeBytesField {fieldNumber : UInt32} (w : Writer) (value : Bytes)
    (htag : (varintBytes 9 (makeTag fieldNumber .lengthDelim).toUInt64).length = 1) :
    (w.writeBytesField fieldNumber value).length = w.length + stringLength value.length := by
  unfold Writer.writeBytesField stringLength
  by_cases hempty : value = []
  · rw [if_pos hempty, if_pos (by rw [hempty]; rfl)]
    rfl
  · rw [if_neg hempty, if_neg (fun hzero => hempty (List.eq_nil_of_length_eq_zero hzero)),
      w.length_writeSubMessageField value htag]

end ProtoWire

namespace ContentFrames

open Library ProtoWire DispatchCodec

/-- A `ClipboardData` in its frame, whose type is the byte `type`. -/
def envelope (type : UInt8) (inner : Bytes) (clock : UInt64) : Bytes :=
  (Writer.writeSubMessageField [8, type] kFieldClipboardData inner).writeUint64Field
    kFieldTimestamp clock

/-- The `ClipboardData` of one payload, with its content type. -/
def payloadData (contentType : UInt8) (payload : Bytes) : Bytes :=
  Writer.writeBytesField [8, contentType] kCDFieldPayload payload

/-- What the envelope adds to a `ClipboardData` of more than 2 MiB: a type, a
length of four bytes with its tag, and the timestamp. -/
def envelopeOverhead (clock : UInt64) : Nat := 7 + numberLength clock

/-- What both wrappings add to a payload of that size. -/
def overhead (clock : UInt64) : Nat := 7 + envelopeOverhead clock

theorem length_envelope (type : UInt8) (inner : Bytes) (clock : UInt64) :
    (envelope type inner clock).length =
      2 + subMessageLength inner.length + numberLength clock := by
  rw [envelope, Writer.length_writeUint64Field _ _ (by decide),
    Writer.length_writeSubMessageField _ _ (by decide)]
  rfl

theorem length_payloadData (contentType : UInt8) (payload : Bytes) :
    (payloadData contentType payload).length = 2 + stringLength payload.length :=
  Writer.length_writeBytesField _ _ (by decide)

/-- **A `ClipboardData` fits into a frame of the cap if and only if it leaves
room for its envelope.** -/
theorem envelope_fits_iff (type : UInt8) (inner : Bytes) (clock : UInt64) :
    (envelope type inner clock).length ≤ 16777216 ↔
      inner.length + envelopeOverhead clock ≤ 16777216 := by
  have hstamp := numberLength_le clock
  rw [length_envelope, subMessageLength, envelopeOverhead]
  by_cases hsmall : inner.length < 2097152
  · have hlength := lengthLength_of_small hsmall
    omega
  by_cases hlarge : inner.length ≤ 16777216
  · have hlength := lengthLength_of_large (by omega) (show inner.length < 268435456 by omega)
    omega
  · omega

/-- **And a payload, if and only if it leaves room for both wrappings.** -/
theorem payload_fits_iff (type contentType : UInt8) (payload : Bytes) (clock : UInt64) :
    (envelope type (payloadData contentType payload) clock).length ≤ 16777216 ↔
      payload.length + overhead clock ≤ 16777216 := by
  have hstamp := numberLength_le clock
  have hpayload := le_stringLength payload.length
  rw [envelope_fits_iff, length_payloadData, overhead, envelopeOverhead]
  by_cases hsmall : payload.length < 2097152
  · have hlength := lengthLength_of_small hsmall
    have hshort : stringLength payload.length ≤ 1 + 3 + payload.length := by
      unfold stringLength subMessageLength
      split
      · omega
      · omega
    omega
  by_cases hlarge : payload.length ≤ 16777216
  · have hlength := lengthLength_of_large (by omega) (show payload.length < 268435456 by omega)
    have hfour : stringLength payload.length = 1 + 4 + payload.length := by
      rw [stringLength, if_neg (by omega), subMessageLength, hlength]
    omega
  · omega

/-- The milliseconds of the years around now take six bytes. -/
example : overhead 1753000000000 = 21 := by decide

/-! ## What Windows puts into a `ClipboardData` -/

/-- The bytes of `EncodeFileMetadata`. -/
def fileLength (sys : Platform) (index : UInt32) (fullPath : WideString) : Nat :=
  stringLength (decimal index.toNat).length +
    stringLength (wideToUtf8 sys (basename fullPath)).length +
    stringLength (wideToUtf8 sys fullPath).length +
    numberLength ((sys.getFileAttributesEx fullPath).getD 0)

/-- The bytes of `EncodeVirtualFileMetadata`. -/
def virtualFileLength (sys : Platform) (index : UInt32) (entry : VirtualFileEntry) : Nat :=
  stringLength (decimal index.toNat).length + stringLength (wideToUtf8 sys entry.name).length +
    numberLength entry.size

/-- The bytes of the `files` field, from entry `i` on. -/
def entriesLength {ε : Type} (length : UInt32 → ε → Nat) : Nat → List ε → Nat
  | _, [] => 0
  | i, entry :: entries =>
    subMessageLength (length (UInt32.ofNat i) entry) + entriesLength length (i + 1) entries

theorem entriesLength_le {ε : Type} {length : UInt32 → ε → Nat} (bound : Nat) (entries : List ε)
    (i : Nat) (hbound : ∀ index, ∀ entry ∈ entries, length index entry ≤ bound) :
    entriesLength length i entries ≤ entries.length * (11 + bound) := by
  induction entries generalizing i with
  | nil => simp [entriesLength]
  | cons entry entries ih =>
      have hentry := subMessageLength_le (length (UInt32.ofNat i) entry)
      have hfits := hbound (UInt32.ofNat i) entry List.mem_cons_self
      have hrest := ih (i + 1) fun index e he => hbound index e (List.mem_cons_of_mem _ he)
      rw [entriesLength, List.length_cons, Nat.succ_mul]
      omega

/-- The bytes of a `ClipboardData`: the type, and the text in UTF-8, the
picture or the files. -/
def snapshotLength (sys : Platform) (snap : ClipboardSnapshot) : Nat :=
  enumLength snap.contentType.value +
    if snap.contentType = .text then stringLength (wideToUtf8 sys snap.text).length
    else if snap.contentType = .image then stringLength snap.imagePng.length
    else if snap.contentType = .files then
      entriesLength (fileLength sys) 0 snap.filePaths +
        entriesLength (virtualFileLength sys) 0 snap.virtualFiles
    else 0

theorem length_encodeFileMetadata (sys : Platform) (index : UInt32) (fullPath : WideString) :
    (encodeFileMetadata sys index fullPath).length = fileLength sys index fullPath := by
  simp only [encodeFileMetadata, Writer.writeStringField]
  rw [Writer.length_writeUint64Field _ _ (by decide), Writer.length_writeBytesField _ _ (by decide),
    Writer.length_writeBytesField _ _ (by decide), Writer.length_writeBytesField _ _ (by decide),
    List.length_nil, Nat.zero_add, fileLength]

theorem length_encodeVirtualFileMetadata (sys : Platform) (index : UInt32)
    (entry : VirtualFileEntry) :
    (encodeVirtualFileMetadata sys index entry).length = virtualFileLength sys index entry := by
  simp only [encodeVirtualFileMetadata, Writer.writeStringField]
  rw [Writer.length_writeUint64Field _ _ (by decide), Writer.length_writeBytesField _ _ (by decide),
    Writer.length_writeBytesField _ _ (by decide), List.length_nil, Nat.zero_add,
    virtualFileLength]

theorem length_writeFileEntries {ε : Type} {encode : UInt32 → ε → Bytes}
    {length : UInt32 → ε → Nat} (hencode : ∀ i entry, (encode i entry).length = length i entry)
    (entries : List ε) (w : Writer) (i : Nat) :
    (writeFileEntries encode w i entries).length = w.length + entriesLength length i entries := by
  induction entries generalizing w i with
  | nil => rfl
  | cons entry entries ih =>
      rw [writeFileEntries, ih, Writer.length_writeSubMessageField _ _ (by decide), hencode,
        entriesLength, Nat.add_assoc]

theorem length_encodeClipboardData (sys : Platform) (snap : ClipboardSnapshot) :
    (encodeClipboardData sys snap).length = snapshotLength sys snap := by
  have htype : (Writer.writeEnumField [] kCDFieldContentType snap.contentType.value).length =
      enumLength snap.contentType.value := by
    rw [Writer.length_writeEnumField _ _ (by decide), List.length_nil, Nat.zero_add]
  simp only [encodeClipboardData, snapshotLength]
  split
  · rw [Writer.length_writeBytesField _ _ (by decide), htype]
  · split
    · rw [Writer.length_writeBytesField _ _ (by decide), htype]
    · split
      · rw [length_writeFileEntries (length_encodeVirtualFileMetadata sys),
          length_writeFileEntries (length_encodeFileMetadata sys), htype, Nat.add_assoc]
      · exact htype

end ContentFrames
