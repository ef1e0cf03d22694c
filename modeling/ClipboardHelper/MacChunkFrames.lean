import ClipboardHelper.ContentFrames
import ClipboardHelper.EndOfFile
import ClipboardHelper.Library.Frames

/-!
# The frames of the macOS chunk replies

`handleIncomingFileChunkRequest` reads as many bytes as the request says, and
`SocketServer.send` puts whatever message it is given behind a length.  What
connects the two, the generated `traverse` and the binary encoding of
SwiftProtobuf, is embedded here: the first from the generated source, the
second as a parameter (`BinaryEncoder`) that writes the documented wire format
(`Documented`).

Windows clamps a request to 4 MiB (`ChunkServing.clampSize`); macOS does not.
**`chunk_reply_fits_iff`**: a reply fits the 64 MiB of `processFrames` exactly
when the names, the bytes of the file that the request is due, and the framing
around them do.  A request for 64 MiB of a file that has them does not
(`whole_limit_does_not_fit`).
-/

namespace MacChunkFrames

open Library ProtoWire DispatchCodec ContentFrames ChunkServing EndOfFile

/-! ## SwiftProtobuf -/

/-- The binary encoding visitor: what it writes for a field with a value and a
number, and whether `serializedData` returns a message of a size or throws. -/
structure BinaryEncoder where
  visitSingularStringField : Bytes → UInt32 → Bytes
  visitSingularBytesField : Bytes → UInt32 → Bytes
  visitSingularUInt64Field : UInt64 → UInt32 → Bytes
  visitSingularBoolField : Bool → UInt32 → Bytes
  visitSingularEnumField : Int32 → UInt32 → Bytes
  visitSingularMessageField : Bytes → UInt32 → Bytes
  returns : Nat → Bool

/-- The documented encoding: the proto3 wire format, for every message below
2 GB. -/
structure Documented (enc : BinaryEncoder) : Prop where
  string : ∀ value n, value ≠ [] →
    enc.visitSingularStringField value n = Writer.writeBytesField [] n value
  bytes : ∀ value n, value ≠ [] →
    enc.visitSingularBytesField value n = Writer.writeBytesField [] n value
  uint64 : ∀ value n, value ≠ 0 →
    enc.visitSingularUInt64Field value n = Writer.writeUint64Field [] n value
  bool : ∀ n, enc.visitSingularBoolField true n = Writer.writeBoolField [] n true
  enum : ∀ value n, value ≠ 0 →
    enc.visitSingularEnumField value n = Writer.writeEnumField [] n value
  message : ∀ sub n, enc.visitSingularMessageField sub n = Writer.writeSubMessageField [] n sub
  returns : ∀ size, size < 2147483647 → enc.returns size = true

/-- `Leviathan_HelperMessage`, with the one payload that is sent here. -/
structure HelperMessage where
  type : HelperMessageType
  fileChunkData : Option ParsedFileChunkData
  timestamp : UInt64

variable (enc : BinaryEncoder)

/-- `traverse` of `Leviathan_HelperFileChunkData`. -/
def traverseChunk (chunk : ParsedFileChunkData) : Bytes :=
  (if chunk.transferId ≠ [] then enc.visitSingularStringField chunk.transferId 1 else []) ++
  (if chunk.fileId ≠ [] then enc.visitSingularStringField chunk.fileId 2 else []) ++
  (if chunk.offset ≠ 0 then enc.visitSingularUInt64Field chunk.offset 3 else []) ++
  (if chunk.data ≠ [] then enc.visitSingularBytesField chunk.data 4 else []) ++
  (if chunk.isLast ≠ false then enc.visitSingularBoolField chunk.isLast 5 else []) ++
  (if chunk.error ≠ [] then enc.visitSingularStringField chunk.error 6 else [])

/-- `traverse` of `Leviathan_HelperMessage`. -/
def traverseMessage (msg : HelperMessage) : Bytes :=
  (if msg.type ≠ .unspecified then enc.visitSingularEnumField msg.type.value 1 else []) ++
  (match msg.fileChunkData with
    | some chunk => enc.visitSingularMessageField (traverseChunk enc chunk) 9
    | none => []) ++
  (if msg.timestamp ≠ 0 then enc.visitSingularUInt64Field msg.timestamp 7 else [])

/-- `serializedData()`; `none` when it throws. -/
def serializedData (msg : HelperMessage) : Option Bytes :=
  if enc.returns (traverseMessage enc msg).length then some (traverseMessage enc msg) else none

/-! ## Sending -/

/-- What comes of `send`: there is no client, the message is not serialized,
`UInt32(data.count)` traps, or bytes are written. -/
inductive Sent
  | noClient
  | notSerialized
  | trapped
  | wrote (bytes : Bytes)
deriving DecidableEq, Repr

/-- `SocketServer.send`. -/
def send (clientSocket : Int) (msg : HelperMessage) : Sent :=
  if clientSocket < 0 then .noClient
  else
    match serializedData enc msg with
    | none => .notSerialized
    | some data =>
      if data.length < 2 ^ 32 then
        .wrote (writeLengthLE (UInt32.ofNat data.length) ++ data)
      else .trapped

/-- The tail of `sendFileChunk` and `sendFileChunkError`. -/
def messageOf (chunk : ParsedFileChunkData) (currentTimestamp : UInt64) : HelperMessage :=
  { type := .fileChunkData, fileChunkData := some chunk, timestamp := currentTimestamp }

/-- 64 MiB: `processFrames` rejects frames that are larger. -/
def maxFrameLength : UInt32 := 64 * 1024 * 1024

/-- A frame was written, within the limit, and the four bytes in front of it
say how long it is. -/
def FitsTransport (sent : Sent) : Prop :=
  ∃ payload, sent = .wrote (frame payload) ∧ payload.length ≤ maxFrameLength.toNat ∧
    (UInt32.ofNat payload.length).toNat = payload.length

/-- Such a frame is cut off the stream as it was sent. -/
theorem FitsTransport.cut {sent : Sent} (h : FitsTransport sent) (rest : Bytes) :
    ∃ bytes payload, sent = .wrote bytes ∧
      cutFrame maxFrameLength (bytes ++ rest) = .frame payload rest := by
  obtain ⟨payload, hsent, hfits, -⟩ := h
  exact ⟨frame payload, payload, hsent, cutFrame_frame hfits rest⟩

/-! ## The length of a reply -/

/-- The length of a chunk reply with its type and timestamp around it. -/
def replyLength (req : ParsedFileChunkRequest) (data : Nat) (isLast : Bool) (error : Nat)
    (timestamp : UInt64) : Nat :=
  2 + subMessageLength (stringLength req.transferId.length + stringLength req.fileId.length +
    numberLength req.offset + stringLength data + (if isLast then 2 else 0) +
    stringLength error) + numberLength timestamp

section Lengths

variable {enc}

theorem length_stringField (henc : Documented enc) (value : Bytes) {n : UInt32}
    (htag : (varintBytes 9 (makeTag n .lengthDelim).toUInt64).length = 1) :
    (if value ≠ [] then enc.visitSingularStringField value n else []).length =
      stringLength value.length := by
  by_cases hempty : value = []
  · simp [hempty, stringLength]
  · rw [if_pos hempty, henc.string value n hempty, Writer.length_writeBytesField _ _ htag]
    simp

theorem length_bytesField (henc : Documented enc) (value : Bytes) {n : UInt32}
    (htag : (varintBytes 9 (makeTag n .lengthDelim).toUInt64).length = 1) :
    (if value ≠ [] then enc.visitSingularBytesField value n else []).length =
      stringLength value.length := by
  by_cases hempty : value = []
  · simp [hempty, stringLength]
  · rw [if_pos hempty, henc.bytes value n hempty, Writer.length_writeBytesField _ _ htag]
    simp

theorem length_uint64Field (henc : Documented enc) (value : UInt64) {n : UInt32}
    (htag : (varintBytes 9 (makeTag n .varint).toUInt64).length = 1) :
    (if value ≠ 0 then enc.visitSingularUInt64Field value n else []).length =
      numberLength value := by
  by_cases hzero : value = 0
  · simp [hzero, numberLength]
  · rw [if_pos hzero, henc.uint64 value n hzero, Writer.length_writeUint64Field _ _ htag]
    simp

theorem length_traverseChunk (henc : Documented enc) (chunk : ParsedFileChunkData) :
    (traverseChunk enc chunk).length =
      stringLength chunk.transferId.length + stringLength chunk.fileId.length +
        numberLength chunk.offset + stringLength chunk.data.length +
        (if chunk.isLast then 2 else 0) + stringLength chunk.error.length := by
  have hlast : (if chunk.isLast ≠ false then enc.visitSingularBoolField chunk.isLast 5
      else []).length = if chunk.isLast then 2 else 0 := by
    cases chunk.isLast with
    | false => rfl
    | true =>
        simp only [ne_eq, reduceCtorEq, not_false_eq_true, if_true, henc.bool]
        rfl
  simp only [traverseChunk, List.length_append, hlast]
  rw [length_stringField henc _ (by decide), length_stringField henc _ (by decide),
    length_uint64Field henc _ (by decide), length_bytesField henc _ (by decide),
    length_stringField henc _ (by decide)]

/-- **The size of a reply on the wire.** -/
theorem length_traverseMessage (henc : Documented enc) (req : ParsedFileChunkRequest)
    (data error : Bytes) (isLast : Bool) (timestamp : UInt64) :
    (traverseMessage enc (messageOf (replyTo req data isLast error) timestamp)).length =
      replyLength req data.length isLast error.length timestamp := by
  have htype : (enc.visitSingularEnumField HelperMessageType.fileChunkData.value 1).length = 2 := by
    rw [henc.enum _ _ (by decide)]
    rfl
  have htraverse (chunk : ParsedFileChunkData) :
      traverseMessage enc (messageOf chunk timestamp) =
        enc.visitSingularEnumField HelperMessageType.fileChunkData.value 1 ++
        enc.visitSingularMessageField (traverseChunk enc chunk) 9 ++
        (if timestamp ≠ 0 then enc.visitSingularUInt64Field timestamp 7 else []) := rfl
  rw [htraverse, List.length_append, List.length_append, htype,
    length_uint64Field henc _ (by decide), henc.message,
    Writer.length_writeSubMessageField _ _ (by decide), length_traverseChunk henc]
  simp only [List.length_nil, Nat.zero_add]
  rfl

/-- **What is sent fits exactly when its size does.** -/
theorem send_fits_iff (henc : Documented enc) {clientSocket : Int} (hclient : 0 ≤ clientSocket)
    (msg : HelperMessage) :
    FitsTransport (send enc clientSocket msg) ↔
      (traverseMessage enc msg).length ≤ maxFrameLength.toNat := by
  have hlimit : maxFrameLength.toNat = 67108864 := by decide
  rw [send, if_neg (by omega)]
  constructor
  · intro h
    obtain ⟨payload, hsent, hfits, -⟩ := h
    unfold serializedData at hsent
    split at hsent
    · cases hsent
    · rename_i data hdata
      rw [Option.ite_none_right_eq_some, Option.some.injEq] at hdata
      obtain ⟨-, rfl⟩ := hdata
      split at hsent
      · rw [Sent.wrote.injEq] at hsent
        have hlength := congrArg List.length hsent
        rw [length_frame, List.length_append, length_writeLengthLE] at hlength
        omega
      · cases hsent
  · intro hfits
    have hreturns := henc.returns (traverseMessage enc msg).length (by omega)
    rw [serializedData, if_pos hreturns]
    simp only
    rw [if_pos (by omega)]
    refine ⟨traverseMessage enc msg, rfl, hfits, ?_⟩
    rw [UInt32.toNat_ofNat']
    exact Nat.mod_eq_of_lt (by omega)

end Lengths

/-! ## The files -/

/-- A local file with its content, and what opening it, reading its attributes
and seeking in it come to. -/
structure ServedFile where
  content : FileContent
  openError : Option Bytes := none
  attributes : Bool := true
  seekError : UInt64 → Option Bytes := fun _ => none

/-- The file as `handleIncomingFileChunkRequest` finds it. -/
def ServedFile.found (file : ServedFile) : LocalFile where
  openError := file.openError
  size := if file.attributes then some (UInt64.ofNat file.content.bytes.length) else none
  seekError := file.seekError
  readData offset count := file.content.range offset.toNat count.toNat

/-- `pasteboardManager.localFileURLs`. -/
def localFileURLs (files : Bytes → Option ServedFile) : Bytes → Option LocalFile :=
  fun fileId => (files fileId).map ServedFile.found

/-- The size that the attributes tell; zero if they cannot be read. -/
def ServedFile.size (file : ServedFile) : Nat :=
  if file.attributes then file.content.bytes.length else 0

/-- The error that stands in the way of a request, if there is one. -/
def errorOf (file : Option ServedFile) (offset : UInt64) : Option Bytes :=
  match file with
  | none => some fileNotFound
  | some file =>
    match file.openError with
    | some error => some error
    | none => if file.size ≤ offset.toNat then none else file.seekError offset

/-- The bytes of the file that a request is due: those asked for, as far as
there are any. -/
def dueBytes (file : Option ServedFile) (req : ParsedFileChunkRequest) : Nat :=
  min (macChunkSize req.size) ((file.elim 0 ServedFile.size) - req.offset.toNat)

/-- **The room that a request takes**: its names, and either the text of the
error or the bytes it is due. -/
def roomFor (files : Bytes → Option ServedFile) (req : ParsedFileChunkRequest)
    (timestamp : UInt64) : Nat :=
  match errorOf (files req.fileId) req.offset with
  | some error => replyLength req 0 true error.length timestamp
  | none =>
    let due := dueBytes (files req.fileId) req
    replyLength req due
      (decide ((files req.fileId).elim 0 ServedFile.size ≤ req.offset.toNat + due)) 0 timestamp

theorem toNat_size (file : ServedFile) :
    (file.found.size.getD 0).toNat = file.size := by
  unfold ServedFile.found ServedFile.size
  cases file.attributes with
  | false => rfl
  | true => exact toNat_ofNat file.content.fits

theorem size_le_length (file : ServedFile) : file.size ≤ file.content.bytes.length := by
  unfold ServedFile.size
  split
  · exact Nat.le_refl _
  · exact Nat.zero_le _

theorem macChunkSize_lt (size : UInt32) : macChunkSize size < 2 ^ 64 := by
  have hsize := size.toNat_lt
  unfold macChunkSize
  split
  · omega
  · decide

/-- The bytes that `readData(ofLength:)` is asked for. -/
def toRead (file : ServedFile) (req : ParsedFileChunkRequest) : UInt64 :=
  min (UInt64.ofNat (macChunkSize req.size)) (file.found.size.getD 0 - req.offset)

/-- The smaller of two 64-bit numbers, neither of which wraps. -/
theorem toNat_toRead (file : ServedFile) (req : ParsedFileChunkRequest)
    (hinside : req.offset.toNat < file.size) :
    (toRead file req).toNat = dueBytes (some file) req := by
  have hsize := toNat_size file
  have hle : req.offset ≤ file.found.size.getD 0 := by
    rw [UInt64.le_iff_toNat_le]
    omega
  rw [toRead, toNat_min, toNat_ofNat (macChunkSize_lt req.size), UInt64.toNat_sub_of_le _ _ hle,
    hsize]
  rfl

/-- All of them are there. -/
theorem length_chunk (file : ServedFile) (req : ParsedFileChunkRequest)
    (hinside : req.offset.toNat < file.size) :
    ((file.found.readData req.offset (toRead file req)).take (toRead file req).toNat).length =
      dueBytes (some file) req := by
  have hsize := size_le_length file
  have hread : file.found.readData req.offset (toRead file req) =
      file.content.range req.offset.toNat (toRead file req).toNat := rfl
  rw [hread, take_range, length_range, toNat_toRead file req hinside]
  simp only [dueBytes, Option.elim_some]
  omega

/-- The position behind them does not wrap either. -/
theorem isLast_chunk (file : ServedFile) (req : ParsedFileChunkRequest)
    (hinside : req.offset.toNat < file.size) :
    decide (req.offset + UInt64.ofNat (dueBytes (some file) req) ≥ file.found.size.getD 0) =
      decide (file.size ≤ req.offset.toNat + dueBytes (some file) req) := by
  have hsize := toNat_size file
  have hlength := size_le_length file
  have hfits := file.content.fits
  have hdue : req.offset.toNat + dueBytes (some file) req ≤ file.size := by
    simp only [dueBytes, Option.elim_some]
    omega
  have hsum : (req.offset + UInt64.ofNat (dueBytes (some file) req)).toNat =
      req.offset.toNat + dueBytes (some file) req := by
    rw [UInt64.toNat_add, toNat_ofNat (by omega)]
    exact Nat.mod_eq_of_lt (by omega)
  rw [decide_eq_decide, ge_iff_le, UInt64.le_iff_toNat_le, hsum, hsize]

/-- **What a reply looks like**: the request's names and offset, and either an
error, or the bytes due and whether the file ends with them. -/
theorem reply_eq (files : Bytes → Option ServedFile) (req : ParsedFileChunkRequest) :
    ∃ data error isLast,
      handleIncomingFileChunkRequest (localFileURLs files) req = replyTo req data isLast error ∧
      (errorOf (files req.fileId) req.offset = some error ∧ data = [] ∧ isLast = true ∨
      errorOf (files req.fileId) req.offset = none ∧ error = [] ∧
        data.length = dueBytes (files req.fileId) req ∧
        isLast = decide ((files req.fileId).elim 0 ServedFile.size ≤
          req.offset.toNat + dueBytes (files req.fileId) req)) := by
  unfold handleIncomingFileChunkRequest localFileURLs
  cases hfile : files req.fileId with
  | none => exact ⟨[], fileNotFound, true, rfl, .inl ⟨rfl, rfl, rfl⟩⟩
  | some file =>
      simp only [Option.map_some]
      cases hopen : file.openError with
      | some error =>
          simp only [ServedFile.found, hopen]
          exact ⟨[], error, true, rfl, .inl ⟨by simp [errorOf, hopen], rfl, rfl⟩⟩
      | none =>
          have hfound : file.found.openError = none := hopen
          have hsize := toNat_size file
          simp only [hfound]
          by_cases hpast : req.offset ≥ file.found.size.getD 0
          · have hle : file.size ≤ req.offset.toNat := by
              rw [← hsize]
              exact UInt64.le_iff_toNat_le.mp hpast
            rw [if_pos hpast]
            refine ⟨[], [], true, rfl, .inr ⟨?_, rfl, ?_, ?_⟩⟩
            · simp [errorOf, hopen, hle]
            · simp [dueBytes, Nat.sub_eq_zero_of_le hle]
            · simp [dueBytes, Nat.sub_eq_zero_of_le hle, hle]
          · have hlt : req.offset.toNat < file.size := by
              rw [← hsize]
              exact UInt64.lt_iff_toNat_lt.mp (UInt64.not_le.mp hpast)
            rw [if_neg hpast]
            have herror : errorOf (some file) req.offset = file.seekError req.offset := by
              simp only [errorOf, hopen]
              rw [if_neg (by omega)]
            cases hseek : file.seekError req.offset with
            | some error =>
                have hfails : file.found.seekError req.offset = some error := hseek
                simp only [hfails]
                exact ⟨[], error, true, rfl, .inl ⟨by rw [herror, hseek], rfl, rfl⟩⟩
            | none =>
                have hworks : file.found.seekError req.offset = none := hseek
                simp only [hworks]
                have hchunk := length_chunk file req hlt
                rw [toRead] at hchunk
                refine ⟨_, [], _, rfl, .inr ⟨by rw [herror, hseek], rfl, hchunk, ?_⟩⟩
                rw [hchunk, Option.elim_some]
                exact isLast_chunk file req hlt

/-- **A chunk reply fits the transport exactly when what it takes does.**  For
every request, and every file it may be about, the frame that is sent carries
at most 64 MiB, with its length in front, if and only if the names, the bytes
due or the text of the error, and the framing are at most 64 MiB together. -/
theorem chunk_reply_fits_iff (enc : BinaryEncoder) (henc : Documented enc) (clientSocket : Int)
    (hclient : 0 ≤ clientSocket) (files : Bytes → Option ServedFile)
    (req : ParsedFileChunkRequest) (timestamp : UInt64) :
    FitsTransport (send enc clientSocket
        (messageOf (handleIncomingFileChunkRequest (localFileURLs files) req) timestamp)) ↔
      roomFor files req timestamp ≤ 67108864 := by
  have hlimit : maxFrameLength.toNat = 67108864 := by decide
  rw [send_fits_iff henc hclient, hlimit]
  obtain ⟨data, error, isLast, hreply, hkind⟩ := reply_eq files req
  rw [hreply, length_traverseMessage henc, roomFor]
  obtain ⟨herror, rfl, rfl⟩ | ⟨herror, rfl, hdata, rfl⟩ := hkind
  · rw [herror]
    rfl
  · rw [herror, hdata]
    rfl

/-- An encoder that writes the wire format. -/
def wireEncoder : BinaryEncoder where
  visitSingularStringField value n := Writer.writeBytesField [] n value
  visitSingularBytesField value n := Writer.writeBytesField [] n value
  visitSingularUInt64Field value n := Writer.writeUint64Field [] n value
  visitSingularBoolField value n := Writer.writeBoolField [] n value
  visitSingularEnumField value n := Writer.writeEnumField [] n value
  visitSingularMessageField sub n := Writer.writeSubMessageField [] n sub
  returns size := decide (size < 2147483647)

theorem wireEncoder_documented : Documented wireEncoder where
  string := fun _ _ _ => rfl
  bytes := fun _ _ _ => rfl
  uint64 := fun _ _ _ => rfl
  bool := fun _ => rfl
  enum := fun _ _ _ => rfl
  message := fun _ _ => rfl
  returns := fun _ h => decide_eq_true h

/-- A request of three bytes of a file of four. -/
theorem three_of_four_fit :
    FitsTransport (send wireEncoder 5 (messageOf (handleIncomingFileChunkRequest
        (localFileURLs (fun _ => some { content := fourBytes })) ⟨[7], [48], 0, 3⟩)
        1753000000000)) ↔
      roomFor (fun _ => some { content := fourBytes }) ⟨[7], [48], 0, 3⟩ 1753000000000 ≤
        67108864 :=
  chunk_reply_fits_iff wireEncoder wireEncoder_documented 5 (by decide)
    (fun _ => some { content := fourBytes }) ⟨[7], [48], 0, 3⟩ 1753000000000

/-- A request for 64 MiB of a file that has them is due more than the limit. -/
theorem limit_does_not_fit {content : FileContent} (hlength : content.bytes.length = 67108864) :
    ¬ FitsTransport (send wireEncoder 5 (messageOf (handleIncomingFileChunkRequest
      (localFileURLs (fun _ => some { content := content })) ⟨[7], [48], 0, 67108864⟩)
      1753000000000)) := by
  have hlimit : maxFrameLength.toNat = 67108864 := by decide
  rw [send_fits_iff wireEncoder_documented (by decide), hlimit]
  obtain ⟨data, error, isLast, hreply, hkind⟩ :=
    reply_eq (fun _ => some { content := content }) ⟨[7], [48], 0, 67108864⟩
  have hnone : errorOf (some { content := content }) 0 = none := by
    simp [errorOf]
  have hdue : dueBytes (some { content := content }) ⟨[7], [48], 0, 67108864⟩ = 67108864 := by
    simp [dueBytes, ServedFile.size, hlength, macChunkSize]
  obtain ⟨herror, -⟩ | ⟨-, -, hdata, -⟩ := hkind
  · rw [hnone] at herror
    cases herror
  · rw [hreply, length_traverseMessage wireEncoder_documented, replyLength, hdata, hdue,
      subMessageLength]
    have hpayload := le_stringLength 67108864
    omega

/-- A file of 64 MiB. -/
def largeFile : FileContent where
  bytes := List.replicate 67108864 0
  fits := by rw [List.length_replicate]; decide

/-- **The whole limit does not fit**: 64 MiB of such a file are answered by a
frame beyond it. -/
theorem whole_limit_does_not_fit :
    ¬ FitsTransport (send wireEncoder 5 (messageOf (handleIncomingFileChunkRequest
      (localFileURLs (fun _ => some { content := largeFile })) ⟨[7], [48], 0, 67108864⟩)
      1753000000000)) :=
  limit_does_not_fit List.length_replicate

end MacChunkFrames
