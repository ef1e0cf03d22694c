import ClipboardHelper.DispatchCodec

/-!
# The message codec of the Linux helper

The Linux `dispatch_codec.cpp`.  Its `proto_wire.cpp` is that of Windows, and
so are the field numbers it shares; what differs is which fields a parser
decodes and which it skips.  Every parser resets its output before it reads,
so none takes one.

A `(pointer, length)` output is a `Slice`: the place it points to in the
buffer and the bytes it covers.
-/

namespace LinuxCodec

open Library ProtoWire

def kCDFieldContentHash : UInt32 := 3
def kCDFieldTransferId : UInt32 := 5

/-! ## Encoders -/

/-- `EncodeReady`, at the time the clock shows. -/
def encodeReady (clock : UInt64) : Bytes :=
  let w : Writer := []
  let w := w.writeEnumField DispatchCodec.kFieldType DispatchCodec.HelperMessageType.ready.value
  w.writeUint64Field DispatchCodec.kFieldTimestamp clock

def encodeError (message : Bytes) (clock : UInt64) : Bytes :=
  let w : Writer := []
  let w := w.writeEnumField DispatchCodec.kFieldType DispatchCodec.HelperMessageType.error.value
  let w := if message = [] then w
    else w.writeStringField DispatchCodec.kFieldErrorMessage message
  w.writeUint64Field DispatchCodec.kFieldTimestamp clock

def encodeClipboardDataInnerText (utf8Payload contentHash : Bytes) : Bytes :=
  let w : Writer := []
  let w := w.writeEnumField DispatchCodec.kCDFieldContentType
    DispatchCodec.ClipboardContentType.text.value
  let w := if utf8Payload = [] then w
    else w.writeBytesField DispatchCodec.kCDFieldPayload utf8Payload
  if contentHash = [] then w else w.writeStringField kCDFieldContentHash contentHash

def encodeClipboardChangedText (utf8Payload contentHash : Bytes) (clock : UInt64) : Bytes :=
  let inner := encodeClipboardDataInnerText utf8Payload contentHash
  let w : Writer := []
  let w := w.writeEnumField DispatchCodec.kFieldType
    DispatchCodec.HelperMessageType.clipboardChanged.value
  let w := w.writeSubMessageField DispatchCodec.kFieldClipboardData inner
  w.writeUint64Field DispatchCodec.kFieldTimestamp clock

def encodeDataRequest (contentHash : Bytes) (contentType : DispatchCodec.ClipboardContentType)
    (clock : UInt64) : Bytes :=
  let inner : Writer := []
  let inner := if contentHash = [] then inner
    else inner.writeStringField DispatchCodec.kReqFieldContentHash contentHash
  let inner := inner.writeEnumField DispatchCodec.kReqFieldContentType contentType.value
  let w : Writer := []
  let w := w.writeEnumField DispatchCodec.kFieldType
    DispatchCodec.HelperMessageType.dataRequest.value
  let w := w.writeSubMessageField DispatchCodec.kFieldDataRequest inner
  w.writeUint64Field DispatchCodec.kFieldTimestamp clock

/-! ## Decoders -/

/-- What a non-null `(pointer, length)` output holds: the offset of the
pointer in the buffer and the bytes it covers. -/
structure Slice where
  offset : Nat
  bytes : Bytes
deriving DecidableEq, Repr

/-- `ReadLengthDelim` with both of its outputs: the slice ends where the
reader stands afterwards. -/
def readSlice (r : Reader) : Option (Slice × Reader) :=
  r.readLengthDelim.map (fun (d, r) => (⟨r.pos - d.length, d⟩, r))

/-- A length-delimited slice whose place `set` stores as well. -/
def rangeInto {α : Type} (set : Slice → α → α) (out : α) (r : Reader) : Option (α × Reader) :=
  (readSlice r).map (fun (s, r) => (set s out, r))

structure ParsedHelperMessage where
  type : DispatchCodec.HelperMessageType := .unspecified
  clipboardData : Option Slice := none
  announcement : Option Slice := none
  provideData : Option Slice := none
  fileChunkRequest : Option Slice := none
  fileChunkData : Option Slice := none
deriving DecidableEq, Repr

structure ParsedClipboardData where
  contentType : DispatchCodec.ClipboardContentType := .unspecified
  payload : Option Slice := none
  contentHash : Bytes := []
  transferId : Bytes := []
deriving DecidableEq, Repr

structure ParsedAnnouncement where
  contentType : DispatchCodec.ClipboardContentType := .unspecified
  contentHash : Bytes := []
  transferId : Bytes := []
deriving DecidableEq, Repr

structure ParsedProvideData where
  contentHash : Bytes := []
  data : Bytes := []
deriving DecidableEq, Repr

open DispatchCodec (varintInto sliceInto skipped enumOfVarint) in
def helperMessageField : OnField ParsedHelperMessage := fun out field wire r =>
  if field = DispatchCodec.kFieldType ∧ wire = .varint then
    varintInto (fun v out => { out with type := ⟨enumOfVarint v⟩ }) out r
  else if field = DispatchCodec.kFieldClipboardData ∧ wire = .lengthDelim then
    rangeInto (fun s out => { out with clipboardData := some s }) out r
  else if field = DispatchCodec.kFieldAnnouncement ∧ wire = .lengthDelim then
    rangeInto (fun s out => { out with announcement := some s }) out r
  else if field = DispatchCodec.kFieldProvideData ∧ wire = .lengthDelim then
    rangeInto (fun s out => { out with provideData := some s }) out r
  else if field = DispatchCodec.kFieldFileChunkRequest ∧ wire = .lengthDelim then
    rangeInto (fun s out => { out with fileChunkRequest := some s }) out r
  else if field = DispatchCodec.kFieldFileChunkData ∧ wire = .lengthDelim then
    rangeInto (fun s out => { out with fileChunkData := some s }) out r
  else skipped out wire r

def parseHelperMessage (data : Bytes) : Option ParsedHelperMessage :=
  parse helperMessageField data {}

open DispatchCodec (varintInto sliceInto skipped enumOfVarint) in
def clipboardDataField : OnField ParsedClipboardData := fun out field wire r =>
  if field = DispatchCodec.kCDFieldContentType ∧ wire = .varint then
    varintInto (fun v out => { out with contentType := ⟨enumOfVarint v⟩ }) out r
  else if field = DispatchCodec.kCDFieldPayload ∧ wire = .lengthDelim then
    rangeInto (fun s out => { out with payload := some s }) out r
  else if field = kCDFieldContentHash ∧ wire = .lengthDelim then
    sliceInto (fun d out => { out with contentHash := d }) out r
  else if field = kCDFieldTransferId ∧ wire = .lengthDelim then
    sliceInto (fun d out => { out with transferId := d }) out r
  else skipped out wire r

def parseClipboardData (data : Bytes) : Option ParsedClipboardData :=
  parse clipboardDataField data {}

open DispatchCodec (varintInto sliceInto skipped enumOfVarint) in
def announcementField : OnField ParsedAnnouncement := fun out field wire r =>
  if field = DispatchCodec.kAnnFieldContentType ∧ wire = .varint then
    varintInto (fun v out => { out with contentType := ⟨enumOfVarint v⟩ }) out r
  else if field = DispatchCodec.kAnnFieldContentHash ∧ wire = .lengthDelim then
    sliceInto (fun d out => { out with contentHash := d }) out r
  else if field = DispatchCodec.kAnnFieldTransferId ∧ wire = .lengthDelim then
    sliceInto (fun d out => { out with transferId := d }) out r
  else skipped out wire r

def parseAnnouncement (data : Bytes) : Option ParsedAnnouncement :=
  parse announcementField data {}

open DispatchCodec (sliceInto skipped) in
def provideDataField : OnField ParsedProvideData := fun out field wire r =>
  if field = DispatchCodec.kPDFieldContentHash ∧ wire = .lengthDelim then
    sliceInto (fun d out => { out with contentHash := d }) out r
  else if field = DispatchCodec.kPDFieldData ∧ wire = .lengthDelim then
    sliceInto (fun d out => { out with data := d }) out r
  else skipped out wire r

def parseProvideData (data : Bytes) : Option ParsedProvideData :=
  parse provideDataField data {}

/-! ## Every handler moves the reader as skipping does -/

section Moves

variable {α : Type} (out : α) (r : Reader)

theorem varintInto_snd (set : UInt64 → α → α) :
    (DispatchCodec.varintInto set out r).map Prod.snd = r.skipField .varint := by
  rw [DispatchCodec.varintInto, Option.map_map]
  rfl

theorem sliceInto_snd (set : Bytes → α → α) :
    (DispatchCodec.sliceInto set out r).map Prod.snd = r.skipField .lengthDelim := by
  rw [DispatchCodec.sliceInto, Option.map_map]
  rfl

theorem rangeInto_snd (set : Slice → α → α) :
    (rangeInto set out r).map Prod.snd = r.skipField .lengthDelim := by
  rw [rangeInto, readSlice, Option.map_map, Option.map_map]
  rfl

theorem skipped_snd (wire : WireType) :
    (DispatchCodec.skipped out wire r).map Prod.snd = r.skipField wire := by
  rw [DispatchCodec.skipped, Option.map_map]
  cases r.skipField wire <;> rfl

end Moves

theorem helperMessageField_snd (out : ParsedHelperMessage) (field : UInt32) (wire : WireType)
    (r : Reader) : (helperMessageField out field wire r).map Prod.snd = r.skipField wire := by
  unfold helperMessageField
  split_ifs <;> simp_all only [varintInto_snd, rangeInto_snd, skipped_snd]

theorem clipboardDataField_snd (out : ParsedClipboardData) (field : UInt32) (wire : WireType)
    (r : Reader) : (clipboardDataField out field wire r).map Prod.snd = r.skipField wire := by
  unfold clipboardDataField
  split_ifs <;> simp_all only [varintInto_snd, sliceInto_snd, rangeInto_snd, skipped_snd]

theorem announcementField_snd (out : ParsedAnnouncement) (field : UInt32) (wire : WireType)
    (r : Reader) : (announcementField out field wire r).map Prod.snd = r.skipField wire := by
  unfold announcementField
  split_ifs <;> simp_all only [varintInto_snd, sliceInto_snd, skipped_snd]

theorem provideDataField_snd (out : ParsedProvideData) (field : UInt32) (wire : WireType)
    (r : Reader) : (provideDataField out field wire r).map Prod.snd = r.skipField wire := by
  unfold provideDataField
  split_ifs <;> simp_all only [sliceInto_snd, skipped_snd]

end LinuxCodec
