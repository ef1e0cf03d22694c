import ClipboardHelper.ProtoWire

/-!
# The message codec of the Windows helper

`dispatch_codec.cpp` with the constants of `helper_proto.h`, translated.
An encoder is the chain of `Writer` calls of the source; a parser is
`ProtoWire.parse` with the field handler of its loop.

A `(pointer, length)` output is the slice it points to: `none` is the null
pointer it starts as.  A parser returns `none` where the source returns
`false`; what it had filled in by then is not kept.

What the platform supplies is a parameter: the two UTF conversions of the
system, the size that the file system reports for a path, and the clock.
-/

namespace DispatchCodec

open Library ProtoWire

/-! ## Enumerations and field numbers -/

/-- `proto::HelperMessageType`: an open 32-bit enumeration. -/
structure HelperMessageType where
  value : Int32
deriving DecidableEq, Repr

namespace HelperMessageType

def unspecified : HelperMessageType := ⟨0⟩
def setClipboard : HelperMessageType := ⟨1⟩
def announceDelayed : HelperMessageType := ⟨2⟩
def provideData : HelperMessageType := ⟨3⟩
def getClipboard : HelperMessageType := ⟨4⟩
def shutdown : HelperMessageType := ⟨5⟩
def clipboardChanged : HelperMessageType := ⟨10⟩
def dataRequest : HelperMessageType := ⟨11⟩
def clipboardContent : HelperMessageType := ⟨12⟩
def error : HelperMessageType := ⟨13⟩
def ready : HelperMessageType := ⟨14⟩
def fileChunkRequest : HelperMessageType := ⟨15⟩
def fileChunkData : HelperMessageType := ⟨16⟩
def fileTransferProgress : HelperMessageType := ⟨17⟩

end HelperMessageType

/-- `proto::ClipboardContentType`: an open 32-bit enumeration. -/
structure ClipboardContentType where
  value : Int32
deriving DecidableEq, Repr

namespace ClipboardContentType

def unspecified : ClipboardContentType := ⟨0⟩
def text : ClipboardContentType := ⟨1⟩
def image : ClipboardContentType := ⟨2⟩
def files : ClipboardContentType := ⟨3⟩

end ClipboardContentType

/-- The cast of a varint to a 32-bit enumeration. -/
def enumOfVarint (v : UInt64) : Int32 := v.toUInt32.toInt32

def kFieldType : UInt32 := 1
def kFieldClipboardData : UInt32 := 2
def kFieldAnnouncement : UInt32 := 3
def kFieldProvideData : UInt32 := 4
def kFieldDataRequest : UInt32 := 5
def kFieldErrorMessage : UInt32 := 6
def kFieldTimestamp : UInt32 := 7
def kFieldFileChunkRequest : UInt32 := 8
def kFieldFileChunkData : UInt32 := 9

def kCDFieldContentType : UInt32 := 1
def kCDFieldPayload : UInt32 := 2
def kCDFieldFiles : UInt32 := 4

def kFCReqFieldTransferId : UInt32 := 1
def kFCReqFieldFileId : UInt32 := 2
def kFCReqFieldOffset : UInt32 := 3
def kFCReqFieldSize : UInt32 := 4

def kFCDataFieldTransferId : UInt32 := 1
def kFCDataFieldFileId : UInt32 := 2
def kFCDataFieldOffset : UInt32 := 3
def kFCDataFieldData : UInt32 := 4
def kFCDataFieldIsLast : UInt32 := 5
def kFCDataFieldError : UInt32 := 6

def kAnnFieldContentType : UInt32 := 1
def kAnnFieldContentHash : UInt32 := 2
def kAnnFieldFiles : UInt32 := 6
def kAnnFieldTransferId : UInt32 := 7

def kReqFieldContentHash : UInt32 := 1
def kReqFieldContentType : UInt32 := 2

def kPDFieldContentHash : UInt32 := 1
def kPDFieldData : UInt32 := 2

def kFMFieldFileId : UInt32 := 1
def kFMFieldFilename : UInt32 := 2
def kFMFieldRelativePath : UInt32 := 3
def kFMFieldFileSize : UInt32 := 4
def kFMFieldIsDirectory : UInt32 := 7

/-! ## Platform -/

/-- A UTF-16 string (`std::wstring` on Windows). -/
abbrev WideString := List UInt16

/-- What the codec takes from the system.  The two conversions are those of
the system on a non-empty argument; a failed file-size lookup is `none`. -/
structure Platform where
  multiByteToWideChar : Bytes → WideString
  wideCharToMultiByte : WideString → Bytes
  getFileAttributesEx : WideString → Option UInt64
  clock : UInt64

/-- `Utf8ToWide` of `string_utils.cpp`. -/
def utf8ToWide (sys : Platform) (s : Bytes) : WideString :=
  if s = [] then [] else sys.multiByteToWideChar s

/-- `WideToUtf8` of `string_utils.cpp`. -/
def wideToUtf8 (sys : Platform) (w : WideString) : Bytes :=
  if w = [] then [] else sys.wideCharToMultiByte w

/-! ## Messages -/

/-- `VirtualFileEntry`. -/
structure VirtualFileEntry where
  name : WideString
  size : UInt64 := 0
  lindex : UInt32 := 0
deriving DecidableEq, Repr

/-- `ClipboardSnapshot`, without the `IDataObject` pointer, which the codec
never reads. -/
structure ClipboardSnapshot where
  contentType : ClipboardContentType := .unspecified
  text : WideString := []
  imagePng : Bytes := []
  filePaths : List WideString := []
  virtualFiles : List VirtualFileEntry := []
deriving DecidableEq, Repr

/-- `VirtualFileSpec`. -/
structure VirtualFileSpec where
  name : WideString := []
  size : UInt64 := 0
  fileId : Bytes := []
  isDirectory : Bool := false
deriving DecidableEq, Repr

structure ParsedHelperMessage where
  type : HelperMessageType := .unspecified
  clipboardData : Option Bytes := none
  announcement : Option Bytes := none
  provideData : Option Bytes := none
  fileChunkRequest : Option Bytes := none
  fileChunkData : Option Bytes := none
deriving DecidableEq, Repr

structure ParsedClipboardData where
  contentType : ClipboardContentType := .unspecified
  payload : Option Bytes := none
  files : List Bytes := []
deriving DecidableEq, Repr

structure ParsedAnnouncement where
  contentType : ClipboardContentType := .unspecified
  contentHash : Bytes := []
  files : List Bytes := []
  transferId : Bytes := []
deriving DecidableEq, Repr

structure ParsedProvideData where
  contentHash : Bytes := []
  data : Bytes := []
deriving DecidableEq, Repr

structure ParsedFileChunkRequest where
  transferId : Bytes := []
  fileId : Bytes := []
  offset : UInt64 := 0
  size : UInt32 := 0
deriving DecidableEq, Repr

structure ParsedFileChunkData where
  transferId : Bytes := []
  fileId : Bytes := []
  offset : UInt64 := 0
  data : Bytes := []
  isLast : Bool := false
  error : Bytes := []
deriving DecidableEq, Repr

/-! ## Encoders -/

/-- The envelope that every outbound message with a sub-message shares. -/
def encodeEnvelope (sys : Platform) (type : HelperMessageType) (field : UInt32)
    (inner : Bytes) : Bytes :=
  let w : Writer := []
  let w := w.writeEnumField kFieldType type.value
  let w := w.writeSubMessageField field inner
  w.writeUint64Field kFieldTimestamp sys.clock

def encodeReady (sys : Platform) : Bytes :=
  let w : Writer := []
  let w := w.writeEnumField kFieldType HelperMessageType.ready.value
  w.writeUint64Field kFieldTimestamp sys.clock

def encodeError (sys : Platform) (message : Bytes) : Bytes :=
  let w : Writer := []
  let w := w.writeEnumField kFieldType HelperMessageType.error.value
  let w := if message = [] then w else w.writeStringField kFieldErrorMessage message
  w.writeUint64Field kFieldTimestamp sys.clock

/-- Everything after the last backslash or slash. -/
def basename (fullPath : WideString) : WideString :=
  (fullPath.reverse.takeWhile (fun c => c ≠ 0x5C && c ≠ 0x2F)).reverse

def encodeFileMetadata (sys : Platform) (index : UInt32) (fullPath : WideString) : Bytes :=
  let fileSize := (sys.getFileAttributesEx fullPath).getD 0
  let w : Writer := []
  let w := w.writeStringField kFMFieldFileId (decimal index.toNat)
  let w := w.writeStringField kFMFieldFilename (wideToUtf8 sys (basename fullPath))
  let w := w.writeStringField kFMFieldRelativePath (wideToUtf8 sys fullPath)
  w.writeUint64Field kFMFieldFileSize fileSize

def encodeVirtualFileMetadata (sys : Platform) (index : UInt32)
    (entry : VirtualFileEntry) : Bytes :=
  let w : Writer := []
  let w := w.writeStringField kFMFieldFileId (decimal index.toNat)
  let w := w.writeStringField kFMFieldFilename (wideToUtf8 sys entry.name)
  w.writeUint64Field kFMFieldFileSize entry.size

/-- `for (std::size_t i = 0; ...)` over file entries: entry `i` is encoded
with the index cast to 32 bits and appended to the `files` field. -/
def writeFileEntries {ε : Type} (encode : UInt32 → ε → Bytes) :
    Writer → Nat → List ε → Writer
  | w, _, [] => w
  | w, i, entry :: entries =>
    writeFileEntries encode
      (w.writeSubMessageField kCDFieldFiles (encode (UInt32.ofNat i) entry)) (i + 1) entries

def encodeClipboardData (sys : Platform) (snap : ClipboardSnapshot) : Bytes :=
  let w : Writer := []
  let w := w.writeEnumField kCDFieldContentType snap.contentType.value
  if snap.contentType = .text then
    w.writeBytesField kCDFieldPayload (wideToUtf8 sys snap.text)
  else if snap.contentType = .image then
    w.writeBytesField kCDFieldPayload snap.imagePng
  else if snap.contentType = .files then
    let w := writeFileEntries (encodeFileMetadata sys) w 0 snap.filePaths
    writeFileEntries (encodeVirtualFileMetadata sys) w 0 snap.virtualFiles
  else w

def encodeClipboardEnvelope (sys : Platform) (outer : HelperMessageType)
    (clipboardData : Bytes) : Bytes :=
  encodeEnvelope sys outer kFieldClipboardData clipboardData

def encodeDataRequest (sys : Platform) (contentHash : Bytes)
    (contentType : ClipboardContentType) : Bytes :=
  let inner : Writer := []
  let inner := inner.writeStringField kReqFieldContentHash contentHash
  let inner := inner.writeEnumField kReqFieldContentType contentType.value
  encodeEnvelope sys .dataRequest kFieldDataRequest inner

def encodeFileChunkRequestOutbound (sys : Platform) (transferId fileId : Bytes)
    (offset : UInt64) (size : UInt32) : Bytes :=
  let inner : Writer := []
  let inner := inner.writeStringField kFCReqFieldTransferId transferId
  let inner := inner.writeStringField kFCReqFieldFileId fileId
  let inner := inner.writeUint64Field kFCReqFieldOffset offset
  let inner := inner.writeUint64Field kFCReqFieldSize size.toUInt64
  encodeEnvelope sys .fileChunkRequest kFieldFileChunkRequest inner

def encodeFileChunkData (sys : Platform) (transferId fileId : Bytes) (offset : UInt64)
    (data : Bytes) (isLast : Bool) (errorMsg : Bytes) : Bytes :=
  let inner : Writer := []
  let inner := inner.writeStringField kFCDataFieldTransferId transferId
  let inner := inner.writeStringField kFCDataFieldFileId fileId
  let inner := inner.writeUint64Field kFCDataFieldOffset offset
  let inner := inner.writeBytesField kFCDataFieldData data
  let inner := inner.writeBoolField kFCDataFieldIsLast isLast
  let inner := if errorMsg = [] then inner
    else inner.writeStringField kFCDataFieldError errorMsg
  encodeEnvelope sys .fileChunkData kFieldFileChunkData inner

/-! ## Decoders -/

/-- A varint stored by `set`. -/
def varintInto {α : Type} (set : UInt64 → α → α) (out : α) (r : Reader) : Option (α × Reader) :=
  r.readVarint.map (fun (v, r) => (set v out, r))

/-- A length-delimited slice stored by `set`. -/
def sliceInto {α : Type} (set : Bytes → α → α) (out : α) (r : Reader) : Option (α × Reader) :=
  r.readLengthDelim.map (fun (d, r) => (set d out, r))

/-- A field that the parser does not use. -/
def skipped {α : Type} (out : α) (wire : WireType) (r : Reader) : Option (α × Reader) :=
  (r.skipField wire).map (fun r => (out, r))

def helperMessageField : OnField ParsedHelperMessage := fun out field wire r =>
  if field = kFieldType ∧ wire = .varint then
    varintInto (fun v out => { out with type := ⟨enumOfVarint v⟩ }) out r
  else if field = kFieldClipboardData ∧ wire = .lengthDelim then
    sliceInto (fun d out => { out with clipboardData := some d }) out r
  else if field = kFieldAnnouncement ∧ wire = .lengthDelim then
    sliceInto (fun d out => { out with announcement := some d }) out r
  else if field = kFieldProvideData ∧ wire = .lengthDelim then
    sliceInto (fun d out => { out with provideData := some d }) out r
  else if field = kFieldFileChunkRequest ∧ wire = .lengthDelim then
    sliceInto (fun d out => { out with fileChunkRequest := some d }) out r
  else if field = kFieldFileChunkData ∧ wire = .lengthDelim then
    sliceInto (fun d out => { out with fileChunkData := some d }) out r
  else skipped out wire r

def parseHelperMessage (data : Bytes) (out : ParsedHelperMessage) :
    Option ParsedHelperMessage :=
  parse helperMessageField data out

def clipboardDataField : OnField ParsedClipboardData := fun out field wire r =>
  if field = kCDFieldContentType ∧ wire = .varint then
    varintInto (fun v out => { out with contentType := ⟨enumOfVarint v⟩ }) out r
  else if field = kCDFieldPayload ∧ wire = .lengthDelim then
    sliceInto (fun d out => { out with payload := some d }) out r
  else if field = kCDFieldFiles ∧ wire = .lengthDelim then
    sliceInto (fun d out => { out with files := out.files ++ [d] }) out r
  else skipped out wire r

def parseClipboardData (data : Bytes) (out : ParsedClipboardData) :
    Option ParsedClipboardData :=
  parse clipboardDataField data out

def announcementField : OnField ParsedAnnouncement := fun out field wire r =>
  if field = kAnnFieldContentType ∧ wire = .varint then
    varintInto (fun v out => { out with contentType := ⟨enumOfVarint v⟩ }) out r
  else if field = kAnnFieldContentHash ∧ wire = .lengthDelim then
    sliceInto (fun d out => { out with contentHash := d }) out r
  else if field = kAnnFieldFiles ∧ wire = .lengthDelim then
    sliceInto (fun d out => { out with files := out.files ++ [d] }) out r
  else if field = kAnnFieldTransferId ∧ wire = .lengthDelim then
    sliceInto (fun d out => { out with transferId := d }) out r
  else skipped out wire r

def parseAnnouncement (data : Bytes) (out : ParsedAnnouncement) : Option ParsedAnnouncement :=
  parse announcementField data out

/-- The locals of `ParseFileMetadataForVirtualFile`. -/
structure FileMetadataFields where
  fileId : Bytes := []
  filename : Bytes := []
  relativePath : Bytes := []
  fileSize : UInt64 := 0
  isDirectory : Bool := false
deriving DecidableEq, Repr

def fileMetadataField : OnField FileMetadataFields := fun out field wire r =>
  if field = kFMFieldFileId ∧ wire = .lengthDelim then
    sliceInto (fun d out => { out with fileId := d }) out r
  else if field = kFMFieldFilename ∧ wire = .lengthDelim then
    sliceInto (fun d out => { out with filename := d }) out r
  else if field = kFMFieldRelativePath ∧ wire = .lengthDelim then
    sliceInto (fun d out => { out with relativePath := d }) out r
  else if field = kFMFieldFileSize ∧ wire = .varint then
    varintInto (fun v out => { out with fileSize := v }) out r
  else if field = kFMFieldIsDirectory ∧ wire = .varint then
    varintInto (fun v out => { out with isDirectory := v ≠ 0 }) out r
  else skipped out wire r

/-- `ParseFileMetadataForVirtualFile`; it overwrites every field of its
output, so the output it starts from does not matter. -/
def parseFileMetadataForVirtualFile (sys : Platform) (data : Bytes) :
    Option VirtualFileSpec :=
  match parse fileMetadataField data {} with
  | none => none
  | some fields =>
    if fields.fileId = [] then none
    else
      let display := if fields.relativePath ≠ [] then fields.relativePath else fields.filename
      if display = [] then none
      else some
        { name := utf8ToWide sys display, size := fields.fileSize, fileId := fields.fileId,
          isDirectory := fields.isDirectory }

def provideDataField : OnField ParsedProvideData := fun out field wire r =>
  if field = kPDFieldContentHash ∧ wire = .lengthDelim then
    sliceInto (fun d out => { out with contentHash := d }) out r
  else if field = kPDFieldData ∧ wire = .lengthDelim then
    sliceInto (fun d out => { out with data := d }) out r
  else skipped out wire r

def parseProvideData (data : Bytes) (out : ParsedProvideData) : Option ParsedProvideData :=
  parse provideDataField data out

def fileChunkRequestField : OnField ParsedFileChunkRequest := fun out field wire r =>
  if field = kFCReqFieldTransferId then
    if wire ≠ .lengthDelim then skipped out wire r
    else sliceInto (fun d out => { out with transferId := d }) out r
  else if field = kFCReqFieldFileId then
    if wire ≠ .lengthDelim then skipped out wire r
    else sliceInto (fun d out => { out with fileId := d }) out r
  else if field = kFCReqFieldOffset then
    if wire ≠ .varint then skipped out wire r
    else varintInto (fun v out => { out with offset := v }) out r
  else if field = kFCReqFieldSize then
    if wire ≠ .varint then skipped out wire r
    else varintInto (fun v out => { out with size := v.toUInt32 }) out r
  else skipped out wire r

def parseFileChunkRequest (data : Bytes) (out : ParsedFileChunkRequest) :
    Option ParsedFileChunkRequest :=
  parse fileChunkRequestField data out

def fileChunkDataField : OnField ParsedFileChunkData := fun out field wire r =>
  if field = kFCDataFieldTransferId then
    if wire ≠ .lengthDelim then skipped out wire r
    else sliceInto (fun d out => { out with transferId := d }) out r
  else if field = kFCDataFieldFileId then
    if wire ≠ .lengthDelim then skipped out wire r
    else sliceInto (fun d out => { out with fileId := d }) out r
  else if field = kFCDataFieldOffset then
    if wire ≠ .varint then skipped out wire r
    else varintInto (fun v out => { out with offset := v }) out r
  else if field = kFCDataFieldData then
    if wire ≠ .lengthDelim then skipped out wire r
    else sliceInto (fun d out => { out with data := d }) out r
  else if field = kFCDataFieldIsLast then
    if wire ≠ .varint then skipped out wire r
    else varintInto (fun v out => { out with isLast := v ≠ 0 }) out r
  else if field = kFCDataFieldError then
    if wire ≠ .lengthDelim then skipped out wire r
    else sliceInto (fun d out => { out with error := d }) out r
  else skipped out wire r

def parseFileChunkData (data : Bytes) (out : ParsedFileChunkData) :
    Option ParsedFileChunkData :=
  parse fileChunkDataField data out

/-- The loop of `ExtractRelativePath`, which returns at the first
`relative_path`. -/
def extractRelativePathLoop : Nat → Reader → Option Bytes
  | 0, _ => none
  | n + 1, r =>
    if r.eof then none
    else
      match r.readTag with
      | none => none
      | some (field, wire, r) =>
        if field = kFMFieldRelativePath ∧ wire = .lengthDelim then
          r.readLengthDelim.map Prod.fst
        else
          match r.skipField wire with
          | none => none
          | some r => extractRelativePathLoop n r

def extractRelativePath (data : Bytes) : Option Bytes :=
  extractRelativePathLoop data.length ⟨data, 0⟩

end DispatchCodec
