import ClipboardHelper.ContentFrames

/-!
# The codec of the Windows helper round-trips

Every encoder writes its message as a sequence of fields, some of them left
out because they hold their proto3 default.  Each field is a piece that the
matching parser absorbs (`ProtoWire.Absorbs`), so a message parses by going
through its pieces; a field that was left out leaves the default in place,
which is the value it would have carried.

`codec_round_trip` collects the three message kinds that travel both ways.
In a Files snapshot the entry at position `i` comes back with the numeral of
`i` cast to 32 bits as its `file_id`: the index is a `std::uint32_t` in
`EncodeFileMetadata`.  `file_id_wraps` is a snapshot with an entry too many.
-/

namespace DispatchCodec

open Library ProtoWire

/-- The sign extension that `WriteInt32Field` applies is undone by the cast
to the enumeration. -/
theorem enumOfVarint_signExtend (x : Int32) : enumOfVarint x.toInt64.toUInt64 = x := by
  apply Int32.toBitVec_inj.mp
  change (x.toBitVec.signExtend 64).setWidth 32 = x.toBitVec
  ext i hi
  have hi' : i < 64 := by omega
  rw [BitVec.getElem_setWidth, BitVec.getLsbD_signExtend]
  simp [hi, hi']

/-! ## Lengths -/

theorem length_le_writeSubMessageField (w : Writer) (field : UInt32) (sub : Bytes) :
    w.length + sub.length ≤ (w.writeSubMessageField field sub).length := by
  simp only [Writer.writeSubMessageField, Writer.writeTag, Writer.writeVarint,
    List.length_append]
  omega

theorem length_le_writeBytesField (w : Writer) (field : UInt32) (value : Bytes) :
    w.length + value.length ≤ (w.writeBytesField field value).length := by
  unfold Writer.writeBytesField
  split
  · simp_all
  · exact length_le_writeSubMessageField w field value

theorem length_le_encodeEnvelope (sys : Platform) (type : HelperMessageType) (field : UInt32)
    (inner : Bytes) : inner.length ≤ (encodeEnvelope sys type field inner).length := by
  have hsub := length_le_writeSubMessageField (Writer.writeEnumField [] kFieldType type.value)
    field inner
  simp only [encodeEnvelope]
  rw [Writer.writeUint64Field_append, List.length_append]
  omega

/-! ## The envelope -/

/-- The type field of an envelope. -/
theorem absorbs_type (type : HelperMessageType) :
    Absorbs helperMessageField (Writer.writeEnumField [] kFieldType type.value)
      {} { type := type } := by
  have h : Absorbs helperMessageField (Writer.writeInt32Field [] kFieldType type.value) {} _ :=
    Absorbs.int32Field (fun v out => { out with type := ⟨enumOfVarint v⟩ }) (by decide)
      (fun _ => rfl) rfl type.value
  simp only [enumOfVarint_signExtend] at h
  exact h

/-- The timestamp is skipped. -/
theorem absorbs_timestamp (clock : UInt64) (out : ParsedHelperMessage) :
    Absorbs helperMessageField (Writer.writeUint64Field [] kFieldTimestamp clock) out out := by
  refine Absorbs.uint64Field (fun _ out => out) (by decide) ?_ rfl clock
  intro r
  change skipped out .varint r = _
  simp only [skipped, Reader.skipField, if_true, Option.map_map]
  rfl

/-- **An envelope parses** to its type and the slice of its sub-message. -/
theorem parseHelperMessage_encodeEnvelope (sys : Platform) (type : HelperMessageType)
    (field : UInt32) {inner : Bytes} (set : Bytes → ParsedHelperMessage → ParsedHelperMessage)
    (hfield : field.toNat < 2 ^ 29)
    (hstep : ∀ out r, helperMessageField out field .lengthDelim r = sliceInto set out r)
    (hlen : inner.length < 2 ^ 64) :
    parseHelperMessage (encodeEnvelope sys type field inner) {} =
      some (set inner { type := type }) := by
  have hpieces := ((absorbs_type type).append
    (Absorbs.subMessageField set hfield (hstep _) hlen)).append
    (absorbs_timestamp sys.clock _)
  simp only [parseHelperMessage, encodeEnvelope]
  rw [Writer.writeUint64Field_append, Writer.writeSubMessageField_append, hpieces.parse]

/-! ## The two chunk messages -/

/-- The fields of a `FILE_CHUNK_REQUEST`. -/
def fileChunkRequestFields (transferId fileId : Bytes) (offset : UInt64)
    (size : UInt32) : Bytes :=
  Writer.writeStringField [] kFCReqFieldTransferId transferId ++
    Writer.writeStringField [] kFCReqFieldFileId fileId ++
    Writer.writeUint64Field [] kFCReqFieldOffset offset ++
    Writer.writeUint64Field [] kFCReqFieldSize size.toUInt64

theorem encodeFileChunkRequestOutbound_eq (sys : Platform) (transferId fileId : Bytes)
    (offset : UInt64) (size : UInt32) :
    encodeFileChunkRequestOutbound sys transferId fileId offset size =
      encodeEnvelope sys .fileChunkRequest kFieldFileChunkRequest
        (fileChunkRequestFields transferId fileId offset size) := by
  simp only [encodeFileChunkRequestOutbound, fileChunkRequestFields, Writer.writeStringField]
  rw [Writer.writeUint64Field_append, Writer.writeUint64Field_append _ kFCReqFieldOffset,
    Writer.writeBytesField_append _ kFCReqFieldFileId]

theorem parseFileChunkRequest_fields {transferId fileId : Bytes} {offset : UInt64}
    {size : UInt32}
    (hlen : (fileChunkRequestFields transferId fileId offset size).length < 2 ^ 64) :
    parseFileChunkRequest (fileChunkRequestFields transferId fileId offset size) {} =
      some { transferId := transferId, fileId := fileId, offset := offset, size := size } := by
  have htransfer := length_le_writeBytesField [] kFCReqFieldTransferId transferId
  have hfile := length_le_writeBytesField [] kFCReqFieldFileId fileId
  simp only [fileChunkRequestFields, Writer.writeStringField, List.length_append] at hlen
  have hpieces : Absorbs fileChunkRequestField
      (fileChunkRequestFields transferId fileId offset size) {} _ :=
    (((Absorbs.bytesField (fun d out => { out with transferId := d }) (by decide)
        (fun _ => rfl) rfl (by omega)).append
      (Absorbs.bytesField (fun d out => { out with fileId := d }) (by decide)
        (fun _ => rfl) rfl (by omega))).append
      (Absorbs.uint64Field (fun v out => { out with offset := v }) (by decide)
        (fun _ => rfl) rfl offset)).append
      (Absorbs.uint64Field (fun v out => { out with size := v.toUInt32 }) (by decide)
        (fun _ => rfl) rfl size.toUInt64)
  rw [parseFileChunkRequest, hpieces.parse, UInt32.toUInt32_toUInt64]

/-- The fields of a `FILE_CHUNK_DATA`. -/
def fileChunkDataFields (transferId fileId : Bytes) (offset : UInt64) (data : Bytes)
    (isLast : Bool) (errorMsg : Bytes) : Bytes :=
  Writer.writeStringField [] kFCDataFieldTransferId transferId ++
    Writer.writeStringField [] kFCDataFieldFileId fileId ++
    Writer.writeUint64Field [] kFCDataFieldOffset offset ++
    Writer.writeBytesField [] kFCDataFieldData data ++
    Writer.writeBoolField [] kFCDataFieldIsLast isLast ++
    Writer.writeStringField [] kFCDataFieldError errorMsg

theorem encodeFileChunkData_eq (sys : Platform) (transferId fileId : Bytes) (offset : UInt64)
    (data : Bytes) (isLast : Bool) (errorMsg : Bytes) :
    encodeFileChunkData sys transferId fileId offset data isLast errorMsg =
      encodeEnvelope sys .fileChunkData kFieldFileChunkData
        (fileChunkDataFields transferId fileId offset data isLast errorMsg) := by
  have herror : ∀ w : Writer, (if errorMsg = [] then w
      else w.writeStringField kFCDataFieldError errorMsg) =
        w ++ Writer.writeStringField [] kFCDataFieldError errorMsg := by
    intro w
    rw [Writer.writeStringField, Writer.writeStringField, ← Writer.writeBytesField_append]
    by_cases hempty : errorMsg = []
    · rw [if_pos hempty, Writer.writeBytesField, if_pos hempty]
    · rw [if_neg hempty]
  simp only [encodeFileChunkData, fileChunkDataFields, herror]
  simp only [Writer.writeStringField]
  rw [Writer.writeBoolField_append, Writer.writeBytesField_append _ kFCDataFieldData,
    Writer.writeUint64Field_append, Writer.writeBytesField_append _ kFCDataFieldFileId]

theorem parseFileChunkData_fields {transferId fileId : Bytes} {offset : UInt64}
    {data : Bytes} {isLast : Bool} {errorMsg : Bytes}
    (hlen : (fileChunkDataFields transferId fileId offset data isLast errorMsg).length <
      2 ^ 64) :
    parseFileChunkData (fileChunkDataFields transferId fileId offset data isLast errorMsg) {} =
      some { transferId := transferId, fileId := fileId, offset := offset, data := data,
             isLast := isLast, error := errorMsg } := by
  have htransfer := length_le_writeBytesField [] kFCDataFieldTransferId transferId
  have hfile := length_le_writeBytesField [] kFCDataFieldFileId fileId
  have hdata := length_le_writeBytesField [] kFCDataFieldData data
  have herror := length_le_writeBytesField [] kFCDataFieldError errorMsg
  simp only [fileChunkDataFields, Writer.writeStringField, List.length_append] at hlen
  have hpieces : Absorbs fileChunkDataField
      (fileChunkDataFields transferId fileId offset data isLast errorMsg) {} _ :=
    (((((Absorbs.bytesField (fun d out => { out with transferId := d }) (by decide)
        (fun _ => rfl) rfl (by omega)).append
      (Absorbs.bytesField (fun d out => { out with fileId := d }) (by decide)
        (fun _ => rfl) rfl (by omega))).append
      (Absorbs.uint64Field (fun v out => { out with offset := v }) (by decide)
        (fun _ => rfl) rfl offset)).append
      (Absorbs.bytesField (fun d out => { out with data := d }) (by decide)
        (fun _ => rfl) rfl (by omega))).append
      (Absorbs.boolField (fun v out => { out with isLast := v ≠ 0 }) (by decide)
        (fun _ => rfl) rfl isLast)).append
      (Absorbs.bytesField (fun d out => { out with error := d }) (by decide)
        (fun _ => rfl) rfl (by omega))
  rw [parseFileChunkData, hpieces.parse]
  cases isLast <;> rfl

/-! ## File entries -/

theorem decimal_ne_nil (n : Nat) : decimal n ≠ [] := by
  simp [decimal, Nat.toDigits_ne_nil]

theorem length_le_writeFileEntries {ε : Type} (encode : UInt32 → ε → Bytes)
    (entries : List ε) : ∀ (w : Writer) (i : Nat),
      w.length ≤ (writeFileEntries encode w i entries).length := by
  induction entries with
  | nil => exact fun w i => le_refl _
  | cons entry entries ih =>
      intro w i
      have hsub := length_le_writeSubMessageField w kCDFieldFiles (encode (UInt32.ofNat i) entry)
      exact (Nat.le_of_add_right_le hsub).trans (ih _ (i + 1))

/-- **The entry loop.**  Each round appends one slice to the parsed list. -/
theorem absorbs_fileEntries {ε : Type} (encode : UInt32 → ε → Bytes) (entries : List ε) :
    ∀ {w : Writer} {i : Nat} {out₀ out : ParsedClipboardData},
      Absorbs clipboardDataField w out₀ out →
      (writeFileEntries encode w i entries).length < 2 ^ 64 →
      Absorbs clipboardDataField (writeFileEntries encode w i entries) out₀
        { out with files := out.files ++
            entries.mapIdx (fun j entry => encode (UInt32.ofNat (i + j)) entry) } := by
  induction entries with
  | nil =>
      intro w i out₀ out hw _
      simpa [writeFileEntries] using hw
  | cons entry entries ih =>
      intro w i out₀ out hw hlen
      have hsub := length_le_writeSubMessageField w kCDFieldFiles (encode (UInt32.ofNat i) entry)
      have hrest := length_le_writeFileEntries encode entries
        (w.writeSubMessageField kCDFieldFiles (encode (UInt32.ofNat i) entry)) (i + 1)
      simp only [writeFileEntries] at hlen ⊢
      have hpiece : Absorbs clipboardDataField (Writer.writeSubMessageField [] kCDFieldFiles
          (encode (UInt32.ofNat i) entry)) out
          { out with files := out.files ++ [encode (UInt32.ofNat i) entry] } := by
        apply Absorbs.subMessageField
          (fun d (out : ParsedClipboardData) => { out with files := out.files ++ [d] })
        · decide
        · exact fun _ => rfl
        · omega
      have hentry := hw.append hpiece
      rw [← Writer.writeSubMessageField_append] at hentry
      have hall := ih hentry hlen
      simp only [List.mapIdx_cons, Nat.add_zero]
      simpa [Nat.add_assoc, Nat.add_comm 1] using hall

/-- The fields of a `FileMetadata` message. -/
def fileMetadataFields (fileId filename relativePath : Bytes) (fileSize : UInt64) : Bytes :=
  Writer.writeStringField [] kFMFieldFileId fileId ++
    Writer.writeStringField [] kFMFieldFilename filename ++
    Writer.writeStringField [] kFMFieldRelativePath relativePath ++
    Writer.writeUint64Field [] kFMFieldFileSize fileSize

theorem encodeFileMetadata_eq (sys : Platform) (index : UInt32) (fullPath : WideString) :
    encodeFileMetadata sys index fullPath =
      fileMetadataFields (decimal index.toNat) (wideToUtf8 sys (basename fullPath))
        (wideToUtf8 sys fullPath) ((sys.getFileAttributesEx fullPath).getD 0) := by
  simp only [encodeFileMetadata, fileMetadataFields, Writer.writeStringField]
  rw [Writer.writeUint64Field_append, Writer.writeBytesField_append _ kFMFieldRelativePath,
    Writer.writeBytesField_append _ kFMFieldFilename]

/-- A virtual entry carries no relative path. -/
theorem encodeVirtualFileMetadata_eq (sys : Platform) (index : UInt32)
    (entry : VirtualFileEntry) :
    encodeVirtualFileMetadata sys index entry =
      fileMetadataFields (decimal index.toNat) (wideToUtf8 sys entry.name) [] entry.size := by
  simp only [encodeVirtualFileMetadata, fileMetadataFields, Writer.writeStringField]
  rw [Writer.writeUint64Field_append, Writer.writeBytesField_append _ kFMFieldFilename]
  simp [Writer.writeBytesField]

theorem parse_fileMetadataFields {fileId filename relativePath : Bytes} {fileSize : UInt64}
    (hlen : (fileMetadataFields fileId filename relativePath fileSize).length < 2 ^ 64) :
    parse fileMetadataField (fileMetadataFields fileId filename relativePath fileSize) {} =
      some { fileId := fileId, filename := filename, relativePath := relativePath,
             fileSize := fileSize } := by
  have hid := length_le_writeBytesField [] kFMFieldFileId fileId
  have hname := length_le_writeBytesField [] kFMFieldFilename filename
  have hpath := length_le_writeBytesField [] kFMFieldRelativePath relativePath
  simp only [fileMetadataFields, Writer.writeStringField, List.length_append] at hlen
  have hpieces : Absorbs fileMetadataField
      (fileMetadataFields fileId filename relativePath fileSize) {} _ :=
    (((Absorbs.bytesField (fun d out => { out with fileId := d }) (by decide)
        (fun _ => rfl) rfl (by omega)).append
      (Absorbs.bytesField (fun d out => { out with filename := d }) (by decide)
        (fun _ => rfl) rfl (by omega))).append
      (Absorbs.bytesField (fun d out => { out with relativePath := d }) (by decide)
        (fun _ => rfl) rfl (by omega))).append
      (Absorbs.uint64Field (fun v out => { out with fileSize := v }) (by decide)
        (fun _ => rfl) rfl fileSize)
  exact hpieces.parse

theorem wideToUtf8_ne_nil {sys : Platform} {w : WideString} (hw : w ≠ [])
    (hconv : utf8ToWide sys (wideToUtf8 sys w) = w) : wideToUtf8 sys w ≠ [] := by
  intro hnil
  rw [hnil, utf8ToWide, if_pos rfl] at hconv
  exact hw hconv.symm

/-- **A physical entry decodes** to its path. -/
theorem parse_encodeFileMetadata {sys : Platform} {index : UInt32} {fullPath : WideString}
    (hlen : (encodeFileMetadata sys index fullPath).length < 2 ^ 64) (hpath : fullPath ≠ [])
    (hconv : utf8ToWide sys (wideToUtf8 sys fullPath) = fullPath) :
    parseFileMetadataForVirtualFile sys (encodeFileMetadata sys index fullPath) =
      some { name := fullPath, size := (sys.getFileAttributesEx fullPath).getD 0,
             fileId := decimal index.toNat } := by
  rw [encodeFileMetadata_eq] at hlen ⊢
  have hutf8 := wideToUtf8_ne_nil hpath hconv
  simp only [parseFileMetadataForVirtualFile, parse_fileMetadataFields hlen, decimal_ne_nil,
    if_false, ne_eq, hutf8, not_false_eq_true, if_true, hconv]

/-- **A virtual entry decodes** to its name. -/
theorem parse_encodeVirtualFileMetadata {sys : Platform} {index : UInt32}
    {entry : VirtualFileEntry}
    (hlen : (encodeVirtualFileMetadata sys index entry).length < 2 ^ 64)
    (hname : entry.name ≠ [])
    (hconv : utf8ToWide sys (wideToUtf8 sys entry.name) = entry.name) :
    parseFileMetadataForVirtualFile sys (encodeVirtualFileMetadata sys index entry) =
      some { name := entry.name, size := entry.size, fileId := decimal index.toNat } := by
  rw [encodeVirtualFileMetadata_eq] at hlen ⊢
  have hutf8 := wideToUtf8_ne_nil hname hconv
  simp only [parseFileMetadataForVirtualFile, parse_fileMetadataFields hlen, decimal_ne_nil,
    if_false, ne_eq, not_true_eq_false, hutf8, hconv]

/-- Every encoded entry fits in the message that carries it. -/
theorem length_entry_le {ε : Type} (encode : UInt32 → ε → Bytes) (entries : List ε) :
    ∀ (w : Writer) (i : Nat) {m : Bytes},
      m ∈ entries.mapIdx (fun j entry => encode (UInt32.ofNat (i + j)) entry) →
      m.length ≤ (writeFileEntries encode w i entries).length := by
  induction entries with
  | nil => simp
  | cons entry entries ih =>
      intro w i m hm
      rw [List.mapIdx_cons, List.mem_cons] at hm
      rcases hm with rfl | hm
      · have hsub := length_le_writeSubMessageField w kCDFieldFiles
          (encode (UInt32.ofNat i) entry)
        have hrest := length_le_writeFileEntries encode entries
          (w.writeSubMessageField kCDFieldFiles (encode (UInt32.ofNat i) entry)) (i + 1)
        simp only [writeFileEntries, Nat.add_zero]
        omega
      · apply ih
        simpa [Nat.add_assoc, Nat.add_comm 1] using hm

/-! ## Snapshots -/

/-- The payload bytes that a snapshot is encoded with. -/
def snapshotPayload (sys : Platform) (snap : ClipboardSnapshot) : Bytes :=
  if snap.contentType = .text then wideToUtf8 sys snap.text
  else if snap.contentType = .image then snap.imagePng
  else []

/-- The file messages that a snapshot is encoded with. -/
def snapshotFiles (sys : Platform) (snap : ClipboardSnapshot) : List Bytes :=
  if snap.contentType = .files then
    snap.filePaths.mapIdx (fun i path => encodeFileMetadata sys (UInt32.ofNat i) path) ++
      snap.virtualFiles.mapIdx (fun i entry =>
        encodeVirtualFileMetadata sys (UInt32.ofNat i) entry)
  else []

/-- The content type field of a snapshot. -/
theorem absorbs_contentType (type : ClipboardContentType) :
    Absorbs clipboardDataField (Writer.writeEnumField [] kCDFieldContentType type.value)
      {} { contentType := type } := by
  have h : Absorbs clipboardDataField
      (Writer.writeInt32Field [] kCDFieldContentType type.value) {} _ :=
    Absorbs.int32Field (fun v out => { out with contentType := ⟨enumOfVarint v⟩ }) (by decide)
      (fun _ => rfl) rfl type.value
  simp only [enumOfVarint_signExtend] at h
  exact h

/-- The slice that a parsed payload points to: an empty payload is not
written and leaves the null pointer. -/
def payloadSlice (payload : Bytes) : Option Bytes :=
  if payload = [] then none else some payload

theorem payloadSlice_getD (payload : Bytes) : (payloadSlice payload).getD [] = payload := by
  unfold payloadSlice
  split <;> simp_all

theorem absorbs_payload {payload : Bytes} (out : ParsedClipboardData)
    (hnull : out.payload = none) (hlen : payload.length < 2 ^ 64) :
    Absorbs clipboardDataField (Writer.writeBytesField [] kCDFieldPayload payload) out
      { out with payload := payloadSlice payload } := by
  unfold Writer.writeBytesField payloadSlice
  by_cases hempty : payload = []
  · rw [if_pos hempty, if_pos hempty, ← hnull]
    exact .nil
  · rw [if_neg hempty, if_neg hempty]
    apply Absorbs.subMessageField
      (fun d (out : ParsedClipboardData) => { out with payload := some d })
    · decide
    · exact fun _ => rfl
    · exact hlen

/-- Without files, a snapshot is its content type and its payload. -/
theorem encodeClipboardData_of_not_files (sys : Platform) {snap : ClipboardSnapshot}
    (hfiles : snap.contentType ≠ .files) :
    encodeClipboardData sys snap =
      (Writer.writeEnumField [] kCDFieldContentType snap.contentType.value).writeBytesField
        kCDFieldPayload (snapshotPayload sys snap) := by
  unfold encodeClipboardData snapshotPayload
  by_cases htext : snap.contentType = .text
  · simp only [if_pos htext]
  · by_cases himage : snap.contentType = .image
    · simp only [if_neg htext, if_pos himage]
    · simp only [if_neg htext, if_neg himage, if_neg hfiles]
      rfl

/-- With files, it is its content type and the two entry loops. -/
theorem encodeClipboardData_of_files (sys : Platform) {snap : ClipboardSnapshot}
    (hfiles : snap.contentType = .files) :
    encodeClipboardData sys snap =
      writeFileEntries (encodeVirtualFileMetadata sys)
        (writeFileEntries (encodeFileMetadata sys)
          (Writer.writeEnumField [] kCDFieldContentType snap.contentType.value) 0
          snap.filePaths) 0 snap.virtualFiles := by
  have htext : snap.contentType ≠ .text := by
    rw [hfiles]
    decide
  have himage : snap.contentType ≠ .image := by
    rw [hfiles]
    decide
  simp only [encodeClipboardData, if_neg htext, if_neg himage, if_pos hfiles]

/-- **A snapshot parses** to its content type, payload and file messages. -/
theorem parseClipboardData_encode {sys : Platform} {snap : ClipboardSnapshot}
    (hlen : (encodeClipboardData sys snap).length < 2 ^ 64) :
    parseClipboardData (encodeClipboardData sys snap) {} =
      some { contentType := snap.contentType,
             payload := payloadSlice (snapshotPayload sys snap),
             files := snapshotFiles sys snap } := by
  have htype := absorbs_contentType snap.contentType
  by_cases hfiles : snap.contentType = .files
  · have hpayload : snapshotPayload sys snap = [] := by
      unfold snapshotPayload
      rw [hfiles]
      rfl
    rw [encodeClipboardData_of_files sys hfiles] at hlen ⊢
    have hphysical := absorbs_fileEntries (encodeFileMetadata sys) snap.filePaths htype
      ((length_le_writeFileEntries (encodeVirtualFileMetadata sys) snap.virtualFiles
        _ 0).trans_lt hlen)
    have hvirtual := absorbs_fileEntries (encodeVirtualFileMetadata sys)
      snap.virtualFiles hphysical hlen
    rw [parseClipboardData, hvirtual.parse, hpayload, snapshotFiles, if_pos hfiles]
    simp only [Nat.zero_add, List.nil_append]
    rfl
  · rw [encodeClipboardData_of_not_files sys hfiles] at hlen ⊢
    have hpayload := length_le_writeBytesField
      (Writer.writeEnumField [] kCDFieldContentType snap.contentType.value) kCDFieldPayload
      (snapshotPayload sys snap)
    rw [parseClipboardData, Writer.writeBytesField_append,
      (htype.append (absorbs_payload _ rfl (by omega))).parse, snapshotFiles, if_neg hfiles]

theorem toNat_index (i : Nat) : (UInt32.ofNat i).toNat = i % 2 ^ 32 :=
  UInt32.toNat_ofNat'

/-- A physical entry of a Files snapshot, as the receiver decodes it. -/
theorem snapshotFiles_physical {sys : Platform} {snap : ClipboardSnapshot}
    (hlen : (encodeClipboardData sys snap).length < 2 ^ 64) (hfiles : snap.contentType = .files)
    {i : Nat} {path : WideString} (hi : snap.filePaths[i]? = some path) (hpath : path ≠ [])
    (hconv : utf8ToWide sys (wideToUtf8 sys path) = path) :
    ∃ entry, (snapshotFiles sys snap)[i]? = some entry ∧
      parseFileMetadataForVirtualFile sys entry =
        some { name := path, size := (sys.getFileAttributesEx path).getD 0,
               fileId := decimal (i % 2 ^ 32) } := by
  have hget : (snap.filePaths.mapIdx fun i path =>
      encodeFileMetadata sys (UInt32.ofNat i) path)[i]? =
        some (encodeFileMetadata sys (UInt32.ofNat i) path) := by
    rw [List.getElem?_mapIdx, hi, Option.map_some]
  refine ⟨encodeFileMetadata sys (UInt32.ofNat i) path, ?_, ?_⟩
  · rw [snapshotFiles, if_pos hfiles]
    exact List.getElem?_append_left (List.getElem?_eq_some_iff.mp hget).1 ▸ hget
  · rw [encodeClipboardData_of_files sys hfiles] at hlen
    have hentry := length_entry_le (encodeFileMetadata sys) snap.filePaths
      (Writer.writeEnumField [] kCDFieldContentType snap.contentType.value) 0
      (by simpa only [Nat.zero_add] using List.mem_of_getElem? hget)
    have houter := length_le_writeFileEntries (encodeVirtualFileMetadata sys)
      snap.virtualFiles (writeFileEntries (encodeFileMetadata sys)
        (Writer.writeEnumField [] kCDFieldContentType snap.contentType.value) 0
        snap.filePaths) 0
    rw [parse_encodeFileMetadata ((hentry.trans houter).trans_lt hlen) hpath hconv, toNat_index]

/-- A virtual entry of a Files snapshot, as the receiver decodes it. -/
theorem snapshotFiles_virtual {sys : Platform} {snap : ClipboardSnapshot}
    (hlen : (encodeClipboardData sys snap).length < 2 ^ 64) (hfiles : snap.contentType = .files)
    (honly : snap.filePaths = []) {i : Nat} {file : VirtualFileEntry}
    (hi : snap.virtualFiles[i]? = some file) (hname : file.name ≠ [])
    (hconv : utf8ToWide sys (wideToUtf8 sys file.name) = file.name) :
    ∃ entry, (snapshotFiles sys snap)[i]? = some entry ∧
      parseFileMetadataForVirtualFile sys entry =
        some { name := file.name, size := file.size, fileId := decimal (i % 2 ^ 32) } := by
  have hget : (snap.virtualFiles.mapIdx fun i entry =>
      encodeVirtualFileMetadata sys (UInt32.ofNat i) entry)[i]? =
        some (encodeVirtualFileMetadata sys (UInt32.ofNat i) file) := by
    rw [List.getElem?_mapIdx, hi, Option.map_some]
  refine ⟨encodeVirtualFileMetadata sys (UInt32.ofNat i) file, ?_, ?_⟩
  · rw [snapshotFiles, if_pos hfiles, honly]
    exact hget
  · rw [encodeClipboardData_of_files sys hfiles] at hlen
    have hentry := length_entry_le (encodeVirtualFileMetadata sys) snap.virtualFiles
      (writeFileEntries (encodeFileMetadata sys)
        (Writer.writeEnumField [] kCDFieldContentType snap.contentType.value) 0
        snap.filePaths) 0
      (by simpa only [Nat.zero_add] using List.mem_of_getElem? hget)
    rw [parse_encodeVirtualFileMetadata (hentry.trans_lt hlen) hname hconv, toNat_index]

/-- **The codec round-trips.**  Decoding an encoded message returns the
message type and every field it was built from; an entry of a Files snapshot
decodes to its path or name, its size, and the numeral of its position cast
to 32 bits. -/
theorem codec_round_trip (sys : Platform) :
    (∀ transferId fileId offset size,
      (encodeFileChunkRequestOutbound sys transferId fileId offset size).length < 2 ^ 64 →
      ∃ msg sub,
        parseHelperMessage (encodeFileChunkRequestOutbound sys transferId fileId offset size)
          {} = some msg ∧
        msg.type = .fileChunkRequest ∧ msg.fileChunkRequest = some sub ∧
        parseFileChunkRequest sub {} =
          some { transferId := transferId, fileId := fileId, offset := offset, size := size }) ∧
    (∀ transferId fileId offset data isLast errorMsg,
      (encodeFileChunkData sys transferId fileId offset data isLast errorMsg).length < 2 ^ 64 →
      ∃ msg sub,
        parseHelperMessage (encodeFileChunkData sys transferId fileId offset data isLast
          errorMsg) {} = some msg ∧
        msg.type = .fileChunkData ∧ msg.fileChunkData = some sub ∧
        parseFileChunkData sub {} =
          some { transferId := transferId, fileId := fileId, offset := offset, data := data,
                 isLast := isLast, error := errorMsg }) ∧
    (∀ outer snap,
      (encodeClipboardEnvelope sys outer (encodeClipboardData sys snap)).length < 2 ^ 64 →
      ∃ msg sub parsed,
        parseHelperMessage (encodeClipboardEnvelope sys outer (encodeClipboardData sys snap))
          {} = some msg ∧
        msg.type = outer ∧ msg.clipboardData = some sub ∧
        parseClipboardData sub {} = some parsed ∧
        parsed.contentType = snap.contentType ∧
        parsed.payload.getD [] = snapshotPayload sys snap ∧
        (snap.contentType ≠ .files → parsed.files = []) ∧
        (snap.contentType = .files → (snap.filePaths = [] ∨ snap.virtualFiles = []) →
          parsed.files.length = snap.filePaths.length + snap.virtualFiles.length ∧
          (∀ i path, snap.filePaths[i]? = some path → path ≠ [] →
            utf8ToWide sys (wideToUtf8 sys path) = path →
            ∃ entry, parsed.files[i]? = some entry ∧
              parseFileMetadataForVirtualFile sys entry =
                some { name := path, size := (sys.getFileAttributesEx path).getD 0,
                       fileId := decimal (i % 2 ^ 32) }) ∧
          (∀ i file, snap.virtualFiles[i]? = some file → file.name ≠ [] →
            utf8ToWide sys (wideToUtf8 sys file.name) = file.name →
            ∃ entry, parsed.files[i]? = some entry ∧
              parseFileMetadataForVirtualFile sys entry =
                some { name := file.name, size := file.size,
                       fileId := decimal (i % 2 ^ 32) }))) := by
  refine ⟨?_, ?_, ?_⟩
  · intro transferId fileId offset size hlen
    rw [encodeFileChunkRequestOutbound_eq] at hlen ⊢
    have hinner := (length_le_encodeEnvelope sys .fileChunkRequest kFieldFileChunkRequest
      _).trans_lt hlen
    have hmsg := parseHelperMessage_encodeEnvelope sys .fileChunkRequest
      kFieldFileChunkRequest (fun d out => { out with fileChunkRequest := some d })
      (by decide) (fun _ _ => rfl) hinner
    exact ⟨_, _, hmsg, rfl, rfl, parseFileChunkRequest_fields hinner⟩
  · intro transferId fileId offset data isLast errorMsg hlen
    rw [encodeFileChunkData_eq] at hlen ⊢
    have hinner := (length_le_encodeEnvelope sys .fileChunkData kFieldFileChunkData
      _).trans_lt hlen
    have hmsg := parseHelperMessage_encodeEnvelope sys .fileChunkData
      kFieldFileChunkData (fun d out => { out with fileChunkData := some d })
      (by decide) (fun _ _ => rfl) hinner
    exact ⟨_, _, hmsg, rfl, rfl, parseFileChunkData_fields hinner⟩
  · intro outer snap hlen
    have hinner := (length_le_encodeEnvelope sys outer kFieldClipboardData _).trans_lt hlen
    have hmsg := parseHelperMessage_encodeEnvelope sys outer kFieldClipboardData
      (fun d out => { out with clipboardData := some d }) (by decide) (fun _ _ => rfl) hinner
    refine ⟨_, _, _, hmsg, rfl, rfl, parseClipboardData_encode hinner, rfl,
      payloadSlice_getD _, fun hfiles => if_neg hfiles, ?_⟩
    intro hfiles honly
    refine ⟨?_, ?_, ?_⟩
    · simp [snapshotFiles, hfiles]
    · intro i path hi hpath hconv
      exact snapshotFiles_physical hinner hfiles hi hpath hconv
    · intro i file hi hname hconv
      rcases honly with honly | hnone
      · exact snapshotFiles_virtual hinner hfiles honly hi hname hconv
      · simp [hnone] at hi

/-- A platform on which text is ASCII and no file exists. -/
def asciiPlatform : Platform where
  multiByteToWideChar s := s.map (fun c => c.toUInt16)
  wideCharToMultiByte w := w.map (fun c => c.toUInt8)
  getFileAttributesEx _ := none
  clock := 1000

/-- One physical file, through the whole codec. -/
theorem codec_round_trip_one_path :
    ∃ msg sub parsed entry,
      parseHelperMessage (encodeClipboardEnvelope asciiPlatform .clipboardContent
        (encodeClipboardData asciiPlatform
          { contentType := .files, filePaths := [[0x43, 0x5C, 0x61]] })) {} = some msg ∧
      msg.clipboardData = some sub ∧ parseClipboardData sub {} = some parsed ∧
      parsed.files[0]? = some entry ∧
      parseFileMetadataForVirtualFile asciiPlatform entry =
        some { name := [0x43, 0x5C, 0x61], fileId := [0x30] } := by
  obtain ⟨msg, sub, parsed, hmsg, -, hsub, hparsed, -, -, -, hfiles⟩ :=
    (codec_round_trip asciiPlatform).2.2 .clipboardContent
      { contentType := .files, filePaths := [[0x43, 0x5C, 0x61]] } (by decide)
  obtain ⟨entry, hentry, hspec⟩ := (hfiles rfl (.inr rfl)).2.1 0 [0x43, 0x5C, 0x61] rfl
    (by decide) (by decide)
  exact ⟨msg, sub, parsed, entry, hmsg, hsub, hparsed, hentry, hspec⟩

/-! ## One entry too many -/

/-- A snapshot of `2 ^ 32 + 1` files, all at the path `a`. -/
def crowdedSnapshot : ClipboardSnapshot where
  contentType := .files
  filePaths := List.replicate (2 ^ 32 + 1) [0x61]

theorem crowded_fileLength_le (index : UInt32) :
    ContentFrames.fileLength asciiPlatform index [0x61] ≤ 100 := by
  have hindex : (decimal index.toNat).length ≤ 10 := by
    rw [decimal, List.length_map]
    exact (Nat.length_toDigits_le_iff (by omega) (by omega)).mpr
      (index.toNat_lt.trans (by norm_num))
  have hutf8 : wideToUtf8 asciiPlatform [0x61] = [0x61] := by decide
  have hbase : basename [0x61] = [0x61] := by decide
  have hsize : numberLength ((asciiPlatform.getFileAttributesEx [0x61]).getD 0) = 0 := rfl
  have hid := stringLength_le (decimal index.toNat).length
  have hname := stringLength_le 1
  rw [ContentFrames.fileLength, hbase, hutf8, hsize, List.length_singleton]
  omega

/-- The length of a snapshot of physical files only. -/
theorem snapshotLength_of_paths (sys : Platform) (paths : List WideString) :
    ContentFrames.snapshotLength sys { contentType := .files, filePaths := paths } =
      2 + ContentFrames.entriesLength (ContentFrames.fileLength sys) 0 paths := rfl

theorem length_crowdedSnapshot :
    (encodeClipboardData asciiPlatform crowdedSnapshot).length < 2 ^ 40 := by
  have hbound : ∀ index, ∀ entry ∈ List.replicate (2 ^ 32 + 1) [0x61],
      ContentFrames.fileLength asciiPlatform index entry ≤ 100 := by
    intro index entry hentry
    rw [List.eq_of_mem_replicate hentry]
    exact crowded_fileLength_le index
  have hentries := ContentFrames.entriesLength_le 100 _ 0 hbound
  rw [List.length_replicate] at hentries
  rw [ContentFrames.length_encodeClipboardData, crowdedSnapshot, snapshotLength_of_paths]
  omega

/-- **The 32-bit index wraps.**  The last of `2 ^ 32 + 1` files comes back
with the `file_id` of the first. -/
theorem file_id_wraps :
    ∃ msg sub parsed entry spec,
      parseHelperMessage (encodeClipboardEnvelope asciiPlatform .clipboardContent
        (encodeClipboardData asciiPlatform crowdedSnapshot)) {} = some msg ∧
      msg.clipboardData = some sub ∧ parseClipboardData sub {} = some parsed ∧
      crowdedSnapshot.filePaths[2 ^ 32]? = some [0x61] ∧
      parsed.files[2 ^ 32]? = some entry ∧
      parseFileMetadataForVirtualFile asciiPlatform entry = some spec ∧
      spec.fileId = decimal 0 ∧ spec.fileId ≠ decimal (2 ^ 32) := by
  have hlen : (encodeClipboardData asciiPlatform crowdedSnapshot).length < 2 ^ 64 :=
    length_crowdedSnapshot.trans (by norm_num)
  have hget : crowdedSnapshot.filePaths[2 ^ 32]? = some [0x61] := by
    rw [crowdedSnapshot, List.getElem?_replicate, if_pos (by norm_num)]
  obtain ⟨entry, hentry, hspec⟩ := snapshotFiles_physical hlen rfl hget (by decide) (by decide)
  have hmsg := parseHelperMessage_encodeEnvelope asciiPlatform .clipboardContent
    kFieldClipboardData (fun d out => { out with clipboardData := some d }) (by decide)
    (fun _ _ => rfl) hlen
  refine ⟨_, _, _, entry, _, hmsg, rfl, parseClipboardData_encode hlen, hget, hentry, hspec,
    ?_, ?_⟩
  · rw [Nat.mod_self]
  · rw [Nat.mod_self]
    exact fun h => absurd (decimal_injective h) (by norm_num)

end DispatchCodec
