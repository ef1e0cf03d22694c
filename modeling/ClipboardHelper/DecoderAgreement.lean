import ClipboardHelper.LinuxCodec

/-!
# The Windows and the Linux decoders agree

A parser decodes some fields and skips the rest, and the two platforms draw
that line differently: Windows keeps the `files` of a message, Linux its hash
and transfer id.  It makes no difference to what is accepted.  Decoding a
varint or a slice moves the reader exactly as skipping it does and fails in
the same cases (`Matched.slice_skip`, `Matched.skip_slice`), so two parsers
that treat each field alike as far as a relation of their outputs can tell
walk through any input together (`parse_matched`).

The outputs that Windows keeps as a pointer into the buffer are compared by
place, not only by content: `locatedMessageField` and
`locatedClipboardDataField` are the Windows handlers with those places, and
forgetting them gives back the handlers of `DispatchCodec`.
-/

namespace DecoderAgreement

open Library ProtoWire DispatchCodec
open LinuxCodec (Slice readSlice rangeInto)

/-! ## Parsers in step -/

/-- Two handlers did the same with the input: both failed, or both succeeded
at the same place with related outputs. -/
def Matched {α β : Type} (R : α → β → Prop) :
    Option (α × Reader) → Option (β × Reader) → Prop :=
  Option.Rel (fun x y => R x.1 y.1 ∧ x.2 = y.2)

section Handlers

variable {α β : Type} {R : α → β → Prop} {a : α} {b : β}

theorem Matched.varint {setA : UInt64 → α → α} {setB : UInt64 → β → β}
    (h : ∀ v, R (setA v a) (setB v b)) (r : Reader) :
    Matched R (varintInto setA a r) (varintInto setB b r) := by
  unfold varintInto
  cases r.readVarint with
  | none => exact .none
  | some read => exact .some ⟨h read.1, rfl⟩

theorem Matched.slice {setA : Bytes → α → α} {setB : Bytes → β → β}
    (h : ∀ d, R (setA d a) (setB d b)) (r : Reader) :
    Matched R (sliceInto setA a r) (sliceInto setB b r) := by
  unfold sliceInto
  cases r.readLengthDelim with
  | none => exact .none
  | some read => exact .some ⟨h read.1, rfl⟩

theorem Matched.range {setA : Slice → α → α} {setB : Slice → β → β}
    (h : ∀ s, R (setA s a) (setB s b)) (r : Reader) :
    Matched R (rangeInto setA a r) (rangeInto setB b r) := by
  unfold rangeInto
  cases readSlice r with
  | none => exact .none
  | some read => exact .some ⟨h read.1, rfl⟩

/-- Keeping the place of a slice next to keeping its bytes. -/
theorem Matched.slice_range {setA : Bytes → α → α} {setB : Slice → β → β}
    (h : ∀ s : Slice, R (setA s.bytes a) (setB s b)) (r : Reader) :
    Matched R (sliceInto setA a r) (rangeInto setB b r) := by
  unfold sliceInto rangeInto readSlice
  cases r.readLengthDelim with
  | none => exact .none
  | some read => exact .some ⟨h ⟨read.2.pos - read.1.length, read.1⟩, rfl⟩

/-- **Decoding a slice moves the reader as skipping it does.** -/
theorem Matched.slice_skip {setA : Bytes → α → α} (h : ∀ d, R (setA d a) b) (r : Reader) :
    Matched R (sliceInto setA a r) (skipped b .lengthDelim r) := by
  have hskip : r.skipField .lengthDelim = r.readLengthDelim.map Prod.snd := rfl
  unfold sliceInto skipped
  rw [hskip]
  cases r.readLengthDelim with
  | none => exact .none
  | some read => exact .some ⟨h read.1, rfl⟩

theorem Matched.range_skip {setA : Slice → α → α} (h : ∀ s, R (setA s a) b) (r : Reader) :
    Matched R (rangeInto setA a r) (skipped b .lengthDelim r) := by
  have hskip : r.skipField .lengthDelim = r.readLengthDelim.map Prod.snd := rfl
  unfold rangeInto readSlice skipped
  rw [hskip]
  cases r.readLengthDelim with
  | none => exact .none
  | some read => exact .some ⟨h ⟨read.2.pos - read.1.length, read.1⟩, rfl⟩

theorem Matched.skip_slice {setB : Bytes → β → β} (h : ∀ d, R a (setB d b)) (r : Reader) :
    Matched R (skipped a .lengthDelim r) (sliceInto setB b r) := by
  have hskip : r.skipField .lengthDelim = r.readLengthDelim.map Prod.snd := rfl
  unfold sliceInto skipped
  rw [hskip]
  cases r.readLengthDelim with
  | none => exact .none
  | some read => exact .some ⟨h read.1, rfl⟩

theorem Matched.skip (h : R a b) (wire : WireType) (r : Reader) :
    Matched R (skipped a wire r) (skipped b wire r) := by
  unfold skipped
  cases r.skipField wire with
  | none => exact .none
  | some read => exact .some ⟨h, rfl⟩

end Handlers

section Parsers

variable {α β : Type} {R : α → β → Prop} {f : OnField α} {g : OnField β}

/-- The loops of two parsers whose handlers match walk together. -/
theorem parseFields_matched
    (hfield : ∀ a b field wire r, R a b → Matched R (f a field wire r) (g b field wire r)) :
    ∀ n a b r, R a b → Option.Rel R (parseFields f n a r) (parseFields g n b r) := by
  intro n
  induction n with
  | zero =>
      intro a b r hR
      unfold parseFields
      cases r.eof with
      | false => exact .none
      | true => exact .some hR
  | succ n ih =>
      intro a b r hR
      unfold parseFields
      cases r.eof with
      | true => exact .some hR
      | false =>
          cases r.readTag with
          | none => exact .none
          | some tag =>
              obtain ⟨field, wire, r'⟩ := tag
              have hstep := hfield a b field wire r' hR
              cases hf : f a field wire r' with
              | none =>
                  cases hg : g b field wire r' with
                  | none => simp [hf, hg]
                  | some y =>
                      rw [hf, hg] at hstep
                      cases hstep
              | some x =>
                  cases hg : g b field wire r' with
                  | none =>
                      rw [hf, hg] at hstep
                      cases hstep
                  | some y =>
                      rw [hf, hg] at hstep
                      cases hstep with
                      | some hxy =>
                          have hrest := ih x.1 y.1 x.2 hxy.1
                          simpa [hf, hg, hxy.2] using hrest

/-- **Two parsers whose handlers match accept the same inputs, with related
outputs.** -/
theorem parse_matched
    (hfield : ∀ a b field wire r, R a b → Matched R (f a field wire r) (g b field wire r))
    (data : Bytes) {a : α} {b : β} (h : R a b) :
    Option.Rel R (parse f data a) (parse g data b) :=
  parseFields_matched hfield data.length a b ⟨data, 0⟩ h

end Parsers

/-! ## The Windows handlers with the places they point to -/

/-- `ParsedHelperMessage` of Windows with its pointers. -/
structure LocatedHelperMessage where
  type : HelperMessageType := .unspecified
  clipboardData : Option Slice := none
  announcement : Option Slice := none
  provideData : Option Slice := none
  fileChunkRequest : Option Slice := none
  fileChunkData : Option Slice := none
deriving DecidableEq, Repr

def locatedMessageField : OnField LocatedHelperMessage := fun out field wire r =>
  if field = kFieldType ∧ wire = .varint then
    varintInto (fun v out => { out with type := ⟨enumOfVarint v⟩ }) out r
  else if field = kFieldClipboardData ∧ wire = .lengthDelim then
    rangeInto (fun s out => { out with clipboardData := some s }) out r
  else if field = kFieldAnnouncement ∧ wire = .lengthDelim then
    rangeInto (fun s out => { out with announcement := some s }) out r
  else if field = kFieldProvideData ∧ wire = .lengthDelim then
    rangeInto (fun s out => { out with provideData := some s }) out r
  else if field = kFieldFileChunkRequest ∧ wire = .lengthDelim then
    rangeInto (fun s out => { out with fileChunkRequest := some s }) out r
  else if field = kFieldFileChunkData ∧ wire = .lengthDelim then
    rangeInto (fun s out => { out with fileChunkData := some s }) out r
  else skipped out wire r

/-- `ParsedClipboardData` of Windows with its pointers. -/
structure LocatedClipboardData where
  contentType : ClipboardContentType := .unspecified
  payload : Option Slice := none
  files : List Slice := []
deriving DecidableEq, Repr

def locatedClipboardDataField : OnField LocatedClipboardData := fun out field wire r =>
  if field = kCDFieldContentType ∧ wire = .varint then
    varintInto (fun v out => { out with contentType := ⟨enumOfVarint v⟩ }) out r
  else if field = kCDFieldPayload ∧ wire = .lengthDelim then
    rangeInto (fun s out => { out with payload := some s }) out r
  else if field = kCDFieldFiles ∧ wire = .lengthDelim then
    rangeInto (fun s out => { out with files := out.files ++ [s] }) out r
  else skipped out wire r

/-- `ParseHelperMessage` of Windows into a default output. -/
def parseLocatedMessage (data : Bytes) : Option LocatedHelperMessage :=
  parse locatedMessageField data {}

/-- `ParseClipboardData` of Windows into a default output. -/
def parseLocatedClipboardData (data : Bytes) : Option LocatedClipboardData :=
  parse locatedClipboardDataField data {}

/-- The message without the places of its slices. -/
def LocatedHelperMessage.forget (m : LocatedHelperMessage) : ParsedHelperMessage :=
  { type := m.type, clipboardData := m.clipboardData.map Slice.bytes,
    announcement := m.announcement.map Slice.bytes,
    provideData := m.provideData.map Slice.bytes,
    fileChunkRequest := m.fileChunkRequest.map Slice.bytes,
    fileChunkData := m.fileChunkData.map Slice.bytes }

def LocatedClipboardData.forget (m : LocatedClipboardData) : ParsedClipboardData :=
  { contentType := m.contentType, payload := m.payload.map Slice.bytes,
    files := m.files.map Slice.bytes }

/-- The located handler is that of `DispatchCodec`. -/
theorem helperMessageField_located (a : ParsedHelperMessage) (b : LocatedHelperMessage)
    (field : UInt32) (wire : WireType) (r : Reader) (h : a = b.forget) :
    Matched (fun a b => a = LocatedHelperMessage.forget b)
      (helperMessageField a field wire r) (locatedMessageField b field wire r) := by
  subst h
  unfold helperMessageField locatedMessageField
  split
  · exact Matched.varint (fun v => by rfl) r
  split
  · exact Matched.slice_range (fun s => by rfl) r
  split
  · exact Matched.slice_range (fun s => by rfl) r
  split
  · exact Matched.slice_range (fun s => by rfl) r
  split
  · exact Matched.slice_range (fun s => by rfl) r
  split
  · exact Matched.slice_range (fun s => by rfl) r
  exact Matched.skip (by rfl) wire r

theorem clipboardDataField_located (a : ParsedClipboardData) (b : LocatedClipboardData)
    (field : UInt32) (wire : WireType) (r : Reader) (h : a = b.forget) :
    Matched (fun a b => a = LocatedClipboardData.forget b)
      (clipboardDataField a field wire r) (locatedClipboardDataField b field wire r) := by
  subst h
  unfold clipboardDataField locatedClipboardDataField
  split
  · exact Matched.varint (fun v => by rfl) r
  split
  · exact Matched.slice_range (fun s => by rfl) r
  split
  · refine Matched.slice_range (fun s => ?_) r
    simp [LocatedClipboardData.forget]
  exact Matched.skip (by rfl) wire r

/-- **`ParseHelperMessage` of `DispatchCodec` is the located one without the
places**: it accepts the same inputs, with the same bytes. -/
theorem parseHelperMessage_located (data : Bytes) :
    Option.Rel (fun a b => a = LocatedHelperMessage.forget b)
      (parseHelperMessage data {}) (parseLocatedMessage data) :=
  parse_matched helperMessageField_located data rfl

/-- **`ParseClipboardData` of `DispatchCodec` is the located one without the
places.** -/
theorem parseClipboardData_located (data : Bytes) :
    Option.Rel (fun a b => a = LocatedClipboardData.forget b)
      (parseClipboardData data {}) (parseLocatedClipboardData data) :=
  parse_matched clipboardDataField_located data rfl

/-! ## Agreement -/

/-- The two envelopes share all their fields. -/
structure SameMessage (w : LocatedHelperMessage) (l : LinuxCodec.ParsedHelperMessage) : Prop where
  type : w.type = l.type
  clipboardData : w.clipboardData = l.clipboardData
  announcement : w.announcement = l.announcement
  provideData : w.provideData = l.provideData
  fileChunkRequest : w.fileChunkRequest = l.fileChunkRequest
  fileChunkData : w.fileChunkData = l.fileChunkData

/-- The clipboard data share content type and payload: only Windows has the
files, only Linux the hash and the transfer id. -/
structure SameClipboardData (w : LocatedClipboardData) (l : LinuxCodec.ParsedClipboardData) :
    Prop where
  contentType : w.contentType = l.contentType
  payload : w.payload = l.payload

/-- The announcements share everything but the files of Windows. -/
structure SameAnnouncement (w : ParsedAnnouncement) (l : LinuxCodec.ParsedAnnouncement) :
    Prop where
  contentType : w.contentType = l.contentType
  contentHash : w.contentHash = l.contentHash
  transferId : w.transferId = l.transferId

structure SameProvideData (w : ParsedProvideData) (l : LinuxCodec.ParsedProvideData) : Prop where
  contentHash : w.contentHash = l.contentHash
  data : w.data = l.data

theorem helperMessageField_agree (w : LocatedHelperMessage)
    (l : LinuxCodec.ParsedHelperMessage) (field : UInt32) (wire : WireType) (r : Reader)
    (h : SameMessage w l) :
    Matched SameMessage (locatedMessageField w field wire r)
      (LinuxCodec.helperMessageField l field wire r) := by
  unfold locatedMessageField LinuxCodec.helperMessageField
  split
  · exact Matched.varint (fun v => { h with type := rfl }) r
  split
  · exact Matched.range (fun s => { h with clipboardData := rfl }) r
  split
  · exact Matched.range (fun s => { h with announcement := rfl }) r
  split
  · exact Matched.range (fun s => { h with provideData := rfl }) r
  split
  · exact Matched.range (fun s => { h with fileChunkRequest := rfl }) r
  split
  · exact Matched.range (fun s => { h with fileChunkData := rfl }) r
  exact Matched.skip h wire r

/-- Windows decodes field 4 and Linux fields 3 and 5; the other side skips
each of them. -/
theorem clipboardDataField_agree (w : LocatedClipboardData)
    (l : LinuxCodec.ParsedClipboardData) (field : UInt32) (wire : WireType) (r : Reader)
    (h : SameClipboardData w l) :
    Matched SameClipboardData (locatedClipboardDataField w field wire r)
      (LinuxCodec.clipboardDataField l field wire r) := by
  unfold locatedClipboardDataField LinuxCodec.clipboardDataField
  split
  · exact Matched.varint (fun v => { h with contentType := rfl }) r
  split
  · exact Matched.range (fun s => { h with payload := rfl }) r
  by_cases hfiles : field = kCDFieldFiles ∧ wire = .lengthDelim
  · obtain ⟨rfl, rfl⟩ := hfiles
    rw [if_pos ⟨rfl, rfl⟩, if_neg (by decide), if_neg (by decide)]
    exact Matched.range_skip (fun s => { h with }) r
  rw [if_neg hfiles]
  split
  · rename_i hhash
    rw [hhash.2]
    exact Matched.skip_slice (fun d => { h with }) r
  split
  · rename_i hid
    rw [hid.2]
    exact Matched.skip_slice (fun d => { h with }) r
  exact Matched.skip h wire r

theorem announcementField_agree (w : ParsedAnnouncement) (l : LinuxCodec.ParsedAnnouncement)
    (field : UInt32) (wire : WireType) (r : Reader) (h : SameAnnouncement w l) :
    Matched SameAnnouncement (announcementField w field wire r)
      (LinuxCodec.announcementField l field wire r) := by
  unfold announcementField LinuxCodec.announcementField
  split
  · exact Matched.varint (fun v => { h with contentType := rfl }) r
  split
  · exact Matched.slice (fun d => { h with contentHash := rfl }) r
  by_cases hfiles : field = kAnnFieldFiles ∧ wire = .lengthDelim
  · obtain ⟨rfl, rfl⟩ := hfiles
    rw [if_pos ⟨rfl, rfl⟩, if_neg (by decide)]
    exact Matched.slice_skip (fun d => { h with }) r
  rw [if_neg hfiles]
  split
  · exact Matched.slice (fun d => { h with transferId := rfl }) r
  exact Matched.skip h wire r

theorem provideDataField_agree (w : ParsedProvideData) (l : LinuxCodec.ParsedProvideData)
    (field : UInt32) (wire : WireType) (r : Reader) (h : SameProvideData w l) :
    Matched SameProvideData (provideDataField w field wire r)
      (LinuxCodec.provideDataField l field wire r) := by
  unfold provideDataField LinuxCodec.provideDataField
  split
  · exact Matched.slice (fun d => { h with contentHash := rfl }) r
  split
  · exact Matched.slice (fun d => { h with data := rfl }) r
  exact Matched.skip h wire r

/-- **The decoders agree.**  Over any byte string and from a default output,
each of the four parsers accepts on both platforms or on neither; what both
accept has the same message type, content type, hash, transfer id and data,
and the same place and bytes for every sub-message and payload. -/
theorem decoders_agree (data : Bytes) :
    Option.Rel SameMessage (parseLocatedMessage data) (LinuxCodec.parseHelperMessage data)
    ∧ Option.Rel SameClipboardData (parseLocatedClipboardData data)
        (LinuxCodec.parseClipboardData data)
    ∧ Option.Rel SameAnnouncement (parseAnnouncement data {}) (LinuxCodec.parseAnnouncement data)
    ∧ Option.Rel SameProvideData (parseProvideData data {})
        (LinuxCodec.parseProvideData data) := by
  refine ⟨?_, ?_, ?_, ?_⟩
  · exact parse_matched helperMessageField_agree data ⟨rfl, rfl, rfl, rfl, rfl, rfl⟩
  · exact parse_matched clipboardDataField_agree data ⟨rfl, rfl⟩
  · exact parse_matched announcementField_agree data ⟨rfl, rfl, rfl⟩
  · exact parse_matched provideDataField_agree data ⟨rfl, rfl⟩

end DecoderAgreement
