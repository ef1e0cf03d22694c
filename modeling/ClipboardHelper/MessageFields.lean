import ClipboardHelper.WireFields
import ClipboardHelper.DecoderAgreement

/-!
# The Windows parsers as folds over fields

Each parser of `dispatch_codec.cpp` is a table: which field numbers it keeps,
with which wire type, and what it stores.  The two styles of the source, the
chain of `if`s and the `switch` with its wire check inside, are the same
dispatch over the table (`helperMessageField_eq` and its siblings).

A parser folds its table over the fields of its input (`parse_dispatch`), so
that it takes concatenations apart and does not see the fields that are not
in its table.  What a table makes of a list of fields is said field by field:
the last value of a singular field, all values of a repeated one.
-/

namespace MessageFields

open Library ProtoWire DispatchCodec DecoderAgreement

/-! ## Tables -/

/-- A field that a parser keeps: its number, and how its value is stored. -/
inductive Entry (α : Type) where
  | varint (number : UInt32) (set : UInt64 → α → α)
  | slice (number : UInt32) (set : Bytes → α → α)

section Tables

variable {α : Type}

namespace Entry

def number : Entry α → UInt32
  | .varint number _ => number
  | .slice number _ => number

def wire : Entry α → WireType
  | .varint _ _ => .varint
  | .slice _ _ => .lengthDelim

/-- Reading the value and storing it. -/
def into : Entry α → α → Reader → Option (α × Reader)
  | .varint _ set => varintInto set
  | .slice _ set => sliceInto set

/-- Storing a value that has been read. -/
def store : Entry α → Body → α → α
  | .varint _ set, .varint value, out => set value out
  | .slice _ set, .slice bytes, out => set bytes out
  | _, _, out => out

end Entry

/-- The dispatch over a table. -/
def dispatch : List (Entry α) → OnField α
  | [], out, _, wire, r => skipped out wire r
  | e :: table, out, field, wire, r =>
    if field = e.number ∧ wire = e.wire then e.into out r else dispatch table out field wire r

/-- What a table does with a field that has been read. -/
def applyField : List (Entry α) → α → Field → α
  | [], out, _ => out
  | e :: table, out, f =>
    if f.number = e.number ∧ f.body.wire = e.wire then e.store f.body out
    else applyField table out f

/-- The numbers and wire types that a table keeps. -/
def known (table : List (Entry α)) : List (UInt32 × WireType) :=
  table.map (fun e => (e.number, e.wire))

/-- A field of an unknown number, or of a known number with another wire
type. -/
def Ignored (table : List (Entry α)) (f : Field) : Prop :=
  (f.number, f.body.wire) ∉ known table

theorem wire_of_map {β : Type} {read : Option (β × Reader)} {wire : WireType}
    {after : Reader} {body : Body} (f : β → Body) (hf : ∀ value, (f value).wire = wire)
    (h : read.map (fun (value, r) => (f value, r)) = some (body, after)) : body.wire = wire := by
  rw [Option.map_eq_some_iff] at h
  obtain ⟨⟨value, r'⟩, -, heq⟩ := h
  rw [Prod.mk.injEq] at heq
  rw [← heq.1, hf]

theorem wire_of_readBody {wire : WireType} {r after : Reader} {body : Body}
    (h : readBody wire r = some (body, after)) : body.wire = wire := by
  unfold readBody at h
  split at h
  · rename_i hwire
    exact wire_of_map .varint (fun _ => hwire.symm) h
  split at h
  · rename_i hwire
    exact wire_of_map .fixed64 (fun _ => hwire.symm) h
  split at h
  · rename_i hwire
    exact wire_of_map .slice (fun _ => hwire.symm) h
  split at h
  · rename_i hwire
    exact wire_of_map .fixed32 (fun _ => hwire.symm) h
  cases h

/-- **A dispatch reads the body and stores it**: by induction on the table. -/
theorem dispatch_eq (table : List (Entry α)) (out : α) (number : UInt32) (wire : WireType)
    (r : Reader) :
    dispatch table out number wire r =
      (readBody wire r).map (fun (body, r) => (applyField table out ⟨number, body⟩, r)) := by
  induction table with
  | nil =>
      rw [dispatch, skipped, skipField_eq]
      cases readBody wire r <;> rfl
  | cons e table ih =>
      rw [dispatch]
      by_cases hkey : number = e.number ∧ wire = e.wire
      · obtain ⟨rfl, rfl⟩ := hkey
        rw [if_pos ⟨rfl, rfl⟩]
        cases e with
        | varint number set =>
            simp only [Entry.into, Entry.wire, Entry.number, varintInto, readBody_varint]
            cases r.readVarint with
            | none => rfl
            | some read => simp [applyField, Entry.store, Entry.number, Entry.wire, Body.wire]
        | slice number set =>
            simp only [Entry.into, Entry.wire, Entry.number, sliceInto, readBody_lengthDelim]
            cases r.readLengthDelim with
            | none => rfl
            | some read => simp [applyField, Entry.store, Entry.number, Entry.wire, Body.wire]
      · rw [if_neg hkey, ih]
        cases hread : readBody wire r with
        | none => rfl
        | some read =>
            have hwire : read.1.wire = wire := wire_of_readBody hread
            simp only [Option.map_some, applyField, hwire, if_neg hkey]

/-- **A parser is a fold over the fields.** -/
theorem parse_dispatch (table : List (Entry α)) (data : Bytes) (out : α) :
    parse (dispatch table) data out =
      (fieldsOf data).map (fun fs => fs.foldl (applyField table) out) := by
  have hstep (fs : List Field) (a : α) (number : UInt32) (wire : WireType) (r : Reader)
      (h : a = fs.foldl (applyField table) out) :
      Matched (fun fs a => a = List.foldl (applyField table) out fs)
        (keepField fs number wire r) (dispatch table a number wire r) := by
    subst h
    rw [dispatch_eq, keepField]
    cases readBody wire r with
    | none => exact .none
    | some read => exact .some ⟨by simp, rfl⟩
  have hrel := parse_matched hstep data (a := []) (b := out) rfl
  rw [fieldsOf]
  cases hfs : parse keepField data [] with
  | none =>
      rw [hfs] at hrel
      cases hparse : parse (dispatch table) data out with
      | none => rfl
      | some a =>
          rw [hparse] at hrel
          cases hrel
  | some fs =>
      rw [hfs] at hrel
      cases hparse : parse (dispatch table) data out with
      | none =>
          rw [hparse] at hrel
          cases hrel
      | some a =>
          rw [hparse] at hrel
          cases hrel with
          | some heq => rw [heq, Option.map_some]

/-- **A parser accepts the byte strings that are put together from fields**, if
its handler moves the reader as skipping does. -/
theorem accepts_iff_made {onField : OnField α}
    (hskip : ∀ out field wire r, (onField out field wire r).map Prod.snd = r.skipField wire)
    (data : Bytes) (out : α) : (parse onField data out).isSome ↔ ∃ fs, Made data fs := by
  have hstep (fs : List Field) (a : α) (number : UInt32) (wire : WireType) (r : Reader)
      (_ : True) : Matched (fun _ _ => True) (keepField fs number wire r)
        (onField a number wire r) := by
    have hnext := hskip a number wire r
    rw [skipField_eq] at hnext
    rw [keepField]
    cases hbody : readBody wire r with
    | none =>
        rw [hbody, Option.map_none, Option.map_eq_none_iff] at hnext
        rw [hnext]
        exact .none
    | some read =>
        rw [hbody, Option.map_some, Option.map_eq_some_iff] at hnext
        obtain ⟨stored, hstored, hplace⟩ := hnext
        rw [hstored]
        exact .some ⟨trivial, hplace.symm⟩
  have hrel := parse_matched hstep data (a := []) (b := out) trivial
  simp only [← fieldsOf_eq_some_iff, ← Option.isSome_iff_exists]
  rw [fieldsOf]
  cases hfs : parse keepField data [] with
  | none =>
      rw [hfs] at hrel
      cases hparse : parse onField data out with
      | none => rfl
      | some a =>
          rw [hparse] at hrel
          cases hrel
  | some fs =>
      rw [hfs] at hrel
      cases hparse : parse onField data out with
      | none =>
          rw [hparse] at hrel
          cases hrel
      | some a => simp

/-- The other style of the source: a `switch` over the number, with the wire
type checked inside each case. -/
def switchDispatch : List (Entry α) → OnField α
  | [], out, _, wire, r => skipped out wire r
  | e :: table, out, field, wire, r =>
    if field = e.number then
      if wire ≠ e.wire then skipped out wire r else e.into out r
    else switchDispatch table out field wire r

theorem dispatch_unknown {table : List (Entry α)} {field : UInt32}
    (h : field ∉ table.map Entry.number) (out : α) (wire : WireType) (r : Reader) :
    dispatch table out field wire r = skipped out wire r := by
  induction table with
  | nil => rfl
  | cons e table ih =>
      simp only [List.map_cons, List.mem_cons, not_or] at h
      rw [dispatch, if_neg (fun hkey => h.1 hkey.1)]
      exact ih h.2

/-- **The two styles agree** when no number occurs twice. -/
theorem switchDispatch_eq (table : List (Entry α)) (h : (table.map Entry.number).Nodup) :
    switchDispatch table = dispatch table := by
  funext out field wire r
  induction table with
  | nil => rfl
  | cons e table ih =>
      rw [List.map_cons, List.nodup_cons] at h
      rw [switchDispatch, dispatch]
      by_cases hfield : field = e.number
      · subst hfield
        by_cases hwire : wire = e.wire
        · rw [if_pos rfl, if_neg (not_not.mpr hwire), if_pos ⟨rfl, hwire⟩]
        · rw [if_pos rfl, if_pos hwire, if_neg (fun hkey => hwire hkey.2),
            dispatch_unknown h.1]
      · rw [if_neg hfield, if_neg (fun hkey => hfield hkey.1)]
        exact ih h.2

theorem applyField_ignored {table : List (Entry α)} {f : Field} (h : Ignored table f) (out : α) :
    applyField table out f = out := by
  induction table with
  | nil => rfl
  | cons e table ih =>
      simp only [Ignored, known, List.map_cons, List.mem_cons, not_or, Prod.mk.injEq] at h
      rw [applyField, if_neg h.1]
      exact ih h.2

end Tables

/-! ## The tables of the parsers -/

def helperMessageTable : List (Entry ParsedHelperMessage) :=
  [.varint kFieldType (fun v out => { out with type := ⟨enumOfVarint v⟩ }),
   .slice kFieldClipboardData (fun d out => { out with clipboardData := some d }),
   .slice kFieldAnnouncement (fun d out => { out with announcement := some d }),
   .slice kFieldProvideData (fun d out => { out with provideData := some d }),
   .slice kFieldFileChunkRequest (fun d out => { out with fileChunkRequest := some d }),
   .slice kFieldFileChunkData (fun d out => { out with fileChunkData := some d })]

def clipboardDataTable : List (Entry ParsedClipboardData) :=
  [.varint kCDFieldContentType (fun v out => { out with contentType := ⟨enumOfVarint v⟩ }),
   .slice kCDFieldPayload (fun d out => { out with payload := some d }),
   .slice kCDFieldFiles (fun d out => { out with files := out.files ++ [d] })]

def announcementTable : List (Entry ParsedAnnouncement) :=
  [.varint kAnnFieldContentType (fun v out => { out with contentType := ⟨enumOfVarint v⟩ }),
   .slice kAnnFieldContentHash (fun d out => { out with contentHash := d }),
   .slice kAnnFieldFiles (fun d out => { out with files := out.files ++ [d] }),
   .slice kAnnFieldTransferId (fun d out => { out with transferId := d })]

def provideDataTable : List (Entry ParsedProvideData) :=
  [.slice kPDFieldContentHash (fun d out => { out with contentHash := d }),
   .slice kPDFieldData (fun d out => { out with data := d })]

def fileChunkRequestTable : List (Entry ParsedFileChunkRequest) :=
  [.slice kFCReqFieldTransferId (fun d out => { out with transferId := d }),
   .slice kFCReqFieldFileId (fun d out => { out with fileId := d }),
   .varint kFCReqFieldOffset (fun v out => { out with offset := v }),
   .varint kFCReqFieldSize (fun v out => { out with size := v.toUInt32 })]

def fileChunkDataTable : List (Entry ParsedFileChunkData) :=
  [.slice kFCDataFieldTransferId (fun d out => { out with transferId := d }),
   .slice kFCDataFieldFileId (fun d out => { out with fileId := d }),
   .varint kFCDataFieldOffset (fun v out => { out with offset := v }),
   .slice kFCDataFieldData (fun d out => { out with data := d }),
   .varint kFCDataFieldIsLast (fun v out => { out with isLast := v ≠ 0 }),
   .slice kFCDataFieldError (fun d out => { out with error := d })]

theorem helperMessageField_eq : helperMessageField = dispatch helperMessageTable := rfl

theorem clipboardDataField_eq : clipboardDataField = dispatch clipboardDataTable := rfl

theorem announcementField_eq : announcementField = dispatch announcementTable := rfl

theorem provideDataField_eq : provideDataField = dispatch provideDataTable := rfl

theorem fileChunkRequestField_eq : fileChunkRequestField = dispatch fileChunkRequestTable :=
  switchDispatch_eq fileChunkRequestTable (by decide)

theorem fileChunkDataField_eq : fileChunkDataField = dispatch fileChunkDataTable :=
  switchDispatch_eq fileChunkDataTable (by decide)

/-! ## What the tables keep -/

/-- The varints that fields of a number carry, in order. -/
def varints (number : UInt32) (fs : List Field) : List UInt64 :=
  fs.filterMap fun
    | ⟨n, .varint value⟩ => if n = number then some value else none
    | _ => none

/-- The slices that fields of a number carry, in order. -/
def slices (number : UInt32) (fs : List Field) : List Bytes :=
  fs.filterMap fun
    | ⟨n, .slice bytes⟩ => if n = number then some bytes else none
    | _ => none

/-- The last value of a singular field, as it is kept; `old` when the field
does not occur. -/
def lastOr {β γ : Type} (old : β) (keep : γ → β) (values : List γ) : β :=
  (values.getLast?.map keep).getD old

@[simp] theorem lastOr_nil {β γ : Type} (old : β) (keep : γ → β) : lastOr old keep [] = old := rfl

@[simp] theorem lastOr_append {β γ : Type} (old : β) (keep : γ → β) (front back : List γ) :
    lastOr old keep (front ++ back) = lastOr (lastOr old keep front) keep back := by
  unfold lastOr
  rw [List.getLast?_append]
  cases back.getLast? with
  | none => rfl
  | some value => rfl

theorem lastOr_singleton {β γ : Type} (old : β) (keep : γ → β) (value : γ) :
    lastOr old keep [value] = keep value := rfl

def helperMessageOf (out : ParsedHelperMessage) (fs : List Field) : ParsedHelperMessage :=
  { type := lastOr out.type (fun v => ⟨enumOfVarint v⟩) (varints kFieldType fs),
    clipboardData := lastOr out.clipboardData some (slices kFieldClipboardData fs),
    announcement := lastOr out.announcement some (slices kFieldAnnouncement fs),
    provideData := lastOr out.provideData some (slices kFieldProvideData fs),
    fileChunkRequest := lastOr out.fileChunkRequest some (slices kFieldFileChunkRequest fs),
    fileChunkData := lastOr out.fileChunkData some (slices kFieldFileChunkData fs) }

def clipboardDataOf (out : ParsedClipboardData) (fs : List Field) : ParsedClipboardData :=
  { contentType := lastOr out.contentType (fun v => ⟨enumOfVarint v⟩)
      (varints kCDFieldContentType fs),
    payload := lastOr out.payload some (slices kCDFieldPayload fs),
    files := out.files ++ slices kCDFieldFiles fs }

def announcementOf (out : ParsedAnnouncement) (fs : List Field) : ParsedAnnouncement :=
  { contentType := lastOr out.contentType (fun v => ⟨enumOfVarint v⟩)
      (varints kAnnFieldContentType fs),
    contentHash := lastOr out.contentHash id (slices kAnnFieldContentHash fs),
    files := out.files ++ slices kAnnFieldFiles fs,
    transferId := lastOr out.transferId id (slices kAnnFieldTransferId fs) }

def provideDataOf (out : ParsedProvideData) (fs : List Field) : ParsedProvideData :=
  { contentHash := lastOr out.contentHash id (slices kPDFieldContentHash fs),
    data := lastOr out.data id (slices kPDFieldData fs) }

def fileChunkRequestOf (out : ParsedFileChunkRequest) (fs : List Field) :
    ParsedFileChunkRequest :=
  { transferId := lastOr out.transferId id (slices kFCReqFieldTransferId fs),
    fileId := lastOr out.fileId id (slices kFCReqFieldFileId fs),
    offset := lastOr out.offset id (varints kFCReqFieldOffset fs),
    size := lastOr out.size UInt64.toUInt32 (varints kFCReqFieldSize fs) }

def fileChunkDataOf (out : ParsedFileChunkData) (fs : List Field) : ParsedFileChunkData :=
  { transferId := lastOr out.transferId id (slices kFCDataFieldTransferId fs),
    fileId := lastOr out.fileId id (slices kFCDataFieldFileId fs),
    offset := lastOr out.offset id (varints kFCDataFieldOffset fs),
    data := lastOr out.data id (slices kFCDataFieldData fs),
    isLast := lastOr out.isLast (fun v => decide (v ≠ 0)) (varints kFCDataFieldIsLast fs),
    error := lastOr out.error id (slices kFCDataFieldError fs) }

section Readings

variable {α : Type}

/-- What a table keeps of a list of fields, when that is known for no field,
for one, and for two lists in a row. -/
theorem foldl_eq_reading {table : List (Entry α)} {reading : α → List Field → α}
    (hnil : ∀ out, reading out [] = out)
    (hone : ∀ out f, applyField table out f = reading out [f])
    (happend : ∀ out fs gs, reading out (fs ++ gs) = reading (reading out fs) gs)
    (fs : List Field) (out : α) : fs.foldl (applyField table) out = reading out fs := by
  induction fs generalizing out with
  | nil => exact (hnil out).symm
  | cons f fs ih =>
      rw [List.foldl_cons, ih, hone, ← happend, List.singleton_append]

@[simp] theorem varints_append (number : UInt32) (fs gs : List Field) :
    varints number (fs ++ gs) = varints number fs ++ varints number gs :=
  List.filterMap_append

@[simp] theorem slices_append (number : UInt32) (fs gs : List Field) :
    slices number (fs ++ gs) = slices number fs ++ slices number gs :=
  List.filterMap_append

end Readings

@[simp] theorem varints_varint (number n : UInt32) (value : UInt64) :
    varints number [⟨n, .varint value⟩] = if n = number then [value] else [] := by
  by_cases h : n = number
  · simp [varints, h]
  · simp [varints, h]

@[simp] theorem slices_slice (number n : UInt32) (bytes : Bytes) :
    slices number [⟨n, .slice bytes⟩] = if n = number then [bytes] else [] := by
  by_cases h : n = number
  · simp [slices, h]
  · simp [slices, h]

@[simp] theorem varints_slice (number n : UInt32) (bytes : Bytes) :
    varints number [⟨n, .slice bytes⟩] = [] := rfl

@[simp] theorem slices_varint (number n : UInt32) (value : UInt64) :
    slices number [⟨n, .varint value⟩] = [] := rfl

@[simp] theorem varints_fixed64 (number n : UInt32) (bytes : Bytes) :
    varints number [⟨n, .fixed64 bytes⟩] = [] := rfl

@[simp] theorem slices_fixed64 (number n : UInt32) (bytes : Bytes) :
    slices number [⟨n, .fixed64 bytes⟩] = [] := rfl

@[simp] theorem varints_fixed32 (number n : UInt32) (bytes : Bytes) :
    varints number [⟨n, .fixed32 bytes⟩] = [] := rfl

@[simp] theorem slices_fixed32 (number n : UInt32) (bytes : Bytes) :
    slices number [⟨n, .fixed32 bytes⟩] = [] := rfl

/-- A table keeps varints and slices only. -/
theorem applyField_other {α : Type} (table : List (Entry α)) (out : α) {f : Field}
    (hvarint : f.body.wire ≠ .varint) (hslice : f.body.wire ≠ .lengthDelim) :
    applyField table out f = out := by
  induction table with
  | nil => rfl
  | cons e table ih =>
      rw [applyField, if_neg, ih]
      intro h
      cases e with
      | varint => exact hvarint h.2
      | slice => exact hslice h.2

theorem applyField_fixed64 {α : Type} (table : List (Entry α)) (out : α) (number : UInt32)
    (bytes : Bytes) : applyField table out ⟨number, .fixed64 bytes⟩ = out :=
  applyField_other table out (by simp [Body.wire, WireType.fixed64, WireType.varint])
    (by simp [Body.wire, WireType.fixed64, WireType.lengthDelim])

theorem applyField_fixed32 {α : Type} (table : List (Entry α)) (out : α) (number : UInt32)
    (bytes : Bytes) : applyField table out ⟨number, .fixed32 bytes⟩ = out :=
  applyField_other table out (by simp [Body.wire, WireType.fixed32, WireType.varint])
    (by simp [Body.wire, WireType.fixed32, WireType.lengthDelim])

theorem helperMessage_one (out : ParsedHelperMessage) (f : Field) :
    applyField helperMessageTable out f = helperMessageOf out [f] := by
  obtain ⟨number, body⟩ := f
  cases body with
  | varint value =>
      by_cases htype : number = kFieldType
      · subst htype
        rfl
      simp [applyField, helperMessageTable, helperMessageOf, Entry.number, Entry.wire, Body.wire,
        WireType.varint, WireType.lengthDelim, htype]
  | slice bytes =>
      by_cases hclipboardData : number = kFieldClipboardData
      · subst hclipboardData
        rfl
      by_cases hannouncement : number = kFieldAnnouncement
      · subst hannouncement
        rfl
      by_cases hprovideData : number = kFieldProvideData
      · subst hprovideData
        rfl
      by_cases hfileChunkRequest : number = kFieldFileChunkRequest
      · subst hfileChunkRequest
        rfl
      by_cases hfileChunkData : number = kFieldFileChunkData
      · subst hfileChunkData
        rfl
      simp [applyField, helperMessageTable, helperMessageOf, Entry.number, Entry.wire, Body.wire,
        WireType.varint, WireType.lengthDelim, hclipboardData, hannouncement, hprovideData,
        hfileChunkRequest, hfileChunkData]
  | fixed64 bytes =>
      rw [applyField_fixed64]
      simp [helperMessageOf]
  | fixed32 bytes =>
      rw [applyField_fixed32]
      simp [helperMessageOf]

theorem clipboardData_one (out : ParsedClipboardData) (f : Field) :
    applyField clipboardDataTable out f = clipboardDataOf out [f] := by
  obtain ⟨number, body⟩ := f
  cases body with
  | varint value =>
      by_cases hcontentType : number = kCDFieldContentType
      · subst hcontentType
        simp [applyField, clipboardDataTable, clipboardDataOf, Entry.number, Entry.wire,
          Entry.store, Body.wire, lastOr_singleton, kCDFieldContentType, kCDFieldPayload,
          kCDFieldFiles]
      simp [applyField, clipboardDataTable, clipboardDataOf, Entry.number, Entry.wire, Body.wire,
        WireType.varint, WireType.lengthDelim, hcontentType]
  | slice bytes =>
      by_cases hpayload : number = kCDFieldPayload
      · subst hpayload
        simp [applyField, clipboardDataTable, clipboardDataOf, Entry.number, Entry.wire,
          Entry.store, Body.wire, lastOr_singleton, kCDFieldContentType, kCDFieldPayload,
          kCDFieldFiles]
      by_cases hfiles : number = kCDFieldFiles
      · subst hfiles
        rfl
      simp [applyField, clipboardDataTable, clipboardDataOf, Entry.number, Entry.wire, Body.wire,
        WireType.varint, WireType.lengthDelim, hpayload, hfiles]
  | fixed64 bytes =>
      rw [applyField_fixed64]
      simp [clipboardDataOf]
  | fixed32 bytes =>
      rw [applyField_fixed32]
      simp [clipboardDataOf]

theorem announcement_one (out : ParsedAnnouncement) (f : Field) :
    applyField announcementTable out f = announcementOf out [f] := by
  obtain ⟨number, body⟩ := f
  cases body with
  | varint value =>
      by_cases hcontentType : number = kAnnFieldContentType
      · subst hcontentType
        simp [applyField, announcementTable, announcementOf, Entry.number, Entry.wire, Entry.store,
          Body.wire, lastOr_singleton, kAnnFieldContentType, kAnnFieldContentHash, kAnnFieldFiles,
          kAnnFieldTransferId]
      simp [applyField, announcementTable, announcementOf, Entry.number, Entry.wire, Body.wire,
        WireType.varint, WireType.lengthDelim, hcontentType]
  | slice bytes =>
      by_cases hcontentHash : number = kAnnFieldContentHash
      · subst hcontentHash
        simp [applyField, announcementTable, announcementOf, Entry.number, Entry.wire, Entry.store,
          Body.wire, lastOr_singleton, kAnnFieldContentType, kAnnFieldContentHash, kAnnFieldFiles,
          kAnnFieldTransferId]
      by_cases hfiles : number = kAnnFieldFiles
      · subst hfiles
        rfl
      by_cases htransferId : number = kAnnFieldTransferId
      · subst htransferId
        simp [applyField, announcementTable, announcementOf, Entry.number, Entry.wire, Entry.store,
          Body.wire, lastOr_singleton, kAnnFieldContentType, kAnnFieldContentHash, kAnnFieldFiles,
          kAnnFieldTransferId]
      simp [applyField, announcementTable, announcementOf, Entry.number, Entry.wire, Body.wire,
        WireType.varint, WireType.lengthDelim, hcontentHash, hfiles, htransferId]
  | fixed64 bytes =>
      rw [applyField_fixed64]
      simp [announcementOf]
  | fixed32 bytes =>
      rw [applyField_fixed32]
      simp [announcementOf]

theorem provideData_one (out : ParsedProvideData) (f : Field) :
    applyField provideDataTable out f = provideDataOf out [f] := by
  obtain ⟨number, body⟩ := f
  cases body with
  | varint value =>
      simp [applyField, provideDataTable, provideDataOf, Entry.number, Entry.wire, Body.wire,
        WireType.varint, WireType.lengthDelim]
  | slice bytes =>
      by_cases hcontentHash : number = kPDFieldContentHash
      · subst hcontentHash
        rfl
      by_cases hdata : number = kPDFieldData
      · subst hdata
        rfl
      simp [applyField, provideDataTable, provideDataOf, Entry.number, Entry.wire, Body.wire,
        WireType.lengthDelim, hcontentHash, hdata]
  | fixed64 bytes =>
      rw [applyField_fixed64]
      simp [provideDataOf]
  | fixed32 bytes =>
      rw [applyField_fixed32]
      simp [provideDataOf]

theorem fileChunkRequest_one (out : ParsedFileChunkRequest) (f : Field) :
    applyField fileChunkRequestTable out f = fileChunkRequestOf out [f] := by
  obtain ⟨number, body⟩ := f
  cases body with
  | varint value =>
      by_cases hoffset : number = kFCReqFieldOffset
      · subst hoffset
        rfl
      by_cases hsize : number = kFCReqFieldSize
      · subst hsize
        rfl
      simp [applyField, fileChunkRequestTable, fileChunkRequestOf, Entry.number, Entry.wire,
        Body.wire, WireType.varint, WireType.lengthDelim, hoffset, hsize]
  | slice bytes =>
      by_cases htransferId : number = kFCReqFieldTransferId
      · subst htransferId
        rfl
      by_cases hfileId : number = kFCReqFieldFileId
      · subst hfileId
        rfl
      simp [applyField, fileChunkRequestTable, fileChunkRequestOf, Entry.number, Entry.wire,
        Body.wire, WireType.varint, WireType.lengthDelim, htransferId, hfileId]
  | fixed64 bytes =>
      rw [applyField_fixed64]
      simp [fileChunkRequestOf]
  | fixed32 bytes =>
      rw [applyField_fixed32]
      simp [fileChunkRequestOf]

theorem fileChunkData_one (out : ParsedFileChunkData) (f : Field) :
    applyField fileChunkDataTable out f = fileChunkDataOf out [f] := by
  obtain ⟨number, body⟩ := f
  cases body with
  | varint value =>
      by_cases hoffset : number = kFCDataFieldOffset
      · subst hoffset
        rfl
      by_cases hisLast : number = kFCDataFieldIsLast
      · subst hisLast
        rfl
      simp [applyField, fileChunkDataTable, fileChunkDataOf, Entry.number, Entry.wire, Body.wire,
        WireType.varint, WireType.lengthDelim, hoffset, hisLast]
  | slice bytes =>
      by_cases htransferId : number = kFCDataFieldTransferId
      · subst htransferId
        rfl
      by_cases hfileId : number = kFCDataFieldFileId
      · subst hfileId
        rfl
      by_cases hdata : number = kFCDataFieldData
      · subst hdata
        rfl
      by_cases herror : number = kFCDataFieldError
      · subst herror
        rfl
      simp [applyField, fileChunkDataTable, fileChunkDataOf, Entry.number, Entry.wire, Body.wire,
        WireType.varint, WireType.lengthDelim, htransferId, hfileId, hdata, herror]
  | fixed64 bytes =>
      rw [applyField_fixed64]
      simp [fileChunkDataOf]
  | fixed32 bytes =>
      rw [applyField_fixed32]
      simp [fileChunkDataOf]

/-! ## Compositionality -/

/-- `a'` is `a` with ignored fields inserted at field boundaries. -/
inductive Inserted (ignored : Field → Prop) : Bytes → Bytes → Prop
  | done : Inserted ignored [] []
  | keep {piece a a' : Bytes} {f : Field} :
      IsField piece f → Inserted ignored a a' → Inserted ignored (piece ++ a) (piece ++ a')
  | insert {piece a a' : Bytes} {f : Field} :
      IsField piece f → ignored f → Inserted ignored a a' → Inserted ignored a (piece ++ a')

/-- A parser takes concatenations apart, keeps what `reading` says of the
fields it is given, and does not see inserted fields outside its table. -/
structure Compositional {α : Type} (parser : Bytes → α → Option α) (table : List (Entry α))
    (reading : α → List Field → α) : Prop where
  append : ∀ (a b : Bytes) (outA outB out : α), (parser a outA).isSome → (parser b outB).isSome →
    ∃ mid last, parser a out = some mid ∧ parser b mid = some last
      ∧ parser (a ++ b) out = some last
  accepts : ∀ (data : Bytes) (out : α), (parser data out).isSome ↔ ∃ fs, Made data fs
  reads : ∀ (data : Bytes) (fs : List Field) (out : α), Made data fs →
    parser data out = some (reading out fs)
  insert : ∀ (a a' : Bytes) (out : α), Inserted (Ignored table) a a' →
    (parser a out).isSome ∧ parser a' out = parser a out

section Compositionality

variable {α : Type}

/-- Inserted fields leave every fold over the table as it is. -/
theorem Inserted.made {table : List (Entry α)} {a a' : Bytes}
    (h : Inserted (Ignored table) a a') :
    ∃ fs fs', Made a fs ∧ Made a' fs' ∧
      ∀ out, fs'.foldl (applyField table) out = fs.foldl (applyField table) out := by
  induction h with
  | done => exact ⟨[], [], .nil, .nil, fun _ => rfl⟩
  | @keep piece a a' f hpiece _ ih =>
      obtain ⟨fs, fs', hmade, hmade', hsame⟩ := ih
      refine ⟨f :: fs, f :: fs', .cons hpiece hmade, .cons hpiece hmade', ?_⟩
      intro out
      exact hsame (applyField table out f)
  | @insert piece a a' f hpiece hignored _ ih =>
      obtain ⟨fs, fs', hmade, hmade', hsame⟩ := ih
      refine ⟨fs, f :: fs', hmade, .cons hpiece hmade', ?_⟩
      intro out
      rw [List.foldl_cons, applyField_ignored hignored]
      exact hsame out

/-- **Every table gives a compositional parser.** -/
theorem compositional_dispatch {table : List (Entry α)} {reading : α → List Field → α}
    {onField : OnField α} (hfield : onField = dispatch table)
    (hnil : ∀ out, reading out [] = out)
    (hone : ∀ out f, applyField table out f = reading out [f])
    (happend : ∀ out fs gs, reading out (fs ++ gs) = reading (reading out fs) gs) :
    Compositional (parse onField) table reading := by
  subst hfield
  have hreads (data : Bytes) (fs : List Field) (out : α) (hmade : Made data fs) :
      parse (dispatch table) data out = some (reading out fs) := by
    rw [parse_dispatch, fieldsOf_eq_some_iff.mpr hmade, Option.map_some,
      foldl_eq_reading hnil hone happend]
  have haccepts (data : Bytes) (out : α) :
      (parse (dispatch table) data out).isSome ↔ ∃ fs, Made data fs := by
    rw [parse_dispatch, Option.isSome_map, Option.isSome_iff_exists]
    simp only [fieldsOf_eq_some_iff]
  refine ⟨?_, haccepts, hreads, ?_⟩
  · intro a b outA outB out ha hb
    obtain ⟨fs, hfs⟩ := (haccepts a outA).mp ha
    obtain ⟨gs, hgs⟩ := (haccepts b outB).mp hb
    refine ⟨_, _, hreads a fs out hfs, hreads b gs _ hgs, ?_⟩
    rw [hreads (a ++ b) (fs ++ gs) out (hfs.append hgs), happend]
  · intro a a' out h
    obtain ⟨fs, fs', hmade, hmade', hsame⟩ := h.made
    refine ⟨(haccepts a out).mpr ⟨fs, hmade⟩, ?_⟩
    rw [parse_dispatch, parse_dispatch, fieldsOf_eq_some_iff.mpr hmade,
      fieldsOf_eq_some_iff.mpr hmade', Option.map_some, Option.map_some, hsame]

end Compositionality

/-- **The Windows decoders are compositional.** -/
theorem decoders_compositional :
    Compositional parseHelperMessage helperMessageTable helperMessageOf
    ∧ Compositional parseClipboardData clipboardDataTable clipboardDataOf
    ∧ Compositional parseAnnouncement announcementTable announcementOf
    ∧ Compositional parseProvideData provideDataTable provideDataOf
    ∧ Compositional parseFileChunkRequest fileChunkRequestTable fileChunkRequestOf
    ∧ Compositional parseFileChunkData fileChunkDataTable fileChunkDataOf := by
  refine ⟨?_, ?_, ?_, ?_, ?_, ?_⟩
  · refine compositional_dispatch helperMessageField_eq (fun _ => rfl) helperMessage_one ?_
    intro out fs gs
    simp [helperMessageOf]
  · refine compositional_dispatch clipboardDataField_eq ?_ clipboardData_one ?_
    · intro out
      simp [clipboardDataOf, varints, slices]
    · intro out fs gs
      simp [clipboardDataOf]
  · refine compositional_dispatch announcementField_eq ?_ announcement_one ?_
    · intro out
      simp [announcementOf, varints, slices]
    · intro out fs gs
      simp [announcementOf]
  · refine compositional_dispatch provideDataField_eq (fun _ => rfl) provideData_one ?_
    intro out fs gs
    simp [provideDataOf]
  · refine compositional_dispatch fileChunkRequestField_eq (fun _ => rfl) fileChunkRequest_one ?_
    intro out fs gs
    simp [fileChunkRequestOf]
  · refine compositional_dispatch fileChunkDataField_eq (fun _ => rfl) fileChunkData_one ?_
    intro out fs gs
    simp [fileChunkDataOf]

end MessageFields
