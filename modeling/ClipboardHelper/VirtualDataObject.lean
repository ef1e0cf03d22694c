import ClipboardHelper.FileGroupPayload
import ClipboardHelper.VirtualFileStream

/-!
# The data object of an announcement

`VirtualClipboardDataObject` says three times what it has: `GetData` hands it
out, `QueryGetData` answers for it, and `EnumFormatEtc` lists it.  Each has
its own list of formats; `GetData` also has the cap of the descriptor builder,
and the listing counts files and entries in 32 bits.

**`self_consistent_iff`**: for every object that
`CreateVirtualClipboardDataObject` makes and every `FORMATETC`, the three
agree exactly outside three cases.  `GetData` hands out the attributes of the
files, which `QueryGetData` denies; the descriptor of more files than the cap
is listed and refused; and so are the contents of files from 2³¹ on.
-/

namespace VirtualDataObject

open Library DispatchCodec GroupDescriptor VirtualFileStream

/-! ## Formats -/

def dvEFormatEtc : HResult := 0x80040064
def dvELindex : HResult := 0x80040068
def dvETymed : HResult := 0x80040069
def eInvalidArg : HResult := 0x80070057
def eNotImpl : HResult := 0x80004001

def tymedHGlobal : UInt32 := 1
def tymedIStream : UInt32 := 4
def dvaspectContent : UInt32 := 1
def datadirGet : UInt32 := 1
def dropEffectCopy : Nat := 1

/-- `FORMATETC`; the target device is given by its address. -/
structure FormatEtc where
  cfFormat : UInt16
  ptd : Nat := 0
  dwAspect : UInt32 := dvaspectContent
  lindex : Int32 := -1
  tymed : UInt32
deriving DecidableEq, Repr

/-- The four formats that the object registers.  `RegisterClipboardFormatW`
gives every name a number of its own, which fits into a `CLIPFORMAT`. -/
structure ClipboardFormats where
  descriptor : UInt32
  contents : UInt32
  dropEffect : UInt32
  fileAttributes : UInt32
  distinct : [descriptor, contents, dropEffect, fileAttributes].Nodup
  narrow : ∀ format ∈ [descriptor, contents, dropEffect, fileAttributes],
    format.toUInt16.toUInt32 = format

/-! ## The object -/

structure Object where
  specs : List VirtualFileSpec
  transferId : Bytes
deriving DecidableEq, Repr

/-- `CreateVirtualClipboardDataObject`; `provider` is whether there is one. -/
def createVirtualClipboardDataObject (provider allocated : Bool) (specs : List VirtualFileSpec)
    (transferId : Bytes) : Except HResult Object :=
  if !provider then .error eInvalidArg
  else if specs = [] then .error eInvalidArg
  else if !allocated then .error eOutOfMemory
  else .ok { specs := specs, transferId := transferId }

/-- What the system does with requests for memory: `GlobalAlloc` and
`GlobalLock` for a number of bytes, and `new` for a stream. -/
structure Memory where
  globalAlloc : Nat → Bool
  newStream : Bool

def Memory.Suffices (mem : Memory) : Prop := (∀ n, mem.globalAlloc n = true) ∧ mem.newStream = true

/-- A stream as it is made: with its display name. -/
structure NewStream where
  stream : Stream
  displayName : WideString
deriving DecidableEq, Repr

/-- What `GetData` comes back with. -/
inductive Got
  | failed (hr : HResult)
  | hGlobal (memory : Bytes)
  | iStream (stream : NewStream)
deriving DecidableEq, Repr

/-- `S_OK`, with a medium. -/
def Got.Ok : Got → Prop
  | .failed _ => False
  | _ => True

/-- `BuildFileGroupDescriptor`. -/
def buildFileGroupDescriptor (mem : Memory) (now : Nat → UInt64) (specs : List VirtualFileSpec) :
    Option Bytes :=
  if kMaxVirtualFileSpecs < specs.length then none
  else
    let payload := buildFileGroupDescriptorPayload now specs
    if payload = [] then none
    else if mem.globalAlloc payload.length then some payload else none

def attributesOf (spec : VirtualFileSpec) : Nat :=
  if spec.isDirectory then fileAttributeDirectory else fileAttributeNormal

/-- The `FILE_ATTRIBUTES_ARRAY`: the count, the attributes combined in two
ways, and those of each file. -/
def fileAttributesArray (specs : List VirtualFileSpec) : Bytes :=
  littleEndian 4 specs.length ++
  littleEndian 4 (specs.foldl (fun bits spec => bits ||| attributesOf spec) 0) ++
  littleEndian 4 (specs.foldl (fun bits spec => bits &&& attributesOf spec) 0xFFFFFFFF) ++
  specs.flatMap (fun spec => littleEndian 4 (attributesOf spec))

variable (formats : ClipboardFormats)

/-- `GetData`. -/
def getData (mem : Memory) (now : Nat → UInt64) (object : Object) (fe : FormatEtc) : Got :=
  let fmt := fe.cfFormat.toUInt32
  if fmt = formats.descriptor then
    if fe.tymed &&& tymedHGlobal = 0 then .failed dvETymed
    else
      match buildFileGroupDescriptor mem now object.specs with
      | none => .failed eOutOfMemory
      | some h => .hGlobal h
  else if fmt = formats.fileAttributes then
    if fe.tymed &&& tymedHGlobal = 0 then .failed dvETymed
    else if mem.globalAlloc (4 + 2 * 4 + object.specs.length * 4) then
      .hGlobal (fileAttributesArray object.specs)
    else .failed eOutOfMemory
  else if fmt = formats.dropEffect then
    if fe.tymed &&& tymedHGlobal = 0 then .failed dvETymed
    else if mem.globalAlloc 4 then .hGlobal (littleEndian 4 dropEffectCopy)
    else .failed eOutOfMemory
  else if fmt = formats.contents then
    if fe.tymed &&& tymedIStream = 0 then .failed dvETymed
    else if fe.lindex < 0 then .failed dvELindex
    else
      match object.specs[fe.lindex.toInt.toNat]? with
      | none => .failed dvELindex
      | some spec =>
        if mem.newStream then
          .iStream {
            stream := { transferId := object.transferId, fileId := spec.fileId, size := spec.size }
            displayName := spec.name }
        else .failed eOutOfMemory
  else .failed dvEFormatEtc

/-- `QueryGetData`. -/
def queryGetData (fe : FormatEtc) : HResult :=
  let fmt := fe.cfFormat.toUInt32
  if fmt = formats.descriptor ∧ fe.tymed &&& tymedHGlobal ≠ 0 then sOk
  else if fmt = formats.contents ∧ fe.tymed &&& tymedIStream ≠ 0 then sOk
  else if fmt = formats.dropEffect ∧ fe.tymed &&& tymedHGlobal ≠ 0 then sOk
  else dvEFormatEtc

/-! ## The listing -/

def feDrop : FormatEtc := { cfFormat := formats.dropEffect.toUInt16, tymed := tymedHGlobal }
def feDesc : FormatEtc := { cfFormat := formats.descriptor.toUInt16, tymed := tymedHGlobal }
def feContProbe : FormatEtc := { cfFormat := formats.contents.toUInt16, tymed := tymedIStream }

/-- The entry of file `i`; the index is cast to a `LONG`. -/
def feCont (i : Nat) : FormatEtc :=
  { cfFormat := formats.contents.toUInt16, lindex := Int32.ofNat i, tymed := tymedIStream }

/-- The formats that `EnumFormatEtc` makes its enumerator of. -/
def advertised (object : Object) : List FormatEtc :=
  [feDrop formats, feDesc formats, feContProbe formats] ++
    (List.range object.specs.length).map (feCont formats)

/-- `VirtualFileEnum::Next` with its `pos_`: the number of formats is cast to
a `ULONG`. -/
def next (entries : List FormatEtc) : Nat → UInt32 → List FormatEtc × UInt32
  | 0, pos => ([], pos)
  | celt + 1, pos =>
    if pos < UInt32.ofNat entries.length then
      match entries[pos.toNat]? with
      | none => ([], pos)
      | some fe => (fe :: (next entries celt (pos + 1)).1, (next entries celt (pos + 1)).2)
    else ([], pos)

/-- `EnumFormatEtc`. -/
def enumFormatEtc (allocated : Bool) (object : Object) (dwDirection : UInt32) :
    Except HResult (List FormatEtc) :=
  if dwDirection ≠ datadirGet then .error eNotImpl
  else if !allocated then .error eOutOfMemory
  else .ok (advertised formats object)

/-- An entry that `Next` hands out when the object is asked what it has. -/
def Enumerated (object : Object) (fe : FormatEtc) : Prop :=
  ∃ entries celt, enumFormatEtc formats true object datadirGet = .ok entries ∧
    fe ∈ (next entries celt 0).1

/-! ## Consistency -/

/-- What a successful request hands out: for the contents of file `i`, the
stream of file `i`. -/
def Delivers (object : Object) (fe : FormatEtc) (got : Got) : Prop :=
  got.Ok ∧ (fe.cfFormat.toUInt32 = formats.contents →
    ∃ spec s, object.specs[fe.lindex.toInt.toNat]? = some spec ∧ 0 ≤ fe.lindex ∧
      got = .iStream s ∧ s.stream.transferId = object.transferId ∧
      s.stream.fileId = spec.fileId ∧ s.displayName = spec.name ∧ s.stream.size = spec.size)

/-- **The object agrees with itself** on a `FORMATETC`: what it hands out it
does not deny, and what it lists, other than the probe for contents, it hands
out. -/
structure SelfConsistent (now : Nat → UInt64) (object : Object) (fe : FormatEtc) : Prop where
  queried : ∀ mem, (getData formats mem now object fe).Ok → queryGetData formats fe = sOk
  delivered : ∀ mem, mem.Suffices → Enumerated formats object fe → fe ≠ feContProbe formats →
    Delivers formats object fe (getData formats mem now object fe)

/-- How many entries an enumerator of so many files shows. -/
def shown (files : Nat) : Nat := (files + 3) % 2 ^ 32

/-- **Where it agrees**, for a number of files: the request is not for the
attributes, not for the descriptor of more files than the cap, and not for the
contents of a file whose index is no `LONG`. -/
structure Agrees (files : Nat) (fe : FormatEtc) : Prop where
  attributes : ¬ (fe.cfFormat.toUInt32 = formats.fileAttributes ∧ fe.tymed &&& tymedHGlobal ≠ 0)
  descriptor : fe = feDesc formats → 1 < shown files → files ≤ kMaxVirtualFileSpecs
  index : ∀ i, 2 ^ 31 ≤ i → i + 3 < shown files → fe ≠ feCont formats i

/-! ## What the listing shows -/

/-- **What `Next` hands out**, by induction on what is asked for: a stretch of
the entries, up to where the count ends. -/
theorem next_eq (entries : List FormatEtc) (celt : Nat) :
    ∀ pos : UInt32, (next entries celt pos).1 =
      ((entries.take (entries.length % 2 ^ 32)).drop pos.toNat).take celt := by
  have hcount : (UInt32.ofNat entries.length).toNat = entries.length % 2 ^ 32 :=
    UInt32.toNat_ofNat'
  have hle : entries.length % 2 ^ 32 ≤ entries.length := Nat.mod_le _ _
  have hlength : (entries.take (entries.length % 2 ^ 32)).length = entries.length % 2 ^ 32 := by
    rw [List.length_take, Nat.min_eq_left hle]
  induction celt with
  | zero =>
      intro pos
      simp [next]
  | succ celt ih =>
      intro pos
      rw [next]
      by_cases hmore : pos < UInt32.ofNat entries.length
      · have hlt : pos.toNat < entries.length % 2 ^ 32 := by
          rw [← hcount]
          exact UInt32.lt_iff_toNat_lt.mp hmore
        have hnext : (pos + 1).toNat = pos.toNat + 1 := by
          have hmod : entries.length % 2 ^ 32 < 2 ^ 32 := Nat.mod_lt _ (by omega)
          rw [UInt32.toNat_add]
          exact Nat.mod_eq_of_lt (by simp; omega)
        rw [if_pos hmore, List.getElem?_eq_getElem (by omega)]
        simp only
        have hdrop := List.drop_eq_getElem_cons (i := pos.toNat)
          (l := entries.take (entries.length % 2 ^ 32)) (by rw [hlength]; exact hlt)
        rw [hdrop, List.take_succ_cons, List.getElem_take, ih (pos + 1), hnext]
      · have hge : entries.length % 2 ^ 32 ≤ pos.toNat := by
          rw [← hcount]
          exact UInt32.le_iff_toNat_le.mp (UInt32.not_lt.mp hmore)
        rw [if_neg hmore, List.drop_eq_nil_of_le (by omega), List.take_nil]

/-- The position goes on by one for each element. -/
theorem next_advances (entries : List FormatEtc) (celt : Nat) :
    ∀ pos : UInt32, (next entries celt pos).2.toNat =
      pos.toNat + (next entries celt pos).1.length := by
  induction celt with
  | zero =>
      intro pos
      simp [next]
  | succ celt ih =>
      intro pos
      rw [next]
      by_cases hmore : pos < UInt32.ofNat entries.length
      · have hnext : (pos + 1).toNat = pos.toNat + 1 := by
          have hlt : pos.toNat < (UInt32.ofNat entries.length).toNat :=
            UInt32.lt_iff_toNat_lt.mp hmore
          have hmax := (UInt32.ofNat entries.length).toNat_lt
          rw [UInt32.toNat_add]
          exact Nat.mod_eq_of_lt (by simp; omega)
        rw [if_pos hmore]
        split
        · simp
        · simp only [ih (pos + 1), hnext, List.length_cons]
          omega
      · rw [if_neg hmore]
        simp

theorem length_advertised (object : Object) :
    (advertised formats object).length = object.specs.length + 3 := by
  simp [advertised]

/-- An entry is shown if its index is below the count. -/
theorem enumerated_iff (object : Object) (fe : FormatEtc) :
    Enumerated formats object fe ↔
      ∃ j, j < shown object.specs.length ∧ (advertised formats object)[j]? = some fe := by
  have hlength := length_advertised formats object
  have hall (celt : Nat) : (next (advertised formats object) celt 0).1 =
      ((advertised formats object).take (shown object.specs.length)).take celt := by
    rw [next_eq, hlength]
    rfl
  constructor
  · intro h
    obtain ⟨entries, celt, henum, hmem⟩ := h
    rw [enumFormatEtc, if_neg (by simp), if_neg (by simp), Except.ok.injEq] at henum
    subst henum
    rw [hall] at hmem
    obtain ⟨j, hj⟩ := List.mem_iff_getElem?.mp (List.mem_of_mem_take hmem)
    rw [List.getElem?_take] at hj
    split at hj
    · rename_i hlt
      exact ⟨j, hlt, hj⟩
    · cases hj
  · intro h
    obtain ⟨j, hlt, hj⟩ := h
    refine ⟨_, shown object.specs.length, rfl, ?_⟩
    rw [hall, List.take_take, Nat.min_self, List.mem_iff_getElem?]
    exact ⟨j, by rw [List.getElem?_take, if_pos hlt, hj]⟩

/-- **What is listed**: the drop effect, the descriptor, the probe, and an
entry for each file, as far as they are counted. -/
theorem enumerated_cases {object : Object} {fe : FormatEtc} (h : Enumerated formats object fe) :
    fe = feDrop formats ∨ (fe = feDesc formats ∧ 1 < shown object.specs.length) ∨
      fe = feContProbe formats ∨
      ∃ i, i < object.specs.length ∧ i + 3 < shown object.specs.length ∧ fe = feCont formats i := by
  obtain ⟨j, hlt, hj⟩ := (enumerated_iff formats object fe).mp h
  rw [advertised] at hj
  cases j with
  | zero => exact .inl (Option.some.inj hj).symm
  | succ j =>
      cases j with
      | zero => exact .inr (.inl ⟨(Option.some.inj hj).symm, hlt⟩)
      | succ j =>
          cases j with
          | zero => exact .inr (.inr (.inl (Option.some.inj hj).symm))
          | succ i =>
              refine .inr (.inr (.inr ?_))
              simp only [List.cons_append, List.nil_append, List.getElem?_cons_succ,
                List.getElem?_map, Option.map_eq_some_iff] at hj
              obtain ⟨k, hk, rfl⟩ := hj
              rw [List.getElem?_eq_some_iff] at hk
              obtain ⟨hi, rfl⟩ := hk
              rw [List.length_range] at hi
              rw [List.getElem_range]
              exact ⟨i, hi, hlt, rfl⟩

/-- The entry of a file is shown if its place is below the count. -/
theorem enumerated_feCont (object : Object) {i : Nat} (hi : i + 3 < shown object.specs.length) :
    Enumerated formats object (feCont formats i) := by
  have hle : shown object.specs.length ≤ object.specs.length + 3 := Nat.mod_le _ _
  rw [enumerated_iff]
  refine ⟨i + 3, hi, ?_⟩
  have hrange : (List.range object.specs.length)[i]? = some i := List.getElem?_range (by omega)
  simp [advertised, hrange]

theorem enumerated_feDesc (object : Object) (h : 1 < shown object.specs.length) :
    Enumerated formats object (feDesc formats) := by
  rw [enumerated_iff]
  exact ⟨1, h, rfl⟩

/-! ## What is handed out -/

section Requests

variable {formats} (now : Nat → UInt64) (object : Object)

theorem ClipboardFormats.ne (formats : ClipboardFormats) :
    formats.fileAttributes ≠ formats.descriptor ∧ formats.dropEffect ≠ formats.descriptor ∧
      formats.dropEffect ≠ formats.fileAttributes ∧ formats.contents ≠ formats.descriptor ∧
      formats.contents ≠ formats.fileAttributes ∧ formats.contents ≠ formats.dropEffect := by
  have hdistinct := formats.distinct
  simp only [List.nodup_cons, List.mem_cons, List.not_mem_nil, or_false, not_or] at hdistinct
  obtain ⟨⟨h₁, h₂, h₃⟩, ⟨h₄, h₅⟩, h₆, -⟩ := hdistinct
  exact ⟨Ne.symm h₃, Ne.symm h₂, h₆, Ne.symm h₁, h₅, h₄⟩

/-- The attributes are handed out. -/
theorem getData_attributes {mem : Memory} {fe : FormatEtc} (hmem : mem.Suffices)
    (hfmt : fe.cfFormat.toUInt32 = formats.fileAttributes)
    (htymed : fe.tymed &&& tymedHGlobal ≠ 0) :
    (getData formats mem now object fe).Ok := by
  have hne := formats.ne
  simp only [getData, hfmt, if_neg hne.1, if_neg htymed, if_true, hmem.1]
  trivial

/-- And `QueryGetData` denies them. -/
theorem queryGetData_attributes {fe : FormatEtc}
    (hfmt : fe.cfFormat.toUInt32 = formats.fileAttributes) :
    queryGetData formats fe = dvEFormatEtc := by
  have hne := formats.ne
  simp only [queryGetData, hfmt, hne.1, Ne.symm hne.2.2.1, Ne.symm hne.2.2.2.2.1, false_and,
    if_false]

/-- Whatever else is handed out is not denied. -/
theorem queryGetData_of_ok {mem : Memory} {fe : FormatEtc}
    (hok : (getData formats mem now object fe).Ok)
    (hother : ¬ (fe.cfFormat.toUInt32 = formats.fileAttributes ∧ fe.tymed &&& tymedHGlobal ≠ 0)) :
    queryGetData formats fe = sOk := by
  unfold getData at hok
  unfold queryGetData
  simp only at hok ⊢
  split at hok
  · rename_i hdescriptor
    split at hok
    · cases hok
    · rename_i htymed
      rw [if_pos ⟨hdescriptor, htymed⟩]
  split at hok
  · rename_i hattributes
    split at hok
    · cases hok
    · rename_i htymed
      exact absurd ⟨hattributes, htymed⟩ hother
  split at hok
  · rename_i hdescriptor _ hdrop
    split at hok
    · cases hok
    · rename_i htymed
      have hne := formats.ne
      rw [if_neg (fun h => hdescriptor h.1), if_neg (fun h => hne.2.2.2.2.2 (h.1.symm.trans hdrop)),
        if_pos ⟨hdrop, htymed⟩]
  split at hok
  · rename_i hdescriptor _ _ hcontents
    split at hok
    · cases hok
    · rename_i htymed
      rw [if_neg (fun h => hdescriptor h.1), if_pos ⟨hcontents, htymed⟩]
  · cases hok

/-- A registered number survives the cast to a `CLIPFORMAT`. -/
theorem ClipboardFormats.cast (formats : ClipboardFormats) :
    formats.descriptor.toUInt16.toUInt32 = formats.descriptor ∧
      formats.contents.toUInt16.toUInt32 = formats.contents ∧
      formats.dropEffect.toUInt16.toUInt32 = formats.dropEffect :=
  ⟨formats.narrow _ (by simp), formats.narrow _ (by simp), formats.narrow _ (by simp)⟩

theorem delivers_feDrop {mem : Memory} (hmem : mem.Suffices) :
    Delivers formats object (feDrop formats) (getData formats mem now object (feDrop formats)) := by
  have hne := formats.ne
  have hfmt : (feDrop formats).cfFormat.toUInt32 = formats.dropEffect := formats.cast.2.2
  have htymed : ¬ (feDrop formats).tymed &&& tymedHGlobal = 0 := by
    change ¬ tymedHGlobal &&& tymedHGlobal = 0
    decide
  constructor
  · simp only [getData, hfmt, if_neg hne.2.1, if_neg hne.2.2.1, if_neg htymed, if_true, hmem.1]
    trivial
  · intro hcontents
    exact absurd (hcontents.symm.trans hfmt) hne.2.2.2.2.2

/-- The descriptor is handed out, up to the cap. -/
theorem delivers_feDesc {mem : Memory} (hmem : mem.Suffices) (hsome : object.specs ≠ [])
    (hcap : object.specs.length ≤ kMaxVirtualFileSpecs) :
    Delivers formats object (feDesc formats) (getData formats mem now object (feDesc formats)) := by
  have hne := formats.ne
  have hfmt : (feDesc formats).cfFormat.toUInt32 = formats.descriptor := formats.cast.1
  have htymed : ¬ (feDesc formats).tymed &&& tymedHGlobal = 0 := by
    change ¬ tymedHGlobal &&& tymedHGlobal = 0
    decide
  have hpayload : buildFileGroupDescriptorPayload now object.specs ≠ [] := by
    intro hempty
    have hlength : (buildFileGroupDescriptorPayload now object.specs).length =
        fgd object.specs.length := length_payload hsome hcap
    rw [hempty, fgd, List.length_nil] at hlength
    omega
  constructor
  · simp only [getData, hfmt, if_true, if_neg htymed, buildFileGroupDescriptor,
      if_neg (Nat.not_lt.mpr hcap), if_neg hpayload, hmem.1]
    trivial
  · intro hcontents
    exact absurd (hcontents.symm.trans hfmt) hne.2.2.2.1

/-- Beyond it the builder refuses, and `GetData` says that memory ran out. -/
theorem getData_feDesc_beyond_cap (mem : Memory)
    (hcap : kMaxVirtualFileSpecs < object.specs.length) :
    getData formats mem now object (feDesc formats) = .failed eOutOfMemory := by
  have hfmt : (feDesc formats).cfFormat.toUInt32 = formats.descriptor := formats.cast.1
  have htymed : ¬ (feDesc formats).tymed &&& tymedHGlobal = 0 := by
    change ¬ tymedHGlobal &&& tymedHGlobal = 0
    decide
  simp only [getData, hfmt, if_true, if_neg htymed, buildFileGroupDescriptor, if_pos hcap]

/-- What `GetData` does for the contents of a file. -/
theorem getData_feCont (mem : Memory) (i : Nat) :
    getData formats mem now object (feCont formats i) =
      if Int32.ofNat i < 0 then .failed dvELindex
      else
        match object.specs[(Int32.ofNat i).toInt.toNat]? with
        | none => .failed dvELindex
        | some spec =>
          if mem.newStream then
            .iStream {
              stream := {
                transferId := object.transferId, fileId := spec.fileId, size := spec.size }
              displayName := spec.name }
          else .failed eOutOfMemory := by
  have hne := formats.ne
  have hfmt : (feCont formats i).cfFormat.toUInt32 = formats.contents := formats.cast.2.1
  have htymed : ¬ (feCont formats i).tymed &&& tymedIStream = 0 := by
    change ¬ tymedIStream &&& tymedIStream = 0
    decide
  simp only [getData, hfmt, if_neg hne.2.2.2.1, if_neg hne.2.2.2.2.1, if_neg hne.2.2.2.2.2,
    if_true, if_neg htymed]
  rfl

theorem delivers_feCont {mem : Memory} (hmem : mem.Suffices) {i : Nat}
    (hi : i < object.specs.length) (hlong : i < 2 ^ 31) :
    Delivers formats object (feCont formats i)
      (getData formats mem now object (feCont formats i)) := by
  have hint : (Int32.ofNat i).toInt = i := Int32.toInt_ofNat_of_lt hlong
  have hnonneg : ¬ Int32.ofNat i < 0 := by
    rw [Int32.lt_iff_toInt_lt, hint]
    simp
  have hspec : object.specs[(Int32.ofNat i).toInt.toNat]? = some object.specs[i] := by
    rw [hint, Int.toNat_natCast, List.getElem?_eq_getElem hi]
  rw [getData_feCont, if_neg hnonneg, hspec]
  simp only [hmem.2, if_true]
  refine ⟨trivial, ?_⟩
  intro _
  refine ⟨object.specs[i], _, hspec, ?_, rfl, rfl, rfl, rfl, rfl⟩
  change (0 : Int32) ≤ Int32.ofNat i
  rw [Int32.le_iff_toInt_le, hint]
  simp

/-- The cast of a larger index is negative, and not that of the probe. -/
theorem lindex_of_large {i : Nat} (hlow : 2 ^ 31 ≤ i) (hhigh : i + 3 < 2 ^ 32) :
    (Int32.ofNat i).toInt = (i : Int) - 2 ^ 32 := by
  have hhalf : ¬ (i : Int) < ((Int32.size : Nat) + 1) / 2 := by
    change ¬ (i : Int) < (4294967296 + 1) / 2
    omega
  have hrest : (i : Int) % (Int32.size : Nat) = i := by
    change (i : Int) % 4294967296 = i
    omega
  rw [Int32.toInt_ofNat', Int.bmod_def, hrest, if_neg hhalf]
  rfl

theorem getData_feCont_large (mem : Memory) {i : Nat} (hlow : 2 ^ 31 ≤ i)
    (hhigh : i + 3 < 2 ^ 32) :
    getData formats mem now object (feCont formats i) = .failed dvELindex := by
  have hneg : Int32.ofNat i < 0 := by
    rw [Int32.lt_iff_toInt_lt, lindex_of_large hlow hhigh]
    simp
    omega
  rw [getData_feCont, if_pos hneg]

/-! ## The two halves -/

/-- The system at its best: requests for memory succeed. -/
def unlimited : Memory := { globalAlloc := fun _ => true, newStream := true }

theorem unlimited_suffices : unlimited.Suffices := ⟨fun _ => rfl, rfl⟩

/-- A descriptor entry is no probe for contents. -/
theorem feDesc_ne_feContProbe (formats : ClipboardFormats) :
    feDesc formats ≠ feContProbe formats := by
  intro h
  have htymed := congrArg FormatEtc.tymed h
  change tymedHGlobal = tymedIStream at htymed
  exact absurd htymed (by decide)

/-- The index of a large file is negative, but not that of the probe. -/
theorem feCont_ne_feContProbe (formats : ClipboardFormats) {i : Nat} (hlow : 2 ^ 31 ≤ i)
    (hhigh : i + 3 < 2 ^ 32) : feCont formats i ≠ feContProbe formats := by
  intro h
  have hlindex : Int32.ofNat i = -1 := congrArg FormatEtc.lindex h
  have hint := lindex_of_large hlow hhigh
  rw [hlindex] at hint
  have hprobe : (-1 : Int32).toInt = -1 := by decide
  omega

/-- An object that agrees with itself is asked for nothing it denies, and lists
nothing it refuses. -/
theorem agrees_of_selfConsistent {fe : FormatEtc} (h : SelfConsistent formats now object fe) :
    Agrees formats object.specs.length fe where
  attributes := by
    intro hattributes
    have hok := getData_attributes now object unlimited_suffices hattributes.1 hattributes.2
    have hquery := h.queried unlimited hok
    rw [queryGetData_attributes hattributes.1] at hquery
    exact absurd hquery (by decide)
  descriptor := by
    intro hfe hshown
    subst hfe
    by_contra hcap
    have hgot := h.delivered unlimited unlimited_suffices (enumerated_feDesc formats object hshown)
      (feDesc_ne_feContProbe formats)
    rw [getData_feDesc_beyond_cap now object unlimited (Nat.lt_of_not_le hcap)] at hgot
    exact hgot.1
  index := by
    intro i hlow hi hfe
    subst hfe
    have hcount : shown object.specs.length < 2 ^ 32 := Nat.mod_lt _ (by omega)
    have hgot := h.delivered unlimited unlimited_suffices (enumerated_feCont formats object hi)
      (feCont_ne_feContProbe formats hlow (by omega))
    rw [getData_feCont_large now object unlimited hlow (by omega)] at hgot
    exact hgot.1

/-- Outside the three cases every entry is handed out. -/
theorem selfConsistent_of_agrees {fe : FormatEtc} (hsome : object.specs ≠ [])
    (h : Agrees formats object.specs.length fe) : SelfConsistent formats now object fe where
  queried := by
    intro mem hok
    exact queryGetData_of_ok now object hok h.attributes
  delivered := by
    intro mem hmem henumerated hprobe
    obtain rfl | hdescriptor | hcontents | hfile := enumerated_cases formats henumerated
    · exact delivers_feDrop now object hmem
    · obtain ⟨rfl, hshown⟩ := hdescriptor
      exact delivers_feDesc now object hmem hsome (h.descriptor rfl hshown)
    · exact absurd hcontents hprobe
    · obtain ⟨i, hi, hshown, rfl⟩ := hfile
      have hlong : i < 2 ^ 31 := by
        by_contra hlarge
        exact h.index i (Nat.le_of_not_lt hlarge) hshown rfl
      exact delivers_feCont now object hmem hi hlong

end Requests

/-- An object that was made has files. -/
theorem specs_ne_nil {provider allocated : Bool} {specs : List VirtualFileSpec}
    {transferId : Bytes} {object : Object}
    (hcreate : createVirtualClipboardDataObject provider allocated specs transferId =
      .ok object) : object.specs ≠ [] := by
  rw [createVirtualClipboardDataObject] at hcreate
  split at hcreate
  · cases hcreate
  split at hcreate
  · cases hcreate
  split at hcreate
  · cases hcreate
  · rename_i hsome _
    cases hcreate
    exact hsome

/-- **The data object agrees with itself exactly outside three cases**: the
attributes of the files, which it hands out and denies; the descriptor of more
files than the cap, which it lists and refuses; and the contents of files from
2³¹ on, which it lists under an index that it refuses. -/
theorem self_consistent_iff (now : Nat → UInt64) (provider allocated : Bool)
    (specs : List VirtualFileSpec) (transferId : Bytes) (object : Object)
    (hcreate : createVirtualClipboardDataObject provider allocated specs transferId = .ok object)
    (fe : FormatEtc) :
    SelfConsistent formats now object fe ↔ Agrees formats object.specs.length fe := by
  constructor
  · intro h
    exact agrees_of_selfConsistent now object h
  · intro h
    exact selfConsistent_of_agrees now object (specs_ne_nil hcreate) h

/-! ## An object of one file -/

def registered : ClipboardFormats where
  descriptor := 0xC001
  contents := 0xC002
  dropEffect := 0xC003
  fileAttributes := 0xC004
  distinct := by decide
  narrow := by simp

def oneFile : Object where
  specs := [{ fileId := [102], name := [97], size := 3 }]
  transferId := [116]

/-- The only file is handed out under its own index, and not denied. -/
theorem one_file_agrees : SelfConsistent registered (fun _ => 0) oneFile (feCont registered 0) := by
  refine (self_consistent_iff registered (fun _ => 0) true true oneFile.specs oneFile.transferId
    oneFile rfl (feCont registered 0)).mpr ?_
  constructor
  · decide
  · intro h
    exact absurd h (by decide)
  · intro i hlow hi
    have hshown : shown oneFile.specs.length = 4 := by decide
    omega

/-- The request for the attributes of the files. -/
def feAttributes : FormatEtc :=
  { cfFormat := registered.fileAttributes.toUInt16, tymed := tymedHGlobal }

/-- The attributes of the only file are handed out, and denied. -/
theorem attributes_handed_out_and_denied :
    createVirtualClipboardDataObject true true oneFile.specs oneFile.transferId = .ok oneFile ∧
      (getData registered unlimited (fun _ => 0) oneFile feAttributes).Ok ∧
      queryGetData registered feAttributes = dvEFormatEtc ∧
      ¬ SelfConsistent registered (fun _ => 0) oneFile feAttributes := by
  have hok : (getData registered unlimited (fun _ => 0) oneFile feAttributes).Ok :=
    getData_attributes _ _ unlimited_suffices (by decide) (by decide)
  have hdenied : queryGetData registered feAttributes = dvEFormatEtc := by decide
  refine ⟨rfl, hok, hdenied, ?_⟩
  intro h
  have hquery := h.queried unlimited hok
  rw [hdenied] at hquery
  exact absurd hquery (by decide)

end VirtualDataObject
