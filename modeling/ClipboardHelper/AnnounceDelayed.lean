import ClipboardHelper.DelayedRender
import ClipboardHelper.ChunkServing

/-!
# An announcement that is dropped

`HandleAnnounceDelayed` first rotates the render state and then looks whether
it can publish the announcement: files need metadata, a transfer id, a data
object and `OleSetClipboard`, other types a format that
`AnnounceDelayedFormatsForType` knows, which it finds out with the clipboard
already emptied.  On every such exit it logs that the announcement is dropped.

What the system answers during one call is a parameter, and so is what a
failed `OleSetClipboard` leaves on the clipboard.  The render state is changed
by the rotation alone and the clipboard by the publication alone
(`render_handle`, `os_handle`), so nothing that happens between the two
matters here.

**`dropped_changes_nothing_iff`**: a dropped announcement changes nothing
exactly if it is malformed, or the render state already is what the rotation
makes of it and the clipboard is left alone.  `dropped_files_lose_text` is a
run in which announced and provided text cannot be pasted any more.
-/

namespace AnnounceDelayed

open Library DispatchCodec DelayedRender

/-! ## The clipboard of the system -/

/-- What there is to paste: formats that the owner renders on demand, a data
object of the helper, or the data of another application. -/
inductive Content
  | promised (formats : List Nat)
  | object (object : ChunkServing.DataObject)
  | foreign (data : Nat)
deriving DecidableEq, Repr

structure OsClipboard where
  ownedByHelper : Bool := false
  content : Content := .foreign 0
deriving DecidableEq, Repr

/-- `EmptyClipboard`, which makes the window that opened it the owner. -/
def OsClipboard.empty : OsClipboard where
  ownedByHelper := true
  content := .promised []

/-- `SetClipboardData` without data. -/
def OsClipboard.promise (os : OsClipboard) (format : Nat) : OsClipboard :=
  match os.content with
  | .promised formats => { os with content := .promised (formats ++ [format]) }
  | _ => os

/-- What the system answers during one `HandleAnnounceDelayed`:
`setClipboardData` is whether a format is taken, `allocated` the object that
`new` returns, `oleFailure` what a failed `OleSetClipboard` makes of the
clipboard. -/
structure Answers where
  sys : Platform
  heldByThisThread : Bool := false
  openClipboard : Nat → Bool := fun _ => true
  emptyClipboard : Bool := true
  setClipboardData : Nat → Bool := fun _ => true
  chunkProvider : Bool := true
  allocated : Option ChunkServing.DataObject := some 1
  oleFailure : Option (OsClipboard → OsClipboard) := none

/-- `ClipboardScope`: ten attempts, unless the system holds the clipboard for
a render. -/
def Answers.opens (a : Answers) : Bool :=
  !a.heldByThisThread && (List.range 10).any a.openClipboard

/-- `AnnounceDelayedFormatsForType`. -/
def announceDelayedFormatsForType (a : Answers) (type : ClipboardContentType)
    (os : OsClipboard) : Bool × OsClipboard :=
  if !a.opens then (false, os)
  else if !a.emptyClipboard then (false, os)
  else
    let announceDelayed (format : Nat) (os : OsClipboard) : Bool × OsClipboard :=
      if a.setClipboardData format then (true, os.promise format) else (false, os)
    let os := OsClipboard.empty
    if type = .text then announceDelayed cfUnicodeText os
    else if type = .image then
      let (dibv5Ok, os) := announceDelayed cfDibV5 os
      (dibv5Ok, (announceDelayed cfDib os).2)
    else (false, os)

/-! ## The handler -/

structure Dispatcher where
  render : Render := {}
  os : OsClipboard := {}
  outboundDataObject : Option ChunkServing.DataObject := none

/-- The files that can be published. -/
def specs (a : Answers) (ann : ParsedAnnouncement) : List VirtualFileSpec :=
  ann.files.filterMap (parseFileMetadataForVirtualFile a.sys)

/-- `CreateVirtualClipboardDataObject`. -/
def createVirtualClipboardDataObject (a : Answers) (specs : List VirtualFileSpec) :
    Option ChunkServing.DataObject :=
  if !a.chunkProvider then none
  else if specs = [] then none
  else a.allocated

/-- The files of an announcement go onto the clipboard. -/
def publishFiles (d : Dispatcher) (a : Answers) (ann : ParsedAnnouncement) : Dispatcher :=
  if specs a ann = [] then d
  else if ann.transferId = [] then d
  else
    match createVirtualClipboardDataObject a (specs a ann) with
    | none => d
    | some object =>
      match a.oleFailure with
      | some leaves => { d with os := leaves d.os }
      | none =>
        { d with
          os := { ownedByHelper := true, content := .object object }
          outboundDataObject := some object }

/-- `HandleAnnounceDelayed`. -/
def handleAnnounceDelayed (d : Dispatcher) (a : Answers) (subPayload : Bytes) : Dispatcher :=
  match parseAnnouncement subPayload {} with
  | none => d
  | some ann =>
    let d := { d with render := (DelayedRender.handleAnnounceDelayed d.render subPayload).1 }
    if ann.contentType = .files then publishFiles d a ann
    else { d with os := (announceDelayedFormatsForType a ann.contentType d.os).2 }

/-- The announcement is dropped, for a reason that can be seen in it or
because its files could not be put on the clipboard. -/
def Dropped (a : Answers) (subPayload : Bytes) : Prop :=
  ∀ ann, parseAnnouncement subPayload {} = some ann →
    (ann.contentType ≠ .text ∧ ann.contentType ≠ .image ∧ ann.contentType ≠ .files) ∨
    (ann.contentType = .files ∧
      (specs a ann = [] ∨ ann.transferId = [] ∨
        createVirtualClipboardDataObject a (specs a ann) = none ∨ a.oleFailure.isSome))

/-! ## What it changes -/

/-- The render state follows the rotation, whatever becomes of the rest. -/
theorem render_handle (d : Dispatcher) (a : Answers) (subPayload : Bytes) :
    (handleAnnounceDelayed d a subPayload).render =
      (DelayedRender.handleAnnounceDelayed d.render subPayload).1 := by
  unfold handleAnnounceDelayed
  cases hparse : parseAnnouncement subPayload {} with
  | none => rw [DelayedRender.handleAnnounceDelayed, hparse]
  | some ann =>
      by_cases hfiles : ann.contentType = .files
      · simp only [if_pos hfiles, publishFiles]
        (repeat' split) <;> rfl
      · simp only [if_neg hfiles]

/-- What becomes of the clipboard when the announcement is dropped. -/
def leftBehind (a : Answers) (ann : ParsedAnnouncement) (os : OsClipboard) : OsClipboard :=
  if ann.contentType = .files then
    if specs a ann = [] ∨ ann.transferId = [] ∨
        createVirtualClipboardDataObject a (specs a ann) = none then os
    else a.oleFailure.elim os (fun leaves => leaves os)
  else if a.opens ∧ a.emptyClipboard then OsClipboard.empty
  else os

theorem os_handle {d : Dispatcher} {a : Answers} {subPayload : Bytes} {ann : ParsedAnnouncement}
    (hparse : parseAnnouncement subPayload {} = some ann) (hdrop : Dropped a subPayload) :
    (handleAnnounceDelayed d a subPayload).os = leftBehind a ann d.os := by
  simp only [handleAnnounceDelayed, hparse, leftBehind]
  rcases hdrop ann hparse with ⟨htext, himage, hfiles⟩ | ⟨hfiles, hwhy⟩
  · simp only [if_neg hfiles, announceDelayedFormatsForType, if_neg htext, if_neg himage]
    cases a.opens <;> cases a.emptyClipboard <;> rfl
  · simp only [if_pos hfiles, publishFiles]
    by_cases hspecs : specs a ann = []
    · simp [hspecs]
    by_cases hid : ann.transferId = []
    · simp [hspecs, hid]
    cases hcreate : createVirtualClipboardDataObject a (specs a ann) with
    | none => simp [hspecs, hid]
    | some object =>
        obtain ⟨leaves, hole⟩ : ∃ leaves, a.oleFailure = some leaves := by
          simp only [hspecs, hid, hcreate, reduceCtorEq, false_or] at hwhy
          exact Option.isSome_iff_exists.mp hwhy
        simp [hspecs, hid, hole]

/-- Nothing is done to the clipboard, or nothing that shows: no object gets as
far as `OleSetClipboard` or its failure leaves the clipboard alone; the
clipboard is not emptied or was empty and the helper's own. -/
structure LeftAlone (a : Answers) (ann : ParsedAnnouncement) (os : OsClipboard) : Prop where
  files : ann.contentType = .files → specs a ann ≠ [] → ann.transferId ≠ [] →
    createVirtualClipboardDataObject a (specs a ann) ≠ none →
    ∀ leaves, a.oleFailure = some leaves → leaves os = os
  other : ann.contentType ≠ .files → a.opens = true → a.emptyClipboard = true →
    os = OsClipboard.empty

theorem leftBehind_eq_iff (a : Answers) (ann : ParsedAnnouncement) (os : OsClipboard) :
    leftBehind a ann os = os ↔ LeftAlone a ann os := by
  unfold leftBehind
  by_cases hfiles : ann.contentType = .files
  · rw [if_pos hfiles]
    split
    · next hnothing =>
        refine ⟨fun _ => ⟨fun _ hspecs hid hcreate => ?_, fun hother => absurd hfiles hother⟩,
          fun _ => rfl⟩
        exact absurd hnothing (by simp [hspecs, hid, hcreate])
    · next hobject =>
        simp only [not_or] at hobject
        constructor
        · intro hleaves
          refine ⟨fun _ _ _ _ leaves hole => ?_, fun hother => absurd hfiles hother⟩
          rw [hole] at hleaves
          exact hleaves
        · intro hleft
          cases hole : a.oleFailure with
          | none => rfl
          | some leaves => exact hleft.files hfiles hobject.1 hobject.2.1 hobject.2.2 leaves hole
  · rw [if_neg hfiles]
    split
    · next hempty =>
        refine ⟨fun h => ⟨fun hfiles' => absurd hfiles' hfiles, fun _ _ _ => h.symm⟩, ?_⟩
        exact fun hleft => (hleft.other hfiles hempty.1 hempty.2).symm
    · next hclosed =>
        refine ⟨fun _ => ⟨fun hfiles' => absurd hfiles' hfiles, ?_⟩, fun _ => rfl⟩
        exact fun _ hopens hempties => absurd ⟨hopens, hempties⟩ hclosed

/-- The render state is what the announcement makes of it. -/
structure AsAnnounced (s : Render) (ann : ParsedAnnouncement) : Prop where
  hash : s.pendingHash = ann.contentHash
  type : s.pendingType = ann.contentType
  response : s.pendingResponse = []
  cachedResponse : s.cachedResponse = []
  cached : s.cachedValid = false
  event : s.renderEvent ≠ some true

theorem rotate_eq_self_iff {s : Render} {subPayload : Bytes} {ann : ParsedAnnouncement}
    (hparse : parseAnnouncement subPayload {} = some ann) :
    (DelayedRender.handleAnnounceDelayed s subPayload).1 = s ↔ AsAnnounced s ann := by
  have hevent : s.renderEvent.map (fun _ => false) = s.renderEvent ↔ s.renderEvent ≠ some true := by
    cases s.renderEvent with
    | none => simp
    | some set => cases set <;> simp
  obtain ⟨hash, type, response, cachedResponse, cached, event, calls, next⟩ := s
  simp only [DelayedRender.handleAnnounceDelayed, hparse, Render.mk.injEq, hevent, and_true]
  constructor
  · rintro ⟨rfl, rfl, rfl, rfl, rfl, hset⟩
    exact ⟨rfl, rfl, rfl, rfl, rfl, hset⟩
  · rintro ⟨rfl, rfl, rfl, rfl, rfl, hset⟩
    exact ⟨rfl, rfl, rfl, rfl, rfl, hset⟩

/-- **A dropped announcement changes nothing** exactly if it is malformed, or
there is nothing left to change. -/
theorem dropped_changes_nothing_iff (d : Dispatcher) {a : Answers} {subPayload : Bytes}
    (hdrop : Dropped a subPayload) :
    ((handleAnnounceDelayed d a subPayload).render = d.render ∧
        (handleAnnounceDelayed d a subPayload).os = d.os) ↔
      ∀ ann, parseAnnouncement subPayload {} = some ann →
        AsAnnounced d.render ann ∧ LeftAlone a ann d.os := by
  rw [render_handle]
  cases hparse : parseAnnouncement subPayload {} with
  | none =>
      have hsame : handleAnnounceDelayed d a subPayload = d := by
        rw [handleAnnounceDelayed, hparse]
      simp [DelayedRender.handleAnnounceDelayed, hparse, hsame]
  | some ann =>
      rw [rotate_eq_self_iff hparse, os_handle hparse hdrop, leftBehind_eq_iff]
      constructor
      · rintro h _ ⟨⟩
        exact h
      · exact fun h => h ann rfl

/-! ## A text that is lost -/

/-- A system that knows ASCII and takes everything. -/
def ascii : Answers where
  sys := {
    multiByteToWideChar := List.map UInt8.toUInt16
    wideCharToMultiByte := List.map UInt16.toUInt8
    getFileAttributesEx := fun _ => none
    clock := 0 }

/-- The text `hi` has been announced and provided. -/
def textProvided : Dispatcher :=
  let d := handleAnnounceDelayed {} ascii [0x08, 0x01, 0x12, 0x01, 0x23]
  { d with render := (handleProvideData d.render [0x0A, 0x01, 0x23, 0x12, 0x02, 0x68, 0x69]).1 }

/-- An announcement that is cut off. -/
theorem dropped_changes_nothing_malformed :
    Dropped ascii [0x08] ∧
      (((handleAnnounceDelayed textProvided ascii [0x08]).render = textProvided.render ∧
          (handleAnnounceDelayed textProvided ascii [0x08]).os = textProvided.os) ↔
        ∀ ann, parseAnnouncement [0x08] {} = some ann →
          AsAnnounced textProvided.render ann ∧ LeftAlone ascii ann textProvided.os) := by
  have hdrop : Dropped ascii [0x08] := by
    intro ann hparse
    cases hparse
  exact ⟨hdrop, dropped_changes_nothing_iff textProvided hdrop⟩

/-- **A dropped announcement of no files** takes the text away: before it a
paste reads `hi`, after it the clipboard still promises the text and a paste
finds nothing.  One of an unknown type empties the clipboard as well. -/
theorem dropped_files_lose_text :
    Dropped ascii [0x08, 0x03, 0x12, 0x01, 0x24] ∧
      (begin textProvided.render 13 false).2 = [.began 0 .text [0x23], .read 0 [0x68, 0x69]] ∧
      (begin (handleAnnounceDelayed textProvided ascii
        [0x08, 0x03, 0x12, 0x01, 0x24]).render 13 false).2 = [] ∧
      (handleAnnounceDelayed textProvided ascii [0x08, 0x03, 0x12, 0x01, 0x24]).os =
        { ownedByHelper := true, content := .promised [13] } ∧
      ¬ ((handleAnnounceDelayed textProvided ascii
            [0x08, 0x03, 0x12, 0x01, 0x24]).render = textProvided.render ∧
          (handleAnnounceDelayed textProvided ascii
            [0x08, 0x03, 0x12, 0x01, 0x24]).os = textProvided.os) ∧
      Dropped ascii [0x08, 0x09, 0x12, 0x01, 0x24] ∧
      (handleAnnounceDelayed textProvided ascii [0x08, 0x09, 0x12, 0x01, 0x24]).os =
        OsClipboard.empty := by
  refine ⟨?_, by decide, by decide, by decide, ?_, ?_, by decide⟩
  · intro ann hparse
    cases hparse
    exact Or.inr ⟨rfl, Or.inl rfl⟩
  · rintro ⟨hrender, -⟩
    exact absurd (congrArg Render.pendingHash hrender) (by decide)
  · intro ann hparse
    cases hparse
    exact Or.inl (by decide)

end AnnounceDelayed
