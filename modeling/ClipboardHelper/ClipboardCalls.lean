import ClipboardHelper.Library.Calls
import ClipboardHelper.DelayedRender
import ClipboardHelper.DibFormat
import ClipboardHelper.FileGroupDescriptor
import ClipboardHelper.HdropFormat
import ClipboardHelper.Library.SparseFile

/-!
# The clipboard functions, call by call

`clipboard_ops.cpp` takes memory, locks it, opens the clipboard, obtains data
objects and media, and has to give all of it back on every path, among them
the many on which a call of the system fails.  Here each of its functions is
a program over the calls it makes, with the system free to answer as it may;
`Win32` is what the thread has at hand meanwhile: the blocks that it owns and
has locked, the references and media that it holds, whether it has the
clipboard open, and what is on the clipboard.

The system's side of a call says what the documentation promises: a new block
is at least as large as asked for, text on the clipboard ends in a NUL, and a
data object hands out a medium of a kind that it was asked for.  Its file group
descriptor is taken to be one that is read within its bounds; which these are
is said in `FileGroupDescriptor`.
-/

namespace ClipboardCalls

open Library DispatchCodec DelayedRender DibFormat

/-! ## The system -/

/-- A block of memory, an `HGLOBAL`. -/
abbrev Handle := Nat

abbrev Object := ChunkServing.DataObject

def cfHdrop : Nat := 15

/-- The registered formats. -/
inductive RegisteredFormat
  | fileDescriptor
  | fileContents
deriving DecidableEq, Repr

/-- `FORMATETC::tymed`. -/
inductive Tymed
  | hGlobal
  | streamOrHGlobal
deriving DecidableEq, Repr

/-- `STGMEDIUM`. -/
inductive Medium
  | hGlobal (h : Handle)
  | stream (id : Nat)
deriving DecidableEq, Repr

/-- A call and its arguments; `globalRead` and `globalWrite` are accesses
through a pointer of `GlobalLock`. -/
inductive Call
  | isOsClipboardHeldByThisThread
  | openClipboard
  | sleep
  | closeClipboard
  | emptyClipboard
  | isClipboardFormatAvailable (format : Nat)
  | isFileDescriptorAvailable
  | getClipboardData (format : Nat)
  | setClipboardData (format : Nat) (h : Option Handle)
  | clearLastError
  | getLastError
  | globalAlloc (size : Nat)
  | globalLock (h : Handle)
  | globalSize (h : Handle)
  | globalRead (h : Handle)
  | globalWrite (h : Handle) (offset : Nat) (bytes : Bytes)
  | globalUnlock (h : Handle)
  | globalFree (h : Handle)
  | dragQueryFileCount (h : Handle)
  | dragQueryFileLength (h : Handle) (i : Nat)
  | dragQueryFile (h : Handle) (i length : Nat)
  | pngToBgra (png : Bytes)
  | bgraToPng (image : BgraImage)
  | registerClipboardFormat (format : RegisteredFormat)
  | oleGetClipboard
  | getData (object : Object) (format : RegisteredFormat) (lindex : Int) (tymed : Tymed)
  | release (object : Object)
  | releaseStgMedium (medium : Medium)
  | streamSeek (stream : Nat) (offset : UInt64)
  | streamRead (stream : Nat) (size : UInt32)
deriving DecidableEq, Repr

/-- What comes back: `none` for a null pointer or a failure.  An allocation
comes with what happens to stand in the block, and `setClipboardData` answers
with the error code, 0 for none. -/
@[reducible] def Answer : Call → Type
  | .isOsClipboardHeldByThisThread | .openClipboard | .emptyClipboard => Bool
  | .isClipboardFormatAvailable _ | .isFileDescriptorAvailable | .globalLock _ => Bool
  | .sleep | .closeClipboard | .clearLastError | .globalWrite _ _ _ | .globalUnlock _ => Unit
  | .globalFree _ | .release _ | .releaseStgMedium _ => Unit
  | .getClipboardData _ => Option Handle
  | .setClipboardData _ _ | .getLastError | .globalSize _ => Nat
  | .globalAlloc _ => Option (Handle × Bytes)
  | .globalRead _ => Bytes
  | .dragQueryFileCount _ | .dragQueryFileLength _ _ => Nat
  | .dragQueryFile _ _ _ => WideString
  | .pngToBgra _ => Option BgraImage
  | .bgraToPng _ => Option Bytes
  | .registerClipboardFormat _ => Bool
  | .oleGetClipboard => Option Object
  | .getData _ _ _ _ => Option Medium
  | .streamSeek _ _ => Bool
  | .streamRead _ _ => Option Bytes

/-- What the thread has at hand, and the clipboard: `held` while the system
has it open for a render, `opened` while the thread has; an entry without
data is rendered on demand.  `lent` are the blocks of the clipboard that the
thread was given to read; `picture` is what a PNG shows. -/
structure Win32 where
  picture : Bytes → BgraImage := fun _ => { width := 0, height := 0, pixels := [] }
  held : Bool := false
  opened : Bool := false
  clipboard : List (Nat × Option Bytes) := []
  lastError : Nat := 0
  contents : Handle → Bytes := fun _ => []
  owned : Finset Handle := ∅
  lent : Finset Handle := ∅
  locked : Finset Handle := ∅
  references : Multiset Object := 0
  media : Multiset Medium := 0

/-- The block may be looked at. -/
def Win32.Live (s : Win32) (h : Handle) : Prop :=
  h ∈ s.owned ∨ h ∈ s.lent ∨ .hGlobal h ∈ s.media

def Medium.Unlocked (s : Win32) : Medium → Prop
  | .hGlobal h => h ∉ s.locked
  | .stream _ => True

/-- The data object was asked for such a medium. -/
def Medium.Offered : Tymed → Medium → Prop
  | .hGlobal, .hGlobal _ => True
  | .hGlobal, .stream _ => False
  | .streamOrHGlobal, _ => True

/-- `SetClipboardData` replaces what there is in the format. -/
def Win32.put (s : Win32) (format : Nat) (data : Option Bytes) : List (Nat × Option Bytes) :=
  s.clipboard.filter (fun entry => entry.1 ≠ format) ++ [(format, data)]

/-- What may be called when. -/
def allowed (s : Win32) : Call → Prop
  | .openClipboard => s.opened = false
  | .closeClipboard => s.opened = true ∧ Disjoint s.locked s.lent
  | .emptyClipboard => s.opened = true ∧ Disjoint s.locked s.lent
  | .getClipboardData _ => s.opened = true ∨ s.held = true
  | .setClipboardData _ none => s.opened = true
  | .setClipboardData _ (some h) =>
    (s.opened = true ∨ s.held = true) ∧ h ∈ s.owned ∧ h ∉ s.locked
  | .globalLock h => s.Live h ∧ h ∉ s.locked
  | .globalSize h => s.Live h
  | .globalRead h | .globalUnlock h => h ∈ s.locked
  | .globalWrite h offset bytes =>
    h ∈ s.owned ∧ h ∈ s.locked ∧ offset + bytes.length ≤ (s.contents h).length
  | .globalFree h => h ∈ s.owned ∧ h ∉ s.locked
  | .dragQueryFileCount h | .dragQueryFileLength h _ | .dragQueryFile h _ _ => h ∈ s.locked
  | .getData object _ _ _ | .release object => object ∈ s.references
  | .releaseStgMedium medium => medium ∈ s.media ∧ medium.Unlocked s
  | .streamSeek id _ | .streamRead id _ => .stream id ∈ s.media
  | .isOsClipboardHeldByThisThread | .sleep | .clearLastError | .getLastError => True
  | .oleGetClipboard => s.held = false
  | .isClipboardFormatAvailable _ | .isFileDescriptorAvailable | .globalAlloc _ => True
  | .pngToBgra _ | .bgraToPng _ | .registerClipboardFormat _ => True

/-- What may be answered. -/
def answers (s : Win32) : (c : Call) → Answer c → Prop
  | .isOsClipboardHeldByThisThread, r => r = s.held
  | .getLastError, r => r = s.lastError
  | .globalAlloc size, r =>
    ∀ h junk, r = some (h, junk) → ¬ s.Live h ∧ h ∉ s.locked ∧ size ≤ junk.length
  | .globalRead h, r => r = s.contents h
  | .globalSize h, r => r = (s.contents h).length
  | .getClipboardData format, r =>
    ∀ h, r = some h → h ∉ s.owned ∧ h ∉ s.locked ∧ (.hGlobal h) ∉ s.media ∧
      (format = cfUnicodeText → (readWide (s.contents h) 0).isSome)
  | .dragQueryFile _ _ length, r => r.length ≤ length
  | .getData _ format _ tymed, r =>
    ∀ medium, r = some medium → medium.Offered tymed ∧ medium ∉ s.media ∧
      ∀ h, medium = .hGlobal h → ¬ s.Live h ∧ h ∉ s.locked ∧
        (format = .fileDescriptor →
          GroupDescriptor.readVirtualFiles (s.contents h) ≠ .outOfBounds)
  | .oleGetClipboard, r => r ≠ some 0
  | .pngToBgra png, r => r = none ∨ r = some (s.picture png)
  | .streamRead _ size, r => ∀ bytes, r = some bytes → bytes.length ≤ size.toNat
  | _, _ => True

/-- What it does. -/
def after (s : Win32) : (c : Call) → Answer c → Win32
  | .openClipboard, r => { s with opened := r }
  | .closeClipboard, _ => { s with opened := false, lent := ∅ }
  | .emptyClipboard, r => if r then { s with clipboard := [], lent := ∅ } else s
  | .getClipboardData _, r =>
    match r with
    | some h => { s with lent := insert h s.lent }
    | none => s
  | .setClipboardData format none, error =>
    { s with
      lastError := if error = 0 then s.lastError else error
      clipboard := if error = 0 then s.put format none else s.clipboard }
  | .setClipboardData format (some h), error =>
    if error = 0 then
      { s with clipboard := s.put format (some (s.contents h)), owned := s.owned.erase h }
    else { s with lastError := error }
  | .clearLastError, _ => { s with lastError := 0 }
  | .globalAlloc _, r =>
    match r with
    | some (h, junk) =>
      { s with contents := Function.update s.contents h junk, owned := insert h s.owned }
    | none => s
  | .globalLock h, r => if r then { s with locked := insert h s.locked } else s
  | .globalWrite h offset bytes, _ =>
    { s with contents := Function.update s.contents h (writeAt 0 (s.contents h) offset bytes) }
  | .globalUnlock h, _ => { s with locked := s.locked.erase h }
  | .globalFree h, _ => { s with owned := s.owned.erase h }
  | .oleGetClipboard, r =>
    match r with
    | some object => { s with references := object ::ₘ s.references }
    | none => s
  | .getData _ _ _ _, r =>
    match r with
    | some medium => { s with media := medium ::ₘ s.media }
    | none => s
  | .release object, _ => { s with references := s.references.erase object }
  | .releaseStgMedium medium, _ => { s with media := s.media.erase medium }
  | _, _ => s

attribute [simp] after

def win32 : System Call Answer Win32 where
  allowed := allowed
  answers := answers
  after := after

abbrev Calls (α : Type) := Program Call Answer α

def call (c : Call) : Calls (Answer c) := .ask c

/-! ## Blocks -/

/-- Copies into a locked block, one behind the other. -/
def copyInto (h : Handle) (offset : Nat) : List Bytes → Calls Unit
  | [] => return ()
  | part :: parts => do
    call (.globalWrite h offset part)
    copyInto h (offset + part.length) parts

/-- A new block of the given size and content. -/
def globalFrom (size : Nat) (parts : List Bytes) : Calls (Option Handle) := do
  match ← call (.globalAlloc size) with
  | none => return none
  | some (h, _) =>
    if ← call (.globalLock h) then
      copyInto h 0 parts
      call (.globalUnlock h)
      return some h
    else
      call (.globalFree h)
      return none

/-- `(text.size() + 1) * sizeof(wchar_t)`, the text, and `dst[text.size()]`. -/
def globalFromText (text : WideString) : Calls (Option Handle) :=
  globalFrom ((text.length + 1) * 2) [wide text, wide [0]]

def globalFromPayload (payload : Bytes) : Calls (Option Handle) :=
  globalFrom payload.length [payload]

/-- `SetClipboardData` with a block, which is the thread's own again if the
clipboard does not take it. -/
def setOrFree (format : Nat) (h : Handle) : Calls Bool := do
  let error ← call (.setClipboardData format (some h))
  if error = 0 then return true
  else
    call (.globalFree h)
    return false

/-! ## Opening the clipboard -/

def kMaxAttempts : Nat := 10

def openAttempts : Nat → Calls Bool
  | 0 => return false
  | n + 1 => do
    if ← call .openClipboard then return true
    else
      call .sleep
      openAttempts n

/-- The constructor of `ClipboardScope`. -/
def clipboardScope : Calls Bool := do
  if ← call .isOsClipboardHeldByThisThread then return false
  else openAttempts kMaxAttempts

/-- What is done inside a `ClipboardScope`, and its destructor. -/
def inClipboardScope {α : Type} (closed : Calls α) (body : Calls α) : Calls α := do
  if ← clipboardScope then
    let value ← body
    call .closeClipboard
    return value
  else closed

/-! ## Writing -/

/-- `WriteClipboardText`. -/
def writeClipboardText (text : WideString) : Calls Bool :=
  inClipboardScope (return false) do
    if ← call .emptyClipboard then
      match ← globalFromText text with
      | none => return false
      | some h => setOrFree cfUnicodeText h
    else return false

/-- The end of `WriteClipboardImagePng` and `WriteClipboardFiles`, with the
block made. -/
def publishBlock (format : Nat) (h : Handle) : Calls Bool :=
  let free : Calls Bool := do
    call (.globalFree h)
    return false
  inClipboardScope free do
    if ← call .emptyClipboard then setOrFree format h else free

/-- `BuildCfDibV5Payload` of a decoded image. -/
def dibPayload (image : BgraImage) : Bytes :=
  buildCfDibV5Payload image.width image.height (some image.pixels) image.pixels.length

/-- `WriteClipboardImagePng`. -/
def writeClipboardImagePng (png : Bytes) : Calls Bool := do
  match ← call (.pngToBgra png) with
  | none => return false
  | some image =>
    if dibPayload image = [] then return false
    else
      match ← globalFromPayload (dibPayload image) with
      | none => return false
      | some h => publishBlock cfDibV5 h

/-- `WriteClipboardFiles`. -/
def writeClipboardFiles (paths : List WideString) : Calls Bool := do
  if paths = [] then return false
  else if HdropFormat.buildCfHdropPayload paths = [] then return false
  else
    match ← globalFromPayload (HdropFormat.buildCfHdropPayload paths) with
    | none => return false
    | some h => publishBlock cfHdrop h

/-! ## Delayed rendering -/

/-- `announce_delayed`: a null handle is returned in either case, so the error
code is looked at. -/
def announceDelayed (format : Nat) : Calls Bool := do
  call .clearLastError
  let _ ← call (.setClipboardData format none)
  let error ← call .getLastError
  return error = 0

/-- `AnnounceDelayedFormatsForType`. -/
def announceDelayedFormatsForType (type : ClipboardContentType) : Calls Bool :=
  inClipboardScope (return false) do
    if ← call .emptyClipboard then
      if type = .text then announceDelayed cfUnicodeText
      else if type = .image then
        let dibv5Ok ← announceDelayed cfDibV5
        let _ ← announceDelayed cfDib
        return dibv5Ok
      else return false
    else return false

/-- `RenderTextDuringWmRenderFormat`. -/
def renderTextDuringWmRenderFormat (text : WideString) : Calls Bool := do
  match ← globalFromText text with
  | none => return false
  | some h => setOrFree cfUnicodeText h

/-- `BuildDibV5HGlobalFromPng`. -/
def buildDibV5HGlobalFromPng (png : Bytes) : Calls (Option Handle) := do
  match ← call (.pngToBgra png) with
  | none => return none
  | some image =>
    if dibPayload image = [] then return none else globalFromPayload (dibPayload image)

/-- `RenderImageDuringWmRenderFormat`. -/
def renderImageDuringWmRenderFormat (format : Nat) (png : Bytes) : Calls Bool := do
  match ← buildDibV5HGlobalFromPng png with
  | none => return false
  | some h =>
    if format ≠ cfDib ∧ format ≠ cfDibV5 then
      call (.globalFree h)
      return false
    else setOrFree format h

/-! ## Reading -/

/-- One round of the loop over `CF_HDROP`; empty paths are passed over. -/
def hdropPath (h : Handle) (i : Nat) : Calls (Option WideString) := do
  let length ← call (.dragQueryFileLength h i)
  if length = 0 then return none
  else
    let path ← call (.dragQueryFile h i length)
    return if path = [] then none else some path

/-- The paths of `CF_HDROP`; no paths if there is none, or it cannot be read. -/
def readHdrop : Calls (List WideString) := do
  if ← call (.isClipboardFormatAvailable cfHdrop) then
    match ← call (.getClipboardData cfHdrop) with
    | none => return []
    | some h =>
      if ← call (.globalLock h) then
        let count ← call (.dragQueryFileCount h)
        let paths ← .collect (hdropPath h) (List.range count)
        call (.globalUnlock h)
        return paths.reduceOption
      else return []
  else return []

/-- The entries of a descriptor, whose medium is released in any case. -/
def describedIn (h : Handle) : Calls (Option (List VirtualFileEntry)) := do
  if ← call (.globalLock h) then
    let blob ← call (.globalRead h)
    call (.globalUnlock h)
    call (.releaseStgMedium (.hGlobal h))
    match GroupDescriptor.readVirtualFiles blob with
    | .files virtualFiles => return some virtualFiles
    | _ => return none
  else
    call (.releaseStgMedium (.hGlobal h))
    return none

/-- The entries of the descriptor that the object hands out. -/
def describedFiles (object : Object) : Calls (Option (List VirtualFileEntry)) := do
  if ← call (.registerClipboardFormat .fileDescriptor) then
    match ← call (.getData object .fileDescriptor (-1) .hGlobal) with
    | some (.hGlobal h) => describedIn h
    | _ => return none
  else return none

/-- `ReadVirtualFiles`: the snapshot takes the reference over. -/
def readVirtualFiles : Calls (Option ChunkServing.Snapshot) := do
  if ← call .isOsClipboardHeldByThisThread then return none
  else
    match ← call .oleGetClipboard with
    | none => return none
    | some object =>
      match ← describedFiles object with
      | some virtualFiles =>
        return some {
          contentType := .files, virtualFiles := virtualFiles, virtualDataObject := object }
      | none =>
        call (.release object)
        return none

/-- What is in a block of the clipboard, if there is one. -/
def blockContents : Option Handle → Calls (Option Bytes)
  | none => return none
  | some h => do
    if ← call (.globalLock h) then
      let blob ← call (.globalRead h)
      call (.globalUnlock h)
      return some blob
    else return none

def readUnicodeText : Calls (Option WideString) := do
  if ← call (.isClipboardFormatAvailable cfUnicodeText) then
    let blob ← blockContents (← call (.getClipboardData cfUnicodeText))
    return blob.bind (readWide · 0)
  else return none

/-- `CF_DIBV5` is preferred; if its block cannot be locked, that is all. -/
def dibHandle : Calls (Option Handle) := do
  match ← call (.getClipboardData cfDibV5) with
  | some h => return some h
  | none => call (.getClipboardData cfDib)

/-- `ReadClipboardDibToBgra`. -/
def readClipboardDibToBgra : Calls (Option BgraImage) := do
  let blob ← blockContents (← dibHandle)
  return blob.bind DibFormat.readClipboardDibToBgra

def dibAvailable : Calls Bool := do
  if ← call (.isClipboardFormatAvailable cfDib) then return true
  else call (.isClipboardFormatAvailable cfDibV5)

def readImagePng : Calls (Option Bytes) := do
  if ← dibAvailable then
    match ← readClipboardDibToBgra with
    | none => return none
    | some image => call (.bgraToPng image)
  else return none

/-- Text and images. -/
def readOther : Calls (Option ChunkServing.Snapshot) := do
  match ← readUnicodeText with
  | some text => return some { contentType := .text, text := text }
  | none =>
    match ← readImagePng with
    | some png => return some { contentType := .image, imagePng := png }
    | none => return none

/-- Files are probed first, as a copy in Explorer announces the path as text
besides. -/
def readOpened : Calls (Option ChunkServing.Snapshot) := do
  let paths ← readHdrop
  if paths ≠ [] then return some { contentType := .files, filePaths := paths }
  else if ← call .isFileDescriptorAvailable then
    match ← readVirtualFiles with
    | some snap => return some snap
    | none => readOther
  else readOther

/-- `ReadClipboard`. -/
def readClipboard : Calls (Option ChunkServing.Snapshot) :=
  inClipboardScope (return none) readOpened

/-- The part of a stream. -/
def readStream (stream : Nat) (offset : UInt64) (size : UInt32) :
    Calls (Option (Bytes × Bool)) := do
  if ← call (.streamSeek stream offset) then
    match ← call (.streamRead stream size) with
    | some bytes => return some (bytes, bytes.length < size.toNat)
    | none => return none
  else return none

/-- The part of a block; behind its end there is nothing, which is the last
chunk. -/
def readBlock (h : Handle) (offset : UInt64) (size : UInt32) :
    Calls (Option (Bytes × Bool)) := do
  let total ← call (.globalSize h)
  if offset.toNat < total then
    if ← call (.globalLock h) then
      let block ← call (.globalRead h)
      let taken := (block.drop offset.toNat).take size.toNat
      call (.globalUnlock h)
      return some (taken, offset.toNat + taken.length ≥ total)
    else return none
  else return some ([], true)

def readMedium (medium : Medium) (offset : UInt64) (size : UInt32) :
    Calls (Option (Bytes × Bool)) :=
  match medium with
  | .stream stream => readStream stream offset size
  | .hGlobal h => readBlock h offset size

/-- `ReadVirtualFileChunk`; the object belongs to the caller. -/
def readVirtualFileChunk (object : Object) (lindex : UInt32) (offset : UInt64)
    (size : UInt32) : Calls (Option (Bytes × Bool)) := do
  if object = 0 ∨ size = 0 then return none
  else if ← call (.registerClipboardFormat .fileContents) then
    match ← call (.getData object .fileContents (toLong lindex.toNat) .streamOrHGlobal) with
    | none => return none
    | some medium =>
      let chunk ← readMedium medium offset size
      call (.releaseStgMedium medium)
      return chunk
  else return none

end ClipboardCalls
