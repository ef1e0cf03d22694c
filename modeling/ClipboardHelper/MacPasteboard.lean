import ClipboardHelper.Library.Machine
import ClipboardHelper.Library.Bytes
import ClipboardHelper.DispatchCodec

/-!
# The pasteboard manager of the macOS helper

`PasteboardManager.swift`.  Two threads share its fields.

The **socket queue** runs `provideData`: it stores the bytes under
`stateLock` and signals `renderSemaphore` *after* it has released the lock.
These are two steps here.

The **main thread** runs everything else.  A call is broken where another
thread can be seen: at a lock, at the semaphore, at each turn of a loop.
`ensureFilesDownloaded` pumps the event loop while it waits, so that whole
other calls run inside it; the calls that are suspended in their pump form
the stack `pumps`, and `running` is the call that is running at present, if
any.  An event of the main thread starts only when nothing is running.

Of the pasteboard itself the model has what another application or the
helper has put there, and its change count, which grows with every change of
hands.  An announcement carries a serial number, which the source does not
have: it tells two announcements apart that are equal.

`Step` lists what can happen, one rule for each way that a call can go on, and
`step_cases` says that nothing else does; every property of the machine is
derived from it.
-/

namespace MacPasteboard

open Library
open DispatchCodec (ClipboardContentType)

/-! ## Messages -/

/-- `Leviathan_FileMetadata`, as far as the manager reads and writes it. -/
structure FileMetadata where
  fileID : Bytes := []
  filename : Bytes := []
  relativePath : Bytes := []
  fileSize : UInt64 := 0
  isDirectory : Bool := false
deriving DecidableEq, Repr

structure ClipboardData where
  contentType : ClipboardContentType := .unspecified
  contentHash : Bytes := []
  payload : Bytes := []
  files : List FileMetadata := []
deriving DecidableEq, Repr

structure Announcement where
  serial : Nat
  contentHash : Bytes
  contentType : ClipboardContentType
  files : List FileMetadata := []
deriving DecidableEq, Repr

/-! ## The system -/

/-- A file at the time it is looked at. -/
structure FileAttributes where
  path : Bytes
  size : UInt64
  isDirectory : Bool
deriving DecidableEq, Repr

/-- `FileManager.default` at the time of a call. -/
abbrev FileSystem := List FileAttributes

def attributesOfItem (fs : FileSystem) (path : Bytes) : Option FileAttributes :=
  fs.find? (fun file => file.path = path)

/-- A file URL. -/
structure FileURL where
  path : Bytes
  hasDirectoryPath : Bool
deriving DecidableEq, Repr

/-- The last part of a path that is not empty; of the root, the root. -/
def lastPathComponent (path : Bytes) : Bytes :=
  ((path.splitOn 0x2F).filter (fun part => part ≠ [])).getLast?.getD path

/-- What AppKit makes of pictures, and CommonCrypto of data. -/
structure AppKit where
  /-- `NSImage(data:)` is not nil. -/
  isImage : Bytes → Bool
  /-- `NSImage(data:)?.tiffRepresentation` -/
  tiffRepresentation : Bytes → Option Bytes
  /-- `NSImage(data:)?.pngData()` -/
  pngData : Bytes → Option Bytes
  sha256Hex : Bytes → Bytes

inductive PasteboardType
  | string
  | png
  | tiff
  | other
deriving DecidableEq, Repr

/-- What is on the pasteboard.  `own` says that the helper put it there,
`fileIndex` that an item carries `com.leviathan.clipboard.file-index`. -/
structure Contents where
  own : Bool := false
  fileIndex : Bool := false
  fileURLs : List FileURL := []
  png : Option Bytes := none
  tiff : Option Bytes := none
  string : Option Bytes := none
deriving DecidableEq, Repr

/-- `String(data:encoding: .utf8)` is not nil. -/
def isUtf8 (data : Bytes) : Bool := ByteArray.validateUTF8 ⟨data.toArray⟩

/-! ## State -/

/-- A signal in the semaphore, with what it was sent for. -/
inductive Signal
  | provided (announcement : Announcement)
  | cancelled
deriving DecidableEq, Repr

/-- Why the waiting loop of a download ended. -/
inductive Exit
  | completed
  | superseded
  | cancelled
  | timedOut
deriving DecidableEq, Repr

/-- Where the main thread is. -/
inductive Call
  /-- `announceDelayed`, draining the semaphore. -/
  | announcing (announcement : Announcement)
  /-- `announceDelayedFiles`, draining the semaphore. -/
  | publishing (announcement : Announcement)
  /-- `pasteboardChangedOwner`, draining the semaphore. -/
  | losingOwnership
  /-- `provideDataForType`, waiting for the semaphore, and behind it. -/
  | waiting (announcement : Announcement) (type : PasteboardType)
  | woken (announcement : Announcement) (type : PasteboardType)
  /-- `ensureFilesDownloaded` of the caller that triggered the download, at
  the head of its loop, and behind the loop. -/
  | primary (announcement : Announcement)
  | leaving (announcement : Announcement) (exit : Exit)
  /-- `ensureFilesDownloaded` of a later caller, at the head of its loop. -/
  | secondary (announcement : Announcement)
deriving DecidableEq, Repr

/-- An `ensureFilesDownloaded` that pumps the event loop. -/
structure Pump where
  announcement : Announcement
  first : Bool
deriving DecidableEq, Repr

structure Manager where
  pendingAnnouncement : Option Announcement := none
  renderedData : Option Bytes := none
  renderedTiff : Option Bytes := none
  isRequestInFlight : Bool := false
  lastSetHash : Option Bytes := none
  fileDownloadPaths : Option (List Bytes) := none
  fileDownloadTriggered : Bool := false
  fileDownloadCancelled : Bool := false
  /-- The signals that have not been taken; their number is the semaphore. -/
  renderSemaphore : List Signal := []
  /-- `provideData` has accepted data for this announcement and has yet to
  signal. -/
  signalling : Option Announcement := none
  running : Option Call := none
  /-- Innermost first. -/
  pumps : List Pump := []
  nextSerial : Nat := 0
  contents : Contents := {}
  changeCount : Nat := 0
  lastChangeCount : Nat := 0
  localFileURLs : List (Bytes × FileURL) := []
deriving DecidableEq, Repr

inductive Obs
  | set (contentHash : Bytes)
  | announced (announcement : Announcement)
  | accepted (announcement : Announcement) (contentHash data : Bytes)
  | discarded (contentHash : Bytes)
  | requested (contentHash : Bytes) (contentType : ClipboardContentType)
  /-- `renderSemaphore.wait` succeeded in `provideDataForType`, by this
  signal and with this `renderedData`. -/
  | woke (announcement : Announcement) (signal : Signal) (renderedData : Option Bytes)
  | timedOut (announcement : Announcement)
  /-- Data was written to the pasteboard for a type. -/
  | wrote (announcement : Announcement) (type : PasteboardType) (data : Bytes)
  /-- `ensureFilesDownloaded` returned. -/
  | returned (announcement : Announcement) (paths : Option (List Bytes))
  /-- A poll found a new change count and read this, which stands there from
  the helper or not, and sent `CLIPBOARD_CHANGED` or not. -/
  | polled (own : Bool) (data : ClipboardData) (changed : Bool)
deriving DecidableEq, Repr

/-! ## Delayed rendering -/

/-- The critical section that an announcement and the loss of the pasteboard
share. -/
def resetPending (m : Manager) (pending : Option Announcement) : Manager :=
  { m with
    pendingAnnouncement := pending,
    renderedData := none,
    renderedTiff := none,
    isRequestInFlight := false }

/-- The pasteboard changes hands. -/
def replaceContents (m : Manager) (contents : Contents) : Manager :=
  { m with contents := contents, changeCount := m.changeCount + 1 }

/-- The helper puts something on the pasteboard and notes the change count. -/
def publish (m : Manager) (contents : Contents) : Manager :=
  { replaceContents m contents with lastChangeCount := m.changeCount + 1 }

/-- The types that are declared for an announcement, and those that
`provideDataForType` answers. -/
def allowedTypes (contentType : ClipboardContentType) : List PasteboardType :=
  if contentType = .text then [.string]
  else if contentType = .image then [.png, .tiff]
  else []

/-- `announceDelayed`, up to its drain. -/
def announceDelayed (m : Manager) (announcement : Announcement) : Manager :=
  { resetPending m (some announcement) with
    lastSetHash := some announcement.contentHash,
    running := some (.announcing announcement) }

/-- `announceDelayedFiles`, up to its drain. -/
def announceDelayedFiles (m : Manager) (announcement : Announcement) : Manager :=
  if announcement.files = [] then { m with running := none }
  else
    { resetPending m (some announcement) with
      lastSetHash := some announcement.contentHash,
      fileDownloadPaths := none,
      fileDownloadTriggered := false,
      fileDownloadCancelled := false,
      running := some (.publishing announcement) }

/-- The rest of `announceDelayed` behind its drain. -/
def declareTypes (m : Manager) (announcement : Announcement) : Manager :=
  if announcement.contentType = .files then announceDelayedFiles m announcement
  else if allowedTypes announcement.contentType = [] then { m with running := none }
  else { publish m { own := true } with running := none }

/-- The rest of `announceDelayedFiles` behind its drain. -/
def writeObjects (m : Manager) : Manager :=
  { publish m { own := true, fileIndex := true } with running := none }

def shouldAcceptProvideData (pending : Announcement) (incomingHash : Bytes) : Bool :=
  pending.contentHash = incomingHash

/-- `provideData`, up to its signal. -/
def provideData (kit : AppKit) (m : Manager) (contentHash data : Bytes) : Manager × List Obs :=
  match m.pendingAnnouncement with
  | none => (m, [.discarded contentHash])
  | some pending =>
    if shouldAcceptProvideData pending contentHash then
      ({ m with
          renderedData := some data,
          isRequestInFlight := false,
          renderedTiff :=
            if pending.contentType = .image ∧ data ≠ [] then kit.tiffRepresentation data else none,
          signalling := some pending },
        [.accepted pending contentHash data])
    else (m, [.discarded contentHash])

/-- `writeDataToPasteboard`: the bytes that are written, if any. -/
def writeDataToPasteboard (kit : AppKit) (data : Bytes) (cachedTiff : Option Bytes)
    (type : PasteboardType) (announcement : Announcement) : Option Bytes :=
  if announcement.contentType = .text then
    if isUtf8 data then some data else none
  else if announcement.contentType = .image ∧ type = .tiff then
    match cachedTiff with
    | some cached => some cached
    | none => some ((kit.tiffRepresentation data).getD data)
  else some data

/-- The observation of a write. -/
def writes (kit : AppKit) (m : Manager) (data : Bytes) (type : PasteboardType)
    (announcement : Announcement) : List Obs :=
  (writeDataToPasteboard kit data m.renderedTiff type announcement).toList.map
    (fun written => .wrote announcement type written)

/-- `provideDataForType`, up to its wait. -/
def provideDataForType (kit : AppKit) (m : Manager) (type : PasteboardType) : Manager × List Obs :=
  match m.pendingAnnouncement with
  | none => (m, [])
  | some announcement =>
    if type ∉ allowedTypes announcement.contentType then (m, [])
    else
      match m.renderedData with
      | some cachedData => (m, writes kit m cachedData type announcement)
      | none =>
        ({ m with isRequestInFlight := true, running := some (.waiting announcement type) },
          if m.isRequestInFlight then []
          else [.requested announcement.contentHash announcement.contentType])

/-- `provideDataForType` behind its wait. -/
def provideRendered (kit : AppKit) (m : Manager) (announcement : Announcement)
    (type : PasteboardType) : Manager × List Obs :=
  ({ m with running := none },
    match m.renderedData with
    | some data => writes kit m data type announcement
    | none => [])

/-- `pasteboardChangedOwner`, up to its drain. -/
def pasteboardChangedOwner (m : Manager) : Manager :=
  { resetPending m none with running := some .losingOwnership }

/-! ## File downloads -/

/-- `isStillCurrent`: the hashes agree. -/
def isStillCurrent (m : Manager) (announcement : Announcement) : Bool :=
  m.pendingAnnouncement.map Announcement.contentHash = some announcement.contentHash

/-- The paths in the text of a `PROVIDE_DATA`. -/
def decodePaths (data : Bytes) : Option (List Bytes) :=
  if isUtf8 data then some ((data.splitOn 0x0A).filter (fun path => path ≠ [])) else none

/-- `ensureFilesDownloaded`, up to its loop. -/
def ensureFilesDownloaded (m : Manager) (announcement : Announcement) : Manager × List Obs :=
  match m.fileDownloadPaths with
  | some paths => (m, [.returned announcement (some paths)])
  | none =>
    if m.fileDownloadTriggered then
      ({ m with running := some (.secondary announcement) }, [])
    else
      ({ m with fileDownloadTriggered := true, running := some (.primary announcement) },
        [.requested announcement.contentHash .files])

/-- The callback for `.fileURL` of an item. -/
def provideFileURL (m : Manager) : Manager × List Obs :=
  match m.pendingAnnouncement with
  | none => (m, [])
  | some announcement =>
    if announcement.contentType = .files then ensureFilesDownloaded m announcement else (m, [])

/-- A turn of the loop of the first caller when no signal is there. -/
def pollPrimary (m : Manager) (announcement : Announcement) : Manager :=
  if isStillCurrent m announcement then
    { m with running := none, pumps := ⟨announcement, true⟩ :: m.pumps }
  else { m with running := some (.leaving announcement .superseded) }

/-- A signal has been taken: it may have been the one of a cancellation. -/
def exitOfSignal (m : Manager) : Exit :=
  if m.fileDownloadCancelled then .cancelled else .completed

/-- What the first caller stores behind its loop. -/
def pathsAfter (m : Manager) (announcement : Announcement) (exit : Exit) : Option (List Bytes) :=
  if exit = .completed ∧ isStillCurrent m announcement then
    match m.renderedData.bind decodePaths with
    | some paths => some paths
    | none => m.fileDownloadPaths
  else m.fileDownloadPaths

/-- `ensureFilesDownloaded` of the first caller, behind its loop: whatever the
reason was, it returns what is stored. -/
def finishDownload (m : Manager) (announcement : Announcement) (exit : Exit) : Manager × List Obs :=
  let paths := pathsAfter m announcement exit
  ({ m with fileDownloadPaths := paths, running := none }, [.returned announcement paths])

/-- A turn of the loop of a later caller. -/
def pollSecondary (m : Manager) (announcement : Announcement) : Manager × List Obs :=
  match m.fileDownloadPaths with
  | some paths => ({ m with running := none }, [.returned announcement (some paths)])
  | none =>
    if m.fileDownloadCancelled ∨ isStillCurrent m announcement = false then
      ({ m with running := none }, [.returned announcement none])
    else ({ m with running := none, pumps := ⟨announcement, false⟩ :: m.pumps }, [])

/-- A pump returns to the head of its loop. -/
def Pump.resume (p : Pump) : Call :=
  if p.first then .primary p.announcement else .secondary p.announcement

theorem Pump.resume_ne_announcing (p : Pump) (a : Announcement) :
    some p.resume ≠ some (.announcing a) := by
  unfold Pump.resume
  split
  · simp
  · simp

theorem Pump.resume_ne_waiting (p : Pump) (a : Announcement) (type : PasteboardType) :
    some p.resume ≠ some (.waiting a type) := by
  unfold Pump.resume
  split
  · simp
  · simp

/-- `cancelFileDownload` -/
def cancelFileDownload (m : Manager) : Manager :=
  { m with
    fileDownloadCancelled := true,
    renderSemaphore := m.renderSemaphore ++ [.cancelled] }

/-! ## Setting and polling -/

/-- The URL that `setClipboard` writes for a file: of a file that exists. -/
def fileToWrite (fs : FileSystem) (file : FileMetadata) : Option FileURL :=
  let path := if file.relativePath ≠ [] then file.relativePath else file.filename
  if path = [] then none
  else (attributesOfItem fs path).map (fun attributes => ⟨path, attributes.isDirectory⟩)

/-- What `setClipboard` puts on the pasteboard. -/
def contentsToSet (kit : AppKit) (fs : FileSystem) (data : ClipboardData) : Contents :=
  if data.contentType = .text then
    { own := true, string := if isUtf8 data.payload then some data.payload else none }
  else if data.contentType = .image then
    if kit.isImage data.payload then { own := true, tiff := kit.tiffRepresentation data.payload }
    else { own := true, png := some data.payload }
  else if data.contentType = .files then
    { own := true, fileURLs := data.files.filterMap (fileToWrite fs) }
  else { own := true }

def setClipboard (kit : AppKit) (fs : FileSystem) (m : Manager) (data : ClipboardData) : Manager :=
  { publish m (contentsToSet kit fs data) with lastSetHash := some data.contentHash }

/-- The metadata of the file with index `i`. -/
def metadataOf (fs : FileSystem) (url : FileURL) (i : Nat) : FileMetadata where
  fileID := decimal i
  filename := lastPathComponent url.path
  relativePath := url.path
  fileSize := ((attributesOfItem fs url.path).map FileAttributes.size).getD 0
  isDirectory := url.hasDirectoryPath

/-- `clipboardDataFromFileURLs`: the hash is that of the paths, one a line. -/
def clipboardDataFromFileURLs (kit : AppKit) (fs : FileSystem) (urls : List FileURL) :
    ClipboardData × List (Bytes × FileURL) :=
  ({ contentType := .files,
      contentHash := kit.sha256Hex ([0x0A].intercalate (urls.map FileURL.path)),
      files := urls.mapIdx (fun i url => metadataOf fs url i) },
    urls.mapIdx (fun i url => (decimal i, url)))

/-- Content with a payload is known by the hash of the payload. -/
def payloadData (kit : AppKit) (contentType : ClipboardContentType) (payload : Bytes) :
    ClipboardData where
  contentType := contentType
  contentHash := kit.sha256Hex payload
  payload := payload

/-- `readPasteboard`: files before pictures before text, and nothing of the
helper's own delayed files. -/
def readPasteboard (kit : AppKit) (fs : FileSystem) (contents : Contents) : ClipboardData :=
  if contents.fileIndex then {}
  else if contents.fileURLs ≠ [] then (clipboardDataFromFileURLs kit fs contents.fileURLs).1
  else
    match contents.png, contents.tiff.bind kit.pngData, contents.string with
    | some imageData, _, _ => payloadData kit .image imageData
    | none, some pngData, _ => payloadData kit .image pngData
    | none, none, some text => if text ≠ [] then payloadData kit .text text else {}
    | none, none, none => {}

/-- The files that can be served after a read. -/
def localFilesAfter (kit : AppKit) (fs : FileSystem) (m : Manager) : List (Bytes × FileURL) :=
  if m.contents.fileIndex = false ∧ m.contents.fileURLs ≠ [] then
    (clipboardDataFromFileURLs kit fs m.contents.fileURLs).2
  else m.localFileURLs

/-- Whether `checkForChanges` reports what it has read. -/
def isReported (m : Manager) (data : ClipboardData) : Bool :=
  m.lastSetHash ≠ some data.contentHash ∧ data.contentType ≠ .unspecified

def checkForChanges (kit : AppKit) (fs : FileSystem) (m : Manager) : Manager × List Obs :=
  if m.changeCount = m.lastChangeCount then (m, [])
  else
    let data := readPasteboard kit fs m.contents
    ({ m with
        lastChangeCount := m.changeCount,
        localFileURLs := localFilesAfter kit fs m },
      [.polled m.contents.own data (isReported m data)])

/-! ## The machine -/

inductive Action
  /-- Socket queue: `provideData` under the lock, and its signal. -/
  | provideData (contentHash data : Bytes)
  | signal
  /-- Events of the main thread. -/
  | setClipboard (data : ClipboardData) (fs : FileSystem)
  | announceDelayed (contentHash : Bytes) (contentType : ClipboardContentType)
      (files : List FileMetadata)
  | pasteboardChangedOwner
  | provideDataForType (type : PasteboardType)
  | provideFileURL
  | cancelFileDownload
  | poll (fs : FileSystem)
  /-- The running call goes on: a `wait(timeout: .now())` of a drain; a
  successful wait, by the signal with this index, and what comes behind it; a
  turn of a loop, with the index of the signal it takes if there is one. -/
  | drain
  | acquire (index : Nat)
  | render
  | turn (index : Nat)
  | finish
  /-- Its deadline has passed. -/
  | expire
  /-- The innermost pump is over. -/
  | pumped
  /-- Another application takes the pasteboard. -/
  | copy (contents : Contents)
deriving DecidableEq, Repr

/-- An event of the main thread is handled when nothing is running. -/
def event (m : Manager) (r : Manager × List Obs) : Option (Manager × List Obs) :=
  if m.running = none then some r else none

/-- One `wait(timeout: .now())` of a drain. -/
def drain (m : Manager) : Option (Manager × List Obs) :=
  match m.running, m.renderSemaphore with
  | some (.announcing _), _ :: rest
  | some (.publishing _), _ :: rest
  | some .losingOwnership, _ :: rest => some ({ m with renderSemaphore := rest }, [])
  | some (.announcing announcement), [] => some (declareTypes m announcement, [])
  | some (.publishing _), [] => some (writeObjects m, [])
  | some .losingOwnership, [] => some ({ m with running := none }, [])
  | _, _ => none

/-- The semaphore without one of its signals. -/
def takeSignal (m : Manager) (index : Nat) : Manager :=
  { m with renderSemaphore := m.renderSemaphore.eraseIdx index }

/-- `renderSemaphore.wait` succeeds in `provideDataForType`. -/
def acquire (m : Manager) (index : Nat) : Option (Manager × List Obs) :=
  match m.running, m.renderSemaphore[index]? with
  | some (.waiting announcement type), some signal =>
    some ({ takeSignal m index with running := some (.woken announcement type) },
      [.woke announcement signal m.renderedData])
  | _, _ => none

/-- A turn of a loop of `ensureFilesDownloaded`. -/
def turn (m : Manager) (index : Nat) : Option (Manager × List Obs) :=
  match m.running with
  | some (.primary announcement) =>
    if m.fileDownloadCancelled then
      some ({ m with running := some (.leaving announcement .cancelled) }, [])
    else if m.renderSemaphore = [] then some (pollPrimary m announcement, [])
    else if index < m.renderSemaphore.length then
      some ({ takeSignal m index with
          running := some (.leaving announcement (exitOfSignal m)) }, [])
    else none
  | some (.secondary announcement) => some (pollSecondary m announcement)
  | _ => none

/-- A deadline has passed. -/
def expire (m : Manager) : Option (Manager × List Obs) :=
  match m.running with
  | some (.waiting announcement _) => some ({ m with running := none }, [.timedOut announcement])
  | some (.primary announcement) =>
    some ({ m with running := some (.leaving announcement .timedOut) }, [])
  | some (.secondary announcement) =>
    some ({ m with running := none }, [.returned announcement none])
  | _ => none

/-- **The manager.** -/
def machine (kit : AppKit) : Machine Manager Action Obs where
  step m
    | .provideData contentHash data =>
      if m.signalling = none then some (provideData kit m contentHash data) else none
    | .signal =>
      match m.signalling with
      | some announcement =>
        some ({ m with
            signalling := none,
            renderSemaphore := m.renderSemaphore ++ [.provided announcement] }, [])
      | none => none
    | .setClipboard data fs => event m (setClipboard kit fs m data, [.set data.contentHash])
    | .announceDelayed contentHash contentType files =>
      let announcement := ⟨m.nextSerial, contentHash, contentType, files⟩
      event m (announceDelayed { m with nextSerial := m.nextSerial + 1 } announcement,
        [.announced announcement])
    | .pasteboardChangedOwner => event m (pasteboardChangedOwner m, [])
    | .provideDataForType type => event m (provideDataForType kit m type)
    | .provideFileURL => event m (provideFileURL m)
    | .cancelFileDownload => event m (cancelFileDownload m, [])
    | .poll fs => event m (checkForChanges kit fs m)
    | .drain => drain m
    | .acquire index => acquire m index
    | .render =>
      match m.running with
      | some (.woken announcement type) => some (provideRendered kit m announcement type)
      | _ => none
    | .turn index => turn m index
    | .finish =>
      match m.running with
      | some (.leaving announcement exit) => some (finishDownload m announcement exit)
      | _ => none
    | .expire => expire m
    | .pumped =>
      match m.running, m.pumps with
      | none, p :: pumps => some ({ m with running := some p.resume, pumps := pumps }, [])
      | _, _ => none
    | .copy contents => some (replaceContents m { contents with own := false }, [])

/-- The main thread is draining the semaphore. -/
def Manager.isDraining (m : Manager) : Bool :=
  match m.running with
  | some (.announcing _) | some (.publishing _) | some .losingOwnership => true
  | _ => false

/-- **What can happen**: the steps of the machine, one rule for each way that
a call can go on. -/
inductive Step (kit : AppKit) (m : Manager) : Action → Manager → List Obs → Prop
  | discarded (contentHash data : Bytes) :
      Step kit m (.provideData contentHash data) m [.discarded contentHash]
  | accepted {b : Announcement} (data : Bytes) (tiff : Option Bytes)
      (idle : m.signalling = none) (pending : m.pendingAnnouncement = some b) :
      Step kit m (.provideData b.contentHash data)
        { m with
          renderedData := some data,
          isRequestInFlight := false,
          renderedTiff := tiff,
          signalling := some b }
        [.accepted b b.contentHash data]
  | signalled {a : Announcement} (signalling : m.signalling = some a) :
      Step kit m .signal
        { m with
          signalling := none,
          renderSemaphore := m.renderSemaphore ++ [.provided a] } []
  | set (data : ClipboardData) (fs : FileSystem) (idle : m.running = none) :
      Step kit m (.setClipboard data fs)
        { m with
          contents := contentsToSet kit fs data,
          changeCount := m.changeCount + 1,
          lastChangeCount := m.changeCount + 1,
          lastSetHash := some data.contentHash }
        [.set data.contentHash]
  | announced (contentHash : Bytes) (contentType : ClipboardContentType)
      (files : List FileMetadata) (idle : m.running = none) :
      Step kit m (.announceDelayed contentHash contentType files)
        (announceDelayed { m with nextSerial := m.nextSerial + 1 }
          ⟨m.nextSerial, contentHash, contentType, files⟩)
        [.announced ⟨m.nextSerial, contentHash, contentType, files⟩]
  | lost (idle : m.running = none) :
      Step kit m .pasteboardChangedOwner (pasteboardChangedOwner m) []
  /-- A paste for which there is nothing to do, and one that is answered from
  the cache. -/
  | ignored (type : PasteboardType) (idle : m.running = none) :
      Step kit m (.provideDataForType type) m []
  | answered {b : Announcement} {data : Bytes} (type : PasteboardType) (idle : m.running = none)
      (pending : m.pendingAnnouncement = some b) (stored : m.renderedData = some data) :
      Step kit m (.provideDataForType type) m (writes kit m data type b)
  | asked {b : Announcement} {type : PasteboardType} (idle : m.running = none)
      (pending : m.pendingAnnouncement = some b) (allowed : type ∈ allowedTypes b.contentType)
      (missing : m.renderedData = none) :
      Step kit m (.provideDataForType type)
        { m with isRequestInFlight := true, running := some (.waiting b type) }
        (if m.isRequestInFlight then [] else [.requested b.contentHash b.contentType])
  | unavailable (idle : m.running = none) : Step kit m .provideFileURL m []
  | downloaded {b : Announcement} {paths : List Bytes} (idle : m.running = none)
      (pending : m.pendingAnnouncement = some b) (type : b.contentType = .files)
      (stored : m.fileDownloadPaths = some paths) :
      Step kit m .provideFileURL m [.returned b (some paths)]
  | triggered {b : Announcement} (idle : m.running = none)
      (pending : m.pendingAnnouncement = some b) (type : b.contentType = .files)
      (missing : m.fileDownloadPaths = none) (first : m.fileDownloadTriggered = false) :
      Step kit m .provideFileURL
        { m with fileDownloadTriggered := true, running := some (.primary b) }
        [.requested b.contentHash .files]
  | joined {b : Announcement} (idle : m.running = none)
      (pending : m.pendingAnnouncement = some b) (type : b.contentType = .files)
      (missing : m.fileDownloadPaths = none) (later : m.fileDownloadTriggered = true) :
      Step kit m .provideFileURL { m with running := some (.secondary b) } []
  | cancelled (idle : m.running = none) :
      Step kit m .cancelFileDownload (cancelFileDownload m) []
  | unchanged (fs : FileSystem) (idle : m.running = none)
      (same : m.changeCount = m.lastChangeCount) : Step kit m (.poll fs) m []
  | changed (fs : FileSystem) (idle : m.running = none)
      (differs : m.changeCount ≠ m.lastChangeCount) :
      Step kit m (.poll fs)
        { m with
          lastChangeCount := m.changeCount,
          localFileURLs := localFilesAfter kit fs m }
        [.polled m.contents.own (readPasteboard kit fs m.contents)
          (isReported m (readPasteboard kit fs m.contents))]
  | drained {s : Signal} {rest : List Signal} (draining : m.isDraining = true)
      (semaphore : m.renderSemaphore = s :: rest) :
      Step kit m .drain { m with renderSemaphore := rest } []
  /-- The ends of the drains: of an announcement of files, of no files, of
  what has no type to declare, and of what has one. -/
  | announcedFiles {a : Announcement} (running : m.running = some (.announcing a))
      (semaphore : m.renderSemaphore = []) (type : a.contentType = .files)
      (files : a.files ≠ []) :
      Step kit m .drain
        { resetPending m (some a) with
          lastSetHash := some a.contentHash,
          fileDownloadPaths := none,
          fileDownloadTriggered := false,
          fileDownloadCancelled := false,
          running := some (.publishing a) } []
  | announcedNoFiles {a : Announcement} (running : m.running = some (.announcing a))
      (semaphore : m.renderSemaphore = []) (type : a.contentType = .files)
      (files : a.files = []) :
      Step kit m .drain { m with running := none } []
  | undeclared {a : Announcement} (running : m.running = some (.announcing a))
      (semaphore : m.renderSemaphore = []) (type : a.contentType ≠ .files) :
      Step kit m .drain { m with running := none } []
  | declared {a : Announcement} (running : m.running = some (.announcing a))
      (semaphore : m.renderSemaphore = []) (type : a.contentType ≠ .files) :
      Step kit m .drain { publish m { own := true } with running := none } []
  | published {a : Announcement} (running : m.running = some (.publishing a))
      (semaphore : m.renderSemaphore = []) : Step kit m .drain (writeObjects m) []
  | forgotten (running : m.running = some .losingOwnership)
      (semaphore : m.renderSemaphore = []) : Step kit m .drain { m with running := none } []
  | woke {a : Announcement} {type : PasteboardType} {s : Signal} {index : Nat}
      (running : m.running = some (.waiting a type))
      (signal : m.renderSemaphore[index]? = some s) :
      Step kit m (.acquire index)
        { takeSignal m index with running := some (.woken a type) }
        [.woke a s m.renderedData]
  | rendered {a : Announcement} {type : PasteboardType} (os : List Obs)
      (running : m.running = some (.woken a type))
      (obs : os = [] ∨ ∃ data, m.renderedData = some data ∧ os = writes kit m data type a) :
      Step kit m .render { m with running := none } os
  /-- The turns of the loop of the first caller. -/
  | left {a : Announcement} {index : Nat} (exit : Exit) (running : m.running = some (.primary a))
      (failed : exit ≠ .completed) :
      Step kit m (.turn index) { m with running := some (.leaving a exit) } []
  | pumping {a : Announcement} {index : Nat} (running : m.running = some (.primary a))
      (current : isStillCurrent m a = true) :
      Step kit m (.turn index)
        { m with running := none, pumps := ⟨a, true⟩ :: m.pumps } []
  | took {a : Announcement} {index : Nat} (running : m.running = some (.primary a))
      (signal : index < m.renderSemaphore.length) :
      Step kit m (.turn index)
        { takeSignal m index with running := some (.leaving a .completed) } []
  | finished {a : Announcement} {exit : Exit} (running : m.running = some (.leaving a exit)) :
      Step kit m .finish
        { m with fileDownloadPaths := pathsAfter m a exit, running := none }
        [.returned a (pathsAfter m a exit)]
  /-- The turns of the loop of a later caller. -/
  | found {a : Announcement} {paths : List Bytes} {index : Nat}
      (running : m.running = some (.secondary a)) (stored : m.fileDownloadPaths = some paths) :
      Step kit m (.turn index) { m with running := none } [.returned a (some paths)]
  | gaveUp {a : Announcement} {index : Nat} (running : m.running = some (.secondary a)) :
      Step kit m (.turn index) { m with running := none } [.returned a none]
  | waitingOn {a : Announcement} {index : Nat} (running : m.running = some (.secondary a))
      (missing : m.fileDownloadPaths = none) (current : isStillCurrent m a = true) :
      Step kit m (.turn index)
        { m with running := none, pumps := ⟨a, false⟩ :: m.pumps } []
  /-- The deadlines. -/
  | renderTimedOut {a : Announcement} {type : PasteboardType}
      (running : m.running = some (.waiting a type)) :
      Step kit m .expire { m with running := none } [.timedOut a]
  | primaryTimedOut {a : Announcement} (running : m.running = some (.primary a)) :
      Step kit m .expire { m with running := some (.leaving a .timedOut) } []
  | secondaryTimedOut {a : Announcement} (running : m.running = some (.secondary a)) :
      Step kit m .expire { m with running := none } [.returned a none]
  | pumped {p : Pump} {pumps : List Pump} (idle : m.running = none) (top : m.pumps = p :: pumps) :
      Step kit m .pumped { m with running := some p.resume, pumps := pumps } []
  | copied (contents : Contents) :
      Step kit m (.copy contents) (replaceContents m { contents with own := false }) []

/-! ### Every step is one of these -/

theorem event_some {m m' : Manager} {r : Manager × List Obs} {os : List Obs}
    (h : event m r = some (m', os)) : m.running = none ∧ r = (m', os) := by
  unfold event at h
  split at h
  · rename_i hidle
    exact ⟨hidle, Option.some.inj h⟩
  · cases h

theorem provideData_step (kit : AppKit) {m : Manager} (contentHash data : Bytes)
    (hidle : m.signalling = none) :
    Step kit m (.provideData contentHash data) (provideData kit m contentHash data).1
      (provideData kit m contentHash data).2 := by
  unfold provideData
  split
  · exact .discarded contentHash data
  · rename_i b hpending
    split
    · rename_i haccept
      have hhash : b.contentHash = contentHash := by simpa [shouldAcceptProvideData] using haccept
      subst hhash
      exact .accepted data _ hidle hpending
    · exact .discarded contentHash data

theorem provideDataForType_step (kit : AppKit) {m : Manager} (type : PasteboardType)
    (hidle : m.running = none) :
    Step kit m (.provideDataForType type) (provideDataForType kit m type).1
      (provideDataForType kit m type).2 := by
  unfold provideDataForType
  split
  · exact .ignored type hidle
  · rename_i b hpending
    split
    · exact .ignored type hidle
    · rename_i hallowed
      split
      · rename_i data hdata
        exact .answered type hidle hpending hdata
      · rename_i hdata
        exact .asked hidle hpending (not_not.mp hallowed) hdata

theorem provideFileURL_step (kit : AppKit) {m : Manager} (hidle : m.running = none) :
    Step kit m .provideFileURL (provideFileURL m).1 (provideFileURL m).2 := by
  unfold provideFileURL
  split
  · exact .unavailable hidle
  · rename_i b hpending
    split
    · rename_i htype
      unfold ensureFilesDownloaded
      split
      · rename_i paths hpaths
        exact .downloaded hidle hpending htype hpaths
      · rename_i hpaths
        split
        · rename_i htriggered
          exact .joined hidle hpending htype hpaths htriggered
        · rename_i htriggered
          exact .triggered hidle hpending htype hpaths (by simpa using htriggered)
    · exact .unavailable hidle

theorem declareTypes_step {kit : AppKit} {m : Manager} {a : Announcement}
    (hrunning : m.running = some (.announcing a)) (hempty : m.renderSemaphore = []) :
    Step kit m .drain (declareTypes m a) [] := by
  unfold declareTypes
  split
  · rename_i htype
    unfold announceDelayedFiles
    split
    · rename_i hfiles
      exact .announcedNoFiles hrunning hempty htype hfiles
    · rename_i hfiles
      exact .announcedFiles hrunning hempty htype hfiles
  · rename_i htype
    split
    · exact .undeclared hrunning hempty htype
    · exact .declared hrunning hempty htype

theorem drain_step {kit : AppKit} {m m' : Manager} {os : List Obs} (h : drain m = some (m', os)) :
    Step kit m .drain m' os := by
  unfold drain at h
  -- each of the three drains takes a signal or ends
  split at h
  · rename_i hrunning hsemaphore
    cases h
    exact .drained (by simp [Manager.isDraining, hrunning]) hsemaphore
  · rename_i hrunning hsemaphore
    cases h
    exact .drained (by simp [Manager.isDraining, hrunning]) hsemaphore
  · rename_i hrunning hsemaphore
    cases h
    exact .drained (by simp [Manager.isDraining, hrunning]) hsemaphore
  · rename_i hrunning hsemaphore
    cases h
    exact declareTypes_step hrunning hsemaphore
  · rename_i hrunning hsemaphore
    cases h
    exact .published hrunning hsemaphore
  · rename_i hrunning hsemaphore
    cases h
    exact .forgotten hrunning hsemaphore
  · cases h

theorem turn_step {kit : AppKit} {m m' : Manager} {os : List Obs} {index : Nat}
    (h : turn m index = some (m', os)) : Step kit m (.turn index) m' os := by
  unfold turn at h
  split at h
  · rename_i a hrunning
    split at h
    · cases h
      exact .left .cancelled hrunning (by decide)
    · rename_i hcancelled
      split at h
      · cases h
        unfold pollPrimary
        split
        · rename_i hcurrent
          exact .pumping hrunning hcurrent
        · exact .left .superseded hrunning (by decide)
      · split at h
        · rename_i hindex
          cases h
          have hexit : exitOfSignal m = .completed := by simp [exitOfSignal, hcancelled]
          rw [hexit]
          exact .took hrunning hindex
        · cases h
  · rename_i a hrunning
    unfold pollSecondary at h
    split at h
    · rename_i paths hpaths
      cases h
      exact .found hrunning hpaths
    · rename_i hpaths
      split at h
      · cases h
        exact .gaveUp hrunning
      · rename_i hwaits
        cases h
        have hcurrent : isStillCurrent m a = true := by
          by_contra hnot
          exact hwaits (Or.inr (by simpa using hnot))
        exact .waitingOn hrunning hpaths hcurrent
  · cases h

theorem expire_step {kit : AppKit} {m m' : Manager} {os : List Obs} (h : expire m = some (m', os)) :
    Step kit m .expire m' os := by
  unfold expire at h
  split at h
  · rename_i hrunning
    cases h
    exact .renderTimedOut hrunning
  · rename_i hrunning
    cases h
    exact .primaryTimedOut hrunning
  · rename_i hrunning
    cases h
    exact .secondaryTimedOut hrunning
  · cases h

theorem acquire_step {kit : AppKit} {m m' : Manager} {os : List Obs} {index : Nat}
    (h : acquire m index = some (m', os)) : Step kit m (.acquire index) m' os := by
  unfold acquire at h
  split at h
  · rename_i hrunning hsignal
    cases h
    exact .woke hrunning hsignal
  · cases h

theorem checkForChanges_step (kit : AppKit) (fs : FileSystem) {m : Manager}
    (hidle : m.running = none) :
    Step kit m (.poll fs) (checkForChanges kit fs m).1 (checkForChanges kit fs m).2 := by
  unfold checkForChanges
  split
  · rename_i hsame
    exact .unchanged fs hidle hsame
  · rename_i hdiffers
    exact .changed fs hidle hdiffers

/-- **Inversion of a step.** -/
theorem step_cases {kit : AppKit} {m m' : Manager} {act : Action} {os : List Obs}
    (h : (machine kit).step m act = some (m', os)) : Step kit m act m' os := by
  cases act with
  | provideData contentHash data =>
      simp only [machine] at h
      split at h
      · rename_i hidle
        have hstep := provideData_step kit contentHash data hidle
        rwa [Option.some.inj h] at hstep
      · cases h
  | signal =>
      simp only [machine] at h
      split at h
      · rename_i a hsignalling
        cases h
        exact .signalled hsignalling
      · cases h
  | setClipboard data fs =>
      obtain ⟨hidle, hr⟩ := event_some h
      cases hr
      exact .set data fs hidle
  | announceDelayed contentHash contentType files =>
      obtain ⟨hidle, hr⟩ := event_some h
      cases hr
      exact .announced contentHash contentType files hidle
  | pasteboardChangedOwner =>
      obtain ⟨hidle, hr⟩ := event_some h
      cases hr
      exact .lost hidle
  | provideDataForType type =>
      obtain ⟨hidle, hr⟩ := event_some h
      have hstep := provideDataForType_step kit type hidle
      rwa [hr] at hstep
  | provideFileURL =>
      obtain ⟨hidle, hr⟩ := event_some h
      have hstep := provideFileURL_step kit hidle
      rwa [hr] at hstep
  | cancelFileDownload =>
      obtain ⟨hidle, hr⟩ := event_some h
      cases hr
      exact .cancelled hidle
  | poll fs =>
      obtain ⟨hidle, hr⟩ := event_some h
      have hstep := checkForChanges_step kit fs hidle
      rwa [hr] at hstep
  | drain => exact drain_step h
  | acquire index => exact acquire_step h
  | render =>
      simp only [machine] at h
      split at h
      · rename_i a type hrunning
        cases h
        refine .rendered _ hrunning ?_
        cases hdata : m.renderedData with
        | none => exact Or.inl rfl
        | some data => exact Or.inr ⟨data, rfl, rfl⟩
      · cases h
  | turn index => exact turn_step h
  | finish =>
      simp only [machine] at h
      split at h
      · rename_i a exit hrunning
        cases h
        exact .finished hrunning
      · cases h
  | expire => exact expire_step h
  | pumped =>
      simp only [machine] at h
      split at h
      · rename_i p pumps hidle htop
        cases h
        exact .pumped hidle htop
      · cases h
  | copy contents =>
      cases h
      exact .copied contents

end MacPasteboard
