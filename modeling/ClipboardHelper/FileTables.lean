import ClipboardHelper.ChunkServing

/-!
# The file tables and what the parent was told

The Windows dispatcher remembers where the files of the clipboard are and
tells the parent about them.  Two threads do both: the pipe thread when it
handles `GET_CLIPBOARD`, the STA thread in `OnClipboardChanged`.  Each reads
the clipboard (the pipe thread through a work item on the STA thread),
updates the tables under `file_paths_mu_`, and hands a frame to the pipe; no
lock covers the three.  A `FILE_CHUNK_REQUEST` looks its file up in the
tables and pins the data object of a virtual file around its work item;
`ReleaseStaBoundResources` takes the object away at shutdown.

Here these are one machine, with every critical section, work item and
enqueued frame an action of its own, and with what the clipboard holds as an
argument of the read.  `readClipboard` follows `ReadClipboard` and
`ReadVirtualFiles` down to the bounds of the file group descriptor.

**`tables_match_last_frame`**: whenever neither operation is in progress, the
tables resolve the `file_id`s as the last Files frame lists them, in every
run in which no Files frame is refused and none is enqueued after the other
thread has updated the tables and enqueued its own.  `stale_reply_after_change`
is a run in which the latter happens: the parent is told of the files of an
older snapshot and is served those of a newer one.
-/

namespace FileTables

open Library DispatchCodec ChunkServing

/-! ## Reading the clipboard -/

/-- A `FILEDESCRIPTORW`, as far as it is read: the name, and the size if
`FD_FILESIZE` is set. -/
structure FileDescriptor where
  name : WideString
  fileSize : Option UInt64 := none
deriving DecidableEq, Repr

/-- The `FILEGROUPDESCRIPTORW` of another application. -/
structure FileGroupDescriptor where
  cItems : UInt32
  blobSize : Nat
  fgd : Nat → FileDescriptor

/-- What OLE says during one `ReadVirtualFiles`: whether the system holds the
clipboard for a nested render, the object of `OleGetClipboard`, and the
descriptor that it hands out and that can be locked. -/
structure OleClipboard where
  heldByThisThread : Bool := false
  object : DataObject := 0
  descriptor : Option FileGroupDescriptor := none

/-- What there is on the clipboard besides files. -/
inductive OtherContent
  | nothing
  | text (wide : WideString)
  | image (png : Bytes)
deriving DecidableEq, Repr

/-- What the system says during one `ReadClipboard`: whether the clipboard
opens, the paths that can be read from `CF_HDROP`, what there is of a file
group descriptor, and the rest. -/
structure Clipboard where
  opens : Bool := true
  hdropPaths : List WideString := []
  descriptorAvailable : Bool := false
  ole : OleClipboard := {}
  other : OtherContent := .nothing

inductive Obs
  /-- The clipboard was read. -/
  | read (clipboard : Clipboard)
  /-- `OleGetClipboard` returned a reference. -/
  | obtained (object : DataObject)
  | pinned (object : DataObject)
  | released (object : DataObject)
  /-- `ReadVirtualFileChunk` is called. -/
  | chunkRead (object : DataObject)
  /-- A pinned request is dropped with the queue of the STA thread. -/
  | abandoned (object : DataObject)
  | enqueued (snap : Snapshot)

def kMaxInboundVirtualFiles : Nat := 100000
def sizeofFileGroupDescriptor : Nat := 596
def sizeofFileDescriptor : Nat := 592

/-- The descriptor holds the entries that it claims, and not too many. -/
def FileGroupDescriptor.sound (d : FileGroupDescriptor) : Bool :=
  d.cItems.toNat ≤ kMaxInboundVirtualFiles &&
    (d.cItems == 0 ||
      sizeofFileGroupDescriptor + (d.cItems.toNat - 1) * sizeofFileDescriptor ≤ d.blobSize)

def FileGroupDescriptor.entry (d : FileGroupDescriptor) (i : Nat) : VirtualFileEntry where
  name := (d.fgd i).name
  size := (d.fgd i).fileSize.getD 0
  lindex := UInt32.ofNat i

/-- `ReadVirtualFiles`: the snapshot, and what was done with references. -/
def readVirtualFiles (ole : OleClipboard) : List Obs × Option Snapshot :=
  if ole.heldByThisThread then ([], none)
  else if ole.object = 0 then ([], none)
  else
    match ole.descriptor with
    | none => ([.obtained ole.object, .released ole.object], none)
    | some d =>
      if d.sound then
        ([.obtained ole.object], some {
          contentType := .files
          virtualFiles := (List.range d.cItems.toNat).map d.entry
          virtualDataObject := ole.object })
      else ([.obtained ole.object, .released ole.object], none)

/-- Text and images, which `ReadClipboard` looks for last. -/
def OtherContent.snapshot : OtherContent → Option Snapshot
  | .nothing => none
  | .text wide => some { contentType := .text, text := wide }
  | .image png => some { contentType := .image, imagePng := png }

/-- `ReadClipboard`: physical files first, then virtual files, then the
rest. -/
def readClipboard (c : Clipboard) : List Obs × Option Snapshot :=
  if c.opens then
    if c.hdropPaths ≠ [] then
      ([], some { contentType := .files, filePaths := c.hdropPaths })
    else if c.descriptorAvailable then
      match readVirtualFiles c.ole with
      | (os, some snap) => (os, some snap)
      | (os, none) => (os, c.other.snapshot)
    else ([], c.other.snapshot)
  else ([], none)

/-! ## State -/

/-- The pipe thread: inside `GET_CLIPBOARD` (waiting for the read, holding
its snapshot, or about to enqueue the reply), or inside a chunk request for a
virtual file; `queued` is whether the work item has been pushed. -/
inductive PipeThread
  | idle
  | reading (queued : Bool)
  | got (snap : Snapshot)
  | updated (snap : Snapshot)
  | pinned (object : DataObject) (queued : Bool)
  | unpinning (object : DataObject)
deriving DecidableEq, Repr

/-- The STA thread: between calls, inside `OnClipboardChanged`, or gone. -/
inductive StaThread
  | free
  | got (snap : Snapshot)
  | updated (snap : Snapshot)
  | gone
deriving DecidableEq, Repr

/-- The shutdown thread inside `ReleaseStaBoundResources`; `broken` is after
`broken_promise`. -/
inductive ShutdownThread
  | idle
  | calling (object : DataObject)
  | queued (object : DataObject)
  | broken (object : DataObject)
deriving DecidableEq, Repr

structure Dispatcher where
  server : Server := {}
  pipe : PipeThread := .idle
  sta : StaThread := .free
  shutdown : ShutdownThread := .idle
deriving DecidableEq, Repr

/-! ## Steps -/

/-- `ReleaseDataObject`, which ignores null. -/
def releaseDataObject (object : DataObject) : List Obs :=
  if object = 0 then [] else [.released object]

/-- The releases of `UpdateFilePaths` and `UpdateVirtualFiles`. -/
def updateReleases (s : Server) (snap : Snapshot) : List Obs :=
  if snap.contentType = .files then releaseDataObject s.virtualDataObject else []

/-- A frame is handed to the pipe, which may have no client. -/
def enqueue (snap : Snapshot) (accepted : Bool) : List Obs :=
  if accepted then [.enqueued snap] else []

/-- What becomes of the pipe thread when the queue of the STA thread is
dropped: an exception leaves the handler. -/
def PipeThread.dropped : PipeThread → PipeThread × List Obs
  | .reading true => (.idle, [])
  | .pinned object true => (.idle, [.abandoned object])
  | other => (other, [])

def ShutdownThread.dropped : ShutdownThread → ShutdownThread
  | .queued object => .broken object
  | other => other

inductive Action
  /-- Pipe thread: `GET_CLIPBOARD`. -/
  | getClipboard
  /-- Pipe thread: `RunSync` pushes a work item. -/
  | submit
  /-- STA thread: the work item of `GET_CLIPBOARD`. -/
  | staRead (clipboard : Clipboard)
  | pipeUpdate
  | pipeEnqueue (accepted : Bool)
  /-- STA thread: `OnClipboardChanged` reads, -/
  | clipboardUpdate (clipboard : Clipboard)
  /-- updates the tables, -/
  | staUpdate
  /-- and sends `CLIPBOARD_CHANGED`. -/
  | staEnqueue (accepted : Bool)
  /-- Pipe thread: `FILE_CHUNK_REQUEST`, up to the end of the lock. -/
  | chunkRequest (fileId : Bytes)
  /-- STA thread: the work item of a chunk request. -/
  | staReadChunk
  | unpin
  /-- Shutdown thread: `ReleaseStaBoundResources` takes the object, -/
  | take
  /-- `RunSync` pushes the release, -/
  | shutdownSubmit
  /-- the STA thread runs it, -/
  | shutdownRun
  /-- or the promise was broken and the release is made here. -/
  | shutdownLocal
  | staExit
  /-- `~Dispatcher`, when all threads are done. -/
  | destroy

/-- **The inbound half of the dispatcher**, under every interleaving of its
threads. -/
def machine : Machine Dispatcher Action Obs where
  step d
    | .getClipboard =>
      if d.pipe = .idle then some ({ d with pipe := .reading false }, []) else none
    | .submit =>
      match d.pipe with
      | .reading false => some ({ d with pipe := .reading true }, [])
      | .pinned object false => some ({ d with pipe := .pinned object true }, [])
      | _ => none
    | .staRead clipboard =>
      if d.pipe = .reading true ∧ d.sta = .free then
        some ({ d with
            pipe := match (readClipboard clipboard).2 with
              | some snap => .got snap
              | none => .idle },
          .read clipboard :: (readClipboard clipboard).1)
      else none
    | .pipeUpdate =>
      match d.pipe with
      | .got snap =>
        some ({ d with server := cacheSnapshot d.server snap, pipe := .updated snap },
          updateReleases d.server snap)
      | _ => none
    | .pipeEnqueue accepted =>
      match d.pipe with
      | .updated snap => some ({ d with pipe := .idle }, enqueue snap accepted)
      | _ => none
    | .clipboardUpdate clipboard =>
      if d.sta = .free then
        some ({ d with
            sta := match (readClipboard clipboard).2 with
              | some snap => .got snap
              | none => .free },
          .read clipboard :: (readClipboard clipboard).1)
      else none
    | .staUpdate =>
      match d.sta with
      | .got snap =>
        some ({ d with server := cacheSnapshot d.server snap, sta := .updated snap },
          updateReleases d.server snap)
      | _ => none
    | .staEnqueue accepted =>
      match d.sta with
      | .updated snap => some ({ d with sta := .free }, enqueue snap accepted)
      | _ => none
    | .chunkRequest fileId =>
      if d.pipe = .idle then
        match lookup d.server fileId with
        | some (.virtual object _) =>
          some ({ d with pipe := .pinned object false }, [.pinned object])
        | _ => some (d, [])
      else none
    | .staReadChunk =>
      match d.pipe, d.sta with
      | .pinned object true, .free =>
        some ({ d with pipe := .unpinning object }, [.chunkRead object])
      | _, _ => none
    | .unpin =>
      match d.pipe with
      | .unpinning object => some ({ d with pipe := .idle }, [.released object])
      | _ => none
    | .take =>
      if d.shutdown = .idle then
        some ({ d with
            server := releaseInbound d.server
            shutdown := if d.server.virtualDataObject = 0 then .idle
              else .calling d.server.virtualDataObject }, [])
      else none
    | .shutdownSubmit =>
      match d.shutdown with
      | .calling object => some ({ d with shutdown := .queued object }, [])
      | _ => none
    | .shutdownRun =>
      match d.shutdown, d.sta with
      | .queued object, .free => some ({ d with shutdown := .idle }, [.released object])
      | _, _ => none
    | .shutdownLocal =>
      match d.shutdown with
      | .broken object => some ({ d with shutdown := .idle }, [.released object])
      | _ => none
    | .staExit =>
      if d.sta = .free then
        some ({ d with pipe := d.pipe.dropped.1, sta := .gone, shutdown := d.shutdown.dropped },
          d.pipe.dropped.2)
      else none
    | .destroy =>
      if d.pipe = .idle ∧ d.sta = .gone ∧ d.shutdown = .idle then
        some ({ d with server := { d.server with virtualDataObject := 0 } },
          releaseDataObject d.server.virtualDataObject)
      else none

/-! ## What a step can do -/

/-- One rule for each way a step goes on. -/
inductive Step (d : Dispatcher) : Action → List Obs → Dispatcher → Prop
  | asked (hpipe : d.pipe = .idle) : Step d .getClipboard [] { d with pipe := .reading false }
  | readSubmitted (hpipe : d.pipe = .reading false) :
      Step d .submit [] { d with pipe := .reading true }
  | pinSubmitted (object : DataObject) (hpipe : d.pipe = .pinned object false) :
      Step d .submit [] { d with pipe := .pinned object true }
  | pipeGot (c : Clipboard) (snap : Snapshot) (hpipe : d.pipe = .reading true)
      (hread : (readClipboard c).2 = some snap) :
      Step d (.staRead c) (.read c :: (readClipboard c).1) { d with pipe := .got snap }
  | pipeGotNothing (c : Clipboard) (hpipe : d.pipe = .reading true)
      (hread : (readClipboard c).2 = none) :
      Step d (.staRead c) (.read c :: (readClipboard c).1) { d with pipe := .idle }
  | pipeUpdated (snap : Snapshot) (hpipe : d.pipe = .got snap) :
      Step d .pipeUpdate (updateReleases d.server snap)
        { d with server := cacheSnapshot d.server snap, pipe := .updated snap }
  | pipeEnqueued (accepted : Bool) (snap : Snapshot) (hpipe : d.pipe = .updated snap) :
      Step d (.pipeEnqueue accepted) (enqueue snap accepted) { d with pipe := .idle }
  | staGot (c : Clipboard) (snap : Snapshot) (hsta : d.sta = .free)
      (hread : (readClipboard c).2 = some snap) :
      Step d (.clipboardUpdate c) (.read c :: (readClipboard c).1) { d with sta := .got snap }
  | staGotNothing (c : Clipboard) (hsta : d.sta = .free) (hread : (readClipboard c).2 = none) :
      Step d (.clipboardUpdate c) (.read c :: (readClipboard c).1) { d with sta := .free }
  | staUpdated (snap : Snapshot) (hsta : d.sta = .got snap) :
      Step d .staUpdate (updateReleases d.server snap)
        { d with server := cacheSnapshot d.server snap, sta := .updated snap }
  | staEnqueued (accepted : Bool) (snap : Snapshot) (hsta : d.sta = .updated snap) :
      Step d (.staEnqueue accepted) (enqueue snap accepted) { d with sta := .free }
  | pins (fileId : Bytes) (object : DataObject) (lindex : UInt32) (hpipe : d.pipe = .idle)
      (hfound : lookup d.server fileId = some (.virtual object lindex)) :
      Step d (.chunkRequest fileId) [.pinned object] { d with pipe := .pinned object false }
  | servedHere (fileId : Bytes) : Step d (.chunkRequest fileId) [] d
  | chunkReads (object : DataObject) (hpipe : d.pipe = .pinned object true) :
      Step d .staReadChunk [.chunkRead object] { d with pipe := .unpinning object }
  | unpins (object : DataObject) (hpipe : d.pipe = .unpinning object) :
      Step d .unpin [.released object] { d with pipe := .idle }
  | takes (hshutdown : d.shutdown = .idle) :
      Step d .take []
        { d with
          server := releaseInbound d.server
          shutdown := if d.server.virtualDataObject = 0 then .idle
            else .calling d.server.virtualDataObject }
  | shutdownSubmitted (object : DataObject) (hshutdown : d.shutdown = .calling object) :
      Step d .shutdownSubmit [] { d with shutdown := .queued object }
  | shutdownReleased (object : DataObject) (hshutdown : d.shutdown = .queued object) :
      Step d .shutdownRun [.released object] { d with shutdown := .idle }
  | shutdownReleasedHere (object : DataObject) (hshutdown : d.shutdown = .broken object) :
      Step d .shutdownLocal [.released object] { d with shutdown := .idle }
  | exits (hsta : d.sta = .free) :
      Step d .staExit d.pipe.dropped.2
        { d with pipe := d.pipe.dropped.1, sta := .gone, shutdown := d.shutdown.dropped }
  | destroys : Step d .destroy (releaseDataObject d.server.virtualDataObject)
      { d with server := { d.server with virtualDataObject := 0 } }

theorem step_cases {d d' : Dispatcher} {a : Action} {os : List Obs}
    (h : machine.step d a = some (d', os)) : Step d a os d' := by
  cases a with
  | getClipboard =>
      simp only [machine] at h
      split at h
      · rename_i hpipe
        cases h
        exact .asked hpipe
      · cases h
  | submit =>
      simp only [machine] at h
      split at h
      · rename_i hpipe
        cases h
        exact .readSubmitted hpipe
      · rename_i object hpipe
        cases h
        exact .pinSubmitted object hpipe
      · cases h
  | staRead c =>
      simp only [machine] at h
      split at h
      · rename_i hready
        cases hread : (readClipboard c).2 with
        | some snap =>
            rw [hread] at h
            cases h
            exact .pipeGot c snap hready.1 hread
        | none =>
            rw [hread] at h
            cases h
            exact .pipeGotNothing c hready.1 hread
      · cases h
  | pipeUpdate =>
      simp only [machine] at h
      split at h
      · rename_i snap hpipe
        cases h
        exact .pipeUpdated snap hpipe
      · cases h
  | pipeEnqueue accepted =>
      simp only [machine] at h
      split at h
      · rename_i snap hpipe
        cases h
        exact .pipeEnqueued accepted snap hpipe
      · cases h
  | clipboardUpdate c =>
      simp only [machine] at h
      split at h
      · rename_i hsta
        cases hread : (readClipboard c).2 with
        | some snap =>
            rw [hread] at h
            cases h
            exact .staGot c snap hsta hread
        | none =>
            rw [hread] at h
            cases h
            exact .staGotNothing c hsta hread
      · cases h
  | staUpdate =>
      simp only [machine] at h
      split at h
      · rename_i snap hsta
        cases h
        exact .staUpdated snap hsta
      · cases h
  | staEnqueue accepted =>
      simp only [machine] at h
      split at h
      · rename_i snap hsta
        cases h
        exact .staEnqueued accepted snap hsta
      · cases h
  | chunkRequest fileId =>
      simp only [machine] at h
      split at h
      · rename_i hpipe
        split at h
        · rename_i object lindex hfound
          cases h
          exact .pins fileId object lindex hpipe hfound
        · cases h
          exact .servedHere fileId
      · cases h
  | staReadChunk =>
      simp only [machine] at h
      split at h
      · rename_i object hpipe _
        cases h
        exact .chunkReads object hpipe
      · cases h
  | unpin =>
      simp only [machine] at h
      split at h
      · rename_i object hpipe
        cases h
        exact .unpins object hpipe
      · cases h
  | take =>
      simp only [machine] at h
      split at h
      · rename_i hshutdown
        cases h
        exact .takes hshutdown
      · cases h
  | shutdownSubmit =>
      simp only [machine] at h
      split at h
      · rename_i object hshutdown
        cases h
        exact .shutdownSubmitted object hshutdown
      · cases h
  | shutdownRun =>
      simp only [machine] at h
      split at h
      · rename_i object hshutdown _
        cases h
        exact .shutdownReleased object hshutdown
      · cases h
  | shutdownLocal =>
      simp only [machine] at h
      split at h
      · rename_i object hshutdown
        cases h
        exact .shutdownReleasedHere object hshutdown
      · cases h
  | staExit =>
      simp only [machine] at h
      split at h
      · rename_i hsta
        cases h
        exact .exits hsta
      · cases h
  | destroy =>
      simp only [machine] at h
      split at h
      · cases h
        exact .destroys
      · cases h

/-! ## Tables and frames -/

/-- What the tables have for a `file_id`. -/
def tableEntry (s : Server) (fileId : Bytes) : Option FileSource :=
  match s.filePaths.lookup fileId with
  | some path => some (.physical path)
  | none => (s.virtualLindex.lookup fileId).map (.virtual s.virtualDataObject)

/-- The files of a snapshot in the order in which `EncodeClipboardData` writes
them into the frame. -/
def frameEntries (snap : Snapshot) : List FileSource :=
  snap.filePaths.map .physical ++
    snap.virtualFiles.map (fun v => .virtual snap.virtualDataObject v.lindex)

/-- **The tables resolve `file_id` `i` to entry `i` of the frame**, for every
`i`. -/
def Resolves (s : Server) (snap : Snapshot) : Prop :=
  ∀ i, tableEntry s (decimal i) = (frameEntries snap)[i]?

/-- Only one of `file_paths` and `virtual_files` is populated. -/
def OneKind (snap : Snapshot) : Prop := snap.filePaths = [] ∨ snap.virtualFiles = []

theorem oneKind_readClipboard {c : Clipboard} {snap : Snapshot}
    (hread : (readClipboard c).2 = some snap) : OneKind snap := by
  have hother : ∀ {other : OtherContent}, other.snapshot = some snap → OneKind snap := by
    intro other hsnap
    cases other with
    | nothing => cases hsnap
    | text wide =>
        cases hsnap
        exact .inl rfl
    | image png =>
        cases hsnap
        exact .inl rfl
  unfold readClipboard readVirtualFiles at hread
  repeat' split at hread
  all_goals first
    | exact hother hread
    | cases hread
  · exact .inr rfl
  · rename_i os snap' heq
    repeat' split at heq
    all_goals cases heq
    exact .inl rfl

/-- The table update makes the tables resolve the snapshot. -/
theorem resolves_cacheSnapshot (s : Server) {snap : Snapshot}
    (hfiles : snap.contentType = .files) (hone : OneKind snap) :
    Resolves (cacheSnapshot s snap) snap := by
  intro i
  rw [cacheSnapshot, if_pos hfiles]
  by_cases hvirtual : snap.virtualFiles ≠ []
  · have hpaths : snap.filePaths = [] := hone.resolve_right hvirtual
    rw [if_pos hvirtual, tableEntry]
    simp only [updateVirtualFiles, List.lookup_nil, lookup_numbered, frameEntries, hpaths,
      List.map_nil, List.nil_append, List.getElem?_map]
    cases snap.virtualFiles[i]? with
    | none => rfl
    | some v => rfl
  · have hnone : snap.virtualFiles = [] := not_not.mp hvirtual
    rw [if_neg hvirtual, tableEntry]
    simp only [updateFilePaths, List.lookup_nil, lookup_numbered, frameEntries, hnone,
      List.map_nil, List.append_nil, List.getElem?_map]
    cases snap.filePaths[i]? with
    | none => rfl
    | some path => rfl

theorem cacheSnapshot_exclusive {s : Server} (snap : Snapshot)
    (hs : s.filePaths = [] ∨ s.virtualLindex = []) :
    (cacheSnapshot s snap).filePaths = [] ∨ (cacheSnapshot s snap).virtualLindex = [] := by
  unfold cacheSnapshot
  split
  · split
    · exact .inl rfl
    · exact .inr rfl
  · exact hs

def Obs.files? : Obs → Option Snapshot
  | .enqueued snap => if snap.contentType = .files then some snap else none
  | _ => none

/-- The last Files frame that was enqueued to the parent. -/
def lastFrame (h : List Obs) : Option Snapshot := (h.filterMap Obs.files?).getLast?

theorem lastFrame_append_quiet {h os : List Obs} (hos : ∀ o ∈ os, o.files? = none) :
    lastFrame (h ++ os) = lastFrame h := by
  have hnone : os.filterMap Obs.files? = [] := List.filterMap_eq_nil_iff.mpr hos
  rw [lastFrame, List.filterMap_append, hnone, List.append_nil, lastFrame]

/-- Reading the clipboard sends nothing. -/
theorem readClipboard_quiet (c : Clipboard) :
    ∀ o ∈ .read c :: (readClipboard c).1, o.files? = none := by
  have hole : ∀ o ∈ (readVirtualFiles c.ole).1, o.files? = none := by
    unfold readVirtualFiles
    repeat' split
    all_goals simp [Obs.files?]
  have hread : ∀ o ∈ (readClipboard c).1, o.files? = none := by
    simp only [readClipboard]
    split
    · split
      · simp
      · split
        · split
          · rename_i heq
            rwa [heq] at hole
          · rename_i heq
            rwa [heq] at hole
        · simp
    · simp
  intro o hmem
  rcases List.mem_cons.mp hmem with rfl | hmem
  · rfl
  · exact hread o hmem

theorem updateReleases_quiet (s : Server) (snap : Snapshot) :
    ∀ o ∈ updateReleases s snap, o.files? = none := by
  unfold updateReleases releaseDataObject
  repeat' split
  all_goals simp [Obs.files?]

/-! ## Which update a frame belongs to -/

/-- The Files snapshot of a thread that has updated the tables and not
enqueued its frame yet. -/
def pipePending (d : Dispatcher) : Option Snapshot :=
  match d.pipe with
  | .updated snap => if snap.contentType = .files then some snap else none
  | _ => none

def staPending (d : Dispatcher) : Option Snapshot :=
  match d.sta with
  | .updated snap => if snap.contentType = .files then some snap else none
  | _ => none

/-! What the pipe thread makes of the end of the STA thread. -/

theorem PipeThread.dropped_quiet (p : PipeThread) : ∀ o ∈ p.dropped.2, o.files? = none := by
  cases p with
  | reading queued => cases queued <;> simp [PipeThread.dropped]
  | pinned object queued => cases queued <;> simp [PipeThread.dropped, Obs.files?]
  | idle | got | updated | unpinning => simp [PipeThread.dropped]

theorem PipeThread.dropped_eq_got {p : PipeThread} {snap : Snapshot} :
    p.dropped.1 = .got snap ↔ p = .got snap := by
  cases p with
  | reading queued => cases queued <;> simp [PipeThread.dropped]
  | pinned object queued => cases queued <;> simp [PipeThread.dropped]
  | idle | got | updated | unpinning => simp [PipeThread.dropped]

theorem pipePending_dropped {d d' : Dispatcher} (hdropped : d'.pipe = d.pipe.dropped.1) :
    pipePending d' = pipePending d := by
  unfold pipePending
  rw [hdropped]
  cases d.pipe with
  | reading queued => cases queued <;> rfl
  | pinned object queued => cases queued <;> rfl
  | idle | got | updated | unpinning => rfl

/-- A thread may enqueue this snapshot: if it lists files, the pipe takes it,
and the tables are still those of this snapshot unless the other thread is
about to enqueue its own. -/
def MayEnqueue (s : Server) (snap : Snapshot) (accepted : Bool) (others : Option Snapshot) :
    Prop :=
  snap.contentType = .files → accepted = true ∧ (Resolves s snap ∨ others ≠ none)

/-- **In step**: no Files frame is refused, and none is enqueued after the
other thread has both updated the tables and enqueued its own.  (Shutdown,
which clears the tables, is not among the operations compared here.) -/
def InStep (d : Dispatcher) : Action → Prop
  | .pipeEnqueue accepted =>
    ∀ snap, d.pipe = .updated snap → MayEnqueue d.server snap accepted (staPending d)
  | .staEnqueue accepted =>
    ∀ snap, d.sta = .updated snap → MayEnqueue d.server snap accepted (pipePending d)
  | .take | .destroy => False
  | _ => True

/-- The tables are those of `p` or of `q`, if these are pending, or else of
the last frame. -/
def Explained (h : List Obs) (s : Server) (p q : Option Snapshot) : Prop :=
  (∃ snap, (p = some snap ∨ q = some snap) ∧ Resolves s snap) ∨
    (p = none ∨ q = none) ∧ ∀ snap, lastFrame h = some snap → Resolves s snap

theorem Explained.swap {h : List Obs} {s : Server} {p q : Option Snapshot}
    (he : Explained h s p q) : Explained h s q p := by
  rcases he with ⟨snap, hsnap, hresolves⟩ | ⟨hnone, hlast⟩
  · exact .inl ⟨snap, hsnap.symm, hresolves⟩
  · exact .inr ⟨hnone.symm, hlast⟩

/-- An update by the thread whose pending snapshot is `p`. -/
theorem Explained.update {h os : List Obs} {s : Server} {snap : Snapshot} {q : Option Snapshot}
    (he : Explained h s none q) (hone : OneKind snap) (hos : ∀ o ∈ os, o.files? = none) :
    Explained (h ++ os) (cacheSnapshot s snap)
      (if snap.contentType = .files then some snap else none) q := by
  by_cases hfiles : snap.contentType = .files
  · rw [if_pos hfiles]
    exact .inl ⟨snap, .inl rfl, resolves_cacheSnapshot s hfiles hone⟩
  · rw [if_neg hfiles, cacheSnapshot, if_neg hfiles, Explained, lastFrame_append_quiet hos]
    exact he

/-- An enqueue by that thread. -/
theorem Explained.enqueue {h : List Obs} {s : Server} {snap : Snapshot} {q : Option Snapshot}
    {accepted : Bool}
    (he : Explained h s (if snap.contentType = .files then some snap else none) q)
    (hmay : MayEnqueue s snap accepted q) :
    Explained (h ++ enqueue snap accepted) s none q := by
  by_cases hfiles : snap.contentType = .files
  · obtain ⟨haccepted, hstill⟩ := hmay hfiles
    have hlast : lastFrame (h ++ FileTables.enqueue snap accepted) = some snap := by
      simp [FileTables.enqueue, haccepted, lastFrame, Obs.files?, hfiles]
    by_cases hresolves : Resolves s snap
    · refine .inr ⟨.inl rfl, ?_⟩
      rw [hlast]
      intro snap' heq
      rwa [← Option.some.inj heq]
    · have hothers := hstill.resolve_left hresolves
      rw [if_pos hfiles] at he
      rcases he with ⟨snap', hsnap, hres⟩ | ⟨hnone, -⟩
      · rcases hsnap with hsame | hother
        · exact absurd (Option.some.inj hsame ▸ hres) hresolves
        · exact .inl ⟨snap', .inr hother, hres⟩
      · rcases hnone with hnone | hnone
        · cases hnone
        · exact absurd hnone hothers
  · have hquiet : ∀ o ∈ FileTables.enqueue snap accepted, o.files? = none := by
      intro o hmem
      cases accepted with
      | true =>
          rw [List.mem_singleton.mp hmem]
          simp [Obs.files?, hfiles]
      | false => cases hmem
    rw [if_neg hfiles] at he
    rw [Explained, lastFrame_append_quiet hquiet]
    exact he

/-- **The invariant**: snapshots in flight are of one kind, one table is
empty, and the tables are explained. -/
structure Sound (h : List Obs) (d : Dispatcher) : Prop where
  pipeOne : ∀ snap, d.pipe = .got snap → OneKind snap
  staOne : ∀ snap, d.sta = .got snap → OneKind snap
  exclusive : d.server.filePaths = [] ∨ d.server.virtualLindex = []
  explained : Explained h d.server (pipePending d) (staPending d)

theorem sound_initial : Sound [] {} where
  pipeOne := fun _ hpipe => by cases hpipe
  staOne := fun _ hsta => by cases hsta
  exclusive := .inl rfl
  explained := .inr ⟨.inl rfl, fun _ hlast => by cases hlast⟩

/-- A step that sends no frame and leaves tables and pending frames alone. -/
theorem Sound.quiet {h os : List Obs} {d d' : Dispatcher} (hi : Sound h d)
    (hos : ∀ o ∈ os, o.files? = none) (hserver : d'.server = d.server)
    (hpipe : pipePending d' = pipePending d) (hsta : staPending d' = staPending d)
    (hpipeOne : ∀ snap, d'.pipe = .got snap → OneKind snap)
    (hstaOne : ∀ snap, d'.sta = .got snap → OneKind snap) : Sound (h ++ os) d' where
  pipeOne := hpipeOne
  staOne := hstaOne
  exclusive := by
    rw [hserver]
    exact hi.exclusive
  explained := by
    rw [hserver, hpipe, hsta, Explained, lastFrame_append_quiet hos]
    exact hi.explained

theorem step_sound {h os : List Obs} {d d' : Dispatcher} {a : Action} (hi : Sound h d)
    (hin : InStep d a) (hstep : machine.step d a = some (d', os)) : Sound (h ++ os) d' := by
  cases step_cases hstep with
  | asked hpipe | readSubmitted hpipe | pinSubmitted _ hpipe =>
      exact hi.quiet (by simp) rfl (by simp [pipePending, hpipe]) rfl
        (fun _ hgot => by cases hgot) hi.staOne
  | pipeGot c snap hpipe hread =>
      refine hi.quiet (readClipboard_quiet c) rfl (by simp [pipePending, hpipe]) rfl ?_ hi.staOne
      intro snap' hgot
      cases hgot
      exact oneKind_readClipboard hread
  | pipeGotNothing c hpipe hread =>
      exact hi.quiet (readClipboard_quiet c) rfl (by simp [pipePending, hpipe]) rfl
        (fun _ hgot => by cases hgot) hi.staOne
  | pipeUpdated snap hpipe =>
      have he := hi.explained
      simp only [pipePending, hpipe] at he
      exact ⟨(fun _ hgot => by cases hgot), hi.staOne, cacheSnapshot_exclusive snap hi.exclusive,
        he.update (hi.pipeOne snap hpipe) (updateReleases_quiet d.server snap)⟩
  | pipeEnqueued accepted snap hpipe =>
      have he := hi.explained
      simp only [pipePending, hpipe] at he
      exact ⟨(fun _ hgot => by cases hgot), hi.staOne, hi.exclusive,
        he.enqueue (hin snap hpipe)⟩
  | staGot c snap hsta hread =>
      refine hi.quiet (readClipboard_quiet c) rfl rfl (by simp [staPending, hsta]) hi.pipeOne ?_
      intro snap' hgot
      cases hgot
      exact oneKind_readClipboard hread
  | staGotNothing c hsta hread =>
      exact hi.quiet (readClipboard_quiet c) rfl rfl (by simp [staPending, hsta]) hi.pipeOne
        (fun _ hgot => by cases hgot)
  | staUpdated snap hsta =>
      have he := hi.explained.swap
      simp only [staPending, hsta] at he
      exact ⟨hi.pipeOne, (fun _ hgot => by cases hgot), cacheSnapshot_exclusive snap hi.exclusive,
        (he.update (hi.staOne snap hsta) (updateReleases_quiet d.server snap)).swap⟩
  | staEnqueued accepted snap hsta =>
      have he := hi.explained.swap
      simp only [staPending, hsta] at he
      exact ⟨hi.pipeOne, (fun _ hgot => by cases hgot), hi.exclusive,
        (he.enqueue (hin snap hsta)).swap⟩
  | servedHere fileId =>
      rw [List.append_nil]
      exact hi
  | pins _ _ _ hpipe | chunkReads _ hpipe | unpins _ hpipe =>
      exact hi.quiet (by simp [Obs.files?]) rfl (by simp [pipePending, hpipe]) rfl
        (fun _ hgot => by cases hgot) hi.staOne
  | takes | destroys => exact hin.elim
  | shutdownSubmitted | shutdownReleased | shutdownReleasedHere =>
      exact hi.quiet (by simp [Obs.files?]) rfl rfl rfl hi.pipeOne hi.staOne
  | exits hsta =>
      exact hi.quiet d.pipe.dropped_quiet rfl (pipePending_dropped rfl)
        (by simp [staPending, hsta])
        (fun snap hgot => hi.pipeOne snap (PipeThread.dropped_eq_got.mp hgot))
        (fun _ hgot => by cases hgot)

/-- Neither `GET_CLIPBOARD` nor `OnClipboardChanged` is in progress. -/
def NoOperation (d : Dispatcher) : Prop :=
  (∀ queued, d.pipe ≠ .reading queued) ∧ (∀ snap, d.pipe ≠ .got snap) ∧
    (∀ snap, d.pipe ≠ .updated snap) ∧ (∀ snap, d.sta ≠ .got snap) ∧
    ∀ snap, d.sta ≠ .updated snap

/-- **The tables are what the parent was told.**  In every run in step, one
of the tables is empty, and whenever no operation is in progress they resolve
every `file_id` as the last Files frame lists it. -/
theorem tables_match_last_frame {h : List Obs} {d : Dispatcher}
    (hrun : machine.Run InStep {} h d) :
    (d.server.filePaths = [] ∨ d.server.virtualLindex = []) ∧
      (NoOperation d → ∀ snap, lastFrame h = some snap → Resolves d.server snap) := by
  have hi : Sound h d := hrun.history_invariant Sound sound_initial
    (fun _ _ _ _ _ hi hin hstep => step_sound hi hin hstep)
  refine ⟨hi.exclusive, ?_⟩
  intro ⟨_, _, hpipe, _, hsta⟩
  have hnoPipe : pipePending d = none := by
    unfold pipePending
    split
    · rename_i snap hupdated
      exact absurd hupdated (hpipe snap)
    · rfl
  have hnoSta : staPending d = none := by
    unfold staPending
    split
    · rename_i snap hupdated
      exact absurd hupdated (hsta snap)
    · rfl
  rcases hi.explained with ⟨snap, hsnap, -⟩ | ⟨-, hlast⟩
  · rw [hnoPipe, hnoSta] at hsnap
    rcases hsnap with hsnap | hsnap <;> cases hsnap
  · exact hlast

/-- Decides `MayEnqueue` for tables that are just as the update left them. -/
def testMayEnqueue (s : Server) (snap : Snapshot) (accepted : Bool) (others : Option Snapshot) :
    Bool :=
  snap.contentType != .files || accepted &&
    ((cacheSnapshot s snap == s && (snap.filePaths == [] || snap.virtualFiles == [])) ||
      others.isSome)

theorem mayEnqueue_of_test {s : Server} {snap : Snapshot} {accepted : Bool}
    {others : Option Snapshot} (h : testMayEnqueue s snap accepted others = true) :
    MayEnqueue s snap accepted others := by
  intro hfiles
  simp only [testMayEnqueue, hfiles, bne_self_eq_false, Bool.false_or, Bool.and_eq_true,
    Bool.or_eq_true, beq_iff_eq] at h
  obtain ⟨haccepted, ⟨hsame, hone⟩ | hothers⟩ := h
  · refine ⟨haccepted, .inl ?_⟩
    have hresolves := resolves_cacheSnapshot s hfiles hone
    rwa [hsame] at hresolves
  · exact ⟨haccepted, .inr (Option.isSome_iff_ne_none.mp hothers)⟩

/-- Decides `InStep`. -/
def testInStep (d : Dispatcher) : Action → Bool
  | .pipeEnqueue accepted =>
    match d.pipe with
    | .updated snap => testMayEnqueue d.server snap accepted (staPending d)
    | _ => true
  | .staEnqueue accepted =>
    match d.sta with
    | .updated snap => testMayEnqueue d.server snap accepted (pipePending d)
    | _ => true
  | .take | .destroy => false
  | _ => true

theorem inStep_of_test (d : Dispatcher) (a : Action) (h : testInStep d a = true) :
    InStep d a := by
  cases a with
  | pipeEnqueue accepted =>
      intro snap hpipe
      simp only [testInStep, hpipe] at h
      exact mayEnqueue_of_test h
  | staEnqueue accepted =>
      intro snap hsta
      simp only [testInStep, hsta] at h
      exact mayEnqueue_of_test h
  | take | destroy => cases h
  | _ => trivial

/-- Explorer copies one file, then two others. -/
def copyOne : Clipboard := { hdropPaths := [[97]] }
def copyTwo : Clipboard := { hdropPaths := [[98], [99]] }

/-- A reply that overlaps with a change and is enqueued before it. -/
def replyThenChange : List Action :=
  [.getClipboard, .submit, .staRead copyOne, .pipeUpdate, .clipboardUpdate copyTwo, .staUpdate,
    .pipeEnqueue true, .staEnqueue true]

theorem tables_match_last_frame_overlap :
    ∃ h d snap, machine.Run InStep {} h d ∧ lastFrame h = some snap ∧
      snap.filePaths = [[98], [99]] ∧ Resolves d.server snap := by
  have hexec : (machine.execIf testInStep {} replyThenChange).map
      (fun r => (lastFrame r.2, r.1.pipe, r.1.sta)) =
      some (some { contentType := .files, filePaths := [[98], [99]] }, .idle, .free) := by decide
  obtain ⟨h, d, hrun, hobs⟩ := Machine.Run.of_execIf_map inStep_of_test hexec
  obtain ⟨hlast, hpipe, hsta⟩ := by simpa using hobs
  refine ⟨h, d, _, hrun, hlast, rfl, (tables_match_last_frame hrun).2 ?_ _ hlast⟩
  simp [NoOperation, hpipe, hsta]

/-- **A stale reply after a change**: the reply to `GET_CLIPBOARD` is enqueued
after the notification of a newer copy, whose files the tables hold. -/
theorem stale_reply_after_change :
    ∃ h d snap, machine.Run Machine.always {} h d ∧ NoOperation d ∧ lastFrame h = some snap ∧
      ¬ Resolves d.server snap := by
  have hexec : (machine.exec {} [.getClipboard, .submit, .staRead copyOne, .pipeUpdate,
      .clipboardUpdate copyTwo, .staUpdate, .staEnqueue true, .pipeEnqueue true]).map
      (fun r => (lastFrame r.2, r.1.pipe, r.1.sta, tableEntry r.1.server (decimal 0))) =
      some (some { contentType := .files, filePaths := [[97]] }, .idle, .free,
        some (.physical [98])) := by decide
  obtain ⟨h, d, hrun, hobs⟩ := Machine.Run.of_exec_map hexec
  obtain ⟨hlast, hpipe, hsta, hentry⟩ := by simpa using hobs
  refine ⟨h, d, _, hrun, by simp [NoOperation, hpipe, hsta], hlast, ?_⟩
  intro hresolves
  have hzero := hresolves 0
  rw [hentry] at hzero
  exact absurd hzero (by decide)

end FileTables
