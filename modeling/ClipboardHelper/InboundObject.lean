import ClipboardHelper.Library.Ledger
import ClipboardHelper.Library.History
import ClipboardHelper.FileTables

/-!
# The inbound data object of the Windows helper

`ReadVirtualFiles` takes a reference to another application's data object
from OLE and parks it in the snapshot; the table update moves it on into
`virtual_data_object_`, where the next update or shutdown releases it.  A
chunk request takes one more reference around its work item.  The references
are counted here along the runs of `FileTables`; OLE may hand out the same
object any number of times.

References are never released too often, and `ReadVirtualFileChunk` is only
called on an object of which the helper holds one, in every run
(`chunk_reads_held`).  But some can be lost.  The update moves the reference
on only if the snapshot lists virtual files, while `ReadVirtualFiles` parks it
also for a descriptor without items; and when the STA thread exits, an
exception takes a chunk request past its release.
**`inbound_released_once_iff`**: at rest every reference has been released
exactly if neither has happened.  `empty_descriptor_leaks` is a run of the
first kind.
-/

namespace InboundObject

open Library DispatchCodec FileTables
open ChunkServing (Server Snapshot DataObject cacheSnapshot updateFilePaths updateVirtualFiles
  releaseInbound lookup)

/-! ## The ledger of references -/

/-- A reference to an object, unless it is null. -/
def reference (object : DataObject) : Multiset DataObject := if object = 0 then 0 else {object}

/-- The reference that a snapshot's table update will move on. -/
def snapshotHeld (snap : Snapshot) : Multiset DataObject :=
  if snap.contentType = .files ∧ snap.virtualFiles ≠ [] then reference snap.virtualDataObject
  else 0

def pipeHeld : PipeThread → Multiset DataObject
  | .got snap => snapshotHeld snap
  | .pinned object _ | .unpinning object => {object}
  | _ => 0

def staHeld : StaThread → Multiset DataObject
  | .got snap => snapshotHeld snap
  | _ => 0

def shutdownHeld : ShutdownThread → Multiset DataObject
  | .idle => 0
  | .calling object | .queued object | .broken object => {object}

/-- The reference that a read of the clipboard loses: that of a snapshot whose
update will not move it on. -/
def lostByRead (c : Clipboard) : Multiset DataObject :=
  match (readClipboard c).2 with
  | some snap => if snap.virtualFiles = [] then reference snap.virtualDataObject else 0
  | none => 0

/-- References that are lost with an observation. -/
def lost : Obs → Multiset DataObject
  | .read c => lostByRead c
  | .abandoned object => {object}
  | _ => 0

/-- The helper's references: it takes one from OLE or by pinning, and gives
one up by releasing or losing it. -/
def references : Ledger Dispatcher Obs DataObject where
  enters
    | .obtained object | .pinned object => {object}
    | _ => 0
  leaves
    | .released object => {object}
    | o => lost o
  held d := reference d.server.virtualDataObject + pipeHeld d.pipe + staHeld d.sta +
    shutdownHeld d.shutdown

def Obs.takes (object : DataObject) : Obs → Bool
  | .obtained other | .pinned other => other == object
  | _ => false

def Obs.releases (object : DataObject) : Obs → Bool
  | .released other => other == object
  | _ => false

/-- How many references to an object the helper has taken. -/
def taken (h : List Obs) (object : DataObject) : Nat := h.countP (Obs.takes object)

/-- How many it has released. -/
def released (h : List Obs) (object : DataObject) : Nat := h.countP (Obs.releases object)

/-! ## Reading -/

theorem left_releaseDataObject (object : DataObject) :
    references.left (releaseDataObject object) = reference object := by
  unfold releaseDataObject reference
  split
  · rfl
  · simp [references]

theorem entered_releaseDataObject (object : DataObject) :
    references.entered (releaseDataObject object) = 0 := by
  unfold releaseDataObject
  split
  · rfl
  · simp [references]

/-- The read gets as far as a file group descriptor, and it has no items. -/
def EmptyDescriptor (c : Clipboard) : Prop :=
  c.opens = true ∧ c.hdropPaths = [] ∧ c.descriptorAvailable = true ∧
    c.ole.heldByThisThread = false ∧ c.ole.object ≠ 0 ∧
    ∃ d, c.ole.descriptor = some d ∧ d.cItems = 0

/-- How one read of the clipboard ends, as far as references go: none is kept,
or the snapshot parks one. -/
inductive Reading (c : Clipboard) : List Obs → Option Snapshot → Prop
  | none (snap : Option Snapshot) (hempty : ¬ EmptyDescriptor c)
      (hnull : ∀ s, snap = some s → s.virtualDataObject = 0) : Reading c [] snap
  | returned (object : DataObject) (snap : Option Snapshot) (hempty : ¬ EmptyDescriptor c)
      (hnull : ∀ s, snap = some s → s.virtualDataObject = 0) :
      Reading c [.obtained object, .released object] snap
  | parked (object : DataObject) (snap : Snapshot) (hobject : object ≠ 0)
      (hfiles : snap.contentType = .files) (hparked : snap.virtualDataObject = object)
      (hempty : snap.virtualFiles = [] ↔ EmptyDescriptor c) :
      Reading c [.obtained object] (some snap)

theorem other_parks_nothing {other : OtherContent} {snap : Snapshot}
    (h : other.snapshot = some snap) : snap.virtualDataObject = 0 := by
  cases other with
  | nothing => cases h
  | text wide =>
      cases h
      rfl
  | image png =>
      cases h
      rfl

theorem reading (c : Clipboard) : Reading c (readClipboard c).1 (readClipboard c).2 := by
  by_cases hopens : c.opens = true
  case neg =>
    simp only [readClipboard, hopens, if_false, Bool.false_eq_true]
    exact .none _ (fun he => hopens he.1) (fun s hs => by cases hs)
  by_cases hpaths : c.hdropPaths = []
  case neg =>
    simp only [readClipboard, hopens, if_true, ne_eq, hpaths, not_false_eq_true]
    refine .none _ (fun he => hpaths he.2.1) ?_
    intro s hs
    cases hs
    rfl
  by_cases havailable : c.descriptorAvailable = true
  case neg =>
    simp only [readClipboard, hopens, if_true, ne_eq, hpaths, not_true_eq_false, if_false,
      havailable, Bool.false_eq_true]
    exact .none _ (fun he => havailable he.2.2.1) (fun s hs => other_parks_nothing hs)
  simp only [readClipboard, hopens, if_true, ne_eq, hpaths, not_true_eq_false, if_false,
    havailable]
  by_cases hheld : c.ole.heldByThisThread = true
  case pos =>
    simp only [readVirtualFiles, hheld, if_true]
    refine .none _ ?_ (fun s hs => other_parks_nothing hs)
    intro he
    rw [he.2.2.2.1] at hheld
    cases hheld
  by_cases hobject : c.ole.object = 0
  case pos =>
    simp only [readVirtualFiles, hheld, hobject, if_true, Bool.false_eq_true, if_false]
    exact .none _ (fun he => he.2.2.2.2.1 hobject) (fun s hs => other_parks_nothing hs)
  simp only [readVirtualFiles, hheld, hobject, Bool.false_eq_true, if_false]
  cases hdescriptor : c.ole.descriptor with
  | none =>
      refine .returned _ _ ?_ (fun s hs => other_parks_nothing hs)
      intro he
      obtain ⟨d, hd, -⟩ := he.2.2.2.2.2
      rw [hdescriptor] at hd
      cases hd
  | some d =>
      by_cases hsound : d.sound = true
      · simp only [hsound, if_true]
        refine .parked _ _ hobject rfl rfl ?_
        have hcount : d.cItems.toNat = 0 ↔ d.cItems = 0 :=
          ⟨fun hzero => UInt32.toNat.inj hzero, fun hzero => by rw [hzero]; rfl⟩
        simp [EmptyDescriptor, hopens, hpaths, havailable, hheld, hobject, hdescriptor, hcount]
      · simp only [hsound, if_false, Bool.false_eq_true]
        refine .returned _ _ ?_ (fun s hs => other_parks_nothing hs)
        intro he
        obtain ⟨d', hd, hzero⟩ := he.2.2.2.2.2
        rw [hdescriptor] at hd
        cases hd
        exact hsound (by simp [FileGroupDescriptor.sound, hzero])

/-- **A read loses a reference** exactly if the descriptor has no items. -/
theorem lostByRead_eq_zero_iff (c : Clipboard) : lostByRead c = 0 ↔ ¬ EmptyDescriptor c := by
  have hreading := reading c
  unfold lostByRead
  generalize (readClipboard c).1 = os at hreading
  generalize (readClipboard c).2 = result at hreading
  cases hreading with
  | none snap hempty hnull =>
      cases result with
      | none => simpa using hempty
      | some s => simp [hnull s rfl, reference, hempty]
  | returned object snap hempty hnull =>
      cases result with
      | none => simpa using hempty
      | some s => simp [hnull s rfl, reference, hempty]
  | parked object snap hobject hfiles hparked hempty =>
      simp [hparked, reference, hobject, hempty]

/-- **What a read does to references**: those it takes are released at once,
parked in the snapshot, or lost. -/
theorem read_moves (c : Clipboard) :
    references.left (.read c :: (readClipboard c).1) +
        ((readClipboard c).2.map snapshotHeld).getD 0 =
      references.entered (.read c :: (readClipboard c).1) := by
  have hreading := reading c
  have hlost : references.left [.read c] = lostByRead c := by simp [references, lost]
  have hcons : ∀ os, references.left (.read c :: os) = lostByRead c + references.left os := by
    intro os
    rw [← hlost, ← Ledger.left_append]
    rfl
  rw [hcons]
  unfold lostByRead
  generalize (readClipboard c).1 = os at hreading
  generalize (readClipboard c).2 = result at hreading
  cases hreading with
  | none snap hempty hnull =>
      cases result with
      | none => simp [references]
      | some s => simp [references, hnull s rfl, reference, snapshotHeld]
  | returned object snap hempty hnull =>
      cases result with
      | none => simp [references, lost]
      | some s => simp [references, lost, hnull s rfl, reference, snapshotHeld]
  | parked object snap hobject hfiles hparked hempty =>
      by_cases hnone : snap.virtualFiles = []
      · simp [references, lost, hparked, hfiles, reference, hobject, hnone, snapshotHeld]
      · simp [references, lost, hparked, hfiles, reference, hobject, hnone, snapshotHeld]

/-! ## Every step moves references -/

theorem update_moves (s : Server) (snap : Snapshot) :
    references.left (updateReleases s snap) +
        reference (cacheSnapshot s snap).virtualDataObject =
      reference s.virtualDataObject + snapshotHeld snap +
        references.entered (updateReleases s snap) := by
  by_cases hfiles : snap.contentType = .files
  · rw [updateReleases, if_pos hfiles, left_releaseDataObject, entered_releaseDataObject, add_zero,
      cacheSnapshot, if_pos hfiles]
    by_cases hvirtual : snap.virtualFiles = []
    · simp [hvirtual, snapshotHeld, updateFilePaths, reference]
    · simp [hvirtual, snapshotHeld, hfiles, updateVirtualFiles]
  · simp [updateReleases, hfiles, cacheSnapshot, snapshotHeld]

theorem enqueue_moves (snap : Snapshot) (accepted : Bool) :
    references.left (enqueue snap accepted) = 0 ∧
      references.entered (enqueue snap accepted) = 0 := by
  cases accepted with
  | true => simp [enqueue, references, lost]
  | false => simp [enqueue]

theorem dropped_moves (p : PipeThread) :
    references.left p.dropped.2 + pipeHeld p.dropped.1 =
      pipeHeld p + references.entered p.dropped.2 := by
  cases p with
  | reading queued => cases queued <;> simp [PipeThread.dropped, pipeHeld]
  | pinned object queued =>
      cases queued <;> simp [PipeThread.dropped, pipeHeld, references, lost]
  | idle | got | updated | unpinning => simp [PipeThread.dropped, pipeHeld]

theorem shutdownHeld_dropped (t : ShutdownThread) : shutdownHeld t.dropped = shutdownHeld t := by
  cases t with
  | idle | calling | queued | broken => rfl

/-- What a read leaves in its thread. -/
theorem got_moves (c : Clipboard) {snap : Snapshot} (hread : (readClipboard c).2 = some snap) :
    references.left (.read c :: (readClipboard c).1) + snapshotHeld snap =
      references.entered (.read c :: (readClipboard c).1) := by
  have hmoves := read_moves c
  rw [hread] at hmoves
  exact hmoves

theorem gotNothing_moves (c : Clipboard) (hread : (readClipboard c).2 = none) :
    references.left (.read c :: (readClipboard c).1) =
      references.entered (.read c :: (readClipboard c).1) := by
  have hmoves := read_moves c
  rw [hread] at hmoves
  simpa using hmoves

/-- **References are moved**: what a step does not move on it releases or
loses. -/
theorem step_moves {d d' : Dispatcher} {a : Action} {os : List Obs}
    (h : machine.step d a = some (d', os)) : references.Moves d os d' := by
  have hheld : ∀ d : Dispatcher, references.held d = reference d.server.virtualDataObject +
      pipeHeld d.pipe + staHeld d.sta + shutdownHeld d.shutdown := fun _ => rfl
  rw [Ledger.Moves, hheld, hheld]
  cases step_cases h with
  | asked hpipe | readSubmitted hpipe | pinSubmitted _ hpipe => simp [hpipe, pipeHeld]
  | pipeGot c snap hpipe hread =>
      rw [← got_moves c hread]
      simp only [hpipe, pipeHeld]
      abel
  | pipeGotNothing c hpipe hread =>
      rw [gotNothing_moves c hread]
      simp only [hpipe, pipeHeld]
      abel
  | pipeUpdated snap hpipe =>
      have hmoves := update_moves d.server snap
      simp only [hpipe, pipeHeld, add_zero]
      calc references.left (updateReleases d.server snap) +
            (reference (cacheSnapshot d.server snap).virtualDataObject + staHeld d.sta +
              shutdownHeld d.shutdown)
          = (references.left (updateReleases d.server snap) +
              reference (cacheSnapshot d.server snap).virtualDataObject) +
              (staHeld d.sta + shutdownHeld d.shutdown) := by abel
        _ = _ := by rw [hmoves]; abel
  | pipeEnqueued accepted snap hpipe =>
      obtain ⟨hleft, hentered⟩ := enqueue_moves snap accepted
      simp [hleft, hentered, hpipe, pipeHeld]
  | staGot c snap hsta hread =>
      rw [← got_moves c hread]
      simp only [hsta, staHeld]
      abel
  | staGotNothing c hsta hread =>
      rw [gotNothing_moves c hread]
      simp only [hsta, staHeld]
      abel
  | staUpdated snap hsta =>
      have hmoves := update_moves d.server snap
      simp only [hsta, staHeld, add_zero]
      calc references.left (updateReleases d.server snap) +
            (reference (cacheSnapshot d.server snap).virtualDataObject + pipeHeld d.pipe +
              shutdownHeld d.shutdown)
          = (references.left (updateReleases d.server snap) +
              reference (cacheSnapshot d.server snap).virtualDataObject) +
              (pipeHeld d.pipe + shutdownHeld d.shutdown) := by abel
        _ = _ := by rw [hmoves]; abel
  | staEnqueued accepted snap hsta =>
      obtain ⟨hleft, hentered⟩ := enqueue_moves snap accepted
      simp [hleft, hentered, hsta, staHeld]
  | pins fileId object lindex hpipe hfound =>
      simp only [hpipe, pipeHeld, references, lost, Ledger.left_cons, Ledger.left_nil,
        Ledger.entered_cons, Ledger.entered_nil]
      abel
  | servedHere fileId => simp
  | chunkReads object hpipe => simp [hpipe, pipeHeld, references, lost]
  | unpins object hpipe =>
      simp only [hpipe, pipeHeld, references, Ledger.left_cons, Ledger.left_nil,
        Ledger.entered_cons, Ledger.entered_nil]
      abel
  | takes hshutdown =>
      by_cases hnull : d.server.virtualDataObject = 0
      · simp [releaseInbound, hnull, hshutdown, reference, shutdownHeld]
      · simp only [releaseInbound, hnull, if_false, hshutdown, reference, shutdownHeld, if_true,
          Ledger.left_nil, Ledger.entered_nil]
        abel
  | shutdownSubmitted object hshutdown => simp [hshutdown, shutdownHeld]
  | shutdownReleased object hshutdown | shutdownReleasedHere object hshutdown =>
      simp only [hshutdown, shutdownHeld, references, Ledger.left_cons, Ledger.left_nil,
        Ledger.entered_cons, Ledger.entered_nil]
      abel
  | exits hsta =>
      have hmoves := dropped_moves d.pipe
      simp only [hsta, staHeld, shutdownHeld_dropped, add_zero]
      calc references.left d.pipe.dropped.2 +
            (reference d.server.virtualDataObject + pipeHeld d.pipe.dropped.1 +
              shutdownHeld d.shutdown)
          = (references.left d.pipe.dropped.2 + pipeHeld d.pipe.dropped.1) +
              (reference d.server.virtualDataObject + shutdownHeld d.shutdown) := by abel
        _ = _ := by rw [hmoves]; abel
  | destroys =>
      rw [left_releaseDataObject, entered_releaseDataObject]
      simp only [reference, if_true]
      abel

/-- **The books balance** after every run. -/
theorem run_balanced {ok : Dispatcher → Action → Prop} {h : List Obs} {d : Dispatcher}
    (hrun : machine.Run ok {} h d) : references.Balanced h d :=
  Ledger.balanced_of_run rfl (fun _ _ _ _ _ hstep => step_moves hstep) hrun

/-! ## Taken, released and lost -/

/-- Everything that has been lost along a history. -/
def lostIn (h : List Obs) : Multiset DataObject := (h.map lost).sum

theorem count_entered (h : List Obs) (object : DataObject) :
    (references.entered h).count object = taken h object := by
  refine references.count_entered_of_cons (fun h => taken h object) rfl ?_ h
  intro o h
  simp only [taken, List.countP_cons]
  cases o with
  | obtained other | pinned other =>
      by_cases heq : other = object
      · simp [references, Obs.takes, heq, add_comm]
      · simp [references, Obs.takes, heq, Ne.symm heq]
  | read | released | chunkRead | abandoned | enqueued => simp [references, Obs.takes]

theorem count_left (h : List Obs) (object : DataObject) :
    (references.left h).count object = released h object + (lostIn h).count object := by
  refine references.count_left_of_cons
    (fun h => released h object + (lostIn h).count object) rfl ?_ h
  intro o h
  simp only [released, lostIn, List.countP_cons, List.map_cons, List.sum_cons, Multiset.count_add]
  cases o with
  | released other =>
      by_cases heq : other = object
      · simp [references, Obs.releases, lost, heq]
        omega
      · simp [references, Obs.releases, lost, heq, Ne.symm heq]
  | read | obtained | pinned | chunkRead | abandoned | enqueued =>
      simp [references, Obs.releases]
      omega

/-- Nothing is lost along a history exactly if no observation loses
anything. -/
theorem lostIn_eq_zero_iff (h : List Obs) : lostIn h = 0 ↔ ∀ o ∈ h, lost o = 0 := by
  induction h with
  | nil => simp [lostIn]
  | cons o h ih =>
      have hcons : lostIn (o :: h) = lost o + lostIn h := by simp [lostIn]
      rw [hcons, add_eq_zero, ih]
      simp

/-- **The condition**: no descriptor without items is read, and no pinned
request is dropped with the queue of the STA thread. -/
def NothingLost (h : List Obs) : Prop :=
  (∀ c, .read c ∈ h → ¬ EmptyDescriptor c) ∧ ∀ object, .abandoned object ∉ h

theorem nothingLost_iff (h : List Obs) : NothingLost h ↔ lostIn h = 0 := by
  rw [lostIn_eq_zero_iff]
  constructor
  · intro ⟨hread, habandoned⟩ o hmem
    cases o with
    | read c => exact (lostByRead_eq_zero_iff c).mpr (hread c hmem)
    | abandoned object => exact absurd hmem (habandoned object)
    | obtained | pinned | released | chunkRead | enqueued => rfl
  · intro hall
    refine ⟨fun c hmem => (lostByRead_eq_zero_iff c).mp (hall _ hmem), ?_⟩
    intro object hmem
    exact absurd (hall _ hmem) (by simp [lost])

/-! ## Released exactly once -/

/-- `ReadVirtualFileChunk` is called on an object of which the helper holds a
reference. -/
def ReadsHeld (before : List Obs) : Obs → Prop
  | .chunkRead object => released before object < taken before object
  | _ => True

/-- A held reference has been taken and not released. -/
theorem released_lt_of_held {h : List Obs} {d : Dispatcher} {object : DataObject}
    (hbalanced : references.Balanced h d) (hheld : object ∈ references.held d) :
    released h object < taken h object := by
  have hpos := Multiset.one_le_count_iff_mem.mpr hheld
  rw [← count_entered, ← hbalanced, Multiset.count_add, count_left]
  omega

/-- A chunk is read from a pinned object. -/
theorem step_chunkRead {d d' : Dispatcher} {a : Action} {os : List Obs} {object : DataObject}
    (h : machine.step d a = some (d', os)) (hmem : .chunkRead object ∈ os) :
    os = [.chunkRead object] ∧ d.pipe = .pinned object true := by
  have hnotRead : ∀ c, Obs.chunkRead object ∉ Obs.read c :: (readClipboard c).1 := by
    intro c hin
    have hreading := reading c
    generalize (readClipboard c).1 = os at hreading hin
    generalize (readClipboard c).2 = result at hreading
    cases hreading <;> simp at hin
  have hnotRelease : ∀ other, Obs.chunkRead object ∉ releaseDataObject other := by
    intro other hin
    unfold releaseDataObject at hin
    split at hin <;> simp at hin
  cases step_cases h with
  | chunkReads other hpipe =>
      cases List.mem_singleton.mp hmem
      exact ⟨rfl, hpipe⟩
  | pipeGot c | pipeGotNothing c | staGot c | staGotNothing c => exact absurd hmem (hnotRead c)
  | pipeUpdated snap hpipe =>
      unfold updateReleases at hmem
      split at hmem
      · exact absurd hmem (hnotRelease _)
      · cases hmem
  | staUpdated snap hsta =>
      unfold updateReleases at hmem
      split at hmem
      · exact absurd hmem (hnotRelease _)
      · cases hmem
  | pipeEnqueued accepted | staEnqueued accepted =>
      cases accepted <;> simp [enqueue] at hmem
  | exits hsta =>
      cases hpipe : d.pipe with
      | reading queued => cases queued <;> simp [hpipe, PipeThread.dropped] at hmem
      | pinned other queued => cases queued <;> simp [hpipe, PipeThread.dropped] at hmem
      | idle | got | updated | unpinning => simp [hpipe, PipeThread.dropped] at hmem
  | destroys => exact absurd hmem (hnotRelease _)
  | asked | readSubmitted | pinSubmitted | pins | servedHere | unpins | takes |
      shutdownSubmitted | shutdownReleased | shutdownReleasedHere => simp at hmem

/-- **Chunks are read from objects that are held.** -/
theorem chunk_reads_held {ok : Dispatcher → Action → Prop} {h : List Obs} {d : Dispatcher}
    (hrun : machine.Run ok {} h d) : Whenever ReadsHeld h := by
  have hinit : references.Balanced [] ({} : Dispatcher) := rfl
  have hboth : references.Balanced h d ∧ Whenever ReadsHeld h := by
    refine hrun.history_invariant
      (fun h d => references.Balanced h d ∧ Whenever ReadsHeld h) ⟨hinit, Whenever.nil⟩ ?_
    intro h d a d' os hi _ hstep
    refine ⟨hi.1.step (step_moves hstep), hi.2.append ?_⟩
    intro before o after heq
    cases o with
    | chunkRead object =>
        have hmem : Obs.chunkRead object ∈ os := by
          rw [heq]
          simp
        obtain ⟨hos, hpipe⟩ := step_chunkRead hstep hmem
        obtain ⟨rfl, -⟩ : before = [] ∧ after = [] := by
          rw [hos] at heq
          cases before with
          | nil => simpa using heq
          | cons b rest => simp at heq
        rw [List.append_nil]
        exact released_lt_of_held hi.1 (by simp [references, hpipe, pipeHeld])
    | read | obtained | pinned | released | abandoned | enqueued => trivial
  exact hboth.2

/-- No thread is in the middle of anything. -/
def AtRest (d : Dispatcher) : Prop :=
  d.pipe = .idle ∧ (d.sta = .free ∨ d.sta = .gone) ∧ d.shutdown = .idle

/-- **The inbound object is released once.**  In every run: no object is
released more often than it was taken, chunks are read from objects that are
held, and when no thread is in the middle of anything and shutdown has taken
the object, every reference has been released exactly if nothing was lost. -/
theorem inbound_released_once_iff {h : List Obs} {d : Dispatcher}
    (hrun : machine.Run Machine.always {} h d) :
    (∀ object, released h object ≤ taken h object) ∧ Whenever ReadsHeld h ∧
      (AtRest d → d.server.virtualDataObject = 0 →
        ((∀ object, released h object = taken h object) ↔ NothingLost h)) := by
  have hbalanced := run_balanced hrun
  have hcount : ∀ object, released h object + (lostIn h).count object +
      (references.held d).count object = taken h object := by
    intro object
    rw [← count_entered, ← hbalanced, Multiset.count_add, count_left]
  refine ⟨?_, chunk_reads_held hrun, ?_⟩
  · intro object
    have hsum := hcount object
    omega
  · intro ⟨hpipe, hsta, hshutdown⟩ hnull
    have hnone : references.held d = 0 := by
      have hnothing : staHeld d.sta = 0 := by
        rcases hsta with hsta | hsta <;> rw [hsta] <;> rfl
      simp [references, hnull, reference, hpipe, pipeHeld, hnothing, hshutdown, shutdownHeld]
    rw [nothingLost_iff]
    constructor
    · intro hall
      refine Multiset.eq_zero_of_forall_notMem ?_
      intro object hmem
      have hsum := hcount object
      have hpos := Multiset.one_le_count_iff_mem.mpr hmem
      rw [hnone, Multiset.count_zero, ← hall object] at hsum
      omega
    · intro hzero object
      have hsum := hcount object
      rw [hnone, hzero, Multiset.count_zero] at hsum
      omega

/-- Another application offers so many virtual files, as object `7`. -/
def virtualCopy (cItems : UInt32) : Clipboard where
  descriptorAvailable := true
  ole := { object := 7, descriptor := some ⟨cItems, 1000000, fun _ => { name := [97] }⟩ }

/-- One virtual file is copied, a chunk of it is read, and the helper shuts
down. -/
def copyReadShutDown : List Action :=
  [.clipboardUpdate (virtualCopy 1), .staUpdate, .staEnqueue true, .chunkRequest [48], .submit,
    .staReadChunk, .unpin, .take, .shutdownSubmit, .shutdownRun]

/-- The references along a history, without the rest. -/
def Obs.reference? : Obs → Option (Bool × DataObject)
  | .obtained object | .pinned object => some (true, object)
  | .released object => some (false, object)
  | _ => none

/-- Tells that an observation loses nothing. -/
def Obs.losesNothing : Obs → Bool
  | .read c => c.ole.descriptor.map (fun d => d.cItems) != some 0
  | .abandoned _ => false
  | _ => true

theorem nothingLost_of_test {h : List Obs} (htest : h.all Obs.losesNothing = true) :
    NothingLost h := by
  rw [List.all_eq_true] at htest
  constructor
  · intro c hmem hempty
    obtain ⟨-, -, -, -, -, d, hd, hzero⟩ := hempty
    have hpass := htest _ hmem
    simp [Obs.losesNothing, hd, hzero] at hpass
  · intro object hmem
    have hpass := htest _ hmem
    cases hpass

theorem inbound_released_once_iff_chunk :
    ∃ h d, machine.Run Machine.always {} h d ∧
      h.filterMap Obs.reference? = [(true, 7), (true, 7), (false, 7), (false, 7)] ∧
      ∀ object, released h object = taken h object := by
  have hexec : (machine.exec {} copyReadShutDown).map
      (fun r => (r.2.filterMap Obs.reference?, r.2.all Obs.losesNothing, r.1.pipe, r.1.sta,
        r.1.shutdown, r.1.server.virtualDataObject)) =
      some ([(true, 7), (true, 7), (false, 7), (false, 7)], true, .idle, .free, .idle, 0) := by
    decide
  obtain ⟨h, d, hrun, hobs⟩ := Machine.Run.of_exec_map hexec
  obtain ⟨hreferences, htest, hpipe, hsta, hshutdown, hnull⟩ := by
    simpa only [Prod.mk.injEq] using hobs
  exact ⟨h, d, hrun, hreferences,
    ((inbound_released_once_iff hrun).2.2 ⟨hpipe, .inl hsta, hshutdown⟩ hnull).mpr
      (nothingLost_of_test htest)⟩

/-- **An empty descriptor leaks**: no files are named, so the update leaves
the reference where nobody releases it. -/
theorem empty_descriptor_leaks :
    ∃ h d, machine.Run Machine.always {} h d ∧ AtRest d ∧ d.server.virtualDataObject = 0 ∧
      taken h 7 = 1 ∧ released h 7 = 0 := by
  have hexec : (machine.exec {} [.clipboardUpdate (virtualCopy 0), .staUpdate, .staEnqueue true,
      .take]).map (fun r => (r.1, taken r.2 7, released r.2 7)) = some ({}, 1, 0) := by decide
  obtain ⟨h, d, hrun, hobs⟩ := Machine.Run.of_exec_map hexec
  obtain ⟨rfl, htaken, hreleased⟩ := by simpa only [Prod.mk.injEq] using hobs
  exact ⟨h, _, hrun, ⟨rfl, .inl rfl, rfl⟩, rfl, htaken, hreleased⟩

end InboundObject
