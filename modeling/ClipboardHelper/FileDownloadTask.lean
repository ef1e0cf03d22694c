import ClipboardHelper.Library.Machine
import ClipboardHelper.Library.SparseFile

/-!
# One file download of the macOS helper

`FileDownloadTask` of `FileTransferCoordinator.swift`, method by method.  All
methods run on the coordinator's serial queue, so a task is a machine that
takes one event at a time: a `FILE_CHUNK_DATA` reply or a cancellation.

* Swift's checked arithmetic traps.  A trap ends the process and is `none`.
* The requests sent, the positioned writes that succeeded and the values
  handed to the completion are the observations a step emits.
* The file system decides whether the destination can be created and opened
  and whether a write throws; these answers are arguments.

`Awaiting` is the shape of every unfinished task that has only seen
well-formed replies: after `k` of them it has asked for the first `k + 4`
grid slots and counts `min 4 (n - k)` of them as outstanding, where `n` is
the number of slots.  `handleChunkData_reply` is the one lemma about the
method body that later proofs use.
-/

namespace FileDownloadTask

open Library

/-- A Swift `String`, as its Unicode scalars. -/
abbrev Ident := List Char

def kDefaultChunkSize : Nat := 256 * 1024

def kPipelineDepth : Nat := 4

inductive FileDownloadError where
  | createFailed (path : String)
  | writeFailed (reason : String)
  | serverError (reason : String)
  | cancelled
  deriving DecidableEq, Repr

/-- `Leviathan_HelperFileChunkData`. -/
structure FileChunkData where
  transferID : Ident
  fileID : Ident
  offset : Nat
  data : List UInt8
  isLast : Bool := false
  error : String := ""
  deriving DecidableEq, Repr

/-- What a task does to the outside world. -/
inductive Effect where
  | request (offset : Nat)
  | write (offset : Nat) (data : List UInt8)
  | completion (error : Option FileDownloadError)
  deriving DecidableEq, Repr

/-- The stored properties of the class, with `file` for what is on disk at
`destURL` (`none` while no file is there) and `sendRequest`, `fileHandle`
reduced to whether the optional is set. -/
structure Task where
  transferID : Ident
  fileID : Ident
  fileSize : Nat
  destPath : String
  fileHandle : Bool := false
  receivedBytes : Nat := 0
  nextRequestOffset : Nat := 0
  inFlight : Nat := 0
  isCancelled : Bool := false
  isFinished : Bool := false
  sendRequest : Bool := false
  file : Option (List UInt8) := none
  deriving DecidableEq, Repr

/-- The result of a method: the task and its effects, or a trap. -/
abbrev Outcome := Option (Task × List Effect)

/-- `init`.  `Int64(max(fileSize, 1))` traps above `Int64.max`. -/
def init (transferID fileID : Ident) (fileSize : Nat) (destPath : String) : Option Task :=
  if max fileSize 1 < 2 ^ 63 then
    some { transferID, fileID, fileSize, destPath }
  else none

/-- `finish`, idempotent by its own flag. -/
def finish (t : Task) (error : Option FileDownloadError) : Task × List Effect :=
  if t.isFinished then (t, [])
  else ({ t with isFinished := true, fileHandle := false }, [.completion error])

/-- The `while` of `primeRequests`; `fuel` bounds its iterations. -/
def primeLoop : Nat → Task → Outcome
  | 0, t => some (t, [])
  | fuel + 1, t =>
    if t.inFlight < kPipelineDepth ∧ t.nextRequestOffset < t.fileSize then
      -- the `+=` on `UInt64` traps on overflow
      if t.nextRequestOffset + kDefaultChunkSize < 2 ^ 64 then
        match primeLoop fuel
          { t with
            nextRequestOffset := t.nextRequestOffset + kDefaultChunkSize
            inFlight := t.inFlight + 1 } with
        | some (t', es) => some (t', .request t.nextRequestOffset :: es)
        | none => none
      else none
    else some (t, [])

/-- `primeRequests`.  Each turn of its loop raises `inFlight` by one and needs
it below `kPipelineDepth`, so the difference is enough fuel. -/
def primeRequests (t : Task) : Outcome :=
  if t.sendRequest then primeLoop (kPipelineDepth - t.inFlight) t else some (t, [])

/-- `start`.  `createOk` and `openOk` are the answers of `createFile` and of
`FileHandle(forWritingTo:)`. -/
def start (t : Task) (createOk openOk : Bool) : Outcome :=
  let t := { t with sendRequest := true }
  let t := if createOk then { t with file := some [] } else t
  if t.fileSize = 0 then some (finish t none)
  else if openOk then primeRequests { t with fileHandle := true }
  else some (finish { t with file := none } (some (.createFailed t.destPath)))

/-- Seek and write through the optional file handle. -/
def writeChunk (t : Task) (chunk : FileChunkData) : Task × List Effect :=
  if t.fileHandle then
    ({ t with file := t.file.map (fun f => writeAt 0 f chunk.offset chunk.data) },
      [.write chunk.offset chunk.data])
  else (t, [])

/-- The tail of `handleChunkData` after a successful write: the byte counters
with their traps, then completion or the next requests. -/
def accountChunk (t : Task) (chunk : FileChunkData) : Outcome :=
  let received := t.receivedBytes + chunk.data.length
  if received < 2 ^ 63 then
    let t := { t with receivedBytes := received }
    if t.fileSize ≤ t.nextRequestOffset ∧ t.inFlight = 0 then some (finish t none)
    else primeRequests t
  else none

/-- `handleChunkData`.  `ioError` is the error the seek or the write throws,
if any. -/
def handleChunkData (t : Task) (chunk : FileChunkData) (ioError : Option String) : Outcome :=
  if t.isCancelled || t.isFinished then some (t, [])
  else
    let t := { t with inFlight := t.inFlight - 1 }
    if chunk.error ≠ "" then some (finish t (some (.serverError chunk.error)))
    else if chunk.data = [] then
      some (finish t (some (.serverError
        ("empty chunk reply at offset " ++ toString chunk.offset ++ " (truncation)"))))
    else
      match ioError with
      | some reason => some (finish t (some (.writeFailed reason)))
      | none =>
        let (t, written) := writeChunk t chunk
        match accountChunk t chunk with
        | some (t', es) => some (t', written ++ es)
        | none => none

/-- `cancel`. -/
def cancel (t : Task) : Task × List Effect :=
  finish { t with isCancelled := true } (some .cancelled)

/-- What reaches a started task on the coordinator's queue. -/
inductive Event where
  | chunk (chunk : FileChunkData) (ioError : Option String)
  | cancel
  deriving DecidableEq, Repr

/-- A started task as a machine. -/
def taskMachine : Machine Task Event Effect where
  step t
    | .chunk chunk ioError => handleChunkData t chunk ioError
    | .cancel => some (cancel t)

/-! ## The chunk grid -/

/-- Number of grid slots `0, c, 2c, …` below `size`. -/
def gridSlots (size : Nat) : Nat := (size + kDefaultChunkSize - 1) / kDefaultChunkSize

/-- A grid offset lies inside the file exactly when its index is a slot. -/
theorem grid_lt_iff (size m : Nat) :
    kDefaultChunkSize * m < size ↔ m < gridSlots size := by
  simp only [gridSlots, kDefaultChunkSize]
  omega

theorem gridSlots_pos {size : Nat} (h : 0 < size) : 0 < gridSlots size :=
  (grid_lt_iff size 0).mp (by simpa using h)

/-- A finished task ignores every further reply. -/
theorem handleChunkData_finished {t : Task} (h : t.isFinished = true)
    (chunk : FileChunkData) (ioError : Option String) :
    handleChunkData t chunk ioError = some (t, []) := by
  simp [handleChunkData, h]

/-- The loop asks for consecutive slots until the window is full or the file
is exhausted. -/
theorem primeLoop_eq (fuel : Nat) (t : Task) (m : Nat)
    (hnext : t.nextRequestOffset = kDefaultChunkSize * m)
    (hfuel : t.inFlight + fuel = kPipelineDepth) (hsize : t.fileSize < 2 ^ 63) :
    primeLoop fuel t =
      some ({ t with
          nextRequestOffset := kDefaultChunkSize * (m + min fuel (gridSlots t.fileSize - m))
          inFlight := t.inFlight + min fuel (gridSlots t.fileSize - m) },
        (List.range' m (min fuel (gridSlots t.fileSize - m))).map
          (fun i => .request (kDefaultChunkSize * i))) := by
  induction fuel generalizing t m with
  | zero => simp [primeLoop, ← hnext]
  | succ fuel ih =>
      have hslot := grid_lt_iff t.fileSize m
      by_cases hmore : m < gridSlots t.fileSize
      · have hlt : t.nextRequestOffset < t.fileSize := by
          rw [hnext]
          exact hslot.mpr hmore
        have hmin : min (fuel + 1) (gridSlots t.fileSize - m) =
            min fuel (gridSlots t.fileSize - (m + 1)) + 1 := by omega
        have hroom : t.inFlight < kPipelineDepth := by omega
        have hnotrap : t.nextRequestOffset + kDefaultChunkSize < 2 ^ 64 := by
          simp only [kDefaultChunkSize]
          omega
        have hrest := ih
          { t with
            nextRequestOffset := t.nextRequestOffset + kDefaultChunkSize
            inFlight := t.inFlight + 1 } (m + 1)
          (by
            show t.nextRequestOffset + kDefaultChunkSize = kDefaultChunkSize * (m + 1)
            rw [hnext, Nat.mul_succ])
          (by
            show t.inFlight + 1 + fuel = kPipelineDepth
            omega) hsize
        have hslots : m + 1 + min fuel (gridSlots t.fileSize - (m + 1)) =
            m + (min fuel (gridSlots t.fileSize - (m + 1)) + 1) := by omega
        have hcount : t.inFlight + 1 + min fuel (gridSlots t.fileSize - (m + 1)) =
            t.inFlight + (min fuel (gridSlots t.fileSize - (m + 1)) + 1) := by omega
        simp only [primeLoop, hroom, hlt, and_self, if_true, hnotrap, hrest, hmin, hslots,
          hcount]
        rw [List.range'_succ, List.map_cons, ← hnext]
      · have hge : ¬ t.nextRequestOffset < t.fileSize := by
          rw [hnext]
          exact fun h => hmore (hslot.mp h)
        have hmin : min (fuel + 1) (gridSlots t.fileSize - m) = 0 := by omega
        simp [primeLoop, hge, hmin, ← hnext]

/-- The bookkeeping of an unfinished task that has processed `k` well-formed
replies. -/
structure Awaiting (size k : Nat) (t : Task) : Prop where
  fileSize : t.fileSize = size
  fileHandle : t.fileHandle = true
  sendRequest : t.sendRequest = true
  notCancelled : t.isCancelled = false
  notFinished : t.isFinished = false
  next : t.nextRequestOffset =
    kDefaultChunkSize * min (gridSlots size) (k + kPipelineDepth)
  inFlight : t.inFlight = min kPipelineDepth (gridSlots size - k)

/-- A reply with data and no error whose write goes through. -/
def FileChunkData.WellFormed (chunk : FileChunkData) : Prop :=
  chunk.error = "" ∧ chunk.data ≠ []

instance (chunk : FileChunkData) : Decidable chunk.WellFormed := by
  unfold FileChunkData.WellFormed; infer_instance

/-- The positioned block a reply writes. -/
def FileChunkData.block (chunk : FileChunkData) : Block UInt8 := (chunk.offset, chunk.data)

/-- The request that the `k`-th reply triggers, if the grid goes that far. -/
def nextRequests (size k : Nat) : List Effect :=
  if k + kPipelineDepth < gridSlots size then
    [.request (kDefaultChunkSize * (k + kPipelineDepth))]
  else []

/-- **Starting.**  A nonempty file whose destination opens is asked for from
its first slots on. -/
theorem start_awaiting {transferID fileID : Ident} {size : Nat} {destPath : String}
    {t : Task} (hinit : init transferID fileID size destPath = some t) (hpos : 0 < size) :
    ∃ t', start t true true = some (t',
        (List.range (min kPipelineDepth (gridSlots size))).map
          (fun i => .request (kDefaultChunkSize * i))) ∧
      Awaiting size 0 t' ∧ t'.file = some [] ∧ t'.receivedBytes = 0 := by
  unfold init at hinit
  split at hinit
  · rename_i hsize
    have hsize' : size < 2 ^ 63 := by omega
    have hne : size ≠ 0 := by omega
    cases hinit
    have hloop := primeLoop_eq kPipelineDepth
      { transferID, fileID, fileSize := size, destPath, sendRequest := true,
        file := some [], fileHandle := true } 0 rfl rfl hsize'
    simp only [Nat.sub_zero, Nat.zero_add, ← List.range_eq_range'] at hloop
    refine ⟨_, by simpa [start, hne, primeRequests] using hloop, ?_, rfl, rfl⟩
    constructor <;> simp [Nat.min_comm]
  · cases hinit

/-- The effects of the reply that follows `k` earlier ones. -/
def replyEffects (size k : Nat) (chunk : FileChunkData) : List Effect :=
  .write chunk.offset chunk.data ::
    if k + 1 = gridSlots size then [.completion none] else nextRequests size k

/-- The window after one more reply, while the grid has slots left to ask
for. -/
theorem window_open {n k f : Nat} (hf : f = min kPipelineDepth (n - k) - 1)
    (hgrid : k + kPipelineDepth < n) :
    min (kPipelineDepth - f) (n - min n (k + kPipelineDepth)) = 1 ∧
      min n (k + kPipelineDepth) = k + kPipelineDepth ∧
      min n (k + 1 + kPipelineDepth) = k + kPipelineDepth + 1 ∧
      min kPipelineDepth (n - (k + 1)) = f + 1 := by
  have hdepth : kPipelineDepth = 4 := rfl
  omega

/-- The window after one more reply, once the whole grid is requested. -/
theorem window_closed {n k f : Nat} (hf : f = min kPipelineDepth (n - k) - 1)
    (hmore : k + 1 < n) (hgrid : ¬ k + kPipelineDepth < n) :
    min (kPipelineDepth - f) (n - min n (k + kPipelineDepth)) = 0 ∧
      min n (k + 1 + kPipelineDepth) = min n (k + kPipelineDepth) ∧
      min kPipelineDepth (n - (k + 1)) = f := by
  have hdepth : kPipelineDepth = 4 := rfl
  omega

/-- Topping up after a reply: one more slot, or nothing once the whole grid
has been requested. -/
theorem primeRequests_after_reply {size k : Nat} {t : Task}
    (hsize : t.fileSize = size) (hbound : size < 2 ^ 63) (hsender : t.sendRequest = true)
    (hmore : k + 1 < gridSlots size)
    (hnext : t.nextRequestOffset =
      kDefaultChunkSize * min (gridSlots size) (k + kPipelineDepth))
    (hflight : t.inFlight = min kPipelineDepth (gridSlots size - k) - 1) :
    primeRequests t =
      some ({ t with
          nextRequestOffset :=
            kDefaultChunkSize * min (gridSlots size) (k + 1 + kPipelineDepth)
          inFlight := min kPipelineDepth (gridSlots size - (k + 1)) },
        nextRequests size k) := by
  have hfuel : t.inFlight + (kPipelineDepth - t.inFlight) = kPipelineDepth :=
    Nat.add_sub_cancel' (by
      rw [hflight]
      exact (Nat.sub_le _ _).trans (min_le_left _ _))
  have hloop := primeLoop_eq (kPipelineDepth - t.inFlight) t
    (min (gridSlots size) (k + kPipelineDepth)) hnext hfuel (hsize ▸ hbound)
  rw [primeRequests, if_pos hsender, hloop, hsize]
  by_cases hgrid : k + kPipelineDepth < gridSlots size
  · obtain ⟨hone, hslot, hslot', hflight'⟩ := window_open hflight hgrid
    rw [hone, hslot, hslot', hflight']
    simp [nextRequests, hgrid]
  · obtain ⟨hnone, hslot', hflight'⟩ := window_closed hflight hmore hgrid
    rw [hnone, hslot', hflight']
    simp [nextRequests, hgrid]

/-- Accounting for the reply that answers the last outstanding request. -/
theorem accountChunk_last {t : Task} {chunk : FileChunkData}
    (hroom : t.receivedBytes + chunk.data.length < 2 ^ 63)
    (hdone : t.fileSize ≤ t.nextRequestOffset ∧ t.inFlight = 0)
    (hopen : t.isFinished = false) :
    accountChunk t chunk =
      some ({ t with
        receivedBytes := t.receivedBytes + chunk.data.length
        isFinished := true
        fileHandle := false }, [.completion none]) := by
  unfold accountChunk
  rw [if_pos hroom]
  simp only [hdone, and_self, if_true, finish, hopen]
  rfl

/-- Accounting for any earlier reply tops up the window. -/
theorem accountChunk_more {t : Task} {chunk : FileChunkData}
    (hroom : t.receivedBytes + chunk.data.length < 2 ^ 63)
    (hmore : ¬ (t.fileSize ≤ t.nextRequestOffset ∧ t.inFlight = 0)) :
    accountChunk t chunk =
      primeRequests { t with receivedBytes := t.receivedBytes + chunk.data.length } := by
  unfold accountChunk
  rw [if_pos hroom]
  exact if_neg hmore

/-- The task after a well-formed reply has been written, before the counters
are looked at. -/
def afterWrite (t : Task) (chunk : FileChunkData) : Task :=
  { t with
    inFlight := t.inFlight - 1
    file := t.file.map (fun f => writeAt 0 f chunk.offset chunk.data) }

/-- A well-formed reply to an awaiting task is written and then accounted. -/
theorem handleChunkData_wellFormed {size k : Nat} {t : Task} {chunk : FileChunkData}
    (ht : Awaiting size k t) (hwf : chunk.WellFormed) :
    handleChunkData t chunk none =
      (accountChunk (afterWrite t chunk) chunk).map
        (fun r => (r.1, .write chunk.offset chunk.data :: r.2)) := by
  have hwrite : writeChunk { t with inFlight := t.inFlight - 1 } chunk =
      (afterWrite t chunk, [.write chunk.offset chunk.data]) := by
    simp [writeChunk, afterWrite, ht.fileHandle]
  unfold handleChunkData
  rw [if_neg (by simp [ht.notCancelled, ht.notFinished])]
  simp only [hwf.1, hwf.2, hwrite, ne_eq, not_true_eq_false, if_false]
  cases accountChunk (afterWrite t chunk) chunk <;> simp

/-- **One well-formed reply.**  It is written where it says, and it either
finishes the task or leaves it awaiting one slot less. -/
theorem handleChunkData_reply {size k : Nat} {t : Task} {chunk : FileChunkData}
    (ht : Awaiting size k t) (hbound : size < 2 ^ 63) (hk : k < gridSlots size)
    (hwf : chunk.WellFormed) (hroom : t.receivedBytes + chunk.data.length < 2 ^ 63) :
    ∃ t', handleChunkData t chunk none = some (t', replyEffects size k chunk) ∧
      t'.file = t.file.map (fun f => writeAt 0 f chunk.offset chunk.data) ∧
      t'.receivedBytes = t.receivedBytes + chunk.data.length ∧
      if k + 1 = gridSlots size then t'.isFinished = true else Awaiting size (k + 1) t' := by
  have hdepth : kPipelineDepth = 4 := rfl
  have hflight := ht.inFlight
  rw [handleChunkData_wellFormed ht hwf]
  by_cases hlast : k + 1 = gridSlots size
  · -- the last outstanding reply: everything is requested and the count drops to zero
    have hdone : t.fileSize ≤ t.nextRequestOffset ∧ t.inFlight - 1 = 0 := by
      have hall := (grid_lt_iff size (gridSlots size)).not.mpr (by omega)
      have hmin : min (gridSlots size) (k + kPipelineDepth) = gridSlots size := by omega
      rw [ht.fileSize, ht.next, hmin]
      exact ⟨not_lt.mp hall, by omega⟩
    have hacc := accountChunk_last (t := afterWrite t chunk) hroom hdone ht.notFinished
    refine ⟨_, by rw [hacc, replyEffects, if_pos hlast]; rfl, rfl, rfl, ?_⟩
    rw [if_pos hlast]
  · have hopen : ¬ (t.fileSize ≤ t.nextRequestOffset ∧ t.inFlight - 1 = 0) := by
      intro h
      omega
    have hacc := (accountChunk_more (t := afterWrite t chunk) hroom hopen).trans
      (primeRequests_after_reply ht.fileSize hbound ht.sendRequest (by omega) ht.next (by
        show t.inFlight - 1 = _
        omega))
    refine ⟨_, by rw [hacc, replyEffects, if_neg hlast]; rfl, rfl, rfl, ?_⟩
    rw [if_neg hlast]
    exact ⟨ht.fileSize, ht.fileHandle, ht.sendRequest, ht.notCancelled, ht.notFinished,
      rfl, rfl⟩

/-- A well-formed reply that would push the progress count past `Int64.max`
traps. -/
theorem handleChunkData_trap {size k : Nat} {t : Task} {chunk : FileChunkData}
    (ht : Awaiting size k t) (hwf : chunk.WellFormed)
    (hfull : ¬ t.receivedBytes + chunk.data.length < 2 ^ 63) :
    handleChunkData t chunk none = none := by
  have hacc : accountChunk (afterWrite t chunk) chunk = none := if_neg hfull
  rw [handleChunkData_wellFormed ht hwf, hacc, Option.map_none]

/-- **One malformed reply.**  An error or an empty reply fails the download. -/
theorem handleChunkData_malformed {size k : Nat} {t : Task} {chunk : FileChunkData}
    (ht : Awaiting size k t) (hwf : ¬ chunk.WellFormed) :
    ∃ t' error, handleChunkData t chunk none = some (t', [.completion (some error)]) ∧
      t'.isFinished = true := by
  by_cases herr : chunk.error = ""
  · have hdata : chunk.data = [] := by
      by_contra hne
      exact hwf ⟨herr, hne⟩
    simp [handleChunkData, ht.notCancelled, ht.notFinished, herr, hdata, finish]
  · simp [handleChunkData, ht.notCancelled, ht.notFinished, herr, finish]

end FileDownloadTask
