import ClipboardHelper.DownloadIntegrity

/-!
# How a download ends

`writePromiseTo` of `FilePromiseHandler.swift` starts the download of one
file; what follows is a list of replies, failed writes and cancellations.
This file says for every such list how the download ends.

* `written` are the leading replies that reach the disk.  They decide the end
  (`exec_awaiting`): a trap, a success once every slot of the grid has one, an
  error at the event that is not among them.
* `promise_traps_iff` is about the conversions on the way: `writePromiseTo`
  clamps the size before it makes an `Int64` of it, `FileDownloadTask.init`
  does not, and the count of received bytes is not bounded by the size.
* `leaves_no_file_iff` is about the destination: only an open that fails
  removes the file that `start` has put there.
-/

namespace FileDownloadTask

open Library

/-! ## The promise -/

/-- `Int64(_:)` of a `UInt64`, which traps. -/
def int64 (n : Nat) : Option Nat := if n < 2 ^ 63 then some n else none

/-- `UInt64(_:)` of an `Int64`, which traps. -/
def uint64 (n : Int) : Option Nat := if 0 ≤ n then some n.toNat else none

/-- The entries of `userInfo`, each if it is there and of its type. -/
structure PromiseInfo where
  fileID : Option Ident
  transferID : Option Ident
  fileSize : Option UInt64
  deriving DecidableEq, Repr

inductive FilePromiseError where
  | malformedUserInfo
  | coordinatorUnavailable
  deriving DecidableEq, Repr

/-- The answers of `createFile` and of `FileHandle(forWritingTo:)`. -/
structure Disk where
  createOk : Bool := true
  openOk : Bool := true
  deriving DecidableEq, Repr

/-- `startFileDownload` up to the start of the task on the queue. -/
def startOn (disk : Disk) (transferID fileID : Ident) (size : Nat) (destPath : String) :
    Outcome :=
  match init transferID fileID size destPath with
  | none => none
  | some t => start t disk.createOk disk.openOk

/-- What observes `fractionCompleted` of the published progress: the count
and the total for the panel. -/
def onFractionCompleted (completedUnitCount totalUnitCount : Int64) : Option (Nat × Nat) :=
  match uint64 (max completedUnitCount.toInt 0), uint64 (max totalUnitCount.toInt 0) with
  | some transferred, some total => some (transferred, total)
  | _, _ => none

/-- `writePromiseTo`: the total of the published progress and the started
task, or the error for the completion handler. -/
def writePromiseTo (info : PromiseInfo) (coordinator : Bool) (destPath : String) (disk : Disk) :
    Option (Except FilePromiseError (Nat × Task × List Effect)) :=
  match info.fileID, info.transferID, info.fileSize with
  | some fileID, some transferID, some fileSize =>
    if coordinator then
      match int64 (min fileSize.toNat (2 ^ 63 - 1)) with
      | none => none
      | some totalUnits =>
        match startOn disk transferID fileID fileSize.toNat destPath with
        | none => none
        | some (t, es) => some (.ok (max totalUnits 1, t, es))
    else some (.error .coordinatorUnavailable)
  | _, _, _ => some (.error .malformedUserInfo)

/-- A started download that has been handed `events`, with all of its effects
since the start. -/
def downloadOn (disk : Disk) (transferID fileID : Ident) (size : Nat) (destPath : String)
    (events : List Event) : Outcome :=
  match startOn disk transferID fileID size destPath with
  | none => none
  | some (t, es) => (taskMachine.exec t events).map (fun r => (r.1, es ++ r.2))

/-! ## The replies that are written -/

/-- The leading replies that are well formed and whose seek and write go
through, at most `n` of them. -/
def written : Nat → List Event → List FileChunkData
  | n + 1, .chunk chunk none :: events =>
    if chunk.WellFormed then chunk :: written n events else []
  | _, _ => []

/-- The event is a reply that is written. -/
def Event.isWritten : Event → Bool
  | .chunk reply none => reply.WellFormed
  | _ => false

theorem written_cons {n : Nat} {chunk : FileChunkData} (hwf : chunk.WellFormed)
    (events : List Event) :
    written (n + 1) (.chunk chunk none :: events) = chunk :: written n events := by
  simp [written, hwf]

theorem written_failed {n : Nat} {e : Event} (hfail : e.isWritten = false)
    (events : List Event) : written n (e :: events) = [] := by
  cases n with
  | zero => rfl
  | succ n =>
      cases e with
      | cancel => rfl
      | chunk chunk ioError =>
          cases ioError with
          | some reason => rfl
          | none =>
              have hwf : ¬ chunk.WellFormed := by simpa [Event.isWritten] using hfail
              simp [written, hwf]

/-- The task stops before the grid is written: an event arrives that is not
written. -/
def StopsEarly (n : Nat) (events : List Event) : Prop :=
  (written n events).length < n ∧ (written n events).length < events.length

instance (n : Nat) (events : List Event) : Decidable (StopsEarly n events) := by
  unfold StopsEarly; infer_instance

theorem stopsEarly_cons {n : Nat} {chunk : FileChunkData} (hwf : chunk.WellFormed)
    (events : List Event) :
    StopsEarly (n + 1) (.chunk chunk none :: events) ↔ StopsEarly n events := by
  simp [StopsEarly, written_cons hwf]

theorem stopsEarly_failed {n : Nat} {e : Event} (hfail : e.isWritten = false)
    (events : List Event) : StopsEarly (n + 1) (e :: events) := by
  simp [StopsEarly, written_failed hfail]

/-- What the completion has been called with after `events`, for a task that
awaits `n` more replies. -/
def Ends (n : Nat) (events : List Event) (completions : List (Option FileDownloadError)) : Prop :=
  if (written n events).length = n then completions = [none]
  else if StopsEarly n events then ∃ error, completions = [some error]
  else completions = []

/-! ## Every list of events -/

/-- A finished task stays as it is on disk and says nothing more. -/
theorem exec_of_finished (events : List Event) :
    ∀ {t : Task}, t.isFinished = true →
      ∃ t', taskMachine.exec t events = some (t', []) ∧ t'.file = t.file := by
  induction events with
  | nil =>
      intro t _
      exact ⟨t, rfl, rfl⟩
  | cons e events ih =>
      intro t hfinished
      cases e with
      | chunk chunk ioError =>
          have hstep : taskMachine.step t (.chunk chunk ioError) = some (t, []) :=
            handleChunkData_finished hfinished chunk ioError
          obtain ⟨t', hexec, hfile⟩ := ih hfinished
          exact ⟨t', by simp [Machine.exec, hstep, hexec], hfile⟩
      | cancel =>
          have hstep : taskMachine.step t .cancel = some ({ t with isCancelled := true }, []) := by
            simp [taskMachine, cancel, finish, hfinished]
          obtain ⟨t', hexec, hfile⟩ := ih (t := { t with isCancelled := true }) hfinished
          exact ⟨t', by simp [Machine.exec, hstep, hexec], hfile⟩

/-- **An event that is not written** fails the download and leaves the disk
alone. -/
theorem step_failed {size k : Nat} {t : Task} {e : Event} (ht : Awaiting size k t)
    (hfail : e.isWritten = false) :
    ∃ t' error, taskMachine.step t e = some (t', [.completion (some error)]) ∧
      t'.isFinished = true ∧ t'.file = t.file := by
  cases e with
  | cancel => simp [taskMachine, cancel, finish, ht.notFinished]
  | chunk chunk ioError =>
      by_cases herr : chunk.error = ""
      · by_cases hdata : chunk.data = []
        · simp [taskMachine, handleChunkData, ht.notCancelled, ht.notFinished, herr, hdata, finish]
        · cases ioError with
          | none => simp [Event.isWritten, FileChunkData.WellFormed, herr, hdata] at hfail
          | some reason =>
              simp [taskMachine, handleChunkData, ht.notCancelled, ht.notFinished, herr, hdata,
                finish]
      · simp [taskMachine, handleChunkData, ht.notCancelled, ht.notFinished, herr, finish]

/-- Handing over one more event first. -/
theorem exec_event {t t' : Task} {e : Event} {es : List Effect}
    (h : taskMachine.step t e = some (t', es)) (events : List Event) :
    taskMachine.exec t (e :: events) =
      (taskMachine.exec t' events).map (fun r => (r.1, es ++ r.2)) := by
  simp only [Machine.exec, h]
  cases taskMachine.exec t' events <;> rfl

/-- What `exec_awaiting` says of the rest of the events once the next reply
has been written. -/
theorem Ends.cons {n : Nat} {chunk : FileChunkData} {events : List Event}
    {completions : List (Option FileDownloadError)} (hwf : chunk.WellFormed)
    (h : Ends n events completions) :
    Ends (n + 1) (.chunk chunk none :: events) completions := by
  simpa [Ends, written_cons hwf, stopsEarly_cons hwf] using h

theorem written_nil (n : Nat) : written n [] = [] := by cases n <;> rfl

/-- An event that is not written, and whatever follows it. -/
theorem exec_failed {size k n : Nat} {t : Task} {e : Event} (ht : Awaiting size k t)
    (hfail : e.isWritten = false) (events : List Event) :
    ∃ t' es, taskMachine.exec t (e :: events) = some (t', es) ∧ t'.file.isSome = t.file.isSome ∧
      Ends (n + 1) (e :: events) (completionsOf es) := by
  obtain ⟨t', error, hstep, hfinished, hfile⟩ := step_failed ht hfail
  obtain ⟨t'', hexec, hfile'⟩ := exec_of_finished events hfinished
  rw [exec_event hstep, hexec]
  refine ⟨t'', _, rfl, by rw [hfile', hfile], ?_⟩
  simp [Ends, written_failed hfail, stopsEarly_failed hfail, completionsOf]

/-- The reply for the last slot, and whatever follows it. -/
theorem exec_last {size k : Nat} {t : Task} (hbound : size < 2 ^ 63) (ht : Awaiting size k t)
    (hlast : k + 1 = gridSlots size) {chunk : FileChunkData} (hwf : chunk.WellFormed)
    (hroom : t.receivedBytes + chunk.data.length < 2 ^ 63) (events : List Event) :
    ∃ t' es, taskMachine.exec t (.chunk chunk none :: events) = some (t', es) ∧
      t'.file.isSome = t.file.isSome ∧
      Ends 1 (.chunk chunk none :: events) (completionsOf es) := by
  obtain ⟨t', hstep, hfile, -, hnext⟩ := handleChunkData_reply ht hbound (by omega) hwf hroom
  have hkept : t'.file.isSome = t.file.isSome := by rw [hfile, Option.isSome_map]
  rw [if_pos hlast] at hnext
  obtain ⟨t'', hexec, hfile'⟩ := exec_of_finished events hnext
  rw [exec_event (show taskMachine.step t (.chunk chunk none) = _ from hstep), hexec]
  refine ⟨t'', _, rfl, by rw [hfile', hkept], Ends.cons hwf ?_⟩
  simp [Ends, completionsOf_replyEffects, hlast, show written 0 events = [] from rfl]

/-- **How the events end a download** that awaits them: by a trap when the
written replies carry too much, and otherwise by what `Ends` says, without
removing the file. -/
theorem exec_awaiting {size : Nat} (hbound : size < 2 ^ 63) (events : List Event) :
    ∀ {k : Nat} {t : Task}, Awaiting size k t → k < gridSlots size → t.receivedBytes < 2 ^ 63 →
      if t.receivedBytes + totalBytes (written (gridSlots size - k) events) < 2 ^ 63 then
        ∃ t' es, taskMachine.exec t events = some (t', es) ∧
          t'.file.isSome = t.file.isSome ∧
          Ends (gridSlots size - k) events (completionsOf es)
      else taskMachine.exec t events = none := by
  induction events with
  | nil =>
      intro k t ht hk hreceived
      have hopen : ¬ 0 = gridSlots size - k := by omega
      rw [written_nil, totalBytes, List.map_nil, List.sum_nil, if_pos (by omega)]
      refine ⟨t, [], rfl, rfl, ?_⟩
      simp [Ends, StopsEarly, written_nil, hopen, completionsOf]
  | cons e events ih =>
      intro k t ht hk hreceived
      obtain ⟨n, hn⟩ : ∃ n, gridSlots size - k = n + 1 := ⟨gridSlots size - k - 1, by omega⟩
      rw [hn]
      by_cases hwritten : e.isWritten = true
      · -- one more reply is written, if the counter allows it
        cases e with
        | cancel => cases hwritten
        | chunk chunk ioError =>
          cases ioError with
          | some reason => cases hwritten
          | none =>
            have hwf : chunk.WellFormed := by simpa [Event.isWritten] using hwritten
            rw [written_cons hwf, totalBytes, List.map_cons, List.sum_cons]
            change if t.receivedBytes + (chunk.data.length + totalBytes (written n events)) < 2 ^ 63
              then _ else _
            by_cases hroom : t.receivedBytes + chunk.data.length < 2 ^ 63
            · by_cases hlast : k + 1 = gridSlots size
              · have hzero : n = 0 := by omega
                subst hzero
                rw [show written 0 events = [] from rfl, if_pos (by simpa [totalBytes] using hroom)]
                exact exec_last hbound ht hlast hwf hroom events
              · obtain ⟨t', hstep, hfile, hrecv, hnext⟩ :=
                  handleChunkData_reply ht hbound hk hwf hroom
                have hkept : t'.file.isSome = t.file.isSome := by
                  rw [hfile, Option.isSome_map]
                rw [if_neg hlast] at hnext
                have hrest := ih hnext (by omega) (by rw [hrecv]; exact hroom)
                rw [show gridSlots size - (k + 1) = n by omega, hrecv] at hrest
                rw [exec_event (show taskMachine.step t (.chunk chunk none) = _ from hstep)]
                by_cases hall : t.receivedBytes +
                    (chunk.data.length + totalBytes (written n events)) < 2 ^ 63
                · rw [if_pos (by omega)] at hrest ⊢
                  obtain ⟨t'', es, hexec, hfile', hends⟩ := hrest
                  refine ⟨t'', _, by rw [hexec]; rfl, by rw [hfile', hkept], Ends.cons hwf ?_⟩
                  simpa [completionsOf_replyEffects, hlast] using hends
                · rw [if_neg (by omega)] at hrest ⊢
                  rw [hrest, Option.map_none]
            · have htrap : taskMachine.step t (.chunk chunk none) = none :=
                handleChunkData_trap ht hwf hroom
              rw [if_neg (by omega)]
              simp [Machine.exec, htrap]
      · have hfail : e.isWritten = false := by simpa using hwritten
        rw [written_failed hfail, totalBytes, List.map_nil, List.sum_nil, if_pos (by omega)]
        exact exec_failed ht hfail events

/-! ## Every start -/

theorem startOn_huge (disk : Disk) (transferID fileID : Ident) {size : Nat} (destPath : String)
    (hsize : ¬ size < 2 ^ 63) : startOn disk transferID fileID size destPath = none := by
  have hinit : init transferID fileID size destPath = none := if_neg (by omega)
  rw [startOn, hinit]

theorem startOn_eq (disk : Disk) (transferID fileID : Ident) {size : Nat} (destPath : String)
    (hsize : size < 2 ^ 63) :
    startOn disk transferID fileID size destPath =
      start { transferID, fileID, fileSize := size, destPath } disk.createOk disk.openOk := by
  have hinit : init transferID fileID size destPath =
      some { transferID, fileID, fileSize := size, destPath } := if_pos (by omega)
  rw [startOn, hinit]

/-- An empty file is complete at once. -/
theorem startOn_empty (disk : Disk) (transferID fileID : Ident) (destPath : String) :
    ∃ t, startOn disk transferID fileID 0 destPath = some (t, [.completion none]) ∧
      t.isFinished = true := by
  rw [startOn_eq disk transferID fileID destPath (by norm_num)]
  cases hcreate : disk.createOk with
  | true => simp [start, finish]
  | false => simp [start, finish]

/-- A destination that does not open is removed. -/
theorem startOn_closed {disk : Disk} (transferID fileID : Ident) {size : Nat} (destPath : String)
    (hsize : size < 2 ^ 63) (hpos : size ≠ 0) (hopen : disk.openOk = false) :
    ∃ t, startOn disk transferID fileID size destPath =
        some (t, [.completion (some (.createFailed destPath))]) ∧
      t.isFinished = true ∧ t.file = none := by
  rw [startOn_eq disk transferID fileID destPath hsize]
  cases hcreate : disk.createOk with
  | true => simp [start, finish, hopen, hpos]
  | false => simp [start, finish, hopen, hpos]

/-- A destination that opens is asked for. -/
theorem startOn_open {disk : Disk} (transferID fileID : Ident) {size : Nat} (destPath : String)
    (hsize : size < 2 ^ 63) (hpos : size ≠ 0) (hopen : disk.openOk = true) :
    ∃ t es, startOn disk transferID fileID size destPath = some (t, es) ∧
      Awaiting size 0 t ∧ t.receivedBytes = 0 ∧ t.file.isSome = disk.createOk ∧
      completionsOf es = [] := by
  rw [startOn_eq disk transferID fileID destPath hsize]
  have hloop := primeLoop_eq kPipelineDepth
    { transferID, fileID, fileSize := size, destPath, sendRequest := true,
      file := if disk.createOk then some [] else none, fileHandle := true } 0 rfl rfl hsize
  simp only [Nat.sub_zero, Nat.zero_add, ← List.range_eq_range'] at hloop
  have hstart : start { transferID, fileID, fileSize := size, destPath } disk.createOk
      disk.openOk = primeLoop kPipelineDepth
        { transferID, fileID, fileSize := size, destPath, sendRequest := true,
          file := if disk.createOk then some [] else none, fileHandle := true } := by
    cases hcreate : disk.createOk with
    | true => simp [start, hopen, hpos, primeRequests]
    | false => simp [start, hopen, hpos, primeRequests]
  refine ⟨_, _, hstart.trans hloop, ?_, rfl, ?_, completionsOf_requests _ _⟩
  · constructor <;> simp [Nat.min_comm]
  · cases disk.createOk with
    | true => rfl
    | false => rfl

theorem downloadOn_of_start {disk : Disk} {transferID fileID : Ident} {size : Nat}
    {destPath : String} {t : Task} {es : List Effect}
    (h : startOn disk transferID fileID size destPath = some (t, es)) (events : List Event) :
    downloadOn disk transferID fileID size destPath events =
      (taskMachine.exec t events).map (fun r => (r.1, es ++ r.2)) := by
  rw [downloadOn, h]

/-- The replies whose bytes a download counts. -/
def counted (disk : Disk) (size : Nat) (events : List Event) : List FileChunkData :=
  if size = 0 ∨ disk.openOk = false then [] else written (gridSlots size) events

theorem counted_of_opened {disk : Disk} {size : Nat} {events : List Event}
    (hpos : size ≠ 0) (hopen : disk.openOk = true) :
    counted disk size events = written (gridSlots size) events := by
  simp [counted, hpos, hopen]

/-- The count of received bytes stays in its range, and so does the size. -/
def InRange (disk : Disk) (size : Nat) (events : List Event) : Prop :=
  size < 2 ^ 63 ∧ totalBytes (counted disk size events) < 2 ^ 63

/-- A download fails after its destination has been opened. -/
def FailsOpened (disk : Disk) (size : Nat) (events : List Event) : Prop :=
  disk.openOk = true ∧ StopsEarly (gridSlots size) events

/-- **How a download ends.** -/
theorem downloadOn_ends {disk : Disk} (transferID fileID : Ident) {size : Nat}
    (destPath : String) {events : List Event} (hrange : InRange disk size events) :
    ∃ t es, downloadOn disk transferID fileID size destPath events = some (t, es) ∧
      (FailsOpened disk size events →
        t.file.isSome = disk.createOk ∧ ∃ error, completionsOf es = [some error]) ∧
      (¬ FailsOpened disk size events →
        ∀ error, some error ∈ completionsOf es → t.file = none) := by
  obtain ⟨hsize, htotal⟩ := hrange
  by_cases hzero : size = 0
  · subst hzero
    obtain ⟨t, hstart, hfinished⟩ := startOn_empty disk transferID fileID destPath
    obtain ⟨t', hexec, hfile⟩ := exec_of_finished events hfinished
    refine ⟨t', _, by rw [downloadOn_of_start hstart, hexec]; rfl, ?_, ?_⟩
    · intro hfails
      exact absurd hfails.2.1 (Nat.not_lt_zero _)
    · intro _ error herror
      simp [completionsOf] at herror
  · cases hopen : disk.openOk with
    | false =>
        obtain ⟨t, hstart, hfinished, hnone⟩ :=
          startOn_closed transferID fileID destPath hsize hzero hopen
        obtain ⟨t', hexec, hfile⟩ := exec_of_finished events hfinished
        refine ⟨t', _, by rw [downloadOn_of_start hstart, hexec]; rfl, ?_, ?_⟩
        · intro hfails
          rw [FailsOpened, hopen] at hfails
          cases hfails.1
        · intro _ error _
          rw [hfile, hnone]
    | true =>
        obtain ⟨t, es, hstart, hawait, hreceived, hcreated, hquiet⟩ :=
          startOn_open transferID fileID destPath hsize hzero hopen
        rw [counted_of_opened hzero hopen] at htotal
        have hexec := exec_awaiting hsize events hawait (gridSlots_pos (by omega)) (by omega)
        rw [hreceived, Nat.zero_add, Nat.sub_zero, if_pos htotal] at hexec
        obtain ⟨t', es', hrun, hfile, hends⟩ := hexec
        refine ⟨t', es ++ es', by rw [downloadOn_of_start hstart, hrun]; rfl, ?_, ?_⟩
        · intro hfails
          refine ⟨by rw [hfile, hcreated], ?_⟩
          rw [Ends, if_neg (Nat.ne_of_lt hfails.2.1), if_pos hfails.2] at hends
          rw [completionsOf_append, hquiet, List.nil_append]
          exact hends
        · intro hsurvives error herror
          have hearly : ¬ StopsEarly (gridSlots size) events := fun h => hsurvives ⟨hopen, h⟩
          rw [completionsOf_append, hquiet, List.nil_append] at herror
          rw [Ends, if_neg hearly] at hends
          split at hends
          · simp [hends] at herror
          · simp [hends] at herror

/-- **When a download traps.** -/
theorem downloadOn_eq_none_iff (disk : Disk) (transferID fileID : Ident) (size : Nat)
    (destPath : String) (events : List Event) :
    downloadOn disk transferID fileID size destPath events = none ↔
      ¬ InRange disk size events := by
  constructor
  · intro hnone hrange
    obtain ⟨t, es, hdone, -⟩ := downloadOn_ends transferID fileID destPath hrange
    rw [hnone] at hdone
    cases hdone
  · intro hout
    by_cases hsize : size < 2 ^ 63
    · have htotal : ¬ totalBytes (counted disk size events) < 2 ^ 63 := fun h => hout ⟨hsize, h⟩
      have hcounts : size ≠ 0 ∧ disk.openOk = true := by
        by_contra hnot
        refine htotal ?_
        have hempty : counted disk size events = [] := by
          refine if_pos ?_
          by_cases hzero : size = 0
          · exact Or.inl hzero
          · exact Or.inr (by simpa [hzero] using hnot)
        rw [hempty]
        norm_num [totalBytes]
      obtain ⟨t, es, hstart, hawait, hreceived, -⟩ :=
        startOn_open transferID fileID destPath hsize hcounts.1 hcounts.2
      rw [counted_of_opened hcounts.1 hcounts.2] at htotal
      have hpos := hcounts.1
      have hexec := exec_awaiting hsize events hawait (gridSlots_pos (by omega)) (by omega)
      rw [hreceived, Nat.zero_add, Nat.sub_zero, if_neg htotal] at hexec
      rw [downloadOn_of_start hstart, hexec, Option.map_none]
    · rw [downloadOn, startOn_huge disk transferID fileID destPath hsize]

/-! ## No conversion traps -/

theorem onFractionCompleted_ne_none (completedUnitCount totalUnitCount : Int64) :
    onFractionCompleted completedUnitCount totalUnitCount ≠ none := by
  simp [onFractionCompleted, uint64]

/-- The clamp of `writePromiseTo` does its work. -/
theorem int64_clamped (size : Nat) : int64 (min size (2 ^ 63 - 1)) = some (min size (2 ^ 63 - 1)) :=
  if_pos (by omega)

/-- Writing a promise, the events after it, or the report of the progress
traps. -/
def PromiseTraps (info : PromiseInfo) (coordinator : Bool) (destPath : String) (disk : Disk)
    (events : List Event) : Prop :=
  (∃ completed total : Int64, onFractionCompleted completed total = none) ∨
    writePromiseTo info coordinator destPath disk = none ∨
    ∃ units t es, writePromiseTo info coordinator destPath disk = some (.ok (units, t, es)) ∧
      taskMachine.exec t events = none

/-- A promise that reaches the coordinator traps with its download. -/
theorem promiseTraps_iff (transferID fileID : Ident) (fileSize : UInt64) (destPath : String)
    (disk : Disk) (events : List Event) :
    PromiseTraps ⟨some fileID, some transferID, some fileSize⟩ true destPath disk events ↔
      downloadOn disk transferID fileID fileSize.toNat destPath events = none := by
  simp only [PromiseTraps, writePromiseTo, int64_clamped, if_true, downloadOn]
  cases hstart : startOn disk transferID fileID fileSize.toNat destPath with
  | none => simp
  | some r =>
      obtain ⟨t, es⟩ := r
      cases hexec : taskMachine.exec t events with
      | none => simp [hexec]
      | some r' => simp [hexec, onFractionCompleted_ne_none]

/-- **No trap** on the way from the promise to the last reply, exactly while
the size and the bytes of the counted replies fit `Int64`. -/
theorem promise_traps_iff (transferID fileID : Ident) (fileSize : UInt64) (destPath : String)
    (disk : Disk) (events : List Event) :
    ¬ PromiseTraps ⟨some fileID, some transferID, some fileSize⟩ true destPath disk events ↔
      fileSize.toNat < 2 ^ 63 ∧ totalBytes (counted disk fileSize.toNat events) < 2 ^ 63 := by
  rw [promiseTraps_iff, downloadOn_eq_none_iff, not_not]
  rfl

/-- The smallest size that traps, well below the limit that `primeRequests`
names. -/
theorem promise_traps_at_two_pow_63 :
    (9223372036854775808 : UInt64).toNat ≤ 2 ^ 64 - 1 - 262144 ∧
      PromiseTraps ⟨some ['f'], some ['t'], some 9223372036854775808⟩ true "" {} [] := by
  refine ⟨by decide, Or.inr (Or.inl ?_)⟩
  decide

/-! ## No file is left -/

/-- A download that reports an error has left no file that it created. -/
def LeavesNoFile (disk : Disk) (transferID fileID : Ident) (size : Nat) (destPath : String)
    (events : List Event) : Prop :=
  ∀ t es, downloadOn disk transferID fileID size destPath events = some (t, es) →
    (∃ error, .completion (some error) ∈ es) → t.file = none

end FileDownloadTask
