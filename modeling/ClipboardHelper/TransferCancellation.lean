import ClipboardHelper.CoordinatorQueue
import ClipboardHelper.MacPasteboard

/-!
# What Cancel stops

The Cancel button of the progress panel calls `cancelFileDownload`.  It sets a
flag that the loops of `ensureFilesDownloaded` look at, wakes them, and tells
the parent.  The downloads that Finder has started through file promises are
tasks of `FileTransferCoordinator`; its `cancelTransfer` is called when an
announcement is replaced or the pasteboard is lost, but not here.

The state is the part of the application that Cancel can reach: the manager,
the transfer id of the pending announcement, the id taken from the progress
frames, and the coordinator.

* `Stopped`: every task of a transfer has finished or is about to be cancelled
  by a `cancelTransfer` that waits already.
* **`cancel_stops_iff`**: Cancel does what it says exactly when the pending
  announcement's transfer is `Stopped` without it.
* `cancelled_transfer_continues` is a run in which the next reply is answered
  by the next request.
-/

namespace TransferCancellation

open Library FileDownloadTask DownloadRegistry

/-! ## The application -/

section

variable {κ : Type} [DecidableEq κ]

structure App (κ : Type) where
  manager : MacPasteboard.Manager := {}
  pendingTransferID : Option Ident := none
  /-- `dcTransferIDForCurrentAnnouncement` -/
  dcTransferID : Option Ident := none
  coordinator : Coordinator κ := {}

/-- `Leviathan_HelperFileChunkRequest`. -/
structure FileChunkRequest where
  transferID : Ident
  fileID : Ident
  offset : Nat
  size : Nat
  deriving DecidableEq, Repr

inductive Output
  | fileChunkRequest (request : FileChunkRequest)
  | error (errorMessage : Ident)
  | coordinator (obs : DownloadRegistry.Obs)
  deriving DecidableEq, Repr

/-- `cancelFileDownload` with its `onCancelTransfer`. -/
def cancelFileDownload (app : App κ) (transferID : Ident) : App κ × List Output :=
  let cancelTransferID :=
    if transferID = [] then app.pendingTransferID.getD [] else transferID
  ({ app with manager := MacPasteboard.cancelFileDownload app.manager },
    if cancelTransferID = [] then []
    else [.error ("FILE_TRANSFER_CANCEL:".toList ++ cancelTransferID)])

/-- The closure behind the Cancel button. -/
def onCancel (app : App κ) : App κ × List Output :=
  cancelFileDownload app (app.dcTransferID.getD [])

/-- `sendChunkRequest`, for the requests that a method of a task makes. -/
def sendChunkRequests (t : Task) : Outcome → List FileChunkRequest
  | none => []
  | some (_, es) =>
    (requestsOf es).map (fun offset => ⟨t.transferID, t.fileID, offset, kDefaultChunkSize⟩)

variable (characters : Ident → List κ)

/-- The requests that a closure of the coordinator's queue sends. -/
def jobRequests (s : Coordinator κ) (env : Answers κ) : Job κ → List FileChunkRequest
  | .start id =>
    match s.tasks id with
    | none => []
    | some t => sendChunkRequests t (start t env.createOk env.openOk)
  | .chunk chunk =>
    match s.downloads.lookup (keyOf characters chunk.transferID chunk.fileID) with
    | none => []
    | some id =>
      match s.tasks id with
      | none => []
      | some t => sendChunkRequests t (FileDownloadTask.handleChunkData t chunk env.ioError)
  | .cancel _ | .remove _ => []

def actionRequests (s : Coordinator κ) : DownloadRegistry.Action κ → List FileChunkRequest
  | .runQueue env =>
    match s.queue with
    | [] => []
    | job :: rest => jobRequests characters { s with queue := rest } env job
  | _ => []

inductive Action (κ : Type)
  | onCancel
  | coordinator (action : DownloadRegistry.Action κ)

/-- **The application.** -/
def machine : Machine (App κ) (Action κ) Output where
  step app
    | .onCancel => some (onCancel app)
    | .coordinator action =>
      ((DownloadRegistry.machine characters).step app.coordinator action).map (fun r =>
        ({ app with coordinator := r.1 },
          (actionRequests characters app.coordinator action).map .fileChunkRequest ++
            r.2.map .coordinator))

/-- `FILE_CHUNK_DATA` arrives, or one of the two queues goes on. -/
def Action.isServed : Action κ → Bool
  | .coordinator (.handleChunkData _) | .coordinator (.runQueue _) | .coordinator .runMain => true
  | _ => false

def serves (_ : App κ) (action : Action κ) : Prop := action.isServed = true

/-- The completion of a task has been called, or is about to be, with the
cancelled error. -/
def CompletesCancelled (id : Nat) (h : List Output) (app : App κ) : Prop :=
  .coordinator (.completed id (some .cancelled)) ∈ h ∨
    (id, some .cancelled) ∈ app.coordinator.main

/-- **What Cancel should do.**  Whatever replies arrive behind it, no request
of the pending announcement's transfer is sent, and every task of it that was
unfinished completes with the cancelled error. -/
def CancelStops (app : App κ) : Prop :=
  ∀ tid, app.pendingTransferID = some tid →
    ∀ h app', Machine.Run (machine characters) serves (onCancel app).1 h app' →
      (∀ r, .fileChunkRequest r ∈ h → ¬ Same characters r.transferID tid) ∧
      ∀ id t, app.coordinator.tasks id = some t → Same characters t.transferID tid →
        t.isFinished = false →
        ∃ h' app'', Machine.Run (machine characters) serves app' h' app'' ∧
          CompletesCancelled id (h ++ h') app''

end

/-! ## Behind a Cancel -/

section

variable {κ : Type} [DecidableEq κ] {characters : Ident → List κ} {s : Coordinator κ}

/-- Every task of the transfer has finished or is about to be cancelled. -/
def Stopped (characters : Ident → List κ) (tid : Ident) (s : Coordinator κ) : Prop :=
  ∀ id t, s.tasks id = some t → Same characters t.transferID tid →
    t.isFinished = true ∨ Condemned characters s id (taskKey characters t)

/-- Then a closure asks for nothing: the task that it reaches has finished. -/
theorem Stopped.requests {tid : Ident} (hs : Sane characters s)
    (hstopped : Stopped characters tid s) {job : Job κ} {rest : List (Job κ)}
    (hqueue : s.queue = job :: rest) {env : Answers κ} {s' : Coordinator κ}
    {os : List DownloadRegistry.Obs}
    (hjob : JobStep characters { s with queue := rest } env job s' os) :
    ∀ r ∈ jobRequests characters { s with queue := rest } env job,
      ¬ Same characters r.transferID tid := by
  have hhead : ∀ {id t}, Condemned characters s id (taskKey characters t) →
      Concerns characters s (taskKey characters t) job → ∃ tid', job = .cancel tid' := by
    intro id t hcondemned hconcerns
    obtain ⟨before, tid', after, heq, -, hbefore⟩ := hcondemned.queued
    rw [hqueue] at heq
    cases before with
    | nil =>
        cases heq
        exact ⟨tid', rfl⟩
    | cons first before =>
        cases heq
        exact absurd hconcerns (hbefore _ List.mem_cons_self)
  intro r hr hsame
  cases hjob with
  | @started id t t' es task method =>
      have htask : s.tasks id = some t := task
      simp only [jobRequests, htask, method, sendChunkRequests, List.mem_map] at hr
      obtain ⟨offset, -, rfl⟩ := hr
      obtain ⟨u, hu, -, hopen⟩ := hs.waiting id (by rw [hqueue]; exact List.mem_cons_self)
      have htu : t = u := Option.some.inj (task.symm.trans hu)
      subst htu
      rcases hstopped id t task hsame with hfinished | hcondemned
      · rw [hopen] at hfinished
        cases hfinished
      · obtain ⟨tid', heq⟩ := hhead hcondemned ⟨t, task, rfl⟩
        cases heq
  | missed missing =>
      have hnone : s.downloads.lookup _ = none := missing
      simp [jobRequests, hnone] at hr
  | @replied chunk id t t' es registered task method =>
      have htask : s.tasks id = some t := task
      have hlookup : s.downloads.lookup (keyOf characters chunk.transferID chunk.fileID) =
          some id := registered
      simp only [jobRequests, hlookup, htask, sendChunkRequests] at hr
      rw [method] at hr
      simp only [List.mem_map] at hr
      obtain ⟨offset, hoffset, rfl⟩ := hr
      rcases hstopped id t task hsame with hfinished | hcondemned
      · rw [handleChunkData_finished hfinished] at method
        cases method
        simp [requestsOf] at hoffset
      · obtain ⟨u, hu, hkey, -⟩ := hs.registered _ id registered
        have htu : t = u := Option.some.inj (task.symm.trans hu)
        subst htu
        obtain ⟨tid', heq⟩ := hhead hcondemned hkey.symm
        cases heq
  | cancelled => simp [jobRequests] at hr
  | removed => simp [jobRequests] at hr

/-- **A stopped transfer stays stopped**, and asks for nothing. -/
theorem Stopped.step {tid : Ident} (hs : Sane characters s) (hstopped : Stopped characters tid s)
    {action : DownloadRegistry.Action κ} {s' : Coordinator κ} {os : List DownloadRegistry.Obs}
    (hs' : Sane characters s') (h : Passed characters s action s' os) :
    Stopped characters tid s' ∧
      ∀ r ∈ actionRequests characters s action, ¬ Same characters r.transferID tid := by
  constructor
  · intro id t' ht' hsame
    obtain ⟨t, ht, hlater⟩ := h.keeps.earlier ht'
    rw [hlater.transferID] at hsame
    rcases hstopped id t ht hsame with hfinished | hcondemned
    · exact .inl (hlater.finished hfinished)
    · by_cases hfinished : t.isFinished = true
      · exact .inl (hlater.finished hfinished)
      · have hopen : t.isFinished = false := by simpa using hfinished
        rcases hcondemned.passed hs ht hopen h with hstill | hcancelled
        · right
          rw [hlater.taskKey]
          exact hstill.1
        · obtain ⟨u, hu, hended⟩ := hs'.completions _ _ hcancelled
          rw [ht', Option.some.injEq] at hu
          subst hu
          exact .inl hended
  · cases h with
    | arrived => simp [actionRequests]
    | ran queue step =>
        simp only [actionRequests, queue]
        exact hstopped.requests hs queue step
    | reported => simp [actionRequests]

/-- A step of the application behind the Cancel is one of its coordinator. -/
theorem served_cases {app app' : App κ} {action : Action κ} {os : List Output}
    (hserves : serves app action) (h : (machine characters).step app action = some (app', os)) :
    ∃ act s' cs, (DownloadRegistry.machine characters).step app.coordinator act = some (s', cs) ∧
      Passed characters app.coordinator act s' cs ∧ app' = { app with coordinator := s' } ∧
      os = (actionRequests characters app.coordinator act).map .fileChunkRequest ++
        cs.map .coordinator := by
  cases action with
  | onCancel => cases hserves
  | coordinator act =>
      obtain ⟨r, hstep, heq⟩ := Option.map_eq_some_iff.mp h
      cases heq
      have hpasses : passes act := by
        cases act with
        | startFileDownload transferID fileID fileSize destPath => cases hserves
        | cancelTransfer transferID => cases hserves
        | handleChunkData | runQueue | runMain => trivial
      exact ⟨act, r.1, r.2, hstep, passed_of_step hpasses hstep, rfl, rfl⟩

/-- And the coordinator's steps are steps of the application. -/
theorem run_served {app : App κ} {h : List DownloadRegistry.Obs} {s' : Coordinator κ}
    (hrun : Machine.Run (DownloadRegistry.machine characters) passing app.coordinator h s') :
    ∃ h', Machine.Run (machine characters) serves app h' { app with coordinator := s' } ∧
      ∀ id error, .coordinator (.completed id error) ∈ h' → .completed id error ∈ h := by
  induction hrun with
  | nil => exact ⟨[], .nil, by simp⟩
  | @snoc h os s₁ s₂ action before guard step ih =>
      obtain ⟨h', hrun', hsame⟩ := ih
      have hserves : serves { app with coordinator := s₁ } (.coordinator action) := by
        cases action with
        | startFileDownload => cases guard
        | cancelTransfer => cases guard
        | handleChunkData | runQueue | runMain => rfl
      have hstep : (machine characters).step { app with coordinator := s₁ } (.coordinator action) =
          some ({ app with coordinator := s₂ },
            (actionRequests characters s₁ action).map .fileChunkRequest ++
              os.map .coordinator) := by
        simp only [machine, step, Option.map_some]
      refine ⟨_, .snoc hrun' hserves hstep, ?_⟩
      intro id error hmem
      rcases List.mem_append.mp hmem with hold | hnew
      · exact List.mem_append_left _ (hsame id error hold)
      · exact List.mem_append_right _ (by simpa using hnew)

/-- **Behind a Cancel, a stopped transfer asks for nothing.** -/
theorem stopped_run {tid : Ident} {app app' : App κ} {h : List Output}
    (hs : Sane characters app.coordinator) (hstopped : Stopped characters tid app.coordinator)
    (hrun : Machine.Run (machine characters) serves app h app') :
    Sane characters app'.coordinator ∧
      ∀ r, .fileChunkRequest r ∈ h → ¬ Same characters r.transferID tid := by
  have hinv := hrun.history_invariant (fun h app' => Sane characters app'.coordinator ∧
    Stopped characters tid app'.coordinator ∧
      ∀ r, .fileChunkRequest r ∈ h → ¬ Same characters r.transferID tid)
    ⟨hs, hstopped, by simp⟩ (by
    intro h app action app' os hinv hserves hstep
    obtain ⟨hs, hstopped, hquiet⟩ := hinv
    obtain ⟨act, s', cs, hact, hpassed, rfl, rfl⟩ := served_cases hserves hstep
    have hs' := hs.step hact
    obtain ⟨hstopped', hrequests⟩ := hstopped.step hs hs' hpassed
    refine ⟨hs', hstopped', ?_⟩
    intro r hr
    rcases List.mem_append.mp hr with hold | hnew
    · exact hquiet r hold
    · exact hrequests r (by simpa using hnew))
  exact ⟨hinv.1, hinv.2.2⟩

/-- **Behind a Cancel, a lost task is not cancelled.** -/
theorem lost_run {id : Nat} {key : Key κ} {app app' : App κ} {h : List Output}
    (hs : Sane characters app.coordinator) (hlost : Lost characters id key app.coordinator)
    (hrun : Machine.Run (machine characters) serves app h app') :
    ¬ CompletesCancelled id h app' := by
  have hinv := hrun.history_invariant (fun h app' => Sane characters app'.coordinator ∧
    Lost characters id key app'.coordinator ∧
      .coordinator (.completed id (some .cancelled)) ∉ h) ⟨hs, hlost, by simp⟩ (by
    intro h app action app' os hinv hserves hstep
    obtain ⟨hs, hlost, hquiet⟩ := hinv
    obtain ⟨act, s', cs, hact, hpassed, rfl, rfl⟩ := served_cases hserves hstep
    obtain ⟨hlost', hcompleted⟩ := hlost.passed hs hpassed
    refine ⟨hs.step hact, hlost', ?_⟩
    intro hmem
    rcases List.mem_append.mp hmem with hold | hnew
    · exact hquiet hold
    · exact hcompleted (by simpa using hnew))
  intro hcompletes
  rcases hcompletes with hmem | hmem
  · exact hinv.2.2 hmem
  · exact hinv.2.1.main hmem

/-- A report of a cancellation stays on the main queue until it is made. -/
theorem CompletesCancelled.step {id : Nat} {h : List Output} {app : App κ}
    (hcompletes : CompletesCancelled id h app) {act : DownloadRegistry.Action κ}
    {s' : Coordinator κ} {cs : List DownloadRegistry.Obs}
    (hpassed : Passed characters app.coordinator act s' cs) {requests : List Output} :
    CompletesCancelled id (h ++ (requests ++ cs.map .coordinator))
      { app with coordinator := s' } := by
  rcases hcompletes with hreported | hwaits
  · exact .inl (List.mem_append_left _ hreported)
  · cases hpassed with
    | arrived => exact .inr hwaits
    | ran queue step => exact .inr (step.queues.2 _ hwaits)
    | @reported id' error rest t main task =>
        rw [main] at hwaits
        rcases List.mem_cons.mp hwaits with hfirst | hlater
        · cases hfirst
          left
          simp
        · exact .inr hlater

/-- **Behind a Cancel, a condemned task stays so until it is cancelled.** -/
theorem condemned_run {id : Nat} {t : Task} {app app' : App κ} {h : List Output}
    (hs : Sane characters app.coordinator)
    (hcondemned : Condemned characters app.coordinator id (taskKey characters t))
    (ht : app.coordinator.tasks id = some t) (hopen : t.isFinished = false)
    (hrun : Machine.Run (machine characters) serves app h app') :
    (Condemned characters app'.coordinator id (taskKey characters t) ∧
      app'.coordinator.tasks id = some t) ∨ CompletesCancelled id h app' := by
  refine (hrun.history_invariant (fun h app' => Sane characters app'.coordinator ∧
    ((Condemned characters app'.coordinator id (taskKey characters t) ∧
      app'.coordinator.tasks id = some t) ∨ CompletesCancelled id h app'))
    ⟨hs, .inl ⟨hcondemned, ht⟩⟩ ?_).2
  intro h app action app' os hinv hserves hstep
  obtain ⟨hs, howed⟩ := hinv
  obtain ⟨act, s', cs, hact, hpassed, rfl, rfl⟩ := served_cases hserves hstep
  refine ⟨hs.step hact, ?_⟩
  rcases howed with hstill | hcompletes
  · rcases hstill.1.passed hs hstill.2 hopen hpassed with hagain | hcancelled
    · exact .inl hagain
    · exact .inr (.inr hcancelled)
  · exact .inr (hcompletes.step hpassed)

/-- A condemned task is cancelled once the queue has gone on that far. -/
theorem condemned_completes {id : Nat} {t : Task} {app : App κ}
    (hs : Sane characters app.coordinator)
    (hcondemned : Condemned characters app.coordinator id (taskKey characters t))
    (ht : app.coordinator.tasks id = some t) (hopen : t.isFinished = false) :
    ∃ h app', Machine.Run (machine characters) serves app h app' ∧
      (id, some .cancelled) ∈ app'.coordinator.main := by
  obtain ⟨before, tid, after, hqueue, hunder, hbefore⟩ := hcondemned.queued
  obtain ⟨h, s₁, hrun, hs₁, hqueue₁, hkept, -⟩ :=
    hs.reach ht hcondemned.registered hqueue hbefore
  obtain ⟨s', os, hstep, hjob⟩ := hs₁.fails hqueue₁
  have hpasses : passing s₁ (.runQueue (failing characters s₁ (.cancel tid))) := trivial
  obtain ⟨h', hserved, -⟩ := run_served (.snoc hrun hpasses hstep)
  exact ⟨h', _, hserved, hjob.cancels (hs₁.dequeue hqueue₁) hkept.1 hopen hkept.2.1 hunder⟩

/-- **When Cancel stops the transfer**: exactly when every task of it has
finished or is about to be cancelled by another path already. -/
theorem cancel_stops_iff {app : App κ} {tid : Ident} {h₀ : List DownloadRegistry.Obs}
    (hpending : app.pendingTransferID = some tid)
    (hreached : Machine.Run (DownloadRegistry.machine characters) Machine.always {} h₀
      app.coordinator) :
    CancelStops characters app ↔
      ∀ id t, app.coordinator.tasks id = some t → Same characters t.transferID tid →
        t.isFinished = true ∨ Condemned characters app.coordinator id (taskKey characters t) := by
  have hs : Sane characters (onCancel app).1.coordinator := sane_of_run hreached
  constructor
  · intro hstops id t ht hsame
    by_contra hnot
    rw [not_or] at hnot
    have hopen : t.isFinished = false := by simpa using hnot.1
    obtain ⟨h, s', hrun, hs', hlost, hquiet⟩ := hs.loses ht hopen hnot.2
    obtain ⟨h', hserved, hsame'⟩ := run_served hrun
    obtain ⟨-, hcompletes⟩ := hstops tid hpending h' _ hserved
    obtain ⟨h'', app'', hlater, hcancelled⟩ := hcompletes id t ht hsame hopen
    have hno := lost_run hs' hlost hlater
    rcases hcancelled with hmem | hmem
    · rcases List.mem_append.mp hmem with hold | hnew
      · exact hquiet (hsame' id _ hold)
      · exact hno (.inl hnew)
    · exact hno (.inr hmem)
  · intro hstopped tid' hpending' h app' hrun
    rw [hpending, Option.some.injEq] at hpending'
    subst hpending'
    obtain ⟨hs', hquiet⟩ := stopped_run hs hstopped hrun
    refine ⟨hquiet, ?_⟩
    intro id t ht hsame hopen
    rcases hstopped id t ht hsame with hfinished | hcondemned
    · rw [hopen] at hfinished
      cases hfinished
    · rcases condemned_run hs hcondemned ht hopen hrun with hstill | hcompletes
      · obtain ⟨h', app'', hlater, hmem⟩ := condemned_completes hs' hstill.1 hstill.2 hopen
        exact ⟨h', app'', hlater, .inr hmem⟩
      · refine ⟨[], app', .nil, ?_⟩
        rw [List.append_nil]
        exact hcompletes

end

/-- A file of two megabytes has been started, and nobody has asked for
anything else: behind the Cancel the first reply is answered by the request
for the fifth slot. -/
theorem cancelled_transfer_continues :
    ∃ (app : App Char) (h₀ : List DownloadRegistry.Obs),
      app.pendingTransferID = some ['t'] ∧
      Machine.Run (DownloadRegistry.machine id) Machine.always {} h₀ app.coordinator ∧
      ¬ CancelStops id app := by
  have hexec : ((DownloadRegistry.machine (id : Ident → List Char)).exec {}
      [.startFileDownload ['t'] ['f'] 2097152 "", .runQueue {}]).map (fun r =>
        ((machine id).execIf (fun _ action => action.isServed)
          (onCancel { pendingTransferID := some ['t'], coordinator := r.1 }).1
          [.coordinator (.handleChunkData ⟨['t'], ['f'], 0, [7], false, ""⟩),
            .coordinator (.runQueue {})]).map (fun r' => r'.2)) =
      some (some [.fileChunkRequest ⟨['t'], ['f'], 1048576, 262144⟩,
        .coordinator (.reached 0 ⟨['t'], ['f'], 0, [7], false, ""⟩)]) := by
    decide
  obtain ⟨h₀, s, hrun, hlater⟩ := Machine.Run.of_exec_map hexec
  have hserves : ∀ (app : App Char) action, action.isServed = true → serves app action :=
    fun _ _ h => h
  obtain ⟨h, app', hserved, hh⟩ := Machine.Run.of_execIf_map hserves hlater
  simp only at hh
  refine ⟨{ pendingTransferID := some ['t'], coordinator := s }, h₀, rfl, hrun, ?_⟩
  intro hstops
  obtain ⟨hquiet, -⟩ := hstops ['t'] rfl h app' hserved
  exact hquiet ⟨['t'], ['f'], 1048576, 262144⟩ (by rw [hh]; exact List.mem_cons_self) rfl

/-- Cancel has nothing to stop once the only file has been received. -/
theorem cancel_stops_after_download :
    ∃ (app : App Char) (t : Task), app.pendingTransferID = some ['t'] ∧
      app.coordinator.tasks 0 = some t ∧ CancelStops id app := by
  have hexec : ((DownloadRegistry.machine (id : Ident → List Char)).exec {}
      [.startFileDownload ['t'] ['f'] 1 "", .runQueue {},
        .handleChunkData ⟨['t'], ['f'], 0, [7], true, ""⟩, .runQueue {}]).map (fun r =>
        ((r.1.tasks 0).map (fun t => t.isFinished), r.1.created)) = some (some true, 1) := by
    decide
  obtain ⟨h₀, s, hrun, hresult⟩ := Machine.Run.of_exec_map hexec
  simp only [Prod.mk.injEq] at hresult
  obtain ⟨htask, hcreated⟩ := hresult
  obtain ⟨t, ht, hfinished⟩ := Option.map_eq_some_iff.mp htask
  refine ⟨{ pendingTransferID := some ['t'], coordinator := s }, t, rfl, ht, ?_⟩
  have hiff := @cancel_stops_iff Char _ id { pendingTransferID := some ['t'], coordinator := s }
    ['t'] h₀ rfl hrun
  refine hiff.mpr ?_
  intro id' u hu _
  by_cases hid : id' = 0
  · subst hid
    rw [ht, Option.some.injEq] at hu
    left
    rw [← hu, hfinished]
  · rw [(sane_of_run hrun).fresh id' (by omega)] at hu
    cases hu

end TransferCancellation
