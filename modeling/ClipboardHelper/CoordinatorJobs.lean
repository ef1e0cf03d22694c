import ClipboardHelper.DownloadRegistry

/-!
# What the closures of the coordinator's queue do

`FileTransferCoordinator` runs the closures of its serial queue in their
order, whatever the table of downloads has become in the meantime.

* `Sane` holds of every coordinator that can be reached, whatever the order of
  its two queues (`sane_of_run`).
* `JobStep` is what a closure does.  It leaves a task alone that it does not
  concern (`JobStep.unchanged`), and a cancellation cancels every unfinished
  task of its transfer that stands in the table (`JobStep.cancels`).
-/

namespace DownloadRegistry

open Library FileDownloadTask

/-! ## What a method calls the completion with -/

theorem finish_completions (t : Task) (error : Option FileDownloadError) :
    ∀ e ∈ completionsOf (finish t error).2, e = error := by
  unfold finish
  split
  · simp [completionsOf]
  · simp [completionsOf]

theorem primeLoop_completions {fuel : Nat} {t t' : Task} {es : List Effect}
    (h : primeLoop fuel t = some (t', es)) : completionsOf es = [] := by
  induction fuel generalizing t es with
  | zero =>
      cases h
      rfl
  | succ fuel ih =>
      simp only [primeLoop] at h
      split at h
      · split at h
        · split at h
          · rename_i t₁ es₁ hrest
            cases h
            simpa [completionsOf] using ih hrest
          · cases h
        · cases h
      · cases h
        rfl

theorem primeRequests_completions {t t' : Task} {es : List Effect}
    (h : primeRequests t = some (t', es)) : completionsOf es = [] := by
  unfold primeRequests at h
  split at h
  · exact primeLoop_completions h
  · cases h
    rfl

/-- An error that `finish` is called with is the only one it reports. -/
theorem finish_uncancelled {t t' : Task} {error : Option FileDownloadError} {es : List Effect}
    (h : some (finish t error) = some (t', es)) (herror : error ≠ some .cancelled) :
    some .cancelled ∉ completionsOf es := by
  intro hmem
  have hes : (finish t error).2 = es := by rw [Option.some.inj h]
  exact herror (finish_completions t error _ (hes.symm ▸ hmem)).symm

/-- A start never reports a cancellation. -/
theorem start_uncancelled {t t' : Task} {createOk openOk : Bool} {es : List Effect}
    (h : start t createOk openOk = some (t', es)) : some .cancelled ∉ completionsOf es := by
  unfold start at h
  simp only at h
  generalize (if createOk = true then
    ({ t with sendRequest := true, file := some [] } : Task) else { t with sendRequest := true }) =
      created at h
  split at h
  · exact finish_uncancelled h (by simp)
  · split at h
    · simp [primeRequests_completions h]
    · exact finish_uncancelled h (by simp)

/-- Nor does a reply. -/
theorem handleChunkData_uncancelled {t t' : Task} {chunk : FileChunkData}
    {ioError : Option String} {es : List Effect}
    (h : FileDownloadTask.handleChunkData t chunk ioError = some (t', es)) :
    some .cancelled ∉ completionsOf es := by
  unfold FileDownloadTask.handleChunkData at h
  split at h
  · cases h
    simp [completionsOf]
  · simp only at h
    split at h
    · exact finish_uncancelled h (by simp)
    · split at h
      · exact finish_uncancelled h (by simp)
      · split at h
        · exact finish_uncancelled h (by simp)
        · split at h
          · rename_i t₁ es₁ haccount
            cases h
            have hwrites :
                completionsOf (writeChunk { t with inFlight := t.inFlight - 1 } chunk).2 = [] := by
              unfold writeChunk
              split
              · rfl
              · rfl
            rw [completionsOf_append, hwrites, List.nil_append]
            unfold accountChunk at haccount
            simp only at haccount
            split at haccount
            · split at haccount
              · exact finish_uncancelled haccount (by simp)
              · simp [primeRequests_completions haccount]
            · cases haccount
          · cases h

/-! ## The mark of a cancelled task -/

theorem finish_isCancelled (t : Task) (error : Option FileDownloadError) :
    (finish t error).1.isCancelled = t.isCancelled := by
  unfold finish
  split
  · rfl
  · rfl

theorem primeLoop_isCancelled {fuel : Nat} {t t' : Task} {es : List Effect}
    (h : primeLoop fuel t = some (t', es)) : t'.isCancelled = t.isCancelled := by
  induction fuel generalizing t es with
  | zero =>
      cases h
      rfl
  | succ fuel ih =>
      simp only [primeLoop] at h
      split at h
      · split at h
        · split at h
          · rename_i t₁ es₁ hrest
            cases h
            have hkept := ih hrest
            exact hkept
          · cases h
        · cases h
      · cases h
        rfl

theorem primeRequests_isCancelled {t t' : Task} {es : List Effect}
    (h : primeRequests t = some (t', es)) : t'.isCancelled = t.isCancelled := by
  unfold primeRequests at h
  split at h
  · exact primeLoop_isCancelled h
  · cases h
    rfl

/-- A method that ends in `finish` leaves the mark as it found it. -/
theorem isCancelled_of_finish {t t₁ t' : Task} {error : Option FileDownloadError}
    {es : List Effect} (h : some (finish t₁ error) = some (t', es))
    (hmark : t₁.isCancelled = t.isCancelled) : t'.isCancelled = t.isCancelled := by
  have ht' : (finish t₁ error).1 = t' := by rw [Option.some.inj h]
  rw [← ht', finish_isCancelled, hmark]

theorem start_isCancelled {t t' : Task} {createOk openOk : Bool} {es : List Effect}
    (h : start t createOk openOk = some (t', es)) : t'.isCancelled = t.isCancelled := by
  unfold start at h
  simp only at h
  have hmark : (if createOk = true then
      ({ t with sendRequest := true, file := some [] } : Task)
      else { t with sendRequest := true }).isCancelled = t.isCancelled := by
    split
    · rfl
    · rfl
  generalize (if createOk = true then
    ({ t with sendRequest := true, file := some [] } : Task) else { t with sendRequest := true }) =
      created at h hmark
  split at h
  · exact isCancelled_of_finish h hmark
  · split at h
    · exact (primeRequests_isCancelled h).trans hmark
    · exact isCancelled_of_finish h hmark

theorem handleChunkData_isCancelled {t t' : Task} {chunk : FileChunkData}
    {ioError : Option String} {es : List Effect}
    (h : FileDownloadTask.handleChunkData t chunk ioError = some (t', es)) :
    t'.isCancelled = t.isCancelled := by
  unfold FileDownloadTask.handleChunkData at h
  split at h
  · cases h
    rfl
  · simp only at h
    split at h
    · exact isCancelled_of_finish h rfl
    · split at h
      · exact isCancelled_of_finish h rfl
      · split at h
        · exact isCancelled_of_finish h rfl
        · split at h
          · rename_i t₁ es₁ haccount
            cases h
            have hwrites : (writeChunk { t with inFlight := t.inFlight - 1 } chunk).1.isCancelled =
                t.isCancelled := by
              unfold writeChunk
              split
              · rfl
              · rfl
            unfold accountChunk at haccount
            simp only at haccount
            split at haccount
            · split at haccount
              · exact isCancelled_of_finish haccount hwrites
              · exact (primeRequests_isCancelled haccount).trans hwrites
            · cases haccount
          · cases h

/-- A method other than `cancel` does not cancel. -/
theorem Method.cancelled {t t' : Task} {es : List Effect} (hm : Method t t' es)
    (hmark : t'.isCancelled = t.isCancelled) (ht : t.isCancelled = true → t.isFinished = true)
    (hcancelled : t'.isCancelled = true) : t'.isFinished = true := by
  by_contra hopen
  have hunfinished := hm.finished (by simpa using hopen)
  rw [ht (hmark ▸ hcancelled)] at hunfinished
  cases hunfinished

/-! ## What every coordinator keeps -/

section

variable {κ : Type} [DecidableEq κ] (characters : Ident → List κ)

/-- The task that a job starts. -/
def startId : Job κ → Option Nat
  | .start id => some id
  | _ => none

/-- Between two jobs: the table holds started tasks under their own keys, the
tasks that wait for their start are neither started nor finished, and a
completion on the main queue, and the mark of a cancellation, are those of a
finished task. -/
structure Sane (s : Coordinator κ) : Prop where
  registered : ∀ key id, s.downloads.lookup key = some id →
    ∃ t, s.tasks id = some t ∧ taskKey characters t = key ∧ t.sendRequest = true
  waiting : ∀ id, .start id ∈ s.queue →
    ∃ t, s.tasks id = some t ∧ t.sendRequest = false ∧ t.isFinished = false
  once : (s.queue.filterMap startId).Nodup
  fresh : ∀ id, s.created ≤ id → s.tasks id = none
  completions : ∀ id error, (id, error) ∈ s.main →
    ∃ t, s.tasks id = some t ∧ t.isFinished = true
  cancelled : ∀ id t, s.tasks id = some t → t.isCancelled = true → t.isFinished = true

variable {characters} {s : Coordinator κ}

omit [DecidableEq κ] in
theorem mem_starts {queue : List (Job κ)} {id : Nat} :
    id ∈ queue.filterMap startId ↔ .start id ∈ queue := by
  rw [List.mem_filterMap]
  constructor
  · intro h
    obtain ⟨job, hmem, heq⟩ := h
    cases job with
    | start id' =>
        cases heq
        exact hmem
    | chunk _ => cases heq
    | cancel _ => cases heq
    | remove _ => cases heq
  · intro h
    exact ⟨_, h, rfl⟩

/-- A job that starts nothing is put on the queue. -/
theorem Sane.enqueue (hs : Sane characters s) {job : Job κ} (hjob : startId job = none) :
    Sane characters { s with queue := s.queue ++ [job] } := by
  refine ⟨hs.registered, ?_, ?_, hs.fresh, hs.completions, hs.cancelled⟩
  · intro id hmem
    refine hs.waiting id ?_
    have hstarts := mem_starts.mpr hmem
    rw [List.filterMap_append, List.filterMap_cons_none hjob, List.filterMap_nil,
      List.append_nil] at hstarts
    exact mem_starts.mp hstarts
  · show ((s.queue ++ [job]).filterMap startId).Nodup
    rw [List.filterMap_append, List.filterMap_cons_none hjob, List.filterMap_nil, List.append_nil]
    exact hs.once

/-- A job is taken off the queue. -/
theorem Sane.dequeue (hs : Sane characters s) {job : Job κ} {rest : List (Job κ)}
    (hqueue : s.queue = job :: rest) : Sane characters { s with queue := rest } := by
  refine ⟨hs.registered, ?_, ?_, hs.fresh, hs.completions, hs.cancelled⟩
  · intro id hmem
    exact hs.waiting id (by rw [hqueue]; exact List.mem_cons_of_mem _ hmem)
  · have honce := hs.once
    rw [hqueue] at honce
    exact ((List.sublist_cons_self job rest).filterMap startId).nodup honce

/-- A started task is not started again. -/
theorem Sane.not_again (hs : Sane characters s) {id : Nat} {rest : List (Job κ)}
    (hqueue : s.queue = .start id :: rest) : .start id ∉ rest := by
  have honce : (id :: rest.filterMap startId).Nodup := by
    simpa [hqueue, startId] using hs.once
  rw [List.nodup_cons, mem_starts] at honce
  exact honce.1

/-- **A method call** on a task that does not wait for its start. -/
theorem Sane.method (hs : Sane characters s) {id : Nat} {t t' : Task} {es : List Effect}
    (ht : s.tasks id = some t) (hm : Method t t' es)
    (hsend : t.sendRequest = true → t'.sendRequest = true)
    (hmark : t'.isCancelled = true → t'.isFinished = true) (hnot : .start id ∉ s.queue)
    (downloads : AList (fun _ : Key κ => Nat))
    (hregistered : ∀ key id', downloads.lookup key = some id' →
      (id' = id ∧ key = taskKey characters t ∧ t'.sendRequest = true) ∨
        s.downloads.lookup key = some id') :
    Sane characters { absorb s id t' es with downloads := downloads } := by
  refine ⟨?_, ?_, hs.once, ?_, ?_, ?_⟩
  · intro key id' hlookup
    rcases hregistered key id' hlookup with hnew | hold
    · obtain ⟨rfl, rfl, hstarted⟩ := hnew
      exact ⟨t', by simp [absorb], taskKey_eq hm, hstarted⟩
    · obtain ⟨u, hu, hkey, hstarted⟩ := hs.registered key id' hold
      by_cases hid : id' = id
      · subst hid
        rw [ht, Option.some.injEq] at hu
        subst hu
        exact ⟨t', by simp [absorb], by rw [taskKey_eq hm, hkey], hsend hstarted⟩
      · exact ⟨u, by simp [absorb, Function.update_of_ne hid, hu], hkey, hstarted⟩
  · intro id' hmem
    obtain ⟨u, hu, hfields⟩ := hs.waiting id' hmem
    have hid : id' ≠ id := by
      intro heq
      exact hnot (heq ▸ hmem)
    exact ⟨u, by simp [absorb, Function.update_of_ne hid, hu], hfields⟩
  · intro id' hle
    have hnone := hs.fresh id' hle
    have hid : id' ≠ id := by
      intro heq
      rw [heq, ht] at hnone
      cases hnone
    simp [absorb, Function.update_of_ne hid, hnone]
  · intro id' error hmem
    simp only [absorb, List.mem_append, List.mem_map, Prod.mk.injEq] at hmem
    rcases hmem with hold | hnew
    · obtain ⟨u, hu, hfinished⟩ := hs.completions id' error hold
      by_cases hid : id' = id
      · subst hid
        rw [ht, Option.some.injEq] at hu
        subst hu
        refine ⟨t', by simp [absorb], ?_⟩
        by_contra hopen
        rw [hm.finished (by simpa using hopen)] at hfinished
        cases hfinished
      · exact ⟨u, by simp [absorb, Function.update_of_ne hid, hu], hfinished⟩
    · obtain ⟨error', hcompletion, rfl, -⟩ := hnew
      refine ⟨t', by simp [absorb], ?_⟩
      have hcount := hm.completions
      have hpos := List.length_pos_of_mem hcompletion
      by_contra hopen
      rw [show t'.isFinished = false by simpa using hopen] at hcount
      simp only [Bool.toNat_false] at hcount
      omega
  · intro id' u hu
    by_cases hid : id' = id
    · subst hid
      simp only [absorb, Function.update_self, Option.some.injEq] at hu
      subst hu
      exact hmark
    · simp only [absorb, Function.update_of_ne hid] at hu
      exact hs.cancelled id' u hu

/-- One turn of the cancel loop. -/
theorem Sane.cancelKey (hs : Sane characters s) (key : Key κ) :
    Sane characters (cancelKey s key) := by
  unfold DownloadRegistry.cancelKey
  split
  · exact hs
  · rename_i id hlookup
    obtain ⟨t, ht, -, hsend⟩ := hs.registered key id hlookup
    rw [ht]
    obtain ⟨hm, hfinished⟩ := cancel_method t
    refine hs.method ht hm.toMethod (fun h => hm.sendRequest.trans h) (fun _ => hfinished) ?_ _ ?_
    · intro hmem
      obtain ⟨u, hu, hunsent, -⟩ := hs.waiting id hmem
      rw [ht, Option.some.injEq] at hu
      subst hu
      rw [hsend] at hunsent
      cases hunsent
    · intro key' id' hlookup'
      right
      by_cases hkey : key' = key
      · subst hkey
        simp at hlookup'
      · rwa [AList.lookup_erase_ne hkey] at hlookup'

theorem Sane.cancelKeys (keys : List (Key κ)) :
    ∀ {s : Coordinator κ}, Sane characters s →
      Sane characters (keys.foldl DownloadRegistry.cancelKey s) := by
  induction keys with
  | nil =>
      intro s hs
      exact hs
  | cons key keys ih =>
      intro s hs
      exact ih (hs.cancelKey key)

/-- **What a closure of the queue does.** -/
inductive JobStep (characters : Ident → List κ) (s : Coordinator κ) (env : Answers κ) :
    Job κ → Coordinator κ → List Obs → Prop
  | started {id : Nat} {t t' : Task} {es : List Effect} (task : s.tasks id = some t)
      (method : start t env.createOk env.openOk = some (t', es)) :
      JobStep characters s env (.start id)
        { absorb s id t' es with downloads := s.downloads.insert (taskKey characters t) id } []
  | missed {chunk : FileChunkData}
      (missing : s.downloads.lookup (keyOf characters chunk.transferID chunk.fileID) = none) :
      JobStep characters s env (.chunk chunk) s []
  | replied {chunk : FileChunkData} {id : Nat} {t t' : Task} {es : List Effect}
      (registered : s.downloads.lookup (keyOf characters chunk.transferID chunk.fileID) = some id)
      (task : s.tasks id = some t)
      (method : FileDownloadTask.handleChunkData t chunk env.ioError = some (t', es)) :
      JobStep characters s env (.chunk chunk) (absorb s id t' es) [.reached id chunk]
  | cancelled {transferID : Ident}
      (order : env.order.Perm (keysToRemove characters s transferID)) :
      JobStep characters s env (.cancel transferID)
        (env.order.foldl cancelKey s) []
  | removed (key : Key κ) :
      JobStep characters s env (.remove key) { s with downloads := s.downloads.erase key } []

theorem runJob_cases {env : Answers κ} {job : Job κ} {s' : Coordinator κ}
    {os : List Obs} (h : runJob characters s env job = some (s', os)) :
    JobStep characters s env job s' os := by
  cases job with
  | start id =>
      simp only [runJob] at h
      split at h
      · cases h
      · rename_i t ht
        split at h
        · cases h
        · rename_i t' es hstart
          cases h
          exact .started ht hstart
  | chunk chunk =>
      simp only [runJob] at h
      split at h
      · rename_i hnone
        cases h
        exact .missed hnone
      · rename_i id hlookup
        split at h
        · cases h
        · rename_i t ht
          split at h
          · cases h
          · rename_i t' es hmethod
            cases h
            exact .replied hlookup ht hmethod
  | cancel transferID =>
      simp only [runJob] at h
      split at h
      · rename_i horder
        cases h
        exact .cancelled horder
      · cases h
  | remove key =>
      cases h
      exact .removed key

/-- A registered task does not wait for its start. -/
theorem Sane.not_waiting (hs : Sane characters s) {key : Key κ} {id : Nat}
    (hlookup : s.downloads.lookup key = some id) : .start id ∉ s.queue := by
  intro hmem
  obtain ⟨t, ht, -, hsend⟩ := hs.registered key id hlookup
  obtain ⟨u, hu, hunsent, -⟩ := hs.waiting id hmem
  rw [ht, Option.some.injEq] at hu
  subst hu
  rw [hsend] at hunsent
  cases hunsent

/-- A job keeps the coordinator sane, once it has been taken off the queue. -/
theorem Sane.job (hs : Sane characters s) {env : Answers κ} {job : Job κ} {s' : Coordinator κ}
    {os : List Obs} (hjob : JobStep characters s env job s' os)
    (hnot : ∀ id, job = .start id → .start id ∉ s.queue) : Sane characters s' := by
  cases hjob with
  | @started id t t' es task method =>
      obtain ⟨hm, hstarted⟩ := start_method method
      refine hs.method task hm (fun _ => hstarted)
        (hm.cancelled (start_isCancelled method) (hs.cancelled id t task)) (hnot id rfl) _ ?_
      intro key id' hlookup
      by_cases hkey : key = taskKey characters t
      · subst hkey
        rw [AList.lookup_insert, Option.some.injEq] at hlookup
        exact Or.inl ⟨hlookup.symm, rfl, hstarted⟩
      · rw [AList.lookup_insert_ne hkey] at hlookup
        exact Or.inr hlookup
  | missed => exact hs
  | replied registered task method =>
      have hm := handleChunkData_method method
      exact hs.method task hm.toMethod (fun h => hm.sendRequest.trans h)
        (hm.toMethod.cancelled (handleChunkData_isCancelled method) (hs.cancelled _ _ task))
        (hs.not_waiting registered) s.downloads (fun _ _ h => Or.inr h)
  | cancelled => exact hs.cancelKeys _
  | removed key =>
      refine ⟨?_, hs.waiting, hs.once, hs.fresh, hs.completions, hs.cancelled⟩
      intro key' id hlookup
      by_cases hkey : key' = key
      · subst hkey
        simp at hlookup
      · rw [AList.lookup_erase_ne hkey] at hlookup
        exact hs.registered key' id hlookup

/-- A new task waits for its start. -/
theorem Sane.create (hs : Sane characters s) {transferID fileID : Ident} {fileSize : Nat}
    {destPath : String} {t : Task} (ht : init transferID fileID fileSize destPath = some t) :
    Sane characters
      { s with
          created := s.created + 1,
          tasks := Function.update s.tasks s.created (some t),
          queue := s.queue ++ [.start s.created] } := by
  have hfields : t.sendRequest = false ∧ t.isFinished = false ∧ t.isCancelled = false := by
    unfold init at ht
    split at ht
    · cases ht
      exact ⟨rfl, rfl, rfl⟩
    · cases ht
  have hold : ∀ id u, s.tasks id = some u → id ≠ s.created := by
    intro id u hu heq
    rw [heq, hs.fresh s.created (le_refl _)] at hu
    cases hu
  refine ⟨?_, ?_, ?_, ?_, ?_, ?_⟩
  · intro key id hlookup
    obtain ⟨u, hu, hrest⟩ := hs.registered key id hlookup
    exact ⟨u, by simp [Function.update_of_ne (hold id u hu), hu], hrest⟩
  · intro id hmem
    rcases List.mem_append.mp hmem with hbefore | hnew
    · obtain ⟨u, hu, hrest⟩ := hs.waiting id hbefore
      exact ⟨u, by simp [Function.update_of_ne (hold id u hu), hu], hrest⟩
    · have hid : id = s.created := by simpa using hnew
      subst hid
      exact ⟨t, by simp, hfields.1, hfields.2.1⟩
  · show ((s.queue ++ [Job.start s.created]).filterMap startId).Nodup
    rw [List.filterMap_append, List.nodup_append]
    refine ⟨hs.once, List.nodup_singleton _, ?_⟩
    intro id hid id' hid' heq
    have hcreated : id' = s.created := by simpa [startId] using hid'
    obtain ⟨u, hu, -⟩ := hs.waiting id (mem_starts.mp hid)
    exact hold id u hu (heq.trans hcreated)
  · intro id hle
    have hid : id ≠ s.created := by
      intro heq
      rw [heq] at hle
      exact absurd hle (Nat.not_succ_le_self _)
    simp [Function.update_of_ne hid, hs.fresh id (Nat.le_of_succ_le hle)]
  · intro id error hmem
    obtain ⟨u, hu, hfinished⟩ := hs.completions id error hmem
    exact ⟨u, by simp [Function.update_of_ne (hold id u hu), hu], hfinished⟩
  · intro id u hu hmark
    by_cases hid : id = s.created
    · subst hid
      simp only [Function.update_self, Option.some.injEq] at hu
      subst hu
      rw [hfields.2.2] at hmark
      cases hmark
    · simp only [Function.update_of_ne hid] at hu
      exact hs.cancelled id u hu hmark

theorem Sane.step (hs : Sane characters s) {action : Action κ}
    {s' : Coordinator κ} {os : List Obs}
    (h : (machine characters).step s action = some (s', os)) :
    Sane characters s' := by
  cases action with
  | startFileDownload transferID fileID fileSize destPath =>
      simp only [machine, startFileDownload] at h
      split at h
      · cases h
      · rename_i t ht
        cases h
        exact hs.create ht
  | handleChunkData chunk =>
      cases h
      exact hs.enqueue rfl
  | cancelTransfer transferID =>
      cases h
      exact hs.enqueue rfl
  | runQueue env =>
      simp only [machine] at h
      split at h
      · cases h
      · rename_i job rest hqueue
        refine (hs.dequeue hqueue).job (runJob_cases h) ?_
        intro id hjob
        subst hjob
        exact hs.not_again hqueue
  | runMain =>
      simp only [machine] at h
      split at h
      · cases h
      · rename_i id error rest hmain
        split at h
        · cases h
        · cases h
          have hfewer : Sane characters { s with main := rest } := by
            refine ⟨hs.registered, hs.waiting, hs.once, hs.fresh, ?_, hs.cancelled⟩
            intro id' error' hmem
            exact hs.completions id' error' (by rw [hmain]; exact List.mem_cons_of_mem _ hmem)
          exact hfewer.enqueue rfl

/-- **Every coordinator that can be reached is sane.** -/
theorem sane_of_run {h : List Obs}
    (hrun : Machine.Run (machine characters) Machine.always {} h s) :
    Sane characters s := by
  refine hrun.state_invariant (Sane characters) ?_ ?_
  · refine ⟨?_, ?_, List.nodup_nil, fun _ _ => rfl, ?_, ?_⟩
    · intro key id hlookup
      cases hlookup
    · intro id hmem
      cases hmem
    · intro id error hmem
      cases hmem
    · intro id t ht
      cases ht
  · intro s action s' os hs _ hstep
    exact hs.step hstep

/-! ## The tasks, later -/

/-- A task, later. -/
structure Later (t t' : Task) : Prop where
  transferID : t'.transferID = t.transferID
  fileID : t'.fileID = t.fileID
  finished : t.isFinished = true → t'.isFinished = true

theorem Later.refl (t : Task) : Later t t := ⟨rfl, rfl, id⟩

theorem Later.trans {t₁ t₂ t₃ : Task} (first : Later t₁ t₂) (second : Later t₂ t₃) :
    Later t₁ t₃ where
  transferID := second.transferID.trans first.transferID
  fileID := second.fileID.trans first.fileID
  finished h := second.finished (first.finished h)

theorem Method.later {t t' : Task} {es : List Effect} (hm : Method t t' es) : Later t t' where
  transferID := hm.transferID
  fileID := hm.fileID
  finished h := by
    by_contra hopen
    rw [hm.finished (by simpa using hopen)] at h
    cases h

omit [DecidableEq κ] in
theorem Later.taskKey {t t' : Task} (h : Later t t') :
    taskKey characters t' = taskKey characters t := by
  rw [DownloadRegistry.taskKey, DownloadRegistry.taskKey, h.transferID, h.fileID]

/-- The same tasks, later. -/
def Keeps (s s' : Coordinator κ) : Prop := ∀ id, Option.Rel Later (s.tasks id) (s'.tasks id)

omit [DecidableEq κ] in
theorem Keeps.refl (s : Coordinator κ) : Keeps s s := by
  intro id
  cases s.tasks id with
  | none => exact .none
  | some t => exact .some (.refl t)

omit [DecidableEq κ] in
theorem Keeps.later {s s' : Coordinator κ} (h : Keeps s s') {id : Nat} {t : Task}
    (ht : s.tasks id = some t) : ∃ t', s'.tasks id = some t' ∧ Later t t' := by
  have hrel := h id
  rw [ht] at hrel
  cases htask : s'.tasks id with
  | none =>
      rw [htask] at hrel
      cases hrel
  | some t' =>
      rw [htask, Option.rel_some_some] at hrel
      exact ⟨t', rfl, hrel⟩

omit [DecidableEq κ] in
theorem Keeps.earlier {s s' : Coordinator κ} (h : Keeps s s') {id : Nat} {t' : Task}
    (ht' : s'.tasks id = some t') : ∃ t, s.tasks id = some t ∧ Later t t' := by
  have hrel := h id
  rw [ht'] at hrel
  cases htask : s.tasks id with
  | none =>
      rw [htask] at hrel
      cases hrel
  | some t =>
      rw [htask, Option.rel_some_some] at hrel
      exact ⟨t, rfl, hrel⟩

omit [DecidableEq κ] in
theorem Keeps.trans {s₁ s₂ s₃ : Coordinator κ} (first : Keeps s₁ s₂) (second : Keeps s₂ s₃) :
    Keeps s₁ s₃ := by
  intro id
  cases htask : s₁.tasks id with
  | none =>
      cases htask' : s₃.tasks id with
      | none => exact .none
      | some t₃ =>
          obtain ⟨t₂, ht₂, -⟩ := second.earlier htask'
          obtain ⟨t₁, ht₁, -⟩ := first.earlier ht₂
          rw [htask] at ht₁
          cases ht₁
  | some t₁ =>
      obtain ⟨t₂, ht₂, hlater⟩ := first.later htask
      obtain ⟨t₃, ht₃, hlater'⟩ := second.later ht₂
      rw [ht₃]
      exact .some (hlater.trans hlater')

omit [DecidableEq κ] in
theorem keeps_method {id : Nat} {t t' : Task} {es : List Effect} (ht : s.tasks id = some t)
    (hm : Method t t' es) (downloads : AList (fun _ : Key κ => Nat)) :
    Keeps s { absorb s id t' es with downloads := downloads } := by
  intro id'
  by_cases hid : id' = id
  · subst hid
    simp only [absorb, Function.update_self]
    rw [ht]
    exact .some hm.later
  · simp only [absorb, Function.update_of_ne hid]
    exact Keeps.refl s id'

theorem keeps_cancelKey (s : Coordinator κ) (key : Key κ) : Keeps s (cancelKey s key) := by
  unfold cancelKey
  split
  · exact .refl s
  · split
    · exact .refl s
    · rename_i t ht
      exact keeps_method ht (cancel_method t).1.toMethod _

theorem keeps_cancelKeys (keys : List (Key κ)) :
    ∀ s : Coordinator κ, Keeps s (keys.foldl cancelKey s) := by
  induction keys with
  | nil =>
      intro s
      exact .refl s
  | cons key keys ih =>
      intro s
      exact (keeps_cancelKey s key).trans (ih _)

theorem JobStep.keeps {env : Answers κ} {job : Job κ} {s' : Coordinator κ} {os : List Obs}
    (hjob : JobStep characters s env job s' os) : Keeps s s' := by
  cases hjob with
  | started task method => exact keeps_method task (start_method method).1 _
  | missed => exact .refl s
  | replied registered task method =>
      exact keeps_method task (handleChunkData_method method).toMethod s.downloads
  | cancelled => exact keeps_cancelKeys _ s
  | removed => exact .refl s

/-! ## The queues and the table, later -/

/-- A turn of the cancel loop leaves the queue as it is, and takes nothing
off the main queue. -/
theorem cancelKey_queues (s : Coordinator κ) (key : Key κ) :
    (cancelKey s key).queue = s.queue ∧ ∀ p ∈ s.main, p ∈ (cancelKey s key).main := by
  unfold cancelKey
  split
  · exact ⟨rfl, fun _ h => h⟩
  · split
    · exact ⟨rfl, fun _ h => h⟩
    · exact ⟨rfl, fun _ h => List.mem_append_left _ h⟩

theorem cancelKeys_queues (keys : List (Key κ)) :
    ∀ s : Coordinator κ, (keys.foldl cancelKey s).queue = s.queue ∧
      ∀ p ∈ s.main, p ∈ (keys.foldl cancelKey s).main := by
  induction keys with
  | nil =>
      intro s
      exact ⟨rfl, fun _ h => h⟩
  | cons key keys ih =>
      intro s
      obtain ⟨hqueue, hmain⟩ := cancelKey_queues s key
      obtain ⟨hqueue', hmain'⟩ := ih (cancelKey s key)
      exact ⟨hqueue'.trans hqueue, fun p hp => hmain' p (hmain p hp)⟩

/-- A closure leaves the queue behind it as it is, and takes nothing off the
main queue. -/
theorem JobStep.queues {env : Answers κ} {job : Job κ} {s' : Coordinator κ} {os : List Obs}
    (hjob : JobStep characters s env job s' os) :
    s'.queue = s.queue ∧ ∀ p ∈ s.main, p ∈ s'.main := by
  cases hjob with
  | started => exact ⟨rfl, fun _ h => List.mem_append_left _ h⟩
  | missed => exact ⟨rfl, fun _ h => h⟩
  | replied => exact ⟨rfl, fun _ h => List.mem_append_left _ h⟩
  | cancelled => exact cancelKeys_queues _ s
  | removed => exact ⟨rfl, fun _ h => h⟩

/-- No closure calls a completion by itself. -/
theorem JobStep.completes_nothing {env : Answers κ} {job : Job κ} {s' : Coordinator κ}
    {os : List Obs} (hjob : JobStep characters s env job s' os) (id : Nat)
    (error : Option FileDownloadError) : .completed id error ∉ os := by
  cases hjob with
  | started => simp
  | missed => simp
  | replied => simp
  | cancelled => simp
  | removed => simp

/-- The loop only takes keys out of the table. -/
theorem cancelKey_lookup_some (s : Coordinator κ) {key key' : Key κ} {id : Nat}
    (h : (cancelKey s key).downloads.lookup key' = some id) :
    s.downloads.lookup key' = some id := by
  by_cases hne : key' = key
  · subst hne
    unfold cancelKey at h
    split at h
    · exact h
    · split at h
      · exact h
      · simp at h
  · rwa [cancelKey_lookup_ne s hne] at h

theorem cancelKeys_lookup_some (keys : List (Key κ)) {key : Key κ} {id : Nat} :
    ∀ s : Coordinator κ,
      (keys.foldl cancelKey s).downloads.lookup key = some id →
        s.downloads.lookup key = some id := by
  induction keys with
  | nil =>
      intro s h
      exact h
  | cons key' keys ih =>
      intro s h
      exact cancelKey_lookup_some s (ih _ h)

theorem cancelKeys_lookup_notMem (keys : List (Key κ)) {key : Key κ} (hkey : key ∉ keys) :
    ∀ s : Coordinator κ, (keys.foldl cancelKey s).downloads.lookup key =
      s.downloads.lookup key := by
  induction keys with
  | nil =>
      intro s
      rfl
  | cons key' keys ih =>
      intro s
      rw [List.mem_cons, not_or] at hkey
      rw [List.foldl_cons, ih hkey.2, cancelKey_lookup_ne s hkey.1]

/-- Only its start puts a task into the table. -/
theorem JobStep.registered_before {env : Answers κ} {job : Job κ} {s' : Coordinator κ}
    {os : List Obs} (hjob : JobStep characters s env job s' os) {key : Key κ} {id : Nat}
    (hstart : job ≠ .start id) (hlookup : s'.downloads.lookup key = some id) :
    s.downloads.lookup key = some id := by
  cases hjob with
  | @started id' t t' es task method =>
      by_cases hkey : key = taskKey characters t
      · subst hkey
        rw [AList.lookup_insert, Option.some.injEq] at hlookup
        exact absurd (congrArg Job.start hlookup) hstart
      · rwa [AList.lookup_insert_ne hkey] at hlookup
  | missed => exact hlookup
  | replied => exact hlookup
  | cancelled => exact cancelKeys_lookup_some _ s hlookup
  | removed key' =>
      by_cases hkey : key = key'
      · subst hkey
        simp at hlookup
      · rwa [AList.lookup_erase_ne hkey] at hlookup

/-! ## What a closure does to one task -/

/-- The closure is one for the key: the start, a reply, the removal, or a
cancellation of its transfer. -/
def Concerns (characters : Ident → List κ) (s : Coordinator κ) (key : Key κ) : Job κ → Prop
  | .start id => ∃ t, s.tasks id = some t ∧ taskKey characters t = key
  | .chunk chunk => keyOf characters chunk.transferID chunk.fileID = key
  | .cancel tid => underTransfer characters tid key = true
  | .remove key' => key' = key

theorem Keeps.concerns {s s' : Coordinator κ} (h : Keeps s s') {key : Key κ} {job : Job κ}
    (hjob : Concerns characters s' key job) : Concerns characters s key job := by
  cases job with
  | start id =>
      obtain ⟨t', ht', hkey⟩ := hjob
      obtain ⟨t, ht, hlater⟩ := h.earlier ht'
      exact ⟨t, ht, hlater.taskKey.symm.trans hkey⟩
  | chunk => exact hjob
  | cancel => exact hjob
  | remove => exact hjob

theorem not_mem_order {env : Answers κ} {tid : Ident} {key : Key κ}
    (horder : env.order.Perm (keysToRemove characters s tid))
    (hkey : ¬ Concerns characters s key (.cancel tid)) : key ∉ env.order := by
  intro hmem
  exact hkey (List.mem_filter.mp (horder.mem_iff.mp hmem)).2

/-- A closure that is none for the key leaves its entry as it is. -/
theorem JobStep.lookup_unchanged {env : Answers κ} {job : Job κ} {s' : Coordinator κ}
    {os : List Obs} (hjob : JobStep characters s env job s' os) {key : Key κ}
    (hkey : ¬ Concerns characters s key job) :
    s'.downloads.lookup key = s.downloads.lookup key := by
  cases hjob with
  | @started id t t' es task method =>
      have hne : key ≠ taskKey characters t := by
        intro heq
        exact hkey ⟨t, task, heq.symm⟩
      exact AList.lookup_insert_ne hne
  | missed => rfl
  | replied => rfl
  | cancelled order => exact cancelKeys_lookup_notMem _ (not_mem_order order hkey) s
  | removed key' =>
      have hne : key ≠ key' := by
        intro heq
        exact hkey heq.symm
      exact AList.lookup_erase_ne hne

omit [DecidableEq κ] in
/-- What the method of another task does. -/
theorem absorb_ne {id id' : Nat} (hne : id ≠ id') (t' : Task) (es : List Effect) :
    (absorb s id' t' es).tasks id = s.tasks id ∧
      ∀ e, (id, e) ∈ (absorb s id' t' es).main → (id, e) ∈ s.main := by
  refine ⟨by simp [absorb, Function.update_of_ne hne], ?_⟩
  intro e hmem
  simp only [absorb, List.mem_append, List.mem_map, Prod.mk.injEq] at hmem
  rcases hmem with hold | hnew
  · exact hold
  · obtain ⟨-, -, hid, -⟩ := hnew
    exact absurd hid.symm hne

/-- A turn of the loop for a key under which the task does not stand. -/
theorem cancelKey_unchanged {key : Key κ} {id : Nat}
    (hlookup : s.downloads.lookup key ≠ some id) :
    (cancelKey s key).tasks id = s.tasks id ∧
      ∀ e, (id, e) ∈ (cancelKey s key).main → (id, e) ∈ s.main := by
  unfold cancelKey
  split
  · exact ⟨rfl, fun _ h => h⟩
  · rename_i id' hlookup'
    split
    · exact ⟨rfl, fun _ h => h⟩
    · refine absorb_ne ?_ _ _
      intro heq
      subst heq
      exact hlookup hlookup'

theorem cancelKeys_unchanged (keys : List (Key κ)) {id : Nat} :
    ∀ {s : Coordinator κ}, (∀ key ∈ keys, s.downloads.lookup key ≠ some id) →
      (keys.foldl cancelKey s).tasks id = s.tasks id ∧
        ∀ e, (id, e) ∈ (keys.foldl cancelKey s).main → (id, e) ∈ s.main := by
  induction keys with
  | nil =>
      intro s _
      exact ⟨rfl, fun _ h => h⟩
  | cons key keys ih =>
      intro s hkeys
      rw [List.forall_mem_cons] at hkeys
      obtain ⟨htask, hmain⟩ := cancelKey_unchanged hkeys.1
      have hrest : ∀ key' ∈ keys,
          (cancelKey s key).downloads.lookup key' ≠ some id := by
        intro key' hmem hlookup
        exact hkeys.2 key' hmem (cancelKey_lookup_some s hlookup)
      obtain ⟨htask', hmain'⟩ := ih hrest
      exact ⟨htask'.trans htask, fun e he => hmain e (hmain' e he)⟩

/-- **A closure leaves a task alone** if it is neither its start nor, while the
task stands in the table, one for its key. -/
theorem JobStep.unchanged (hs : Sane characters s) {env : Answers κ} {job : Job κ}
    {s' : Coordinator κ} {os : List Obs} (hjob : JobStep characters s env job s' os) {id : Nat}
    {t : Task} (ht : s.tasks id = some t) (hstart : job ≠ .start id)
    (hkey : s.downloads.lookup (taskKey characters t) = some id →
      ¬ Concerns characters s (taskKey characters t) job) :
    s'.tasks id = some t ∧ ∀ e, (id, e) ∈ s'.main → (id, e) ∈ s.main := by
  have hunder : ∀ key, s.downloads.lookup key = some id → taskKey characters t = key := by
    intro key hlookup
    obtain ⟨u, hu, huKey, -⟩ := hs.registered key id hlookup
    rw [ht, Option.some.injEq] at hu
    rw [hu, huKey]
  rw [← ht]
  cases hjob with
  | @started id' t' t₁ es task method =>
      have hne : id ≠ id' := by
        intro heq
        exact hstart (congrArg Job.start heq.symm)
      exact absorb_ne hne _ _
  | missed => exact ⟨rfl, fun _ h => h⟩
  | @replied chunk id' t' t₁ es registered task method =>
      refine absorb_ne ?_ _ _
      intro heq
      subst heq
      have htable := hunder _ registered
      exact hkey (htable ▸ registered) htable.symm
  | cancelled order =>
      refine cancelKeys_unchanged _ ?_
      intro key hmem hlookup
      have htable := hunder key hlookup
      subst htable
      exact not_mem_order order (hkey hlookup) hmem
  | removed => exact ⟨rfl, fun _ h => h⟩

omit [DecidableEq κ] in
/-- The completion of a finished task is not called again. -/
theorem absorb_finished {id id' : Nat} {t t₁ t' : Task} {es : List Effect}
    (ht : s.tasks id = some t) (hfinished : t.isFinished = true) (ht₁ : s.tasks id' = some t₁)
    (hm : Method t₁ t' es) {e : Option FileDownloadError}
    (hmem : (id, e) ∈ (absorb s id' t' es).main) : (id, e) ∈ s.main := by
  by_cases hid : id = id'
  · subst hid
    rw [ht, Option.some.injEq] at ht₁
    subst ht₁
    have hnone : completionsOf es = [] := by
      have hcount := hm.completions
      have hle := Bool.toNat_le t'.isFinished
      rw [hfinished] at hcount
      simp only [Bool.toNat_true] at hcount
      exact List.length_eq_zero_iff.mp (by omega)
    simpa [absorb, hnone] using hmem
  · exact (absorb_ne hid t' es).2 e hmem

theorem cancelKeys_finished (keys : List (Key κ)) {id : Nat} {e : Option FileDownloadError} :
    ∀ {s : Coordinator κ} {t : Task}, s.tasks id = some t → t.isFinished = true →
      (id, e) ∈ (keys.foldl cancelKey s).main → (id, e) ∈ s.main := by
  induction keys with
  | nil =>
      intro s t _ _ hmem
      exact hmem
  | cons key keys ih =>
      intro s t ht hfinished hmem
      obtain ⟨t', ht', hlater⟩ := (keeps_cancelKey s key).later ht
      have hturn := ih ht' (hlater.finished hfinished) hmem
      unfold cancelKey at hturn
      split at hturn
      · exact hturn
      · split at hturn
        · exact hturn
        · rename_i t₁ ht₁
          exact absorb_finished ht hfinished ht₁ (cancel_method t₁).1.toMethod hturn

theorem JobStep.finished {env : Answers κ} {job : Job κ} {s' : Coordinator κ} {os : List Obs}
    (hjob : JobStep characters s env job s' os) {id : Nat} {t : Task}
    (ht : s.tasks id = some t) (hfinished : t.isFinished = true)
    {e : Option FileDownloadError} (hmem : (id, e) ∈ s'.main) : (id, e) ∈ s.main := by
  cases hjob with
  | started task method => exact absorb_finished ht hfinished task (start_method method).1 hmem
  | missed => exact hmem
  | replied registered task method =>
      exact absorb_finished ht hfinished task (handleChunkData_method method).toMethod hmem
  | cancelled => exact cancelKeys_finished _ ht hfinished hmem
  | removed => exact hmem

/-- The loop cancels an unfinished task under one of its keys. -/
theorem cancelKeys_cancels (keys : List (Key κ)) {key : Key κ} {id : Nat} {t : Task}
    (hopen : t.isFinished = false) (hkey : key ∈ keys) :
    ∀ {s : Coordinator κ}, Sane characters s → s.downloads.lookup key = some id →
      s.tasks id = some t →
      (id, some .cancelled) ∈ (keys.foldl cancelKey s).main := by
  induction keys with
  | nil => cases hkey
  | cons key' keys ih =>
      intro s hs hlookup ht
      by_cases hnow : key = key'
      · subst hnow
        apply (cancelKeys_queues keys _).2
        simp [cancelKey, hlookup, ht, absorb, FileDownloadTask.cancel, finish,
          hopen, completionsOf]
      · -- the task under the key of this turn is another one
        have hother : s.downloads.lookup key' ≠ some id := by
          intro hlookup'
          obtain ⟨u, hu, huKey, -⟩ := hs.registered key id hlookup
          obtain ⟨v, hv, hvKey, -⟩ := hs.registered key' id hlookup'
          rw [hu, Option.some.injEq] at hv
          subst hv
          exact hnow (huKey.symm.trans hvKey)
        have hrest : key ∈ keys := by
          rcases List.mem_cons.mp hkey with heq | hmem
          · exact absurd heq hnow
          · exact hmem
        refine ih hrest (hs.cancelKey key') ?_ ?_
        · rwa [cancelKey_lookup_ne s hnow]
        · rwa [(cancelKey_unchanged hother).1]

/-- **A cancellation of its transfer cancels** an unfinished task that stands
in the table. -/
theorem JobStep.cancels (hs : Sane characters s) {env : Answers κ} {tid : Ident}
    {s' : Coordinator κ} {os : List Obs} (hjob : JobStep characters s env (.cancel tid) s' os)
    {id : Nat} {t : Task} {key : Key κ} (ht : s.tasks id = some t) (hopen : t.isFinished = false)
    (hlookup : s.downloads.lookup key = some id)
    (hunder : underTransfer characters tid key = true) : (id, some .cancelled) ∈ s'.main := by
  cases hjob with
  | cancelled order =>
      have hmem := order.mem_iff.mpr ((mem_keysToRemove hlookup).mpr hunder)
      exact cancelKeys_cancels _ hopen hmem hs hlookup ht

end

end DownloadRegistry
