import ClipboardHelper.DownloadIntegrity

/-!
# The download registry of the macOS helper

`FileTransferCoordinator` keeps the running downloads in a dictionary under
the string `transferID/fileID`.  Its three entry points put a closure on a
serial queue; a finished task calls its completion from the main queue, and
the completion puts the removal of the task's key on the serial queue again.
So between a task's end and the removal of its key there are two hops, and
anything may happen in between.

Swift compares strings and looks for prefixes by `Character`, that is by
grapheme cluster.  How a string falls into characters is a parameter,
`characters`; nothing is assumed about it.

**`registry_orderly`**: in every run in which no job runs into another task's
key (`orderly`), a chunk reaches only tasks started for its ids, a cancel
finishes exactly the unfinished tasks of its transfer, and no unfinished task
leaves the table without its completion being called.  Each kind of job can
go wrong on its own: `slash_confuses_ids`, `prefix_cancels_other`,
`restart_orphans_task`, `late_removal_orphans_task`.
-/

namespace DownloadRegistry

open Library FileDownloadTask

/-! ## State -/

section

variable {κ : Type} [DecidableEq κ]

/-- A dictionary key: a string up to Swift's equality. -/
abbrev Key (κ : Type) := List κ

/-- The closures on the coordinator's serial queue. -/
inductive Job (κ : Type)
  | start (id : Nat)
  | chunk (chunk : FileChunkData)
  | cancel (transferID : Ident)
  | remove (key : Key κ)

/-- The coordinator.  Tasks are numbered as they are created, and `main` is
the queue of completions on the main thread. -/
structure Coordinator (κ : Type) where
  created : Nat := 0
  tasks : Nat → Option Task := fun _ => none
  downloads : AList (fun _ : Key κ => Nat) := ∅
  queue : List (Job κ) := []
  main : List (Nat × Option FileDownloadError) := []

inductive Obs
  | reached (id : Nat) (chunk : FileChunkData)
  | completed (id : Nat) (error : Option FileDownloadError)
deriving DecidableEq, Repr

variable (characters : Ident → List κ)

/-- Swift's `==`. -/
def Same (a b : Ident) : Prop := characters a = characters b

/-- `"\(transferID)/\(fileID)"`. -/
def keyOf (transferID fileID : Ident) : Key κ := characters (transferID ++ '/' :: fileID)

def taskKey (t : Task) : Key κ := keyOf characters t.transferID t.fileID

/-- `hasPrefix("\(transferID)/")`. -/
def underTransfer (transferID : Ident) (key : Key κ) : Bool :=
  (characters (transferID ++ ['/'])).isPrefixOf key

/-! ## Steps -/

/-- Take over what a method of task `id` has done.  `finish` hops its
completion to the main queue. -/
def absorb (s : Coordinator κ) (id : Nat) (t : Task) (es : List Effect) : Coordinator κ :=
  { s with
      tasks := Function.update s.tasks id (some t),
      main := s.main ++ (completionsOf es).map (fun error => (id, error)) }

def startFileDownload (s : Coordinator κ) (transferID fileID : Ident) (fileSize : Nat)
    (destPath : String) : Option (Coordinator κ × List Obs) :=
  match init transferID fileID fileSize destPath with
  | none => none
  | some t =>
    some ({ s with
        created := s.created + 1,
        tasks := Function.update s.tasks s.created (some t),
        queue := s.queue ++ [.start s.created] }, [])

/-- One turn of the loop in `cancelTransfer`. -/
def cancelKey (s : Coordinator κ) (key : Key κ) : Coordinator κ :=
  match s.downloads.lookup key with
  | none => s
  | some id =>
    match s.tasks id with
    | none => s
    | some t =>
      let (t', es) := FileDownloadTask.cancel t
      { absorb s id t' es with downloads := s.downloads.erase key }

/-- The keys that `cancelTransfer` collects. -/
def keysToRemove (s : Coordinator κ) (transferID : Ident) : List (Key κ) :=
  s.downloads.keys.filter (underTransfer characters transferID)

/-- What the world answers while a job runs: the file system, and the order in
which the dictionary lists the keys to remove. -/
structure Answers (κ : Type) where
  createOk : Bool := true
  openOk : Bool := true
  ioError : Option String := none
  order : List (Key κ) := []

/-- Run one closure of the serial queue. -/
def runJob (s : Coordinator κ) (env : Answers κ) : Job κ → Option (Coordinator κ × List Obs)
  | .start id =>
    match s.tasks id with
    | none => none
    | some t =>
      match start t env.createOk env.openOk with
      | none => none
      | some (t', es) =>
        some ({ absorb s id t' es with
          downloads := s.downloads.insert (taskKey characters t) id }, [])
  | .chunk chunk =>
    match s.downloads.lookup (keyOf characters chunk.transferID chunk.fileID) with
    | none => some (s, [])
    | some id =>
      match s.tasks id with
      | none => none
      | some t =>
        match FileDownloadTask.handleChunkData t chunk env.ioError with
        | none => none
        | some (t', es) => some (absorb s id t' es, [.reached id chunk])
  | .cancel transferID =>
    if env.order.Perm (keysToRemove characters s transferID) then
      some (env.order.foldl cancelKey s, [])
    else none
  | .remove key => some ({ s with downloads := s.downloads.erase key }, [])

inductive Action (κ : Type)
  | startFileDownload (transferID fileID : Ident) (fileSize : Nat) (destPath : String)
  | handleChunkData (chunk : FileChunkData)
  | cancelTransfer (transferID : Ident)
  | runQueue (env : Answers κ)
  | runMain

/-- **The coordinator**: calls from any thread, and the two queues, in any
order.  A trap ends the process and is no step. -/
def machine : Machine (Coordinator κ) (Action κ) Obs where
  step s
    | .startFileDownload transferID fileID fileSize destPath =>
      startFileDownload s transferID fileID fileSize destPath
    | .handleChunkData chunk => some ({ s with queue := s.queue ++ [.chunk chunk] }, [])
    | .cancelTransfer transferID =>
      some ({ s with queue := s.queue ++ [.cancel transferID] }, [])
    | .runQueue env =>
      match s.queue with
      | [] => none
      | job :: rest => runJob characters { s with queue := rest } env job
    | .runMain =>
      match s.main with
      | [] => none
      | (id, error) :: rest =>
        match s.tasks id with
        | none => none
        | some t =>
          some ({ s with
              main := rest, queue := s.queue ++ [.remove (taskKey characters t)] },
            [.completed id error])

end

/-! ## What a method does to its task -/

/-- A method keeps the ids, and calls the completion once when it finishes
the task and not otherwise. -/
structure Method (t t' : Task) (es : List Effect) : Prop where
  transferID : t'.transferID = t.transferID
  fileID : t'.fileID = t.fileID
  completions : (completionsOf es).length + t.isFinished.toNat = t'.isFinished.toNat

/-- A method other than `start` also keeps whether the task was started. -/
structure QuietMethod (t t' : Task) (es : List Effect) : Prop extends Method t t' es where
  sendRequest : t'.sendRequest = t.sendRequest

theorem QuietMethod.trans {t₁ t₂ t₃ : Task} {es fs : List Effect}
    (first : QuietMethod t₁ t₂ es) (second : QuietMethod t₂ t₃ fs) :
    QuietMethod t₁ t₃ (es ++ fs) where
  transferID := second.transferID.trans first.transferID
  fileID := second.fileID.trans first.fileID
  completions := by
    have hfirst := first.completions
    have hsecond := second.completions
    rw [completionsOf_append, List.length_append]
    omega
  sendRequest := second.sendRequest.trans first.sendRequest

theorem QuietMethod.refl (t : Task) : QuietMethod t t [] :=
  ⟨⟨rfl, rfl, by simp [completionsOf]⟩, rfl⟩

theorem finish_method (t : Task) (error : Option FileDownloadError) :
    QuietMethod t (finish t error).1 (finish t error).2 ∧ (finish t error).1.isFinished = true := by
  unfold finish
  split
  · rename_i hfinished
    exact ⟨.refl t, hfinished⟩
  · rename_i hfinished
    exact ⟨⟨⟨rfl, rfl, by simp [completionsOf, hfinished]⟩, rfl⟩, rfl⟩

theorem primeLoop_method {fuel : Nat} {t t' : Task} {es : List Effect}
    (h : primeLoop fuel t = some (t', es)) : QuietMethod t t' es := by
  induction fuel generalizing t es with
  | zero =>
      cases h
      exact .refl t'
  | succ fuel ih =>
      simp only [primeLoop] at h
      split at h
      · split at h
        · split at h
          · rename_i t₁ es₁ hrest
            cases h
            obtain ⟨⟨htransfer, hfile, hcompletions⟩, hsend⟩ := ih hrest
            exact ⟨⟨htransfer, hfile, hcompletions⟩, hsend⟩
          · cases h
        · cases h
      · cases h
        exact .refl t'

theorem primeRequests_method {t t' : Task} {es : List Effect}
    (h : primeRequests t = some (t', es)) : QuietMethod t t' es := by
  unfold primeRequests at h
  split at h
  · exact primeLoop_method h
  · cases h
    exact .refl t

/-- `start` marks the task as started. -/
theorem start_method {t t' : Task} {createOk openOk : Bool} {es : List Effect}
    (h : start t createOk openOk = some (t', es)) : Method t t' es ∧ t'.sendRequest = true := by
  unfold FileDownloadTask.start at h
  simp only at h
  have hinner : ∀ t₁ : Task, QuietMethod t₁ t' es → t₁.transferID = t.transferID →
      t₁.fileID = t.fileID → t₁.isFinished = t.isFinished → t₁.sendRequest = true →
      Method t t' es ∧ t'.sendRequest = true := by
    intro t₁ hquiet htransfer hfile hfinished hsend
    refine ⟨⟨hquiet.transferID.trans htransfer, hquiet.fileID.trans hfile, ?_⟩,
      hquiet.sendRequest.trans hsend⟩
    rw [← hfinished]
    exact hquiet.completions
  cases createOk with
  | false =>
      simp only [Bool.false_eq_true, if_false] at h
      split at h
      · have hquiet := (finish_method { t with sendRequest := true } none).1
        rw [Option.some.inj h] at hquiet
        exact hinner _ hquiet rfl rfl rfl rfl
      · split at h
        · exact hinner _ (primeRequests_method h) rfl rfl rfl rfl
        · have hquiet := (finish_method { t with sendRequest := true, file := none }
            (some (.createFailed t.destPath))).1
          rw [Option.some.inj h] at hquiet
          exact hinner _ hquiet rfl rfl rfl rfl
  | true =>
      simp only [if_true] at h
      split at h
      · have hquiet := (finish_method { t with sendRequest := true, file := some [] } none).1
        rw [Option.some.inj h] at hquiet
        exact hinner _ hquiet rfl rfl rfl rfl
      · split at h
        · exact hinner _ (primeRequests_method h) rfl rfl rfl rfl
        · have hquiet := (finish_method { t with sendRequest := true, file := none }
            (some (.createFailed t.destPath))).1
          rw [Option.some.inj h] at hquiet
          exact hinner _ hquiet rfl rfl rfl rfl

theorem writeChunk_method (t : Task) (chunk : FileChunkData) :
    QuietMethod t (writeChunk t chunk).1 (writeChunk t chunk).2 := by
  unfold writeChunk
  split
  · exact ⟨⟨rfl, rfl, by simp [completionsOf]⟩, rfl⟩
  · exact .refl t

theorem accountChunk_method {t t' : Task} {chunk : FileChunkData} {es : List Effect}
    (h : accountChunk t chunk = some (t', es)) : QuietMethod t t' es := by
  unfold accountChunk at h
  simp only at h
  have hcount : QuietMethod t
      { t with receivedBytes := t.receivedBytes + chunk.data.length } [] :=
    ⟨⟨rfl, rfl, by simp [completionsOf]⟩, rfl⟩
  split at h
  · split at h
    · have hfinish := (finish_method
        { t with receivedBytes := t.receivedBytes + chunk.data.length } none).1
      rw [Option.some.inj h] at hfinish
      exact hcount.trans hfinish
    · exact hcount.trans (primeRequests_method h)
  · cases h

theorem handleChunkData_method {t t' : Task} {chunk : FileChunkData} {ioError : Option String}
    {es : List Effect} (h : FileDownloadTask.handleChunkData t chunk ioError = some (t', es)) :
    QuietMethod t t' es := by
  unfold FileDownloadTask.handleChunkData at h
  have hcount : QuietMethod t { t with inFlight := t.inFlight - 1 } [] :=
    ⟨⟨rfl, rfl, by simp [completionsOf]⟩, rfl⟩
  have hfinish : ∀ error, some (finish { t with inFlight := t.inFlight - 1 } error) =
      some (t', es) → QuietMethod t t' es := by
    intro error heq
    have hquiet := (finish_method { t with inFlight := t.inFlight - 1 } error).1
    rw [Option.some.inj heq] at hquiet
    exact hcount.trans hquiet
  split at h
  · cases h
    exact .refl t
  · simp only at h
    split at h
    · exact hfinish _ h
    · split at h
      · exact hfinish _ h
      · split at h
        · exact hfinish _ h
        · split at h
          · rename_i haccount
            cases h
            have hwrite := writeChunk_method { t with inFlight := t.inFlight - 1 } chunk
            exact hcount.trans (hwrite.trans (accountChunk_method haccount))
          · cases h

theorem cancel_method (t : Task) :
    QuietMethod t (FileDownloadTask.cancel t).1 (FileDownloadTask.cancel t).2 ∧
      (FileDownloadTask.cancel t).1.isFinished = true := by
  have hmark : QuietMethod t { t with isCancelled := true } [] :=
    ⟨⟨rfl, rfl, by simp [completionsOf]⟩, rfl⟩
  obtain ⟨hquiet, hfinished⟩ := finish_method { t with isCancelled := true } (some .cancelled)
  exact ⟨hmark.trans hquiet, hfinished⟩

/-! ## Orderly runs -/

section

variable {κ : Type} [DecidableEq κ] (characters : Ident → List κ)

/-- The condition on the job at the head of the serial queue.

* A start finds no unfinished task under its key.
* A chunk finds no task of other ids under its key.
* For a cancel, the unfinished tasks whose key begins with `transferID/` are
  those of the transfer.
* A removal finds no unfinished task under its key.
-/
def orderly (s : Coordinator κ) : Action κ → Prop
  | .runQueue _ =>
    match s.queue with
    | .start id :: _ => ∀ t old told, s.tasks id = some t →
        s.downloads.lookup (taskKey characters t) = some old → s.tasks old = some told →
        told.isFinished = true
    | .chunk chunk :: _ => ∀ id t,
        s.downloads.lookup (keyOf characters chunk.transferID chunk.fileID) = some id →
        s.tasks id = some t →
        Same characters t.transferID chunk.transferID ∧ Same characters t.fileID chunk.fileID
    | .cancel transferID :: _ => ∀ key id t, s.downloads.lookup key = some id →
        s.tasks id = some t → t.isFinished = false →
        (underTransfer characters transferID key = true ↔
          Same characters t.transferID transferID)
    | .remove key :: _ => ∀ id t, s.downloads.lookup key = some id → s.tasks id = some t →
        t.isFinished = true
    | [] => True
  | _ => True

def Obs.isCompleted (id : Nat) : Obs → Bool
  | .completed id' _ => id' = id
  | _ => false

/-- How often the completion of a task has been called or waits on the main
queue. -/
def scheduled (h : List Obs) (s : Coordinator κ) (id : Nat) : Nat :=
  s.main.countP (fun m => m.1 = id) + h.countP (Obs.isCompleted id)

/-- The registry between two jobs.

* `registered`: the table holds started tasks under their own keys;
* `kept`: it holds every started task that is unfinished;
* `reached`: chunks went to tasks of their ids;
* `completions`: a task's completion is scheduled once when it is finished,
  and not before. -/
structure Registry (h : List Obs) (s : Coordinator κ) : Prop where
  registered : ∀ key id, s.downloads.lookup key = some id →
    ∃ t, s.tasks id = some t ∧ taskKey characters t = key ∧ t.sendRequest = true
  kept : ∀ id t, s.tasks id = some t → t.sendRequest = true → t.isFinished = false →
    s.downloads.lookup (taskKey characters t) = some id
  reached : ∀ id chunk, .reached id chunk ∈ h → ∃ t, s.tasks id = some t ∧
    Same characters t.transferID chunk.transferID ∧ Same characters t.fileID chunk.fileID
  completions : ∀ id t, s.tasks id = some t → scheduled h s id = t.isFinished.toNat
  fresh : ∀ id, s.created ≤ id → s.tasks id = none ∧ scheduled h s id = 0

variable {characters} {h : List Obs} {s : Coordinator κ}

omit [DecidableEq κ] in
theorem taskKey_eq {t t' : Task} {es : List Effect} (hm : Method t t' es) :
    taskKey characters t' = taskKey characters t := by
  rw [taskKey, taskKey, hm.transferID, hm.fileID]

theorem Method.finished {t t' : Task} {es : List Effect} (hm : Method t t' es)
    (h : t'.isFinished = false) : t.isFinished = false := by
  have hcount := hm.completions
  rw [h] at hcount
  cases hfinished : t.isFinished with
  | false => rfl
  | true => simp [hfinished] at hcount

omit [DecidableEq κ] in
/-- A method's completions are scheduled for its own task. -/
theorem scheduled_absorb (h : List Obs) (s : Coordinator κ) (id : Nat) (t : Task)
    (es : List Effect) (downloads : AList (fun _ : Key κ => Nat)) (id' : Nat) :
    scheduled h { absorb s id t es with downloads := downloads } id' =
      scheduled h s id' + if id' = id then (completionsOf es).length else 0 := by
  simp only [scheduled, absorb, List.countP_append, List.countP_map]
  by_cases hid : id' = id
  · subst hid
    simp [Function.comp_def]
    omega
  · simp [Function.comp_def, Ne.symm hid, hid]

/-- **A method call keeps the registry**, with `downloads` the table
afterwards. -/
theorem Registry.method (hi : Registry characters h s) {id : Nat} {t t' : Task}
    {es : List Effect} (ht : s.tasks id = some t) (hm : Method t t' es)
    (downloads : AList (fun _ : Key κ => Nat))
    (hregistered : ∀ key id', downloads.lookup key = some id' →
      (id' = id ∧ key = taskKey characters t ∧ t'.sendRequest = true) ∨
        (id' ≠ id ∧ s.downloads.lookup key = some id'))
    (hself : t'.sendRequest = true → t'.isFinished = false →
      downloads.lookup (taskKey characters t) = some id)
    (hothers : ∀ id' u, id' ≠ id → s.tasks id' = some u → u.sendRequest = true →
      u.isFinished = false → downloads.lookup (taskKey characters u) = some id') :
    Registry characters h { absorb s id t' es with downloads := downloads } := by
  refine ⟨?_, ?_, ?_, ?_, ?_⟩
  · intro key id' hlookup
    rcases hregistered key id' hlookup with ⟨rfl, rfl, hsend⟩ | ⟨hne, hold⟩
    · exact ⟨t', by simp [absorb], taskKey_eq hm, hsend⟩
    · obtain ⟨u, hu, hkey, hsend⟩ := hi.registered key id' hold
      exact ⟨u, by simp [absorb, Function.update_of_ne hne, hu], hkey, hsend⟩
  · intro id' u hu hsend hunfinished
    by_cases hid : id' = id
    · subst hid
      simp only [absorb, Function.update_self, Option.some.injEq] at hu
      subst hu
      rw [taskKey_eq hm]
      exact hself hsend hunfinished
    · simp only [absorb, Function.update_of_ne hid] at hu
      exact hothers id' u hid hu hsend hunfinished
  · intro id' chunk hmem
    obtain ⟨u, hu, hids⟩ := hi.reached id' chunk hmem
    by_cases hid : id' = id
    · subst hid
      rw [ht, Option.some.injEq] at hu
      subst hu
      refine ⟨t', by simp [absorb], ?_⟩
      rw [hm.transferID, hm.fileID]
      exact hids
    · exact ⟨u, by simp [absorb, Function.update_of_ne hid, hu], hids⟩
  · intro id' u hu
    rw [scheduled_absorb]
    by_cases hid : id' = id
    · subst hid
      simp only [absorb, Function.update_self, Option.some.injEq] at hu
      subst hu
      have hm' := hm.completions
      rw [hi.completions id' t ht, if_pos rfl]
      omega
    · simp only [absorb, Function.update_of_ne hid] at hu
      rw [if_neg hid, Nat.add_zero]
      exact hi.completions id' u hu
  · intro id' hle
    obtain ⟨hnone, hzero⟩ := hi.fresh id' hle
    have hid : id' ≠ id := by
      rintro rfl
      rw [ht] at hnone
      cases hnone
    refine ⟨by simp [absorb, Function.update_of_ne hid, hnone], ?_⟩
    rw [scheduled_absorb, hzero, if_neg hid]

/-! ## The cancel loop -/

/-- The task registered under a key is the only one, and its key is that
key. -/
theorem Registry.unique (hi : Registry characters h s) {key key' : Key κ} {id : Nat}
    (hlookup : s.downloads.lookup key = some id) (hlookup' : s.downloads.lookup key' = some id) :
    key = key' := by
  obtain ⟨t, ht, hkey, -⟩ := hi.registered key id hlookup
  obtain ⟨t', ht', hkey', -⟩ := hi.registered key' id hlookup'
  rw [ht, Option.some.injEq] at ht'
  rw [← hkey, ← hkey', ht']

theorem Registry.cancelKey (hi : Registry characters h s) (key : Key κ) :
    Registry characters h (cancelKey s key) := by
  unfold DownloadRegistry.cancelKey
  split
  · exact hi
  · rename_i id hlookup
    split
    · exact hi
    · rename_i t ht
      obtain ⟨hm, hfinished⟩ := cancel_method t
      obtain ⟨t', ht', hkey, -⟩ := hi.registered key id hlookup
      rw [ht, Option.some.injEq] at ht'
      subst ht'
      refine hi.method ht hm.toMethod (s.downloads.erase key) ?_ ?_ ?_
      · intro key' id' hlookup'
        have hne : key' ≠ key := by
          rintro rfl
          simp at hlookup'
        rw [AList.lookup_erase_ne hne] at hlookup'
        refine .inr ⟨?_, hlookup'⟩
        rintro rfl
        exact hne (hi.unique hlookup' hlookup)
      · intro _ hunfinished
        rw [hfinished] at hunfinished
        cases hunfinished
      · intro id' u hne hu hsend hunfinished
        have hkept := hi.kept id' u hu hsend hunfinished
        have hkeys : taskKey characters u ≠ key := by
          intro heq
          rw [heq, hlookup, Option.some.injEq] at hkept
          exact hne hkept.symm
        rw [AList.lookup_erase_ne hkeys]
        exact hkept

/-- One turn of the loop, seen from any task. -/
theorem cancelKey_tasks (hi : Registry characters h s) (key : Key κ) {id : Nat} {t : Task}
    (ht : s.tasks id = some t) :
    (cancelKey s key).tasks id =
      some (if s.downloads.lookup key = some id then (FileDownloadTask.cancel t).1 else t) := by
  unfold DownloadRegistry.cancelKey
  split
  · rename_i hnone
    simp [hnone, ht]
  · rename_i id' hlookup
    obtain ⟨t', ht', -, -⟩ := hi.registered key id' hlookup
    rw [ht']
    by_cases hid : id = id'
    · subst hid
      rw [ht, Option.some.injEq] at ht'
      simp [absorb, hlookup, ht']
    · simp [absorb, hlookup, Function.update_of_ne hid, Ne.symm hid, ht]

theorem cancelKey_lookup_ne (s : Coordinator κ) {key key' : Key κ} (hne : key' ≠ key) :
    (cancelKey s key).downloads.lookup key' = s.downloads.lookup key' := by
  unfold DownloadRegistry.cancelKey
  split
  · rfl
  · split
    · rfl
    · exact AList.lookup_erase_ne hne

/-- **The loop cancels the tasks under its keys**, and no others. -/
theorem cancelKeys_tasks {keys : List (Key κ)} (hi : Registry characters h s)
    (hnodup : keys.Nodup) :
    Registry characters h (keys.foldl cancelKey s) ∧
      ∀ id t, s.tasks id = some t → (keys.foldl cancelKey s).tasks id =
        some (if ∃ key ∈ keys, s.downloads.lookup key = some id
          then (FileDownloadTask.cancel t).1 else t) := by
  induction keys generalizing s with
  | nil => exact ⟨hi, fun id t ht => by simpa using ht⟩
  | cons key keys ih =>
      obtain ⟨hnotin, hnodup⟩ := List.nodup_cons.mp hnodup
      obtain ⟨hregistry, htasks⟩ := ih (hi.cancelKey key) hnodup
      refine ⟨hregistry, ?_⟩
      intro id t ht
      rw [List.foldl_cons, htasks id _ (cancelKey_tasks hi key ht)]
      have hlater : (∃ key' ∈ keys, (cancelKey s key).downloads.lookup key' = some id) ↔
          ∃ key' ∈ keys, s.downloads.lookup key' = some id := by
        apply exists_congr
        intro key'
        apply and_congr_right
        intro hmem
        have hne : key' ≠ key := by
          rintro rfl
          exact hnotin hmem
        rw [cancelKey_lookup_ne s hne]
      simp only [hlater, List.mem_cons, exists_eq_or_imp]
      by_cases hnow : s.downloads.lookup key = some id
      · have hno : ¬ ∃ key' ∈ keys, s.downloads.lookup key' = some id := by
          rintro ⟨key', hmem, hlookup⟩
          exact hnotin (hi.unique hnow hlookup ▸ hmem)
        simp [hnow, hno]
      · simp [hnow]

/-- Membership in the collected keys. -/
theorem mem_keysToRemove {transferID : Ident} {key : Key κ} {id : Nat}
    (hlookup : s.downloads.lookup key = some id) :
    key ∈ keysToRemove characters s transferID ↔
      underTransfer characters transferID key = true := by
  have hmem : key ∈ s.downloads.keys := by
    rw [← AList.mem_keys, ← AList.lookup_isSome, hlookup]
    rfl
  simp [keysToRemove, hmem]

/-! ## Steps and runs -/

/-- A step that leaves tasks, table and completions as they are. -/
theorem Registry.requeue (hi : Registry characters h s) (queue : List (Job κ)) :
    Registry characters h { s with queue := queue } :=
  ⟨hi.registered, hi.kept, hi.reached, hi.completions, hi.fresh⟩

theorem Registry.startFileDownload (hi : Registry characters h s) {t : Task}
    {transferID fileID : Ident} {fileSize : Nat} {destPath : String}
    (ht : init transferID fileID fileSize destPath = some t) :
    Registry characters h
      { s with
          created := s.created + 1,
          tasks := Function.update s.tasks s.created (some t),
          queue := s.queue ++ [.start s.created] } := by
  have hfields : t.sendRequest = false ∧ t.isFinished = false := by
    unfold init at ht
    split at ht
    · cases ht
      exact ⟨rfl, rfl⟩
    · cases ht
  obtain ⟨hnone, hzero⟩ := hi.fresh s.created (le_refl _)
  have hother : ∀ id u, s.tasks id = some u → id ≠ s.created := by
    rintro id u hu rfl
    rw [hnone] at hu
    cases hu
  refine ⟨?_, ?_, ?_, ?_, ?_⟩
  · intro key id hlookup
    obtain ⟨u, hu, hkey, hsend⟩ := hi.registered key id hlookup
    exact ⟨u, by simp [Function.update_of_ne (hother id u hu), hu], hkey, hsend⟩
  · intro id u hu hsend hunfinished
    by_cases hid : id = s.created
    · subst hid
      simp only [Function.update_self, Option.some.injEq] at hu
      subst hu
      rw [hfields.1] at hsend
      cases hsend
    · simp only [Function.update_of_ne hid] at hu
      exact hi.kept id u hu hsend hunfinished
  · intro id chunk hmem
    obtain ⟨u, hu, hids⟩ := hi.reached id chunk hmem
    exact ⟨u, by simp [Function.update_of_ne (hother id u hu), hu], hids⟩
  · intro id u hu
    by_cases hid : id = s.created
    · subst hid
      simp only [Function.update_self, Option.some.injEq] at hu
      subst hu
      rw [hfields.2]
      exact hzero
    · simp only [Function.update_of_ne hid] at hu
      exact hi.completions id u hu
  · intro id hle
    have hid : id ≠ s.created := by
      rintro rfl
      exact absurd hle (by simp)
    obtain ⟨hnone', hzero'⟩ := hi.fresh id (Nat.le_of_succ_le hle)
    exact ⟨by simp [Function.update_of_ne hid, hnone'], hzero'⟩

/-- A start job. -/
theorem Registry.start (hi : Registry characters h s) {id : Nat} {t t' : Task}
    {createOk openOk : Bool} {es : List Effect} (ht : s.tasks id = some t)
    (hstart : start t createOk openOk = some (t', es))
    (hfree : ∀ old told, s.downloads.lookup (taskKey characters t) = some old →
      s.tasks old = some told → told.isFinished = true) :
    Registry characters h
      { absorb s id t' es with downloads := s.downloads.insert (taskKey characters t) id } := by
  obtain ⟨hm, hsend⟩ := start_method hstart
  refine hi.method ht hm _ ?_ ?_ ?_
  · intro key id' hlookup
    by_cases hkey : key = taskKey characters t
    · subst hkey
      rw [AList.lookup_insert, Option.some.injEq] at hlookup
      exact .inl ⟨hlookup.symm, rfl, hsend⟩
    · rw [AList.lookup_insert_ne hkey] at hlookup
      refine .inr ⟨?_, hlookup⟩
      rintro rfl
      obtain ⟨u, hu, hkey', -⟩ := hi.registered key id' hlookup
      rw [ht, Option.some.injEq] at hu
      subst hu
      exact hkey hkey'.symm
  · intro _ _
    exact AList.lookup_insert s.downloads
  · intro id' u hne hu hsend' hunfinished
    have hkept := hi.kept id' u hu hsend' hunfinished
    have hkeys : taskKey characters u ≠ taskKey characters t := by
      intro heq
      have hfinished := hfree id' u (heq ▸ hkept) hu
      rw [hunfinished] at hfinished
      cases hfinished
    rw [AList.lookup_insert_ne hkeys]
    exact hkept

/-- A chunk job that finds a task of its ids. -/
theorem Registry.chunk (hi : Registry characters h s) {id : Nat} {t t' : Task}
    {chunk : FileChunkData} {ioError : Option String} {es : List Effect} {key : Key κ}
    (hlookup : s.downloads.lookup key = some id) (ht : s.tasks id = some t)
    (hchunk : FileDownloadTask.handleChunkData t chunk ioError = some (t', es))
    (hids : Same characters t.transferID chunk.transferID ∧
      Same characters t.fileID chunk.fileID) :
    Registry characters (h ++ [.reached id chunk]) (absorb s id t' es) := by
  have hm := handleChunkData_method hchunk
  have hbase : Registry characters h (absorb s id t' es) := by
    refine hi.method ht hm.toMethod s.downloads ?_ ?_ ?_
    · intro key' id' hlookup'
      obtain ⟨u, hu, hkey', hsend⟩ := hi.registered key' id' hlookup'
      by_cases hid : id' = id
      · subst hid
        rw [ht, Option.some.injEq] at hu
        subst hu
        exact .inl ⟨rfl, hkey'.symm, hm.sendRequest.trans hsend⟩
      · exact .inr ⟨hid, hlookup'⟩
    · intro hsend hunfinished
      exact hi.kept id t ht (hm.sendRequest ▸ hsend) (hm.toMethod.finished hunfinished)
    · intro id' u _ hu hsend hunfinished
      exact hi.kept id' u hu hsend hunfinished
  have hscheduled : ∀ id', scheduled (h ++ [.reached id chunk]) (absorb s id t' es) id' =
      scheduled h (absorb s id t' es) id' := by
    intro id'
    simp [scheduled, Obs.isCompleted]
  refine ⟨hbase.registered, hbase.kept, ?_, ?_, ?_⟩
  · intro id' chunk' hmem
    rcases List.mem_append.mp hmem with hold | hnew
    · exact hbase.reached id' chunk' hold
    · simp only [List.mem_singleton, Obs.reached.injEq] at hnew
      obtain ⟨rfl, rfl⟩ := hnew
      refine ⟨t', by simp [absorb], ?_⟩
      rw [hm.transferID, hm.fileID]
      exact hids
  · intro id' u hu
    rw [hscheduled]
    exact hbase.completions id' u hu
  · intro id' hle
    rw [hscheduled]
    exact hbase.fresh id' hle

/-- A removal that finds no unfinished task. -/
theorem Registry.remove (hi : Registry characters h s) {key : Key κ}
    (hfree : ∀ id t, s.downloads.lookup key = some id → s.tasks id = some t →
      t.isFinished = true) :
    Registry characters h { s with downloads := s.downloads.erase key } := by
  refine ⟨?_, ?_, hi.reached, hi.completions, hi.fresh⟩
  · intro key' id hlookup
    have hne : key' ≠ key := by
      rintro rfl
      simp at hlookup
    rw [AList.lookup_erase_ne hne] at hlookup
    exact hi.registered key' id hlookup
  · intro id t ht hsend hunfinished
    have hkept := hi.kept id t ht hsend hunfinished
    have hne : taskKey characters t ≠ key := by
      intro heq
      have hfinished := hfree id t (heq ▸ hkept) ht
      rw [hunfinished] at hfinished
      cases hfinished
    rw [AList.lookup_erase_ne hne]
    exact hkept

/-- A completion on the main queue. -/
theorem Registry.runMain (hi : Registry characters h s) {id : Nat}
    {error : Option FileDownloadError} {rest : List (Nat × Option FileDownloadError)}
    (hmain : s.main = (id, error) :: rest) (queue : List (Job κ)) :
    Registry characters (h ++ [.completed id error]) { s with main := rest, queue := queue } := by
  have hscheduled : ∀ id', scheduled (h ++ [.completed id error])
      { s with main := rest, queue := queue } id' = scheduled h s id' := by
    intro id'
    by_cases hid : id = id'
    · simp [scheduled, hmain, Obs.isCompleted, hid]
      omega
    · simp [scheduled, hmain, Obs.isCompleted, hid]
  refine ⟨hi.registered, hi.kept, ?_, ?_, ?_⟩
  · intro id' chunk hmem
    exact hi.reached id' chunk (by simpa using hmem)
  · intro id' t ht
    rw [hscheduled]
    exact hi.completions id' t ht
  · intro id' hle
    rw [hscheduled]
    exact hi.fresh id' hle

/-- **One step keeps the registry**, when its job is orderly. -/
theorem step_registry {os : List Obs} {s' : Coordinator κ} {a : Action κ}
    (hi : Registry characters h s) (hok : orderly characters s a)
    (hstep : (machine characters).step s a = some (s', os)) :
    Registry characters (h ++ os) s' := by
  cases a with
  | startFileDownload transferID fileID fileSize destPath =>
      simp only [machine, startFileDownload] at hstep
      split at hstep
      · cases hstep
      · rename_i t ht
        cases hstep
        rw [List.append_nil]
        exact hi.startFileDownload ht
  | handleChunkData chunk =>
      cases hstep
      rw [List.append_nil]
      exact hi.requeue _
  | cancelTransfer transferID =>
      cases hstep
      rw [List.append_nil]
      exact hi.requeue _
  | runMain =>
      simp only [machine] at hstep
      split at hstep
      · cases hstep
      · rename_i id error rest hmain
        split at hstep
        · cases hstep
        · cases hstep
          exact hi.runMain hmain _
  | runQueue env =>
      simp only [machine] at hstep
      split at hstep
      · cases hstep
      · rename_i job rest hqueue
        have hi' := hi.requeue rest
        simp only [orderly, hqueue] at hok
        cases job with
        | start id =>
            simp only [runJob] at hstep
            split at hstep
            · cases hstep
            · rename_i t ht
              split at hstep
              · cases hstep
              · rename_i t' es hstart
                cases hstep
                rw [List.append_nil]
                exact hi'.start ht hstart (fun old told => hok t old told ht)
        | chunk chunk =>
            simp only [runJob] at hstep
            split at hstep
            · cases hstep
              rw [List.append_nil]
              exact hi'
            · rename_i id hlookup
              split at hstep
              · cases hstep
              · rename_i t ht
                split at hstep
                · cases hstep
                · rename_i t' es hchunk
                  cases hstep
                  exact hi'.chunk hlookup ht hchunk (hok id t hlookup ht)
        | cancel transferID =>
            simp only [runJob] at hstep
            split at hstep
            · rename_i hperm
              cases hstep
              rw [List.append_nil]
              refine (cancelKeys_tasks hi' (hperm.nodup_iff.mpr ?_)).1
              exact (AList.keys_nodup _).filter _
            · cases hstep
        | remove key =>
            cases hstep
            rw [List.append_nil]
            exact hi'.remove hok

theorem registry_initial : Registry characters [] ({} : Coordinator κ) := by
  refine ⟨by simp, by simp, by simp, by simp, ?_⟩
  intro id _
  exact ⟨rfl, rfl⟩

/-- **The registry is orderly** along orderly runs.

* (a) Every chunk that reached a task carried the ids the task was started
  with.
* (b) When the job of `cancelTransfer(transferID)` runs, it cancels each
  unfinished task that was started with that `transferID`, and leaves every
  other unfinished task as it is.
* (c) Every started task that is unfinished is in the table under its own
  key; and a task's completion has been called or waits on the main queue
  exactly once if the task is finished, and not at all otherwise. -/
theorem registry_orderly {h : List Obs} {s : Coordinator κ}
    (hrun : Machine.Run (machine characters) (orderly characters) {} h s) :
    (∀ id chunk, .reached id chunk ∈ h → ∃ t, s.tasks id = some t ∧
      Same characters t.transferID chunk.transferID ∧ Same characters t.fileID chunk.fileID) ∧
    (∀ env transferID rest s' os, s.queue = .cancel transferID :: rest →
      orderly characters s (.runQueue env) →
      (machine characters).step s (.runQueue env) = some (s', os) →
      ∀ id t, s.tasks id = some t → t.isFinished = false →
        (t.sendRequest = true → Same characters t.transferID transferID →
          s'.tasks id = some (FileDownloadTask.cancel t).1) ∧
        (¬ (t.sendRequest = true ∧ Same characters t.transferID transferID) →
          s'.tasks id = some t)) ∧
    (∀ id t, s.tasks id = some t →
      (t.sendRequest = true → t.isFinished = false →
        s.downloads.lookup (taskKey characters t) = some id) ∧
      scheduled h s id = t.isFinished.toNat) := by
  have hi : Registry characters h s :=
    hrun.history_invariant (Registry characters) registry_initial
      (fun h s a s' os hi hok hstep => step_registry hi hok hstep)
  refine ⟨hi.reached, ?_, fun id t ht => ⟨hi.kept id t ht, hi.completions id t ht⟩⟩
  intro env transferID rest s' os hqueue hok hstep id t ht hunfinished
  simp only [orderly, hqueue] at hok
  simp only [machine, hqueue, runJob] at hstep
  split at hstep
  · rename_i hperm
    cases hstep
    have hi' := hi.requeue rest
    have hnodup : env.order.Nodup :=
      hperm.nodup_iff.mpr ((AList.keys_nodup _).filter _)
    have htask := (cancelKeys_tasks hi' hnodup).2 id t ht
    -- a task is under one of the keys exactly when it is started and of the transfer
    have hiff : (∃ key ∈ env.order, s.downloads.lookup key = some id) ↔
        t.sendRequest = true ∧ Same characters t.transferID transferID := by
      constructor
      · rintro ⟨key, hmem, hlookup⟩
        obtain ⟨u, hu, -, hsend⟩ := hi.registered key id hlookup
        rw [ht, Option.some.injEq] at hu
        subst hu
        have hunder := (mem_keysToRemove hlookup).mp (hperm.mem_iff.mp hmem)
        exact ⟨hsend, (hok key id t hlookup ht hunfinished).mp hunder⟩
      · rintro ⟨hsend, hsame⟩
        have hkept := hi.kept id t ht hsend hunfinished
        have hunder := (hok _ id t hkept ht hunfinished).mpr hsame
        exact ⟨_, hperm.mem_iff.mpr ((mem_keysToRemove hkept).mpr hunder), hkept⟩
    constructor
    · intro hsend hsame
      rw [htask, if_pos (hiff.mpr ⟨hsend, hsame⟩)]
    · intro hnot
      rw [htask, if_neg (fun hex => hnot (hiff.mp hex))]
  · cases hstep

end

/-! ## Collisions -/

/-- A slash inside an id: a chunk of `(a/b, c)` reaches the task of `(a, b/c)`. -/
theorem slash_confuses_ids :
    ∃ h s, Machine.Run (machine (id : Ident → List Char)) Machine.always {} h s ∧
      ∃ t chunk, .reached 0 chunk ∈ h ∧ s.tasks 0 = some t ∧ t.transferID = ['a'] ∧
        chunk.transferID = ['a', '/', 'b'] := by
  have hexec : ((machine (id : Ident → List Char)).exec {}
      [.startFileDownload ['a'] ['b', '/', 'c'] 2 "", .runQueue {},
        .handleChunkData ⟨['a', '/', 'b'], ['c'], 0, [7], false, ""⟩, .runQueue {}]).map
        (fun r => (r.2, (r.1.tasks 0).map (fun t => t.transferID))) =
      some ([.reached 0 ⟨['a', '/', 'b'], ['c'], 0, [7], false, ""⟩], some ['a']) := by
    decide
  obtain ⟨h, s, hrun, hresult⟩ := Machine.Run.of_exec_map hexec
  obtain ⟨hhist, htask⟩ := Prod.mk.inj hresult
  obtain ⟨t, ht, hid⟩ := Option.map_eq_some_iff.mp htask
  simp only at hhist ht
  exact ⟨h, s, hrun, t, _, by rw [hhist]; exact List.mem_singleton_self _, ht, hid, rfl⟩

/-- `a` as a prefix of `a/b`: cancelling transfer `a` cancels the unfinished
task of transfer `a/b`. -/
theorem prefix_cancels_other :
    ∃ h s, Machine.Run (machine (id : Ident → List Char)) Machine.always {} h s ∧
      ∃ t, s.tasks 0 = some t ∧ t.transferID = ['a', '/', 'b'] ∧ t.isCancelled = true ∧
        s.main = [(0, some .cancelled)] := by
  have hexec : ((machine (id : Ident → List Char)).exec {}
      [.startFileDownload ['a', '/', 'b'] ['f'] 2 "", .runQueue {}, .cancelTransfer ['a'],
        .runQueue { order := [['a', '/', 'b', '/', 'f']] }]).map
        (fun r => ((r.1.tasks 0).map (fun t => (t.transferID, t.isCancelled)), r.1.main)) =
      some (some (['a', '/', 'b'], true), [(0, some .cancelled)]) := by
    decide
  obtain ⟨h, s, hrun, hresult⟩ := Machine.Run.of_exec_map hexec
  obtain ⟨htask, hmain⟩ := Prod.mk.inj hresult
  obtain ⟨t, ht, hfields⟩ := Option.map_eq_some_iff.mp htask
  obtain ⟨hid, hcancelled⟩ := Prod.mk.inj hfields
  exact ⟨h, s, hrun, t, ht, hid, hcancelled, hmain⟩

/-- **A restart orphans the running task**: it is started and unfinished, has
no completion scheduled, and is not in the table any more. -/
theorem restart_orphans_task :
    ∃ h s, Machine.Run (machine (id : Ident → List Char)) Machine.always {} h s ∧
      ∃ t, s.tasks 0 = some t ∧ t.sendRequest = true ∧ t.isFinished = false ∧
        scheduled h s 0 = 0 ∧ s.downloads.lookup (taskKey id t) ≠ some 0 := by
  have hexec : ((machine (id : Ident → List Char)).exec {}
      [.startFileDownload ['t'] ['f'] 2 "", .runQueue {},
        .startFileDownload ['t'] ['f'] 2 "", .runQueue {}]).map
        (fun r => ((r.1.tasks 0).map (fun t => (t.sendRequest, t.isFinished,
          r.1.downloads.lookup (taskKey id t))), scheduled r.2 r.1 0)) =
      some (some (true, false, some 1), 0) := by
    decide
  obtain ⟨h, s, hrun, hresult⟩ := Machine.Run.of_exec_map hexec
  obtain ⟨htask, hscheduled⟩ := Prod.mk.inj hresult
  obtain ⟨t, ht, hfields⟩ := Option.map_eq_some_iff.mp htask
  simp only [Prod.mk.injEq] at hfields
  refine ⟨h, s, hrun, t, ht, hfields.1, hfields.2.1, hscheduled, ?_⟩
  rw [hfields.2.2]
  decide

/-- A late removal orphans the next task: the empty file `(t, f)` is finished
at once, and its removal runs after the same file was started again. -/
theorem late_removal_orphans_task :
    ∃ h s, Machine.Run (machine (id : Ident → List Char)) Machine.always {} h s ∧
      ∃ t, s.tasks 1 = some t ∧ t.sendRequest = true ∧ t.isFinished = false ∧
        s.downloads.lookup (taskKey id t) = none := by
  have hexec : ((machine (id : Ident → List Char)).exec {}
      [.startFileDownload ['t'] ['f'] 0 "", .runQueue {},
        .startFileDownload ['t'] ['f'] 2 "", .runMain, .runQueue {}, .runQueue {}]).map
        (fun r => (r.1.tasks 1).map (fun t => (t.sendRequest, t.isFinished,
          r.1.downloads.lookup (taskKey id t)))) =
      some (some (true, false, none)) := by
    decide
  obtain ⟨h, s, hrun, htask⟩ := Machine.Run.of_exec_map hexec
  obtain ⟨t, ht, hfields⟩ := Option.map_eq_some_iff.mp htask
  simp only [Prod.mk.injEq] at hfields
  exact ⟨h, s, hrun, t, ht, hfields.1, hfields.2.1, hfields.2.2⟩

/-! ## An orderly run -/

section

variable {κ : Type} [DecidableEq κ]

/-- The task under a key. -/
def taskAt (s : Coordinator κ) (key : Key κ) : Option Task :=
  (s.downloads.lookup key).bind s.tasks

theorem taskAt_eq {s : Coordinator κ} {key : Key κ} {id : Nat} {t : Task}
    (hlookup : s.downloads.lookup key = some id) (ht : s.tasks id = some t) :
    taskAt s key = some t := by
  rw [taskAt, hlookup, Option.bind_some, ht]

variable (characters : Ident → List κ)

/-- A test for `orderly`. -/
def testOrderly (s : Coordinator κ) : Action κ → Bool
  | .runQueue _ =>
    match s.queue with
    | .start id :: _ =>
      (s.tasks id).all (fun t => (taskAt s (taskKey characters t)).all (fun u => u.isFinished))
    | .chunk chunk :: _ =>
      (taskAt s (keyOf characters chunk.transferID chunk.fileID)).all (fun t =>
        characters t.transferID = characters chunk.transferID &&
          characters t.fileID = characters chunk.fileID)
    | .cancel transferID :: _ =>
      s.downloads.keys.all (fun key => (taskAt s key).all (fun t => t.isFinished ||
        underTransfer characters transferID key =
          decide (characters t.transferID = characters transferID)))
    | .remove key :: _ => (taskAt s key).all (fun t => t.isFinished)
    | [] => true
  | _ => true

theorem orderly_of_test {s : Coordinator κ} {a : Action κ}
    (h : testOrderly characters s a = true) : orderly characters s a := by
  cases a with
  | startFileDownload | handleChunkData | cancelTransfer | runMain => trivial
  | runQueue env =>
      unfold orderly
      unfold testOrderly at h
      cases hqueue : s.queue with
      | nil => trivial
      | cons job rest =>
          cases job with
          | start id =>
              intro t old told ht hlookup htold
              simpa [hqueue, ht, taskAt_eq hlookup htold] using h
          | chunk chunk =>
              intro id t hlookup ht
              simpa [hqueue, taskAt_eq hlookup ht, Same] using h
          | cancel transferID =>
              intro key id t hlookup ht hunfinished
              have hmem : key ∈ s.downloads.keys := by
                rw [← AList.mem_keys, ← AList.lookup_isSome, hlookup]
                rfl
              simp only [hqueue, List.all_eq_true] at h
              have hkey := h key hmem
              rw [taskAt_eq hlookup ht] at hkey
              simp only [Option.all_some, hunfinished, Bool.false_or,
                decide_eq_true_eq] at hkey
              rw [hkey, Same, decide_eq_true_eq]
          | remove key =>
              intro id t hlookup ht
              simpa [hqueue, taskAt_eq hlookup ht] using h

end

/-- One file is downloaded and removed from the table, and a second one
cancelled. -/
theorem registry_orderly_two_files :
    ∃ h s, Machine.Run (machine (id : Ident → List Char)) (orderly id) {} h s ∧
      (∃ chunk, .reached 0 chunk ∈ h) ∧ s.main = [(1, some .cancelled)] ∧
      ∀ id' t, s.tasks id' = some t →
        (t.sendRequest = true → t.isFinished = false →
          s.downloads.lookup (taskKey id t) = some id') ∧
        scheduled h s id' = t.isFinished.toNat := by
  have hexec : ((machine (id : Ident → List Char)).execIf (testOrderly id) {}
      [.startFileDownload ['t'] ['f'] 1 "", .runQueue {},
        .handleChunkData ⟨['t'], ['f'], 0, [7], true, ""⟩, .runQueue {}, .runMain, .runQueue {},
        .startFileDownload ['u'] ['f'] 2 "", .runQueue {}, .cancelTransfer ['u'],
        .runQueue { order := [['u', '/', 'f']] }]).map (fun r => (r.2, r.1.main)) =
      some ([.reached 0 ⟨['t'], ['f'], 0, [7], true, ""⟩, .completed 0 none],
        [(1, some .cancelled)]) := by
    decide
  obtain ⟨h, s, hrun, hresult⟩ := Machine.Run.of_execIf_map
    (fun _ _ => orderly_of_test id) hexec
  obtain ⟨hhist, hmain⟩ := Prod.mk.inj hresult
  simp only at hhist hmain
  refine ⟨h, s, hrun, ⟨_, by rw [hhist]; exact List.mem_cons_self⟩, hmain, ?_⟩
  exact (registry_orderly hrun).2.2

end DownloadRegistry
