import ClipboardHelper.CoordinatorJobs

/-!
# What waits on the coordinator's queue

For an unfinished task the first waiting closure that concerns its key is
decisive: a `cancelTransfer` of its transfer will cancel it (`Condemned`), and
a start, a reply or a removal may put it out of the reach of every
cancellation (`Lost`).

* `Condemned.passed` and `Lost.passed`: a task stays condemned until it is
  cancelled, and a lost task stays lost.
* **`Sane.loses`**: an unfinished task that is not condemned can be lost.
-/

namespace DownloadRegistry

open Library FileDownloadTask

/-- The first of the entries with a property. -/
theorem split_first {α : Type} {p : α → Prop} {l : List α} (h : ∃ a ∈ l, p a) :
    ∃ before a after, l = before ++ a :: after ∧ p a ∧ ∀ other ∈ before, ¬ p other := by
  induction l with
  | nil =>
      obtain ⟨a, hmem, -⟩ := h
      cases hmem
  | cons first l ih =>
      by_cases hfirst : p first
      · exact ⟨[], first, l, rfl, hfirst, by simp⟩
      · have hrest : ∃ a ∈ l, p a := by
          obtain ⟨a, hmem, ha⟩ := h
          rcases List.mem_cons.mp hmem with heq | hlater
          · exact absurd (heq ▸ ha) hfirst
          · exact ⟨a, hlater, ha⟩
        obtain ⟨before, a, after, hl, ha, hbefore⟩ := ih hrest
        refine ⟨first :: before, a, after, by rw [hl, List.cons_append], ha, ?_⟩
        rw [List.forall_mem_cons]
        exact ⟨hfirst, hbefore⟩

section

variable {κ : Type} [DecidableEq κ] {characters : Ident → List κ} {s : Coordinator κ}

/-! ## Out of reach, and about to be cancelled -/

/-- **No cancellation will reach the task**: it has finished, or it neither
stands in the table nor waits for its start; and none has been reported. -/
structure Lost (characters : Ident → List κ) (id : Nat) (key : Key κ) (s : Coordinator κ) :
    Prop where
  task : ∃ t, s.tasks id = some t ∧ taskKey characters t = key ∧
    (t.isFinished = true ∨ (s.downloads.lookup key ≠ some id ∧ .start id ∉ s.queue))
  main : (id, some .cancelled) ∉ s.main

/-- **The task is about to be cancelled**: it stands in the table, and the
first waiting closure for its key is a cancellation of its transfer. -/
structure Condemned (characters : Ident → List κ) (s : Coordinator κ) (id : Nat) (key : Key κ) :
    Prop where
  registered : s.downloads.lookup key = some id
  queued : ∃ before tid after, s.queue = before ++ .cancel tid :: after ∧
    underTransfer characters tid key = true ∧
      ∀ job ∈ before, ¬ Concerns characters s key job

theorem Lost.job {id : Nat} {key : Key κ} (hs : Sane characters s)
    (hlost : Lost characters id key s) {env : Answers κ} {job : Job κ} {s' : Coordinator κ}
    {os : List Obs} (hjob : JobStep characters s env job s' os) (hstart : job ≠ .start id) :
    Lost characters id key s' := by
  obtain ⟨t, ht, hkey, hfinished | horphan⟩ := hlost.task
  · obtain ⟨t', ht', hlater⟩ := hjob.keeps.later ht
    refine ⟨⟨t', ht', hlater.taskKey.trans hkey, .inl (hlater.finished hfinished)⟩, ?_⟩
    intro hmem
    exact hlost.main (hjob.finished ht hfinished hmem)
  · obtain ⟨hlookup, hqueue⟩ := horphan
    obtain ⟨ht', hmain⟩ := hjob.unchanged hs ht hstart (by
      intro hregistered
      rw [hkey] at hregistered
      exact absurd hregistered hlookup)
    refine ⟨⟨t, ht', hkey, .inr ⟨?_, ?_⟩⟩, ?_⟩
    · intro hlookup'
      exact hlookup (hjob.registered_before hstart hlookup')
    · rwa [hjob.queues.1]
    · intro hmem
      exact hlost.main (hmain _ hmem)

/-- The head of the queue brings a condemned task nearer to its cancellation,
or cancels it. -/
theorem Condemned.job {id : Nat} {t : Task} (hs : Sane characters s)
    (hcondemned : Condemned characters s id (taskKey characters t)) (ht : s.tasks id = some t)
    (hopen : t.isFinished = false) {env : Answers κ} {job : Job κ} {rest : List (Job κ)}
    {s' : Coordinator κ} {os : List Obs} (hqueue : s.queue = job :: rest)
    (hjob : JobStep characters { s with queue := rest } env job s' os) :
    (Condemned characters s' id (taskKey characters t) ∧ s'.tasks id = some t) ∨
      (id, some .cancelled) ∈ s'.main := by
  obtain ⟨before, tid, after, heq, hunder, hbefore⟩ := hcondemned.queued
  have hs' := hs.dequeue hqueue
  rw [hqueue] at heq
  cases before with
  | nil =>
      cases heq
      right
      exact hjob.cancels hs' ht hopen hcondemned.registered hunder
  | cons first before =>
      cases heq
      left
      rw [List.forall_mem_cons] at hbefore
      have hstart : job ≠ .start id := by
        intro hstart
        subst hstart
        exact hs.not_waiting hcondemned.registered (by rw [hqueue]; exact List.mem_cons_self)
      have hkept : ({ s with queue := before ++ .cancel tid :: after } : Coordinator κ).tasks id =
          some t := ht
      refine ⟨⟨?_, before, tid, after, hjob.queues.1, hunder, ?_⟩,
        (hjob.unchanged hs' hkept hstart (fun _ => hbefore.1)).1⟩
      · exact (hjob.lookup_unchanged hbefore.1).trans hcondemned.registered
      · intro other hmem hconcerns
        exact hbefore.2 other hmem (hjob.keeps.concerns hconcerns)

/-! ## The queue goes on -/

/-- The two queues go on, and replies arrive. -/
def passes : Action κ → Prop
  | .handleChunkData _ | .runQueue _ | .runMain => True
  | .startFileDownload _ _ _ _ | .cancelTransfer _ => False

def passing (_ : Coordinator κ) (action : Action κ) : Prop := passes action

/-- What goes on does to the coordinator: a reply or a removal is put behind
the queue, or its head runs. -/
inductive Passed (characters : Ident → List κ) (s : Coordinator κ) :
    Action κ → Coordinator κ → List Obs → Prop
  | arrived (chunk : FileChunkData) :
      Passed characters s (.handleChunkData chunk)
        { s with queue := s.queue ++ [.chunk chunk] } []
  | ran {env : Answers κ} {job : Job κ} {rest : List (Job κ)} {s' : Coordinator κ}
      {os : List Obs} (queue : s.queue = job :: rest)
      (step : JobStep characters { s with queue := rest } env job s' os) :
      Passed characters s (.runQueue env) s' os
  | reported {id : Nat} {error : Option FileDownloadError}
      {rest : List (Nat × Option FileDownloadError)} {t : Task}
      (main : s.main = (id, error) :: rest) (task : s.tasks id = some t) :
      Passed characters s .runMain
        { s with main := rest, queue := s.queue ++ [.remove (taskKey characters t)] }
        [.completed id error]

theorem passed_of_step {action : Action κ} (hpasses : passes action) {s' : Coordinator κ}
    {os : List Obs} (h : (machine characters).step s action = some (s', os)) :
    Passed characters s action s' os := by
  cases action with
  | startFileDownload => cases hpasses
  | cancelTransfer => cases hpasses
  | handleChunkData chunk =>
      cases h
      exact .arrived chunk
  | runQueue env =>
      simp only [machine] at h
      split at h
      · cases h
      · rename_i job rest hqueue
        exact .ran hqueue (runJob_cases h)
  | runMain =>
      simp only [machine] at h
      split at h
      · cases h
      · rename_i id error rest hmain
        split at h
        · cases h
        · rename_i t ht
          cases h
          exact .reported hmain ht

theorem Passed.keeps {action : Action κ} {s' : Coordinator κ} {os : List Obs}
    (h : Passed characters s action s' os) : Keeps s s' := by
  cases h with
  | arrived => exact .refl s
  | ran queue step => exact step.keeps
  | reported => exact .refl s

theorem Lost.passed {id : Nat} {key : Key κ} (hs : Sane characters s)
    (hlost : Lost characters id key s) {action : Action κ} {s' : Coordinator κ} {os : List Obs}
    (h : Passed characters s action s' os) :
    Lost characters id key s' ∧ .completed id (some .cancelled) ∉ os := by
  obtain ⟨t, ht, hkey, hreach⟩ := hlost.task
  cases h with
  | arrived chunk =>
      refine ⟨⟨⟨t, ht, hkey, hreach.imp_right ?_⟩, hlost.main⟩, by simp⟩
      intro horphan
      exact ⟨horphan.1, by simpa using horphan.2⟩
  | @ran env job rest s' os queue step =>
      have hrest : Lost characters id key { s with queue := rest } := by
        refine ⟨⟨t, ht, hkey, hreach.imp_right ?_⟩, hlost.main⟩
        intro horphan
        refine ⟨horphan.1, fun hmem => horphan.2 ?_⟩
        rw [queue]
        exact List.mem_cons_of_mem _ hmem
      have hstart : job ≠ .start id := by
        intro hjob
        have hmem : .start id ∈ s.queue := by rw [queue, hjob]; exact List.mem_cons_self
        obtain ⟨u, hu, -, hopen⟩ := hs.waiting id hmem
        rw [ht, Option.some.injEq] at hu
        subst hu
        rcases hreach with hfinished | horphan
        · rw [hopen] at hfinished
          cases hfinished
        · exact horphan.2 hmem
      exact ⟨hrest.job (hs.dequeue queue) step hstart, step.completes_nothing id _⟩
  | @reported id' error rest t' main task =>
      refine ⟨⟨⟨t, ht, hkey, hreach.imp_right ?_⟩, ?_⟩, ?_⟩
      · intro horphan
        exact ⟨horphan.1, by simpa using horphan.2⟩
      · intro hmem
        exact hlost.main (by rw [main]; exact List.mem_cons_of_mem _ hmem)
      · intro hmem
        have heq : (id, some FileDownloadError.cancelled) = (id', error) := by simpa using hmem
        exact hlost.main (by rw [main, heq]; exact List.mem_cons_self)

/-- A condemned task stays so until it is cancelled. -/
theorem Condemned.passed {id : Nat} {t : Task} (hs : Sane characters s)
    (hcondemned : Condemned characters s id (taskKey characters t)) (ht : s.tasks id = some t)
    (hopen : t.isFinished = false) {action : Action κ} {s' : Coordinator κ} {os : List Obs}
    (h : Passed characters s action s' os) :
    (Condemned characters s' id (taskKey characters t) ∧ s'.tasks id = some t) ∨
      (id, some .cancelled) ∈ s'.main := by
  have hlonger : ∀ job : Job κ, Condemned characters { s with queue := s.queue ++ [job] } id
      (taskKey characters t) := by
    intro job
    obtain ⟨before, tid, after, hqueue, hrest⟩ := hcondemned.queued
    exact ⟨hcondemned.registered, before, tid, after ++ [job], by simp [hqueue], hrest⟩
  cases h with
  | arrived chunk => exact .inl ⟨hlonger _, ht⟩
  | ran queue step => exact hcondemned.job hs ht hopen queue step
  | reported main task =>
      obtain ⟨hregistered, hqueued⟩ := hlonger (.remove (taskKey characters _))
      exact .inl ⟨⟨hregistered, hqueued⟩, ht⟩

/-! ## A queue that can always go on -/

theorem start_fails (t : Task) :
    ∃ t' es, start t false false = some (t', es) ∧ t'.isFinished = true := by
  unfold start
  simp only [Bool.false_eq_true, if_false]
  split
  · exact ⟨_, _, rfl, (finish_method _ _).2⟩
  · exact ⟨_, _, rfl, (finish_method _ _).2⟩

/-- A write that fails ends an unfinished task. -/
theorem handleChunkData_fails {t : Task} (hmark : t.isCancelled = true → t.isFinished = true)
    (chunk : FileChunkData) :
    ∃ t' es, FileDownloadTask.handleChunkData t chunk (some "") = some (t', es) ∧
      t'.isFinished = true := by
  unfold FileDownloadTask.handleChunkData
  split
  · rename_i hended
    rw [Bool.or_eq_true] at hended
    exact ⟨_, _, rfl, hended.elim hmark id⟩
  · simp only
    split
    · exact ⟨_, _, rfl, (finish_method _ _).2⟩
    · split
      · exact ⟨_, _, rfl, (finish_method _ _).2⟩
      · exact ⟨_, _, rfl, (finish_method _ _).2⟩

/-- A world in which nothing can be created, opened or written. -/
def failing (characters : Ident → List κ) (s : Coordinator κ) (job : Job κ) : Answers κ where
  createOk := false
  openOk := false
  ioError := some ""
  order :=
    match job with
    | .cancel tid => keysToRemove characters s tid
    | _ => []

/-- In it no closure traps. -/
theorem Sane.fails (hs : Sane characters s) {job : Job κ} {rest : List (Job κ)}
    (hqueue : s.queue = job :: rest) :
    ∃ s' os, (machine characters).step s (.runQueue (failing characters s job)) = some (s', os) ∧
      JobStep characters { s with queue := rest } (failing characters s job) job s' os := by
  have hruns : ∃ r, runJob characters { s with queue := rest } (failing characters s job) job =
      some r := by
    cases job with
    | start id =>
        obtain ⟨t, ht, -⟩ := hs.waiting id (by rw [hqueue]; exact List.mem_cons_self)
        obtain ⟨t', es, hstart, -⟩ := start_fails t
        simp [runJob, ht, failing, hstart]
    | chunk chunk =>
        cases hlookup : s.downloads.lookup (keyOf characters chunk.transferID chunk.fileID) with
        | none => simp [runJob, hlookup]
        | some id =>
            obtain ⟨t, ht, -⟩ := hs.registered _ id hlookup
            obtain ⟨t', es, hmethod, -⟩ := handleChunkData_fails (hs.cancelled id t ht) chunk
            simp [runJob, hlookup, ht, failing, hmethod]
    | cancel tid =>
        have horder : (failing characters s (.cancel tid)).order.Perm
            (keysToRemove characters { s with queue := rest } tid) := List.Perm.refl _
        simp [runJob, horder]
    | remove key => exact ⟨_, rfl⟩
  obtain ⟨r, hr⟩ := hruns
  refine ⟨r.1, r.2, ?_, runJob_cases hr⟩
  simp only [machine, hqueue]
  exact hr

/-- A start that fails has finished the task. -/
theorem JobStep.start_fails {s₀ : Coordinator κ} {job : Job κ} {id : Nat} {s' : Coordinator κ}
    {os : List Obs}
    (hjob : JobStep characters s (failing characters s₀ job) (.start id) s' os) :
    ∃ t', s'.tasks id = some t' ∧ t'.isFinished = true := by
  cases hjob with
  | @started id t t' es task method =>
      obtain ⟨t₁, es₁, hstart, hfinished⟩ := DownloadRegistry.start_fails t
      simp only [failing] at method
      rw [hstart, Option.some.injEq, Prod.mk.injEq] at method
      exact ⟨t₁, by simp [absorb, method.1], hfinished⟩

/-- So has a reply that cannot be written. -/
theorem JobStep.reply_fails (hs : Sane characters s) {s₀ : Coordinator κ} {job : Job κ}
    {chunk : FileChunkData} {id : Nat} {s' : Coordinator κ} {os : List Obs}
    (hlookup : s.downloads.lookup (keyOf characters chunk.transferID chunk.fileID) = some id)
    (hjob : JobStep characters s (failing characters s₀ job) (.chunk chunk) s' os) :
    ∃ t', s'.tasks id = some t' ∧ t'.isFinished = true := by
  cases hjob with
  | missed missing =>
      rw [hlookup] at missing
      cases missing
  | @replied chunk id' t t' es registered task method =>
      rw [hlookup, Option.some.injEq] at registered
      subst registered
      obtain ⟨t₁, es₁, hreply, hfinished⟩ := handleChunkData_fails (hs.cancelled id t task) chunk
      simp only [failing] at method
      rw [hreply, Option.some.injEq, Prod.mk.injEq] at method
      exact ⟨t₁, by simp [absorb, method.1], hfinished⟩

/-- **The queue can be worked off**, up to any of its closures, and a property
that the closures in front of it keep then holds. -/
theorem drain (P : Coordinator κ → Prop) (after : List (Job κ)) (before : List (Job κ)) :
    ∀ {s : Coordinator κ}, Sane characters s → s.queue = before ++ after → P s →
      (∀ s job rest env s' os, Sane characters s → P s → job ∈ before → s.queue = job :: rest →
        JobStep characters { s with queue := rest } env job s' os → P s') →
      ∃ h s', Machine.Run (machine characters) passing s h s' ∧ Sane characters s' ∧
        s'.queue = after ∧ P s' ∧ ∀ id error, .completed id error ∉ h := by
  induction before with
  | nil =>
      intro s hs hqueue hp _
      exact ⟨[], s, .nil, hs, hqueue, hp, by simp⟩
  | cons job before ih =>
      intro s hs hqueue hp hkeeps
      obtain ⟨s₁, os, hstep, hjob⟩ := hs.fails hqueue
      have hp₁ := hkeeps s job _ _ s₁ os hs hp List.mem_cons_self hqueue hjob
      obtain ⟨h, s', hrun, hs', hqueue', hp', hquiet⟩ := ih (hs.step hstep) hjob.queues.1 hp₁
        (fun s j rest env s' os hs hp hmem => hkeeps s j rest env s' os hs hp
          (List.mem_cons_of_mem _ hmem))
      have hpasses : passing s (.runQueue (failing characters s job)) := trivial
      have hfirst : Machine.Run (machine characters) passing s ([] ++ os) s₁ :=
        .snoc .nil hpasses hstep
      refine ⟨[] ++ os ++ h, s', hfirst.append hrun, hs', hqueue', hp', ?_⟩
      intro id error hmem
      rw [List.nil_append, List.mem_append] at hmem
      rcases hmem with hold | hnew
      · exact hjob.completes_nothing id error hold
      · exact hquiet id error hnew

/-- A task that stands in the table is unchanged while the closures in front
of the first one for its key run. -/
theorem Sane.reach (hs : Sane characters s) {id : Nat} {t : Task} (ht : s.tasks id = some t)
    (hlookup : s.downloads.lookup (taskKey characters t) = some id)
    {before after : List (Job κ)} (hqueue : s.queue = before ++ after)
    (hbefore : ∀ job ∈ before, ¬ Concerns characters s (taskKey characters t) job) :
    ∃ h s', Machine.Run (machine characters) passing s h s' ∧ Sane characters s' ∧
      s'.queue = after ∧ (s'.tasks id = some t ∧
        s'.downloads.lookup (taskKey characters t) = some id ∧ Keeps s s') ∧
      ∀ id error, .completed id error ∉ h := by
  refine drain (fun s' => s'.tasks id = some t ∧
    s'.downloads.lookup (taskKey characters t) = some id ∧ Keeps s s') after before hs hqueue
    ⟨ht, hlookup, .refl s⟩ ?_
  intro s₁ job rest env s' os hs₁ hp hmem hhead hjob
  obtain ⟨ht₁, hlookup₁, hkeeps⟩ := hp
  have hother : ¬ Concerns characters s₁ (taskKey characters t) job :=
    fun h => hbefore job hmem (hkeeps.concerns h)
  have hstart : job ≠ .start id := by
    intro hjob
    subst hjob
    exact hs₁.not_waiting hlookup₁ (by rw [hhead]; exact List.mem_cons_self)
  have hlater : Keeps s₁ s' := hjob.keeps
  exact ⟨(hjob.unchanged (hs₁.dequeue hhead) ht₁ hstart (fun _ => hother)).1,
    (hjob.lookup_unchanged hother).trans hlookup₁, hkeeps.trans hlater⟩

theorem Sane.not_reported (hs : Sane characters s) {id : Nat} {t : Task}
    (ht : s.tasks id = some t) (hopen : t.isFinished = false)
    (error : Option FileDownloadError) : (id, error) ∉ s.main := by
  intro hmem
  obtain ⟨u, hu, hfinished⟩ := hs.completions id error hmem
  rw [ht, Option.some.injEq] at hu
  subst hu
  rw [hopen] at hfinished
  cases hfinished

/-- The first closure for its key takes a task that stands in the table out of
reach, if it is no cancellation and nothing can be written. -/
theorem Sane.loses_at (hs : Sane characters s) {id : Nat} {t : Task} (ht : s.tasks id = some t)
    (hopen : t.isFinished = false)
    (hlookup : s.downloads.lookup (taskKey characters t) = some id) {job : Job κ}
    {rest : List (Job κ)} (hqueue : s.queue = job :: rest) {s' : Coordinator κ} {os : List Obs}
    (hjob : JobStep characters { s with queue := rest } (failing characters s job) job s' os)
    (hconcerns : Concerns characters s (taskKey characters t) job)
    (hcancel : ∀ tid, job ≠ .cancel tid) : Lost characters id (taskKey characters t) s' := by
  have hs' := hs.dequeue hqueue
  have hstarts : .start id ∉ s'.queue := by
    intro hmem
    rw [hjob.queues.1] at hmem
    exact hs.not_waiting hlookup (by rw [hqueue]; exact List.mem_cons_of_mem _ hmem)
  have hmain := hs.not_reported ht hopen (some .cancelled)
  cases job with
  | start id' =>
      obtain ⟨u, hu, huKey⟩ := hconcerns
      cases hjob with
      | @started _ t' t₁ es task method =>
          have hne : id ≠ id' := by
            intro heq
            subst heq
            exact hs.not_waiting hlookup (by rw [hqueue]; exact List.mem_cons_self)
          have hsame : t' = u := Option.some.inj (task.symm.trans hu)
          obtain ⟨htask, hold⟩ := absorb_ne hne t₁ es
          refine ⟨⟨t, htask.trans ht, rfl, .inr ⟨?_, hstarts⟩⟩, fun hmem => hmain (hold _ hmem)⟩
          -- the started task has taken the place in the table
          intro hagain
          rw [hsame, huKey, AList.lookup_insert, Option.some.injEq] at hagain
          exact hne hagain.symm
  | chunk chunk =>
      have hreached : ({ s with queue := rest } : Coordinator κ).downloads.lookup
          (keyOf characters chunk.transferID chunk.fileID) = some id := by
        rw [hconcerns]
        exact hlookup
      obtain ⟨t', ht', hfinished⟩ := hjob.reply_fails hs' hreached
      obtain ⟨u, hu, hlater⟩ := hjob.keeps.earlier ht'
      have hsame : t = u := Option.some.inj (ht.symm.trans hu)
      refine ⟨⟨t', ht', by rw [hlater.taskKey, hsame], .inl hfinished⟩, ?_⟩
      cases hjob with
      | missed => exact hmain
      | @replied _ id' t₁ t₂ es registered task method =>
          intro hmem
          rcases List.mem_append.mp hmem with hold | hnew
          · exact hmain hold
          · obtain ⟨error, herror, heq⟩ := List.mem_map.mp hnew
            cases heq
            exact handleChunkData_uncancelled method herror
  | cancel tid => exact absurd rfl (hcancel tid)
  | remove key =>
      cases hjob
      refine ⟨⟨t, ht, rfl, .inr ⟨?_, hstarts⟩⟩, hmain⟩
      intro hagain
      rw [← hconcerns, AList.lookup_erase] at hagain
      cases hagain

/-- A task that waits for its start is out of reach behind a start that fails,
whatever waits in front of it. -/
theorem Sane.loses_waiting (hs : Sane characters s) {id : Nat} {t : Task}
    (ht : s.tasks id = some t) (hwaits : .start id ∈ s.queue) :
    ∃ h s', Machine.Run (machine characters) passing s h s' ∧ Sane characters s' ∧
      Lost characters id (taskKey characters t) s' ∧ .completed id (some .cancelled) ∉ h := by
  obtain ⟨u, hu, hunsent, hopen⟩ := hs.waiting id hwaits
  have hsame : t = u := Option.some.inj (ht.symm.trans hu)
  subst hsame
  obtain ⟨before, after, hqueue, hfirst⟩ := List.eq_append_cons_of_mem hwaits
  obtain ⟨h, s₁, hrun, hs₁, hqueue₁, ht₁, hquiet⟩ := drain (fun s₁ => s₁.tasks id = some t) _ _ hs
    hqueue ht (by
      intro s₁ job rest env s' os hs₁ ht₁ hmem hhead hjob
      have hstart : job ≠ .start id := fun heq => hfirst (heq ▸ hmem)
      refine (hjob.unchanged (hs₁.dequeue hhead) ht₁ hstart ?_).1
      intro hregistered
      obtain ⟨v, hv, -, hsent⟩ := hs₁.registered _ id hregistered
      rw [ht₁, Option.some.injEq] at hv
      subst hv
      rw [hunsent] at hsent
      cases hsent)
  obtain ⟨s', os, hstep, hjob⟩ := hs₁.fails hqueue₁
  obtain ⟨t', ht', hfinished⟩ := hjob.start_fails
  obtain ⟨v, hv, hlater⟩ := hjob.keeps.earlier ht'
  have hsame : t = v := Option.some.inj (ht₁.symm.trans hv)
  have hpasses : passing s₁ (.runQueue (failing characters s₁ (.start id))) := trivial
  refine ⟨h ++ os, s', .snoc hrun hpasses hstep, hs₁.step hstep,
    ⟨⟨t', ht', by rw [hlater.taskKey, hsame], .inl hfinished⟩, ?_⟩, ?_⟩
  · have hmain := hs₁.not_reported ht₁ hopen (some .cancelled)
    cases hjob with
    | @started _ t₁ t₂ es task method =>
        intro hmem
        rcases List.mem_append.mp hmem with hold | hnew
        · exact hmain hold
        · obtain ⟨error, herror, heq⟩ := List.mem_map.mp hnew
          cases heq
          exact start_uncancelled method herror
  · intro hmem
    rcases List.mem_append.mp hmem with hold | hnew
    · exact hquiet _ _ hold
    · exact hjob.completes_nothing _ _ hnew

/-- A task that stands in the table is lost to a closure for its key that waits
in front of every cancellation. -/
theorem Sane.loses_registered (hs : Sane characters s) {id : Nat} {t : Task}
    (ht : s.tasks id = some t) (hopen : t.isFinished = false)
    (hlookup : s.downloads.lookup (taskKey characters t) = some id)
    {before after : List (Job κ)} {job : Job κ} (hqueue : s.queue = before ++ job :: after)
    (hjob : Concerns characters s (taskKey characters t) job) (hcancel : ∀ tid, job ≠ .cancel tid)
    (hbefore : ∀ other ∈ before, ¬ Concerns characters s (taskKey characters t) other) :
    ∃ h s', Machine.Run (machine characters) passing s h s' ∧ Sane characters s' ∧
      Lost characters id (taskKey characters t) s' ∧ .completed id (some .cancelled) ∉ h := by
  obtain ⟨h, s₁, hrun, hs₁, hqueue₁, hkept, hquiet⟩ := hs.reach ht hlookup hqueue hbefore
  obtain ⟨ht₁, hlookup₁, hkeeps⟩ := hkept
  have hconcerns : Concerns characters s₁ (taskKey characters t) job := by
    cases job with
    | start id' =>
        obtain ⟨u, hu, huKey⟩ := hjob
        obtain ⟨u', hu', hlater⟩ := hkeeps.later hu
        exact ⟨u', hu', hlater.taskKey.trans huKey⟩
    | chunk => exact hjob
    | cancel => exact hjob
    | remove => exact hjob
  obtain ⟨s', os, hstep, hstep'⟩ := hs₁.fails hqueue₁
  have hpasses : passing s₁ (.runQueue (failing characters s₁ job)) := trivial
  refine ⟨h ++ os, s', .snoc hrun hpasses hstep, hs₁.step hstep,
    hs₁.loses_at ht₁ hopen hlookup₁ hqueue₁ hstep' hconcerns hcancel, ?_⟩
  intro hmem
  rcases List.mem_append.mp hmem with hold | hnew
  · exact hquiet _ _ hold
  · exact hstep'.completes_nothing _ _ hnew

/-- **An unfinished task that is not about to be cancelled can be lost** to all
cancellations. -/
theorem Sane.loses (hs : Sane characters s) {id : Nat} {t : Task} (ht : s.tasks id = some t)
    (hopen : t.isFinished = false)
    (hnot : ¬ Condemned characters s id (taskKey characters t)) :
    ∃ h s', Machine.Run (machine characters) passing s h s' ∧ Sane characters s' ∧
      Lost characters id (taskKey characters t) s' ∧ .completed id (some .cancelled) ∉ h := by
  by_cases hlookup : s.downloads.lookup (taskKey characters t) = some id
  · by_cases hsome : ∃ job ∈ s.queue, Concerns characters s (taskKey characters t) job
    · obtain ⟨before, job, after, hqueue, hjob, hbefore⟩ := split_first hsome
      refine hs.loses_registered ht hopen hlookup hqueue hjob ?_ hbefore
      intro tid heq
      subst heq
      exact hnot ⟨hlookup, before, tid, after, hqueue, hjob, hbefore⟩
    · -- nothing waits for the key, and a reply arrives
      have hnone : ∀ job ∈ s.queue, ¬ Concerns characters s (taskKey characters t) job :=
        fun job hmem hjob => hsome ⟨job, hmem, hjob⟩
      let chunk : FileChunkData := ⟨t.transferID, t.fileID, 0, [], false, ""⟩
      have hpasses : passing s (.handleChunkData chunk) := trivial
      have harrives : Machine.Run (machine characters) passing s ([] ++ [])
          { s with queue := s.queue ++ [.chunk chunk] } := .snoc .nil hpasses rfl
      have harrived : Sane characters { s with queue := s.queue ++ [.chunk chunk] } :=
        hs.enqueue rfl
      obtain ⟨h, s', hrun, hs', hlost, hquiet⟩ := harrived.loses_registered ht hopen hlookup rfl
        rfl (fun _ heq => by cases heq) hnone
      exact ⟨_, s', harrives.append hrun, hs', hlost, by simpa using hquiet⟩
  · by_cases hwaits : .start id ∈ s.queue
    · exact hs.loses_waiting ht hwaits
    · exact ⟨[], s, .nil, hs, ⟨⟨t, ht, rfl, .inr ⟨hlookup, hwaits⟩⟩,
        hs.not_reported ht hopen _⟩, by simp⟩

end

end DownloadRegistry
