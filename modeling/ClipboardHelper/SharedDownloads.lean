import ClipboardHelper.MacRendering

/-!
# What the first download leaves for the others

The first `ensureFilesDownloaded` for an announcement sets
`fileDownloadTriggered`; every later one polls `fileDownloadPaths` and
`fileDownloadCancelled` until one of them tells it to return, or for 300
seconds.  So once the first caller is gone one of the two must be set.  It has
five ways to leave its loop, and of these the deadline and a signal without
usable data set neither.

* `watched` adds to the manager the announcement that the flag was set for.
* `step_share` says what a step can do to the shared fields and to the callers
  that have triggered a download.
* **`download_settled`**: as long as no first caller leaves in one of these
  two ways while its announcement is pending, the fields settle every later
  call.
* `failed_download_unsettled`: after each such exit of the last first caller
  they do not.
* `timed_out_download_unsettled` is a run with a deadline.
-/

namespace MacPasteboard

open Library
open DispatchCodec (ClipboardContentType)

/-- The manager, and the announcement that was pending when its flag was
set. -/
structure Watched where
  manager : Manager
  triggeredFor : Option Announcement := none

/-- **The watched manager.** -/
def watched (kit : AppKit) : Machine Watched Action Obs where
  step w act :=
    ((machine kit).step w.manager act).map (fun r =>
      (⟨r.1, if r.1.fileDownloadTriggered && !w.manager.fileDownloadTriggered
        then w.manager.pendingAnnouncement else w.triggeredFor⟩, r.2))

/-- The announcement of a call that has triggered the download. -/
def Call.primaries : Call → List Announcement
  | .primary a | .leaving a _ => [a]
  | .secondary _ | .announcing _ | .publishing _ | .losingOwnership | .waiting _ _
  | .woken _ _ => []

/-- The announcements of the first callers in progress. -/
def Manager.primaries (m : Manager) : List Announcement :=
  (m.running.map Call.primaries).getD [] ++
    (m.pumps.filter (fun p => p.first)).map Pump.announcement

/-- The fields that the callers share, with the number of the next
announcement. -/
def Manager.shared (m : Manager) : Option Announcement × Bool × Option (List Bytes) × Bool × Nat :=
  (m.pendingAnnouncement, m.fileDownloadTriggered, m.fileDownloadPaths,
    m.fileDownloadCancelled, m.nextSerial)

/-- **What should hold**: with the flag set for the pending announcement and
no first caller in progress, the paths are stored or the download is
cancelled. -/
def Settled (w : Watched) : Prop :=
  ∀ b, w.manager.fileDownloadTriggered = true → w.manager.primaries = [] →
    w.triggeredFor = some b → w.manager.pendingAnnouncement = some b →
    w.manager.fileDownloadPaths ≠ none ∨ w.manager.fileDownloadCancelled = true

/-- **The condition.**  A first caller whose announcement is still pending,
without a cancellation and without stored paths, does not leave by its
deadline; and when a signal has released it, the data that is stored decodes
to paths. -/
def Delivers (w : Watched) : Action → Prop
  | .finish => ∀ a exit, w.manager.running = some (.leaving a exit) →
      w.manager.pendingAnnouncement = some a → w.manager.fileDownloadCancelled = false →
      w.manager.fileDownloadPaths = none →
      exit ≠ .timedOut ∧
        (exit = .completed → ∃ paths, w.manager.renderedData.bind decodePaths = some paths)
  | _ => True

/-- What a first caller that leaves knows about the shared fields. -/
def Manager.leavesFor (m : Manager) (a : Announcement) (exit : Exit) : Prop :=
  (exit = .cancelled → m.fileDownloadCancelled = true) ∧
    (exit = .superseded → isStillCurrent m a = false)

/-- **What a step does** to the shared fields and to the first callers. -/
inductive Share (m : Manager) (act : Action) (m' : Manager) : Prop
  | kept (shared : m'.shared = m.shared) (primaries : m'.primaries = m.primaries)
      (announcing : ∀ a, m'.running = some (.announcing a) → m.running = some (.announcing a))
      (leaving : ∀ a exit, m'.running = some (.leaving a exit) →
        m.running = some (.leaving a exit) ∨ m.leavesFor a exit)
  | cancelled (shared : m'.shared =
        (m.pendingAnnouncement, m.fileDownloadTriggered, m.fileDownloadPaths, true, m.nextSerial))
      (running : m'.running = m.running) (primaries : m'.primaries = m.primaries)
  /-- Another announcement is pending, or none. -/
  | replaced (pending : Option Announcement) (serial : Nat) (shared : m'.shared =
        (pending, m.fileDownloadTriggered, m.fileDownloadPaths, m.fileDownloadCancelled, serial))
      (grows : m.nextSerial ≤ serial)
      (fresh : ∀ a, pending = some a → a.serial = m.nextSerial ∧ m.nextSerial < serial)
      (primaries : m'.primaries = m.primaries)
      (announcing : ∀ a, m'.running = some (.announcing a) → pending = some a)
      (leaving : ∀ a exit, m'.running ≠ some (.leaving a exit))
  /-- The files of an announcement are published. -/
  | cleared (a : Announcement) (running : m.running = some (.announcing a))
      (shared : m'.shared = (some a, false, none, false, m.nextSerial))
      (primaries : m'.primaries = m.primaries)
      (running' : m'.running = some (.publishing a))
  | triggered (b : Announcement) (pending : m.pendingAnnouncement = some b)
      (first : m.fileDownloadTriggered = false)
      (shared : m'.shared = (some b, true, m.fileDownloadPaths, m.fileDownloadCancelled,
        m.nextSerial))
      (primaries : m'.primaries = b :: m.primaries)
      (running' : m'.running = some (.primary b))
  | finished (a : Announcement) (exit : Exit) (action : act = .finish)
      (running : m.running = some (.leaving a exit))
      (shared : m'.shared = (m.pendingAnnouncement, m.fileDownloadTriggered, pathsAfter m a exit,
        m.fileDownloadCancelled, m.nextSerial))
      (primaries : m.primaries = a :: m'.primaries) (running' : m'.running = none)

theorem shared_parts {m : Manager} {pending : Option Announcement} {triggered : Bool}
    {paths : Option (List Bytes)} {cancelled : Bool} {serial : Nat}
    (h : m.shared = (pending, triggered, paths, cancelled, serial)) :
    m.pendingAnnouncement = pending ∧ m.fileDownloadTriggered = triggered ∧
      m.fileDownloadPaths = paths ∧ m.fileDownloadCancelled = cancelled ∧
      m.nextSerial = serial := by
  simpa [Manager.shared] using h

/-- A step that leaves the calls alone. -/
theorem Share.of_same {m m' : Manager} {act : Action} (shared : m'.shared = m.shared)
    (running : m'.running = m.running) (pumps : m'.pumps = m.pumps) : Share m act m' := by
  refine .kept shared ?_ ?_ ?_
  · rw [Manager.primaries, running, pumps]
    rfl
  · intro a ha
    rwa [running] at ha
  · intro a exit ha
    exact Or.inl (by rwa [running] at ha)

/-- A step of a call that is no first caller, neither before nor after. -/
theorem Share.of_call {m m' : Manager} {act : Action} (shared : m'.shared = m.shared)
    (primaries : m'.primaries = m.primaries)
    (announcing : ∀ a, m'.running ≠ some (.announcing a))
    (leaving : ∀ a exit, m'.running ≠ some (.leaving a exit)) : Share m act m' :=
  .kept shared primaries (fun a ha => absurd ha (announcing a))
    (fun a exit ha => absurd ha (leaving a exit))

/-- A call that is no first caller ends. -/
theorem Share.of_ended {m m' : Manager} {act : Action} {call : Call}
    (running : m.running = some call) (hcall : call.primaries = [])
    (shared : m'.shared = m.shared) (running' : m'.running = none) (pumps : m'.pumps = m.pumps) :
    Share m act m' := by
  refine .of_call shared ?_ (by simp [running']) (by simp [running'])
  simp [Manager.primaries, running, hcall, running', pumps]

theorem Pump.resume_primaries (p : Pump) :
    p.resume.primaries = if p.first then [p.announcement] else [] := by
  unfold Pump.resume
  split
  · rfl
  · rfl

theorem Pump.resume_ne_leaving (p : Pump) (a : Announcement) (exit : Exit) :
    some p.resume ≠ some (.leaving a exit) := by
  unfold Pump.resume
  split
  · simp
  · simp

/-- A turn of a first caller that leaves without a signal knows why. -/
theorem leavesFor_of_turn {m m' : Manager} {a b : Announcement} {exit : Exit} {index : Nat}
    {os : List Obs} (hrunning : m.running = some (.primary a)) (h : turn m index = some (m', os))
    (hleaving : m'.running = some (.leaving b exit)) : m.leavesFor b exit := by
  simp only [turn, hrunning] at h
  split at h
  · rename_i hcancelled
    cases h
    cases hleaving
    exact ⟨fun _ => hcancelled, by simp⟩
  · rename_i hcancelled
    split at h
    · cases h
      unfold pollPrimary at hleaving
      split at hleaving
      · cases hleaving
      · rename_i hcurrent
        cases hleaving
        exact ⟨by simp, fun _ => by simpa using hcurrent⟩
    · split at h
      · cases h
        cases hleaving
        have hexit : exitOfSignal m = .completed := by simp [exitOfSignal, hcancelled]
        simp [Manager.leavesFor, hexit]
      · cases h

/-- A first caller goes on as one, or leaves. -/
theorem Share.of_primary {m m' : Manager} {act : Action} (shared : m'.shared = m.shared)
    (primaries : m'.primaries = m.primaries) (announcing : ∀ b, m'.running ≠ some (.announcing b))
    (leaving : ∀ b exit, m'.running = some (.leaving b exit) → m.leavesFor b exit) :
    Share m act m' :=
  .kept shared primaries (fun b hb => absurd hb (announcing b))
    (fun b exit hb => Or.inr (leaving b exit hb))

/-- Every step is one of these, as far as shared downloads go. -/
theorem step_share {kit : AppKit} {m m' : Manager} {act : Action} {os : List Obs}
    (h : (machine kit).step m act = some (m', os)) : Share m act m' := by
  cases step_cases h with
  | discarded | accepted | signalled | set | ignored | answered | unavailable | downloaded
  | unchanged | changed | drained | copied => exact .of_same rfl rfl rfl
  -- a call that returns
  | announcedNoFiles running | undeclared running | declared running | published running
  | forgotten running | rendered _ running | found running | gaveUp running
  | renderTimedOut running | secondaryTimedOut running =>
      exact .of_ended running rfl rfl rfl rfl
  | announced contentHash contentType files idle =>
      refine .replaced (some ⟨m.nextSerial, contentHash, contentType, files⟩) (m.nextSerial + 1) rfl
        (Nat.le_succ _) ?_ ?_ ?_ (by simp [announceDelayed])
      · intro a ha
        cases ha
        exact ⟨rfl, Nat.lt_succ_self _⟩
      · simp [Manager.primaries, announceDelayed, resetPending, idle, Call.primaries]
      · intro a ha
        cases ha
        rfl
  | lost idle =>
      refine .replaced none m.nextSerial rfl (le_refl _) (by simp) ?_
        (by simp [pasteboardChangedOwner]) (by simp [pasteboardChangedOwner])
      simp [Manager.primaries, pasteboardChangedOwner, resetPending, idle, Call.primaries]
  | asked running | joined running | waitingOn running =>
      refine .of_call rfl ?_ (by simp) (by simp)
      simp [Manager.primaries, running, Call.primaries]
  | triggered idle pending type missing first =>
      refine .triggered _ pending first ?_ ?_ rfl
      · simp [Manager.shared, pending]
      · simp [Manager.primaries, idle, Call.primaries]
  | cancelled => exact .cancelled rfl rfl rfl
  | announcedFiles running =>
      refine .cleared _ running rfl ?_ rfl
      simp [Manager.primaries, resetPending, running, Call.primaries]
  | woke running =>
      refine .of_call rfl ?_ (by simp) (by simp)
      simp [Manager.primaries, running, Call.primaries, takeSignal]
  | left exit running =>
      exact .of_primary rfl (by simp [Manager.primaries, running, Call.primaries]) (by simp)
        (fun _ _ hb => leavesFor_of_turn running h hb)
  | pumping running =>
      exact .of_primary rfl (by simp [Manager.primaries, running, Call.primaries]) (by simp)
        (by simp)
  | took running =>
      exact .of_primary rfl (by simp [Manager.primaries, running, Call.primaries, takeSignal])
        (by simp) (fun _ _ hb => leavesFor_of_turn running h hb)
  | finished running =>
      refine .finished _ _ rfl running rfl ?_ rfl
      simp [Manager.primaries, running, Call.primaries]
  | primaryTimedOut running =>
      refine .of_primary rfl (by simp [Manager.primaries, running, Call.primaries]) (by simp) ?_
      intro b exit hb
      cases hb
      exact ⟨by simp, by simp⟩
  | pumped idle top =>
      refine .of_call rfl ?_ (Pump.resume_ne_announcing _) (Pump.resume_ne_leaving _)
      simp only [Manager.primaries, idle, top, Option.map_none, Option.getD_none, List.nil_append,
        Option.map_some, Option.getD_some, Pump.resume_primaries, List.filter_cons]
      split
      · rfl
      · rfl

/-! ## The invariant -/

/-- While the flag is set for the pending announcement, the fields settle
every call or a first caller for it is in progress. -/
structure Shared (w : Watched) : Prop where
  issued : ∀ b, w.manager.pendingAnnouncement = some b → b.serial < w.manager.nextSerial
  watched : ∀ b, w.triggeredFor = some b → b.serial < w.manager.nextSerial
  announcing : ∀ a, w.manager.running = some (.announcing a) → a.serial < w.manager.nextSerial
  leaving : ∀ a exit, w.manager.running = some (.leaving a exit) → w.manager.leavesFor a exit
  settled : ∀ b, w.manager.fileDownloadTriggered = true → w.triggeredFor = some b →
    w.manager.pendingAnnouncement = some b →
    w.manager.fileDownloadPaths ≠ none ∨ w.manager.fileDownloadCancelled = true ∨
      b ∈ w.manager.primaries

theorem shared_initial (contents : Contents) (count : Nat) :
    Shared ⟨initial contents count, none⟩ where
  issued := by
    intro b h
    cases h
  watched := by
    intro b h
    cases h
  announcing := by
    intro a h
    cases h
  leaving := by
    intro a exit h
    cases h
  settled := by
    intro b h
    cases h

/-- The announcement that a step of the watched manager notes. -/
theorem watched_cases {kit : AppKit} {w w' : Watched} {act : Action} {os : List Obs}
    (h : (watched kit).step w act = some (w', os)) :
    (machine kit).step w.manager act = some (w'.manager, os) ∧
      w'.triggeredFor =
        if w'.manager.fileDownloadTriggered && !w.manager.fileDownloadTriggered
        then w.manager.pendingAnnouncement else w.triggeredFor := by
  obtain ⟨r, hstep, heq⟩ := Option.map_eq_some_iff.mp h
  cases heq
  exact ⟨hstep, rfl⟩

theorem leavesFor_congr {m m' : Manager} {a : Announcement} {exit : Exit}
    (pending : m'.pendingAnnouncement = m.pendingAnnouncement)
    (cancelled : m.fileDownloadCancelled = true → m'.fileDownloadCancelled = true)
    (h : m.leavesFor a exit) : m'.leavesFor a exit := by
  refine ⟨fun hexit => cancelled (h.1 hexit), fun hexit => ?_⟩
  have hcurrent := h.2 hexit
  unfold isStillCurrent at hcurrent ⊢
  rwa [pending]

/-- The announcement is still pending, so the caller has not been
superseded. -/
theorem not_superseded {m : Manager} {a : Announcement} {exit : Exit}
    (h : m.leavesFor a exit) (hpending : m.pendingAnnouncement = some a) :
    exit ≠ .superseded := by
  intro hexit
  have hcurrent := h.2 hexit
  simp [isStillCurrent, hpending] at hcurrent

/-- A first caller that leaves does not take stored paths away. -/
theorem pathsAfter_ne_none {m : Manager} {a : Announcement} {exit : Exit}
    (h : m.fileDownloadPaths ≠ none) : pathsAfter m a exit ≠ none := by
  unfold pathsAfter
  split
  · cases m.renderedData.bind decodePaths with
    | some paths => simp
    | none => exact h
  · exact h

/-- **The five exits.**  Behind each of them that the condition allows, the
paths are stored or the download is cancelled. -/
theorem settled_of_finish {w : Watched} {a : Announcement} {exit : Exit}
    (hdelivers : Delivers w .finish) (running : w.manager.running = some (.leaving a exit))
    (leaves : w.manager.leavesFor a exit) (pending : w.manager.pendingAnnouncement = some a) :
    pathsAfter w.manager a exit ≠ none ∨ w.manager.fileDownloadCancelled = true := by
  cases hcancelled : w.manager.fileDownloadCancelled with
  | true => exact Or.inr rfl
  | false =>
    left
    cases hpaths : w.manager.fileDownloadPaths with
    | some paths => exact pathsAfter_ne_none (by simp [hpaths])
    | none =>
        obtain ⟨htimed, hdecodes⟩ := hdelivers a exit running pending hcancelled hpaths
        cases exit with
        | timedOut => exact absurd rfl htimed
        | superseded => exact absurd rfl (not_superseded leaves pending)
        | cancelled =>
            rw [leaves.1 rfl] at hcancelled
            cases hcancelled
        | completed =>
            obtain ⟨paths, hdecoded⟩ := hdecodes rfl
            have hcurrent : isStillCurrent w.manager a = true := by
              simp [isStillCurrent, pending]
            simp [pathsAfter, hcurrent, hdecoded]

/-- The flag is not set by this step. -/
theorem triggeredFor_kept {w w' : Watched} {kit : AppKit} {act : Action} {os : List Obs}
    (h : (watched kit).step w act = some (w', os))
    (flag : w'.manager.fileDownloadTriggered = true → w.manager.fileDownloadTriggered = true) :
    w'.triggeredFor = w.triggeredFor := by
  rw [(watched_cases h).2]
  refine if_neg ?_
  intro hset
  rw [Bool.and_eq_true, Bool.not_eq_true'] at hset
  rw [flag hset.1] at hset
  cases hset.2

/-- Another announcement, or none: the flag was set for an older one. -/
theorem shared_replaced {w w' : Watched} {pending : Option Announcement} {serial : Nat}
    (hinv : Shared w)
    (shared : w'.manager.shared = (pending, w.manager.fileDownloadTriggered,
      w.manager.fileDownloadPaths, w.manager.fileDownloadCancelled, serial))
    (grows : w.manager.nextSerial ≤ serial)
    (fresh : ∀ a, pending = some a → a.serial = w.manager.nextSerial ∧
      w.manager.nextSerial < serial)
    (announcing : ∀ a, w'.manager.running = some (.announcing a) → pending = some a)
    (leaving : ∀ a exit, w'.manager.running ≠ some (.leaving a exit))
    (hfor : w'.triggeredFor = w.triggeredFor) : Shared w' := by
  obtain ⟨hpending, hflag, -, -, hserial⟩ := shared_parts shared
  refine ⟨?_, ?_, ?_, ?_, ?_⟩
  · intro b hb
    rw [hpending] at hb
    have hnew := fresh b hb
    omega
  · intro b hb
    rw [hfor] at hb
    have hold := hinv.watched b hb
    omega
  · intro a ha
    have hnew := fresh a (announcing a ha)
    omega
  · intro a exit ha
    exact absurd ha (leaving a exit)
  · intro b _ hb hb'
    rw [hfor] at hb
    rw [hpending] at hb'
    have hold := hinv.watched b hb
    have hnew := fresh b hb'
    omega

/-- A first caller has left its loop: it settles the fields for its own
announcement, and another one still has its own first caller. -/
theorem shared_finished {w w' : Watched} {a : Announcement} {exit : Exit} (hinv : Shared w)
    (hdelivers : Delivers w .finish) (running : w.manager.running = some (.leaving a exit))
    (shared : w'.manager.shared = (w.manager.pendingAnnouncement,
      w.manager.fileDownloadTriggered, pathsAfter w.manager a exit,
      w.manager.fileDownloadCancelled, w.manager.nextSerial))
    (primaries : w.manager.primaries = a :: w'.manager.primaries)
    (running' : w'.manager.running = none) (hfor : w'.triggeredFor = w.triggeredFor) :
    Shared w' := by
  obtain ⟨hpending, hflag, hpaths, hcancelled, hserial⟩ := shared_parts shared
  refine ⟨?_, ?_, by simp [running'], by simp [running'], ?_⟩
  · rw [hpending, hserial]
    exact hinv.issued
  · rw [hfor, hserial]
    exact hinv.watched
  · intro b hset hb hb'
    rw [hflag] at hset
    rw [hfor] at hb
    rw [hpending] at hb'
    rw [hpaths, hcancelled]
    by_cases hba : b = a
    · subst hba
      rcases settled_of_finish hdelivers running (hinv.leaving b exit running) hb' with
        hstored | hstopped
      · exact Or.inl hstored
      · exact Or.inr (Or.inl hstopped)
    · rcases hinv.settled b hset hb hb' with hstored | hstopped | hprogress
      · exact Or.inl (pathsAfter_ne_none hstored)
      · exact Or.inr (Or.inl hstopped)
      · rw [primaries, List.mem_cons] at hprogress
        exact Or.inr (Or.inr (hprogress.resolve_left hba))

theorem shared_step {kit : AppKit} {w w' : Watched} {act : Action} {os : List Obs}
    (hinv : Shared w) (hdelivers : Delivers w act)
    (h : (watched kit).step w act = some (w', os)) : Shared w' := by
  obtain ⟨hstep, hnoted⟩ := watched_cases h
  cases step_share hstep with
  | kept shared primaries announcing leaving =>
      obtain ⟨hpending, hflag, hpaths, hcancelled, hserial⟩ := shared_parts shared
      have hfor := triggeredFor_kept h (fun hset => by rwa [hflag] at hset)
      refine ⟨?_, ?_, ?_, ?_, ?_⟩
      · rw [hpending, hserial]
        exact hinv.issued
      · rw [hfor, hserial]
        exact hinv.watched
      · intro a ha
        rw [hserial]
        exact hinv.announcing a (announcing a ha)
      · intro a exit ha
        refine leavesFor_congr hpending (fun hset => by rwa [hcancelled]) ?_
        rcases leaving a exit ha with hbefore | hnow
        · exact hinv.leaving a exit hbefore
        · exact hnow
      · intro b hset hb hb'
        rw [hflag] at hset
        rw [hfor] at hb
        rw [hpending] at hb'
        rw [hpaths, hcancelled]
        rcases hinv.settled b hset hb hb' with hstored | hstopped | hprogress
        · exact Or.inl hstored
        · exact Or.inr (Or.inl hstopped)
        · exact Or.inr (Or.inr (primaries ▸ hprogress))
  | cancelled shared running primaries =>
      obtain ⟨hpending, hflag, -, hcancelled, hserial⟩ := shared_parts shared
      have hfor := triggeredFor_kept h (fun hset => by rwa [hflag] at hset)
      refine ⟨?_, ?_, ?_, ?_, fun _ _ _ _ => Or.inr (Or.inl hcancelled)⟩
      · rw [hpending, hserial]
        exact hinv.issued
      · rw [hfor, hserial]
        exact hinv.watched
      · rw [running, hserial]
        exact hinv.announcing
      · intro a exit ha
        rw [running] at ha
        exact leavesFor_congr hpending (fun _ => hcancelled) (hinv.leaving a exit ha)
  | replaced pending serial shared grows fresh primaries announcing leaving =>
      obtain ⟨-, hflag, -⟩ := shared_parts shared
      have hfor := triggeredFor_kept h (fun hset => by rwa [hflag] at hset)
      exact shared_replaced hinv shared grows fresh announcing leaving hfor
  | cleared a running shared primaries running' =>
      obtain ⟨hpending, hflag, -, -, hserial⟩ := shared_parts shared
      have hfor := triggeredFor_kept h (by simp [hflag])
      refine ⟨?_, ?_, ?_, ?_, ?_⟩
      · intro b hb
        rw [hpending, Option.some.injEq] at hb
        rw [← hb, hserial]
        exact hinv.announcing a running
      · rw [hfor, hserial]
        exact hinv.watched
      · simp [running']
      · simp [running']
      · intro b hset
        rw [hflag] at hset
        cases hset
  | triggered b pending first shared primaries running' =>
      obtain ⟨hpending, hflag, -, -, hserial⟩ := shared_parts shared
      refine ⟨?_, ?_, ?_, ?_, ?_⟩
      · rw [hpending, hserial, ← pending]
        exact hinv.issued
      · rw [hnoted, hflag, first, hserial]
        exact hinv.issued
      · simp [running']
      · simp [running']
      · intro c _ _ hc
        rw [hpending, Option.some.injEq] at hc
        exact Or.inr (Or.inr (by simp [primaries, hc]))
  | finished a exit action running shared primaries running' =>
      obtain ⟨-, hflag, -⟩ := shared_parts shared
      have hfor := triggeredFor_kept h (fun hset => by rwa [hflag] at hset)
      subst action
      exact shared_finished hinv hdelivers running shared primaries running' hfor

/-! ## Every later call -/

theorem shared_run {kit : AppKit} {contents : Contents} {count : Nat} {h : List Obs} {w : Watched}
    (hrun : Machine.Run (watched kit) Delivers ⟨initial contents count, none⟩ h w) : Shared w := by
  refine hrun.state_invariant Shared (shared_initial contents count) ?_
  intro w act w' os hinv hdelivers hstep
  exact shared_step hinv hdelivers hstep

/-- With stored paths or a cancellation, the next turn of a later caller is
its last. -/
theorem secondary_returns {kit : AppKit} {m : Manager} {a : Announcement} (index : Nat)
    (hrunning : m.running = some (.secondary a))
    (hsettled : m.fileDownloadPaths ≠ none ∨ m.fileDownloadCancelled = true) :
    ∃ m' paths, (machine kit).step m (.turn index) = some (m', [.returned a paths]) := by
  have hturn : (machine kit).step m (.turn index) = some (pollSecondary m a) := by
    simp [machine, turn, hrunning]
  rw [hturn]
  cases hpaths : m.fileDownloadPaths with
  | some paths => exact ⟨_, some paths, by rw [pollSecondary, hpaths]⟩
  | none =>
      have hcancelled : m.fileDownloadCancelled = true := by simpa [hpaths] using hsettled
      refine ⟨{ m with running := none }, none, ?_⟩
      simp only [pollSecondary, hpaths, hcancelled, true_or, if_true]

/-- **No later caller has to wait for its deadline**, in every run under the
condition: the shared fields are settled, and a later caller for the
announcement that the flag was set for returns at its next turn. -/
theorem download_settled {kit : AppKit} {contents : Contents} {count : Nat} {h : List Obs}
    {w : Watched}
    (hrun : Machine.Run (watched kit) Delivers ⟨initial contents count, none⟩ h w) :
    Settled w ∧
      ∀ a index, w.manager.running = some (.secondary a) → w.manager.primaries = [] →
        w.manager.fileDownloadTriggered = true → w.triggeredFor = some a →
        w.manager.pendingAnnouncement = some a →
        ∃ m' paths,
          (machine kit).step w.manager (.turn index) = some (m', [.returned a paths]) := by
  have hsettled : Settled w := by
    intro b hset hnone hfor hpending
    rcases (shared_run hrun).settled b hset hfor hpending with hstored | hstopped | hprogress
    · exact Or.inl hstored
    · exact Or.inr hstopped
    · rw [hnone] at hprogress
      cases hprogress
  refine ⟨hsettled, ?_⟩
  intro a index hrunning hnone hset hfor hpending
  exact secondary_returns index hrunning (hsettled a hset hnone hfor hpending)

/-- `Delivers`, as a test. -/
def testDelivers (w : Watched) : Action → Bool
  | .finish =>
    match w.manager.running with
    | some (.leaving a exit) =>
      w.manager.pendingAnnouncement ≠ some a || w.manager.fileDownloadCancelled ||
        w.manager.fileDownloadPaths.isSome ||
        (exit ≠ .timedOut &&
          (exit ≠ .completed || (w.manager.renderedData.bind decodePaths).isSome))
    | _ => true
  | _ => true

theorem delivers_of_test (w : Watched) (act : Action) (htest : testDelivers w act = true) :
    Delivers w act := by
  cases act with
  | finish =>
      intro a exit hrunning hpending hcancelled hpaths
      simp only [testDelivers, hrunning, hpending, hcancelled, hpaths, ne_eq, not_true_eq_false,
        decide_false, Option.isSome_none, Bool.or_self, Bool.false_or, Bool.and_eq_true,
        Bool.or_eq_true, decide_eq_true_eq] at htest
      refine ⟨htest.1, fun hexit => ?_⟩
      exact Option.isSome_iff_exists.mp (htest.2.resolve_left (fun hnot => hnot hexit))
  | _ => trivial

/-- A file is pasted and provided: later pastes of it are settled. -/
theorem provided_download_settled : ∃ h w,
    Machine.Run (watched plainKit) Delivers ⟨initial {} 0, none⟩ h w ∧
      w.triggeredFor = some ⟨0, [1], .files, [{ fileID := [48] }]⟩ ∧
      w.manager.fileDownloadPaths = some [[0x78]] ∧ Settled w := by
  have hexec : ((watched plainKit).execIf testDelivers ⟨initial {} 0, none⟩
      [.announceDelayed [1] .files [{ fileID := [48] }], .drain, .drain, .provideFileURL,
        .provideData [1] [0x78], .signal, .turn 0, .finish]).map
      (fun r => (r.1.triggeredFor, r.1.manager.fileDownloadPaths)) =
      some (some ⟨0, [1], .files, [{ fileID := [48] }]⟩, some [[0x78]]) := by
    decide
  obtain ⟨h, w, hrun, hresult⟩ := Machine.Run.of_execIf_map delivers_of_test hexec
  obtain ⟨hfor, hpaths⟩ := Prod.mk.inj hresult
  exact ⟨h, w, hrun, hfor, hpaths, (download_settled hrun).1⟩

/-- The first caller runs into its deadline, and nothing is left that a later
caller could see. -/
theorem timed_out_download_unsettled : ∃ h w,
    Machine.Run (watched plainKit) Machine.always ⟨initial {} 0, none⟩ h w ∧ ¬ Settled w := by
  have hexec : ((watched plainKit).exec ⟨initial {} 0, none⟩
      [.announceDelayed [1] .files [{ fileID := [48] }], .drain, .drain, .provideFileURL,
        .expire, .finish]).map
      (fun r => ((r.1.triggeredFor, r.1.manager.pendingAnnouncement),
        r.1.manager.primaries.isEmpty && r.1.manager.fileDownloadTriggered &&
          r.1.manager.fileDownloadPaths.isNone && !r.1.manager.fileDownloadCancelled)) =
      some ((some ⟨0, [1], .files, [{ fileID := [48] }]⟩,
        some ⟨0, [1], .files, [{ fileID := [48] }]⟩), true) := by
    decide
  obtain ⟨h, w, hrun, hresult⟩ := Machine.Run.of_exec_map hexec
  simp only [Prod.mk.injEq, Bool.and_eq_true, List.isEmpty_iff, Option.isNone_iff_eq_none,
    Bool.not_eq_true'] at hresult
  obtain ⟨⟨hfor, hpending⟩, ⟨⟨hempty, hset⟩, hpaths⟩, hcancelled⟩ := hresult
  refine ⟨h, w, hrun, ?_⟩
  intro hsettled
  rcases hsettled _ hset hempty hfor hpending with hstored | hstopped
  · exact hstored hpaths
  · rw [hcancelled] at hstopped
    cases hstopped

/-! ## The condition is exact -/

/-- A first caller in progress whose announcement is pending has set the flag,
and an announcement that is being made is newer than all of them. -/
structure Triggers (w : Watched) : Prop where
  older : ∀ c ∈ w.manager.primaries, c.serial < w.manager.nextSerial
  newest : ∀ a, w.manager.running = some (.announcing a) →
    ∀ c ∈ w.manager.primaries, c.serial < a.serial
  issued : ∀ b, w.manager.pendingAnnouncement = some b → b.serial < w.manager.nextSerial
  flagged : ∀ c ∈ w.manager.primaries, w.manager.pendingAnnouncement = some c →
    w.manager.fileDownloadTriggered = true ∧ w.triggeredFor = some c
  announcing : ∀ a, w.manager.running = some (.announcing a) → a.serial < w.manager.nextSerial

/-- No first caller comes, no announcement is begun and nothing is set. -/
theorem Triggers.fewer {w w' : Watched} (hinv : Triggers w)
    (hpending : w'.manager.pendingAnnouncement = w.manager.pendingAnnouncement)
    (hflag : w'.manager.fileDownloadTriggered = w.manager.fileDownloadTriggered)
    (hserial : w'.manager.nextSerial = w.manager.nextSerial)
    (hfor : w'.triggeredFor = w.triggeredFor)
    (hfewer : ∀ c ∈ w'.manager.primaries, c ∈ w.manager.primaries)
    (announcing : ∀ a, w'.manager.running = some (.announcing a) →
      w.manager.running = some (.announcing a)) : Triggers w' where
  older := by
    intro c hc
    rw [hserial]
    exact hinv.older c (hfewer c hc)
  newest := by
    intro a ha c hc
    exact hinv.newest a (announcing a ha) c (hfewer c hc)
  issued := by
    rw [hpending, hserial]
    exact hinv.issued
  flagged := by
    intro c hc
    rw [hpending, hflag, hfor]
    exact hinv.flagged c (hfewer c hc)
  announcing := by
    intro a ha
    rw [hserial]
    exact hinv.announcing a (announcing a ha)

/-- Another announcement has no first caller yet. -/
theorem triggers_replaced {w w' : Watched} {pending : Option Announcement} {serial : Nat}
    (hinv : Triggers w)
    (shared : w'.manager.shared = (pending, w.manager.fileDownloadTriggered,
      w.manager.fileDownloadPaths, w.manager.fileDownloadCancelled, serial))
    (grows : w.manager.nextSerial ≤ serial)
    (fresh : ∀ a, pending = some a → a.serial = w.manager.nextSerial ∧
      w.manager.nextSerial < serial)
    (primaries : w'.manager.primaries = w.manager.primaries)
    (announcing : ∀ a, w'.manager.running = some (.announcing a) → pending = some a) :
    Triggers w' := by
  obtain ⟨hpending, -, -, -, hserial⟩ := shared_parts shared
  refine ⟨?_, ?_, ?_, ?_, ?_⟩
  · intro c hc
    rw [primaries] at hc
    have hold := hinv.older c hc
    omega
  · intro a ha c hc
    rw [primaries] at hc
    have hold := hinv.older c hc
    have hnew := fresh a (announcing a ha)
    omega
  · intro b hb
    rw [hpending] at hb
    have hnew := fresh b hb
    omega
  · intro c hc hb
    rw [primaries] at hc
    rw [hpending] at hb
    have hold := hinv.older c hc
    have hnew := fresh c hb
    omega
  · intro a ha
    have hnew := fresh a (announcing a ha)
    omega

theorem triggers_step {kit : AppKit} {w w' : Watched} {act : Action} {os : List Obs}
    (hinv : Triggers w) (h : (watched kit).step w act = some (w', os)) : Triggers w' := by
  obtain ⟨hstep, hnoted⟩ := watched_cases h
  cases step_share hstep with
  | kept shared primaries announcing leaving =>
      obtain ⟨hpending, hflag, -, -, hserial⟩ := shared_parts shared
      have hfor := triggeredFor_kept h (fun hset => by rwa [hflag] at hset)
      exact hinv.fewer hpending hflag hserial hfor (by simp [primaries]) announcing
  | cancelled shared running primaries =>
      obtain ⟨hpending, hflag, -, -, hserial⟩ := shared_parts shared
      have hfor := triggeredFor_kept h (fun hset => by rwa [hflag] at hset)
      exact hinv.fewer hpending hflag hserial hfor (by simp [primaries]) (by simp [running])
  | replaced pending serial shared grows fresh primaries announcing leaving =>
      exact triggers_replaced hinv shared grows fresh primaries announcing
  | cleared a running shared primaries running' =>
      obtain ⟨hpending, -, -, -, hserial⟩ := shared_parts shared
      refine ⟨?_, by simp [running'], ?_, ?_, by simp [running']⟩
      · rw [primaries, hserial]
        exact hinv.older
      · intro b hb
        rw [hpending, Option.some.injEq] at hb
        rw [← hb, hserial]
        exact hinv.announcing a running
      · intro c hc hb
        rw [primaries] at hc
        rw [hpending, Option.some.injEq] at hb
        have hold := hinv.newest a running c hc
        rw [hb] at hold
        exact absurd hold (lt_irrefl _)
  | triggered b pending first shared primaries running' =>
      obtain ⟨hpending, hflag, -, -, hserial⟩ := shared_parts shared
      refine ⟨?_, by simp [running'], ?_, ?_, by simp [running']⟩
      · intro c hc
        rw [primaries, List.mem_cons] at hc
        rw [hserial]
        rcases hc with rfl | hc
        · exact hinv.issued c pending
        · exact hinv.older c hc
      · rw [hpending, hserial, ← pending]
        exact hinv.issued
      · intro c _ hc
        rw [hpending] at hc
        refine ⟨hflag, ?_⟩
        rw [hnoted, hflag, first, pending, hc]
        rfl
  | finished a exit action running shared primaries running' =>
      obtain ⟨hpending, hflag, -, -, hserial⟩ := shared_parts shared
      have hfor := triggeredFor_kept h (fun hset => by rwa [hflag] at hset)
      refine hinv.fewer hpending hflag hserial hfor ?_ (by simp [running'])
      intro c hc
      rw [primaries]
      exact List.mem_cons_of_mem _ hc

theorem triggers_run {kit : AppKit} {ok : Watched → Action → Prop} {contents : Contents}
    {count : Nat} {h : List Obs} {w : Watched}
    (hrun : Machine.Run (watched kit) ok ⟨initial contents count, none⟩ h w) : Triggers w := by
  refine hrun.state_invariant Triggers ?_ ?_
  · constructor
    · intro c hc
      cases hc
    · intro a ha
      cases ha
    · intro b hb
      cases hb
    · intro c hc
      cases hc
    · intro a ha
      cases ha
  · intro w act w' os hinv _ hstep
    exact triggers_step hinv hstep

/-- Without a cancellation, stored paths or usable data nothing is stored
behind the loop. -/
theorem pathsAfter_eq_none {m : Manager} {a : Announcement} {exit : Exit}
    (hpaths : m.fileDownloadPaths = none)
    (hdecodes : exit = .completed → m.renderedData.bind decodePaths = none) :
    pathsAfter m a exit = none := by
  unfold pathsAfter
  split
  · rename_i hcompleted
    simp [hdecodes hcompleted.1, hpaths]
  · exact hpaths

/-- **Each exit that the condition excludes leaves the fields unsettled**, in
every run, if it is the exit of the last first caller. -/
theorem failed_download_unsettled {kit : AppKit} {ok : Watched → Action → Prop}
    {contents : Contents} {count : Nat} {h : List Obs} {w w' : Watched} {a : Announcement}
    {os : List Obs} (hrun : Machine.Run (watched kit) ok ⟨initial contents count, none⟩ h w)
    (halone : w.manager.primaries = [a]) (hfails : ¬ Delivers w .finish)
    (hstep : (watched kit).step w .finish = some (w', os)) : ¬ Settled w' := by
  have hinv := triggers_run hrun
  simp only [Delivers, not_forall] at hfails
  obtain ⟨b, exit, running, pending, hcancelled, hpaths, hbad⟩ := hfails
  obtain ⟨hmachine, -⟩ := watched_cases hstep
  have hnext : (machine kit).step w.manager .finish = some (finishDownload w.manager b exit) := by
    simp [machine, running]
  rw [hnext, Option.some.injEq, Prod.mk.injEq] at hmachine
  obtain ⟨hmanager, -⟩ := hmachine
  have hmember : b ∈ w.manager.primaries := by
    simp [Manager.primaries, running, Call.primaries]
  obtain ⟨hset, hfor⟩ := hinv.flagged b hmember pending
  have hempty : w'.manager.primaries = [] := by
    have hsplit : w.manager.primaries = b :: w'.manager.primaries := by
      rw [← hmanager]
      simp [Manager.primaries, finishDownload, running, Call.primaries]
    rw [halone] at hsplit
    exact (List.cons.inj hsplit).2.symm
  have hfor' : w'.triggeredFor = w.triggeredFor :=
    triggeredFor_kept hstep (fun _ => hset)
  have hnone : pathsAfter w.manager b exit = none := by
    refine pathsAfter_eq_none hpaths ?_
    intro hcompleted
    by_contra hsome
    obtain ⟨paths, hdecoded⟩ := Option.ne_none_iff_exists'.mp hsome
    exact hbad ⟨by simp [hcompleted], fun _ => ⟨paths, hdecoded⟩⟩
  intro hsettled
  have hanswer := hsettled b (by rw [← hmanager]; exact hset) hempty (by rw [hfor', hfor])
    (by rw [← hmanager]; exact pending)
  rw [← hmanager] at hanswer
  rcases hanswer with hstored | hstopped
  · exact hstored hnone
  · have hstays : w.manager.fileDownloadCancelled = true := hstopped
    rw [hcancelled] at hstays
    cases hstays

end MacPasteboard
