import ClipboardHelper.Library.History
import ClipboardHelper.MacRendering

/-!
# Whose files a paste receives

`ensureFilesDownloaded` for an announcement waits for the paths of its files
and returns them.  While it waits it pumps the event loop, and inside the pump
other announcements are made and other downloads run to their end.  They share
`fileDownloadPaths`, and every call returns what it finds there.

* `step_download` says what a step can do to the stored paths and to the
  calls in progress.
* `Owned` is the invariant: the stored paths belong to one announcement, and
  whoever can still return them was called for it.
* `Exclusive` is the condition under which **every call returns the files of
  its own announcement** (`returned_paths_own`).
* `nested_download_returned` is a run in which a download inside the pump of
  another one makes the outer call return the wrong files.
-/

namespace MacPasteboard

open Library
open DispatchCodec (ClipboardContentType)

/-! ## Calls in progress -/

/-- The download that is running. -/
def Call.download : Call → List Announcement
  | .primary a | .leaving a _ | .secondary a => [a]
  | .announcing _ | .publishing _ | .losingOwnership | .waiting _ _ | .woken _ _ => []

/-- The announcements of all the `ensureFilesDownloaded` in progress. -/
def Manager.calls (m : Manager) : List Announcement :=
  (m.running.map Call.download).getD [] ++ m.pumps.map Pump.announcement

/-- A list of files is pending, and it is not just being announced. -/
def Manager.offers (m : Manager) (b : Announcement) : Prop :=
  m.pendingAnnouncement = some b ∧ b.contentType = .files ∧ m.running ≠ some (.announcing b)

/-- Paths are returned. -/
def Obs.returnsPaths : Obs → Bool
  | .returned _ (some _) => true
  | _ => false

/-- **What a step does** to the paths and to the calls. -/
inductive Download (m : Manager) (act : Action) (os : List Obs) (m' : Manager) : Prop
  | kept (paths : m'.fileDownloadPaths = m.fileDownloadPaths)
      (calls : ∀ c ∈ m'.calls, c ∈ m.calls)
      (offers : ∀ b, m'.offers b → m.offers b)
      (announcing : ∀ a, m'.running = some (.announcing a) →
        m.running = some (.announcing a) ∨
          act = .announceDelayed a.contentHash a.contentType a.files)
      (quiet : ∀ o ∈ os, o.returnsPaths = false)
  | cleared (paths : m'.fileDownloadPaths = none) (quiet : ∀ o ∈ os, o.returnsPaths = false)
  /-- An announcement of no files has been drained: nothing is published and
  the paths stay. -/
  | unpublished (a : Announcement) (running : m.running = some (.announcing a))
      (type : a.contentType = .files) (files : a.files = [])
      (paths : m'.fileDownloadPaths = m.fileDownloadPaths) (running' : m'.running = none)
      (obs : os = [])
  | returned (a : Announcement) (caller : a ∈ m.calls ∨ m.offers a)
      (paths : m'.fileDownloadPaths = m.fileDownloadPaths)
      (calls : ∀ c ∈ m'.calls, c ∈ m.calls)
      (offers : ∀ b, m'.offers b → m.offers b) (running : m'.running = none)
      (obs : os = [.returned a m.fileDownloadPaths])
  | stored (a : Announcement) (d : Bytes) (paths : List Bytes)
      (action : act = .finish) (running : m.running = some (.leaving a .completed))
      (current : isStillCurrent m a = true) (data : m.renderedData = some d)
      (decoded : decodePaths d = some paths)
      (paths' : m'.fileDownloadPaths = some paths) (pumps : m'.pumps = m.pumps)
      (pending : m'.pendingAnnouncement = m.pendingAnnouncement) (running' : m'.running = none)
      (obs : os = [.returned a (some paths)])

/-- A call that ends leaves the suspended ones. -/
theorem calls_of_ended {m m' : Manager} (running : m'.running = none)
    (pumps : m'.pumps = m.pumps) : ∀ c ∈ m'.calls, c ∈ m.calls := by
  intro c hc
  have hpumped : c ∈ m.pumps.map Pump.announcement := by
    simpa [Manager.calls, running, pumps] using hc
  exact List.mem_append_right _ hpumped

theorem offers_of_idle {m m' : Manager} {b : Announcement}
    (pending : m'.pendingAnnouncement = m.pendingAnnouncement)
    (hannounce : ∀ a, m.running ≠ some (.announcing a)) (h : m'.offers b) : m.offers b := by
  obtain ⟨hb, hfiles, -⟩ := h
  exact ⟨by rw [← pending, hb], hfiles, hannounce b⟩

/-- A step that leaves the pending announcement and the call alone. -/
theorem Download.of_same {m m' : Manager} {act : Action} {os : List Obs}
    (paths : m'.fileDownloadPaths = m.fileDownloadPaths)
    (pending : m'.pendingAnnouncement = m.pendingAnnouncement)
    (running : m'.running = m.running) (pumps : m'.pumps = m.pumps)
    (quiet : ∀ o ∈ os, o.returnsPaths = false) : Download m act os m' := by
  refine .kept paths ?_ ?_ ?_ quiet
  · simp [Manager.calls, running, pumps]
  · intro b
    simp [Manager.offers, running, pending]
  · intro a ha
    left
    rwa [running] at ha

/-- A step of a call that neither announces nor has announced. -/
theorem Download.of_call {m m' : Manager} {act : Action} {os : List Obs}
    (paths : m'.fileDownloadPaths = m.fileDownloadPaths)
    (pending : m'.pendingAnnouncement = m.pendingAnnouncement)
    (calls : ∀ c ∈ m'.calls, c ∈ m.calls)
    (hbefore : ∀ a, m.running ≠ some (.announcing a))
    (hafter : ∀ a, m'.running ≠ some (.announcing a))
    (quiet : ∀ o ∈ os, o.returnsPaths = false) : Download m act os m' := by
  refine .kept paths calls ?_ ?_ quiet
  · intro b
    exact offers_of_idle pending hbefore
  · intro a ha
    exact absurd ha (hafter a)

theorem writes_returnsPaths (kit : AppKit) (m : Manager) (data : Bytes) (type : PasteboardType)
    (a : Announcement) : ∀ o ∈ writes kit m data type a, o.returnsPaths = false := by
  intro o hmem
  obtain ⟨written, -, rfl⟩ := List.mem_map.mp hmem
  rfl

/-- Behind the drain of something other than files, an older list of files
may be on offer as it was before. -/
theorem offers_of_announced {m m' : Manager} {a b : Announcement}
    (pending : m'.pendingAnnouncement = m.pendingAnnouncement)
    (running : m.running = some (.announcing a)) (type : a.contentType ≠ .files)
    (h : m'.offers b) : m.offers b := by
  refine ⟨by rw [← pending, h.1], h.2.1, ?_⟩
  intro heq
  rw [running] at heq
  cases heq
  exact type h.2.1

theorem Pump.resume_download (p : Pump) : p.resume.download = [p.announcement] := by
  unfold Pump.resume
  split
  · rfl
  · rfl

/-- The first caller stores the paths of the data that is there, or returns
what was stored before. -/
theorem finished_download {m : Manager} {a : Announcement} {exit : Exit}
    (running : m.running = some (.leaving a exit)) :
    Download m .finish [.returned a (pathsAfter m a exit)]
      { m with fileDownloadPaths := pathsAfter m a exit, running := none } := by
  have kept : pathsAfter m a exit = m.fileDownloadPaths →
      Download m .finish [.returned a (pathsAfter m a exit)]
        { m with fileDownloadPaths := pathsAfter m a exit, running := none } := by
    intro hpaths
    refine .returned a (Or.inl ?_) hpaths (calls_of_ended rfl rfl) ?_ rfl (by rw [hpaths])
    · simp [Manager.calls, running, Call.download]
    · intro b
      exact offers_of_idle rfl (by simp [running])
  by_cases hcurrent : exit = .completed ∧ isStillCurrent m a = true
  · cases hdecoded : m.renderedData.bind decodePaths with
    | none => exact kept (by simp [pathsAfter, hcurrent, hdecoded])
    | some paths =>
        obtain ⟨d, hd, hpaths⟩ := Option.bind_eq_some_iff.mp hdecoded
        obtain ⟨rfl, hstill⟩ := hcurrent
        have hafter : pathsAfter m a .completed = some paths := by
          simp [pathsAfter, hstill, hdecoded]
        exact .stored a d paths rfl running hstill hd hpaths hafter rfl rfl rfl (by rw [hafter])
  · exact kept (by simp only [pathsAfter, if_neg hcurrent])

/-- Every step is one of these, as far as downloads go. -/
theorem step_download {kit : AppKit} {m m' : Manager} {act : Action} {os : List Obs}
    (h : (machine kit).step m act = some (m', os)) : Download m act os m' := by
  cases step_cases h with
  | discarded | accepted | signalled | set | ignored | unavailable | cancelled | unchanged
  | changed | drained | copied => exact .of_same rfl rfl rfl rfl (by simp [Obs.returnsPaths])
  -- a call goes on
  | woke running | left _ running | pumping running | took running | waitingOn running
  | primaryTimedOut running =>
      exact .of_call rfl rfl (by simp [Manager.calls, running, Call.download, takeSignal])
        (by simp [running]) (by simp) (by simp [Obs.returnsPaths])
  -- a call returns, and no paths with it
  | forgotten running | gaveUp running | renderTimedOut running | secondaryTimedOut running =>
      exact .of_call rfl rfl (calls_of_ended rfl rfl) (by simp [running]) (by simp)
        (by simp [Obs.returnsPaths])
  | announced contentHash contentType files idle =>
      refine .kept rfl ?_ ?_ ?_ (by simp [Obs.returnsPaths])
      · simp [Manager.calls, idle, announceDelayed, resetPending, Call.download]
      · intro b hb
        exact absurd (congrArg some (congrArg Call.announcing (Option.some.inj hb.1))) hb.2.2
      · intro a ha
        cases ha
        exact Or.inr rfl
  | lost idle =>
      refine .kept rfl ?_ ?_ ?_ (by simp)
      · simp [Manager.calls, idle, pasteboardChangedOwner, resetPending, Call.download]
      · intro b hb
        cases hb.1
      · intro a ha
        cases ha
  | answered type => exact .of_same rfl rfl rfl rfl (writes_returnsPaths kit m _ type _)
  | asked idle =>
      refine .of_call rfl rfl ?_ (by simp [idle]) (by simp) ?_
      · simp [Manager.calls, idle, Call.download]
      · intro o hmem
        split at hmem
        · cases hmem
        · rw [List.mem_singleton.mp hmem]
          rfl
  | downloaded idle pending type stored =>
      exact .returned _ (Or.inr ⟨pending, type, by simp [idle]⟩) rfl (fun _ h => h) (fun _ h => h)
        idle (by rw [stored])
  | triggered idle pending type missing => exact .cleared missing (by simp [Obs.returnsPaths])
  | joined idle pending type missing => exact .cleared missing (by simp)
  | announcedFiles => exact .cleared rfl (by simp)
  | announcedNoFiles running semaphore type files =>
      exact .unpublished _ running type files rfl rfl rfl
  | undeclared running semaphore type | declared running semaphore type =>
      exact .kept rfl (calls_of_ended rfl rfl) (fun _ => offers_of_announced rfl running type)
        (by simp) (by simp)
  | published running =>
      exact .of_call rfl rfl (calls_of_ended rfl rfl) (by simp [running]) (by simp [writeObjects])
        (by simp)
  | rendered os running obs =>
      refine .of_call rfl rfl (calls_of_ended rfl rfl) (by simp [running]) (by simp) ?_
      rcases obs with rfl | ⟨data, -, rfl⟩
      · simp
      · exact writes_returnsPaths kit m data _ _
  | finished running => exact finished_download running
  | found running stored =>
      refine .returned _ (Or.inl ?_) rfl (calls_of_ended rfl rfl) ?_ rfl (by rw [stored])
      · simp [Manager.calls, running, Call.download]
      · intro b
        exact offers_of_idle rfl (by simp [running])
  | pumped idle top =>
      exact .of_call rfl rfl (by simp [Manager.calls, idle, top, Pump.resume_download])
        (by simp [idle]) (Pump.resume_ne_announcing _) (by simp)

/-! ## The invariant -/

/-- The paths were decoded from data that was accepted for `x`. -/
def PathsOf (h : List Obs) (x : Announcement) (paths : List Bytes) : Prop :=
  ∃ d, .accepted x x.contentHash d ∈ h ∧ decodePaths d = some paths

theorem PathsOf.append {h : List Obs} {x : Announcement} {paths : List Bytes}
    (hp : PathsOf h x paths) (os : List Obs) : PathsOf (h ++ os) x paths := by
  obtain ⟨d, hmem, hdecoded⟩ := hp
  exact ⟨d, List.mem_append_left _ hmem, hdecoded⟩

/-- Stored paths belong to one announcement: the one that every call in
progress was made for, and that a new call would be made for. -/
structure Owned (h : List Obs) (m : Manager) : Prop where
  paths : ∀ paths, m.fileDownloadPaths = some paths → ∃ x, PathsOf h x paths ∧
    (∀ c ∈ m.calls, c = x) ∧ ∀ b, m.offers b → b = x
  /-- An announcement of no files would leave the paths in place. -/
  empty : ∀ a, m.running = some (.announcing a) → a.contentType = .files → a.files = [] →
    m.fileDownloadPaths = none

/-- **The condition.**  When a download stores its paths, its announcement
itself is pending and no call for another one is in progress; and an empty
list of files is announced only while no paths are stored. -/
def Exclusive (m : Manager) : Action → Prop
  | .finish => ∀ a d, m.running = some (.leaving a .completed) → isStillCurrent m a = true →
      m.renderedData = some d → isUtf8 d = true →
      m.pendingAnnouncement = some a ∧ ∀ p ∈ m.pumps, p.announcement = a
  | .announceDelayed _ contentType files =>
      contentType = .files → files = [] → m.fileDownloadPaths = none
  | _ => True

theorem isUtf8_of_decodePaths {d : Bytes} {paths : List Bytes} (h : decodePaths d = some paths) :
    isUtf8 d = true := by
  unfold decodePaths at h
  split at h
  · assumption
  · cases h

theorem owned_step {m m' : Manager} {act : Action} {h os : List Obs} (hstored : Stored h m)
    (hinv : Owned h m) (hex : Exclusive m act) (hdownload : Download m act os m') :
    Owned (h ++ os) m' := by
  cases hdownload with
  | kept paths calls offers announcing =>
      constructor
      · intro ps hps
        rw [paths] at hps
        obtain ⟨x, hx, hcalls, hoffers⟩ := hinv.paths ps hps
        exact ⟨x, hx.append os, fun c hc => hcalls c (calls c hc),
          fun b hb => hoffers b (offers b hb)⟩
      · intro a ha hfiles hempty
        rw [paths]
        rcases announcing a ha with hbefore | rfl
        · exact hinv.empty a hbefore hfiles hempty
        · exact hex hfiles hempty
  | cleared paths =>
      constructor
      · intro ps hps
        rw [paths] at hps
        cases hps
      · intro a _ _ _
        exact paths
  | unpublished a running type files paths running' =>
      have hnone := hinv.empty a running type files
      constructor
      · intro ps hps
        rw [paths, hnone] at hps
        cases hps
      · intro b _ _ _
        rw [paths, hnone]
  | returned a _ paths calls offers running =>
      constructor
      · intro ps hps
        rw [paths] at hps
        obtain ⟨x, hx, hcalls, hoffers⟩ := hinv.paths ps hps
        exact ⟨x, hx.append os, fun c hc => hcalls c (calls c hc),
          fun b hb => hoffers b (offers b hb)⟩
      · intro b hb
        rw [running] at hb
        cases hb
  | stored a d ps action running current data decoded paths' pumps pending running' =>
      subst action
      obtain ⟨hpending, hpumps⟩ := hex a d running current data (isUtf8_of_decodePaths decoded)
      obtain ⟨b, hb, hmem⟩ := hstored d data
      rw [hpending] at hb
      cases hb
      constructor
      · intro ps' hps'
        rw [paths'] at hps'
        cases hps'
        refine ⟨a, PathsOf.append ⟨d, hmem, decoded⟩ os, ?_, ?_⟩
        · intro c hc
          have hc' : c ∈ m.pumps.map Pump.announcement := by
            simpa [Manager.calls, running', pumps] using hc
          obtain ⟨p, hp, rfl⟩ := List.mem_map.mp hc'
          exact hpumps p hp
        · intro b hb
          have hsame := hb.1
          rw [pending, hpending] at hsame
          cases hsame
          rfl
      · intro b hb
        rw [running'] at hb
        cases hb

/-! ## What the calls return -/

/-- The paths that a call for `a` returns were decoded from data that was
accepted while `a` was pending. -/
def ReturnsOwn (before : List Obs) (o : Obs) : Prop :=
  ∀ a paths, o = .returned a (some paths) → PathsOf before a paths

theorem returnsOwn_quiet {h os : List Obs} (hw : Whenever ReturnsOwn h)
    (hquiet : ∀ o ∈ os, o.returnsPaths = false) : Whenever ReturnsOwn (h ++ os) := by
  refine hw.append ?_
  intro before o after heq a paths ho
  have hreturns := hquiet o (by rw [heq]; simp)
  rw [ho] at hreturns
  cases hreturns

theorem returnsOwn_step {m m' : Manager} {act : Action} {h os : List Obs} (hstored : Stored h m)
    (hinv : Owned h m) (hw : Whenever ReturnsOwn h) (hex : Exclusive m act)
    (hdownload : Download m act os m') : Whenever ReturnsOwn (h ++ os) := by
  cases hdownload with
  | kept _ _ _ _ quiet => exact returnsOwn_quiet hw quiet
  | cleared _ quiet => exact returnsOwn_quiet hw quiet
  | unpublished _ _ _ _ _ _ obs =>
      rw [obs]
      exact returnsOwn_quiet hw (by simp)
  | returned a caller _ _ _ _ obs =>
      rw [obs]
      apply hw.snoc
      intro a' paths ho
      obtain ⟨rfl, hpaths⟩ : a = a' ∧ m.fileDownloadPaths = some paths := by simpa using ho
      obtain ⟨x, hx, hcalls, hoffers⟩ := hinv.paths paths hpaths
      -- whoever can return the paths was called for their owner
      rcases caller with hcall | hoffer
      · rwa [hcalls a hcall]
      · rwa [hoffers a hoffer]
  | stored a d ps action running current data decoded _ _ _ _ obs =>
      subst action
      rw [obs]
      apply hw.snoc
      intro a' paths ho
      cases ho
      obtain ⟨hpending, -⟩ := hex a d running current data (isUtf8_of_decodePaths decoded)
      obtain ⟨b, hb, hmem⟩ := hstored d data
      rw [hpending] at hb
      cases hb
      exact ⟨d, hmem, decoded⟩

/-- **Every call returns the files of its own announcement**, in every run in
which downloads are exclusive. -/
theorem returned_paths_own {kit : AppKit} {contents : Contents} {count : Nat} {h : List Obs}
    {m : Manager} (hrun : Machine.Run (machine kit) Exclusive (initial contents count) h m) :
    Whenever ReturnsOwn h := by
  have hinv : Stored h m ∧ Owned h m ∧ Whenever ReturnsOwn h := by
    refine hrun.history_invariant (fun h m => Stored h m ∧ Owned h m ∧ Whenever ReturnsOwn h)
      ⟨?_, ⟨?_, ?_⟩, .nil⟩ ?_
    · intro d hd
      cases hd
    · intro paths hpaths
      cases hpaths
    · intro a ha
      cases ha
    · intro h m act m' os ⟨hstored, howned, hw⟩ hex hstep
      have hdownload := step_download hstep
      exact ⟨stored_step hstored (step_change hstep), owned_step hstored howned hex hdownload,
        returnsOwn_step hstored howned hw hex hdownload⟩
  exact hinv.2.2

/-- `Exclusive`, as a test. -/
def testExclusive (m : Manager) : Action → Bool
  | .finish =>
    match m.running with
    | some (.leaving a .completed) =>
      m.pendingAnnouncement = some a && m.pumps.all (fun p => p.announcement = a)
    | _ => true
  | .announceDelayed _ contentType files =>
    contentType ≠ .files || files ≠ [] || m.fileDownloadPaths = none
  | _ => true

theorem exclusive_of_test (m : Manager) (act : Action) (htest : testExclusive m act = true) :
    Exclusive m act := by
  cases act with
  | finish =>
      intro a d hrunning _ _ _
      simpa [testExclusive, hrunning] using htest
  | announceDelayed contentHash contentType files =>
      intro hfiles hempty
      simpa [testExclusive, hfiles, hempty] using htest
  | _ => trivial

/-- One file, in an announcement with a hash. -/
def oneFile (serial : Nat) (contentHash : Bytes) : Announcement :=
  ⟨serial, contentHash, .files, [{ filename := ascii "a" }]⟩

/-- The actions up to the pump of a download for one file. -/
def startDownload (contentHash : Bytes) : List Action :=
  [.announceDelayed contentHash .files [{ filename := ascii "a" }], .drain, .drain,
    .provideFileURL, .turn 0]

/-- The data arrives, and the innermost download leaves its pump and ends. -/
def endDownload (contentHash data : Bytes) : List Action :=
  [.provideData contentHash data, .signal, .pumped, .turn 0, .finish]

/-- The innermost download leaves its pump and finds itself superseded. -/
def leaveDownload : List Action := [.pumped, .turn 0, .finish]

/-- A file is announced, pasted and downloaded. -/
theorem single_download_returned : ∃ h m,
    Machine.Run (machine plainKit) Exclusive (initial {} 0) h m ∧
      Obs.returned (oneFile 0 [1]) (some [ascii "/a"]) ∈ h ∧ Whenever ReturnsOwn h := by
  have hexec : ((machine plainKit).execIf testExclusive (initial {} 0)
      (startDownload [1] ++ endDownload [1] (ascii "/a\n"))).map (fun r => r.2) =
      some [.announced (oneFile 0 [1]), .requested [1] .files,
        .accepted (oneFile 0 [1]) [1] (ascii "/a\n"),
        .returned (oneFile 0 [1]) (some [ascii "/a"])] := by
    decide
  obtain ⟨h, m, hrun, rfl⟩ := Machine.Run.of_execIf_map exclusive_of_test hexec
  exact ⟨_, m, hrun, by simp, returned_paths_own hrun⟩

/-- While `A` is being downloaded, `B` is announced, pasted and downloaded
inside the pump.  The call for `A` finds itself superseded and returns the
file of `B`. -/
theorem nested_download_returned : ∃ h m,
    Machine.Run (machine plainKit) Machine.always (initial {} 0) h m ∧
      ¬ Whenever ReturnsOwn h := by
  have hexec : ((machine plainKit).exec (initial {} 0)
      (startDownload [1] ++ startDownload [2] ++ endDownload [2] (ascii "/b\n") ++
        leaveDownload)).map (fun r => r.2) =
      some [.announced (oneFile 0 [1]), .requested [1] .files, .announced (oneFile 1 [2]),
        .requested [2] .files, .accepted (oneFile 1 [2]) [2] (ascii "/b\n"),
        .returned (oneFile 1 [2]) (some [ascii "/b"]),
        .returned (oneFile 0 [1]) (some [ascii "/b"])] := by
    decide
  obtain ⟨h, m, hrun, rfl⟩ := Machine.Run.of_exec_map hexec
  refine ⟨_, m, hrun, ?_⟩
  intro hw
  have hlast := hw [.announced (oneFile 0 [1]), .requested [1] .files, .announced (oneFile 1 [2]),
    .requested [2] .files, .accepted (oneFile 1 [2]) [2] (ascii "/b\n"),
    .returned (oneFile 1 [2]) (some [ascii "/b"])] _ [] rfl
  obtain ⟨d, hmem, -⟩ := hlast _ _ rfl
  simp [oneFile] at hmem

end MacPasteboard
