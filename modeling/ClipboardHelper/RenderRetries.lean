import ClipboardHelper.MacRendering

/-!
# When a paste asks again

`provideDataForType` sends its `DATA_REQUEST` only if `isRequestInFlight` is
not set.  The flag is meant to be true between a request and the data for it;
`provideData` clears it with the data, an announcement and the loss of the
pasteboard clear it with the slot.  A call that ends without data leaves it
set.

* `step_attempt` says what a step can do to the flag and to the calls that
  wait.
* `Flagged` is the invariant: while nothing is stored and nobody waits, the
  flag is set exactly if a call for the pending announcement has ended.
* **`paste_requests_iff`**: a paste asks the parent exactly if no earlier call
  for the same announcement has ended without data.
* `timed_out_paste_is_not_repeated` is a run with a second paste.
-/

namespace MacPasteboard

open Library
open DispatchCodec (ClipboardContentType)

/-- A call for the announcement has ended: its deadline has passed, or a
signal has released it and no data was stored. -/
def EndedWithoutData (h : List Obs) (b : Announcement) : Prop :=
  .timedOut b ∈ h ∨ ∃ s, .woke b s none ∈ h

/-- The call of `provideDataForType` that the observation ends. -/
def Obs.ends : Obs → Option Announcement
  | .timedOut a | .woke a _ _ => some a
  | _ => none

/-- The main thread waits in `provideDataForType`. -/
def Manager.isWaiting (m : Manager) : Bool :=
  match m.running with
  | some (.waiting _ _) => true
  | _ => false

/-- The fields that `stateLock` guards for the requests. -/
def Manager.request (m : Manager) : Option Announcement × Option Bytes × Bool × Nat :=
  (m.pendingAnnouncement, m.renderedData, m.isRequestInFlight, m.nextSerial)

/-- **What a step does** to the flag and to the waiting call. -/
inductive Attempt (m : Manager) (os : List Obs) (m' : Manager) : Prop
  | kept (request : m'.request = m.request)
      (waits : m'.isWaiting = true → m'.running = m.running)
      (kept : m.isWaiting = true → m'.running = m.running)
      (quiet : ∀ o ∈ os, o.ends = none)
  | asked (b : Announcement) (type : PasteboardType) (idle : m.running = none)
      (pending : m.pendingAnnouncement = some b) (rendered : b.isRendered = true)
      (request : m'.request = (some b, none, true, m.nextSerial))
      (running' : m'.running = some (.waiting b type))
      (quiet : ∀ o ∈ os, o.ends = none)
  | ended (a : Announcement) (type : PasteboardType)
      (running : m.running = some (.waiting a type)) (request : m'.request = m.request)
      (running' : m'.isWaiting = false)
      (obs : os = [.timedOut a] ∨ ∃ s, os = [.woke a s m.renderedData])
  | reset (data : m'.renderedData = none) (flag : m'.isRequestInFlight = false)
      (serial : m.nextSerial ≤ m'.nextSerial)
      (pending : ∀ a, m'.pendingAnnouncement = some a →
        a.serial = m.nextSerial ∧ m.nextSerial < m'.nextSerial ∨ a.isRendered = false)
      (running' : m'.isWaiting = false) (quiet : ∀ o ∈ os, o.ends = none)
  | accepted (data : Bytes) (request : m'.request =
        (m.pendingAnnouncement, some data, false, m.nextSerial))
      (running : m'.running = m.running) (quiet : ∀ o ∈ os, o.ends = none)

/-- A step that leaves the running call alone. -/
theorem Attempt.of_same {m m' : Manager} {os : List Obs} (request : m'.request = m.request)
    (running : m'.running = m.running) (quiet : ∀ o ∈ os, o.ends = none) : Attempt m os m' :=
  .kept request (fun _ => running) (fun _ => running) quiet

/-- A step of the main thread that neither waits nor begins to. -/
theorem Attempt.of_call {m m' : Manager} {os : List Obs} (request : m'.request = m.request)
    (before : m.isWaiting = false) (after : m'.isWaiting = false)
    (quiet : ∀ o ∈ os, o.ends = none) : Attempt m os m' := by
  refine .kept request ?_ ?_ quiet
  · intro hwaits
    rw [after] at hwaits
    cases hwaits
  · intro hwaits
    rw [before] at hwaits
    cases hwaits

theorem isWaiting_of {m : Manager} {call : Option Call} (h : m.running = call)
    (hcall : ∀ a type, call ≠ some (.waiting a type)) : m.isWaiting = false := by
  unfold Manager.isWaiting
  split
  · rename_i a type hrunning
    exact absurd (h ▸ hrunning) (hcall a type)
  · rfl

theorem writes_end_nothing (kit : AppKit) (m : Manager) (data : Bytes) (type : PasteboardType)
    (a : Announcement) : ∀ o ∈ writes kit m data type a, o.ends = none := by
  intro o hmem
  obtain ⟨written, -, rfl⟩ := List.mem_map.mp hmem
  rfl

/-- Every step is an attempt of one of these kinds. -/
theorem step_attempt {kit : AppKit} {m m' : Manager} {act : Action} {os : List Obs}
    (h : (machine kit).step m act = some (m', os)) : Attempt m os m' := by
  cases step_cases h with
  | accepted data tiff idle pending =>
      refine .accepted data ?_ rfl (by simp [Obs.ends])
      simp [Manager.request, pending]
  | announced contentHash contentType files =>
      refine .reset rfl rfl (Nat.le_succ _) ?_ rfl (by simp [Obs.ends])
      intro a hpending
      cases hpending
      exact Or.inl ⟨rfl, Nat.lt_succ_self _⟩
  | lost =>
      refine .reset rfl rfl (le_refl _) ?_ rfl (by simp)
      intro a hpending
      cases hpending
  | announcedFiles running semaphore type =>
      refine .reset rfl rfl (le_refl _) ?_ rfl (by simp)
      intro a hpending
      cases hpending
      exact Or.inr (not_isRendered_of_files type)
  | asked idle pending allowed missing =>
      refine .asked _ _ idle pending (isRendered_of_mem allowed) ?_ rfl ?_
      · simp [Manager.request, pending, missing]
      · intro o hmem
        split at hmem
        · cases hmem
        · rw [List.mem_singleton.mp hmem]
          rfl
  | woke running => exact .ended _ _ running rfl rfl (Or.inr ⟨_, rfl⟩)
  | renderTimedOut running => exact .ended _ _ running rfl rfl (Or.inl rfl)
  -- what happens beside the calls of AppKit
  | discarded | signalled | set | ignored | unavailable | downloaded | cancelled | unchanged
  | changed | drained | copied => exact .of_same rfl rfl (by simp [Obs.ends])
  | answered type => exact .of_same rfl rfl (writes_end_nothing kit m _ type _)
  -- a call that goes on and does not wait for the render signal
  | triggered running | joined running | announcedNoFiles running | undeclared running
  | declared running | published running | forgotten running | left _ running | pumping running
  | took running | finished running | found running | gaveUp running | waitingOn running
  | primaryTimedOut running | secondaryTimedOut running =>
      exact .of_call rfl (isWaiting_of running (by simp)) rfl (by simp [Obs.ends])
  | rendered os running obs =>
      refine .of_call rfl (isWaiting_of running (by simp)) rfl ?_
      rcases obs with rfl | hwrites
      · simp
      · obtain ⟨data, -, rfl⟩ := hwrites
        exact writes_end_nothing kit m data _ _
  | pumped idle =>
      exact .of_call rfl (isWaiting_of idle (by simp))
        (isWaiting_of rfl (Pump.resume_ne_waiting _)) (by simp)

/-! ## The invariant -/

/-- While nothing is stored for an announcement and nobody waits for it, the
flag tells whether a call for it has ended. -/
structure Flagged (h : List Obs) (m : Manager) : Prop where
  issued : ∀ b, m.pendingAnnouncement = some b → b.isRendered = true → b.serial < m.nextSerial
  past : ∀ o ∈ h, ∀ a, o.ends = some a → a.serial < m.nextSerial
  waiting : ∀ a type, m.running = some (.waiting a type) →
    m.pendingAnnouncement = some a ∧ a.isRendered = true ∧
      (m.renderedData = none → m.isRequestInFlight = true)
  flag : ∀ b, m.pendingAnnouncement = some b → b.isRendered = true → m.renderedData = none →
    m.isWaiting = false → (m.isRequestInFlight = true ↔ EndedWithoutData h b)

theorem flagged_initial (contents : Contents) (count : Nat) :
    Flagged [] (initial contents count) where
  issued := by
    intro b h
    cases h
  past := by
    intro o h
    cases h
  waiting := by
    intro a type h
    cases h
  flag := by
    intro b h
    cases h

/-- Observations that end no call change nothing. -/
theorem endedWithoutData_quiet {h os : List Obs} (hquiet : ∀ o ∈ os, o.ends = none)
    (b : Announcement) : EndedWithoutData (h ++ os) b ↔ EndedWithoutData h b := by
  have hnot : ∀ o, o.ends = some b → (o ∈ h ++ os ↔ o ∈ h) := by
    intro o ho
    rw [List.mem_append]
    constructor
    · intro hmem
      rcases hmem with hold | hnew
      · exact hold
      · rw [hquiet o hnew] at ho
        cases ho
    · exact Or.inl
  simp only [EndedWithoutData, hnot (.timedOut b) rfl]
  refine or_congr Iff.rfl (exists_congr ?_)
  intro s
  exact hnot (.woke b s none) rfl

theorem request_parts {m : Manager} {pending : Option Announcement} {data : Option Bytes}
    {flag : Bool} {serial : Nat} (h : m.request = (pending, data, flag, serial)) :
    m.pendingAnnouncement = pending ∧ m.renderedData = data ∧ m.isRequestInFlight = flag ∧
      m.nextSerial = serial := by
  simpa [Manager.request] using h

theorem past_quiet {h os : List Obs} {m m' : Manager} (hinv : Flagged h m)
    (hserial : m.nextSerial ≤ m'.nextSerial) (hquiet : ∀ o ∈ os, o.ends = none) :
    ∀ o ∈ h ++ os, ∀ a, o.ends = some a → a.serial < m'.nextSerial := by
  intro o hmem a ha
  rcases List.mem_append.mp hmem with hold | hnew
  · exact Nat.lt_of_lt_of_le (hinv.past o hold a ha) hserial
  · rw [hquiet o hnew] at ha
    cases ha

theorem not_waiting {m : Manager} (h : m.isWaiting = false) (a : Announcement)
    (type : PasteboardType) : m.running ≠ some (.waiting a type) := by
  intro hrunning
  simp [Manager.isWaiting, hrunning] at h

theorem Flagged.kept {h os : List Obs} {m m' : Manager} (hinv : Flagged h m)
    (request : m'.request = m.request) (waits : m'.isWaiting = true → m'.running = m.running)
    (kept : m.isWaiting = true → m'.running = m.running) (quiet : ∀ o ∈ os, o.ends = none) :
    Flagged (h ++ os) m' := by
  obtain ⟨hpending, hdata, hflag, hserial⟩ := request_parts request
  refine ⟨?_, past_quiet hinv hserial.ge quiet, ?_, ?_⟩
  · rw [hpending, hserial]
    exact hinv.issued
  · intro a type hrunning
    rw [hpending, hdata, hflag]
    refine hinv.waiting a type ?_
    rw [← waits (by simp [Manager.isWaiting, hrunning]), hrunning]
  · intro b hb hrendered hnone hidle
    rw [hpending] at hb
    rw [hdata] at hnone
    rw [hflag, endedWithoutData_quiet quiet]
    refine hinv.flag b hb hrendered hnone ?_
    by_contra hwaits
    have hsame := kept (by simpa using hwaits)
    unfold Manager.isWaiting at hidle hwaits
    rw [hsame] at hidle
    exact hwaits hidle

/-- A call ends: without data its end is on record, and the flag is still
set. -/
theorem Flagged.ended {h os : List Obs} {m m' : Manager} (hinv : Flagged h m) {a : Announcement}
    {type : PasteboardType} (running : m.running = some (.waiting a type))
    (request : m'.request = m.request) (running' : m'.isWaiting = false)
    (obs : os = [.timedOut a] ∨ ∃ s, os = [.woke a s m.renderedData]) : Flagged (h ++ os) m' := by
  obtain ⟨hpending, hdata, hflag, hserial⟩ := request_parts request
  obtain ⟨ha, hrendered, hset⟩ := hinv.waiting a type running
  refine ⟨?_, ?_, ?_, ?_⟩
  · rw [hpending, hserial]
    exact hinv.issued
  · intro o hmem b hb
    rw [hserial]
    rcases List.mem_append.mp hmem with hold | hnew
    · exact hinv.past o hold b hb
    · have hab : b = a := by
        rcases obs with rfl | hwoke
        · rw [List.mem_singleton.mp hnew] at hb
          exact (Option.some.inj hb).symm
        · obtain ⟨s, rfl⟩ := hwoke
          rw [List.mem_singleton.mp hnew] at hb
          exact (Option.some.inj hb).symm
      rw [hab]
      exact hinv.issued a ha hrendered
  · intro b type' hwaits
    exact absurd hwaits (not_waiting running' b type')
  · intro b hb _ hnone _
    rw [hpending, ha] at hb
    cases hb
    rw [hdata] at hnone
    refine iff_of_true (by rw [hflag, hset hnone]) ?_
    rcases obs with rfl | hwoke
    · exact Or.inl (by simp)
    · obtain ⟨s, rfl⟩ := hwoke
      exact Or.inr ⟨s, by simp [hnone]⟩

theorem flagged_step {m m' : Manager} {h os : List Obs} (hinv : Flagged h m)
    (hattempt : Attempt m os m') : Flagged (h ++ os) m' := by
  cases hattempt with
  | kept request waits kept quiet => exact hinv.kept request waits kept quiet
  | ended a type running request running' obs => exact hinv.ended running request running' obs
  | asked b type idle pending rendered request running' quiet =>
      obtain ⟨hpending, -, hflag, hserial⟩ := request_parts request
      refine ⟨?_, past_quiet hinv hserial.ge quiet, ?_, ?_⟩
      · rw [hpending, hserial, ← pending]
        exact hinv.issued
      · intro a type' hwaits
        rw [running'] at hwaits
        cases hwaits
        exact ⟨hpending, rendered, fun _ => hflag⟩
      · intro _ _ _ _ hidle
        simp [Manager.isWaiting, running'] at hidle
  | reset data flag serial pending running' quiet =>
      refine ⟨?_, past_quiet hinv serial quiet, ?_, ?_⟩
      · intro b hb hrendered
        rcases pending b hb with hnew | hfiles
        · omega
        · rw [hrendered] at hfiles
          cases hfiles
      · intro a type hwaits
        exact absurd hwaits (not_waiting running' a type)
      · intro b hb hrendered _ _
        rw [flag, endedWithoutData_quiet quiet]
        refine iff_of_false (by simp) ?_
        -- an announcement with a new number has had no call yet
        have hnew : b.serial = m.nextSerial := by
          rcases pending b hb with hnew | hfiles
          · exact hnew.1
          · rw [hrendered] at hfiles
            cases hfiles
        intro hended
        rcases hended with htimed | hwoke
        · exact absurd (hinv.past _ htimed b rfl) (by omega)
        · obtain ⟨s, hwoke⟩ := hwoke
          exact absurd (hinv.past _ hwoke b rfl) (by omega)
  | accepted data request running quiet =>
      obtain ⟨hpending, hdata, hflag, hserial⟩ := request_parts request
      refine ⟨?_, past_quiet hinv hserial.ge quiet, ?_, ?_⟩
      · rw [hpending, hserial]
        exact hinv.issued
      · intro a type hwaits
        rw [running] at hwaits
        obtain ⟨ha, hrendered, -⟩ := hinv.waiting a type hwaits
        refine ⟨by rw [hpending, ha], hrendered, ?_⟩
        intro hnone
        rw [hdata] at hnone
        cases hnone
      · intro b _ _ hnone
        rw [hdata] at hnone
        cases hnone

/-- **The flag, in every run.** -/
theorem flagged_run {kit : AppKit} {ok : Manager → Action → Prop} {contents : Contents}
    {count : Nat} {h : List Obs} {m : Manager}
    (hrun : Machine.Run (machine kit) ok (initial contents count) h m) : Flagged h m := by
  refine hrun.history_invariant Flagged (flagged_initial contents count) ?_
  intro h m act m' os hinv _ hstep
  exact flagged_step hinv (step_attempt hstep)

/-! ## The request of a paste -/

/-- **When a paste asks.**  In every run, a call of `provideDataForType` for a
declared type that finds nothing stored sends a `DATA_REQUEST` for the pending
announcement exactly if no earlier call for this announcement has ended
without data. -/
theorem paste_requests_iff {kit : AppKit} {contents : Contents} {count : Nat} {h : List Obs}
    {m : Manager} {b : Announcement} {type : PasteboardType}
    (hrun : Machine.Run (machine kit) Machine.always (initial contents count) h m)
    (hidle : m.running = none) (hpending : m.pendingAnnouncement = some b)
    (htype : type ∈ allowedTypes b.contentType) (hmissing : m.renderedData = none) :
    ∃ m' os, (machine kit).step m (.provideDataForType type) = some (m', os) ∧
      (.requested b.contentHash b.contentType ∈ os ↔ ¬ EndedWithoutData h b) := by
  have hflag := (flagged_run hrun).flag b hpending (isRendered_of_mem htype) hmissing
    (isWaiting_of hidle (by simp))
  refine ⟨{ m with isRequestInFlight := true, running := some (.waiting b type) },
    if m.isRequestInFlight then [] else [.requested b.contentHash b.contentType], ?_, ?_⟩
  · simp [machine, event, hidle, provideDataForType, hpending, htype, hmissing]
  · rw [← hflag]
    cases m.isRequestInFlight with
    | true => simp
    | false => simp

/-- The first paste of a text asks for it. -/
theorem first_paste_requests : ∃ h m m' os,
    Machine.Run (machine plainKit) Machine.always (initial {} 0) h m ∧
      (machine plainKit).step m (.provideDataForType .string) = some (m', os) ∧
      (.requested [1] .text ∈ os ↔ ¬ EndedWithoutData h ⟨0, [1], .text, []⟩) ∧
      h = [.announced ⟨0, [1], .text, []⟩] := by
  have hexec : ((machine plainKit).exec (initial {} 0) [.announceDelayed [1] .text [], .drain]).map
      (fun r => (r.2, r.1.running, r.1.pendingAnnouncement, r.1.renderedData)) =
      some ([.announced ⟨0, [1], .text, []⟩], none, some ⟨0, [1], .text, []⟩, none) := by
    decide
  obtain ⟨h, m, hrun, hresult⟩ := Machine.Run.of_exec_map hexec
  simp only [Prod.mk.injEq] at hresult
  obtain ⟨hh, hidle, hpending, hmissing⟩ := hresult
  have hallowed : PasteboardType.string ∈ allowedTypes .text := by decide
  obtain ⟨m', os, hstep, hiff⟩ := paste_requests_iff hrun hidle hpending hallowed hmissing
  exact ⟨h, m, m', os, hrun, hstep, hiff, hh⟩

/-- The second paste of a text, after the first has timed out, asks for
nothing. -/
theorem timed_out_paste_is_not_repeated : ∃ h m m' os,
    Machine.Run (machine plainKit) Machine.always (initial {} 0) h m ∧ m.running = none ∧
      m.pendingAnnouncement = some ⟨0, [1], .text, []⟩ ∧ m.renderedData = none ∧
      (machine plainKit).step m (.provideDataForType .string) = some (m', os) ∧
      .requested [1] .text ∉ os := by
  have hexec : ((machine plainKit).exec (initial {} 0)
      [.announceDelayed [1] .text [], .drain, .provideDataForType .string, .expire]).map
      (fun r => ((r.1.running, r.1.pendingAnnouncement, r.1.renderedData),
        ((machine plainKit).step r.1 (.provideDataForType .string)).map (fun r' => r'.2))) =
      some ((none, some ⟨0, [1], .text, []⟩, none), some []) := by
    decide
  obtain ⟨h, m, hrun, hresult⟩ := Machine.Run.of_exec_map hexec
  simp only [Prod.mk.injEq] at hresult
  obtain ⟨⟨hidle, hpending, hmissing⟩, hstep⟩ := hresult
  obtain ⟨r, hr, hos⟩ := Option.map_eq_some_iff.mp hstep
  exact ⟨h, m, r.1, r.2, hrun, hidle, hpending, hmissing, hr, by simp [hos]⟩

end MacPasteboard
