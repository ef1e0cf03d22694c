import ClipboardHelper.Library.History
import ClipboardHelper.MacRendering

/-!
# Which changes of the pasteboard are reported

`checkForChanges` polls the change count, reads what another application has
put on the pasteboard and sends `CLIPBOARD_CHANGED`, except when the hash of
the content is `lastSetHash`: then it takes the change for an echo of what
the parent has set.  `lastSetHash` is never cleared, so it also suppresses
the same content when somebody copies it later on.

The last hash that the parent knows is a function of the history:
`lastKnown`.  A poll reads content that has *returned* (`Returned`) if the
parent was the last to give this content and other content has been reported
since.

**A poll leaves the parent with the right hash exactly if the content has not
returned** (`poll_informs_iff`); so the reports of a run are complete if and
only if no poll reads such content (`changes_reported_iff`).
-/

namespace MacPasteboard

open Library
open DispatchCodec (ClipboardContentType)

/-! ## What the parent knows -/

/-- The hash that the parent sets or announces. -/
def Obs.given? : Obs → Option Bytes
  | .set contentHash => some contentHash
  | .announced a => some a.contentHash
  | _ => none

/-- The hash of a `CLIPBOARD_CHANGED`. -/
def Obs.reported? : Obs → Option Bytes
  | .polled _ data true => some data.contentHash
  | _ => none

/-- The hash that an observation makes known to the parent. -/
def Obs.known? (o : Obs) : Option Bytes := o.given?.or o.reported?

def lastGiven (h : List Obs) : Option Bytes := (h.filterMap Obs.given?).getLast?

def lastKnown (h : List Obs) : Option Bytes := (h.filterMap Obs.known?).getLast?

theorem lastGiven_snoc (h : List Obs) (o : Obs) :
    lastGiven (h ++ [o]) = o.given?.or (lastGiven h) := by
  cases hgiven : o.given? <;> simp [lastGiven, hgiven]

theorem lastKnown_snoc (h : List Obs) (o : Obs) :
    lastKnown (h ++ [o]) = o.known?.or (lastKnown h) := by
  cases hknown : o.known? <;> simp [lastKnown, hknown]

/-- The observation is not about the content of the pasteboard. -/
def Obs.isQuiet : Obs → Bool
  | .set _ | .announced _ | .polled _ _ _ => false
  | _ => true

theorem given?_eq_none {o : Obs} (h : o.isQuiet = true) : o.given? = none := by
  cases o with
  | set | announced => cases h
  | _ => rfl

theorem reported?_eq_none {o : Obs} (h : o.isQuiet = true) : o.reported? = none := by
  cases o with
  | polled => cases h
  | _ => rfl

theorem known?_eq_none {o : Obs} (h : o.isQuiet = true) : o.known? = none := by
  rw [Obs.known?, given?_eq_none h, reported?_eq_none h]
  rfl

theorem lastGiven_quiet (h : List Obs) {os : List Obs} (hos : ∀ o ∈ os, o.isQuiet = true) :
    lastGiven (h ++ os) = lastGiven h := by
  have hnil : os.filterMap Obs.given? = [] :=
    List.filterMap_eq_nil_iff.mpr (fun o ho => given?_eq_none (hos o ho))
  simp [lastGiven, hnil]

theorem lastKnown_quiet (h : List Obs) {os : List Obs} (hos : ∀ o ∈ os, o.isQuiet = true) :
    lastKnown (h ++ os) = lastKnown h := by
  have hnil : os.filterMap Obs.known? = [] :=
    List.filterMap_eq_nil_iff.mpr (fun o ho => known?_eq_none (hos o ho))
  simp [lastKnown, hnil]

/-- Something has been reported since the parent gave anything. -/
def ReportedSince (h : List Obs) : Prop :=
  Since (fun o => o.reported?.isSome) (fun o => o.given?.isSome) h

/-- The content with this hash is the last that the parent gave, and other
content has been reported since. -/
def Returned (h : List Obs) (contentHash : Bytes) : Prop :=
  lastGiven h = some contentHash ∧ ReportedSince h

theorem reportedSince_quiet (h : List Obs) {os : List Obs} (hos : ∀ o ∈ os, o.isQuiet = true) :
    ReportedSince (h ++ os) ↔ ReportedSince h := by
  apply since_append_of_neither
  · intro o ho
    simp [reported?_eq_none (hos o ho)]
  · intro o ho
    simp [given?_eq_none (hos o ho)]

theorem reportedSince_snoc (h : List Obs) (o : Obs) :
    ReportedSince (h ++ [o]) ↔
      o.reported?.isSome = true ∨ ReportedSince h ∧ ¬ o.given?.isSome = true :=
  since_snoc

@[simp] theorem given?_polled (own : Bool) (data : ClipboardData) (changed : Bool) :
    (Obs.polled own data changed).given? = none := rfl

@[simp] theorem reported?_polled (own : Bool) (data : ClipboardData) (changed : Bool) :
    (Obs.polled own data changed).reported? =
      if changed then some data.contentHash else none := by
  cases changed <;> rfl

@[simp] theorem known?_polled (own : Bool) (data : ClipboardData) (changed : Bool) :
    (Obs.polled own data changed).known? = if changed then some data.contentHash else none := by
  simp [Obs.known?]

/-! ## Steps -/

/-- **What a step does** to the hash that suppresses echoes. -/
inductive Report (m : Manager) (os : List Obs) (m' : Manager) : Prop
  /-- `announceDelayedFiles` writes the hash of the announcement once more. -/
  | kept (hash : m'.lastSetHash = m.lastSetHash ∨
        ∃ a, m.running = some (.announcing a) ∧ m'.lastSetHash = some a.contentHash)
      (announcing : ∀ a, m'.running = some (.announcing a) → m.running = some (.announcing a))
      (quiet : ∀ o ∈ os, o.isQuiet = true)
  | given (o : Obs) (contentHash : Bytes) (known : o.given? = some contentHash)
      (hash : m'.lastSetHash = some contentHash)
      (announcing : ∀ a, m'.running = some (.announcing a) → a.contentHash = contentHash)
      (obs : os = [o])
  | polled (own : Bool) (data : ClipboardData) (hash : m'.lastSetHash = m.lastSetHash)
      (announcing : ∀ a, m'.running ≠ some (.announcing a))
      (obs : os = [.polled own data (isReported m data)])

/-- A step of a call that is not an announcement. -/
theorem Report.of_call {m m' : Manager} {os : List Obs} (hash : m'.lastSetHash = m.lastSetHash)
    (announcing : ∀ a, m'.running = some (.announcing a) → m.running = some (.announcing a))
    (quiet : ∀ o ∈ os, o.isQuiet = true) : Report m os m' :=
  .kept (Or.inl hash) announcing quiet

theorem writes_isQuiet (kit : AppKit) (m : Manager) (data : Bytes) (type : PasteboardType)
    (a : Announcement) : ∀ o ∈ writes kit m data type a, o.isQuiet = true := by
  intro o hmem
  obtain ⟨written, -, rfl⟩ := List.mem_map.mp hmem
  rfl

/-- Every step is one of these, as far as reports go. -/
theorem step_report {kit : AppKit} {m m' : Manager} {act : Action} {os : List Obs}
    (h : (machine kit).step m act = some (m', os)) : Report m os m' := by
  have same : ∀ a, m.running = some (.announcing a) → m.running = some (.announcing a) :=
    fun _ ha => ha
  cases step_cases h with
  -- nobody announces before or after
  | discarded | accepted | signalled | ignored | unavailable | downloaded | cancelled | unchanged
  | drained | copied => exact .of_call rfl same (by simp [Obs.isQuiet])
  -- another call runs afterwards, or none
  | triggered | joined | announcedNoFiles | undeclared | declared | forgotten | woke | left
  | pumping | took | finished | found | gaveUp | waitingOn | renderTimedOut | primaryTimedOut
  | secondaryTimedOut => exact .of_call rfl (by simp) (by simp [Obs.isQuiet])
  | set data fs idle =>
      refine .given (.set data.contentHash) data.contentHash rfl rfl ?_ rfl
      intro a ha
      have hsame : m.running = some (.announcing a) := ha
      rw [idle] at hsame
      cases hsame
  | announced contentHash contentType files =>
      refine .given (.announced ⟨m.nextSerial, contentHash, contentType, files⟩) contentHash rfl rfl
        ?_ rfl
      intro a ha
      cases ha
      rfl
  | lost => exact .of_call rfl (by simp [pasteboardChangedOwner]) (by simp)
  | answered type => exact .of_call rfl same (writes_isQuiet kit m _ type _)
  | asked =>
      refine .of_call rfl (by simp) ?_
      intro o hmem
      split at hmem
      · cases hmem
      · rw [List.mem_singleton.mp hmem]
        rfl
  | changed fs idle =>
      exact .polled m.contents.own (readPasteboard kit fs m.contents) rfl (by simp [idle]) rfl
  | announcedFiles running => exact .kept (Or.inr ⟨_, running, rfl⟩) (by simp) (by simp)
  | published => exact .of_call rfl (by simp [writeObjects]) (by simp)
  | rendered os running obs =>
      refine .of_call rfl (by simp) ?_
      rcases obs with rfl | ⟨data, -, rfl⟩
      · simp
      · exact writes_isQuiet kit m data _ _
  | pumped =>
      exact .of_call rfl (fun a ha => absurd ha (Pump.resume_ne_announcing _ a)) (by simp)

/-! ## Completeness -/

/-- The suppressed hash is the last that the parent gave; the parent knows
another one exactly if something has been reported since. -/
structure Tracked (h : List Obs) (m : Manager) : Prop where
  given : m.lastSetHash = lastGiven h
  known : ReportedSince h ↔ lastKnown h ≠ m.lastSetHash
  announcing : ∀ a, m.running = some (.announcing a) → m.lastSetHash = some a.contentHash

theorem tracked_initial (contents : Contents) (count : Nat) :
    Tracked [] (initial contents count) where
  given := rfl
  known := by
    constructor
    · intro hs
      obtain ⟨o, hmem, -⟩ := hs.mem
      cases hmem
    · intro hne
      exact absurd rfl hne
  announcing := by
    intro a ha
    cases ha

theorem tracked_step {m m' : Manager} {h os : List Obs} (hinv : Tracked h m)
    (hreport : Report m os m') : Tracked (h ++ os) m' := by
  cases hreport with
  | kept hash announcing quiet =>
      have hsame : m'.lastSetHash = m.lastSetHash := by
        rcases hash with hsame | ⟨a, ha, hhash⟩
        · exact hsame
        · rw [hhash, hinv.announcing a ha]
      constructor
      · rw [hsame, lastGiven_quiet h quiet]
        exact hinv.given
      · rw [hsame, lastKnown_quiet h quiet, reportedSince_quiet h quiet]
        exact hinv.known
      · intro a ha
        rw [hsame]
        exact hinv.announcing a (announcing a ha)
  | given o contentHash known hash announcing obs =>
      subst obs
      constructor
      · rw [hash, lastGiven_snoc, known]
        rfl
      · have hreported : o.reported? = none := by
          cases o with
          | set | announced => rfl
          | _ => cases known
        have hknown : lastKnown (h ++ [o]) = some contentHash := by
          rw [lastKnown_snoc, Obs.known?, known]
          rfl
        rw [reportedSince_snoc, hknown, hash]
        simp [hreported, known]
      · intro a ha
        rw [hash, announcing a ha]
  | polled own data hash announcing obs =>
      subst obs
      constructor
      · rw [hash, lastGiven_snoc]
        exact hinv.given
      · rw [hash, reportedSince_snoc, lastKnown_snoc]
        cases hreported : isReported m data with
        | true =>
            -- what is reported is never the suppressed hash
            have hne : m.lastSetHash ≠ some data.contentHash := by
              simp only [isReported, decide_eq_true_eq] at hreported
              exact hreported.1
            simp [Ne.symm hne]
        | false => simp [hinv.known]
      · intro a ha
        exact absurd ha (announcing a)

/-- After a poll that has read content of another application which it can
read, the parent knows its hash. -/
def Informs (before : List Obs) (o : Obs) : Prop :=
  ∀ data changed, o = .polled false data changed → data.contentType ≠ .unspecified →
    lastKnown (before ++ [o]) = some data.contentHash

/-- **The condition.**  The content that a poll reads has not returned. -/
def Unreturned (before : List Obs) (o : Obs) : Prop :=
  ∀ data changed, o = .polled false data changed → data.contentType ≠ .unspecified →
    ¬ Returned before data.contentHash

/-- The condition decides whether the parent is informed. -/
def Decided (before : List Obs) (o : Obs) : Prop := Informs before o ↔ Unreturned before o

/-- **One poll.** -/
theorem poll_informs_iff {m : Manager} {h : List Obs} {data : ClipboardData} (hinv : Tracked h m)
    (own : Bool) (hreadable : data.contentType ≠ .unspecified) :
    lastKnown (h ++ [.polled own data (isReported m data)]) = some data.contentHash ↔
      ¬ Returned h data.contentHash := by
  rw [lastKnown_snoc, Returned, ← hinv.given, hinv.known]
  by_cases hecho : m.lastSetHash = some data.contentHash
  · have hquiet : isReported m data = false := by simp [isReported, hecho]
    simp [hquiet, hecho]
  · have hreported : isReported m data = true := by simp [isReported, hecho, hreadable]
    simp [hreported, hecho]

/-- What is not a poll is not in question. -/
theorem decided_of_not_polled {before : List Obs} {o : Obs}
    (hne : ∀ own data changed, o ≠ .polled own data changed) : Decided before o := by
  constructor
  · intro _ data changed ho
    exact absurd ho (hne false data changed)
  · intro _ data changed ho
    exact absurd ho (hne false data changed)

theorem decided_step {m m' : Manager} {h os : List Obs} (hinv : Tracked h m)
    (hw : Whenever Decided h) (hreport : Report m os m') : Whenever Decided (h ++ os) := by
  cases hreport with
  | kept _ _ quiet =>
      apply hw.append
      intro before o after heq
      apply decided_of_not_polled
      intro own data changed ho
      have hquiet := quiet o (by rw [heq]; simp)
      rw [ho] at hquiet
      cases hquiet
  | given o contentHash known _ _ obs =>
      rw [obs]
      apply hw.snoc
      apply decided_of_not_polled
      intro own data changed ho
      rw [ho] at known
      cases known
  | polled own data _ _ obs =>
      rw [obs]
      apply hw.snoc
      constructor
      · intro hinforms data' changed ho hreadable
        cases ho
        exact (poll_informs_iff hinv false hreadable).mp (hinforms _ _ rfl hreadable)
      · intro hunreturned data' changed ho hreadable
        cases ho
        exact (poll_informs_iff hinv false hreadable).mpr (hunreturned _ _ rfl hreadable)

/-- **The reports of a run are complete if and only if no poll reads content
that has returned.** -/
theorem changes_reported_iff {kit : AppKit} {contents : Contents} {count : Nat} {h : List Obs}
    {m : Manager} (hrun : Machine.Run (machine kit) Machine.always (initial contents count) h m) :
    Whenever Informs h ↔ Whenever Unreturned h := by
  have hinv : Tracked h m ∧ Whenever Decided h := by
    refine hrun.history_invariant (fun h m => Tracked h m ∧ Whenever Decided h)
      ⟨tracked_initial contents count, .nil⟩ ?_
    intro h m act m' os ⟨htracked, hw⟩ _ hstep
    have hreport := step_report hstep
    exact ⟨tracked_step htracked hreport, decided_step htracked hw hreport⟩
  constructor
  · intro hinforms before o after heq
    exact (hinv.2 before o after heq).mp (hinforms before o after heq)
  · intro hunreturned before o after heq
    exact (hinv.2 before o after heq).mpr (hunreturned before o after heq)

/-! ## Two runs -/

/-- The hexadecimal SHA-256 of the two texts below. -/
def helloHash : Bytes := ascii "2cf24dba5fb0a30e26e83b2ac5b9e29e1b161e5c1fa7425e73043362938b9824"

def abcHash : Bytes := ascii "ba7816bf8f01cfea414140de5dae2223b00361a396177a9cb410ff61f20015ad"

def textKit : AppKit :=
  { plainKit with sha256Hex := fun data => if data = ascii "hello" then helloHash else abcHash }

/-- A text, as it is set and as it is read. -/
def textData (text contentHash : Bytes) : ClipboardData where
  contentType := .text
  contentHash := contentHash
  payload := text

/-- The parent sets a text, somebody copies another one, and a poll reports
it. -/
theorem copied_text_reported : ∃ h m,
    Machine.Run (machine textKit) Machine.always (initial {} 0) h m ∧
      Obs.polled false (textData (ascii "hello") helloHash) true ∈ h ∧ Whenever Informs h := by
  have hexec : ((machine textKit).exec (initial {} 0)
      [.setClipboard (textData (ascii "abc") abcHash) [], .copy { string := some (ascii "hello") },
        .poll []]).map (fun r => r.2) =
      some [.set abcHash, .polled false (textData (ascii "hello") helloHash) true] := by
    decide
  obtain ⟨h, m, hrun, rfl⟩ := Machine.Run.of_exec_map hexec
  refine ⟨_, m, hrun, by simp, (changes_reported_iff hrun).mpr ?_⟩
  have hset : Whenever Unreturned [.set abcHash] :=
    Whenever.nil.snoc (fun data changed ho => by cases ho)
  apply hset.snoc
  intro data changed ho _ hreturned
  cases ho
  exact absurd hreturned.1 (by decide)

/-- The parent sets `abc`, somebody copies `hello`, which is reported, and then
`abc`, which is not: the parent still believes in `hello`. -/
theorem returned_text_not_reported : ∃ h m,
    Machine.Run (machine textKit) Machine.always (initial {} 0) h m ∧ ¬ Whenever Informs h := by
  have hexec : ((machine textKit).exec (initial {} 0)
      [.setClipboard (textData (ascii "abc") abcHash) [], .copy { string := some (ascii "hello") },
        .poll [], .copy { string := some (ascii "abc") }, .poll []]).map (fun r => r.2) =
      some [.set abcHash, .polled false (textData (ascii "hello") helloHash) true,
        .polled false (textData (ascii "abc") abcHash) false] := by
    decide
  obtain ⟨h, m, hrun, rfl⟩ := Machine.Run.of_exec_map hexec
  refine ⟨_, m, hrun, ?_⟩
  intro hw
  have hlast := hw [.set abcHash, .polled false (textData (ascii "hello") helloHash) true]
    (.polled false (textData (ascii "abc") abcHash) false) [] rfl _ _ rfl (by decide)
  exact absurd hlast (by decide)

end MacPasteboard
