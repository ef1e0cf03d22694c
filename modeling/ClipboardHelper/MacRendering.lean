import ClipboardHelper.Library.History
import ClipboardHelper.MacPasteboard

/-!
# Whose signal wakes a render

`provideDataForType` asks the parent for the data of the pending announcement
and waits for `renderSemaphore`.  The signal that wakes it should be the one
of data that was accepted for this announcement.  Announcements drain the
semaphore for that reason, but `provideData` signals behind its critical
section: the signal of an old reply can land behind the drain of a new
announcement.

* `step_change` says what a step can do to the slot and to the semaphore.
* `Sound` is the invariant; `stored_run` is the part of it that needs no
  condition: what is stored was accepted for the pending announcement.
* `Timely` is the condition under which **every wake-up belongs to the
  current announcement** (`wakes_belong_to_announcement`).
* `stale_signal_wakes_render` is a run with a late signal.
-/

namespace MacPasteboard

open Library
open DispatchCodec (ClipboardContentType)

/-- The manager as it is created: the pasteboard holds what it holds. -/
def initial (contents : Contents) (changeCount : Nat) : Manager :=
  { contents := contents, changeCount := changeCount, lastChangeCount := changeCount }

/-- The announcement is rendered by `provideDataForType`. -/
def Announcement.isRendered (a : Announcement) : Bool := allowedTypes a.contentType ≠ []

theorem isRendered_of_mem {a : Announcement} {type : PasteboardType}
    (h : type ∈ allowedTypes a.contentType) : a.isRendered = true := by
  have hne : allowedTypes a.contentType ≠ [] := List.ne_nil_of_mem h
  simpa [Announcement.isRendered] using hne

theorem not_isRendered_of_files {a : Announcement} (h : a.contentType = .files) :
    a.isRendered = false := by
  simp only [Announcement.isRendered, h]
  decide

/-- The fields that `stateLock` guards for the wake-ups, and what the socket
queue is about to do. -/
def Manager.slot (m : Manager) :
    Option Announcement × Option Bytes × Option Announcement × Nat :=
  (m.pendingAnnouncement, m.renderedData, m.signalling, m.nextSerial)

def Obs.isWake : Obs → Bool
  | .woke _ _ _ => true
  | _ => false

/-- The signal that an action sends. -/
def posted (m : Manager) : Action → Option Signal
  | .signal => m.signalling.map .provided
  | .cancelFileDownload => some .cancelled
  | _ => none

/-- **What a step does** to the slot, the semaphore and the waiting call. -/
inductive Change (m : Manager) (act : Action) (os : List Obs) (m' : Manager) : Prop
  /-- Signals are only taken, and a drain ends with none. -/
  | kept (slot : m'.slot = m.slot)
      (signals : ∀ s ∈ m'.renderSemaphore, s ∈ m.renderSemaphore)
      (drained : m.isDraining = true → m'.isDraining = true ∨ m'.renderSemaphore = [])
      (waits : ∀ a type, m'.running = some (.waiting a type) →
        m.running = some (.waiting a type) ∨
          m.pendingAnnouncement = some a ∧ a.isRendered = true)
      (quiet : ∀ o ∈ os, o.isWake = false)
  | woke (a : Announcement) (type : PasteboardType) (s : Signal)
      (running : m.running = some (.waiting a type)) (taken : s ∈ m.renderSemaphore)
      (slot : m'.slot = m.slot)
      (signals : ∀ s ∈ m'.renderSemaphore, s ∈ m.renderSemaphore)
      (running' : m'.running = some (.woken a type))
      (obs : os = [.woke a s m.renderedData])
  /-- The slot is reset, for a new announcement, for the files of the present
  one or for none. -/
  | reset (data : m'.renderedData = none) (signalling : m'.signalling = m.signalling)
      (serial : m.nextSerial ≤ m'.nextSerial)
      (pending : ∀ a, m'.pendingAnnouncement = some a →
        a.serial = m.nextSerial ∧ m.nextSerial < m'.nextSerial ∨ a.isRendered = false)
      (draining : m'.isDraining = true)
      (quiet : ∀ o ∈ os, o.isWake = false)
  | accepted (a : Announcement) (data : Bytes)
      (pending : m.pendingAnnouncement = some a)
      (slot : m'.slot = (some a, some data, some a, m.nextSerial))
      (semaphore : m'.renderSemaphore = m.renderSemaphore)
      (running : m'.running = m.running)
      (obs : os = [.accepted a a.contentHash data])
  | signalled (s : Signal)
      (posted : posted m act = some s)
      (data : m'.renderedData = m.renderedData)
      (pending : m'.pendingAnnouncement = m.pendingAnnouncement)
      (signalling : m'.signalling = none ∨ m'.signalling = m.signalling)
      (serial : m'.nextSerial = m.nextSerial)
      (semaphore : m'.renderSemaphore = m.renderSemaphore ++ [s])
      (running : m'.running = m.running)
      (obs : os = [])

/-- A step that leaves the slot and the running call alone. -/
theorem Change.of_same {m m' : Manager} {act : Action} {os : List Obs}
    (slot : m'.slot = m.slot)
    (signals : ∀ s ∈ m'.renderSemaphore, s ∈ m.renderSemaphore)
    (running : m'.running = m.running) (quiet : ∀ o ∈ os, o.isWake = false) :
    Change m act os m' := by
  refine .kept slot signals ?_ ?_ quiet
  · intro hdrain
    left
    simpa [Manager.isDraining, running] using hdrain
  · intro a type hwait
    left
    rwa [running] at hwait

/-- A step of the main thread that is not in a drain and does not begin to
wait. -/
theorem Change.of_call {m m' : Manager} {act : Action} {os : List Obs}
    (slot : m'.slot = m.slot)
    (signals : ∀ s ∈ m'.renderSemaphore, s ∈ m.renderSemaphore)
    (hdrain : m.isDraining = false)
    (hwait : ∀ a type, m'.running ≠ some (.waiting a type))
    (quiet : ∀ o ∈ os, o.isWake = false) : Change m act os m' := by
  refine .kept slot signals ?_ ?_ quiet
  · intro h
    rw [hdrain] at h
    cases h
  · intro a type h
    exact absurd h (hwait a type)

theorem isDraining_idle {m : Manager} (h : m.running = none) : m.isDraining = false := by
  simp [Manager.isDraining, h]

theorem writes_quiet (kit : AppKit) (m : Manager) (data : Bytes) (type : PasteboardType)
    (a : Announcement) : ∀ o ∈ writes kit m data type a, o.isWake = false := by
  intro o hmem
  obtain ⟨written, -, rfl⟩ := List.mem_map.mp hmem
  rfl

/-- A drain is over. -/
theorem Change.of_drained {m m' : Manager} {act : Action} (slot : m'.slot = m.slot)
    (semaphore : m'.renderSemaphore = []) (running : m'.running = none) :
    Change m act [] m' := by
  refine .kept slot ?_ (fun _ => Or.inr semaphore) ?_ (by simp)
  · intro s hs
    rw [semaphore] at hs
    cases hs
  · intro a type hwait
    rw [running] at hwait
    cases hwait

/-- Every step is a change of one of these kinds. -/
theorem step_change {kit : AppKit} {m m' : Manager} {act : Action} {os : List Obs}
    (h : (machine kit).step m act = some (m', os)) : Change m act os m' := by
  have same : ∀ s ∈ m.renderSemaphore, s ∈ m.renderSemaphore := fun _ hs => hs
  cases step_cases h with
  | discarded | set | ignored | unavailable | downloaded | unchanged | changed | copied =>
      exact .of_same rfl same rfl (by simp [Obs.isWake])
  | triggered idle | joined idle =>
      exact .of_call rfl same (isDraining_idle idle) (by simp) (by simp [Obs.isWake])
  -- the drained announcement goes on to its end
  | announcedNoFiles running semaphore | undeclared running semaphore
  | declared running semaphore | published running semaphore | forgotten running semaphore =>
      exact .of_drained rfl semaphore rfl
  -- a call that neither drains nor takes a signal
  | left _ running | pumping running | finished running | found running | gaveUp running
  | waitingOn running | renderTimedOut running | primaryTimedOut running
  | secondaryTimedOut running =>
      exact .of_call rfl same (by simp [Manager.isDraining, running]) (by simp)
        (by simp [Obs.isWake])
  | accepted data tiff idle pending =>
      refine .accepted _ data pending ?_ rfl rfl rfl
      simp [Manager.slot, pending]
  | signalled signalling =>
      refine .signalled (.provided _) ?_ rfl rfl (Or.inl rfl) rfl rfl rfl rfl
      simp [posted, signalling]
  | announced contentHash contentType files =>
      refine .reset rfl rfl (Nat.le_succ _) ?_ rfl (by simp [Obs.isWake])
      intro a hpending
      cases hpending
      exact Or.inl ⟨rfl, Nat.lt_succ_self _⟩
  | lost =>
      refine .reset rfl rfl (le_refl _) ?_ rfl (by simp)
      intro a hpending
      cases hpending
  | answered type => exact .of_same rfl same rfl (writes_quiet kit m _ type _)
  | asked idle pending allowed =>
      refine .kept rfl same ?_ ?_ ?_
      · intro hdrain
        rw [isDraining_idle idle] at hdrain
        cases hdrain
      · intro a type' hwait
        cases hwait
        exact Or.inr ⟨pending, isRendered_of_mem allowed⟩
      · intro o hmem
        split at hmem
        · cases hmem
        · rw [List.mem_singleton.mp hmem]
          rfl
  | cancelled => exact .signalled .cancelled rfl rfl rfl (Or.inr rfl) rfl rfl rfl rfl
  | drained draining semaphore =>
      refine .of_same rfl ?_ rfl (by simp)
      intro s hs
      rw [semaphore]
      exact List.mem_cons_of_mem _ hs
  | announcedFiles running semaphore type =>
      refine .reset rfl rfl (le_refl _) ?_ rfl (by simp)
      intro a hpending
      cases hpending
      exact Or.inr (not_isRendered_of_files type)
  | woke running signal =>
      exact .woke _ _ _ running (List.mem_of_getElem? signal) rfl
        (fun _ hmem => List.mem_of_mem_eraseIdx hmem) rfl rfl
  | rendered os running obs =>
      refine .of_call rfl same (by simp [Manager.isDraining, running]) (by simp) ?_
      rcases obs with rfl | ⟨data, -, rfl⟩
      · simp
      · exact writes_quiet kit m data _ _
  | took running =>
      exact .of_call rfl (fun _ hmem => List.mem_of_mem_eraseIdx hmem)
        (by simp [Manager.isDraining, running]) (by simp) (by simp)
  | pumped idle =>
      exact .of_call rfl same (isDraining_idle idle) (Pump.resume_ne_waiting _) (by simp)

/-! ## The invariant -/

theorem slot_parts {m : Manager} {pending signalling : Option Announcement} {data : Option Bytes}
    {serial : Nat} (h : m.slot = (pending, data, signalling, serial)) :
    m.pendingAnnouncement = pending ∧ m.renderedData = data ∧ m.signalling = signalling ∧
      m.nextSerial = serial := by
  simpa [Manager.slot] using h

/-- What is stored was accepted while the pending announcement was pending,
and by its hash. -/
def Stored (h : List Obs) (m : Manager) : Prop :=
  ∀ d, m.renderedData = some d →
    ∃ b, m.pendingAnnouncement = some b ∧ .accepted b b.contentHash d ∈ h

theorem stored_step {m m' : Manager} {act : Action} {h os : List Obs}
    (hinv : Stored h m) (hchange : Change m act os m') : Stored (h ++ os) m' := by
  intro d hd
  have keep : m'.renderedData = m.renderedData →
      m'.pendingAnnouncement = m.pendingAnnouncement →
      ∃ b, m'.pendingAnnouncement = some b ∧ .accepted b b.contentHash d ∈ h ++ os := by
    intro hdata hpending
    rw [hdata] at hd
    obtain ⟨b, hb, hmem⟩ := hinv d hd
    exact ⟨b, by rw [hpending, hb], List.mem_append_left _ hmem⟩
  cases hchange with
  | kept slot =>
      obtain ⟨hpending, hdata, -, -⟩ := slot_parts slot
      exact keep hdata hpending
  | woke a type s _ _ slot =>
      obtain ⟨hpending, hdata, -, -⟩ := slot_parts slot
      exact keep hdata hpending
  | reset data =>
      rw [data] at hd
      cases hd
  | accepted a data _ slot _ _ obs =>
      obtain ⟨hpending, hdata, -, -⟩ := slot_parts slot
      rw [hdata] at hd
      cases hd
      exact ⟨a, hpending, by simp [obs]⟩
  | signalled s _ data pending => exact keep data pending

/-- **Provenance of the stored data**, in every run. -/
theorem stored_run {kit : AppKit} {ok : Manager → Action → Prop} {contents : Contents}
    {count : Nat} {h : List Obs} {m : Manager}
    (hrun : Machine.Run (machine kit) ok (initial contents count) h m) : Stored h m := by
  refine hrun.history_invariant Stored ?_ ?_
  · intro d hd
    cases hd
  · intro h m act m' os hinv _ hstep
    exact stored_step hinv (step_change hstep)

/-- Outside a drain, a signal in the semaphore is one of data for the pending
announcement, and such data is stored. -/
structure Sound (m : Manager) : Prop where
  issued : ∀ a, m.pendingAnnouncement = some a ∨ m.signalling = some a → a.isRendered = true →
    a.serial < m.nextSerial
  stored : ∀ b, m.pendingAnnouncement = some b → b.isRendered = true → m.signalling = some b →
    m.renderedData ≠ none
  clean : ∀ b, m.pendingAnnouncement = some b → b.isRendered = true → m.isDraining = false →
    ∀ s ∈ m.renderSemaphore, s = .provided b ∧ m.renderedData ≠ none
  waits : ∀ a type, m.running = some (.waiting a type) →
    m.pendingAnnouncement = some a ∧ a.isRendered = true

theorem sound_initial (contents : Contents) (count : Nat) : Sound (initial contents count) where
  issued := by
    intro a h
    rcases h with h | h
    · cases h
    · cases h
  stored := by
    intro b h
    cases h
  clean := by
    intro b h
    cases h
  waits := by
    intro a type h
    cases h

/-- **The condition.**  A signal that lands while a text or an image is
announced and the drain of its announcement is over is the signal of data
that was accepted for this announcement. -/
def Timely (m : Manager) (act : Action) : Prop :=
  ∀ s b, posted m act = some s → m.pendingAnnouncement = some b → b.isRendered = true →
    m.isDraining = false → s = .provided b

theorem isDraining_congr {m m' : Manager} (h : m'.running = m.running) :
    m'.isDraining = m.isDraining := by
  simp [Manager.isDraining, h]

theorem posted_signalling {m : Manager} {act : Action} {b : Announcement}
    (h : posted m act = some (.provided b)) : m.signalling = some b := by
  cases act with
  | signal =>
      obtain ⟨a, ha, heq⟩ := Option.map_eq_some_iff.mp h
      cases heq
      exact ha
  | cancelFileDownload => cases h
  | _ => cases h

theorem sound_kept {m m' : Manager} (hinv : Sound m) (slot : m'.slot = m.slot)
    (signals : ∀ s ∈ m'.renderSemaphore, s ∈ m.renderSemaphore)
    (drained : m.isDraining = true → m'.isDraining = true ∨ m'.renderSemaphore = [])
    (waits : ∀ a type, m'.running = some (.waiting a type) →
      m.running = some (.waiting a type) ∨ m.pendingAnnouncement = some a ∧ a.isRendered = true) :
    Sound m' := by
  obtain ⟨hpending, hdata, hsignalling, hserial⟩ := slot_parts slot
  constructor
  · rw [hpending, hsignalling, hserial]
    exact hinv.issued
  · rw [hpending, hsignalling, hdata]
    exact hinv.stored
  · intro b hb hrendered hdrain s hs
    rw [hpending] at hb
    rw [hdata]
    by_cases hbefore : m.isDraining = true
    · rcases drained hbefore with hstill | hempty
      · rw [hstill] at hdrain
        cases hdrain
      · rw [hempty] at hs
        cases hs
    · exact hinv.clean b hb hrendered (by simpa using hbefore) s (signals s hs)
  · intro a type hrunning
    rw [hpending]
    rcases waits a type hrunning with hbefore | hnow
    · exact hinv.waits a type hbefore
    · exact hnow

/-- A reset begins a drain, and the announcement it makes pending is not the
one that a signal is on its way for. -/
theorem sound_reset {m m' : Manager} (hinv : Sound m) (signalling : m'.signalling = m.signalling)
    (serial : m.nextSerial ≤ m'.nextSerial)
    (pending : ∀ a, m'.pendingAnnouncement = some a →
      a.serial = m.nextSerial ∧ m.nextSerial < m'.nextSerial ∨ a.isRendered = false)
    (draining : m'.isDraining = true) : Sound m' := by
  have hfresh : ∀ a, m'.pendingAnnouncement = some a → a.isRendered = true →
      a.serial = m.nextSerial ∧ m.nextSerial < m'.nextSerial := by
    intro a ha hrendered
    rcases pending a ha with hnew | hfiles
    · exact hnew
    · rw [hrendered] at hfiles
      cases hfiles
  constructor
  · intro a ha hrendered
    rcases ha with ha | ha
    · have hnew := hfresh a ha hrendered
      omega
    · rw [signalling] at ha
      have hold := hinv.issued a (Or.inr ha) hrendered
      omega
  · intro b hb hrendered hsignalling
    rw [signalling] at hsignalling
    have hold := hinv.issued b (Or.inr hsignalling) hrendered
    have hnew := hfresh b hb hrendered
    omega
  · intro b _ _ hdrain
    rw [draining] at hdrain
    cases hdrain
  · intro a type hwait
    simp [Manager.isDraining, hwait] at draining

theorem sound_accepted {m m' : Manager} {a : Announcement} {data : Bytes} (hinv : Sound m)
    (pending : m.pendingAnnouncement = some a)
    (slot : m'.slot = (some a, some data, some a, m.nextSerial))
    (semaphore : m'.renderSemaphore = m.renderSemaphore) (running : m'.running = m.running) :
    Sound m' := by
  obtain ⟨hpending', hdata', hsignalling', hserial'⟩ := slot_parts slot
  constructor
  · intro b hb hrendered
    rw [hpending', hsignalling', or_self] at hb
    rw [hserial']
    cases hb
    exact hinv.issued a (Or.inl pending) hrendered
  · intro b _ _ _
    simp [hdata']
  · intro b hb hrendered hdrain s hs
    rw [hpending'] at hb
    rw [semaphore] at hs
    rw [isDraining_congr running] at hdrain
    cases hb
    exact ⟨(hinv.clean a pending hrendered hdrain s hs).1, by simp [hdata']⟩
  · intro b type hwait
    rw [running] at hwait
    have hold := hinv.waits b type hwait
    rw [hpending', ← pending]
    exact hold

/-- A timely signal is one for the pending announcement, whose data is
stored. -/
theorem sound_signalled {m m' : Manager} {act : Action} {s : Signal} (hinv : Sound m)
    (htimely : Timely m act) (hposted : posted m act = some s)
    (data : m'.renderedData = m.renderedData)
    (pending : m'.pendingAnnouncement = m.pendingAnnouncement)
    (signalling : m'.signalling = none ∨ m'.signalling = m.signalling)
    (serial : m'.nextSerial = m.nextSerial)
    (semaphore : m'.renderSemaphore = m.renderSemaphore ++ [s])
    (running : m'.running = m.running) : Sound m' := by
  have hbefore : ∀ a, m'.signalling = some a → m.signalling = some a := by
    intro a ha
    rcases signalling with hnone | hsame
    · rw [hnone] at ha
      cases ha
    · rwa [hsame] at ha
  constructor
  · intro a ha hrendered
    rw [serial]
    rcases ha with ha | ha
    · exact hinv.issued a (Or.inl (by rwa [pending] at ha)) hrendered
    · exact hinv.issued a (Or.inr (hbefore a ha)) hrendered
  · intro b hb hrendered hsignalling
    rw [pending] at hb
    rw [data]
    exact hinv.stored b hb hrendered (hbefore b hsignalling)
  · intro b hb hrendered hdrain s' hs'
    rw [pending] at hb
    rw [isDraining_congr running] at hdrain
    rw [data]
    rw [semaphore, List.mem_append, List.mem_singleton] at hs'
    rcases hs' with hold | rfl
    · exact hinv.clean b hb hrendered hdrain s' hold
    · have hs := htimely s' b hposted hb hrendered hdrain
      subst hs
      exact ⟨rfl, hinv.stored b hb hrendered (posted_signalling hposted)⟩
  · intro a type hwait
    rw [running] at hwait
    rw [pending]
    exact hinv.waits a type hwait

/-- **A timely step keeps the invariant.** -/
theorem sound_step {m m' : Manager} {act : Action} {os : List Obs} (hinv : Sound m)
    (htimely : Timely m act) (hchange : Change m act os m') : Sound m' := by
  cases hchange with
  | kept slot signals drained waits => exact sound_kept hinv slot signals drained waits
  | woke a type s running _ slot signals running' =>
      refine sound_kept hinv slot signals ?_ ?_
      · intro hdrain
        simp [Manager.isDraining, running] at hdrain
      · intro a' type' hwait
        rw [running'] at hwait
        cases hwait
  | reset _ signalling serial pending draining =>
      exact sound_reset hinv signalling serial pending draining
  | accepted a data pending slot semaphore running =>
      exact sound_accepted hinv pending slot semaphore running
  | signalled s hposted data pending signalling serial semaphore running =>
      exact sound_signalled hinv htimely hposted data pending signalling serial semaphore running

/-! ## Wake-ups -/

/-- A wake-up of `provideDataForType` for `a` is caused by data that was
accepted while `a` was pending, and such data is stored. -/
def WakesRightly (before : List Obs) (o : Obs) : Prop :=
  ∀ a s data, o = .woke a s data →
    s = .provided a ∧ ∃ d, data = some d ∧ .accepted a a.contentHash d ∈ before

theorem wakesRightly_quiet {h os : List Obs} (hw : Whenever WakesRightly h)
    (hquiet : ∀ o ∈ os, o.isWake = false) : Whenever WakesRightly (h ++ os) := by
  refine hw.append ?_
  intro before o after heq a s data ho
  have hwake := hquiet o (by rw [heq]; simp)
  rw [ho] at hwake
  cases hwake

theorem wakesRightly_step {m m' : Manager} {act : Action} {h os : List Obs}
    (hstored : Stored h m) (hinv : Sound m) (hw : Whenever WakesRightly h)
    (hchange : Change m act os m') : Whenever WakesRightly (h ++ os) := by
  cases hchange with
  | kept _ _ _ _ quiet => exact wakesRightly_quiet hw quiet
  | reset _ _ _ _ _ quiet => exact wakesRightly_quiet hw quiet
  | accepted a data _ _ _ _ obs =>
      rw [obs]
      exact wakesRightly_quiet hw (by simp [Obs.isWake])
  | signalled s _ _ _ _ _ _ _ obs =>
      rw [obs]
      exact wakesRightly_quiet hw (by simp)
  | woke a type s running taken _ _ _ obs =>
      rw [obs]
      apply hw.snoc
      intro a' s' data ho
      cases ho
      -- the main thread is not in a drain: it waits
      obtain ⟨hpending, hrendered⟩ := hinv.waits a type running
      have hdrain : m.isDraining = false := by simp [Manager.isDraining, running]
      obtain ⟨hs, hdata⟩ := hinv.clean a hpending hrendered hdrain s taken
      obtain ⟨d, hd⟩ := Option.ne_none_iff_exists'.mp hdata
      obtain ⟨b, hb, hmem⟩ := hstored d hd
      rw [hpending] at hb
      cases hb
      exact ⟨hs, d, hd, hmem⟩

/-- **Every wake-up belongs to the current announcement**, in every run in
which no signal comes too late. -/
theorem wakes_belong_to_announcement {kit : AppKit} {contents : Contents} {count : Nat}
    {h : List Obs} {m : Manager}
    (hrun : Machine.Run (machine kit) Timely (initial contents count) h m) :
    Whenever WakesRightly h := by
  have hinv : Stored h m ∧ Sound m ∧ Whenever WakesRightly h := by
    refine hrun.history_invariant (fun h m => Stored h m ∧ Sound m ∧ Whenever WakesRightly h)
      ⟨?_, sound_initial contents count, .nil⟩ ?_
    · intro d hd
      cases hd
    · intro h m act m' os ⟨hstored, hsound, hw⟩ htimely hstep
      have hchange := step_change hstep
      exact ⟨stored_step hstored hchange, sound_step hsound htimely hchange,
        wakesRightly_step hstored hsound hw hchange⟩
  exact hinv.2.2

/-- `Timely`, as a test. -/
def testTimely (m : Manager) (act : Action) : Bool :=
  match posted m act, m.pendingAnnouncement with
  | some s, some b => !b.isRendered || m.isDraining || s = .provided b
  | _, _ => true

theorem timely_of_test (m : Manager) (act : Action) (htest : testTimely m act = true) :
    Timely m act := by
  intro s b hposted hpending hrendered hdrain
  simpa [testTimely, hposted, hpending, hrendered, hdrain] using htest

/-- AppKit with no pictures, and a hash that keeps the data. -/
def plainKit : AppKit where
  isImage _ := false
  tiffRepresentation _ := none
  pngData _ := none
  sha256Hex data := data

/-- A text is announced, pasted, requested and provided: the wake-up is its
own. -/
theorem text_render_wakes_rightly : ∃ h m,
    Machine.Run (machine plainKit) Timely (initial {} 0) h m ∧
      Obs.woke ⟨0, [1], .text, []⟩ (.provided ⟨0, [1], .text, []⟩) (some [7]) ∈ h ∧
      Whenever WakesRightly h := by
  have hexec : ((machine plainKit).execIf testTimely (initial {} 0)
      [.announceDelayed [1] .text [], .drain, .provideDataForType .string, .provideData [1] [7],
        .signal, .acquire 0]).map (fun r => r.2) =
      some [.announced ⟨0, [1], .text, []⟩, .requested [1] .text,
        .accepted ⟨0, [1], .text, []⟩ [1] [7],
        .woke ⟨0, [1], .text, []⟩ (.provided ⟨0, [1], .text, []⟩) (some [7])] := by
    decide
  obtain ⟨h, m, hrun, rfl⟩ := Machine.Run.of_execIf_map timely_of_test hexec
  exact ⟨_, m, hrun, by simp, wakes_belong_to_announcement hrun⟩

/-- A request for `A` times out and the reply is stored late; before its
signal is sent, `B` is announced and drains the semaphore.  The paste of `B`
wakes at once, with no data. -/
theorem stale_signal_wakes_render : ∃ h m,
    Machine.Run (machine plainKit) Machine.always (initial {} 0) h m ∧
      ¬ Whenever WakesRightly h := by
  have hexec : ((machine plainKit).exec (initial {} 0)
      [.announceDelayed [1] .text [], .drain, .provideDataForType .string, .expire,
        .provideData [1] [7], .announceDelayed [2] .text [], .drain, .signal,
        .provideDataForType .string, .acquire 0]).map (fun r => r.2) =
      some [.announced ⟨0, [1], .text, []⟩, .requested [1] .text, .timedOut ⟨0, [1], .text, []⟩,
        .accepted ⟨0, [1], .text, []⟩ [1] [7], .announced ⟨1, [2], .text, []⟩,
        .requested [2] .text,
        .woke ⟨1, [2], .text, []⟩ (.provided ⟨0, [1], .text, []⟩) none] := by
    decide
  obtain ⟨h, m, hrun, rfl⟩ := Machine.Run.of_exec_map hexec
  refine ⟨_, m, hrun, ?_⟩
  intro hw
  obtain ⟨before, hbefore⟩ := hw.of_mem
    (o := .woke ⟨1, [2], .text, []⟩ (.provided ⟨0, [1], .text, []⟩) none) (by simp)
  obtain ⟨hs, -⟩ := hbefore _ _ _ rfl
  cases hs

/-! ## A late signal does harm

The condition cannot be weakened at the signals that land while the main
thread is idle: after each that is not timely, a paste wakes wrongly. -/

/-- While the socket queue is about to signal, the slot holds what it stored
or has been reset. -/
def Answered (m : Manager) : Prop :=
  ∀ a, m.signalling = some a → m.pendingAnnouncement = some a ∨ m.renderedData = none

theorem answered_step {m m' : Manager} {act : Action} {os : List Obs} (hinv : Answered m)
    (hchange : Change m act os m') : Answered m' := by
  intro a ha
  cases hchange with
  | kept slot =>
      obtain ⟨hpending, hdata, hsignalling, -⟩ := slot_parts slot
      rw [hpending, hdata]
      exact hinv a (by rwa [hsignalling] at ha)
  | woke _ _ _ _ _ slot =>
      obtain ⟨hpending, hdata, hsignalling, -⟩ := slot_parts slot
      rw [hpending, hdata]
      exact hinv a (by rwa [hsignalling] at ha)
  | reset data => exact Or.inr data
  | accepted b data _ slot =>
      obtain ⟨hpending, -, hsignalling, -⟩ := slot_parts slot
      rw [hsignalling] at ha
      rw [hpending]
      exact Or.inl ha
  | signalled s _ data pending signalling =>
      rcases signalling with hnone | hsame
      · rw [hnone] at ha
        cases ha
      · rw [pending, data]
        exact hinv a (by rwa [hsame] at ha)

theorem provideDataForType_waits {kit : AppKit} {m : Manager} {b : Announcement}
    {type : PasteboardType} (hpending : m.pendingAnnouncement = some b)
    (hallowed : type ∈ allowedTypes b.contentType) (hdata : m.renderedData = none) :
    (provideDataForType kit m type).1 =
      { m with isRequestInFlight := true, running := some (.waiting b type) } := by
  simp [provideDataForType, hpending, hallowed, hdata]

/-- **A signal that is not timely can wake the next paste.** -/
theorem late_signal_wakes {kit : AppKit} {contents : Contents} {count : Nat} {h : List Obs}
    {m : Manager}
    (hrun : Machine.Run (machine kit) Machine.always (initial contents count) h m)
    (hidle : m.running = none) (hlate : ¬ Timely m .signal) :
    ∃ h' m', Machine.Run (machine kit) Machine.always (initial contents count) h' m' ∧
      ¬ Whenever WakesRightly h' := by
  have hanswered : Answered m := by
    refine hrun.state_invariant Answered ?_ ?_
    · intro a ha
      cases ha
    · intro m act m' os hinv _ hstep
      exact answered_step hinv (step_change hstep)
  simp only [Timely, not_forall] at hlate
  obtain ⟨s, b, hposted, hpending, hrendered, -, hs⟩ := hlate
  obtain ⟨a, ha, rfl⟩ := Option.map_eq_some_iff.mp hposted
  have hdata : m.renderedData = none := by
    rcases hanswered a ha with hsame | hnone
    · rw [hpending] at hsame
      cases hsame
      exact absurd rfl hs
    · exact hnone
  obtain ⟨type, hallowed⟩ : ∃ type, type ∈ allowedTypes b.contentType := by
    have hne : allowedTypes b.contentType ≠ [] := by simpa [Announcement.isRendered] using hrendered
    exact List.exists_mem_of_ne_nil _ hne
  -- the signal lands, the user pastes, and the wait returns by it
  let m₁ : Manager := { m with
    signalling := none,
    renderSemaphore := m.renderSemaphore ++ [.provided a] }
  have hsignal : (machine kit).step m .signal = some (m₁, []) := by simp [machine, ha, m₁]
  let r := provideDataForType kit m₁ type
  have hpaste : (machine kit).step m₁ (.provideDataForType type) = some (r.1, r.2) := by
    simp [machine, event, m₁, hidle, r]
  have hwaits : r.1 = { m₁ with
      isRequestInFlight := true,
      running := some (.waiting b type) } :=
    provideDataForType_waits hpending hallowed hdata
  have hwake : (machine kit).step r.1 (.acquire m.renderSemaphore.length) =
      some ({ takeSignal r.1 m.renderSemaphore.length with running := some (.woken b type) },
        [.woke b (.provided a) none]) := by
    rw [hwaits]
    simp [machine, acquire, m₁, hdata]
  have hlong := ((hrun.snoc trivial hsignal).snoc trivial hpaste).snoc trivial hwake
  refine ⟨_, _, hlong, ?_⟩
  intro hw
  obtain ⟨before, hbefore⟩ := hw.of_mem (List.mem_append_right _ (List.mem_singleton_self _))
  exact hs (hbefore b (.provided a) none rfl).1

end MacPasteboard
