import ClipboardHelper.Library.History
import ClipboardHelper.PasteFormats

/-!
# The slot that the Linux backends wait on

`ExtState` of the two Wayland backends and `DelayedState` of the X11 backend
are the same record under the same mutex: the hash of the current offer, its
kind, and the payload with the hash it arrived for.  Here are the critical
sections that change it and the predicate that a waiting worker tests.

A backend is seen through its observations.  `Fresh` is what ties the slot to
them: stored data carries the current hash, and it was stored after the last
observation that superseded the slot.
-/

namespace DelayedSlot

open Library PasteFormats

/-- `ExtState` / `DelayedState`, without the condition variable and the
callbacks. -/
structure State where
  stop : Bool := false
  currentHash : Bytes := []
  contentKind : ContentKind := .text
  pendingData : Option Bytes := none
  pendingDataHash : Bytes := []
deriving DecidableEq, Repr

namespace State

/-- The critical section of an eager set on Wayland: the payload doubles as
the key. -/
def eager (s : State) (kind : ContentKind) (payload : Bytes) : State :=
  { s with
    currentHash := payload, contentKind := kind,
    pendingData := some payload, pendingDataHash := payload }

/-- The critical section of `AnnounceDelayed*`. -/
def announceDelayed (s : State) (kind : ContentKind) (contentHash : Bytes) : State :=
  { s with
    currentHash := contentHash, contentKind := kind,
    pendingData := none, pendingDataHash := [] }

/-- `ProvideData`: nothing is stored for a hash that is not the current
one. -/
def provideData (s : State) (contentHash data : Bytes) : Option State :=
  if s.currentHash ≠ contentHash then none
  else some { s with pendingData := some data, pendingDataHash := contentHash }

/-- The stored data, if it arrived for `hash`. -/
def dataFor (s : State) (hash : Bytes) : Option Bytes :=
  if s.pendingDataHash = hash then s.pendingData else none

/-- The predicate of the condition variable. -/
def awake (s : State) (hash : Bytes) : Bool := s.stop || (s.dataFor hash).isSome

end State

/-- How a wait for `hash` ends. -/
inductive Outcome
  | stopping
  | stale
  | timeout
  | wrote (payload : Bytes) (kind : ContentKind)
deriving DecidableEq, Repr

/-- What a worker makes of the state once it holds the mutex again;
`gotSignal` is the result of `wait_for`. -/
def State.outcome (s : State) (hash : Bytes) (gotSignal : Bool) : Outcome :=
  if s.stop then .stopping
  else
    match s.dataFor hash with
    | some payload => if gotSignal then .wrote payload s.contentKind else .timeout
    | none => if gotSignal then .stale else .timeout

/-- One return of `wait_for` to its predicate: the wait ends when the
predicate holds, or at the deadline. -/
def State.wake (s : State) (hash : Bytes) (deadline : Bool) : Option Outcome :=
  if s.awake hash then some (s.outcome hash true)
  else if deadline then some (s.outcome hash false)
  else none

/-- A worker that takes data takes what is stored for its hash. -/
theorem State.wake_wrote {s : State} {hash payload : Bytes} {deadline : Bool} {kind : ContentKind}
    (h : s.wake hash deadline = some (.wrote payload kind)) :
    s.stop = false ∧ s.dataFor hash = some payload ∧ kind = s.contentKind := by
  unfold wake outcome at h
  cases hstop : s.stop with
  | true => simp [awake, hstop] at h
  | false =>
      cases hdata : s.dataFor hash with
      | none => simp [awake, hstop, hdata] at h
      | some payload' =>
          simp [awake, hstop, hdata] at h
          exact ⟨rfl, by rw [h.1], h.2.symm⟩

theorem State.dataFor_some {s : State} {hash payload : Bytes} (h : s.dataFor hash = some payload) :
    s.pendingDataHash = hash ∧ s.pendingData = some payload := by
  unfold dataFor at h
  split at h
  · rename_i hkey
    exact ⟨hkey, h⟩
  · cases h

/-- A wait without data for its hash goes on until the manager stops, or to
the deadline. -/
theorem State.wake_noData {s : State} {hash : Bytes} (hdata : s.dataFor hash = none) :
    s.wake hash false = if s.stop then some .stopping else none := by
  cases hstop : s.stop with
  | true => simp [wake, awake, outcome, hstop]
  | false => simp [wake, awake, hdata, hstop]

/-- **No wait ends as stale**: a predicate that holds without the manager
stopping holds because of the data. -/
theorem State.wake_ne_stale (s : State) (hash : Bytes) (deadline : Bool) :
    s.wake hash deadline ≠ some .stale := by
  intro h
  unfold wake at h
  split at h
  · rename_i hawake
    have houtcome := Option.some.inj h
    unfold outcome at houtcome
    split at houtcome
    · cases houtcome
    · rename_i hstop
      obtain ⟨payload, hdata⟩ : ∃ payload, s.dataFor hash = some payload := by
        simpa [awake, hstop, Option.isSome_iff_exists] using hawake
      simp [hdata] at houtcome
  · rename_i hasleep
    split at h
    · have houtcome := Option.some.inj h
      unfold outcome at houtcome
      split at houtcome
      · cases houtcome
      · split at houtcome
        · cases houtcome
        · cases houtcome
    · cases h

theorem State.provideData_stop {s s' : State} {contentHash data : Bytes}
    (h : s.provideData contentHash data = some s') : s'.stop = s.stop := by
  unfold provideData at h
  split at h
  · cases h
  · rw [← Option.some.inj h]

/-! ## Freshness -/

/-- How the observations of a backend bear on the slot: which of them put
data into it under a key, which supersede what it held, and which are a
waiting reader taking data for its hash. -/
structure Bearing (ο : Type) where
  stores : Bytes → Bytes → ο → Prop
  supersedes : ο → Prop
  takes : Bytes → Bytes → ο → Prop

section

variable {ο : Type} (b : Bearing ο)

/-- `data` was stored under `key`, and nothing has superseded it since. -/
def Bearing.Stored (h : List ο) (key data : Bytes) : Prop :=
  Since (b.stores key data) b.supersedes h

/-- What a reader takes for its hash was stored under that hash, after the
slot was superseded last. -/
def Bearing.TookFresh (before : List ο) (o : ο) : Prop :=
  ∀ hash payload, b.takes hash payload o → b.Stored before hash payload

/-- **Freshness**: stored data carries the current hash and is not older than
what superseded the slot last. -/
def Fresh (h : List ο) (s : State) : Prop :=
  ∀ data, s.pendingData = some data →
    s.pendingDataHash = s.currentHash ∧ b.Stored h s.currentHash data

variable {b} {h os : List ο} {s : State}

theorem Fresh.quiet (hf : Fresh b h s) (hos : ∀ o ∈ os, ¬ b.supersedes o) :
    Fresh b (h ++ os) s := by
  intro data hdata
  exact ⟨(hf data hdata).1, (hf data hdata).2.append hos⟩

theorem Fresh.announceDelayed (kind : ContentKind) (contentHash : Bytes) :
    Fresh b h (s.announceDelayed kind contentHash) := by
  intro data hdata
  cases hdata

theorem Fresh.eager {o : ο} (kind : ContentKind) (payload : Bytes)
    (ho : b.stores payload payload o) : Fresh b (h ++ [o]) (s.eager kind payload) := by
  intro data hdata
  cases hdata
  exact ⟨rfl, Since.snoc ho⟩

theorem Fresh.provideData {o : ο} {contentHash data : Bytes} {s' : State}
    (hstored : s.provideData contentHash data = some s') (ho : b.stores contentHash data o) :
    Fresh b (h ++ [o]) s' := by
  unfold State.provideData at hstored
  split at hstored
  · cases hstored
  · rename_i hkey
    cases hstored
    intro data' hdata
    cases hdata
    obtain rfl := not_not.mp hkey
    exact ⟨rfl, Since.snoc ho⟩

/-- **What a wait for `hash` takes was stored under `hash`, after the slot was
superseded last.** -/
theorem Fresh.taken {hash payload : Bytes} (hf : Fresh b h s)
    (htaken : s.dataFor hash = some payload) : b.Stored h hash payload := by
  obtain ⟨hkey, hdata⟩ := State.dataFor_some htaken
  obtain ⟨hcurrent, hstored⟩ := hf payload hdata
  rwa [← hcurrent, hkey] at hstored

/-- There is no data for a hash that has been superseded. -/
theorem Fresh.noData {hash : Bytes} (hf : Fresh b h s) (hsuperseded : s.currentHash ≠ hash) :
    s.dataFor hash = none := by
  cases hdata : s.dataFor hash with
  | none => rfl
  | some payload =>
      obtain ⟨hkey, hpending⟩ := State.dataFor_some hdata
      exact absurd ((hf payload hpending).1.symm.trans hkey) hsuperseded

/-- A step that takes data which the slot holds for the hash, and supersedes
nothing, takes fresh data. -/
theorem Fresh.tookFresh (hf : Fresh b h s) (hw : Whenever b.TookFresh h)
    (htakes : ∀ o ∈ os, ∀ hash payload, b.takes hash payload o → s.dataFor hash = some payload)
    (hquiet : ∀ o ∈ os, ¬ b.supersedes o) : Whenever b.TookFresh (h ++ os) := by
  refine hw.append ?_
  intro before o after heq hash payload htook
  have hdata := htakes o (by simp [heq]) hash payload htook
  refine (hf.taken hdata).append ?_
  intro o' hmem
  exact hquiet o' (by simp [heq, hmem])

/-- A step that takes nothing. -/
theorem tookFresh_of_none (hw : Whenever b.TookFresh h)
    (hnone : ∀ o ∈ os, ∀ hash payload, ¬ b.takes hash payload o) :
    Whenever b.TookFresh (h ++ os) := by
  refine hw.append ?_
  intro before o after heq hash payload htook
  exact absurd htook (hnone o (by simp [heq]) hash payload)

end

end DelayedSlot
