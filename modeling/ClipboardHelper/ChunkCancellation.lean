import ClipboardHelper.Library.History
import ClipboardHelper.Library.Pool
import ClipboardHelper.ChunkSignals

/-!
# What a cancellation reaches

`CancelAll` walks `pending_` under `mu_`, flags every slot in it and then sets
the events it has collected.  A flagged call leaves its wait, detaches, and
returns `STG_E_REVERTED` unless a reply came first.

**`cancellation_scope`**, over every interleaving: the flagged calls are those
that have been staged and not withdrawn; the event of each of them is set, so
that it returns by itself, and what it returns is `STG_E_REVERTED` unless a
reply was stored, `WM_QUIT` was seen or its own `SendFrame` failed; no other
call is flagged or told that it was cancelled; and the map of queues holds no
empty queue, so that it is empty when no call is under way.

`SendFrame` is called after the slot is staged, and a call whose `SendFrame`
fails returns `E_FAIL` without a look at its flag (`cancelled_send_fails`).
-/

namespace DispatcherChunkProvider

open Library Machine DispatchCodec

/-! ## Reading the history -/

def WasStaged (h : List Obs) (id : SlotId) : Prop := ∃ r, .staged id r ∈ h

/-- The slot has left its queue: the call has detached, or its send failed. -/
def WasWithdrawn (h : List Obs) (id : SlotId) : Prop :=
  ∃ key received, .withdrawn id key received ∈ h

/-- Some `CancelAll` has flagged the slot. -/
def WasMarked (h : List Obs) (id : SlotId) : Prop := ∃ ids, .cancelled ids ∈ h ∧ id ∈ ids

/-- A cancellation flags what is in the queues when it comes. -/
def MarksQueued (before : List Obs) (o : Obs) : Prop :=
  ∀ ids, o = .cancelled ids → ∀ id, id ∈ ids ↔ WasStaged before id ∧ ¬ WasWithdrawn before id

/-- A slot is staged once. -/
def StagedOnce (before : List Obs) (o : Obs) : Prop :=
  ∀ id r, o = .staged id r → ¬ WasStaged before id

/-- How a flagged call may end. -/
def Explained (t : Trace) (id : SlotId) (hr : HResult) : Prop :=
  hr = .stgEReverted ∨ repliesInto id (observed t) ≠ [] ∨ Took t (.wait id .quit) ∨
    (Took t (.send id false) ∧ hr = .eFail)

theorem wasStaged_append {h os : List Obs} {id : SlotId} :
    WasStaged (h ++ os) id ↔ WasStaged h id ∨ WasStaged os id := by
  simp only [WasStaged, List.mem_append, exists_or]

theorem wasWithdrawn_append {h os : List Obs} {id : SlotId} :
    WasWithdrawn (h ++ os) id ↔ WasWithdrawn h id ∨ WasWithdrawn os id := by
  simp only [WasWithdrawn, List.mem_append, exists_or]

theorem wasMarked_append {h os : List Obs} {id : SlotId} :
    WasMarked (h ++ os) id ↔ WasMarked h id ∨ WasMarked os id := by
  simp only [WasMarked, List.mem_append, or_and_right, exists_or]

theorem wasMarked_singleton {ids : List SlotId} {id : SlotId} :
    WasMarked [.cancelled ids] id ↔ id ∈ ids := by
  simp [WasMarked]

/-- A step that cancels nothing. -/
theorem not_wasMarked {os : List Obs} (hos : ∀ ids, .cancelled ids ∉ os) (id : SlotId) :
    ¬ WasMarked os id := by
  rintro ⟨ids, hmem, -⟩
  exact hos ids hmem

/-! ## The map of queues -/

/-- No key has an empty queue. -/
def NoEmptyQueue (pending : Pending) : Prop := ∀ key q, pending.lookup key = some q → q ≠ []

theorem NoEmptyQueue.pushBack {pending : Pending} (h : NoEmptyQueue pending) (key : Bytes)
    (slot : SlotId) : NoEmptyQueue (pushBack pending key slot) := by
  intro key' q hq
  by_cases hkey : key' = key
  · rw [hkey, DispatcherChunkProvider.pushBack, AList.lookup_insert, Option.some.injEq] at hq
    rw [← hq]
    simp
  · rw [DispatcherChunkProvider.pushBack, AList.lookup_insert_ne hkey] at hq
    exact h key' q hq

theorem NoEmptyQueue.eraseFromQueueLocked {pending : Pending} (h : NoEmptyQueue pending)
    (key : Bytes) (slot : SlotId) : NoEmptyQueue (eraseFromQueueLocked pending key slot) := by
  intro key' q hq
  unfold DispatcherChunkProvider.eraseFromQueueLocked at hq
  split at hq
  · exact h key' q hq
  · rename_i q' hq'
    split at hq
    · by_cases hkey : key' = key
      · rw [hkey, AList.lookup_erase] at hq
        cases hq
      · rw [AList.lookup_erase_ne hkey] at hq
        exact h key' q hq
    · rename_i hleft
      by_cases hkey : key' = key
      · rw [hkey, AList.lookup_insert, Option.some.injEq] at hq
        exact hq ▸ hleft
      · rw [AList.lookup_insert_ne hkey] at hq
        exact h key' q hq

theorem Change.noEmptyQueue {s s' : Provider} {os : List Obs} (hchange : Change s s' os)
    (h : NoEmptyQueue s.pending) : NoEmptyQueue s'.pending := by
  cases hchange with
  | quiet hpending | entered hpending | finished _ hpending | filled _ hpending =>
      rw [hpending]
      exact h
  | staged _ hpending =>
      rw [hpending]
      exact h.pushBack _ _
  | abandoned _ hpending | detached _ hpending =>
      rw [hpending]
      exact h.eraseFromQueueLocked _ _
  | dropped _ hsame =>
      rw [hsame]
      exact h

theorem mem_queuedSlots {pending : Pending} {id : SlotId} :
    id ∈ queuedSlots pending ↔ ∃ key, id ∈ queue pending key := by
  constructor
  · intro hid
    obtain ⟨entry, hentry, hmem⟩ := List.mem_flatMap.mp hid
    refine ⟨entry.1, ?_⟩
    rw [queue, AList.mem_lookup_iff.mpr hentry]
    exact hmem
  · rintro ⟨key, hid⟩
    cases hq : pending.lookup key with
    | none => simp [queue, hq] at hid
    | some q =>
        refine List.mem_flatMap.mpr ⟨⟨key, q⟩, AList.mem_lookup_iff.mp hq, ?_⟩
        simpa [queue, hq] using hid

theorem WellFormed.mem_queuedSlots {s : Provider} (hs : WellFormed s) {id : SlotId} :
    id ∈ queuedSlots s.pending ↔ ∃ r, view s id = some (r, .queued) := by
  rw [DispatcherChunkProvider.mem_queuedSlots]
  constructor
  · rintro ⟨key, hid⟩
    obtain ⟨r, hview, -⟩ := (hs.queued key id).mp hid
    exact ⟨r, hview⟩
  · rintro ⟨r, hview⟩
    exact ⟨r.key, (hs.queued r.key id).mpr ⟨r, hview, rfl⟩⟩

/-- With no call under way there is no queue. -/
theorem WellFormed.pending_empty {s : Provider} (hs : WellFormed s)
    (hqueues : NoEmptyQueue s.pending)
    (hidle : ∀ id r p, s.calls id = some ⟨r, p⟩ → p = .returned) : s.pending = ∅ := by
  have hentries : s.pending.entries = [] := by
    rw [List.eq_nil_iff_forall_not_mem]
    rintro ⟨key, q⟩ hentry
    have hlookup : s.pending.lookup key = some q := AList.mem_lookup_iff.mpr hentry
    obtain ⟨id, hid⟩ := List.exists_mem_of_ne_nil q (hqueues key q hlookup)
    have hqueue : id ∈ queue s.pending key := by
      rw [queue, hlookup]
      exact hid
    obtain ⟨r, hview, -⟩ := (hs.queued key id).mp hqueue
    obtain ⟨⟨r', p⟩, hcall, hphase⟩ := Option.map_eq_some_iff.mp hview
    rw [hidle id r' p hcall] at hphase
    cases hphase
  exact AList.ext hentries

/-! ## Staged and withdrawn -/

def Phase.isStaged : Phase → Bool
  | .created => false
  | _ => true

def Phase.isWithdrawn : Phase → Bool
  | .created | .queued => false
  | _ => true

/-- The history knows the phase of every call. -/
structure Phases (h : List Obs) (s : Provider) : Prop where
  staged : ∀ id, WasStaged h id ↔ ∃ r phase, view s id = some (r, phase) ∧ phase.isStaged = true
  withdrawn : ∀ id, WasWithdrawn h id ↔
    ∃ r phase, view s id = some (r, phase) ∧ phase.isWithdrawn = true

theorem phases_initial (pipe : Bool) : Phases [] (initial pipe) where
  staged id := by simp [WasStaged, view, initial]
  withdrawn id := by simp [WasWithdrawn, view, initial]

/-- A call is in a queue if it was staged and not withdrawn. -/
theorem Phases.queued_iff {h : List Obs} {s : Provider} (hp : Phases h s) (id : SlotId) :
    (∃ r, view s id = some (r, .queued)) ↔ WasStaged h id ∧ ¬ WasWithdrawn h id := by
  rw [hp.staged, hp.withdrawn]
  constructor
  · rintro ⟨r, hview⟩
    refine ⟨⟨r, _, hview, rfl⟩, ?_⟩
    rintro ⟨r', phase, hview', hphase⟩
    rw [hview] at hview'
    cases hview'
    cases hphase
  · rintro ⟨⟨r, phase, hview, hstaged⟩, hwithdrawn⟩
    cases phase with
    | created => cases hstaged
    | queued => exact ⟨r, hview⟩
    | holding | returned => exact absurd ⟨r, _, hview, rfl⟩ hwithdrawn

/-- Nothing is staged or withdrawn and no call changes its phase. -/
theorem Phases.still {h os : List Obs} {s s' : Provider} (hp : Phases h s)
    (hview : view s' = view s) (hstaged : ∀ id, ¬ WasStaged os id)
    (hwithdrawn : ∀ id, ¬ WasWithdrawn os id) : Phases (h ++ os) s' where
  staged id := by
    rw [wasStaged_append, or_iff_left (hstaged id), hview]
    exact hp.staged id
  withdrawn id := by
    rw [wasWithdrawn_append, or_iff_left (hwithdrawn id), hview]
    exact hp.withdrawn id

/-- One call changes its phase, and the history says what it must. -/
theorem Phases.move {h os : List Obs} {s s' : Provider} (hp : Phases h s) {id : SlotId}
    {r : Request} {phase : Phase}
    (hview : view s' = Function.update (view s) id (some (r, phase)))
    (hother : ∀ i ≠ id, ¬ WasStaged os i ∧ ¬ WasWithdrawn os i)
    (hstaged : WasStaged (h ++ os) id ↔ phase.isStaged = true)
    (hwithdrawn : WasWithdrawn (h ++ os) id ↔ phase.isWithdrawn = true) :
    Phases (h ++ os) s' := by
  have hself : ∀ Q : Phase → Prop, (∃ r' phase', view s' id = some (r', phase') ∧ Q phase') ↔
      Q phase := by
    intro Q
    rw [hview, Function.update_self]
    constructor
    · rintro ⟨_, _, hsame, hQ⟩
      cases hsame
      exact hQ
    · exact fun hQ => ⟨r, phase, rfl, hQ⟩
  constructor
  · intro i
    by_cases hi : i = id
    · subst hi
      exact hstaged.trans (hself (fun p => p.isStaged = true)).symm
    · rw [wasStaged_append, or_iff_left (hother i hi).1, hview, Function.update_of_ne hi]
      exact hp.staged i
  · intro i
    by_cases hi : i = id
    · subst hi
      exact hwithdrawn.trans (hself (fun p => p.isWithdrawn = true)).symm
    · rw [wasWithdrawn_append, or_iff_left (hother i hi).2, hview, Function.update_of_ne hi]
      exact hp.withdrawn i

theorem not_wasStaged_silent {os : List Obs} (hos : ∀ o ∈ os, o.silent = true) (id : SlotId) :
    ¬ WasStaged os id := by
  rintro ⟨r, hmem⟩
  exact absurd (hos _ hmem) (by simp [Obs.silent])

theorem not_wasWithdrawn_silent {os : List Obs} (hos : ∀ o ∈ os, o.silent = true)
    (id : SlotId) : ¬ WasWithdrawn os id := by
  rintro ⟨key, received, hmem⟩
  exact absurd (hos _ hmem) (by simp [Obs.silent])

/-- **One step** moves a call as the history says. -/
theorem Change.phases {s s' : Provider} {os : List Obs} (hchange : Change s s' os)
    (hs : WellFormed s) {h : List Obs} (hp : Phases h s) : Phases (h ++ os) s' := by
  -- what the history knows of the call that moves
  have hknown : ∀ {id : SlotId} {r : Request} {phase : Phase}, view s id = some (r, phase) →
      (WasStaged h id ↔ phase.isStaged = true) ∧
        (WasWithdrawn h id ↔ phase.isWithdrawn = true) := by
    intro id r phase hview
    rw [hp.staged, hp.withdrawn, hview]
    constructor
    · exact ⟨fun ⟨_, _, hsame, h⟩ => by cases hsame; exact h, fun h => ⟨r, phase, rfl, h⟩⟩
    · exact ⟨fun ⟨_, _, hsame, h⟩ => by cases hsame; exact h, fun h => ⟨r, phase, rfl, h⟩⟩
  cases hchange with
  | quiet _ _ hview _ hos =>
      exact hp.still hview (not_wasStaged_silent hos) (not_wasWithdrawn_silent hos)
  | entered _ _ hview =>
      have hnone := hs.fresh s.nextSlot le_rfl
      refine hp.move hview (by simp [WasStaged, WasWithdrawn]) ?_ ?_
      · rw [List.append_nil, hp.staged, hnone]
        simp [Phase.isStaged]
      · rw [List.append_nil, hp.withdrawn, hnone]
        simp [Phase.isWithdrawn]
  | staged hcall _ _ hview =>
      obtain ⟨-, hwithdrawn⟩ := hknown hcall
      refine hp.move hview ?_ ?_ ?_
      · intro i hi
        simp [WasStaged, WasWithdrawn, hi]
      · simp [WasStaged, Phase.isStaged]
      · rw [wasWithdrawn_append, hwithdrawn]
        simp [WasWithdrawn, Phase.isWithdrawn]
  | abandoned hcall _ _ hview | detached hcall _ _ hview =>
      obtain ⟨hstaged, -⟩ := hknown hcall
      refine hp.move hview ?_ ?_ ?_
      · intro i hi
        simp [WasStaged, WasWithdrawn, hi]
      · rw [wasStaged_append, hstaged]
        simp [Phase.isStaged]
      · exact iff_of_true (wasWithdrawn_append.mpr (Or.inr ⟨_, _, List.mem_cons_self⟩)) rfl
  | finished hcall _ _ hview =>
      obtain ⟨hstaged, hwithdrawn⟩ := hknown hcall
      refine hp.move hview ?_ ?_ ?_
      · intro i hi
        simp [WasStaged, WasWithdrawn]
      · rw [wasStaged_append, hstaged]
        simp [Phase.isStaged]
      · rw [wasWithdrawn_append, hwithdrawn]
        simp [Phase.isWithdrawn]
  | dropped _ hsame =>
      subst hsame
      exact hp.still rfl (by simp [WasStaged]) (by simp [WasWithdrawn])
  | filled _ _ _ hview =>
      exact hp.still hview (by simp [WasStaged]) (by simp [WasWithdrawn])

/-! ## Flags -/

section Steps

variable {t : Trace} {a : Action} {os : List Obs} {s s' : Provider}

/-- The slot of a call is flagged. -/
def Flagged (s : Provider) (id : SlotId) : Prop :=
  s.calls id ≠ none ∧ (s.slots id).cancelled = true

theorem flagged_of_flags (hcalls : ∀ i, s'.calls i = none ↔ s.calls i = none)
    (hflags : ∀ i, (s'.slots i).cancelled = (s.slots i).cancelled) (id : SlotId) :
    Flagged s' id ↔ Flagged s id := by
  simp only [Flagged, ne_eq, hcalls, hflags]

/-- Moving a call on does not make or remove one. -/
theorem calls_none_iff {id : SlotId} {c c' : Call} (hcall : s.calls id = some c) (i : SlotId) :
    Function.update s.calls id (some c') i = none ↔ s.calls i = none := by
  by_cases hi : i = id
  · subst hi
    simp [hcall]
  · rw [Function.update_of_ne hi]

/-- **Only `CancelAll` flags a slot.** -/
theorem Step.flagged (hstep : Step s a s' os) (hs : WellFormed s) :
    (s' = (cancelAll s).1 ∧ os = [.cancelled (queuedSlots s.pending)]) ∨
      ((∀ ids, .cancelled ids ∉ os) ∧ ∀ id, Flagged s' id ↔ Flagged s id) := by
  cases hstep with
  | cancelled => exact Or.inl ⟨rfl, rfl⟩
  | refused | pumped | dropped | gaveUp | read | set =>
      exact Or.inr ⟨by simp, fun _ => Iff.rfl⟩
  | entered hpos hclosed =>
      refine Or.inr ⟨by simp, fun id => ?_⟩
      by_cases hid : id = s.nextSlot
      · have hnone : s.calls s.nextSlot = none := by simpa [view] using hs.fresh s.nextSlot le_rfl
        subst hid
        simp [Flagged, hnone]
      · simp [Flagged, Function.update_of_ne hid]
  | staged hcall | sent hcall | sendFailed hcall | signalled hcall | noticed hcall
  | quit hcall | expired hcall | closed hcall =>
      exact Or.inr ⟨by simp, flagged_of_flags (calls_none_iff hcall) fun _ => rfl⟩
  | detached hcall | finished hcall =>
      exact Or.inr ⟨by simp, flagged_of_flags (calls_none_iff hcall)
        (field_update PendingChunk.cancelled rfl)⟩
  | filled hqueue =>
      exact Or.inr ⟨by simp, flagged_of_flags (fun _ => Iff.rfl)
        (field_update PendingChunk.cancelled rfl)⟩

/-- `CancelAll` flags what is queued. -/
theorem WellFormed.flagged_cancelAll (hs : WellFormed s) (id : SlotId) :
    Flagged (cancelAll s).1 id ↔ Flagged s id ∨ id ∈ queuedSlots s.pending := by
  have hcall : id ∈ queuedSlots s.pending → s.calls id ≠ none := by
    intro hid hnone
    obtain ⟨r, hview⟩ := hs.mem_queuedSlots.mp hid
    simp [view, hnone] at hview
  simp only [Flagged, cancelAll]
  split
  · next hid => simp [hcall hid, hid]
  · next hid => simp [hid]

/-- A step flags only what is queued, and the history tells. -/
theorem Step.wasMarked (hstep : Step s a s' os) (hs : WellFormed s)
    (hmarked : ∀ id, WasMarked (observed t) id ↔ Flagged s id) (id : SlotId) :
    WasMarked (observed (t ++ [(a, os)])) id ↔ Flagged s' id := by
  rw [observed_append, observed_singleton, wasMarked_append, hmarked]
  rcases hstep.flagged hs with ⟨rfl, rfl⟩ | ⟨hnone, hflags⟩
  · rw [hs.flagged_cancelAll, wasMarked_singleton]
  · rw [hflags, or_iff_left (not_wasMarked hnone id)]

/-- A call that is in no queue keeps its flag. -/
theorem Step.flagged_of_not_queued (hstep : Step s a s' os) (hs : WellFormed s) {id : SlotId}
    (hid : ∀ r, view s id ≠ some (r, .queued)) : Flagged s' id ↔ Flagged s id := by
  rcases hstep.flagged hs with ⟨rfl, -⟩ | ⟨-, hflags⟩
  · rw [hs.flagged_cancelAll, or_iff_left]
    intro hmem
    obtain ⟨r, hview⟩ := hs.mem_queuedSlots.mp hmem
    exact hid r hview
  · exact hflags id

/-! ## How calls end -/

theorem Explained.mono {id : SlotId} {hr : HResult} (h : Explained t id hr) :
    Explained (t ++ [(a, os)]) id hr := by
  rcases h with hreverted | hreply | hquit | ⟨hsend, hfail⟩
  · exact Or.inl hreverted
  · refine Or.inr (Or.inl ?_)
    rw [observed_append, repliesInto_append]
    simp [hreply]
  · exact Or.inr (Or.inr (Or.inl hquit.mono))
  · exact Or.inr (Or.inr (Or.inr ⟨hsend.mono, hfail⟩))

/-- A call returns after a failed send, or with the outcome that it holds. -/
theorem Step.returns (hstep : Step s a s' os) {id : SlotId} {r : Request} {hr : HResult}
    {data : Bytes} {isLast : Bool} (h : .returned id r hr data isLast ∈ os) :
    view s' id = some (r, .returned) ∧
      ((a = .send id false ∧ hr = .eFail) ∨
        ∃ o, view s id = some (r, .holding o) ∧ hr = o.result) := by
  cases hstep with
  | sendFailed hcall =>
      simp only [List.mem_cons, reduceCtorEq, Obs.returned.injEq, List.not_mem_nil, or_false,
        false_or] at h
      obtain ⟨rfl, rfl, rfl, rfl, rfl⟩ := h
      exact ⟨by simp [view, Progress.phase], Or.inl ⟨rfl, rfl⟩⟩
  | finished hcall =>
      simp only [List.mem_singleton, Obs.returned.injEq] at h
      obtain ⟨rfl, rfl, rfl, rfl, rfl⟩ := h
      exact ⟨by simp [view, Progress.phase],
        Or.inr ⟨_, by simp [view, hcall, Progress.phase], rfl⟩⟩
  | _ => simp at h

/-- A call that has returned stays so. -/
theorem Change.returned_stays (hchange : Change s s' os) (hs : WellFormed s) {id : SlotId}
    {r : Request} (h : view s id = some (r, .returned)) : view s' id = some (r, .returned) := by
  have hmoved : ∀ {j : SlotId} {r' : Request} {phase : Phase} {v : Option (Request × Phase)},
      view s j = some (r', phase) → phase ≠ .returned → view s' = Function.update (view s) j v →
      view s' id = some (r, .returned) := by
    intro j r' phase v hcall hphase hview
    have hne : id ≠ j := by
      rintro rfl
      rw [h] at hcall
      cases hcall
      exact hphase rfl
    rw [hview, Function.update_of_ne hne, h]
  cases hchange with
  | quiet _ _ hview | filled _ _ _ hview => rw [hview, h]
  | entered _ _ hview =>
      have hne : id ≠ s.nextSlot := by
        rintro rfl
        rw [hs.fresh s.nextSlot le_rfl] at h
        cases h
      rw [hview, Function.update_of_ne hne, h]
  | staged hcall _ _ hview | abandoned hcall _ _ hview | detached hcall _ _ hview
  | finished hcall _ _ hview => exact hmoved hcall (by simp) hview
  | dropped _ hsame => rw [hsame, h]

/-- What is known of the calls that end. -/
structure Ends (t : Trace) (s : Provider) : Prop where
  marked : ∀ id, WasMarked (observed t) id ↔ Flagged s id
  quit : ∀ id r, s.calls id = some ⟨r, .woken true⟩ → Took t (.wait id .quit)
  holding : ∀ id r o, view s id = some (r, .holding o) →
    (o.gotQuit = true → Took t (.wait id .quit)) ∧ (o.canceled = true ↔ Flagged s id)
  returned : ∀ id r hr data isLast, .returned id r hr data isLast ∈ observed t →
    view s id = some (r, .returned) ∧ (hr = .stgEReverted → Flagged s id) ∧
      (Flagged s id → Explained t id hr)

theorem ends_initial (pipe : Bool) : Ends [] (initial pipe) where
  marked id := by simp [WasMarked, Flagged, observed, initial]
  quit id r h := by simp [initial] at h
  holding id r o h := by simp [view, initial] at h
  returned id r hr data isLast h := by simp [observed] at h

/-- What is returned follows from the outcome. -/
theorem Outcome.result_cases (o : Outcome) :
    (o.gotQuit = true ∧ o.result = .eAbort) ∨ o.received = true ∧ o.result ≠ .stgEReverted ∨
      (o.canceled = true ∧ o.result = .stgEReverted) ∨
      (o.canceled = false ∧ o.result = .eFail) := by
  obtain ⟨gotQuit, received, canceled, data, isLast, error⟩ := o
  cases gotQuit <;> cases received <;> cases canceled <;>
    by_cases herror : error = [] <;> simp [Outcome.result, herror]

/-- What a call returns that holds an outcome. -/
theorem Ends.finish (he : Ends t s) (hp : Provenance (observed t) s) {id : SlotId}
    {r : Request} {o : Outcome} (hview : view s id = some (r, .holding o)) :
    (o.result = .stgEReverted → Flagged s id) ∧ (Flagged s id → Explained t id o.result) := by
  obtain ⟨hquit, hcanceled⟩ := he.holding id r o hview
  have hreply : o.received = true → repliesInto id (observed t) ≠ [] := by
    intro hreceived hnone
    have hstored := hp.holding id r o hview
    rw [hnone] at hstored
    simp [Outcome.stored, replyOf, hreceived] at hstored
  rcases o.result_cases with ⟨hgot, hresult⟩ | ⟨hreceived, hresult⟩ | ⟨hcancel, hresult⟩ |
      ⟨hcancel, hresult⟩
  · rw [hresult]
    exact ⟨fun h => absurd h (by simp), fun _ => Or.inr (Or.inr (Or.inl (hquit hgot)))⟩
  · exact ⟨fun h => absurd h hresult, fun _ => Or.inr (Or.inl (hreply hreceived))⟩
  · exact ⟨fun _ => hcanceled.mp hcancel, fun _ => Or.inl hresult⟩
  · rw [hresult]
    refine ⟨fun h => absurd h (by simp), fun hflag => ?_⟩
    rw [hcanceled.mpr hflag] at hcancel
    cases hcancel

theorem Ends.step (he : Ends t s) (hs : WellFormed s) (hp : Provenance (observed t) s)
    (hstep : Step s a s' os) (hchange : Change s s' os) : Ends (t ++ [(a, os)]) s' where
  marked := hstep.wasMarked hs he.marked
  quit id r h := by
    rcases hstep.woken h with hbefore | ⟨wake, rfl, -, hquit, -⟩
    · exact (he.quit id r hbefore).mono
    · obtain rfl := hquit.mp rfl
      exact took_snoc.mpr (Or.inr rfl)
  holding id r o h := by
    rcases hstep.holding h with hbefore | ⟨gotQuit, hcall, rfl⟩
    · obtain ⟨hquit, hcanceled⟩ := he.holding id r o hbefore
      refine ⟨fun hgot => (hquit hgot).mono, ?_⟩
      rw [hcanceled, hstep.flagged_of_not_queued hs (by simp [hbefore])]
    · refine ⟨?_, ?_⟩
      · rintro rfl
        exact (he.quit id r hcall).mono
      · have hflag : (s.slots id).cancelled = true ↔ Flagged s id := by
          simp [Flagged, hcall]
        refine hflag.trans ?_
        rcases hstep.flagged hs with ⟨rfl, -⟩ | ⟨-, hflags⟩
        · have hsame : view (cancelAll s).1 id = view s id := rfl
          rw [hsame, view, hcall] at h
          cases h
        · exact (hflags id).symm
  returned id r hr data isLast h := by
    rcases mem_observed_snoc.mp h with hbefore | hnow
    · obtain ⟨hview, hreverted, hexplained⟩ := he.returned id r hr data isLast hbefore
      rw [hstep.flagged_of_not_queued hs (by simp [hview])]
      exact ⟨hchange.returned_stays hs hview, hreverted, fun hflag => (hexplained hflag).mono⟩
    · obtain ⟨hview, hwhy⟩ := hstep.returns hnow
      refine ⟨hview, ?_⟩
      rcases hwhy with ⟨rfl, rfl⟩ | ⟨o, hholding, rfl⟩
      · refine ⟨fun h => absurd h (by simp), fun _ => ?_⟩
        exact Or.inr (Or.inr (Or.inr ⟨took_snoc.mpr (Or.inr rfl), rfl⟩))
      · obtain ⟨hreverted, hexplained⟩ := he.finish hp hholding
        rw [hstep.flagged_of_not_queued hs (by simp [hholding])]
        exact ⟨hreverted, fun hflag => (hexplained hflag).mono⟩

/-- A cancellation marks what is queued at its moment. -/
theorem Step.marksQueued (hstep : Step s a s' os) (hs : WellFormed s) {h : List Obs}
    (hp : Phases h s) (hw : Whenever MarksQueued h) : Whenever MarksQueued (h ++ os) := by
  rcases hstep.flagged hs with ⟨-, rfl⟩ | ⟨hnone, -⟩
  · refine hw.snoc ?_
    rintro ids ⟨⟩ id
    rw [hs.mem_queuedSlots, hp.queued_iff]
  · refine hw.append ?_
    rintro before o after rfl ids rfl
    exact absurd (by simp) (hnone ids)

/-- A call that is staged has not been staged before. -/
theorem Step.stagedOnce (hstep : Step s a s' os) {h : List Obs} (hp : Phases h s)
    (hw : Whenever StagedOnce h) : Whenever StagedOnce (h ++ os) := by
  have hquiet : (∀ id r, .staged id r ∉ os) → Whenever StagedOnce (h ++ os) := by
    intro hnone
    refine hw.append ?_
    rintro before o after rfl id r rfl
    exact absurd (by simp) (hnone id r)
  cases hstep with
  | staged hcall =>
      refine hw.snoc ?_
      rintro id r ⟨⟩ hbefore
      obtain ⟨r', phase, hview, hphase⟩ := (hp.staged _).mp hbefore
      rw [view, hcall] at hview
      cases hview
      cases hphase
  | _ => exact hquiet (by simp)

end Steps

/-! ## The wake-up of a flagged call -/

/-- The call has not left its wait. -/
def Progress.mayWait : Progress → Bool
  | .created | .staged | .waiting => true
  | _ => false

/-- The event of a flagged call is set, or somebody is about to set it. -/
def Roused (s : Provider) : Prop :=
  ∀ id c, s.calls id = some c → c.progress.mayWait = true → (s.slots id).cancelled = true →
    s.events (s.slots id).event = some true ∨ ⟨id, some (s.slots id).event⟩ ∈ s.signals

theorem held_of_mayWait {s : Provider} {id : SlotId} {c : Call} (hcall : s.calls id = some c)
    (hwait : c.progress.mayWait = true) : held s id = some (s.slots id).event := by
  obtain ⟨r, p⟩ := c
  rw [held_of_call hcall]
  cases p <;> simp_all [Progress.mayWait, Progress.holdsEvent]

section Rousing

variable {a : Action} {os : List Obs} {s s' : Provider}

/-- Nothing happens to the events of the calls that may wait. -/
theorem Roused.keep (h : Roused s) (hsignals : ∀ g ∈ s.signals, g ∈ s'.signals)
    (hkept : ∀ id c', s'.calls id = some c' → c'.progress.mayWait = true →
      (∃ c, s.calls id = some c ∧ c.progress.mayWait = true) ∧
        (s'.slots id).cancelled = (s.slots id).cancelled ∧
        (s'.slots id).event = (s.slots id).event ∧
        s'.events (s.slots id).event = s.events (s.slots id).event) : Roused s' := by
  intro id c' hcall hwait hflag
  obtain ⟨⟨c, hcall', hwait'⟩, hsame, hevent, hevents⟩ := hkept id c' hcall hwait
  rw [hsame] at hflag
  rw [hevent, hevents]
  exact (h id c hcall' hwait' hflag).imp_right (hsignals _)

/-- One call moves on and may still wait afterwards. -/
theorem mayWait_of_update {j id : SlotId} {cj cj' c' : Call} (hj : s.calls j = some cj)
    (hmay : cj.progress.mayWait = true)
    (hcall : Function.update s.calls j (some cj') id = some c')
    (hwait : c'.progress.mayWait = true) :
    ∃ c, s.calls id = some c ∧ c.progress.mayWait = true := by
  rcases call_of_update hcall with ⟨rfl, -⟩ | ⟨-, hother⟩
  · exact ⟨cj, hj, hmay⟩
  · exact ⟨c', hother, hwait⟩

/-- One call moves on and waits no more. -/
theorem ne_of_update {j id : SlotId} {cj' c' : Call} (hleft : cj'.progress.mayWait = false)
    (hcall : Function.update s.calls j (some cj') id = some c')
    (hwait : c'.progress.mayWait = true) : id ≠ j ∧ s.calls id = some c' := by
  rcases call_of_update hcall with ⟨-, rfl⟩ | hother
  · rw [hleft] at hwait
    cases hwait
  · exact hother

/-- Two calls do not share an event. -/
theorem Owned.event_ne (ho : Owned s) {id j : SlotId} {c : Call} {handle : Handle}
    (hcall : s.calls id = some c) (hwait : c.progress.mayWait = true)
    (hj : held s j = some handle) (hne : id ≠ j) : (s.slots id).event ≠ handle := by
  rintro rfl
  exact hne (ho.distinct id j _ (held_of_mayWait hcall hwait) hj)

/-- **A flagged call does not miss its wake-up.** -/
theorem Step.roused (hstep : Step s a s' os) (ho : Owned s) (h : Roused s) : Roused s' := by
  cases hstep with
  | refused | pumped | dropped => exact h
  | @entered r handle hpos hclosed =>
      intro id c' hcall hwait hflag
      by_cases hid : id = s.nextSlot
      · subst hid
        simp at hflag
      · simp only [Function.update_of_ne hid] at hcall hflag ⊢
        have hopen := (ho.opened id _ (held_of_mayWait hcall hwait)).2
        have hne : (s.slots id).event ≠ handle := by
          rintro rfl
          exact hopen hclosed
        rw [Function.update_of_ne hne]
        exact h id c' hcall hwait hflag
  | staged hj | sent hj =>
      exact h.keep (fun _ hg => hg) fun id c' hcall hwait =>
        ⟨mayWait_of_update hj rfl hcall hwait, rfl, rfl, rfl⟩
  | noticed hj | quit hj | expired hj =>
      refine h.keep (fun _ hg => hg) fun id c' hcall hwait => ?_
      obtain ⟨-, hcall⟩ := ne_of_update rfl hcall hwait
      exact ⟨⟨c', hcall, hwait⟩, rfl, rfl, rfl⟩
  | sendFailed hj | signalled hj | closed hj =>
      refine h.keep (fun _ hg => hg) fun id c' hcall hwait => ?_
      obtain ⟨hne, hcall⟩ := ne_of_update rfl hcall hwait
      have hevent := ho.event_ne hcall hwait (held_of_call hj) hne
      exact ⟨⟨c', hcall, hwait⟩, rfl, rfl, Function.update_of_ne hevent _ _⟩
  | detached hj | finished hj =>
      refine h.keep (fun _ hg => hg) fun id c' hcall hwait => ?_
      obtain ⟨hne, hcall⟩ := ne_of_update rfl hcall hwait
      exact ⟨⟨c', hcall, hwait⟩, congrArg _ (Function.update_of_ne hne _ _),
        congrArg _ (Function.update_of_ne hne _ _), rfl⟩
  | filled hqueue =>
      exact h.keep (fun _ hg => List.mem_append_left _ hg) fun id c' hcall hwait =>
        ⟨⟨c', hcall, hwait⟩, field_update PendingChunk.cancelled (by rfl) id,
          field_update PendingChunk.event (by rfl) id, rfl⟩
  | cancelled =>
      intro id c' hcall hwait hflag
      have hpos := (ho.opened id _ (held_of_mayWait hcall hwait)).1
      by_cases hid : id ∈ queuedSlots s.pending
      · refine Or.inr ?_
        simp only [cancelAll, if_pos hid]
        refine List.mem_append_right _ (List.mem_map.mpr ⟨id, List.mem_filter.mpr ⟨hid, ?_⟩, rfl⟩)
        simpa using hpos
      · simp only [cancelAll, if_neg hid] at hflag ⊢
        exact (h id c' hcall hwait hflag).imp_right (List.mem_append_left _)
  | gaveUp hn =>
      intro id c' hcall hwait hflag
      exact (h id c' hcall hwait hflag).imp_right fun hg =>
        mem_eraseIdx_of_ne hn hg (by simp)
  | read hn =>
      intro id c' hcall hwait hflag
      exact (h id c' hcall hwait hflag).imp_right fun hg =>
        mem_set_of_ne hn hg (by simp) _
  | @set n j handle hn =>
      intro id c' hcall hwait hflag
      by_cases hhandle : (s.slots id).event = handle
      · refine Or.inl ?_
        have hopen := (ho.opened id _ (held_of_mayWait hcall hwait)).2
        obtain ⟨signalled, hevent⟩ := Option.ne_none_iff_exists'.mp hopen
        rw [hhandle] at hevent
        simp [hhandle, hevent]
      · simp only [Function.update_of_ne hhandle]
        exact (h id c' hcall hwait hflag).imp_right fun hg =>
          mem_eraseIdx_of_ne hn hg (by simp [hhandle])

end Rousing

/-! ## Marked calls return -/

/-- What the thread of a call does if its send succeeds and its event wakes
it. -/
def ownSteps (id : SlotId) : List Action :=
  [.send id true, .wait id .signalled, .detach id, .closeHandle id, .finish id]

/-- The call's own thread, and the threads that are about to set an event. -/
def Drives (id : SlotId) (a : Action) : Prop := a ∈ ownSteps id ∨ ∃ n, a = .signal n

/-- The call returns without a message, a reply or a timeout. -/
def CanReturn (s : Provider) (id : SlotId) (r : Request) : Prop :=
  ∃ h s', Run machine (fun _ a => Drives id a) s h s' ∧
    ∃ hr data isLast, .returned id r hr data isLast ∈ h

theorem CanReturn.of_step {s s' : Provider} {id : SlotId} {r : Request} {a : Action}
    {os : List Obs} (h : CanReturn s' id r) (hdrives : Drives id a)
    (hstep : machine.step s a = some (s', os)) : CanReturn s id r := by
  obtain ⟨h', s'', hrun, hr, data, isLast, hmem⟩ := h
  have hfirst : Run machine (fun _ a => Drives id a) s ([] ++ os) s' := Run.nil.snoc hdrives hstep
  exact ⟨_, s'', hfirst.append hrun, hr, data, isLast, List.mem_append_right _ hmem⟩

theorem canReturn_of_closed {s : Provider} {id : SlotId} {r : Request} {o : Outcome}
    (hcall : s.calls id = some ⟨r, .closed o⟩) : CanReturn s id r := by
  obtain ⟨s', hstep⟩ : ∃ s', machine.step s (.finish id) =
      some (s', [.returned id r o.result o.outData o.outIsLast]) := by
    simp only [machine, finish, hcall]
    exact ⟨_, rfl⟩
  have hrun : Run machine (fun _ a => Drives id a) s
      ([] ++ [.returned id r o.result o.outData o.outIsLast]) s' :=
    Run.nil.snoc (Or.inl (by simp [ownSteps])) hstep
  exact ⟨_, s', hrun, o.result, o.outData, o.outIsLast, by simp⟩

theorem canReturn_of_detached {s : Provider} {id : SlotId} {r : Request} {o : Outcome}
    (hcall : s.calls id = some ⟨r, .detached o⟩) : CanReturn s id r := by
  have hstep : machine.step s (.closeHandle id) = some
      ({ s with
          calls := Function.update s.calls id (some ⟨r, .closed o⟩)
          events := Function.update s.events (s.slots id).event none }, []) := by
    simp only [machine, closeHandle, hcall]
  refine CanReturn.of_step ?_ (Or.inl (by simp [ownSteps])) hstep
  exact canReturn_of_closed (Function.update_self _ _ _)

theorem canReturn_of_woken {s : Provider} {id : SlotId} {r : Request} {gotQuit : Bool}
    (hcall : s.calls id = some ⟨r, .woken gotQuit⟩) : CanReturn s id r := by
  obtain ⟨s', hstep, hcall'⟩ : ∃ s', machine.step s (.detach id) =
      some (s', [.withdrawn id r.key (s.slots id).received]) ∧
      s'.calls id = some ⟨r, .detached (outcomeOf (s.slots id) gotQuit)⟩ := by
    simp only [machine, detach, hcall]
    exact ⟨_, rfl, Function.update_self _ _ _⟩
  exact (canReturn_of_detached hcall').of_step (Or.inl (by simp [ownSteps])) hstep

/-- The event is set: the wait is over. -/
theorem canReturn_of_set {s : Provider} {id : SlotId} {r : Request}
    (hcall : s.calls id = some ⟨r, .waiting⟩)
    (hset : s.events (s.slots id).event = some true) : CanReturn s id r := by
  obtain ⟨s', hstep, hcall'⟩ : ∃ s', machine.step s (.wait id .signalled) = some (s', []) ∧
      s'.calls id = some ⟨r, .woken false⟩ := by
    simp only [machine, wait, hcall, hset, if_true]
    exact ⟨_, rfl, Function.update_self _ _ _⟩
  exact (canReturn_of_woken hcall').of_step (Or.inl (by simp [ownSteps])) hstep

/-- Otherwise it is set by the thread that is about to. -/
theorem canReturn_of_waiting {s : Provider} (ho : Owned s) (hr : Roused s) {id : SlotId}
    {r : Request} (hcall : s.calls id = some ⟨r, .waiting⟩)
    (hflag : (s.slots id).cancelled = true) : CanReturn s id r := by
  rcases hr id _ hcall rfl hflag with hset | hpending
  · exact canReturn_of_set hcall hset
  · obtain ⟨n, hn⟩ := List.mem_iff_getElem?.mp hpending
    have hopen := (ho.opened id _ (held_of_mayWait hcall rfl)).2
    obtain ⟨signalled, hevent⟩ := Option.ne_none_iff_exists'.mp hopen
    have hstep : machine.step s (.signal n) = some
        ({ s with
            signals := s.signals.eraseIdx n
            events := Function.update s.events (s.slots id).event
              ((s.events (s.slots id).event).map fun _ => true) },
          [.setEvent id (s.slots id).event]) := by
      simp only [machine, signal, hn]
    refine CanReturn.of_step ?_ (Or.inr ⟨n, rfl⟩) hstep
    exact canReturn_of_set hcall (by simp [hevent])

/-- **A flagged call returns**, from wherever it is. -/
theorem canReturn_of_flagged {s : Provider} (hs : WellFormed s) (ho : Owned s) (hr : Roused s)
    {id : SlotId} {r : Request} {p : Progress} (hcall : s.calls id = some ⟨r, p⟩)
    (hflag : (s.slots id).cancelled = true) (hcreated : p ≠ .created)
    (hreturned : p ≠ .returned) : CanReturn s id r := by
  cases p with
  | created => exact absurd rfl hcreated
  | staged =>
      have hstep : machine.step s (.send id true) = some
          ({ s with calls := Function.update s.calls id (some ⟨r, .waiting⟩) },
            [.sent id r]) := by
        simp only [machine, send, hcall, if_true]
      have hsent := step_cases hstep
      refine CanReturn.of_step ?_ (Or.inl (by simp [ownSteps])) hstep
      exact canReturn_of_waiting (hsent.owned hs ho) (hsent.roused ho hr)
        (Function.update_self _ _ _) hflag
  | waiting => exact canReturn_of_waiting ho hr hcall hflag
  | woken gotQuit => exact canReturn_of_woken hcall
  | detached o => exact canReturn_of_detached hcall
  | closed o => exact canReturn_of_closed hcall
  | returned => exact absurd rfl hreturned

/-! ## Every run -/

/-- What `CancelAll` does to a provider in whose queues the slots `ids` are. -/
structure Cancels (s s' : Provider) (ids : List SlotId) : Prop where
  flagged : ∀ id ∈ ids, s'.slots id = { s.slots id with cancelled := true }
  others : ∀ id ∉ ids, s'.slots id = s.slots id
  signals : ∀ g ∈ s'.signals, g ∈ s.signals ∨
    g.slot ∈ ids ∧ g.handle = some (s.slots g.slot).event
  same : s'.pipe = s.pipe ∧ s'.pending = s.pending ∧ s'.calls = s.calls ∧
    s'.nextSlot = s.nextSlot ∧ s'.events = s.events

theorem cancelAll_cancels (s : Provider) :
    Cancels s (cancelAll s).1 (queuedSlots s.pending) where
  flagged id hid := if_pos hid
  others id hid := if_neg hid
  signals g hg := by
    rcases List.mem_append.mp hg with hbefore | hnew
    · exact Or.inl hbefore
    · obtain ⟨id, hid, rfl⟩ := List.mem_map.mp hnew
      exact Or.inr ⟨(List.mem_filter.mp hid).1, rfl⟩
  same := ⟨rfl, rfl, rfl, rfl, rfl⟩

/-- How far cancellations reach in a run `t` that has come to `s`. -/
structure CancellationScope (t : Trace) (s : Provider) : Prop where
  marks : ∃ ids, (cancelAll s).2 = [.cancelled ids] ∧ Cancels s (cancelAll s).1 ids ∧
    ∀ id, id ∈ ids ↔ WasStaged (observed t) id ∧ ¬ WasWithdrawn (observed t) id
  moments : Whenever MarksQueued (observed t)
  flags : ∀ id, WasMarked (observed t) id ↔ Flagged s id
  later : ∀ before ids after, observed t = before ++ .cancelled ids :: after →
    ∀ id, WasStaged after id → id ∉ ids
  reverted : ∀ id r hr data isLast, .returned id r hr data isLast ∈ observed t →
    WasMarked (observed t) id → Explained t id hr
  onlyMarked : ∀ id r data isLast, .returned id r .stgEReverted data isLast ∈ observed t →
    WasMarked (observed t) id
  returns : ∀ id r p, s.calls id = some ⟨r, p⟩ → p ≠ .returned → WasMarked (observed t) id →
    CanReturn s id r
  noEmptyQueue : NoEmptyQueue s.pending
  idle : (∀ id r p, s.calls id = some ⟨r, p⟩ → p = .returned) → s.pending = ∅

/-- A cancellation does not mark what is staged after it. -/
theorem later_of_moments {h : List Obs} (hmarks : Whenever MarksQueued h)
    (honce : Whenever StagedOnce h) {before after : List Obs} {ids : List SlotId}
    (heq : h = before ++ .cancelled ids :: after) {id : SlotId} (hstaged : WasStaged after id) :
    id ∉ ids := by
  intro hid
  have hbefore := ((hmarks before _ after heq ids rfl id).mp hid).1
  obtain ⟨r, hmem⟩ := hstaged
  obtain ⟨between, rest, rfl⟩ := List.append_of_mem hmem
  refine honce (before ++ .cancelled ids :: between) (.staged id r) rest (by simp [heq]) id r rfl ?_
  exact wasStaged_append.mpr (Or.inl hbefore)

theorem run_ends {pipe : Bool} {t : Trace} {s : Provider}
    (hrun : Run machine.traced always (initial pipe) t s) :
    (WellFormed s ∧ Provenance (observed t) s) ∧ Phases (observed t) s ∧
      Whenever MarksQueued (observed t) ∧ Whenever StagedOnce (observed t) ∧ Ends t s := by
  refine hrun.history_invariant (fun t s => (WellFormed s ∧ Provenance (observed t) s) ∧
    Phases (observed t) s ∧ Whenever MarksQueued (observed t) ∧
    Whenever StagedOnce (observed t) ∧ Ends t s) ?_ ?_
  · exact ⟨⟨wellFormed_initial pipe, provenance_initial pipe⟩, phases_initial pipe,
      Whenever.nil, Whenever.nil, ends_initial pipe⟩
  · rintro t s a s' es ⟨⟨hs, hp⟩, hphases, hmarks, honce, he⟩ - htraced
    obtain ⟨os, hmachine, rfl⟩ := step_of_traced htraced
    have hchange := step_change hmachine
    have hstep := step_cases hmachine
    rw [observed_append, observed_singleton]
    exact ⟨⟨hchange.wellFormed hs, hchange.provenance hs hp⟩, hchange.phases hs hphases,
      hstep.marksQueued hs hphases hmarks, hstep.stagedOnce hphases honce,
      he.step hs hp hstep hchange⟩

/-- What holds of the state alone. -/
theorem run_roused {pipe : Bool} {h : List Obs} {s : Provider}
    (hrun : Run machine always (initial pipe) h s) :
    WellFormed s ∧ Owned s ∧ Roused s ∧ NoEmptyQueue s.pending := by
  refine hrun.state_invariant
    (fun s => WellFormed s ∧ Owned s ∧ Roused s ∧ NoEmptyQueue s.pending) ?_ ?_
  · refine ⟨wellFormed_initial pipe, owned_initial pipe, ?_, ?_⟩
    · intro id c hcall
      cases hcall
    · intro key q hq
      cases hq
  · rintro s a s' os ⟨hs, ho, hr, hqueues⟩ - hmachine
    have hchange := step_change hmachine
    have hstep := step_cases hmachine
    exact ⟨hchange.wellFormed hs, hstep.owned hs ho, hstep.roused ho hr,
      hchange.noEmptyQueue hqueues⟩

/-- **What a cancellation reaches**, under every interleaving of `FetchChunk`,
`DeliverChunk` and `CancelAll`. -/
theorem cancellation_scope (pipe : Bool) :
    ∀ t s, Run machine.traced always (initial pipe) t s → CancellationScope t s := by
  intro t s hrun
  obtain ⟨-, hphases, hmarks, honce, he⟩ := run_ends hrun
  obtain ⟨hs, ho, hr, hqueues⟩ := run_roused hrun.observed
  constructor
  · refine ⟨queuedSlots s.pending, rfl, cancelAll_cancels s, fun id => ?_⟩
    rw [hs.mem_queuedSlots, hphases.queued_iff]
  · exact hmarks
  · exact he.marked
  · intro before ids after heq id hstaged
    exact later_of_moments hmarks honce heq hstaged
  · intro id r hresult data isLast hmem hmarked
    exact (he.returned id r hresult data isLast hmem).2.2 ((he.marked id).mp hmarked)
  · intro id r data isLast hmem
    exact (he.marked id).mpr ((he.returned id r _ data isLast hmem).2.1 rfl)
  · intro id r p hcall hreturned hmarked
    refine canReturn_of_flagged hs ho hr hcall ((he.marked id).mp hmarked).2 ?_ hreturned
    -- what is marked has been staged
    rintro rfl
    obtain ⟨ids, hmem, hid⟩ := hmarked
    obtain ⟨before, after, heq⟩ := List.append_of_mem hmem
    have hstaged := ((hmarks before _ after heq ids rfl id).mp hid).1
    have hall : WasStaged (observed t) id := by
      rw [heq]
      exact wasStaged_append.mpr (Or.inl hstaged)
    obtain ⟨r', phase, hview, hphase⟩ := (hphases.staged id).mp hall
    rw [view, hcall] at hview
    cases hview
    cases hphase
  · exact hqueues
  · exact hs.pending_empty hqueues

/-- A waiting call is cancelled, is woken by its event and returns. -/
theorem cancellation_scope_waiting :
    ∃ t s, Run machine.traced always (initial true) t s ∧ WasMarked (observed t) 0 ∧
      .returned 0 sampleRequest .stgEReverted [] false ∈ observed t ∧ CancellationScope t s := by
  have hexec : (machine.traced.exec (initial true)
      [.enter sampleRequest (some 5), .stage 0, .send 0 true, .cancelAll, .signal 0,
        .wait 0 .signalled, .detach 0, .closeHandle 0, .finish 0]).map
        (fun r => observed r.2) =
      some [.staged 0 sampleRequest, .sent 0 sampleRequest, .cancelled [0], .setEvent 0 5,
        .withdrawn 0 sampleRequest.key false,
        .returned 0 sampleRequest .stgEReverted [] false] := by
    decide
  obtain ⟨t, s, hrun, hobserved⟩ := Run.of_exec_map hexec
  simp only at hobserved
  refine ⟨t, s, hrun, ?_, ?_, cancellation_scope true t s hrun⟩
  · rw [hobserved]
    exact ⟨[0], by simp, by simp⟩
  · rw [hobserved]
    simp

/-- **A cancelled call whose send fails is not reverted.**  It was staged
before `CancelAll` and has had no reply and no `WM_QUIT`.  And the event of a
cancelled call may be set when it is the event of a later one, which wakes
without a reply. -/
theorem cancelled_send_fails :
    (∃ t s, Run machine.traced always (initial true) t s ∧ WasMarked (observed t) 0 ∧
      .returned 0 sampleRequest .eFail [] false ∈ observed t ∧
      repliesInto 0 (observed t) = [] ∧ ¬ Took t (.wait 0 .quit)) ∧
    ∃ t s, Run machine.traced always (initial true) t s ∧ ¬ WasMarked (observed t) 1 ∧
      Took t (.wait 1 .signalled) ∧ .returned 1 sampleRequest .eFail [] false ∈ observed t ∧
      repliesInto 1 (observed t) = [] := by
  have hfirst : (machine.traced.exec (initial true)
      [.enter sampleRequest (some 5), .stage 0, .cancelAll, .send 0 false]).map (fun r => r.2) =
      some [(.enter sampleRequest (some 5), []), (.stage 0, [.staged 0 sampleRequest]),
        (.cancelAll, [.cancelled [0]]),
        (.send 0 false, [.withdrawn 0 sampleRequest.key false,
          .returned 0 sampleRequest .eFail [] false])] := by
    decide
  have hsecond : (machine.traced.exec (initial true)
      [.enter sampleRequest (some 5), .stage 0, .send 0 true, .cancelAll, .wait 0 .pumped,
        .detach 0, .closeHandle 0, .finish 0, .enter sampleRequest (some 5), .stage 1,
        .send 1 true, .signal 0, .wait 1 .signalled, .detach 1, .closeHandle 1, .finish 1]).map
        (fun r => r.2) =
      some [(.enter sampleRequest (some 5), []), (.stage 0, [.staged 0 sampleRequest]),
        (.send 0 true, [.sent 0 sampleRequest]), (.cancelAll, [.cancelled [0]]),
        (.wait 0 .pumped, []), (.detach 0, [.withdrawn 0 sampleRequest.key false]),
        (.closeHandle 0, []), (.finish 0, [.returned 0 sampleRequest .stgEReverted [] false]),
        (.enter sampleRequest (some 5), []), (.stage 1, [.staged 1 sampleRequest]),
        (.send 1 true, [.sent 1 sampleRequest]), (.signal 0, [.setEvent 0 5]),
        (.wait 1 .signalled, []), (.detach 1, [.withdrawn 1 sampleRequest.key false]),
        (.closeHandle 1, []), (.finish 1, [.returned 1 sampleRequest .eFail [] false])] := by
    decide
  constructor
  · obtain ⟨t, s, hrun, htrace⟩ := Run.of_exec_map hfirst
    simp only at htrace
    subst htrace
    refine ⟨_, s, hrun, ⟨[0], by simp [observed], by simp⟩, by simp [observed], by decide, ?_⟩
    simp [Took]
  · obtain ⟨t, s, hrun, htrace⟩ := Run.of_exec_map hsecond
    simp only at htrace
    subst htrace
    refine ⟨_, s, hrun, ?_, ⟨[], by simp⟩, by simp [observed], by decide⟩
    simp [WasMarked, observed]

end DispatcherChunkProvider
