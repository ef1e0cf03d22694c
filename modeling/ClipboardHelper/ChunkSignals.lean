import ClipboardHelper.ChunkCorrelation

/-!
# The events of waiting chunk requests

Who signals whom in `DispatcherChunkProvider`.  `DeliverChunk` and
`CancelAll` pick a slot under `mu_` and call `SetEvent` after they have
dropped it.  In between the waiting call may have noticed the reply by
itself, through the pump, or given up; it then detaches and closes its
handle, and the system may give the same number to the next `FetchChunk`.

The condition under which nothing goes wrong is `Settled`: a call does not
close its handle while a `SetEvent` that has already taken it is outstanding,
`DeliverChunk` does not read the handle between its closing and the reset of
`slot->event`, and `CreateEventW` does not fail.  Under it every `SetEvent`
finds its slot's own open handle, nobody is woken for somebody else, and a
call that fails has a reason of its own
(**`signals_reach_own_slot`**).  Without it the reply to one request wakes
the next one, which returns `E_FAIL` (`reply_wakes_next_request`).
-/

namespace DispatcherChunkProvider

open Library Machine DispatchCodec

deriving instance DecidableEq for Action

/-! ## Who holds which event -/

/-- From `CreateEventW` to `CloseHandle`. -/
def Progress.holdsEvent : Progress → Bool
  | .created | .staged | .waiting | .woken _ | .detached _ => true
  | .closed _ | .returned => false

/-- The open event of a call. -/
def held (s : Provider) (id : SlotId) : Option Handle :=
  match s.calls id with
  | some c => if c.progress.holdsEvent then some (s.slots id).event else none
  | none => none

theorem held_of_call {s : Provider} {id : SlotId} {r : Request} {p : Progress}
    (hcall : s.calls id = some ⟨r, p⟩) :
    held s id = if p.holdsEvent then some (s.slots id).event else none := by
  rw [held, hcall]

theorem held_of_no_call {s : Provider} {id : SlotId} (hcall : s.calls id = none) :
    held s id = none := by
  rw [held, hcall]

/-- What is held is the event of the slot. -/
theorem held_eq_event {s : Provider} {id : SlotId} (h : held s id ≠ none) :
    held s id = some (s.slots id).event := by
  cases hcall : s.calls id with
  | none => exact absurd (held_of_no_call hcall) h
  | some c =>
      rw [held_of_call hcall] at h ⊢
      exact ite_eq_left_iff.mpr (fun hnot => absurd (if_neg hnot) h)

/-- Moving one call on. -/
theorem held_update {s s' : Provider} {id : SlotId} {r : Request} {p : Progress}
    (hcalls : s'.calls = Function.update s.calls id (some ⟨r, p⟩))
    (hevent : ∀ i ≠ id, (s'.slots i).event = (s.slots i).event) :
    held s' = Function.update (held s) id
      (if p.holdsEvent then some (s'.slots id).event else none) := by
  funext i
  by_cases hi : i = id
  · subst hi
    rw [Function.update_self, held_of_call (by rw [hcalls, Function.update_self])]
  · rw [Function.update_of_ne hi, held, held, hcalls, Function.update_of_ne hi, hevent i hi]

/-- A new call and its event. -/
theorem held_open {s s' : Provider} {id : SlotId} {r : Request} {handle : Handle}
    (hcalls : s'.calls = Function.update s.calls id (some ⟨r, .created⟩))
    (hslots : s'.slots = Function.update s.slots id { event := handle }) :
    held s' = Function.update (held s) id (some handle) := by
  have hevent : ∀ i ≠ id, (s'.slots i).event = (s.slots i).event := by
    intro i hi
    rw [hslots, Function.update_of_ne hi]
  rw [held_update hcalls hevent, hslots, Function.update_self]
  rfl

/-- A call without an event. -/
theorem held_close {s s' : Provider} {id : SlotId} {r : Request} {p : Progress}
    (hcalls : s'.calls = Function.update s.calls id (some ⟨r, p⟩)) (hholds : p.holdsEvent = false)
    (hevent : ∀ i ≠ id, (s'.slots i).event = (s.slots i).event) :
    held s' = Function.update (held s) id none := by
  rw [held_update hcalls hevent, hholds]
  rfl

/-- A call that keeps its event. -/
theorem held_same {s s' : Provider} {id : SlotId} {r : Request} {p p' : Progress}
    (hcall : s.calls id = some ⟨r, p⟩)
    (hcalls : s'.calls = Function.update s.calls id (some ⟨r, p'⟩))
    (hholds : p'.holdsEvent = p.holdsEvent)
    (hevent : ∀ i, (s'.slots i).event = (s.slots i).event) : held s' = held s := by
  rw [held_update hcalls (fun i _ => hevent i)]
  apply Function.update_eq_self_iff.mpr
  rw [held_of_call hcall, hholds, hevent]

/-- Only the events of the slots matter. -/
theorem held_congr {s s' : Provider} (hcalls : s'.calls = s.calls)
    (hevent : ∀ i, (s'.slots i).event = (s.slots i).event) : held s' = held s := by
  funext i
  rw [held, held, hcalls, hevent]

/-- Rewriting a slot without touching one of its fields. -/
theorem field_update {β : Type} {slots : SlotId → PendingChunk} {id : SlotId}
    {slot : PendingChunk} (field : PendingChunk → β) (hfield : field slot = field (slots id))
    (i : SlotId) : field (Function.update slots id slot i) = field (slots i) := by
  by_cases hi : i = id
  · subst hi
    rw [Function.update_self, hfield]
  · rw [Function.update_of_ne hi]

/-! ## What one step does -/

inductive Step (s : Provider) : Action → Provider → List Obs → Prop
  | refused {r : Request} {event : Option Handle} {hr : HResult}
      (hcause : hr = .eFail → s.pipe = false ∨
        event = none ∧ s.pipe = true ∧ r.transferId ≠ [] ∧ r.fileId ≠ []) :
      Step s (.enter r event) s [.refused r hr]
  | entered {r : Request} {handle : Handle} (hpos : handle ≠ 0)
      (hclosed : s.events handle = none) :
      Step s (.enter r (some handle))
        { s with
            slots := Function.update s.slots s.nextSlot { event := handle }
            calls := Function.update s.calls s.nextSlot (some ⟨r, .created⟩)
            nextSlot := s.nextSlot + 1
            events := Function.update s.events handle (some false) } []
  | staged {id : SlotId} {r : Request} (hcall : s.calls id = some ⟨r, .created⟩) :
      Step s (.stage id)
        { s with
            pending := pushBack s.pending r.key id
            calls := Function.update s.calls id (some ⟨r, .staged⟩) } [.staged id r]
  | sent {id : SlotId} {r : Request} (hcall : s.calls id = some ⟨r, .staged⟩) :
      Step s (.send id true)
        { s with calls := Function.update s.calls id (some ⟨r, .waiting⟩) } [.sent id r]
  | sendFailed {id : SlotId} {r : Request} (hcall : s.calls id = some ⟨r, .staged⟩) :
      Step s (.send id false)
        { s with
            pending := eraseFromQueueLocked s.pending r.key id
            calls := Function.update s.calls id (some ⟨r, .returned⟩)
            events := Function.update s.events (s.slots id).event none }
        [.withdrawn id r.key (s.slots id).received, .returned id r .eFail [] false]
  | signalled {id : SlotId} {r : Request} (hcall : s.calls id = some ⟨r, .waiting⟩)
      (hset : s.events (s.slots id).event = some true) :
      Step s (.wait id .signalled)
        { s with
            calls := Function.update s.calls id (some ⟨r, .woken false⟩)
            events := Function.update s.events (s.slots id).event (some false) } []
  | noticed {id : SlotId} {r : Request} (hcall : s.calls id = some ⟨r, .waiting⟩)
      (hslot : (s.slots id).cancelled = true ∨ (s.slots id).received = true) :
      Step s (.wait id .pumped)
        { s with calls := Function.update s.calls id (some ⟨r, .woken false⟩) } []
  | pumped {id : SlotId} : Step s (.wait id .pumped) s []
  | quit {id : SlotId} {r : Request} (hcall : s.calls id = some ⟨r, .waiting⟩) :
      Step s (.wait id .quit)
        { s with calls := Function.update s.calls id (some ⟨r, .woken true⟩) } []
  | expired {id : SlotId} {r : Request} (hcall : s.calls id = some ⟨r, .waiting⟩) :
      Step s (.wait id .expired)
        { s with calls := Function.update s.calls id (some ⟨r, .woken false⟩) } []
  | detached {id : SlotId} {r : Request} {gotQuit : Bool}
      (hcall : s.calls id = some ⟨r, .woken gotQuit⟩) :
      Step s (.detach id)
        { s with
            pending := eraseFromQueueLocked s.pending r.key id
            slots := Function.update s.slots id { s.slots id with data := [], error := [] }
            calls := Function.update s.calls id
              (some ⟨r, .detached (outcomeOf (s.slots id) gotQuit)⟩) }
        [.withdrawn id r.key (s.slots id).received]
  | closed {id : SlotId} {r : Request} {o : Outcome}
      (hcall : s.calls id = some ⟨r, .detached o⟩) :
      Step s (.closeHandle id)
        { s with
            calls := Function.update s.calls id (some ⟨r, .closed o⟩)
            events := Function.update s.events (s.slots id).event none } []
  | finished {id : SlotId} {r : Request} {o : Outcome}
      (hcall : s.calls id = some ⟨r, .closed o⟩) :
      Step s (.finish id)
        { s with
            slots := Function.update s.slots id { s.slots id with event := 0 }
            calls := Function.update s.calls id (some ⟨r, .returned⟩) }
        [.returned id r o.result o.outData o.outIsLast]
  | dropped {chunk : ParsedFileChunkData} :
      Step s (.deliver chunk) s [.delivered chunk none]
  | filled {chunk : ParsedFileChunkData} {id : SlotId} {rest : List SlotId}
      (hqueue : queue s.pending (replyKey chunk) = id :: rest) :
      Step s (.deliver chunk)
        { s with
            slots := Function.update s.slots id (fill (s.slots id) chunk)
            signals := s.signals ++ [⟨id, none⟩] } [.delivered chunk (some id)]
  | cancelled : Step s .cancelAll (cancelAll s).1 [.cancelled (queuedSlots s.pending)]
  | gaveUp {n : Nat} {id : SlotId} (hn : s.signals[n]? = some ⟨id, none⟩) :
      Step s (.signal n) { s with signals := s.signals.eraseIdx n } []
  | read {n : Nat} {id : SlotId} (hn : s.signals[n]? = some ⟨id, none⟩)
      (hevent : (s.slots id).event ≠ 0) :
      Step s (.signal n)
        { s with signals := s.signals.set n ⟨id, some (s.slots id).event⟩ } []
  | set {n : Nat} {id : SlotId} {handle : Handle}
      (hn : s.signals[n]? = some ⟨id, some handle⟩) :
      Step s (.signal n)
        { s with
            signals := s.signals.eraseIdx n
            events := Function.update s.events handle ((s.events handle).map fun _ => true) }
        [.setEvent id handle]

theorem enter_step {s s' : Provider} {r : Request} {event : Option Handle} {os : List Obs}
    (h : enter s r event = some (s', os)) : Step s (.enter r event) s' os := by
  unfold enter at h
  split at h
  · rename_i hpipe
    cases h
    exact .refused (fun _ => Or.inl (by simpa using hpipe))
  · rename_i hpipe
    split at h
    · cases h
      exact .refused (fun hr => by cases hr)
    · rename_i hids
      cases event with
      | none =>
          cases h
          refine .refused (fun _ => Or.inr ⟨rfl, by simpa using hpipe, ?_⟩)
          exact not_or.mp hids
      | some handle =>
          simp only at h
          split at h
          · cases h
          · rename_i hhandle
            cases h
            obtain ⟨hpos, hopen⟩ := not_or.mp hhandle
            exact .entered hpos (not_not.mp hopen)

theorem send_step {s s' : Provider} {id : SlotId} {ok : Bool} {os : List Obs}
    (h : send s id ok = some (s', os)) : Step s (.send id ok) s' os := by
  unfold send at h
  split at h
  · rename_i r hcall
    cases ok with
    | true =>
        cases h
        exact .sent hcall
    | false =>
        cases h
        exact .sendFailed hcall
  · cases h

theorem wait_step {s s' : Provider} {id : SlotId} {wake : Wake} {os : List Obs}
    (h : wait s id wake = some (s', os)) : Step s (.wait id wake) s' os := by
  unfold wait at h
  split at h
  · rename_i r hcall
    cases wake with
    | signalled =>
        simp only at h
        split at h
        · rename_i hset
          cases h
          exact .signalled hcall hset
        · cases h
    | pumped =>
        simp only at h
        split at h
        · rename_i hslot
          cases h
          exact .noticed hcall (by simpa using hslot)
        · cases h
          exact .pumped
    | quit =>
        cases h
        exact .quit hcall
    | expired =>
        cases h
        exact .expired hcall
  · cases h

theorem deliverChunk_step (s : Provider) (chunk : ParsedFileChunkData) :
    Step s (.deliver chunk) (deliverChunk s chunk).1 (deliverChunk s chunk).2 := by
  cases hq : queue s.pending (replyKey chunk) with
  | nil =>
      rw [deliverChunk, hq]
      exact .dropped
  | cons id rest =>
      rw [deliverChunk, hq]
      exact .filled hq

theorem signal_step {s s' : Provider} {n : Nat} {os : List Obs}
    (h : signal s n = some (s', os)) : Step s (.signal n) s' os := by
  unfold signal at h
  split at h
  · cases h
  · rename_i id hn
    split at h
    · cases h
      exact .gaveUp hn
    · rename_i hevent
      cases h
      exact .read hn hevent
  · rename_i id handle hn
    cases h
    exact .set hn

/-- **Every step is one of these.** -/
theorem step_cases {s s' : Provider} {a : Action} {os : List Obs}
    (h : machine.step s a = some (s', os)) : Step s a s' os := by
  cases a with
  | enter r event => exact enter_step h
  | stage id =>
      simp only [machine, stage] at h
      split at h
      · rename_i r hcall
        cases h
        exact .staged hcall
      · cases h
  | send id ok => exact send_step h
  | wait id wake => exact wait_step h
  | detach id =>
      simp only [machine, detach] at h
      split at h
      · rename_i r gotQuit hcall
        cases h
        exact .detached hcall
      · cases h
  | closeHandle id =>
      simp only [machine, closeHandle] at h
      split at h
      · rename_i r o hcall
        cases h
        exact .closed hcall
      · cases h
  | finish id =>
      simp only [machine, finish] at h
      split at h
      · rename_i r o hcall
        cases h
        exact .finished hcall
      · cases h
  | deliver chunk =>
      have hstep := deliverChunk_step s chunk
      rwa [Option.some.inj h] at hstep
  | cancelAll =>
      cases h
      exact .cancelled
  | signal n => exact signal_step h

/-! ## What a step does to one call -/

/-- A call after a step that moves call `j`. -/
theorem call_of_update {calls : SlotId → Option Call} {id j : SlotId} {c c' : Call}
    (h : Function.update calls j (some c) id = some c') :
    id = j ∧ c = c' ∨ id ≠ j ∧ calls id = some c' := by
  by_cases hj : id = j
  · subst hj
    rw [Function.update_self] at h
    exact Or.inl ⟨rfl, Option.some.inj h⟩
  · rw [Function.update_of_ne hj] at h
    exact Or.inr ⟨hj, h⟩

/-- A call wakes at the end of its own wait. -/
theorem Step.woken {s s' : Provider} {a : Action} {os : List Obs} (hstep : Step s a s' os)
    {id : SlotId} {r : Request} {gotQuit : Bool}
    (h : s'.calls id = some ⟨r, .woken gotQuit⟩) :
    s.calls id = some ⟨r, .woken gotQuit⟩ ∨
      ∃ wake, a = .wait id wake ∧ s.calls id = some ⟨r, .waiting⟩ ∧
        (gotQuit = true ↔ wake = .quit) ∧
        (wake = .signalled → s.events (s.slots id).event = some true) ∧
        (wake = .pumped → (s.slots id).cancelled = true ∨ (s.slots id).received = true) := by
  cases hstep with
  | refused | pumped | dropped | filled | cancelled | gaveUp | read | set => exact Or.inl h
  | entered | staged | sent | sendFailed | detached | closed | finished =>
      rcases call_of_update h with ⟨-, hsame⟩ | ⟨-, hcall⟩
      · cases hsame
      · exact Or.inl hcall
  | signalled hcall hset =>
      rcases call_of_update h with ⟨rfl, hsame⟩ | ⟨-, hcall⟩
      · cases hsame
        exact Or.inr ⟨.signalled, rfl, hcall, by simp, fun _ => hset, by simp⟩
      · exact Or.inl hcall
  | noticed hcall hslot =>
      rcases call_of_update h with ⟨rfl, hsame⟩ | ⟨-, hcall⟩
      · cases hsame
        exact Or.inr ⟨.pumped, rfl, hcall, by simp, by simp, fun _ => hslot⟩
      · exact Or.inl hcall
  | quit hcall | expired hcall =>
      rcases call_of_update h with ⟨rfl, hsame⟩ | ⟨-, hcall⟩
      · cases hsame
        exact Or.inr ⟨_, rfl, hcall, by simp, by simp, by simp⟩
      · exact Or.inl hcall

/-- A call holds its outcome from the step in which it detaches. -/
theorem Step.holding {s s' : Provider} {a : Action} {os : List Obs} (hstep : Step s a s' os)
    {id : SlotId} {r : Request} {o : Outcome} (h : view s' id = some (r, .holding o)) :
    view s id = some (r, .holding o) ∨ ∃ gotQuit, s.calls id = some ⟨r, .woken gotQuit⟩ ∧
      o = outcomeOf (s.slots id) gotQuit := by
  obtain ⟨⟨r', p⟩, hcall, hphase⟩ := Option.map_eq_some_iff.mp h
  have hkept : s.calls id = some ⟨r', p⟩ → view s id = some (r, .holding o) := by
    intro hid
    rw [view, hid]
    exact congrArg some hphase
  cases hstep with
  | refused | pumped | dropped | filled | cancelled | gaveUp | read | set =>
      exact Or.inl (hkept hcall)
  | entered | staged | sent | sendFailed | signalled | noticed | quit | expired | finished =>
      rcases call_of_update hcall with ⟨-, hsame⟩ | ⟨-, hother⟩
      · cases hsame
        cases hphase
      · exact Or.inl (hkept hother)
  | @detached j r'' gotQuit hj =>
      rcases call_of_update hcall with ⟨rfl, hsame⟩ | ⟨-, hother⟩
      · cases hsame
        cases hphase
        exact Or.inr ⟨gotQuit, hj, rfl⟩
      · exact Or.inl (hkept hother)
  | closed hj =>
      rcases call_of_update hcall with ⟨rfl, hsame⟩ | ⟨-, hother⟩
      · cases hsame
        cases hphase
        refine Or.inl ?_
        rw [view, hj]
        rfl
      · exact Or.inl (hkept hother)

/-! ## Every call has its own event -/

/-- Setting or resetting an open event leaves it open. -/
theorem events_update_open {events : Handle → Option Bool} {handle handle' : Handle}
    {value : Option Bool} (hvalue : events handle ≠ none → value ≠ none)
    (hopen : events handle' ≠ none) : Function.update events handle value handle' ≠ none := by
  by_cases hne : handle' = handle
  · subst hne
    rw [Function.update_self]
    exact hvalue hopen
  · rwa [Function.update_of_ne hne]

/-- What one step can do to the events. -/
inductive EventChange (s s' : Provider) (a : Action) (os : List Obs) : Prop
  | same (hheld : held s' = held s) (hevents : s'.events = s.events)
  | opened {id : SlotId} {handle : Handle} (hpos : handle ≠ 0) (hclosed : s.events handle = none)
      (hnone : held s id = none) (hheld : held s' = Function.update (held s) id (some handle))
      (hevents : s'.events = Function.update s.events handle (some false))
      (hsignals : s'.signals = s.signals)
  | closed {id : SlotId} {handle : Handle} (hid : held s id = some handle)
      (hact : a = .send id false ∨ a = .closeHandle id)
      (hheld : held s' = Function.update (held s) id none)
      (hevents : s'.events = Function.update s.events handle none)
      (hsignals : s'.signals = s.signals)
  | reset {handle : Handle} (hheld : held s' = held s)
      (hevents : s'.events = Function.update s.events handle (some false))
  | set {id : SlotId} {handle : Handle} (hos : os = [.setEvent id handle])
      (hsignal : ⟨id, some handle⟩ ∈ s.signals) (hheld : held s' = held s)
      (hevents : s'.events =
        Function.update s.events handle ((s.events handle).map fun _ => true))

theorem Step.eventChange {s s' : Provider} {a : Action} {os : List Obs} (hstep : Step s a s' os)
    (hs : WellFormed s) : EventChange s s' a os := by
  cases hstep with
  | refused | pumped | dropped => exact .same rfl rfl
  | entered hpos hclosed =>
      have hnew : s.calls s.nextSlot = none := by
        simpa [view] using hs.fresh s.nextSlot (le_refl _)
      exact .opened hpos hclosed (held_of_no_call hnew) (held_open rfl rfl) rfl rfl
  | staged hcall | sent hcall | quit hcall | expired hcall =>
      exact .same (held_same hcall rfl rfl (fun _ => rfl)) rfl
  | noticed hcall hslot => exact .same (held_same hcall rfl rfl (fun _ => rfl)) rfl
  | sendFailed hcall =>
      exact .closed (held_of_call hcall) (Or.inl rfl) (held_close rfl rfl (fun _ _ => rfl)) rfl rfl
  | signalled hcall hset => exact .reset (held_same hcall rfl rfl (fun _ => rfl)) rfl
  | detached hcall =>
      exact .same (held_same hcall rfl rfl (field_update PendingChunk.event rfl)) rfl
  | closed hcall =>
      exact .closed (held_of_call hcall) (Or.inr rfl) (held_close rfl rfl (fun _ _ => rfl)) rfl rfl
  | finished hcall =>
      refine .same ?_ rfl
      rw [held_close rfl rfl (fun i hi => by simp [Function.update_of_ne hi])]
      exact Function.update_eq_self_iff.mpr (held_of_call hcall).symm
  | filled hqueue => exact .same (held_congr rfl (field_update PendingChunk.event rfl)) rfl
  | cancelled =>
      refine .same (held_congr rfl ?_) rfl
      intro i
      simp only [cancelAll]
      split <;> rfl
  | gaveUp | read => exact .same (held_congr rfl (fun _ => rfl)) rfl
  | set hn => exact .set rfl (List.mem_of_getElem? hn) (held_congr rfl (fun _ => rfl)) rfl

/-- Held events are open and belong to one call each. -/
structure Owned (s : Provider) : Prop where
  opened : ∀ i handle, held s i = some handle → handle ≠ 0 ∧ s.events handle ≠ none
  distinct : ∀ i j handle, held s i = some handle → held s j = some handle → i = j

theorem owned_initial (pipe : Bool) : Owned (initial pipe) where
  opened i handle h := by simp [held, initial] at h
  distinct i j handle h := by simp [held, initial] at h

/-- A step that opens and closes nothing. -/
theorem Owned.keep {s s' : Provider} (h : Owned s) (hheld : held s' = held s)
    (hopen : ∀ handle, s.events handle ≠ none → s'.events handle ≠ none) : Owned s' where
  opened i handle hi := by
    rw [hheld] at hi
    obtain ⟨hpos, hevent⟩ := h.opened i handle hi
    exact ⟨hpos, hopen handle hevent⟩
  distinct i j handle hi hj := by
    rw [hheld] at hi hj
    exact h.distinct i j handle hi hj

/-- A call that enters gets an event of its own. -/
theorem Owned.open {s s' : Provider} (h : Owned s) {id : SlotId} {handle : Handle}
    (hpos : handle ≠ 0) (hclosed : s.events handle = none)
    (hheld : held s' = Function.update (held s) id (some handle))
    (hevents : s'.events = Function.update s.events handle (some false)) : Owned s' := by
  have hother : ∀ i, held s i ≠ some handle := by
    intro i hi
    exact (h.opened i handle hi).2 hclosed
  constructor
  · intro i handle' hi
    rw [hheld] at hi
    rw [hevents]
    by_cases hid : i = id
    · subst hid
      rw [Function.update_self] at hi
      cases hi
      simpa using hpos
    · rw [Function.update_of_ne hid] at hi
      have hne : handle' ≠ handle := by
        rintro rfl
        exact hother i hi
      rw [Function.update_of_ne hne]
      exact h.opened i handle' hi
  · intro i j handle' hi hj
    rw [hheld] at hi hj
    by_cases hid : i = id
    · by_cases hjd : j = id
      · rw [hid, hjd]
      · rw [hid, Function.update_self] at hi
        rw [Function.update_of_ne hjd] at hj
        cases hi
        exact absurd hj (hother j)
    · rw [Function.update_of_ne hid] at hi
      by_cases hjd : j = id
      · rw [hjd, Function.update_self] at hj
        cases hj
        exact absurd hi (hother i)
      · rw [Function.update_of_ne hjd] at hj
        exact h.distinct i j handle' hi hj

/-- A call that closes its event. -/
theorem Owned.close {s s' : Provider} (h : Owned s) {id : SlotId} {handle : Handle}
    (hid : held s id = some handle) (hheld : held s' = Function.update (held s) id none)
    (hevents : s'.events = Function.update s.events handle none) : Owned s' := by
  have hothers : ∀ i handle', held s' i = some handle' → i ≠ id ∧ held s i = some handle' := by
    intro i handle' hi
    rw [hheld] at hi
    by_cases hne : i = id
    · rw [hne, Function.update_self] at hi
      cases hi
    · rw [Function.update_of_ne hne] at hi
      exact ⟨hne, hi⟩
  constructor
  · intro i handle' hi
    obtain ⟨hne, hi⟩ := hothers i handle' hi
    have hother : handle' ≠ handle := by
      rintro rfl
      exact hne (h.distinct i id handle' hi hid)
    rw [hevents, Function.update_of_ne hother]
    exact h.opened i handle' hi
  · intro i j handle' hi hj
    exact h.distinct i j handle' (hothers i handle' hi).2 (hothers j handle' hj).2

/-- **Every call has an event of its own**, whatever is signalled when. -/
theorem Step.owned {s s' : Provider} {a : Action} {os : List Obs} (hstep : Step s a s' os)
    (hs : WellFormed s) (h : Owned s) : Owned s' := by
  cases hstep.eventChange hs with
  | same hheld hevents => exact h.keep hheld (fun _ hopen => by rwa [hevents])
  | opened hpos hclosed hnone hheld hevents hsignals => exact h.open hpos hclosed hheld hevents
  | closed hid hact hheld hevents hsignals => exact h.close hid hheld hevents
  | reset hheld hevents | set hos hsignal hheld hevents =>
      refine h.keep hheld ?_
      intro handle hopen
      rw [hevents]
      exact events_update_open (by simp) hopen

/-! ## Handles stay with their slots -/

/-- The condition on the order of steps: `CreateEventW` succeeds, no call
closes an event that somebody is about to set, and none is read from a slot
that has closed it but not yet forgotten it. -/
def Settled (s : Provider) : Action → Prop
  | .enter r event => event = none → s.pipe = false ∨ r.transferId = [] ∨ r.fileId = []
  | .send id false | .closeHandle id => ∀ handle, ⟨id, some handle⟩ ∉ s.signals
  | .signal n => ∀ id, s.signals[n]? = some ⟨id, none⟩ → (s.slots id).event = 0 ∨ held s id ≠ none
  | _ => True

/-- Held events are open and belong to one call each, and what is about to be
set is held by the call it was taken for. -/
structure Handles (s : Provider) : Prop where
  opened : ∀ i handle, held s i = some handle → handle ≠ 0 ∧ s.events handle ≠ none
  distinct : ∀ i j handle, held s i = some handle → held s j = some handle → i = j
  collected : ∀ i handle, ⟨i, some handle⟩ ∈ s.signals → held s i = some handle

theorem handles_initial (pipe : Bool) : Handles (initial pipe) where
  opened i handle h := by simp [held, initial] at h
  distinct i j handle h := by simp [held, initial] at h
  collected i handle h := by simp [initial] at h

/-- `CancelAll` takes the events of waiting calls only. -/
theorem WellFormed.held_of_queued {s : Provider} (hs : WellFormed s) {id : SlotId}
    (hid : id ∈ queuedSlots s.pending) : held s id = some (s.slots id).event := by
  obtain ⟨entry, hentry, hmem⟩ := List.mem_flatMap.mp hid
  have hlookup : s.pending.lookup entry.1 = some entry.2 :=
    AList.mem_lookup_iff.mpr hentry
  have hqueue : id ∈ queue s.pending entry.1 := by
    rw [queue, hlookup]
    exact hmem
  obtain ⟨r, hview, -⟩ := (hs.queued entry.1 id).mp hqueue
  obtain ⟨⟨r', p⟩, hcall, hphase⟩ := Option.map_eq_some_iff.mp hview
  rw [held_of_call hcall]
  cases p <;> simp_all [Progress.phase, Progress.holdsEvent]

/-- Only held events are taken. -/
theorem Step.taken {s s' : Provider} {a : Action} {os : List Obs} (hstep : Step s a s' os)
    (hguard : Settled s a) (hs : WellFormed s) {i : SlotId} {handle : Handle}
    (hmem : ⟨i, some handle⟩ ∈ s'.signals) :
    ⟨i, some handle⟩ ∈ s.signals ∨ held s i = some handle := by
  cases hstep with
  | refused | entered | staged | sent | sendFailed | signalled | noticed | pumped | quit
  | expired | detached | closed | finished | dropped => exact Or.inl hmem
  | filled => exact Or.inl (by simpa using hmem)
  | cancelled =>
      rcases List.mem_append.mp hmem with hmem | hmem
      · exact Or.inl hmem
      · obtain ⟨j, hj, heq⟩ := List.mem_map.mp hmem
        cases heq
        exact Or.inr (hs.held_of_queued (List.mem_filter.mp hj).1)
  | gaveUp | set => exact Or.inl (List.mem_of_mem_eraseIdx hmem)
  | @read n id hn hevent =>
      rcases List.mem_or_eq_of_mem_set hmem with hmem | heq
      · exact Or.inl hmem
      · cases heq
        have hholds : held s i ≠ none := (hguard i hn).resolve_left hevent
        exact Or.inr (held_eq_event hholds)

/-- **Handles stay with their slots** at every settled step. -/
theorem Step.handles {s s' : Provider} {a : Action} {os : List Obs} (hstep : Step s a s' os)
    (hguard : Settled s a) (hs : WellFormed s) (h : Handles s) : Handles s' := by
  obtain ⟨hopened, hdistinct⟩ := hstep.owned hs ⟨h.opened, h.distinct⟩
  refine ⟨hopened, hdistinct, ?_⟩
  intro i handle hmem
  cases hstep.eventChange hs with
  | same hheld | reset hheld | set _ _ hheld =>
      rw [hheld]
      exact (hstep.taken hguard hs hmem).elim (h.collected i handle) id
  | opened hpos hclosed hnone hheld hevents hsignals =>
      rw [hsignals] at hmem
      have hkept := h.collected i handle hmem
      rw [hheld, Function.update_of_ne, hkept]
      rintro rfl
      rw [hnone] at hkept
      cases hkept
  | @closed id handle' hid hact hheld hevents hsignals =>
      rw [hsignals] at hmem
      rw [hheld, Function.update_of_ne, h.collected i handle hmem]
      rintro rfl
      rcases hact with rfl | rfl
      · exact hguard handle hmem
      · exact hguard handle hmem

/-! ## Why a call wakes and why it fails -/

/-- A run's actions, each with what it emitted. -/
abbrev Trace := List (Action × List Obs)

/-- The action was taken. -/
def Took (t : Trace) (a : Action) : Prop := ∃ os, (a, os) ∈ t

/-- A reply or a cancel has reached the slot of this call. -/
def Answered (s : Provider) (id : SlotId) : Prop :=
  s.calls id ≠ none ∧ ((s.slots id).received = true ∨ (s.slots id).cancelled = true)

/-- A call's own reasons to fail: the pipe did not take its request, its wait
timed out or failed, or its own reply carried an error. -/
def FailedAlone (t : Trace) (id : SlotId) (r : Request) : Prop :=
  Took t (.send id false) ∨ Took t (.wait id .expired) ∨
    ∃ chunk, .delivered chunk (some id) ∈ observed t ∧ replyKey chunk = r.key ∧ chunk.error ≠ []

/-- In a run and the state it has reached, nobody is woken for somebody else. -/
structure Undisturbed (t : Trace) (s : Provider) : Prop where
  ownHandle : ∀ n s' id handle, machine.step s (.signal n) = some (s', [.setEvent id handle]) →
    s.events handle ≠ none ∧ held s id = some handle ∧ ∀ j, held s j = some handle → j = id
  ownSignal : ∀ id, Took t (.wait id .signalled) → ∃ handle, .setEvent id handle ∈ observed t
  ownFailure : ∀ id r data isLast, .returned id r .eFail data isLast ∈ observed t →
    FailedAlone t id r
  pipeDown : ∀ r, .refused r .eFail ∈ observed t → s.pipe = false

/-- Every signal has a cause, and every call that is awake has one. -/
structure Causes (t : Trace) (s : Provider) : Prop where
  signals : ∀ g ∈ s.signals, Answered s g.slot
  set : ∀ id handle, held s id = some handle → s.events handle = some true →
    Answered s id ∧ .setEvent id handle ∈ observed t
  woken : ∀ id r, s.calls id = some ⟨r, .woken false⟩ →
    Answered s id ∨ Took t (.wait id .expired)
  holding : ∀ id r o, view s id = some (r, .holding o) → o.gotQuit = false →
    o.received = true ∨ o.canceled = true ∨ Took t (.wait id .expired)
  ownSignal : ∀ id, Took t (.wait id .signalled) → ∃ handle, .setEvent id handle ∈ observed t
  ownFailure : ∀ id r data isLast, .returned id r .eFail data isLast ∈ observed t →
    FailedAlone t id r
  pipeDown : ∀ r, .refused r .eFail ∈ observed t → s.pipe = false

theorem causes_initial (pipe : Bool) : Causes [] (initial pipe) where
  signals g hg := by simp [initial] at hg
  set id handle hid := by simp [held, initial] at hid
  woken id r hid := by simp [initial] at hid
  holding id r o hid := by simp [view, initial] at hid
  ownSignal id h := by
    obtain ⟨os, hmem⟩ := h
    cases hmem
  ownFailure id r data isLast h := by simp [observed] at h
  pipeDown r h := by simp [observed] at h

section

variable {t : Trace} {e : Action × List Obs} {a : Action} {os : List Obs} {s s' : Provider}

theorem Took.mono (h : Took t a) : Took (t ++ [e]) a := by
  obtain ⟨os, hmem⟩ := h
  exact ⟨os, List.mem_append_left _ hmem⟩

theorem took_snoc {a' : Action} : Took (t ++ [(a, os)]) a' ↔ Took t a' ∨ a' = a := by
  constructor
  · rintro ⟨os', hmem⟩
    rcases List.mem_append.mp hmem with hmem | hmem
    · exact Or.inl ⟨os', hmem⟩
    · rw [List.mem_singleton] at hmem
      cases hmem
      exact Or.inr rfl
  · rintro (h | rfl)
    · exact h.mono
    · exact ⟨os, List.mem_append_right _ (List.mem_singleton_self _)⟩

theorem mem_observed_snoc {o : Obs} :
    o ∈ observed (t ++ [(a, os)]) ↔ o ∈ observed t ∨ o ∈ os := by
  rw [observed_append, observed_singleton, List.mem_append]

theorem FailedAlone.mono {id : SlotId} {r : Request} (h : FailedAlone t id r) :
    FailedAlone (t ++ [(a, os)]) id r := by
  rcases h with hsend | hexpired | ⟨chunk, hmem, hkey, herror⟩
  · exact Or.inl hsend.mono
  · exact Or.inr (Or.inl hexpired.mono)
  · exact Or.inr (Or.inr ⟨chunk, mem_observed_snoc.mpr (Or.inl hmem), hkey, herror⟩)

/-- **An answer stays** in its slot. -/
theorem Step.answered (hstep : Step s a s' os) (hs : WellFormed s) {id : SlotId}
    (h : Answered s id) : Answered s' id := by
  obtain ⟨hcall, hslot⟩ := h
  have hmoved : ∀ {j : SlotId} {c : Call},
      Function.update s.calls j (some c) id ≠ none := by
    intro j c
    by_cases hj : id = j
    · subst hj
      simp
    · rwa [Function.update_of_ne hj]
  cases hstep with
  | refused hcause => exact ⟨hcall, hslot⟩
  | entered hpos hclosed =>
      have hne : id ≠ s.nextSlot := by
        rintro rfl
        exact hcall (by simpa [view] using hs.fresh s.nextSlot (le_refl _))
      exact ⟨hmoved, by simpa [Function.update_of_ne hne] using hslot⟩
  | staged | sent | sendFailed | signalled | noticed | quit | expired | closed =>
      exact ⟨hmoved, hslot⟩
  | @detached j r _ hj | @finished j r _ hj =>
      refine ⟨hmoved, ?_⟩
      by_cases hne : id = j
      · subst hne
        simpa using hslot
      · simpa [Function.update_of_ne hne] using hslot
  | pumped | dropped | gaveUp | read | set => exact ⟨hcall, hslot⟩
  | @filled chunk j rest hqueue =>
      refine ⟨hcall, ?_⟩
      by_cases hne : id = j
      · subst hne
        simp [fill]
      · simpa [Function.update_of_ne hne] using hslot
  | cancelled =>
      refine ⟨hcall, ?_⟩
      simp only [cancelAll]
      split
      · exact Or.inr rfl
      · exact hslot

/-- Every signal answers a call. -/
theorem Step.signals (hstep : Step s a s' os) (hs : WellFormed s)
    (h : ∀ g ∈ s.signals, Answered s g.slot) : ∀ g ∈ s'.signals, Answered s' g.slot := by
  have hold : ∀ g ∈ s.signals, Answered s' g.slot := fun g hg => hstep.answered hs (h g hg)
  cases hstep with
  | refused | entered | staged | sent | sendFailed | signalled | noticed | pumped | quit
  | expired | detached | closed | finished | dropped => exact hold
  | @filled chunk id rest hqueue =>
      intro g hg
      rcases List.mem_append.mp hg with hg | hg
      · exact hold g hg
      · obtain rfl := List.mem_singleton.mp hg
        obtain ⟨r, hview, -⟩ := (hs.queued (replyKey chunk) id).mp (by simp [hqueue])
        refine ⟨?_, Or.inl (by simp [fill])⟩
        intro hnone
        rw [view, hnone] at hview
        cases hview
  | cancelled =>
      intro g hg
      rcases List.mem_append.mp hg with hg | hg
      · exact hold g hg
      · obtain ⟨j, hj, rfl⟩ := List.mem_map.mp hg
        have hmem := (List.mem_filter.mp hj).1
        have hheld := hs.held_of_queued hmem
        refine ⟨?_, Or.inr (by simp [cancelAll, hmem])⟩
        intro hnone
        have hcall : s.calls j = none := hnone
        rw [held_of_no_call hcall] at hheld
        cases hheld
  | gaveUp => exact fun g hg => hold g (List.mem_of_mem_eraseIdx hg)
  | @read n id hn hevent =>
      intro g hg
      rcases List.mem_or_eq_of_mem_set hg with hg | rfl
      · exact hold g hg
      · exact hold ⟨id, none⟩ (List.mem_of_getElem? hn)
  | set => exact fun g hg => hold g (List.mem_of_mem_eraseIdx hg)

/-- An event becomes set only by a signal for the slot that holds it. -/
theorem EventChange.set_cases (hchange : EventChange s s' a os) {id : SlotId} {handle : Handle}
    (hheld' : held s' id = some handle) (hset : s'.events handle = some true) :
    held s id = some handle ∧
      (s.events handle = some true ∨
        ∃ j, os = [.setEvent j handle] ∧ ⟨j, some handle⟩ ∈ s.signals) := by
  cases hchange with
  | same hheld hevents =>
      rw [hheld] at hheld'
      rw [hevents] at hset
      exact ⟨hheld', Or.inl hset⟩
  | @opened j new hpos hclosed hnone hheld hevents hsignals =>
      have hne : handle ≠ new := by
        rintro rfl
        simp [hevents] at hset
      rw [hevents, Function.update_of_ne hne] at hset
      have hid : id ≠ j := by
        rintro rfl
        rw [hheld, Function.update_self] at hheld'
        exact hne (Option.some.inj hheld').symm
      rw [hheld, Function.update_of_ne hid] at hheld'
      exact ⟨hheld', Or.inl hset⟩
  | @closed j old hj hact hheld hevents hsignals =>
      have hne : handle ≠ old := by
        rintro rfl
        simp [hevents] at hset
      rw [hevents, Function.update_of_ne hne] at hset
      have hid : id ≠ j := by
        rintro rfl
        rw [hheld, Function.update_self] at hheld'
        cases hheld'
      rw [hheld, Function.update_of_ne hid] at hheld'
      exact ⟨hheld', Or.inl hset⟩
  | @reset old hheld hevents =>
      have hne : handle ≠ old := by
        rintro rfl
        simp [hevents] at hset
      rw [hheld] at hheld'
      rw [hevents, Function.update_of_ne hne] at hset
      exact ⟨hheld', Or.inl hset⟩
  | @set j new hos hsignal hheld hevents =>
      rw [hheld] at hheld'
      refine ⟨hheld', ?_⟩
      by_cases hne : handle = new
      · subst hne
        exact Or.inr ⟨j, hos, hsignal⟩
      · rw [hevents, Function.update_of_ne hne] at hset
        exact Or.inl hset

theorem Causes.set_step (hc : Causes t s) (hstep : Step s a s' os) (hs : WellFormed s)
    (hh : Handles s) {id : SlotId} {handle : Handle} (hheld' : held s' id = some handle)
    (hset : s'.events handle = some true) :
    Answered s' id ∧ .setEvent id handle ∈ observed (t ++ [(a, os)]) := by
  obtain ⟨hheld, hold | ⟨j, rfl, hsignal⟩⟩ := (hstep.eventChange hs).set_cases hheld' hset
  · obtain ⟨hanswered, hmem⟩ := hc.set id handle hheld hold
    exact ⟨hstep.answered hs hanswered, mem_observed_snoc.mpr (Or.inl hmem)⟩
  · have hj := hh.collected j handle hsignal
    obtain rfl := hh.distinct id j handle hheld hj
    exact ⟨hstep.answered hs (hc.signals _ hsignal), mem_observed_snoc.mpr (Or.inr (by simp))⟩

/-- A call that is awake has been answered or has waited in vain. -/
theorem Causes.woken_step (hc : Causes t s) (hstep : Step s a s' os) (hs : WellFormed s)
    {id : SlotId} {r : Request} (hcall' : s'.calls id = some ⟨r, .woken false⟩) :
    Answered s' id ∨ Took (t ++ [(a, os)]) (.wait id .expired) := by
  rcases hstep.woken hcall' with hbefore | ⟨wake, rfl, hcall, hquit, hset, hslot⟩
  · rcases hc.woken id r hbefore with hanswered | hexpired
    · exact Or.inl (hstep.answered hs hanswered)
    · exact Or.inr hexpired.mono
  · cases wake with
    | signalled =>
        obtain ⟨hanswered, -⟩ := hc.set id _ (held_of_call hcall) (hset rfl)
        exact Or.inl (hstep.answered hs hanswered)
    | pumped =>
        have hanswered : Answered s id := ⟨by simp [hcall], (hslot rfl).symm⟩
        exact Or.inl (hstep.answered hs hanswered)
    | quit => exact absurd (hquit.mpr rfl) (by simp)
    | expired => exact Or.inr (took_snoc.mpr (Or.inr rfl))

/-- A call that has detached took an answer with it, or has waited in vain, or
has seen `WM_QUIT`. -/
theorem Causes.holding_step (hc : Causes t s) (hstep : Step s a s' os) {id : SlotId}
    {r : Request} {o : Outcome} (hview : view s' id = some (r, .holding o))
    (hquit : o.gotQuit = false) :
    o.received = true ∨ o.canceled = true ∨ Took (t ++ [(a, os)]) (.wait id .expired) := by
  rcases hstep.holding hview with hbefore | ⟨gotQuit, hcall, rfl⟩
  · rcases hc.holding id r o hbefore hquit with hreceived | hcanceled | hexpired
    · exact Or.inl hreceived
    · exact Or.inr (Or.inl hcanceled)
    · exact Or.inr (Or.inr hexpired.mono)
  · obtain rfl : gotQuit = false := hquit
    rcases hc.woken id r hcall with ⟨-, hreceived | hcancelled⟩ | hexpired
    · exact Or.inl hreceived
    · exact Or.inr (Or.inl hcancelled)
    · exact Or.inr (Or.inr hexpired.mono)

/-- A failure with a detached outcome that is not a lone wait is an error in
the reply. -/
theorem Outcome.of_result_eFail {o : Outcome} (h : o.result = .eFail) :
    o.gotQuit = false ∧ (o.received = false ∧ o.canceled = false ∨
      o.received = true ∧ o.error ≠ []) := by
  unfold Outcome.result at h
  split at h
  · cases h
  · rename_i hquit
    refine ⟨by simpa using hquit, ?_⟩
    split at h
    · cases h
    · rename_i hcanceled
      split at h
      · rename_i hreceived
        refine Or.inl ⟨by simpa using hreceived, ?_⟩
        simpa [hreceived] using hcanceled
      · rename_i hreceived
        split at h
        · rename_i herror
          exact Or.inr ⟨by simpa using hreceived, herror⟩
        · cases h

/-- The error that a call took with it came in a reply to it. -/
theorem error_of_holding {h : List Obs} (hp : Provenance h s) {id : SlotId} {r : Request}
    {o : Outcome} (hview : view s id = some (r, .holding o)) (hreceived : o.received = true)
    (herror : o.error ≠ []) :
    ∃ chunk, .delivered chunk (some id) ∈ h ∧ replyKey chunk = r.key ∧ chunk.error ≠ [] := by
  have hstored := hp.holding id r o hview
  cases hlast : (repliesInto id h).getLast? with
  | none =>
      rw [hlast, Outcome.stored, replyOf] at hstored
      simp only [Stored.mk.injEq] at hstored
      rw [hreceived] at hstored
      cases hstored.1
  | some chunk =>
      rw [hlast, Outcome.stored, replyOf] at hstored
      simp only [Stored.mk.injEq] at hstored
      have hmem : chunk ∈ repliesInto id h := List.mem_of_getLast? hlast
      refine ⟨chunk, ?_, hp.key id r _ chunk hview hmem, hstored.2.2.2 ▸ herror⟩
      obtain ⟨⟨j, c⟩, hfill, rfl⟩ := List.mem_map.mp hmem
      obtain ⟨hfills, hj⟩ := List.mem_filter.mp hfill
      obtain ⟨o', ho', hfill'⟩ := List.mem_filterMap.mp hfills
      cases o' with
      | delivered chunk' slot =>
          cases slot with
          | none => simp [Obs.fill?] at hfill'
          | some j' =>
              simp only [Obs.fill?, Option.some.injEq, Prod.mk.injEq] at hfill'
              obtain ⟨rfl, rfl⟩ := hfill'
              have hid : j' = id := by simpa using hj
              rwa [← hid]
      | _ => simp [Obs.fill?] at hfill'

/-- A call that fails at a step has a reason of its own. -/
theorem Causes.ownFailure_step (hc : Causes t s) (hp : Provenance (observed t) s)
    (hstep : Step s a s' os) {id : SlotId} {r : Request} {data : Bytes} {isLast : Bool}
    (hmem : .returned id r .eFail data isLast ∈ os) : FailedAlone (t ++ [(a, os)]) id r := by
  cases hstep with
  | sendFailed hcall =>
      simp only [List.mem_cons, reduceCtorEq, false_or, Obs.returned.injEq, List.not_mem_nil,
        or_false] at hmem
      obtain ⟨rfl, rfl, -⟩ := hmem
      exact Or.inl (took_snoc.mpr (Or.inr rfl))
  | @finished j r' o hcall =>
      simp only [List.mem_singleton, Obs.returned.injEq] at hmem
      obtain ⟨rfl, rfl, hresult, -⟩ := hmem
      have hview : view s id = some (r, .holding o) := by simp [view, hcall, Progress.phase]
      obtain ⟨hquit, ⟨hreceived, hcanceled⟩ | ⟨hreceived, herror⟩⟩ :=
        Outcome.of_result_eFail hresult.symm
      · rcases hc.holding id r o hview hquit with h | h | hexpired
        · rw [hreceived] at h
          cases h
        · rw [hcanceled] at h
          cases h
        · exact Or.inr (Or.inl hexpired.mono)
      · obtain ⟨chunk, hdelivered, hkey, hne⟩ := error_of_holding hp hview hreceived herror
        exact Or.inr (Or.inr
          ⟨chunk, mem_observed_snoc.mpr (Or.inl hdelivered), hkey, hne⟩)
  | refused | entered | staged | sent | signalled | noticed | pumped | quit | expired | detached
  | closed | dropped | filled | cancelled | gaveUp | read | set => simp at hmem

/-- A wake-up follows a signal for the slot itself. -/
theorem Causes.ownSignal_step (hc : Causes t s) (hstep : Step s a s' os) {id : SlotId}
    (htook : Took (t ++ [(a, os)]) (.wait id .signalled)) :
    ∃ handle, .setEvent id handle ∈ observed (t ++ [(a, os)]) := by
  rcases took_snoc.mp htook with hbefore | rfl
  · obtain ⟨handle, hmem⟩ := hc.ownSignal id hbefore
    exact ⟨handle, mem_observed_snoc.mpr (Or.inl hmem)⟩
  · cases hstep with
    | signalled hcall hset =>
        obtain ⟨-, hmem⟩ := hc.set id _ (held_of_call hcall) hset
        exact ⟨_, mem_observed_snoc.mpr (Or.inl hmem)⟩

/-- A call is turned away with `E_FAIL` only if there is no pipe. -/
theorem Step.pipeDown (hstep : Step s a s' os) (hguard : Settled s a) {r : Request}
    (hmem : .refused r .eFail ∈ os) : s.pipe = false := by
  cases hstep with
  | refused hcause =>
      simp only [List.mem_singleton, Obs.refused.injEq] at hmem
      obtain ⟨rfl, rfl⟩ := hmem
      rcases hcause rfl with hpipe | ⟨hevent, -, ht, hf⟩
      · exact hpipe
      · rcases hguard hevent with hpipe | hnil | hnil
        · exact hpipe
        · exact absurd hnil ht
        · exact absurd hnil hf
  | sendFailed | finished | entered | staged | sent | signalled | noticed | pumped | quit
  | expired | detached | closed | dropped | filled | cancelled | gaveUp | read | set =>
      simp at hmem

theorem Step.pipe (hstep : Step s a s' os) : s'.pipe = s.pipe := by
  cases hstep <;> rfl

/-- **Every signal and every failure has a cause**, after every settled
step. -/
theorem Causes.step (hc : Causes t s) (hstep : Step s a s' os) (hguard : Settled s a)
    (hs : WellFormed s) (hp : Provenance (observed t) s) (hh : Handles s) :
    Causes (t ++ [(a, os)]) s' where
  signals := hstep.signals hs hc.signals
  set _ _ := hc.set_step hstep hs hh
  woken _ _ := hc.woken_step hstep hs
  holding _ _ _ := hc.holding_step hstep
  ownSignal _ := hc.ownSignal_step hstep
  ownFailure id r data isLast hmem := by
    rcases mem_observed_snoc.mp hmem with hbefore | hnow
    · exact (hc.ownFailure id r data isLast hbefore).mono
    · exact hc.ownFailure_step hp hstep hnow
  pipeDown r hmem := by
    rw [hstep.pipe]
    rcases mem_observed_snoc.mp hmem with hbefore | hnow
    · exact hc.pipeDown r hbefore
    · exact hstep.pipeDown hguard hnow

end

theorem run_causes {pipe : Bool} {t : Trace} {s : Provider}
    (hrun : Run machine.traced Settled (initial pipe) t s) :
    WellFormed s ∧ Provenance (observed t) s ∧ Handles s ∧ Causes t s := by
  refine hrun.history_invariant
    (fun t s => WellFormed s ∧ Provenance (observed t) s ∧ Handles s ∧ Causes t s) ?_ ?_
  · exact ⟨wellFormed_initial pipe, provenance_initial pipe, handles_initial pipe,
      causes_initial pipe⟩
  · rintro t s a s' es ⟨hs, hp, hh, hc⟩ hguard htraced
    obtain ⟨os, hmachine, rfl⟩ := step_of_traced htraced
    have hchange := step_change hmachine
    have hstep := step_cases hmachine
    refine ⟨hchange.wellFormed hs, ?_, hstep.handles hguard hs hh,
      hc.step hstep hguard hs hp hh⟩
    rw [observed_append, observed_singleton]
    exact hchange.provenance hs hp

/-- **Signals reach their own slot.**  In every run whose steps are all
settled, each `SetEvent` is applied to an open handle that the slot it was
taken from holds, and no other; every call that was woken was signalled
itself; and `E_FAIL` is returned only without a pipe, after a failed send, a
wait that expired or failed, or a reply to this very call with an error. -/
theorem signals_reach_own_slot (pipe : Bool) :
    ∀ t s, Run machine.traced Settled (initial pipe) t s → Undisturbed t s := by
  intro t s hrun
  obtain ⟨-, -, hh, hc⟩ := run_causes hrun
  refine ⟨?_, hc.ownSignal, hc.ownFailure, hc.pipeDown⟩
  intro n s' id handle hsignal
  have hheld : held s id = some handle := by
    cases step_cases hsignal with
    | set hn => exact hh.collected id handle (List.mem_of_getElem? hn)
  exact ⟨(hh.opened id handle hheld).2, hheld, fun j hj => hh.distinct j id handle hj hheld⟩

/-- The test for a settled action. -/
def settledTest (s : Provider) : Action → Bool
  | .enter r event =>
    event.isSome || !s.pipe || decide (r.transferId = []) || decide (r.fileId = [])
  | .send id false | .closeHandle id =>
    s.signals.all (fun g => decide (g.slot ≠ id) || g.handle.isNone)
  | .signal n =>
    match s.signals[n]? with
    | some ⟨id, none⟩ => decide ((s.slots id).event = 0) || (held s id).isSome
    | _ => true
  | _ => true

theorem not_mem_of_all {signals : List Signal} {id : SlotId}
    (h : signals.all (fun g => decide (g.slot ≠ id) || g.handle.isNone) = true) :
    ∀ handle, ⟨id, some handle⟩ ∉ signals := by
  intro handle hmem
  have hg := List.all_eq_true.mp h _ hmem
  simp at hg

theorem settled_of_test (s : Provider) (a : Action) (h : settledTest s a = true) :
    Settled s a := by
  cases a with
  | enter r event =>
      rintro rfl
      simpa [settledTest, or_assoc] using h
  | send id ok =>
      cases ok with
      | true => trivial
      | false => exact not_mem_of_all h
  | closeHandle id => exact not_mem_of_all h
  | signal n =>
      intro id hn
      simp only [settledTest, hn, Bool.or_eq_true, decide_eq_true_eq] at h
      exact h.imp_right Option.isSome_iff_ne_none.mp
  | _ => trivial

/-- A reply with an error; its event is set while the call still waits. -/
theorem signals_reach_own_slot_error :
    ∃ t s, Run machine.traced Settled (initial true) t s ∧
      .returned 0 sampleRequest .eFail [] false ∈ observed t ∧ Undisturbed t s := by
  have hexec : (machine.traced.execIf settledTest (initial true)
      [.enter sampleRequest (some 5), .stage 0, .send 0 true,
        .deliver { sampleReply [] with error := [0x21] }, .signal 0, .signal 0,
        .wait 0 .signalled, .detach 0, .closeHandle 0, .finish 0]).map
        (fun r => decide (.returned 0 sampleRequest .eFail [] false ∈ observed r.2)) =
      some true := by
    decide
  obtain ⟨t, s, hrun, hreturned⟩ := Run.of_execIf_map settled_of_test hexec
  exact ⟨t, s, hrun, of_decide_eq_true hreturned, signals_reach_own_slot true t s hrun⟩

/-- **A reply wakes the next request.**  `DeliverChunk` has filled slot 0 and
read its handle, 5; before `SetEvent` the waiting call notices the reply
through the pump, detaches, closes the handle and returns.  The next
`FetchChunk` is given the number 5 for its own event and waits.  The late
`SetEvent` hits it: it wakes without a reply and returns `E_FAIL`, although
its send succeeded, nothing timed out and no reply to it came. -/
theorem reply_wakes_next_request :
    (∃ t s, Run machine.traced always (initial true) t s ∧ held s 0 = none ∧
      held s 1 = some 5 ∧ ∃ s', machine.step s (.signal 0) = some (s', [.setEvent 0 5])) ∧
    ∃ t s, Run machine.traced always (initial true) t s ∧ Took t (.wait 1 .signalled) ∧
      (∀ handle, .setEvent 1 handle ∉ observed t) ∧
      .returned 1 sampleRequest .eFail [] false ∈ observed t ∧
      ¬ FailedAlone t 1 sampleRequest := by
  have hfirst : (machine.traced.exec (initial true)
      [.enter sampleRequest (some 5), .stage 0, .send 0 true, .deliver (sampleReply [1]),
        .signal 0, .wait 0 .pumped, .detach 0, .closeHandle 0, .finish 0,
        .enter sampleRequest (some 5), .stage 1, .send 1 true]).map
        (fun r => (held r.1 0, held r.1 1, (signal r.1 0).map Prod.snd)) =
      some (none, some 5, some [.setEvent 0 5]) := by
    decide
  have hsecond : (machine.traced.exec (initial true)
      [.enter sampleRequest (some 5), .stage 0, .send 0 true, .deliver (sampleReply [1]),
        .signal 0, .wait 0 .pumped, .detach 0, .closeHandle 0, .finish 0,
        .enter sampleRequest (some 5), .stage 1, .send 1 true, .signal 0, .wait 1 .signalled,
        .detach 1, .closeHandle 1, .finish 1]).map (fun r => r.2) =
      some [(.enter sampleRequest (some 5), []), (.stage 0, [.staged 0 sampleRequest]),
        (.send 0 true, [.sent 0 sampleRequest]),
        (.deliver (sampleReply [1]), [.delivered (sampleReply [1]) (some 0)]), (.signal 0, []),
        (.wait 0 .pumped, []), (.detach 0, [.withdrawn 0 sampleRequest.key true]),
        (.closeHandle 0, []), (.finish 0, [.returned 0 sampleRequest .sOk [1] false]),
        (.enter sampleRequest (some 5), []), (.stage 1, [.staged 1 sampleRequest]),
        (.send 1 true, [.sent 1 sampleRequest]), (.signal 0, [.setEvent 0 5]),
        (.wait 1 .signalled, []), (.detach 1, [.withdrawn 1 sampleRequest.key false]),
        (.closeHandle 1, []), (.finish 1, [.returned 1 sampleRequest .eFail [] false])] := by
    decide
  constructor
  · obtain ⟨t, s, hrun, hstate⟩ := Run.of_exec_map hfirst
    simp only [Prod.mk.injEq] at hstate
    obtain ⟨hzero, hone, hsignal⟩ := hstate
    obtain ⟨⟨s', os⟩, hstep, rfl⟩ := Option.map_eq_some_iff.mp hsignal
    exact ⟨t, s, hrun, hzero, hone, s', hstep⟩
  · obtain ⟨t, s, hrun, htrace⟩ := Run.of_exec_map hsecond
    simp only at htrace
    subst htrace
    refine ⟨_, s, hrun, ⟨[], by simp⟩, ?_, by simp [observed], ?_⟩
    · intro handle
      simp [observed]
    · simp [FailedAlone, Took, observed]

end DispatcherChunkProvider
