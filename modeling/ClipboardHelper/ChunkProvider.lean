import ClipboardHelper.Library.Machine
import ClipboardHelper.DispatchCodec

/-!
# The chunk provider of the Windows helper

`DispatcherChunkProvider` of `dispatch.cpp`: the bridge between the STA
thread, on which `FetchChunk` waits for file bytes, and the pipe thread, on
which `DeliverChunk` brings them.  A waiting request is a heap object
(`PendingChunk`, reached by its `SlotId`), queued in `pending_` under a key
made of `transfer_id`, `file_id` and `offset`.

The provider is a machine.  One action is one stretch of code between two
points where other threads, or a call nested in the message pump, can get in:
everything done under `mu_` is one step, every `SetEvent` and every
`CloseHandle` is a step of its own.  Any call may take its next step at any
time, which covers every interleaving of the two threads and every nesting
of calls in the pump.

Event handles are numbers that the system hands out; a closed number may be
handed out again.
-/

namespace DispatcherChunkProvider

open Library DispatchCodec

/-! ## Keys -/

/-- The separator of `MakeKey`, `'|'`. -/
def separator : UInt8 := 0x7C

/-- `MakeKey`: `"<transfer_id>|<file_id>|<decimal-offset>"`. -/
def makeKey (transferId fileId : Bytes) (offset : UInt64) : Bytes :=
  transferId ++ separator :: (fileId ++ separator :: decimal offset.toNat)

/-! ## State -/

/-- An event handle; `0` is `nullptr`. -/
abbrev Handle := Nat

/-- The identity of a `PendingChunk` (its `shared_ptr`). -/
abbrev SlotId := Nat

structure PendingChunk where
  event : Handle := 0
  data : Bytes := []
  isLast : Bool := false
  error : Bytes := []
  received : Bool := false
  cancelled : Bool := false
deriving DecidableEq, Repr

inductive HResult
  | sOk | eFail | eInvalidArg | eAbort | stgEReverted
deriving DecidableEq, Repr

/-- The arguments of one `FetchChunk`. -/
structure Request where
  transferId : Bytes
  fileId : Bytes
  offset : UInt64
  size : UInt32
deriving DecidableEq, Repr

def Request.key (r : Request) : Bytes := makeKey r.transferId r.fileId r.offset

/-- What `FetchChunk` copies out of its slot under the lock. -/
structure Outcome where
  gotQuit : Bool
  received : Bool
  canceled : Bool
  data : Bytes
  isLast : Bool
  error : Bytes
deriving DecidableEq, Repr

/-- The `return` statements at the end of `FetchChunk`. -/
def Outcome.result (o : Outcome) : HResult :=
  if o.gotQuit then .eAbort
  else if o.canceled && !o.received then .stgEReverted
  else if !o.received then .eFail
  else if o.error ≠ [] then .eFail
  else .sOk

/-- `out_data` and `out_is_last`, which stay cleared unless the call
succeeds. -/
def Outcome.outData (o : Outcome) : Bytes := if o.result = .sOk then o.data else []
def Outcome.outIsLast (o : Outcome) : Bool := if o.result = .sOk then o.isLast else false

/-- How far a `FetchChunk` call has come. -/
inductive Progress
  | created
  | staged
  | waiting
  | woken (gotQuit : Bool)
  | detached (outcome : Outcome)
  | closed (outcome : Outcome)
  | returned
deriving DecidableEq, Repr

/-- Between staging and detaching the slot is in `pending_`. -/
def Progress.inQueue : Progress → Bool
  | .staged | .waiting | .woken _ => true
  | _ => false

structure Call where
  request : Request
  progress : Progress
deriving DecidableEq, Repr

/-- A `SetEvent` that some thread is about to make: for `DeliverChunk` the
handle has yet to be read from the slot, for `CancelAll` it was collected
under the lock. -/
structure Signal where
  slot : SlotId
  handle : Option Handle
deriving DecidableEq, Repr

/-- `pending_`: queues by key. -/
abbrev Pending := AList (fun _ : Bytes => List SlotId)

structure Provider where
  pipe : Bool := true
  pending : Pending := ∅
  slots : SlotId → PendingChunk := fun _ => {}
  calls : SlotId → Option Call := fun _ => none
  nextSlot : SlotId := 0
  events : Handle → Option Bool := fun _ => none
  signals : List Signal := []

/-! ## The map of queues -/

/-- The queue of a key; an absent key has an empty one. -/
def queue (pending : Pending) (key : Bytes) : List SlotId := (pending.lookup key).getD []

/-- `pending_[key].push_back(slot)`. -/
def pushBack (pending : Pending) (key : Bytes) (slot : SlotId) : Pending :=
  pending.insert key (queue pending key ++ [slot])

/-- `EraseFromQueueLocked`. -/
def eraseFromQueueLocked (pending : Pending) (key : Bytes) (slot : SlotId) : Pending :=
  match pending.lookup key with
  | none => pending
  | some q =>
    if q.erase slot = [] then pending.erase key else pending.insert key (q.erase slot)

@[simp]
theorem queue_pushBack (pending : Pending) (key key' : Bytes) (slot : SlotId) :
    queue (pushBack pending key slot) key' =
      if key' = key then queue pending key ++ [slot] else queue pending key' := by
  unfold pushBack queue
  split
  · rename_i h
    rw [h, AList.lookup_insert, Option.getD_some]
  · rename_i h
    rw [AList.lookup_insert_ne h]

@[simp]
theorem queue_eraseFromQueueLocked (pending : Pending) (key key' : Bytes) (slot : SlotId) :
    queue (eraseFromQueueLocked pending key slot) key' =
      if key' = key then (queue pending key).erase slot else queue pending key' := by
  cases hq : pending.lookup key with
  | none =>
      have hsame : eraseFromQueueLocked pending key slot = pending := by
        rw [eraseFromQueueLocked, hq]
      have hnil : queue pending key = [] := by rw [queue, hq, Option.getD_none]
      by_cases hkey : key' = key
      · rw [if_pos hkey, hsame, hkey, hnil, List.erase_nil]
      · rw [if_neg hkey, hsame]
  | some q =>
      have hsome : queue pending key = q := by rw [queue, hq, Option.getD_some]
      rw [eraseFromQueueLocked, hq, hsome]
      by_cases hempty : q.erase slot = []
      · simp only [if_pos hempty]
        by_cases hkey : key' = key
        · rw [if_pos hkey, queue, hkey, AList.lookup_erase, Option.getD_none, hempty]
        · rw [if_neg hkey, queue, AList.lookup_erase_ne hkey, queue]
      · simp only [if_neg hempty]
        by_cases hkey : key' = key
        · rw [if_pos hkey, queue, hkey, AList.lookup_insert, Option.getD_some]
        · rw [if_neg hkey, queue, AList.lookup_insert_ne hkey, queue]

/-! ## Steps -/

/-- Why `MsgWaitForMultipleObjects` returned: the event was signalled, the
pump ran, the pump saw `WM_QUIT`, or the wait timed out or failed. -/
inductive Wake
  | signalled | pumped | quit | expired
deriving DecidableEq, Repr

inductive Obs
  | refused (r : Request) (hr : HResult)
  | staged (id : SlotId) (r : Request)
  | sent (id : SlotId) (r : Request)
  | delivered (chunk : ParsedFileChunkData) (slot : Option SlotId)
  | cancelled (ids : List SlotId)
  | setEvent (slot : SlotId) (handle : Handle)
  | withdrawn (id : SlotId) (key : Bytes) (received : Bool)
  | returned (id : SlotId) (r : Request) (hr : HResult) (data : Bytes) (isLast : Bool)
deriving DecidableEq, Repr

/-- `FetchChunk` up to `CreateEventW`, whose handle the system chooses: never
null and never one that is open. -/
def enter (s : Provider) (r : Request) (event : Option Handle) :
    Option (Provider × List Obs) :=
  if !s.pipe then some (s, [.refused r .eFail])
  else if r.transferId = [] ∨ r.fileId = [] then some (s, [.refused r .eInvalidArg])
  else
    match event with
    | none => some (s, [.refused r .eFail])
    | some handle =>
      if handle = 0 ∨ s.events handle ≠ none then none
      else some
        ({ s with
            slots := Function.update s.slots s.nextSlot { event := handle }
            calls := Function.update s.calls s.nextSlot (some ⟨r, .created⟩)
            nextSlot := s.nextSlot + 1
            events := Function.update s.events handle (some false) }, [])

/-- Staging in the per-key queue, under the lock. -/
def stage (s : Provider) (id : SlotId) : Option (Provider × List Obs) :=
  match s.calls id with
  | some ⟨r, .created⟩ => some
      ({ s with
          pending := pushBack s.pending r.key id
          calls := Function.update s.calls id (some ⟨r, .staged⟩) }, [.staged id r])
  | _ => none

/-- `SendFrame`; on failure the slot is withdrawn and its handle closed, and
`slot->event` keeps the closed handle. -/
def send (s : Provider) (id : SlotId) (ok : Bool) : Option (Provider × List Obs) :=
  match s.calls id with
  | some ⟨r, .staged⟩ =>
    if ok then some
      ({ s with calls := Function.update s.calls id (some ⟨r, .waiting⟩) }, [.sent id r])
    else some
      ({ s with
          pending := eraseFromQueueLocked s.pending r.key id
          calls := Function.update s.calls id (some ⟨r, .returned⟩)
          events := Function.update s.events (s.slots id).event none },
        [.withdrawn id r.key (s.slots id).received, .returned id r .eFail [] false])
  | _ => none

/-- One round of the wait loop. -/
def wait (s : Provider) (id : SlotId) (wake : Wake) : Option (Provider × List Obs) :=
  match s.calls id with
  | some ⟨r, .waiting⟩ =>
    match wake with
    | .signalled =>
      if s.events (s.slots id).event = some true then some
        ({ s with
            calls := Function.update s.calls id (some ⟨r, .woken false⟩)
            events := Function.update s.events (s.slots id).event (some false) }, [])
      else none
    | .pumped =>
      if (s.slots id).cancelled || (s.slots id).received then some
        ({ s with calls := Function.update s.calls id (some ⟨r, .woken false⟩) }, [])
      else some (s, [])
    | .quit => some
        ({ s with calls := Function.update s.calls id (some ⟨r, .woken true⟩) }, [])
    | .expired => some
        ({ s with calls := Function.update s.calls id (some ⟨r, .woken false⟩) }, [])
  | _ => none

/-- What the detaching block reads from the slot. -/
def outcomeOf (slot : PendingChunk) (gotQuit : Bool) : Outcome :=
  { gotQuit := gotQuit, received := slot.received, canceled := slot.cancelled,
    data := slot.data, isLast := slot.isLast, error := slot.error }

/-- Detaching the slot, under the lock; the bytes are moved out of it. -/
def detach (s : Provider) (id : SlotId) : Option (Provider × List Obs) :=
  match s.calls id with
  | some ⟨r, .woken gotQuit⟩ => some
      ({ s with
          pending := eraseFromQueueLocked s.pending r.key id
          slots := Function.update s.slots id { s.slots id with data := [], error := [] }
          calls := Function.update s.calls id
            (some ⟨r, .detached (outcomeOf (s.slots id) gotQuit)⟩) },
        [.withdrawn id r.key (s.slots id).received])
  | _ => none

/-- `CloseHandle(slot->event)`. -/
def closeHandle (s : Provider) (id : SlotId) : Option (Provider × List Obs) :=
  match s.calls id with
  | some ⟨r, .detached o⟩ => some
      ({ s with
          calls := Function.update s.calls id (some ⟨r, .closed o⟩)
          events := Function.update s.events (s.slots id).event none }, [])
  | _ => none

/-- `slot->event = nullptr` and the `return`. -/
def finish (s : Provider) (id : SlotId) : Option (Provider × List Obs) :=
  match s.calls id with
  | some ⟨r, .closed o⟩ => some
      ({ s with
          slots := Function.update s.slots id { s.slots id with event := 0 }
          calls := Function.update s.calls id (some ⟨r, .returned⟩) },
        [.returned id r o.result o.outData o.outIsLast])
  | _ => none

/-- The key of a reply. -/
def replyKey (chunk : ParsedFileChunkData) : Bytes :=
  makeKey chunk.transferId chunk.fileId chunk.offset

/-- What `DeliverChunk` stores in a slot. -/
def fill (slot : PendingChunk) (chunk : ParsedFileChunkData) : PendingChunk :=
  { slot with
      data := chunk.data, isLast := chunk.isLast, error := chunk.error, received := true }

/-- `DeliverChunk` under the lock.  The slot at the front is filled, whether
or not it has been filled before, and it stays in the queue. -/
def deliverChunk (s : Provider) (chunk : ParsedFileChunkData) : Provider × List Obs :=
  match queue s.pending (replyKey chunk) with
  | [] => (s, [.delivered chunk none])
  | id :: _ =>
      ({ s with
          slots := Function.update s.slots id (fill (s.slots id) chunk)
          signals := s.signals ++ [⟨id, none⟩] }, [.delivered chunk (some id)])

/-- Every slot in `pending_`. -/
def queuedSlots (pending : Pending) : List SlotId := pending.entries.flatMap (fun e => e.2)

/-- `CancelAll` under the lock. -/
def cancelAll (s : Provider) : Provider × List Obs :=
  let ids := queuedSlots s.pending
  ({ s with
      slots := fun i => if i ∈ ids then { s.slots i with cancelled := true } else s.slots i
      signals := s.signals ++ (ids.filter (fun i => (s.slots i).event ≠ 0)).map
        (fun i => ⟨i, some (s.slots i).event⟩) }, [.cancelled ids])

/-- The next move of a pending `SetEvent`: `DeliverChunk` first reads
`slot->event` and gives up on null; then the event is set if it is open. -/
def signal (s : Provider) (n : Nat) : Option (Provider × List Obs) :=
  match s.signals[n]? with
  | none => none
  | some ⟨id, none⟩ =>
    if (s.slots id).event = 0 then some ({ s with signals := s.signals.eraseIdx n }, [])
    else some ({ s with signals := s.signals.set n ⟨id, some (s.slots id).event⟩ }, [])
  | some ⟨id, some handle⟩ => some
      ({ s with
          signals := s.signals.eraseIdx n
          events := Function.update s.events handle ((s.events handle).map fun _ => true) },
        [.setEvent id handle])

inductive Action
  | enter (r : Request) (event : Option Handle)
  | stage (id : SlotId)
  | send (id : SlotId) (ok : Bool)
  | wait (id : SlotId) (wake : Wake)
  | detach (id : SlotId)
  | closeHandle (id : SlotId)
  | finish (id : SlotId)
  | deliver (chunk : ParsedFileChunkData)
  | cancelAll
  | signal (n : Nat)

/-- **The provider**, under every interleaving of its callers. -/
def machine : Machine Provider Action Obs where
  step s
    | .enter r event => enter s r event
    | .stage id => stage s id
    | .send id ok => send s id ok
    | .wait id wake => wait s id wake
    | .detach id => detach s id
    | .closeHandle id => closeHandle s id
    | .finish id => finish s id
    | .deliver chunk => some (deliverChunk s chunk)
    | .cancelAll => some (cancelAll s)
    | .signal n => signal s n

/-- A provider before its first call. -/
def initial (pipe : Bool) : Provider := { pipe := pipe }

/-! ## What one step can change

Correlation does not depend on events and signals.  `view` and `stored` are
the rest of the state: where each request stands, and which reply its slot
holds.  `Change` lists what one step can do to them. -/

/-- Where a request stands, as far as its slot is concerned. -/
inductive Phase
  | created
  | queued
  | holding (outcome : Outcome)
  | returned
deriving DecidableEq

def Progress.phase : Progress → Phase
  | .created => .created
  | .staged | .waiting | .woken _ => .queued
  | .detached o | .closed o => .holding o
  | .returned => .returned

def view (s : Provider) (id : SlotId) : Option (Request × Phase) :=
  (s.calls id).map (fun c => (c.request, c.progress.phase))

/-- The reply in a slot. -/
structure Stored where
  received : Bool := false
  data : Bytes := []
  isLast : Bool := false
  error : Bytes := []
deriving DecidableEq

def stored (s : Provider) (id : SlotId) : Stored :=
  { received := (s.slots id).received, data := (s.slots id).data,
    isLast := (s.slots id).isLast, error := (s.slots id).error }

/-- The observations that say nothing about slots and replies. -/
def Obs.silent : Obs → Bool
  | .refused .. | .sent .. | .cancelled .. | .setEvent .. => true
  | _ => false

/-- What one step can do to requests and replies. -/
inductive Change (s s' : Provider) : List Obs → Prop
  | quiet {os : List Obs} (hpending : s'.pending = s.pending) (hnext : s'.nextSlot = s.nextSlot)
      (hview : view s' = view s) (hstored : stored s' = stored s)
      (hos : ∀ o ∈ os, o.silent = true) : Change s s' os
  | entered {r : Request} (hpending : s'.pending = s.pending)
      (hnext : s'.nextSlot = s.nextSlot + 1)
      (hview : view s' = Function.update (view s) s.nextSlot (some (r, .created)))
      (hstored : stored s' = Function.update (stored s) s.nextSlot {}) : Change s s' []
  | staged {id : SlotId} {r : Request} (hcall : view s id = some (r, .created))
      (hpending : s'.pending = pushBack s.pending r.key id) (hnext : s'.nextSlot = s.nextSlot)
      (hview : view s' = Function.update (view s) id (some (r, .queued)))
      (hstored : stored s' = stored s) : Change s s' [.staged id r]
  | abandoned {id : SlotId} {r : Request} (hcall : view s id = some (r, .queued))
      (hpending : s'.pending = eraseFromQueueLocked s.pending r.key id)
      (hnext : s'.nextSlot = s.nextSlot)
      (hview : view s' = Function.update (view s) id (some (r, .returned)))
      (hstored : stored s' = stored s) :
      Change s s' [.withdrawn id r.key (stored s id).received, .returned id r .eFail [] false]
  | detached {id : SlotId} {r : Request} {o : Outcome}
      (hcall : view s id = some (r, .queued))
      (hpending : s'.pending = eraseFromQueueLocked s.pending r.key id)
      (hnext : s'.nextSlot = s.nextSlot)
      (hview : view s' = Function.update (view s) id (some (r, .holding o)))
      (hstored : stored s' =
        Function.update (stored s) id { stored s id with data := [], error := [] })
      (houtcome : stored s id =
        { received := o.received, data := o.data, isLast := o.isLast, error := o.error }) :
      Change s s' [.withdrawn id r.key (stored s id).received]
  | finished {id : SlotId} {r : Request} {o : Outcome}
      (hcall : view s id = some (r, .holding o)) (hpending : s'.pending = s.pending)
      (hnext : s'.nextSlot = s.nextSlot)
      (hview : view s' = Function.update (view s) id (some (r, .returned)))
      (hstored : stored s' = stored s) :
      Change s s' [.returned id r o.result o.outData o.outIsLast]
  | dropped {chunk : ParsedFileChunkData} (hqueue : queue s.pending (replyKey chunk) = [])
      (hsame : s' = s) : Change s s' [.delivered chunk none]
  | filled {chunk : ParsedFileChunkData} {id : SlotId} {rest : List SlotId}
      (hqueue : queue s.pending (replyKey chunk) = id :: rest) (hpending : s'.pending = s.pending)
      (hnext : s'.nextSlot = s.nextSlot) (hview : view s' = view s)
      (hstored : stored s' = Function.update (stored s) id
        { received := true, data := chunk.data, isLast := chunk.isLast, error := chunk.error }) :
      Change s s' [.delivered chunk (some id)]

/-- Moving one call on. -/
theorem view_update {s s' : Provider} {id : SlotId} {r : Request} {p : Progress} {phase : Phase}
    (hcalls : s'.calls = Function.update s.calls id (some ⟨r, p⟩)) (hphase : p.phase = phase) :
    view s' = Function.update (view s) id (some (r, phase)) := by
  funext i
  by_cases hi : i = id
  · subst hi
    simp [view, hcalls, hphase]
  · simp [view, hcalls, Function.update_of_ne hi]

/-- A move inside one phase is not a change. -/
theorem view_same {s s' : Provider} {id : SlotId} {r : Request} {p p' : Progress}
    (hcall : s.calls id = some ⟨r, p⟩)
    (hcalls : s'.calls = Function.update s.calls id (some ⟨r, p'⟩))
    (hphase : p'.phase = p.phase) : view s' = view s := by
  rw [view_update hcalls hphase]
  apply Function.update_eq_self_iff.mpr
  simp [view, hcall]

theorem enter_change {s s' : Provider} {r : Request} {event : Option Handle} {os : List Obs}
    (h : enter s r event = some (s', os)) : Change s s' os := by
  unfold enter at h
  split at h
  · cases h
    exact .quiet rfl rfl rfl rfl (by simp [Obs.silent])
  · split at h
    · cases h
      exact .quiet rfl rfl rfl rfl (by simp [Obs.silent])
    · cases event with
      | none =>
          cases h
          exact .quiet rfl rfl rfl rfl (by simp [Obs.silent])
      | some handle =>
          simp only at h
          split at h
          · cases h
          · cases h
            refine .entered (r := r) rfl rfl (view_update rfl rfl) ?_
            funext i
            by_cases hi : i = s.nextSlot
            · subst hi
              simp [stored]
            · simp [stored, Function.update_of_ne hi]

theorem stage_change {s s' : Provider} {id : SlotId} {os : List Obs}
    (h : stage s id = some (s', os)) : Change s s' os := by
  unfold stage at h
  split at h
  · rename_i r hcall
    cases h
    exact .staged (by simp [view, hcall, Progress.phase]) rfl rfl (view_update rfl rfl) rfl
  · cases h

theorem send_change {s s' : Provider} {id : SlotId} {ok : Bool} {os : List Obs}
    (h : send s id ok = some (s', os)) : Change s s' os := by
  unfold send at h
  split at h
  · rename_i r hcall
    split at h
    · cases h
      exact .quiet rfl rfl (view_same hcall rfl rfl) rfl (by simp [Obs.silent])
    · cases h
      exact .abandoned (by simp [view, hcall, Progress.phase]) rfl rfl (view_update rfl rfl) rfl
  · cases h

theorem wait_change {s s' : Provider} {id : SlotId} {wake : Wake} {os : List Obs}
    (h : wait s id wake = some (s', os)) : Change s s' os := by
  unfold wait at h
  split at h
  · rename_i r hcall
    cases wake with
    | signalled =>
        simp only at h
        split at h
        · cases h
          exact .quiet rfl rfl (view_same hcall rfl rfl) rfl (by simp)
        · cases h
    | pumped =>
        simp only at h
        split at h
        · cases h
          exact .quiet rfl rfl (view_same hcall rfl rfl) rfl (by simp)
        · cases h
          exact .quiet rfl rfl rfl rfl (by simp)
    | quit =>
        cases h
        exact .quiet rfl rfl (view_same hcall rfl rfl) rfl (by simp)
    | expired =>
        cases h
        exact .quiet rfl rfl (view_same hcall rfl rfl) rfl (by simp)
  · cases h

theorem detach_change {s s' : Provider} {id : SlotId} {os : List Obs}
    (h : detach s id = some (s', os)) : Change s s' os := by
  unfold detach at h
  split at h
  · rename_i r gotQuit hcall
    cases h
    refine .detached (by simp [view, hcall, Progress.phase]) rfl rfl (view_update rfl rfl) ?_ rfl
    funext i
    by_cases hi : i = id
    · subst hi
      simp [stored]
    · simp [stored, Function.update_of_ne hi]
  · cases h

theorem closeHandle_change {s s' : Provider} {id : SlotId} {os : List Obs}
    (h : closeHandle s id = some (s', os)) : Change s s' os := by
  unfold closeHandle at h
  split at h
  · rename_i r o hcall
    cases h
    exact .quiet rfl rfl (view_same hcall rfl rfl) rfl (by simp)
  · cases h

theorem finish_change {s s' : Provider} {id : SlotId} {os : List Obs}
    (h : finish s id = some (s', os)) : Change s s' os := by
  unfold finish at h
  split at h
  · rename_i r o hcall
    cases h
    refine .finished (by simp [view, hcall, Progress.phase]) rfl rfl (view_update rfl rfl) ?_
    funext i
    by_cases hi : i = id
    · subst hi
      simp [stored]
    · simp [stored, Function.update_of_ne hi]
  · cases h

theorem deliverChunk_change (s : Provider) (chunk : ParsedFileChunkData) :
    Change s (deliverChunk s chunk).1 (deliverChunk s chunk).2 := by
  cases hq : queue s.pending (replyKey chunk) with
  | nil =>
      rw [deliverChunk, hq]
      exact .dropped hq rfl
  | cons id rest =>
      rw [deliverChunk, hq]
      refine .filled hq rfl rfl rfl ?_
      funext i
      by_cases hi : i = id
      · subst hi
        simp [stored, fill]
      · simp [stored, Function.update_of_ne hi]

theorem cancelAll_change (s : Provider) : Change s (cancelAll s).1 (cancelAll s).2 := by
  refine .quiet rfl rfl rfl ?_ (by simp [cancelAll, Obs.silent])
  funext i
  simp only [stored, cancelAll]
  split <;> rfl

theorem signal_change {s s' : Provider} {n : Nat} {os : List Obs}
    (h : signal s n = some (s', os)) : Change s s' os := by
  unfold signal at h
  split at h
  · cases h
  · split at h
    · cases h
      exact .quiet rfl rfl rfl rfl (by simp)
    · cases h
      exact .quiet rfl rfl rfl rfl (by simp)
  · cases h
    exact .quiet rfl rfl rfl rfl (by simp [Obs.silent])

/-- **Every step is one of the changes.** -/
theorem step_change {s s' : Provider} {a : Action} {os : List Obs}
    (h : machine.step s a = some (s', os)) : Change s s' os := by
  cases a with
  | enter r event => exact enter_change h
  | stage id => exact stage_change h
  | send id ok => exact send_change h
  | wait id wake => exact wait_change h
  | detach id => exact detach_change h
  | closeHandle id => exact closeHandle_change h
  | finish id => exact finish_change h
  | deliver chunk =>
      have hchange := deliverChunk_change s chunk
      rwa [Option.some.inj h] at hchange
  | cancelAll =>
      cases h
      exact cancelAll_change s
  | signal n => exact signal_change h

/-! ## Queues and calls agree -/

/-- The queue of a key holds exactly the requests staged under it and not yet
detached, once each; a slot holds no reply before it is staged. -/
structure WellFormed (s : Provider) : Prop where
  fresh : ∀ i, s.nextSlot ≤ i → view s i = none
  queued : ∀ key i, i ∈ queue s.pending key ↔
    ∃ r, view s i = some (r, .queued) ∧ r.key = key
  nodup : ∀ key, (queue s.pending key).Nodup
  unfilled : ∀ i r, view s i = some (r, .created) → stored s i = {}

theorem wellFormed_initial (pipe : Bool) : WellFormed (initial pipe) where
  fresh _ _ := rfl
  queued key i := by
    have hempty : queue (initial pipe).pending key = [] := rfl
    rw [hempty]
    simp [view, initial]
  nodup _ := List.nodup_nil
  unfilled _ _ h := by simp [view, initial] at h

/-- A queued request is in no other queue than its own. -/
theorem WellFormed.mem_queue {s : Provider} (h : WellFormed s) {i : SlotId} {r : Request}
    (hi : view s i = some (r, .queued)) {key : Bytes} :
    i ∈ queue s.pending key ↔ key = r.key := by
  rw [h.queued]
  constructor
  · rintro ⟨r', hr', rfl⟩
    rw [hi] at hr'
    cases hr'
    rfl
  · rintro rfl
    exact ⟨r, hi, rfl⟩

/-- A request that is not queued is in no queue. -/
theorem WellFormed.not_mem_queue {s : Provider} (h : WellFormed s) {i : SlotId} {r : Request}
    {phase : Phase} (hi : view s i = some (r, phase)) (hphase : phase ≠ .queued)
    (key : Bytes) : i ∉ queue s.pending key := by
  rw [h.queued]
  rintro ⟨r', hr', -⟩
  rw [hi] at hr'
  cases hr'
  exact hphase rfl

/-- Moving a call on leaves the unused slots unused. -/
theorem WellFormed.fresh_update {s s' : Provider} (h : WellFormed s) {id : SlotId}
    {call : Request × Phase} {call' : Option (Request × Phase)} (hcall : view s id = some call)
    (hnext : s'.nextSlot = s.nextSlot) (hview : view s' = Function.update (view s) id call') :
    ∀ i, s'.nextSlot ≤ i → view s' i = none := by
  intro i hi
  rw [hnext] at hi
  have hne : i ≠ id := by
    rintro rfl
    rw [h.fresh i hi] at hcall
    cases hcall
  rw [hview, Function.update_of_ne hne, h.fresh i hi]

/-- Moving a call on to a later phase leaves the new slots unfilled. -/
theorem WellFormed.unfilled_update {s s' : Provider} (h : WellFormed s) {id : SlotId}
    {r : Request} {phase : Phase} (hphase : phase ≠ .created)
    (hview : view s' = Function.update (view s) id (some (r, phase)))
    (hstored : ∀ i ≠ id, stored s' i = stored s i) :
    ∀ i r', view s' i = some (r', .created) → stored s' i = {} := by
  intro i r' hi
  rw [hview] at hi
  by_cases hne : i = id
  · subst hne
    rw [Function.update_self] at hi
    cases hi
    exact absurd rfl hphase
  · rw [Function.update_of_ne hne] at hi
    rw [hstored i hne]
    exact h.unfilled i r' hi

/-- Taking a queued request out of its queue, into a later phase. -/
theorem WellFormed.withdraw {s s' : Provider} (h : WellFormed s) {id : SlotId} {r : Request}
    {phase : Phase} (hcall : view s id = some (r, .queued))
    (hphase : phase ≠ .queued ∧ phase ≠ .created)
    (hpending : s'.pending = eraseFromQueueLocked s.pending r.key id)
    (hnext : s'.nextSlot = s.nextSlot)
    (hview : view s' = Function.update (view s) id (some (r, phase)))
    (hstored : ∀ i ≠ id, stored s' i = stored s i) : WellFormed s' := by
  have hother : ∀ i ≠ id, view s' i = view s i := by
    intro i hi
    rw [hview, Function.update_of_ne hi]
  have hself : view s' id = some (r, phase) := by rw [hview, Function.update_self]
  have hqueue : ∀ key, queue s'.pending key = (queue s.pending key).erase id := by
    intro key
    rw [hpending, queue_eraseFromQueueLocked]
    split
    · rename_i hkey
      rw [hkey]
    · rename_i hkey
      rw [List.erase_of_not_mem ((h.mem_queue hcall).not.mpr hkey)]
  constructor
  · exact h.fresh_update hcall hnext hview
  · intro key i
    rw [hqueue, (h.nodup key).mem_erase_iff]
    by_cases hi : i = id
    · subst hi
      rw [hself]
      simp [hphase.1]
    · rw [hother i hi, ← h.queued]
      simp [hi]
  · intro key
    rw [hqueue]
    exact (h.nodup key).erase id
  · exact h.unfilled_update hphase.2 hview hstored

/-- A call that enters gets an unused slot. -/
theorem WellFormed.enter {s s' : Provider} (h : WellFormed s) {r : Request}
    (hpending : s'.pending = s.pending) (hnext : s'.nextSlot = s.nextSlot + 1)
    (hview : view s' = Function.update (view s) s.nextSlot (some (r, .created)))
    (hstored : stored s' = Function.update (stored s) s.nextSlot {}) : WellFormed s' := by
  have hnew := h.fresh s.nextSlot (le_refl _)
  constructor
  · intro i hi
    have hlt : s.nextSlot < i := by rwa [hnext] at hi
    rw [hview, Function.update_of_ne hlt.ne']
    exact h.fresh i hlt.le
  · intro key i
    rw [hpending, h.queued, hview]
    by_cases hi : i = s.nextSlot
    · subst hi
      simp [hnew]
    · rw [Function.update_of_ne hi]
  · rw [hpending]
    exact h.nodup
  · intro i r' hi
    rw [hview] at hi
    rw [hstored]
    by_cases hne : i = s.nextSlot
    · subst hne
      rw [Function.update_self]
    · rw [Function.update_of_ne hne] at hi ⊢
      exact h.unfilled i r' hi

/-- A call that is staged is at the back of its queue. -/
theorem WellFormed.stage {s s' : Provider} (h : WellFormed s) {id : SlotId} {r : Request}
    (hcall : view s id = some (r, .created)) (hpending : s'.pending = pushBack s.pending r.key id)
    (hnext : s'.nextSlot = s.nextSlot)
    (hview : view s' = Function.update (view s) id (some (r, .queued)))
    (hstored : stored s' = stored s) : WellFormed s' := by
  have hother : ∀ i ≠ id, view s' i = view s i := by
    intro i hi
    rw [hview, Function.update_of_ne hi]
  have hself : view s' id = some (r, .queued) := by rw [hview, Function.update_self]
  have hnot := h.not_mem_queue hcall (by simp)
  constructor
  · exact h.fresh_update hcall hnext hview
  · intro key i
    rw [hpending, queue_pushBack]
    by_cases hi : i = id
    · subst hi
      rw [hself]
      by_cases hkey : key = r.key
      · simp [hkey]
      · simp [hkey, hnot key, Ne.symm hkey]
    · rw [hother i hi, ← h.queued]
      by_cases hkey : key = r.key
      · simp [hkey, hi]
      · simp [hkey]
  · intro key
    rw [hpending, queue_pushBack]
    split
    · rw [List.nodup_append]
      refine ⟨h.nodup r.key, List.nodup_singleton id, ?_⟩
      intro a ha b hb hab
      rw [List.mem_singleton.mp hb] at hab
      exact hnot r.key (hab ▸ ha)
    · exact h.nodup key
  · exact h.unfilled_update (by simp) hview (fun i _ => by rw [hstored])

/-- **Queues and calls agree after every step.** -/
theorem Change.wellFormed {s s' : Provider} {os : List Obs} (hchange : Change s s' os)
    (h : WellFormed s) : WellFormed s' := by
  cases hchange with
  | quiet hpending hnext hview hstored hos =>
      constructor
      · rw [hnext, hview]
        exact h.fresh
      · rw [hpending, hview]
        exact h.queued
      · rw [hpending]
        exact h.nodup
      · rw [hview, hstored]
        exact h.unfilled
  | entered hpending hnext hview hstored => exact h.enter hpending hnext hview hstored
  | staged hcall hpending hnext hview hstored => exact h.stage hcall hpending hnext hview hstored
  | abandoned hcall hpending hnext hview hstored =>
      exact h.withdraw hcall (by simp) hpending hnext hview (fun i _ => by rw [hstored])
  | detached hcall hpending hnext hview hstored houtcome =>
      exact h.withdraw hcall (by simp) hpending hnext hview
        (fun i hi => by rw [hstored, Function.update_of_ne hi])
  | @finished id r o hcall hpending hnext hview hstored =>
      have hother : ∀ i ≠ id, view s' i = view s i := by
        intro i hi
        rw [hview, Function.update_of_ne hi]
      have hself : view s' id = some (r, .returned) := by rw [hview, Function.update_self]
      constructor
      · exact h.fresh_update hcall hnext hview
      · intro key i
        rw [hpending, h.queued]
        by_cases hi : i = id
        · subst hi
          simp [hself, hcall]
        · rw [hother i hi]
      · rw [hpending]
        exact h.nodup
      · exact h.unfilled_update (by simp) hview (fun i _ => by rw [hstored])
  | dropped hqueue hsame => rwa [hsame]
  | @filled chunk id rest hqueue hpending hnext hview hstored =>
      obtain ⟨r, hid, -⟩ := (h.queued (replyKey chunk) id).mp (by simp [hqueue])
      constructor
      · rw [hnext, hview]
        exact h.fresh
      · rw [hpending, hview]
        exact h.queued
      · rw [hpending]
        exact h.nodup
      · intro i r' hi
        rw [hview] at hi
        have hne : i ≠ id := by
          rintro rfl
          rw [hid] at hi
          cases hi
        rw [hstored, Function.update_of_ne hne]
        exact h.unfilled i r' hi

end DispatcherChunkProvider
