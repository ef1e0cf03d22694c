import ClipboardHelper.Library.Ledger
import ClipboardHelper.Library.Pool

/-!
# The work queue

`work_queue.cpp`: a queue of tasks behind one mutex.  `Push` appends a task.
`Drain` swaps the queue into a local snapshot under the lock and calls each
task of it without the lock, so that meanwhile any thread can push, and a
task can push, drain or drop itself.  `DropAll` swaps the queue out likewise
and destroys the tasks.

Every thread may have calls nested in one another.  Tasks and calls are
numbered, tasks as they are pushed.  What holds after every run:

* each task that was pushed is in one place, and was called at most once
  (`accounts_of_run`);
* a `Drain` calls the tasks of its snapshot one after the other, and its
  statistics say how many it has called and how many of them have thrown
  (`Tracked`).

**`tasks_accounted`** puts this together.
-/

namespace WorkQueue

open Library

/-! ## State -/

/-- The number of a task. -/
abbrev TaskId := Nat

/-- The number of a call of `Drain` or `DropAll`. -/
abbrev CallId := Nat

/-- `WorkQueue::DrainStats`. -/
structure DrainStats where
  executed : Nat := 0
  exceptions : Nat := 0
deriving DecidableEq, Repr

/-- `++stats.executed`. -/
def DrainStats.attempt (stats : DrainStats) : DrainStats :=
  { stats with executed := stats.executed + 1 }

/-- `++stats.exceptions` in `catch (...)`. -/
def DrainStats.caught (stats : DrainStats) (threw : Bool) : DrainStats :=
  if threw then { stats with exceptions := stats.exceptions + 1 } else stats

@[simp] theorem attempt_executed (stats : DrainStats) :
    stats.attempt.executed = stats.executed + 1 := rfl

@[simp] theorem attempt_exceptions (stats : DrainStats) :
    stats.attempt.exceptions = stats.exceptions := rfl

@[simp] theorem caught_executed (stats : DrainStats) (threw : Bool) :
    (stats.caught threw).executed = stats.executed := by
  cases threw <;> rfl

@[simp] theorem caught_exceptions (stats : DrainStats) (threw : Bool) :
    (stats.caught threw).exceptions = stats.exceptions + threw.toNat := by
  cases threw <;> rfl

/-- What is in progress in a call: `Drain` with the task that it runs and the
rest of its snapshot, or `DropAll` with the tasks that it has yet to destroy. -/
inductive Frame
  | drain (running : Option TaskId) (snapshot : List TaskId) (stats : DrainStats)
  | dropAll (leftover : List TaskId)
deriving DecidableEq, Repr

/-- A call that has not returned. -/
structure Call (τ : Type) where
  id : CallId
  thread : τ
  frame : Frame
deriving DecidableEq, Repr

/-- The queue, and all calls that have not returned, the newest first. -/
structure State (τ : Type) where
  queue : List TaskId := []
  calls : List (Call τ) := []
  nextTask : TaskId := 0
  nextCall : CallId := 0
deriving DecidableEq, Repr

inductive Obs
  | pushed (task : TaskId)
  /-- A `Drain` has swapped the queue into its snapshot. -/
  | drained (call : CallId) (snapshot : List TaskId)
  /-- A `Drain` calls a task. -/
  | started (call : CallId) (task : TaskId)
  /-- The task has returned or thrown. -/
  | ended (call : CallId) (task : TaskId) (threw : Bool)
  | returned (call : CallId) (stats : DrainStats)
  /-- A `DropAll` has destroyed a task. -/
  | destroyed (task : TaskId)
deriving DecidableEq, Repr

/-! ## Steps -/

/-- Code that is not of the queue runs inside the call: a task, the
destructors of the snapshot once its tasks have been called, the destructors
of dropped tasks.  It may call the queue. -/
def Frame.callsOut : Frame → Bool
  | .drain (some _) _ _ => true
  | .drain none snapshot _ => snapshot.isEmpty
  | .dropAll _ => true

section

variable {τ : Type} [DecidableEq τ]

/-- Where the newest call of a thread stands. -/
def State.top (s : State τ) (thread : τ) : Nat :=
  s.calls.findIdx (fun call => call.thread = thread)

/-- The thread is outside the queue, or in code that the queue has called. -/
def State.mayCall (s : State τ) (thread : τ) : Bool :=
  s.calls[s.top thread]?.all (fun call => call.frame.callsOut)

/-- The newest call of a thread goes on. -/
def State.advance (s : State τ) (thread : τ) (call : Call τ) (frame : Frame) : State τ :=
  { s with calls := s.calls.set (s.top thread) { call with frame := frame } }

/-- The newest call of a thread returns. -/
def State.leave (s : State τ) (thread : τ) : State τ :=
  { s with calls := s.calls.eraseIdx (s.top thread) }

/-- A thread swaps the queue with an empty one, in a new call. -/
def State.swap (s : State τ) (thread : τ) (frame : List TaskId → Frame) : State τ :=
  { s with
    queue := []
    calls := { id := s.nextCall, thread := thread, frame := frame s.queue } :: s.calls
    nextCall := s.nextCall + 1 }

omit [DecidableEq τ] in
@[simp] theorem swap_queue (s : State τ) (thread : τ) (frame : List TaskId → Frame) :
    (s.swap thread frame).queue = [] := rfl

@[simp] theorem advance_queue (s : State τ) (thread : τ) (call : Call τ) (frame : Frame) :
    (s.advance thread call frame).queue = s.queue := rfl

@[simp] theorem leave_queue (s : State τ) (thread : τ) : (s.leave thread).queue = s.queue := rfl

/-- `Push`. -/
def push (s : State τ) (thread : τ) : Option (State τ × List Obs) :=
  if s.mayCall thread then
    some ({ s with queue := s.queue ++ [s.nextTask], nextTask := s.nextTask + 1 },
      [.pushed s.nextTask])
  else none

/-- `Drain` up to the end of its critical section. -/
def drain (s : State τ) (thread : τ) : Option (State τ × List Obs) :=
  if s.mayCall thread then
    some (s.swap thread (fun queue => .drain none queue {}), [.drained s.nextCall s.queue])
  else none

/-- The head of the loop: `++stats.executed`, then `fn()`. -/
def start (s : State τ) (thread : τ) : Option (State τ × List Obs) :=
  match s.calls[s.top thread]? with
  | some call =>
    match call.frame with
    | .drain none (task :: snapshot) stats =>
      some (s.advance thread call (.drain (some task) snapshot stats.attempt),
        [.started call.id task])
    | _ => none
  | none => none

/-- `fn()` returns, or throws into `catch (...)`. -/
def finish (s : State τ) (thread : τ) (threw : Bool) : Option (State τ × List Obs) :=
  match s.calls[s.top thread]? with
  | some call =>
    match call.frame with
    | .drain (some task) snapshot stats =>
      some (s.advance thread call (.drain none snapshot (stats.caught threw)),
        [.ended call.id task threw])
    | _ => none
  | none => none

/-- `DropAll` up to the end of its critical section. -/
def dropAll (s : State τ) (thread : τ) : Option (State τ × List Obs) :=
  if s.mayCall thread then some (s.swap thread .dropAll, []) else none

/-- A task of `leftover` is destroyed.  The order is up to `std::deque`. -/
def destroy (s : State τ) (thread : τ) (n : Nat) : Option (State τ × List Obs) :=
  match s.calls[s.top thread]? with
  | some call =>
    match call.frame with
    | .dropAll leftover =>
      match leftover[n]? with
      | some task =>
        some (s.advance thread call (.dropAll (leftover.eraseIdx n)), [.destroyed task])
      | none => none
    | _ => none
  | none => none

/-- `Drain` or `DropAll` returns. -/
def leave (s : State τ) (thread : τ) : Option (State τ × List Obs) :=
  match s.calls[s.top thread]? with
  | some call =>
    match call.frame with
    | .drain none [] stats => some (s.leave thread, [.returned call.id stats])
    | .dropAll [] => some (s.leave thread, [])
    | _ => none
  | none => none

inductive Action (τ : Type)
  | push (thread : τ)
  | drain (thread : τ)
  | start (thread : τ)
  | finish (thread : τ) (threw : Bool)
  | dropAll (thread : τ)
  | destroy (thread : τ) (n : Nat)
  | leave (thread : τ)
deriving DecidableEq, Repr

/-- **The queue under any interleaving** of its callers. -/
def machine (τ : Type) [DecidableEq τ] : Machine (State τ) (Action τ) Obs where
  step s
    | .push thread => push s thread
    | .drain thread => drain s thread
    | .start thread => start s thread
    | .finish thread threw => finish s thread threw
    | .dropAll thread => dropAll s thread
    | .destroy thread n => destroy s thread n
    | .leave thread => leave s thread

/-! ## What a step can do -/

/-- One rule for each way a step goes on.  The thread matters only for the
call that it goes on with, the newest of its own. -/
inductive Step (s : State τ) : List Obs → State τ → Prop
  | pushes : Step s [.pushed s.nextTask]
      { s with queue := s.queue ++ [s.nextTask], nextTask := s.nextTask + 1 }
  | drains (thread : τ) : Step s [.drained s.nextCall s.queue]
      (s.swap thread (fun queue => .drain none queue {}))
  | starts (thread : τ) (call : Call τ) (task : TaskId) (snapshot : List TaskId)
      (stats : DrainStats) (hcall : s.calls[s.top thread]? = some call)
      (hframe : call.frame = .drain none (task :: snapshot) stats) :
      Step s [.started call.id task]
        (s.advance thread call (.drain (some task) snapshot stats.attempt))
  | finishes (thread : τ) (call : Call τ) (task : TaskId) (snapshot : List TaskId)
      (stats : DrainStats) (threw : Bool) (hcall : s.calls[s.top thread]? = some call)
      (hframe : call.frame = .drain (some task) snapshot stats) :
      Step s [.ended call.id task threw]
        (s.advance thread call (.drain none snapshot (stats.caught threw)))
  | drops (thread : τ) : Step s [] (s.swap thread .dropAll)
  | destroys (thread : τ) (call : Call τ) (leftover : List TaskId) (n : Nat) (task : TaskId)
      (hcall : s.calls[s.top thread]? = some call) (hframe : call.frame = .dropAll leftover)
      (hn : leftover[n]? = some task) :
      Step s [.destroyed task] (s.advance thread call (.dropAll (leftover.eraseIdx n)))
  | returns (thread : τ) (call : Call τ) (stats : DrainStats)
      (hcall : s.calls[s.top thread]? = some call) (hframe : call.frame = .drain none [] stats) :
      Step s [.returned call.id stats] (s.leave thread)
  | dropped (thread : τ) (call : Call τ) (hcall : s.calls[s.top thread]? = some call)
      (hframe : call.frame = .dropAll []) : Step s [] (s.leave thread)

theorem step_cases {s s' : State τ} {a : Action τ} {os : List Obs}
    (h : (machine τ).step s a = some (s', os)) : Step s os s' := by
  cases a with
  | push thread =>
      simp only [machine, push] at h
      split at h
      · cases h
        exact .pushes
      · cases h
  | drain thread =>
      simp only [machine, drain] at h
      split at h
      · cases h
        exact .drains thread
      · cases h
  | start thread =>
      simp only [machine, start] at h
      split at h
      · rename_i call hcall
        split at h
        · rename_i task snapshot stats hframe
          cases h
          exact .starts thread call task snapshot stats hcall hframe
        · cases h
      · cases h
  | finish thread threw =>
      simp only [machine, finish] at h
      split at h
      · rename_i call hcall
        split at h
        · rename_i task snapshot stats hframe
          cases h
          exact .finishes thread call task snapshot stats threw hcall hframe
        · cases h
      · cases h
  | dropAll thread =>
      simp only [machine, dropAll] at h
      split at h
      · cases h
        exact .drops thread
      · cases h
  | destroy thread n =>
      simp only [machine, destroy] at h
      split at h
      · rename_i call hcall
        split at h
        · rename_i leftover hframe
          split at h
          · rename_i task hn
            cases h
            exact .destroys thread call leftover n task hcall hframe hn
          · cases h
        · cases h
      · cases h
  | leave thread =>
      simp only [machine, leave] at h
      split at h
      · rename_i call hcall
        split at h
        · rename_i stats hframe
          cases h
          exact .returns thread call stats hcall hframe
        · rename_i hframe
          cases h
          exact .dropped thread call hcall hframe
        · cases h
      · cases h

/-! ## Every task in one place -/

/-- The tasks of a call that have not been called. -/
def Frame.waiting : Frame → List TaskId
  | .drain _ snapshot _ => snapshot
  | .dropAll leftover => leftover

/-- The task that a call runs. -/
def Frame.running : Frame → List TaskId
  | .drain running _ _ => running.toList
  | .dropAll _ => []

/-- The tasks that the calls have in one place or another. -/
def State.inCalls (f : Frame → List TaskId) (s : State τ) : Multiset TaskId :=
  (s.calls.map (fun call => (f call.frame : Multiset TaskId))).sum

section

variable (f : Frame → List TaskId) {s : State τ} {thread : τ} {call : Call τ} (frame : Frame)
  (part : Multiset TaskId)

theorem inCalls_advance_lost (hcall : s.calls[s.top thread]? = some call)
    (hlost : (f call.frame : Multiset TaskId) = part + f frame) :
    part + (s.advance thread call frame).inCalls f = s.inCalls f :=
  sum_set_lost hcall hlost

theorem inCalls_advance_gained (hcall : s.calls[s.top thread]? = some call)
    (hgained : (f frame : Multiset TaskId) = part + f call.frame) :
    (s.advance thread call frame).inCalls f = part + s.inCalls f :=
  sum_set_gained hcall hgained

theorem inCalls_advance (hcall : s.calls[s.top thread]? = some call)
    (hsame : f frame = f call.frame) : (s.advance thread call frame).inCalls f = s.inCalls f := by
  have hgained : (s.advance thread call frame).inCalls f = 0 + s.inCalls f :=
    inCalls_advance_gained f frame 0 hcall (by rw [hsame, zero_add])
  rwa [zero_add] at hgained

theorem inCalls_leave (hcall : s.calls[s.top thread]? = some call) (hnone : f call.frame = []) :
    (s.leave thread).inCalls f = s.inCalls f :=
  sum_eraseIdx_zero hcall (by rw [hnone]; rfl)

omit [DecidableEq τ] in
theorem inCalls_swap (g : List TaskId → Frame) :
    (s.swap thread g).inCalls f = f (g s.queue) + s.inCalls f := by
  simp [State.inCalls, State.swap]

end

/-- The ledger of tasks up to their call: a task comes in when it is pushed
and leaves when it is called or destroyed. -/
def uncalled (τ : Type) : Ledger (State τ) Obs TaskId where
  enters
    | .pushed task => {task}
    | _ => 0
  leaves
    | .started _ task | .destroyed task => {task}
    | _ => 0
  held s := s.queue + s.inCalls Frame.waiting

/-- The ledger of tasks from their call to its end. -/
def underWay (τ : Type) : Ledger (State τ) Obs TaskId where
  enters
    | .started _ task => {task}
    | _ => 0
  leaves
    | .ended _ task _ => {task}
    | _ => 0
  held := State.inCalls Frame.running

/-- **A step moves uncalled tasks**: it takes one on, hands them on, or lets
one go. -/
theorem Step.moves_uncalled {s s' : State τ} {os : List Obs} (h : Step s os s') :
    (uncalled τ).Moves s os s' := by
  simp only [Ledger.Moves]
  cases h with
  | pushes =>
      simp only [Ledger.left_cons, Ledger.left_nil, Ledger.entered_cons, Ledger.entered_nil,
        uncalled, ← Multiset.coe_add, Multiset.coe_singleton, State.inCalls]
      abel
  | drains thread =>
      simp [uncalled, inCalls_swap, Frame.waiting]
  | starts thread call task snapshot stats hcall hframe =>
      have hcalls := inCalls_advance_lost Frame.waiting
        (.drain (some task) snapshot stats.attempt) {task} hcall
        (by simp [hframe, Frame.waiting])
      simp only [Ledger.left_cons, Ledger.left_nil, Ledger.entered_cons, Ledger.entered_nil,
        uncalled, ← hcalls, advance_queue]
      abel
  | finishes thread call task snapshot stats threw hcall hframe =>
      have hcalls := inCalls_advance Frame.waiting (.drain none snapshot (stats.caught threw))
        hcall (by rw [hframe]; rfl)
      simp [uncalled, hcalls]
  | drops thread =>
      simp [uncalled, inCalls_swap, Frame.waiting]
  | destroys thread call leftover n task hcall hframe hn =>
      have hcalls := inCalls_advance_lost Frame.waiting (.dropAll (leftover.eraseIdx n)) {task}
        hcall (by
          rw [hframe, Multiset.singleton_add]
          exact (Multiset.coe_eq_coe.mpr (perm_eraseIdx hn)).symm)
      simp only [Ledger.left_cons, Ledger.left_nil, Ledger.entered_cons, Ledger.entered_nil,
        uncalled, ← hcalls, advance_queue]
      abel
  | returns thread call stats hcall hframe =>
      have hcalls := inCalls_leave Frame.waiting hcall (by rw [hframe]; rfl)
      simp [uncalled, hcalls]
  | dropped thread call hcall hframe =>
      have hcalls := inCalls_leave Frame.waiting hcall (by rw [hframe]; rfl)
      simp [uncalled, hcalls]

/-- **A step moves tasks under way**: it calls one, or one comes to its end. -/
theorem Step.moves_underWay {s s' : State τ} {os : List Obs} (h : Step s os s') :
    (underWay τ).Moves s os s' := by
  simp only [Ledger.Moves]
  cases h with
  | pushes => simp [underWay, State.inCalls]
  | drains thread => simp [underWay, inCalls_swap, Frame.running]
  | starts thread call task snapshot stats hcall hframe =>
      have hcalls := inCalls_advance_gained Frame.running
        (.drain (some task) snapshot stats.attempt) {task} hcall
        (by simp [hframe, Frame.running])
      simp only [Ledger.left_cons, Ledger.left_nil, Ledger.entered_cons, Ledger.entered_nil,
        underWay, hcalls]
      abel
  | finishes thread call task snapshot stats threw hcall hframe =>
      have hcalls := inCalls_advance_lost Frame.running
        (.drain none snapshot (stats.caught threw)) {task} hcall
        (by simp [hframe, Frame.running])
      simp only [Ledger.left_cons, Ledger.left_nil, Ledger.entered_cons, Ledger.entered_nil,
        underWay, ← hcalls]
      abel
  | drops thread => simp [underWay, inCalls_swap, Frame.running]
  | destroys thread call leftover n task hcall hframe hn =>
      have hcalls := inCalls_advance Frame.running (.dropAll (leftover.eraseIdx n)) hcall
        (by rw [hframe]; rfl)
      simp [underWay, hcalls]
  | returns thread call stats hcall hframe =>
      have hcalls := inCalls_leave Frame.running hcall (by rw [hframe]; rfl)
      simp [underWay, hcalls]
  | dropped thread call hcall hframe =>
      have hcalls := inCalls_leave Frame.running hcall (by rw [hframe]; rfl)
      simp [underWay, hcalls]

end

/-! ## What the history says -/

/-- The tasks in the order in which they were pushed, -/
def pushed (h : List Obs) : List TaskId :=
  h.filterMap fun
    | .pushed task => some task
    | _ => none

/-- called, -/
def called (h : List Obs) : List TaskId :=
  h.filterMap fun
    | .started _ task => some task
    | _ => none

/-- and executed to their end. -/
def executed (h : List Obs) : List TaskId :=
  h.filterMap fun
    | .ended _ task _ => some task
    | _ => none

def destroyed (h : List Obs) : List TaskId :=
  h.filterMap fun
    | .destroyed task => some task
    | _ => none

section

variable {τ : Type}

theorem entered_uncalled (h : List Obs) :
    (uncalled τ).entered h = (pushed h : Multiset TaskId) := by
  induction h with
  | nil => rfl
  | cons o h ih =>
      rw [Ledger.entered_cons, ih]
      cases o <;> simp [uncalled, pushed]

theorem left_uncalled (h : List Obs) :
    (uncalled τ).left h = (called h : Multiset TaskId) + destroyed h := by
  induction h with
  | nil => rfl
  | cons o h ih =>
      rw [Ledger.left_cons, ih]
      cases o with
      | destroyed task =>
          simpa [uncalled, called, destroyed] using List.perm_middle.symm
      | pushed | drained | started | ended | returned => simp [uncalled, called, destroyed]

theorem entered_underWay (h : List Obs) :
    (underWay τ).entered h = (called h : Multiset TaskId) := by
  induction h with
  | nil => rfl
  | cons o h ih =>
      rw [Ledger.entered_cons, ih]
      cases o <;> simp [underWay, called]

theorem left_underWay (h : List Obs) : (underWay τ).left h = (executed h : Multiset TaskId) := by
  induction h with
  | nil => rfl
  | cons o h ih =>
      rw [Ledger.left_cons, ih]
      cases o <;> simp [underWay, executed]

end

/-- The snapshot of a `Drain`, -/
def claimedBy (h : List Obs) (id : CallId) : List TaskId :=
  h.flatMap fun
    | .drained id' snapshot => if id' = id then snapshot else []
    | _ => []

/-- the tasks that it has called, in this order, -/
def startedBy (h : List Obs) (id : CallId) : List TaskId :=
  h.filterMap fun
    | .started id' task => if id' = id then some task else none
    | _ => none

/-- and those that have come to an end, each with whether it threw. -/
def endedBy (h : List Obs) (id : CallId) : List (TaskId × Bool) :=
  h.filterMap fun
    | .ended id' task threw => if id' = id then some (task, threw) else none
    | _ => none

/-- The call that an observation is about. -/
def Obs.call : Obs → Option CallId
  | .drained id _ | .started id _ | .ended id _ _ | .returned id _ => some id
  | .pushed _ | .destroyed _ => none

@[simp] theorem pushed_append (h os : List Obs) : pushed (h ++ os) = pushed h ++ pushed os :=
  List.filterMap_append

@[simp] theorem claimedBy_append (h os : List Obs) (id : CallId) :
    claimedBy (h ++ os) id = claimedBy h id ++ claimedBy os id :=
  List.flatMap_append

@[simp] theorem startedBy_append (h os : List Obs) (id : CallId) :
    startedBy (h ++ os) id = startedBy h id ++ startedBy os id :=
  List.filterMap_append

@[simp] theorem endedBy_append (h os : List Obs) (id : CallId) :
    endedBy (h ++ os) id = endedBy h id ++ endedBy os id :=
  List.filterMap_append

/-- What is not about a `Drain` leaves its record alone. -/
theorem claimedBy_of_other {os : List Obs} {id : CallId} (hos : ∀ o ∈ os, o.call ≠ some id) :
    claimedBy os id = [] := by
  refine List.flatMap_eq_nil_iff.mpr ?_
  intro o ho
  have hcall := hos o ho
  cases o with
  | drained id' snapshot =>
      have hne : id' ≠ id := by simpa [Obs.call] using hcall
      simp [hne]
  | pushed | started | ended | returned | destroyed => rfl

theorem startedBy_of_other {os : List Obs} {id : CallId} (hos : ∀ o ∈ os, o.call ≠ some id) :
    startedBy os id = [] := by
  refine List.filterMap_eq_nil_iff.mpr ?_
  intro o ho
  have hcall := hos o ho
  cases o with
  | started id' task =>
      have hne : id' ≠ id := by simpa [Obs.call] using hcall
      simp [hne]
  | pushed | drained | ended | returned | destroyed => rfl

theorem endedBy_of_other {os : List Obs} {id : CallId} (hos : ∀ o ∈ os, o.call ≠ some id) :
    endedBy os id = [] := by
  refine List.filterMap_eq_nil_iff.mpr ?_
  intro o ho
  have hcall := hos o ho
  cases o with
  | ended id' task threw =>
      have hne : id' ≠ id := by simpa [Obs.call] using hcall
      simp [hne]
  | pushed | drained | started | returned | destroyed => rfl

/-! ## A `Drain` from its swap to its return -/

/-- How far a `Drain` has come: it has called its snapshot up to the rest, all
but the running task have come to an end, and its statistics say how many it
has called and how many have thrown. -/
structure Progress (h : List Obs) (id : CallId) (running : Option TaskId)
    (snapshot : List TaskId) (stats : DrainStats) : Prop where
  started : startedBy h id ++ snapshot = claimedBy h id
  ended : (endedBy h id).map Prod.fst ++ running.toList = startedBy h id
  executed : stats.executed = (startedBy h id).length
  exceptions : stats.exceptions = (endedBy h id).countP Prod.snd

def Frame.Tracked (h : List Obs) (id : CallId) : Frame → Prop
  | .drain running snapshot stats => Progress h id running snapshot stats
  | .dropAll _ => True

/-- What leaves the record of a `Drain` alone. -/
theorem Progress.of_same {h os : List Obs} {id : CallId} {running : Option TaskId}
    {snapshot : List TaskId} {stats : DrainStats} (hp : Progress h id running snapshot stats)
    (hstarted : startedBy os id = []) (hended : endedBy os id = [])
    (hclaimed : claimedBy os id = []) : Progress (h ++ os) id running snapshot stats := by
  refine ⟨?_, ?_, ?_, ?_⟩
  · rw [startedBy_append, claimedBy_append, hstarted, hclaimed, List.append_nil, List.append_nil]
    exact hp.started
  · rw [startedBy_append, endedBy_append, hstarted, hended, List.append_nil, List.append_nil]
    exact hp.ended
  · rw [startedBy_append, hstarted, List.append_nil]
    exact hp.executed
  · rw [endedBy_append, hended, List.append_nil]
    exact hp.exceptions

theorem Progress.append {h os : List Obs} {id : CallId} {running : Option TaskId}
    {snapshot : List TaskId} {stats : DrainStats} (hp : Progress h id running snapshot stats)
    (hos : ∀ o ∈ os, o.call ≠ some id) : Progress (h ++ os) id running snapshot stats :=
  hp.of_same (startedBy_of_other hos) (endedBy_of_other hos) (claimedBy_of_other hos)

theorem Frame.Tracked.append {h os : List Obs} {id : CallId} {frame : Frame}
    (hf : frame.Tracked h id) (hos : ∀ o ∈ os, o.call ≠ some id) :
    frame.Tracked (h ++ os) id := by
  cases frame with
  | drain running snapshot stats => exact Progress.append hf hos
  | dropAll leftover => trivial

/-- What a `Drain` has called is the front of its snapshot. -/
theorem Progress.startedBy_prefix {h : List Obs} {id : CallId} {running : Option TaskId}
    {snapshot : List TaskId} {stats : DrainStats} (hp : Progress h id running snapshot stats) :
    startedBy h id <+: claimedBy h id := by
  rw [← hp.started]
  exact List.prefix_append _ _

theorem claimedBy_drained {h : List Obs} {id : CallId} (hfresh : ∀ o ∈ h, o.call ≠ some id)
    (queue : List TaskId) : claimedBy (h ++ [.drained id queue]) id = queue := by
  rw [claimedBy_append, claimedBy_of_other hfresh]
  simp [claimedBy]

/-- The swap, -/
theorem Progress.drained {h : List Obs} {id : CallId} (hfresh : ∀ o ∈ h, o.call ≠ some id)
    (queue : List TaskId) : Progress (h ++ [.drained id queue]) id none queue {} := by
  have hstarted : startedBy (h ++ [.drained id queue]) id = [] := by
    rw [startedBy_append, startedBy_of_other hfresh]
    rfl
  have hended : endedBy (h ++ [.drained id queue]) id = [] := by
    rw [endedBy_append, endedBy_of_other hfresh]
    rfl
  refine ⟨?_, ?_, ?_, ?_⟩
  · rw [hstarted, claimedBy_drained hfresh, List.nil_append]
  · rw [hstarted, hended]
    rfl
  · rw [hstarted]
    rfl
  · rw [hended]
    rfl

/-- the call of the next task, -/
theorem Progress.starts {h : List Obs} {id : CallId} {task : TaskId} {snapshot : List TaskId}
    {stats : DrainStats} (hp : Progress h id none (task :: snapshot) stats) :
    Progress (h ++ [.started id task]) id (some task) snapshot stats.attempt := by
  have hstarted : startedBy [.started id task] id = [task] := by simp [startedBy]
  have hended : endedBy [.started id task] id = [] := rfl
  have hclaimed : claimedBy [.started id task] id = [] := rfl
  refine ⟨?_, ?_, ?_, ?_⟩
  · simpa [hstarted, hclaimed] using hp.started
  · simpa [hstarted, hended] using hp.ended
  · simpa [hstarted] using hp.executed
  · simpa [hended] using hp.exceptions

/-- and its end. -/
theorem Progress.finishes {h : List Obs} {id : CallId} {task : TaskId} {snapshot : List TaskId}
    {stats : DrainStats} (hp : Progress h id (some task) snapshot stats) (threw : Bool) :
    Progress (h ++ [.ended id task threw]) id none snapshot (stats.caught threw) := by
  have hstarted : startedBy [.ended id task threw] id = [] := rfl
  have hended : endedBy [.ended id task threw] id = [(task, threw)] := by simp [endedBy]
  have hclaimed : claimedBy [.ended id task threw] id = [] := rfl
  refine ⟨?_, ?_, ?_, ?_⟩
  · simpa [hstarted, hclaimed] using hp.started
  · simpa [hstarted, hended] using hp.ended
  · simpa [hstarted] using hp.executed
  · cases threw <;> simpa [hended] using hp.exceptions

/-! ## The invariant -/

/-- **The invariant**: the queue and the snapshots are in push order, every
`Drain` has come as far as its frame says, and one that has returned had gone
through its snapshot. -/
structure Tracked {τ : Type} (h : List Obs) (s : State τ) : Prop where
  numbered : pushed h = List.range s.nextTask
  queued : s.queue.Sublist (pushed h)
  names : (s.calls.map Call.id).Nodup
  fresh : ∀ id, s.nextCall ≤ id →
    (∀ call ∈ s.calls, call.id ≠ id) ∧ ∀ o ∈ h, o.call ≠ some id
  inProgress : ∀ call ∈ s.calls, call.frame.Tracked h call.id
  returned : ∀ id stats, .returned id stats ∈ h →
    Progress h id none [] stats ∧ ∀ call ∈ s.calls, call.id ≠ id
  order : ∀ id, startedBy h id <+: claimedBy h id ∧ (claimedBy h id).Sublist (pushed h)

theorem tracked_initial (τ : Type) : Tracked [] ({} : State τ) where
  numbered := rfl
  queued := .slnil
  names := .nil
  fresh := by simp
  inProgress := by simp
  returned := by simp
  order := by simp [startedBy, claimedBy]

section

variable {τ : Type} {h : List Obs} {s : State τ}

/-- Observations that are about one call alone. -/
structure About (id : CallId) (os : List Obs) : Prop where
  pushes : pushed os = []
  others : ∀ other, other ≠ id → ∀ o ∈ os, o.call ≠ some other

theorem About.nil (id : CallId) : About id [] where
  pushes := rfl
  others := by simp

theorem About.single {id : CallId} {o : Obs} (hpush : pushed [o] = [])
    (hcall : ∀ other, o.call = some other → other = id) : About id [o] where
  pushes := hpush
  others := by
    intro other hne o' ho' hsome
    rw [List.mem_singleton.mp ho'] at hsome
    exact hne (hcall other hsome)

theorem About.pushed_append {id : CallId} {os : List Obs} (habout : About id os) :
    pushed (h ++ os) = pushed h := by
  rw [WorkQueue.pushed_append, habout.pushes, List.append_nil]

/-- The tasks of the other calls stay in order. -/
theorem Tracked.order_append (ht : Tracked h s) {id : CallId} {os : List Obs}
    (habout : About id os)
    (horder : startedBy (h ++ os) id <+: claimedBy (h ++ os) id ∧
      (claimedBy (h ++ os) id).Sublist (pushed h)) (id' : CallId) :
    startedBy (h ++ os) id' <+: claimedBy (h ++ os) id' ∧
      (claimedBy (h ++ os) id').Sublist (pushed (h ++ os)) := by
  rw [habout.pushed_append]
  by_cases heq : id' = id
  · subst heq
    exact horder
  · have hother := habout.others id' heq
    rw [startedBy_append, claimedBy_append, startedBy_of_other hother, claimedBy_of_other hother,
      List.append_nil, List.append_nil]
    exact ht.order id'

theorem Tracked.push (ht : Tracked h s) :
    Tracked (h ++ [.pushed s.nextTask])
      { s with queue := s.queue ++ [s.nextTask], nextTask := s.nextTask + 1 } := by
  have hother : ∀ id, ∀ o ∈ [Obs.pushed s.nextTask], o.call ≠ some id := by
    intro id o ho
    rw [List.mem_singleton.mp ho]
    simp [Obs.call]
  have hpushed : pushed (h ++ [.pushed s.nextTask]) = pushed h ++ [s.nextTask] :=
    pushed_append h _
  refine ⟨?_, ?_, ht.names, ?_, ?_, ?_, ?_⟩
  · rw [hpushed, ht.numbered, List.range_succ]
  · rw [hpushed]
    exact ht.queued.append (.refl _)
  · intro id hid
    obtain ⟨hfresh, hhistory⟩ := ht.fresh id hid
    exact ⟨hfresh, List.forall_mem_append.mpr ⟨hhistory, hother id⟩⟩
  · intro call hcall
    exact (ht.inProgress call hcall).append (hother call.id)
  · intro id stats hret
    have hret : .returned id stats ∈ h := by simpa using hret
    obtain ⟨hprogress, hgone⟩ := ht.returned id stats hret
    exact ⟨hprogress.append (hother id), hgone⟩
  · intro id
    rw [startedBy_append, claimedBy_append, startedBy_of_other (hother id),
      claimedBy_of_other (hother id), List.append_nil, List.append_nil, hpushed]
    obtain ⟨hstarted, hclaimed⟩ := ht.order id
    exact ⟨hstarted, hclaimed.trans (List.sublist_append_left _ _)⟩

/-- The order of a call that claims nothing and calls nothing. -/
theorem Tracked.order_same (ht : Tracked h s) {id : CallId} {os : List Obs}
    (hstarted : startedBy os id = []) (hclaimed : claimedBy os id = []) :
    startedBy (h ++ os) id <+: claimedBy (h ++ os) id ∧
      (claimedBy (h ++ os) id).Sublist (pushed h) := by
  rw [startedBy_append, claimedBy_append, hstarted, hclaimed, List.append_nil, List.append_nil]
  exact ht.order id

/-- **A call begins** and takes the queue with it. -/
theorem Tracked.swap (ht : Tracked h s) (thread : τ) {g : List TaskId → Frame} {os : List Obs}
    (habout : About s.nextCall os) (hreturned : ∀ id stats, .returned id stats ∉ os)
    (hframe : (g s.queue).Tracked (h ++ os) s.nextCall)
    (horder : startedBy (h ++ os) s.nextCall <+: claimedBy (h ++ os) s.nextCall ∧
      (claimedBy (h ++ os) s.nextCall).Sublist (pushed h)) :
    Tracked (h ++ os) (s.swap thread g) := by
  have hnew := ht.fresh s.nextCall le_rfl
  refine ⟨by rw [habout.pushed_append]; exact ht.numbered, by simp, ?_, ?_, ?_, ?_,
    ht.order_append habout horder⟩
  · refine List.nodup_cons.mpr ⟨?_, ht.names⟩
    intro hmem
    obtain ⟨call, hcall, hid⟩ := List.mem_map.mp hmem
    exact hnew.1 call hcall hid
  · intro id hid
    have hlt : s.nextCall < id := hid
    obtain ⟨hcalls, hhistory⟩ := ht.fresh id hlt.le
    refine ⟨List.forall_mem_cons.mpr ⟨hlt.ne, hcalls⟩, ?_⟩
    exact List.forall_mem_append.mpr ⟨hhistory, habout.others id hlt.ne'⟩
  · refine List.forall_mem_cons.mpr ⟨hframe, ?_⟩
    intro call hcall
    exact (ht.inProgress call hcall).append (habout.others call.id (hnew.1 call hcall))
  · intro id stats hret
    rcases List.mem_append.mp hret with hret | hret
    · obtain ⟨hprogress, hgone⟩ := ht.returned id stats hret
      have hne : id ≠ s.nextCall := by
        rintro rfl
        exact hnew.2 _ hret rfl
      exact ⟨hprogress.append (habout.others id hne), List.forall_mem_cons.mpr ⟨hne.symm, hgone⟩⟩
    · exact absurd hret (hreturned id stats)

variable [DecidableEq τ]

/-- The names of the calls do not change when one goes on. -/
theorem advance_names {thread : τ} {call : Call τ} (hcall : s.calls[s.top thread]? = some call)
    (frame : Frame) :
    (s.advance thread call frame).calls.map Call.id = s.calls.map Call.id :=
  map_set_of_eq Call.id hcall rfl

/-- **A call goes on**: what it does concerns no other call. -/
theorem Tracked.advance (ht : Tracked h s) {thread : τ} {call : Call τ}
    (hcall : s.calls[s.top thread]? = some call) {frame : Frame} {os : List Obs}
    (habout : About call.id os) (hreturned : ∀ id stats, .returned id stats ∉ os)
    (hframe : frame.Tracked (h ++ os) call.id)
    (horder : startedBy (h ++ os) call.id <+: claimedBy (h ++ os) call.id ∧
      (claimedBy (h ++ os) call.id).Sublist (pushed h)) :
    Tracked (h ++ os) (s.advance thread call frame) := by
  have hmem := List.mem_of_getElem? hcall
  have hcalls : ∀ {other : Call τ}, other ∈ (s.advance thread call frame).calls →
      other = { call with frame := frame } ∨ (other ∈ s.calls ∧ other.id ≠ call.id) :=
    fun hother => (mem_set_iff ht.names hcall).mp hother
  refine ⟨by rw [habout.pushed_append]; exact ht.numbered,
    by rw [habout.pushed_append]; exact ht.queued, ?_, ?_, ?_, ?_, ht.order_append habout horder⟩
  · rw [advance_names hcall]
    exact ht.names
  · intro id hid
    obtain ⟨hfresh, hhistory⟩ := ht.fresh id hid
    have hne : id ≠ call.id := (hfresh call hmem).symm
    refine ⟨?_, List.forall_mem_append.mpr ⟨hhistory, habout.others id hne⟩⟩
    intro other hother
    rcases hcalls hother with rfl | ⟨hother, -⟩
    · exact hne.symm
    · exact hfresh other hother
  · intro other hother
    rcases hcalls hother with rfl | ⟨hother, hne⟩
    · exact hframe
    · exact (ht.inProgress other hother).append (habout.others other.id hne)
  · intro id stats hret
    rcases List.mem_append.mp hret with hret | hret
    · obtain ⟨hprogress, hgone⟩ := ht.returned id stats hret
      have hne : id ≠ call.id := (hgone call hmem).symm
      refine ⟨hprogress.append (habout.others id hne), ?_⟩
      intro other hother
      rcases hcalls hother with rfl | ⟨hother, -⟩
      · exact hne.symm
      · exact hgone other hother
    · exact absurd hret (hreturned id stats)

/-- **A call returns**, a `Drain` with its snapshot gone through. -/
theorem Tracked.leave (ht : Tracked h s) {thread : τ} {call : Call τ}
    (hcall : s.calls[s.top thread]? = some call) {os : List Obs} (habout : About call.id os)
    (horder : startedBy (h ++ os) call.id <+: claimedBy (h ++ os) call.id ∧
      (claimedBy (h ++ os) call.id).Sublist (pushed h))
    (hreturned : ∀ id stats, .returned id stats ∈ os →
      id = call.id ∧ Progress (h ++ os) id none [] stats) :
    Tracked (h ++ os) (s.leave thread) := by
  have hmem := List.mem_of_getElem? hcall
  have hcalls : ∀ {other : Call τ}, other ∈ (s.leave thread).calls →
      other ∈ s.calls ∧ other.id ≠ call.id :=
    fun hother => (mem_eraseIdx_iff ht.names hcall).mp hother
  refine ⟨by rw [habout.pushed_append]; exact ht.numbered,
    by rw [habout.pushed_append]; exact ht.queued, ?_, ?_, ?_, ?_, ht.order_append habout horder⟩
  · exact ht.names.sublist ((List.eraseIdx_sublist _ _).map Call.id)
  · intro id hid
    obtain ⟨hfresh, hhistory⟩ := ht.fresh id hid
    have hne : id ≠ call.id := (hfresh call hmem).symm
    refine ⟨?_, List.forall_mem_append.mpr ⟨hhistory, habout.others id hne⟩⟩
    intro other hother
    exact hfresh other (hcalls hother).1
  · intro other hother
    obtain ⟨hother, hne⟩ := hcalls hother
    exact (ht.inProgress other hother).append (habout.others other.id hne)
  · intro id stats hret
    rcases List.mem_append.mp hret with hret | hret
    · obtain ⟨hprogress, hgone⟩ := ht.returned id stats hret
      have hne : id ≠ call.id := (hgone call hmem).symm
      refine ⟨hprogress.append (habout.others id hne), ?_⟩
      intro other hother
      exact hgone other (hcalls hother).1
    · obtain ⟨rfl, hprogress⟩ := hreturned id stats hret
      refine ⟨hprogress, ?_⟩
      intro other hother
      exact (hcalls hother).2

theorem step_tracked {s' : State τ} {a : Action τ} {os : List Obs} (ht : Tracked h s)
    (hstep : (machine τ).step s a = some (s', os)) : Tracked (h ++ os) s' := by
  cases step_cases hstep with
  | pushes => exact ht.push
  | drains thread =>
      have hfresh := (ht.fresh s.nextCall le_rfl).2
      have hprogress := Progress.drained hfresh s.queue
      refine ht.swap thread (.single rfl (by simp [Obs.call])) (by simp) hprogress
        ⟨hprogress.startedBy_prefix, ?_⟩
      rw [claimedBy_drained hfresh]
      exact ht.queued
  | starts thread call task snapshot stats hcall hframe =>
      have hprogress := ht.inProgress call (List.mem_of_getElem? hcall)
      rw [hframe] at hprogress
      have hnext := Progress.starts hprogress
      refine ht.advance hcall (.single rfl (by simp [Obs.call])) (by simp) hnext
        ⟨hnext.startedBy_prefix, ?_⟩
      rw [claimedBy_append]
      simpa [claimedBy] using (ht.order call.id).2
  | finishes thread call task snapshot stats threw hcall hframe =>
      have hprogress := ht.inProgress call (List.mem_of_getElem? hcall)
      rw [hframe] at hprogress
      exact ht.advance hcall (.single rfl (by simp [Obs.call])) (by simp)
        (Progress.finishes hprogress threw) (ht.order_same rfl rfl)
  | drops thread => exact ht.swap thread (.nil _) (by simp) trivial (ht.order_same rfl rfl)
  | destroys thread call leftover n task hcall hframe hn =>
      exact ht.advance hcall (.single rfl (by simp [Obs.call])) (by simp) trivial
        (ht.order_same rfl rfl)
  | returns thread call stats hcall hframe =>
      have hprogress := ht.inProgress call (List.mem_of_getElem? hcall)
      rw [hframe] at hprogress
      refine ht.leave hcall (.single rfl (by simp [Obs.call])) (ht.order_same rfl rfl) ?_
      intro id stats' hret
      obtain ⟨rfl, rfl⟩ : id = call.id ∧ stats' = stats := by simpa using hret
      exact ⟨rfl, hprogress.of_same rfl rfl rfl⟩
  | dropped thread call hcall hframe =>
      exact ht.leave hcall (.nil _) (ht.order_same rfl rfl) (by simp)

theorem tracked_of_run (hrun : (machine τ).Run Machine.always {} h s) : Tracked h s :=
  hrun.history_invariant Tracked (tracked_initial τ)
    (fun _ _ _ _ _ ht _ hstep => step_tracked ht hstep)

end

/-! ## Where a task is -/

/-- The states of a task. -/
inductive Place
  | queued
  /-- In the snapshot of a `Drain`, which has not called it to its end. -/
  | claimed (call : CallId)
  /-- Called by a `Drain`; it has returned or thrown. -/
  | executed (call : CallId)
  /-- Swapped out by a `DropAll`, which destroys it or has done so. -/
  | dropped
deriving DecidableEq, Repr

def Frame.places (id : CallId) (task : TaskId) : Frame → Multiset Place
  | .drain running snapshot _ =>
    Multiset.replicate ((running.toList ++ snapshot).count task) (.claimed id)
  | .dropAll leftover => Multiset.replicate (leftover.count task) .dropped

def Obs.places (task : TaskId) : Obs → Multiset Place
  | .ended id other _ => if other = task then {.executed id} else 0
  | .destroyed other => if other = task then {.dropped} else 0
  | .pushed _ | .drained _ _ | .started _ _ | .returned _ _ => 0

/-- All the places where a task is, each as often as it is there. -/
def places {τ : Type} (h : List Obs) (s : State τ) (task : TaskId) : Multiset Place :=
  Multiset.replicate (s.queue.count task) .queued +
    (s.calls.map (fun call => call.frame.places call.id task)).sum +
    (h.map (Obs.places task)).sum

section

variable {τ : Type} {h : List Obs} {s : State τ} {task : TaskId}

theorem card_places_frame (id : CallId) (frame : Frame) :
    (frame.places id task).card = frame.running.count task + frame.waiting.count task := by
  cases frame with
  | drain running snapshot stats => simp [Frame.places, Frame.running, Frame.waiting]
  | dropAll leftover => simp [Frame.places, Frame.running, Frame.waiting]

theorem card_places_calls (calls : List (Call τ)) :
    (calls.map (fun call : Call τ => call.frame.places call.id task)).sum.card =
      (calls.map (fun call : Call τ => (call.frame.running : Multiset TaskId))).sum.count task +
      (calls.map (fun call : Call τ => (call.frame.waiting : Multiset TaskId))).sum.count task := by
  induction calls with
  | nil => rfl
  | cons call calls ih =>
      simp only [List.map_cons, List.sum_cons, Multiset.card_add, Multiset.count_add, ih,
        card_places_frame, Multiset.coe_count]
      omega

theorem card_places_history (h : List Obs) :
    (h.map (Obs.places task)).sum.card = (executed h).count task + (destroyed h).count task := by
  induction h with
  | nil => rfl
  | cons o h ih =>
      rw [List.map_cons, List.sum_cons, Multiset.card_add, ih]
      cases o with
      | ended id other threw =>
          by_cases heq : other = task
          · simp [Obs.places, executed, destroyed, heq]
            omega
          · simp [Obs.places, executed, destroyed, heq]
      | destroyed other =>
          by_cases heq : other = task
          · simp [Obs.places, executed, destroyed, heq]
            omega
          · simp [Obs.places, executed, destroyed, heq]
      | pushed | drained | started | returned => simp [Obs.places, executed, destroyed]

variable [DecidableEq τ]

/-- **A task is where its push has put it**, once for each push, and it has
been called at most so often. -/
theorem accounts_of_run (hrun : (machine τ).Run Machine.always {} h s) (task : TaskId) :
    (places h s task).card = (pushed h).count task ∧
      (called h).count task ≤ (pushed h).count task := by
  have huncalled := Ledger.balanced_of_run (L := uncalled τ) (by simp [uncalled, State.inCalls])
    (fun _ _ _ _ _ hstep => (step_cases hstep).moves_uncalled) hrun
  have hunderWay := Ledger.balanced_of_run (L := underWay τ) (by simp [underWay, State.inCalls])
    (fun _ _ _ _ _ hstep => (step_cases hstep).moves_underWay) hrun
  have hpushed := congrArg (Multiset.count task) huncalled
  have hcalled := congrArg (Multiset.count task) hunderWay
  rw [left_uncalled, entered_uncalled] at hpushed
  rw [left_underWay, entered_underWay] at hcalled
  simp only [Multiset.count_add, Multiset.coe_count, uncalled] at hpushed
  simp only [Multiset.count_add, Multiset.coe_count, underWay] at hcalled
  simp only [places, Multiset.card_add, Multiset.card_replicate, card_places_calls,
    card_places_history]
  simp only [State.inCalls] at hpushed hcalled
  omega

/-- What the history of the queue promises. -/
structure Accounted (h : List Obs) (s : State τ) : Prop where
  /-- Tasks are numbered as they are pushed. -/
  numbered : pushed h = List.range s.nextTask
  /-- A pushed task is in one place, and there once, -/
  place : ∀ task ∈ pushed h, ∃ place, places h s task = {place}
  /-- and is called at most once. -/
  once : (called h).Nodup
  /-- A `Drain` that returns has called its snapshot to the end; its
  statistics count what it has called and what has thrown. -/
  stats : ∀ id stats, .returned id stats ∈ h →
    startedBy h id = claimedBy h id ∧ (endedBy h id).map Prod.fst = claimedBy h id ∧
      stats.executed = (startedBy h id).length ∧
      stats.exceptions = (endedBy h id).countP Prod.snd
  /-- A `Drain` calls tasks of its snapshot only, in push order. -/
  order : ∀ id, startedBy h id <+: claimedBy h id ∧ (startedBy h id).Sublist (pushed h)

/-- **No task is lost or repeated**, whatever the threads, the tasks and their
destructors do. -/
theorem tasks_accounted (hrun : (machine τ).Run Machine.always {} h s) : Accounted h s := by
  have ht := tracked_of_run hrun
  have hnodup : (pushed h).Nodup := by
    rw [ht.numbered]
    exact List.nodup_range
  refine ⟨ht.numbered, ?_, ?_, ?_, ?_⟩
  · intro task htask
    obtain ⟨hcard, -⟩ := accounts_of_run hrun task
    rw [List.count_eq_one_of_mem hnodup htask] at hcard
    exact Multiset.card_eq_one.mp hcard
  · refine List.nodup_iff_count_le_one.mpr ?_
    intro task
    obtain ⟨-, hcalled⟩ := accounts_of_run hrun task
    exact hcalled.trans (List.nodup_iff_count_le_one.mp hnodup task)
  · intro id stats hret
    obtain ⟨hprogress, -⟩ := ht.returned id stats hret
    have hstarted := hprogress.started
    rw [List.append_nil] at hstarted
    have hended := hprogress.ended
    rw [Option.toList_none, List.append_nil] at hended
    exact ⟨hstarted, hended.trans hstarted, hprogress.executed, hprogress.exceptions⟩
  · intro id
    obtain ⟨hstarted, hclaimed⟩ := ht.order id
    exact ⟨hstarted, hstarted.sublist.trans hclaimed⟩

end

/-- Thread 1 drains three tasks.  The first pushes a task and drains it, which
throws while thread 0 pushes one more; the second drops that one. -/
def nestedRun : List (Action Nat) :=
  [.push 0, .push 0, .push 0, .drain 1, .start 1, .push 1, .drain 1, .start 1, .push 0,
    .finish 1 true, .leave 1, .finish 1 false, .start 1, .dropAll 1, .destroy 1 0, .leave 1,
    .finish 1 false, .start 1, .finish 1 true, .leave 1]

theorem tasks_accounted_nested : ∃ h s, (machine Nat).Run Machine.always {} h s ∧
    pushed h = [0, 1, 2, 3, 4] ∧ called h = [0, 3, 1, 2] ∧ destroyed h = [4] ∧
    .returned 1 { executed := 1, exceptions := 1 } ∈ h ∧
    .returned 0 { executed := 3, exceptions := 1 } ∈ h ∧ Accounted h s := by
  have hexec : ((machine Nat).exec {} nestedRun).map Prod.snd =
      some [.pushed 0, .pushed 1, .pushed 2, .drained 0 [0, 1, 2], .started 0 0, .pushed 3,
        .drained 1 [3], .started 1 3, .pushed 4, .ended 1 3 true, .returned 1 ⟨1, 1⟩,
        .ended 0 0 false, .started 0 1, .destroyed 4, .ended 0 1 false, .started 0 2,
        .ended 0 2 true, .returned 0 ⟨3, 1⟩] := by decide
  obtain ⟨h, s, hrun, hhistory⟩ := Machine.Run.of_exec_map hexec
  have hobserved : h = _ := hhistory
  subst hobserved
  exact ⟨_, s, hrun, by decide, by decide, by decide, by simp, by simp, tasks_accounted hrun⟩

end WorkQueue
