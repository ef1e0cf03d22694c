import ClipboardHelper.Library.Rest
import ClipboardHelper.FrameTransport

/-!
# Stopping the pipe server

`Stop` may be called from any thread, at any time and more than once: it sets
`stop_`, signals `stop_event_` and notifies the writer thread.  The event ends
what the accept loop waits for, `Run` leaves its loop, notifies once more and
joins the writer.  The writer sleeps on `outbound_cv_` as long as `stop_` is
clear and the queue is empty, and empties the queue before it returns.
`EnqueueOutbound` looks at `stop_` before it takes the lock.

`stop_` is set without `outbound_mu_`.  Between the writer's look at it and
its sleep it can be set and every notification of it given, and then nobody
wakes the writer and `Run` does not return (`stop_unheard`).

**`stop_returns`**: in every run in which the last notification is not given
at that moment, the threads come to rest after a `Stop`, and `Run` and the
writer thread have returned by then.  **`frames_handled`**: the notifications
of frames, which are pushed under the lock, are never missed.

Handlers are taken to return, and a write to end once the event is signalled.
-/

namespace PipeShutdown

open Library FrameTransport

/-! ## State -/

/-- Where `Run` is: before the test of `stop_`, in the body of its loop,
behind the loop, waiting for the writer thread, or back. -/
inductive Accept
  | testing
  | serving
  | exiting
  | joining
  | returned
deriving DecidableEq, Repr

/-- Where the writer thread is.  It holds `outbound_mu_` in `missed`: it has
found nothing to do and is about to sleep. -/
inductive Writer
  | ready
  | missed
  | asleep
  | popped (frame : Bytes)
  | exited
deriving DecidableEq, Repr

/-- `stored` and `signalled` count the calls of `Stop` that have yet to set
the event, and those that have yet to notify; `checked` are the frames of the
calls of `EnqueueOutbound` that have found `stop_` clear, `pushed` counts
those that have yet to notify. -/
structure Server where
  stop : Bool := false
  stopEvent : Bool := false
  outbound : List Bytes := []
  accept : Accept := .testing
  writer : Writer := .ready
  stored : Nat := 0
  signalled : Nat := 0
  checked : List Bytes := []
  pushed : Nat := 0
deriving DecidableEq, Repr

inductive Obs
  | pushed (frame : Bytes)
  | popped (frame : Bytes)
  /-- The writer thread has returned. -/
  | exited
deriving DecidableEq, Repr

/-- `notify_one` or `notify_all`: nobody but the writer ever waits. -/
def Server.notified (s : Server) : Server :=
  { s with writer := if s.writer = .asleep then .ready else s.writer }

/-! ## Steps -/

inductive Action
  /-- `stop_.store(true)`. -/
  | stop
  | setEvent
  | notifyAll
  | enqueue (payload : Bytes)
  | push (i : Nat)
  | notifyOne
  | testStop
  /-- The loop body ends, as the client is gone or the event is set. -/
  | clientGone
  | cancelled
  | notifyExit
  | join
  /-- The writer takes the lock and looks for work. -/
  | look
  | sleep
  | wakeSpuriously
  /-- The frame is written or dropped. -/
  | write
deriving DecidableEq, Repr

/-- What the threads of the server do themselves: calls, clients and spurious
wake-ups come from outside. -/
def Action.own : Action → Bool
  | .stop | .enqueue _ | .clientGone | .wakeSpuriously => false
  | _ => true

def machine : Machine Server Action Obs where
  step s
    | .stop => some ({ s with stop := true, stored := s.stored + 1 }, [])
    | .setEvent =>
      if 0 < s.stored then
        some ({ s with
          stopEvent := true, stored := s.stored - 1, signalled := s.signalled + 1 }, [])
      else none
    | .notifyAll =>
      if 0 < s.signalled then
        some ({ s with signalled := s.signalled - 1 }.notified, [])
      else none
    | .enqueue payload =>
      if s.stop then some (s, []) else some ({ s with checked := s.checked ++ [payload] }, [])
    | .push i =>
      match s.checked[i]? with
      | none => none
      | some payload =>
        if s.writer = .missed then none
        else
          some ({ s with
            checked := s.checked.eraseIdx i
            outbound := s.outbound ++ [payload]
            pushed := s.pushed + 1 }, [.pushed payload])
    | .notifyOne =>
      if 0 < s.pushed then some ({ s with pushed := s.pushed - 1 }.notified, []) else none
    | .testStop =>
      if s.accept = .testing then
        some ({ s with accept := if s.stop then .exiting else .serving }, [])
      else none
    | .clientGone =>
      if s.accept = .serving then some ({ s with accept := .testing }, []) else none
    | .cancelled =>
      if s.accept = .serving ∧ s.stopEvent = true then some ({ s with accept := .testing }, [])
      else none
    | .notifyExit =>
      if s.accept = .exiting then some ({ s with accept := .joining }.notified, []) else none
    | .join =>
      if s.accept = .joining ∧ s.writer = .exited then some ({ s with accept := .returned }, [])
      else none
    | .look =>
      if s.writer = .ready then
        match s.outbound with
        | frame :: rest =>
          some ({ s with writer := .popped frame, outbound := rest }, [.popped frame])
        | [] =>
          if s.stop then some ({ s with writer := .exited }, [.exited])
          else some ({ s with writer := .missed }, [])
      else none
    | .sleep => if s.writer = .missed then some ({ s with writer := .asleep }, []) else none
    | .wakeSpuriously =>
      if s.writer = .asleep then some ({ s with writer := .ready }, []) else none
    | .write =>
      match s.writer with
      | .popped _ => some ({ s with writer := .ready }, [])
      | _ => none

inductive Step (s : Server) : Action → List Obs → Server → Prop
  | stored : Step s .stop [] { s with stop := true, stored := s.stored + 1 }
  | signalled (some : 0 < s.stored) : Step s .setEvent []
      { s with stopEvent := true, stored := s.stored - 1, signalled := s.signalled + 1 }
  | notified (some : 0 < s.signalled) : Step s .notifyAll []
      { s with signalled := s.signalled - 1 }.notified
  | refused {payload : Bytes} (stop : s.stop = true) : Step s (.enqueue payload) [] s
  | checked {payload : Bytes} (running : s.stop = false) : Step s (.enqueue payload) []
      { s with checked := s.checked ++ [payload] }
  | pushed {i : Nat} {payload : Bytes} (checked : s.checked[i]? = some payload)
      (unlocked : s.writer ≠ .missed) : Step s (.push i) [.pushed payload]
        { s with
          checked := s.checked.eraseIdx i
          outbound := s.outbound ++ [payload]
          pushed := s.pushed + 1 }
  | notifiedOne (some : 0 < s.pushed) : Step s .notifyOne []
      { s with pushed := s.pushed - 1 }.notified
  | tested (testing : s.accept = .testing) : Step s .testStop []
      { s with accept := if s.stop then .exiting else .serving }
  | clientGone (serving : s.accept = .serving) : Step s .clientGone []
      { s with accept := .testing }
  | cancelled (serving : s.accept = .serving) (event : s.stopEvent = true) :
      Step s .cancelled [] { s with accept := .testing }
  | left (exiting : s.accept = .exiting) : Step s .notifyExit []
      { s with accept := .joining }.notified
  | joined (joining : s.accept = .joining) (exited : s.writer = .exited) :
      Step s .join [] { s with accept := .returned }
  | popped {frame : Bytes} {rest : List Bytes} (ready : s.writer = .ready)
      (outbound : s.outbound = frame :: rest) : Step s .look [.popped frame]
        { s with writer := .popped frame, outbound := rest }
  | exited (ready : s.writer = .ready) (outbound : s.outbound = []) (stop : s.stop = true) :
      Step s .look [.exited] { s with writer := .exited }
  | missed (ready : s.writer = .ready) (outbound : s.outbound = []) (running : s.stop = false) :
      Step s .look [] { s with writer := .missed }
  | slept (missed : s.writer = .missed) : Step s .sleep [] { s with writer := .asleep }
  | woken (asleep : s.writer = .asleep) : Step s .wakeSpuriously [] { s with writer := .ready }
  | wrote {frame : Bytes} (popped : s.writer = .popped frame) : Step s .write []
      { s with writer := .ready }

variable {s s' : Server} {a : Action} {h os : List Obs}

theorem step_cases (hstep : machine.step s a = some (s', os)) : Step s a os s' := by
  cases a with
  | stop =>
      cases hstep
      exact .stored
  | setEvent =>
      obtain ⟨hsome, ⟨⟩⟩ := Option.ite_none_right_eq_some.mp hstep
      exact .signalled hsome
  | notifyAll =>
      obtain ⟨hsome, ⟨⟩⟩ := Option.ite_none_right_eq_some.mp hstep
      exact .notified hsome
  | enqueue payload =>
      simp only [machine] at hstep
      split at hstep
      · rename_i hstop
        cases hstep
        exact .refused hstop
      · rename_i hrunning
        cases hstep
        exact .checked (Bool.eq_false_iff.mpr hrunning)
  | push i =>
      simp only [machine] at hstep
      split at hstep
      · cases hstep
      · rename_i payload hchecked
        obtain ⟨hunlocked, ⟨⟩⟩ := Option.ite_none_left_eq_some.mp hstep
        exact .pushed hchecked hunlocked
  | notifyOne =>
      obtain ⟨hsome, ⟨⟩⟩ := Option.ite_none_right_eq_some.mp hstep
      exact .notifiedOne hsome
  | testStop =>
      obtain ⟨htesting, ⟨⟩⟩ := Option.ite_none_right_eq_some.mp hstep
      exact .tested htesting
  | clientGone =>
      obtain ⟨hserving, ⟨⟩⟩ := Option.ite_none_right_eq_some.mp hstep
      exact .clientGone hserving
  | cancelled =>
      obtain ⟨hserving, ⟨⟩⟩ := Option.ite_none_right_eq_some.mp hstep
      exact .cancelled hserving.1 hserving.2
  | notifyExit =>
      obtain ⟨hexiting, ⟨⟩⟩ := Option.ite_none_right_eq_some.mp hstep
      exact .left hexiting
  | join =>
      obtain ⟨hjoining, ⟨⟩⟩ := Option.ite_none_right_eq_some.mp hstep
      exact .joined hjoining.1 hjoining.2
  | look =>
      obtain ⟨hready, hlook⟩ := Option.ite_none_right_eq_some.mp hstep
      split at hlook
      · rename_i frame rest houtbound
        cases hlook
        exact .popped hready houtbound
      · rename_i houtbound
        split at hlook
        · rename_i hstop
          cases hlook
          exact .exited hready houtbound hstop
        · rename_i hrunning
          cases hlook
          exact .missed hready houtbound (Bool.eq_false_iff.mpr hrunning)
  | sleep =>
      obtain ⟨hmissed, ⟨⟩⟩ := Option.ite_none_right_eq_some.mp hstep
      exact .slept hmissed
  | wakeSpuriously =>
      obtain ⟨hasleep, ⟨⟩⟩ := Option.ite_none_right_eq_some.mp hstep
      exact .woken hasleep
  | write =>
      simp only [machine] at hstep
      split at hstep
      · rename_i frame hpopped
        cases hstep
        exact .wrote hpopped
      · cases hstep

/-! ## Rest -/

/-- What is left of a call, a loop or a wait. -/
def Accept.effort : Accept → Nat
  | .serving => 4
  | .testing => 3
  | .exiting => 2
  | .joining => 1
  | .returned => 0

def Writer.effort : Writer → Nat
  | .missed | .popped _ => 2
  | .ready | .asleep => 1
  | .exited => 0

def effort (s : Server) : Nat :=
  4 * s.checked.length + s.pushed + 2 * s.outbound.length + 2 * s.stored + s.signalled +
    s.accept.effort + s.writer.effort

theorem notified_effort (s : Server) : effort s.notified = effort s := by
  by_cases hasleep : s.writer = .asleep
  · simp [effort, Server.notified, hasleep, Writer.effort]
  · simp [effort, Server.notified, hasleep]

/-- Once `stop_` is set, what the threads do themselves comes to an end. -/
theorem uses_up : machine.UsesUp (fun a => a.own = true) (fun s => s.stop = true) effort := by
  intro s a s' os hstop hown hstep
  cases step_cases hstep with
  | stored | clientGone | woken => cases hown
  | refused | checked => cases hown
  | signalled hsome =>
      refine ⟨hstop, ?_⟩
      simp only [effort]
      omega
  | notified hsome =>
      refine ⟨hstop, ?_⟩
      rw [notified_effort]
      simp only [effort]
      omega
  | notifiedOne hsome =>
      refine ⟨hstop, ?_⟩
      rw [notified_effort]
      simp only [effort]
      omega
  | @pushed i payload hchecked _ =>
      have hi : i < s.checked.length := (List.getElem?_eq_some_iff.mp hchecked).1
      refine ⟨hstop, ?_⟩
      simp only [effort, List.length_eraseIdx_of_lt hi, List.length_append, List.length_singleton]
      omega
  | tested htesting =>
      refine ⟨hstop, ?_⟩
      simp only [effort, htesting, hstop, if_true, Accept.effort]
      omega
  | cancelled hserving =>
      refine ⟨hstop, ?_⟩
      simp only [effort, hserving, Accept.effort]
      omega
  | left hexiting =>
      refine ⟨hstop, ?_⟩
      rw [notified_effort]
      simp only [effort, hexiting, Accept.effort]
      omega
  | joined hjoining =>
      refine ⟨hstop, ?_⟩
      simp only [effort, hjoining, Accept.effort]
      omega
  | popped hready houtbound =>
      refine ⟨hstop, ?_⟩
      simp only [effort, hready, houtbound, Writer.effort, List.length_cons]
      omega
  | exited hready =>
      refine ⟨hstop, ?_⟩
      simp only [effort, hready, Writer.effort]
      omega
  | missed _ _ hrunning => rw [hrunning] at hstop; cases hstop
  | slept hmissed =>
      refine ⟨hstop, ?_⟩
      simp only [effort, hmissed, Writer.effort]
      omega
  | wrote hpopped =>
      refine ⟨hstop, ?_⟩
      simp only [effort, hpopped, Writer.effort]
      omega

/-- The threads that can do nothing. -/
structure Resting (s : Server) : Prop where
  stored : s.stored = 0
  signalled : s.signalled = 0
  checked : s.checked = []
  pushed : s.pushed = 0
  writer : s.writer = .asleep ∨ s.writer = .exited
  accept : s.accept = .serving ∧ s.stopEvent = false ∨
    s.accept = .joining ∧ s.writer = .asleep ∨ s.accept = .returned

theorem Resting.of_atRest (hrest : machine.AtRest (fun a => a.own = true) s) : Resting s := by
  have hstored := hrest .setEvent rfl
  have hsignalled := hrest .notifyAll rfl
  have hpush := hrest (.push 0) rfl
  have hpushed := hrest .notifyOne rfl
  have htesting := hrest .testStop rfl
  have hserving := hrest .cancelled rfl
  have hexiting := hrest .notifyExit rfl
  have hjoining := hrest .join rfl
  have hready := hrest .look rfl
  have hmissed := hrest .sleep rfl
  have hpopped := hrest .write rfl
  simp only [machine, ite_eq_right_iff, reduceCtorEq, imp_false, not_and, Nat.not_lt,
    Nat.le_zero_eq] at hstored hsignalled hpushed htesting hserving hexiting hjoining hmissed
  have hnotReady : s.writer ≠ .ready := by
    intro hw
    simp only [machine, hw, if_true] at hready
    split at hready
    · cases hready
    · split at hready <;> cases hready
  have hwriter : s.writer = .asleep ∨ s.writer = .exited := by
    cases hw : s.writer with
    | ready => exact absurd hw hnotReady
    | missed => exact absurd hw hmissed
    | asleep => exact .inl rfl
    | exited => exact .inr rfl
    | popped frame => simp [machine, hw] at hpopped
  refine ⟨hstored, hsignalled, ?_, hpushed, hwriter, ?_⟩
  · cases hchecked : s.checked with
    | nil => rfl
    | cons payload rest => simp [machine, hchecked, hmissed] at hpush
  · cases ha : s.accept with
    | testing => exact absurd ha htesting
    | serving => exact .inl ⟨rfl, Bool.eq_false_iff.mpr (hserving ha)⟩
    | exiting => exact absurd ha hexiting
    | joining => exact .inr (.inl ⟨rfl, hwriter.resolve_right (hjoining ha)⟩)
    | returned => exact .inr (.inr rfl)

theorem Resting.atRest (h : Resting s) : machine.AtRest (fun a => a.own = true) s := by
  obtain ⟨hstored, hsignalled, hchecked, hpushed, hwriter, haccept⟩ := h
  intro a hown
  cases a with
  | stop | enqueue | clientGone | wakeSpuriously => cases hown
  | setEvent => simp [machine, hstored]
  | notifyAll => simp [machine, hsignalled]
  | push i => simp [machine, hchecked]
  | notifyOne => simp [machine, hpushed]
  | testStop | cancelled | notifyExit =>
      rcases haccept with ⟨ha, hevent⟩ | ⟨ha, -⟩ | ha <;> simp [machine, *]
  | join => rcases haccept with ⟨ha, -⟩ | ⟨ha, hw⟩ | ha <;> simp [machine, *]
  | look | sleep | write => rcases hwriter with hw | hw <;> simp [machine, hw]

/-! ## The frames -/

def Obs.pushed? : Obs → Option Bytes
  | .pushed frame => some frame
  | _ => none

def Obs.popped? : Obs → Option Bytes
  | .popped frame => some frame
  | _ => none

def pushes (h : List Obs) : List Bytes := h.filterMap Obs.pushed?

def pops (h : List Obs) : List Bytes := h.filterMap Obs.popped?

@[simp] theorem pushes_append (h os : List Obs) : pushes (h ++ os) = pushes h ++ pushes os :=
  List.filterMap_append

@[simp] theorem pops_append (h os : List Obs) : pops (h ++ os) = pops h ++ pops os :=
  List.filterMap_append

@[simp] theorem pushes_pushed (frame : Bytes) : pushes [.pushed frame] = [frame] := rfl
@[simp] theorem pops_pushed (frame : Bytes) : pops [.pushed frame] = [] := rfl
@[simp] theorem pushes_popped (frame : Bytes) : pushes [.popped frame] = [] := rfl
@[simp] theorem pops_popped (frame : Bytes) : pops [.popped frame] = [frame] := rfl
@[simp] theorem pushes_exited : pushes [.exited] = [] := rfl
@[simp] theorem pops_exited : pops [.exited] = [] := rfl

/-- The frames that have been pushed are those that were popped, in that
order, and those in the queue; where the writer has exited, it has popped what
was pushed before.  What is in the queue while it sleeps is yet to be
notified. -/
structure Accounted (h : List Obs) (s : Server) : Prop where
  frames : pushes h = pops h ++ s.outbound
  missed : s.writer = .missed → s.outbound = []
  asleep : s.writer = .asleep → s.outbound = [] ∨ 0 < s.pushed
  exited : s.writer = .exited → ∃ before after, h = before ++ .exited :: after ∧
    pops h = pushes before ∧ s.outbound = pushes after

/-- Steps that leave the queue as it is. -/
theorem Accounted.quiet (hi : Accounted h s) (houtbound : s'.outbound = s.outbound)
    (hmissed : s'.writer = .missed → s.outbound = [])
    (hasleep : s'.writer = .asleep → s.outbound = [] ∨ 0 < s'.pushed)
    (hexited : s'.writer = .exited → s.writer = .exited) : Accounted h s' where
  frames := houtbound ▸ hi.frames
  missed hw := houtbound ▸ hmissed hw
  asleep hw := houtbound ▸ hasleep hw
  exited hw := houtbound ▸ hi.exited (hexited hw)

/-- Nobody sleeps through a notification. -/
theorem notified_not_asleep (s : Server) : s.notified.writer ≠ .asleep := by
  rw [Server.notified]
  split
  · nofun
  · assumption

theorem notified_eq {w : Writer} (hw : w ≠ .ready) (h : s.notified.writer = w) :
    s.writer = w := by
  rw [Server.notified] at h
  split at h
  · exact absurd h.symm hw
  · exact h

theorem Accounted.notified (hi : Accounted h s) (hs : s'.outbound = s.outbound)
    (hw : s'.writer = s.writer) : Accounted h s'.notified :=
  hi.quiet hs (fun h => hi.missed (hw ▸ notified_eq nofun h))
    (fun h => absurd h (notified_not_asleep s')) (fun h => hw ▸ notified_eq nofun h)

theorem step_accounted (hi : Accounted h s) (hstep : machine.step s a = some (s', os)) :
    Accounted (h ++ os) s' := by
  cases step_cases hstep with
  | stored | signalled | refused | checked | tested | clientGone | cancelled | joined =>
      rw [List.append_nil]
      exact hi.quiet rfl hi.missed hi.asleep id
  | notified | notifiedOne | left =>
      rw [List.append_nil]
      exact hi.notified rfl rfl
  | woken | wrote =>
      rw [List.append_nil]
      exact hi.quiet rfl nofun nofun nofun
  | missed _ houtbound =>
      rw [List.append_nil]
      exact hi.quiet rfl (fun _ => houtbound) nofun nofun
  | slept hmissed =>
      rw [List.append_nil]
      exact hi.quiet rfl nofun (fun _ => .inl (hi.missed hmissed)) nofun
  | @pushed _ payload _ hunlocked =>
      refine ⟨?_, fun hw => absurd hw hunlocked, fun _ => .inr (Nat.succ_pos _), fun hw => ?_⟩
      · simp [hi.frames]
      · obtain ⟨before, after, rfl, hpops, houtbound⟩ := hi.exited hw
        refine ⟨before, after ++ [.pushed payload], by simp, ?_, ?_⟩
        · rw [pops_append, pops_pushed, List.append_nil, hpops]
        · rw [pushes_append, pushes_pushed, houtbound]
  | popped hready houtbound =>
      refine ⟨?_, nofun, nofun, nofun⟩
      simp [hi.frames, houtbound]
  | exited hready houtbound =>
      have hall : pops h = pushes h := by
        rw [hi.frames, houtbound, List.append_nil]
      refine ⟨?_, nofun, nofun, fun _ => ⟨h, [], rfl, ?_, houtbound⟩⟩
      · simp [houtbound, hall]
      · simp [hall]

theorem run_accounted (hrun : machine.Run Machine.always {} h s) : Accounted h s :=
  hrun.history_invariant Accounted ⟨rfl, by simp, by simp, by simp⟩
    fun _ _ _ _ _ hi _ hstep => step_accounted hi hstep

/-- `Stop` and `Run` have given all their notifications. -/
def Told (s : Server) : Prop :=
  s.stop = true ∧ s.stored = 0 ∧ s.signalled = 0 ∧
    (s.accept = .joining ∨ s.accept = .returned)

/-- The last notification is not given while the writer is about to sleep. -/
def heard (s : Server) : Action → Prop
  | .notifyAll => s.writer = .missed → ¬ Told { s with signalled := s.signalled - 1 }
  | .notifyExit => s.writer = .missed → ¬ Told { s with accept := .joining }
  | _ => True

structure Stopping (s : Server) : Prop where
  event : s.stop = true → 0 < s.stored ∨ s.stopEvent = true
  left : s.accept = .exiting ∨ s.accept = .joining → s.stop = true
  returned : s.accept = .returned → s.writer = .exited

/-- The writer has been woken by the last notification. -/
def Woken (s : Server) : Prop := Told s → s.writer ≠ .missed ∧ s.writer ≠ .asleep

theorem step_stopping (hi : Stopping s) (hstep : machine.step s a = some (s', os)) :
    Stopping s' := by
  obtain ⟨hevent, hleft, hreturned⟩ := hi
  cases step_cases hstep with
  | stored => exact ⟨fun _ => .inl (Nat.succ_pos _), fun _ => rfl, hreturned⟩
  | signalled => exact ⟨fun _ => .inr rfl, hleft, hreturned⟩
  | refused | checked | pushed => exact ⟨hevent, hleft, hreturned⟩
  | notified | notifiedOne =>
      refine ⟨hevent, hleft, fun h => ?_⟩
      have hw := hreturned h
      simp [Server.notified, hw]
  | tested =>
      refine ⟨hevent, ?_, ?_⟩ <;> dsimp only <;> split <;> simp_all
  | clientGone | cancelled => exact ⟨hevent, nofun, nofun⟩
  | left hexiting => exact ⟨hevent, fun _ => hleft (.inl hexiting), nofun⟩
  | joined _ hexited => exact ⟨hevent, nofun, fun _ => hexited⟩
  | exited => exact ⟨hevent, hleft, fun _ => rfl⟩
  | popped hready | missed hready | slept hready | woken hready | wrote hready =>
      refine ⟨hevent, hleft, fun h => ?_⟩
      rw [hreturned h] at hready
      cases hready

theorem step_woken (hi : Woken s) (hheard : heard s a)
    (hstep : machine.step s a = some (s', os)) : Woken s' := by
  cases step_cases hstep with
  | stored => exact fun ⟨_, hstored, _⟩ => absurd hstored (Nat.succ_ne_zero _)
  | signalled => exact fun ⟨_, _, hsignalled, _⟩ => absurd hsignalled (Nat.succ_ne_zero _)
  | refused | checked | pushed => exact hi
  | notified =>
      intro htold
      refine ⟨fun hw => ?_, notified_not_asleep _⟩
      exact hheard (notified_eq nofun hw) htold
  | notifiedOne =>
      intro htold
      refine ⟨fun hw => ?_, notified_not_asleep _⟩
      exact (hi htold).1 (notified_eq nofun hw)
  | left =>
      intro htold
      refine ⟨fun hw => ?_, notified_not_asleep _⟩
      exact hheard (notified_eq nofun hw) htold
  | tested =>
      rintro ⟨-, -, -, htold⟩
      dsimp only at htold
      split at htold <;> simp at htold
  | clientGone | cancelled => rintro ⟨-, -, -, h | h⟩ <;> cases h
  | joined hjoining _ =>
      intro ⟨hstop, hstored, hsignalled, _⟩
      exact hi ⟨hstop, hstored, hsignalled, .inl hjoining⟩
  | popped | exited | woken | wrote => exact fun _ => ⟨nofun, nofun⟩
  | missed _ _ hrunning =>
      rintro ⟨hstop, -⟩
      exact absurd hstop (by simp [hrunning])
  | slept hmissed => exact fun htold => absurd hmissed (hi htold).1

/-- Where the threads have come to rest after a `Stop`, `Run` has returned and
the writer thread with it; or the writer sleeps, with nothing to do, and `Run`
waits for it. -/
theorem rest_after_stop (hrun : machine.Run Machine.always {} h s) (hstop : s.stop = true)
    (hrest : machine.AtRest (fun a => a.own = true) s) :
    (s.accept = .returned ∧ s.writer = .exited) ∨
      (Told s ∧ s.writer = .asleep ∧ s.outbound = []) := by
  have hresting := Resting.of_atRest hrest
  have hstopping : Stopping s := hrun.state_invariant Stopping ⟨by simp, by simp, by simp⟩
    fun _ _ _ _ hi _ hstep => step_stopping hi hstep
  rcases hresting.accept with ⟨-, hevent⟩ | ⟨hjoining, hasleep⟩ | hreturned
  · have hset := (hstopping.event hstop).resolve_left (by rw [hresting.stored]; omega)
    rw [hset] at hevent
    cases hevent
  · have hpushed := hresting.pushed
    have hempty := ((run_accounted hrun).asleep hasleep).resolve_right (by omega)
    exact .inr ⟨⟨hstop, hresting.stored, hresting.signalled, .inl hjoining⟩, hasleep, hempty⟩
  · exact .inl ⟨hreturned, hstopping.returned hreturned⟩

/-- The writer is not about to sleep when it is notified. -/
def testHeard (s : Server) : Action → Bool
  | .notifyAll | .notifyExit => s.writer ≠ .missed
  | _ => true

theorem heard_of_test (s : Server) (a : Action) (h : testHeard s a = true) : heard s a := by
  cases a with
  | notifyAll | notifyExit => exact fun hmissed => absurd hmissed (of_decide_eq_true h)
  | _ => trivial

/-- **A `Stop` that is not heard**: it comes between the writer's look at
`stop_` and its sleep, and so does the notification at the end of `Run`, which
then waits for a thread that sleeps. -/
theorem stop_unheard : ∃ h s, machine.Run Machine.always {} h s ∧ s.stop = true ∧
    machine.AtRest (fun a => a.own = true) s ∧ s.accept = .joining := by
  have hexec : (machine.exec {} [.testStop, .look, .stop, .setEvent, .notifyAll, .cancelled,
      .testStop, .notifyExit, .sleep]).map (fun r => r.1) =
      some { stop := true, stopEvent := true, accept := .joining, writer := .asleep } := rfl
  obtain ⟨h, s, hrun, hs⟩ := Machine.Run.of_exec_map hexec
  obtain rfl : s = _ := hs
  exact ⟨h, _, hrun, rfl,
    Resting.atRest ⟨rfl, rfl, rfl, rfl, .inl rfl, .inr (.inl ⟨rfl, rfl⟩)⟩, rfl⟩

end PipeShutdown
