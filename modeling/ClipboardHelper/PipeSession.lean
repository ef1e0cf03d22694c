import ClipboardHelper.Library.Machine
import ClipboardHelper.FrameTransport

/-!
# Sessions of the Windows pipe server

Three kinds of threads share `active_pipe_` and the `outbound_` queue.

* The accept loop connects a client, publishes its pipe, enqueues the READY
  frame of `on_connect`, enqueues replies, and on a disconnect clears and
  closes the pipe.
* `SendFrame` checks that a pipe is active and then, without a lock over
  both, enqueues its frame.
* The writer thread pops a frame, looks the active pipe up, and writes.

Nothing empties the queue between two clients, so a frame, a writer or a
`SendFrame` that is on its way when a client goes can end up at the next one
(`stale_frame_reaches_next_client`).

**`session_isolated`**: in every run in which each handover is quiet
(`quietHandover`) a client gets whole frames, the READY frame of its own
session first, and then only frames that were enqueued while it was
connected.  `Ordered` is the invariant on which frames go where,
`ClientBytes` the one on the bytes.
-/

namespace PipeSession

open Library FrameTransport

/-! ## State -/

/-- A handle value.  The system may hand out the value of a closed handle
again. -/
abbrev Handle := Nat

/-- Clients are numbered in the order in which they connect. -/
abbrev Client := Nat

inductive Kind
  | ready
  | sent
  | reply
deriving DecidableEq, Repr

/-- A frame in the queue.  `seen` is the client that its sender found
connected, `active` the one whose pipe was active when it was enqueued; the
code keeps neither. -/
structure Entry where
  payload : Bytes
  kind : Kind
  seen : Option Client
  active : Option Client
deriving DecidableEq, Repr

/-- Where the accept loop is. -/
inductive Phase
  | idle
  | connected
  | published
  | serving
  | cleared
deriving DecidableEq, Repr

/-- Where the writer thread is.  While it writes, `left` is what its current
`WriteExactOverlapped` has left and `body` what is to follow the header. -/
inductive Writer
  | idle
  | popped (e : Entry)
  | writing (e : Entry) (handle : Handle) (left body : Bytes)
deriving DecidableEq, Repr

/-- The frame that is popped and not yet looked up. -/
def Writer.inHand : Writer → List Entry
  | .popped e => [e]
  | _ => []

@[simp] theorem Writer.inHand_idle : Writer.idle.inHand = [] := rfl
@[simp] theorem Writer.inHand_popped (e : Entry) : (Writer.popped e).inHand = [e] := rfl
@[simp] theorem Writer.inHand_writing (e : Entry) (handle : Handle) (left body : Bytes) :
    (Writer.writing e handle left body).inHand = [] := rfl

structure Server where
  phase : Phase := .idle
  /-- How many clients have connected so far. -/
  clients : Nat := 0
  /-- The open pipe and the client at its other end. -/
  pipe : Option (Handle × Client) := none
  activePipe : Option Handle := none
  outbound : List Entry := []
  /-- The `SendFrame` calls between their check and their enqueue. -/
  checked : List (Bytes × Option Client) := []
  writer : Writer := .idle
  stop : Bool := false
  /-- What each client has been sent. -/
  streams : Client → Bytes := fun _ => []
  /-- A write to the client has failed. -/
  failed : Client → Bool := fun _ => false

/-- The client that a write to the handle reaches. -/
def owner (s : Server) (handle : Handle) : Option Client :=
  s.pipe.bind (fun p => if p.1 = handle then some p.2 else none)

/-- The client whose pipe is active. -/
def activeClient (s : Server) : Option Client := s.activePipe.bind (owner s)

inductive Obs
  | began (client : Client) (e : Entry)
deriving DecidableEq, Repr

/-! ## Steps -/

/-- `EnqueueOutbound`, with `active_pipe_` noted. -/
def enqueueOutbound (s : Server) (payload : Bytes) (kind : Kind) (seen : Option Client) : Server :=
  if s.stop then s
  else { s with outbound := s.outbound ++ [⟨payload, kind, seen, activeClient s⟩] }

/-- The writer looks `active_pipe_` up: without a client the frame is
dropped, and `WriteFrame` refuses an oversized one. -/
def route (s : Server) : Option (Server × List Obs) :=
  match s.writer with
  | .popped e =>
    match s.activePipe with
    | none => some ({ s with writer := .idle }, [])
    | some handle =>
      if e.payload.length > kMaxFrameSize.toNat then some ({ s with writer := .idle }, [])
      else
        let header := writeLengthLE (UInt32.ofNat e.payload.length)
        some ({ s with writer := .writing e handle header e.payload },
          (owner s handle).toList.map (fun c => .began c e))
  | _ => none

/-- One overlapped `WriteFile`.  A handle that is not open fails. -/
def write (s : Server) (call : OverlappedCall) : Option (Server × List Obs) :=
  match s.writer with
  | .writing e handle left body =>
    match owner s handle with
    | none => some ({ s with writer := .idle }, [])
    | some c =>
      match call.io with
      | .moves n =>
        let count := min (n + 1) left.length
        let streams := Function.update s.streams c (s.streams c ++ left.take count)
        if left.drop count ≠ [] then
          some ({ s with
            streams := streams, writer := .writing e handle (left.drop count) body }, [])
        else if body ≠ [] then
          some ({ s with streams := streams, writer := .writing e handle body [] }, [])
        else some ({ s with streams := streams, writer := .idle }, [])
      | .retry => some (s, [])
      | .fails =>
        some ({ s with writer := .idle, failed := Function.update s.failed c true }, [])
  | _ => none

inductive Action
  | connect (handle : Handle)
  | publish
  | ready
  | reply (payload : Bytes)
  | hangUp
  | close
  | check (payload : Bytes)
  | enqueue (i : Nat)
  | pop
  | route
  | write (call : OverlappedCall)
  | stop
deriving DecidableEq, Repr

/-- **The pipe server**, with `onConnect` what `on_connect_` returns. -/
def machine (onConnect : Bytes) : Machine Server Action Obs where
  step s
    | .connect handle =>
      if s.phase = .idle ∧ s.stop = false then
        some ({ s with
          phase := .connected, clients := s.clients + 1, pipe := some (handle, s.clients) }, [])
      else none
    | .publish =>
      if s.phase = .connected then
        some ({ s with phase := .published, activePipe := s.pipe.map Prod.fst }, [])
      else none
    | .ready =>
      if s.phase = .published then
        some ((if onConnect = [] then { s with phase := .serving }
          else enqueueOutbound { s with phase := .serving } onConnect .ready (s.pipe.map Prod.snd)),
          [])
      else none
    | .reply payload =>
      if s.phase = .serving ∧ payload ≠ [] then
        some (enqueueOutbound s payload .reply (s.pipe.map Prod.snd), [])
      else none
    | .hangUp =>
      if s.phase = .serving then some ({ s with phase := .cleared, activePipe := none }, [])
      else none
    | .close =>
      if s.phase = .cleared then some ({ s with phase := .idle, pipe := none }, []) else none
    | .check payload =>
      if s.activePipe = none then some (s, [])
      else some ({ s with checked := s.checked ++ [(payload, activeClient s)] }, [])
    | .enqueue i =>
      match s.checked[i]? with
      | none => none
      | some (payload, seen) =>
        some (enqueueOutbound { s with checked := s.checked.eraseIdx i } payload .sent seen, [])
    | .pop =>
      match s.writer, s.outbound with
      | .idle, e :: rest => some ({ s with writer := .popped e, outbound := rest }, [])
      | _, _ => none
    | .route => route s
    | .write call => write s call
    | .stop => some ({ s with stop := true }, [])

/-- What the writer does with the frame in its hand. -/
inductive Routed (s : Server) : Server → List Obs → Prop
  | dropped {e : Entry} (hand : s.writer = .popped e)
      (why : s.activePipe = none ∨ kMaxFrameSize.toNat < e.payload.length) :
      Routed s { s with writer := .idle } []
  | begun {e : Entry} {handle : Handle} (hand : s.writer = .popped e)
      (active : s.activePipe = some handle) (fits : e.payload.length ≤ kMaxFrameSize.toNat) :
      Routed s
        { s with
          writer := .writing e handle (writeLengthLE (UInt32.ofNat e.payload.length)) e.payload }
        ((owner s handle).toList.map (fun c => .began c e))

/-- What one `WriteFile` does: `chunk` is what it has moved, and `rest` what is
left of the frame. -/
inductive Written (s : Server) : Server → Prop
  | retried : Written s s
  | gone {e : Entry} {handle : Handle} {left body : Bytes}
      (writing : s.writer = .writing e handle left body) (nobody : owner s handle = none) :
      Written s { s with writer := .idle }
  | failed {e : Entry} {handle : Handle} {left body : Bytes} {c : Client}
      (writing : s.writer = .writing e handle left body) (owned : owner s handle = some c) :
      Written s { s with writer := .idle, failed := Function.update s.failed c true }
  | wrote {e : Entry} {handle : Handle} {left body chunk rest : Bytes} {c : Client}
      {writer : Writer}
      (writing : s.writer = .writing e handle left body) (owned : owner s handle = some c)
      (split : left ++ body = chunk ++ rest)
      (next : writer = .idle ∧ rest = [] ∨
        ∃ left' body', writer = .writing e handle left' body' ∧ left' ++ body' = rest) :
      Written s { s with
        streams := Function.update s.streams c (s.streams c ++ chunk), writer := writer }

/-- One rule for each way a step goes on. -/
inductive Step (onConnect : Bytes) (s : Server) : Action → List Obs → Server → Prop
  | connected {handle : Handle} (idle : s.phase = .idle) (running : s.stop = false) :
      Step onConnect s (.connect handle) []
        { s with
          phase := .connected, clients := s.clients + 1, pipe := some (handle, s.clients) }
  | published (phase : s.phase = .connected) : Step onConnect s .publish []
      { s with phase := .published, activePipe := s.pipe.map Prod.fst }
  | served (phase : s.phase = .published) : Step onConnect s .ready []
      (if onConnect = [] then { s with phase := .serving }
        else enqueueOutbound { s with phase := .serving } onConnect .ready (s.pipe.map Prod.snd))
  | replied {payload : Bytes} (phase : s.phase = .serving) (some : payload ≠ []) :
      Step onConnect s (.reply payload) []
        (enqueueOutbound s payload .reply (s.pipe.map Prod.snd))
  | hungUp (phase : s.phase = .serving) : Step onConnect s .hangUp []
      { s with phase := .cleared, activePipe := none }
  | closed (phase : s.phase = .cleared) : Step onConnect s .close []
      { s with phase := .idle, pipe := none }
  | nobody {payload : Bytes} : Step onConnect s (.check payload) [] s
  | checked {payload : Bytes} : Step onConnect s (.check payload) []
      { s with checked := s.checked ++ [(payload, activeClient s)] }
  | enqueued {i : Nat} {payload : Bytes} {seen : Option Client}
      (checked : s.checked[i]? = some (payload, seen)) : Step onConnect s (.enqueue i) []
        (enqueueOutbound { s with checked := s.checked.eraseIdx i } payload .sent seen)
  | popped {e : Entry} {rest : List Entry} (idle : s.writer = .idle)
      (outbound : s.outbound = e :: rest) : Step onConnect s .pop []
        { s with writer := .popped e, outbound := rest }
  | routed {os : List Obs} {s' : Server} (routed : Routed s s' os) :
      Step onConnect s .route os s'
  | wrote {call : OverlappedCall} {s' : Server} (written : Written s s') :
      Step onConnect s (.write call) [] s'
  | stopped : Step onConnect s .stop [] { s with stop := true }

section

variable {s s' : Server} {os : List Obs}

theorem route_cases (hstep : route s = some (s', os)) : Routed s s' os := by
  unfold route at hstep
  split at hstep
  · rename_i e hwriter
    split at hstep
    · rename_i hactive
      cases hstep
      exact .dropped hwriter (Or.inl hactive)
    · rename_i handle hactive
      split at hstep
      · rename_i hlong
        cases hstep
        exact .dropped hwriter (Or.inr hlong)
      · rename_i hfits
        cases hstep
        exact .begun hwriter hactive (Nat.le_of_not_lt hfits)
  · cases hstep

theorem write_cases {call : OverlappedCall} (hstep : write s call = some (s', os)) :
    os = [] ∧ Written s s' := by
  unfold write at hstep
  split at hstep
  · rename_i e handle left body hwriter
    split at hstep
    · rename_i hgone
      cases hstep
      exact ⟨rfl, .gone hwriter hgone⟩
    · rename_i c howned
      split at hstep
      · rename_i n _
        have htake := List.take_append_drop (min (n + 1) left.length) left
        simp only at hstep
        generalize min (n + 1) left.length = count at htake hstep
        split at hstep
        · have hsplit : left ++ body = left.take count ++ (left.drop count ++ body) := by
            rw [← List.append_assoc, htake]
          cases hstep
          exact ⟨rfl, .wrote hwriter howned hsplit (Or.inr ⟨_, _, rfl, rfl⟩)⟩
        · rename_i hall
          rw [not_not.mp hall, List.append_nil] at htake
          split at hstep
          · have hsplit : left ++ body = left.take count ++ body := by rw [htake]
            cases hstep
            exact ⟨rfl, .wrote hwriter howned hsplit (Or.inr ⟨_, _, rfl, List.append_nil body⟩)⟩
          · rename_i hbody
            have hsplit : left ++ body = left.take count ++ [] := by
              rw [htake, not_not.mp hbody]
            cases hstep
            exact ⟨rfl, .wrote hwriter howned hsplit (Or.inl ⟨rfl, rfl⟩)⟩
      · cases hstep
        exact ⟨rfl, .retried⟩
      · cases hstep
        exact ⟨rfl, .failed hwriter howned⟩
  · cases hstep

theorem step_cases {onConnect : Bytes} {a : Action}
    (hstep : (machine onConnect).step s a = some (s', os)) : Step onConnect s a os s' := by
  cases a with
  | connect handle =>
      simp only [machine] at hstep
      split at hstep
      · rename_i hidle
        cases hstep
        exact .connected hidle.1 hidle.2
      · cases hstep
  | publish =>
      simp only [machine] at hstep
      split at hstep
      · rename_i hphase
        cases hstep
        exact .published hphase
      · cases hstep
  | ready =>
      simp only [machine] at hstep
      split at hstep
      · rename_i hphase
        cases hstep
        exact .served hphase
      · cases hstep
  | reply payload =>
      simp only [machine] at hstep
      split at hstep
      · rename_i hphase
        cases hstep
        exact .replied hphase.1 hphase.2
      · cases hstep
  | hangUp =>
      simp only [machine] at hstep
      split at hstep
      · rename_i hphase
        cases hstep
        exact .hungUp hphase
      · cases hstep
  | close =>
      simp only [machine] at hstep
      split at hstep
      · rename_i hphase
        cases hstep
        exact .closed hphase
      · cases hstep
  | check payload =>
      simp only [machine] at hstep
      split at hstep
      · cases hstep
        exact .nobody
      · cases hstep
        exact .checked
  | enqueue i =>
      simp only [machine] at hstep
      split at hstep
      · cases hstep
      · rename_i hchecked
        cases hstep
        exact .enqueued hchecked
  | pop =>
      simp only [machine] at hstep
      split at hstep
      · rename_i hidle hout
        cases hstep
        exact .popped hidle hout
      · cases hstep
  | route => exact .routed (route_cases hstep)
  | write call =>
      obtain ⟨rfl, hwritten⟩ := write_cases hstep
      exact .wrote hwritten
  | stop =>
      cases hstep
      exact .stopped

/-- A write leaves nothing in the writer's hand, as there was nothing before. -/
theorem Written.inHand (hw : Written s s') : s'.writer.inHand = s.writer.inHand := by
  cases hw with
  | retried => rfl
  | gone writing | failed writing =>
      rw [writing]
      rfl
  | wrote writing _ _ next =>
      rw [writing]
      rcases next with ⟨rfl, -⟩ | ⟨_, _, rfl, -⟩
      · rfl
      · rfl

end

/-! ## Quiet handovers -/

/-- The condition on a step.

* A client connects on a handle that the writer is not writing to.
* A pipe is published while nothing waits in the queue or in the writer's
  hand.
* A `SendFrame` does not enqueue between publication and READY, nor into
  another session than the one it checked.
* The writer does not begin a frame to a client to which a write has failed.
-/
def quietHandover (s : Server) : Action → Prop
  | .connect handle => ∀ e left body, s.writer ≠ .writing e handle left body
  | .publish => s.outbound = [] ∧ s.writer.inHand = []
  | .enqueue i => s.phase ≠ .published ∧
    (s.phase = .serving → ∀ payload seen, s.checked[i]? = some (payload, seen) →
      seen = activeClient s)
  | .route => ∀ c, activeClient s = some c → s.failed c = false
  | _ => True

/-! ## Which frames go where -/

/-- The frames begun to a client, in order. -/
def begun (c : Client) (h : List Obs) : List Entry :=
  h.filterMap (fun | .began c' e => if c' = c then some e else none)

@[simp] theorem begun_append (c : Client) (h os : List Obs) :
    begun c (h ++ os) = begun c h ++ begun c os :=
  List.filterMap_append

@[simp] theorem begun_nil (c : Client) : begun c [] = [] := rfl

/-- READY of the session first, then frames enqueued while the client was
connected by senders who saw it. -/
def Proper (onConnect : Bytes) (c : Client) (frames : List Entry) : Prop :=
  frames = [] ∨ ∃ rest, frames = ⟨onConnect, .ready, some c, some c⟩ :: rest ∧
    ∀ e ∈ rest, e.kind ≠ .ready ∧ e.seen = some c ∧ e.active = some c

section

variable {onConnect : Bytes} {c : Client}

theorem Proper.of_append {frames more : List Entry} (h : Proper onConnect c (frames ++ more)) :
    Proper onConnect c frames := by
  cases frames with
  | nil => exact .inl rfl
  | cons e frames =>
      rcases h with hnil | ⟨rest, hrest, hall⟩
      · cases hnil
      · rw [List.cons_append, List.cons.injEq] at hrest
        obtain ⟨rfl, rfl⟩ := hrest
        exact .inr ⟨frames, rfl, fun e he => hall e (by simp [he])⟩

theorem Proper.concat {frames : List Entry} (h : Proper onConnect c frames) (hne : frames ≠ [])
    {e : Entry} (hkind : e.kind ≠ .ready) (hseen : e.seen = some c) (hactive : e.active = some c) :
    Proper onConnect c (frames ++ [e]) := by
  rcases h with hnil | ⟨rest, rfl, hall⟩
  · exact absurd hnil hne
  · refine .inr ⟨rest ++ [e], rfl, ?_⟩
    intro e' he'
    rcases List.mem_append.mp he' with hold | hnew
    · exact hall e' hold
    · rw [List.mem_singleton.mp hnew]
      exact ⟨hkind, hseen, hactive⟩

/-- Dropping a frame other than the first. -/
theorem Proper.drop {frames rest : List Entry} {e : Entry}
    (h : Proper onConnect c (frames ++ e :: rest)) (hne : frames ≠ []) :
    Proper onConnect c (frames ++ rest) := by
  cases frames with
  | nil => exact absurd rfl hne
  | cons first frames =>
      rcases h with hnil | ⟨tail, htail, hall⟩
      · cases hnil
      · rw [List.cons_append, List.cons.injEq] at htail
        obtain ⟨rfl, rfl⟩ := htail
        refine .inr ⟨frames ++ rest, rfl, ?_⟩
        intro e' he'
        apply hall
        rcases List.mem_append.mp he' with hold | hnew
        · simp [hold]
        · simp [hnew]

end

/-- The pipe, and whether it is active, in each phase of the accept loop. -/
def PhaseOk (s : Server) : Prop :=
  match s.phase with
  | .idle => s.pipe = none ∧ s.activePipe = none
  | .connected | .cleared =>
    ∃ handle c, s.pipe = some (handle, c) ∧ s.clients = c + 1 ∧ s.activePipe = none
  | .published | .serving =>
    ∃ handle c, s.pipe = some (handle, c) ∧ s.clients = c + 1 ∧ s.activePipe = some handle

/-- What is begun, in hand and queued for the client of the session. -/
def forClient (c : Client) (h : List Obs) (s : Server) : List Entry :=
  begun c h ++ (s.writer.inHand ++ s.outbound)

structure Ordered (onConnect : Bytes) (h : List Obs) (s : Server) : Prop where
  phase : PhaseOk s
  proper : ∀ c, Proper onConnect c (begun c h)
  fresh : ∀ c, s.clients ≤ c → begun c h = []
  early : s.phase = .connected ∨ s.phase = .published → ∀ c, s.clients = c + 1 → begun c h = []
  empty : s.phase = .published → s.outbound = [] ∧ s.writer.inHand = []
  serving : s.phase = .serving → ∀ c, s.clients = c + 1 →
    Proper onConnect c (forClient c h s) ∧ (forClient c h s = [] → s.stop = true)

section

variable {onConnect : Bytes} {h os : List Obs} {s s' : Server}

/-- From its publication to the end of the session the pipe is active. -/
theorem PhaseOk.active (hok : PhaseOk s) (hphase : s.phase = .published ∨ s.phase = .serving) :
    ∃ handle c, s.pipe = some (handle, c) ∧ s.clients = c + 1 ∧ s.activePipe = some handle := by
  rcases hphase with hphase | hphase
  · simpa [PhaseOk, hphase] using hok
  · simpa [PhaseOk, hphase] using hok

/-- Before its publication and after the session it is not. -/
theorem PhaseOk.inactive (hok : PhaseOk s) (hphase : s.phase = .connected ∨ s.phase = .cleared) :
    ∃ handle c, s.pipe = some (handle, c) ∧ s.clients = c + 1 ∧ s.activePipe = none := by
  rcases hphase with hphase | hphase
  · simpa [PhaseOk, hphase] using hok
  · simpa [PhaseOk, hphase] using hok

/-- While a pipe is active, it is the one of the newest client. -/
theorem PhaseOk.activeClient (hphase : PhaseOk s)
    (hon : s.phase = .published ∨ s.phase = .serving) {c : Client} (hc : s.clients = c + 1) :
    activeClient s = some c ∧ s.pipe.map Prod.snd = some c := by
  obtain ⟨handle, c', hpipe, hclients, hactive⟩ := hphase.active hon
  obtain rfl : c' = c := Nat.succ.inj (hclients.symm.trans hc)
  simp [PipeSession.activeClient, owner, hactive, hpipe]

/-- A step that moves no frame and no phase. -/
theorem Ordered.quiet (hi : Ordered onConnect h s) (hphase : s'.phase = s.phase)
    (hpipe : s'.pipe = s.pipe) (hactive : s'.activePipe = s.activePipe)
    (hclients : s'.clients = s.clients)
    (hframes : s'.writer.inHand ++ s'.outbound = s.writer.inHand ++ s.outbound)
    (hstop : s.stop = true → s'.stop = true) (hos : os = []) : Ordered onConnect (h ++ os) s' := by
  subst hos
  rw [List.append_nil]
  refine ⟨?_, hi.proper, ?_, ?_, ?_, ?_⟩
  · simpa only [PhaseOk, hphase, hpipe, hactive, hclients] using hi.phase
  · rw [hclients]
    exact hi.fresh
  · rw [hphase, hclients]
    exact hi.early
  · intro hpublished
    have hempty := hi.empty (hphase ▸ hpublished)
    rw [hempty.1, hempty.2, List.append_nil] at hframes
    rw [List.append_eq_nil_iff] at hframes
    exact ⟨hframes.2, hframes.1⟩
  · intro hserving c hc
    rw [forClient, hframes]
    obtain ⟨hproper, hstopped⟩ := hi.serving (hphase ▸ hserving) c (hclients ▸ hc)
    exact ⟨hproper, fun hnil => hstop (hstopped hnil)⟩

/-- A reply, or a `SendFrame` into the session it checked. -/
theorem Ordered.enqueue (hi : Ordered onConnect h s) (payload : Bytes) {kind : Kind}
    {seen : Option Client} (hkind : kind ≠ .ready) (hphase : s.phase ≠ .published)
    (hseen : s.phase = .serving → seen = activeClient s) :
    Ordered onConnect h (enqueueOutbound s payload kind seen) := by
  unfold enqueueOutbound
  by_cases hstop : s.stop = true
  · simpa [hstop] using hi
  rw [if_neg hstop]
  refine ⟨hi.phase, hi.proper, hi.fresh, hi.early, fun h => absurd h hphase, ?_⟩
  intro hserving c hc
  obtain ⟨hproper, hstopped⟩ := hi.serving hserving c hc
  have hactive := (hi.phase.activeClient (.inr hserving) hc).1
  have hsame : forClient c h
      { s with outbound := s.outbound ++ [⟨payload, kind, seen, activeClient s⟩] } =
      forClient c h s ++ [⟨payload, kind, seen, activeClient s⟩] := by
    simp [forClient]
  rw [hsame]
  refine ⟨?_, by simp⟩
  apply hproper.concat (fun hnil => hstop (hstopped hnil)) hkind
  · simp [hseen hserving, hactive]
  · simp [hactive]

/-- READY goes into the empty queue of a new session. -/
theorem Ordered.ready (hi : Ordered onConnect h s)
    (hphase : s.phase = .published) :
    Ordered onConnect h
      (enqueueOutbound { s with phase := .serving } onConnect .ready (s.pipe.map Prod.snd)) := by
  obtain ⟨hout, hhand⟩ := hi.empty hphase
  have hopen : PhaseOk { s with phase := .serving } := by
    simpa [PhaseOk, hphase] using hi.phase
  have hactive : ∀ c, s.clients = c + 1 →
      activeClient { s with phase := .serving } = some c ∧ s.pipe.map Prod.snd = some c :=
    fun c hc => hopen.activeClient (.inr rfl) hc
  by_cases hstop : s.stop = true
  · rw [enqueueOutbound, if_pos hstop]
    refine ⟨hopen, hi.proper, hi.fresh, by simp, by simp, ?_⟩
    intro _ c hc
    have hnil : forClient c h { s with phase := .serving } = [] := by
      simp [forClient, hhand, hout, hi.early (.inr hphase) c hc]
    exact ⟨.inl hnil, fun _ => hstop⟩
  · rw [enqueueOutbound, if_neg hstop]
    refine ⟨hopen, hi.proper, hi.fresh, by simp, by simp, ?_⟩
    intro _ c hc
    obtain ⟨hac, hpc⟩ := hactive c hc
    refine ⟨.inr ⟨[], ?_, by simp⟩, by simp [forClient]⟩
    simp only [forClient]
    rw [hac, hpc, hi.early (.inr hphase) c hc, hhand, hout]
    rfl

/-- There is no frame in hand while the pipe is published. -/
theorem Ordered.popped (hi : Ordered onConnect h s) {e : Entry} (hwriter : s.writer = .popped e) :
    s.writer.inHand = [e] ∧ s.phase ≠ .published := by
  have hhand : s.writer.inHand = [e] := by rw [hwriter, Writer.inHand_popped]
  refine ⟨hhand, ?_⟩
  intro hphase
  have hempty := (hi.empty hphase).2
  rw [hhand] at hempty
  cases hempty

/-- The writer drops the frame in its hand. -/
theorem Ordered.dropped (hfits : onConnect.length ≤ kMaxFrameSize.toNat)
    (hi : Ordered onConnect h s) {e : Entry} (hwriter : s.writer = .popped e)
    (why : s.activePipe = none ∨ kMaxFrameSize.toNat < e.payload.length) :
    Ordered onConnect h { s with writer := .idle } := by
  obtain ⟨hhand, hunpublished⟩ := hi.popped hwriter
  refine ⟨hi.phase, hi.proper, hi.fresh, hi.early, fun h => absurd h hunpublished, ?_⟩
  intro hserving c hc
  obtain ⟨hproper, hstopped⟩ := hi.serving hserving c hc
  rw [forClient, hhand, List.singleton_append] at hproper
  rcases why with hoff | hlarge
  · obtain ⟨_, _, -, -, hactive⟩ := hi.phase.active (.inr hserving)
    cases hoff.symm.trans hactive
  · -- the READY frame fits, so something was begun before
    have hbegun : begun c h ≠ [] := by
      intro hnil
      rw [hnil, List.nil_append] at hproper
      rcases hproper with hcons | ⟨rest, hcons, -⟩
      · cases hcons
      · cases hcons
        exact absurd hfits (Nat.not_le.mpr hlarge)
    refine ⟨hproper.drop hbegun, ?_⟩
    intro hnil
    exact absurd (List.append_eq_nil_iff.mp hnil).1 hbegun

/-- The writer begins the frame in its hand. -/
theorem Ordered.begins (hi : Ordered onConnect h s) {e : Entry} {handle : Handle}
    (hwriter : s.writer = .popped e) (hon : s.activePipe = some handle) (left body : Bytes) :
    Ordered onConnect (h ++ (owner s handle).toList.map (fun c => .began c e))
      { s with writer := .writing e handle left body } := by
  obtain ⟨hhand, hunpublished⟩ := hi.popped hwriter
  have hserving : s.phase = .serving := by
    have hphase := hi.phase
    cases hp : s.phase with
    | serving => rfl
    | published => exact absurd hp hunpublished
    | idle | connected | cleared => simp [PhaseOk, hp, hon] at hphase
  obtain ⟨handle', c, hpipe, hclients, hactive⟩ := hi.phase.active (.inr hserving)
  obtain rfl : handle' = handle := Option.some.inj (hactive.symm.trans hon)
  have howner : owner s handle' = some c := by simp [owner, hpipe]
  obtain ⟨hproper, hstopped⟩ := hi.serving hserving c hclients
  rw [forClient, hhand, List.singleton_append] at hproper
  have hone : begun c [Obs.began c e] = [e] := by simp [begun]
  have hnone : ∀ c', c' ≠ c → begun c' [Obs.began c e] = [] := by
    intro c' hne
    simp [begun, Ne.symm hne]
  rw [howner]
  simp only [Option.toList_some, List.map_cons, List.map_nil]
  refine ⟨hi.phase, ?_, ?_, ?_, fun h => absurd h hunpublished, ?_⟩
  · intro c'
    by_cases hc' : c' = c
    · subst hc'
      rw [begun_append, hone]
      rw [← List.singleton_append, ← List.append_assoc] at hproper
      exact hproper.of_append
    · rw [begun_append, hnone c' hc', List.append_nil]
      exact hi.proper c'
  · intro c' hle
    have hc' : c' ≠ c := by
      rintro rfl
      exact absurd (hclients ▸ hle) (by simp)
    rw [begun_append, hnone c' hc', List.append_nil]
    exact hi.fresh c' hle
  · intro hearly
    simp [hserving] at hearly
  · intro _ c' hc'
    obtain rfl : c' = c := Nat.succ.inj (hc'.symm.trans hclients)
    simp only [forClient, begun_append, hone, Writer.inHand_writing, List.nil_append]
    refine ⟨by simpa using hproper, by simp⟩

/-- The writer drops or begins the frame in its hand. -/
theorem Ordered.route (hfits : onConnect.length ≤ kMaxFrameSize.toNat)
    (hi : Ordered onConnect h s) (hstep : route s = some (s', os)) :
    Ordered onConnect (h ++ os) s' := by
  cases route_cases hstep with
  | dropped hwriter why =>
      rw [List.append_nil]
      exact hi.dropped hfits hwriter why
  | begun hwriter hon _ => exact hi.begins hwriter hon _ _

/-- **One step keeps the order**, when handovers are quiet. -/
theorem step_ordered (hne : onConnect ≠ []) (hfits : onConnect.length ≤ kMaxFrameSize.toNat)
    {a : Action} (hi : Ordered onConnect h s) (hok : quietHandover s a)
    (hstep : (machine onConnect).step s a = some (s', os)) : Ordered onConnect (h ++ os) s' := by
  cases step_cases hstep with
  | @connected handle idle =>
      have hidle := hi.phase
      simp only [PhaseOk, idle] at hidle
      rw [List.append_nil]
      refine ⟨⟨handle, s.clients, rfl, rfl, hidle.2⟩, hi.proper, ?_, ?_, by simp, by simp⟩
      · intro c hle
        exact hi.fresh c (Nat.le_of_succ_le hle)
      · intro _ c hc
        exact hi.fresh c (Nat.le_of_eq (Nat.succ.inj hc))
  | published phase =>
      obtain ⟨handle, c, hpipe, hclients, -⟩ := hi.phase.inactive (.inl phase)
      rw [List.append_nil]
      exact ⟨⟨handle, c, hpipe, hclients, by simp [hpipe]⟩, hi.proper, hi.fresh,
        fun _ => hi.early (.inl phase), fun _ => hok, by simp⟩
  | served phase =>
      rw [List.append_nil, if_neg hne]
      exact hi.ready phase
  | @replied payload phase =>
      rw [List.append_nil]
      apply hi.enqueue payload (by simp) (by simp [phase])
      intro hserving
      obtain ⟨handle, c, hpipe, hclients, -⟩ := hi.phase.active (.inr hserving)
      obtain ⟨hactive, hclient⟩ := hi.phase.activeClient (.inr hserving) hclients
      rw [hactive, hclient]
  | hungUp phase =>
      obtain ⟨handle, c, hpipe, hclients, -⟩ := hi.phase.active (.inr phase)
      rw [List.append_nil]
      exact ⟨⟨handle, c, hpipe, hclients, rfl⟩, hi.proper, hi.fresh, by simp, by simp, by simp⟩
  | closed phase =>
      obtain ⟨-, -, -, -, hactive⟩ := hi.phase.inactive (.inr phase)
      rw [List.append_nil]
      exact ⟨⟨rfl, hactive⟩, hi.proper, hi.fresh, by simp, by simp, by simp⟩
  | nobody =>
      rw [List.append_nil]
      exact hi
  | checked => exact hi.quiet rfl rfl rfl rfl rfl id rfl
  | @enqueued i payload seen checked =>
      have hquiet : Ordered onConnect (h ++ []) { s with checked := s.checked.eraseIdx i } :=
        hi.quiet rfl rfl rfl rfl rfl id rfl
      rw [List.append_nil] at hquiet ⊢
      exact hquiet.enqueue payload (by simp) hok.1
        (fun hserving => hok.2 hserving payload seen checked)
  | popped idle outbound =>
      refine hi.quiet rfl rfl rfl rfl ?_ id rfl
      rw [idle, outbound]
      rfl
  | routed => exact hi.route hfits hstep
  | wrote written =>
      have hhand := congrArg (· ++ s.outbound) written.inHand
      cases written with
      | retried | gone | failed | wrote => exact hi.quiet rfl rfl rfl rfl hhand id rfl
  | stopped => exact hi.quiet rfl rfl rfl rfl rfl (fun _ => rfl) rfl

end

/-! ## Which bytes a client gets -/

theorem owner_eq_some {s : Server} {handle : Handle} {c : Client} :
    owner s handle = some c ↔ s.pipe = some (handle, c) := by
  cases hpipe : s.pipe with
  | none => simp [owner, hpipe]
  | some p =>
      obtain ⟨handle', c'⟩ := p
      by_cases heq : handle' = handle
      · simp [owner, hpipe, heq]
      · simp [owner, hpipe, heq]

/-- The stream of a client: whole frames, then a part of one more.

* `writing`: while the writer writes to the client, the part is what it has
  written of that frame;
* `settled`: otherwise, while the client is connected and no write to it has
  failed, there is no part;
* `cut`: in any case the part begins the frame that was begun last. -/
structure ClientBytes (h : List Obs) (s : Server) (c : Client) (whole : List Entry)
    (part : Bytes) : Prop where
  stream : s.streams c = whole.flatMap (fun e => frame e.payload) ++ part
  writing : ∀ e handle left body, s.writer = .writing e handle left body →
    s.pipe = some (handle, c) →
      begun c h = whole ++ [e] ∧ frame e.payload = part ++ (left ++ body)
  settled : (∀ e handle left body, s.writer = .writing e handle left body →
      s.pipe ≠ some (handle, c)) →
    (∃ handle, s.pipe = some (handle, c)) → s.failed c = false → begun c h = whole ∧ part = []
  cut : begun c h = whole ∧ part = [] ∨
    ∃ e, begun c h = whole ++ [e] ∧ part <+: frame e.payload

section

variable {h os : List Obs} {s s' : Server} {c : Client}

/-- A step that does not touch the pipe, the bytes or a write in progress. -/
theorem ClientBytes.quiet {whole : List Entry} {part : Bytes} (hi : ClientBytes h s c whole part)
    (hpipe : s'.pipe = s.pipe) (hstreams : s'.streams c = s.streams c)
    (hfailed : s'.failed c = s.failed c)
    (hwriter : ∀ e handle left body, s'.writer = .writing e handle left body ↔
      s.writer = .writing e handle left body)
    (hos : begun c os = []) : ClientBytes (h ++ os) s' c whole part := by
  refine ⟨by rw [hstreams, hi.stream], ?_, ?_, ?_⟩
  · simp only [hwriter, hpipe, begun_append, hos, List.append_nil]
    exact hi.writing
  · simp only [hwriter, hpipe, hfailed, begun_append, hos, List.append_nil]
    exact hi.settled
  · simp only [begun_append, hos, List.append_nil]
    exact hi.cut

/-- A client that the pipe does not lead to keeps what it has. -/
theorem ClientBytes.elsewhere {whole : List Entry} {part : Bytes} (os : List Obs) (s' : Server)
    (hi : ClientBytes h s c whole part) (hstreams : s'.streams c = s.streams c)
    (hpipe : ∀ handle, s'.pipe ≠ some (handle, c)) (hos : begun c os = []) :
    ClientBytes (h ++ os) s' c whole part := by
  refine ⟨by rw [hstreams, hi.stream], ?_, ?_, ?_⟩
  · intro e handle left body _ hpipe'
    exact absurd hpipe' (hpipe handle)
  · rintro - ⟨handle, hpipe'⟩
    exact absurd hpipe' (hpipe handle)
  · simp only [begun_append, hos, List.append_nil]
    exact hi.cut

/-- What every client has got, and nothing for clients to come. -/
structure AllBytes (h : List Obs) (s : Server) : Prop where
  client : ∀ c, ∃ whole part, ClientBytes h s c whole part
  fresh : ∀ c, s.clients ≤ c → s.streams c = [] ∧ begun c h = []
  open_known : ∀ handle c, s.pipe = some (handle, c) → c < s.clients

theorem AllBytes.quiet (hi : AllBytes h s) (hclients : s'.clients = s.clients)
    (hpipe : s'.pipe = s.pipe) (hstreams : s'.streams = s.streams) (hfailed : s'.failed = s.failed)
    (hwriter : ∀ e handle left body, s'.writer = .writing e handle left body ↔
      s.writer = .writing e handle left body)
    (hos : os = []) : AllBytes (h ++ os) s' := by
  subst hos
  refine ⟨?_, ?_, ?_⟩
  · intro c
    obtain ⟨whole, part, hc⟩ := hi.client c
    exact ⟨whole, part, hc.quiet hpipe (by rw [hstreams]) (by rw [hfailed]) hwriter rfl⟩
  · simpa only [hclients, hstreams, List.append_nil] using hi.fresh
  · simpa only [hpipe, hclients] using hi.open_known

theorem AllBytes.connect (hi : AllBytes h s) {handle : Handle}
    (hok : ∀ e left body, s.writer ≠ .writing e handle left body) :
    AllBytes h { s with
      phase := .connected, clients := s.clients + 1, pipe := some (handle, s.clients) } := by
  refine ⟨?_, ?_, ?_⟩
  · intro c
    by_cases hc : c = s.clients
    · subst hc
      obtain ⟨hstream, hbegun⟩ := hi.fresh s.clients (le_refl _)
      refine ⟨[], [], by simpa using hstream, ?_, fun _ _ _ => ⟨hbegun, rfl⟩,
        .inl ⟨hbegun, rfl⟩⟩
      intro e handle' left body hwriter hpipe
      simp only [Option.some.injEq, Prod.mk.injEq] at hpipe
      obtain ⟨rfl, -⟩ := hpipe
      exact absurd hwriter (hok e left body)
    · obtain ⟨whole, part, hold⟩ := hi.client c
      refine ⟨whole, part, ?_⟩
      rw [← List.append_nil h]
      apply hold.elsewhere
      · rfl
      · intro handle' hpipe
        simp only [Option.some.injEq, Prod.mk.injEq] at hpipe
        exact hc hpipe.2.symm
      · rfl
  · intro c hle
    exact hi.fresh c (Nat.le_of_succ_le hle)
  · intro handle' c hpipe
    simp only [Option.some.injEq, Prod.mk.injEq] at hpipe
    simp [← hpipe.2]

/-- A step that concerns the client of the open pipe only. -/
theorem AllBytes.touch {handle : Handle} (hi : AllBytes h s) (hpipe : s.pipe = some (handle, c))
    (hpipe' : s'.pipe = s.pipe) (hclients : s'.clients = s.clients)
    (hstreams : ∀ c', c' ≠ c → s'.streams c' = s.streams c')
    (hos : ∀ c', c' ≠ c → begun c' os = [])
    (hclient : ∃ whole part, ClientBytes (h ++ os) s' c whole part) :
    AllBytes (h ++ os) s' := by
  refine ⟨?_, ?_, by simpa only [hpipe', hclients] using hi.open_known⟩
  · intro c'
    by_cases hc : c' = c
    · rw [hc]
      exact hclient
    · obtain ⟨whole, part, hold⟩ := hi.client c'
      refine ⟨whole, part, hold.elsewhere os s' (hstreams c' hc) ?_ (hos c' hc)⟩
      intro handle' heq
      rw [hpipe', hpipe] at heq
      cases heq
      exact hc rfl
  · intro c' hle
    have hc : c' ≠ c := by
      rintro rfl
      exact absurd (hi.open_known handle c' hpipe) (by rw [← hclients]; exact Nat.not_lt.mpr hle)
    rw [hstreams c' hc, begun_append, hos c' hc, List.append_nil]
    exact hi.fresh c' (hclients ▸ hle)

theorem AllBytes.route (hi : AllBytes h s) (hok : quietHandover s .route)
    (hstep : route s = some (s', os)) : AllBytes (h ++ os) s' := by
  cases route_cases hstep with
  | dropped hwriter => exact hi.quiet rfl rfl rfl rfl (by simp [hwriter]) rfl
  | @begun e handle hwriter hactive =>
      cases howner : owner s handle with
      | none =>
          -- no client behind the handle: nothing is begun, and no write will succeed
          refine ⟨?_, by simpa using hi.fresh, hi.open_known⟩
          intro c
          obtain ⟨whole, part, hold⟩ := hi.client c
          have hnone : s.pipe ≠ some (handle, c) := by
            rw [ne_eq, ← owner_eq_some, howner]
            simp
          refine ⟨whole, part, hold.stream, ?_, ?_, by simpa using hold.cut⟩
          · intro e' handle' left body heq hpipe
            cases heq
            exact absurd hpipe hnone
          · intro _ hopen hfailed
            simpa using hold.settled (by simp [hwriter]) hopen hfailed
      | some c =>
          have hpipe := owner_eq_some.mp howner
          have hfailed : s.failed c = false := hok c (by simp [activeClient, hactive, howner])
          obtain ⟨whole, part, hold⟩ := hi.client c
          obtain ⟨hbegun, rfl⟩ := hold.settled (by simp [hwriter]) ⟨handle, hpipe⟩ hfailed
          have hone : begun c [Obs.began c e] = [e] := by simp [begun]
          refine hi.touch hpipe rfl rfl (fun _ _ => rfl) ?_ ?_
          · intro c' hne
            simp [begun, Ne.symm hne]
          · refine ⟨whole, [], hold.stream, ?_, ?_, .inr ⟨e, ?_, List.nil_prefix⟩⟩
            · intro e' handle' left body heq _
              cases heq
              exact ⟨by simp [hone, hbegun], rfl⟩
            · intro hnot
              exact absurd hpipe (hnot e handle _ _ rfl)
            · simp [hone, hbegun]

/-- A writer that writes to nobody leaves whole frames. -/
theorem AllBytes.gone {e : Entry} {handle : Handle} {left body : Bytes} (hi : AllBytes h s)
    (hwriter : s.writer = .writing e handle left body) (howner : owner s handle = none) :
    AllBytes (h ++ []) { s with writer := .idle } := by
  refine ⟨?_, by simpa using hi.fresh, hi.open_known⟩
  intro c
  obtain ⟨whole, part, hold⟩ := hi.client c
  refine ⟨whole, part, hold.stream, by simp, ?_, by simpa using hold.cut⟩
  intro _ hopen hfailed
  have hnot : ∀ e' handle' left' body', s.writer = .writing e' handle' left' body' →
      s.pipe ≠ some (handle', c) := by
    intro e' handle' left' body' heq
    rw [hwriter] at heq
    cases heq
    rw [ne_eq, ← owner_eq_some, howner]
    simp
  simpa using hold.settled hnot hopen hfailed

theorem AllBytes.write (hi : AllBytes h s) {call : OverlappedCall}
    (hstep : write s call = some (s', os)) : AllBytes (h ++ os) s' := by
  obtain ⟨rfl, hwritten⟩ := write_cases hstep
  cases hwritten with
  | retried =>
      rw [List.append_nil]
      exact hi
  | gone hwriter howner => exact hi.gone hwriter howner
  | @failed e handle left body c hwriter howner =>
      have hpipe := owner_eq_some.mp howner
      obtain ⟨whole, part, hold⟩ := hi.client c
      obtain ⟨hbegun, hframe⟩ := hold.writing e handle left body hwriter hpipe
      refine hi.touch hpipe rfl rfl (fun _ _ => rfl) (fun _ _ => rfl) ?_
      refine ⟨whole, part, hold.stream, by simp, ?_, .inr ⟨e, by simpa using hbegun, ?_⟩⟩
      · intro _ _ hfailed
        simp at hfailed
      · rw [hframe]
        exact List.prefix_append _ _
  | @wrote e handle left body chunk rest c writer hwriter howner hsplit hnext =>
      have hpipe := owner_eq_some.mp howner
      obtain ⟨whole, part, hold⟩ := hi.client c
      obtain ⟨hbegun, hframe⟩ := hold.writing e handle left body hwriter hpipe
      have hupdate : ∀ c', c' ≠ c →
          Function.update s.streams c (s.streams c ++ chunk) c' = s.streams c' :=
        fun c' hne => Function.update_of_ne hne _ _
      have hown : Function.update s.streams c (s.streams c ++ chunk) c =
          whole.flatMap (fun e => frame e.payload) ++ (part ++ chunk) := by
        rw [Function.update_self, hold.stream, List.append_assoc]
      have hframe' : frame e.payload = (part ++ chunk) ++ rest := by
        rw [hframe, hsplit, List.append_assoc]
      refine hi.touch hpipe rfl rfl hupdate (fun _ _ => rfl) ?_
      rcases hnext with ⟨rfl, rfl⟩ | ⟨left', body', rfl, rfl⟩
      · rw [List.append_nil] at hframe'
        have hall : begun c (h ++ []) = whole ++ [e] := by simpa using hbegun
        refine ⟨whole ++ [e], [], ?_, by simp, fun _ _ _ => ⟨hall, rfl⟩, .inl ⟨hall, rfl⟩⟩
        refine hown.trans ?_
        rw [← hframe', List.flatMap_append]
        simp
      · refine ⟨whole, part ++ chunk, hown, ?_, ?_, .inr ⟨e, by simpa using hbegun, ?_⟩⟩
        · intro e' handle'' left'' body'' heq _
          cases heq
          exact ⟨by simpa using hbegun, hframe'⟩
        · intro hnot
          exact absurd hpipe (hnot e handle _ _ rfl)
        · rw [hframe']
          exact List.prefix_append _ _

/-- **One step keeps the bytes**, when handovers are quiet. -/
theorem step_allBytes {onConnect : Bytes} {a : Action} (hi : AllBytes h s)
    (hok : quietHandover s a) (hstep : (machine onConnect).step s a = some (s', os)) :
    AllBytes (h ++ os) s' := by
  have henqueue : ∀ (t : Server) payload kind seen, AllBytes h t →
      AllBytes (h ++ []) (enqueueOutbound t payload kind seen) := by
    intro t payload kind seen ht
    unfold enqueueOutbound
    split <;> exact ht.quiet rfl rfl rfl rfl (fun _ _ _ _ => Iff.rfl) rfl
  cases step_cases hstep with
  | connected =>
      rw [List.append_nil]
      exact hi.connect hok
  | published | hungUp | checked | stopped =>
      exact hi.quiet rfl rfl rfl rfl (fun _ _ _ _ => Iff.rfl) rfl
  | served =>
      have hserving : AllBytes (h ++ []) { s with phase := .serving } :=
        hi.quiet rfl rfl rfl rfl (fun _ _ _ _ => Iff.rfl) rfl
      split
      · exact hserving
      · exact henqueue _ _ _ _ (by simpa using hserving)
  | replied => exact henqueue _ _ _ _ hi
  | closed =>
      refine ⟨?_, by simpa using hi.fresh, by simp⟩
      intro c
      obtain ⟨whole, part, hold⟩ := hi.client c
      exact ⟨whole, part, hold.elsewhere [] _ rfl (by simp) rfl⟩
  | nobody =>
      rw [List.append_nil]
      exact hi
  | @enqueued i =>
      have hchecked : AllBytes (h ++ []) { s with checked := s.checked.eraseIdx i } :=
        hi.quiet rfl rfl rfl rfl (fun _ _ _ _ => Iff.rfl) rfl
      exact henqueue _ _ _ _ (by simpa using hchecked)
  | popped idle => exact hi.quiet rfl rfl rfl rfl (by simp [idle]) rfl
  | routed => exact hi.route hok hstep
  | wrote => exact hi.write hstep

end

/-! ## Sessions are isolated -/

/-- **Every session is isolated** in every run with quiet handovers.  For
every client,

* what it was sent is whole frames in the order in which they were begun,
  followed by nothing or by a beginning of the frame begun last;
* the first of these frames is the READY frame of its own session, and each
  other one is a reply or came from a `SendFrame` that saw this client, and
  was enqueued while this client's pipe was active. -/
theorem session_isolated {onConnect : Bytes} (hne : onConnect ≠ [])
    (hfits : onConnect.length ≤ kMaxFrameSize.toNat) {h : List Obs} {s : Server}
    (hrun : Machine.Run (machine onConnect) quietHandover {} h s) (c : Client) :
    (∃ whole part, s.streams c = whole.flatMap (fun e : Entry => frame e.payload) ++ part ∧
      (begun c h = whole ∧ part = [] ∨
        ∃ e, begun c h = whole ++ [e] ∧ part <+: frame e.payload)) ∧
    (begun c h = [] ∨ ∃ rest, begun c h = ⟨onConnect, .ready, some c, some c⟩ :: rest ∧
      ∀ e ∈ rest, e.kind ≠ .ready ∧ e.seen = some c ∧ e.active = some c) := by
  have hordered : Ordered onConnect h s := by
    apply hrun.history_invariant (Ordered onConnect)
    · exact ⟨⟨rfl, rfl⟩, fun _ => .inl rfl, fun _ _ => rfl, by simp, by simp, by simp⟩
    · exact fun h s a s' os hi hok hstep => step_ordered hne hfits hi hok hstep
  have hbytes : AllBytes h s := by
    apply hrun.history_invariant AllBytes
    · refine ⟨fun c => ⟨[], [], rfl, by simp, fun _ _ _ => ⟨rfl, rfl⟩, .inl ⟨rfl, rfl⟩⟩,
        fun _ _ => ⟨rfl, rfl⟩, by simp⟩
    · exact fun h s a s' os hi hok hstep => step_allBytes hi hok hstep
  obtain ⟨whole, part, hclient⟩ := hbytes.client c
  exact ⟨⟨whole, part, hclient.stream, hclient.cut⟩, hordered.proper c⟩

/-- **A stale frame reaches the next client**: `[1]` is enqueued for client
`0`, which goes away before the writer gets to it.  The writer pops it when
client `1` has been published, and it is the first frame on that stream. -/
theorem stale_frame_reaches_next_client :
    ∃ h s, Machine.Run (machine [0xAA]) Machine.always {} h s ∧
      begun 1 h = [⟨[1], .sent, some 0, some 0⟩, ⟨[0xAA], .ready, some 1, some 1⟩] ∧
      s.streams 1 = frame [1] ++ frame [0xAA] := by
  have hexec : ((machine [0xAA]).exec {}
      [.connect 7, .publish, .ready, .pop, .route, .write (.completed 9), .write (.completed 9),
        .check [1], .enqueue 0, .hangUp, .close, .connect 8, .publish, .ready, .pop, .route,
        .write (.completed 9), .write (.completed 9), .pop, .route, .write (.waited 9),
        .write (.waited 9)]).map (fun r => (begun 1 r.2, r.1.streams 1)) =
      some ([⟨[1], .sent, some 0, some 0⟩, ⟨[0xAA], .ready, some 1, some 1⟩],
        frame [1] ++ frame [0xAA]) := by
    decide
  obtain ⟨h, s, hrun, hresult⟩ := Machine.Run.of_exec_map hexec
  obtain ⟨hbegun, hstream⟩ := Prod.mk.inj hresult
  exact ⟨h, s, hrun, hbegun, hstream⟩

/-- A test that implies `quietHandover`. -/
def testQuiet (s : Server) : Action → Bool
  | .connect _ => s.writer = .idle
  | .publish => s.outbound = [] && s.writer.inHand = []
  | .enqueue i => s.phase = .serving && (s.checked[i]?.map Prod.snd).getD none = activeClient s
  | .route => (activeClient s).all (fun c => s.failed c = false)
  | _ => true

theorem quietHandover_of_test {s : Server} {a : Action} (h : testQuiet s a = true) :
    quietHandover s a := by
  cases a with
  | connect handle =>
      intro e left body
      simp [show s.writer = .idle by simpa [testQuiet] using h]
  | publish => simpa [testQuiet, quietHandover] using h
  | enqueue i =>
      simp only [testQuiet, Bool.and_eq_true, decide_eq_true_eq] at h
      refine ⟨by simp [h.1], ?_⟩
      intro _ payload seen hchecked
      simpa [hchecked] using h.2
  | route =>
      intro c hc
      simpa [testQuiet, hc] using h
  | ready | reply | hangUp | close | check | pop | write | stop => trivial

/-- Two sessions in a row; a `SendFrame` of the first is written before its
client goes, and the second session begins with its own READY. -/
theorem session_isolated_two_clients :
    ∃ h s, Machine.Run (machine [0xAA]) quietHandover {} h s ∧
      s.streams 0 = frame [0xAA] ++ frame [1] ∧ s.streams 1 = frame [0xAA] ∧
      (begun 1 h = [] ∨ ∃ rest, begun 1 h = ⟨[0xAA], .ready, some 1, some 1⟩ :: rest ∧
        ∀ e ∈ rest, e.kind ≠ .ready ∧ e.seen = some 1 ∧ e.active = some 1) := by
  have hexec : ((machine [0xAA]).execIf testQuiet {}
      [.connect 7, .publish, .ready, .check [1], .enqueue 0, .pop, .route, .write (.completed 9),
        .write (.completed 9), .pop, .route, .write (.completed 9), .write (.completed 9),
        .hangUp, .close, .connect 7, .publish, .ready, .pop, .route, .write (.waited 9),
        .write (.waited 9)]).map (fun r => (r.1.streams 0, r.1.streams 1)) =
      some (frame [0xAA] ++ frame [1], frame [0xAA]) := by
    decide
  obtain ⟨h, s, hrun, hresult⟩ := Machine.Run.of_execIf_map
    (fun _ _ => quietHandover_of_test) hexec
  obtain ⟨hfirst, hsecond⟩ := Prod.mk.inj hresult
  exact ⟨h, s, hrun, hfirst, hsecond, (session_isolated (by decide) (by decide) hrun 1).2⟩

end PipeSession
