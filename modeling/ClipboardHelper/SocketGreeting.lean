import ClipboardHelper.Library.Machine
import ClipboardHelper.FrameTransport

/-!
# The writing half of the Linux socket server

The worker thread accepts one client, publishes its descriptor, writes the
greeting that `on_connect` returns, and then answers requests until the
client goes away.  Other threads call `SendFrame` at any moment.  Every write
happens under `client_mutex_`, but the mutex is released between publishing
the descriptor and writing the greeting.

A step is one critical section or, while a frame is being written, one
`send`.

**`greeting_first_whole_frames`**: as long as writes succeed the stream is
whole frames followed by a part of the one being written, under every
interleaving; and the greeting comes first in every run in which no
`SendFrame` gets the mutex between publication and greeting.  One that does
is written first (`send_overtakes_greeting`).
-/

namespace SocketGreeting

open Library FrameTransport

/-! ## State -/

inductive Origin
  | greeting
  | sender
  | reply
deriving DecidableEq, Repr

/-- Where the worker is. -/
inductive Phase
  | accepting
  | accepted
  | connected
  | greeting
  | serving
  | replying (payload : Bytes)
  | closing
  | closed
deriving DecidableEq, Repr

/-- A `WriteFrame` in progress: what its current `WriteExact` has left, and
the body to be written after the header. -/
structure Writer where
  origin : Origin
  payload : Bytes
  left : Bytes
  body : Bytes
deriving DecidableEq, Repr

structure Server where
  phase : Phase := .accepting
  /-- `client_fd_ >= 0` -/
  clientFd : Bool := false
  /-- The holder of `client_mutex_`, while it writes. -/
  lock : Option Writer := none
  /-- What the client has been sent. -/
  stream : Bytes := []
  /-- A write has failed. -/
  broken : Bool := false
deriving DecidableEq, Repr

inductive Obs
  | began (origin : Origin) (payload : Bytes)
  | finished (origin : Origin) (payload : Bytes)
  | failed (origin : Origin)
deriving DecidableEq, Repr

/-! ## Steps -/

/-- Where the worker goes after one of its writes.  A failed greeting is
ignored, a failed reply ends the session, and a sender is another thread. -/
def Phase.afterWrite (phase : Phase) (ok : Bool) : Origin → Phase
  | .greeting => .serving
  | .reply => if ok then .serving else .closing
  | .sender => phase

/-- `WriteFrame` up to its first `send`: an oversized frame is refused. -/
def beginWrite (s : Server) (origin : Origin) (payload : Bytes) : Server × List Obs :=
  if payload.length > kMaxFrameSize.toNat then
    ({ s with phase := s.phase.afterWrite false origin }, [])
  else
    ({ s with lock := some ⟨origin, payload, writeLengthLE (UInt32.ofNat payload.length),
        payload⟩ }, [.began origin payload])

/-- One `send` of the writer that holds the mutex. -/
def write (s : Server) (call : SysCall) : Option (Server × List Obs) :=
  match s.lock with
  | none => none
  | some w =>
    match call.io with
    | .moves n =>
      let count := min (n + 1) w.left.length
      let stream := s.stream ++ w.left.take count
      let left := w.left.drop count
      if left ≠ [] then
        some ({ s with stream := stream, lock := some { w with left := left } }, [])
      else if w.body ≠ [] then
        some ({ s with stream := stream, lock := some { w with left := w.body, body := [] } }, [])
      else
        some ({ s with
            stream := stream, lock := none, phase := s.phase.afterWrite true w.origin },
          [.finished w.origin w.payload])
    | .retry => some (s, [])
    | .fails =>
      some ({ s with lock := none, broken := true, phase := s.phase.afterWrite false w.origin },
        [.failed w.origin])

inductive Action
  | accept
  | publish
  | greet
  | sendFrame (payload : Bytes)
  | answer (reply : Bytes)
  | lockReply
  | write (call : SysCall)
  | hangUp
  | withdraw
deriving DecidableEq, Repr

/-- **The server**, with `onConnect` what `on_connect_` returns (nothing when
there is no callback). -/
def machine (onConnect : Bytes) : Machine Server Action Obs where
  step s
    | .accept =>
      if s.phase = .accepting then some ({ s with phase := .accepted }, []) else none
    | .publish =>
      if s.phase = .accepted ∧ s.lock = none then
        some ({ s with phase := .connected, clientFd := true }, [])
      else none
    | .greet =>
      if s.phase = .connected ∧ s.lock = none then
        if onConnect = [] then some ({ s with phase := .serving }, [])
        else if s.clientFd then
          some (beginWrite { s with phase := .greeting } .greeting onConnect)
        else some ({ s with phase := .serving }, [])
      else none
    | .sendFrame payload =>
      if s.lock = none then
        if s.clientFd then some (beginWrite s .sender payload) else some (s, [])
      else none
    | .answer reply =>
      if s.phase = .serving ∧ reply ≠ [] then some ({ s with phase := .replying reply }, [])
      else none
    | .lockReply =>
      match s.phase with
      | .replying reply =>
        if s.lock = none then
          if s.clientFd then some (beginWrite s .reply reply)
          else some ({ s with phase := .serving }, [])
        else none
      | _ => none
    | .write call => write s call
    | .hangUp =>
      if s.phase = .serving then some ({ s with phase := .closing }, []) else none
    | .withdraw =>
      if s.phase = .closing ∧ s.lock = none then
        some ({ s with phase := .closed, clientFd := false }, [])
      else none

/-- One rule for each way a step goes on. -/
inductive Step (onConnect : Bytes) (s : Server) : Action → List Obs → Server → Prop
  | accepted (phase : s.phase = .accepting) :
      Step onConnect s .accept [] { s with phase := .accepted }
  | published (phase : s.phase = .accepted) (free : s.lock = none) :
      Step onConnect s .publish [] { s with phase := .connected, clientFd := true }
  | greeted {s' : Server} {os : List Obs} (phase : s.phase = .connected) (free : s.lock = none)
      (begun : beginWrite { s with phase := .greeting } .greeting onConnect = (s', os)) :
      Step onConnect s .greet os s'
  | silent (phase : s.phase = .connected) (free : s.lock = none)
      (nothing : onConnect = [] ∨ s.clientFd = false) :
      Step onConnect s .greet [] { s with phase := .serving }
  | sent {payload : Bytes} {s' : Server} {os : List Obs} (free : s.lock = none)
      (client : s.clientFd = true) (begun : beginWrite s .sender payload = (s', os)) :
      Step onConnect s (.sendFrame payload) os s'
  | unsent {payload : Bytes} : Step onConnect s (.sendFrame payload) [] s
  | answered {reply : Bytes} (phase : s.phase = .serving) :
      Step onConnect s (.answer reply) [] { s with phase := .replying reply }
  | replied {reply : Bytes} {s' : Server} {os : List Obs} (phase : s.phase = .replying reply)
      (free : s.lock = none) (begun : beginWrite s .reply reply = (s', os)) :
      Step onConnect s .lockReply os s'
  | unreplied {reply : Bytes} (phase : s.phase = .replying reply) :
      Step onConnect s .lockReply [] { s with phase := .serving }
  | wrote {call : SysCall} {s' : Server} {os : List Obs} (written : write s call = some (s', os)) :
      Step onConnect s (.write call) os s'
  | hungUp (phase : s.phase = .serving) :
      Step onConnect s .hangUp [] { s with phase := .closing }
  | withdrawn (phase : s.phase = .closing) :
      Step onConnect s .withdraw [] { s with phase := .closed, clientFd := false }

theorem step_cases {onConnect : Bytes} {s s' : Server} {a : Action} {os : List Obs}
    (h : (machine onConnect).step s a = some (s', os)) : Step onConnect s a os s' := by
  cases a with
  | accept =>
      simp only [machine] at h
      split at h
      · rename_i hphase
        cases h
        exact .accepted hphase
      · cases h
  | publish =>
      simp only [machine] at h
      split at h
      · rename_i hphase
        cases h
        exact .published hphase.1 hphase.2
      · cases h
  | greet =>
      simp only [machine] at h
      split at h
      · rename_i hphase
        split at h
        · rename_i hnothing
          cases h
          exact .silent hphase.1 hphase.2 (.inl hnothing)
        · split at h
          · exact .greeted hphase.1 hphase.2 (Option.some.inj h)
          · rename_i hclient
            cases h
            exact .silent hphase.1 hphase.2 (.inr (by simpa using hclient))
      · cases h
  | sendFrame payload =>
      simp only [machine] at h
      split at h
      · rename_i hfree
        split at h
        · rename_i hclient
          exact .sent hfree hclient (Option.some.inj h)
        · cases h
          exact .unsent
      · cases h
  | answer reply =>
      simp only [machine] at h
      split at h
      · rename_i hphase
        cases h
        exact .answered hphase.1
      · cases h
  | lockReply =>
      simp only [machine] at h
      split at h
      · rename_i reply hphase
        split at h
        · rename_i hfree
          split at h
          · exact .replied hphase hfree (Option.some.inj h)
          · cases h
            exact .unreplied hphase
        · cases h
      · cases h
  | write call => exact .wrote h
  | hangUp =>
      simp only [machine] at h
      split at h
      · rename_i hphase
        cases h
        exact .hungUp hphase
      · cases h
  | withdraw =>
      simp only [machine] at h
      split at h
      · rename_i hphase
        cases h
        exact .withdrawn hphase.1
      · cases h

/-! ## Whole frames -/

def Obs.began? : Obs → Option (Origin × Bytes)
  | .began origin payload => some (origin, payload)
  | _ => none

/-- The frames whose writing has begun, in order. -/
def begun (h : List Obs) : List (Origin × Bytes) := h.filterMap Obs.began?

@[simp] theorem begun_append (h os : List Obs) : begun (h ++ os) = begun h ++ begun os :=
  List.filterMap_append

/-- What a step does to the stream and to the writer. -/
inductive Change (s : Server) (os : List Obs) (s' : Server) : Prop
  | quiet (stream : s'.stream = s.stream) (lock : s'.lock = s.lock) (broken : s'.broken = s.broken)
      (none : begun os = [])
  | began (origin : Origin) (payload : Bytes) (stream : s'.stream = s.stream)
      (free : s.lock = none)
      (lock : s'.lock = some ⟨origin, payload, writeLengthLE (UInt32.ofNat payload.length),
        payload⟩)
      (broken : s'.broken = s.broken) (one : begun os = [(origin, payload)])
  | wrote (w : Writer) (part : Bytes) (left body : Bytes) (held : s.lock = some w)
      (pending : w.left ++ w.body = part ++ (left ++ body)) (stream : s'.stream = s.stream ++ part)
      (lock : s'.lock = some { w with left := left, body := body }) (broken : s'.broken = s.broken)
      (none : begun os = [])
  | finished (w : Writer) (held : s.lock = some w)
      (stream : s'.stream = s.stream ++ (w.left ++ w.body)) (lock : s'.lock = none)
      (broken : s'.broken = s.broken) (none : begun os = [])
  | failed (broken : s'.broken = true)

theorem beginWrite_change (s t : Server) (origin : Origin) (payload : Bytes)
    (hfree : s.lock = none) (hstream : t.stream = s.stream) (hlock : t.lock = s.lock)
    (hbroken : t.broken = s.broken) :
    Change s (beginWrite t origin payload).2 (beginWrite t origin payload).1 := by
  unfold beginWrite
  split
  · exact .quiet hstream hlock hbroken rfl
  · exact .began origin payload hstream hfree rfl hbroken rfl

theorem write_change {s s' : Server} {call : SysCall} {os : List Obs}
    (h : write s call = some (s', os)) : Change s os s' := by
  unfold write at h
  split at h
  · cases h
  · rename_i w hheld
    split at h
    · rename_i n _
      have htake := List.take_append_drop (min (n + 1) w.left.length) w.left
      simp only at h
      split at h
      · cases h
        refine .wrote w _ _ w.body hheld ?_ rfl rfl rfl rfl
        rw [← List.append_assoc, htake]
      · rename_i hleft
        rw [not_not] at hleft
        rw [hleft, List.append_nil] at htake
        split at h
        · cases h
          refine .wrote w _ w.body [] hheld ?_ rfl rfl rfl rfl
          rw [List.append_nil, htake]
        · rename_i hbody
          cases h
          refine .finished w hheld ?_ rfl rfl rfl
          rw [htake, not_not.mp hbody, List.append_nil]
    · cases h
      exact .quiet rfl rfl rfl rfl
    · cases h
      exact .failed rfl

theorem step_change {onConnect : Bytes} {s s' : Server} {a : Action} {os : List Obs}
    (h : (machine onConnect).step s a = some (s', os)) : Change s os s' := by
  cases step_cases h with
  | accepted | published | silent | unsent | answered | unreplied | hungUp | withdrawn =>
      exact .quiet rfl rfl rfl rfl
  | greeted phase free begun =>
      have hchange := beginWrite_change s { s with phase := .greeting } .greeting onConnect free
        rfl rfl rfl
      rwa [begun] at hchange
  | @sent payload s' os free client begun =>
      have hchange := beginWrite_change s s .sender payload free rfl rfl rfl
      rwa [begun] at hchange
  | @replied reply s' os phase free begun =>
      have hchange := beginWrite_change s s .reply reply free rfl rfl rfl
      rwa [begun] at hchange
  | wrote written => exact write_change written

/-- The stream is whole frames, and then a part of the frame that the holder
of the mutex is writing. -/
structure WholeFrames (h : List Obs) (s : Server) (whole : List (Origin × Bytes)) (part : Bytes) :
    Prop where
  stream : s.stream = whole.flatMap (fun f => frame f.2) ++ part
  idle : s.lock = none → part = [] ∧ begun h = whole
  writing : ∀ w, s.lock = some w → begun h = whole ++ [(w.origin, w.payload)] ∧
    frame w.payload = part ++ (w.left ++ w.body)

/-- **One step keeps the frames whole**, unless a write fails. -/
theorem step_wholeFrames {onConnect : Bytes} {h os : List Obs} {s s' : Server} {a : Action}
    (hi : s.broken = false → ∃ whole part, WholeFrames h s whole part)
    (hstep : (machine onConnect).step s a = some (s', os)) :
    s'.broken = false → ∃ whole part, WholeFrames (h ++ os) s' whole part := by
  intro hbroken
  cases step_change hstep with
  | quiet stream lock broken none =>
      obtain ⟨whole, part, hw⟩ := hi (broken ▸ hbroken)
      refine ⟨whole, part, by rw [stream, hw.stream], ?_, ?_⟩
      · rw [lock, begun_append, none, List.append_nil]
        exact hw.idle
      · rw [lock, begun_append, none, List.append_nil]
        exact hw.writing
  | began origin payload stream free lock broken one =>
      obtain ⟨whole, part, hw⟩ := hi (broken ▸ hbroken)
      obtain ⟨rfl, hbegun⟩ := hw.idle free
      refine ⟨whole, [], by rw [stream, hw.stream], by simp [lock], ?_⟩
      intro w hw'
      rw [lock, Option.some.injEq] at hw'
      subst hw'
      exact ⟨by rw [begun_append, one, hbegun], rfl⟩
  | wrote w part' left body held pending stream lock broken none =>
      obtain ⟨whole, part, hw⟩ := hi (broken ▸ hbroken)
      obtain ⟨hbegun, hframe⟩ := hw.writing w held
      refine ⟨whole, part ++ part', ?_, by simp [lock], ?_⟩
      · rw [stream, hw.stream, List.append_assoc]
      · intro w' hw'
        rw [lock, Option.some.injEq] at hw'
        subst hw'
        refine ⟨by rw [begun_append, none, List.append_nil, hbegun], ?_⟩
        rw [hframe, pending, List.append_assoc]
  | finished w held stream lock broken none =>
      obtain ⟨whole, part, hw⟩ := hi (broken ▸ hbroken)
      obtain ⟨hbegun, hframe⟩ := hw.writing w held
      refine ⟨whole ++ [(w.origin, w.payload)], [], ?_, ?_, by simp [lock]⟩
      · rw [stream, hw.stream, List.flatMap_append, List.append_assoc, ← hframe]
        simp
      · rw [begun_append, none, List.append_nil]
        exact fun _ => ⟨rfl, hbegun⟩
  | failed broken =>
      rw [broken] at hbroken
      cases hbroken

/-! ## The greeting first -/

/-- The worker has not come to the greeting yet. -/
def Phase.early : Phase → Bool
  | .accepting => true
  | .accepted => true
  | .connected => true
  | _ => false

/-- The condition on a step: no `SendFrame` gets the mutex, with a payload
that fits, between the publication of the descriptor and the greeting. -/
def noSendInWindow (s : Server) : Action → Prop
  | .sendFrame payload => ¬ (s.phase = .connected ∧ payload.length ≤ kMaxFrameSize.toNat)
  | _ => True

instance (s : Server) (a : Action) : Decidable (noSendInWindow s a) :=
  match a with
  | .sendFrame payload =>
    inferInstanceAs
      (Decidable (¬ (s.phase = .connected ∧ payload.length ≤ kMaxFrameSize.toNat)))
  | .accept | .publish | .greet | .answer _ | .lockReply | .write _ | .hangUp | .withdraw =>
    .isTrue trivial

/-- Before the greeting nothing has begun; afterwards it has begun first. -/
structure GreetedFirst (onConnect : Bytes) (h : List Obs) (s : Server) : Prop where
  unpublished : s.phase = .accepting ∨ s.phase = .accepted → s.clientFd = false
  early : s.phase.early = true → begun h = [] ∧ s.lock = none
  published : s.phase = .connected → s.clientFd = true
  late : s.phase.early = false → ∃ rest, begun h = (.greeting, onConnect) :: rest

variable {onConnect : Bytes}

/-- Late phases stay greeted, whatever else happens. -/
theorem GreetedFirst.of_late {h os : List Obs} {s s' : Server} (hi : GreetedFirst onConnect h s)
    (hlate : s.phase.early = false) (hlate' : s'.phase.early = false) :
    GreetedFirst onConnect (h ++ os) s' := by
  obtain ⟨rest, hrest⟩ := hi.late hlate
  refine ⟨?_, by simp [hlate'], ?_, fun _ => ⟨rest ++ begun os, by simp [hrest]⟩⟩
  · rintro (hphase | hphase) <;> simp [hphase, Phase.early] at hlate'
  · intro hphase
    simp [hphase, Phase.early] at hlate'

theorem afterWrite_late {phase : Phase} (h : phase.early = false) (ok : Bool) (origin : Origin) :
    (phase.afterWrite ok origin).early = false := by
  cases origin with
  | greeting => rfl
  | sender => exact h
  | reply => cases ok <;> rfl

theorem beginWrite_late {s : Server} (h : s.phase.early = false) (origin : Origin)
    (payload : Bytes) : (beginWrite s origin payload).1.phase.early = false := by
  unfold beginWrite
  split
  · exact afterWrite_late h false origin
  · exact h

/-- A write leaves a late phase late. -/
theorem write_late {s s' : Server} {call : SysCall} {os : List Obs}
    (hlate : s.phase.early = false) (h : write s call = some (s', os)) :
    s'.phase.early = false := by
  unfold write at h
  split at h
  · cases h
  · simp only at h
    (repeat' split at h) <;> cases h <;> first | exact hlate | exact afterWrite_late hlate _ _

/-- **One step keeps the greeting first**, outside the window. -/
theorem step_greetedFirst (hne : onConnect ≠ []) (hfits : onConnect.length ≤ kMaxFrameSize.toNat)
    {h os : List Obs} {s s' : Server} {a : Action} (hi : GreetedFirst onConnect h s)
    (hok : noSendInWindow s a) (hstep : (machine onConnect).step s a = some (s', os)) :
    GreetedFirst onConnect (h ++ os) s' := by
  cases step_cases hstep with
  | accepted phase =>
      have hearly := hi.early (by simp [phase, Phase.early])
      exact ⟨fun _ => hi.unpublished (.inl phase), fun _ => by simpa [begun] using hearly,
        by simp, by simp [Phase.early]⟩
  | published phase =>
      have hearly := hi.early (by simp [phase, Phase.early])
      exact ⟨by simp, fun _ => by simpa [begun] using hearly, fun _ => rfl,
        by simp [Phase.early]⟩
  | greeted phase free hbegun =>
      have hnone := (hi.early (by simp [phase, Phase.early])).1
      rw [beginWrite, if_neg (by omega)] at hbegun
      cases hbegun
      exact ⟨by simp, by simp [Phase.early], by simp,
        fun _ => ⟨[], by rw [begun_append, hnone]; rfl⟩⟩
  | silent phase free nothing =>
      rcases nothing with hnothing | hclient
      · exact absurd hnothing hne
      · rw [hi.published phase] at hclient
        cases hclient
  | @sent payload s' os free client hbegun =>
      cases hearly : s.phase.early with
      | false =>
          have hlate := beginWrite_late hearly .sender payload
          rw [hbegun] at hlate
          exact hi.of_late hearly hlate
      | true =>
          -- published and early is the window: only a frame that is refused gets here
          have hconnected : s.phase = .connected := by
            have hunpublished := hi.unpublished
            cases hphase : s.phase <;> simp_all [Phase.early]
          have hlarge : payload.length > kMaxFrameSize.toNat := by
            by_contra hsmall
            exact hok ⟨hconnected, by omega⟩
          rw [beginWrite, if_pos hlarge] at hbegun
          cases hbegun
          rw [List.append_nil]
          exact hi
  | unsent =>
      rw [List.append_nil]
      exact hi
  | answered phase => exact hi.of_late (by simp [phase, Phase.early]) rfl
  | @replied reply s' os phase free hbegun =>
      have hlate : s.phase.early = false := by simp [phase, Phase.early]
      have hlate' := beginWrite_late hlate .reply reply
      rw [hbegun] at hlate'
      exact hi.of_late hlate hlate'
  | unreplied phase => exact hi.of_late (by simp [phase, Phase.early]) rfl
  | wrote written =>
      cases hearly : s.phase.early with
      | false => exact hi.of_late hearly (write_late hearly written)
      | true =>
          simp only [write, (hi.early hearly).2] at written
          cases written
  | hungUp phase | withdrawn phase => exact hi.of_late (by simp [phase, Phase.early]) rfl

/-- **Whole frames, greeting first.**

* In every run, as long as no write has failed, the stream is whole frames in
  the order in which they were begun, followed by the part already written of
  the frame whose writer holds the mutex.
* In every run in which no `SendFrame` of a payload that fits gets the mutex
  between the publication of the descriptor and the greeting, the first frame
  is the greeting. -/
theorem greeting_first_whole_frames (hne : onConnect ≠ [])
    (hfits : onConnect.length ≤ kMaxFrameSize.toNat) :
    (∀ h s, Machine.Run (machine onConnect) Machine.always {} h s → s.broken = false →
      ∃ whole part, s.stream = whole.flatMap (fun f : Origin × Bytes => frame f.2) ++ part ∧
        (s.lock = none → part = [] ∧ begun h = whole) ∧
        (∀ w, s.lock = some w → begun h = whole ++ [(w.origin, w.payload)] ∧
          frame w.payload = part ++ (w.left ++ w.body))) ∧
    (∀ h s, Machine.Run (machine onConnect) noSendInWindow {} h s →
      begun h = [] ∨ ∃ rest, begun h = (.greeting, onConnect) :: rest) := by
  constructor
  · intro h s hrun hbroken
    obtain ⟨whole, part, hw⟩ := hrun.history_invariant
      (fun h s => s.broken = false → ∃ whole part, WholeFrames h s whole part)
      (fun _ => ⟨[], [], rfl, fun _ => ⟨rfl, rfl⟩, by simp⟩)
      (fun _ _ _ _ _ hi _ hstep => step_wholeFrames hi hstep) hbroken
    exact ⟨whole, part, hw.stream, hw.idle, hw.writing⟩
  · intro h s hrun
    have hi : GreetedFirst onConnect h s := by
      apply hrun.history_invariant (GreetedFirst onConnect)
      · exact ⟨fun _ => rfl, fun _ => ⟨rfl, rfl⟩, by simp, by simp [Phase.early]⟩
      · exact fun h s a s' os hi hok hstep => step_greetedFirst hne hfits hi hok hstep
    cases hearly : s.phase.early with
    | true => exact .inl (hi.early hearly).1
    | false => exact .inr (hi.late hearly)

/-- A notification that gets the mutex right after the descriptor has been
published: its frame is the first on the stream. -/
theorem send_overtakes_greeting :
    ∃ h s, Machine.Run (machine [0xAA]) Machine.always {} h s ∧ s.broken = false ∧
      s.stream = frame [1] ++ frame [0xAA] ∧
      ¬ (begun h = [] ∨ ∃ rest, begun h = (.greeting, [0xAA]) :: rest) := by
  have hexec : ((machine [0xAA]).exec {}
      [.accept, .publish, .sendFrame [1], .write (.transferred 3), .write (.transferred 0), .greet,
        .write (.transferred 9), .write (.transferred 9)]).map
        (fun r => (begun r.2, r.1.broken, r.1.stream)) =
      some ([(.sender, [1]), (.greeting, [0xAA])], false, frame [1] ++ frame [0xAA]) := by
    decide
  obtain ⟨h, s, hrun, hresult⟩ := Machine.Run.of_exec_map hexec
  simp only [Prod.mk.injEq] at hresult
  obtain ⟨hbegun, hbroken, hstream⟩ := hresult
  refine ⟨h, s, hrun, hbroken, hstream, ?_⟩
  simp [hbegun]

/-- The notification waits for the greeting, which goes out in two pieces
with an `EINTR` in between. -/
theorem greeting_first_then_send :
    ∃ h s, Machine.Run (machine [0xAA]) noSendInWindow {} h s ∧
      s.stream = frame [0xAA] ++ frame [1] ∧
      (begun h = [] ∨ ∃ rest, begun h = (.greeting, [0xAA]) :: rest) := by
  have hexec : ((machine [0xAA]).execIf (fun s a => decide (noSendInWindow s a)) {}
      [.accept, .publish, .greet, .write (.transferred 1), .write .eintr,
        .write (.transferred 9), .write (.transferred 9), .sendFrame [1],
        .write (.transferred 3), .write (.transferred 0)]).map (fun r => r.1.stream) =
      some (frame [0xAA] ++ frame [1]) := by
    decide
  obtain ⟨h, s, hrun, hstream⟩ := Machine.Run.of_execIf_map
    (fun _ _ => of_decide_eq_true) hexec
  exact ⟨h, s, hrun, hstream,
    (greeting_first_whole_frames (by decide) (by decide)).2 h s hrun⟩

end SocketGreeting
