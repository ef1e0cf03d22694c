import ClipboardHelper.Library.Machine
import ClipboardHelper.Library.Frames

/-!
# The writing half of the macOS socket server

`SocketServer.send` puts a closure on `writeQueue`; the closure serialises
its message and calls `writeAll` twice, for the length and for the payload.
`writeAll` calls `write` until everything is out or one call fails; the
failure is logged, not reported.  Meanwhile `queue` accepts a client, reads
from it and closes it when the read source is cancelled, and `stop` closes it
from outside.  All of them share `clientSocket`, which each `write` reads
afresh.

Every read of `clientSocket`, every `write`, `close` and assignment is an
action of its own; the system may hand out a closed descriptor again.

What the server remembers of the past is not enough to keep the stream in
order.  **`received_whole_frames`**: each client receives a prefix of whole
frames, which were submitted while it was connected, in that order, in every
run in which bytes only go to the client for which their frame was submitted,
and only while no `write` has failed within the frame and the client's stream
does not end inside another.  `payload_without_header` and
`frame_for_next_client` are runs without these conditions.
-/

namespace SocketWriter

open Library

/-! ## State -/

/-- A file descriptor. -/
abbrev Fd := Nat

/-- The identity of an accepted connection. -/
abbrev Client := Nat

/-- A closure on `writeQueue`: what `serializedData` returns for its message,
`none` if it throws, and, for the record, who was connected when it was
submitted. -/
structure Send where
  message : Option Bytes
  client : Option Client
deriving DecidableEq, Repr

/-- The two `writeAll` calls of a closure. -/
inductive Part
  | header
  | payload
deriving DecidableEq, Repr

/-- The closure that `writeQueue` is running: the payload, which `writeAll` it
is in, what that call has yet to write, and the `clientSocket` it has read for
the next `write`.  The last three fields are for the record: for whom the
frame was submitted, which bytes of it were written, and whether a `write` has
failed. -/
structure Writer where
  data : Bytes
  part : Part := .header
  rest : Bytes
  fd : Option (Option Fd) := none
  client : Option Client := none
  sent : Bytes := []
  broken : Bool := false
deriving DecidableEq, Repr

/-- What `queue` is doing: inside `acceptConnection`, serving the read source,
between the two statements of its cancel handler, or nothing. -/
inductive QueueThread
  | accepting
  | reading
  | closed
  | idle
deriving DecidableEq, Repr

/-- `clientSocket` and `listenSocket` are `none` and `false` for `-1`; `torn`
records the clients whose stream ends inside a frame that will not be
completed. -/
structure Server where
  listenSocket : Bool := true
  clientSocket : Option Fd := none
  peers : Fd → Option Client := fun _ => none
  nextClient : Client := 0
  queue : QueueThread := .accepting
  stopping : Bool := false
  crashed : Bool := false
  writeQueue : List Send := []
  writer : Option Writer := none
  torn : List Client := []

/-- The client that is connected. -/
def Server.current (s : Server) : Option Client := s.clientSocket.bind s.peers

/-! ## Steps -/

inductive Obs
  /-- `send` was called, and who was connected. -/
  | submitted (message : Option Bytes) (client : Option Client)
  /-- `write` put these bytes on this connection. -/
  | wrote (client : Client) (bytes : Bytes)
deriving DecidableEq, Repr

/-- The four bytes in front of a payload. -/
def header (data : Bytes) : Bytes := writeLengthLE (UInt32.ofNat data.length)

def send (s : Server) (message : Option Bytes) : Server × List Obs :=
  ({ s with writeQueue := s.writeQueue ++ [⟨message, s.current⟩] },
    [.submitted message s.current])

/-- The closure up to its first `writeAll`; `UInt32(data.count)` traps on a
payload that is too long. -/
def start (s : Server) : Option (Server × List Obs) :=
  match s.writer, s.writeQueue with
  | none, first :: rest =>
    if s.clientSocket = none then some ({ s with writeQueue := rest }, [])
    else
      match first.message with
      | none => some ({ s with writeQueue := rest }, [])
      | some data =>
        if data.length < 4294967296 then some
          ({ s with
              writeQueue := rest
              writer := some { data := data, rest := header data, client := first.client } }, [])
        else some
          ({ s with
              writeQueue := rest
              crashed := true }, [])
  | _, _ => none

/-- `writeAll` reads `clientSocket` for the next `write`. -/
def load (s : Server) : Option (Server × List Obs) :=
  match s.writer with
  | some w =>
    if w.fd = none then some
      ({ s with writer := some { w with fd := some s.clientSocket } }, [])
    else none
  | none => none

/-- A `writeAll` has returned.  An empty payload is not written. -/
def Writer.next (w : Writer) : Option Writer :=
  match w.part with
  | .header =>
    if w.data = [] then none
    else some
      { w with
          part := .payload
          rest := w.data
          fd := none }
  | .payload => none

/-- `write` has failed. -/
def Writer.fail (w : Writer) : Writer := { w with broken := true }

/-- `write` has written `n` bytes. -/
def Writer.advance (w : Writer) (n : Nat) : Writer :=
  { w with
      rest := w.rest.drop n
      fd := none
      sent := w.sent ++ w.rest.take n }

/-- One `write`: it returns `n` bytes written, or nothing positive (`none`),
as it always does on a descriptor that is not open. -/
def write (s : Server) (count : Option Nat) : Option (Server × List Obs) :=
  match s.writer with
  | none => none
  | some w =>
    match w.fd with
    | none => none
    | some fd =>
      match count with
      | none => some
          ({ s with
              writer := w.fail.next
              torn := if w.sent = [] then s.torn else w.client.toList ++ s.torn }, [])
      | some n =>
        match fd.bind s.peers with
        | none => none
        | some client =>
          if 0 < n ∧ n ≤ w.rest.length then some
            ({ s with
                writer :=
                  if n = w.rest.length then (w.advance n).next else some (w.advance n) },
              [.wrote client (w.rest.take n)])
          else none

/-- `acceptConnection`; after a failure it is not called again. -/
def accept (s : Server) (fd : Option Fd) : Option (Server × List Obs) :=
  if s.queue ≠ .accepting then none
  else if !s.listenSocket then some ({ s with queue := .idle }, [])
  else
    match fd with
    | none => some ({ s with queue := .idle }, [])
    | some fd =>
      if s.peers fd ≠ none then none
      else some
        ({ s with
            clientSocket := some fd
            peers := Function.update s.peers fd (some s.nextClient)
            nextClient := s.nextClient + 1
            queue := .reading }, [])

/-- The cancel handler of the read source up to its `close`. -/
def cancel (s : Server) : Option (Server × List Obs) :=
  if s.queue ≠ .reading then none
  else
    match s.clientSocket with
    | none => some ({ s with queue := .accepting }, [])
    | some fd => some
        ({ s with
            peers := Function.update s.peers fd none
            queue := .closed }, [])

/-- `clientSocket = -1` and the next `acceptConnection`. -/
def forget (s : Server) : Option (Server × List Obs) :=
  if s.queue ≠ .closed then none
  else some
    ({ s with
        clientSocket := none
        queue := .accepting }, [])

/-- `stop` up to its first `close`. -/
def stop (s : Server) : Option (Server × List Obs) :=
  if s.stopping then none
  else
    match s.clientSocket with
    | none => some ({ s with listenSocket := false }, [])
    | some fd => some
        ({ s with
            peers := Function.update s.peers fd none
            stopping := true }, [])

/-- The rest of `stop`. -/
def stopForget (s : Server) : Option (Server × List Obs) :=
  if s.stopping then some
    ({ s with
        clientSocket := none
        listenSocket := false
        stopping := false }, [])
  else none

inductive Action
  | send (message : Option Bytes)
  | start
  | load
  | write (count : Option Nat)
  | accept (fd : Option Fd)
  | cancel
  | forget
  | stop
  | stopForget
deriving DecidableEq, Repr

/-- **The server**, under every interleaving of its threads; after a trap
nothing happens any more. -/
def machine : Machine Server Action Obs where
  step s a :=
    if s.crashed then none
    else
      match a with
      | .send message => some (send s message)
      | .start => start s
      | .load => load s
      | .write count => write s count
      | .accept fd => accept s fd
      | .cancel => cancel s
      | .forget => forget s
      | .stop => stop s
      | .stopForget => stopForget s

/-! ## What one step does to the stream -/

/-- Where the next `write` goes. -/
def destination (s : Server) : Option Client :=
  match s.writer with
  | some w => w.fd.bind (fun fd => fd.bind s.peers)
  | none => none

inductive Step (s : Server) : Action → Server → List Obs → Prop
  | submitted {message : Option Bytes} :
      Step s (.send message)
        { s with writeQueue := s.writeQueue ++ [⟨message, s.current⟩] }
        [.submitted message s.current]
  | dropped {s' : Server} {first : Send} {rest : List Send} (hidle : s.writer = none)
      (hqueue : s.writeQueue = first :: rest) (hwriter : s'.writer = none)
      (hrest : s'.writeQueue = rest) (htorn : s'.torn = s.torn) : Step s .start s' []
  | started {first : Send} {rest : List Send} {data : Bytes} (hidle : s.writer = none)
      (hqueue : s.writeQueue = first :: rest) (hmessage : first.message = some data)
      (hlength : data.length < 4294967296) :
      Step s .start
        { s with
            writeQueue := rest
            writer := some { data := data, rest := header data, client := first.client } } []
  | loaded {w : Writer} (hwriter : s.writer = some w) :
      Step s .load { s with writer := some { w with fd := some s.clientSocket } } []
  | failed {w : Writer} (hwriter : s.writer = some w) :
      Step s (.write none)
        { s with
            writer := w.fail.next
            torn := if w.sent = [] then s.torn else w.client.toList ++ s.torn } []
  | wrote {w : Writer} {n : Nat} {client : Client} (hwriter : s.writer = some w)
      (hdestination : destination s = some client) (hn : n ≤ w.rest.length) :
      Step s (.write (some n))
        { s with
            writer := if n = w.rest.length then (w.advance n).next else some (w.advance n) }
        [.wrote client (w.rest.take n)]
  | elsewhere {a : Action} {s' : Server} (hwriter : s'.writer = s.writer)
      (hqueue : s'.writeQueue = s.writeQueue) (htorn : s'.torn = s.torn) : Step s a s' []

theorem start_step {s s' : Server} {os : List Obs} (h : start s = some (s', os)) :
    Step s .start s' os := by
  unfold start at h
  split at h
  · rename_i first rest hidle hqueue
    split at h
    · cases h
      exact .dropped hidle hqueue hidle rfl rfl
    · split at h
      · cases h
        exact .dropped hidle hqueue hidle rfl rfl
      · rename_i data hmessage
        split at h
        · rename_i hlength
          cases h
          exact .started hidle hqueue hmessage hlength
        · cases h
          exact .dropped hidle hqueue hidle rfl rfl
  · cases h

theorem write_step {s s' : Server} {count : Option Nat} {os : List Obs}
    (h : write s count = some (s', os)) : Step s (.write count) s' os := by
  unfold write at h
  split at h
  · cases h
  · rename_i w hwriter
    split at h
    · cases h
    · rename_i fd hfd
      split at h
      · cases h
        exact .failed hwriter
      · rename_i n
        split at h
        · cases h
        · rename_i client hpeer
          split at h
          · rename_i hn
            cases h
            exact .wrote hwriter (by simp [destination, hwriter, hfd, hpeer]) hn.2
          · cases h

/-- The connection side does not touch the writer. -/
theorem accept_step {s s' : Server} {fd : Option Fd} {os : List Obs}
    (h : accept s fd = some (s', os)) : Step s (.accept fd) s' os := by
  unfold accept at h
  split at h
  · cases h
  · split at h
    · cases h
      exact .elsewhere rfl rfl rfl
    · split at h
      · cases h
        exact .elsewhere rfl rfl rfl
      · split at h
        · cases h
        · cases h
          exact .elsewhere rfl rfl rfl

theorem cancel_step {s s' : Server} {os : List Obs} (h : cancel s = some (s', os)) :
    Step s .cancel s' os := by
  unfold cancel at h
  split at h
  · cases h
  · split at h
    · cases h
      exact .elsewhere rfl rfl rfl
    · cases h
      exact .elsewhere rfl rfl rfl

theorem stop_step {s s' : Server} {os : List Obs} (h : stop s = some (s', os)) :
    Step s .stop s' os := by
  unfold stop at h
  split at h
  · cases h
  · split at h
    · cases h
      exact .elsewhere rfl rfl rfl
    · cases h
      exact .elsewhere rfl rfl rfl

/-- **Every step is one of these.** -/
theorem step_cases {s s' : Server} {a : Action} {os : List Obs}
    (h : machine.step s a = some (s', os)) : Step s a s' os := by
  simp only [machine] at h
  split at h
  · cases h
  · cases a with
    | send message =>
        cases h
        exact .submitted
    | start => exact start_step h
    | load =>
        simp only [load] at h
        split at h
        · rename_i w hwriter
          split at h
          · cases h
            exact .loaded hwriter
          · cases h
        · cases h
    | write count => exact write_step h
    | accept fd => exact accept_step h
    | cancel => exact cancel_step h
    | forget =>
        simp only [forget] at h
        split at h
        · cases h
        · cases h
          exact .elsewhere rfl rfl rfl
    | stop => exact stop_step h
    | stopForget =>
        simp only [stopForget] at h
        split at h
        · cases h
          exact .elsewhere rfl rfl rfl
        · cases h

/-! ## The bytes of one client -/

/-- The payloads submitted while this client was connected. -/
def submittedTo (client : Client) (h : List Obs) : List Bytes :=
  h.filterMap fun o =>
    match o with
    | .submitted message (some c) => if c = client then message else none
    | _ => none

/-- What this client receives. -/
def received (client : Client) (h : List Obs) : Bytes :=
  h.flatMap fun o =>
    match o with
    | .wrote c bytes => if c = client then bytes else []
    | _ => []

/-- The payloads that still wait for their turn. -/
def waiting (client : Client) (queue : List Send) : List Bytes :=
  queue.filterMap fun send => if send.client = some client then send.message else none

/-- The writer, if it is writing for this client and nothing has failed. -/
def active (client : Client) (writer : Option Writer) : Option Writer :=
  writer.filter fun w => decide (w.client = some client) && !w.broken

def inHand (client : Client) (writer : Option Writer) : List Bytes :=
  ((active client writer).map Writer.data).toList

def written (client : Client) (writer : Option Writer) : Bytes :=
  ((active client writer).map Writer.sent).getD []

@[simp] theorem submittedTo_append (client : Client) (h os : List Obs) :
    submittedTo client (h ++ os) = submittedTo client h ++ submittedTo client os :=
  List.filterMap_append

@[simp] theorem received_append (client : Client) (h os : List Obs) :
    received client (h ++ os) = received client h ++ received client os :=
  List.flatMap_append

@[simp] theorem submittedTo_nil (client : Client) : submittedTo client [] = [] := rfl

@[simp] theorem received_nil (client : Client) : received client [] = [] := rfl

@[simp] theorem submittedTo_wrote (client c : Client) (bytes : Bytes) :
    submittedTo client [.wrote c bytes] = [] := rfl

@[simp] theorem received_submitted (client : Client) (message : Option Bytes)
    (c : Option Client) : received client [.submitted message c] = [] := rfl

theorem submittedTo_submitted (client : Client) (message : Option Bytes) (c : Option Client) :
    submittedTo client [.submitted message c] = waiting client [⟨message, c⟩] := by
  cases c with
  | none => rfl
  | some c =>
      have hsame : (some c = some client) = (c = client) := by simp
      simp only [submittedTo, waiting, List.filterMap_cons, List.filterMap_nil, hsame]

theorem received_wrote_self (client : Client) (bytes : Bytes) :
    received client [.wrote client bytes] = bytes := by
  simp [received]

theorem received_wrote_other {client c : Client} (hne : c ≠ client) (bytes : Bytes) :
    received client [.wrote c bytes] = [] := by
  simp [received, hne]

theorem waiting_append (client : Client) (queue more : List Send) :
    waiting client (queue ++ more) = waiting client queue ++ waiting client more :=
  List.filterMap_append

theorem waiting_cons (client : Client) (first : Send) (rest : List Send) :
    waiting client (first :: rest) = waiting client [first] ++ waiting client rest :=
  waiting_append client [first] rest

theorem active_none (client : Client) : active client none = none := rfl

theorem active_some {client : Client} {w : Writer} (hclient : w.client = some client)
    (hbroken : w.broken = false) : active client (some w) = some w := by
  simp [active, hclient, hbroken]

theorem active_broken {client : Client} {w : Writer} (hbroken : w.broken = true) :
    active client (some w) = none := by
  simp [active, hbroken]

theorem active_other {client : Client} {w : Writer} (hclient : w.client ≠ some client) :
    active client (some w) = none := by
  simp [active, hclient]

/-! ## What a writer has written -/

/-- What is left of the frame after the current `writeAll`. -/
def Writer.later (w : Writer) : Bytes :=
  match w.part with
  | .header => w.data
  | .payload => []

/-- Unless a `write` failed, the frame is what was written and what is to be
written. -/
structure Whole (w : Writer) : Prop where
  length : w.data.length < 4294967296
  frame : w.broken = false → w.sent ++ w.rest ++ w.later = Library.frame w.data

theorem whole_started {data : Bytes} (hlength : data.length < 4294967296)
    (client : Option Client) :
    Whole { data := data, rest := header data, client := client } where
  length := hlength
  frame _ := by simp [Writer.later, header, Library.frame]

/-- What `Writer.next` keeps. -/
theorem next_some {w w' : Writer} (hnext : w.next = some w') :
    w'.data = w.data ∧ w'.client = w.client ∧ w'.sent = w.sent ∧ w'.broken = w.broken ∧
      w'.rest ++ w'.later = w.later := by
  unfold Writer.next at hnext
  split at hnext
  · rename_i hpart
    split at hnext
    · cases hnext
    · cases hnext
      simp [Writer.later, hpart]
  · cases hnext

/-- A closure ends when nothing is left to be written. -/
theorem next_none {w : Writer} (hnext : w.next = none) : w.later = [] := by
  unfold Writer.next at hnext
  unfold Writer.later
  split at hnext
  · split at hnext
    · rename_i hdata
      exact hdata
    · cases hnext
  · rfl

theorem Whole.next {w w' : Writer} (hw : Whole w) (hdone : w.broken = false → w.rest = [])
    (hnext : w.next = some w') : Whole w' := by
  obtain ⟨hdata, -, hsent, hbroken, hrest⟩ := next_some hnext
  constructor
  · rw [hdata]
    exact hw.length
  · intro hunbroken
    rw [hbroken] at hunbroken
    have hframe := hw.frame hunbroken
    rw [hdone hunbroken, List.append_nil] at hframe
    rw [hdata, hsent, List.append_assoc, hrest]
    exact hframe

theorem Whole.fail {w : Writer} (hw : Whole w) : Whole w.fail where
  length := hw.length
  frame hbroken := by cases hbroken

/-- **Writing moves bytes from one side to the other.** -/
theorem Whole.advance {w : Writer} (hw : Whole w) (n : Nat) : Whole (w.advance n) where
  length := hw.length
  frame hbroken := by
    have hframe := hw.frame hbroken
    have hlater : (w.advance n).later = w.later := rfl
    calc w.sent ++ w.rest.take n ++ w.rest.drop n ++ (w.advance n).later
        = w.sent ++ w.rest ++ w.later := by
          rw [hlater, List.append_assoc w.sent, List.take_append_drop]
      _ = Library.frame w.data := hframe

/-- What was written of a frame is its beginning. -/
theorem Whole.sent_prefix {w : Writer} (hw : Whole w) (hbroken : w.broken = false) :
    w.sent <+: Library.frame w.data :=
  ⟨w.rest ++ w.later, by rw [← List.append_assoc, hw.frame hbroken]⟩

/-- A finished closure has written the frame. -/
theorem Whole.finished {w : Writer} (hw : Whole w) (hbroken : w.broken = false)
    (hrest : w.rest = []) (hnext : w.next = none) : w.sent = Library.frame w.data := by
  have hframe := hw.frame hbroken
  rwa [hrest, next_none hnext, List.append_nil, List.append_nil] at hframe

/-! ## Whole frames, in order -/

/-- **In order**: bytes are written only for the client that was connected
when the frame was submitted, after no `write` of this frame has failed, and
not behind a torn frame. -/
def InOrder (s : Server) : Action → Prop
  | .write (some _) => ∀ w client, s.writer = some w → destination s = some client →
      w.client = some client ∧ w.broken = false ∧ client ∉ s.torn
  | _ => True

/-- What a client has received: the frames that are done, then what has been
written of the one in hand; or a part of frames, the last of them torn.  The
frames that are done, in hand and waiting were submitted to this client, in
this order. -/
def Stream (h : List Obs) (s : Server) (client : Client) : Prop :=
  ∃ done : List Bytes,
    (done ++ (inHand client s.writer ++ waiting client s.writeQueue)).Sublist
        (submittedTo client h) ∧
      (∀ data ∈ done, data.length < 4294967296) ∧
      if client ∈ s.torn then received client h <+: done.flatMap frame
      else received client h = done.flatMap frame ++ written client s.writer

structure Ordered (h : List Obs) (s : Server) : Prop where
  whole : ∀ w, s.writer = some w → Whole w
  stream : ∀ client, Stream h s client

theorem ordered_initial : Ordered [] {} where
  whole w hw := by cases hw
  stream client := ⟨[], List.Sublist.refl _, by simp, rfl⟩

variable {h os : List Obs} {s s' : Server} {client : Client}

/-- A step that changes nothing for this client, except that frames may be
dropped from the queue. -/
theorem Stream.still (hs : Stream h s client) (hobs : received client os = [])
    (hsubmitted : submittedTo client os = [])
    (hhand : inHand client s'.writer = inHand client s.writer)
    (hwritten : written client s'.writer = written client s.writer)
    (hwaiting : (waiting client s'.writeQueue).Sublist (waiting client s.writeQueue))
    (htorn : client ∈ s'.torn ↔ client ∈ s.torn) : Stream (h ++ os) s' client := by
  obtain ⟨done, hsub, hlengths, hreceived⟩ := hs
  refine ⟨done, ?_, hlengths, ?_⟩
  · rw [submittedTo_append, hsubmitted, List.append_nil, hhand]
    exact ((hwaiting.append_left _).append_left _).trans hsub
  · rw [received_append, hobs, List.append_nil, hwritten]
    simpa only [htorn] using hreceived

/-- A frame is submitted. -/
theorem Stream.submit (hs : Stream h s client) (message : Option Bytes) :
    Stream (h ++ [.submitted message s.current])
      { s with writeQueue := s.writeQueue ++ [⟨message, s.current⟩] } client := by
  obtain ⟨done, hsub, hlengths, hreceived⟩ := hs
  refine ⟨done, ?_, hlengths, ?_⟩
  · rw [submittedTo_append, submittedTo_submitted, waiting_append, ← List.append_assoc,
      ← List.append_assoc, List.append_assoc done]
    exact hsub.append_right _
  · rwa [received_append, received_submitted, List.append_nil]

/-- The first frame of the queue is taken in hand. -/
theorem Stream.start (hs : Stream h s client) {first : Send} {rest : List Send} {data : Bytes}
    (hidle : s.writer = none) (hqueue : s.writeQueue = first :: rest)
    (hmessage : first.message = some data) :
    Stream h
      { s with
          writeQueue := rest
          writer := some { data := data, rest := header data, client := first.client } }
      client := by
  obtain ⟨done, hsub, hlengths, hreceived⟩ := hs
  have hold : written client s.writer = [] := by rw [hidle]; rfl
  have hnew : written client
      (some { data := data, rest := header data, client := first.client }) = [] := by
    by_cases hclient : first.client = some client
    · rw [written, active_some hclient rfl]
      rfl
    · rw [written, active_other hclient]
      rfl
  refine ⟨done, ?_, hlengths, ?_⟩
  · have hmoved : inHand client
        (some { data := data, rest := header data, client := first.client }) ++
          waiting client rest = inHand client s.writer ++ waiting client s.writeQueue := by
      rw [hidle, hqueue, waiting_cons]
      by_cases hclient : first.client = some client
      · rw [inHand, active_some hclient rfl]
        simp [waiting, hclient, hmessage, inHand, active_none]
      · rw [inHand, active_other hclient]
        simp [waiting, hclient, inHand, active_none]
    rw [hmoved]
    exact hsub
  · rw [hnew]
    rwa [hold] at hreceived

/-- A `write` fails: the frame in hand is given up, and torn if some of it was
written. -/
theorem Stream.fail (hs : Stream h s client) {w : Writer} (hwriter : s.writer = some w)
    (hw : Whole w) :
    Stream h
      { s with
          writer := w.fail.next
          torn := if w.sent = [] then s.torn else w.client.toList ++ s.torn } client := by
  obtain ⟨done, hsub, hlengths, hreceived⟩ := hs
  have hgone : active client w.fail.next = none := by
    cases hnext : w.fail.next with
    | none => rfl
    | some w' =>
        obtain ⟨-, -, -, hbroken, -⟩ := next_some hnext
        exact active_broken hbroken
  have hless : (done ++ (inHand client w.fail.next ++ waiting client s.writeQueue)).Sublist
      (submittedTo client h) := by
    refine (List.Sublist.append_left ?_ done).trans hsub
    rw [inHand, hgone]
    exact List.sublist_append_right _ _
  have hmono : client ∈ s.torn →
      client ∈ if w.sent = [] then s.torn else w.client.toList ++ s.torn := by
    intro htorn
    split
    · exact htorn
    · exact List.mem_append_right _ htorn
  by_cases htorn : client ∈ s.torn
  · refine ⟨done, hless, hlengths, ?_⟩
    rw [if_pos (hmono htorn)]
    rwa [if_pos htorn] at hreceived
  rw [if_neg htorn, hwriter] at hreceived
  cases hactive : active client (some w) with
  | none =>
      have hdone : received client h = done.flatMap frame := by
        rw [hreceived, written, hactive]
        exact List.append_nil _
      refine ⟨done, hless, hlengths, ?_⟩
      by_cases hnow : client ∈ if w.sent = [] then s.torn else w.client.toList ++ s.torn
      · rw [if_pos hnow, hdone]
      · rw [if_neg hnow, hdone, written, hgone]
        exact (List.append_nil _).symm
  | some w' =>
      obtain ⟨heq, hkeep⟩ := Option.filter_eq_some_iff.mp hactive
      obtain rfl := Option.some.inj heq
      simp only [Bool.and_eq_true, decide_eq_true_eq, Bool.not_eq_true'] at hkeep
      obtain ⟨hclient, hunbroken⟩ := hkeep
      have hhand : inHand client (some w) = [w.data] := by rw [inHand, hactive]; rfl
      rw [written, hactive] at hreceived
      by_cases hsent : w.sent = []
      · refine ⟨done, hless, hlengths, ?_⟩
        simp only [if_pos hsent, if_neg htorn]
        rw [hreceived, written, hgone]
        exact congrArg _ hsent
      · refine ⟨done ++ [w.data], ?_, ?_, ?_⟩
        · rw [inHand, hgone, List.append_assoc]
          rwa [hwriter, hhand] at hsub
        · intro data hmem
          rcases List.mem_append.mp hmem with hmem | hmem
          · exact hlengths data hmem
          · rw [List.mem_singleton.mp hmem]
            exact hw.length
        · rw [if_pos (by simp [hsent, hclient]), hreceived]
          simp only [List.flatMap_append, List.flatMap_cons, List.flatMap_nil, List.append_nil]
          exact (List.prefix_append_right_inj _).mpr (hw.sent_prefix hunbroken)

/-- A `write` succeeds, in order. -/
theorem Stream.write (hs : Stream h s client) {w : Writer} {n : Nat} {peer : Client}
    (hwriter : s.writer = some w) (hclient : w.client = some peer) (hbroken : w.broken = false)
    (htorn : peer ∉ s.torn) (hw : Whole w) :
    Stream (h ++ [.wrote peer (w.rest.take n)])
      { s with
          writer := if n = w.rest.length then (w.advance n).next else some (w.advance n) }
      client := by
  by_cases hto : peer = client
  · subst hto
    obtain ⟨done, hsub, hlengths, hreceived⟩ := hs
    rw [if_neg htorn, hwriter, written, active_some hclient hbroken] at hreceived
    have hhand : inHand peer (some w) = [w.data] := by
      rw [inHand, active_some hclient hbroken]
      rfl
    rw [hwriter, hhand] at hsub
    have hafter : received peer (h ++ [.wrote peer (w.rest.take n)]) =
        done.flatMap frame ++ (w.advance n).sent := by
      rw [received_append, received_wrote_self, hreceived, List.append_assoc]
      rfl
    -- The writer goes on with the same frame, or the frame is done.
    have hgoes : ∀ w' : Writer, w'.data = w.data → w'.client = some peer → w'.broken = false →
        w'.sent = (w.advance n).sent →
        Stream (h ++ [.wrote peer (w.rest.take n)]) { s with writer := some w' } peer := by
      intro w' hdata hclient' hbroken' hsent
      refine ⟨done, ?_, hlengths, ?_⟩
      · rw [submittedTo_append, submittedTo_wrote, List.append_nil, inHand,
          active_some hclient' hbroken']
        simpa [hdata] using hsub
      · rw [if_neg htorn, hafter, written, active_some hclient' hbroken', ← hsent]
        rfl
    by_cases hn : n = w.rest.length
    · rw [if_pos hn]
      have hrest : (w.advance n).rest = [] := by
        rw [hn]
        exact List.drop_length
      cases hnext : (w.advance n).next with
      | some w' =>
          obtain ⟨hdata, hclient', hsent, hbroken', -⟩ := next_some hnext
          exact hgoes w' hdata (hclient'.trans hclient) (hbroken'.trans hbroken) hsent
      | none =>
          have hframe : (w.advance n).sent = frame w.data :=
            (hw.advance n).finished hbroken hrest hnext
          refine ⟨done ++ [w.data], ?_, ?_, ?_⟩
          · rw [submittedTo_append, submittedTo_wrote, List.append_nil, List.append_assoc]
            exact hsub
          · intro data hmem
            rcases List.mem_append.mp hmem with hmem | hmem
            · exact hlengths data hmem
            · rw [List.mem_singleton.mp hmem]
              exact hw.length
          · rw [if_neg htorn, hafter, hframe]
            simp [written, active_none]
    · rw [if_neg hn]
      exact hgoes (w.advance n) rfl hclient hbroken rfl
  · have hidle : active client s.writer = none := by
      rw [hwriter]
      exact active_other (by simpa [hclient] using hto)
    have hidle' : active client
        (if n = w.rest.length then (w.advance n).next else some (w.advance n)) = none := by
      split
      · cases hnext : (w.advance n).next with
        | none => rfl
        | some w' =>
            obtain ⟨-, hclient', -, -, -⟩ := next_some hnext
            have hother : w'.client = some peer := hclient'.trans hclient
            exact active_other (by simpa [hother] using hto)
      · have hother : (w.advance n).client = some peer := hclient
        exact active_other (by simpa [hother] using hto)
    refine hs.still (received_wrote_other hto _) (submittedTo_wrote client peer _) ?_ ?_
      (List.Sublist.refl _) Iff.rfl
    · rw [inHand, inHand, hidle, hidle']
    · rw [written, written, hidle, hidle']

/-- **The streams stay in order** at every step in order. -/
theorem Ordered.step {a : Action} (hi : Ordered h s) (hguard : InOrder s a)
    (hstep : Step s a s' os) : Ordered (h ++ os) s' := by
  cases hstep with
  | submitted => exact ⟨hi.whole, fun client => (hi.stream client).submit _⟩
  | dropped hidle hqueue hwriter hrest htorn =>
      constructor
      · intro w hw
        rw [hwriter] at hw
        cases hw
      intro client
      refine (hi.stream client).still rfl rfl (by rw [hwriter, hidle]) (by rw [hwriter, hidle])
        ?_ (by rw [htorn])
      rw [hqueue, waiting_cons, hrest]
      exact List.sublist_append_right _ _
  | started hidle hqueue hmessage hlength =>
      constructor
      · intro w hw
        cases hw
        exact whole_started hlength _
      · intro client
        rw [List.append_nil]
        exact (hi.stream client).start hidle hqueue hmessage
  | @loaded w hwriter =>
      have hw := hi.whole w hwriter
      constructor
      · intro w' hw'
        cases hw'
        exact ⟨hw.length, hw.frame⟩
      · intro client
        have hsame : (active client (some { w with fd := some s.clientSocket })).map
            (fun w => (w.data, w.sent)) =
            (active client s.writer).map (fun w => (w.data, w.sent)) := by
          rw [hwriter]
          simp only [active, Option.filter_some]
          split <;> rfl
        have hdata := congrArg (Option.map Prod.fst) hsame
        have hsent := congrArg (Option.map Prod.snd) hsame
        rw [Option.map_map, Option.map_map] at hdata hsent
        refine (hi.stream client).still rfl rfl (congrArg Option.toList hdata) ?_
          (List.Sublist.refl _) Iff.rfl
        exact congrArg (fun o => Option.getD o []) hsent
  | @failed w hwriter =>
      have hw := hi.whole w hwriter
      constructor
      · intro w' hw'
        exact hw.fail.next (fun hbroken => by cases hbroken) hw'
      · intro client
        rw [List.append_nil]
        exact (hi.stream client).fail hwriter hw
  | @wrote w n peer hwriter hdestination hn =>
      have hw := hi.whole w hwriter
      obtain ⟨hclient, hbroken, htorn⟩ := hguard w peer hwriter hdestination
      constructor
      · intro w' hw'
        have hcases : (if n = w.rest.length then (w.advance n).next else some (w.advance n)) =
            some w' := hw'
        split at hcases
        · rename_i hall
          refine (hw.advance n).next (fun _ => ?_) hcases
          rw [hall]
          exact List.drop_length
        · cases hcases
          exact hw.advance n
      · intro client
        exact (hi.stream client).write hwriter hclient hbroken htorn hw
  | elsewhere hwriter hqueue htorn =>
      refine ⟨fun w hw => hi.whole w (hwriter ▸ hw), ?_⟩
      intro client
      exact (hi.stream client).still rfl rfl (by rw [hwriter]) (by rw [hwriter])
        (by rw [hqueue]) (by rw [htorn])

/-- **Clients receive whole frames.**  In every run in order, what a client
has received is a prefix of a sequence of whole frames, which were submitted
while it was connected, in this order. -/
theorem received_whole_frames :
    ∀ h s, machine.Run InOrder {} h s → ∀ client, ∃ frames : List Bytes,
      received client h <+: frames.flatMap frame ∧ frames.Sublist (submittedTo client h) ∧
        ∀ data ∈ frames, data.length < 2 ^ 32 := by
  intro h s hrun client
  have hi : Ordered h s := hrun.history_invariant Ordered ordered_initial
    (fun _ _ _ _ _ hi hguard hstep => hi.step hguard (step_cases hstep))
  obtain ⟨done, hsub, hlengths, hreceived⟩ := hi.stream client
  have hdone : done.Sublist (submittedTo client h) :=
    (List.sublist_append_left _ _).trans hsub
  split at hreceived
  · exact ⟨done, hreceived, hdone, hlengths⟩
  · cases hactive : active client s.writer with
    | none =>
        rw [written, hactive] at hreceived
        exact ⟨done, ⟨[], by simp [hreceived]⟩, hdone, hlengths⟩
    | some w =>
        obtain ⟨hwriter, hkeep⟩ := Option.filter_eq_some_iff.mp hactive
        simp only [Bool.and_eq_true, decide_eq_true_eq, Bool.not_eq_true'] at hkeep
        have hw := hi.whole w hwriter
        rw [written, hactive] at hreceived
        refine ⟨done ++ [w.data], ?_, ?_, ?_⟩
        · rw [hreceived]
          simp only [List.flatMap_append, List.flatMap_cons, List.flatMap_nil, List.append_nil]
          exact (List.prefix_append_right_inj _).mpr (hw.sent_prefix hkeep.2)
        · rw [inHand, hactive, ← List.append_assoc] at hsub
          exact (List.sublist_append_left _ _).trans hsub
        · intro data hmem
          rcases List.mem_append.mp hmem with hmem | hmem
          · exact hlengths data hmem
          · rw [List.mem_singleton.mp hmem]
            exact hw.length

/-- The test for a step in order. -/
def inOrderTest (s : Server) : Action → Bool
  | .write (some _) =>
    match s.writer, destination s with
    | some w, some client =>
      decide (w.client = some client) && !w.broken && decide (client ∉ s.torn)
    | _, _ => true
  | _ => true

theorem inOrder_of_test (s : Server) (a : Action) (h : inOrderTest s a = true) :
    InOrder s a := by
  cases a with
  | write count =>
      cases count with
      | none => trivial
      | some n =>
          intro w client hwriter hdestination
          simpa [inOrderTest, hwriter, hdestination, and_assoc] using h
  | _ => trivial

/-- One frame in three pieces, and the header of a second, after which the
connection fails. -/
theorem received_whole_frames_torn :
    ∃ h s, machine.Run InOrder {} h s ∧
      received 0 h = [1, 0, 0, 0, 0x41, 2, 0, 0, 0] ∧
      submittedTo 0 h = [[0x41], [0x42, 0x43]] ∧ ∃ frames : List Bytes,
        received 0 h <+: frames.flatMap frame ∧ frames.Sublist (submittedTo 0 h) := by
  have hexec : (machine.execIf inOrderTest {}
      [.accept (some 7), .send (some [0x41]), .send (some [0x42, 0x43]), .start, .load,
        .write (some 3), .load, .write (some 1), .load, .write (some 1), .start, .load,
        .write (some 4), .load, .write none]).map
        (fun r => (received 0 r.2, submittedTo 0 r.2)) =
      some ([1, 0, 0, 0, 0x41, 2, 0, 0, 0], [[0x41], [0x42, 0x43]]) := by
    decide
  obtain ⟨h, s, hrun, hobs⟩ := Machine.Run.of_execIf_map inOrder_of_test hexec
  obtain ⟨hreceived, hsubmitted⟩ := by simpa only [Prod.mk.injEq] using hobs
  obtain ⟨frames, hprefix, hsub, -⟩ := received_whole_frames h s hrun 0
  exact ⟨h, s, hrun, hreceived, hsubmitted, frames, hprefix, hsub⟩

/-- **A payload without its header**: `write` takes two bytes of the length
and is then interrupted; `writeAll` gives up, and the payload follows on the
same connection. -/
theorem payload_without_header :
    ∃ h s, machine.Run Machine.always {} h s ∧ received 0 h = [1, 0, 0x41] ∧
      ¬ ∃ frames : List Bytes, received 0 h <+: frames.flatMap frame ∧
        ∀ data ∈ frames, data ∈ submittedTo 0 h := by
  have hexec : (machine.exec {}
      [.accept (some 7), .send (some [0x41]), .start, .load, .write (some 2), .load, .write none,
        .load, .write (some 1)]).map (fun r => (received 0 r.2, submittedTo 0 r.2)) =
      some ([1, 0, 0x41], [[0x41]]) := by
    decide
  obtain ⟨h, s, hrun, hobs⟩ := Machine.Run.of_exec_map hexec
  obtain ⟨hreceived, hsubmitted⟩ := by simpa only [Prod.mk.injEq] using hobs
  refine ⟨h, s, hrun, hreceived, ?_⟩
  rintro ⟨frames, hprefix, hmem⟩
  rw [hreceived] at hprefix
  rw [hsubmitted] at hmem
  cases frames with
  | nil => simp at hprefix
  | cons data rest =>
      obtain rfl : data = [0x41] := by simpa using hmem data List.mem_cons_self
      have hframe : frame [0x41] = [1, 0, 0, 0, 0x41] := by decide
      rw [List.flatMap_cons, hframe] at hprefix
      simp at hprefix

/-- **A frame for the next client**: it was submitted for client 0, which is
gone when its closure runs. -/
theorem frame_for_next_client :
    ∃ h s, machine.Run Machine.always {} h s ∧ received 1 h = frame [0x41] ∧
      submittedTo 1 h = [] := by
  have hexec : (machine.exec {}
      [.accept (some 7), .send (some [0x41]), .cancel, .forget, .accept (some 7), .start, .load,
        .write (some 4), .load, .write (some 1)]).map
        (fun r => (received 1 r.2, submittedTo 1 r.2)) =
      some (frame [0x41], []) := by
    decide
  obtain ⟨h, s, hrun, hobs⟩ := Machine.Run.of_exec_map hexec
  obtain ⟨hreceived, hsubmitted⟩ := by simpa only [Prod.mk.injEq] using hobs
  exact ⟨h, s, hrun, hreceived, hsubmitted⟩

end SocketWriter
