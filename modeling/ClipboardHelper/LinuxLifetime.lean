import ClipboardHelper.FrameTransport
import ClipboardHelper.LinuxDispatch
import ClipboardHelper.TextFrames

/-!
# The Linux helper from start to end

The main thread starts the socket server and the parent watchdog and enters
the event loop; a quit is posted to it when the client goes away, when the
parent asks for it or is gone, and at a signal.  Behind the loop it stops the
watchdog, stops the server, detaches the dispatcher and lets its objects go.
The worker of the server accepts one client and serves it.  Frames are sent
under `client_mutex_` by the worker, by callbacks on the main thread, and by
detached threads that have copied a callback.

A step is what a thread does between two points where others get in.  What the
handlers call of the clipboard managers does not wait, except `WaitForBytes`,
which waits for ten seconds at most.
-/

namespace LinuxLifetime

open Library FrameTransport

/-! ## State -/

/-- How `SocketServer::Start` goes. -/
inductive Outcome
  | socketFails
  | pathTooLong
  | bindFails
  | listenFails
  | listens
deriving DecidableEq, Repr

/-- What the worker finds in the client's socket. -/
inductive Incoming
  | frame (payload : Bytes)
  | oversized
deriving DecidableEq, Repr

/-- The client, from the time it connects: what it has sent and the worker
has not read, how much it can be sent before `send` waits, whether it has
gone, and whether `Stop` has shut its socket down. -/
structure Client where
  inbox : List Incoming := []
  room : Nat := 0
  gone : Bool := false
  shut : Bool := false
deriving DecidableEq, Repr

inductive Thread
  | main
  | worker
  | detached
deriving DecidableEq, Repr

/-- Who has called `WriteFrame`; `awaits` if the main thread then waits for
the data it asks for. -/
inductive Owner
  | main (awaits : Bool)
  | greeting
  | reply
  | detached
deriving DecidableEq, Repr

def Owner.thread : Owner → Thread
  | .main _ => .main
  | .greeting | .reply => .worker
  | .detached => .detached

/-- A `WriteFrame` under way, with the bytes it has left. -/
structure Writer where
  owner : Owner
  left : Nat
deriving DecidableEq, Repr

/-- Where `main` is. -/
inductive Main
  | starting
  | failed
  | watching
  | running
  | sending (frame : Bytes) (awaits : Bool)
  | writing
  | awaiting
  /-- Inside the `WriteAll` of a paste. -/
  | pasting
  | quitting
  | joiningWatchdog
  | stopping
  | closing
  | shutting
  | joiningWorker
  | detaching
  | destroying
  | exiting
  | returned
deriving DecidableEq, Repr

/-- Where `WorkerLoop` is. -/
inductive Worker
  | unborn
  | loading
  | testing
  | accepting
  | refused
  | accepted
  | greeting
  | serving
  | reading
  | handling (frame : Bytes)
  | replying (reply : Bytes)
  | writing
  | withdrawing
  | closing
  | firing
  | returned
deriving DecidableEq, Repr

/-- Where `PollLoop` is. -/
inductive Watchdog
  | unborn
  | polling
  | returned
deriving DecidableEq, Repr

structure Helper where
  main : Main := .starting
  worker : Worker := .unborn
  watchdog : Watchdog := .unborn
  /-- `stop_` of the watchdog. -/
  watchdogStop : Bool := false
  parent : Bool := true
  client : Option Client := none
  /-- `listen_fd_ >= 0` -/
  listening : Bool := false
  /-- `client_fd_ >= 0` -/
  clientFd : Bool := false
  /-- The holder of `client_mutex_`, while it writes. -/
  lock : Option Writer := none
  /-- Frames of the detached threads that have copied a callback. -/
  callers : List Bytes := []
  /-- `stop_` of the server. -/
  stop : Bool := false
  /-- A quit is posted to the event loop. -/
  quit : Bool := false
  /-- There is something in the pipe of the signal handler. -/
  signalled : Bool := false
deriving DecidableEq, Repr

inductive Descriptor
  | listener
  | client
deriving DecidableEq, Repr

inductive Reason
  | signal
  | shutdown
  | disconnected
  | parentGone
deriving DecidableEq, Repr

inductive Obs
  | opened (d : Descriptor)
  | closed (d : Descriptor)
  /-- A quit has been posted. -/
  | asked (reason : Reason)
  | handled (frame : Bytes)
  /-- A callback has run on a destroyed dispatcher. -/
  | dangling
deriving DecidableEq, Repr

/-! ## Writing -/

/-- The thread goes on when its `WriteFrame` has returned. -/
def Helper.wrote (s : Helper) (ok : Bool) : Owner → Helper
  | .main awaits => { s with main := if awaits then .awaiting else .running }
  | .greeting => { s with worker := .serving }
  | .reply => { s with worker := if ok then .serving else .withdrawing }
  | .detached => s

@[simp] theorem wrote_quit (s : Helper) (ok : Bool) (owner : Owner) :
    (s.wrote ok owner).quit = s.quit := by cases owner <;> rfl

@[simp] theorem wrote_signalled (s : Helper) (ok : Bool) (owner : Owner) :
    (s.wrote ok owner).signalled = s.signalled := by cases owner <;> rfl

@[simp] theorem wrote_client (s : Helper) (ok : Bool) (owner : Owner) :
    (s.wrote ok owner).client = s.client := by cases owner <;> rfl

@[simp] theorem wrote_watchdog (s : Helper) (ok : Bool) (owner : Owner) :
    (s.wrote ok owner).watchdog = s.watchdog := by cases owner <;> rfl

@[simp] theorem wrote_parent (s : Helper) (ok : Bool) (owner : Owner) :
    (s.wrote ok owner).parent = s.parent := by cases owner <;> rfl

@[simp] theorem wrote_callers (s : Helper) (ok : Bool) (owner : Owner) :
    (s.wrote ok owner).callers = s.callers := by cases owner <;> rfl

@[simp] theorem wrote_listening (s : Helper) (ok : Bool) (owner : Owner) :
    (s.wrote ok owner).listening = s.listening := by cases owner <;> rfl

/-- The thread waits for `send`. -/
def Helper.writing (s : Helper) : Thread → Helper
  | .main => { s with main := .writing }
  | .worker => { s with worker := .writing }
  | .detached => s

@[simp] theorem writing_quit (s : Helper) (thread : Thread) :
    (s.writing thread).quit = s.quit := by cases thread <;> rfl

@[simp] theorem writing_signalled (s : Helper) (thread : Thread) :
    (s.writing thread).signalled = s.signalled := by cases thread <;> rfl

@[simp] theorem writing_client (s : Helper) (thread : Thread) :
    (s.writing thread).client = s.client := by cases thread <;> rfl

@[simp] theorem writing_watchdog (s : Helper) (thread : Thread) :
    (s.writing thread).watchdog = s.watchdog := by cases thread <;> rfl

@[simp] theorem writing_parent (s : Helper) (thread : Thread) :
    (s.writing thread).parent = s.parent := by cases thread <;> rfl

@[simp] theorem writing_callers (s : Helper) (thread : Thread) :
    (s.writing thread).callers = s.callers := by cases thread <;> rfl

@[simp] theorem writing_listening (s : Helper) (thread : Thread) :
    (s.writing thread).listening = s.listening := by cases thread <;> rfl

/-- `WriteFrame` under the mutex, if there is a client. -/
def Helper.write (s : Helper) (owner : Owner) (payload : Bytes) : Helper :=
  if s.clientFd then
    if payload.length > kMaxFrameSize.toNat then s.wrote false owner
    else { s.writing owner.thread with lock := some ⟨owner, payload.length + 4⟩ }
  else s.wrote true owner

/-! ## Steps -/

inductive Action
  | start (outcome : Outcome)
  /-- `ParentWatchdog::Start`, if there is a `--parent-pid`. -/
  | watch (watched : Bool)
  /-- The notifier of the signal pipe. -/
  | notifier
  | leaveLoop
  | stopWatchdog
  | joinWatchdog
  | stop
  | closeListener
  | shutdownClient
  | joinWorker
  | detach
  | destroy
  | exit
  /-- `SendFrame` of a callback on the main thread gets the mutex. -/
  | sendFrame
  /-- `WaitForBytes` has data, or has waited long enough. -/
  | wake
  | load
  | test
  | accept
  | look
  | publish
  | greet
  | serve
  | read
  | handle (text : Bytes) (clock : UInt64)
  | reply
  | withdraw
  | close
  | disconnect
  | poll
  /-- One `send` of the writer. -/
  | send (n : Nat)
  /-- A detached thread calls the callback it has copied. -/
  | call (i : Nat)
  | callback (frame : Bytes) (awaits : Bool)
  | paste
  | pasted
  | copied (frame : Bytes)
  | connect (room : Nat)
  | arrives (incoming : Incoming)
  | receives (n : Nat)
  | hangsUp
  | acceptFails
  | readFails
  | parentDies
  | signal
deriving DecidableEq, Repr

/-- What the threads of the helper do themselves; copies and pastes by other
applications, the client, the parent and failures of the system come from
outside. -/
def Action.own : Action → Bool
  | .callback .. | .paste | .pasted | .copied _ | .connect _ | .arrives _ | .receives _
  | .hangsUp | .acceptFails | .readFails | .parentDies | .signal => false
  | _ => true

/-- The callbacks are set, from `Attach` to `Detach`. -/
def Main.attached : Main → Bool
  | .failed | .destroying | .exiting | .returned => false
  | _ => true

/-- The process is over, and its threads with it. -/
def Main.over : Main → Bool
  | .failed | .returned => true
  | _ => false

def mainStep (s : Helper) : Action → Option (Helper × List Obs)
  | .start outcome =>
    if s.main = .starting then
      match outcome with
      | .socketFails => some ({ s with main := .failed }, [])
      | .pathTooLong | .bindFails | .listenFails =>
        some ({ s with main := .failed }, [.opened .listener, .closed .listener])
      | .listens =>
        some ({ s with main := .watching, worker := .loading, listening := true },
          [.opened .listener])
    else none
  | .watch watched =>
    if s.main = .watching then
      if watched then
        if s.parent then some ({ s with main := .running, watchdog := .polling }, [])
        else some ({ s with main := .running, quit := true }, [.asked .parentGone])
      else some ({ s with main := .running }, [])
    else none
  | .notifier =>
    if s.main = .running ∧ s.signalled = true then
      some ({ s with signalled := false, quit := true }, [.asked .signal])
    else none
  | .leaveLoop =>
    if s.main = .running ∧ s.quit = true then some ({ s with main := .quitting }, []) else none
  | .stopWatchdog =>
    if s.main = .quitting then some ({ s with main := .joiningWatchdog, watchdogStop := true }, [])
    else none
  | .joinWatchdog =>
    if s.main = .joiningWatchdog ∧ s.watchdog ≠ .polling then
      some ({ s with main := .stopping }, [])
    else none
  | .stop =>
    if s.main = .stopping then some ({ s with main := .closing, stop := true }, []) else none
  | .closeListener =>
    if s.main = .closing then
      some ({ s with main := .shutting, listening := false }, [.closed .listener])
    else none
  | .shutdownClient =>
    if s.main = .shutting ∧ s.lock = none then
      some ({ s with
        main := .joiningWorker
        client := s.client.map fun c => { c with shut := c.shut || s.clientFd } }, [])
    else none
  | .joinWorker =>
    if s.main = .joiningWorker ∧ s.worker = .returned then
      some ({ s with main := .detaching }, [])
    else none
  | .detach => if s.main = .detaching then some ({ s with main := .destroying }, []) else none
  | .destroy => if s.main = .destroying then some ({ s with main := .exiting }, []) else none
  | .exit => if s.main = .exiting then some ({ s with main := .returned }, []) else none
  | .sendFrame =>
    match s.main with
    | .sending frame awaits =>
      if s.lock = none then some (s.write (.main awaits) frame, []) else none
    | _ => none
  | .wake => if s.main = .awaiting then some ({ s with main := .running }, []) else none
  | .callback frame awaits =>
    if s.main = .running then some ({ s with main := .sending frame awaits }, []) else none
  | .paste => if s.main = .running then some ({ s with main := .pasting }, []) else none
  | .pasted => if s.main = .pasting then some ({ s with main := .running }, []) else none
  | _ => none

/-- **`WorkerLoop`**, with `onConnect` what `on_connect_` returns. -/
def workerStep (onConnect : Bytes) (s : Helper) : Action → Option (Helper × List Obs)
  | .load =>
    if s.worker = .loading then
      some ({ s with worker := if s.listening then .testing else .firing }, [])
    else none
  | .test =>
    if s.worker = .testing then
      some ({ s with worker := if s.stop then .firing else .accepting }, [])
    else none
  | .accept =>
    if s.worker = .accepting then
      if s.listening then
        if s.client = none then none
        else some ({ s with worker := .accepted }, [.opened .client])
      else some ({ s with worker := .refused }, [])
    else none
  | .look =>
    if s.worker = .refused then
      some ({ s with worker := if s.stop then .returned else .firing }, [])
    else none
  | .publish =>
    if s.worker = .accepted ∧ s.lock = none then
      some ({ s with worker := .greeting, clientFd := true }, [])
    else none
  | .greet =>
    if s.worker = .greeting ∧ s.lock = none then
      if onConnect = [] then some ({ s with worker := .serving }, [])
      else some (s.write .greeting onConnect, [])
    else none
  | .serve =>
    if s.worker = .serving then
      some ({ s with worker := if s.stop then .withdrawing else .reading }, [])
    else none
  | .read =>
    match s.worker, s.client with
    | .reading, some c =>
      match c.inbox with
      | .frame payload :: rest =>
        some ({ s with worker := .handling payload, client := some { c with inbox := rest } }, [])
      | .oversized :: _ => some ({ s with worker := .withdrawing }, [])
      | [] =>
        if c.gone = true ∨ c.shut = true then some ({ s with worker := .withdrawing }, [])
        else none
    | _, _ => none
  | .handle text clock =>
    match s.worker with
    | .handling frame =>
      match LinuxDispatch.handle frame clock with
      | .reply reply => some ({ s with worker := .replying reply }, [.handled frame])
      | .getClipboard =>
        some ({ s with worker := .replying (LinuxCodec.encodeClipboardContentText text clock) },
          [.handled frame])
      | .call _ => some ({ s with worker := .serving }, [.handled frame])
      | .shutdown =>
        some ({ s with worker := .serving, quit := true }, [.handled frame, .asked .shutdown])
    | _ => none
  | .reply =>
    match s.worker with
    | .replying reply =>
      if s.lock = none then
        if reply = [] then some ({ s with worker := .serving }, [])
        else some (s.write .reply reply, [])
      else none
    | _ => none
  | .withdraw =>
    if s.worker = .withdrawing ∧ s.lock = none then
      some ({ s with worker := .closing, clientFd := false }, [])
    else none
  | .close =>
    if s.worker = .closing then some ({ s with worker := .firing }, [.closed .client]) else none
  | .disconnect =>
    if s.worker = .firing then
      some ({ s with worker := .returned, quit := true }, [.asked .disconnected])
    else none
  | .acceptFails =>
    if s.worker = .accepting then some ({ s with worker := .refused }, []) else none
  | .readFails =>
    if s.worker = .reading then some ({ s with worker := .withdrawing }, []) else none
  | _ => none

/-- `PollLoop`, behind its sleep. -/
def poll (s : Helper) : Option (Helper × List Obs) :=
  if s.watchdog = .polling then
    if s.watchdogStop then some ({ s with watchdog := .returned }, [])
    else if s.parent then none
    else some ({ s with watchdog := .returned, quit := true }, [.asked .parentGone])
  else none

/-- One `send` of the writer, which waits if there is no room. -/
def send (s : Helper) (n : Nat) : Option (Helper × List Obs) :=
  match s.lock, s.client with
  | some w, some c =>
    if c.gone = true ∨ c.shut = true then
      some ({ s with lock := none }.wrote false w.owner, [])
    else if c.room = 0 then none
    else
      let count := min (n + 1) (min w.left c.room)
      let client := some { c with room := c.room - count }
      if count < w.left then
        some ({ s with client := client, lock := some { w with left := w.left - count } }, [])
      else some ({ s with client := client, lock := none }.wrote true w.owner, [])
  | _, _ => none

/-- A detached thread calls the callback. -/
def call (s : Helper) (i : Nat) : Option (Helper × List Obs) :=
  match s.callers[i]? with
  | none => none
  | some frame =>
    if s.main = .exiting then some ({ s with callers := s.callers.eraseIdx i }, [.dangling])
    else if s.lock = none then
      some ({ s with callers := s.callers.eraseIdx i }.write .detached frame, [])
    else none

/-- The client, as long as it has not gone. -/
def clientStep (s : Helper) (f : Client → Client) : Option (Helper × List Obs) :=
  match s.client with
  | some c => if c.gone = true then none else some ({ s with client := some (f c) }, [])
  | none => none

/-- **The helper.** -/
def machine (onConnect : Bytes) : Machine Helper Action Obs where
  step s a :=
    if s.main.over then none
    else match a with
    | .poll => poll s
    | .send n => send s n
    | .call i => call s i
    | .copied frame =>
      if s.main.attached then some ({ s with callers := s.callers ++ [frame] }, []) else none
    | .connect room =>
      if s.listening = true ∧ s.client = none then
        some ({ s with client := some { room := room } }, [])
      else none
    | .arrives incoming => clientStep s fun c => { c with inbox := c.inbox ++ [incoming] }
    | .receives n => clientStep s fun c => { c with room := c.room + n }
    | .hangsUp => clientStep s fun c => { c with gone := true }
    | .parentDies => some ({ s with parent := false }, [])
    | .signal => some ({ s with signalled := true }, [])
    | .load | .test | .accept | .look | .publish | .greet | .serve | .read | .handle ..
    | .reply | .withdraw | .close | .disconnect | .acceptFails | .readFails =>
      workerStep onConnect s a
    | _ => mainStep s a

/-- A thread is about to call `WriteFrame` when it gets the mutex. -/
inductive Calls (onConnect : Bytes) (s : Helper) : Action → Owner → Bytes → Helper → Prop
  | callback {frame : Bytes} {awaits : Bool} (sending : s.main = .sending frame awaits) :
      Calls onConnect s .sendFrame (.main awaits) frame s
  | greeting (greeting : s.worker = .greeting) :
      Calls onConnect s .greet .greeting onConnect s
  | reply {reply : Bytes} (replying : s.worker = .replying reply) :
      Calls onConnect s .reply .reply reply s
  | detached {i : Nat} {frame : Bytes} (copied : s.callers[i]? = some frame)
      (alive : s.main ≠ .exiting) :
      Calls onConnect s (.call i) .detached frame { s with callers := s.callers.eraseIdx i }

/-- One rule for each way a step goes on. -/
inductive Step (onConnect : Bytes) (s : Helper) : Action → List Obs → Helper → Prop
  | failed {outcome : Outcome} {os : List Obs} (starting : s.main = .starting)
      (listener : os = [] ∨ os = [.opened .listener, .closed .listener]) :
      Step onConnect s (.start outcome) os { s with main := .failed }
  | listens (starting : s.main = .starting) : Step onConnect s (.start .listens)
      [.opened .listener] { s with main := .watching, worker := .loading, listening := true }
  | watches (watching : s.main = .watching) (parent : s.parent = true) :
      Step onConnect s (.watch true) [] { s with main := .running, watchdog := .polling }
  | orphaned (watching : s.main = .watching) (parent : s.parent = false) :
      Step onConnect s (.watch true) [.asked .parentGone]
        { s with main := .running, quit := true }
  | unwatched (watching : s.main = .watching) :
      Step onConnect s (.watch false) [] { s with main := .running }
  | notified (running : s.main = .running) (signalled : s.signalled = true) :
      Step onConnect s .notifier [.asked .signal] { s with signalled := false, quit := true }
  | left (running : s.main = .running) (quit : s.quit = true) :
      Step onConnect s .leaveLoop [] { s with main := .quitting }
  | watchdogStops (quitting : s.main = .quitting) : Step onConnect s .stopWatchdog []
      { s with main := .joiningWatchdog, watchdogStop := true }
  | watchdogJoined (joining : s.main = .joiningWatchdog) (returned : s.watchdog ≠ .polling) :
      Step onConnect s .joinWatchdog [] { s with main := .stopping }
  | stops (stopping : s.main = .stopping) : Step onConnect s .stop []
      { s with main := .closing, stop := true }
  | listenerCloses (closing : s.main = .closing) : Step onConnect s .closeListener
      [.closed .listener] { s with main := .shutting, listening := false }
  | shuts (shutting : s.main = .shutting) (free : s.lock = none) :
      Step onConnect s .shutdownClient [] { s with
        main := .joiningWorker
        client := s.client.map fun c => { c with shut := c.shut || s.clientFd } }
  | workerJoined (joining : s.main = .joiningWorker) (returned : s.worker = .returned) :
      Step onConnect s .joinWorker [] { s with main := .detaching }
  | detaches (detaching : s.main = .detaching) : Step onConnect s .detach []
      { s with main := .destroying }
  | destroys (destroying : s.main = .destroying) : Step onConnect s .destroy []
      { s with main := .exiting }
  | exits (exiting : s.main = .exiting) : Step onConnect s .exit [] { s with main := .returned }
  | wakes (awaiting : s.main = .awaiting) : Step onConnect s .wake [] { s with main := .running }
  | calledBack {frame : Bytes} {awaits : Bool} (running : s.main = .running) :
      Step onConnect s (.callback frame awaits) [] { s with main := .sending frame awaits }
  | pastes (running : s.main = .running) : Step onConnect s .paste []
      { s with main := .pasting }
  | pasted (pasting : s.main = .pasting) : Step onConnect s .pasted []
      { s with main := .running }
  | loads (loading : s.worker = .loading) : Step onConnect s .load []
      { s with worker := if s.listening then .testing else .firing }
  | tests (testing : s.worker = .testing) : Step onConnect s .test []
      { s with worker := if s.stop then .firing else .accepting }
  | accepts (accepting : s.worker = .accepting) (listening : s.listening = true)
      (client : s.client ≠ none) : Step onConnect s .accept [.opened .client]
        { s with worker := .accepted }
  | refused {a : Action} (accepting : s.worker = .accepting) : Step onConnect s a []
      { s with worker := .refused }
  | looks (refused : s.worker = .refused) : Step onConnect s .look []
      { s with worker := if s.stop then .returned else .firing }
  | publishes (accepted : s.worker = .accepted) (free : s.lock = none) :
      Step onConnect s .publish [] { s with worker := .greeting, clientFd := true }
  | silent (greeting : s.worker = .greeting) (free : s.lock = none) : Step onConnect s .greet []
      { s with worker := .serving }
  | serves (serving : s.worker = .serving) : Step onConnect s .serve []
      { s with worker := if s.stop then .withdrawing else .reading }
  | reads {c : Client} {payload : Bytes} {rest : List Incoming} (reading : s.worker = .reading)
      (client : s.client = some c) (inbox : c.inbox = .frame payload :: rest) :
      Step onConnect s .read []
        { s with worker := .handling payload, client := some { c with inbox := rest } }
  | ended {a : Action} (reading : s.worker = .reading) : Step onConnect s a []
      { s with worker := .withdrawing }
  | answers {frame text reply : Bytes} {clock : UInt64} (handling : s.worker = .handling frame)
      (other : LinuxDispatch.handle frame clock ≠ .shutdown) :
      Step onConnect s (.handle text clock) [.handled frame] { s with worker := .replying reply }
  | performs {frame text : Bytes} {clock : UInt64} (handling : s.worker = .handling frame)
      (other : LinuxDispatch.handle frame clock ≠ .shutdown) :
      Step onConnect s (.handle text clock) [.handled frame] { s with worker := .serving }
  | shutsDown {frame text : Bytes} {clock : UInt64} (handling : s.worker = .handling frame) :
      Step onConnect s (.handle text clock) [.handled frame, .asked .shutdown]
        { s with worker := .serving, quit := true }
  | unanswered {reply : Bytes} (replying : s.worker = .replying reply) (free : s.lock = none) :
      Step onConnect s .reply [] { s with worker := .serving }
  | withdraws (withdrawing : s.worker = .withdrawing) (free : s.lock = none) :
      Step onConnect s .withdraw [] { s with worker := .closing, clientFd := false }
  | clientCloses (closing : s.worker = .closing) : Step onConnect s .close [.closed .client]
      { s with worker := .firing }
  | disconnects (firing : s.worker = .firing) : Step onConnect s .disconnect
      [.asked .disconnected] { s with worker := .returned, quit := true }
  | watchdogReturns (polling : s.watchdog = .polling) (stop : s.watchdogStop = true) :
      Step onConnect s .poll [] { s with watchdog := .returned }
  | fires (polling : s.watchdog = .polling) (parent : s.parent = false) :
      Step onConnect s .poll [.asked .parentGone]
        { s with watchdog := .returned, quit := true }
  | sendFails {n : Nat} {w : Writer} (lock : s.lock = some w) :
      Step onConnect s (.send n) [] ({ s with lock := none }.wrote false w.owner)
  | sends {n count : Nat} {w : Writer} {c : Client} (lock : s.lock = some w)
      (client : s.client = some c) (moves : 0 < count) (less : count < w.left) :
      Step onConnect s (.send n) [] { s with
        client := some { c with room := c.room - count }
        lock := some { w with left := w.left - count } }
  | sendsAll {n room : Nat} {w : Writer} {c : Client} (lock : s.lock = some w)
      (client : s.client = some c) : Step onConnect s (.send n) []
        ({ s with client := some { c with room := room }, lock := none }.wrote true w.owner)
  | dangles {i : Nat} (exiting : s.main = .exiting) (copied : i < s.callers.length) :
      Step onConnect s (.call i) [.dangling] { s with callers := s.callers.eraseIdx i }
  | skips {a : Action} {owner : Owner} {frame : Bytes} {t : Helper} {ok : Bool}
      (calls : Calls onConnect s a owner frame t) (free : s.lock = none) :
      Step onConnect s a [] (t.wrote ok owner)
  | begins {a : Action} {owner : Owner} {frame : Bytes} {t : Helper}
      (calls : Calls onConnect s a owner frame t) (free : s.lock = none)
      (client : s.clientFd = true) (fits : frame.length ≤ kMaxFrameSize.toNat) :
      Step onConnect s a []
        { t.writing owner.thread with lock := some ⟨owner, frame.length + 4⟩ }
  | copies {frame : Bytes} (attached : s.main.attached = true) : Step onConnect s (.copied frame)
      [] { s with callers := s.callers ++ [frame] }
  | connects {room : Nat} (client : s.client = none) : Step onConnect s (.connect room) []
      { s with client := some { room := room } }
  | outside {a : Action} {c c' : Client} (outside : a.own = false) (client : s.client = some c)
      (shut : c'.shut = c.shut) (gone : c.gone = true → c'.gone = true)
      (inbox : ∀ incoming ∈ c.inbox, incoming ∈ c'.inbox) :
      Step onConnect s a [] { s with client := some c' }
  | parentDies : Step onConnect s .parentDies [] { s with parent := false }
  | signals : Step onConnect s .signal [] { s with signalled := true }

variable {onConnect : Bytes} {s s' : Helper} {a : Action} {h os : List Obs}

/-- `WriteFrame` returns at once, or waits for `send`. -/
theorem step_write {owner : Owner} {frame : Bytes} {t : Helper}
    (hcalls : Calls onConnect s a owner frame t) (hfree : s.lock = none)
    (hclient : t.clientFd = s.clientFd) : Step onConnect s a [] (t.write owner frame) := by
  rw [Helper.write]
  split
  · rename_i hfd
    split
    · exact .skips hcalls hfree
    · rename_i hfits
      exact .begins hcalls hfree (hclient ▸ hfd) (Nat.not_lt.mp hfits)
  · exact .skips hcalls hfree

theorem mainStep_cases (hstep : mainStep s a = some (s', os)) : Step onConnect s a os s' := by
  cases a with
  | start outcome =>
      obtain ⟨hstarting, hstart⟩ := Option.ite_none_right_eq_some.mp hstep
      cases outcome with
      | socketFails =>
          cases hstart
          exact .failed hstarting (.inl rfl)
      | pathTooLong | bindFails | listenFails =>
          cases hstart
          exact .failed hstarting (.inr rfl)
      | listens =>
          cases hstart
          exact .listens hstarting
  | watch watched =>
      obtain ⟨hwatching, hwatch⟩ := Option.ite_none_right_eq_some.mp hstep
      cases watched with
      | false =>
          cases hwatch
          exact .unwatched hwatching
      | true =>
          simp only [if_true] at hwatch
          split at hwatch
          · rename_i hparent
            cases hwatch
            exact .watches hwatching hparent
          · rename_i hparent
            cases hwatch
            exact .orphaned hwatching (Bool.eq_false_iff.mpr hparent)
  | notifier =>
      obtain ⟨⟨hrunning, hsignalled⟩, ⟨⟩⟩ := Option.ite_none_right_eq_some.mp hstep
      exact .notified hrunning hsignalled
  | leaveLoop =>
      obtain ⟨⟨hrunning, hquit⟩, ⟨⟩⟩ := Option.ite_none_right_eq_some.mp hstep
      exact .left hrunning hquit
  | stopWatchdog =>
      obtain ⟨hquitting, ⟨⟩⟩ := Option.ite_none_right_eq_some.mp hstep
      exact .watchdogStops hquitting
  | joinWatchdog =>
      obtain ⟨⟨hjoining, hreturned⟩, ⟨⟩⟩ := Option.ite_none_right_eq_some.mp hstep
      exact .watchdogJoined hjoining hreturned
  | stop =>
      obtain ⟨hstopping, ⟨⟩⟩ := Option.ite_none_right_eq_some.mp hstep
      exact .stops hstopping
  | closeListener =>
      obtain ⟨hclosing, ⟨⟩⟩ := Option.ite_none_right_eq_some.mp hstep
      exact .listenerCloses hclosing
  | shutdownClient =>
      obtain ⟨⟨hshutting, hfree⟩, ⟨⟩⟩ := Option.ite_none_right_eq_some.mp hstep
      exact .shuts hshutting hfree
  | joinWorker =>
      obtain ⟨⟨hjoining, hreturned⟩, ⟨⟩⟩ := Option.ite_none_right_eq_some.mp hstep
      exact .workerJoined hjoining hreturned
  | detach =>
      obtain ⟨hdetaching, ⟨⟩⟩ := Option.ite_none_right_eq_some.mp hstep
      exact .detaches hdetaching
  | destroy =>
      obtain ⟨hdestroying, ⟨⟩⟩ := Option.ite_none_right_eq_some.mp hstep
      exact .destroys hdestroying
  | exit =>
      obtain ⟨hexiting, ⟨⟩⟩ := Option.ite_none_right_eq_some.mp hstep
      exact .exits hexiting
  | sendFrame =>
      simp only [mainStep] at hstep
      split at hstep
      · rename_i frame awaits hsending
        obtain ⟨hfree, ⟨⟩⟩ := Option.ite_none_right_eq_some.mp hstep
        exact step_write (.callback hsending) hfree rfl
      · cases hstep
  | wake =>
      obtain ⟨hawaiting, ⟨⟩⟩ := Option.ite_none_right_eq_some.mp hstep
      exact .wakes hawaiting
  | callback frame awaits =>
      obtain ⟨hrunning, ⟨⟩⟩ := Option.ite_none_right_eq_some.mp hstep
      exact .calledBack hrunning
  | paste =>
      obtain ⟨hrunning, ⟨⟩⟩ := Option.ite_none_right_eq_some.mp hstep
      exact .pastes hrunning
  | pasted =>
      obtain ⟨hpasting, ⟨⟩⟩ := Option.ite_none_right_eq_some.mp hstep
      exact .pasted hpasting
  | _ => cases hstep

theorem workerStep_cases (hstep : workerStep onConnect s a = some (s', os)) :
    Step onConnect s a os s' := by
  cases a with
  | load =>
      obtain ⟨hloading, ⟨⟩⟩ := Option.ite_none_right_eq_some.mp hstep
      exact .loads hloading
  | test =>
      obtain ⟨htesting, ⟨⟩⟩ := Option.ite_none_right_eq_some.mp hstep
      exact .tests htesting
  | accept =>
      obtain ⟨haccepting, haccept⟩ := Option.ite_none_right_eq_some.mp hstep
      split at haccept
      · rename_i hlistening
        obtain ⟨hclient, ⟨⟩⟩ := Option.ite_none_left_eq_some.mp haccept
        exact .accepts haccepting hlistening hclient
      · cases haccept
        exact .refused haccepting
  | look =>
      obtain ⟨hrefused, ⟨⟩⟩ := Option.ite_none_right_eq_some.mp hstep
      exact .looks hrefused
  | publish =>
      obtain ⟨⟨haccepted, hfree⟩, ⟨⟩⟩ := Option.ite_none_right_eq_some.mp hstep
      exact .publishes haccepted hfree
  | greet =>
      obtain ⟨⟨hgreeting, hfree⟩, hgreet⟩ := Option.ite_none_right_eq_some.mp hstep
      split at hgreet
      · cases hgreet
        exact .silent hgreeting hfree
      · cases hgreet
        exact step_write (.greeting hgreeting) hfree rfl
  | serve =>
      obtain ⟨hserving, ⟨⟩⟩ := Option.ite_none_right_eq_some.mp hstep
      exact .serves hserving
  | read =>
      simp only [workerStep] at hstep
      split at hstep
      · rename_i c hreading hclient
        split at hstep
        · rename_i payload rest hinbox
          cases hstep
          exact .reads hreading hclient hinbox
        · cases hstep
          exact .ended hreading
        · obtain ⟨-, ⟨⟩⟩ := Option.ite_none_right_eq_some.mp hstep
          exact .ended hreading
      · cases hstep
  | handle text clock =>
      simp only [workerStep] at hstep
      split at hstep
      · rename_i frame hhandling
        split at hstep
        · rename_i hother
          cases hstep
          exact .answers hhandling (by rw [hother]; nofun)
        · rename_i hother
          cases hstep
          exact .answers hhandling (by rw [hother]; nofun)
        · rename_i hother
          cases hstep
          exact .performs hhandling (by rw [hother]; nofun)
        · cases hstep
          exact .shutsDown hhandling
      · cases hstep
  | reply =>
      simp only [workerStep] at hstep
      split at hstep
      · rename_i reply hreplying
        obtain ⟨hfree, hreply⟩ := Option.ite_none_right_eq_some.mp hstep
        split at hreply
        · cases hreply
          exact .unanswered hreplying hfree
        · cases hreply
          exact step_write (.reply hreplying) hfree rfl
      · cases hstep
  | withdraw =>
      obtain ⟨⟨hwithdrawing, hfree⟩, ⟨⟩⟩ := Option.ite_none_right_eq_some.mp hstep
      exact .withdraws hwithdrawing hfree
  | close =>
      obtain ⟨hclosing, ⟨⟩⟩ := Option.ite_none_right_eq_some.mp hstep
      exact .clientCloses hclosing
  | disconnect =>
      obtain ⟨hfiring, ⟨⟩⟩ := Option.ite_none_right_eq_some.mp hstep
      exact .disconnects hfiring
  | acceptFails =>
      obtain ⟨haccepting, ⟨⟩⟩ := Option.ite_none_right_eq_some.mp hstep
      exact .refused haccepting
  | readFails =>
      obtain ⟨hreading, ⟨⟩⟩ := Option.ite_none_right_eq_some.mp hstep
      exact .ended hreading
  | _ => cases hstep

theorem poll_cases (hstep : poll s = some (s', os)) : Step onConnect s .poll os s' := by
  obtain ⟨hpolling, hpoll⟩ := Option.ite_none_right_eq_some.mp hstep
  split at hpoll
  · rename_i hstop
    cases hpoll
    exact .watchdogReturns hpolling hstop
  · obtain ⟨hparent, ⟨⟩⟩ := Option.ite_none_left_eq_some.mp hpoll
    exact .fires hpolling (Bool.eq_false_iff.mpr hparent)

theorem send_cases {n : Nat} (hstep : send s n = some (s', os)) :
    Step onConnect s (.send n) os s' := by
  simp only [send] at hstep
  split at hstep
  · rename_i w c hlock hclient
    split at hstep
    · cases hstep
      exact .sendFails hlock
    · obtain ⟨hroom, hsend⟩ := Option.ite_none_left_eq_some.mp hstep
      split at hsend
      · rename_i hless
        cases hsend
        exact .sends hlock hclient (by omega) hless
      · cases hsend
        exact .sendsAll hlock hclient
  · cases hstep

theorem call_cases {i : Nat} (hstep : call s i = some (s', os)) :
    Step onConnect s (.call i) os s' := by
  simp only [call] at hstep
  split at hstep
  · cases hstep
  · rename_i frame hcopied
    split at hstep
    · rename_i hexiting
      cases hstep
      exact .dangles hexiting (List.getElem?_eq_some_iff.mp hcopied).1
    · rename_i halive
      obtain ⟨hfree, ⟨⟩⟩ := Option.ite_none_right_eq_some.mp hstep
      exact step_write (.detached hcopied halive) hfree rfl

theorem clientStep_cases {f : Client → Client} (hown : a.own = false)
    (hshut : ∀ c, (f c).shut = c.shut) (hgone : ∀ c, c.gone = true → (f c).gone = true)
    (hinbox : ∀ c, ∀ incoming ∈ c.inbox, incoming ∈ (f c).inbox)
    (hstep : clientStep s f = some (s', os)) : Step onConnect s a os s' := by
  simp only [clientStep] at hstep
  split at hstep
  · rename_i c hclient
    obtain ⟨-, ⟨⟩⟩ := Option.ite_none_left_eq_some.mp hstep
    exact .outside hown hclient (hshut c) (hgone c) (hinbox c)
  · cases hstep

theorem step_cases (hstep : (machine onConnect).step s a = some (s', os)) :
    s.main.over = false ∧ Step onConnect s a os s' := by
  obtain ⟨halive, hstep⟩ := Option.ite_none_left_eq_some.mp hstep
  refine ⟨Bool.eq_false_iff.mpr halive, ?_⟩
  cases a with
  | poll => exact poll_cases hstep
  | send n => exact send_cases hstep
  | call i => exact call_cases hstep
  | copied frame =>
      obtain ⟨hattached, ⟨⟩⟩ := Option.ite_none_right_eq_some.mp hstep
      exact .copies hattached
  | connect room =>
      obtain ⟨⟨-, hclient⟩, ⟨⟩⟩ := Option.ite_none_right_eq_some.mp hstep
      exact .connects hclient
  | arrives incoming =>
      exact clientStep_cases (f := fun c => { c with inbox := c.inbox ++ [incoming] }) rfl
        (fun _ => rfl) (fun _ => id) (fun _ _ => List.mem_append_left _) hstep
  | receives n =>
      exact clientStep_cases (f := fun c => { c with room := c.room + n }) rfl
        (fun _ => rfl) (fun _ => id) (fun _ _ => id) hstep
  | hangsUp =>
      exact clientStep_cases (f := fun c => { c with gone := true }) rfl
        (fun _ => rfl) (fun _ _ => rfl) (fun _ _ => id) hstep
  | parentDies =>
      cases hstep
      exact .parentDies
  | signal =>
      cases hstep
      exact .signals
  | load | test | accept | look | publish | greet | serve | read | handle | reply | withdraw
  | close | disconnect | acceptFails | readFails => exact workerStep_cases hstep
  | start | watch | notifier | leaveLoop | stopWatchdog | joinWatchdog | stop | closeListener
  | shutdownClient | joinWorker | detach | destroy | exit | sendFrame | wake | callback | paste
  | pasted => exact mainStep_cases hstep

end LinuxLifetime
