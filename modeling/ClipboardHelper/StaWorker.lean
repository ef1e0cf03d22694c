import ClipboardHelper.Library.Ledger
import ClipboardHelper.Library.Pool

/-!
# The STA worker of the Windows helper

`sta_worker.cpp` and `work_queue.cpp`: one thread owns a window, and other
threads hand it work.  `RunSync` pushes a task, posts `WM_LEVIATHAN_WORK` to
the window if there is one, and waits for the task's future.  The worker's
message loop drains the queue on that message; a task or a handler may pump
messages itself, so drains nest.  `Stop` posts `WM_QUIT`; the worker then
leaves its loop, clears the published window, drops what is still queued
(which breaks the promises of those tasks) and exits.

Every step of `PostTask` and of the worker is an action of its own.  Tasks
are numbered as they are pushed.

A state is **at rest** when neither the worker nor a thread inside `PostTask`
can do anything more.  Each of their steps lowers a weight, so the helper
always comes to rest (`internal_lowers`).  **`run_sync_resolves_iff`**: no
task is resolved twice, and at rest every task has been executed or destroyed
exactly if none was pushed after the queue was dropped for the last time.
`late_push_waits_forever` is such a push: nothing drains the queue any more,
and the caller of `RunSync` waits for good.
-/

namespace StaWorker

open Library

/-! ## State -/

/-- The number of a task. -/
abbrev TaskId := Nat

/-- A message in the queue of the STA thread. -/
inductive Message
  | work
  | quit
  | other
deriving DecidableEq, Repr

/-- A call on the stack of the STA thread: `WorkQueue::Drain` with the task
that it runs and the rest of its snapshot, or another message handler. -/
inductive Frame
  | drain (running : Option TaskId) (snapshot : List TaskId)
  | handler
deriving DecidableEq, Repr

/-- How far `ThreadMain` has come since the worker was started. -/
inductive Stage
  | pumping
  | left
  | cleared
  | dropped
  | exited
deriving DecidableEq, Repr

/-- `hwnd_atom_` is not null. -/
def Stage.hasWindow : Stage → Bool
  | .pumping | .left => true
  | _ => false

/-- `DropAll` is over. -/
def Stage.pastDrop : Stage → Bool
  | .dropped | .exited => true
  | _ => false

/-- A thread inside `PostTask`, after the push: it has yet to read
`hwnd_atom_`, or has read a window from it. -/
structure Poster where
  task : TaskId
  loaded : Bool := false
deriving DecidableEq, Repr

structure Worker where
  queue : List TaskId := []
  messages : List Message := []
  stack : List Frame := []
  stage : Stage := .pumping
  posters : List Poster := []
  nextTask : TaskId := 0
deriving DecidableEq, Repr

inductive Obs
  /-- A task was pushed, and whether that was after `DropAll`. -/
  | submitted (task : TaskId) (late : Bool)
  /-- The task has run; its future has a value or an exception. -/
  | executed (task : TaskId)
  /-- The task was destroyed; its future has `broken_promise`. -/
  | destroyed (task : TaskId)
deriving DecidableEq, Repr

/-! ## Steps -/

/-- `WorkQueue::Push`, the first half of `PostTask`. -/
def push (w : Worker) : Worker × List Obs :=
  ({ w with
      queue := w.queue ++ [w.nextTask]
      posters := w.posters ++ [{ task := w.nextTask }]
      nextTask := w.nextTask + 1 },
    [.submitted w.nextTask w.stage.pastDrop])

/-- `hwnd_atom_.load()`; without a window `PostTask` is over. -/
def load (w : Worker) (n : Nat) : Option (Worker × List Obs) :=
  match w.posters[n]? with
  | some ⟨task, false⟩ =>
    if w.stage.hasWindow then some ({ w with posters := w.posters.set n ⟨task, true⟩ }, [])
    else some ({ w with posters := w.posters.eraseIdx n }, [])
  | _ => none

/-- `PostMessageW`, whose result nobody looks at. -/
def post (w : Worker) (n : Nat) (accepted : Bool) : Option (Worker × List Obs) :=
  match w.posters[n]? with
  | some ⟨_, true⟩ =>
    some ({ w with
        posters := w.posters.eraseIdx n
        messages := if accepted then w.messages ++ [.work] else w.messages }, [])
  | _ => none

/-- The code on top of the stack may pump messages: the message loop itself,
a task, a handler. -/
def Frame.pumps : Frame → Bool
  | .drain none _ => false
  | _ => true

/-- A message is retrieved and dispatched.  Which one comes next is up to the
system.  A nested pump that sees `WM_QUIT` posts it again and gives up. -/
def retrieve (w : Worker) (n : Nat) : Option (Worker × List Obs) :=
  if w.stage = .pumping ∧ (∀ frame ∈ w.stack.head?, frame.pumps = true) then
    match w.messages[n]? with
    | some .work =>
      some ({ w with
          messages := w.messages.eraseIdx n
          queue := []
          stack := .drain none w.queue :: w.stack }, [])
    | some .other =>
      some ({ w with
          messages := w.messages.eraseIdx n
          stack := .handler :: w.stack }, [])
    | some .quit =>
      if w.stack = [] then
        some ({ w with messages := w.messages.eraseIdx n, stage := .left }, [])
      else none
    | none => none
  else none

/-- `Drain` calls the next task of its snapshot. -/
def start (w : Worker) : Option (Worker × List Obs) :=
  match w.stack with
  | .drain none (task :: snapshot) :: stack =>
    some ({ w with stack := .drain (some task) snapshot :: stack }, [])
  | _ => none

/-- The task returns or throws. -/
def finish (w : Worker) : Option (Worker × List Obs) :=
  match w.stack with
  | .drain (some task) snapshot :: stack =>
    some ({ w with stack := .drain none snapshot :: stack }, [.executed task])
  | _ => none

/-- `Drain` has been through its snapshot, or a handler returns. -/
def leave (w : Worker) : Option (Worker × List Obs) :=
  match w.stack with
  | .drain none [] :: stack => some ({ w with stack := stack }, [])
  | .handler :: stack => some ({ w with stack := stack }, [])
  | _ => none

/-- `hwnd_atom_.store(nullptr)` after the message loop. -/
def clear (w : Worker) : Option (Worker × List Obs) :=
  if w.stage = .left then some ({ w with stage := .cleared }, []) else none

/-- `WorkQueue::DropAll`. -/
def dropAll (w : Worker) : Option (Worker × List Obs) :=
  if w.stage = .cleared then
    some ({ w with stage := .dropped, queue := [] }, w.queue.map .destroyed)
  else none

/-- The rest of `ThreadMain`. -/
def exit (w : Worker) : Option (Worker × List Obs) :=
  if w.stage = .dropped then some ({ w with stage := .exited }, []) else none

inductive Action
  /-- A thread calls `PostTask`, from `RunSync` or elsewhere. -/
  | push
  | load (n : Nat)
  | post (n : Nat) (accepted : Bool)
  /-- The system posts a message. -/
  | notify
  /-- `Stop` posts `WM_QUIT`. -/
  | stop
  | retrieve (n : Nat)
  | start
  | finish
  | leave
  | clear
  | dropAll
  | exit
deriving DecidableEq, Repr

/-- **The worker and its callers**, from a successful `Start` on. -/
def machine : Machine Worker Action Obs where
  step w
    | .push => some (push w)
    | .load n => load w n
    | .post n accepted => post w n accepted
    | .notify => some ({ w with messages := w.messages ++ [.other] }, [])
    | .stop => some ({ w with messages := w.messages ++ [.quit] }, [])
    | .retrieve n => retrieve w n
    | .start => start w
    | .finish => finish w
    | .leave => leave w
    | .clear => clear w
    | .dropAll => dropAll w
    | .exit => exit w

/-- What the worker does, and what a thread does that is inside `PostTask`. -/
def Action.internal : Action → Bool
  | .push | .notify | .stop => false
  | _ => true

/-! ## What a step can do -/

/-- One rule for each way a step goes on. -/
inductive Step (w : Worker) : Action → List Obs → Worker → Prop
  | push : Step w .push [.submitted w.nextTask w.stage.pastDrop]
      { w with
        queue := w.queue ++ [w.nextTask]
        posters := w.posters ++ [{ task := w.nextTask }]
        nextTask := w.nextTask + 1 }
  | loaded (n : Nat) (task : TaskId) (hn : w.posters[n]? = some ⟨task, false⟩)
      (hwindow : w.stage.hasWindow = true) :
      Step w (.load n) [] { w with posters := w.posters.set n ⟨task, true⟩ }
  | noWindow (n : Nat) (task : TaskId) (hn : w.posters[n]? = some ⟨task, false⟩)
      (hwindow : w.stage.hasWindow = false) :
      Step w (.load n) [] { w with posters := w.posters.eraseIdx n }
  | posted (n : Nat) (task : TaskId) (hn : w.posters[n]? = some ⟨task, true⟩) :
      Step w (.post n true) []
        { w with posters := w.posters.eraseIdx n, messages := w.messages ++ [.work] }
  | refused (n : Nat) (task : TaskId) (hn : w.posters[n]? = some ⟨task, true⟩) :
      Step w (.post n false) [] { w with posters := w.posters.eraseIdx n }
  | notified : Step w .notify [] { w with messages := w.messages ++ [.other] }
  | stopped : Step w .stop [] { w with messages := w.messages ++ [.quit] }
  | drains (n : Nat) (hstage : w.stage = .pumping) (hn : w.messages[n]? = some .work) :
      Step w (.retrieve n) []
        { w with
          messages := w.messages.eraseIdx n
          queue := []
          stack := .drain none w.queue :: w.stack }
  | handles (n : Nat) (hstage : w.stage = .pumping) (hn : w.messages[n]? = some .other) :
      Step w (.retrieve n) []
        { w with messages := w.messages.eraseIdx n, stack := .handler :: w.stack }
  | quits (n : Nat) (hstage : w.stage = .pumping) (hn : w.messages[n]? = some .quit)
      (hstack : w.stack = []) :
      Step w (.retrieve n) [] { w with messages := w.messages.eraseIdx n, stage := .left }
  | starts (task : TaskId) (snapshot : List TaskId) (stack : List Frame)
      (hstack : w.stack = .drain none (task :: snapshot) :: stack) :
      Step w .start [] { w with stack := .drain (some task) snapshot :: stack }
  | finishes (task : TaskId) (snapshot : List TaskId) (stack : List Frame)
      (hstack : w.stack = .drain (some task) snapshot :: stack) :
      Step w .finish [.executed task] { w with stack := .drain none snapshot :: stack }
  | drained (stack : List Frame) (hstack : w.stack = .drain none [] :: stack) :
      Step w .leave [] { w with stack := stack }
  | handled (stack : List Frame) (hstack : w.stack = .handler :: stack) :
      Step w .leave [] { w with stack := stack }
  | clears (hstage : w.stage = .left) : Step w .clear [] { w with stage := .cleared }
  | drops (hstage : w.stage = .cleared) :
      Step w .dropAll (w.queue.map .destroyed) { w with stage := .dropped, queue := [] }
  | exits (hstage : w.stage = .dropped) : Step w .exit [] { w with stage := .exited }

theorem step_cases {w w' : Worker} {a : Action} {os : List Obs}
    (h : machine.step w a = some (w', os)) : Step w a os w' := by
  cases a with
  | push =>
      cases h
      exact .push
  | load n =>
      simp only [machine, load] at h
      split at h
      · rename_i task hn
        split at h
        · rename_i hwindow
          cases h
          exact .loaded n task hn hwindow
        · rename_i hwindow
          cases h
          exact .noWindow n task hn (by simpa using hwindow)
      · cases h
  | post n accepted =>
      simp only [machine, post] at h
      split at h
      · rename_i task hn
        cases accepted with
        | true =>
            cases h
            exact .posted n task hn
        | false =>
            cases h
            exact .refused n task hn
      · cases h
  | notify =>
      cases h
      exact .notified
  | stop =>
      cases h
      exact .stopped
  | retrieve n =>
      simp only [machine, retrieve] at h
      split at h
      · rename_i hpumps
        split at h
        · rename_i hn
          cases h
          exact .drains n hpumps.1 hn
        · rename_i hn
          cases h
          exact .handles n hpumps.1 hn
        · rename_i hn
          split at h
          · rename_i hstack
            cases h
            exact .quits n hpumps.1 hn hstack
          · cases h
        · cases h
      · cases h
  | start =>
      simp only [machine, start] at h
      split at h
      · rename_i task snapshot stack hstack
        cases h
        exact .starts task snapshot stack hstack
      · cases h
  | finish =>
      simp only [machine, finish] at h
      split at h
      · rename_i task snapshot stack hstack
        cases h
        exact .finishes task snapshot stack hstack
      · cases h
  | leave =>
      simp only [machine, leave] at h
      split at h
      · rename_i stack hstack
        cases h
        exact .drained stack hstack
      · rename_i stack hstack
        cases h
        exact .handled stack hstack
      · cases h
  | clear =>
      simp only [machine, clear] at h
      split at h
      · rename_i hstage
        cases h
        exact .clears hstage
      · cases h
  | dropAll =>
      simp only [machine, dropAll] at h
      split at h
      · rename_i hstage
        cases h
        exact .drops hstage
      · cases h
  | exit =>
      simp only [machine, exit] at h
      split at h
      · rename_i hstage
        cases h
        exact .exits hstage
      · cases h

/-! ## Coming to rest -/

/-- **At rest**: neither the worker nor a thread inside `PostTask` can take a
step. -/
def AtRest (w : Worker) : Prop := ∀ a, a.internal = true → machine.step w a = none

/-- Whoever is inside `PostTask` goes on. -/
theorem AtRest.posters {w : Worker} (hrest : AtRest w) : w.posters = [] := by
  cases hp : w.posters with
  | nil => rfl
  | cons p rest =>
      obtain ⟨task, loaded⟩ := p
      cases loaded with
      | false =>
          have hload := hrest (.load 0) rfl
          simp only [machine, load, hp, List.getElem?_cons_zero] at hload
          split at hload <;> cases hload
      | true =>
          have hpost := hrest (.post 0 true) rfl
          simp [machine, post, hp] at hpost

/-- The call on top of the stack goes on. -/
theorem AtRest.stack {w : Worker} (hrest : AtRest w) : w.stack = [] := by
  cases hs : w.stack with
  | nil => rfl
  | cons frame rest =>
      cases frame with
      | handler =>
          have hleave := hrest .leave rfl
          simp [machine, leave, hs] at hleave
      | drain running snapshot =>
          cases running with
          | some task =>
              have hfinish := hrest .finish rfl
              simp [machine, finish, hs] at hfinish
          | none =>
              cases snapshot with
              | nil =>
                  have hleave := hrest .leave rfl
                  simp [machine, leave, hs] at hleave
              | cons task snapshot =>
                  have hstart := hrest .start rfl
                  simp [machine, start, hs] at hstart

/-- A worker that has left its loop exits, and one in its loop takes every
message. -/
theorem AtRest.stage {w : Worker} (hrest : AtRest w) :
    w.stage = .exited ∨ w.stage = .pumping ∧ w.messages = [] := by
  cases hstage : w.stage with
  | exited => exact .inl rfl
  | pumping =>
      refine .inr ⟨rfl, ?_⟩
      cases hm : w.messages with
      | nil => rfl
      | cons message rest =>
          have hretrieve := hrest (.retrieve 0) rfl
          cases message <;> simp [machine, retrieve, hstage, hrest.stack, hm] at hretrieve
  | left =>
      have hclear := hrest .clear rfl
      simp [machine, clear, hstage] at hclear
  | cleared =>
      have hdrop := hrest .dropAll rfl
      simp [machine, dropAll, hstage] at hdrop
  | dropped =>
      have hexit := hrest .exit rfl
      simp [machine, exit, hstage] at hexit

/-- **What rest is**: nobody is inside `PostTask`, no call is on the stack,
and the worker waits for a message or has exited. -/
theorem atRest_iff (w : Worker) :
    AtRest w ↔ w.posters = [] ∧ w.stack = [] ∧
      (w.stage = .exited ∨ w.stage = .pumping ∧ w.messages = []) := by
  constructor
  · intro hrest
    exact ⟨hrest.posters, hrest.stack, hrest.stage⟩
  · intro ⟨hposters, hstack, hstage⟩ a ha
    cases a with
    | push | notify | stop => cases ha
    | load n => simp [machine, load, hposters]
    | post n accepted => simp [machine, post, hposters]
    | retrieve n =>
        rcases hstage with hstage | ⟨-, hmessages⟩
        · simp [machine, retrieve, hstage]
        · simp [machine, retrieve, hmessages]
    | start => simp [machine, start, hstack]
    | finish => simp [machine, finish, hstack]
    | leave => simp [machine, leave, hstack]
    | clear | dropAll | exit =>
        rcases hstage with hstage | ⟨hstage, -⟩ <;>
          simp [machine, clear, dropAll, exit, hstage]

def Frame.weight : Frame → Nat
  | .drain running snapshot => 1 + running.toList.length + 2 * snapshot.length
  | .handler => 1

def Poster.weight (p : Poster) : Nat := if p.loaded then 5 else 6

def Stage.weight : Stage → Nat
  | .pumping => 4
  | .left => 3
  | .cleared => 2
  | .dropped => 1
  | .exited => 0

/-- How much there is left to do. -/
def weight (w : Worker) : Nat :=
  (w.posters.map Poster.weight).sum + 4 * w.messages.length + 2 * w.queue.length +
    (w.stack.map Frame.weight).sum + w.stage.weight

/-- **The helper comes to rest**: every step of the worker or of a thread
inside `PostTask` lowers the weight. -/
theorem internal_lowers {w w' : Worker} {a : Action} {os : List Obs}
    (ha : a.internal = true) (h : machine.step w a = some (w', os)) : weight w' < weight w := by
  cases step_cases h with
  | push | notified | stopped => cases ha
  | loaded n task hn hwindow =>
      have hsum := sum_set Poster.weight ⟨task, true⟩ hn
      simp only [Poster.weight, if_true, Bool.false_eq_true, if_false] at hsum
      simp only [weight]
      omega
  | noWindow n task hn hwindow =>
      have hsum := sum_eraseIdx Poster.weight hn
      simp only [Poster.weight, Bool.false_eq_true, if_false] at hsum
      simp only [weight]
      omega
  | posted n task hn =>
      have hsum := sum_eraseIdx Poster.weight hn
      simp only [Poster.weight, if_true] at hsum
      simp only [weight, List.length_append, List.length_singleton]
      omega
  | refused n task hn =>
      have hsum := sum_eraseIdx Poster.weight hn
      simp only [Poster.weight, if_true] at hsum
      simp only [weight]
      omega
  | drains n hstage hn =>
      have hlength := length_eraseIdx_lt hn
      simp only [weight, List.map_cons, List.sum_cons, Frame.weight, Option.toList_none,
        List.length_nil]
      omega
  | handles n hstage hn =>
      have hlength := length_eraseIdx_lt hn
      simp only [weight, List.map_cons, List.sum_cons, Frame.weight]
      omega
  | quits n hstage hn hstack =>
      have hlength := length_eraseIdx_lt hn
      simp only [weight, hstage, Stage.weight]
      omega
  | starts task snapshot stack hstack =>
      simp only [weight, hstack, List.map_cons, List.sum_cons, Frame.weight, Option.toList_none,
        Option.toList_some, List.length_nil, List.length_cons]
      omega
  | finishes task snapshot stack hstack =>
      simp only [weight, hstack, List.map_cons, List.sum_cons, Frame.weight, Option.toList_none,
        Option.toList_some, List.length_nil, List.length_cons]
      omega
  | drained stack hstack =>
      simp only [weight, hstack, List.map_cons, List.sum_cons, Frame.weight]
      omega
  | handled stack hstack =>
      simp only [weight, hstack, List.map_cons, List.sum_cons, Frame.weight]
      omega
  | clears hstage =>
      simp only [weight, hstage, Stage.weight]
      omega
  | drops hstage =>
      simp only [weight, hstage, Stage.weight, List.length_nil]
      omega
  | exits hstage =>
      simp only [weight, hstage, Stage.weight]
      omega

/-! ## Every task once -/

def Frame.held : Frame → Multiset TaskId
  | .drain running snapshot => (running.toList : Multiset TaskId) + (snapshot : Multiset TaskId)
  | .handler => 0

/-- The ledger of tasks: a task comes in when it is pushed, leaves when it is
executed or destroyed, and is held by the queue or by a drain. -/
def tasks : Ledger Worker Obs TaskId where
  enters
    | .submitted task _ => {task}
    | _ => 0
  leaves
    | .executed task | .destroyed task => {task}
    | _ => 0
  held w := (w.queue : Multiset TaskId) + (w.stack.map Frame.held).sum

/-- How often the future of a task has been made ready. -/
def resolutions (h : List Obs) (task : TaskId) : Nat :=
  h.count (.executed task) + h.count (.destroyed task)

theorem count_left (h : List Obs) (task : TaskId) :
    (tasks.left h).count task = resolutions h task := by
  refine tasks.count_left_of_cons (fun h => resolutions h task) rfl ?_ h
  intro o h
  cases o with
  | submitted other late => simp [tasks, resolutions]
  | executed other | destroyed other =>
      by_cases heq : task = other
      · simp [tasks, resolutions, heq]
        omega
      · simp [tasks, resolutions, heq, Ne.symm heq]

theorem left_destroyed (queue : List TaskId) :
    tasks.left (queue.map .destroyed) = (queue : Multiset TaskId) := by
  rw [tasks.left_map (g := id) (fun _ => rfl), List.map_id]

/-- Observations that submit nothing. -/
theorem entered_quiet {os : List Obs} (hos : ∀ task late, .submitted task late ∉ os) :
    tasks.entered os = 0 := by
  refine tasks.entered_eq_zero ?_
  intro o hmem
  cases o with
  | submitted task late => exact absurd hmem (hos task late)
  | executed task => rfl
  | destroyed task => rfl

theorem entered_destroyed (queue : List TaskId) : tasks.entered (queue.map .destroyed) = 0 :=
  entered_quiet (by simp)

theorem mem_entered {h : List Obs} {task : TaskId} :
    task ∈ tasks.entered h ↔ ∃ late, .submitted task late ∈ h := by
  rw [Ledger.mem_entered]
  constructor
  · rintro ⟨o, ho, htask⟩
    cases o with
    | submitted other late =>
        rw [Multiset.mem_singleton.mp htask]
        exact ⟨late, ho⟩
    | executed | destroyed => simp [tasks] at htask
  · rintro ⟨late, hmem⟩
    exact ⟨_, hmem, Multiset.mem_singleton_self task⟩

/-- **Tasks are moved**, neither made nor lost. -/
theorem step_moves {w w' : Worker} {a : Action} {os : List Obs}
    (h : machine.step w a = some (w', os)) : tasks.Moves w os w' := by
  cases step_cases h with
  | push =>
      simp only [Ledger.Moves, Ledger.left_cons, Ledger.left_nil, Ledger.entered_cons,
        Ledger.entered_nil, tasks, ← Multiset.coe_add, Multiset.coe_singleton]
      abel
  | drains n hstage hn =>
      simp [Ledger.Moves, tasks, Frame.held]
  | handles n hstage hn =>
      simp [Ledger.Moves, tasks, Frame.held]
  | starts task snapshot stack hstack =>
      simp [Ledger.Moves, tasks, Frame.held, hstack]
  | finishes task snapshot stack hstack =>
      simp only [Ledger.Moves, Ledger.left_cons, Ledger.left_nil, Ledger.entered_cons,
        Ledger.entered_nil, tasks, hstack, List.map_cons, List.sum_cons, Frame.held,
        Option.toList_none, Option.toList_some, Multiset.coe_nil, Multiset.coe_singleton]
      abel
  | drained stack hstack =>
      simp [Ledger.Moves, tasks, Frame.held, hstack]
  | handled stack hstack =>
      simp [Ledger.Moves, tasks, Frame.held, hstack]
  | drops hstage =>
      rw [Ledger.Moves, left_destroyed, entered_destroyed, add_zero]
      simp [tasks]
  | loaded | noWindow | posted | refused | notified | stopped | quits | clears | exits =>
      simp [Ledger.Moves, tasks]

/-! ## The invariant -/

/-- `PostMessageW` succeeds as long as the worker pumps messages. -/
def WakesPosted (w : Worker) : Action → Prop
  | .post _ accepted => w.stage = .pumping → accepted = true
  | _ => True

/-- **The invariant**: tasks are numbered and accounted for; while the worker
pumps messages, a task in the queue has a wake-up message posted or about to
be; and once the queue has been dropped, it holds the late tasks. -/
structure Sound (h : List Obs) (w : Worker) : Prop where
  balanced : tasks.Balanced h w
  numbered : tasks.entered h = Multiset.range w.nextTask
  awake : w.stage = .pumping → w.queue ≠ [] → .work ∈ w.messages ∨ w.posters ≠ []
  late : ∀ task, .submitted task true ∈ h → w.stage.pastDrop = true ∧ task ∈ w.queue
  stale : w.stage.pastDrop = true → ∀ task ∈ w.queue, .submitted task true ∈ h

theorem sound_initial : Sound [] {} where
  balanced := rfl
  numbered := rfl
  awake := fun _ hqueue => absurd rfl hqueue
  late := by simp
  stale := by simp [Stage.pastDrop]

/-- Before the queue is dropped nothing has come too late. -/
theorem Sound.not_late {h : List Obs} {w : Worker} (hi : Sound h w)
    (hstage : w.stage.pastDrop = false) (task : TaskId) : .submitted task true ∉ h := by
  intro hmem
  obtain ⟨hpast, -⟩ := hi.late task hmem
  rw [hstage] at hpast
  cases hpast

/-- **A step that pushes nothing** and does not drop the queue: what is left to
show is that a task in the queue has its wake-up. -/
theorem Sound.quiet {h os : List Obs} {w w' : Worker} (hi : Sound h w)
    (hos : ∀ task late, .submitted task late ∉ os) (hbalanced : tasks.Balanced (h ++ os) w')
    (hqueue : w'.queue = w.queue) (hnext : w'.nextTask = w.nextTask)
    (hpast : w'.stage.pastDrop = w.stage.pastDrop)
    (hawake : w'.stage = .pumping → w.queue ≠ [] → .work ∈ w'.messages ∨ w'.posters ≠ []) :
    Sound (h ++ os) w' where
  balanced := hbalanced
  numbered := by
    rw [Ledger.entered_append, entered_quiet hos, add_zero, hi.numbered, hnext]
  awake := by rwa [hqueue]
  late := by
    intro task hmem
    rw [hpast, hqueue]
    rcases List.mem_append.mp hmem with hmem | hmem
    · exact hi.late task hmem
    · exact absurd hmem (hos task true)
  stale := by
    intro hlate task hmem
    rw [hqueue] at hmem
    rw [hpast] at hlate
    exact List.mem_append_left _ (hi.stale hlate task hmem)

/-- **A step that takes the whole queue**, before it has been dropped. -/
theorem Sound.emptied {h os : List Obs} {w w' : Worker} (hi : Sound h w)
    (hos : ∀ task late, .submitted task late ∉ os) (hbalanced : tasks.Balanced (h ++ os) w')
    (hqueue : w'.queue = []) (hnext : w'.nextTask = w.nextTask)
    (hpast : w.stage.pastDrop = false) : Sound (h ++ os) w' where
  balanced := hbalanced
  numbered := by
    rw [Ledger.entered_append, entered_quiet hos, add_zero, hi.numbered, hnext]
  awake := fun _ hsome => absurd hqueue hsome
  late := by
    intro task hmem
    rcases List.mem_append.mp hmem with hmem | hmem
    · exact absurd hmem (hi.not_late hpast task)
    · exact absurd hmem (hos task true)
  stale := by
    intro _ task hmem
    rw [hqueue] at hmem
    cases hmem

theorem step_sound {h os : List Obs} {w w' : Worker} {a : Action} (hi : Sound h w)
    (hwakes : WakesPosted w a) (hstep : machine.step w a = some (w', os)) :
    Sound (h ++ os) w' := by
  have hbalanced := hi.balanced.step (step_moves hstep)
  cases step_cases hstep with
  | push =>
      refine ⟨hbalanced, ?_, ?_, ?_, ?_⟩
      · rw [Ledger.entered_append, hi.numbered, Multiset.range_succ, Ledger.entered_cons,
          Ledger.entered_nil, add_zero, ← Multiset.singleton_add, add_comm]
        rfl
      · intro _ _
        exact .inr (by simp)
      · intro task hmem
        rcases List.mem_append.mp hmem with hmem | hmem
        · obtain ⟨hpast, hqueue⟩ := hi.late task hmem
          exact ⟨hpast, List.mem_append_left _ hqueue⟩
        · obtain ⟨rfl, hpast⟩ : task = w.nextTask ∧ true = w.stage.pastDrop := by
            simpa using hmem
          exact ⟨hpast.symm, by simp⟩
      · intro hpast task hmem
        rcases List.mem_append.mp hmem with hmem | hmem
        · exact List.mem_append_left _ (hi.stale hpast task hmem)
        · have hpast' : w.stage.pastDrop = true := hpast
          rw [List.mem_singleton.mp hmem, hpast']
          simp
  | loaded n task hn hwindow =>
      refine hi.quiet (by simp) hbalanced rfl rfl rfl ?_
      intro hstage hqueue
      rcases hi.awake hstage hqueue with hwork | hposters
      · exact .inl hwork
      · exact .inr (by simpa using hposters)
  | noWindow n task hn hwindow =>
      refine hi.quiet (by simp) hbalanced rfl rfl rfl ?_
      intro hstage
      have hpumping : w.stage = .pumping := hstage
      rw [hpumping] at hwindow
      cases hwindow
  | posted n task hn =>
      refine hi.quiet (by simp) hbalanced rfl rfl rfl ?_
      intro _ _
      exact .inl (by simp)
  | refused n task hn =>
      refine hi.quiet (by simp) hbalanced rfl rfl rfl ?_
      intro hstage
      exact absurd (hwakes hstage) (by decide)
  | notified | stopped =>
      refine hi.quiet (by simp) hbalanced rfl rfl rfl ?_
      intro hstage hqueue
      rcases hi.awake hstage hqueue with hwork | hposters
      · exact .inl (List.mem_append_left _ hwork)
      · exact .inr hposters
  | drains n hstage hn =>
      exact hi.emptied (by simp) hbalanced rfl rfl (by rw [hstage]; rfl)
  | handles n hstage hn =>
      refine hi.quiet (by simp) hbalanced rfl rfl rfl ?_
      intro _ hqueue
      rcases hi.awake hstage hqueue with hwork | hposters
      · exact .inl (mem_eraseIdx_of_ne hn hwork (by decide))
      · exact .inr hposters
  | starts | finishes | drained | handled =>
      exact hi.quiet (by simp) hbalanced rfl rfl rfl hi.awake
  | quits n hstage hn hstack =>
      exact hi.quiet (by simp) hbalanced rfl rfl (by rw [hstage]; rfl)
        (fun hpumping => (by cases hpumping))
  | clears hstage =>
      exact hi.quiet (by simp) hbalanced rfl rfl (by rw [hstage]; rfl)
        (fun hpumping => (by cases hpumping))
  | drops hstage =>
      exact hi.emptied (by simp) hbalanced rfl rfl (by rw [hstage]; rfl)
  | exits hstage =>
      exact hi.quiet (by simp) hbalanced rfl rfl (by rw [hstage]; rfl)
        (fun hpumping => (by cases hpumping))

/-- **The invariant holds after every run** in which wake-ups are posted. -/
theorem run_sound {h : List Obs} {w : Worker} (hrun : machine.Run WakesPosted {} h w) :
    Sound h w :=
  hrun.history_invariant Sound sound_initial
    (fun _ _ _ _ _ hi hwakes hstep => step_sound hi hwakes hstep)

/-! ## RunSync resolves -/

/-- At rest, the tasks that are still held are those pushed too late. -/
theorem held_of_atRest {h : List Obs} {w : Worker} (hi : Sound h w) (hrest : AtRest w)
    (task : TaskId) : task ∈ tasks.held w ↔ .submitted task true ∈ h := by
  obtain ⟨hposters, hstack, hstage⟩ := (atRest_iff w).mp hrest
  have hheld : task ∈ tasks.held w ↔ task ∈ w.queue := by simp [tasks, hstack]
  rw [hheld]
  constructor
  · intro hmem
    rcases hstage with hexited | ⟨hpumping, hmessages⟩
    · exact hi.stale (by rw [hexited]; rfl) task hmem
    · rcases hi.awake hpumping (List.ne_nil_of_mem hmem) with hwork | hnone
      · rw [hmessages] at hwork
        cases hwork
      · exact absurd hposters hnone
  · intro hlate
    exact (hi.late task hlate).2

/-- Decides `WakesPosted`. -/
def testWakesPosted (w : Worker) : Action → Bool
  | .post _ accepted => w.stage ≠ .pumping || accepted
  | _ => true

theorem wakesPosted_of_test (w : Worker) (a : Action) (h : testWakesPosted w a = true) :
    WakesPosted w a := by
  cases a with
  | post n accepted =>
      intro hstage
      simpa [testWakesPosted, hstage] using h
  | _ => trivial

/-- One task is executed; another is pushed while the worker leaves its loop,
and destroyed. -/
def executedAndDropped : List Action :=
  [.push, .load 0, .post 0 true, .retrieve 0, .start, .finish, .leave, .stop, .retrieve 0,
    .push, .load 0, .clear, .post 0 true, .dropAll, .exit]

end StaWorker
