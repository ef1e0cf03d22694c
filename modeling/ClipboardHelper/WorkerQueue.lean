import ClipboardHelper.StaWorker
import ClipboardHelper.WorkQueue

/-!
# The queue inside the STA worker

`StaWorker` has a queue of its own, with a `Drain` as one frame among the
message handlers and a `DropAll` in one step.  What it does with it is what
`work_queue.cpp` does, called by the STA thread and by the threads inside
`PostTask`: every run of the worker is answered by a run of the queue that
pushes, executes and destroys the same tasks in the same order
(**`queue_of_worker`**).
-/

namespace StaWorker

open Library

/-! ## The two machines side by side -/

/-- Who calls the queue: the STA thread, or a thread inside `PostTask`. -/
inductive Caller
  | sta
  | poster
deriving DecidableEq, Repr

/-- What both machines show of a task. -/
inductive Event
  | pushed (task : TaskId)
  | executed (task : TaskId)
  | destroyed (task : TaskId)
deriving DecidableEq, Repr

def Obs.event : Obs → Event
  | .submitted task _ => .pushed task
  | .executed task => .executed task
  | .destroyed task => .destroyed task

def queueEvent : WorkQueue.Obs → Option Event
  | .pushed task => some (.pushed task)
  | .ended _ task _ => some (.executed task)
  | .destroyed task => some (.destroyed task)
  | .drained _ _ | .started _ _ | .returned _ _ => none

/-- A `Drain` without its statistics: the task that it runs and the rest of
its snapshot. -/
def Frame.drain? : Frame → Option (Option TaskId × List TaskId)
  | .drain running snapshot => some (running, snapshot)
  | .handler => none

def callDrain? (call : WorkQueue.Call Caller) : Option (Option TaskId × List TaskId) :=
  match call.frame with
  | .drain running snapshot _ => some (running, snapshot)
  | .dropAll _ => none

theorem drain?_eq_some {frame : Frame} {running : Option TaskId} {snapshot : List TaskId}
    (h : frame.drain? = some (running, snapshot)) : frame = .drain running snapshot := by
  cases frame with
  | drain => simpa [Frame.drain?] using h
  | handler => cases h

theorem callDrain?_eq_some {call : WorkQueue.Call Caller} {running : Option TaskId}
    {snapshot : List TaskId} (h : callDrain? call = some (running, snapshot)) :
    ∃ stats, call.frame = .drain running snapshot stats := by
  rw [callDrain?] at h
  split at h
  · rename_i stats hframe
    cases h
    exact ⟨stats, hframe⟩
  · cases h

/-- **The queue is that of the worker**: it holds the same tasks, and its
calls are the drains on the stack of the STA thread.  A frame below another
one pumps messages, and the worker that has left its loop has an empty stack. -/
structure Mirrors (w : Worker) (q : WorkQueue.State Caller) : Prop where
  queue : q.queue = w.queue
  numbers : q.nextTask = w.nextTask
  threads : ∀ call ∈ q.calls, call.thread = .sta
  calls : q.calls.map callDrain? = (w.stack.filterMap Frame.drain?).map some
  nested : ∀ frame ∈ w.stack.tail, frame.pumps = true
  left : w.stage ≠ .pumping → w.stack = []

/-- The worker and the queue have shown the same. -/
def Agree (h : List Obs) (w : Worker) (h' : List WorkQueue.Obs) (q : WorkQueue.State Caller) :
    Prop :=
  h'.filterMap queueEvent = h.map Obs.event ∧ Mirrors w q

/-! ## The calls of the STA thread -/

section

variable {q : WorkQueue.State Caller} {call : WorkQueue.Call Caller}
  {calls : List (WorkQueue.Call Caller)}

/-- The newest call is on top. -/
theorem top_sta (hcalls : q.calls = call :: calls) (hthread : call.thread = .sta) :
    q.top .sta = 0 := by
  simp [WorkQueue.State.top, hcalls, List.findIdx_cons, hthread]

theorem top_call (hcalls : q.calls = call :: calls) (hthread : call.thread = .sta) :
    q.calls[q.top .sta]? = some call := by
  rw [top_sta hcalls hthread, hcalls]
  rfl

/-- A thread inside `PostTask` has no call open. -/
theorem mayCall_poster (hthreads : ∀ call ∈ q.calls, call.thread = .sta) :
    q.mayCall .poster = true := by
  have hnone : q.top .poster = q.calls.length := by
    refine List.findIdx_eq_length.mpr ?_
    intro call hcall
    simp [hthreads call hcall]
  rw [WorkQueue.State.mayCall, hnone, List.getElem?_eq_none le_rfl]
  rfl

end

/-! ## Steps -/

section

variable {w w' : Worker} {q : WorkQueue.State Caller}

/-- The code on the stack that a message is retrieved in pumps messages. -/
theorem retrieve_pumps {n : Nat} {os : List Obs}
    (hnested : ∀ frame ∈ w.stack.tail, frame.pumps = true)
    (hstep : machine.step w (.retrieve n) = some (w', os)) :
    ∀ frame ∈ w.stack, frame.pumps = true := by
  simp only [machine, retrieve] at hstep
  split at hstep
  · rename_i hguard
    intro frame hmem
    cases hstack : w.stack with
    | nil =>
        rw [hstack] at hmem
        cases hmem
    | cons top stack =>
        rw [hstack] at hmem hguard hnested
        rcases List.mem_cons.mp hmem with rfl | hmem
        · exact hguard.2 frame (by simp)
        · exact hnested frame hmem
  · cases hstep

/-- The STA thread may call the queue from code that pumps messages. -/
theorem Mirrors.mayCall_sta (hm : Mirrors w q) (hpumps : ∀ frame ∈ w.stack, frame.pumps = true) :
    q.mayCall .sta = true := by
  cases hcalls : q.calls with
  | nil => simp [WorkQueue.State.mayCall, hcalls]
  | cons call calls =>
      have hthread := hm.threads call (by simp [hcalls])
      have hdrain : callDrain? call ∈ (w.stack.filterMap Frame.drain?).map some := by
        rw [← hm.calls, hcalls]
        exact List.mem_cons_self
      obtain ⟨⟨running, snapshot⟩, hmem, hsome⟩ := List.mem_map.mp hdrain
      obtain ⟨frame, hframe, hdrains⟩ := List.mem_filterMap.mp hmem
      obtain ⟨stats, hcall⟩ := callDrain?_eq_some hsome.symm
      have hrunning := hpumps frame hframe
      rw [drain?_eq_some hdrains] at hrunning
      rw [WorkQueue.State.mayCall, top_call hcalls hthread, Option.all_some, hcall]
      cases running with
      | none => cases hrunning
      | some task => rfl

/-- The call that mirrors the drain on top of the stack. -/
theorem Mirrors.top (hm : Mirrors w q) {running : Option TaskId} {snapshot : List TaskId}
    {stack : List Frame} (hstack : w.stack = .drain running snapshot :: stack) :
    ∃ call calls stats, q.calls = call :: calls ∧ call.thread = .sta ∧
      call.frame = .drain running snapshot stats ∧
      calls.map callDrain? = (stack.filterMap Frame.drain?).map some := by
  have hcalls := hm.calls
  rw [hstack] at hcalls
  cases hq : q.calls with
  | nil =>
      rw [hq] at hcalls
      cases hcalls
  | cons call calls =>
      rw [hq] at hcalls
      obtain ⟨hcall, hrest⟩ := List.cons.inj hcalls
      obtain ⟨stats, hframe⟩ := callDrain?_eq_some hcall
      exact ⟨call, calls, stats, rfl, hm.threads call (by simp [hq]), hframe, hrest⟩

/-- The drain on top goes on, in both machines. -/
theorem Mirrors.advance (hm : Mirrors w q) {call : WorkQueue.Call Caller}
    {calls : List (WorkQueue.Call Caller)} (hcalls : q.calls = call :: calls)
    (hthread : call.thread = .sta) {running running' : Option TaskId}
    {snapshot snapshot' : List TaskId} {stack : List Frame}
    (hstack : w.stack = .drain running snapshot :: stack)
    (hrest : calls.map callDrain? = (stack.filterMap Frame.drain?).map some)
    (stats : WorkQueue.DrainStats) :
    Mirrors { w with stack := .drain running' snapshot' :: stack }
      (q.advance .sta call (.drain running' snapshot' stats)) := by
  have hnext : (q.advance .sta call (.drain running' snapshot' stats)).calls =
      { call with frame := .drain running' snapshot' stats } :: calls := by
    rw [WorkQueue.State.advance, top_sta hcalls hthread, hcalls]
    rfl
  refine ⟨hm.queue, hm.numbers, ?_, ?_, ?_, ?_⟩
  · rw [hnext, List.forall_mem_cons]
    refine ⟨hthread, ?_⟩
    intro other hother
    exact hm.threads other (by rw [hcalls]; exact List.mem_cons_of_mem _ hother)
  · rw [hnext, List.map_cons, hrest]
    rfl
  · have hnested := hm.nested
    rw [hstack] at hnested
    exact hnested
  · intro hstage
    have hempty := hm.left hstage
    rw [hstack] at hempty
    cases hempty

/-- What the STA thread does apart from the queue. -/
theorem Mirrors.of_same (hm : Mirrors w q) (hqueue : w'.queue = w.queue)
    (hnumbers : w'.nextTask = w.nextTask) (hstack : w'.stack = w.stack)
    (hstage : w'.stage ≠ .pumping → w.stage ≠ .pumping ∨ w.stack = []) : Mirrors w' q := by
  refine ⟨hm.queue.trans hqueue.symm, hm.numbers.trans hnumbers.symm, hm.threads, ?_, ?_, ?_⟩
  · rw [hstack]
    exact hm.calls
  · rw [hstack]
    exact hm.nested
  · intro hleft
    rw [hstack]
    rcases hstage hleft with hbefore | hempty
    · exact hm.left hbefore
    · exact hempty

/-- `DropAll` destroys one task after the other. -/
theorem run_destroys (leftover : List TaskId) (q : WorkQueue.State Caller) (id : WorkQueue.CallId)
    (calls : List (WorkQueue.Call Caller)) :
    (WorkQueue.machine Caller).Run Machine.always
      { q with calls := { id := id, thread := .sta, frame := .dropAll leftover } :: calls }
      (leftover.map .destroyed)
      { q with calls := { id := id, thread := .sta, frame := .dropAll [] } :: calls } := by
  induction leftover with
  | nil => exact .nil
  | cons task leftover ih =>
      have hstep : (WorkQueue.machine Caller).step
          { q with calls := { id := id, thread := .sta, frame := .dropAll (task :: leftover) }
              :: calls } (.destroy .sta 0) =
          some ({ q with calls := { id := id, thread := .sta, frame := .dropAll leftover }
              :: calls }, [.destroyed task]) := by
        simp [WorkQueue.machine, WorkQueue.destroy, WorkQueue.State.top, List.findIdx_cons,
          WorkQueue.State.advance]
      exact Machine.Run.append (Machine.Run.single hstep) ih

/-- **`DropAll`** from its swap to its return. -/
theorem run_dropAll (hcall : q.mayCall .sta = true) :
    (WorkQueue.machine Caller).Run Machine.always q (q.queue.map .destroyed)
      { q with queue := [], nextCall := q.nextCall + 1 } := by
  have hswap : (WorkQueue.machine Caller).step q (.dropAll .sta) =
      some (q.swap .sta .dropAll, []) := by
    simp [WorkQueue.machine, WorkQueue.dropAll, hcall]
  have hleave : (WorkQueue.machine Caller).step
      { q with
        queue := []
        calls := { id := q.nextCall, thread := .sta, frame := .dropAll [] } :: q.calls
        nextCall := q.nextCall + 1 } (.leave .sta) =
      some ({ q with queue := [], nextCall := q.nextCall + 1 }, []) := by
    simp [WorkQueue.machine, WorkQueue.leave, WorkQueue.State.top, List.findIdx_cons,
      WorkQueue.State.leave]
  have hdestroys := run_destroys q.queue { q with queue := [], nextCall := q.nextCall + 1 }
    q.nextCall q.calls
  have hrun := ((Machine.Run.single hswap).append hdestroys).append (Machine.Run.single hleave)
  rwa [List.nil_append, List.append_nil] at hrun

/-- A call on the stack returns. -/
theorem Mirrors.pop (hm : Mirrors w q) {frame : Frame} {stack : List Frame}
    (hstack : w.stack = frame :: stack) {q' : WorkQueue.State Caller}
    (hqueue : q'.queue = q.queue) (hnumbers : q'.nextTask = q.nextTask)
    (hthreads : ∀ call ∈ q'.calls, call ∈ q.calls)
    (hcalls : q'.calls.map callDrain? = (stack.filterMap Frame.drain?).map some) :
    Mirrors { w with stack := stack } q' := by
  have hnested := hm.nested
  rw [hstack, List.tail_cons] at hnested
  refine ⟨hqueue.trans hm.queue, hnumbers.trans hm.numbers, ?_, hcalls, ?_, ?_⟩
  · intro call hcall
    exact hm.threads call (hthreads call hcall)
  · intro below hbelow
    exact hnested below (List.mem_of_mem_tail hbelow)
  · intro hstage
    have hempty := hm.left hstage
    rw [hstack] at hempty
    cases hempty

/-- Some steps of the queue show what the worker has shown, and lead to where
it has gone. -/
def Answers (q : WorkQueue.State Caller) (os : List Obs) (w' : Worker) : Prop :=
  ∃ os' q', (WorkQueue.machine Caller).Run Machine.always q os' q' ∧
    os'.filterMap queueEvent = os.map Obs.event ∧ Mirrors w' q'

/-- The queue stands still. -/
theorem Answers.still (hm : Mirrors w' q) : Answers q [] w' :=
  ⟨[], q, .nil, rfl, hm⟩

theorem Mirrors.push (hm : Mirrors w q) :
    Answers q [.submitted w.nextTask w.stage.pastDrop]
      { w with
        queue := w.queue ++ [w.nextTask]
        posters := w.posters ++ [{ task := w.nextTask }]
        nextTask := w.nextTask + 1 } := by
  have hpush : (WorkQueue.machine Caller).step q (.push .poster) =
      some ({ q with queue := q.queue ++ [q.nextTask], nextTask := q.nextTask + 1 },
        [.pushed q.nextTask]) := by
    simp [WorkQueue.machine, WorkQueue.push, mayCall_poster hm.threads]
  refine ⟨_, _, Machine.Run.single hpush, ?_, ?_, ?_, hm.threads, hm.calls, hm.nested, hm.left⟩
  · rw [hm.numbers]
    rfl
  · rw [hm.queue, hm.numbers]
  · rw [hm.numbers]

theorem Mirrors.drain (hm : Mirrors w q) (hpumps : ∀ frame ∈ w.stack, frame.pumps = true)
    (hstage : w.stage = .pumping) (messages : List Message) :
    Answers q []
      { w with messages := messages, queue := [], stack := .drain none w.queue :: w.stack } := by
  have hdrain : (WorkQueue.machine Caller).step q (.drain .sta) =
      some (q.swap .sta (fun queue => .drain none queue {}), [.drained q.nextCall q.queue]) := by
    simp [WorkQueue.machine, WorkQueue.drain, hm.mayCall_sta hpumps]
  refine ⟨_, _, Machine.Run.single hdrain, rfl, rfl, hm.numbers, ?_, ?_, hpumps, ?_⟩
  · exact List.forall_mem_cons.mpr ⟨rfl, hm.threads⟩
  · show some (none, q.queue) :: q.calls.map callDrain? = _
    rw [hm.calls, hm.queue]
    rfl
  · intro hleft
    exact absurd hstage hleft

theorem Mirrors.start (hm : Mirrors w q) {task : TaskId} {snapshot : List TaskId}
    {stack : List Frame} (hstack : w.stack = .drain none (task :: snapshot) :: stack) :
    Answers q [] { w with stack := .drain (some task) snapshot :: stack } := by
  obtain ⟨call, calls, stats, hcalls, hthread, hframe, hrest⟩ := hm.top hstack
  have hstart : (WorkQueue.machine Caller).step q (.start .sta) =
      some (q.advance .sta call (.drain (some task) snapshot stats.attempt),
        [.started call.id task]) := by
    simp [WorkQueue.machine, WorkQueue.start, top_call hcalls hthread, hframe]
  exact ⟨_, _, Machine.Run.single hstart, rfl, hm.advance hcalls hthread hstack hrest _⟩

/-- Whether the task throws makes no difference to the worker. -/
theorem Mirrors.finish (hm : Mirrors w q) {task : TaskId} {snapshot : List TaskId}
    {stack : List Frame} (hstack : w.stack = .drain (some task) snapshot :: stack) :
    Answers q [.executed task] { w with stack := .drain none snapshot :: stack } := by
  obtain ⟨call, calls, stats, hcalls, hthread, hframe, hrest⟩ := hm.top hstack
  have hfinish : (WorkQueue.machine Caller).step q (.finish .sta false) =
      some (q.advance .sta call (.drain none snapshot (stats.caught false)),
        [.ended call.id task false]) := by
    simp [WorkQueue.machine, WorkQueue.finish, top_call hcalls hthread, hframe]
  exact ⟨_, _, Machine.Run.single hfinish, rfl, hm.advance hcalls hthread hstack hrest _⟩

theorem Mirrors.leave (hm : Mirrors w q) {stack : List Frame}
    (hstack : w.stack = .drain none [] :: stack) : Answers q [] { w with stack := stack } := by
  obtain ⟨call, calls, stats, hcalls, hthread, hframe, hrest⟩ := hm.top hstack
  have hleave : (WorkQueue.machine Caller).step q (.leave .sta) =
      some (q.leave .sta, [.returned call.id stats]) := by
    simp [WorkQueue.machine, WorkQueue.leave, top_call hcalls hthread, hframe]
  have hnext : (q.leave .sta).calls = calls := by
    rw [WorkQueue.State.leave, top_sta hcalls hthread, hcalls]
    rfl
  refine ⟨_, _, Machine.Run.single hleave, rfl, hm.pop hstack rfl rfl ?_ ?_⟩
  · intro other hother
    rw [hnext] at hother
    rw [hcalls]
    exact List.mem_cons_of_mem _ hother
  · rw [hnext]
    exact hrest

theorem Mirrors.dropAll (hm : Mirrors w q) (hstack : w.stack = []) (stage : Stage) :
    Answers q (w.queue.map .destroyed) { w with stage := stage, queue := [] } := by
  have hdrop := run_dropAll (hm.mayCall_sta (by simp [hstack]))
  refine ⟨_, _, hdrop, ?_, rfl, hm.numbers, hm.threads, hm.calls, hm.nested, fun _ => hstack⟩
  rw [hm.queue, List.filterMap_map, List.map_map]
  exact congrFun List.filterMap_eq_map w.queue

/-- **Every step of the worker** is answered by steps of the queue. -/
theorem step_answered {a : Action} {os : List Obs} (hm : Mirrors w q)
    (hstep : machine.step w a = some (w', os)) : Answers q os w' := by
  have hretrieve : ∀ n, a = .retrieve n → ∀ frame ∈ w.stack, frame.pumps = true := by
    rintro n rfl
    exact retrieve_pumps hm.nested hstep
  cases step_cases hstep with
  | push => exact hm.push
  | drains n hstage hn => exact hm.drain (hretrieve n rfl) hstage _
  | handles n hstage hn =>
      exact .still ⟨hm.queue, hm.numbers, hm.threads, hm.calls, hretrieve n rfl,
        fun hleft => absurd hstage hleft⟩
  | quits n hstage hn hstack => exact .still (hm.of_same rfl rfl rfl (fun _ => .inr hstack))
  | starts task snapshot stack hstack => exact hm.start hstack
  | finishes task snapshot stack hstack => exact hm.finish hstack
  | drained stack hstack => exact hm.leave hstack
  | handled stack hstack =>
      have hcalls := hm.calls
      rw [hstack] at hcalls
      exact .still (hm.pop hstack rfl rfl (fun _ hcall => hcall) hcalls)
  | drops hstage => exact hm.dropAll (hm.left (by rw [hstage]; decide)) _
  | loaded | noWindow | posted | refused | notified | stopped =>
      exact .still (hm.of_same rfl rfl rfl .inl)
  | clears hstage =>
      exact .still (hm.of_same rfl rfl rfl (fun _ => .inl (by rw [hstage]; decide)))
  | exits hstage =>
      exact .still (hm.of_same rfl rfl rfl (fun _ => .inl (by rw [hstage]; decide)))

end

/-- **The queue inside the worker**: whatever the worker and its callers do,
the queue of `work_queue.cpp` does it with its tasks, under some interleaving
of its own callers. -/
theorem queue_of_worker {h : List Obs} {w : Worker}
    (hrun : machine.Run Machine.always {} h w) :
    ∃ h' q, (WorkQueue.machine Caller).Run Machine.always {} h' q ∧ Agree h w h' q := by
  refine hrun.simulated (fun h w h' q => Agree h w h' q) ?_ ?_
  · exact ⟨rfl, rfl, rfl, by simp, rfl, by simp, fun _ => rfl⟩
  · intro h w a os w' h' q hagree _ hstep
    obtain ⟨hevents, hm⟩ := hagree
    obtain ⟨os', q', hanswer, hsame, hm'⟩ := step_answered hm hstep
    refine ⟨os', q', hanswer, ?_, hm'⟩
    rw [List.filterMap_append, List.map_append, hevents, hsame]

end StaWorker
