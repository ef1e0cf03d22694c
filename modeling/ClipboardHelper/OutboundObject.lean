import ClipboardHelper.Library.Ledger

/-!
# The outbound data object of the Windows helper

When the parent announces files, `HandleAnnounceDelayed` makes a data object,
puts it on the clipboard and keeps one reference to it in
`outbound_data_object_`.  Three threads pass that reference around: the pipe
thread publishes a new object and gives up the one before it, the STA thread
gives it up in `OnClipboardChanged` when another application has taken the
clipboard, and the shutdown thread gives it up in `ReleaseStaBoundResources`.
The pointer is read and written under `file_paths_mu_`; what a thread does
with what it has read comes later, some of it as a work item on the STA
thread.

Each stretch of code under the lock, each work item and each `Release` is an
action, so that every interleaving is a run; the STA thread does one thing at
a time.  Objects are numbered as they are made.

`OnClipboardChanged` reads the pointer, asks OLE, and then clears the pointer
only if it is still the same, but releases the object either way.
**`outbound_released_once`**: the references balance in every run in which
the pointer is still the same and the STA thread does not exit while a work
item of the pipe thread is queued.  `shutdown_races_change` is a run without
the former: shutdown takes the object in between, and it is released twice.
-/

namespace OutboundObject

open Library

/-! ## State -/

/-- The identity of an `IDataObject` that the helper made. -/
abbrev DataObject := Nat

/-- A work item that the pipe thread runs on the STA thread: `OleSetClipboard`
with the swap of `outbound_data_object_`, or a `Release`. -/
inductive Item
  | publish (obj : DataObject)
  | release (obj : DataObject)
deriving DecidableEq, Repr

/-- The object whose reference an item carries. -/
def Item.object : Item → DataObject
  | .publish obj => obj
  | .release obj => obj

/-- The pipe thread: it is not announcing files, it is about to push a work
item, or it waits for one. -/
inductive PipeThread
  | idle
  | calling (item : Item)
  | queued (item : Item)
deriving DecidableEq, Repr

/-- The STA thread: between calls, inside `OnClipboardChanged` (it has read
the pointer, it has learned that the object is not current any more, it has
cleared the pointer), or gone. -/
inductive StaThread
  | free
  | testing (obj : DataObject)
  | lost (obj : DataObject)
  | releasing (obj : DataObject)
  | gone
deriving DecidableEq, Repr

/-- The shutdown thread inside `ReleaseStaBoundResources`; `broken` is after
`broken_promise`. -/
inductive ShutdownThread
  | idle
  | calling (obj : DataObject)
  | queued (obj : DataObject)
  | broken (obj : DataObject)
deriving DecidableEq, Repr

structure Dispatcher where
  outboundDataObject : Option DataObject := none
  pipe : PipeThread := .idle
  sta : StaThread := .free
  shutdown : ShutdownThread := .idle
  nextObject : DataObject := 0
deriving DecidableEq, Repr

inductive Obs
  | created (obj : DataObject)
  | released (obj : DataObject)
deriving DecidableEq, Repr

/-! ## Steps -/

/-- The work item of the pipe thread, on the STA thread; `ok` is whether
`OleSetClipboard` succeeds.  What the pipe thread does next is release the
object before or, if OLE did not take it, the new one. -/
def runItem (d : Dispatcher) (ok : Bool) : Item → Dispatcher × List Obs
  | .publish obj =>
    if ok then
      match d.outboundDataObject with
      | some previous =>
        ({ d with outboundDataObject := some obj, pipe := .calling (.release previous) }, [])
      | none => ({ d with outboundDataObject := some obj, pipe := .idle }, [])
    else ({ d with pipe := .calling (.release obj) }, [])
  | .release obj => ({ d with pipe := .idle }, [.released obj])

/-- The STA thread exits and its queue is dropped: an exception leaves
`HandleAnnounceDelayed`, while `ReleaseStaBoundResources` catches it. -/
def staExit (d : Dispatcher) : Dispatcher :=
  { d with
    sta := .gone
    pipe := match d.pipe with
      | .queued _ => .idle
      | other => other
    shutdown := match d.shutdown with
      | .queued obj => .broken obj
      | other => other }

inductive Action
  /-- Pipe thread: `CreateVirtualClipboardDataObject`. -/
  | announce (created : Bool)
  /-- Pipe thread: `RunSync` pushes its work item. -/
  | submit
  /-- STA thread: the work item of the pipe thread. -/
  | runItem (ok : Bool)
  /-- STA thread: `OnClipboardChanged` reads the pointer, -/
  | clipboardUpdate
  /-- asks `OleIsCurrentClipboard`, -/
  | ask (current : Bool)
  /-- clears the pointer if it is still the same, -/
  | clear
  /-- and releases the object. -/
  | release
  /-- Shutdown thread: `ReleaseStaBoundResources` takes the pointer, -/
  | take
  /-- `RunSync` pushes the release, -/
  | shutdownSubmit
  /-- the STA thread runs it, -/
  | shutdownRun
  /-- or the promise was broken and the release is made here. -/
  | shutdownLocal
  | staExit
  /-- `~Dispatcher`, when all threads are done. -/
  | destroy
deriving DecidableEq, Repr

/-- **The dispatcher's outbound object**, under every interleaving of its
threads. -/
def machine : Machine Dispatcher Action Obs where
  step d
    | .announce created =>
      if d.pipe = .idle then
        if created then
          some ({ d with
              pipe := .calling (.publish d.nextObject), nextObject := d.nextObject + 1 },
            [.created d.nextObject])
        else some (d, [])
      else none
    | .submit =>
      match d.pipe with
      | .calling item => some ({ d with pipe := .queued item }, [])
      | _ => none
    | .runItem ok =>
      match d.pipe, d.sta with
      | .queued item, .free => some (runItem d ok item)
      | _, _ => none
    | .clipboardUpdate =>
      match d.sta, d.outboundDataObject with
      | .free, some obj => some ({ d with sta := .testing obj }, [])
      | .free, none => some (d, [])
      | _, _ => none
    | .ask current =>
      match d.sta with
      | .testing obj => some ({ d with sta := if current then .free else .lost obj }, [])
      | _ => none
    | .clear =>
      match d.sta with
      | .lost obj =>
        some ({ d with
            sta := .releasing obj
            outboundDataObject :=
              if d.outboundDataObject = some obj then none else d.outboundDataObject }, [])
      | _ => none
    | .release =>
      match d.sta with
      | .releasing obj => some ({ d with sta := .free }, [.released obj])
      | _ => none
    | .take =>
      match d.shutdown, d.outboundDataObject with
      | .idle, some obj =>
        some ({ d with shutdown := .calling obj, outboundDataObject := none }, [])
      | .idle, none => some (d, [])
      | _, _ => none
    | .shutdownSubmit =>
      match d.shutdown with
      | .calling obj => some ({ d with shutdown := .queued obj }, [])
      | _ => none
    | .shutdownRun =>
      match d.shutdown, d.sta with
      | .queued obj, .free => some ({ d with shutdown := .idle }, [.released obj])
      | _, _ => none
    | .shutdownLocal =>
      match d.shutdown with
      | .broken obj => some ({ d with shutdown := .idle }, [.released obj])
      | _ => none
    | .staExit => if d.sta = .free then some (staExit d, []) else none
    | .destroy =>
      if d.pipe = .idle ∧ d.sta = .gone ∧ d.shutdown = .idle then
        some ({ d with outboundDataObject := none },
          d.outboundDataObject.toList.map .released)
      else none

/-! ## What a step can do -/

/-- One rule for each way a step goes on. -/
inductive Step (d : Dispatcher) : Action → List Obs → Dispatcher → Prop
  | announced (hpipe : d.pipe = .idle) :
      Step d (.announce true) [.created d.nextObject]
        { d with pipe := .calling (.publish d.nextObject), nextObject := d.nextObject + 1 }
  | quiet (a : Action) : Step d a [] d
  | submitted (item : Item) (hpipe : d.pipe = .calling item) :
      Step d .submit [] { d with pipe := .queued item }
  | published (obj : DataObject) (hpipe : d.pipe = .queued (.publish obj))
      (hnone : d.outboundDataObject = none) :
      Step d (.runItem true) [] { d with outboundDataObject := some obj, pipe := .idle }
  | replaced (obj previous : DataObject) (hpipe : d.pipe = .queued (.publish obj))
      (hprevious : d.outboundDataObject = some previous) :
      Step d (.runItem true) []
        { d with outboundDataObject := some obj, pipe := .calling (.release previous) }
  | refused (obj : DataObject) (hpipe : d.pipe = .queued (.publish obj)) :
      Step d (.runItem false) [] { d with pipe := .calling (.release obj) }
  | itemReleased (ok : Bool) (obj : DataObject) (hpipe : d.pipe = .queued (.release obj)) :
      Step d (.runItem ok) [.released obj] { d with pipe := .idle }
  | read (obj : DataObject) (hsta : d.sta = .free) :
      Step d .clipboardUpdate [] { d with sta := .testing obj }
  | asked (current : Bool) (obj : DataObject) (hsta : d.sta = .testing obj) :
      Step d (.ask current) [] { d with sta := if current then .free else .lost obj }
  | cleared (obj : DataObject) (hsta : d.sta = .lost obj) :
      Step d .clear []
        { d with
          sta := .releasing obj
          outboundDataObject :=
            if d.outboundDataObject = some obj then none else d.outboundDataObject }
  | released (obj : DataObject) (hsta : d.sta = .releasing obj) :
      Step d .release [.released obj] { d with sta := .free }
  | taken (obj : DataObject) (hshutdown : d.shutdown = .idle)
      (hobj : d.outboundDataObject = some obj) :
      Step d .take [] { d with shutdown := .calling obj, outboundDataObject := none }
  | shutdownSubmitted (obj : DataObject) (hshutdown : d.shutdown = .calling obj) :
      Step d .shutdownSubmit [] { d with shutdown := .queued obj }
  | shutdownReleased (obj : DataObject) (hshutdown : d.shutdown = .queued obj) :
      Step d .shutdownRun [.released obj] { d with shutdown := .idle }
  | shutdownReleasedHere (obj : DataObject) (hshutdown : d.shutdown = .broken obj) :
      Step d .shutdownLocal [.released obj] { d with shutdown := .idle }
  | exited (hsta : d.sta = .free) : Step d .staExit [] (staExit d)
  | destroyed (hpipe : d.pipe = .idle) (hshutdown : d.shutdown = .idle) :
      Step d .destroy (d.outboundDataObject.toList.map .released)
        { d with outboundDataObject := none }

theorem step_cases {d d' : Dispatcher} {a : Action} {os : List Obs}
    (h : machine.step d a = some (d', os)) : Step d a os d' := by
  cases a with
  | announce created =>
      simp only [machine] at h
      split at h
      · rename_i hpipe
        cases created with
        | true =>
            cases h
            exact .announced hpipe
        | false =>
            cases h
            exact .quiet _
      · cases h
  | submit =>
      simp only [machine] at h
      split at h
      · rename_i item hpipe
        cases h
        exact .submitted item hpipe
      · cases h
  | runItem ok =>
      simp only [machine] at h
      split at h
      · rename_i item hpipe _
        cases item with
        | publish obj =>
            cases ok with
            | true =>
                simp only [runItem, if_true] at h
                split at h
                · rename_i previous hprevious
                  cases h
                  exact .replaced obj previous hpipe hprevious
                · rename_i hnone
                  cases h
                  exact .published obj hpipe hnone
            | false =>
                cases h
                exact .refused obj hpipe
        | release obj =>
            cases h
            exact .itemReleased ok obj hpipe
      · cases h
  | clipboardUpdate =>
      simp only [machine] at h
      split at h
      · rename_i obj hsta _
        cases h
        exact .read obj hsta
      · cases h
        exact .quiet _
      · cases h
  | ask current =>
      simp only [machine] at h
      split at h
      · rename_i obj hsta
        cases h
        exact .asked current obj hsta
      · cases h
  | clear =>
      simp only [machine] at h
      split at h
      · rename_i obj hsta
        cases h
        exact .cleared obj hsta
      · cases h
  | release =>
      simp only [machine] at h
      split at h
      · rename_i obj hsta
        cases h
        exact .released obj hsta
      · cases h
  | take =>
      simp only [machine] at h
      split at h
      · rename_i obj hshutdown hobj
        cases h
        exact .taken obj hshutdown hobj
      · cases h
        exact .quiet _
      · cases h
  | shutdownSubmit =>
      simp only [machine] at h
      split at h
      · rename_i obj hshutdown
        cases h
        exact .shutdownSubmitted obj hshutdown
      · cases h
  | shutdownRun =>
      simp only [machine] at h
      split at h
      · rename_i obj hshutdown _
        cases h
        exact .shutdownReleased obj hshutdown
      · cases h
  | shutdownLocal =>
      simp only [machine] at h
      split at h
      · rename_i obj hshutdown
        cases h
        exact .shutdownReleasedHere obj hshutdown
      · cases h
  | staExit =>
      simp only [machine] at h
      split at h
      · rename_i hsta
        cases h
        exact .exited hsta
      · cases h
  | destroy =>
      simp only [machine] at h
      split at h
      · rename_i hdone
        cases h
        exact .destroyed hdone.1 hdone.2.2
      · cases h

/-! ## The ledger of references -/

def PipeThread.held : PipeThread → Multiset DataObject
  | .idle => 0
  | .calling item | .queued item => {item.object}

def StaThread.held : StaThread → Multiset DataObject
  | .releasing obj => {obj}
  | _ => 0

def ShutdownThread.held : ShutdownThread → Multiset DataObject
  | .idle => 0
  | .calling obj | .queued obj | .broken obj => {obj}

/-- The helper's own references: one for each object it makes, held by
`outbound_data_object_` or by the thread that is to release it. -/
def references : Ledger Dispatcher Obs DataObject where
  enters
    | .created obj => {obj}
    | .released _ => 0
  leaves
    | .created _ => 0
    | .released obj => {obj}
  held d := (d.outboundDataObject.toList : Multiset DataObject) + d.pipe.held + d.sta.held +
    d.shutdown.held

/-- **In order**: when `OnClipboardChanged` has found that its object is not
current any more, the object is still in `outbound_data_object_`; and the STA
thread does not exit while a work item of the pipe thread is queued. -/
def InOrder (d : Dispatcher) : Action → Prop
  | .clear => ∀ obj, d.sta = .lost obj → d.outboundDataObject = some obj
  | .staExit => ∀ item, d.pipe ≠ .queued item
  | _ => True

/-- The shutdown thread keeps its object when the STA thread exits. -/
theorem held_staExit {d : Dispatcher} (hsta : d.sta = .free)
    (hpipe : ∀ item, d.pipe ≠ .queued item) :
    references.held (staExit d) = references.held d := by
  have hkeep : (staExit d).pipe = d.pipe := by
    unfold staExit
    split
    · rename_i item hqueued
      exact absurd hqueued (hpipe item)
    · rfl
  have hshutdown : (staExit d).shutdown.held = d.shutdown.held := by
    simp only [staExit]
    cases d.shutdown with
    | idle | calling | queued | broken => rfl
  have hout : (staExit d).outboundDataObject = d.outboundDataObject := rfl
  have hgone : (staExit d).sta.held = d.sta.held := by
    rw [hsta]
    rfl
  simp only [references, hkeep, hshutdown, hout, hgone]

/-- **References are handed on**: no step of a run in order makes or loses
one. -/
theorem step_moves {d d' : Dispatcher} {a : Action} {os : List Obs} (horder : InOrder d a)
    (h : machine.step d a = some (d', os)) : references.Moves d os d' := by
  cases step_cases h with
  | announced hpipe =>
      simp [-Multiset.singleton_add, Ledger.Moves, references, hpipe, PipeThread.held, Item.object]
      abel
  | quiet => simp [Ledger.Moves]
  | submitted item hpipe =>
      simp [Ledger.Moves, references, hpipe, PipeThread.held]
  | published obj hpipe hnone =>
      simp [Ledger.Moves, references, hpipe, hnone, PipeThread.held, Item.object]
  | replaced obj previous hpipe hprevious =>
      simp [-Multiset.singleton_add, Ledger.Moves, references, hpipe, hprevious,
        PipeThread.held, Item.object]
      abel
  | refused obj hpipe =>
      simp [Ledger.Moves, references, hpipe, PipeThread.held, Item.object]
  | itemReleased ok obj hpipe =>
      simp [-Multiset.singleton_add, Ledger.Moves, references, hpipe, PipeThread.held, Item.object]
      abel
  | read obj hsta =>
      simp [Ledger.Moves, references, hsta, StaThread.held]
  | asked current obj hsta =>
      cases current <;> simp [Ledger.Moves, references, hsta, StaThread.held]
  | cleared obj hsta =>
      have hsame := horder obj hsta
      simp [-Multiset.singleton_add, Ledger.Moves, references, hsta, hsame, StaThread.held]
      abel
  | released obj hsta =>
      simp [-Multiset.singleton_add, Ledger.Moves, references, hsta, StaThread.held]
      abel
  | taken obj hshutdown hobj =>
      simp [-Multiset.singleton_add, Ledger.Moves, references, hshutdown, hobj, ShutdownThread.held]
      abel
  | shutdownSubmitted obj hshutdown =>
      simp [Ledger.Moves, references, hshutdown, ShutdownThread.held]
  | shutdownReleased obj hshutdown =>
      simp [-Multiset.singleton_add, Ledger.Moves, references, hshutdown, ShutdownThread.held]
      abel
  | shutdownReleasedHere obj hshutdown =>
      simp [-Multiset.singleton_add, Ledger.Moves, references, hshutdown, ShutdownThread.held]
      abel
  | exited hsta =>
      rw [Ledger.Moves, Ledger.left_nil, Ledger.entered_nil, zero_add, add_zero]
      exact held_staExit hsta horder
  | destroyed hpipe hshutdown =>
      cases hobj : d.outboundDataObject with
      | none => simp [Ledger.Moves, references, hobj]
      | some obj =>
          simp [-Multiset.singleton_add, Ledger.Moves, references, hobj]
          abel

/-! ## Released exactly once -/

/-- How often the helper releases its reference to an object. -/
def releases (h : List Obs) (obj : DataObject) : Nat := h.count (.released obj)

theorem count_left (h : List Obs) (obj : DataObject) :
    (references.left h).count obj = releases h obj := by
  refine references.count_left_of_cons (fun h => releases h obj) rfl ?_ h
  intro o h
  cases o with
  | created other => simp [references, releases]
  | released other =>
      by_cases heq : obj = other
      · simp [references, releases, heq]
        omega
      · simp [references, releases, heq, Ne.symm heq]

theorem mem_entered {h : List Obs} {obj : DataObject} :
    obj ∈ references.entered h ↔ .created obj ∈ h := by
  rw [Ledger.mem_entered]
  constructor
  · rintro ⟨o, ho, hobj⟩
    cases o with
    | created other =>
        rw [Multiset.mem_singleton.mp hobj]
        exact ho
    | released other => simp [references] at hobj
  · intro hmem
    exact ⟨_, hmem, Multiset.mem_singleton_self obj⟩

/-- Objects are numbered as they are made. -/
theorem step_numbered {h os : List Obs} {d d' : Dispatcher} {a : Action}
    (hi : references.entered h = Multiset.range d.nextObject)
    (hstep : machine.step d a = some (d', os)) :
    references.entered (h ++ os) = Multiset.range d'.nextObject := by
  cases step_cases hstep with
  | announced hpipe =>
      rw [Ledger.entered_append, hi, Multiset.range_succ, Ledger.entered_cons,
        Ledger.entered_nil, add_zero, ← Multiset.singleton_add, add_comm]
      rfl
  | destroyed hpipe hshutdown =>
      rw [Ledger.entered_append, hi]
      cases d.outboundDataObject with
      | none => simp
      | some obj => simp [references]
  | itemReleased | released | shutdownReleased | shutdownReleasedHere =>
      rw [Ledger.entered_append, hi]
      simp [references]
  | quiet | submitted | published | replaced | refused | read | asked | cleared | taken |
      shutdownSubmitted | exited =>
      rw [List.append_nil]
      exact hi

theorem balanced_initial : references.Balanced [] ({} : Dispatcher) := rfl

/-- **The books of a run in order**: the references balance, and there is one
for each object. -/
theorem run_balanced {h : List Obs} {d : Dispatcher} (hrun : machine.Run InOrder {} h d) :
    references.Balanced h d ∧ references.entered h = Multiset.range d.nextObject := by
  refine hrun.history_invariant
    (fun h d => references.Balanced h d ∧ references.entered h = Multiset.range d.nextObject)
    ⟨balanced_initial, rfl⟩ ?_
  intro h d a d' os hi horder hstep
  exact ⟨hi.1.step (step_moves horder hstep), step_numbered hi.2 hstep⟩

/-- No thread is in the middle of anything. -/
def AtRest (d : Dispatcher) : Prop :=
  d.pipe = .idle ∧ (d.sta = .free ∨ d.sta = .gone) ∧ d.shutdown = .idle

/-- At rest only `outbound_data_object_` holds a reference. -/
theorem held_of_atRest {d : Dispatcher} (hrest : AtRest d) :
    references.held d = (d.outboundDataObject.toList : Multiset DataObject) := by
  obtain ⟨hpipe, hsta, hshutdown⟩ := hrest
  have hnothing : d.sta.held = 0 := by
    rcases hsta with hsta | hsta <;> rw [hsta] <;> rfl
  simp [references, hpipe, hshutdown, hnothing, PipeThread.held, ShutdownThread.held]

/-- **The outbound object is released once.**  In every run in order: nothing
is released twice, nothing that is still held has been released, and when no
thread is in the middle of anything, every object made has been released
unless it is in `outbound_data_object_`. -/
theorem outbound_released_once {h : List Obs} {d : Dispatcher}
    (hrun : machine.Run InOrder {} h d) :
    (∀ obj, releases h obj ≤ 1) ∧
      (∀ obj ∈ references.held d, releases h obj = 0) ∧
      (AtRest d → ∀ obj, .created obj ∈ h →
        releases h obj = if d.outboundDataObject = some obj then 0 else 1) := by
  obtain ⟨hbalanced, hnumbered⟩ := run_balanced hrun
  have honce : (references.entered h).Nodup := by
    rw [hnumbered]
    exact Multiset.nodup_range _
  have hheld : ∀ obj ∈ references.held d, releases h obj = 0 := by
    intro obj hmem
    have hle := Multiset.nodup_iff_count_le_one.mp honce obj
    have hpos := Multiset.one_le_count_iff_mem.mpr hmem
    rw [← hbalanced, Multiset.count_add, count_left] at hle
    omega
  refine ⟨?_, hheld, ?_⟩
  · intro obj
    rw [← count_left]
    exact hbalanced.count_le_one honce
  · intro hrest obj hcreated
    have hout := held_of_atRest hrest
    by_cases hsame : d.outboundDataObject = some obj
    · rw [if_pos hsame]
      exact hheld obj (by simp [hout, hsame])
    · rw [if_neg hsame, ← count_left]
      refine hbalanced.count_eq_one honce (mem_entered.mpr hcreated) ?_
      rw [hout]
      intro hmem
      exact hsame (by simpa using hmem)

/-- Decides `InOrder`. -/
def testInOrder (d : Dispatcher) : Action → Bool
  | .clear =>
    match d.sta with
    | .lost obj => d.outboundDataObject == some obj
    | _ => true
  | .staExit =>
    match d.pipe with
    | .queued _ => false
    | _ => true
  | _ => true

theorem inOrder_of_test (d : Dispatcher) (a : Action) (h : testInOrder d a = true) :
    InOrder d a := by
  cases a with
  | clear =>
      intro obj hsta
      simpa [testInOrder, hsta] using h
  | staExit =>
      intro item hpipe
      simp [testInOrder, hpipe] at h
  | _ => trivial

/-- Two announcements, a foreign copy, and shutdown. -/
def publishReplaceLose : List Action :=
  [.announce true, .submit, .runItem true, .announce true, .submit, .runItem true, .submit,
    .runItem true, .clipboardUpdate, .ask false, .clear, .release, .take]

theorem outbound_released_once_replaced :
    ∃ h d, machine.Run InOrder {} h d ∧
      h = [.created 0, .created 1, .released 0, .released 1] ∧
      (∀ obj, releases h obj ≤ 1) ∧ (∀ obj, .created obj ∈ h → releases h obj = 1) := by
  have hexec : (machine.execIf testInOrder {} publishReplaceLose).map
      (fun r => (r.2, r.1.pipe, r.1.sta, r.1.shutdown, r.1.outboundDataObject)) =
      some ([.created 0, .created 1, .released 0, .released 1], .idle, .free, .idle, none) := by
    decide
  obtain ⟨h, d, hrun, hobs⟩ := Machine.Run.of_execIf_map inOrder_of_test hexec
  obtain ⟨rfl, hpipe, hsta, hshutdown, hnone⟩ := by simpa using hobs
  obtain ⟨honce, -, hall⟩ := outbound_released_once hrun
  refine ⟨_, d, hrun, rfl, honce, ?_⟩
  intro obj hcreated
  rw [hall ⟨hpipe, .inl hsta, hshutdown⟩ obj hcreated, hnone]
  rfl

/-- **Shutdown races a clipboard change**: `OnClipboardChanged` has read the
pointer when `ReleaseStaBoundResources` takes it, and both release the
object. -/
theorem shutdown_races_change :
    ∃ h d, machine.Run Machine.always {} h d ∧ h.count (.created 0) = 1 ∧ releases h 0 = 2 := by
  have hexec : (machine.exec {} [.announce true, .submit, .runItem true, .clipboardUpdate,
      .take, .shutdownSubmit, .ask false, .clear, .release, .shutdownRun]).map (fun r => r.2) =
      some [.created 0, .released 0, .released 0] := by decide
  obtain ⟨h, d, hrun, rfl⟩ := Machine.Run.of_exec_map hexec
  exact ⟨_, d, hrun, by decide, by decide⟩

end OutboundObject
