import ClipboardHelper.Library.Rest
import ClipboardHelper.RelaySteps

/-!
# The helper comes to rest between the clipboard and the parent

By themselves the threads take finitely many steps: each of them uses up
something of what is posted, pushed or under way (`uses_up`).
-/

namespace ClipboardRelay

open Library DispatchCodec

variable {sys : Platform} {before : Option ClipboardSnapshot} {event : Option Bool}
variable {h : List Obs} {s s' : Relay} {a : Action} {os : List Obs}

/-! ## Calls -/

/-- Every render on the stack is a call of the render state. -/
structure Called (s : Relay) : Prop where
  unused : ∀ i, s.render.nextCall ≤ i → s.render.calls i = none
  called : ∀ id asker format p, .rendering id asker format p ∈ s.stack →
    ∃ call, s.render.calls id = some call
  formats : s.clipboard.content.formats.length ≤ 2

theorem called_initial (event : Option Bool) (before : Option ClipboardSnapshot) :
    Called (initial event before) :=
  ⟨fun _ _ => rfl, nofun, Nat.zero_le _⟩

theorem Called.lt (hc : Called s) {id : Nat} {asker : Asker} {format : Nat} {p : Bool}
    (hmem : .rendering id asker format p ∈ s.stack) : id < s.render.nextCall := by
  obtain ⟨call, hcall⟩ := hc.called id asker format p hmem
  by_contra hge
  rw [hc.unused id (not_lt.mp hge)] at hcall
  cases hcall

/-- Whatever is on the stack was there before, but for its flags. -/
def Inherits (stack stack' : List Frame) : Prop :=
  ∀ id asker format p, .rendering id asker format p ∈ stack' →
    ∃ p', .rendering id asker format p' ∈ stack

theorem Called.keep (hc : Called s) (hstack : Inherits s.stack s'.stack)
    (hcalls : s'.render.calls = s.render.calls) (hnext : s'.render.nextCall = s.render.nextCall)
    (hformats : s'.clipboard.content.formats.length ≤ 2) : Called s' := by
  refine ⟨?_, ?_, hformats⟩
  · rw [hcalls, hnext]
    exact hc.unused
  · intro id asker format p hmem
    rw [hcalls]
    obtain ⟨p', hmem⟩ := hstack id asker format p hmem
    exact hc.called id asker format p' hmem

theorem Called.begun (hc : Called s) (hr : Begun s.render s'.render)
    (hstack : ∀ id asker format p, .rendering id asker format p ∈ s'.stack →
      id = s.render.nextCall ∨ ∃ p', .rendering id asker format p' ∈ s.stack)
    (hformats : s'.clipboard.content.formats.length ≤ 2) : Called s' := by
  obtain ⟨call, hcalls, -⟩ := hr.calls
  refine ⟨?_, ?_, hformats⟩
  · intro i hi
    rw [hr.nextCall] at hi
    rw [hcalls, Function.update_of_ne (by omega), hc.unused i (by omega)]
  · intro id asker format p hmem
    by_cases hid : id = s.render.nextCall
    · exact ⟨call, by rw [hcalls, hid, Function.update_self]⟩
    · rw [hcalls, Function.update_of_ne hid]
      obtain ⟨p', hmem⟩ := (hstack id asker format p hmem).resolve_left hid
      exact hc.called id asker format p' hmem

theorem Called.moved (hc : Called s) {id : Nat} {call : DelayedRender.Call}
    {progress : DelayedRender.Progress} (hr : Moved s.render s'.render id call progress)
    (hstack : Inherits s.stack s'.stack)
    (hformats : s'.clipboard.content.formats.length ≤ 2) : Called s' := by
  refine ⟨?_, ?_, hformats⟩
  · intro i hi
    rw [hr.nextCall] at hi
    have hne : i ≠ id := by
      rintro rfl
      have hbefore := hr.before
      rw [hc.unused i hi] at hbefore
      cases hbefore
    rw [hr.calls, Function.update_of_ne hne, hc.unused i hi]
  · intro i asker format p hmem
    obtain ⟨p', hmem⟩ := hstack i asker format p hmem
    by_cases hid : i = id
    · exact ⟨_, by rw [hr.calls, hid, Function.update_self]⟩
    · rw [hr.calls, Function.update_of_ne hid]
      exact hc.called i asker format p' hmem

theorem fill_formats (content : Content) (format : Nat)
    (snapshot : DispatchCodec.ClipboardSnapshot) :
    (content.fill format snapshot).formats = content.formats := by
  cases content with
  | announced formats =>
      rw [Content.fill, Content.formats, Content.formats, List.map_map]
      refine List.map_congr_left fun f _ => ?_
      simp only [Function.comp_apply]
      split <;> rfl
  | foreign | written | object => rfl

/-! ## What is left to do -/

/-- How much a call of the render state has before it. -/
def callEffort (r : DelayedRender.Render) (id : Nat) : Nat :=
  (r.calls id).elim 0 fun call => effortOf call.progress

def Frame.effort (r : DelayedRender.Render) : Frame → Nat
  | .asking => 21
  | .owning => 20
  | .opening _ => 19
  | .reading _ formats => 4 + 7 * formats.length
  | .found .. => 3
  | .sending .. => 2
  | .rendering id _ _ p => 1 + callEffort r id + p.toNat
  | .fetching .. => 2

def stackEffort (r : DelayedRender.Render) (stack : List Frame) : Nat :=
  (stack.map (Frame.effort r)).sum

def Item.effort : Item → Nat
  | .release => 3
  | _ => 40

def Pipe.effort : Pipe → Nat
  | .reading | .stopped => 0
  | .answering .. => 1
  | .waiting => 2
  | .calling item => item.effort + 3

theorem Item.effort_bounds (item : Item) : 3 ≤ item.effort ∧ item.effort ≤ 40 := by
  cases item <;> exact ⟨by simp [Item.effort], by simp [Item.effort]⟩

theorem Item.effort_of_ne {item : Item} (h : item ≠ .release) : item.effort = 40 := by
  cases item with
  | release => exact absurd rfl h
  | _ => rfl

/-- A bound on the steps that the threads take by themselves. -/
def effort (s : Relay) : Nat :=
  43 * s.inbox.length + s.pipe.effort + (s.job.elim 0 Item.effort) + 23 * s.updates +
    7 * s.pastes.length + 4 * s.reads.length + stackEffort s.render s.stack

theorem stackEffort_cons (r : DelayedRender.Render) (f : Frame) (rest : List Frame) :
    stackEffort r (f :: rest) = f.effort r + stackEffort r rest := by
  rw [stackEffort, List.map_cons, List.sum_cons, stackEffort]

theorem stackEffort_pumped (r : DelayedRender.Render) (stack : List Frame) :
    stackEffort r (pumped stack) ≤ stackEffort r stack + 1 := by
  cases stack with
  | nil => exact Nat.zero_le _
  | cons f rest =>
      cases f with
      | rendering id asker format p =>
          rw [pumped, stackEffort_cons, stackEffort_cons, Frame.effort, Frame.effort]
          have hflag : true.toNat = 1 := rfl
          omega
      | asking | owning | opening | reading | found | sending | fetching => exact Nat.le_succ _

theorem stackEffort_deliverChunk (r : DelayedRender.Render) (key : Bytes) (stack : List Frame) :
    stackEffort r (deliverChunk key stack) = stackEffort r stack := by
  induction stack with
  | nil => rfl
  | cons f rest ih =>
      cases f with
      | fetching =>
          rw [deliverChunk]
          split
          · rfl
          · rw [stackEffort_cons, stackEffort_cons, ih]
      | asking | owning | opening | reading | found | sending | rendering =>
          rw [deliverChunk, stackEffort_cons, stackEffort_cons, ih]
          nofun

theorem stackEffort_cancelAll (r : DelayedRender.Render) (stack : List Frame) :
    stackEffort r (cancelAll stack) = stackEffort r stack := by
  rw [stackEffort, cancelAll, List.map_map, stackEffort]
  refine congrArg List.sum (List.map_congr_left fun f _ => ?_)
  cases f <;> rfl

theorem stackEffort_again (r : DelayedRender.Render) (content : Content) (format : Nat)
    (stack : List Frame) : stackEffort r (again content format stack) ≤ stackEffort r stack := by
  cases stack with
  | nil => exact le_rfl
  | cons f rest =>
      cases f with
      | reading =>
          rw [again]
          split
          · rw [stackEffort_cons, stackEffort_cons, Frame.effort, Frame.effort]
            omega
          · exact le_rfl
      | asking | owning | opening | found | sending | rendering | fetching => exact le_rfl

/-- A change of the render state that gives no call more to do. -/
theorem stackEffort_mono {r r' : DelayedRender.Render} {stack : List Frame}
    (h : ∀ id asker format p, .rendering id asker format p ∈ stack →
      callEffort r' id ≤ callEffort r id) : stackEffort r' stack ≤ stackEffort r stack := by
  refine List.sum_le_sum fun f hf => ?_
  cases f with
  | rendering id asker format p =>
      have hle := h id asker format p hf
      simp only [Frame.effort]
      omega
  | asking | owning | opening | reading | found | sending | fetching => exact le_rfl

theorem Moved.effort {r r' : DelayedRender.Render} {id : Nat} {call : DelayedRender.Call}
    {progress : DelayedRender.Progress} (hr : Moved r r' id call progress)
    (hless : effortOf progress < effortOf call.progress) :
    callEffort r' id < callEffort r id ∧ ∀ i, callEffort r' i ≤ callEffort r i := by
  have hbefore : callEffort r id = effortOf call.progress := by
    rw [callEffort, hr.before]
    rfl
  have hafter : callEffort r' id = effortOf progress := by
    rw [callEffort, hr.calls, Function.update_self]
    rfl
  have hlt : callEffort r' id < callEffort r id := by omega
  refine ⟨hlt, fun i => ?_⟩
  by_cases hid : i = id
  · rw [hid]
    exact hlt.le
  · rw [callEffort, hr.calls, Function.update_of_ne hid]
    rfl

theorem Provided.effort {r r' : DelayedRender.Render} (hr : Provided r r') (id : Nat) :
    callEffort r' id = callEffort r id := by
  rw [callEffort, hr.calls]
  rfl

/-- A call that begins takes nothing from those that there are. -/
theorem Begun.effort (hc : Called s) {r : DelayedRender.Render} (hr : Begun s.render r) :
    callEffort r s.render.nextCall ≤ 4 ∧ stackEffort r s.stack ≤ stackEffort s.render s.stack := by
  obtain ⟨call, hcalls, -⟩ := hr.calls
  constructor
  · rw [callEffort, hcalls, Function.update_self]
    cases hp : call.progress <;> simp [hp, effortOf]
  · refine stackEffort_mono fun id asker format p hmem => ?_
    have hlt := hc.lt hmem
    rw [callEffort, hcalls, Function.update_of_ne hlt.ne]
    rfl

/-! ## One step -/

theorem Inherits.refl (stack : List Frame) : Inherits stack stack :=
  fun _ _ _ p hmem => ⟨p, hmem⟩

/-- Calls that do not render take the place of the call on top. -/
theorem inherits_of_cons {stack calls rest : List Frame} {f : Frame} (hstack : stack = f :: rest)
    (hcalls : ∀ g ∈ calls, g.isRendering = false) : Inherits stack (calls ++ rest) := by
  intro id asker format p hmem
  rw [hstack]
  rcases List.mem_append.mp hmem with hmem | hmem
  · cases hcalls _ hmem
  · exact ⟨p, List.mem_cons_of_mem f hmem⟩

theorem inherits_pumped {stack calls : List Frame}
    (hcalls : ∀ g ∈ calls, g.isRendering = false) : Inherits stack (calls ++ pumped stack) := by
  intro id asker format p hmem
  rcases List.mem_append.mp hmem with hmem | hmem
  · cases hcalls _ hmem
  · cases stack with
    | nil => cases hmem
    | cons f rest =>
        cases f with
        | rendering id' asker' format' p' =>
            rcases List.mem_cons.mp hmem with heq | hmem
            · cases heq
              exact ⟨p', List.mem_cons_self⟩
            · exact ⟨p, List.mem_cons_of_mem _ hmem⟩
        | asking | owning | opening | reading | found | sending | fetching => exact ⟨p, hmem⟩

theorem inherits_deliverChunk (key : Bytes) (stack : List Frame) :
    Inherits stack (deliverChunk key stack) := by
  intro id asker format p hmem
  refine ⟨p, ?_⟩
  induction stack with
  | nil => cases hmem
  | cons f rest ih =>
      cases f with
      | fetching =>
          rw [deliverChunk] at hmem
          split at hmem
          · rcases List.mem_cons.mp hmem with heq | hmem
            · cases heq
            · exact List.mem_cons_of_mem _ hmem
          · rcases List.mem_cons.mp hmem with heq | hmem
            · cases heq
            · exact List.mem_cons_of_mem _ (ih hmem)
      | asking | owning | opening | reading | found | sending | rendering =>
          rcases List.mem_cons.mp hmem with heq | hmem
          · exact heq ▸ List.mem_cons_self
          · exact List.mem_cons_of_mem _ (ih hmem)

theorem inherits_cancelAll (f : Frame) (rest : List Frame) :
    Inherits (f :: rest) (.owning :: cancelAll rest) := by
  intro id asker format p hmem
  rcases List.mem_cons.mp hmem with heq | hmem
  · cases heq
  · obtain ⟨g, hg, heq⟩ := List.mem_map.mp hmem
    cases g with
    | fetching => cases heq
    | _ => exact ⟨p, List.mem_cons_of_mem f (heq ▸ hg)⟩

theorem inherits_again {f : Frame} (content : Content) (format : Nat) (rest : List Frame) :
    Inherits (f :: rest) (again content format rest) := by
  intro id asker format' p hmem
  refine ⟨p, List.mem_cons_of_mem f ?_⟩
  cases rest with
  | nil => cases hmem
  | cons g outer =>
      cases g with
      | reading =>
          rw [again] at hmem
          split at hmem
          · rcases List.mem_cons.mp hmem with heq | hmem
            · cases heq
            · exact List.mem_cons_of_mem _ hmem
          · exact hmem
      | asking | owning | opening | found | sending | rendering | fetching => exact hmem

theorem returned_content (c : Clipboard) (paste : Nat) :
    (c.returned paste).content = c.content := by
  unfold Clipboard.returned
  split <;> rfl

theorem returned_change (c : Clipboard) (paste : Nat) :
    (c.returned paste).change = c.change := by
  unfold Clipboard.returned
  split <;> rfl

theorem step_called (hc : Called s) (hstep : Step s a os s') : Called s' := by
  have hsame := Inherits.refl s.stack
  cases hstep with
  | continues _ _ hr | submits _ _ hr => exact hc.keep hsame hr.calls hr.nextCall hc.formats
  | refuses | stops | calls | replies | arrives | opened | closed | pasted | abandoned | wanted
  | notified => exact hc.keep hsame rfl rfl hc.formats
  | copied => exact hc.keep hsame rfl rfl (Nat.zero_le _)
  | delivers => exact hc.keep (inherits_deliverChunk _ _) rfl rfl hc.formats
  | itemDone | refused | fetchFails | posted =>
      exact hc.keep (inherits_pumped (List.forall_mem_nil _)) rfl rfl hc.formats
  | emptied | publishes =>
      exact hc.keep (inherits_pumped (List.forall_mem_nil _)) rfl rfl (Nat.zero_le _)
  | puts _ _ _ _ hformats =>
      exact hc.keep (inherits_pumped (List.forall_mem_nil _)) rfl rfl hformats
  | itemReads | serves | updates | fetches =>
      exact hc.keep (inherits_pumped (List.forall_mem_singleton.mpr rfl)) rfl rfl hc.formats
  | pasteReturns =>
      refine hc.keep (inherits_pumped (List.forall_mem_nil _)) rfl rfl ?_
      rw [returned_content]
      exact hc.formats
  | pasteBegins _ _ hr =>
      refine hc.begun hr (fun id asker format p hmem => ?_) hc.formats
      rcases List.mem_cons.mp hmem with heq | hmem
      · cases heq
        exact .inl rfl
      · exact .inr (inherits_pumped (List.forall_mem_nil _) id asker format p hmem)
  | current hstack | owned hstack | misses hstack | refusesGet hstack | unreadable hstack
  | readsGet hstack | sendsChange hstack | unsent hstack =>
      exact hc.keep (inherits_of_cons hstack (List.forall_mem_nil _)) rfl rfl hc.formats
  | @loses _ rest _ hstack =>
      refine hc.keep ?_ rfl rfl hc.formats
      rw [hstack]
      exact inherits_cancelAll _ rest
  | asks hstack | unowned hstack | opensOwn hstack | finds hstack | skips hstack | reads hstack =>
      exact hc.keep (inherits_of_cons hstack (List.forall_mem_singleton.mpr rfl)) rfl rfl hc.formats
  | @asksFor _ reader _ formats rest _ _ hstack hr =>
      refine hc.begun hr (fun id asker format p hmem => ?_) hc.formats
      rcases List.mem_cons.mp hmem with heq | hmem
      · cases heq
        exact .inl rfl
      · exact .inr (@inherits_of_cons _ [.reading reader formats] _ _ hstack
          (List.forall_mem_singleton.mpr rfl) id asker format p hmem)
  | requests _ hr | renderExpires _ hr => exact hc.moved hr hsame hc.formats
  | wakes _ hr _ _ _ hcontent =>
      refine hc.moved hr hsame ?_
      rcases hcontent with rfl | ⟨snap, rfl⟩
      · exact hc.formats
      · rw [fill_formats]
        exact hc.formats
  | rechecks hstack =>
      refine hc.keep (fun i asker format p hmem => ?_) rfl rfl hc.formats
      rw [hstack]
      rcases List.mem_cons.mp hmem with heq | hmem
      · cases heq
        exact ⟨true, List.mem_cons_self⟩
      · exact ⟨p, List.mem_cons_of_mem _ hmem⟩
  | rechecked hstack hr =>
      refine hc.moved hr (fun i asker format p hmem => ?_) hc.formats
      rw [hstack]
      rcases List.mem_cons.mp hmem with heq | hmem
      · cases heq
        exact ⟨true, List.mem_cons_self⟩
      · exact ⟨p, List.mem_cons_of_mem _ hmem⟩
  | leavesPaste hstack =>
      refine hc.keep (inherits_of_cons hstack (List.forall_mem_nil _)) rfl rfl ?_
      rw [returned_content]
      exact hc.formats
  | leavesReader hstack =>
      refine hc.keep ?_ rfl rfl hc.formats
      rw [hstack]
      exact inherits_again _ _ _
  | @fetched _ _ own _ hstack | @fetchExpires _ own _ _ hstack =>
      cases own <;>
        exact hc.keep (inherits_of_cons hstack (List.forall_mem_nil _)) rfl rfl hc.formats

/-! ## The effort of one step -/

/-- The pipe thread has done something with the message in front. -/
theorem taken_less {frame : Bytes} {rest : List Bytes} (hpipe : s.pipe = .reading)
    (hinbox : s.inbox = frame :: rest) (hjob : s'.job = s.job ∧ s'.pipe.effort ≤ 1 ∨
      ∃ item, s'.job = some item ∧ s'.pipe = .waiting)
    (hrest : s'.inbox = rest) (hupdates : s'.updates = s.updates) (hpastes : s'.pastes = s.pastes)
    (hreads : s'.reads = s.reads)
    (hstack : stackEffort s'.render s'.stack ≤ stackEffort s.render s.stack) :
    effort s' < effort s := by
  have hzero : s.pipe.effort = 0 := by rw [hpipe]; rfl
  have hlength : s.inbox.length = rest.length + 1 := by rw [hinbox]; rfl
  simp only [effort, hrest, hupdates, hpastes, hreads]
  rcases hjob with ⟨hjob, hle⟩ | ⟨item, hjob, hwaiting⟩
  · rw [hjob]
    omega
  · have hitem := item.effort_bounds
    have htwo : Pipe.effort .waiting = 2 := rfl
    rw [hjob, hwaiting]
    simp only [Option.elim_some]
    omega

/-- A work item is taken, and leaves at most one call. -/
theorem item_less {item : Item} {calls : List Frame} (hjob : s.job = some item)
    (hjob' : s'.job = none) (hinbox : s'.inbox = s.inbox) (hpastes : s'.pastes = s.pastes)
    (hreads : s'.reads = s.reads) (hrender : s'.render = s.render)
    (hstack : s'.stack = calls ++ pumped s.stack)
    (hless : s'.pipe.effort + 23 * s'.updates + stackEffort s.render calls + 1 <
      s.pipe.effort + item.effort + 23 * s.updates) : effort s' < effort s := by
  have hpumped := stackEffort_pumped s.render s.stack
  have hsum : stackEffort s'.render s'.stack =
      stackEffort s.render calls + stackEffort s.render (pumped s.stack) := by
    rw [hrender, hstack, stackEffort, List.map_append, List.sum_append, stackEffort, stackEffort]
  simp only [effort, hjob, hjob', hinbox, hpastes, hreads, hsum, Option.elim_some, Option.elim_none]
  omega

/-- A message is dispatched, and leaves at most one call. -/
theorem dispatch_less (calls : List Frame) (hstack : s'.stack = calls ++ pumped s.stack)
    (hrender : stackEffort s'.render s.stack ≤ stackEffort s.render s.stack)
    (hinbox : s'.inbox = s.inbox) (hpipe : s'.pipe = s.pipe) (hjob : s'.job = s.job)
    (hless : 23 * s'.updates + 7 * s'.pastes.length + 4 * s'.reads.length +
        stackEffort s'.render calls + 1 <
      23 * s.updates + 7 * s.pastes.length + 4 * s.reads.length) : effort s' < effort s := by
  have hpumped := stackEffort_pumped s'.render s.stack
  have hsum : stackEffort s'.render s'.stack =
      stackEffort s'.render calls + stackEffort s'.render (pumped s.stack) := by
    rw [hstack, stackEffort, List.map_append, List.sum_append, stackEffort, stackEffort]
  simp only [effort, hinbox, hpipe, hjob, hsum]
  omega

/-- The call on top gives way to others that have less to do. -/
theorem top_less {f : Frame} {rest : List Frame} (hstack : s.stack = f :: rest)
    (hinbox : s'.inbox = s.inbox) (hjob : s'.job = s.job) (hupdates : s'.updates = s.updates)
    (hpastes : s'.pastes = s.pastes) (hreads : s'.reads = s.reads)
    (hless : s'.pipe.effort + stackEffort s'.render s'.stack <
      s.pipe.effort + (f.effort s.render + stackEffort s.render rest)) : effort s' < effort s := by
  have hsum := stackEffort_cons s.render f rest
  simp only [effort, hinbox, hjob, hupdates, hpastes, hreads, hstack]
  omega

theorem Frame.reads.effort {top : Frame} {reader : Reader} (h : top.reads reader)
    (r : DelayedRender.Render) : 3 ≤ top.effort r := by
  cases top with
  | found => exact le_rfl
  | reading =>
      simp only [Frame.effort]
      omega
  | asking | owning | opening | sending | rendering | fetching => exact h.elim

/-- The render on top moves on. -/
theorem render_less {id : Nat} {asker : Asker} {format : Nat} {p : Bool} {rest : List Frame}
    (hstack : s.stack = .rendering id asker format p :: rest) (hsame : s'.stack = s.stack)
    (hless : callEffort s'.render id < callEffort s.render id)
    (hle : ∀ i, callEffort s'.render i ≤ callEffort s.render i) (hinbox : s'.inbox = s.inbox)
    (hpipe : s'.pipe = s.pipe) (hjob : s'.job = s.job) (hupdates : s'.updates = s.updates)
    (hpastes : s'.pastes = s.pastes) (hreads : s'.reads = s.reads) : effort s' < effort s := by
  have hrest : stackEffort s'.render rest ≤ stackEffort s.render rest :=
    stackEffort_mono fun i _ _ _ _ => hle i
  refine top_less hstack hinbox hjob hupdates hpastes hreads ?_
  rw [hsame, hstack, hpipe]
  simp only [stackEffort_cons, Frame.effort]
  omega

theorem step_less (hc : Called s) (hown : a.own = true) (hstep : Step s a os s') :
    effort s' < effort s := by
  cases hstep with
  | continues hpipe hinbox hr =>
      refine taken_less hpipe hinbox (.inl ⟨rfl, ?_⟩) rfl rfl rfl rfl
        (stackEffort_mono fun id _ _ _ _ => (hr.effort id).le)
      rw [Relay.taken, hpipe]
      exact Nat.zero_le 1
  | refuses hpipe hinbox =>
      exact taken_less hpipe hinbox (.inl ⟨rfl, le_rfl⟩) rfl rfl rfl rfl le_rfl
  | submits hpipe hinbox hr =>
      exact taken_less hpipe hinbox (.inr ⟨_, rfl, rfl⟩) rfl rfl rfl rfl
        (stackEffort_mono fun id _ _ _ _ => (hr.effort id).le)
  | delivers hpipe hinbox =>
      refine taken_less hpipe hinbox (.inl ⟨rfl, ?_⟩) rfl rfl rfl rfl
        (stackEffort_deliverChunk _ _ _).le
      simp only [Relay.taken, hpipe]
      exact Nat.zero_le 1
  | stops hpipe hinbox =>
      exact taken_less hpipe hinbox (.inl ⟨rfl, Nat.zero_le 1⟩) rfl rfl rfl rfl le_rfl
  | @calls _ item hpipe =>
      have hcalling : s.pipe.effort = item.effort + 3 := by rw [hpipe]; rfl
      have htwo : Pipe.effort .waiting = 2 := rfl
      simp only [effort, Relay.submit, Option.elim_some]
      omega
  | replies hpipe =>
      have hone : s.pipe.effort = 1 := by rw [hpipe]; rfl
      have hzero : Pipe.effort .reading = 0 := rfl
      simp only [effort]
      omega
  | @itemDone _ item reply hjob =>
      have hitem := item.effort_bounds
      have hone : Pipe.effort (.answering reply none) = 1 := rfl
      have hnil : stackEffort s.render [] = 0 := rfl
      refine item_less hjob rfl rfl rfl rfl rfl rfl ?_
      simp only [Relay.done, Relay.takeJob, Relay.dispatch]
      omega
  | @puts _ item reply _ hjob hitem =>
      have hforty := Item.effort_of_ne hitem
      have hone : Pipe.effort (.answering reply none) = 1 := rfl
      have hnil : stackEffort s.render [] = 0 := rfl
      refine item_less hjob rfl rfl rfl rfl rfl rfl ?_
      simp only [Relay.done, Relay.put, Relay.takeJob, Relay.dispatch]
      omega
  | itemReads hjob =>
      refine item_less hjob rfl rfl rfl rfl rfl rfl ?_
      simp only [Relay.takeJob, Relay.dispatch, stackEffort_cons, Frame.effort, Item.effort]
      have hnil : stackEffort s.render [] = 0 := rfl
      omega
  | refused hjob =>
      refine item_less hjob rfl rfl rfl rfl rfl rfl ?_
      have hnil : stackEffort s.render [] = 0 := rfl
      simp only [Relay.takeJob, Relay.dispatch, Pipe.effort, Item.effort]
      omega
  | emptied hjob =>
      refine item_less hjob rfl rfl rfl rfl rfl rfl ?_
      have hnil : stackEffort s.render [] = 0 := rfl
      simp only [Relay.put, Relay.takeJob, Relay.dispatch, Pipe.effort, Item.effort]
      omega
  | @publishes _ obj _ pipe hjob _ _ hpipe =>
      have hle : pipe.effort ≤ 6 := by
        rcases hpipe with rfl | rfl
        · exact le_rfl
        · exact (by decide : 1 ≤ 6)
      have hnil : stackEffort s.render [] = 0 := rfl
      have hforty : Item.effort (.publish obj) = 40 := rfl
      refine item_less hjob rfl rfl rfl rfl rfl rfl ?_
      simp only [Relay.put, Relay.takeJob, Relay.dispatch]
      omega
  | serves hjob =>
      refine item_less hjob rfl rfl rfl rfl rfl rfl ?_
      simp only [Relay.takeJob, Relay.dispatch, stackEffort_cons, Frame.effort, Item.effort]
      have hnil : stackEffort s.render [] = 0 := rfl
      omega
  | updates hupdates =>
      refine dispatch_less [.asking] rfl le_rfl rfl rfl rfl ?_
      simp only [Relay.dispatch, stackEffort_cons, Frame.effort, hupdates]
      have hnil : stackEffort s.render [] = 0 := rfl
      omega
  | pasteReturns hpastes =>
      refine dispatch_less [] rfl le_rfl rfl rfl rfl ?_
      simp only [Relay.dispatch, hpastes, List.length_cons]
      have hnil : stackEffort s.render [] = 0 := rfl
      omega
  | @pasteBegins _ paste format pastes r _ hpastes _ hr =>
      obtain ⟨hfour, hle⟩ := hr.effort hc
      refine dispatch_less [.rendering s.render.nextCall (.paste paste) format false] rfl
        hle rfl rfl rfl ?_
      simp only [Relay.dispatch, hpastes, List.length_cons, stackEffort_cons, Frame.effort,
        Bool.toNat_false]
      have hnil : stackEffort r [] = 0 := rfl
      omega
  | fetchFails hreads =>
      refine dispatch_less [] rfl le_rfl rfl rfl rfl ?_
      simp only [Relay.dispatch, hreads, List.length_cons]
      have hnil : stackEffort s.render [] = 0 := rfl
      omega
  | @fetches _ key _ hreads =>
      refine dispatch_less [.fetching key false false] rfl le_rfl rfl rfl rfl ?_
      simp only [Relay.dispatch, hreads, List.length_cons, stackEffort_cons, Frame.effort]
      have hnil : stackEffort s.render [] = 0 := rfl
      omega
  | current hstack | owned hstack | misses hstack | sendsChange hstack | unsent hstack =>
      refine top_less hstack rfl rfl rfl rfl rfl ?_
      simp only [Frame.effort]
      omega
  | refusesGet hstack =>
      refine top_less hstack rfl rfl rfl rfl rfl ?_
      simp only [Relay.done, Frame.effort, Pipe.effort]
      omega
  | loses hstack =>
      refine top_less hstack rfl rfl rfl rfl rfl ?_
      simp only [stackEffort_cons, stackEffort_cancelAll, Frame.effort]
      omega
  | asks hstack | unowned hstack | finds hstack =>
      refine top_less hstack rfl rfl rfl rfl rfl ?_
      simp only [stackEffort_cons, Frame.effort]
      omega
  | opensOwn hstack =>
      have htwo := hc.formats
      refine top_less hstack rfl rfl rfl rfl rfl ?_
      simp only [stackEffort_cons, Frame.effort]
      omega
  | skips hstack =>
      refine top_less hstack rfl rfl rfl rfl rfl ?_
      simp only [stackEffort_cons, Frame.effort, List.length_cons]
      omega
  | @unreadable _ top rest hstack hreads =>
      have hpos := hreads.effort s.render
      refine top_less hstack rfl rfl rfl rfl rfl ?_
      dsimp only
      omega
  | @reads _ top rest _ hstack hread =>
      have hreads : top.reads .change := by
        rcases hread with ⟨⟨_, rfl⟩, -⟩ | rfl <;> exact rfl
      have hpos := hreads.effort s.render
      have htwo : ∀ change snapshot, Frame.effort s.render (.sending change snapshot) = 2 :=
        fun _ _ => rfl
      refine top_less hstack rfl rfl rfl rfl rfl ?_
      simp only [stackEffort_cons, htwo]
      omega
  | @readsGet _ top rest _ _ hstack hget =>
      have hpos := hget.effort s.render
      refine top_less hstack rfl rfl rfl rfl rfl ?_
      simp only [Pipe.effort]
      omega
  | @asksFor _ _ _ formats rest r _ hstack hr =>
      obtain ⟨hfour, hle⟩ := hr.effort hc
      rw [hstack, stackEffort_cons, stackEffort_cons] at hle
      refine top_less hstack rfl rfl rfl rfl rfl ?_
      simp only [stackEffort_cons, Frame.effort, List.length_cons, Bool.toNat_false] at hle ⊢
      omega
  | requests hstack hr hrequesting hless =>
      obtain ⟨hlt, hle⟩ := hr.effort (by rw [hrequesting]; exact hless)
      exact render_less hstack rfl hlt hle rfl rfl rfl rfl rfl rfl
  | wakes hstack hr _ _ hless =>
      obtain ⟨hlt, hle⟩ := hr.effort hless
      exact render_less hstack rfl hlt hle rfl rfl rfl rfl rfl rfl
  | rechecks hstack =>
      refine top_less hstack rfl rfl rfl rfl rfl ?_
      simp only [stackEffort_cons, Frame.effort, Bool.toNat_false, Bool.toNat_true]
      omega
  | @rechecked _ id asker format rest r _ _ _ hstack hr hwaits hless =>
      obtain ⟨hlt, hle⟩ := hr.effort (by rw [hwaits]; exact hless)
      have hrest : stackEffort r rest ≤ stackEffort s.render rest :=
        stackEffort_mono fun i _ _ _ _ => hle i
      refine top_less hstack rfl rfl rfl rfl rfl ?_
      simp only [stackEffort_cons, Frame.effort, Bool.toNat_false, Bool.toNat_true]
      omega
  | leavesPaste hstack =>
      refine top_less hstack rfl rfl rfl rfl rfl ?_
      simp only [Frame.effort]
      omega
  | @leavesReader _ id reader format p rest _ hstack =>
      have hle := stackEffort_again s.render s.clipboard.content format rest
      refine top_less hstack rfl rfl rfl rfl rfl ?_
      simp only [Frame.effort]
      omega
  | @fetched _ key own rest hstack =>
      refine top_less hstack (by cases own <;> rfl) (by cases own <;> rfl)
        (by cases own <;> rfl) (by cases own <;> rfl) (by cases own <;> rfl) ?_
      cases own with
      | false =>
          simp only [fetched, Frame.effort, if_neg Bool.false_ne_true]
          omega
      | true =>
          simp only [fetched, Relay.done, Frame.effort, Pipe.effort, if_pos]
          omega
  | arrives | opened | copied | closed | pasted | abandoned | wanted | notified | posted
  | renderExpires | fetchExpires => cases hown

theorem uses_up : (machine sys).UsesUp (fun a => a.own = true) Called effort := by
  intro s a s' os hc hown hstep
  exact ⟨step_called hc (step_cases hstep), step_less hc hown (step_cases hstep)⟩

theorem run_called
    (hrun : (machine sys).Run Machine.always (initial event before) h s) : Called s := by
  refine hrun.state_invariant Called (called_initial event before) ?_
  rintro s a s' os hc - hstep
  exact step_called hc (step_cases hstep)

end ClipboardRelay
