import ClipboardHelper.RelayRest

/-!
# Where the helper waits between the clipboard and the parent

At rest the STA thread dispatches messages and none is left for it.  The pipe
thread has none left either, or waits for a call of the STA thread.

**`messages_handled`**: so it is in every run, and the threads come to rest by
themselves.  The call may be waiting for the very message that the pipe thread
would take next: a `GET_CLIPBOARD` that finds the helper's own announcement
asks the parent for the data, and the answer is not taken
(`get_waits_for_itself`).
-/

namespace ClipboardRelay

open Library DispatchCodec

variable {sys : Platform} {before : Option ClipboardSnapshot} {event : Option Bool}
variable {h : List Obs} {s s' : Relay} {a : Action} {os : List Obs}

/-! ## Who the pipe thread waits for -/

/-- With this call the work item is done. -/
def Frame.serves : Frame → Bool
  | .opening .get | .reading .get _ | .found .get _ | .fetching _ true _ => true
  | _ => false

def Serving (stack : List Frame) : Prop := ∃ f ∈ stack, f.serves = true

/-- The pipe thread waits for a work item that is pushed, or under way. -/
def Waits (s : Relay) : Prop := s.pipe = .waiting → s.job ≠ none ∨ Serving s.stack

theorem Waits.keep (hw : Waits s) (hstack : Serving s.stack → Serving s'.stack)
    (hpipe : s'.pipe = s.pipe) (hjob : s'.job = s.job) : Waits s' := by
  intro hwaiting
  rw [hjob]
  exact (hw (hpipe ▸ hwaiting)).imp_right hstack

theorem Serving.append {stack : List Frame} (hs : Serving stack) (calls : List Frame) :
    Serving (calls ++ stack) := by
  obtain ⟨f, hf, hserves⟩ := hs
  exact ⟨f, List.mem_append_right calls hf, hserves⟩

theorem Serving.pumped {stack : List Frame} (hs : Serving stack) : Serving (pumped stack) := by
  cases stack with
  | nil => exact hs
  | cons f rest =>
      cases f with
      | rendering =>
          obtain ⟨g, hg, hserves⟩ := hs
          rcases List.mem_cons.mp hg with rfl | hg
          · cases hserves
          · exact ⟨g, List.mem_cons_of_mem _ hg, hserves⟩
      | asking | owning | opening | reading | found | sending | fetching => exact hs

theorem Serving.deliverChunk {stack : List Frame} (hs : Serving stack) (key : Bytes) :
    Serving (deliverChunk key stack) := by
  obtain ⟨f, hf, hserves⟩ := hs
  induction stack with
  | nil => cases hf
  | cons g rest ih =>
      have hpassed : ∃ f' ∈ g :: ClipboardRelay.deliverChunk key rest, f'.serves = true := by
        rcases List.mem_cons.mp hf with rfl | hf
        · exact ⟨f, List.mem_cons_self, hserves⟩
        · obtain ⟨f', hf', hserves'⟩ := ih hf
          exact ⟨f', List.mem_cons_of_mem g hf', hserves'⟩
      cases g with
      | fetching key' own p =>
          rw [ClipboardRelay.deliverChunk]
          split
          · rcases List.mem_cons.mp hf with rfl | hf
            · refine ⟨_, List.mem_cons_self, ?_⟩
              cases own with
              | true => rfl
              | false => cases hserves
            · exact ⟨f, List.mem_cons_of_mem _ hf, hserves⟩
          · exact hpassed
      | rendering | asking | owning | opening | reading | found | sending => exact hpassed

theorem Serving.cancelAll {stack : List Frame} (hs : Serving stack) :
    Serving (cancelAll stack) := by
  obtain ⟨f, hf, hserves⟩ := hs
  refine ⟨_, List.mem_map_of_mem hf, ?_⟩
  cases f with
  | fetching key own p =>
      cases own with
      | true => rfl
      | false => cases hserves
  | rendering | asking | owning | opening | reading | found | sending => exact hserves

theorem Serving.again {stack : List Frame} (hs : Serving stack) (content : Content)
    (format : Nat) : Serving (again content format stack) := by
  cases stack with
  | nil => exact hs
  | cons f rest =>
      cases f with
      | reading reader formats =>
          rw [ClipboardRelay.again]
          split
          · obtain ⟨g, hg, hserves⟩ := hs
            rcases List.mem_cons.mp hg with rfl | hg
            · refine ⟨_, List.mem_cons_self, ?_⟩
              cases reader with
              | get => rfl
              | change => cases hserves
            · exact ⟨g, List.mem_cons_of_mem _ hg, hserves⟩
          · exact hs
      | rendering | asking | owning | opening | found | sending | fetching => exact hs

/-- The call on top does not serve, or one that serves takes its place. -/
theorem Serving.top {f : Frame} {calls rest : List Frame} (hs : Serving (f :: rest))
    (hcalls : f.serves = true → Serving calls) : Serving (calls ++ rest) := by
  obtain ⟨g, hg, hserves⟩ := hs
  rcases List.mem_cons.mp hg with rfl | hg
  · obtain ⟨g, hg, hserves⟩ := hcalls hserves
    exact ⟨g, List.mem_append_left rest hg, hserves⟩
  · exact Serving.append ⟨g, hg, hserves⟩ calls

theorem serves_of_reads {top : Frame} (hchange : top.reads .change) : top.serves = false := by
  cases top with
  | reading | found =>
      cases hchange
      rfl
  | asking | owning | opening | sending | rendering | fetching => exact hchange.elim

theorem step_waits (hw : Waits s) (hstep : Step s a os s') : Waits s' := by
  have hreplaced : ∀ {f rest} calls, s.stack = f :: rest → (f.serves = true → Serving calls) →
      Serving s.stack → Serving (calls ++ rest) := by
    intro f rest calls hstack hcalls hs
    exact Serving.top (hstack ▸ hs) hcalls
  have hpopped : ∀ {f rest}, s.stack = f :: rest → f.serves = false →
      Serving s.stack → Serving rest := by
    intro f rest hstack hf hs
    exact hreplaced [] hstack (by rw [hf]; nofun) hs
  cases hstep with
  | continues | arrives | opened | copied | closed | pasted | abandoned | wanted | notified
  | requests | wakes | renderExpires => exact hw.keep id rfl rfl
  | refuses | stops | replies | itemDone | puts | refused | emptied | refusesGet | readsGet =>
      nofun
  | submits | calls => exact fun _ => .inl nofun
  | delivers => exact hw.keep (fun hs => hs.deliverChunk _) rfl rfl
  | publishes _ _ _ hpipe =>
      rcases hpipe with rfl | rfl <;> nofun
  | itemReads | serves => exact fun _ => .inr ⟨_, List.mem_cons_self, rfl⟩
  | updates | pasteReturns | pasteBegins | fetchFails | fetches | posted =>
      exact hw.keep (fun hs => hs.pumped.append _) rfl rfl
  | current hstack | owned hstack | misses hstack | sendsChange hstack | unsent hstack
  | leavesPaste hstack => exact hw.keep (hpopped hstack rfl) rfl rfl
  | unreadable hstack hchange => exact hw.keep (hpopped hstack (serves_of_reads hchange)) rfl rfl
  | loses hstack =>
      exact hw.keep (fun hs => (hpopped hstack rfl hs).cancelAll.append [.owning]) rfl rfl
  | asks hstack | unowned hstack | rechecks hstack | rechecked hstack =>
      exact hw.keep (hreplaced [_] hstack nofun) rfl rfl
  | reads hstack hread =>
      refine hw.keep (hreplaced [_] hstack fun hserves => ?_) rfl rfl
      rcases hread with ⟨⟨_, rfl⟩, -⟩ | rfl <;> cases hserves
  | @opensOwn _ reader _ hstack | @finds _ reader _ _ _ _ hstack | @skips _ reader _ _ _ hstack =>
      refine hw.keep (hreplaced [_] hstack fun hserves => ?_) rfl rfl
      cases reader with
      | get => exact ⟨_, List.mem_cons_self, rfl⟩
      | change => cases hserves
  | @asksFor _ reader _ formats _ _ _ hstack =>
      refine hw.keep (hreplaced [_, .reading reader formats] hstack fun hserves => ?_)
        rfl rfl
      cases reader with
      | get => exact ⟨_, List.mem_cons_of_mem _ List.mem_cons_self, rfl⟩
      | change => cases hserves
  | leavesReader hstack =>
      exact hw.keep (fun hs => (hpopped hstack rfl hs).again _ _) rfl rfl
  | @fetched _ _ own _ hstack | @fetchExpires _ own _ _ hstack =>
      cases own with
      | true => nofun
      | false => exact hw.keep (hpopped hstack rfl) rfl rfl

theorem run_waits
    (hrun : (machine sys).Run Machine.always (initial event before) h s) : Waits s := by
  refine hrun.state_invariant Waits (fun hwaiting => by cases hwaiting) ?_
  rintro s a s' os hw - hstep
  exact step_waits hw (step_cases hstep)

/-! ## At rest -/

/-- The threads of the helper have nothing to do. -/
abbrev Rests (sys : Platform) (s : Relay) : Prop :=
  (machine sys).AtRest (fun a => a.own = true) s

/-- The STA thread waits with nothing posted to it, and the pipe thread for a
message or for a call that is under way on the STA thread. -/
structure Resting (s : Relay) : Prop where
  pumps : pumps s.render s.stack = true
  updates : s.updates = 0
  pastes : s.pastes = []
  reads : s.reads = []
  job : s.job = none
  pipe : s.pipe = .reading ∧ s.inbox = [] ∨ s.pipe = .waiting ∧ Serving s.stack ∨
    s.pipe = .stopped

theorem steps_of_rest (hrest : Rests sys s) (hown : a.own = true) :
    pipeStep sys s a = none ∧ itemStep sys s a = none ∧ readStep sys s a = none ∧
      renderStep s a = none ∧ fetchStep s a = none := by
  have hnone := hrest a hown
  simp only [machine, Option.or_eq_none_iff] at hnone
  exact ⟨hnone.1, hnone.2.1, hnone.2.2.1, hnone.2.2.2.1, hnone.2.2.2.2.1⟩

/-- A render that does not wait has a step to take. -/
theorem waiting_of_rest (hrest : Rests sys s) {id : Nat} {asker : Asker} {format : Nat} {p : Bool}
    {rest : List Frame} (hstack : s.stack = .rendering id asker format p :: rest)
    {call : DelayedRender.Call} (hcall : s.render.calls id = some call) :
    call.progress = .waiting := by
  obtain ⟨callFormat, requested, hash, progress⟩ := call
  cases progress with
  | waiting => rfl
  | requesting =>
      have hsend := (steps_of_rest (a := .sendRequest false) hrest rfl).2.2.2.1
      simp [renderStep, hstack, rendered, DelayedRender.send, hcall] at hsend
  | woken =>
      have hcollect := (steps_of_rest (a := .collect) hrest rfl).2.2.2.1
      simp only [renderStep, hstack, rendered, DelayedRender.collect, hcall,
        Option.map_eq_none_iff] at hcollect
      split_ifs at hcollect
  | rendering response =>
      have hrender := (steps_of_rest (a := .renderFormat none) hrest rfl).2.2.2.1
      simp [renderStep, hstack, rendered, DelayedRender.render, hcall] at hrender
  | finished =>
      have hleave := (steps_of_rest (a := .leave) hrest rfl).2.2.2.1
      cases asker <;> simp [renderStep, hstack, hcall] at hleave

theorem pumps_of_rest (hc : Called s) (hrest : Rests sys s) : pumps s.render s.stack = true := by
  cases hstack : s.stack with
  | nil => rfl
  | cons f rest =>
      cases f with
      | fetching => rfl
      | rendering id asker format p =>
          obtain ⟨call, hcall⟩ := hc.called id asker format p (hstack ▸ List.mem_cons_self)
          simp [pumps, hcall, waiting_of_rest hrest hstack hcall]
      | asking =>
          have hasks := (steps_of_rest (a := .isCurrent) hrest rfl).2.2.1
          simp only [readStep, hstack] at hasks
          split at hasks
          · cases hasks
          · split at hasks
            · split_ifs at hasks
            · cases hasks
      | owning =>
          have howner := (steps_of_rest (a := .isOwner) hrest rfl).2.2.1
          simp only [readStep, hstack] at howner
          split_ifs at howner
      | opening reader =>
          have hopens := (steps_of_rest (a := .openClipboard false) hrest rfl).2.2.1
          cases reader <;> simp [readStep, hstack] at hopens
      | reading reader formats =>
          cases formats with
          | nil =>
              have hreads := (steps_of_rest (a := .finishRead true) hrest rfl).2.2.1
              simp [readStep, hstack] at hreads
          | cons format formats =>
              have hasks := (steps_of_rest (a := .ask) hrest rfl).2.2.1
              simp only [readStep, hstack] at hasks
              split at hasks
              · cases hasks
              · split_ifs at hasks
      | found =>
          have hreads := (steps_of_rest (a := .finishRead true) hrest rfl).2.2.1
          simp [readStep, hstack] at hreads
      | sending =>
          have hsends := (steps_of_rest (a := .sendChanged true) hrest rfl).2.2.1
          simp [readStep, hstack] at hsends

theorem job_of_rest (hrest : Rests sys s) (hpumps : pumps s.render s.stack = true) :
    s.job = none := by
  cases hjob : s.job with
  | none => rfl
  | some item =>
      cases item with
      | write written =>
          have hwrite := (steps_of_rest (a := .write none) hrest rfl).2.1
          simp [itemStep, hjob, hpumps] at hwrite
      | read =>
          have hread := (steps_of_rest (a := .read) hrest rfl).2.1
          simp [itemStep, hjob, hpumps] at hread
      | announce type =>
          have hannounce := (steps_of_rest (a := .announce { sys := sys }) hrest rfl).2.1
          simp only [itemStep, hjob, hpumps, if_pos] at hannounce
          split at hannounce <;> cases hannounce
      | publish obj =>
          have hpublish := (steps_of_rest (a := .publish .refused) hrest rfl).2.1
          simp [itemStep, hjob, hpumps] at hpublish
      | release =>
          have hrelease := (steps_of_rest (a := .release) hrest rfl).2.1
          simp [itemStep, hjob, hpumps] at hrelease
      | serve =>
          have hserve := (steps_of_rest (a := .serve [] false) hrest rfl).2.1
          simp [itemStep, hjob, hpumps] at hserve

theorem resting (hc : Called s) (hw : Waits s) (hrest : Rests sys s) : Resting s := by
  have hpumps := pumps_of_rest hc hrest
  have hjob := job_of_rest hrest hpumps
  refine ⟨hpumps, ?_, ?_, ?_, hjob, ?_⟩
  · cases hupdates : s.updates with
    | zero => rfl
    | succ n =>
        have hupdate := (steps_of_rest (a := .update) hrest rfl).2.2.1
        simp [readStep, hpumps, hupdates] at hupdate
  · cases hpastes : s.pastes with
    | nil => rfl
    | cons paste pastes =>
        have hpaste := (steps_of_rest (a := .beginPaste) hrest rfl).2.2.2.1
        simp only [renderStep, hpumps, hpastes, if_pos] at hpaste
        split_ifs at hpaste
  · cases hreads : s.reads with
    | nil => rfl
    | cons key reads =>
        have hfetch := (steps_of_rest (a := .beginFetch false) hrest rfl).2.2.2.2
        simp [fetchStep, hpumps, hreads] at hfetch
  · cases hpipe : s.pipe with
    | waiting => exact .inr (.inl ⟨rfl, (hw hpipe).resolve_left (not_not.mpr hjob)⟩)
    | stopped => exact .inr (.inr rfl)
    | calling item =>
        have hcall := (steps_of_rest (a := .call) hrest rfl).1
        simp [pipeStep, hpipe] at hcall
    | answering reply ownVirtual =>
        have hreply := (steps_of_rest (a := .reply) hrest rfl).1
        simp [pipeStep, hpipe] at hreply
    | reading =>
        cases hinbox : s.inbox with
        | nil => exact .inl ⟨rfl, rfl⟩
        | cons frame rest =>
            have htake := (steps_of_rest (a := .take { sys := sys } false) hrest rfl).1
            simp [pipeStep, hpipe, hinbox] at htake

/-- **Messages are handled**: wherever they are, the threads come to rest by
themselves, after so many steps at most; and then no message is left, of the
parent or of the system, unless the pipe thread waits for a call under which
messages are dispatched. -/
theorem messages_handled
    (hrun : (machine sys).Run Machine.always (initial event before) h s) :
    (∀ as t os, (∀ a ∈ as, a.own = true) → (machine sys).exec s as = some (t, os) →
        as.length ≤ effort s) ∧
      (∃ as t os, (∀ a ∈ as, a.own = true) ∧ (machine sys).exec s as = some (t, os) ∧
        Rests sys t) ∧
      (Rests sys s → Resting s) := by
  refine ⟨fun as t os hown hexec => ?_, Machine.comes_to_rest uses_up (run_called hrun),
    resting (run_called hrun) (run_waits hrun)⟩
  have hle := Machine.length_le_of_uses_up uses_up (run_called hrun) hown hexec
  omega

/-! ## A render that nobody answers -/

/-- The STA thread waits in a render, and the pipe thread for the STA thread. -/
theorem rests_of_waiting {id : Nat} {asker : Asker} {format : Nat} {rest : List Frame}
    {call : DelayedRender.Call} (hpipe : s.pipe = .waiting) (hjob : s.job = none)
    (hupdates : s.updates = 0) (hpastes : s.pastes = []) (hreads : s.reads = [])
    (hstack : s.stack = .rendering id asker format false :: rest)
    (hcall : s.render.calls id = some call) (hwaiting : call.progress = .waiting)
    (hevent : s.render.renderEvent ≠ some true) : Rests sys s := by
  obtain ⟨callFormat, requested, hash, progress⟩ := call
  obtain rfl : progress = .waiting := hwaiting
  intro a hown
  have hpipeStep : pipeStep sys s a = none := by cases a <;> simp [pipeStep, hpipe]
  have hitemStep : itemStep sys s a = none := by cases a <;> simp [itemStep, hjob]
  have hreadStep : readStep sys s a = none := by cases a <;> simp [readStep, hstack, hupdates]
  have hfetchStep : fetchStep s a = none := by cases a <;> simp [fetchStep, hstack, hreads]
  have houtside : outsideStep s a = none := by cases a <;> first | rfl | cases hown
  have hrenderStep : renderStep s a = none := by
    cases a with
    | sendRequest | wake | recheck | collect | renderFormat | leave =>
        simp [renderStep, hstack, rendered, DelayedRender.send, DelayedRender.wait,
          DelayedRender.collect, DelayedRender.render, hcall, hevent]
    | _ => simp [renderStep, hpastes]
  simp only [machine, hpipeStep, hitemStep, hreadStep, hrenderStep, hfetchStep, houtside,
    Option.or_none]

/-- The announcement of a text. -/
def announceText : Bytes := [8, 2, 26, 5, 8, 1, 18, 1, 35]

/-- `GET_CLIPBOARD`. -/
def getClipboard : Bytes := [8, 4]

/-- The text that was announced. -/
def provideText : Bytes := [8, 3, 34, 7, 10, 1, 35, 18, 2, 104, 105]

/-- **The helper waits for itself**: it is asked for the clipboard on which it
has announced a text, and does not take the text that it is given. -/
theorem get_waits_for_itself : ∃ h s,
    (machine AnnounceDelayed.ascii.sys).Run Machine.always (initial (some false) none) h s ∧
      s.inbox = [provideText] ∧ Rests AnnounceDelayed.ascii.sys s := by
  have hexec : ((machine AnnounceDelayed.ascii.sys).exec (initial (some false) none)
      [.sends announceText, .take AnnounceDelayed.ascii false, .announce AnnounceDelayed.ascii,
        .reply, .update, .isCurrent, .isOwner, .sends getClipboard, .sends provideText,
        .take AnnounceDelayed.ascii false, .read, .openClipboard true, .ask,
        .sendRequest true]).map (fun r => (r.1.pipe, r.1.job, r.1.updates, r.1.pastes, r.1.reads,
          r.1.stack, r.1.inbox, r.1.render.calls 0, r.1.render.renderEvent)) =
      some (.waiting, none, 0, [], [],
        [.rendering 0 (.reader .get) DelayedRender.cfUnicodeText false, .reading .get []],
        [provideText], some ⟨DelayedRender.cfUnicodeText, .text, [35], .waiting⟩,
        some false) := by
    rfl
  obtain ⟨h, s, hrun, hs⟩ := Machine.Run.of_exec_map hexec
  simp only [Prod.mk.injEq] at hs
  obtain ⟨hpipe, hjob, hupdates, hpastes, hreads, hstack, hinbox, hcall, hevent⟩ := hs
  refine ⟨h, s, hrun, hinbox, rests_of_waiting hpipe hjob hupdates hpastes hreads hstack hcall
    rfl ?_⟩
  rw [hevent]
  nofun

theorem messages_handled_waiting : ∃ h s,
    (machine AnnounceDelayed.ascii.sys).Run Machine.always (initial (some false) none) h s ∧
      s.inbox = [provideText] ∧ Resting s := by
  obtain ⟨h, s, hrun, hinbox, hrest⟩ := get_waits_for_itself
  exact ⟨h, s, hrun, hinbox, (messages_handled hrun).2.2 hrest⟩

end ClipboardRelay
