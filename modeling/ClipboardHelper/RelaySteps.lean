import ClipboardHelper.ClipboardRelay

/-!
# What a step between the clipboard and the parent can do

The steps of the render state first, then one rule for each way a step of the
helper goes on (`Step`, `step_cases`).
-/

namespace ClipboardRelay

open Library DispatchCodec
open AnnounceDelayed (Answers)

/-! ## The render state -/

/-- How much an `OnRenderFormat` has before it. -/
def effortOf : DelayedRender.Progress → Nat
  | .requesting => 4
  | .waiting => 3
  | .woken => 2
  | .rendering _ => 1
  | .finished => 0

/-- What the pipe thread does to the render state. -/
structure Provided (r r' : DelayedRender.Render) : Prop where
  calls : r'.calls = r.calls
  nextCall : r'.nextCall = r.nextCall

/-- `r'` has the responses of `r`, or has adopted the stored one. -/
structure Kept (r r' : DelayedRender.Render) : Prop where
  hash : r'.pendingHash = r.pendingHash
  event : r'.renderEvent = r.renderEvent
  response : r.pendingResponse = [] → r'.pendingResponse = []
  cached : r.pendingResponse = [] → r'.cachedValid = r.cachedValid

/-- A call has begun. -/
structure Begun (r r' : DelayedRender.Render) : Prop where
  kept : Kept r r'
  nextCall : r'.nextCall = r.nextCall + 1
  calls : ∃ call, r'.calls = Function.update r.calls r.nextCall (some call) ∧
    call.hash = r.pendingHash ∧ call.progress ≠ .waiting ∧
    (call.progress = .requesting → r.cachedValid = false ∧ r.pendingResponse = [])

/-- A call has moved on. -/
structure Moved (r r' : DelayedRender.Render) (id : Nat) (call : DelayedRender.Call)
    (progress : DelayedRender.Progress) : Prop where
  kept : Kept r r'
  nextCall : r'.nextCall = r.nextCall
  before : r.calls id = some call
  calls : r'.calls = Function.update r.calls id (some { call with progress := progress })

theorem Kept.refl (r : DelayedRender.Render) : Kept r r := ⟨rfl, rfl, id, fun _ => rfl⟩

theorem announced_provided (r : DelayedRender.Render) (subPayload : Bytes) :
    Provided r (DelayedRender.handleAnnounceDelayed r subPayload).1 := by
  unfold DelayedRender.handleAnnounceDelayed
  split <;> exact ⟨rfl, rfl⟩

theorem provided (r : DelayedRender.Render) (subPayload : Bytes) :
    Provided r (DelayedRender.handleProvideData r subPayload).1 := by
  unfold DelayedRender.handleProvideData
  (repeat' split) <;> exact ⟨rfl, rfl⟩

/-- `OnRenderFormat` begins a call, or returns at once and has done nothing. -/
theorem begin_cases (r : DelayedRender.Render) (format : Nat) :
    DelayedRender.begin r format false = (r, []) ∨
      Begun r (DelayedRender.begin r format false).1 := by
  unfold DelayedRender.begin
  cases DelayedRender.requestedType format with
  | none => exact .inl rfl
  | some requested =>
      by_cases hnone : r.pendingHash = []
      · simp [hnone]
      by_cases htype : r.pendingType ≠ requested
      · simp [hnone, htype]
      simp only [if_neg hnone, if_neg htype]
      refine .inr ?_
      by_cases hcached : r.cachedValid = true
      · rw [if_pos hcached]
        exact ⟨⟨rfl, rfl, id, fun _ => rfl⟩, rfl, _, rfl, rfl, nofun, nofun⟩
      rw [if_neg hcached]
      by_cases hresponse : r.pendingResponse ≠ []
      · rw [if_pos hresponse]
        exact ⟨⟨rfl, rfl, fun _ => rfl, fun h => absurd h hresponse⟩, rfl, _, rfl, rfl, nofun,
          nofun⟩
      rw [if_neg hresponse]
      exact ⟨⟨rfl, rfl, id, fun _ => rfl⟩, rfl, _, rfl, rfl, nofun,
        fun _ => ⟨Bool.eq_false_iff.mpr hcached, not_not.mp hresponse⟩⟩

theorem advance_moved (r : DelayedRender.Render) {id : Nat} {call : DelayedRender.Call}
    (hcall : r.calls id = some call) (progress : DelayedRender.Progress) :
    Moved r (DelayedRender.advance r id call progress) id call progress :=
  ⟨⟨rfl, rfl, fun h => h, fun _ => rfl⟩, rfl, hcall, rfl⟩

theorem adopt_moved (r : DelayedRender.Render) {id : Nat} {call : DelayedRender.Call}
    (hcall : r.calls id = some call) (hresponse : r.pendingResponse ≠ [])
    (progress : DelayedRender.Progress) :
    Moved r (DelayedRender.advance (DelayedRender.adopt r) id call progress) id call progress :=
  ⟨⟨rfl, rfl, fun _ => rfl, fun h => absurd h hresponse⟩, rfl, hcall, rfl⟩

theorem send_cases {r r' : DelayedRender.Render} {id : Nat} {ok : Bool}
    {os : List DelayedRender.Obs} (h : DelayedRender.send r id ok = some (r', os)) :
    ∃ call progress, Moved r r' id call progress ∧ call.progress = .requesting ∧
      effortOf progress < 4 := by
  unfold DelayedRender.send at h
  split at h
  · rename_i format requested hash hcall
    (repeat' split at h) <;> cases h <;>
      exact ⟨_, _, advance_moved r hcall _, rfl, by decide⟩
  · cases h

theorem wake_cases {r r' : DelayedRender.Render} {id : Nat} {os : List DelayedRender.Obs}
    (h : DelayedRender.wait r id .signalled = some (r', os)) :
    ∃ call, Moved r r' id call .woken ∧ call.progress = .waiting ∧ r.renderEvent = some true := by
  unfold DelayedRender.wait at h
  split at h
  · rename_i format requested hash hcall
    simp only at h
    split at h
    · rename_i hevent
      cases h
      exact ⟨_, advance_moved r hcall _, rfl, hevent⟩
    · cases h
  · cases h

theorem recheck_cases {r r' : DelayedRender.Render} {id : Nat} {os : List DelayedRender.Obs}
    (h : DelayedRender.wait r id .pumped = some (r', os)) :
    ∃ call, r.calls id = some call ∧ call.progress = .waiting ∧
      (r' = r ∧ os = [] ∨ ∃ progress, Moved r r' id call progress ∧ effortOf progress < 3 ∧
        (r.pendingHash ≠ call.hash ∨ r.cachedValid = true)) := by
  unfold DelayedRender.wait at h
  split at h
  · rename_i format requested hash hcall
    refine ⟨_, hcall, rfl, ?_⟩
    simp only at h
    split at h
    · rename_i hother
      cases h
      exact .inr ⟨_, advance_moved r hcall _, by decide, .inl hother⟩
    · split at h
      · rename_i hcached
        cases h
        exact .inr ⟨_, advance_moved r hcall _, by simp [effortOf], .inr hcached⟩
      · cases h
        exact .inl ⟨rfl, rfl⟩
  · cases h

theorem expired_cases {r r' : DelayedRender.Render} {id : Nat} {os : List DelayedRender.Obs}
    (h : DelayedRender.wait r id .expired = some (r', os)) :
    ∃ call, Moved r r' id call .finished ∧ call.progress = .waiting := by
  unfold DelayedRender.wait at h
  split at h
  · rename_i format requested hash hcall
    cases h
    exact ⟨_, advance_moved r hcall _, rfl⟩
  · cases h

theorem collect_cases {r r' : DelayedRender.Render} {id : Nat} {os : List DelayedRender.Obs}
    (h : DelayedRender.collect r id = some (r', os)) :
    ∃ call progress, Moved r r' id call progress ∧ call.progress = .woken ∧
      effortOf progress < 2 := by
  unfold DelayedRender.collect at h
  split at h
  · rename_i format requested hash hcall
    split at h
    · cases h
      exact ⟨_, _, advance_moved r hcall _, rfl, by decide⟩
    · split at h
      · rename_i hresponse
        cases h
        exact ⟨_, _, adopt_moved r hcall hresponse _, rfl, by simp [effortOf]⟩
      · split at h <;> cases h <;> exact ⟨_, _, advance_moved r hcall _, rfl, by simp [effortOf]⟩
  · cases h

theorem render_cases {r r' : DelayedRender.Render} {id : Nat} {os : List DelayedRender.Obs}
    (h : DelayedRender.render r id = some (r', os)) :
    ∃ call, Moved r r' id call .finished ∧ effortOf call.progress = 1 := by
  unfold DelayedRender.render at h
  split at h
  · rename_i format requested hash response hcall
    cases h
    exact ⟨_, advance_moved r hcall _, rfl⟩
  · cases h

/-! ## What a step can do -/

/-- The pipe thread has taken the message in front. -/
def Relay.taken (s : Relay) (rest : List Bytes) (r : DelayedRender.Render) : Relay :=
  { s with inbox := rest, render := r }

/-- Something is put on the clipboard. -/
def Relay.put (s : Relay) (content : Content) : Relay :=
  { s with clipboard := s.clipboard.put content, updates := s.updates + 1 }

/-- The STA thread has taken the work item, which leaves calls to do. -/
def Relay.takeJob (s : Relay) (calls : List Frame) : Relay :=
  { s.dispatch calls with job := none }

/-- Nothing but what a render shows. -/
def Quiet (os : List Obs) : Prop := ∀ o ∈ os, ∃ r, o = .render r

/-- The call has the clipboard open. -/
def Frame.reads (reader : Reader) : Frame → Prop
  | .reading reader' _ | .found reader' _ => reader' = reader
  | _ => False

/-- One rule for each way a step goes on. -/
inductive Step (s : Relay) : Action → List Obs → Relay → Prop
  | continues {a frame rest r os} (hpipe : s.pipe = .reading) (hinbox : s.inbox = frame :: rest)
      (hr : Provided s.render r) (hos : Quiet os) : Step s a (.took frame :: os) (s.taken rest r)
  | refuses {a frame rest reply} (hpipe : s.pipe = .reading) (hinbox : s.inbox = frame :: rest) :
      Step s a [.took frame] ((s.taken rest s.render).done (some reply))
  | submits {a frame rest r os item} (hpipe : s.pipe = .reading)
      (hinbox : s.inbox = frame :: rest) (hr : Provided s.render r) (hos : Quiet os) :
      Step s a (.took frame :: os) ((s.taken rest r).submit item)
  | delivers {a frame rest key} (hpipe : s.pipe = .reading) (hinbox : s.inbox = frame :: rest) :
      Step s a [.took frame]
        { s.taken rest s.render with stack := deliverChunk key s.stack }
  | stops {a frame rest} (hpipe : s.pipe = .reading) (hinbox : s.inbox = frame :: rest) :
      Step s a [.took frame] { s.taken rest s.render with pipe := .stopped }
  | calls {a item} (hpipe : s.pipe = .calling item) : Step s a [] (s.submit item)
  | replies {a reply own} (hpipe : s.pipe = .answering reply own) :
      Step s a (reply.toList.map .replied)
        { s with pipe := .reading, ownVirtual := own.getD s.ownVirtual }
  | itemDone {a item reply} (hjob : s.job = some item) (hpumps : pumps s.render s.stack = true) :
      Step s a [] ((s.takeJob []).done reply)
  | puts {a item reply content} (hjob : s.job = some item) (hitem : item ≠ .release)
      (hpumps : pumps s.render s.stack = true) (howned : content.windowOwned = true)
      (hformats : content.formats.length ≤ 2) (hfree : s.free = true) :
      Step s a [.put (s.clipboard.change + 1)] (((s.takeJob []).put content).done reply)
  | itemReads {a} (hjob : s.job = some .read) (hpumps : pumps s.render s.stack = true) :
      Step s a [] (s.takeJob [.opening .get])
  | refused {a obj} (hjob : s.job = some (.publish obj)) (hpumps : pumps s.render s.stack = true) :
      Step s a [] { s.takeJob [] with pipe := .calling .release }
  | emptied {a obj} (hjob : s.job = some (.publish obj))
      (hpumps : pumps s.render s.stack = true) (hclosed : s.clipboard.opened = none) :
      Step s a [.put (s.clipboard.change + 1)]
        { (s.takeJob []).put (.foreign none) with pipe := .calling .release }
  | publishes {a obj snapshot pipe} (hjob : s.job = some (.publish obj))
      (hpumps : pumps s.render s.stack = true) (hclosed : s.clipboard.opened = none)
      (hpipe : pipe = .calling .release ∨ pipe = .answering none none) :
      Step s a [.put (s.clipboard.change + 1)]
        { (s.takeJob []).put (.object obj snapshot) with outbound := some obj, pipe := pipe }
  | serves {a key} (hjob : s.job = some .serve) (hpumps : pumps s.render s.stack = true) :
      Step s a [] (s.takeJob [.fetching key true false])
  | updates {a n} (hupdates : s.updates = n + 1) (hpumps : pumps s.render s.stack = true) :
      Step s a [] { s.dispatch [.asking] with updates := n }
  | current {a rest obj snapshot} (hstack : s.stack = .asking :: rest)
      (hcontent : s.clipboard.content = .object obj snapshot) :
      Step s a [] { s with stack := rest }
  | loses {a rest obj} (hstack : s.stack = .asking :: rest) (houtbound : s.outbound = some obj)
      (hother : ∀ snapshot, s.clipboard.content ≠ .object obj snapshot) :
      Step s a [.cancelled] { s with stack := .owning :: cancelAll rest, outbound := none }
  | asks {a rest} (hstack : s.stack = .asking :: rest) (houtbound : s.outbound = none) :
      Step s a [] { s with stack := .owning :: rest }
  | owned {a rest} (hstack : s.stack = .owning :: rest)
      (howned : s.clipboard.content.windowOwned = true) : Step s a [] { s with stack := rest }
  | unowned {a rest} (hstack : s.stack = .owning :: rest)
      (howned : s.clipboard.content.windowOwned = false) :
      Step s a [] { s with stack := .opening .change :: rest }
  | opensOwn {a reader rest} (hstack : s.stack = .opening reader :: rest) (hfree : s.free = true) :
      Step s a [] { s with
        clipboard := { s.clipboard with opened := some .helper }
        stack := .reading reader s.clipboard.content.formats :: rest }
  | misses {a rest} (hstack : s.stack = .opening .change :: rest) :
      Step s a [.missed s.clipboard.change (if held rest then .held else .notOpened)]
        { s with stack := rest }
  | refusesGet {a rest reply} (hstack : s.stack = .opening .get :: rest) :
      Step s a [] ({ s with stack := rest }.done (some reply))
  | unreadable {a top rest} (hstack : s.stack = top :: rest) (hchange : top.reads .change) :
      Step s a [.missed s.clipboard.change .notReadable]
        { s with clipboard := { s.clipboard with opened := none }, stack := rest }
  | reads {a top rest snapshot} (hstack : s.stack = top :: rest)
      (hread : (∃ formats, top = .reading .change formats) ∧
          s.clipboard.content.snapshot = some snapshot ∨ top = .found .change snapshot) :
      Step s a [] { s with
        clipboard := { s.clipboard with opened := none }
        stack := .sending s.clipboard.change snapshot :: rest }
  | readsGet {a top rest reply own} (hstack : s.stack = top :: rest) (hget : top.reads .get) :
      Step s a [] { s with
        clipboard := { s.clipboard with opened := none }, stack := rest
        pipe := .answering (some reply) own }
  | finds {a reader format formats rest snapshot}
      (hstack : s.stack = .reading reader (format :: formats) :: rest)
      (hrendered : s.clipboard.content.rendered format = some snapshot) :
      Step s a [] { s with stack := .found reader snapshot :: rest }
  | skips {a reader format formats rest}
      (hstack : s.stack = .reading reader (format :: formats) :: rest) :
      Step s a [] { s with stack := .reading reader formats :: rest }
  | asksFor {a reader format formats rest r os}
      (hstack : s.stack = .reading reader (format :: formats) :: rest)
      (hr : Begun s.render r) (hos : Quiet os) :
      Step s a os { s with
        render := r
        stack := .rendering s.render.nextCall (.reader reader) format false ::
          .reading reader formats :: rest }
  | sendsChange {a change snapshot rest ownVirtual}
      (hstack : s.stack = .sending change snapshot :: rest) :
      Step s a [.changed change snapshot] { s with stack := rest, ownVirtual := ownVirtual }
  | unsent {a change snapshot rest ownVirtual}
      (hstack : s.stack = .sending change snapshot :: rest) :
      Step s a [.missed change .notSent] { s with stack := rest, ownVirtual := ownVirtual }
  | pasteReturns {a paste format pastes} (hpastes : s.pastes = (paste, format) :: pastes)
      (hpumps : pumps s.render s.stack = true) :
      Step s a [] { s.dispatch [] with
        pastes := pastes, clipboard := s.clipboard.returned paste }
  | pasteBegins {a paste format pastes r os} (hpastes : s.pastes = (paste, format) :: pastes)
      (hpumps : pumps s.render s.stack = true) (hr : Begun s.render r) (hos : Quiet os) :
      Step s a os { s.dispatch [.rendering s.render.nextCall (.paste paste) format false] with
        render := r, pastes := pastes }
  | requests {a id asker format p rest r call progress os}
      (hstack : s.stack = .rendering id asker format p :: rest)
      (hr : Moved s.render r id call progress) (hrequesting : call.progress = .requesting)
      (hless : effortOf progress < 4) (hos : ∀ o ∈ os, o = .requested asker ∨ ∃ r, o = .render r) :
      Step s a os { s with render := r }
  | wakes {a id asker format p rest r call progress content os}
      (hstack : s.stack = .rendering id asker format p :: rest)
      (hr : Moved s.render r id call progress) (hwaits : call.progress = .waiting →
        s.render.renderEvent = some true)
      (hbegan : call.progress ≠ .requesting) (hless : effortOf progress < effortOf call.progress)
      (hcontent : content = s.clipboard.content ∨
        ∃ snap, content = s.clipboard.content.fill format snap)
      (hos : Quiet os) :
      Step s a os { s with render := r, clipboard := { s.clipboard with content := content } }
  | rechecks {a id asker format rest call}
      (hstack : s.stack = .rendering id asker format true :: rest)
      (hcall : s.render.calls id = some call) (hwaits : call.progress = .waiting) :
      Step s a [] { s with stack := .rendering id asker format false :: rest }
  | rechecked {a id asker format rest r call progress os}
      (hstack : s.stack = .rendering id asker format true :: rest)
      (hr : Moved s.render r id call progress) (hwaits : call.progress = .waiting)
      (hless : effortOf progress < 3)
      (hwhy : s.render.pendingHash ≠ call.hash ∨ s.render.cachedValid = true) (hos : Quiet os) :
      Step s a os { s with stack := .rendering id asker format false :: rest, render := r }
  | leavesPaste {a id paste format p rest call}
      (hstack : s.stack = .rendering id (.paste paste) format p :: rest)
      (hcall : s.render.calls id = some call) (hfinished : call.progress = .finished) :
      Step s a [] { s with stack := rest, clipboard := s.clipboard.returned paste }
  | leavesReader {a id reader format p rest call}
      (hstack : s.stack = .rendering id (.reader reader) format p :: rest)
      (hcall : s.render.calls id = some call) (hfinished : call.progress = .finished) :
      Step s a [] { s with stack := again s.clipboard.content format rest }
  | fetchFails {a key reads} (hreads : s.reads = key :: reads)
      (hpumps : pumps s.render s.stack = true) : Step s a [] { s.dispatch [] with reads := reads }
  | fetches {a key reads} (hreads : s.reads = key :: reads)
      (hpumps : pumps s.render s.stack = true) :
      Step s a [] { s.dispatch [.fetching key false false] with reads := reads }
  | fetched {a key own rest} (hstack : s.stack = .fetching key own true :: rest) :
      Step s a [] (fetched s own rest)
  | arrives {frame} : Step s (.sends frame) [] { s with inbox := s.inbox ++ [frame] }
  | opened (hclosed : s.clipboard.opened = none) :
      Step s .opens [] { s with clipboard := { s.clipboard with opened := some (.other none) } }
  | copied {snapshot} (hopened : s.clipboard.opened = some (.other none)) :
      Step s (.copies snapshot) [.copied (s.clipboard.change + 1) snapshot]
        (s.put (.foreign snapshot))
  | closed (hopened : s.clipboard.opened = some (.other none)) :
      Step s .closes [] { s with clipboard := { s.clipboard with opened := none } }
  | pasted {format} (hopened : s.clipboard.opened = some (.other none))
      (hformat : format ∈ s.clipboard.content.formats) :
      Step s (.pastes format) [] { s with
        clipboard := { s.clipboard with opened := some (.other (some s.nextPaste)) }
        pastes := s.pastes ++ [(s.nextPaste, format)], nextPaste := s.nextPaste + 1 }
  | abandoned {paste} (hopened : s.clipboard.opened = some (.other (some paste))) :
      Step s .abandons [.abandoned] { s with clipboard := { s.clipboard with opened := none } }
  | wanted {key} : Step s (.wants key) [] { s with reads := s.reads ++ [key] }
  | notified : Step s .notifies [] { s with updates := s.updates + 1 }
  | posted (hpumps : pumps s.render s.stack = true) : Step s .posts [] (s.dispatch [])
  | renderExpires {id asker format p rest r call os}
      (hstack : s.stack = .rendering id asker format p :: rest)
      (hr : Moved s.render r id call .finished) (hwaits : call.progress = .waiting)
      (hos : Quiet os) :
      Step s .expires (.expired :: os) { s with render := r }
  | fetchExpires {key own p rest} (hstack : s.stack = .fetching key own p :: rest) :
      Step s .expires [.expired] (fetched s own rest)

variable {sys : Platform} {s s' : Relay} {a : Action} {os : List Obs}

theorem quiet_map (os : List DelayedRender.Obs) : Quiet (os.map .render) := by
  intro o ho
  obtain ⟨r, -, rfl⟩ := List.mem_map.mp ho
  exact ⟨r, rfl⟩

theorem announce_cases (s : Relay) (answers : Answers) (subPayload : Bytes) :
    ∃ r os, Provided s.render r ∧ Quiet os ∧
      (announce s answers subPayload = ({ s with render := r }, os) ∨
        ∃ item, announce s answers subPayload = ({ s with render := r }.submit item, os)) := by
  unfold announce
  cases parseAnnouncement subPayload {} with
  | none => exact ⟨s.render, [], ⟨rfl, rfl⟩, nofun, .inl rfl⟩
  | some ann =>
      refine ⟨_, _, announced_provided s.render subPayload,
        quiet_map (DelayedRender.handleAnnounceDelayed s.render subPayload).2, ?_⟩
      by_cases hfiles : ann.contentType = .files
      · simp only [if_pos hfiles]
        cases toPublish answers ann with
        | none => exact .inl rfl
        | some obj => exact .inr ⟨_, rfl⟩
      · simp only [if_neg hfiles]
        exact .inr ⟨_, rfl⟩

theorem pipeStep_cases (h : pipeStep sys s a = some (s', os)) : Step s a os s' := by
  cases a with
  | take answers virtual =>
      simp only [pipeStep] at h
      split at h
      · rename_i frame rest hpipe hinbox
        cases h
        cases handle sys frame with
        | ignored => exact .continues hpipe hinbox ⟨rfl, rfl⟩ nofun
        | error message => exact .refuses hpipe hinbox
        | write written => exact .submits hpipe hinbox ⟨rfl, rfl⟩ nofun
        | read => exact .submits hpipe hinbox ⟨rfl, rfl⟩ nofun
        | announce subPayload =>
            obtain ⟨r, os, hr, hos, hs | ⟨item, hs⟩⟩ :=
              announce_cases { s with inbox := rest } answers subPayload
            · simp only [take, hs]
              exact .continues hpipe hinbox hr hos
            · simp only [take, hs]
              exact .submits hpipe hinbox hr hos
        | provide subPayload =>
            exact .continues hpipe hinbox (provided s.render subPayload) (quiet_map _)
        | fileChunkRequest subPayload =>
            simp only [take]
            cases parseFileChunkRequest subPayload {} with
            | none => exact .continues hpipe hinbox ⟨rfl, rfl⟩ nofun
            | some req =>
                cases virtual with
                | false => exact .continues hpipe hinbox ⟨rfl, rfl⟩ nofun
                | true => exact .submits hpipe hinbox ⟨rfl, rfl⟩ nofun
        | fileChunkData subPayload =>
            simp only [take]
            cases parseFileChunkData subPayload {} with
            | none => exact .continues hpipe hinbox ⟨rfl, rfl⟩ nofun
            | some chunk => exact .delivers hpipe hinbox
        | shutdown => exact .stops hpipe hinbox
      · cases h
  | call =>
      simp only [pipeStep] at h
      split at h
      · rename_i item hpipe
        cases h
        exact .calls hpipe
      · cases h
  | reply =>
      simp only [pipeStep] at h
      split at h
      · rename_i reply own hpipe
        cases h
        exact .replies hpipe
      · cases h
  | _ => cases h

/-- Formats are announced only with the clipboard open, at most two. -/
theorem free_of_promised {answers : Answers} {type : ClipboardContentType} {formats : List Nat}
    (h : (AnnounceDelayed.announceDelayedFormatsForType { answers with
        heldByThisThread := held s.stack
        openClipboard := fun i => s.clipboard.opened.isNone && answers.openClipboard i }
      type {}).2.content = .promised formats) : s.free = true ∧ formats.length ≤ 2 := by
  unfold AnnounceDelayed.announceDelayedFormatsForType at h
  split at h
  · cases h
  · rename_i hopens
    constructor
    · simp only [Answers.opens, Bool.not_eq_true', Bool.not_eq_false, Bool.and_eq_true,
        List.any_eq_true] at hopens
      obtain ⟨hheld, i, -, hopened, -⟩ := hopens
      rw [Relay.free, hopened, hheld]
      rfl
    · simp only [AnnounceDelayed.OsClipboard.empty, AnnounceDelayed.OsClipboard.promise] at h
      split_ifs at h <;> cases h <;> simp

theorem itemStep_cases (h : itemStep sys s a = some (s', os)) : Step s a os s' := by
  cases a with
  | write put =>
      simp only [itemStep] at h
      split at h
      · rename_i written hjob
        obtain ⟨hpumps, h⟩ := Option.ite_none_right_eq_some.mp h
        cases put with
        | none =>
            cases h
            exact .itemDone hjob hpumps
        | some snapshot =>
            obtain ⟨hfree, ⟨⟩⟩ := Option.ite_none_right_eq_some.mp h
            exact .puts hjob nofun hpumps rfl (Nat.zero_le _) hfree
      · cases h
  | read =>
      obtain ⟨⟨hjob, hpumps⟩, ⟨⟩⟩ := Option.ite_none_right_eq_some.mp h
      exact .itemReads hjob hpumps
  | announce answers =>
      simp only [itemStep] at h
      split at h
      · rename_i type hjob
        obtain ⟨hpumps, h⟩ := Option.ite_none_right_eq_some.mp h
        split at h
        · rename_i formats hformats
          cases h
          obtain ⟨hfree, hlength⟩ := free_of_promised hformats
          refine .puts hjob nofun hpumps rfl ?_ hfree
          rwa [Content.formats, List.length_map, List.length_map]
        · cases h
          exact .itemDone hjob hpumps
      · cases h
  | publish published =>
      simp only [itemStep] at h
      split at h
      · rename_i obj hjob
        obtain ⟨hpumps, h⟩ := Option.ite_none_right_eq_some.mp h
        cases published with
        | refused =>
            cases h
            exact .refused hjob hpumps
        | emptied =>
            obtain ⟨hclosed, ⟨⟩⟩ := Option.ite_none_right_eq_some.mp h
            exact .emptied hjob hpumps hclosed
        | taken snapshot =>
            obtain ⟨hclosed, ⟨⟩⟩ := Option.ite_none_right_eq_some.mp h
            refine .publishes hjob hpumps hclosed ?_
            split
            · exact .inl rfl
            · exact .inr rfl
      · cases h
  | release =>
      obtain ⟨⟨hjob, hpumps⟩, ⟨⟩⟩ := Option.ite_none_right_eq_some.mp h
      exact .itemDone hjob hpumps
  | serve key ok =>
      obtain ⟨⟨hjob, hpumps⟩, h⟩ := Option.ite_none_right_eq_some.mp h
      split at h
      · cases h
        exact .serves hjob hpumps
      · cases h
        exact .itemDone hjob hpumps
  | _ => cases h

theorem finish_cases {reader : Reader} {top : Frame} {rest : List Frame}
    {snapshot : Option ClipboardSnapshot} (hstack : s.stack = top :: rest)
    (htop : top.reads reader)
    (hread : ∀ snap, snapshot = some snap → (∃ formats, top = .reading reader formats) ∧
      s.clipboard.content.snapshot = some snap ∨ top = .found reader snap)
    (h : finish sys s reader rest snapshot = (s', os)) : Step s a os s' := by
  cases reader with
  | get =>
      cases h
      exact .readsGet hstack htop
  | change =>
      cases snapshot with
      | none =>
          cases h
          exact .unreadable hstack htop
      | some snap =>
          cases h
          exact .reads hstack (hread snap rfl)

theorem readStep_cases (h : readStep sys s a = some (s', os)) : Step s a os s' := by
  cases a with
  | update =>
      obtain ⟨hpumps, h⟩ := Option.ite_none_right_eq_some.mp h
      split at h
      · cases h
      · rename_i n hupdates
        cases h
        exact .updates hupdates hpumps
  | isCurrent =>
      simp only [readStep] at h
      split at h
      · rename_i rest hstack
        split at h
        · rename_i houtbound
          cases h
          exact .asks hstack houtbound
        · rename_i obj houtbound
          split at h
          · rename_i obj' snapshot hcontent
            split at h
            · rename_i hsame
              cases h
              exact .current hstack (hsame ▸ hcontent)
            · rename_i hother
              cases h
              refine .loses hstack houtbound fun snapshot hc => hother ?_
              rw [hcontent] at hc
              exact (Content.object.inj hc).1
          · rename_i hother
            cases h
            exact .loses hstack houtbound fun snapshot hc => hother obj snapshot hc
      · cases h
  | isOwner =>
      simp only [readStep] at h
      split at h
      · rename_i rest hstack
        split at h
        · rename_i howned
          cases h
          exact .owned hstack howned
        · rename_i howned
          cases h
          exact .unowned hstack (Bool.eq_false_iff.mpr howned)
      · cases h
  | openClipboard ok =>
      simp only [readStep] at h
      split at h
      · rename_i reader rest hstack
        cases ok with
        | true =>
            obtain ⟨hfree, ⟨⟩⟩ := Option.ite_none_right_eq_some.mp h
            exact .opensOwn hstack hfree
        | false =>
            cases reader with
            | change =>
                cases h
                exact .misses hstack
            | get =>
                cases h
                exact .refusesGet hstack
      · cases h
  | ask =>
      simp only [readStep] at h
      split at h
      · rename_i reader format formats rest hstack
        split at h
        · rename_i snapshot hrendered
          cases h
          exact .finds hstack hrendered
        · rcases begin_cases s.render format with hbegin | hbegun
          · rw [hbegin, if_pos rfl] at h
            cases h
            exact .skips hstack
          · rw [if_neg (by rw [hbegun.nextCall]; omega)] at h
            cases h
            exact .asksFor hstack hbegun (quiet_map _)
      · cases h
  | finishRead ok =>
      simp only [readStep] at h
      split at h
      · rename_i reader rest hstack
        refine finish_cases hstack rfl (fun snap hsnap => .inl ⟨⟨_, rfl⟩, ?_⟩)
          (Option.some.inj h)
        split at hsnap
        · exact hsnap
        · cases hsnap
      · rename_i reader snapshot rest hstack
        refine finish_cases hstack rfl (fun snap hsnap => .inr ?_) (Option.some.inj h)
        split at hsnap
        · cases hsnap
          rfl
        · cases hsnap
      · cases h
  | sendChanged ok =>
      simp only [readStep] at h
      split at h
      · rename_i change snap rest hstack
        cases h
        cases ok with
        | true => exact .sendsChange hstack
        | false => exact .unsent hstack
      · cases h
  | _ => cases h

/-- A step of the render state, seen from the stack. -/
theorem rendered_eq {r : Option (DelayedRender.Render × List DelayedRender.Obs)}
    (h : rendered s r = some (s', os)) :
    ∃ r' ros, r = some (r', ros) ∧ s' = { s with render := r' } ∧ os = ros.map .render := by
  obtain ⟨⟨r', ros⟩, hr, hs⟩ := Option.map_eq_some_iff.mp h
  cases hs
  exact ⟨r', ros, hr, rfl, rfl⟩

theorem renderStep_cases (h : renderStep s a = some (s', os)) : Step s a os s' := by
  cases a with
  | beginPaste =>
      obtain ⟨hpumps, h⟩ := Option.ite_none_right_eq_some.mp h
      split at h
      · cases h
      · rename_i paste format pastes hpastes
        dsimp only at h
        rcases begin_cases s.render format with hbegin | hbegun
        · rw [hbegin, if_pos rfl] at h
          cases h
          exact .pasteReturns hpastes hpumps
        · rw [if_neg (by rw [hbegun.nextCall]; omega)] at h
          cases h
          exact .pasteBegins hpastes hpumps hbegun (quiet_map _)
  | sendRequest ok =>
      simp only [renderStep] at h
      split at h
      · rename_i id asker format p rest hstack
        obtain ⟨⟨t, os'⟩, hr, hs⟩ := Option.map_eq_some_iff.mp h
        cases hs
        obtain ⟨r, ros, hsend, rfl, rfl⟩ := rendered_eq hr
        obtain ⟨call, progress, hmoved, hrequesting, hless⟩ := send_cases hsend
        refine .requests hstack hmoved hrequesting hless fun o ho => ?_
        rcases List.mem_append.mp ho with ho | ho
        · split at ho
          · exact .inl (List.mem_singleton.mp ho)
          · cases ho
        · exact .inr (quiet_map _ o ho)
      · cases h
  | wake =>
      simp only [renderStep] at h
      split at h
      · rename_i id asker format p rest hstack
        obtain ⟨r, ros, hwait, rfl, rfl⟩ := rendered_eq h
        obtain ⟨call, hmoved, hwaits, hevent⟩ := wake_cases hwait
        exact .wakes hstack hmoved (fun _ => hevent) (by rw [hwaits]; nofun)
          (by rw [hwaits]; decide) (.inl rfl) (quiet_map _)
      · cases h
  | recheck =>
      simp only [renderStep] at h
      split at h
      · rename_i id asker format rest hstack
        obtain ⟨r, ros, hwait, rfl, rfl⟩ := rendered_eq h
        obtain ⟨call, hcall, hwaits, ⟨rfl, rfl⟩ | ⟨progress, hmoved, hless, hwhy⟩⟩ :=
          recheck_cases hwait
        · exact .rechecks hstack hcall hwaits
        · exact .rechecked hstack hmoved hwaits hless hwhy (quiet_map _)
      · cases h
  | collect =>
      simp only [renderStep] at h
      split at h
      · rename_i id asker format p rest hstack
        obtain ⟨r, ros, hcollect, rfl, rfl⟩ := rendered_eq h
        obtain ⟨call, progress, hmoved, hwoken, hless⟩ := collect_cases hcollect
        exact .wakes hstack hmoved (by rw [hwoken]; nofun) (by rw [hwoken]; nofun)
          (by rw [hwoken]; exact hless) (.inl rfl) (quiet_map _)
      · cases h
  | renderFormat snapshot =>
      simp only [renderStep] at h
      split at h
      · rename_i id asker format p rest hstack
        obtain ⟨r, ros, hrender, rfl, rfl⟩ := rendered_eq h
        obtain ⟨call, hmoved, hone⟩ := render_cases hrender
        refine .wakes hstack hmoved ?_ ?_ (by rw [hone]; decide) ?_ (quiet_map _)
        · intro hwaits
          rw [hwaits] at hone
          cases hone
        · intro hrequesting
          rw [hrequesting] at hone
          cases hone
        · cases snapshot with
          | none => exact .inl rfl
          | some snap => exact .inr ⟨snap, rfl⟩
      · cases h
  | leave =>
      simp only [renderStep] at h
      split at h
      · rename_i id asker format p rest hstack
        split at h
        · rename_i hcall
          cases asker with
          | paste paste =>
              cases h
              exact .leavesPaste hstack hcall rfl
          | reader reader =>
              cases h
              exact .leavesReader hstack hcall rfl
        · cases h
      · cases h
  | _ => cases h

theorem fetchStep_cases (h : fetchStep s a = some (s', os)) : Step s a os s' := by
  cases a with
  | beginFetch ok =>
      obtain ⟨hpumps, h⟩ := Option.ite_none_right_eq_some.mp h
      split at h
      · cases h
      · rename_i key reads hreads
        cases h
        cases ok with
        | true => exact .fetches hreads hpumps
        | false => exact .fetchFails hreads hpumps
  | endFetch =>
      simp only [fetchStep] at h
      split at h
      · rename_i key own rest hstack
        cases h
        exact .fetched hstack
      · cases h
  | _ => cases h

theorem outsideStep_cases (h : outsideStep s a = some (s', os)) : Step s a os s' := by
  cases a with
  | sends frame =>
      cases h
      exact .arrives
  | opens =>
      obtain ⟨hclosed, ⟨⟩⟩ := Option.ite_none_right_eq_some.mp h
      exact .opened hclosed
  | copies snapshot =>
      obtain ⟨hopened, ⟨⟩⟩ := Option.ite_none_right_eq_some.mp h
      exact .copied hopened
  | closes =>
      obtain ⟨hopened, ⟨⟩⟩ := Option.ite_none_right_eq_some.mp h
      exact .closed hopened
  | pastes format =>
      obtain ⟨⟨hopened, hformat, -⟩, ⟨⟩⟩ := Option.ite_none_right_eq_some.mp h
      exact .pasted hopened hformat
  | abandons =>
      simp only [outsideStep] at h
      split at h
      · rename_i paste hopened
        cases h
        exact .abandoned hopened
      · cases h
  | wants key =>
      cases h
      exact .wanted
  | notifies =>
      cases h
      exact .notified
  | posts =>
      obtain ⟨hpumps, ⟨⟩⟩ := Option.ite_none_right_eq_some.mp h
      exact .posted hpumps
  | expires =>
      simp only [outsideStep] at h
      split at h
      · rename_i id asker format p rest hstack
        obtain ⟨⟨t, os'⟩, hr, hs⟩ := Option.map_eq_some_iff.mp h
        cases hs
        obtain ⟨r, ros, hwait, rfl, rfl⟩ := rendered_eq hr
        obtain ⟨call, hmoved, hwaits⟩ := expired_cases hwait
        exact .renderExpires hstack hmoved hwaits (quiet_map _)
      · rename_i key own p rest hstack
        cases h
        exact .fetchExpires hstack
      · cases h
  | _ => cases h

theorem step_cases (h : (machine sys).step s a = some (s', os)) : Step s a os s' := by
  simp only [machine, Option.or_eq_some_iff] at h
  rcases h with h | ⟨-, h | ⟨-, h | ⟨-, h | ⟨-, h | ⟨-, h⟩⟩⟩⟩⟩
  · exact pipeStep_cases h
  · exact itemStep_cases h
  · exact readStep_cases h
  · exact renderStep_cases h
  · exact fetchStep_cases h
  · exact outsideStep_cases h

end ClipboardRelay
