import ClipboardHelper.Library.Machine
import ClipboardHelper.DispatchCodec

/-!
# Delayed rendering on Windows

The helper announces a format without its bytes; when an application pastes,
`OnRenderFormat` asks the parent for them and waits, pumping messages, so
that further `OnRenderFormat` calls can run inside the wait.  Meanwhile the
pipe thread may take a new announcement or a `PROVIDE_DATA`.

The render state of the dispatcher (`pending_hash_` to `render_event_`) and
its three entry points are a machine; one action is one block under
`render_mu_`, or one return from the wait.  Any call may take its next step
at any time, which covers every nesting.

The history records announcements, accepted payloads, the moment a call
reads its bytes and the moment it renders them.  **`rendered_own_announcement`**:
the bytes that a call renders were accepted under the hash that the call
started with, after the announcement that was in force when it read them.
The invariant behind it (`Fresh`) is that the two stored responses always
belong to the current announcement.
-/

namespace DelayedRender

open Library DispatchCodec

/-! ## State -/

/-- The Win32 formats that the helper advertises. -/
def cfUnicodeText : Nat := 13
def cfDib : Nat := 8
def cfDibV5 : Nat := 17

/-- The content type that a format asks for. -/
def requestedType (format : Nat) : Option ClipboardContentType :=
  if format = cfUnicodeText then some .text
  else if format = cfDibV5 ∨ format = cfDib then some .image
  else none

/-- Where an `OnRenderFormat` call stands.  `requesting` has found no data,
`woken` was woken by the event, `rendering` holds the bytes it read. -/
inductive Progress
  | requesting
  | waiting
  | woken
  | rendering (response : Bytes)
  | finished
deriving DecidableEq, Repr

/-- An `OnRenderFormat` call, with the snapshot it took when it began. -/
structure Call where
  format : Nat
  requested : ClipboardContentType
  hash : Bytes
  progress : Progress
deriving DecidableEq, Repr

/-- The render state of the dispatcher.  `renderEvent` is the manual-reset
event, `none` if it could not be created. -/
structure Render where
  pendingHash : Bytes := []
  pendingType : ClipboardContentType := .unspecified
  pendingResponse : Bytes := []
  cachedResponse : Bytes := []
  cachedValid : Bool := false
  renderEvent : Option Bool := some false
  calls : Nat → Option Call := fun _ => none
  nextCall : Nat := 0

inductive Obs
  | announced (hash : Bytes) (type : ClipboardContentType)
  | accepted (hash : Bytes) (data : Bytes)
  | began (id : Nat) (requested : ClipboardContentType) (hash : Bytes)
  | requested (hash : Bytes) (type : ClipboardContentType)
  | read (id : Nat) (response : Bytes)
  | rendered (id : Nat) (requested : ClipboardContentType) (response : Bytes)
deriving DecidableEq, Repr

/-! ## The pipe thread -/

/-- `HandleAnnounceDelayed`, as far as the render state goes: the new
announcement rotates it. -/
def handleAnnounceDelayed (s : Render) (subPayload : Bytes) : Render × List Obs :=
  match parseAnnouncement subPayload {} with
  | none => (s, [])
  | some ann =>
    ({ s with
        pendingHash := ann.contentHash
        pendingType := ann.contentType
        pendingResponse := []
        cachedResponse := []
        cachedValid := false
        renderEvent := s.renderEvent.map (fun _ => false) },
      [.announced ann.contentHash ann.contentType])

/-- `HandleProvideData`. -/
def handleProvideData (s : Render) (subPayload : Bytes) : Render × List Obs :=
  match parseProvideData subPayload {} with
  | none => (s, [])
  | some pd =>
    if s.pendingHash = [] then (s, [])
    else if pd.contentHash ≠ s.pendingHash then (s, [])
    else
      ({ s with
          pendingResponse := pd.data
          renderEvent := s.renderEvent.map (fun _ => true) },
        [.accepted pd.contentHash pd.data])

/-- `CancelPendingRender`. -/
def cancelPendingRender (s : Render) : Render :=
  { s with renderEvent := s.renderEvent.map (fun _ => true) }

/-! ## The STA thread -/

/-- Move a call on. -/
def advance (s : Render) (id : Nat) (call : Call) (progress : Progress) : Render :=
  { s with calls := Function.update s.calls id (some { call with progress := progress }) }

/-- Take the stored response as the cached one. -/
def adopt (s : Render) : Render :=
  { s with pendingResponse := [], cachedResponse := s.pendingResponse, cachedValid := true }

/-- `OnRenderFormat` up to the end of its first locked block, and the
`cache_only` exit behind it. -/
def begin (s : Render) (format : Nat) (cacheOnly : Bool) : Render × List Obs :=
  match requestedType format with
  | none => (s, [])
  | some requested =>
    if s.pendingHash = [] then (s, [])
    else if s.pendingType ≠ requested then (s, [])
    else
      let id := s.nextCall
      let call : Call := ⟨format, requested, s.pendingHash, .requesting⟩
      let s' := { s with nextCall := id + 1 }
      let start : Obs := .began id requested s.pendingHash
      if s.cachedValid then
        (advance s' id call (.rendering s.cachedResponse), [start, .read id s.cachedResponse])
      else if s.pendingResponse ≠ [] then
        (advance (adopt s') id call (.rendering s.pendingResponse),
          [start, .read id s.pendingResponse])
      else if cacheOnly then (advance s' id call .finished, [start])
      else (advance s' id call .requesting, [start])

/-- `SendFrame` of the `DATA_REQUEST`. -/
def send (s : Render) (id : Nat) (ok : Bool) : Option (Render × List Obs) :=
  match s.calls id with
  | some ⟨format, requested, hash, .requesting⟩ =>
    let call : Call := ⟨format, requested, hash, .requesting⟩
    if !ok then some (advance s id call .finished, [])
    else if s.renderEvent = none then
      some (advance s id call .finished, [.requested hash requested])
    else some (advance s id call .waiting, [.requested hash requested])
  | _ => none

/-- Why the wait returned. -/
inductive Wake
  | signalled | pumped | quit | expired
deriving DecidableEq, Repr

/-- One return from `MsgWaitForMultipleObjects`; after the pump, the locked
re-check. -/
def wait (s : Render) (id : Nat) (wake : Wake) : Option (Render × List Obs) :=
  match s.calls id with
  | some ⟨format, requested, hash, .waiting⟩ =>
    let call : Call := ⟨format, requested, hash, .waiting⟩
    match wake with
    | .signalled =>
      if s.renderEvent = some true then some (advance s id call .woken, []) else none
    | .pumped =>
      if s.pendingHash ≠ hash then some (advance s id call .finished, [])
      else if s.cachedValid then
        some (advance s id call (.rendering s.cachedResponse), [.read id s.cachedResponse])
      else some (s, [])
    | .quit => some (advance s id call .finished, [])
    | .expired => some (advance s id call .finished, [])
  | _ => none

/-- The locked block behind the wait loop. -/
def collect (s : Render) (id : Nat) : Option (Render × List Obs) :=
  match s.calls id with
  | some ⟨format, requested, hash, .woken⟩ =>
    let call : Call := ⟨format, requested, hash, .woken⟩
    if s.pendingHash ≠ hash then some (advance s id call .finished, [])
    else if s.pendingResponse ≠ [] then
      some (advance (adopt s) id call (.rendering s.pendingResponse),
        [.read id s.pendingResponse])
    else if s.cachedValid then
      some (advance s id call (.rendering s.cachedResponse), [.read id s.cachedResponse])
    else some (advance s id call .finished, [])
  | _ => none

/-- The `switch` at the end: the bytes go to the clipboard. -/
def render (s : Render) (id : Nat) : Option (Render × List Obs) :=
  match s.calls id with
  | some ⟨format, requested, hash, .rendering response⟩ =>
    some (advance s id ⟨format, requested, hash, .rendering response⟩ .finished,
      [.rendered id requested response])
  | _ => none

inductive Action
  | announce (subPayload : Bytes)
  | provide (subPayload : Bytes)
  | cancelPendingRender
  | begin (format : Nat) (cacheOnly : Bool)
  | send (id : Nat) (ok : Bool)
  | wait (id : Nat) (wake : Wake)
  | collect (id : Nat)
  | render (id : Nat)

/-- **The render state**, under every interleaving and nesting. -/
def machine : Machine Render Action Obs where
  step s
    | .announce subPayload => some (handleAnnounceDelayed s subPayload)
    | .provide subPayload => some (handleProvideData s subPayload)
    | .cancelPendingRender => some (cancelPendingRender s, [])
    | .begin format cacheOnly => some (begin s format cacheOnly)
    | .send id ok => send s id ok
    | .wait id wake => wait s id wake
    | .collect id => collect s id
    | .render id => render s id

/-- A dispatcher before its first message; its event may be missing. -/
def initial (renderEvent : Option Bool) : Render := { renderEvent := renderEvent }

/-! ## Reading the history -/

def Obs.announcedHash? : Obs → Option Bytes
  | .announced hash _ => some hash
  | _ => none

/-- The hash of the most recent announcement. -/
def lastAnnounced (h : List Obs) : Option Bytes := (h.filterMap Obs.announcedHash?).getLast?

/-- No announcement in a stretch of history. -/
def Undisturbed (h : List Obs) : Prop := ∀ o ∈ h, o.announcedHash? = none

/-- A payload that was accepted under the announcement now in force. -/
def AcceptedSince (h : List Obs) (hash data : Bytes) : Prop :=
  ∃ pre mid, h = pre ++ .accepted hash data :: mid ∧ Undisturbed mid ∧
    lastAnnounced pre = some hash

/-- A call read a payload that had been accepted under `hash`, with no
announcement in between. -/
def ReadOwn (h : List Obs) (id : Nat) (hash data : Bytes) : Prop :=
  ∃ pre mid post, h = pre ++ .accepted hash data :: (mid ++ .read id data :: post) ∧
    Undisturbed mid ∧ lastAnnounced pre = some hash

theorem lastAnnounced_undisturbed (h : List Obs) {os : List Obs} (hos : Undisturbed os) :
    lastAnnounced (h ++ os) = lastAnnounced h := by
  have hnone : os.filterMap Obs.announcedHash? = [] := List.filterMap_eq_nil_iff.mpr hos
  rw [lastAnnounced, List.filterMap_append, hnone, List.append_nil]
  rfl

theorem AcceptedSince.append {h os : List Obs} {hash data : Bytes}
    (ha : AcceptedSince h hash data) (hos : Undisturbed os) :
    AcceptedSince (h ++ os) hash data := by
  obtain ⟨pre, mid, rfl, hmid, hlast⟩ := ha
  refine ⟨pre, mid ++ os, by simp, ?_, hlast⟩
  intro o ho
  rcases List.mem_append.mp ho with ho | ho
  · exact hmid o ho
  · exact hos o ho

theorem AcceptedSince.read {h : List Obs} {hash data : Bytes} (ha : AcceptedSince h hash data)
    (id : Nat) : ReadOwn (h ++ [.read id data]) id hash data := by
  obtain ⟨pre, mid, rfl, hmid, hlast⟩ := ha
  exact ⟨pre, mid, [], by simp, hmid, hlast⟩

theorem ReadOwn.append {h : List Obs} {id : Nat} {hash data : Bytes}
    (hr : ReadOwn h id hash data) (os : List Obs) : ReadOwn (h ++ os) id hash data := by
  obtain ⟨pre, mid, post, rfl, hmid, hlast⟩ := hr
  exact ⟨pre, mid, post ++ os, by simp, hmid, hlast⟩

/-! ## The stored responses are fresh -/

/-- The two stored responses belong to the announcement in force. -/
structure Fresh (h : List Obs) (s : Render) : Prop where
  announcement : s.pendingHash = (lastAnnounced h).getD []
  response : s.pendingResponse ≠ [] → AcceptedSince h s.pendingHash s.pendingResponse
  cached : s.cachedValid = true → AcceptedSince h s.pendingHash s.cachedResponse

theorem fresh_initial (renderEvent : Option Bool) : Fresh [] (initial renderEvent) where
  announcement := rfl
  response h := absurd rfl h
  cached h := by cases h

/-- A step that announces nothing and leaves the responses alone. -/
theorem Fresh.append {h os : List Obs} {s s' : Render} (hf : Fresh h s) (hos : Undisturbed os)
    (hhash : s'.pendingHash = s.pendingHash) (hresponse : s'.pendingResponse = s.pendingResponse)
    (hcached : s'.cachedResponse = s.cachedResponse) (hvalid : s'.cachedValid = s.cachedValid) :
    Fresh (h ++ os) s' := by
  constructor
  · rw [lastAnnounced_undisturbed h hos, hhash]
    exact hf.announcement
  · rw [hresponse, hhash]
    exact fun hne => (hf.response hne).append hos
  · rw [hvalid, hcached, hhash]
    exact fun hyes => (hf.cached hyes).append hos

/-- Adopting the stored response as the cached one. -/
theorem Fresh.adopt {h : List Obs} {s : Render} (hf : Fresh h s)
    (hne : s.pendingResponse ≠ []) : Fresh h (adopt s) :=
  ⟨hf.announcement, fun hnil => absurd rfl hnil, fun _ => hf.response hne⟩

/-- A new announcement rotates the state. -/
theorem Fresh.announce {h : List Obs} {s : Render} (hf : Fresh h s) (subPayload : Bytes) :
    Fresh (h ++ (handleAnnounceDelayed s subPayload).2)
      (handleAnnounceDelayed s subPayload).1 := by
  unfold handleAnnounceDelayed
  cases parseAnnouncement subPayload {} with
  | none => simpa using hf
  | some ann =>
      constructor
      · simp [lastAnnounced, Obs.announcedHash?]
      · exact fun hne => absurd rfl hne
      · intro hvalid
        cases hvalid

/-- An accepted payload replaces the stored response. -/
theorem Fresh.provide {h : List Obs} {s : Render} (hf : Fresh h s) (subPayload : Bytes) :
    Fresh (h ++ (handleProvideData s subPayload).2) (handleProvideData s subPayload).1 := by
  unfold handleProvideData
  cases parseProvideData subPayload {} with
  | none => simpa using hf
  | some pd =>
      by_cases hnone : s.pendingHash = []
      · simpa [hnone] using hf
      · by_cases hother : pd.contentHash ≠ s.pendingHash
        · simpa [hnone, hother] using hf
        · have hsame : pd.contentHash = s.pendingHash := not_not.mp hother
          simp only [if_neg hnone, if_neg hother]
          have hos : Undisturbed [.accepted pd.contentHash pd.data] := by
            simp [Undisturbed, Obs.announcedHash?]
          have hlast : lastAnnounced h = some s.pendingHash := by
            cases hl : lastAnnounced h with
            | none =>
                rw [hf.announcement, hl] at hnone
                exact absurd rfl hnone
            | some hash => rw [hf.announcement, hl, Option.getD_some]
          constructor
          · rw [lastAnnounced_undisturbed h hos]
            exact hf.announcement
          · intro _
            exact ⟨h, [], by rw [hsame], by simp [Undisturbed], hlast⟩
          · exact fun hvalid => (hf.cached hvalid).append hos

/-! ## Calls and what they read -/

/-- A call knows the snapshot it began with, and what it is about to render,
or has rendered, it read under that snapshot. -/
structure Tracked (h : List Obs) (s : Render) : Prop where
  unused : ∀ id, s.nextCall ≤ id → s.calls id = none
  began : ∀ id requested hash, .began id requested hash ∈ h →
    ∃ call, s.calls id = some call ∧ call.requested = requested ∧ call.hash = hash
  known : ∀ id call, s.calls id = some call → .began id call.requested call.hash ∈ h
  reading : ∀ id call data, s.calls id = some call → call.progress = .rendering data →
    ReadOwn h id call.hash data
  rendered : ∀ id requested data, .rendered id requested data ∈ h →
    ∃ call, s.calls id = some call ∧ call.requested = requested ∧ ReadOwn h id call.hash data

theorem tracked_initial (renderEvent : Option Bool) : Tracked [] (initial renderEvent) where
  unused _ _ := rfl
  began _ _ _ h := by cases h
  known _ _ h := by cases h
  reading _ _ _ h := by cases h
  rendered _ _ _ h := by cases h

/-- The observations that are about no particular call. -/
def Obs.general : Obs → Bool
  | .announced .. | .accepted .. | .requested .. => true
  | _ => false

/-- A step that is about no particular call. -/
theorem Tracked.append {h os : List Obs} {s s' : Render} (ht : Tracked h s)
    (hos : ∀ o ∈ os, o.general = true) (hcalls : s'.calls = s.calls)
    (hnext : s'.nextCall = s.nextCall) : Tracked (h ++ os) s' := by
  constructor
  · rw [hnext, hcalls]
    exact ht.unused
  · intro id requested hash hmem
    rw [hcalls]
    rcases List.mem_append.mp hmem with hold | hnew
    · exact ht.began id requested hash hold
    · exact absurd (hos _ hnew) (by simp [Obs.general])
  · rw [hcalls]
    exact fun id call hcall => List.mem_append_left _ (ht.known id call hcall)
  · rw [hcalls]
    exact fun id call data hcall hdata => (ht.reading id call data hcall hdata).append _
  · intro id requested data hmem
    rw [hcalls]
    rcases List.mem_append.mp hmem with hold | hnew
    · obtain ⟨call, hcall, hreq, hread⟩ := ht.rendered id requested data hold
      exact ⟨call, hcall, hreq, hread.append _⟩
    · exact absurd (hos _ hnew) (by simp [Obs.general])

/-- Moving a call on, with what it observes on the way: it may read bytes
that were accepted under its snapshot, and it may render bytes it has read. -/
theorem Tracked.move {h os : List Obs} {s s' : Render} (ht : Tracked h s) {id : Nat}
    {call : Call} {progress : Progress} (hcall : s.calls id = some call)
    (hcalls : s'.calls = Function.update s.calls id (some { call with progress := progress }))
    (hnext : s'.nextCall = s.nextCall)
    (hbegan : ∀ i requested hash, .began i requested hash ∉ os)
    (hread : ∀ data, progress = .rendering data → ReadOwn (h ++ os) id call.hash data)
    (hrendered : ∀ i requested data, .rendered i requested data ∈ os →
      i = id ∧ requested = call.requested ∧ ReadOwn h id call.hash data) :
    Tracked (h ++ os) s' := by
  have hself : s'.calls id = some { call with progress := progress } := by
    rw [hcalls, Function.update_self]
  have hother : ∀ i ≠ id, s'.calls i = s.calls i := by
    intro i hi
    rw [hcalls, Function.update_of_ne hi]
  -- the snapshot of every call is what it was
  have hkeep : ∀ i c, s.calls i = some c →
      ∃ c', s'.calls i = some c' ∧ c'.requested = c.requested ∧ c'.hash = c.hash := by
    intro i c hc
    by_cases hi : i = id
    · subst hi
      rw [hcall] at hc
      cases hc
      exact ⟨_, hself, rfl, rfl⟩
    · exact ⟨c, by rw [hother i hi, hc], rfl, rfl⟩
  constructor
  · intro i hi
    rw [hnext] at hi
    have hne : i ≠ id := by
      rintro rfl
      rw [ht.unused i hi] at hcall
      cases hcall
    rw [hother i hne, ht.unused i hi]
  · intro i requested hash hmem
    rcases List.mem_append.mp hmem with hold | hnew
    · obtain ⟨c, hc, hreq, hhash⟩ := ht.began i requested hash hold
      obtain ⟨c', hc', hreq', hhash'⟩ := hkeep i c hc
      exact ⟨c', hc', hreq'.trans hreq, hhash'.trans hhash⟩
    · exact absurd hnew (hbegan i requested hash)
  · intro i c hc
    refine List.mem_append_left _ ?_
    by_cases hi : i = id
    · subst hi
      rw [hself] at hc
      cases hc
      exact ht.known i call hcall
    · exact ht.known i c (by rwa [hother i hi] at hc)
  · intro i c data hc hdata
    by_cases hi : i = id
    · subst hi
      rw [hself] at hc
      cases hc
      exact hread data hdata
    · exact (ht.reading i c data (by rwa [hother i hi] at hc) hdata).append _
  · intro i requested data hmem
    rcases List.mem_append.mp hmem with hold | hnew
    · obtain ⟨c, hc, hreq, hown⟩ := ht.rendered i requested data hold
      obtain ⟨c', hc', hreq', hhash'⟩ := hkeep i c hc
      exact ⟨c', hc', hreq'.trans hreq, by rw [hhash']; exact hown.append _⟩
    · obtain ⟨rfl, rfl, hown⟩ := hrendered i requested data hnew
      exact ⟨_, hself, rfl, hown.append _⟩

/-- A new call. -/
theorem Tracked.start {h : List Obs} {s s' : Render} (ht : Tracked h s) (call : Call)
    (hcalls : s'.calls = Function.update s.calls s.nextCall (some call))
    (hnext : s'.nextCall = s.nextCall + 1) (hidle : ∀ data, call.progress ≠ .rendering data) :
    Tracked (h ++ [.began s.nextCall call.requested call.hash]) s' := by
  have hfree := ht.unused s.nextCall (le_refl _)
  have hself : s'.calls s.nextCall = some call := by rw [hcalls, Function.update_self]
  have hother : ∀ i ≠ s.nextCall, s'.calls i = s.calls i := by
    intro i hi
    rw [hcalls, Function.update_of_ne hi]
  have hold : ∀ {i c}, s.calls i = some c → s'.calls i = some c := by
    intro i c hc
    have hne : i ≠ s.nextCall := by
      rintro rfl
      rw [hfree] at hc
      cases hc
    rw [hother i hne, hc]
  constructor
  · intro i hi
    rw [hother i (by omega), ht.unused i (by omega)]
  · intro i requested hash hmem
    rcases List.mem_append.mp hmem with hmem | hmem
    · obtain ⟨c, hc, hsnap⟩ := ht.began i requested hash hmem
      exact ⟨c, hold hc, hsnap⟩
    · simp only [List.mem_singleton, Obs.began.injEq] at hmem
      obtain ⟨rfl, rfl, rfl⟩ := hmem
      exact ⟨call, hself, rfl, rfl⟩
  · intro i c hc
    by_cases hi : i = s.nextCall
    · subst hi
      rw [hself] at hc
      cases hc
      simp
    · exact List.mem_append_left _ (ht.known i c (by rwa [hother i hi] at hc))
  · intro i c data hc hdata
    by_cases hi : i = s.nextCall
    · subst hi
      rw [hself] at hc
      cases hc
      exact absurd hdata (hidle data)
    · exact (ht.reading i c data (by rwa [hother i hi] at hc) hdata).append _
  · intro i requested data hmem
    obtain ⟨c, hc, hreq, hown⟩ := ht.rendered i requested data (by simpa using hmem)
    exact ⟨c, hold hc, hreq, hown.append _⟩

/-! ## One step -/

/-- The invariant of every run. -/
def Inv (h : List Obs) (s : Render) : Prop := Fresh h s ∧ Tracked h s

/-- A call moves on without bytes. -/
theorem Inv.advance {h os : List Obs} {s : Render} (hi : Inv h s) {id : Nat} {call : Call}
    (hcall : s.calls id = some call) {progress : Progress}
    (hidle : ∀ data, progress ≠ .rendering data) (hos : ∀ o ∈ os, o.general = true)
    (hquiet : Undisturbed os) : Inv (h ++ os) (advance s id call progress) := by
  refine ⟨hi.1.append hquiet rfl rfl rfl rfl, hi.2.move hcall rfl rfl ?_ ?_ ?_⟩
  · exact fun i requested hash hmem => absurd (hos _ hmem) (by simp [Obs.general])
  · exact fun data hdata => absurd hdata (hidle data)
  · exact fun i requested data hmem => absurd (hos _ hmem) (by simp [Obs.general])

/-- A call reads bytes of the announcement it began with. -/
theorem Inv.read {h : List Obs} {s : Render} (hi : Inv h s) {id : Nat} {call : Call}
    (hcall : s.calls id = some call) (hhash : s.pendingHash = call.hash) {data : Bytes}
    (hdata : AcceptedSince h s.pendingHash data) :
    Inv (h ++ [.read id data]) (DelayedRender.advance s id call (.rendering data)) := by
  have hquiet : Undisturbed [.read id data] := by simp [Undisturbed, Obs.announcedHash?]
  refine ⟨hi.1.append hquiet rfl rfl rfl rfl, hi.2.move hcall rfl rfl (by simp) ?_ (by simp)⟩
  rintro data' ⟨⟩
  rw [← hhash]
  exact hdata.read id

/-- Adopting the stored response concerns no call. -/
theorem Inv.adopt {h : List Obs} {s : Render} (hi : Inv h s) (hne : s.pendingResponse ≠ []) :
    Inv h (adopt s) :=
  ⟨hi.1.adopt hne, hi.2.unused, hi.2.began, hi.2.known, hi.2.reading, hi.2.rendered⟩

@[simp]
theorem calls_advance (s : Render) (id : Nat) (call : Call) (p : Progress) :
    (advance s id call p).calls id = some { call with progress := p } := by
  simp [advance]

@[simp]
theorem advance_advance (s : Render) (id : Nat) (call : Call) (p q : Progress) :
    advance (advance s id call p) id call q = advance s id call q := by
  simp [advance]

/-- The state in which a new call looks for data. -/
theorem Inv.start {h : List Obs} {s : Render} (hi : Inv h s) (format : Nat)
    (requested : ClipboardContentType) {p : Progress} (hidle : ∀ data, p ≠ .rendering data) :
    Inv (h ++ [.began s.nextCall requested s.pendingHash])
      (DelayedRender.advance { s with nextCall := s.nextCall + 1 } s.nextCall
        ⟨format, requested, s.pendingHash, .requesting⟩ p) := by
  have hquiet : Undisturbed [.began s.nextCall requested s.pendingHash] := by
    simp [Undisturbed, Obs.announcedHash?]
  exact ⟨hi.1.append hquiet rfl rfl rfl rfl,
    hi.2.start ⟨format, requested, s.pendingHash, p⟩ rfl rfl hidle⟩

/-- A new call that finds bytes at once. -/
theorem Inv.startReading {h : List Obs} {s : Render} (hi : Inv h s) (format : Nat)
    (requested : ClipboardContentType) {data : Bytes}
    (hdata : AcceptedSince h s.pendingHash data) :
    Inv (h ++ [.began s.nextCall requested s.pendingHash, .read s.nextCall data])
      (DelayedRender.advance { s with nextCall := s.nextCall + 1 } s.nextCall
        ⟨format, requested, s.pendingHash, .requesting⟩ (.rendering data)) := by
  have hquiet : Undisturbed [.began s.nextCall requested s.pendingHash] := by
    simp [Undisturbed, Obs.announcedHash?]
  have hnew := hi.start format requested (p := .requesting) (by simp)
  have hread := hnew.read (calls_advance _ _ _ _) rfl (hdata.append hquiet)
  rwa [advance_advance, List.append_assoc] at hread

theorem Inv.begin {h : List Obs} {s : Render} (hi : Inv h s) (format : Nat)
    (cacheOnly : Bool) :
    Inv (h ++ (begin s format cacheOnly).2) (begin s format cacheOnly).1 := by
  unfold DelayedRender.begin
  cases requestedType format with
  | none => simpa using hi
  | some requested =>
      by_cases hnone : s.pendingHash = []
      · simpa [hnone] using hi
      by_cases htype : s.pendingType ≠ requested
      · simpa [hnone, htype] using hi
      simp only [if_neg hnone, if_neg htype]
      by_cases hcached : s.cachedValid = true
      · rw [if_pos hcached]
        exact hi.startReading format requested (hi.1.cached hcached)
      rw [if_neg hcached]
      by_cases hresponse : s.pendingResponse ≠ []
      · rw [if_pos hresponse]
        exact (hi.adopt hresponse).startReading format requested (hi.1.response hresponse)
      rw [if_neg hresponse]
      cases cacheOnly with
      | true => exact hi.start format requested (by simp)
      | false => exact hi.start format requested (by simp)

theorem Inv.send {h os : List Obs} {s s' : Render} (hi : Inv h s) {id : Nat} {ok : Bool}
    (hstep : send s id ok = some (s', os)) : Inv (h ++ os) s' := by
  unfold DelayedRender.send at hstep
  split at hstep
  · rename_i format requested hash hcall
    split at hstep
    · cases hstep
      exact hi.advance hcall (by simp) (by simp) (by simp [Undisturbed])
    · split at hstep
      · cases hstep
        exact hi.advance hcall (by simp) (by simp [Obs.general])
          (by simp [Undisturbed, Obs.announcedHash?])
      · cases hstep
        exact hi.advance hcall (by simp) (by simp [Obs.general])
          (by simp [Undisturbed, Obs.announcedHash?])
  · cases hstep

theorem Inv.wait {h os : List Obs} {s s' : Render} (hi : Inv h s) {id : Nat} {wake : Wake}
    (hstep : wait s id wake = some (s', os)) : Inv (h ++ os) s' := by
  unfold DelayedRender.wait at hstep
  split at hstep
  · rename_i format requested hash hcall
    -- every exit without bytes only moves the call on
    have hmove : ∀ p, (∀ data, p ≠ Progress.rendering data) →
        Inv (h ++ []) (DelayedRender.advance s id ⟨format, requested, hash, .waiting⟩ p) :=
      fun p hp => hi.advance hcall hp (by simp) (by simp [Undisturbed])
    cases wake with
    | signalled =>
        simp only at hstep
        split at hstep
        · cases hstep
          exact hmove .woken (by simp)
        · cases hstep
    | pumped =>
        simp only at hstep
        split at hstep
        · cases hstep
          exact hmove .finished (by simp)
        · rename_i hhash
          split at hstep
          · rename_i hcached
            cases hstep
            exact hi.read hcall (not_not.mp hhash) (hi.1.cached hcached)
          · cases hstep
            simpa using hi
    | quit =>
        cases hstep
        exact hmove .finished (by simp)
    | expired =>
        cases hstep
        exact hmove .finished (by simp)
  · cases hstep

theorem Inv.collect {h os : List Obs} {s s' : Render} (hi : Inv h s) {id : Nat}
    (hstep : collect s id = some (s', os)) : Inv (h ++ os) s' := by
  unfold DelayedRender.collect at hstep
  split at hstep
  · rename_i format requested hash hcall
    split at hstep
    · cases hstep
      exact hi.advance hcall (by simp) (by simp) (by simp [Undisturbed])
    · rename_i hhash
      split at hstep
      · rename_i hresponse
        cases hstep
        exact (hi.adopt hresponse).read hcall (not_not.mp hhash) (hi.1.response hresponse)
      · split at hstep
        · rename_i hcached
          cases hstep
          exact hi.read hcall (not_not.mp hhash) (hi.1.cached hcached)
        · cases hstep
          exact hi.advance hcall (by simp) (by simp) (by simp [Undisturbed])
  · cases hstep

theorem Inv.render {h os : List Obs} {s s' : Render} (hi : Inv h s) {id : Nat}
    (hstep : render s id = some (s', os)) : Inv (h ++ os) s' := by
  unfold DelayedRender.render at hstep
  split at hstep
  · rename_i format requested hash response hcall
    cases hstep
    have hquiet : Undisturbed [.rendered id requested response] := by
      simp [Undisturbed, Obs.announcedHash?]
    have hown := hi.2.reading id _ response hcall rfl
    refine ⟨hi.1.append hquiet rfl rfl rfl rfl, hi.2.move hcall rfl rfl (by simp) (by simp) ?_⟩
    intro i requested' data hmem
    simp only [List.mem_singleton, Obs.rendered.injEq] at hmem
    obtain ⟨rfl, rfl, rfl⟩ := hmem
    exact ⟨rfl, rfl, hown⟩
  · cases hstep

/-- **One step keeps the invariant.** -/
theorem step_inv {h os : List Obs} {s s' : Render} {a : Action} (hi : Inv h s)
    (hstep : machine.step s a = some (s', os)) : Inv (h ++ os) s' := by
  cases a with
  | announce subPayload =>
      have hnext : Inv (h ++ (handleAnnounceDelayed s subPayload).2)
          (handleAnnounceDelayed s subPayload).1 := by
        refine ⟨hi.1.announce subPayload, hi.2.append ?_ ?_ ?_⟩
        · unfold handleAnnounceDelayed
          split <;> simp [Obs.general]
        · unfold handleAnnounceDelayed
          split <;> rfl
        · unfold handleAnnounceDelayed
          split <;> rfl
      rwa [Option.some.inj hstep] at hnext
  | provide subPayload =>
      have hnext : Inv (h ++ (handleProvideData s subPayload).2)
          (handleProvideData s subPayload).1 := by
        refine ⟨hi.1.provide subPayload, hi.2.append ?_ ?_ ?_⟩
        · unfold handleProvideData
          (repeat' split) <;> simp [Obs.general]
        · unfold handleProvideData
          (repeat' split) <;> rfl
        · unfold handleProvideData
          (repeat' split) <;> rfl
      rwa [Option.some.inj hstep] at hnext
  | cancelPendingRender =>
      cases hstep
      exact ⟨hi.1.append (by simp [Undisturbed]) rfl rfl rfl rfl,
        hi.2.append (by simp) rfl rfl⟩
  | begin format cacheOnly =>
      have hnext := hi.begin format cacheOnly
      rwa [Option.some.inj hstep] at hnext
  | send id ok => exact hi.send hstep
  | wait id wake => exact hi.wait hstep
  | collect id => exact hi.collect hstep
  | render id => exact hi.render hstep

/-- **Own announcement only.**  Whatever an `OnRenderFormat` call renders is
the payload of a `PROVIDE_DATA` that carried the hash the call had snapshotted
when it began; it was accepted while that hash was announced, and no
announcement came between its acceptance and the moment the call read it. -/
theorem rendered_own_announcement {renderEvent : Option Bool} {h : List Obs} {s : Render}
    (hrun : Machine.Run machine Machine.always (initial renderEvent) h s) {id : Nat}
    {requested : ClipboardContentType} {data : Bytes}
    (hmem : .rendered id requested data ∈ h) :
    ∃ hash, .began id requested hash ∈ h ∧
      (∀ requested' hash', .began id requested' hash' ∈ h → hash' = hash) ∧
      ∃ pre mid post, h = pre ++ .accepted hash data :: (mid ++ .read id data :: post) ∧
        (∀ o ∈ mid, o.announcedHash? = none) ∧ lastAnnounced pre = some hash := by
  have hi : Inv h s := by
    refine hrun.history_invariant Inv ⟨fresh_initial renderEvent, tracked_initial renderEvent⟩ ?_
    exact fun h s a s' os hi _ hstep => step_inv hi hstep
  obtain ⟨call, hcall, rfl, hown⟩ := hi.2.rendered id requested data hmem
  refine ⟨call.hash, hi.2.known id call hcall, ?_, hown⟩
  intro requested' hash' hbegan
  obtain ⟨call', hcall', -, hhash'⟩ := hi.2.began id requested' hash' hbegan
  rw [hcall] at hcall'
  cases hcall'
  exact hhash'.symm

/-- A paste of announced text: the payload `hi` arrives while an outer and a
nested call wait for it, the nested call collects it, and the outer one
renders the cached bytes. -/
theorem rendered_own_announcement_nested :
    ∃ h s, Machine.Run machine Machine.always (initial (some false)) h s ∧
      ∃ hash, .began 0 .text hash ∈ h ∧
        (∀ requested' hash', .began 0 requested' hash' ∈ h → hash' = hash) ∧
        ∃ pre mid post, h = pre ++ .accepted hash [0x68, 0x69] ::
            (mid ++ .read 0 [0x68, 0x69] :: post) ∧
          (∀ o ∈ mid, o.announcedHash? = none) ∧ lastAnnounced pre = some hash := by
  have hexec : (machine.exec (initial (some false))
      [.announce [0x08, 0x01, 0x12, 0x01, 0x23], .begin 13 false, .send 0 true,
        .begin 13 false, .send 1 true, .provide [0x0A, 0x01, 0x23, 0x12, 0x02, 0x68, 0x69],
        .wait 1 .signalled, .collect 1, .render 1, .wait 0 .pumped, .render 0]).map
        (fun r => r.2) =
      some [.announced [0x23] .text, .began 0 .text [0x23], .requested [0x23] .text,
        .began 1 .text [0x23], .requested [0x23] .text, .accepted [0x23] [0x68, 0x69],
        .read 1 [0x68, 0x69], .rendered 1 .text [0x68, 0x69], .read 0 [0x68, 0x69],
        .rendered 0 .text [0x68, 0x69]] := by
    decide
  obtain ⟨h, s, hrun, hhist⟩ := Machine.Run.of_exec_map hexec
  refine ⟨h, s, hrun, rendered_own_announcement hrun ?_⟩
  simp only at hhist
  simp [hhist]

end DelayedRender
