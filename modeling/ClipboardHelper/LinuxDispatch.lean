import ClipboardHelper.LinuxCodec
import ClipboardHelper.WaylandClipboard
import ClipboardHelper.X11Clipboard

/-!
# The Linux dispatcher and its two backends

`dispatch.cpp`: a frame is decoded and turned into at most one call of the
`ClipboardManager`; the manager in turn asks for data by a callback, which
becomes a `DATA_REQUEST` frame.  A backend is what the dispatcher sees of a
manager: the action of each call, its other actions, and the requests among
its observations.

* **`delayed_data_fresh`**: under both backends the slot holds data of the
  latest announcement only, and what a waiting reader gets was stored for its
  hash after that announcement.
* **`requests_agree`**: a `DATA_REQUEST` carries the hash of an announcement
  that the parent made; it carries its content type as well in every run in
  which only texts are pasted.  The callback is not told the kind of what it
  asks for and always says text (`image_requested_as_text`).
-/

namespace LinuxDispatch

open Library ProtoWire PasteFormats DelayedSlot LinuxCodec
open DispatchCodec (HelperMessageType ClipboardContentType)

/-! ## The dispatcher -/

/-- The calls that the dispatcher makes; the three `AnnounceDelayed*` differ
in the kind. -/
inductive Call
  | setClipboardText (utf8 : Bytes)
  | setClipboardImage (webpBytes : Bytes)
  | announceDelayed (kind : ContentKind) (contentHash : Bytes)
  | provideData (contentHash data : Bytes)
deriving DecidableEq, Repr

/-- What becomes of a frame: an immediate reply (none, if empty), a call, or
one of the two requests that do not concern the slot. -/
inductive Handled
  | reply (frame : Bytes)
  | call (c : Call)
  | getClipboard
  | shutdown
deriving DecidableEq, Repr

def replyError (message : String) (clock : UInt64) : Handled :=
  .reply (encodeError (ascii message) clock)

/-- The kind that a content type stands for. -/
def kindOf (type : ClipboardContentType) : Option ContentKind :=
  if type = .text then some .text
  else if type = .image then some .image
  else if type = .files then some .files
  else none

/-- The content type of an announcement of that kind. -/
def typeOf : ContentKind → ClipboardContentType
  | .text => .text
  | .image => .image
  | .files => .files

/-- The sub-message that a handler is given, if it is there and not empty. -/
def present (sub : Option Slice) : Option Bytes :=
  match sub with
  | some s => if s.bytes = [] then none else some s.bytes
  | none => none

def handleSetClipboard (sub : Option Slice) (clock : UInt64) : Handled :=
  match present sub with
  | none => replyError "SET_CLIPBOARD missing clipboard_data" clock
  | some data =>
    match parseClipboardData data with
    | none => replyError "SET_CLIPBOARD parse failure" clock
    | some cd =>
      let payload := (cd.payload.map Slice.bytes).getD []
      if cd.contentType = .text then .call (.setClipboardText payload)
      else if cd.contentType = .image then .call (.setClipboardImage payload)
      else if cd.contentType = .files then
        replyError "SET_CLIPBOARD: FILES not yet supported on Linux helper" clock
      else replyError "SET_CLIPBOARD: unknown content_type" clock

def handleAnnounceDelayed (sub : Option Slice) (clock : UInt64) : Handled :=
  match present sub with
  | none => replyError "ANNOUNCE_DELAYED missing announcement" clock
  | some data =>
    match parseAnnouncement data with
    | none => replyError "ANNOUNCE_DELAYED parse failure" clock
    | some ann =>
      match kindOf ann.contentType with
      | some kind => .call (.announceDelayed kind ann.contentHash)
      | none => replyError "ANNOUNCE_DELAYED: unknown content_type" clock

def handleProvideData (sub : Option Slice) (clock : UInt64) : Handled :=
  match present sub with
  | none => replyError "PROVIDE_DATA missing payload" clock
  | some data =>
    match parseProvideData data with
    | none => replyError "PROVIDE_DATA parse failure" clock
    | some pd => .call (.provideData pd.contentHash pd.data)

/-- `Dispatcher::Handle`. -/
def handle (frame : Bytes) (clock : UInt64) : Handled :=
  match parseHelperMessage frame with
  | none => replyError "malformed HelperMessage" clock
  | some msg =>
    if msg.type = .setClipboard then handleSetClipboard msg.clipboardData clock
    else if msg.type = .announceDelayed then handleAnnounceDelayed msg.announcement clock
    else if msg.type = .provideData then handleProvideData msg.provideData clock
    else if msg.type = .getClipboard then .getClipboard
    else if msg.type = .shutdown then .shutdown
    else if msg.type = .fileChunkRequest ∨ msg.type = .fileChunkData ∨
        msg.type = .fileTransferProgress then
      replyError "FILES path not yet supported on Linux helper" clock
    else replyError "unknown HelperMessageType" clock

/-- A `ClipboardManager` as the dispatcher sees it. -/
structure Backend (σ α ο : Type) where
  machine : Machine σ α ο
  /-- The action of the socket thread that begins a call. -/
  perform : Call → α
  /-- The actions that are not the beginning of a call. -/
  isCall : α → Bool
  /-- The hash that the request callback is given. -/
  requested? : ο → Option Bytes
  /-- The kind of the announcement whose data an action asks the parent
  for. -/
  asked : σ → α → Option ContentKind

inductive Input (α : Type)
  | frame (frame : Bytes) (clock : UInt64)
  | backend (a : α) (clock : UInt64)
deriving DecidableEq, Repr

inductive Out
  /-- The parent announced data of this type under this hash. -/
  | announced (type : ClipboardContentType) (contentHash : Bytes)
  | replied (frame : Bytes)
  /-- A frame was sent to the parent from a callback. -/
  | sent (frame : Bytes)
deriving DecidableEq, Repr

def Call.announcement : Call → List Out
  | .announceDelayed kind contentHash => [.announced (typeOf kind) contentHash]
  | _ => []

section

variable {σ α ο : Type} (b : Backend σ α ο)

/-- The callback of `Attach`: a request becomes a frame, which says text. -/
def requestFrames (clock : UInt64) (os : List ο) : List Out :=
  (os.filterMap b.requested?).map
    (fun hash => .sent (encodeDataRequest hash ClipboardContentType.text clock))

/-- **The dispatcher over a backend.**  The reply to `GET_CLIPBOARD` does not
come from the slot and is not followed here. -/
def dispatcher : Machine σ (Input α) Out where
  step s
    | .frame frame clock =>
      match handle frame clock with
      | .reply reply => some (s, [.replied reply])
      | .call c =>
        match b.machine.step s (b.perform c) with
        | some (s', os) => some (s', c.announcement ++ requestFrames b clock os)
        | none => none
      | .getClipboard | .shutdown => some (s, [])
    | .backend a clock =>
      if b.isCall a then none
      else
        match b.machine.step s a with
        | some (s', os) => some (s', requestFrames b clock os)
        | none => none

/-! ## Requests and announcements -/

/-- `DATA_REQUEST` agrees with an announcement: a frame from the callback
carries the hash and the content type of one that was made before. -/
def Agreed (before : List Out) : Out → Prop
  | .sent frame => ∃ type contentHash clock, .announced type contentHash ∈ before ∧
      frame = encodeDataRequest contentHash type clock
  | _ => True

/-- **Only texts are asked for**: an action that asks the parent for data does
so for an announcement of text. -/
def TextOnly (s : σ) : Input α → Prop
  | .frame _ _ => True
  | .backend a _ => ∀ kind, b.asked s a = some kind → kind = .text

/-- The announcements that a history shows. -/
def announcedIn (h : List Out) (kind : ContentKind) (contentHash : Bytes) : Prop :=
  .announced (typeOf kind) contentHash ∈ h

/-- **A backend keeps track of announcements**: with `Inv` relating the
announcements made so far to its state, calls never request data, and other
actions request it only for an announcement of the kind they ask for. -/
structure Tracks (s₀ : σ) (Inv : (ContentKind → Bytes → Prop) → σ → Prop) : Prop where
  mono : ∀ P Q s, (∀ kind hash, P kind hash → Q kind hash) → Inv P s → Inv Q s
  initial : Inv (fun _ _ => False) s₀
  call : ∀ P s c s' os, Inv P s → b.machine.step s (b.perform c) = some (s', os) →
    Inv (fun kind hash => P kind hash ∨ c = .announceDelayed kind hash) s' ∧
      os.filterMap b.requested? = []
  other : ∀ P s a s' os, Inv P s → b.isCall a = false → b.machine.step s a = some (s', os) →
    Inv P s' ∧ ∀ hash ∈ os.filterMap b.requested?, ∃ kind, b.asked s a = some kind ∧ P kind hash

variable {b} {s₀ : σ} {Inv : (ContentKind → Bytes → Prop) → σ → Prop}

theorem Tracks.append (ht : Tracks b s₀ Inv) {h os : List Out} {s : σ}
    (hi : Inv (announcedIn h) s) : Inv (announcedIn (h ++ os)) s :=
  ht.mono _ _ s (fun _ _ hmem => List.mem_append_left os hmem) hi

theorem Tracks.step (ht : Tracks b s₀ Inv) {h os : List Out} {s s' : σ} {i : Input α}
    (hi : Inv (announcedIn h) s ∧ Whenever Agreed h) (hok : TextOnly b s i)
    (hstep : (dispatcher b).step s i = some (s', os)) :
    Inv (announcedIn (h ++ os)) s' ∧ Whenever Agreed (h ++ os) := by
  cases i with
  | frame frame clock =>
      simp only [dispatcher] at hstep
      split at hstep
      · cases hstep
        exact ⟨ht.append hi.1, hi.2.snoc trivial⟩
      · rename_i c _
        split at hstep
        · rename_i s'' os' hcall
          cases hstep
          obtain ⟨hinv, hnone⟩ := ht.call _ s c s' os' hi.1 hcall
          simp only [requestFrames, hnone, List.map_nil, List.append_nil]
          refine ⟨ht.mono _ _ s' ?_ hinv, ?_⟩
          · intro kind hash hor
            rcases hor with hbefore | rfl
            · exact List.mem_append_left _ hbefore
            · exact List.mem_append_right _ List.mem_cons_self
          · cases c with
            | announceDelayed kind contentHash => exact hi.2.snoc trivial
            | setClipboardText | setClipboardImage | provideData =>
                simpa [Call.announcement] using hi.2
        · cases hstep
      · cases hstep
        exact ⟨ht.append hi.1, by simpa using hi.2⟩
      · cases hstep
        exact ⟨ht.append hi.1, by simpa using hi.2⟩
  | backend a clock =>
      simp only [dispatcher] at hstep
      split at hstep
      · cases hstep
      · rename_i hcall
        split at hstep
        · rename_i s'' os' hbackend
          cases hstep
          obtain ⟨hinv, hrequests⟩ :=
            ht.other _ s a s' os' hi.1 (by simpa using hcall) hbackend
          refine ⟨ht.append hinv, hi.2.append ?_⟩
          intro before o after heq
          have hmem : o ∈ requestFrames b clock os' := by simp [heq]
          obtain ⟨hash, hhash, rfl⟩ := List.mem_map.mp hmem
          obtain ⟨kind, hasked, hannounced⟩ := hrequests hash hhash
          -- the frame says text, and text is what was asked for
          obtain rfl := hok kind hasked
          exact ⟨.text, hash, clock, List.mem_append_left before hannounced, rfl⟩
        · cases hstep

/-- Over a backend that keeps track of announcements, requests agree with
them as long as only texts are asked for. -/
theorem Tracks.agreed (ht : Tracks b s₀ Inv) {h : List Out} {s : σ}
    (hrun : (dispatcher b).Run (TextOnly b) s₀ h s) : Whenever Agreed h := by
  have hall : Inv (announcedIn h) s ∧ Whenever Agreed h := by
    refine hrun.history_invariant (fun h s => Inv (announcedIn h) s ∧ Whenever Agreed h)
      ⟨ht.mono _ _ s₀ (fun _ _ hfalse => hfalse.elim) ht.initial, Whenever.nil⟩ ?_
    intro h s i s' os hi hok hstep
    exact ht.step hi hok hstep
  exact hall.2

end

/-! ## The Wayland backends -/

section Wayland

open WaylandClipboard

def performWayland : Call → Action
  | .setClipboardText utf8 => .offer (.text utf8)
  | .setClipboardImage webpBytes => .offer (.image webpBytes)
  | .announceDelayed kind contentHash => .offer (.delayed kind contentHash)
  | .provideData contentHash data => .provideData contentHash data

/-- A `send` event that finds no data asks for what the slot announces. -/
def askedWayland (m : Manager) : Action → Option ContentKind
  | .send _ _ _ =>
    if m.currentSource.isSome ∧ m.state.dataFor m.state.currentHash = none then
      some m.state.contentKind
    else none
  | _ => none

def waylandRequest? : Obs → Option Bytes
  | .requested hash => some hash
  | _ => none

def waylandBackend (lib : ImageLibrary) : Backend Manager Action Obs where
  machine := WaylandClipboard.machine lib
  perform := performWayland
  isCall
    | .offer _ | .provideData _ _ => true
    | _ => false
  requested? := waylandRequest?
  asked := askedWayland

/-- Data is in the slot, or what it waits for has been announced. -/
def Served (P : ContentKind → Bytes → Prop) (s : State) : Prop :=
  (s.dataFor s.currentHash).isSome ∨ P s.contentKind s.currentHash

/-- A source exists only once an offer has taken the slot, and then the slot
is served. -/
structure WaylandTracks (P : ContentKind → Bytes → Prop) (m : Manager) : Prop where
  begun : m.currentSource.isSome ∨ m.posting.isSome ∨ m.tasks ≠ [] → 0 < m.offers
  served : 0 < m.offers → Served P m.state

theorem served_take (P : ContentKind → Bytes → Prop) (s : State) (offer : Offer) :
    Served (fun kind hash => P kind hash ∨ offer = .delayed kind hash) (offer.take s) := by
  cases offer with
  | text utf8 => exact .inl (by simp [Offer.take, setClipboardText, State.eager, State.dataFor])
  | image webpBytes =>
      exact .inl (by simp [Offer.take, setClipboardImage, State.eager, State.dataFor])
  | delayed kind contentHash =>
      refine .inr (.inr ?_)
      cases kind <;> rfl

theorem served_provideData {P : ContentKind → Bytes → Prop} {s s' : State} {hash data : Bytes}
    (h : s.provideData hash data = some s') : Served P s' := by
  unfold State.provideData at h
  split at h
  · cases h
  · rename_i hkey
    cases h
    obtain rfl := not_not.mp hkey
    exact .inl (by simp [State.dataFor])

theorem waylandTracks_offer {lib : ImageLibrary} {P : ContentKind → Bytes → Prop}
    {m m' : Manager} {offer : Offer} {os : List Obs}
    (hstep : (WaylandClipboard.machine lib).step m (.offer offer) = some (m', os)) :
    WaylandTracks (fun kind hash => P kind hash ∨ offer = .delayed kind hash) m' ∧
      os.filterMap waylandRequest? = [] := by
  cases WaylandClipboard.step_cases hstep with
  | offered =>
      exact ⟨⟨fun _ => Nat.succ_pos m.offers, fun _ => served_take P m.state offer⟩, rfl⟩

theorem waylandTracks_mono {P Q : ContentKind → Bytes → Prop} {m : Manager}
    (hPQ : ∀ kind hash, P kind hash → Q kind hash) (hi : WaylandTracks P m) :
    WaylandTracks Q m where
  begun := hi.begun
  served hpos := (hi.served hpos).imp_right (hPQ _ _)

theorem waylandTracks_call {lib : ImageLibrary} {P : ContentKind → Bytes → Prop}
    {m m' : Manager} {c : Call} {os : List Obs} (hi : WaylandTracks P m)
    (hstep : (WaylandClipboard.machine lib).step m (performWayland c) = some (m', os)) :
    WaylandTracks (fun kind hash => P kind hash ∨ c = .announceDelayed kind hash) m' ∧
      os.filterMap waylandRequest? = [] := by
  cases c with
  | setClipboardText utf8 =>
      obtain ⟨htracks, hnone⟩ := waylandTracks_offer (P := P) hstep
      exact ⟨waylandTracks_mono (by simp) htracks, hnone⟩
  | setClipboardImage webpBytes =>
      obtain ⟨htracks, hnone⟩ := waylandTracks_offer (P := P) hstep
      exact ⟨waylandTracks_mono (by simp) htracks, hnone⟩
  | announceDelayed kind contentHash =>
      obtain ⟨htracks, hnone⟩ := waylandTracks_offer (P := P) hstep
      exact ⟨waylandTracks_mono (by simp) htracks, hnone⟩
  | provideData contentHash data =>
      cases WaylandClipboard.step_cases hstep with
      | provided hstate => exact ⟨⟨hi.begun, fun _ => served_provideData hstate⟩, rfl⟩
      | discarded => exact ⟨waylandTracks_mono (fun _ _ => .inl) hi, rfl⟩

theorem finishWorker_request (lib : ImageLibrary) (w : Worker) (calls : List WriteCall)
    (outcome : Outcome) : (finishWorker lib w calls outcome).filterMap waylandRequest? = [] := by
  cases outcome with
  | wrote payload kind => rfl
  | stopping => rfl
  | stale => rfl
  | timeout => rfl

theorem waylandTracks_other {lib : ImageLibrary} {P : ContentKind → Bytes → Prop}
    {m m' : Manager} {a : Action} {os : List Obs} (hi : WaylandTracks P m)
    (hcall : (waylandBackend lib).isCall a = false)
    (hstep : (WaylandClipboard.machine lib).step m a = some (m', os)) :
    WaylandTracks P m' ∧ ∀ hash ∈ os.filterMap waylandRequest?,
      ∃ kind, askedWayland m a = some kind ∧ P kind hash := by
  cases WaylandClipboard.step_cases hstep with
  | offered | provided | discarded => cases hcall
  | posted hposting =>
      have hpos := hi.begun (.inr (.inl (by simp [hposting])))
      exact ⟨⟨fun _ => hpos, hi.served⟩, by simp⟩
  | ran htasks =>
      have hpos := hi.begun (.inr (.inr (by simp [htasks])))
      exact ⟨⟨fun _ => hpos, hi.served⟩, by simp⟩
  | sent => exact ⟨hi, by simp [waylandRequest?]⟩
  | asked hsource hnone =>
      have hpos := hi.begun (.inl (by simp [hsource]))
      refine ⟨⟨hi.begun, hi.served⟩, ?_⟩
      intro hash hmem
      obtain rfl : hash = m.state.currentHash := by simpa [waylandRequest?] using hmem
      refine ⟨m.state.contentKind, by simp [askedWayland, hsource, hnone], ?_⟩
      rcases hi.served hpos with hsome | hannounced
      · rw [hnone] at hsome
        cases hsome
      · exact hannounced
  | cancelled => exact ⟨⟨fun hor => hi.begun (hor.imp_left (by simp)), hi.served⟩, by simp⟩
  | asleep => exact ⟨hi, by simp⟩
  | woken => exact ⟨⟨hi.begun, hi.served⟩, by simp [finishWorker_request]⟩
  | destroyed =>
      refine ⟨⟨fun hor => hi.begun (hor.imp_left (by simp)), ?_⟩, by simp⟩
      exact fun hpos => hi.served hpos

theorem wayland_tracks (lib : ImageLibrary) :
    Tracks (waylandBackend lib) {} WaylandTracks where
  mono := fun _ _ _ hPQ hi => waylandTracks_mono hPQ hi
  initial := ⟨by simp, by simp⟩
  call := fun _ _ _ _ _ hi hstep => waylandTracks_call hi hstep
  other := fun _ _ _ _ _ hi hcall hstep => waylandTracks_other hi hcall hstep

end Wayland

/-! ## The X11 backend -/

section X11

open X11Clipboard

def performX11 : Call → Action
  | .setClipboardText utf8 => .setClipboardText utf8
  | .setClipboardImage webpBytes => .setClipboardImage webpBytes
  | .announceDelayed kind contentHash => .announceDelayed kind contentHash
  | .provideData contentHash data => .provideData contentHash data

/-- The announcement that is asked for its data: by a consumer, or by
`OnClipboardChanged` on an object it does not recognise. -/
def askedX11 (m : Manager) : Action → Option ContentKind
  | .retrieve _ _ =>
    match m.clipboard with
    | some ⟨_, .delayed hash kind⟩ => if m.state.dataFor hash = none then some kind else none
    | _ => none
  | .deliver =>
    match m.clipboard with
    | some ⟨pointer, .delayed hash kind⟩ =>
      if m.echo.announcedMime ≠ some pointer ∧ kind ≠ .image ∧ m.state.dataFor hash = none then
        some kind
      else none
    | _ => none
  | _ => none

def x11Request? : Obs → Option Bytes
  | .requested hash => some hash
  | _ => none

def x11Backend (lib : ImageLibrary) (qt : Qt) : Backend Manager Action Obs where
  machine := X11Clipboard.machine lib qt
  perform := performX11
  isCall
    | .setClipboardText _ | .setClipboardImage _ | .announceDelayed _ _ | .provideData _ _ => true
    | _ => false
  requested? := x11Request?
  asked := askedX11

/-- Every delayed object, on the clipboard or on its way to it, was
announced. -/
structure X11Tracks (P : ContentKind → Bytes → Prop) (m : Manager) : Prop where
  posting : ∀ hash kind, m.posting = some (.announce hash kind) → P kind hash
  tasks : ∀ hash kind, .announce hash kind ∈ m.tasks → P kind hash
  clipboard : ∀ pointer hash kind, m.clipboard = some ⟨pointer, .delayed hash kind⟩ → P kind hash

theorem x11Tracks_mono {P Q : ContentKind → Bytes → Prop} {m : Manager}
    (hPQ : ∀ kind hash, P kind hash → Q kind hash) (hi : X11Tracks P m) : X11Tracks Q m where
  posting hash kind h := hPQ kind hash (hi.posting hash kind h)
  tasks hash kind h := hPQ kind hash (hi.tasks hash kind h)
  clipboard pointer hash kind h := hPQ kind hash (hi.clipboard pointer hash kind h)

/-- The same objects on the clipboard and on their way to it. -/
def SameObjects (m m' : Manager) : Prop :=
  m'.posting = m.posting ∧ m'.tasks = m.tasks ∧ m'.clipboard = m.clipboard

theorem X11Tracks.same {P : ContentKind → Bytes → Prop} {m m' : Manager} (hi : X11Tracks P m)
    (hsame : SameObjects m m') : X11Tracks P m' := by
  obtain ⟨hposting, htasks, hclipboard⟩ := hsame
  refine ⟨?_, ?_, ?_⟩
  · rw [hposting]
    exact hi.posting
  · rw [htasks]
    exact hi.tasks
  · rw [hclipboard]
    exact hi.clipboard

theorem textChanged_same (m : Manager) (utf8 : Bytes) : SameObjects m (textChanged m utf8).1 := by
  unfold textChanged EchoSuppressor.consumeEagerSetTextEcho
  split <;> exact ⟨rfl, rfl, rfl⟩

theorem finishWait_same (lib : ImageLibrary) (qt : Qt) (m : Manager) (w : Waiter)
    (bytes : Option Bytes) :
    SameObjects m (finishWait lib qt m w bytes).1 ∧
      (finishWait lib qt m w bytes).2.filterMap x11Request? = [] := by
  unfold finishWait
  cases w.reader with
  | consumer mimeType type => cases bytes <;> exact ⟨⟨rfl, rfl, rfl⟩, rfl⟩
  | ownEcho => cases bytes <;> exact ⟨textChanged_same m _, rfl⟩

/-- A wait asks for its own hash, and only when no data is there. -/
theorem waitForBytes_same (lib : ImageLibrary) (qt : Qt) (m : Manager) (w : Waiter) :
    SameObjects m (waitForBytes lib qt m w).1 ∧
      ∀ hash ∈ (waitForBytes lib qt m w).2.filterMap x11Request?,
        hash = w.hash ∧ m.state.dataFor w.hash = none := by
  unfold waitForBytes
  cases hdata : m.state.dataFor w.hash with
  | some payload =>
      obtain ⟨hsame, hnone⟩ := finishWait_same lib qt m w (some payload)
      exact ⟨hsame, by simp [hnone]⟩
  | none => exact ⟨⟨rfl, rfl, rfl⟩, by simp [x11Request?]⟩

theorem onClipboardChanged_same (lib : ImageLibrary) (qt : Qt) (m : Manager) (mime : Mime) :
    SameObjects m (onClipboardChanged lib qt m mime).1 ∧
      ∀ hash ∈ (onClipboardChanged lib qt m mime).2.filterMap x11Request?,
        ∃ kind, mime.content = .delayed hash kind ∧ m.echo.announcedMime ≠ some mime.pointer ∧
          kind ≠ .image ∧ m.state.dataFor hash = none := by
  unfold onClipboardChanged
  simp only
  split
  · exact ⟨⟨rfl, rfl, rfl⟩, by simp [x11Request?]⟩
  · rename_i hunknown
    split
    · exact ⟨⟨rfl, rfl, rfl⟩, by simp [x11Request?]⟩
    · exact ⟨⟨rfl, rfl, rfl⟩, by simp [x11Request?]⟩
    · exact ⟨⟨rfl, rfl, rfl⟩, by simp [x11Request?]⟩
    · exact ⟨textChanged_same m _, by simp [x11Request?]⟩
    · exact ⟨textChanged_same m _, by simp [x11Request?]⟩
    · rename_i hash kind hkind hcontent
      obtain ⟨hsame, hrequest⟩ := waitForBytes_same lib qt m ⟨hash, kind, .ownEcho⟩
      refine ⟨hsame, ?_⟩
      intro hash' hmem
      obtain ⟨rfl, hnone⟩ := hrequest hash' (by simpa [x11Request?] using hmem)
      exact ⟨kind, hcontent, by simpa [EchoSuppressor.isAnnouncedMime] using hunknown, hkind, hnone⟩

theorem x11Tracks_call {lib : ImageLibrary} {qt : Qt} {P : ContentKind → Bytes → Prop}
    {m m' : Manager} {c : Call} {os : List Obs} (hi : X11Tracks P m)
    (hstep : (X11Clipboard.machine lib qt).step m (performX11 c) = some (m', os)) :
    X11Tracks (fun kind hash => P kind hash ∨ c = .announceDelayed kind hash) m' ∧
      os.filterMap x11Request? = [] := by
  have hmono := x11Tracks_mono
    (Q := fun kind hash => P kind hash ∨ c = .announceDelayed kind hash) (fun _ _ => .inl) hi
  cases c with
  | setClipboardText utf8 =>
      cases X11Clipboard.step_cases hstep with
      | textSet => exact ⟨⟨by simp, hmono.tasks, hmono.clipboard⟩, rfl⟩
  | setClipboardImage webpBytes =>
      cases X11Clipboard.step_cases hstep with
      | imageSet => exact ⟨⟨by simp, hmono.tasks, hmono.clipboard⟩, rfl⟩
      | imageRefused => exact ⟨hmono, rfl⟩
  | announceDelayed kind contentHash =>
      cases X11Clipboard.step_cases hstep with
      | announced => exact ⟨⟨by simp +contextual, hmono.tasks, hmono.clipboard⟩, rfl⟩
  | provideData contentHash data =>
      cases X11Clipboard.step_cases hstep with
      | provided => exact ⟨hmono.same ⟨rfl, rfl, rfl⟩, rfl⟩
      | discarded => exact ⟨hmono, rfl⟩

theorem x11Tracks_other {lib : ImageLibrary} {qt : Qt} {P : ContentKind → Bytes → Prop}
    {m m' : Manager} {a : Action} {os : List Obs} (hi : X11Tracks P m)
    (hcall : (x11Backend lib qt).isCall a = false)
    (hstep : (X11Clipboard.machine lib qt).step m a = some (m', os)) :
    X11Tracks P m' ∧ ∀ hash ∈ os.filterMap x11Request?,
      ∃ kind, askedX11 m a = some kind ∧ P kind hash := by
  cases X11Clipboard.step_cases hstep with
  | textSet | imageSet | imageRefused | announced | provided | discarded => cases hcall
  | posted hposting =>
      refine ⟨⟨by simp, ?_, hi.clipboard⟩, by simp⟩
      intro hash kind hmem
      rcases List.mem_append.mp hmem with hmem | hmem
      · exact hi.tasks hash kind hmem
      · rw [← List.mem_singleton.mp hmem] at hposting
        exact hi.posting hash kind hposting
  | @ran task tasks htasks =>
      refine ⟨⟨hi.posting, ?_, ?_⟩, by simp⟩
      · intro hash kind hmem
        exact hi.tasks hash kind (htasks ▸ List.mem_cons_of_mem task hmem)
      · intro pointer hash kind hclipboard
        have hcontent : task.content = .delayed hash kind :=
          congrArg Mime.content (Option.some.inj hclipboard)
        cases task with
        | announce contentHash kind' =>
            cases hcontent
            exact hi.tasks hash kind (htasks ▸ List.mem_cons_self)
        | setText | setImage => cases hcontent
  | recorded => exact ⟨hi.same ⟨rfl, rfl, rfl⟩, by simp⟩
  | copied =>
      refine ⟨⟨hi.posting, hi.tasks, ?_⟩, by simp [x11Request?]⟩
      intro pointer hash kind hclipboard
      cases hclipboard
  | @delivered mime hclipboard =>
      obtain ⟨hsame, hrequest⟩ :=
        onClipboardChanged_same lib qt { m with signalled := true } mime
      refine ⟨hi.same hsame, ?_⟩
      intro hash hmem
      obtain ⟨kind, hcontent, hunknown, hkind, hnone⟩ := hrequest hash hmem
      have hdelayed : m.clipboard = some ⟨mime.pointer, .delayed hash kind⟩ := by
        rw [hclipboard, ← hcontent]
      refine ⟨kind, ?_, hi.clipboard _ hash kind hdelayed⟩
      simp only [askedX11, hdelayed]
      exact if_pos ⟨hunknown, hkind, hnone⟩
  | @retrieved mimeType type pointer hash kind hclipboard =>
      obtain ⟨hsame, hrequest⟩ := waitForBytes_same lib qt m ⟨hash, kind, .consumer mimeType type⟩
      refine ⟨hi.same hsame, ?_⟩
      intro hash' hmem
      obtain ⟨hhash, hnone⟩ := hrequest hash' hmem
      refine ⟨kind, ?_, hhash ▸ hi.clipboard pointer hash kind hclipboard⟩
      simp only [askedX11, hclipboard]
      exact if_pos hnone
  | asleep => exact ⟨hi, by simp⟩
  | @woken index deadline w outcome =>
      obtain ⟨hsame, hnone⟩ := finishWait_same lib qt
        { m with waiters := m.waiters.eraseIdx index } w (bytesOf outcome)
      exact ⟨hi.same hsame, by simp [hnone]⟩
  | destroyed => exact ⟨⟨hi.posting, hi.tasks, by simp⟩, by simp⟩

theorem x11_tracks (lib : ImageLibrary) (qt : Qt) : Tracks (x11Backend lib qt) {} X11Tracks where
  mono := fun _ _ _ hPQ hi => x11Tracks_mono hPQ hi
  initial := ⟨by simp, by simp, by simp⟩
  call := fun _ _ _ _ _ hi hstep => x11Tracks_call hi hstep
  other := fun _ _ _ _ _ hi hcall hstep => x11Tracks_other hi hcall hstep

end X11

/-! ## Both backends -/

/-- **Delayed data is fresh.**  In every run of a Wayland backend, and in every
run of the X11 backend: stored data carries the current hash, which is that of
the latest announcement (on Wayland: or eager set); and whatever a waiting
reader takes for its hash was stored under that hash by a `ProvideData` (on
Wayland: or an eager set) that nothing had superseded by then. -/
theorem delayed_data_fresh (lib : ImageLibrary) (qt : X11Clipboard.Qt) :
    (∀ h m, (WaylandClipboard.machine lib).Run Machine.always {} h m →
      (∀ data, m.state.pendingData = some data → m.state.pendingDataHash = m.state.currentHash) ∧
      (∀ offer, (WaylandClipboard.offersOf h).getLast? = some offer →
        m.state.currentHash = offer.key) ∧
      Whenever WaylandClipboard.bearing.TookFresh h) ∧
    (∀ h m, (X11Clipboard.machine lib qt).Run Machine.always {} h m →
      (∀ data, m.state.pendingData = some data → m.state.pendingDataHash = m.state.currentHash) ∧
      (∀ contentHash, (X11Clipboard.announcedHashes h).getLast? = some contentHash →
        m.state.currentHash = contentHash) ∧
      Whenever X11Clipboard.bearing.TookFresh h) := by
  constructor
  · intro h m hrun
    obtain ⟨hsound, htook⟩ := WaylandClipboard.run_fresh hrun
    exact ⟨fun data hdata => (hsound.fresh data hdata).1,
      fun offer hlast => (hsound.latest offer hlast).1, htook⟩
  · intro h m hrun
    obtain ⟨hsound, htook⟩ := X11Clipboard.run_fresh hrun
    exact ⟨fun data hdata => (hsound.fresh data hdata).1, hsound.latest, htook⟩

/-- **`DATA_REQUEST` agrees with an announcement** over either backend, in
every run in which only texts are asked for. -/
theorem requests_agree (lib : ImageLibrary) (qt : X11Clipboard.Qt) :
    (∀ h m, (dispatcher (waylandBackend lib)).Run (TextOnly (waylandBackend lib)) {} h m →
      Whenever Agreed h) ∧
    (∀ h m, (dispatcher (x11Backend lib qt)).Run (TextOnly (x11Backend lib qt)) {} h m →
      Whenever Agreed h) :=
  ⟨fun _ _ hrun => (wayland_tracks lib).agreed hrun,
    fun _ _ hrun => (x11_tracks lib qt).agreed hrun⟩

/-- An `ANNOUNCE_DELAYED` of the given type for the hash `[9]`. -/
def announceFrame (type : UInt8) : Bytes := [8, 2, 26, 5, 8, type, 18, 1, 9]

/-- Decides `TextOnly`. -/
def testTextOnly {σ α ο : Type} (b : Backend σ α ο) (s : σ) : Input α → Bool
  | .frame _ _ => true
  | .backend a _ =>
    match b.asked s a with
    | some kind => kind == .text
    | none => true

theorem textOnly_of_test {σ α ο : Type} (b : Backend σ α ο) (s : σ) (i : Input α)
    (h : testTextOnly b s i = true) : TextOnly b s i := by
  cases i with
  | frame frame clock => trivial
  | backend a clock =>
      intro kind hasked
      simpa [testTextOnly, hasked] using h

/-- A text that is announced and then pasted, over Wayland. -/
theorem requests_agree_text_paste :
    ∃ h m, (dispatcher (waylandBackend WaylandClipboard.noImages)).Run
        (TextOnly (waylandBackend WaylandClipboard.noImages)) {} h m ∧
      h = [.announced .text [9], .sent (encodeDataRequest [9] ClipboardContentType.text 5)] ∧
      Whenever Agreed h := by
  have hexec : ((dispatcher (waylandBackend WaylandClipboard.noImages)).execIf
      (testTextOnly (waylandBackend WaylandClipboard.noImages)) {}
      [.frame (announceFrame 1) 4, .backend .post 4, .backend (.runTask true) 4,
        .backend (.send (ascii "text/plain") 3 []) 5]).map (fun r => r.2) =
      some [.announced .text [9], .sent (encodeDataRequest [9] ClipboardContentType.text 5)] := by
    decide
  obtain ⟨h, m, hrun, hobs⟩ := Machine.Run.of_execIf_map (textOnly_of_test _) hexec
  exact ⟨h, m, hrun, hobs,
    (requests_agree WaylandClipboard.noImages ⟨fun _ => [], fun _ => []⟩).1 h m hrun⟩

/-- A request for `[9]` begins alike at any time. -/
theorem take_encodeDataRequest (type : ClipboardContentType) (clock : UInt64)
    (h : type = .text ∨ type = .image) :
    (encodeDataRequest [9] type clock).take 9 =
      [8, 11, 42, 5, 10, 1, 9, 16, if type = .text then 1 else 2] := by
  simp only [encodeDataRequest]
  rw [Writer.writeUint64Field_append]
  rcases h with rfl | rfl
  · rw [List.take_append_of_le_length (by decide)]
    decide
  · rw [List.take_append_of_le_length (by decide)]
    decide

/-- **A picture is requested as text.** -/
theorem image_requested_as_text :
    ∃ h m, (dispatcher (waylandBackend WaylandClipboard.noImages)).Run Machine.always {} h m ∧
      h = [.announced .image [9], .sent (encodeDataRequest [9] ClipboardContentType.text 5)] ∧
      ¬ Whenever Agreed h := by
  have hexec : ((dispatcher (waylandBackend WaylandClipboard.noImages)).exec {}
      [.frame (announceFrame 2) 5, .backend .post 5, .backend (.runTask true) 5,
        .backend (.send (ascii "image/png") 3 []) 5]).map (fun r => r.2) =
      some [.announced .image [9], .sent (encodeDataRequest [9] ClipboardContentType.text 5)] := by
    decide
  obtain ⟨h, m, hrun, hobs⟩ := Machine.Run.of_exec_map hexec
  refine ⟨h, m, hrun, hobs, ?_⟩
  intro hagreed
  obtain ⟨type, contentHash, clock, hmem, hframe⟩ := hagreed [.announced .image [9]] _ [] hobs
  obtain ⟨rfl, rfl⟩ : type = .image ∧ contentHash = [9] := by simpa using hmem
  have htake := congrArg (List.take 9) hframe
  rw [take_encodeDataRequest .text 5 (.inl rfl), take_encodeDataRequest .image clock (.inr rfl)]
    at htake
  exact absurd htake (by decide)

end LinuxDispatch
