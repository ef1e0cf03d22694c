import ClipboardHelper.CodecRoundTrip
import ClipboardHelper.ContentFrames
import ClipboardHelper.PipeSession

/-!
# Replies and frames that reach the client of the pipe

`Handle` answers `GET_CLIPBOARD` also when there is nothing to read, "so the
parent can disambiguate 'no clipboard' from 'no helper response'".  The answer
goes through the queue of `PipeSession`, and so does every frame for which
`SendFrame` has returned `true`.  The writer thread hands each of them to
`WriteFrame`, which refuses one of more than 16 MiB, and ignores the refusal.

`owedTo` is what a client is owed along a history, `sentTo` what it is sent.
For a client that stays connected the frames go through the queue in order and
none is lost on the way but by its length.  **`frames_reach_client_iff`**: a
client is sent what it is owed if and only if all of it is within the cap.
`picture_not_answered` is a `GET_CLIPBOARD` without an answer.
-/

namespace PipeReplies

open Library PipeSession FrameTransport

/-! ## The server and its handler -/

/-- `Handle` on `GET_CLIPBOARD`, where `content` is what `ReadClipboard` has
found. -/
def handleGetClipboard (sys : DispatchCodec.Platform) :
    Option DispatchCodec.ClipboardSnapshot → Bytes
  | none => DispatchCodec.encodeClipboardEnvelope sys .clipboardContent []
  | some snap => DispatchCodec.encodeClipboardEnvelope sys .clipboardContent
      (DispatchCodec.encodeClipboardData sys snap)

inductive Obs
  /-- A `GET_CLIPBOARD` of the client has been read and handled. -/
  | asked (client : Option Client) (sys : DispatchCodec.Platform)
      (content : Option DispatchCodec.ClipboardSnapshot)
  /-- `EnqueueOutbound` has returned `true` for a frame that its sender, which
  may be `SendFrame`, meant for the client. -/
  | accepted (client : Option Client) (payload : Bytes)
  | pipe (o : PipeSession.Obs)

inductive Action
  /-- `handler_` on a request that is a `GET_CLIPBOARD`. -/
  | getClipboard (request : Bytes) (sys : DispatchCodec.Platform)
      (content : Option DispatchCodec.ClipboardSnapshot)
  /-- A step of the server; a `.reply` is the answer to any other request. -/
  | pipe (a : PipeSession.Action)

/-- What a step gives to `EnqueueOutbound`, and for which client. -/
def offered (onConnect : Bytes) (s : Server) : PipeSession.Action → List (Option Client × Bytes)
  | .ready => if onConnect = [] then [] else [(s.pipe.map Prod.snd, onConnect)]
  | .reply payload => [(s.pipe.map Prod.snd, payload)]
  | .enqueue i => (s.checked[i]?).toList.map Prod.swap
  | _ => []

/-- What `EnqueueOutbound` returns `true` for. -/
def accepted (onConnect : Bytes) (s : Server) (a : PipeSession.Action) : List Obs :=
  if s.stop then [] else (offered onConnect s a).map (fun p => .accepted p.1 p.2)

/-- **The pipe server with its handler.** -/
def machine (onConnect : Bytes) : Machine Server Action Obs where
  step s
    | .getClipboard request sys content =>
      if (DispatchCodec.parseHelperMessage request {}).map (fun msg => msg.type) =
          some .getClipboard then
        ((PipeSession.machine onConnect).step s (.reply (handleGetClipboard sys content))).map
          fun r => (r.1, .asked (s.pipe.map Prod.snd) sys content :: r.2.map .pipe)
      else none
    | .pipe a =>
      ((PipeSession.machine onConnect).step s a).map
        fun r => (r.1, accepted onConnect s a ++ r.2.map .pipe)

/-! ## What a client is owed and what it is sent -/

/-- What an observation makes the helper owe, and to whom: an answer to a
`GET_CLIPBOARD`, and each frame that was accepted. -/
def Obs.owed : Obs → Option (Option Client × Bytes)
  | .asked client sys content => some (client, handleGetClipboard sys content)
  | .accepted client payload => some (client, payload)
  | .pipe _ => none

/-- The frames for the client, of those with an addressee. -/
def payloadsFor (c : Client) (frames : List (Option Client × Bytes)) : List Bytes :=
  (frames.filter (fun p => p.1 = some c)).map Prod.snd

/-- **The frames owed to the client**, in order. -/
def owedTo (c : Client) (h : List Obs) : List Bytes := payloadsFor c (h.filterMap Obs.owed)

/-- What the writer thread shows. -/
def Obs.began : Obs → Option PipeSession.Obs
  | .pipe o => some o
  | _ => none

/-- A frame with the client that its sender meant. -/
def addressed (e : Entry) : Option Client × Bytes := (e.seen, e.payload)

/-- The frames that are written to the client, each with the one it was meant
for. -/
def begunTo (c : Client) (h : List Obs) : List (Option Client × Bytes) :=
  (begun c (h.filterMap Obs.began)).map addressed

/-- All frames that are written to the client. -/
def framesTo (c : Client) (h : List Obs) : List Bytes := (begunTo c h).map Prod.snd

/-- **The frames meant for the client that are written to it**, in order. -/
def sentTo (c : Client) (h : List Obs) : List Bytes := payloadsFor c (begunTo c h)

/-- **The client is connected**: its pipe is the active one, no write to it
has failed, and the server is not stopping. -/
structure Connected (s : Server) (c : Client) : Prop where
  running : s.stop = false
  newest : s.clients = c + 1
  served : s.phase = .published ∨ s.phase = .serving
  unbroken : s.failed c = false

/-- The writer thread waits for a frame. -/
def AtRest (s : Server) : Prop := s.writer = .idle ∧ s.outbound = []

/-- **The content leaves room for its envelope.** -/
def ContentFits (sys : DispatchCodec.Platform) : Option DispatchCodec.ClipboardSnapshot → Prop
  | none => True
  | some snap => ContentFrames.snapshotLength sys snap +
      ContentFrames.envelopeOverhead sys.clock ≤ kMaxFrameSize.toNat

/-- **Within the cap**: the content of each `GET_CLIPBOARD` of the client, and
each frame accepted for it. -/
def WithinCap (c : Client) : Obs → Prop
  | .asked client sys content => client = some c → ContentFits sys content
  | .accepted client payload => client = some c → payload.length ≤ kMaxFrameSize.toNat
  | .pipe _ => True

/-! ## The answer -/

theorem handleGetClipboard_eq (sys : DispatchCodec.Platform)
    (content : Option DispatchCodec.ClipboardSnapshot) :
    handleGetClipboard sys content = ContentFrames.envelope 12
      (content.elim [] (DispatchCodec.encodeClipboardData sys)) sys.clock := by
  have htype : ProtoWire.Writer.writeEnumField [] DispatchCodec.kFieldType
      DispatchCodec.HelperMessageType.clipboardContent.value = [8, 12] := by decide
  cases content with
  | none =>
      simp only [handleGetClipboard, DispatchCodec.encodeClipboardEnvelope,
        DispatchCodec.encodeEnvelope, htype]
      rfl
  | some snap =>
      simp only [handleGetClipboard, DispatchCodec.encodeClipboardEnvelope,
        DispatchCodec.encodeEnvelope, htype]
      rfl

theorem handleGetClipboard_ne_nil (sys : DispatchCodec.Platform)
    (content : Option DispatchCodec.ClipboardSnapshot) : handleGetClipboard sys content ≠ [] := by
  intro hnil
  have hlength := congrArg List.length hnil
  rw [handleGetClipboard_eq, ContentFrames.length_envelope, List.length_nil] at hlength
  omega

/-- **The answer is within the cap if and only if the content leaves room.** -/
theorem handleGetClipboard_fits_iff (sys : DispatchCodec.Platform)
    (content : Option DispatchCodec.ClipboardSnapshot) :
    (handleGetClipboard sys content).length ≤ kMaxFrameSize.toNat ↔ ContentFits sys content := by
  have hcap : kMaxFrameSize.toNat = 16777216 := rfl
  rw [handleGetClipboard_eq, hcap, ContentFrames.envelope_fits_iff]
  cases content with
  | none =>
      have hstamp := ProtoWire.numberLength_le sys.clock
      simp only [Option.elim_none, List.length_nil, ContentFits, ContentFrames.envelopeOverhead,
        iff_true]
      omega
  | some snap =>
      rw [Option.elim_some, ContentFrames.length_encodeClipboardData]
      exact Iff.rfl

/-! ## What one step of the server does -/

/-- What a step does to the session. -/
inductive Turn (s s' : Server) : Prop
  | same (phase : s'.phase = s.phase) (clients : s'.clients = s.clients) (pipe : s'.pipe = s.pipe)
      (active : s'.activePipe = s.activePipe)
  | connected (handle : Handle) (was : s.phase = .idle) (phase : s'.phase = .connected)
      (clients : s'.clients = s.clients + 1) (pipe : s'.pipe = some (handle, s.clients))
      (active : s'.activePipe = s.activePipe)
  | published (was : s.phase = .connected) (phase : s'.phase = .published)
      (clients : s'.clients = s.clients) (pipe : s'.pipe = s.pipe)
      (active : s'.activePipe = s.pipe.map Prod.fst)
  | served (was : s.phase = .published) (phase : s'.phase = .serving)
      (clients : s'.clients = s.clients) (pipe : s'.pipe = s.pipe)
      (active : s'.activePipe = s.activePipe)
  | hungUp (was : s.phase = .serving) (phase : s'.phase = .cleared)
      (clients : s'.clients = s.clients) (pipe : s'.pipe = s.pipe) (active : s'.activePipe = none)
  | closed (was : s.phase = .cleared) (phase : s'.phase = .idle)
      (clients : s'.clients = s.clients) (pipe : s'.pipe = none)
      (active : s'.activePipe = s.activePipe)

/-- What a step does to the queue, the writer and the streams, when `offer`
is given to `EnqueueOutbound`. -/
inductive Moved (s : Server) : List (Option Client × Bytes) → List PipeSession.Obs → Server → Prop
  | still {s' : Server} (outbound : s'.outbound = s.outbound) (writer : s'.writer = s.writer)
      (streams : s'.streams = s.streams) : Moved s [] [] s'
  | refused {offer : List (Option Client × Bytes)} {s' : Server} (stop : s.stop = true)
      (outbound : s'.outbound = s.outbound) (writer : s'.writer = s.writer) : Moved s offer [] s'
  | taken {e : Entry} {s' : Server} (running : s.stop = false)
      (outbound : s'.outbound = s.outbound ++ [e]) (writer : s'.writer = s.writer)
      (streams : s'.streams = s.streams) : Moved s [(e.seen, e.payload)] [] s'
  | popped {e : Entry} {s' : Server} (idle : s.writer = .idle)
      (outbound : s.outbound = e :: s'.outbound) (writer : s'.writer = .popped e)
      (streams : s'.streams = s.streams) : Moved s [] [] s'
  | dropped {e : Entry} {s' : Server} (hand : s.writer = .popped e)
      (why : s.activePipe = none ∨ kMaxFrameSize.toNat < e.payload.length)
      (outbound : s'.outbound = s.outbound) (writer : s'.writer = .idle)
      (streams : s'.streams = s.streams) : Moved s [] [] s'
  | begun {e : Entry} {handle : Handle} {s' : Server} (hand : s.writer = .popped e)
      (active : s.activePipe = some handle) (fits : e.payload.length ≤ kMaxFrameSize.toNat)
      (outbound : s'.outbound = s.outbound)
      (writer : s'.writer =
        .writing e handle (writeLengthLE (UInt32.ofNat e.payload.length)) e.payload)
      (streams : s'.streams = s.streams) :
      Moved s [] ((owner s handle).toList.map (fun c => .began c e)) s'
  | lost {e : Entry} {handle : Handle} {left body : Bytes} {s' : Server}
      (writing : s.writer = .writing e handle left body) (gone : owner s handle = none)
      (outbound : s'.outbound = s.outbound) (writer : s'.writer = .idle)
      (streams : s'.streams = s.streams) : Moved s [] [] s'
  | failed {e : Entry} {handle : Handle} {left body : Bytes} {c : Client} {s' : Server}
      (writing : s.writer = .writing e handle left body) (owned : owner s handle = some c)
      (outbound : s'.outbound = s.outbound) (writer : s'.writer = .idle)
      (streams : s'.streams = s.streams) (broken : s'.failed c = true) : Moved s [] [] s'
  | wrote {e : Entry} {handle : Handle} {left body chunk rest : Bytes} {c : Client} {s' : Server}
      (writing : s.writer = .writing e handle left body) (owned : owner s handle = some c)
      (split : left ++ body = chunk ++ rest) (outbound : s'.outbound = s.outbound)
      (streams : s'.streams = Function.update s.streams c (s.streams c ++ chunk))
      (next : s'.writer = .idle ∧ rest = [] ∨
        ∃ left' body', s'.writer = .writing e handle left' body' ∧ left' ++ body' = rest) :
      Moved s [] [] s'

/-- A step of the server. -/
structure Stepped (s : Server) (offer : List (Option Client × Bytes))
    (os : List PipeSession.Obs) (s' : Server) : Prop where
  turn : Turn s s'
  stop : s.stop = true → s'.stop = true
  failed : ∀ c, s.failed c = true → s'.failed c = true
  checked : ∀ p ∈ s'.checked, p ∈ s.checked ∨ p.2 = activeClient s
  moved : Moved s offer os s'

section

variable {onConnect : Bytes} {s s' : Server} {os : List PipeSession.Obs}

/-- A step that moves no frame. -/
theorem Stepped.still (turn : Turn s s') (stop : s.stop = true → s'.stop = true)
    (failed : s'.failed = s.failed) (checked : s'.checked = s.checked)
    (outbound : s'.outbound = s.outbound) (writer : s'.writer = s.writer)
    (streams : s'.streams = s.streams) : Stepped s [] [] s' where
  turn := turn
  stop := stop
  failed c := by
    rw [failed]
    exact id
  checked _ hp := Or.inl (checked ▸ hp)
  moved := .still outbound writer streams

/-- The queue has no part in the session. -/
theorem Turn.queue {t : Server} (turn : Turn s t) (outbound : List Entry) :
    Turn s { t with outbound := outbound } := by
  cases turn with
  | same phase clients pipe active => exact .same phase clients pipe active
  | connected handle was phase clients pipe active =>
      exact .connected handle was phase clients pipe active
  | published was phase clients pipe active => exact .published was phase clients pipe active
  | served was phase clients pipe active => exact .served was phase clients pipe active
  | hungUp was phase clients pipe active => exact .hungUp was phase clients pipe active
  | closed was phase clients pipe active => exact .closed was phase clients pipe active

/-- `EnqueueOutbound` after a step of the caller. -/
theorem Stepped.enqueue {t : Server} (payload : Bytes) (kind : Kind) (seen : Option Client)
    (turn : Turn s t) (stop : t.stop = s.stop) (failed : t.failed = s.failed)
    (checked : ∀ p ∈ t.checked, p ∈ s.checked) (outbound : t.outbound = s.outbound)
    (writer : t.writer = s.writer) (streams : t.streams = s.streams) :
    Stepped s [(seen, payload)] [] (enqueueOutbound t payload kind seen) := by
  have hfailed : ∀ c, s.failed c = true → t.failed c = true := by
    intro c hc
    rwa [failed]
  unfold enqueueOutbound
  by_cases hstop : t.stop = true
  · rw [if_pos hstop]
    exact ⟨turn, fun _ => hstop, hfailed, fun p hp => Or.inl (checked p hp),
      .refused (stop ▸ hstop) outbound writer⟩
  · rw [if_neg hstop]
    refine ⟨?_, fun h => stop.trans h, hfailed, fun p hp => Or.inl (checked p hp), ?_⟩
    · exact turn.queue _
    · have hrunning : s.stop = false := by simpa [stop] using hstop
      exact .taken (e := ⟨payload, kind, seen, activeClient t⟩) hrunning (by rw [outbound]) writer
        streams

/-- A step of the writer thread. -/
theorem Stepped.writer (moved : Moved s [] os s') (phase : s'.phase = s.phase)
    (clients : s'.clients = s.clients) (pipe : s'.pipe = s.pipe)
    (active : s'.activePipe = s.activePipe) (stop : s'.stop = s.stop)
    (failed : ∀ c, s.failed c = true → s'.failed c = true) (checked : s'.checked = s.checked) :
    Stepped s [] os s' where
  turn := .same phase clients pipe active
  stop h := stop.trans h
  failed := failed
  checked _ hp := Or.inl (checked ▸ hp)
  moved := moved

theorem stepped_route (hstep : route s = some (s', os)) : Stepped s [] os s' := by
  cases route_cases hstep with
  | dropped hand why =>
      exact .writer (.dropped hand why rfl rfl rfl) rfl rfl rfl rfl rfl (fun _ => id) rfl
  | begun hand active fits =>
      exact .writer (.begun hand active fits rfl rfl rfl) rfl rfl rfl rfl rfl (fun _ => id) rfl

theorem stepped_write {call : OverlappedCall} (hstep : write s call = some (s', os)) :
    Stepped s [] os s' := by
  obtain ⟨rfl, hwritten⟩ := write_cases hstep
  cases hwritten with
  | retried => exact .writer (.still rfl rfl rfl) rfl rfl rfl rfl rfl (fun _ => id) rfl
  | gone writing nobody =>
      exact .writer (.lost writing nobody rfl rfl rfl) rfl rfl rfl rfl rfl (fun _ => id) rfl
  | @failed e handle left body c writing owned =>
      have hbroken := Function.update_self c true s.failed
      refine .writer (.failed writing owned rfl rfl rfl hbroken) rfl rfl rfl rfl rfl ?_ rfl
      intro c' hc'
      show Function.update s.failed c true c' = true
      by_cases heq : c' = c
      · rw [heq, Function.update_self]
      · rwa [Function.update_of_ne heq]
  | wrote writing owned split next =>
      exact .writer (.wrote writing owned split rfl rfl next) rfl rfl rfl rfl rfl (fun _ => id) rfl

/-- **Every step of the server is of this form.** -/
theorem stepped {a : PipeSession.Action}
    (hstep : (PipeSession.machine onConnect).step s a = some (s', os)) :
    Stepped s (offered onConnect s a) os s' := by
  cases PipeSession.step_cases hstep with
  | connected idle =>
      exact .still (.connected _ idle rfl rfl rfl rfl) id rfl rfl rfl rfl rfl
  | published phase =>
      exact .still (.published phase rfl rfl rfl rfl) id rfl rfl rfl rfl rfl
  | served phase =>
      have hturn : Turn s { s with phase := .serving } := .served phase rfl rfl rfl rfl
      by_cases hnone : onConnect = []
      · simp only [offered, if_pos hnone]
        exact .still hturn id rfl rfl rfl rfl rfl
      · simp only [offered, if_neg hnone]
        exact .enqueue _ _ _ hturn rfl rfl (fun _ => id) rfl rfl rfl
  | replied =>
      exact .enqueue _ _ _ (.same rfl rfl rfl rfl) rfl rfl (fun _ => id) rfl rfl rfl
  | hungUp phase =>
      exact .still (.hungUp phase rfl rfl rfl rfl) id rfl rfl rfl rfl rfl
  | closed phase =>
      exact .still (.closed phase rfl rfl rfl rfl) id rfl rfl rfl rfl rfl
  | nobody => exact .still (.same rfl rfl rfl rfl) id rfl rfl rfl rfl rfl
  | checked =>
      refine ⟨.same rfl rfl rfl rfl, id, fun _ => id, ?_, .still rfl rfl rfl⟩
      intro p hp
      rcases List.mem_append.mp hp with hold | hnew
      · exact Or.inl hold
      · exact Or.inr (by rw [List.mem_singleton.mp hnew])
  | enqueued checked =>
      simp only [offered, checked]
      exact .enqueue _ _ _ (.same rfl rfl rfl rfl) rfl rfl
        (fun _ hp => List.mem_of_mem_eraseIdx hp) rfl rfl rfl
  | popped idle outbound =>
      exact .writer (.popped idle outbound rfl rfl) rfl rfl rfl rfl rfl (fun _ => id) rfl
  | routed => exact stepped_route hstep
  | wrote => exact stepped_write hstep
  | stopped => exact .still (.same rfl rfl rfl rfl) (fun _ => rfl) rfl rfl rfl rfl rfl

end

/-! ## Clients that stay connected -/

/-- The pipe of the client has been published. -/
def Published (s : Server) (c : Client) : Prop :=
  c + 1 < s.clients ∨ c + 1 = s.clients ∧ s.phase ≠ .connected

section

variable {s s' : Server} {c : Client} {offer : List (Option Client × Bytes)}
  {os : List PipeSession.Obs}

theorem Connected.published (hc : Connected s c) : Published s c := by
  refine Or.inr ⟨hc.newest.symm, ?_⟩
  intro hphase
  rcases hc.served with hserved | hserved
  · cases hphase.symm.trans hserved
  · cases hphase.symm.trans hserved

/-- The active pipe is that of the client. -/
theorem Connected.active (hc : Connected s c) (hok : PhaseOk s) :
    ∃ handle, s.activePipe = some handle ∧ s.pipe = some (handle, c) := by
  obtain ⟨handle, c', hpipe, hclients, hactive⟩ := hok.active hc.served
  obtain rfl : c' = c := Nat.succ.inj (hclients.symm.trans hc.newest)
  exact ⟨handle, hactive, hpipe⟩

theorem published_of_active (hok : PhaseOk s) (hactive : s.activePipe ≠ none)
    (hpipe : s.pipe.map Prod.snd = some c) : Published s c := by
  cases hphase : s.phase with
  | idle =>
      simp only [PhaseOk, hphase] at hok
      exact absurd hok.2 hactive
  | connected | cleared =>
      simp only [PhaseOk, hphase] at hok
      obtain ⟨_, _, _, _, hnone⟩ := hok
      exact absurd hnone hactive
  | published | serving =>
      simp only [PhaseOk, hphase] at hok
      obtain ⟨handle, c', hopen, hclients, -⟩ := hok
      rw [hopen] at hpipe
      obtain rfl : c' = c := Option.some.inj hpipe
      exact Or.inr ⟨hclients.symm, by simp [hphase]⟩

theorem published_of_activeClient (hok : PhaseOk s) (hclient : activeClient s = some c) :
    Published s c := by
  obtain ⟨handle, hactive, howner⟩ := Option.bind_eq_some_iff.mp hclient
  apply published_of_active hok
  · rw [hactive]
    simp
  · rw [owner_eq_some.mp howner]
    rfl

/-- The session goes through its phases. -/
theorem Turn.phaseOk (turn : Turn s s') (hok : PhaseOk s) : PhaseOk s' := by
  cases turn with
  | same phase clients pipe active => simpa only [PhaseOk, phase, clients, pipe, active] using hok
  | connected handle was phase clients pipe active =>
      simp only [PhaseOk, was] at hok
      simp [PhaseOk, phase, clients, pipe, active, hok.2]
  | published was phase clients pipe active =>
      simp only [PhaseOk, was] at hok
      obtain ⟨handle, c, hpipe, hclients, -⟩ := hok
      simp [PhaseOk, phase, clients, pipe, active, hpipe, hclients]
  | served was phase clients pipe active =>
      simpa only [PhaseOk, phase, clients, pipe, active, was] using hok
  | hungUp was phase clients pipe active =>
      simp only [PhaseOk, was] at hok
      obtain ⟨handle, c, hpipe, hclients, -⟩ := hok
      simp [PhaseOk, phase, clients, pipe, active, hpipe, hclients]
  | closed was phase clients pipe active =>
      simp only [PhaseOk, was] at hok
      obtain ⟨handle, c, -, -, hnone⟩ := hok
      simp [PhaseOk, phase, pipe, active, hnone]

/-- What has been published has been published. -/
theorem Turn.published_mono (turn : Turn s s') (hp : Published s c) : Published s' c := by
  unfold Published at *
  cases turn with
  | same phase clients => rwa [phase, clients]
  | connected handle was phase clients =>
      rw [clients]
      rcases hp with hp | ⟨hp, -⟩
      · exact Or.inl (Nat.lt_succ_of_lt hp)
      · exact Or.inl (hp ▸ Nat.lt_succ_self _)
  | published was phase clients | served was phase clients | hungUp was phase clients
  | closed was phase clients =>
      rw [clients, phase]
      exact hp.imp_right fun h => ⟨h.1, by simp⟩

/-- **A published client that is connected after a step was so before it.** -/
theorem Stepped.back (hs : Stepped s offer os s') (hc : Connected s' c) (hp : Published s c) :
    Connected s c := by
  have hrunning : s.stop = false := by
    by_contra hstop
    exact absurd (hs.stop (by simpa using hstop)) (by simp [hc.running])
  have hunbroken : s.failed c = false := by
    by_contra hfailed
    exact absurd (hs.failed c (by simpa using hfailed)) (by simp [hc.unbroken])
  have hserved := hc.served
  cases hs.turn with
  | same phase clients =>
      exact ⟨hrunning, clients ▸ hc.newest, phase ▸ hserved, hunbroken⟩
  | published was phase clients =>
      rcases hp with holder | ⟨-, hother⟩
      · exact absurd (clients ▸ hc.newest) (Nat.ne_of_gt holder)
      · exact absurd was hother
  | served was phase clients =>
      exact ⟨hrunning, clients ▸ hc.newest, Or.inl was, hunbroken⟩
  | connected _ _ phase | hungUp _ phase | closed _ phase => simp [phase] at hserved

/-- While the session of the client goes on its pipe stays. -/
theorem Turn.pipe_eq (turn : Turn s s') (hc : Connected s' c) : s'.pipe = s.pipe := by
  have hserved := hc.served
  cases turn with
  | same _ _ pipe | published _ _ _ pipe | served _ _ _ pipe => exact pipe
  | connected _ _ phase | hungUp _ phase | closed _ phase => simp [phase] at hserved

end

/-! ## Frames on their way -/

/-- The frames in the queue and in the writer's hand that are meant for the
client. -/
def pending (c : Client) (s : Server) : List Bytes :=
  payloadsFor c ((s.writer.inHand ++ s.outbound).map addressed)

/-- A frame that `WriteFrame` takes. -/
def fits (payload : Bytes) : Bool := decide (payload.length ≤ kMaxFrameSize.toNat)

/-- The writer thread is not writing to the client. -/
def Free (s : Server) (c : Client) : Prop :=
  ∀ e handle left body, s.writer = .writing e handle left body → owner s handle ≠ some c

/-- **What the client has been sent**: whole frames, after what a write that
had been begun before may have left, and the part of the last one. -/
inductive Streamed (frames : List Bytes) (s : Server) (c : Client) : Prop
  | whole (stale : Bytes) (streams : s.streams c = stale ++ frames.flatMap frame)
      (other : frames = [] ∨ Free s c)
  | part (stale : Bytes) (before : List Bytes) (e : Entry) (handle : Handle)
      (done left body : Bytes) (frames_eq : frames = before ++ [e.payload])
      (writer : s.writer = .writing e handle left body) (owned : owner s handle = some c)
      (split : frame e.payload = done ++ (left ++ body))
      (streams : s.streams c = stale ++ (before.flatMap frame ++ done))

section

variable {s s' : Server} {c : Client} {offer : List (Option Client × Bytes)}
  {os : List PipeSession.Obs}

@[simp] theorem payloadsFor_nil (c : Client) : payloadsFor c [] = [] := rfl

@[simp] theorem payloadsFor_append (c : Client) (frames more : List (Option Client × Bytes)) :
    payloadsFor c (frames ++ more) = payloadsFor c frames ++ payloadsFor c more := by
  simp [payloadsFor]

theorem payloadsFor_singleton (c : Client) (p : Option Client × Bytes) :
    payloadsFor c [p] = if p.1 = some c then [p.2] else [] := by
  by_cases hp : p.1 = some c
  · simp [payloadsFor, hp]
  · simp [payloadsFor, hp]

/-- Nothing is meant for the client. -/
theorem payloadsFor_eq_nil {frames : List (Option Client × Bytes)}
    (h : ∀ p ∈ frames, p.1 ≠ some c) : payloadsFor c frames = [] := by
  rw [payloadsFor, List.map_eq_nil_iff, List.filter_eq_nil_iff]
  intro p hp
  simpa using h p hp

theorem pending_congr (h : s'.writer.inHand ++ s'.outbound = s.writer.inHand ++ s.outbound) :
    pending c s' = pending c s := by
  rw [pending, h, pending]

/-- The frame in the writer's hand comes first. -/
theorem pending_popped {e : Entry} (hand : s.writer = .popped e) (hand' : s'.writer.inHand = [])
    (outbound : s'.outbound = s.outbound) :
    pending c s = payloadsFor c [addressed e] ++ pending c s' := by
  rw [pending, pending, hand, hand', outbound, Writer.inHand_popped, List.map_append,
    payloadsFor_append]
  rfl

/-- **One step moves the frames of the client along**: what is owed and fits
has been begun or is on its way. -/
theorem Moved.frames_step (hm : Moved s offer os s') (hrunning : s.stop = false)
    (hhand : ∀ e, s.writer = .popped e → e.seen = some c → activeClient s = some c)
    {owed sent : List Bytes}
    (hi : owed.filter fits = sent ++ (pending c s).filter fits) :
    (owed ++ payloadsFor c offer).filter fits =
      (sent ++ payloadsFor c ((PipeSession.begun c os).map addressed)) ++
        (pending c s').filter fits := by
  have hkept : pending c s' = pending c s →
      (owed ++ payloadsFor c []).filter fits =
        (sent ++ payloadsFor c ((PipeSession.begun c []).map addressed)) ++
          (pending c s').filter fits := by
    intro hsame
    rw [hsame, payloadsFor_nil, begun_nil, List.map_nil, payloadsFor_nil, List.append_nil,
      List.append_nil, hi]
  cases hm with
  | still outbound writer => exact hkept (pending_congr (by rw [outbound, writer]))
  | refused stop => exact absurd stop (by simp [hrunning])
  | @taken e _ running outbound writer streams =>
      have hmore : pending c s' = pending c s ++ payloadsFor c [addressed e] := by
        rw [pending, writer, outbound, ← List.append_assoc, List.map_append, payloadsFor_append]
        rfl
      rw [hmore, begun_nil, List.map_nil, payloadsFor_nil, List.append_nil, List.filter_append,
        List.filter_append, hi, List.append_assoc]
      rfl
  | popped idle outbound writer =>
      exact hkept (pending_congr (by rw [outbound, writer, idle]; rfl))
  | @dropped e _ hand why outbound writer streams =>
      have hfront := pending_popped (c := c) hand (by rw [writer]; rfl) outbound
      have hgone : (payloadsFor c [addressed e]).filter fits = [] := by
        rw [payloadsFor_singleton]
        split
        · rename_i hseen
          have hactive := hhand e hand hseen
          rcases why with hnone | hlong
          · simp [activeClient, hnone] at hactive
          · simpa [fits, addressed] using hlong
        · rfl
      rw [hfront, List.filter_append, hgone, List.nil_append] at hi
      rw [payloadsFor_nil, begun_nil, List.map_nil, payloadsFor_nil, List.append_nil,
        List.append_nil, hi]
  | @begun e handle _ hand active hfits outbound writer streams =>
      have hfront := pending_popped (c := c) hand (by rw [writer]; rfl) outbound
      have hnext : (payloadsFor c [addressed e]).filter fits = payloadsFor c
          ((PipeSession.begun c ((owner s handle).toList.map (fun c => .began c e))).map
            addressed) := by
        by_cases hseen : e.seen = some c
        · have hactive := hhand e hand hseen
          rw [activeClient, active, Option.bind_some] at hactive
          simp [payloadsFor, addressed, PipeSession.begun, hactive, hseen, fits, hfits]
        · have hnone : payloadsFor c [addressed e] = [] := by
            rw [payloadsFor_singleton]
            exact if_neg hseen
          rw [hnone, List.filter_nil, eq_comm]
          apply payloadsFor_eq_nil
          intro p hp
          obtain ⟨e', he', rfl⟩ := List.mem_map.mp hp
          obtain ⟨o, ho, heq⟩ := List.mem_filterMap.mp he'
          obtain ⟨c', -, rfl⟩ := List.mem_map.mp ho
          simp only [Option.ite_none_right_eq_some, Option.some.injEq] at heq
          rw [← heq.2]
          exact hseen
      rw [hfront, List.filter_append, hnext] at hi
      rw [payloadsFor_nil, List.append_nil, hi, List.append_assoc]
  | lost writing _ outbound writer =>
      exact hkept (pending_congr (by rw [outbound, writer, writing]; rfl))
  | failed writing _ outbound writer =>
      exact hkept (pending_congr (by rw [outbound, writer, writing]; rfl))
  | wrote writing _ _ outbound _ next =>
      refine hkept (pending_congr ?_)
      rw [outbound, writing]
      rcases next with ⟨writer, -⟩ | ⟨_, _, writer, -⟩
      · rw [writer]
        rfl
      · rw [writer]
        rfl

/-- A client that is not being written to has whole frames. -/
theorem Streamed.of_free {frames : List Bytes} (hi : Streamed frames s c) (hfree : Free s c) :
    ∃ stale, s.streams c = stale ++ frames.flatMap frame := by
  cases hi with
  | whole stale streams => exact ⟨stale, streams⟩
  | part _ _ _ _ _ _ _ _ writer owned => exact absurd owned (hfree _ _ _ _ writer)

theorem free_of_writing {e : Entry} {handle : Handle} {left body : Bytes}
    (writing : s.writer = .writing e handle left body) (other : owner s handle ≠ some c) :
    Free s c := by
  intro e' handle' left' body' heq
  rw [writing] at heq
  cases heq
  exact other

theorem free_of_idle (idle : s.writer = .idle) : Free s c := by
  intro e handle left body heq
  cases idle.symm.trans heq

theorem free_of_popped {e : Entry} (hand : s.writer = .popped e) : Free s c := by
  intro e handle left body heq
  cases hand.symm.trans heq

/-- The frame that is begun is one of the client that owns the handle, -/
theorem begun_of_owner {e : Entry} {handle : Handle} (howned : owner s handle = some c) :
    PipeSession.begun c ((owner s handle).toList.map (fun c => .began c e)) = [e] := by
  simp [PipeSession.begun, howned]

/-- and of no other. -/
theorem begun_of_other {e : Entry} {handle : Handle} (hother : owner s handle ≠ some c) :
    PipeSession.begun c ((owner s handle).toList.map (fun c => .began c e)) = [] := by
  cases howner : owner s handle with
  | none => rfl
  | some c' =>
      have hne : c' ≠ c := by
        rintro rfl
        exact hother howner
      simp [PipeSession.begun, hne]

/-- A piece of the frame that is being written to the client. -/
theorem Streamed.wrote {frames : List Bytes} (hi : Streamed frames s c) {e : Entry}
    {handle : Handle} {left body chunk rest : Bytes}
    (writing : s.writer = .writing e handle left body) (owned : owner s handle = some c)
    (owned' : owner s' handle = some c) (split : left ++ body = chunk ++ rest)
    (hstream : s'.streams c = s.streams c ++ chunk)
    (next : s'.writer = .idle ∧ rest = [] ∨
      ∃ left' body', s'.writer = .writing e handle left' body' ∧ left' ++ body' = rest) :
    Streamed frames s' c := by
  cases hi with
  | whole stale hstreams other =>
      rcases other with rfl | hfree
      · exact .whole (s'.streams c) (by simp) (Or.inl rfl)
      · exact absurd owned (hfree _ _ _ _ writing)
  | part stale before e' handle' done left' body' hframes hwriting howned hsplit hstreams =>
      cases writing.symm.trans hwriting
      have hmore : frame e.payload = (done ++ chunk) ++ rest := by
        rw [hsplit, split, List.append_assoc]
      rcases next with ⟨writer, rfl⟩ | ⟨left', body', writer, rfl⟩
      · refine .whole stale ?_ (Or.inr (free_of_idle writer))
        rw [hstream, hstreams, hframes, List.flatMap_append, List.flatMap_singleton, hmore]
        simp only [List.append_assoc, List.append_nil]
      · refine .part stale before e handle (done ++ chunk) left' body' hframes writer owned' hmore
          ?_
        rw [hstream, hstreams]
        simp only [List.append_assoc]

/-- **One step keeps the stream of the client**: whole frames, and the part of
one that is being written. -/
theorem Moved.streamed_step (hm : Moved s offer os s') (hrunning : s.stop = false)
    (hpipe : s'.pipe = s.pipe) (hunbroken : s'.failed c = false) {frames : List Bytes}
    (hi : Streamed frames s c) :
    Streamed (frames ++ (PipeSession.begun c os).map Entry.payload) s' c := by
  have howner : ∀ handle, owner s' handle = owner s handle := by
    intro handle
    rw [owner, hpipe, owner]
  have hkept : s'.writer = s.writer → s'.streams = s.streams →
      Streamed (frames ++ (PipeSession.begun c []).map Entry.payload) s' c := by
    intro writer streams
    rw [begun_nil, List.map_nil, List.append_nil]
    cases hi with
    | whole stale hstreams other =>
        refine .whole stale (by rw [streams, hstreams]) (other.imp_right ?_)
        intro hfree e handle left body hwriting
        rw [howner]
        exact hfree e handle left body (writer ▸ hwriting)
    | part stale before e handle done left body hframes hwriting howned hsplit hstreams =>
        exact .part stale before e handle done left body hframes (writer ▸ hwriting)
          ((howner handle).trans howned) hsplit (by rw [streams, hstreams])
  have hfreed : Free s c → Free s' c → s'.streams c = s.streams c →
      Streamed (frames ++ (PipeSession.begun c []).map Entry.payload) s' c := by
    intro hfree hfree' streams
    obtain ⟨stale, hstreams⟩ := hi.of_free hfree
    rw [begun_nil, List.map_nil, List.append_nil]
    exact .whole stale (streams.trans hstreams) (Or.inr hfree')
  cases hm with
  | still _ writer streams => exact hkept writer streams
  | refused stop => exact absurd stop (by simp [hrunning])
  | taken _ _ writer streams => exact hkept writer streams
  | popped idle _ writer streams =>
      exact hfreed (free_of_idle idle) (free_of_popped writer) (by rw [streams])
  | dropped hand _ _ writer streams =>
      exact hfreed (free_of_popped hand) (free_of_idle writer) (by rw [streams])
  | @begun e handle _ hand active _ _ writer streams =>
      obtain ⟨stale, hstreams⟩ := hi.of_free (free_of_popped hand)
      by_cases howned : owner s handle = some c
      · rw [begun_of_owner howned]
        refine .part stale frames e handle [] _ _ rfl writer ((howner handle).trans howned) rfl ?_
        rw [streams, List.append_nil, hstreams]
      · rw [begun_of_other howned, List.map_nil, List.append_nil]
        exact .whole stale (by rw [streams, hstreams])
          (Or.inr (free_of_writing writer (by rwa [howner])))
  | lost writing gone _ writer streams =>
      exact hfreed (free_of_writing writing (by simp [gone])) (free_of_idle writer)
        (by rw [streams])
  | @failed e handle left body c' _ writing owned _ writer streams broken =>
      have hne : owner s handle ≠ some c := by
        rw [owned]
        rintro ⟨⟩
        simp [hunbroken] at broken
      exact hfreed (free_of_writing writing hne) (free_of_idle writer) (by rw [streams])
  | @wrote e handle left body chunk rest c' _ writing owned split outbound streams next =>
      have hnext : owner s handle ≠ some c → Free s' c := by
        intro hne
        rcases next with ⟨writer, -⟩ | ⟨_, _, writer, -⟩
        · exact free_of_idle writer
        · exact free_of_writing writer (by rwa [howner])
      by_cases hclient : c' = c
      · subst hclient
        have hstream : s'.streams c' = s.streams c' ++ chunk := by
          rw [streams, Function.update_self]
        rw [begun_nil, List.map_nil, List.append_nil]
        exact hi.wrote writing owned ((howner handle).trans owned) split hstream next
      · have hne : owner s handle ≠ some c := by
          rw [owned]
          rintro ⟨⟩
          exact hclient rfl
        exact hfreed (free_of_writing writing hne) (hnext hne)
          (by rw [streams, Function.update_of_ne (Ne.symm hclient)])

end

/-! ## Every run -/

/-- What is kept along a run. -/
structure Kept (h : List Obs) (s : Server) : Prop where
  phase : PhaseOk s
  checked : ∀ p ∈ s.checked, ∀ c, p.2 = some c → Published s c
  queued : ∀ e ∈ s.writer.inHand ++ s.outbound, ∀ c, e.seen = some c → Published s c
  fresh : ∀ c, ¬ Published s c → owedTo c h = [] ∧ begunTo c h = []
  frames : ∀ c, Connected s c → (owedTo c h).filter fits = sentTo c h ++ (pending c s).filter fits
  streamed : ∀ c, Connected s c → Streamed (framesTo c h) s c

section

variable {onConnect : Bytes} {h news owes : List Obs} {s s' : Server} {c : Client}
  {offer : List (Option Client × Bytes)} {os : List PipeSession.Obs}

@[simp] theorem owedTo_append (c : Client) (h news : List Obs) :
    owedTo c (h ++ news) = owedTo c h ++ payloadsFor c (news.filterMap Obs.owed) := by
  simp [owedTo]

@[simp] theorem begunTo_append (c : Client) (h news : List Obs) :
    begunTo c (h ++ news) =
      begunTo c h ++ (PipeSession.begun c (news.filterMap Obs.began)).map addressed := by
  simp [begunTo]

theorem owed_pipe (os : List PipeSession.Obs) : (os.map Obs.pipe).filterMap Obs.owed = [] := by
  induction os with
  | nil => rfl
  | cons o os ih => exact ih

theorem began_pipe (os : List PipeSession.Obs) : (os.map Obs.pipe).filterMap Obs.began = os := by
  induction os with
  | nil => rfl
  | cons o os ih => exact congrArg (o :: ·) ih

/-- **What a step of the server with its handler shows**: what is owed, which
is what is given to `EnqueueOutbound` unless the server is stopping, and what
the writer thread begins. -/
structure Shown (s : Server) (offer : List (Option Client × Bytes)) (os : List PipeSession.Obs)
    (news : List Obs) : Prop where
  owed : s.stop = false → news.filterMap Obs.owed = offer
  stopped : ∀ p ∈ news.filterMap Obs.owed, p ∈ offer
  began : news.filterMap Obs.began = os

theorem step_shown {a : Action} (hstep : (machine onConnect).step s a = some (s', news)) :
    ∃ a' os, (PipeSession.machine onConnect).step s a' = some (s', os) ∧
      Shown s (offered onConnect s a') os news := by
  cases a with
  | getClipboard request sys content =>
      simp only [machine] at hstep
      split at hstep
      · obtain ⟨⟨t, os⟩, hserver, heq⟩ := Option.map_eq_some_iff.mp hstep
        cases heq
        refine ⟨_, os, hserver, ?_, ?_, began_pipe os⟩
        · intro _
          exact congrArg _ (owed_pipe os)
        · intro p hp
          rw [List.filterMap_cons_some (show Obs.owed _ = some _ from rfl), owed_pipe] at hp
          exact hp
      · cases hstep
  | pipe a =>
      obtain ⟨⟨t, os⟩, hserver, heq⟩ := Option.map_eq_some_iff.mp hstep
      cases heq
      have howed : ∀ offer : List (Option Client × Bytes),
          (offer.map (fun p => Obs.accepted p.1 p.2)).filterMap Obs.owed = offer := by
        intro offer
        induction offer with
        | nil => rfl
        | cons p offer ih => exact congrArg (p :: ·) ih
      have hbegan : ∀ offer : List (Option Client × Bytes),
          (offer.map (fun p => Obs.accepted p.1 p.2)).filterMap Obs.began = [] := by
        intro offer
        induction offer with
        | nil => rfl
        | cons p offer ih => exact ih
      refine ⟨a, os, hserver, ?_⟩
      unfold accepted
      by_cases hstop : s.stop = true
      · rw [if_pos hstop, List.nil_append]
        refine ⟨fun hrunning => absurd hstop (by simp [hrunning]), ?_, began_pipe os⟩
        intro p hp
        rw [owed_pipe] at hp
        cases hp
      · rw [if_neg hstop]
        refine ⟨fun _ => ?_, ?_, ?_⟩
        · rw [List.filterMap_append, howed, owed_pipe, List.append_nil]
        · simp only [List.filterMap_append, howed, owed_pipe, List.append_nil]
          exact fun p => id
        · rw [List.filterMap_append, hbegan, began_pipe, List.nil_append]

/-- Frames are given to `EnqueueOutbound` for a client that has been
published. -/
theorem offered_published {a : PipeSession.Action} (hok : PhaseOk s)
    (hchecked : ∀ p ∈ s.checked, ∀ c, p.2 = some c → Published s c)
    (hstep : (PipeSession.machine onConnect).step s a = some (s', os)) :
    ∀ p ∈ offered onConnect s a, p.1 = some c → Published s c := by
  have hserved : s.phase = .published ∨ s.phase = .serving → s.pipe.map Prod.snd = some c →
      Published s c := by
    intro hphase hclient
    obtain ⟨handle, c', -, -, hactive⟩ := hok.active hphase
    exact published_of_active hok (by simp [hactive]) hclient
  intro p hp hclient
  cases PipeSession.step_cases hstep with
  | served phase =>
      simp only [offered] at hp
      split at hp
      · cases hp
      · rw [List.mem_singleton.mp hp] at hclient
        exact hserved (Or.inl phase) hclient
  | replied phase =>
      rw [List.mem_singleton.mp hp] at hclient
      exact hserved (Or.inr phase) hclient
  | enqueued =>
      obtain ⟨q, hq, rfl⟩ := List.mem_map.mp hp
      exact hchecked q (List.mem_of_getElem? (Option.mem_toList.mp hq)) c hclient
  | connected | published | hungUp | closed | nobody | checked | popped | routed | wrote
  | stopped => cases hp

/-- The frames on their way after a step were on their way before it, or were
given to `EnqueueOutbound`. -/
theorem Moved.queued (hm : Moved s offer os s') :
    ∀ e ∈ s'.writer.inHand ++ s'.outbound,
      e ∈ s.writer.inHand ++ s.outbound ∨ addressed e ∈ offer := by
  intro e he
  cases hm with
  | still outbound writer => exact Or.inl (by rwa [outbound, writer] at he)
  | refused _ outbound writer => exact Or.inl (by rwa [outbound, writer] at he)
  | taken _ outbound writer =>
      rw [outbound, writer, ← List.append_assoc] at he
      rcases List.mem_append.mp he with hold | hnew
      · exact Or.inl hold
      · exact Or.inr (List.mem_singleton.mpr (by rw [List.mem_singleton.mp hnew]; rfl))
  | popped idle outbound writer =>
      rw [writer] at he
      rw [idle, outbound]
      exact Or.inl he
  | dropped _ _ outbound writer | lost _ _ outbound writer | failed _ _ outbound writer
  | begun _ _ _ outbound writer =>
      rw [writer, outbound] at he
      exact Or.inl (List.mem_append_right _ he)
  | wrote _ _ _ outbound _ next =>
      rcases next with ⟨writer, -⟩ | ⟨_, _, writer, -⟩
      · rw [writer, outbound] at he
        exact Or.inl (List.mem_append_right _ he)
      · rw [writer, outbound] at he
        exact Or.inl (List.mem_append_right _ he)

/-- Frames are begun to the client whose pipe is active. -/
theorem Moved.begun_active (hm : Moved s offer os s') {e : Entry}
    (he : e ∈ PipeSession.begun c os) : activeClient s = some c := by
  cases hm with
  | @begun e' handle _ hand active =>
      obtain ⟨o, ho, heq⟩ := List.mem_filterMap.mp he
      obtain ⟨c', hc', rfl⟩ := List.mem_map.mp ho
      simp only [Option.ite_none_right_eq_some] at heq
      rw [activeClient, active, Option.bind_some, Option.mem_toList.mp hc', heq.1]
  | still | refused | taken | popped | dropped | lost | failed | wrote => cases he

/-- **One step keeps all of it.** -/
theorem Kept.step {a : Action} (hi : Kept h s)
    (hstep : (machine onConnect).step s a = some (s', news)) : Kept (h ++ news) s' := by
  obtain ⟨a', os, hserver, hshown⟩ := step_shown hstep
  have hs := stepped hserver
  have hoffered : ∀ c, ∀ p ∈ offered onConnect s a', p.1 = some c → Published s c :=
    fun c => offered_published hi.phase hi.checked hserver
  have hrunning : ∀ c, Connected s' c → s.stop = false := by
    intro c hc
    by_contra hstop
    exact absurd (hs.stop (by simpa using hstop)) (by simp [hc.running])
  refine ⟨hs.turn.phaseOk hi.phase, ?_, ?_, ?_, ?_, ?_⟩
  · intro p hp c hseen
    rcases hs.checked p hp with hold | hnew
    · exact hs.turn.published_mono (hi.checked p hold c hseen)
    · exact hs.turn.published_mono (published_of_activeClient hi.phase (hnew ▸ hseen))
  · intro e he c hseen
    rcases hs.moved.queued e he with hold | hnew
    · exact hs.turn.published_mono (hi.queued e hold c hseen)
    · exact hs.turn.published_mono (hoffered c _ hnew hseen)
  · intro c hnot
    have hbefore : ¬ Published s c := fun hp => hnot (hs.turn.published_mono hp)
    obtain ⟨howed, hbegun⟩ := hi.fresh c hbefore
    constructor
    · rw [owedTo_append, howed, List.nil_append]
      apply payloadsFor_eq_nil
      intro p hp hclient
      exact hbefore (hoffered c p (hshown.stopped p hp) hclient)
    · rw [begunTo_append, hbegun, hshown.began, List.nil_append, List.map_eq_nil_iff]
      refine List.eq_nil_iff_forall_not_mem.mpr ?_
      intro e he
      exact hbefore (published_of_activeClient hi.phase (hs.moved.begun_active he))
  · intro c hc
    have hbefore : (owedTo c h).filter fits = sentTo c h ++ (pending c s).filter fits := by
      by_cases hp : Published s c
      · exact hi.frames c (hs.back hc hp)
      · -- the client has just been published: nothing was meant for it before
        obtain ⟨howed, hbegun⟩ := hi.fresh c hp
        have hnone : pending c s = [] := by
          apply payloadsFor_eq_nil
          intro p hp'
          obtain ⟨e, he, rfl⟩ := List.mem_map.mp hp'
          exact fun hseen => hp (hi.queued e he c hseen)
        rw [howed, sentTo, hbegun, hnone]
        rfl
    have hhand : ∀ e, s.writer = .popped e → e.seen = some c → activeClient s = some c := by
      intro e hwriter hseen
      have hp := hi.queued e (by simp [hwriter]) c hseen
      have hback := hs.back hc hp
      exact (hi.phase.activeClient hback.served hback.newest).1
    have hstep := hs.moved.frames_step (hrunning c hc) hhand hbefore
    rw [owedTo_append, hshown.owed (hrunning c hc), hstep, sentTo, sentTo, begunTo_append,
      payloadsFor_append, hshown.began]
  · intro c hc
    have hbefore : Streamed (framesTo c h) s c := by
      by_cases hp : Published s c
      · exact hi.streamed c (hs.back hc hp)
      · have hnone : framesTo c h = [] := by
          rw [framesTo, (hi.fresh c hp).2, List.map_nil]
        rw [hnone]
        exact .whole (s.streams c) (by simp) (Or.inl rfl)
    have hstep := hs.moved.streamed_step (hrunning c hc) (hs.turn.pipe_eq hc) hc.unbroken hbefore
    have hframes : framesTo c (h ++ news) =
        framesTo c h ++ (PipeSession.begun c os).map Entry.payload := by
      rw [framesTo, framesTo, begunTo_append, hshown.began, List.map_append, List.map_map]
      rfl
    rwa [hframes]

theorem kept_initial : Kept [] {} where
  phase := ⟨rfl, rfl⟩
  checked := by simp
  queued := by simp
  fresh := fun _ _ => ⟨rfl, rfl⟩
  frames := by
    intro c hc
    rfl
  streamed := fun _ _ => .whole [] rfl (Or.inl rfl)

theorem kept_of_run (hrun : (machine onConnect).Run Machine.always {} h s) : Kept h s := by
  refine hrun.history_invariant Kept kept_initial ?_
  intro h s a s' os hi _ hstep
  exact hi.step hstep

end

/-! ## Coming to rest -/

/-- The writer thread takes the server from one state to another, and nothing
else happens meanwhile. -/
structure Drains (onConnect : Bytes) (s s' : Server) : Prop where
  run : ∃ news, (machine onConnect).Run Machine.always s news s' ∧
    news.filterMap Obs.owed = []
  phase : s'.phase = s.phase
  clients : s'.clients = s.clients
  stop : s'.stop = s.stop
  failed : s'.failed = s.failed

section

variable {onConnect : Bytes} {s s' s'' : Server} {c : Client}

theorem Drains.refl (s : Server) : Drains onConnect s s := ⟨⟨[], .nil, rfl⟩, rfl, rfl, rfl, rfl⟩

theorem Drains.trans (first : Drains onConnect s s') (second : Drains onConnect s' s'') :
    Drains onConnect s s'' := by
  obtain ⟨news, hrun, hnone⟩ := first.run
  obtain ⟨news', hrun', hnone'⟩ := second.run
  refine ⟨⟨news ++ news', hrun.append hrun', ?_⟩, second.phase.trans first.phase,
    second.clients.trans first.clients, second.stop.trans first.stop,
    second.failed.trans first.failed⟩
  rw [List.filterMap_append, hnone, hnone', List.nil_append]

/-- One step of the writer thread. -/
theorem Drains.of_step {a : PipeSession.Action} {os : List PipeSession.Obs}
    (hstep : (PipeSession.machine onConnect).step s a = some (s', os))
    (hnone : offered onConnect s a = []) (phase : s'.phase = s.phase)
    (clients : s'.clients = s.clients) (stop : s'.stop = s.stop) (failed : s'.failed = s.failed) :
    Drains onConnect s s' := by
  have hquiet : accepted onConnect s a = [] := by simp [accepted, hnone]
  have hmachine : (machine onConnect).step s (.pipe a) = some (s', os.map .pipe) := by
    simp only [machine, hstep, hquiet, Option.map_some, List.nil_append]
  exact ⟨⟨os.map .pipe, .snoc .nil trivial hmachine, owed_pipe os⟩, phase, clients, stop, failed⟩

theorem Connected.drains (hc : Connected s c) (hd : Drains onConnect s s') : Connected s' c where
  running := hd.stop.trans hc.running
  newest := hd.clients.trans hc.newest
  served := by
    rw [hd.phase]
    exact hc.served
  unbroken := by
    rw [hd.failed]
    exact hc.unbroken

variable (onConnect) in
/-- A write of all that is left of the header or of the body. -/
theorem drains_write {e : Entry} {handle : Handle} {left body : Bytes}
    (writing : s.writer = .writing e handle left body) :
    ∃ s', Drains onConnect s s' ∧ s'.outbound = s.outbound ∧
      (s'.writer = .idle ∨ body ≠ [] ∧ s'.writer = .writing e handle body []) := by
  cases howner : owner s handle with
  | none =>
      have hstep : (PipeSession.machine onConnect).step s (.write (.completed left.length)) =
          some ({ s with writer := .idle }, []) := by
        simp [PipeSession.machine, write, writing, howner]
      exact ⟨_, .of_step hstep rfl rfl rfl rfl rfl, rfl, Or.inl rfl⟩
  | some c =>
      by_cases hbody : body = []
      · have hstep : (PipeSession.machine onConnect).step s (.write (.completed left.length)) =
            some ({ s with
              streams := Function.update s.streams c (s.streams c ++ left)
              writer := .idle }, []) := by
          simp [PipeSession.machine, write, writing, howner, OverlappedCall.io, hbody]
        exact ⟨_, .of_step hstep rfl rfl rfl rfl rfl, rfl, Or.inl rfl⟩
      · have hstep : (PipeSession.machine onConnect).step s (.write (.completed left.length)) =
            some ({ s with
              streams := Function.update s.streams c (s.streams c ++ left)
              writer := .writing e handle body [] }, []) := by
          simp [PipeSession.machine, write, writing, howner, OverlappedCall.io, hbody]
        exact ⟨_, .of_step hstep rfl rfl rfl rfl rfl, rfl, Or.inr ⟨hbody, rfl⟩⟩

variable (onConnect) in
theorem drains_writing {e : Entry} {handle : Handle} {left body : Bytes}
    (writing : s.writer = .writing e handle left body) :
    ∃ s', Drains onConnect s s' ∧ s'.outbound = s.outbound ∧ s'.writer = .idle := by
  obtain ⟨t, hdrains, houtbound, hidle | ⟨-, hmore⟩⟩ := drains_write onConnect writing
  · exact ⟨t, hdrains, houtbound, hidle⟩
  · obtain ⟨t', hdrains', houtbound', hidle | ⟨hnot, -⟩⟩ := drains_write onConnect hmore
    · exact ⟨t', hdrains.trans hdrains', houtbound'.trans houtbound, hidle⟩
    · exact absurd rfl hnot

variable (onConnect) in
/-- The writer thread is done with what it has in its hand. -/
theorem drains_to_idle (s : Server) :
    ∃ s', Drains onConnect s s' ∧ s'.outbound = s.outbound ∧ s'.writer = .idle := by
  cases hwriter : s.writer with
  | idle => exact ⟨s, .refl s, rfl, hwriter⟩
  | popped e =>
      cases hactive : s.activePipe with
      | none =>
          have hstep : (PipeSession.machine onConnect).step s .route =
              some ({ s with writer := .idle }, []) := by
            simp [PipeSession.machine, route, hwriter, hactive]
          exact ⟨_, .of_step hstep rfl rfl rfl rfl rfl, rfl, rfl⟩
      | some handle =>
          by_cases hlong : e.payload.length > kMaxFrameSize.toNat
          · have hstep : (PipeSession.machine onConnect).step s .route =
                some ({ s with writer := .idle }, []) := by
              simp [PipeSession.machine, route, hwriter, hactive, hlong]
            exact ⟨_, .of_step hstep rfl rfl rfl rfl rfl, rfl, rfl⟩
          · have hstep : (PipeSession.machine onConnect).step s .route =
                some ({ s with
                    writer := .writing e handle
                      (writeLengthLE (UInt32.ofNat e.payload.length)) e.payload },
                  (owner s handle).toList.map (fun c => .began c e)) := by
              simp [PipeSession.machine, route, hwriter, hactive, hlong]
            have hbegun : Drains onConnect s { s with
                writer := .writing e handle (writeLengthLE (UInt32.ofNat e.payload.length))
                  e.payload } := .of_step hstep rfl rfl rfl rfl rfl
            obtain ⟨t, hdrains, houtbound, hidle⟩ := drains_writing onConnect
              (s := { s with
                writer := .writing e handle (writeLengthLE (UInt32.ofNat e.payload.length))
                  e.payload }) rfl
            exact ⟨t, hbegun.trans hdrains, houtbound, hidle⟩
  | writing e handle left body => exact drains_writing onConnect hwriter

variable (onConnect) in
/-- **The writer thread empties the queue**, by induction on its frames. -/
theorem drains_to_rest (s : Server) : ∃ s', Drains onConnect s s' ∧ AtRest s' := by
  obtain ⟨outbound, hqueue⟩ : ∃ outbound, s.outbound = outbound := ⟨_, rfl⟩
  induction outbound generalizing s with
  | nil =>
      obtain ⟨t, hdrains, houtbound, hidle⟩ := drains_to_idle onConnect s
      exact ⟨t, hdrains, hidle, houtbound.trans hqueue⟩
  | cons e rest ih =>
      obtain ⟨t, hdrains, houtbound, hidle⟩ := drains_to_idle onConnect s
      rw [hqueue] at houtbound
      have hstep : (PipeSession.machine onConnect).step t .pop =
          some ({ t with writer := .popped e, outbound := rest }, []) := by
        simp [PipeSession.machine, hidle, houtbound]
      have hpopped : Drains onConnect t { t with writer := .popped e, outbound := rest } :=
        .of_step hstep rfl rfl rfl rfl rfl
      obtain ⟨t', hdrains', hrest⟩ := ih { t with writer := .popped e, outbound := rest } rfl
      exact ⟨t', (hdrains.trans hpopped).trans hdrains', hrest⟩

end

/-! ## What reaches the client -/

section

variable {onConnect : Bytes} {h : List Obs} {s : Server} {c : Client}

theorem mem_owedTo {payload : Bytes} :
    payload ∈ owedTo c h ↔ ∃ o ∈ h, o.owed = some (some c, payload) := by
  simp only [owedTo, payloadsFor, List.mem_map, List.mem_filter, List.mem_filterMap,
    decide_eq_true_eq]
  constructor
  · intro hp
    obtain ⟨⟨client, payload'⟩, ⟨⟨o, ho, howed⟩, rfl⟩, rfl⟩ := hp
    exact ⟨o, ho, howed⟩
  · intro ho
    obtain ⟨o, ho, howed⟩ := ho
    exact ⟨_, ⟨⟨o, ho, howed⟩, rfl⟩, rfl⟩

/-- What is within the cap is what `WriteFrame` takes. -/
theorem withinCap_iff : (∀ o ∈ h, WithinCap c o) ↔ ∀ payload ∈ owedTo c h, fits payload = true := by
  constructor
  · intro hall payload hp
    obtain ⟨o, ho, howed⟩ := mem_owedTo.mp hp
    have hwithin := hall o ho
    cases o with
    | asked client sys content =>
        cases howed
        exact decide_eq_true ((handleGetClipboard_fits_iff sys content).mpr (hwithin rfl))
    | accepted client payload' =>
        cases howed
        exact decide_eq_true (hwithin rfl)
    | pipe o => cases howed
  · intro hall o ho
    cases o with
    | asked client sys content =>
        rintro rfl
        apply (handleGetClipboard_fits_iff sys content).mp
        exact of_decide_eq_true (hall _ (mem_owedTo.mpr ⟨_, ho, rfl⟩))
    | accepted client payload =>
        rintro rfl
        exact of_decide_eq_true (hall _ (mem_owedTo.mpr ⟨_, ho, rfl⟩))
    | pipe o => trivial

/-- At rest the client has been sent what it is owed and what fits. -/
theorem Kept.sentTo_eq (hi : Kept h s) (hc : Connected s c) (hrest : AtRest s) :
    sentTo c h = (owedTo c h).filter fits := by
  have hnone : pending c s = [] := by
    rw [pending, hrest.1, hrest.2]
    rfl
  have hframes := hi.frames c hc
  rw [hnone, List.filter_nil, List.append_nil] at hframes
  exact hframes.symm

end

/-- **Which frames reach a client.**  In every run, for a client that has been
connected since, the writer thread comes to rest, and when it is at rest

* the stream of the client is whole frames, after what may be left of an
  earlier one, and those meant for it are, one for one and in order, those
  owed to it that `WriteFrame` takes;
* these are all that it is owed if and only if the content of each
  `GET_CLIPBOARD` and each frame that was accepted is within the cap;
* a `GET_CLIPBOARD` is answered if and only if its content is. -/
theorem frames_reach_client_iff (onConnect : Bytes) {h : List Obs} {s : Server}
    (hrun : (machine onConnect).Run Machine.always {} h s) {c : Client} (hc : Connected s c) :
    (AtRest s →
      (∃ stale, s.streams c = stale ++ (framesTo c h).flatMap frame) ∧
      (sentTo c h).Sublist (framesTo c h) ∧
      sentTo c h = (owedTo c h).filter fits ∧
      (sentTo c h = owedTo c h ↔ ∀ o ∈ h, WithinCap c o) ∧
      ∀ sys content, .asked (some c) sys content ∈ h →
        (handleGetClipboard sys content ∈ sentTo c h ↔ ContentFits sys content)) ∧
    ∃ news s', (machine onConnect).Run Machine.always s news s' ∧
      news.filterMap Obs.owed = [] ∧ Connected s' c ∧ AtRest s' := by
  have hi := kept_of_run hrun
  constructor
  · intro hrest
    have hsent := hi.sentTo_eq hc hrest
    refine ⟨(hi.streamed c hc).of_free (free_of_idle hrest.1), ?_, hsent, ?_, ?_⟩
    · exact List.filter_sublist.map Prod.snd
    · rw [hsent, List.filter_eq_self, withinCap_iff]
    · intro sys content hasked
      have howed : handleGetClipboard sys content ∈ owedTo c h := mem_owedTo.mpr ⟨_, hasked, rfl⟩
      rw [hsent, List.mem_filter, fits, decide_eq_true_eq, handleGetClipboard_fits_iff]
      exact and_iff_right howed
  · obtain ⟨s', hdrains, hrest⟩ := drains_to_rest onConnect s
    obtain ⟨news, hmore, hnone⟩ := hdrains.run
    exact ⟨news, s', hmore, hnone, hc.drains hdrains, hrest⟩

/-! ## Runs -/

/-- A picture of three bytes, and the answer with it. -/
def smallPicture : DispatchCodec.ClipboardSnapshot :=
  { contentType := .image, imagePng := [1, 2, 3] }

/-- A client connects, asks for the clipboard, and gets READY, the answer and
a frame of `SendFrame`. -/
theorem frames_reach_client_small_picture :
    ∃ h s, (machine [8, 14]).Run Machine.always {} h s ∧ Connected s 0 ∧ AtRest s ∧
      sentTo 0 h = [[8, 14], handleGetClipboard DispatchCodec.asciiPlatform (some smallPicture),
        [8, 11]] ∧
      sentTo 0 h = owedTo 0 h ∧ (sentTo 0 h = owedTo 0 h ↔ ∀ o ∈ h, WithinCap 0 o) := by
  have hexec : ((machine [8, 14]).exec {}
      [.pipe (.connect 7), .pipe .publish, .pipe .ready,
        .getClipboard [8, 4] DispatchCodec.asciiPlatform (some smallPicture),
        .pipe (.check [8, 11]), .pipe (.enqueue 0),
        .pipe .pop, .pipe .route, .pipe (.write (.completed 9)), .pipe (.write (.completed 9)),
        .pipe .pop, .pipe .route, .pipe (.write (.waited 9)), .pipe (.write (.completed 99)),
        .pipe .pop, .pipe .route, .pipe (.write (.completed 9)),
        .pipe (.write (.completed 9))]).map (fun r =>
          decide (r.1.stop = false ∧ r.1.clients = 1 ∧ r.1.phase = .serving ∧
            r.1.failed 0 = false ∧ r.1.writer = .idle ∧ r.1.outbound = [] ∧
            sentTo 0 r.2 = [[8, 14], handleGetClipboard DispatchCodec.asciiPlatform
              (some smallPicture), [8, 11]] ∧ sentTo 0 r.2 = owedTo 0 r.2)) =
      some true := by
    decide
  obtain ⟨h, s, hrun, hresult⟩ := Machine.Run.of_exec_map hexec
  obtain ⟨hstop, hclients, hphase, hfailed, hwriter, hout, hsent, howed⟩ :=
    of_decide_eq_true hresult
  have hc : Connected s 0 := ⟨hstop, hclients, Or.inr hphase, hfailed⟩
  have hrest : AtRest s := ⟨hwriter, hout⟩
  exact ⟨h, s, hrun, hc, hrest, hsent, howed,
    ((frames_reach_client_iff [8, 14] hrun hc).1 hrest).2.2.2.1⟩

theorem asked_step {onConnect request : Bytes} {s : Server} (sys : DispatchCodec.Platform)
    (content : Option DispatchCodec.ClipboardSnapshot) (hphase : s.phase = .serving)
    (hrequest : (DispatchCodec.parseHelperMessage request {}).map (fun msg => msg.type) =
      some .getClipboard) :
    (machine onConnect).step s (.getClipboard request sys content) =
      some (enqueueOutbound s (handleGetClipboard sys content) .reply (s.pipe.map Prod.snd),
        [.asked (s.pipe.map Prod.snd) sys content]) := by
  have hreply := And.intro hphase (handleGetClipboard_ne_nil sys content)
  simp only [machine, if_pos hrequest, PipeSession.machine, if_pos hreply]
  rfl

/-- Content that does not leave room is not answered, and nothing else is
written in its place. -/
theorem refused_run {sys : DispatchCodec.Platform}
    {content : Option DispatchCodec.ClipboardSnapshot} (hlong : ¬ ContentFits sys content) :
    ∃ h s, (machine []).Run Machine.always {} h s ∧ Connected s 0 ∧ AtRest s ∧
      .asked (some 0) sys content ∈ h ∧ owedTo 0 h = [handleGetClipboard sys content] ∧
      framesTo 0 h = [] := by
  rw [← handleGetClipboard_fits_iff, Nat.not_le] at hlong
  have hdrop : ∀ (s : Server) (e : Entry), s.writer = .popped e → s.activePipe = some 7 →
      kMaxFrameSize.toNat < e.payload.length →
        (machine []).step s (.pipe .route) = some ({ s with writer := .idle }, []) := by
    intro s e hwriter hactive hlarge
    simp [machine, PipeSession.machine, route, hwriter, hactive, hlarge, accepted, offered]
  have hstart : (machine []).Run Machine.always {} [] {} := .nil
  have hconnect := hstart.snoc (a := Action.pipe (.connect 7)) trivial rfl
  have hpublish := hconnect.snoc (a := Action.pipe .publish) trivial rfl
  have hready := hpublish.snoc (a := Action.pipe .ready) trivial rfl
  have hasked := hready.snoc (a := Action.getClipboard [8, 4] sys content) trivial
    (asked_step sys content rfl (by decide))
  have hpopped := hasked.snoc (a := Action.pipe .pop) trivial rfl
  have hrouted := hpopped.snoc (a := Action.pipe .route) trivial
    (hdrop _ ⟨handleGetClipboard sys content, .reply, some 0, some 0⟩ rfl rfl hlong)
  exact ⟨_, _, hrouted, ⟨rfl, rfl, Or.inr rfl, rfl⟩, ⟨rfl, rfl⟩, List.mem_cons_self, rfl, rfl⟩

/-- A picture of as many bytes as `WriteFrame` takes does not leave room. -/
theorem picture_too_long (sys : DispatchCodec.Platform) (picture : Bytes)
    (hlong : kMaxFrameSize.toNat ≤ picture.length) :
    ¬ ContentFits sys (some { contentType := .image, imagePng := picture }) := by
  have hpicture := ProtoWire.le_stringLength picture.length
  have hlength : ContentFrames.snapshotLength sys { contentType := .image, imagePng := picture } =
      2 + ProtoWire.stringLength picture.length := rfl
  rw [ContentFits, hlength, ContentFrames.envelopeOverhead]
  omega

/-- **A picture of 16 MiB is not answered**, though the client is connected
and the writer thread at rest. -/
theorem picture_not_answered :
    ∃ h s, (machine []).Run Machine.always {} h s ∧ Connected s 0 ∧ AtRest s ∧
      .asked (some 0) DispatchCodec.asciiPlatform
        (some { contentType := .image, imagePng := List.replicate 16777216 0 }) ∈ h ∧
      framesTo 0 h = [] ∧ ¬ sentTo 0 h = owedTo 0 h := by
  obtain ⟨h, s, hrun, hc, hrest, hasked, howed, hframes⟩ :=
    refused_run (picture_too_long DispatchCodec.asciiPlatform (List.replicate 16777216 0)
      (by rw [List.length_replicate]; exact Nat.le_refl _))
  refine ⟨h, s, hrun, hc, hrest, hasked, hframes, ?_⟩
  have hsent : (sentTo 0 h).Sublist (framesTo 0 h) := List.filter_sublist.map Prod.snd
  rw [hframes, List.sublist_nil] at hsent
  rw [hsent, howed]
  exact List.cons_ne_nil _ _ ∘ Eq.symm

end PipeReplies
