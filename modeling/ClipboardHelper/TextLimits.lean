import ClipboardHelper.LinuxDispatch
import ClipboardHelper.SocketGreeting
import ClipboardHelper.TextFrames
import ClipboardHelper.WaylandChanges

/-!
# How long a copied text may be on Linux

Three limits meet a text that another application copies: `DrainFd` stops at
16 MiB "to match the IPC frame size cap", `EncodeClipboardChangedText` and the
reply to `GET_CLIPBOARD` wrap what was drained, and `WriteFrame` refuses a
frame of more than 16 MiB.  A refused `CLIPBOARD_CHANGED` is lost; a refused
reply makes the worker of the socket server leave its loop, and with it the
helper.

The helper is the device of `WaylandDevice` and the server of
`SocketGreeting`, joined by the callback of `Attach` and by
`HandleGetClipboard`.  A drain that reaches the cap returns `true` without
looking for the end of the text.  **`texts_pass_iff`**: under every
interleaving and however the pipes are read, a text passes whole if and only
if it leaves room for the overhead of its frames.  `long_text_cut_off` is a
text of one byte more than the cap.
-/

namespace TextLimits

open Library PasteFormats WaylandDevice

/-! ## Draining a pipe -/

/-- **The reads of a pipe** out of which `text` is still to come, when
`DrainFd` holds `filled` bytes: each returns a stretch of the text that is no
longer than the read asks for, and the end is seen when the text is over. -/
def reads : Nat → Bytes → List ReadCall → Bool
  | _, _, [] => true
  | filled, text, .got first rest :: calls =>
    decide ((first :: rest).length ≤ min 4096 (drainCap - filled)) &&
      (first :: rest).isPrefixOf text &&
      reads (filled + (first :: rest).length) (text.drop (first :: rest).length) calls
  | _, text, .eof :: _ => text.isEmpty
  | filled, text, .eintr :: calls => reads filled text calls
  | _, _, .error :: _ => true

/-- **What `DrainFd` returns with success** is the text up to the cap, however
it is read. -/
theorem drainFd_reads {calls : List ReadCall} {text out result : Bytes}
    (hreads : reads out.length text calls = true) (hout : out.length ≤ drainCap)
    (hdrain : drainFd calls out = some (result, true)) :
    result = (out ++ text).take drainCap := by
  have hfull : ∀ {out text : Bytes}, out.length ≤ drainCap → drainCap ≤ out.length →
      out = (out ++ text).take drainCap := by
    intro out text hout hcap
    rw [List.take_append_of_le_length hcap, List.take_of_length_le hout]
  induction calls generalizing out text with
  | nil =>
      simp only [drainFd] at hdrain
      split at hdrain
      · rename_i hcap
        cases hdrain
        exact hfull hout hcap
      · cases hdrain
  | cons call calls ih =>
      simp only [drainFd] at hdrain
      split at hdrain
      · rename_i hcap
        cases hdrain
        exact hfull hout hcap
      · rename_i hcap
        cases call with
        | got first rest =>
            simp only [reads, Bool.and_eq_true, decide_eq_true_eq, List.isPrefixOf_iff_prefix]
              at hreads
            obtain ⟨⟨hasked, hprefix⟩, hrest⟩ := hreads
            obtain ⟨left, rfl⟩ := hprefix
            simp only [List.take_of_length_le hasked] at hdrain
            rw [List.drop_left, ← List.length_append] at hrest
            have hwhole := ih hrest (by rw [List.length_append]; omega) hdrain
            rwa [List.append_assoc] at hwhole
        | eof =>
            cases hdrain
            have hempty : text = [] := by simpa [reads] using hreads
            rw [hempty, List.append_nil, List.take_of_length_le hout]
        | eintr => exact ih hreads hout hdrain
        | error => cases hdrain

/-! ## The helper -/

/-- The device with its workers, the socket server, and, for the record, the
text and the time of the `GET_CLIPBOARD` that the server's worker is about to
answer. -/
structure Helper where
  device : Device := {}
  server : SocketGreeting.Server := {}
  asked : Option (Bytes × UInt64) := none

inductive Obs
  | device (o : WaylandDevice.Obs)
  | server (o : SocketGreeting.Obs)
  /-- `DrainFd` has returned `true` to a worker. -/
  | drained (number : Nat) (out : Bytes)
  /-- A worker has called `on_changed` while a client was connected, and
  whether `WriteFrame` took the frame. -/
  | changed (number : Nat) (text : Bytes) (clock : UInt64) (sent : Bool)
  /-- A connected client was to be answered with this text: whether
  `WriteFrame` took the reply, and whether the session goes on. -/
  | answered (text : Bytes) (clock : UInt64) (sent goesOn : Bool)
deriving DecidableEq, Repr

/-- A drain that comes to an end well. -/
def drainedBy (d : Device) : WaylandDevice.Action → List Obs
  | .drain index =>
    match d.drains[index]? with
    | some w => (drainedText w.calls).toList.map (.drained w.number)
    | none => []
  | _ => []

/-- The callback of `Attach`: a text becomes a frame, and `SendFrame` waits
for the mutex. -/
def onChanged (onConnect : Bytes) (s : Helper) (number : Nat) (text : Bytes) (clock : UInt64) :
    Option (Helper × List Obs) :=
  match (SocketGreeting.machine onConnect).step s.server
      (.sendFrame (LinuxCodec.encodeClipboardChangedText text [] clock)) with
  | none => none
  | some (server, os) =>
    let changed := if s.server.clientFd then [.changed number text clock (!os.isEmpty)] else []
    some ({ s with server := server }, changed ++ os.map .server)

/-- `HandleGetClipboard`. -/
def handleGetClipboard (s : Helper) (clock : UInt64) : Bytes :=
  LinuxCodec.encodeClipboardContentText (s.device.getClipboardText.getD []) clock

/-- A step of the server's worker at the reply it holds. -/
def answeredBy (s : Helper) (server : SocketGreeting.Server) (os : List SocketGreeting.Obs) :
    List Obs :=
  match s.asked with
  | some (text, clock) =>
    if s.server.clientFd then
      [.answered text clock (!os.isEmpty) (decide (server.phase ≠ .closing))]
    else []
  | none => []

inductive Action
  /-- A step of the backend, at the time the clock shows. -/
  | device (a : WaylandDevice.Action) (clock : UInt64)
  /-- The server's worker hands a frame to the dispatcher, which takes it for
  `GET_CLIPBOARD`. -/
  | getClipboard (frame : Bytes) (clock : UInt64)
  /-- A step of the server; `answer` is the reply to any other frame. -/
  | server (a : SocketGreeting.Action)
deriving DecidableEq, Repr

/-- **The helper**, as far as the text of the clipboard goes. -/
def machine (lib : ImageLibrary) (onConnect : Bytes) : Machine Helper Action Obs where
  step s
    | .device a clock =>
      match (WaylandDevice.machine lib).step s.device a with
      | none => none
      | some (device, os) =>
        let seen := drainedBy s.device a ++ os.map .device
        match WaylandChanges.reports os with
        | [] => some ({ s with device := device }, seen)
        | (number, text) :: _ =>
          (onChanged onConnect { s with device := device } number text clock).map
            fun r => (r.1, seen ++ r.2)
    | .getClipboard frame clock =>
      if LinuxDispatch.handle frame clock = .getClipboard then
        match (SocketGreeting.machine onConnect).step s.server
            (.answer (handleGetClipboard s clock)) with
        | none => none
        | some (server, os) =>
          some ({ s with
            server := server
            asked := some (s.device.getClipboardText.getD [], clock) }, os.map .server)
      else none
    | .server a =>
      match (SocketGreeting.machine onConnect).step s.server a with
      | none => none
      | some (server, os) =>
        if a = .lockReply then
          some ({ s with server := server, asked := none },
            answeredBy s server os ++ os.map .server)
        else some ({ s with server := server }, os.map .server)

/-! ## Texts and limits -/

/-- Selection events start workers whose pipes hold the texts `pipes`, by the
number of the worker. -/
def Piped (pipes : Nat → Bytes) (s : Helper) : Action → Prop
  | .device (.selection _ _ _ calls) _ => reads 0 (pipes s.device.nextDrain) calls = true
  | _ => True

/-- **A text passes whole**: what is drained, stored and reported is the text
of the pipe, its frame is sent, and so is the reply with it, after which the
session goes on. -/
def Passes (pipes : Nat → Bytes) : Obs → Prop
  | .drained number out | .device (.stored number out) => out = pipes number
  | .changed number text _ sent => text = pipes number ∧ sent = true
  | .answered _ _ sent goesOn => sent = true ∧ goesOn = true
  | _ => True

/-- **Within the limits**: a pipe holds no more than is drained of it, and
leaves room for the overhead of a frame when it is reported; so does the
cached text when it is asked for. -/
def WithinLimits (pipes : Nat → Bytes) : Obs → Prop
  | .drained number _ | .device (.stored number _) => (pipes number).length ≤ drainCap
  | .changed number _ clock _ => (pipes number).length + ContentFrames.overhead clock ≤ drainCap
  | .answered text clock _ _ => text.length + ContentFrames.overhead clock ≤ drainCap
  | _ => True

/-- What the helper makes of an observation: a drained text is the front of
its pipe, and a frame is sent if it fits. -/
def Bounded (pipes : Nat → Bytes) : Obs → Prop
  | .drained number out | .device (.stored number out) | .device (.reported number out) =>
    out = (pipes number).take drainCap
  | .changed number text clock sent =>
    text = (pipes number).take drainCap ∧
      (sent = true ↔ text.length + ContentFrames.overhead clock ≤ drainCap)
  | .answered text clock sent goesOn =>
    (sent = true ↔ text.length + ContentFrames.overhead clock ≤ drainCap) ∧ goesOn = sent
  | _ => True

/-- Only what is within the limits passes whole. -/
theorem Bounded.passes_iff {pipes : Nat → Bytes} {o : Obs} (hb : Bounded pipes o) :
    Passes pipes o ↔ WithinLimits pipes o := by
  have htake : ∀ text : Bytes, text.take drainCap = text ↔ text.length ≤ drainCap :=
    fun text => List.take_eq_self_iff text
  cases o with
  | drained number out =>
      rw [Passes, WithinLimits, show out = _ from hb, htake]
  | device o =>
      cases o with
      | stored number out => rw [Passes, WithinLimits, show out = _ from hb, htake]
      | _ => exact Iff.rfl
  | server o => exact Iff.rfl
  | changed number text clock sent =>
      obtain ⟨rfl, hsent⟩ := hb
      rw [Passes, WithinLimits, htake, hsent, List.length_take, ContentFrames.overhead]
      omega
  | answered text clock sent goesOn =>
      obtain ⟨hsent, rfl⟩ := hb
      rw [Passes, WithinLimits, and_self, hsent]

/-! ## The workers and their pipes -/

/-- A worker reads its pipe, and the text that it holds is the front of it. -/
structure FromPipe (pipes : Nat → Bytes) (w : Drain) : Prop where
  calls : reads 0 (pipes w.number) w.calls = true
  drained : ∀ text, w.stage = .drained (some text) → text = (pipes w.number).take drainCap
  stored : ∀ text callback, w.stage = .stored text callback →
    text = (pipes w.number).take drainCap

theorem FromPipe.drainedText {pipes : Nat → Bytes} {w : Drain} {text : Bytes}
    (hw : FromPipe pipes w) (htext : WaylandDevice.drainedText w.calls = some text) :
    text = (pipes w.number).take drainCap := by
  unfold WaylandDevice.drainedText at htext
  split at htext
  · rename_i out hdrain
    cases htext
    have hreads : reads ([] : Bytes).length (pipes w.number) w.calls = true := hw.calls
    exact drainFd_reads hreads (Nat.zero_le _) hdrain
  · cases htext

/-- Observations about neither a drain nor its text. -/
theorem bounded_quiet {pipes : Nat → Bytes} {os : List WaylandDevice.Obs}
    (hos : ∀ o ∈ os, WaylandChanges.Obs.quiet o = true) :
    ∀ o ∈ os, Bounded pipes (.device o) := by
  intro o ho
  have hquiet := hos o ho
  cases o with
  | stored | reported => cases hquiet
  | manager | introduced | destroyed | primary | cleared | spawned => trivial

/-- One worker goes on. -/
theorem workers_set {pipes : Nat → Bytes} {drains : List Drain} {index : Nat} {w' : Drain}
    (hi : ∀ w ∈ drains, FromPipe pipes w) (hw' : FromPipe pipes w') :
    ∀ w ∈ drains.set index w', FromPipe pipes w := by
  intro w hw
  rcases List.mem_or_eq_of_mem_set hw with hw | rfl
  · exact hi w hw
  · exact hw'

/-- A selection event may start a worker, and shows no text. -/
theorem selected_workers {pipes : Nat → Bytes} {d d' : Device} {calls : List ReadCall}
    {os : List WaylandDevice.Obs} (hi : ∀ w ∈ d.drains, FromPipe pipes w)
    (hcalls : reads 0 (pipes d.nextDrain) calls = true)
    (hselected : WaylandChanges.Selected d d' calls os) :
    (∀ w ∈ d'.drains, FromPipe pipes w) ∧ ∀ o ∈ os, Bounded pipes (.device o) := by
  cases hselected with
  | still hdrains _ _ hos =>
      rw [hdrains]
      exact ⟨hi, bounded_quiet hos⟩
  | cleared hdrains _ hos hrest =>
      rw [hdrains, hos]
      exact ⟨hi, List.forall_mem_cons.mpr ⟨trivial, bounded_quiet hrest⟩⟩
  | spawned hdrains _ _ hos hbefore =>
      rw [hdrains, hos]
      constructor
      · intro w hw
        rcases List.mem_append.mp hw with hw | hw
        · exact hi w hw
        · rw [List.mem_singleton.mp hw]
          exact ⟨hcalls, by simp, by simp⟩
      · intro o ho
        rcases List.mem_append.mp ho with ho | ho
        · exact bounded_quiet hbefore o ho
        · rw [List.mem_singleton.mp ho]
          trivial

/-- **One step of the backend**: its workers read their pipes, and what it
shows of their texts is the front of them. -/
theorem device_step {lib : ImageLibrary} {pipes : Nat → Bytes} {d d' : Device}
    {a : WaylandDevice.Action} {os : List WaylandDevice.Obs}
    (hi : ∀ w ∈ d.drains, FromPipe pipes w)
    (hpiped : ∀ offer overtaken pipe calls, a = .selection offer overtaken pipe calls →
      reads 0 (pipes d.nextDrain) calls = true)
    (hstep : (WaylandDevice.machine lib).step d a = some (d', os)) :
    (∀ w ∈ d'.drains, FromPipe pipes w) ∧ (∀ o ∈ drainedBy d a, Bounded pipes o) ∧
      ∀ o ∈ os, Bounded pipes (.device o) := by
  cases step_cases hstep with
  | lifted =>
      refine ⟨hi, by simp [drainedBy], ?_⟩
      intro o ho
      obtain ⟨o', -, rfl⟩ := List.mem_map.mp ho
      trivial
  | destroyed =>
      refine ⟨hi, by simp [drainedBy], ?_⟩
      intro o ho
      rcases List.mem_append.mp ho with ho | ho
      · obtain ⟨o', -, rfl⟩ := List.mem_map.mp ho
        trivial
      · obtain ⟨e, -, rfl⟩ := List.mem_map.mp ho
        trivial
  | @selected offer overtaken pipe calls =>
      obtain ⟨hworkers, hbounded⟩ := selected_workers hi (hpiped _ _ _ _ rfl)
        (WaylandChanges.onDeviceSelection_selected d offer overtaken pipe calls)
      exact ⟨hworkers, by simp [drainedBy], hbounded⟩
  | @drained index w result hw hstage hdrain =>
      have hfrom := hi w (List.mem_of_getElem? hw)
      refine ⟨workers_set hi ⟨hfrom.calls, ?_, by simp⟩, ?_, by simp⟩
      · intro text htext
        exact hfrom.drainedText (Stage.drained.inj htext)
      · intro o ho
        simp only [drainedBy, hw, List.mem_map, Option.mem_toList] at ho
        obtain ⟨text, htext, rfl⟩ := ho
        exact hfrom.drainedText htext
  | @gaveUp index w text hw hstage =>
      refine ⟨fun w' hw' => hi w' (List.mem_of_mem_eraseIdx hw'), by simp [drainedBy], by simp⟩
  | @stored index w text hw hstage =>
      have hfrom := hi w (List.mem_of_getElem? hw)
      have htext := hfrom.drained text hstage
      refine ⟨workers_set hi ⟨hfrom.calls, by simp, ?_⟩, by simp [drainedBy], ?_⟩
      · intro text' callback hstage'
        rw [← (Stage.stored.inj hstage').1]
        exact htext
      · intro o ho
        rw [List.mem_singleton.mp ho]
        exact htext
  | @reported index w text callback hw hstage =>
      have hfrom := hi w (List.mem_of_getElem? hw)
      refine ⟨fun w' hw' => hi w' (List.mem_of_mem_eraseIdx hw'), by simp [drainedBy], ?_⟩
      intro o ho
      split at ho
      · rw [List.mem_singleton.mp ho]
        exact hfrom.stored text callback hstage
      · cases ho
  | noOffer | introduced | mime | noPrimary | primary | detached =>
      exact ⟨hi, by simp [drainedBy], by simp [Bounded]⟩

/-! ## Frames and their writers -/

/-- `WriteFrame` takes what fits. -/
theorem beginWrite_takes (s : SocketGreeting.Server) (origin : SocketGreeting.Origin)
    (payload : Bytes) :
    (!(SocketGreeting.beginWrite s origin payload).2.isEmpty) = true ↔
      payload.length ≤ 16777216 := by
  unfold SocketGreeting.beginWrite
  split
  · rename_i hlong
    have hcap : payload.length > 16777216 := hlong
    simp only [List.isEmpty_nil, Bool.not_true, Bool.false_eq_true, false_iff]
    omega
  · rename_i hshort
    have hcap : ¬ payload.length > 16777216 := hshort
    simp only [List.isEmpty_cons, Bool.not_false, true_iff]
    omega

/-- A refused reply ends the session. -/
theorem beginWrite_goesOn {s : SocketGreeting.Server} {reply : Bytes}
    (hphase : s.phase = .replying reply) (payload : Bytes) :
    decide ((SocketGreeting.beginWrite s .reply payload).1.phase ≠ .closing) =
      !(SocketGreeting.beginWrite s .reply payload).2.isEmpty := by
  unfold SocketGreeting.beginWrite
  split
  · rfl
  · simp [hphase]

theorem onChanged_bounded {onConnect : Bytes} {pipes : Nat → Bytes} {s s' : Helper} {number : Nat}
    {text : Bytes} {clock : UInt64} {os : List Obs} (htext : text = (pipes number).take drainCap)
    (h : onChanged onConnect s number text clock = some (s', os)) :
    ∀ o ∈ os, Bounded pipes o := by
  unfold onChanged at h
  split at h
  · cases h
  · rename_i server os' hstep
    cases h
    intro o ho
    rcases List.mem_append.mp ho with ho | ho
    · split at ho
      · rename_i hclient
        rw [List.mem_singleton.mp ho]
        refine ⟨htext, ?_⟩
        simp only [SocketGreeting.machine, hclient, if_true] at hstep
        split at hstep
        · have hos := congrArg Prod.snd (Option.some.inj hstep)
          simp only at hos
          rw [← hos, beginWrite_takes, LinuxCodec.encodeClipboardChangedText_eq,
            LinuxCodec.textFrame_fits_iff]
          rfl
        · cases hstep
      · cases ho
    · obtain ⟨o', -, rfl⟩ := List.mem_map.mp ho
      trivial

/-- The callback is a step of the server alone. -/
theorem onChanged_server {onConnect : Bytes} {s s' : Helper} {number : Nat} {text : Bytes}
    {clock : UInt64} {os : List Obs}
    (h : onChanged onConnect s number text clock = some (s', os)) :
    ∃ server os', (SocketGreeting.machine onConnect).step s.server
        (.sendFrame (LinuxCodec.encodeClipboardChangedText text [] clock)) = some (server, os') ∧
      s' = { s with server := server } := by
  unfold onChanged at h
  split at h
  · cases h
  · rename_i server os' hstep
    cases h
    exact ⟨server, os', hstep, rfl⟩

/-- Who holds what: the worker that is asked holds the reply, and whoever
writes a greeting or a reply is the worker in that phase. -/
structure Attended (asked : Option (Bytes × UInt64)) (server : SocketGreeting.Server) : Prop where
  reply : ∀ text clock, asked = some (text, clock) →
    server.phase = .replying (LinuxCodec.encodeClipboardContentText text clock)
  writer : ∀ w, server.lock = some w → w.origin = .sender ∨
    (w.origin = .greeting ∧ server.phase = .greeting) ∨
    (w.origin = .reply ∧ asked = none ∧ ∃ reply, server.phase = .replying reply)

/-- Elsewhere than at a write of the worker only senders write, and nothing
is asked. -/
theorem Attended.elsewhere {asked : Option (Bytes × UInt64)} {server : SocketGreeting.Server}
    (hi : Attended asked server) (hgreeting : server.phase ≠ .greeting)
    (hreplying : ∀ reply, server.phase ≠ .replying reply) :
    asked = none ∧ ∀ w, server.lock = some w → w.origin = .sender := by
  refine ⟨?_, ?_⟩
  · cases asked with
    | none => rfl
    | some r => exact absurd (hi.reply r.1 r.2 rfl) (hreplying _)
  · intro w hw
    rcases hi.writer w hw with hsender | ⟨-, hphase⟩ | ⟨-, -, reply, hphase⟩
    · exact hsender
    · exact absurd hphase hgreeting
    · exact absurd hphase (hreplying reply)

/-- The worker has gone to a phase without writes of its own. -/
theorem attended_of_senders {server : SocketGreeting.Server}
    (hsenders : ∀ w, server.lock = some w → w.origin = .sender) : Attended none server where
  reply := by simp
  writer w hw := Or.inl (hsenders w hw)

theorem Attended.leave {asked : Option (Bytes × UInt64)} {server server' : SocketGreeting.Server}
    (hi : Attended asked server) (hgreeting : server.phase ≠ .greeting)
    (hreplying : ∀ reply, server.phase ≠ .replying reply) (hlock : server'.lock = server.lock) :
    Attended asked server' := by
  obtain ⟨rfl, hsenders⟩ := hi.elsewhere hgreeting hreplying
  exact attended_of_senders fun w hw => hsenders w (hlock ▸ hw)

/-- `send` finishes, or fails, or goes on. -/
theorem Attended.write {asked : Option (Bytes × UInt64)} {server server' : SocketGreeting.Server}
    {call : FrameTransport.SysCall} {os : List SocketGreeting.Obs} (hi : Attended asked server)
    (hstep : SocketGreeting.write server call = some (server', os)) : Attended asked server' := by
  have hends : ∀ w ok stream broken, server.lock = some w →
      Attended asked { server with
        stream := stream
        lock := none
        broken := broken
        phase := server.phase.afterWrite ok w.origin } := by
    intro w ok stream broken hw
    refine ⟨?_, by simp⟩
    intro text clock hasked
    rcases hi.writer w hw with horigin | ⟨-, hgreeting⟩ | ⟨-, hnone, -⟩
    · rw [horigin]
      exact hi.reply text clock hasked
    · have hreplying := hi.reply text clock hasked
      rw [hgreeting] at hreplying
      cases hreplying
    · rw [hnone] at hasked
      cases hasked
  have hgoes : ∀ w left body stream, server.lock = some w →
      Attended asked { server with
        stream := stream
        lock := some { w with left := left, body := body } } := by
    intro w left body stream hw
    refine ⟨hi.reply, ?_⟩
    intro w' hw'
    rw [← Option.some.inj hw']
    exact hi.writer w hw
  unfold SocketGreeting.write at hstep
  split at hstep
  · cases hstep
  · rename_i w hw
    split at hstep
    · simp only at hstep
      split at hstep
      · cases hstep
        exact hgoes w _ _ _ hw
      · split at hstep
        · cases hstep
          exact hgoes w _ _ _ hw
        · cases hstep
          exact hends w true _ _ hw
    · cases hstep
      exact hi
    · cases hstep
      exact hends w false _ _ hw

/-- **The server's steps** but the one at the reply. -/
theorem Attended.step {onConnect : Bytes} {asked : Option (Bytes × UInt64)}
    {server server' : SocketGreeting.Server} {a : SocketGreeting.Action}
    {os : List SocketGreeting.Obs} (hi : Attended asked server)
    (hstep : (SocketGreeting.machine onConnect).step server a = some (server', os))
    (ha : a ≠ .lockReply) : Attended asked server' := by
  cases a with
  | lockReply => exact absurd rfl ha
  | write call => exact hi.write hstep
  | accept | hangUp =>
      simp only [SocketGreeting.machine] at hstep
      split at hstep
      · rename_i hphase
        cases hstep
        exact hi.leave (by simp [hphase]) (by simp [hphase]) rfl
      · cases hstep
  | publish | answer | withdraw =>
      simp only [SocketGreeting.machine] at hstep
      split at hstep
      · rename_i hphase
        cases hstep
        exact hi.leave (by simp [hphase.1]) (by simp [hphase.1]) rfl
      · cases hstep
  | greet =>
      simp only [SocketGreeting.machine] at hstep
      split at hstep
      · rename_i hphase
        have hleft : ∀ server' : SocketGreeting.Server, server'.lock = server.lock →
            Attended asked server' :=
          fun _ => hi.leave (by simp [hphase.1]) (by simp [hphase.1])
        split at hstep
        · cases hstep
          exact hleft _ rfl
        · split at hstep
          · unfold SocketGreeting.beginWrite at hstep
            split at hstep
            · cases hstep
              exact hleft _ rfl
            · cases hstep
              obtain ⟨rfl, -⟩ := hi.elsewhere (by simp [hphase.1]) (by simp [hphase.1])
              exact ⟨by simp, by simp⟩
          · cases hstep
            exact hleft _ rfl
      · cases hstep
  | sendFrame payload =>
      simp only [SocketGreeting.machine] at hstep
      split at hstep
      · split at hstep
        · unfold SocketGreeting.beginWrite at hstep
          split at hstep
          · cases hstep
            exact hi
          · cases hstep
            exact ⟨hi.reply, by simp⟩
        · cases hstep
          exact hi
      · cases hstep

/-- `GET_CLIPBOARD` has been handled. -/
theorem Attended.ask {onConnect : Bytes} {asked : Option (Bytes × UInt64)}
    {server server' : SocketGreeting.Server} {os : List SocketGreeting.Obs} {text : Bytes}
    {clock : UInt64} (hi : Attended asked server)
    (hstep : (SocketGreeting.machine onConnect).step server
      (.answer (LinuxCodec.encodeClipboardContentText text clock)) = some (server', os)) :
    Attended (some (text, clock)) server' := by
  simp only [SocketGreeting.machine] at hstep
  split at hstep
  · rename_i hphase
    cases hstep
    have hsenders := (hi.elsewhere (by simp [hphase.1]) (by simp [hphase.1])).2
    refine ⟨?_, fun w hw => Or.inl (hsenders w hw)⟩
    intro text' clock' hasked
    cases hasked
    rfl
  · cases hstep

/-- The reply is being written, or it has been refused. -/
theorem attended_answer {onConnect : Bytes} {server server' : SocketGreeting.Server}
    {os : List SocketGreeting.Obs}
    (hstep : (SocketGreeting.machine onConnect).step server .lockReply = some (server', os)) :
    Attended none server' := by
  simp only [SocketGreeting.machine] at hstep
  split at hstep
  · rename_i reply hphase
    split at hstep
    · rename_i hfree
      split at hstep
      · unfold SocketGreeting.beginWrite at hstep
        split at hstep
        · cases hstep
          exact attended_of_senders (by simp [hfree])
        · cases hstep
          refine ⟨by simp, ?_⟩
          intro w hw
          cases hw
          exact Or.inr (Or.inr ⟨rfl, rfl, reply, hphase⟩)
      · cases hstep
        exact attended_of_senders (by simp [hfree])
    · cases hstep
  · cases hstep

theorem answeredBy_bounded {onConnect : Bytes} {pipes : Nat → Bytes} {s : Helper}
    {server : SocketGreeting.Server} {os : List SocketGreeting.Obs}
    (hi : Attended s.asked s.server)
    (hstep : (SocketGreeting.machine onConnect).step s.server .lockReply = some (server, os)) :
    ∀ o ∈ answeredBy s server os, Bounded pipes o := by
  intro o ho
  unfold answeredBy at ho
  split at ho
  · rename_i text clock hasked
    split at ho
    · rename_i hclient
      rw [List.mem_singleton.mp ho]
      have hphase := hi.reply text clock hasked
      simp only [SocketGreeting.machine, hphase, hclient, if_true] at hstep
      split at hstep
      · have hfits := LinuxCodec.textFrame_fits_iff 12 text clock
        rw [← LinuxCodec.encodeClipboardContentText_eq] at hfits
        obtain ⟨hserver, hos⟩ := Prod.mk.inj (Option.some.inj hstep)
        rw [← hserver, ← hos]
        exact ⟨(beginWrite_takes s.server .reply _).trans hfits, beginWrite_goesOn hphase _⟩
      · cases hstep
    · cases ho
  · cases ho

/-! ## Every run -/

theorem mem_of_reports {os : List WaylandDevice.Obs} {number : Nat} {text : Bytes}
    (h : (number, text) ∈ WaylandChanges.reports os) : .reported number text ∈ os := by
  obtain ⟨o, ho, heq⟩ := List.mem_filterMap.mp h
  cases o with
  | reported n t =>
      cases heq
      exact ho
  | _ => cases heq

/-- What is kept along a run. -/
structure Sound (pipes : Nat → Bytes) (h : List Obs) (s : Helper) : Prop where
  workers : ∀ w ∈ s.device.drains, FromPipe pipes w
  attended : Attended s.asked s.server
  bounded : ∀ o ∈ h, Bounded pipes o

theorem step_sound {lib : ImageLibrary} {onConnect : Bytes} {pipes : Nat → Bytes} {h os : List Obs}
    {s s' : Helper} {a : Action} (hi : Sound pipes h s) (hpiped : Piped pipes s a)
    (hstep : (machine lib onConnect).step s a = some (s', os)) : Sound pipes (h ++ os) s' := by
  have hserver : ∀ os : List SocketGreeting.Obs, ∀ o ∈ os.map Obs.server, Bounded pipes o := by
    intro os o ho
    obtain ⟨o', -, rfl⟩ := List.mem_map.mp ho
    trivial
  cases a with
  | device a clock =>
      simp only [machine] at hstep
      split at hstep
      · cases hstep
      · rename_i device os' hdevice
        obtain ⟨hworkers, hdrained, hobs⟩ := device_step hi.workers (by
          rintro offer overtaken pipe calls rfl
          exact hpiped) hdevice
        have hseen : ∀ o ∈ drainedBy s.device a ++ os'.map Obs.device, Bounded pipes o := by
          refine List.forall_mem_append.mpr ⟨hdrained, ?_⟩
          intro o ho
          obtain ⟨o', ho', rfl⟩ := List.mem_map.mp ho
          exact hobs o' ho'
        split at hstep
        · cases hstep
          exact ⟨hworkers, hi.attended, List.forall_mem_append.mpr ⟨hi.bounded, hseen⟩⟩
        · rename_i number text rest hreports
          obtain ⟨⟨t, os''⟩, hchanged, heq⟩ := Option.map_eq_some_iff.mp hstep
          cases heq
          have hreported := hobs _ (mem_of_reports (hreports ▸ List.mem_cons_self))
          obtain ⟨server, os''', hsend, rfl⟩ := onChanged_server hchanged
          exact ⟨hworkers, hi.attended.step hsend (by simp), List.forall_mem_append.mpr
            ⟨hi.bounded, List.forall_mem_append.mpr
              ⟨hseen, onChanged_bounded hreported hchanged⟩⟩⟩
  | getClipboard frame clock =>
      simp only [machine] at hstep
      split at hstep
      · split at hstep
        · cases hstep
        · rename_i server os' hanswer
          cases hstep
          exact ⟨hi.workers, hi.attended.ask hanswer,
            List.forall_mem_append.mpr ⟨hi.bounded, hserver os'⟩⟩
      · cases hstep
  | server a =>
      simp only [machine] at hstep
      split at hstep
      · cases hstep
      · rename_i server os' hserve
        split at hstep
        · rename_i hanswer
          subst hanswer
          cases hstep
          exact ⟨hi.workers, attended_answer hserve, List.forall_mem_append.mpr ⟨hi.bounded,
            List.forall_mem_append.mpr ⟨answeredBy_bounded hi.attended hserve, hserver os'⟩⟩⟩
        · rename_i hother
          cases hstep
          exact ⟨hi.workers, hi.attended.step hserve hother,
            List.forall_mem_append.mpr ⟨hi.bounded, hserver os'⟩⟩

theorem sound_initial (pipes : Nat → Bytes) : Sound pipes [] {} where
  workers := by simp
  attended := attended_of_senders (by simp)
  bounded := by simp

/-- **Which texts pass whole.**  In every run whose workers read `pipes`, a
text is drained, stored and reported in full, and its frames are sent without
ending the session, if and only if it is within the limits: it leaves room in
16 MiB for the overhead of its frames. -/
theorem texts_pass_iff (lib : ImageLibrary) (onConnect : Bytes) (pipes : Nat → Bytes)
    {h : List Obs} {s : Helper} (hrun : (machine lib onConnect).Run (Piped pipes) {} h s) :
    ∀ o ∈ h, (Passes pipes o ↔ WithinLimits pipes o) := by
  have hsound : Sound pipes h s := by
    refine hrun.history_invariant (Sound pipes) (sound_initial pipes) ?_
    intro h s a s' os hi hpiped hstep
    exact step_sound hi hpiped hstep
  intro o ho
  exact (hsound.bounded o ho).passes_iff

/-! ## Runs -/

/-- Decides `Piped`. -/
def testPiped (pipes : Nat → Bytes) (s : Helper) : Action → Bool
  | .device (.selection _ _ _ calls) _ => reads 0 (pipes s.device.nextDrain) calls
  | _ => true

theorem piped_of_test (pipes : Nat → Bytes) (s : Helper) (a : Action)
    (h : testPiped pipes s a = true) : Piped pipes s a := by
  cases a with
  | device a clock =>
      cases a with
      | selection => exact h
      | _ => trivial
  | getClipboard | server => trivial

/-- A short text is copied, reported and asked for. -/
def shortCopy : List Action :=
  [.server .accept, .server .publish, .server .greet, .device (.dataOffer (some 0)) 0,
    .device (.offerMime 0 (ascii "text/plain")) 0,
    .device (.selection (some 0) false true [.got 120 [], .eof]) 0,
    .device (.drain 0) 0, .device (.store 0) 0, .device (.report 0) 7,
    .server (.write (.transferred 3)), .server (.write (.transferred 99)),
    .getClipboard [8, 4] 8, .server .lockReply]

theorem texts_pass_short_copy : ∃ h s,
    (machine WaylandClipboard.noImages []).Run (Piped fun _ => [120]) {} h s ∧
      (∀ o ∈ h, (Passes (fun _ => [120]) o ↔ WithinLimits (fun _ => [120]) o)) ∧
      .changed 0 [120] 7 true ∈ h ∧ .answered [120] 8 true true ∈ h := by
  have hexec : ((machine WaylandClipboard.noImages []).execIf (testPiped fun _ => [120]) {}
      shortCopy).map (fun r =>
        decide (Obs.changed 0 [120] 7 true ∈ r.2 ∧ Obs.answered [120] 8 true true ∈ r.2)) =
      some true := by decide
  obtain ⟨h, s, hrun, hobs⟩ := Machine.Run.of_execIf_map (piped_of_test _) hexec
  obtain ⟨hchanged, hanswered⟩ := of_decide_eq_true hobs
  exact ⟨h, s, hrun, texts_pass_iff WaylandClipboard.noImages [] _ hrun, hchanged, hanswered⟩

/-- The helper when a client is connected and a first text has been copied,
of which the workers have made this much known. -/
def copiedHelper (drains : List Drain) (known : Option Bytes) : Helper where
  device :=
    { cachedClipboardText := known
      nextProxy := 1
      drains := drains
      nextDrain := 1
      selection := .foreign (some 0) known }
  server := { phase := .serving, clientFd := true }

/-- The same when the text is about to be returned. -/
def askedHelper (text : Bytes) : Helper :=
  { copiedHelper [] (some text) with
    server :=
      { phase := .replying (LinuxCodec.encodeClipboardContentText text 0)
        clientFd := true }
    asked := some (text, 0) }

/-- A client connects, and another application copies a text, whose pipe is
read by `calls`. -/
theorem copied_run {calls : List ReadCall} {text : Bytes} (hreads : reads 0 text calls = true) :
    ∃ h, (machine WaylandClipboard.noImages []).Run (Piped fun _ => text) {} h
      (copiedHelper [⟨0, calls, .draining⟩] none) := by
  have hstart : (machine WaylandClipboard.noImages []).Run (Piped fun _ => text) {} [] {} := .nil
  have haccept := hstart.snoc (a := Action.server .accept) trivial rfl
  have hpublish := haccept.snoc (a := Action.server .publish) trivial rfl
  have hgreet := hpublish.snoc (a := Action.server .greet) trivial rfl
  have hoffer := hgreet.snoc (a := Action.device (.dataOffer (some 0)) 0) trivial rfl
  have hmime := hoffer.snoc (a := Action.device (.offerMime 0 (ascii "text/plain")) 0) trivial rfl
  exact ⟨_, hmime.snoc (a := Action.device (.selection (some 0) false true calls) 0) hreads rfl⟩

/-- The text is drained and stored. -/
theorem stored_run {calls : List ReadCall} {text out : Bytes}
    (hreads : reads 0 text calls = true) (hdrain : drainFd calls [] = some (out, true)) :
    ∃ h, (machine WaylandClipboard.noImages []).Run (Piped fun _ => text) {} h
        (copiedHelper [⟨0, calls, .stored out true⟩] (some out)) ∧
      .drained 0 out ∈ h := by
  obtain ⟨h, hrun⟩ := copied_run hreads
  have hend : (machine WaylandClipboard.noImages []).step
      (copiedHelper [⟨0, calls, .draining⟩] none) (.device (.drain 0) 0) =
        some (copiedHelper [⟨0, calls, .drained (some out)⟩] none, [.drained 0 out]) := by
    simp [machine, WaylandDevice.machine, drain, copiedHelper, drainedBy, drainedText, hdrain,
      WaylandChanges.reports]
  have hdrained := hrun.snoc (a := Action.device (.drain 0) 0) trivial hend
  have hstored := hdrained.snoc (a := Action.device (.store 0) 0) trivial rfl
  exact ⟨_, hstored, by simp⟩

/-- A text that is too long for its frames is neither reported nor returned,
and asking for it ends the session. -/
theorem refused_run {calls : List ReadCall} {text out : Bytes}
    (hreads : reads 0 text calls = true) (hdrain : drainFd calls [] = some (out, true))
    (hlong : ¬ out.length + ContentFrames.overhead 0 ≤ 16777216) :
    ∃ h s, (machine WaylandClipboard.noImages []).Run (Piped fun _ => text) {} h s ∧
      .drained 0 out ∈ h ∧ .changed 0 out 0 false ∈ h ∧ .answered out 0 false false ∈ h := by
  obtain ⟨h, hrun, hdrained⟩ := stored_run hreads hdrain
  have hrefused : ∀ (server : SocketGreeting.Server) (origin : SocketGreeting.Origin)
      (type : UInt8),
      SocketGreeting.beginWrite server origin (LinuxCodec.textFrame type out 0) =
        ({ server with phase := server.phase.afterWrite false origin }, []) := by
    intro server origin type
    rw [← LinuxCodec.textFrame_fits_iff type, Nat.not_le] at hlong
    exact if_pos hlong
  have hreport : (machine WaylandClipboard.noImages []).step
      (copiedHelper [⟨0, calls, .stored out true⟩] (some out)) (.device (.report 0) 0) =
        some (copiedHelper [] (some out), [.device (.reported 0 out), .changed 0 out 0 false]) := by
    simp [machine, WaylandDevice.machine, report, copiedHelper, drainedBy, WaylandChanges.reports,
      WaylandChanges.Obs.reported?, onChanged, SocketGreeting.machine,
      LinuxCodec.encodeClipboardChangedText_eq, hrefused, SocketGreeting.Phase.afterWrite]
  have hreported := hrun.snoc (a := Action.device (.report 0) 0) trivial hreport
  have hasked := hreported.snoc (a := Action.getClipboard [8, 4] 0) trivial rfl
  have hanswer : (machine WaylandClipboard.noImages []).step (askedHelper out)
      (.server .lockReply) =
        some ({ askedHelper out with
            server := { phase := .closing, clientFd := true }, asked := none },
          [.answered out 0 false false]) := by
    simp [machine, askedHelper, SocketGreeting.machine, LinuxCodec.encodeClipboardContentText_eq,
      hrefused, answeredBy, SocketGreeting.Phase.afterWrite]
  have hanswered := hasked.snoc (a := Action.server .lockReply) trivial hanswer
  exact ⟨_, _, hanswered, by simp [hdrained], by simp, by simp⟩

/-- The reads of a pipe that fills its buffer each time. -/
theorem reads_full {first : UInt8} {rest : Bytes} (hfull : (first :: rest).length = 4096)
    (tail : Bytes) (k filled : Nat) (hk : filled + 4096 * k ≤ drainCap) :
    reads filled ((List.replicate k (first :: rest)).flatten ++ tail)
      (List.replicate k (.got first rest)) = true := by
  induction k generalizing filled with
  | zero => rfl
  | succ k ih =>
      have hrest := ih (filled + 4096) (by omega)
      have hasked : (first :: rest).length ≤ min 4096 (drainCap - filled) := by omega
      simp only [List.replicate_succ, List.flatten_cons, List.append_assoc, reads,
        List.drop_left, Bool.and_eq_true, decide_eq_true_eq, List.isPrefixOf_iff_prefix]
      refine ⟨⟨hasked, List.prefix_append _ _⟩, ?_⟩
      rwa [hfull]

theorem drainFd_full {first : UInt8} {rest : Bytes} (hfull : (first :: rest).length = 4096)
    (k : Nat) (out : Bytes) (hk : out.length + 4096 * k = drainCap) :
    drainFd (List.replicate k (.got first rest)) out =
      some (out ++ (List.replicate k (first :: rest)).flatten, true) := by
  induction k generalizing out with
  | zero =>
      have hcap : drainCap ≤ out.length := by omega
      simp [drainFd, hcap]
  | succ k ih =>
      have hcap : ¬ drainCap ≤ out.length := by omega
      have htake : (first :: rest).take (min 4096 (drainCap - out.length)) = first :: rest :=
        List.take_of_length_le (by omega)
      have hrest := ih (out ++ first :: rest) (by rw [List.length_append, hfull]; omega)
      simp only [List.replicate_succ, List.flatten_cons, drainFd, if_neg hcap, htake, hrest,
        List.append_assoc]

/-- **A longer text is cut off**, and the rest is taken for the whole: of a
text of one byte more than 16 MiB, the first 16 MiB are drained with success;
they are not reported, and asking for them ends the session. -/
theorem long_text_cut_off : ∃ h s, (machine WaylandClipboard.noImages []).Run
      (Piped fun _ => List.replicate 16777217 120) {} h s ∧
    .drained 0 (List.replicate 16777216 120) ∈ h ∧
    .changed 0 (List.replicate 16777216 120) 0 false ∈ h ∧
    .answered (List.replicate 16777216 120) 0 false false ∈ h ∧
    ¬ ∀ o ∈ h, Passes (fun _ => List.replicate 16777217 120) o := by
  have hfull : ((120 : UInt8) :: List.replicate 4095 120).length = 4096 := by
    rw [List.length_cons, List.length_replicate]
  have hflat : (List.replicate 4096 ((120 : UInt8) :: List.replicate 4095 120)).flatten =
      List.replicate 16777216 120 := by
    rw [← List.replicate_succ, List.flatten_replicate_replicate]
  have hreads := reads_full hfull [120] 4096 0 (by decide)
  have hdrain := drainFd_full hfull 4096 [] (by decide)
  rw [hflat, List.nil_append] at hdrain
  rw [hflat, ← List.replicate_succ'] at hreads
  obtain ⟨h, s, hrun, hdrained, hchanged, hanswered⟩ := refused_run hreads hdrain (by
    rw [List.length_replicate, ContentFrames.overhead]
    omega)
  refine ⟨h, s, hrun, hdrained, hchanged, hanswered, ?_⟩
  intro hall
  exact absurd (hall _ hchanged).2 (by decide)

end TextLimits
