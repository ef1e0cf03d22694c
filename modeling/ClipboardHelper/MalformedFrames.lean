import ClipboardHelper.CodecRoundTrip
import ClipboardHelper.LinuxDispatch
import ClipboardHelper.MessageFields
import ClipboardHelper.TextFrames

/-!
# Malformed frames do not reach the Linux clipboard

`Dispatcher::Handle` once more, with the operations of `ClipboardManager` that
it invokes, in order, beside the reply.  The parsers fill in their output as
they go, so a frame that breaks off has given a type and sub-messages by then;
none of it is looked at unless the parser returns true.

**`malformed_changes_nothing`**: at most one operation is invoked; one that
changes the clipboard only if the whole envelope and the whole sub-message of
its type are put together from fields; and otherwise the reply is an error
that decodes as one (`encodeError_decodes`).
-/

namespace LinuxDispatch

open Library ProtoWire MessageFields LinuxCodec
open DispatchCodec (HelperMessageType ClipboardContentType)

/-! ## The dispatcher with its operations -/

/-- The operations of `ClipboardManager`, and the callback of the daemon. -/
inductive Operation
  | setClipboardText (utf8 : Bytes)
  | setClipboardImage (webpBytes : Bytes)
  | announceDelayedText (contentHash : Bytes)
  | announceDelayedImage (contentHash : Bytes)
  | announceDelayedFiles (contentHash : Bytes)
  | provideData (contentHash data : Bytes)
  | getClipboardText
  | onShutdownRequest
deriving DecidableEq, Repr

/-- The operation changes what the clipboard holds. -/
def Operation.Mutates : Operation → Prop
  | .getClipboardText | .onShutdownRequest => False
  | _ => True

/-- What a call of the dispatcher returns, and what it has invoked. -/
structure Answer where
  reply : Bytes
  invoked : List Operation := []
deriving DecidableEq, Repr

/-- What the dispatcher was made with: `clipboard_`, when there is one, by what
`GetClipboardText` returns, and whether there is a callback for `SHUTDOWN`. -/
structure Dispatcher where
  clipboard : Option (Option Bytes)
  onShutdownRequest : Bool

namespace Dispatcher

variable (d : Dispatcher) (clock : UInt64)

def error (message : String) : Answer := { reply := encodeError (ascii message) clock }

def setClipboard (sub : Option Slice) : Answer :=
  match present sub with
  | none => error clock "SET_CLIPBOARD missing clipboard_data"
  | some data =>
    match parseClipboardData data with
    | none => error clock "SET_CLIPBOARD parse failure"
    | some cd =>
      let payload := (cd.payload.map Slice.bytes).getD []
      if d.clipboard = none then { reply := [] }
      else if cd.contentType = .text then
        { reply := [], invoked := [.setClipboardText payload] }
      else if cd.contentType = .image then
        { reply := [], invoked := [.setClipboardImage payload] }
      else if cd.contentType = .files then
        error clock "SET_CLIPBOARD: FILES not yet supported on Linux helper"
      else error clock "SET_CLIPBOARD: unknown content_type"

def announceDelayed (sub : Option Slice) : Answer :=
  match present sub with
  | none => error clock "ANNOUNCE_DELAYED missing announcement"
  | some data =>
    match parseAnnouncement data with
    | none => error clock "ANNOUNCE_DELAYED parse failure"
    | some ann =>
      if d.clipboard = none then { reply := [] }
      else if ann.contentType = .text then
        { reply := [], invoked := [.announceDelayedText ann.contentHash] }
      else if ann.contentType = .image then
        { reply := [], invoked := [.announceDelayedImage ann.contentHash] }
      else if ann.contentType = .files then
        { reply := [], invoked := [.announceDelayedFiles ann.contentHash] }
      else error clock "ANNOUNCE_DELAYED: unknown content_type"

def provideData (sub : Option Slice) : Answer :=
  match present sub with
  | none => error clock "PROVIDE_DATA missing payload"
  | some data =>
    match parseProvideData data with
    | none => error clock "PROVIDE_DATA parse failure"
    | some pd =>
      if d.clipboard = none then { reply := [] }
      else { reply := [], invoked := [.provideData pd.contentHash pd.data] }

def getClipboard : Answer :=
  match d.clipboard with
  | none => error clock "GET_CLIPBOARD: no clipboard backend"
  | some text =>
    { reply := encodeClipboardContentText (text.getD []) clock, invoked := [.getClipboardText] }

def shutdown : Answer :=
  if d.onShutdownRequest then { reply := [], invoked := [.onShutdownRequest] } else { reply := [] }

/-- `Dispatcher::Handle`. -/
def handle (frame : Bytes) : Answer :=
  match parseHelperMessage frame with
  | none => error clock "malformed HelperMessage"
  | some msg =>
    if msg.type = .setClipboard then d.setClipboard clock msg.clipboardData
    else if msg.type = .announceDelayed then d.announceDelayed clock msg.announcement
    else if msg.type = .provideData then d.provideData clock msg.provideData
    else if msg.type = .getClipboard then d.getClipboard clock
    else if msg.type = .shutdown then d.shutdown
    else if msg.type = .fileChunkRequest ∨ msg.type = .fileChunkData ∨
        msg.type = .fileTransferProgress then
      error clock "FILES path not yet supported on Linux helper"
    else error clock "unknown HelperMessageType"

end Dispatcher

/-- The operation of a call. -/
def Call.operation : Call → Operation
  | .setClipboardText utf8 => .setClipboardText utf8
  | .setClipboardImage webpBytes => .setClipboardImage webpBytes
  | .announceDelayed .text contentHash => .announceDelayedText contentHash
  | .announceDelayed .image contentHash => .announceDelayedImage contentHash
  | .announceDelayed .files contentHash => .announceDelayedFiles contentHash
  | .provideData contentHash data => .provideData contentHash data

/-- What becomes of a frame, carried out by a dispatcher that has a
clipboard. -/
def Handled.carriedOut (text : Option Bytes) (onShutdownRequest : Bool) (clock : UInt64) :
    Handled → Answer
  | .reply frame => { reply := frame }
  | .call c => { reply := [], invoked := [c.operation] }
  | .getClipboard => Dispatcher.getClipboard ⟨some text, onShutdownRequest⟩ clock
  | .shutdown => Dispatcher.shutdown ⟨some text, onShutdownRequest⟩

section Carried

variable (text : Option Bytes) (onShutdownRequest : Bool) (sub : Option Slice) (clock : UInt64)

theorem setClipboard_carriedOut :
    Dispatcher.setClipboard ⟨some text, onShutdownRequest⟩ clock sub =
      (handleSetClipboard sub clock).carriedOut text onShutdownRequest clock := by
  unfold Dispatcher.setClipboard handleSetClipboard
  cases present sub with
  | none => rfl
  | some data =>
      simp only
      cases parseClipboardData data with
      | none => rfl
      | some cd =>
          simp only [reduceCtorEq, if_false]
          split_ifs <;> rfl

theorem announceDelayed_carriedOut :
    Dispatcher.announceDelayed ⟨some text, onShutdownRequest⟩ clock sub =
      (handleAnnounceDelayed sub clock).carriedOut text onShutdownRequest clock := by
  unfold Dispatcher.announceDelayed handleAnnounceDelayed
  cases present sub with
  | none => rfl
  | some data =>
      simp only
      cases parseAnnouncement data with
      | none => rfl
      | some ann =>
          simp only [reduceCtorEq, if_false, kindOf]
          split_ifs <;> rfl

theorem provideData_carriedOut :
    Dispatcher.provideData ⟨some text, onShutdownRequest⟩ clock sub =
      (handleProvideData sub clock).carriedOut text onShutdownRequest clock := by
  unfold Dispatcher.provideData handleProvideData
  cases present sub with
  | none => rfl
  | some data =>
      simp only
      cases parseProvideData data with
      | none => rfl
      | some pd => rfl

/-- **The two models of `Handle` agree** where there is a clipboard. -/
theorem handle_carriedOut (frame : Bytes) :
    Dispatcher.handle ⟨some text, onShutdownRequest⟩ clock frame =
      (handle frame clock).carriedOut text onShutdownRequest clock := by
  unfold Dispatcher.handle handle
  cases parseHelperMessage frame with
  | none => rfl
  | some msg =>
      simp only
      split_ifs
      · exact setClipboard_carriedOut text onShutdownRequest msg.clipboardData clock
      · exact announceDelayed_carriedOut text onShutdownRequest msg.announcement clock
      · exact provideData_carriedOut text onShutdownRequest msg.provideData clock
      all_goals rfl

end Carried

/-! ## Errors decode -/

/-- A reply that says that something went wrong. -/
def IsError (reply : Bytes) : Prop :=
  ∃ msg, parseHelperMessage reply = some msg ∧ msg.type = .error

/-- A field that the parser does not know passes by. -/
theorem skipped_lengthDelim {α : Type} (out : α) (r : Reader) :
    DispatchCodec.skipped out .lengthDelim r = r.readLengthDelim.map (fun read => (out, read.2)) :=
  Option.map_map _ _ _

theorem skipped_varint {α : Type} (out : α) (r : Reader) :
    DispatchCodec.skipped out .varint r = r.readVarint.map (fun read => (out, read.2)) :=
  Option.map_map _ _ _

/-- **An error decodes as an error**, with whatever text and at any time. -/
theorem encodeError_decodes {message : Bytes} (clock : UInt64)
    (hlen : message.length < 2 ^ 64) : IsError (encodeError message clock) := by
  have htype : Absorbs helperMessageField
      (Writer.writeEnumField [] DispatchCodec.kFieldType HelperMessageType.error.value)
      {} { type := .error } := by
    have hstep (r : Reader) : helperMessageField {} DispatchCodec.kFieldType .varint r =
        r.readVarint.map (fun read =>
          ({ type := ⟨DispatchCodec.enumOfVarint read.1⟩ }, read.2)) := rfl
    have habsorbs := Absorbs.int32Field
      (fun v (out : ParsedHelperMessage) => { out with type := ⟨DispatchCodec.enumOfVarint v⟩ })
      (by decide) hstep rfl HelperMessageType.error.value
    rw [DispatchCodec.enumOfVarint_signExtend] at habsorbs
    exact habsorbs
  -- the text and the time are fields that the parser does not know
  have htext : Absorbs helperMessageField
      (Writer.writeBytesField [] DispatchCodec.kFieldErrorMessage message)
      { type := .error } { type := .error } :=
    Absorbs.bytesField (fun _ out => out) (by decide) (skipped_lengthDelim _) rfl hlen
  have htime : Absorbs helperMessageField
      (Writer.writeUint64Field [] DispatchCodec.kFieldTimestamp clock)
      { type := .error } { type := .error } :=
    Absorbs.uint64Field (fun _ out => out) (by decide) (skipped_varint _) rfl clock
  refine ⟨{ type := .error }, ?_, rfl⟩
  have hparse := ((htype.append htext).append htime).parse
  have hbytes : encodeError message clock =
      Writer.writeEnumField [] DispatchCodec.kFieldType HelperMessageType.error.value ++
        Writer.writeBytesField [] DispatchCodec.kFieldErrorMessage message ++
        Writer.writeUint64Field [] DispatchCodec.kFieldTimestamp clock := by
    rw [encodeError]
    simp only [Writer.writeStringField]
    rw [Writer.writeUint64Field_append]
    by_cases hempty : message = []
    · simp [hempty, Writer.writeBytesField]
    · rw [if_neg hempty, Writer.writeBytesField_append]
  rw [hbytes]
  exact hparse

theorem error_isError (clock : UInt64) (message : String)
    (hlen : (ascii message).length < 2 ^ 64) : IsError (Dispatcher.error clock message).reply :=
  encodeError_decodes clock hlen

/-! ## Malformed frames -/

/-- The byte string is put together from fields. -/
def WellFormed (data : Bytes) : Prop := ∃ fs, Made data fs

/-- The sub-message that belongs to the type of a message, for the types that
have one. -/
def ownSubMessage (msg : ParsedHelperMessage) : Option (Option Slice) :=
  if msg.type = .setClipboard then some msg.clipboardData
  else if msg.type = .announceDelayed then some msg.announcement
  else if msg.type = .provideData then some msg.provideData
  else none

/-- The operation is the one that a decoded sub-message asks for. -/
def Asks (msg : ParsedHelperMessage) (data : Bytes) : Operation → Prop
  | .setClipboardText utf8 => msg.type = .setClipboard ∧ ∃ cd, parseClipboardData data = some cd ∧
      cd.contentType = .text ∧ utf8 = (cd.payload.map Slice.bytes).getD []
  | .setClipboardImage webpBytes => msg.type = .setClipboard ∧
      ∃ cd, parseClipboardData data = some cd ∧
      cd.contentType = .image ∧ webpBytes = (cd.payload.map Slice.bytes).getD []
  | .announceDelayedText contentHash => msg.type = .announceDelayed ∧
      ∃ ann, parseAnnouncement data = some ann ∧
      ann.contentType = .text ∧ contentHash = ann.contentHash
  | .announceDelayedImage contentHash => msg.type = .announceDelayed ∧
      ∃ ann, parseAnnouncement data = some ann ∧
      ann.contentType = .image ∧ contentHash = ann.contentHash
  | .announceDelayedFiles contentHash => msg.type = .announceDelayed ∧
      ∃ ann, parseAnnouncement data = some ann ∧
      ann.contentType = .files ∧ contentHash = ann.contentHash
  | .provideData contentHash bytes => msg.type = .provideData ∧
      ∃ pd, parseProvideData data = some pd ∧ contentHash = pd.contentHash ∧ bytes = pd.data
  | .getClipboardText | .onShutdownRequest => False

/-- What a handler may do with the sub-message it is given: nothing but an
error if that is missing or malformed, and else at most the one operation that
the sub-message asks for. -/
structure Careful (msg : ParsedHelperMessage) (sub : Option Slice) (answer : Answer) : Prop where
  once : answer.invoked.length ≤ 1
  asked : ∀ op ∈ answer.invoked, ∃ s, sub = some s ∧ WellFormed s.bytes ∧ Asks msg s.bytes op
  refused : (sub = none ∨ ∃ s, sub = some s ∧ ¬ WellFormed s.bytes) →
    answer.invoked = [] ∧ IsError answer.reply

theorem Careful.error (msg : ParsedHelperMessage) (sub : Option Slice) (clock : UInt64)
    (message : String) (hlen : (ascii message).length < 2 ^ 64) :
    Careful msg sub (Dispatcher.error clock message) where
  once := Nat.zero_le _
  asked := by simp [Dispatcher.error]
  refused := fun _ => ⟨rfl, error_isError clock message hlen⟩

/-- A handler whose sub-message is there and decodes. -/
theorem Careful.decoded {msg : ParsedHelperMessage} {s : Slice} {answer : Answer}
    (hmade : WellFormed s.bytes) (honce : answer.invoked.length ≤ 1)
    (hasks : ∀ op ∈ answer.invoked, Asks msg s.bytes op) : Careful msg (some s) answer where
  once := honce
  asked := fun op hop => ⟨s, rfl, hmade, hasks op hop⟩
  refused := by
    intro hbad
    obtain hnone | ⟨t, ht, hnot⟩ := hbad
    · cases hnone
    · rw [Option.some.injEq] at ht
      subst ht
      exact absurd hmade hnot

/-- What a handler is given, when it is there and not empty. -/
theorem present_eq_some {sub : Option Slice} {data : Bytes} (h : present sub = some data) :
    ∃ s, sub = some s ∧ s.bytes = data := by
  cases sub with
  | none => cases h
  | some s =>
      refine ⟨s, rfl, ?_⟩
      simp only [present] at h
      split at h
      · cases h
      · exact Option.some.inj h

theorem setClipboard_careful (d : Dispatcher) (clock : UInt64) {msg : ParsedHelperMessage}
    (hmsg : msg.type = .setClipboard) (sub : Option Slice) :
    Careful msg sub (d.setClipboard clock sub) := by
  unfold Dispatcher.setClipboard
  cases hpresent : present sub with
  | none => exact .error msg sub clock _ (by decide)
  | some data =>
      obtain ⟨s, rfl, rfl⟩ := present_eq_some hpresent
      simp only
      cases hparse : parseClipboardData s.bytes with
      | none => exact .error msg _ clock _ (by decide)
      | some cd =>
          have hmade : WellFormed s.bytes :=
            (accepts_iff_made clipboardDataField_snd s.bytes {}).mp (by
              rw [Option.isSome_iff_exists]
              exact ⟨cd, hparse⟩)
          simp only
          split_ifs with hnone htext himage hfiles
          · exact .decoded hmade (by simp) (by simp)
          · exact .decoded hmade (by simp) (by simp [Asks, hmsg, hparse, htext])
          · exact .decoded hmade (by simp) (by simp [Asks, hmsg, hparse, himage])
          · exact .error msg _ clock _ (by decide)
          · exact .error msg _ clock _ (by decide)

theorem announceDelayed_careful (d : Dispatcher) (clock : UInt64) {msg : ParsedHelperMessage}
    (hmsg : msg.type = .announceDelayed) (sub : Option Slice) :
    Careful msg sub (d.announceDelayed clock sub) := by
  unfold Dispatcher.announceDelayed
  cases hpresent : present sub with
  | none => exact .error msg sub clock _ (by decide)
  | some data =>
      obtain ⟨s, rfl, rfl⟩ := present_eq_some hpresent
      simp only
      cases hparse : parseAnnouncement s.bytes with
      | none => exact .error msg _ clock _ (by decide)
      | some ann =>
          have hmade : WellFormed s.bytes :=
            (accepts_iff_made announcementField_snd s.bytes {}).mp (by
              rw [Option.isSome_iff_exists]
              exact ⟨ann, hparse⟩)
          simp only
          split_ifs with hnone htext himage hfiles
          · exact .decoded hmade (by simp) (by simp)
          · exact .decoded hmade (by simp) (by simp [Asks, hmsg, hparse, htext])
          · exact .decoded hmade (by simp) (by simp [Asks, hmsg, hparse, himage])
          · exact .decoded hmade (by simp) (by simp [Asks, hmsg, hparse, hfiles])
          · exact .error msg _ clock _ (by decide)

theorem provideData_careful (d : Dispatcher) (clock : UInt64) {msg : ParsedHelperMessage}
    (hmsg : msg.type = .provideData) (sub : Option Slice) :
    Careful msg sub (d.provideData clock sub) := by
  unfold Dispatcher.provideData
  cases hpresent : present sub with
  | none => exact .error msg sub clock _ (by decide)
  | some data =>
      obtain ⟨s, rfl, rfl⟩ := present_eq_some hpresent
      simp only
      cases hparse : parseProvideData s.bytes with
      | none => exact .error msg _ clock _ (by decide)
      | some pd =>
          have hmade : WellFormed s.bytes :=
            (accepts_iff_made provideDataField_snd s.bytes {}).mp (by
              rw [Option.isSome_iff_exists]
              exact ⟨pd, hparse⟩)
          simp only
          split_ifs with hnone
          · exact .decoded hmade (by simp) (by simp)
          · exact .decoded hmade (by simp) (by simp [Asks, hmsg, hparse])

/-- A handler for the sub-message that belongs to the type, or one that changes
nothing. -/
theorem handle_careful (d : Dispatcher) (clock : UInt64) {frame : Bytes}
    {msg : ParsedHelperMessage} (hparse : parseHelperMessage frame = some msg) :
    (∃ sub, ownSubMessage msg = some sub ∧ Careful msg sub (d.handle clock frame)) ∨
    (ownSubMessage msg = none ∧ (d.handle clock frame).invoked.length ≤ 1 ∧
      ∀ op ∈ (d.handle clock frame).invoked, ¬ op.Mutates) := by
  simp only [Dispatcher.handle, hparse, ownSubMessage]
  split_ifs with hset hannounce hprovide
  · exact .inl ⟨_, rfl, setClipboard_careful d clock hset msg.clipboardData⟩
  · exact .inl ⟨_, rfl, announceDelayed_careful d clock hannounce msg.announcement⟩
  · exact .inl ⟨_, rfl, provideData_careful d clock hprovide msg.provideData⟩
  · refine .inr ⟨rfl, ?_⟩
    unfold Dispatcher.getClipboard
    cases d.clipboard with
    | none => simp [Dispatcher.error]
    | some text => simp [Operation.Mutates]
  · refine .inr ⟨rfl, ?_⟩
    unfold Dispatcher.shutdown
    split_ifs
    · simp [Operation.Mutates]
    · simp
  · exact .inr ⟨rfl, by simp [Dispatcher.error]⟩
  · exact .inr ⟨rfl, by simp [Dispatcher.error]⟩

/-- **Malformed input never changes the clipboard.**  On every byte string at
most one operation is invoked; one that changes the clipboard only if the
envelope is put together from fields, its parser returns it, and the
sub-message of its type is there, is put together from fields and decodes to
what that operation is given.  A malformed envelope, or one whose own
sub-message is malformed or missing, invokes nothing and is answered by an
error. -/
theorem malformed_changes_nothing (d : Dispatcher) (clock : UInt64) (frame : Bytes) :
    (d.handle clock frame).invoked.length ≤ 1 ∧
    (∀ op ∈ (d.handle clock frame).invoked, op.Mutates → WellFormed frame ∧
      ∃ msg s, parseHelperMessage frame = some msg ∧ ownSubMessage msg = some (some s) ∧
        WellFormed s.bytes ∧ Asks msg s.bytes op) ∧
    (¬ WellFormed frame →
      (d.handle clock frame).invoked = [] ∧ IsError (d.handle clock frame).reply) ∧
    ∀ msg sub, parseHelperMessage frame = some msg → ownSubMessage msg = some sub →
      (sub = none ∨ ∃ s, sub = some s ∧ ¬ WellFormed s.bytes) →
        (d.handle clock frame).invoked = [] ∧ IsError (d.handle clock frame).reply := by
  have haccepts := accepts_iff_made helperMessageField_snd frame {}
  cases hparse : parseHelperMessage frame with
  | none =>
      have hanswer : d.handle clock frame = Dispatcher.error clock "malformed HelperMessage" := by
        rw [Dispatcher.handle, hparse]
      have herror := error_isError clock "malformed HelperMessage" (by decide)
      rw [hanswer]
      refine ⟨Nat.zero_le _, ?_, fun _ => ⟨rfl, herror⟩, ?_⟩
      · intro op hop
        cases hop
      · intro msg sub h
        cases h
  | some msg =>
      have hframe : WellFormed frame :=
        haccepts.mp (by rw [Option.isSome_iff_exists]; exact ⟨msg, hparse⟩)
      obtain ⟨own, hown, hcareful⟩ | ⟨hown, honce, hreads⟩ := handle_careful d clock hparse
      · refine ⟨hcareful.once, ?_, fun hbad => absurd hframe hbad, ?_⟩
        · intro op hop _
          obtain ⟨s, rfl, hmade, hasks⟩ := hcareful.asked op hop
          exact ⟨hframe, msg, s, rfl, hown, hmade, hasks⟩
        · intro msg' sub h hsub hbad
          rw [Option.some.injEq] at h
          subst h
          rw [hown, Option.some.injEq] at hsub
          subst hsub
          exact hcareful.refused hbad
      · refine ⟨honce, ?_, fun hbad => absurd hframe hbad, ?_⟩
        · intro op hop hmutates
          exact absurd hmutates (hreads op hop)
        · intro msg' sub h hsub
          rw [Option.some.injEq] at h
          subst h
          rw [hown] at hsub
          cases hsub

/-- `SET_CLIPBOARD` of the text `A`. -/
def setFrame : Bytes := [8, 1, 18, 5, 8, 1, 18, 1, 65]

/-- The frame changes the clipboard; behind a byte too many it is refused. -/
theorem broken_frame_refused :
    (Dispatcher.handle ⟨some none, true⟩ 0 setFrame).invoked = [.setClipboardText [65]] ∧
    WellFormed setFrame ∧
    (Dispatcher.handle ⟨some none, true⟩ 0 (setFrame ++ [18])).invoked = [] ∧
    IsError (Dispatcher.handle ⟨some none, true⟩ 0 (setFrame ++ [18])).reply := by
  have hset : (Dispatcher.handle ⟨some none, true⟩ 0 setFrame).invoked =
      [.setClipboardText [65]] := by decide
  have hbroken : ¬ WellFormed (setFrame ++ [18]) := by
    rw [WellFormed, ← accepts_iff_made helperMessageField_snd (setFrame ++ [18]) {}]
    decide
  refine ⟨hset, ?_,
    (malformed_changes_nothing ⟨some none, true⟩ 0 (setFrame ++ [18])).2.2.1 hbroken⟩
  exact ((malformed_changes_nothing ⟨some none, true⟩ 0 setFrame).2.1 (.setClipboardText [65])
    (by rw [hset]; exact List.mem_singleton_self _) trivial).1

end LinuxDispatch
