import ClipboardHelper.Library.Transfer
import ClipboardHelper.Library.Frames

/-!
# Frames over sockets and pipes

`ReadFrame` and `WriteFrame` of the Linux socket server and of the Windows
pipe server.  Both run exact-transfer loops over a length field and a body;
they differ in what one call of the operating system can come to (`SysCall`,
`OverlappedCall`) and in what running out of memory does.

Everything `ReadFrame` does is decided by what the front of the stream holds
(`cutFrame`): `cutFrame_of_readFrame`, `readFrame_of_frame`,
`readFrame_of_oversized`, `readFrame_of_incomplete`.  From these,
**`frame_stream_contract`**: for every way in which reads and writes are
split, frames come back as they were written with nothing left over,
an oversized length fails without touching the body, and a truncated frame
is never returned.
-/

namespace FrameTransport

open Library

/-- The cap on a frame, 16 MiB on both platforms. -/
def kMaxFrameSize : UInt32 := 16777216

/-- What one `read` or `send` does on Linux.  `send` returning `0` and every
error other than `EINTR` end the loop. -/
inductive SysCall
  | transferred (n : Nat)
  | eintr
  | zero
  | error
deriving DecidableEq, Repr

def SysCall.io : SysCall → Io
  | .transferred n => .moves n
  | .eintr => .retry
  | .zero => .fails
  | .error => .fails

/-- What one overlapped `ReadFile` or `WriteFile` does on Windows: no event
object, completion at once or after a wait, failure at once, or a wait that
ends in a failed result, a shutdown or an error. -/
inductive OverlappedCall
  | noEvent
  | completed (n : Nat)
  | failed
  | waited (n : Nat)
  | zero
  | resultFailed
  | shutdown
  | waitFailed
deriving DecidableEq, Repr

def OverlappedCall.io : OverlappedCall → Io
  | .completed n => .moves n
  | .waited n => .moves n
  | _ => .fails

/-- How `ReadFrame` ends: with a payload, with `false`, still waiting, or
with an exception. -/
inductive ReadStatus
  | frame (payload : Bytes)
  | failed
  | blocked
  | threw
deriving DecidableEq, Repr

structure Read (ε : Type) where
  status : ReadStatus
  stream : Bytes
  script : List ε
deriving DecidableEq, Repr

/-! ## The code -/

section

variable {ε : Type} (io : ε → Io)

def readExact (script : List ε) (stream : Bytes) (len : Nat) : Transfer ε UInt8 :=
  transfer io script stream len []

def writeExact (script : List ε) (wire data : Bytes) : Transfer ε UInt8 :=
  transfer io script data data.length wire

/-- The length in a header buffer. -/
def headerLength (header : Bytes) : UInt32 :=
  readLengthLE (header.getD 0 0) (header.getD 1 0) (header.getD 2 0) (header.getD 3 0)

/-- `ReadFrame` after the header.  `memory n` says whether a buffer of `n`
bytes can be allocated, and `noMemory` what happens when not. -/
def readBody (noMemory : ReadStatus) (memory : Nat → Bool) (script : List ε) (stream : Bytes)
    (len : UInt32) : Read ε :=
  if len > kMaxFrameSize then ⟨.failed, stream, script⟩
  else if memory len.toNat = false then ⟨noMemory, stream, script⟩
  else if len = 0 then ⟨.frame [], stream, script⟩
  else
    let body := readExact io script stream len.toNat
    match body.status with
    | .failed => ⟨.failed, body.src, body.script⟩
    | .blocked => ⟨.blocked, body.src, body.script⟩
    | .done => ⟨.frame body.dst, body.src, body.script⟩

def readFrame (noMemory : ReadStatus) (memory : Nat → Bool) (script : List ε) (stream : Bytes) :
    Read ε :=
  let header := readExact io script stream 4
  match header.status with
  | .failed => ⟨.failed, header.src, header.script⟩
  | .blocked => ⟨.blocked, header.src, header.script⟩
  | .done => readBody io noMemory memory header.script header.src (headerLength header.dst)

def writeFrame (script : List ε) (wire payload : Bytes) : Transfer ε UInt8 :=
  if payload.length > kMaxFrameSize.toNat then ⟨.failed, payload, wire, script⟩
  else
    let header := writeExact io script wire (writeLengthLE (UInt32.ofNat payload.length))
    if header.status ≠ .done then header
    else if payload.length = 0 then header
    else writeExact io header.script header.dst payload

/-- Write a list of payloads, up to the first failure. -/
def writeFrames : List ε → Bytes → List Bytes → Transfer ε UInt8
  | script, wire, [] => ⟨.done, [], wire, script⟩
  | script, wire, payload :: payloads =>
    let written := writeFrame io script wire payload
    if written.status = .done then writeFrames written.script written.dst payloads
    else written

/-- The loop of a session: read up to `n` frames, until `ReadFrame` returns
none. -/
def readFrames (noMemory : ReadStatus) (memory : Nat → Bool) :
    Nat → List ε → Bytes → List Bytes × Read ε
  | 0, script, stream => ([], ⟨.blocked, stream, script⟩)
  | n + 1, script, stream =>
    let read := readFrame io noMemory memory script stream
    match read.status with
    | .frame payload =>
      let session := readFrames noMemory memory n read.script read.stream
      (payload :: session.1, session.2)
    | _ => ([], read)

end

/-! The two servers. -/

namespace SocketServer

def readFrame := @FrameTransport.readFrame SysCall SysCall.io .failed
def writeFrame := @FrameTransport.writeFrame SysCall SysCall.io

end SocketServer

namespace PipeServer

def readFrame := @FrameTransport.readFrame OverlappedCall OverlappedCall.io .threw
def writeFrame := @FrameTransport.writeFrame OverlappedCall OverlappedCall.io

end PipeServer

/-! ## What the front of the stream decides -/

section

variable {ε : Type} {io : ε → Io} {noMemory : ReadStatus} {memory : Nat → Bool}
  {script : List ε} {stream : Bytes}

/-- After a complete header, which is the first four bytes of the stream, the
body is read. -/
theorem readFrame_eq_readBody (noMemory : ReadStatus) (memory : Nat → Bool)
    (h : (readExact io script stream 4).status = .done) :
    ∃ b₀ b₁ b₂ b₃ body, stream = b₀ :: b₁ :: b₂ :: b₃ :: body ∧
      readFrame io noMemory memory script stream =
        readBody io noMemory memory (readExact io script stream 4).script body
          (readLengthLE b₀ b₁ b₂ b₃) := by
  obtain ⟨hlen, hsrc, hdst⟩ := transfer_of_done h
  have hread : readFrame io noMemory memory script stream =
      readBody io noMemory memory (readExact io script stream 4).script (stream.drop 4)
        (headerLength ([] ++ stream.take 4)) := by
    rw [readFrame, h, ← hsrc, ← hdst]
    rfl
  match stream, hlen with
  | b₀ :: b₁ :: b₂ :: b₃ :: body, _ => exact ⟨b₀, b₁, b₂, b₃, body, rfl, hread⟩

/-- A body that was returned is the front of the stream. -/
theorem readBody_frame {len : UInt32} {payload : Bytes} (hno : ∀ p, noMemory ≠ .frame p)
    (h : (readBody io noMemory memory script stream len).status = .frame payload) :
    ¬ len > kMaxFrameSize ∧ ¬ stream.length < len.toNat ∧ payload = stream.take len.toNat ∧
      (readBody io noMemory memory script stream len).stream = stream.drop len.toNat := by
  unfold readBody at h ⊢
  by_cases hcap : len > kMaxFrameSize
  · simp [if_pos hcap] at h
  by_cases hmemory : memory len.toNat = false
  · rw [if_neg hcap, if_pos hmemory] at h
    exact absurd h (hno payload)
  simp only [if_neg hcap, if_neg hmemory] at h ⊢
  by_cases hzero : len = 0
  · subst hzero
    simp only [if_true, ReadStatus.frame.injEq] at h
    simp [hcap, ← h]
  simp only [if_neg hzero] at h ⊢
  cases hbody : (readExact io script stream len.toNat).status with
  | failed => simp [hbody] at h
  | blocked => simp [hbody] at h
  | done =>
      simp only [hbody, ReadStatus.frame.injEq] at h ⊢
      obtain ⟨hle, hsrc, hdst⟩ := transfer_of_done hbody
      exact ⟨hcap, by omega, by rw [← h, readExact, hdst, List.nil_append], hsrc⟩

/-- A body that is there is returned, with enough calls. -/
theorem readBody_complete {len : UInt32} (noMemory : ReadStatus) (hcap : ¬ len > kMaxFrameSize)
    (hlen : len.toNat ≤ stream.length) (hmemory : memory len.toNat = true)
    (hsteady : Steady io script) (hsupply : len.toNat ≤ supply io script) :
    (readBody io noMemory memory script stream len).status = .frame (stream.take len.toNat) ∧
      (readBody io noMemory memory script stream len).stream = stream.drop len.toNat ∧
      Steady io (readBody io noMemory memory script stream len).script ∧
      supply io script ≤
        supply io (readBody io noMemory memory script stream len).script + len.toNat := by
  unfold readBody
  simp only [if_neg hcap, hmemory, reduceCtorEq, if_false]
  by_cases hzero : len = 0
  · subst hzero
    simpa using hsteady
  simp only [if_neg hzero]
  obtain ⟨hdone, hsteady', hsupply'⟩ := transfer_done stream len.toNat [] hsteady hsupply hlen
  obtain ⟨-, hsrc, hdst⟩ := transfer_of_done hdone
  simp only [readExact, hdone]
  exact ⟨by rw [hdst, List.nil_append], hsrc, hsteady', hsupply'⟩

/-- A body that ends early fails, with enough calls. -/
theorem readBody_truncated {len : UInt32} (hcap : ¬ len > kMaxFrameSize)
    (hlen : stream.length < len.toNat) (hmemory : memory len.toNat = true)
    (hsteady : Steady io script) (hsupply : stream.length < supply io script) :
    (readBody io noMemory memory script stream len).status = .failed := by
  have hzero : len ≠ 0 := by
    rintro rfl
    simp at hlen
  have hfailed := transfer_eof stream len.toNat [] hsteady hsupply hlen
  unfold readBody
  simp [if_neg hcap, hmemory, if_neg hzero, readExact, hfailed]

/-- **Only whole frames are returned**: the frame at the front of the stream,
with the stream advanced past it. -/
theorem cutFrame_of_readFrame {payload : Bytes} (hno : ∀ p, noMemory ≠ .frame p)
    (h : (readFrame io noMemory memory script stream).status = .frame payload) :
    cutFrame kMaxFrameSize stream =
      .frame payload (readFrame io noMemory memory script stream).stream := by
  cases hheader : (readExact io script stream 4).status with
  | failed => simp [readFrame, hheader] at h
  | blocked => simp [readFrame, hheader] at h
  | done =>
      obtain ⟨b₀, b₁, b₂, b₃, body, rfl, hread⟩ :=
        readFrame_eq_readBody noMemory memory hheader
      rw [hread] at h ⊢
      obtain ⟨hcap, hlen, rfl, hrest⟩ := readBody_frame hno h
      rw [hrest]
      simp [cutFrame, hcap, hlen]

/-- A complete frame is read, with enough calls. -/
theorem readFrame_of_frame (noMemory : ReadStatus) {payload rest : Bytes}
    (hcut : cutFrame kMaxFrameSize stream = .frame payload rest)
    (hmemory : memory payload.length = true) (hsteady : Steady io script)
    (hsupply : payload.length + 4 ≤ supply io script) :
    (readFrame io noMemory memory script stream).status = .frame payload ∧
      (readFrame io noMemory memory script stream).stream = rest ∧
      Steady io (readFrame io noMemory memory script stream).script ∧
      supply io script ≤
        supply io (readFrame io noMemory memory script stream).script +
          (payload.length + 4) := by
  have hlong : 4 ≤ stream.length := by
    rw [(eq_frame_of_cutFrame hcut).1]
    simp
    omega
  obtain ⟨hdone, hsteady', hsupply'⟩ := transfer_done stream 4 [] hsteady (by omega) hlong
  obtain ⟨b₀, b₁, b₂, b₃, body, rfl, hread⟩ :=
    readFrame_eq_readBody noMemory memory hdone
  rw [hread]
  rw [readExact]
  generalize (transfer io script _ 4 []).script = script' at *
  generalize hlen : readLengthLE b₀ b₁ b₂ b₃ = len at *
  simp only [cutFrame, hlen] at hcut
  by_cases hcap : len > kMaxFrameSize
  · simp [if_pos hcap] at hcut
  by_cases hbody : body.length < len.toNat
  · simp [if_neg hcap, if_pos hbody] at hcut
  rw [if_neg hcap, if_neg hbody] at hcut
  obtain ⟨rfl, rfl⟩ := Cut.frame.inj hcut
  have htake : (body.take len.toNat).length = len.toNat := by
    rw [List.length_take]
    omega
  rw [htake] at hmemory hsupply ⊢
  obtain ⟨hstatus, hrest, hsteady'', hsupply''⟩ := readBody_complete
    noMemory hcap (not_lt.mp hbody) hmemory hsteady' (by omega)
  exact ⟨hstatus, hrest, hsteady'', by omega⟩

/-- An oversized length leaves the body alone; with enough calls it fails. -/
theorem readFrame_of_oversized (noMemory : ReadStatus) (memory : Nat → Bool)
    {b₀ b₁ b₂ b₃ : UInt8} (body : Bytes) (hcap : readLengthLE b₀ b₁ b₂ b₃ > kMaxFrameSize) :
    (∃ k ≤ 4, (readFrame io noMemory memory script (b₀ :: b₁ :: b₂ :: b₃ :: body)).stream =
        (b₀ :: b₁ :: b₂ :: b₃ :: body).drop k) ∧
      (Steady io script → 4 ≤ supply io script →
        (readFrame io noMemory memory script (b₀ :: b₁ :: b₂ :: b₃ :: body)).status = .failed ∧
          (readFrame io noMemory memory script (b₀ :: b₁ :: b₂ :: b₃ :: body)).stream =
            body) := by
  have hdoneRead : (readExact io script (b₀ :: b₁ :: b₂ :: b₃ :: body) 4).status = .done →
      (readFrame io noMemory memory script (b₀ :: b₁ :: b₂ :: b₃ :: body)).status = .failed ∧
        (readFrame io noMemory memory script (b₀ :: b₁ :: b₂ :: b₃ :: body)).stream = body := by
    intro hdone
    obtain ⟨_, _, _, _, _, hstream, hread⟩ := readFrame_eq_readBody noMemory memory hdone
    cases hstream
    rw [hread, readBody, if_pos hcap]
    exact ⟨rfl, rfl⟩
  constructor
  · obtain ⟨k, hk, -, hsrc, -, -⟩ :=
      transfer_moves io script (b₀ :: b₁ :: b₂ :: b₃ :: body) 4 []
    cases hheader : (readExact io script (b₀ :: b₁ :: b₂ :: b₃ :: body) 4).status with
    | failed =>
        rw [readFrame, hheader]
        exact ⟨k, hk, hsrc⟩
    | blocked =>
        rw [readFrame, hheader]
        exact ⟨k, hk, hsrc⟩
    | done => exact ⟨4, le_refl 4, (hdoneRead hheader).2⟩
  · intro hsteady hsupply
    have hdone := transfer_done (b₀ :: b₁ :: b₂ :: b₃ :: body) 4 [] hsteady hsupply (by simp)
    exact hdoneRead hdone.1

/-- A stream that ends inside the header fails, with enough calls. -/
theorem readFrame_of_short_header (hlen : stream.length < 4) (hsteady : Steady io script)
    (hsupply : stream.length < supply io script) :
    (readFrame io noMemory memory script stream).status = .failed := by
  have hfailed := transfer_eof stream 4 [] hsteady hsupply hlen
  simp [readFrame, readExact, hfailed]

/-- A stream that ends inside the body fails, with enough calls. -/
theorem readFrame_of_short_body {b₀ b₁ b₂ b₃ : UInt8} {body : Bytes}
    (hcap : ¬ readLengthLE b₀ b₁ b₂ b₃ > kMaxFrameSize)
    (hlen : body.length < (readLengthLE b₀ b₁ b₂ b₃).toNat)
    (hmemory : memory (readLengthLE b₀ b₁ b₂ b₃).toNat = true) (hsteady : Steady io script)
    (hsupply : body.length + 4 < supply io script) :
    (readFrame io noMemory memory script (b₀ :: b₁ :: b₂ :: b₃ :: body)).status = .failed := by
  obtain ⟨hdone, hsteady', hsupply'⟩ :=
    transfer_done (b₀ :: b₁ :: b₂ :: b₃ :: body) 4 [] hsteady (by omega) (by simp)
  obtain ⟨_, _, _, _, _, hstream, hread⟩ := readFrame_eq_readBody noMemory memory hdone
  cases hstream
  rw [hread]
  exact readBody_truncated hcap hlen hmemory hsteady' (by rw [readExact]; omega)

/-- **A payload within the cap goes out as its frame.** -/
theorem writeFrame_done {payload : Bytes} (wire : Bytes)
    (hfits : payload.length ≤ kMaxFrameSize.toNat) (hsteady : Steady io script)
    (hsupply : payload.length + 4 ≤ supply io script) :
    (writeFrame io script wire payload).status = .done ∧
      (writeFrame io script wire payload).dst = wire ++ frame payload ∧
      Steady io (writeFrame io script wire payload).script ∧
      supply io script ≤
        supply io (writeFrame io script wire payload).script + (payload.length + 4) := by
  obtain ⟨hdone, hsteady', hsupply'⟩ := transfer_done
    (writeLengthLE (UInt32.ofNat payload.length)) 4 wire hsteady (by omega) (by simp)
  obtain ⟨-, -, hdst⟩ := transfer_of_done hdone
  have htake : (writeLengthLE (UInt32.ofNat payload.length)).take 4 =
      writeLengthLE (UInt32.ofNat payload.length) := rfl
  rw [htake] at hdst
  unfold writeFrame
  simp only [if_neg (show ¬ payload.length > kMaxFrameSize.toNat by omega), writeExact,
    length_writeLengthLE, hdone, ne_eq, not_true_eq_false, if_false]
  by_cases hempty : payload.length = 0
  · rw [if_pos hempty]
    have hnil : payload = [] := List.length_eq_zero_iff.mp hempty
    refine ⟨hdone, ?_, hsteady', by omega⟩
    rw [hdst, frame, hnil, List.append_nil]
  rw [if_neg hempty]
  obtain ⟨hdone', hsteady'', hsupply''⟩ := transfer_done payload payload.length
    (transfer io script (writeLengthLE (UInt32.ofNat payload.length)) 4 wire).dst hsteady'
    (by omega) (le_refl _)
  obtain ⟨-, -, hdst'⟩ := transfer_of_done hdone'
  refine ⟨hdone', ?_, hsteady'', by omega⟩
  rw [hdst', hdst, List.take_length, frame, List.append_assoc]

/-! ## Whole streams -/

theorem writeFrames_done {payloads : List Bytes}
    (hfits : ∀ payload ∈ payloads, payload.length ≤ kMaxFrameSize.toNat) (wire : Bytes)
    (hsteady : Steady io script) (hsupply : (payloads.flatMap frame).length ≤ supply io script) :
    (writeFrames io script wire payloads).status = .done ∧
      (writeFrames io script wire payloads).dst = wire ++ payloads.flatMap frame := by
  induction payloads generalizing script wire with
  | nil => simp [writeFrames]
  | cons payload payloads ih =>
      rw [List.flatMap_cons, List.length_append, length_frame] at hsupply
      obtain ⟨hdone, hdst, hsteady', hsupply'⟩ := writeFrame_done wire
        (hfits payload (by simp)) hsteady (by omega)
      obtain ⟨hrest, hwire⟩ := ih (fun p hp => hfits p (by simp [hp]))
        (writeFrame io script wire payload).dst hsteady' (by omega)
      simp only [writeFrames, hdone, if_true]
      refine ⟨hrest, ?_⟩
      rw [hwire, hdst, List.flatMap_cons, List.append_assoc]

theorem readFrames_done {payloads : List Bytes}
    (hfits : ∀ payload ∈ payloads,
      payload.length ≤ kMaxFrameSize.toNat ∧ memory payload.length = true)
    (hsteady : Steady io script) (hsupply : (payloads.flatMap frame).length < supply io script) :
    (readFrames io noMemory memory (payloads.length + 1) script (payloads.flatMap frame)).1 =
        payloads ∧
      (readFrames io noMemory memory (payloads.length + 1) script
        (payloads.flatMap frame)).2.status = .failed ∧
      (readFrames io noMemory memory (payloads.length + 1) script
        (payloads.flatMap frame)).2.stream = [] := by
  induction payloads generalizing script with
  | nil =>
      -- the end of the stream, in front of a header
      have hfailed := transfer_eof ([] : Bytes) 4 [] hsteady hsupply (by simp)
      obtain ⟨k, -, -, hsrc, -, -⟩ := transfer_moves io script ([] : Bytes) 4 []
      simp [readFrames, readFrame, readExact, hfailed, hsrc]
  | cons payload payloads ih =>
      rw [List.flatMap_cons, List.length_append, length_frame] at hsupply
      obtain ⟨hsize, hmemory⟩ := hfits payload (by simp)
      obtain ⟨hstatus, hrest, hsteady', hsupply'⟩ := readFrame_of_frame noMemory
        (cutFrame_frame hsize (payloads.flatMap frame)) hmemory hsteady (by omega)
      have hih := ih (fun p hp => hfits p (by simp [hp])) hsteady' (by omega)
      rw [List.flatMap_cons, List.length_cons, readFrames]
      simp only [hstatus, hrest]
      exact ⟨by rw [hih.1], hih.2⟩

/-- **Never a frame that was not sent**: under every script, failing or not,
what a session reads off a stream of frames is their beginning. -/
theorem readFrames_prefix (hno : ∀ p, noMemory ≠ .frame p) {payloads : List Bytes}
    (hfits : ∀ payload ∈ payloads, payload.length ≤ kMaxFrameSize.toNat) (n : Nat) :
    (readFrames io noMemory memory n script (payloads.flatMap frame)).1 <+: payloads := by
  induction n generalizing script payloads with
  | zero => simp [readFrames]
  | succ n ih =>
      rw [readFrames]
      cases hread : (readFrame io noMemory memory script (payloads.flatMap frame)).status with
      | failed => simp
      | blocked => simp
      | threw => simp
      | frame payload =>
          have hcut := cutFrame_of_readFrame hno hread
          cases payloads with
          | nil => simp [cutFrame] at hcut
          | cons first payloads =>
              rw [List.flatMap_cons, cutFrame_frame (hfits first (by simp))] at hcut
              obtain ⟨hfirst, hrest⟩ := Cut.frame.inj hcut
              simp only
              rw [List.flatMap_cons, ← hrest, ← hfirst, List.cons_prefix_cons]
              exact ⟨rfl, ih (fun p hp => hfits p (by simp [hp]))⟩

end

/-! ## The contract -/

/-- What a peer relies on, for every script of system calls.

* `round_trip`: with no failing call and enough moving ones, all payloads are
  written, read back in order, and then the stream is at its end;
* `only_sent`: under any script, a session reads no payload that was not
  sent, and none out of order;
* `oversized`: a length above the cap returns no payload and consumes no
  byte of the body, and fails once the header is there;
* `short_header`, `short_body`: a truncated frame returns no payload, and
  fails once its end is seen. -/
structure StreamContract {ε : Type} (io : ε → Io) (noMemory : ReadStatus) : Prop where
  round_trip : ∀ (payloads : List Bytes) (memory : Nat → Bool) (writes reads : List ε),
    (∀ payload ∈ payloads, payload.length ≤ kMaxFrameSize.toNat ∧
      memory payload.length = true) →
    Steady io writes → (payloads.flatMap frame).length ≤ supply io writes →
    Steady io reads → (payloads.flatMap frame).length < supply io reads →
    (writeFrames io writes [] payloads).status = .done ∧
      (readFrames io noMemory memory (payloads.length + 1) reads
        (writeFrames io writes [] payloads).dst).1 = payloads ∧
      (readFrames io noMemory memory (payloads.length + 1) reads
        (writeFrames io writes [] payloads).dst).2.status = .failed ∧
      (readFrames io noMemory memory (payloads.length + 1) reads
        (writeFrames io writes [] payloads).dst).2.stream = []
  only_sent : ∀ (payloads : List Bytes) (memory : Nat → Bool) (reads : List ε) (n : Nat),
    (∀ payload ∈ payloads, payload.length ≤ kMaxFrameSize.toNat) →
    (readFrames io noMemory memory n reads (payloads.flatMap frame)).1 <+: payloads
  oversized : ∀ (b₀ b₁ b₂ b₃ : UInt8) (body : Bytes) (memory : Nat → Bool) (reads : List ε),
    readLengthLE b₀ b₁ b₂ b₃ > kMaxFrameSize →
    (∀ payload, (readFrame io noMemory memory reads (b₀ :: b₁ :: b₂ :: b₃ :: body)).status ≠
      .frame payload) ∧
    (∃ k ≤ 4, (readFrame io noMemory memory reads (b₀ :: b₁ :: b₂ :: b₃ :: body)).stream =
      (b₀ :: b₁ :: b₂ :: b₃ :: body).drop k) ∧
    (Steady io reads → 4 ≤ supply io reads →
      (readFrame io noMemory memory reads (b₀ :: b₁ :: b₂ :: b₃ :: body)).status = .failed ∧
        (readFrame io noMemory memory reads (b₀ :: b₁ :: b₂ :: b₃ :: body)).stream = body)
  short_header : ∀ (stream : Bytes) (memory : Nat → Bool) (reads : List ε), stream.length < 4 →
    (∀ payload, (readFrame io noMemory memory reads stream).status ≠ .frame payload) ∧
    (Steady io reads → stream.length < supply io reads →
      (readFrame io noMemory memory reads stream).status = .failed)
  short_body : ∀ (b₀ b₁ b₂ b₃ : UInt8) (body : Bytes) (memory : Nat → Bool) (reads : List ε),
    body.length < (readLengthLE b₀ b₁ b₂ b₃).toNat →
    (∀ payload, (readFrame io noMemory memory reads (b₀ :: b₁ :: b₂ :: b₃ :: body)).status ≠
      .frame payload) ∧
    (¬ readLengthLE b₀ b₁ b₂ b₃ > kMaxFrameSize →
      memory (readLengthLE b₀ b₁ b₂ b₃).toNat = true → Steady io reads →
      body.length + 4 < supply io reads →
      (readFrame io noMemory memory reads (b₀ :: b₁ :: b₂ :: b₃ :: body)).status = .failed)

/-- A stream without a frame in front returns none. -/
theorem readFrame_no_frame {ε : Type} {io : ε → Io} {noMemory : ReadStatus}
    {memory : Nat → Bool} {script : List ε} {stream : Bytes}
    (hno : ∀ p, noMemory ≠ .frame p)
    (hcut : ∀ payload rest, cutFrame kMaxFrameSize stream ≠ .frame payload rest)
    (payload : Bytes) :
    (readFrame io noMemory memory script stream).status ≠ .frame payload := by
  intro hread
  exact hcut _ _ (cutFrame_of_readFrame hno hread)

/-- Whatever one call comes to, and whatever running out of memory does short
of returning a payload, the loops keep the contract. -/
theorem streamContract {ε : Type} (io : ε → Io) {noMemory : ReadStatus}
    (hno : ∀ p, noMemory ≠ .frame p) : StreamContract io noMemory where
  round_trip payloads memory writes reads hfits hwrites hwriteSupply hreads hreadSupply := by
    obtain ⟨hdone, hwire⟩ := writeFrames_done (fun p hp => (hfits p hp).1) [] hwrites hwriteSupply
    rw [hwire, List.nil_append]
    exact ⟨hdone, readFrames_done hfits hreads hreadSupply⟩
  only_sent payloads memory reads n hfits := readFrames_prefix hno hfits n
  oversized b₀ b₁ b₂ b₃ body memory reads hcap := by
    refine ⟨?_, readFrame_of_oversized noMemory memory body hcap⟩
    apply readFrame_no_frame hno
    simp [cutFrame, if_pos hcap]
  short_header stream memory reads hlen := by
    refine ⟨?_, readFrame_of_short_header hlen⟩
    apply readFrame_no_frame hno
    intro payload rest hcut
    have hlong := congrArg List.length (eq_frame_of_cutFrame hcut).1
    rw [List.length_append, length_frame] at hlong
    omega
  short_body b₀ b₁ b₂ b₃ body memory reads hlen := by
    refine ⟨?_, fun hcap hmemory => readFrame_of_short_body hcap hlen hmemory⟩
    apply readFrame_no_frame hno
    intro payload rest hcut
    simp only [cutFrame, if_pos hlen] at hcut
    split at hcut <;> cases hcut

/-- **The frame stream contract** of the Linux socket server and of the
Windows pipe server. -/
theorem frame_stream_contract :
    StreamContract SysCall.io .failed ∧ StreamContract OverlappedCall.io .threw :=
  ⟨streamContract SysCall.io (by simp), streamContract OverlappedCall.io (by simp)⟩

/-- Two frames, the second empty, written and read in pieces with an `EINTR`
in between. -/
example :
    let wire := (writeFrames SysCall.io (List.replicate 9 (.transferred 2)) [] [[7, 8, 9], []]).dst
    wire = [3, 0, 0, 0, 7, 8, 9, 0, 0, 0, 0] ∧
      (readFrames SysCall.io .failed (fun _ => true) 3
        (.transferred 0 :: .eintr :: List.replicate 9 (.transferred 1)) wire).1 =
          [[7, 8, 9], []] := by
  decide

end FrameTransport
