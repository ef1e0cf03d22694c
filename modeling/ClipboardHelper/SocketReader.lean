import ClipboardHelper.Library.Frames

/-!
# The reading half of the macOS socket server

`handleReadEvent` appends whatever one `read` returned to `readBuffer`, and
`processFrames` cuts complete frames off it.  A length above 64 MiB cancels
the read source; from then on no event is delivered.

**`incremental_eq_whole`**: however the stream is split into read events,
the payloads that were cut are those of parsing the whole stream at once, and
`readBuffer` is the unparsed suffix of what was delivered.  The step lemma is
`framed_processFrames`, the invariant over the events is `Incremental`.
-/

namespace SocketReader

open Library

/-- The sanity bound on a frame, 64 MiB. -/
def maxFrameLength : UInt32 := 67108864

/-- The state of one connection: the bytes not yet framed, the payloads cut
so far, the messages handed to `onMessage`, and whether the read source was
cancelled. -/
structure Reader (M : Type) where
  readBuffer : Bytes := []
  cut : List Bytes := []
  messages : List M := []
  cancelled : Bool := false
deriving DecidableEq, Repr

variable {M : Type} (deserialise : Bytes → Option M)

/-- Cut frames until the buffer holds no complete one.  A payload that does
not deserialise is dropped. -/
def processFrames (s : Reader M) : Reader M :=
  match _h : s.readBuffer with
  | b₀ :: b₁ :: b₂ :: b₃ :: body =>
    let length := readLengthLE b₀ b₁ b₂ b₃
    if length > maxFrameLength then { s with cancelled := true }
    else if s.readBuffer.length < 4 + length.toNat then s
    else
      let messageData := body.take length.toNat
      processFrames
        { s with
            readBuffer := body.drop length.toNat,
            cut := s.cut ++ [messageData],
            messages := s.messages ++ (deserialise messageData).toList }
  | _ => s
termination_by s.readBuffer.length
decreasing_by
  rw [_h]
  simp
  omega

/-- One read event.  A `read` that returns nothing, at the end of the stream
or in error, cancels the source. -/
def handleReadEvent (s : Reader M) (piece : Bytes) : Reader M :=
  if piece = [] then { s with cancelled := true }
  else processFrames deserialise { s with readBuffer := s.readBuffer ++ piece }

/-- The events of a connection.  A cancelled source delivers none. -/
def readEvents (s : Reader M) (pieces : List Bytes) : Reader M :=
  pieces.foldl (fun s piece => if s.cancelled then s else handleReadEvent deserialise s piece) s

variable {deserialise}

/-- **One pass of the loop** decomposes the buffer; it cancels only in front
of an oversized length. -/
theorem framed_processFrames (deserialise : Bytes → Option M) (s : Reader M) :
    ∃ frames, Framed maxFrameLength s.readBuffer frames (processFrames deserialise s).readBuffer ∧
      (processFrames deserialise s).cut = s.cut ++ frames ∧
      (processFrames deserialise s).messages = s.messages ++ frames.filterMap deserialise ∧
      ((processFrames deserialise s).cancelled = true → s.cancelled = true ∨
        cutFrame maxFrameLength (processFrames deserialise s).readBuffer = .oversized) := by
  fun_induction processFrames deserialise s with
  | case1 s b₀ b₁ b₂ b₃ body hbuffer length hcap =>
      have hcut : cutFrame maxFrameLength s.readBuffer = .oversized := by
        rw [hbuffer]
        simp [cutFrame, length, hcap]
      refine ⟨[], ⟨rfl, by simp, ?_⟩, by simp, by simp, fun _ => .inr hcut⟩
      intro payload rest
      rw [hcut]
      exact Cut.noConfusion
  | case2 s b₀ b₁ b₂ b₃ body hbuffer length hcap hshort =>
      refine ⟨[], ⟨rfl, by simp, ?_⟩, by simp, by simp, fun h => .inl h⟩
      intro payload rest
      rw [hbuffer, List.length_cons, List.length_cons, List.length_cons, List.length_cons] at hshort
      have hbody : body.length < length.toNat := by omega
      rw [hbuffer]
      simp [cutFrame, length, hcap, hbody]
  | case3 s b₀ b₁ b₂ b₃ body hbuffer length hcap hlong messageData ih =>
      obtain ⟨frames, hframed, hcut, hmessages, hcancelled⟩ := ih
      rw [hbuffer, List.length_cons, List.length_cons, List.length_cons, List.length_cons] at hlong
      have hbody : ¬ body.length < length.toNat := by omega
      have hfront : cutFrame maxFrameLength s.readBuffer =
          .frame messageData (body.drop length.toNat) := by
        rw [hbuffer]
        simp [cutFrame, length, messageData, hcap, hbody]
      obtain ⟨hstream, hfits⟩ := eq_frame_of_cutFrame hfront
      refine ⟨messageData :: frames, ⟨?_, ?_, hframed.stuck⟩, ?_, ?_, hcancelled⟩
      · rw [List.flatMap_cons, List.append_assoc, ← hframed.eq]
        exact hstream
      · simp only [List.mem_cons, forall_eq_or_imp]
        exact ⟨hfits, hframed.fits⟩
      · rw [hcut, List.append_assoc]
        rfl
      · rw [hmessages, List.append_assoc, List.filterMap_cons]
        cases deserialise messageData <;> rfl
  | case4 s hshort =>
      refine ⟨[], ⟨rfl, by simp, ?_⟩, by simp, by simp, fun h => .inl h⟩
      intro payload rest hcut
      obtain ⟨hstream, -⟩ := eq_frame_of_cutFrame hcut
      rw [frame, writeLengthLE] at hstream
      exact hshort _ _ _ _ _ hstream

/-- What holds after some events: `delivered` has been framed, and the source
is cancelled only in front of an oversized length. -/
structure Incremental (deserialise : Bytes → Option M) (delivered : Bytes) (s : Reader M) :
    Prop where
  framed : Framed maxFrameLength delivered s.cut s.readBuffer
  messages : s.messages = s.cut.filterMap deserialise
  oversized : s.cancelled = true → cutFrame maxFrameLength s.readBuffer = .oversized

theorem incremental_initial (deserialise : Bytes → Option M) :
    Incremental deserialise [] ({} : Reader M) :=
  ⟨⟨rfl, by simp, by simp [cutFrame]⟩, rfl, by simp⟩

/-- **One event keeps the invariant.** -/
theorem Incremental.handleReadEvent {delivered piece : Bytes} {s : Reader M}
    (hi : Incremental deserialise delivered s) (hlive : s.cancelled = false) (hne : piece ≠ []) :
    Incremental deserialise (delivered ++ piece) (handleReadEvent deserialise s piece) := by
  rw [SocketReader.handleReadEvent, if_neg hne]
  obtain ⟨frames, hframed, hcut, hmessages, hcancelled⟩ := framed_processFrames
    deserialise { s with readBuffer := s.readBuffer ++ piece }
  refine ⟨?_, ?_, ?_⟩
  · rw [hcut]
    exact hi.framed.append hframed
  · rw [hmessages, hcut, List.filterMap_append, ← hi.messages]
  · intro h
    rcases hcancelled h with hbefore | hover
    · simp [hlive] at hbefore
    · exact hover

/-- A cancelled source ignores all further events. -/
theorem readEvents_cancelled {s : Reader M} (h : s.cancelled = true) (pieces : List Bytes) :
    readEvents deserialise s pieces = s := by
  induction pieces with
  | nil => rfl
  | cons piece pieces ih => simpa [readEvents, h] using ih

/-- The invariant holds after every sequence of events, for the pieces that
were delivered. -/
theorem Incremental.readEvents {delivered : Bytes} {s : Reader M} {pieces : List Bytes}
    (hi : Incremental deserialise delivered s) (hne : ∀ piece ∈ pieces, piece ≠ []) :
    ∃ handled dropped, pieces = handled ++ dropped ∧
      Incremental deserialise (delivered ++ handled.flatten)
        (readEvents deserialise s pieces) ∧
      ((SocketReader.readEvents deserialise s pieces).cancelled = false → dropped = []) := by
  induction pieces generalizing delivered s with
  | nil => exact ⟨[], [], rfl, by simpa [SocketReader.readEvents] using hi, fun _ => rfl⟩
  | cons piece pieces ih =>
      cases hlive : s.cancelled with
      | true =>
          rw [readEvents_cancelled hlive]
          exact ⟨[], piece :: pieces, rfl, by simpa using hi, by simp [hlive]⟩
      | false =>
          obtain ⟨handled, dropped, rfl, hinv, hdropped⟩ :=
            ih (hi.handleReadEvent hlive (hne piece (by simp))) (fun p hp => hne p (by simp [hp]))
          refine ⟨piece :: handled, dropped, rfl, ?_, ?_⟩
          · rw [List.flatten_cons, ← List.append_assoc]
            simpa [SocketReader.readEvents, hlive] using hinv
          · simpa [SocketReader.readEvents, hlive] using hdropped

/-- **Incremental framing is whole-stream framing.**  For every split of a
stream into non-empty read events,

* the payloads cut out are those of parsing the whole stream at once, up to
  the first oversized length, and `onMessage` gets those that deserialise;
* the events that were delivered are all of them, or those up to the one that
  showed an oversized length, and `readBuffer` is the unparsed suffix of what
  they brought;
* so the unparsed suffix of the whole stream is `readBuffer` followed by what
  was not delivered. -/
theorem incremental_eq_whole (deserialise : Bytes → Option M) (pieces : List Bytes)
    (hne : ∀ piece ∈ pieces, piece ≠ []) :
    (readEvents deserialise {} pieces).cut = (parseFrames maxFrameLength pieces.flatten).1 ∧
      (readEvents deserialise {} pieces).messages =
        (parseFrames maxFrameLength pieces.flatten).1.filterMap deserialise ∧
      ∃ handled dropped, pieces = handled ++ dropped ∧
        ((readEvents deserialise {} pieces).cancelled = false → dropped = []) ∧
        ((readEvents deserialise {} pieces).cancelled = true →
          cutFrame maxFrameLength (readEvents deserialise {} pieces).readBuffer = .oversized) ∧
        (readEvents deserialise {} pieces).readBuffer =
          (parseFrames maxFrameLength handled.flatten).2 ∧
        (parseFrames maxFrameLength pieces.flatten).2 =
          (readEvents deserialise {} pieces).readBuffer ++ dropped.flatten := by
  obtain ⟨handled, dropped, rfl, hinv, hdropped⟩ :=
    (incremental_initial deserialise).readEvents hne
  rw [List.nil_append] at hinv
  -- what was not delivered changes the decomposition only by lengthening the rest
  have hwhole : Framed maxFrameLength (handled ++ dropped).flatten
      (readEvents deserialise {} (handled ++ dropped)).cut
      ((readEvents deserialise {} (handled ++ dropped)).readBuffer ++ dropped.flatten) := by
    rw [List.flatten_append]
    cases hcancelled : (readEvents deserialise {} (handled ++ dropped)).cancelled with
    | true => exact hinv.framed.oversized (hinv.oversized hcancelled) dropped.flatten
    | false => simpa [hdropped hcancelled] using hinv.framed
  obtain ⟨hcut, hrest⟩ := hwhole.unique (framed_parseFrames _)
  refine ⟨hcut, by rw [hinv.messages, hcut], handled, dropped, rfl, hdropped, hinv.oversized, ?_,
    hrest.symm⟩
  exact (hinv.framed.unique (framed_parseFrames _)).2

/-- Two frames in three events, the cuts inside a header and inside a body. -/
theorem incremental_eq_whole_three_events :
    (readEvents some {} [[3, 0], [0, 0, 7, 8], [9, 1, 0, 0, 0, 5]]).cut =
      (parseFrames maxFrameLength [3, 0, 0, 0, 7, 8, 9, 1, 0, 0, 0, 5]).1 :=
  (incremental_eq_whole some [[3, 0], [0, 0, 7, 8], [9, 1, 0, 0, 0, 5]] (by decide)).1

end SocketReader
