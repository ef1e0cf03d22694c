import ClipboardHelper.FileMetadataReaders
import ClipboardHelper.Library.Checked

/-!
# The reader never leaves its buffer

`proto_wire::Reader` and the loops over it once more, statement by statement
as a checked program: every byte loaded by its index, every `std::size_t` in
its width, every assignment to `pos_` checked to stay within `size_`, and the
position kept where a method returns false half way.  A loop logs where its
rounds began and which slices `ReadLengthDelim` handed out.

The loops of both platforms differ in the call they make behind a tag, so a
`Parser` is that choice.  **`parsers_stay_in_bounds`** holds for every choice,
on every byte string, and on every slice that any chain of such loops hands
out (`Reached`).  `run_follows` and `run_extractRelativePath` connect the loops
with the parsers of the other modules: they accept the same byte strings.
-/

namespace ReaderBounds

open Library Library.Outcome ProtoWire DispatchCodec MessageFields

/-- A `(pointer, length)` pair, the pointer as an offset into the buffer it
was read from. -/
structure Span where
  offset : Nat
  length : Nat
deriving DecidableEq, Repr

/-- The bytes that a pair stands for. -/
def Span.bytes (s : Span) (frame : Bytes) : Bytes := (frame.drop s.offset).take s.length

/-- A pair handed out by a reader of the bytes of `s`, seen from the frame. -/
def Span.sub (s inner : Span) : Span := ⟨s.offset + inner.offset, inner.length⟩

/-! ## The methods of `Reader` -/

/-- `remaining()`: a subtraction of two `std::size_t`. -/
def remaining (r : Reader) : Outcome Nat :=
  if r.pos ≤ r.data.length then ok (r.data.length - r.pos) else fault

/-- `pos_ += n`. -/
def advance (r : Reader) (n : Nat) : Outcome Reader := do
  let pos ← size (r.pos + n)
  if pos ≤ r.data.length then ok { r with pos := pos } else fault

/-- The loop of `ReadVarint`.  A shift above 63 would be undefined. -/
def readVarintLoop : Nat → Reader → UInt64 → Nat → Outcome (Option UInt64 × Reader)
  | 0, _, _, _ => fault
  | n + 1, r, value, shift =>
    if r.data.length ≤ r.pos then ok (none, r)
    else do
      let b ← load r.data r.pos
      let r ← advance r 1
      let value := value ||| ((b &&& 0x7F).toUInt64 <<< UInt64.ofNat shift)
      if b &&& 0x80 = 0 then ok (some value, r)
      else if 63 < shift + 7 then ok (none, r)
      else readVarintLoop n r value (shift + 7)

def readVarint (r : Reader) : Outcome (Option UInt64 × Reader) := readVarintLoop 10 r 0 0

def readTag (r : Reader) : Outcome (Option (UInt32 × WireType) × Reader) := do
  let read ← readVarint r
  match read.1 with
  | none => ok (none, read.2)
  | some tag => ok (some ((tag >>> 3).toUInt32, ⟨(tag &&& 0x07).toUInt8⟩), read.2)

def readLengthDelim (r : Reader) : Outcome (Option Span × Reader) := do
  let read ← readVarint r
  match read.1 with
  | none => ok (none, read.2)
  | some len =>
    let room ← remaining read.2
    if room < len.toNat then ok (none, read.2)
    else do
      let after ← advance read.2 len.toNat
      ok (some ⟨read.2.pos, len.toNat⟩, after)

/-- `if (remaining() < n) return false; pos_ += n; return true;` -/
def passBytes (n : Nat) (r : Reader) : Outcome (Option (List Span) × Reader) := do
  let room ← remaining r
  if room < n then ok (none, r)
  else do
    let after ← advance r n
    ok (some [], after)

/-- `ReadVarint`, as a call that hands out no slice. -/
def callVarint (r : Reader) : Outcome (Option (List Span) × Reader) := do
  let read ← readVarint r
  ok (read.1.map (fun _ => []), read.2)

/-- `ReadLengthDelim`, as a call that hands out one. -/
def callLengthDelim (r : Reader) : Outcome (Option (List Span) × Reader) := do
  let read ← readLengthDelim r
  ok (read.1.map (fun s => [s]), read.2)

def skipField (wire : WireType) (r : Reader) : Outcome (Option (List Span) × Reader) :=
  if wire = .varint then callVarint r
  else if wire = .fixed64 then passBytes 8 r
  else if wire = .lengthDelim then callLengthDelim r
  else if wire = .fixed32 then passBytes 4 r
  else ok (none, r)

/-! ## The loops -/

/-- What a loop calls behind a tag. -/
inductive Call where
  | readVarint
  | readLengthDelim
  /-- `ReadLengthDelim`, and `return true` behind it. -/
  | readLengthDelimAndReturn
  | skipField
deriving DecidableEq, Repr

def Call.run (call : Call) (wire : WireType) (r : Reader) :
    Outcome (Option (List Span) × Reader) :=
  match call with
  | .readVarint => callVarint r
  | .readLengthDelim => callLengthDelim r
  | .readLengthDelimAndReturn => callLengthDelim r
  | .skipField => ReaderBounds.skipField wire r

/-- A parser: the call it makes for a tag, and what it returns behind its
loop. -/
structure Parser where
  call : UInt32 → WireType → Call
  atEnd : Bool := true

inductive Ending where
  | returned (result : Bool)
  /-- The rounds that the run was given are used up. -/
  | cut
deriving DecidableEq, Repr

/-- What a loop has done: `pos_` at the start of each round, the slices in
the order they were handed out, how it ended, and where. -/
structure Log where
  heads : List Nat := []
  spans : List Span := []
  ending : Ending
  last : Reader
deriving DecidableEq, Repr

/-- `while (!r.eof())`, for a number of rounds. -/
def run (p : Parser) : Nat → Reader → Outcome Log
  | 0, r => ok { ending := if r.eof then .returned p.atEnd else .cut, last := r }
  | n + 1, r =>
    if r.eof then ok { ending := .returned p.atEnd, last := r }
    else do
      let tag ← readTag r
      match tag.1 with
      | none => ok { heads := [r.pos], ending := .returned false, last := tag.2 }
      | some (field, wire) =>
        let body ← (p.call field wire).run wire tag.2
        match body.1 with
        | none => ok { heads := [r.pos], ending := .returned false, last := body.2 }
        | some spans =>
          if p.call field wire = .readLengthDelimAndReturn then
            ok { heads := [r.pos], spans := spans, ending := .returned true, last := body.2 }
          else do
            let log ← run p n body.2
            ok { log with heads := r.pos :: log.heads, spans := spans ++ log.spans }

/-! ## The parsers of the source -/

/-- A parser that reads the fields it knows and skips the others. -/
def decoder (known : List (UInt32 × WireType)) : Parser where
  call := fun field wire =>
    if (field, wire) ∈ known then
      if wire = .varint then .readVarint else .readLengthDelim
    else .skipField

def parseHelperMessage : Parser := decoder (known helperMessageTable)
def parseClipboardData : Parser := decoder (known clipboardDataTable)
def parseAnnouncement : Parser := decoder (known announcementTable)
def parseFileMetadataForVirtualFile : Parser :=
  decoder (known FileMetadataReaders.fileMetadataTable)
def parseProvideData : Parser := decoder (known provideDataTable)
def parseFileChunkRequest : Parser := decoder (known fileChunkRequestTable)
def parseFileChunkData : Parser := decoder (known fileChunkDataTable)

/-- `ExtractRelativePath`. -/
def extractRelativePath : Parser where
  call := fun field wire =>
    if field = kFMFieldRelativePath ∧ wire = .lengthDelim then .readLengthDelimAndReturn
    else .skipField
  atEnd := false

namespace Linux

def parseHelperMessage : Parser :=
  decoder [(kFieldType, .varint), (kFieldClipboardData, .lengthDelim),
    (kFieldAnnouncement, .lengthDelim), (kFieldProvideData, .lengthDelim),
    (kFieldFileChunkRequest, .lengthDelim), (kFieldFileChunkData, .lengthDelim)]

def parseClipboardData : Parser :=
  decoder [(kCDFieldContentType, .varint), (kCDFieldPayload, .lengthDelim),
    (LinuxCodec.kCDFieldContentHash, .lengthDelim),
    (LinuxCodec.kCDFieldTransferId, .lengthDelim)]

def parseAnnouncement : Parser :=
  decoder [(kAnnFieldContentType, .varint), (kAnnFieldContentHash, .lengthDelim),
    (kAnnFieldTransferId, .lengthDelim)]

def parseProvideData : Parser :=
  decoder [(kPDFieldContentHash, .lengthDelim), (kPDFieldData, .lengthDelim)]

end Linux

/-! ## The methods stay inside -/

/-- A method keeps the buffer, moves forward and stays inside; its value and
its place are those of the reader of the other modules wherever that one
succeeds, and it returns false where that one fails. -/
structure Stays {β : Type} (r : Reader) (model : Option (β × Reader)) (value : Option β)
    (after : Reader) : Prop where
  data : after.data = r.data
  forward : r.pos ≤ after.pos
  inside : after.pos ≤ r.data.length
  agrees : value.map (fun v => (v, after)) = model

/-- The size of a buffer is a `std::size_t`, and `pos_` is inside. -/
structure Inside (r : Reader) : Prop where
  fits : r.data.length < 2 ^ 64
  inside : r.pos ≤ r.data.length

theorem Stays.still {β : Type} {r after : Reader} {model : Option (β × Reader)}
    {value : Option β} (h : Stays r model value after) (hr : Inside r) : Inside after where
  fits := by rw [h.data]; exact hr.fits
  inside := by rw [h.data]; exact h.inside

theorem advance_eq {r : Reader} {n : Nat} (hr : Inside r) (h : r.pos + n ≤ r.data.length) :
    advance r n = ok { r with pos := r.pos + n } := by
  rw [advance, size_eq (Nat.lt_of_le_of_lt h hr.fits), ok_bind, if_pos h]

theorem remaining_eq {r : Reader} (hr : Inside r) : remaining r = ok r.remaining := by
  rw [remaining, if_pos hr.inside, Reader.remaining]

/-- The loop of `ReadVarint`: by induction on its rounds, of which ten are
enough because the shift grows by seven in each. -/
theorem readVarintLoop_stays (n : Nat) :
    ∀ (r : Reader) (value : UInt64) (shift : Nat), Inside r → shift + 7 * n = 70 → shift ≤ 63 →
      ∃ out after, readVarintLoop n r value shift = ok (out, after) ∧ after.data = r.data ∧
        r.pos ≤ after.pos ∧ after.pos ≤ r.data.length ∧
        (r.pos < r.data.length → r.pos < after.pos) ∧
        out.map (fun v => (v, after.pos)) =
          ProtoWire.readVarintLoop r.data n r.pos value shift := by
  induction n with
  | zero =>
      intro r value shift _ hshift hsmall
      omega
  | succ n ih =>
      intro r value shift hr hshift hsmall
      rw [readVarintLoop, ProtoWire.readVarintLoop]
      by_cases hend : r.data.length ≤ r.pos
      · refine ⟨none, r, if_pos hend, rfl, Nat.le_refl _, hr.inside, by omega, ?_⟩
        rw [List.getElem?_eq_none hend]
        rfl
      · have hmore : r.pos < r.data.length := by omega
        rw [if_neg hend, load_eq hmore, ok_bind, advance_eq hr hmore, ok_bind,
          List.getElem?_eq_getElem hmore]
        by_cases hlast : r.data[r.pos] &&& 0x80 = 0
        · refine ⟨_, _, if_pos hlast, rfl, Nat.le_succ _, hmore, fun _ => Nat.lt_succ_self _, ?_⟩
          simp only [if_pos hlast, Option.map_some]
        · rw [if_neg hlast]
          by_cases hwide : 63 < shift + 7
          · refine ⟨_, _, if_pos hwide, rfl, Nat.le_succ _, hmore, fun _ => Nat.lt_succ_self _, ?_⟩
            simp only [if_neg hlast, if_pos hwide, Option.map_none]
          · -- the next byte, with what is read so far in the accumulator
            have hnext : Inside { r with pos := r.pos + 1 } := ⟨hr.fits, hmore⟩
            obtain ⟨out, after, hloop, hdata, hforward, hinside, -, hagrees⟩ :=
              ih { r with pos := r.pos + 1 }
                (value ||| ((r.data[r.pos] &&& 0x7F).toUInt64 <<< UInt64.ofNat shift))
                (shift + 7) hnext (by omega) (by omega)
            rw [if_neg hwide, hloop]
            refine ⟨out, after, rfl, hdata, by simp only at hforward; omega, hinside,
              fun _ => hforward, ?_⟩
            simp only [if_neg hlast, if_neg hwide]
            exact hagrees

/-- **`ReadVarint`** stays inside, and takes a byte unless there is none. -/
theorem readVarint_stays {r : Reader} (hr : Inside r) :
    ∃ value after, readVarint r = ok (value, after) ∧ Stays r r.readVarint value after ∧
      (r.pos < r.data.length → r.pos < after.pos) := by
  obtain ⟨value, after, hloop, hdata, hforward, hinside, htakes, hagrees⟩ :=
    readVarintLoop_stays 10 r 0 0 hr rfl (by omega)
  refine ⟨value, after, hloop, ⟨hdata, hforward, hinside, ?_⟩, htakes⟩
  rw [Reader.readVarint, ← hagrees]
  cases value with
  | none => rfl
  | some v =>
      obtain ⟨data, pos⟩ := after
      simp only at hdata
      simp only [Option.map_some, hdata]

/-- **`ReadTag`** takes at least one byte of a buffer that has one. -/
theorem readTag_stays {r : Reader} (hr : Inside r) (hmore : r.pos < r.data.length) :
    ∃ tag after, readTag r = ok (tag, after) ∧
      Stays r (r.readTag.map (fun read => ((read.1, read.2.1), read.2.2))) tag after ∧
      r.pos < after.pos := by
  obtain ⟨value, after, hread, hstays, htakes⟩ := readVarint_stays hr
  have hagrees := hstays.agrees
  rw [readTag, hread, ok_bind, Reader.readTag, ← hagrees]
  cases value with
  | none =>
      exact ⟨none, after, rfl, ⟨hstays.data, hstays.forward, hstays.inside, rfl⟩, htakes hmore⟩
  | some tag =>
      exact ⟨_, after, rfl, ⟨hstays.data, hstays.forward, hstays.inside, rfl⟩, htakes hmore⟩

/-- A slice inside a buffer. -/
def Span.Within (s : Span) (data : Bytes) : Prop := s.offset + s.length ≤ data.length

/-- **`ReadLengthDelim`** compares the length on the wire with what is left,
so the slice it hands out lies inside. -/
theorem readLengthDelim_stays {r : Reader} (hr : Inside r) :
    ∃ slice after, readLengthDelim r = ok (slice, after) ∧
      Stays r (r.readLengthDelim.map (fun read => ((), read.2))) (slice.map (fun _ => ())) after ∧
      (∀ s, slice = some s → s.Within r.data ∧
        r.readLengthDelim = some (s.bytes r.data, after)) := by
  obtain ⟨value, behind, hread, hstays, -⟩ := readVarint_stays hr
  have hbehind := hstays.still hr
  have hagrees := hstays.agrees
  rw [readLengthDelim, hread, ok_bind, Reader.readLengthDelim, ← hagrees]
  cases value with
  | none =>
      refine ⟨none, behind, rfl, ⟨hstays.data, hstays.forward, hstays.inside, rfl⟩, ?_⟩
      intro s h
      cases h
  | some len =>
      simp only [Option.map_some]
      rw [remaining_eq hbehind, ok_bind]
      by_cases hshort : behind.remaining < len.toNat
      · rw [if_pos hshort, if_pos hshort]
        refine ⟨none, behind, rfl, ⟨hstays.data, hstays.forward, hstays.inside, rfl⟩, ?_⟩
        intro s h
        cases h
      · have hroom : behind.pos + len.toNat ≤ behind.data.length := by
          have hinside := hbehind.inside
          rw [Reader.remaining] at hshort
          omega
        rw [if_neg hshort, if_neg hshort, advance_eq hbehind hroom, ok_bind]
        have hdata := hstays.data
        have hforward := hstays.forward
        refine ⟨_, _, rfl, ⟨hdata, by simp only; omega, by rw [← hdata]; exact hroom, rfl⟩, ?_⟩
        intro s h
        rw [Option.some.injEq] at h
        subst h
        refine ⟨by rw [Span.Within, ← hdata]; exact hroom, ?_⟩
        rw [Span.bytes, hdata]

/-- What a loop needs of a call: it stays inside, the slices it hands out lie
inside, and its place is that of the model. -/
structure CallStays (r : Reader) (model : Option Reader) (spans : Option (List Span))
    (after : Reader) : Prop where
  data : after.data = r.data
  forward : r.pos ≤ after.pos
  inside : after.pos ≤ r.data.length
  within : ∀ handed, spans = some handed → ∀ s ∈ handed, s.Within r.data
  agrees : spans.map (fun _ => after) = model

theorem callVarint_stays {r : Reader} (hr : Inside r) :
    ∃ spans after, callVarint r = ok (spans, after) ∧
      CallStays r (r.readVarint.map Prod.snd) spans after := by
  obtain ⟨value, after, hread, hstays, -⟩ := readVarint_stays hr
  rw [callVarint, hread, ok_bind, ← hstays.agrees]
  refine ⟨_, after, rfl, hstays.data, hstays.forward, hstays.inside, ?_, ?_⟩
  · intro handed h s hs
    rw [Option.map_eq_some_iff] at h
    obtain ⟨_, -, rfl⟩ := h
    cases hs
  · cases value <;> rfl

theorem callLengthDelim_stays {r : Reader} (hr : Inside r) :
    ∃ spans after, callLengthDelim r = ok (spans, after) ∧
      CallStays r (r.readLengthDelim.map Prod.snd) spans after := by
  obtain ⟨slice, after, hread, hstays, hwithin⟩ := readLengthDelim_stays hr
  rw [callLengthDelim, hread, ok_bind]
  refine ⟨_, after, rfl, hstays.data, hstays.forward, hstays.inside, ?_, ?_⟩
  · intro handed h s hs
    rw [Option.map_eq_some_iff] at h
    obtain ⟨t, ht, rfl⟩ := h
    rw [List.mem_singleton] at hs
    subst hs
    exact (hwithin s ht).1
  · have hagrees := congrArg (Option.map Prod.snd) hstays.agrees
    rw [Option.map_map, Option.map_map, Option.map_map] at hagrees
    rw [Option.map_map]
    exact hagrees

theorem passBytes_stays (n : Nat) {r : Reader} (hr : Inside r) :
    ∃ spans after, passBytes n r = ok (spans, after) ∧
      CallStays r (if r.remaining < n then none else some { r with pos := r.pos + n })
        spans after := by
  rw [passBytes, remaining_eq hr, ok_bind]
  by_cases hshort : r.remaining < n
  · refine ⟨none, r, if_pos hshort, rfl, Nat.le_refl _, hr.inside, ?_, (if_pos hshort).symm⟩
    intro handed h
    cases h
  · have hroom : r.pos + n ≤ r.data.length := by
      have hinside := hr.inside
      rw [Reader.remaining] at hshort
      omega
    rw [if_neg hshort, if_neg hshort, advance_eq hr hroom, ok_bind]
    refine ⟨_, _, rfl, rfl, Nat.le_add_right _ _, hroom, ?_, rfl⟩
    intro handed h s hs
    rw [Option.some.injEq] at h
    subst h
    cases hs

/-- **`SkipField`** on every wire type. -/
theorem skipField_stays (wire : WireType) {r : Reader} (hr : Inside r) :
    ∃ spans after, skipField wire r = ok (spans, after) ∧
      CallStays r (r.skipField wire) spans after := by
  unfold skipField Reader.skipField
  split
  · exact callVarint_stays hr
  split
  · exact passBytes_stays 8 hr
  split
  · exact callLengthDelim_stays hr
  split
  · exact passBytes_stays 4 hr
  refine ⟨none, r, rfl, rfl, Nat.le_refl _, hr.inside, ?_, rfl⟩
  intro handed h
  cases h

/-- Where the reader of the model stands after a call. -/
def Call.next (call : Call) (wire : WireType) (r : Reader) : Option Reader :=
  match call with
  | .readVarint => r.readVarint.map Prod.snd
  | .readLengthDelim => r.readLengthDelim.map Prod.snd
  | .readLengthDelimAndReturn => r.readLengthDelim.map Prod.snd
  | .skipField => r.skipField wire

theorem Call.run_stays (call : Call) (wire : WireType) {r : Reader} (hr : Inside r) :
    ∃ spans after, call.run wire r = ok (spans, after) ∧
      CallStays r (call.next wire r) spans after := by
  cases call with
  | readVarint => exact callVarint_stays hr
  | readLengthDelim => exact callLengthDelim_stays hr
  | readLengthDelimAndReturn => exact callLengthDelim_stays hr
  | skipField => exact skipField_stays wire hr

/-! ## The loops stay inside -/

/-- What holds of a loop from a reader on: it stays in the buffer, every round
begins behind the start of the one before, the last one included, and the
slices lie inside. -/
structure Log.Safe (log : Log) (r : Reader) : Prop where
  data : log.last.data = r.data
  inside : log.last.pos ≤ r.data.length
  starts : ∀ pos ∈ log.heads ++ [log.last.pos], r.pos ≤ pos
  advances : (log.heads ++ [log.last.pos]).Pairwise (· < ·)
  within : ∀ s ∈ log.spans, s.Within r.data

/-- A loop that enters no round. -/
theorem Log.Safe.rest {r : Reader} (hr : Inside r) (ending : Ending) :
    Log.Safe { ending := ending, last := r } r where
  data := rfl
  inside := hr.inside
  starts := by simp
  advances := by simp
  within := by simp

/-- A loop whose first round is its last. -/
theorem Log.Safe.once {r last : Reader} {spans : List Span} (ending : Ending)
    (hdata : last.data = r.data) (hforward : r.pos < last.pos)
    (hinside : last.pos ≤ r.data.length) (hwithin : ∀ s ∈ spans, s.Within r.data) :
    Log.Safe { heads := [r.pos], spans := spans, ending := ending, last := last } r where
  data := hdata
  inside := hinside
  starts := by
    intro pos hpos
    simp only [List.singleton_append, List.mem_cons, List.not_mem_nil, or_false] at hpos
    omega
  advances := by simpa using hforward
  within := hwithin

/-- A round before a loop that is safe. -/
theorem Log.Safe.cons {r next : Reader} {log : Log} {spans : List Span} (hsafe : log.Safe next)
    (hdata : next.data = r.data) (hforward : r.pos < next.pos)
    (hwithin : ∀ s ∈ spans, s.Within r.data) :
    Log.Safe { log with heads := r.pos :: log.heads, spans := spans ++ log.spans } r where
  data := hsafe.data.trans hdata
  inside := hdata ▸ hsafe.inside
  starts := by
    intro pos hpos
    rw [List.cons_append, List.mem_cons] at hpos
    cases hpos with
    | inl hhead => omega
    | inr hlater =>
        have hstarts := hsafe.starts pos hlater
        omega
  advances := by
    rw [List.cons_append, List.pairwise_cons]
    refine ⟨?_, hsafe.advances⟩
    intro pos hpos
    exact hforward.trans_le (hsafe.starts pos hpos)
  within := by
    intro s hs
    rw [List.mem_append] at hs
    cases hs with
    | inl hround => exact hwithin s hround
    | inr hlater => exact hdata ▸ hsafe.within s hlater

/-- **A loop stays inside**: by induction on the rounds it is given, and it
needs no more of them than there are bytes left. -/
theorem run_safe (p : Parser) (n : Nat) :
    ∀ (r : Reader), Inside r → ∃ log, run p n r = ok log ∧ log.Safe r ∧
      (r.data.length - r.pos ≤ n → log.ending ≠ .cut) := by
  induction n with
  | zero =>
      intro r hr
      refine ⟨_, rfl, .rest hr _, ?_⟩
      intro hleft
      have heof : r.eof = true := by
        rw [Reader.eof, decide_eq_true_eq]
        omega
      simp [heof]
  | succ n ih =>
      intro r hr
      rw [run]
      cases heof : r.eof with
      | true => exact ⟨_, rfl, .rest hr _, by simp⟩
      | false =>
          have hmore : r.pos < r.data.length := by
            rw [Reader.eof, decide_eq_false_iff_not] at heof
            omega
          obtain ⟨tag, behind, htag, hstays, htakes⟩ := readTag_stays hr hmore
          simp only [Bool.false_eq_true, if_false]
          rw [htag, ok_bind]
          cases tag with
          | none =>
              exact ⟨_, rfl, .once _ hstays.data htakes hstays.inside (by simp), by simp⟩
          | some found =>
              obtain ⟨field, wire⟩ := found
              obtain ⟨spans, after, hcall, hbody⟩ :=
                Call.run_stays (p.call field wire) wire (hstays.still hr)
              have hdata : after.data = r.data := hbody.data.trans hstays.data
              have hforward : r.pos < after.pos := htakes.trans_le hbody.forward
              have hinside : after.pos ≤ r.data.length := hstays.data ▸ hbody.inside
              simp only
              rw [hcall, ok_bind]
              cases spans with
              | none => exact ⟨_, rfl, .once _ hdata hforward hinside (by simp), by simp⟩
              | some handed =>
                  have hwithin : ∀ s ∈ handed, s.Within r.data :=
                    hstays.data ▸ hbody.within handed rfl
                  simp only
                  by_cases hreturn : p.call field wire = .readLengthDelimAndReturn
                  · rw [if_pos hreturn]
                    exact ⟨_, rfl, .once _ hdata hforward hinside hwithin, by simp⟩
                  · rw [if_neg hreturn]
                    have hafter : Inside after :=
                      ⟨hdata ▸ hr.fits, by rw [hdata]; exact hinside⟩
                    obtain ⟨log, hrun, hsafe, hends⟩ := ih after hafter
                    rw [hrun, ok_bind]
                    refine ⟨_, rfl, hsafe.cons hdata hforward hwithin, ?_⟩
                    intro hleft
                    apply hends
                    rw [hdata]
                    omega

/-- As many rounds as bytes: the starts of the rounds are different places of
the buffer. -/
theorem Log.Safe.rounds_le {log : Log} {r : Reader} (hsafe : log.Safe r) :
    log.heads.length ≤ r.data.length - r.pos := by
  have hnodup : log.heads.Nodup := by
    have hadvances := (List.pairwise_append.mp hsafe.advances).1
    exact hadvances.imp (fun hlt => Nat.ne_of_lt hlt)
  have hplaces : ∀ pos ∈ log.heads, pos ∈ List.range' r.pos (r.data.length - r.pos) := by
    intro pos hpos
    have hstart := hsafe.starts pos (List.mem_append_left _ hpos)
    have hlast :=
      (List.pairwise_append.mp hsafe.advances).2.2 pos hpos _ (List.mem_singleton_self _)
    have hinside := hsafe.inside
    rw [List.mem_range'_1]
    omega
  have hcount := hnodup.subperm hplaces |>.length_le
  rwa [List.length_range'] at hcount

/-! ## The same parsers -/

/-- The handler of a parser moves the reader as the parser's calls do. -/
structure Follows {α : Type} (p : Parser) (onField : OnField α) : Prop where
  atEnd : p.atEnd = true
  goesOn : ∀ field wire, p.call field wire ≠ .readLengthDelimAndReturn
  next : ∀ out field wire r,
    (onField out field wire r).map Prod.snd = (p.call field wire).next wire r

/-- How a loop ends that has a round before it. -/
theorem run_ending {p : Parser} {n : Nat} {r : Reader} {log : Log} (hr : Inside r)
    (heof : r.eof = false) (hrun : run p (n + 1) r = ok log) :
    (r.readTag = none ∧ log.ending = .returned false) ∨
    ∃ field wire behind, r.readTag = some (field, wire, behind) ∧
      (((p.call field wire).next wire behind = none ∧ log.ending = .returned false) ∨
      ∃ after, (p.call field wire).next wire behind = some after ∧
        ((p.call field wire = .readLengthDelimAndReturn ∧ log.ending = .returned true) ∨
        (p.call field wire ≠ .readLengthDelimAndReturn ∧ Inside after ∧
          ∃ rest, run p n after = ok rest ∧ rest.ending = log.ending))) := by
  have hmore : r.pos < r.data.length := by
    rw [Reader.eof, decide_eq_false_iff_not] at heof
    omega
  obtain ⟨tag, behind, htag, hstays, -⟩ := readTag_stays hr hmore
  have hagrees := hstays.agrees
  simp only [run, heof, Bool.false_eq_true, if_false] at hrun
  rw [htag, ok_bind] at hrun
  cases tag with
  | none =>
      rw [Option.map_none, eq_comm, Option.map_eq_none_iff] at hagrees
      rw [Outcome.ok.injEq] at hrun
      subst hrun
      exact .inl ⟨hagrees, rfl⟩
  | some found =>
      obtain ⟨field, wire⟩ := found
      have hread : r.readTag = some (field, wire, behind) := by
        rw [Option.map_some, eq_comm, Option.map_eq_some_iff] at hagrees
        obtain ⟨read, hread, heq⟩ := hagrees
        simp only [Prod.mk.injEq] at heq
        obtain ⟨⟨rfl, rfl⟩, rfl⟩ := heq
        exact hread
      have hbehind := hstays.still hr
      obtain ⟨spans, after, hcall, hbody⟩ := Call.run_stays (p.call field wire) wire hbehind
      refine .inr ⟨field, wire, behind, hread, ?_⟩
      simp only at hrun
      rw [hcall, ok_bind] at hrun
      rw [← hbody.agrees]
      cases spans with
      | none =>
          rw [Outcome.ok.injEq] at hrun
          subst hrun
          exact .inl ⟨rfl, rfl⟩
      | some handed =>
          refine .inr ⟨after, rfl, ?_⟩
          simp only at hrun
          by_cases hreturn : p.call field wire = .readLengthDelimAndReturn
          · rw [if_pos hreturn, Outcome.ok.injEq] at hrun
            subst hrun
            exact .inl ⟨hreturn, rfl⟩
          · have hafter : Inside after :=
              ⟨hbody.data ▸ hbehind.fits, by rw [hbody.data]; exact hbody.inside⟩
            obtain ⟨rest, hrest, -, -⟩ := run_safe p n after hafter
            rw [if_neg hreturn, hrest, ok_bind, Outcome.ok.injEq] at hrun
            subst hrun
            exact .inr ⟨hreturn, hafter, rest, hrest, rfl⟩

/-- **The checked loop accepts what the parser accepts**: by induction on the
rounds. -/
theorem run_follows {α : Type} {p : Parser} {onField : OnField α} (h : Follows p onField)
    (n : Nat) :
    ∀ (out : α) (r : Reader) (log : Log), Inside r → run p n r = ok log →
      (log.ending = .returned true ↔ (parseFields onField n out r).isSome) := by
  induction n with
  | zero =>
      intro out r log _ hrun
      rw [run, Outcome.ok.injEq] at hrun
      subst hrun
      rw [parseFields]
      cases r.eof <;> simp [h.atEnd]
  | succ n ih =>
      intro out r log hr hrun
      cases heof : r.eof with
      | true =>
          simp only [run, heof, if_true, Outcome.ok.injEq] at hrun
          subst hrun
          simp [parseFields, heof, h.atEnd]
      | false =>
          rw [parseFields_field heof]
          obtain ⟨htag, hending⟩ | ⟨field, wire, behind, htag, hround⟩ := run_ending hr heof hrun
          · simp [htag, hending]
          · have hnext := h.next out field wire behind
            rw [htag, Option.bind_some]
            obtain ⟨hfails, hending⟩ | ⟨after, hcall, hround⟩ := hround
            · rw [hfails, Option.map_eq_none_iff] at hnext
              simp [hnext, hending]
            · rw [hcall, Option.map_eq_some_iff] at hnext
              obtain ⟨stored, hstored, rfl⟩ := hnext
              obtain ⟨hreturn, -⟩ | ⟨-, hafter, rest, hrest, hending⟩ := hround
              · exact absurd hreturn (h.goesOn field wire)
              · rw [← hending]
                simp only [hstored, Option.bind_some]
                exact ih stored.1 stored.2 rest hafter hrest

/-- The same for the loop of `ExtractRelativePath`, which ends in a path. -/
theorem run_extractRelativePath (n : Nat) :
    ∀ (r : Reader) (log : Log), Inside r → run extractRelativePath n r = ok log →
      (log.ending = .returned true ↔ (extractRelativePathLoop n r).isSome) := by
  induction n with
  | zero =>
      intro r log _ hrun
      rw [run, Outcome.ok.injEq] at hrun
      subst hrun
      rw [extractRelativePathLoop]
      cases r.eof <;> simp [extractRelativePath]
  | succ n ih =>
      intro r log hr hrun
      cases heof : r.eof with
      | true =>
          simp only [run, heof, if_true, Outcome.ok.injEq] at hrun
          subst hrun
          simp [extractRelativePathLoop, heof, extractRelativePath]
      | false =>
          rw [extractRelativePathLoop, heof]
          simp only [Bool.false_eq_true, if_false]
          obtain ⟨htag, hending⟩ | ⟨field, wire, behind, htag, hround⟩ := run_ending hr heof hrun
          · simp [htag, hending]
          · simp only [htag]
            by_cases hpath : field = kFMFieldRelativePath ∧ wire = .lengthDelim
            · have hcalls : extractRelativePath.call field wire = .readLengthDelimAndReturn :=
                if_pos hpath
              rw [if_pos hpath]
              simp only [hcalls, Call.next] at hround
              obtain ⟨hfails, hending⟩ | ⟨after, hread, hround⟩ := hround
              · rw [Option.map_eq_none_iff] at hfails
                simp [hfails, hending]
              · rw [Option.map_eq_some_iff] at hread
                obtain ⟨read, hread, -⟩ := hread
                obtain ⟨-, hending⟩ | ⟨hgoes, -⟩ := hround
                · simp [hread, hending]
                · exact absurd rfl hgoes
            · have hcalls : extractRelativePath.call field wire = .skipField := if_neg hpath
              rw [if_neg hpath]
              simp only [hcalls, Call.next] at hround
              obtain ⟨hfails, hending⟩ | ⟨after, hskip, hround⟩ := hround
              · simp [hfails, hending]
              · obtain ⟨hreturn, -⟩ | ⟨-, hafter, rest, hrest, hending⟩ := hround
                · cases hreturn
                · simp only [hskip]
                  rw [← hending]
                  exact ih after rest hafter hrest

/-- A parser that knows fields of the two decoded wire types moves as skipping
does. -/
theorem decoder_next {known : List (UInt32 × WireType)}
    (hknown : ∀ e ∈ known, e.2 = .varint ∨ e.2 = .lengthDelim) (field : UInt32)
    (wire : WireType) (r : Reader) :
    ((decoder known).call field wire).next wire r = r.skipField wire := by
  simp only [decoder]
  by_cases hmem : (field, wire) ∈ known
  · rw [if_pos hmem]
    obtain hvarint | hslice := hknown _ hmem
    · simp only at hvarint
      subst hvarint
      rfl
    · simp only at hslice
      subst hslice
      rfl
  · rw [if_neg hmem]
    rfl

theorem decoder_goesOn (known : List (UInt32 × WireType)) (field : UInt32) (wire : WireType) :
    (decoder known).call field wire ≠ .readLengthDelimAndReturn := by
  simp only [decoder]
  split
  · split <;> simp
  · simp

theorem decoder_follows {α : Type} {onField : OnField α} {known : List (UInt32 × WireType)}
    (hknown : ∀ e ∈ known, e.2 = .varint ∨ e.2 = .lengthDelim)
    (hskip : ∀ out field wire r, (onField out field wire r).map Prod.snd = r.skipField wire) :
    Follows (decoder known) onField where
  atEnd := rfl
  goesOn := decoder_goesOn known
  next := by
    intro out field wire r
    rw [hskip, decoder_next hknown]

/-- The tables of the Windows parsers. -/
theorem dispatch_follows {α : Type} (table : List (Entry α)) :
    Follows (decoder (known table)) (dispatch table) := by
  apply decoder_follows
  · intro e he
    rw [known, List.mem_map] at he
    obtain ⟨entry, -, rfl⟩ := he
    cases entry with
    | varint number set => exact .inl rfl
    | slice number set => exact .inr rfl
  · intro out field wire r
    rw [dispatch_eq, skipField_eq, Option.map_map]
    rfl

theorem parseHelperMessage_follows : Follows parseHelperMessage helperMessageField :=
  dispatch_follows helperMessageTable

theorem parseClipboardData_follows : Follows parseClipboardData clipboardDataField :=
  dispatch_follows clipboardDataTable

theorem parseAnnouncement_follows : Follows parseAnnouncement announcementField :=
  dispatch_follows announcementTable

theorem parseFileMetadata_follows : Follows parseFileMetadataForVirtualFile fileMetadataField :=
  dispatch_follows FileMetadataReaders.fileMetadataTable

theorem parseProvideData_follows : Follows parseProvideData provideDataField :=
  dispatch_follows provideDataTable

theorem parseFileChunkRequest_follows : Follows parseFileChunkRequest fileChunkRequestField := by
  rw [fileChunkRequestField_eq]
  exact dispatch_follows fileChunkRequestTable

theorem parseFileChunkData_follows : Follows parseFileChunkData fileChunkDataField := by
  rw [fileChunkDataField_eq]
  exact dispatch_follows fileChunkDataTable

namespace Linux

theorem parseHelperMessage_follows :
    Follows parseHelperMessage LinuxCodec.helperMessageField :=
  decoder_follows (by decide) LinuxCodec.helperMessageField_snd

theorem parseClipboardData_follows :
    Follows parseClipboardData LinuxCodec.clipboardDataField :=
  decoder_follows (by decide) LinuxCodec.clipboardDataField_snd

theorem parseAnnouncement_follows :
    Follows parseAnnouncement LinuxCodec.announcementField :=
  decoder_follows (by decide) LinuxCodec.announcementField_snd

theorem parseProvideData_follows :
    Follows parseProvideData LinuxCodec.provideDataField :=
  decoder_follows (by decide) LinuxCodec.provideDataField_snd

end Linux

/-! ## Buffers inside buffers -/

/-- What arrives: a `std::vector`, whose size is a `std::size_t`. -/
structure Buffer where
  bytes : Bytes
  fits : bytes.length < 2 ^ 64

/-- The buffers that parsers get to see: the whole one, and the slices that a
loop over one of them has handed out. -/
inductive Reached (frame : Buffer) : Span → Prop
  | whole : Reached frame ⟨0, frame.bytes.length⟩
  | nested {s inner : Span} {p : Parser} {n : Nat} {log : Log} : Reached frame s →
      run p n ⟨s.bytes frame.bytes, 0⟩ = ok log → inner ∈ log.spans → Reached frame (s.sub inner)

theorem Span.length_bytes {s : Span} {frame : Bytes} (h : s.Within frame) :
    (s.bytes frame).length = s.length := by
  rw [Span.Within] at h
  rw [Span.bytes, List.length_take, List.length_drop]
  omega

/-- A reader at the start of a slice. -/
theorem Span.inside_bytes {s : Span} {frame : Buffer} (h : s.Within frame.bytes) :
    Inside ⟨s.bytes frame.bytes, 0⟩ where
  fits := by
    have hfits := frame.fits
    rw [Span.Within] at h
    simp only [Span.length_bytes h]
    omega
  inside := Nat.zero_le _

/-- **Nested slices lie in the outer buffer**: by induction on the nesting. -/
theorem Reached.within {frame : Buffer} {s : Span} (h : Reached frame s) :
    s.Within frame.bytes := by
  induction h with
  | whole => simp [Span.Within]
  | @nested s inner p n log _ hrun hinner ih =>
      obtain ⟨log', hrun', hsafe, -⟩ := run_safe p n _ (Span.inside_bytes ih)
      rw [hrun, Outcome.ok.injEq] at hrun'
      subst hrun'
      have hwithin := hsafe.within inner hinner
      simp only [Span.Within, Span.length_bytes ih] at hwithin ih
      simp only [Span.Within, Span.sub]
      omega

/-- **Parsers terminate and stay in bounds.**  On every buffer that a parser
gets to see, no check of the program fails, whatever the loop calls behind a
tag and however many rounds it is given; `pos_` is within `size_` at its
greatest, at the end; each round begins behind the one before, and so does the
end; the slices handed out lie in the buffer, as that lies in the outer one;
and the loop has ended after as many rounds as there are bytes. -/
theorem parsers_stay_in_bounds (p : Parser) {frame : Buffer} {s : Span}
    (hs : Reached frame s) (n : Nat) :
    ∃ log, run p n ⟨s.bytes frame.bytes, 0⟩ = ok log ∧
      log.last.data = s.bytes frame.bytes ∧ (s.bytes frame.bytes).length = s.length ∧
      log.last.pos ≤ s.length ∧
      (log.heads ++ [log.last.pos]).Pairwise (· < ·) ∧
      log.heads.length ≤ s.length ∧
      (∀ inner ∈ log.spans, inner.offset + inner.length ≤ s.length) ∧
      s.offset + s.length ≤ frame.bytes.length ∧
      (s.length ≤ n → log.ending ≠ .cut) := by
  have hwithin := hs.within
  have hlength := Span.length_bytes hwithin
  obtain ⟨log, hrun, hsafe, hends⟩ := run_safe p n _ (Span.inside_bytes hwithin)
  have hinside := hsafe.inside
  have hrounds := hsafe.rounds_le
  simp only [hlength, Nat.sub_zero] at hinside hrounds hends
  refine ⟨log, hrun, hsafe.data, hlength, hinside, hsafe.advances, hrounds, ?_, hwithin, hends⟩
  intro inner hinner
  have hslice := hsafe.within inner hinner
  simpa only [Span.Within, hlength] using hslice

/-- A message with a clipboard payload that has one file entry. -/
def entryFrame : Buffer := ⟨[0x12, 0x04, 0x22, 0x02, 0x0A, 0x00], by decide⟩

/-- The entry, two slices deep. -/
theorem entry_reached : Reached entryFrame ⟨4, 2⟩ := by
  have hpayload : Reached entryFrame ⟨2, 4⟩ :=
    @Reached.nested _ ⟨0, 6⟩ ⟨2, 4⟩ parseHelperMessage 6
      ⟨[0], [⟨2, 4⟩], .returned true, ⟨entryFrame.bytes, 6⟩⟩ .whole (by decide) (by decide)
  exact @Reached.nested _ ⟨2, 4⟩ ⟨2, 2⟩ parseClipboardData 4
    ⟨[0], [⟨2, 2⟩], .returned true, ⟨[0x22, 0x02, 0x0A, 0x00], 4⟩⟩ hpayload (by decide)
    (by decide)

theorem entry_stays_in_bounds :
    ∃ log, run parseFileMetadataForVirtualFile 2
        ⟨Span.bytes ⟨4, 2⟩ entryFrame.bytes, 0⟩ = ok log ∧
      log.last.data = Span.bytes ⟨4, 2⟩ entryFrame.bytes ∧
      (Span.bytes ⟨4, 2⟩ entryFrame.bytes).length = 2 ∧
      log.last.pos ≤ 2 ∧
      (log.heads ++ [log.last.pos]).Pairwise (· < ·) ∧
      log.heads.length ≤ 2 ∧
      (∀ inner ∈ log.spans, inner.offset + inner.length ≤ 2) ∧
      4 + 2 ≤ entryFrame.bytes.length ∧
      (2 ≤ 2 → log.ending ≠ .cut) :=
  parsers_stay_in_bounds parseFileMetadataForVirtualFile entry_reached 2

end ReaderBounds
