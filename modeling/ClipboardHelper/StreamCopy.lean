import ClipboardHelper.VirtualFileStream

/-!
# Copying a virtual file into another stream

`VirtualFileStream::CopyTo` reads pieces of at most 256 KiB and writes each
to the destination.  It counts what it has read and what the destination has
accepted, and stores both counts on its last line.

The provider and the destination are functions of the number of the round,
which covers every history they may have: a chunk may be short or missing,
and a write may fail or accept less than it is given.

**`copyTo_accounted_iff`**: the counts agree with what has happened, and
`S_OK` means that everything was copied, exactly if every piece goes through
or the very first read fails.  The two `return` statements inside the loop
leave both counts at zero, and a piece that was accepted in part is not
written again.
-/

namespace VirtualFileStream

open Library

/-- What a `Write` of the destination comes back with. -/
structure Accepted where
  hr : HResult
  count : UInt32
deriving DecidableEq, Repr

/-- What `CopyTo` comes back with: its result and what it has stored through
`pcbRead` and `pcbWritten`. -/
structure CopyResult where
  hr : HResult
  pcbRead : Option UInt64 := none
  pcbWritten : Option UInt64 := none
deriving DecidableEq, Repr

def kChunk : UInt32 := 262144

/-- The size of the next piece. -/
def takeSize (remaining : UInt64) : UInt32 := (min remaining kChunk.toUInt64).toUInt32

theorem toNat_takeSize (remaining : UInt64) :
    (takeSize remaining).toNat = min remaining.toNat 262144 :=
  toNat_toUInt32_min remaining kChunk

namespace Stream

/-- `Read` reports no more than it was asked for. -/
theorem pcbRead_read_le (s : Stream) (cb : UInt32) (fetchChunk : UInt64 → UInt32 → Fetched) :
    ((s.read true cb fetchChunk).2.pcbRead.getD 0).toNat ≤ cb.toNat := by
  have hzero : (0 : UInt32).toNat = 0 := rfl
  cases hreading : s.reading with
  | false =>
      have hread := reads_read hreading cb fetchChunk
      generalize s.read true cb fetchChunk = r at hread ⊢
      cases hread with
      | nothing | atEnd | refused =>
          simp only [Option.getD_some, hzero]
          omega
      | @got n pos hr hcb hn hinside hsome hlength hpos hhr =>
          have hlt := cb.toNat_lt
          have hfits : n < 2 ^ 32 := by omega
          rw [Option.getD_some, UInt32.toNat_ofNat_of_lt' hfits]
          exact hcb
  | true =>
      have hreturns : ∃ r, s.enterRead true cb = .returns r ∧ r.pcbRead.getD 0 = 0 := by
        simp only [enterRead, hreading, if_true]
        (repeat' split) <;> exact ⟨_, rfl, rfl⟩
      obtain ⟨r, henter, hnone⟩ := hreturns
      simp only [read, henter, hnone, hzero]
      omega

section

variable (fetchChunk : Nat → UInt64 → UInt32 → Fetched) (write : Nat → Bytes → Accepted)

/-- The loop of `CopyTo`, from its `i`-th round on.  `received` is what the
destination has accepted. -/
def copyLoop (i : Nat) (s : Stream) (remaining totalRead totalWritten : UInt64)
    (received : Bytes) : Stream × CopyResult × Bytes :=
  if remaining = 0 then (s, ⟨sOk, some totalRead, some totalWritten⟩, received)
  else
    let read := s.read true (takeSize remaining) (fetchChunk i)
    let got := read.2.pcbRead.getD 0
    if failed read.2.hr then (read.1, ⟨read.2.hr, some 0, some 0⟩, received)
    else if _hgot : got = 0 then (read.1, ⟨sOk, some totalRead, some totalWritten⟩, received)
    else
      let accepted := write i read.2.written
      let received := received ++ read.2.written.take accepted.count.toNat
      if failed accepted.hr then (read.1, ⟨accepted.hr, some 0, some 0⟩, received)
      else
        copyLoop (i + 1) read.1 (remaining - got.toUInt64) (totalRead + got.toUInt64)
          (totalWritten + accepted.count.toUInt64) received
termination_by remaining.toNat
decreasing_by
  have hle : got.toNat ≤ (takeSize remaining).toNat :=
    pcbRead_read_le s (takeSize remaining) (fetchChunk i)
  rw [toNat_takeSize] at hle
  have hpos : 0 < got.toNat := by
    by_contra hzero
    exact _hgot (UInt32.toNat_inj.mp (by simpa using hzero))
  have hsub : (remaining - got.toUInt64).toNat = remaining.toNat - got.toNat := by
    have hmin : got.toUInt64 ≤ remaining := by
      rw [UInt64.le_iff_toNat_le, UInt32.toNat_toUInt64]
      omega
    rw [UInt64.toNat_sub_of_le _ _ hmin, UInt32.toNat_toUInt64]
  show (remaining - got.toUInt64).toNat < remaining.toNat
  omega

/-- `CopyTo`; `pstm` is whether there is a destination. -/
def copyTo (s : Stream) (pstm : Bool) (cb : UInt64) : Stream × CopyResult × Bytes :=
  if !pstm then (s, { hr := stgEInvalidPointer }, [])
  else copyLoop fetchChunk write 0 s cb 0 0 []

end

end Stream

/-! ## Pieces -/

section

variable (fetchChunk : Nat → UInt64 → UInt32 → Fetched) (write : Nat → Bytes → Accepted)

/-- What the provider says in the `i`-th round to a copy that stands at the
position of `s`. -/
def answerAt (i : Nat) (s : Stream) (remaining : UInt64) : Fetched :=
  fetchChunk i s.pos (s.want (takeSize remaining))

/-- The bytes of that answer that were asked for. -/
def pieceAt (i : Nat) (s : Stream) (remaining : UInt64) : Bytes :=
  (answerAt fetchChunk i s remaining).chunk.take (s.want (takeSize remaining)).toNat

/-- A piece comes in the `i`-th round; it leads to `pos`, and `left` bytes
remain after it. -/
structure Piece (i : Nat) (s : Stream) (remaining pos left : UInt64) : Prop where
  comes : ¬ (answerAt fetchChunk i s remaining).NoBytes
  nonempty : 0 < (pieceAt fetchChunk i s remaining).length
  moves : pos.toNat = s.pos.toNat + (pieceAt fetchChunk i s remaining).length
  inside : pos.toNat ≤ s.size.toNat
  left : left.toNat + (pieceAt fetchChunk i s remaining).length = remaining.toNat

/-- From the `i`-th round on, every piece comes and is accepted whole, until
nothing remains or the file ends. -/
inductive GoesThrough : Nat → Stream → UInt64 → Prop
  | done {i : Nat} {s : Stream} : GoesThrough i s 0
  | fileEnd {i : Nat} {s : Stream} {remaining : UInt64} (hend : s.size.toNat ≤ s.pos.toNat) :
      GoesThrough i s remaining
  | piece {i : Nat} {s : Stream} {remaining pos left : UInt64}
      (hpiece : Piece fetchChunk i s remaining pos left)
      (hok : failed (write i (pieceAt fetchChunk i s remaining)).hr = false)
      (hwhole : (write i (pieceAt fetchChunk i s remaining)).count.toNat =
        (pieceAt fetchChunk i s remaining).length)
      (rest : GoesThrough (i + 1) { s with pos := pos } left) : GoesThrough i s remaining

/-- The first read is asked for bytes and fails. -/
def FirstReadFails (s : Stream) (cb : UInt64) : Prop :=
  0 < cb.toNat ∧ s.pos.toNat < s.size.toNat ∧
    (s.reading = true ∨ (answerAt fetchChunk 0 s cb).NoBytes)

/-- What the loop can do from its `i`-th round on: it ends at the stream `s'`,
in order or with an error, after the source has moved by `moved` bytes and the
destination has accepted `bytes`. -/
inductive Copies : Nat → Stream → UInt64 → Stream → Option HResult → Nat → Bytes → Prop
  | done {i : Nat} {s : Stream} : Copies i s 0 s none 0 []
  | fileEnd {i : Nat} {s : Stream} {remaining : UInt64} (hremaining : 0 < remaining.toNat)
      (hend : s.size.toNat ≤ s.pos.toNat) : Copies i s remaining s none 0 []
  | readFails {i : Nat} {s : Stream} {remaining : UInt64} {hr : HResult}
      (hremaining : 0 < remaining.toNat) (hinside : s.pos.toNat < s.size.toNat)
      (hnone : (answerAt fetchChunk i s remaining).NoBytes) (hfailed : failed hr = true) :
      Copies i s remaining s (some hr) 0 []
  | writeFails {i : Nat} {s : Stream} {remaining pos left : UInt64}
      (hpiece : Piece fetchChunk i s remaining pos left)
      (hfailed : failed (write i (pieceAt fetchChunk i s remaining)).hr = true) :
      Copies i s remaining { s with pos := pos }
        (some (write i (pieceAt fetchChunk i s remaining)).hr)
        (pieceAt fetchChunk i s remaining).length
        ((pieceAt fetchChunk i s remaining).take
          (write i (pieceAt fetchChunk i s remaining)).count.toNat)
  | piece {i : Nat} {s s' : Stream} {remaining pos left : UInt64} {ending : Option HResult}
      {moved : Nat} {bytes : Bytes} (hpiece : Piece fetchChunk i s remaining pos left)
      (hok : failed (write i (pieceAt fetchChunk i s remaining)).hr = false)
      (rest : Copies (i + 1) { s with pos := pos } left s' ending moved bytes) :
      Copies i s remaining s' ending ((pieceAt fetchChunk i s remaining).length + moved)
        ((pieceAt fetchChunk i s remaining).take
          (write i (pieceAt fetchChunk i s remaining)).count.toNat ++ bytes)

end

section

variable {fetchChunk : Nat → UInt64 → UInt32 → Fetched} {write : Nat → Bytes → Accepted}
  {content bytes : Bytes} {i moved : Nat} {s s' : Stream} {remaining : UInt64}
  {ending : Option HResult}

/-- The source moves by `moved`, not past the end of the file, -/
theorem Copies.pos (h : Copies fetchChunk write i s remaining s' ending moved bytes) :
    s'.pos.toNat = s.pos.toNat + moved ∧ s'.pos.toNat ≤ max s.pos.toNat s.size.toNat ∧
      moved ≤ remaining.toNat := by
  induction h with
  | done | fileEnd | readFails => exact ⟨rfl, Nat.le_max_left _ _, Nat.zero_le _⟩
  | writeFails hpiece =>
      have hleft := hpiece.left
      exact ⟨hpiece.moves, le_max_of_le_right hpiece.inside, by omega⟩
  | piece hpiece hok rest ih =>
      obtain ⟨hpos, hend, hbound⟩ := ih
      have hfirst := hpiece.moves
      have hinside := hpiece.inside
      have hleft := hpiece.left
      simp only at hpos hend
      exact ⟨by omega, by omega, by omega⟩

/-- and a loop that ends in order has moved as far as it was to. -/
theorem Copies.moved_eq (h : Copies fetchChunk write i s remaining s' none moved bytes) :
    moved = min remaining.toNat (s.size.toNat - s.pos.toNat) := by
  generalize hending : (none : Option HResult) = ending at h
  induction h with
  | done => simp
  | fileEnd hremaining hend => omega
  | readFails | writeFails => cases hending
  | piece hpiece hok rest ih =>
      have hfirst := hpiece.moves
      have hinside := hpiece.inside
      have hleft := hpiece.left
      have hrest := ih hending
      simp only at hrest
      omega

theorem Copies.length_le (h : Copies fetchChunk write i s remaining s' ending moved bytes) :
    bytes.length ≤ moved := by
  induction h with
  | done | fileEnd | readFails => exact Nat.le_refl _
  | writeFails => exact List.length_take_le' _ _
  | @piece i s s' remaining pos left ending moved bytes hpiece hok rest ih =>
      have hfirst : ((pieceAt fetchChunk i s remaining).take
          (write i (pieceAt fetchChunk i s remaining)).count.toNat).length ≤
          (pieceAt fetchChunk i s remaining).length := List.length_take_le' _ _
      rw [List.length_append]
      omega

/-- A destination does not accept more than it is given. -/
def Modest (write : Nat → Bytes → Accepted) : Prop :=
  ∀ i bytes, (write i bytes).count.toNat ≤ bytes.length

theorem Modest.length_take (hwrite : Modest write) (i : Nat) (bytes : Bytes) :
    (bytes.take (write i bytes).count.toNat).length = (write i bytes).count.toNat := by
  rw [List.length_take, Nat.min_eq_left (hwrite i bytes)]

/-- A copy in which a read fails does not go through, -/
theorem not_goesThrough_of_noBytes (hremaining : 0 < remaining.toNat)
    (hinside : s.pos.toNat < s.size.toNat) (hnone : (answerAt fetchChunk i s remaining).NoBytes) :
    ¬ GoesThrough fetchChunk write i s remaining := by
  intro hthrough
  cases hthrough with
  | done => exact absurd hremaining (Nat.lt_irrefl 0)
  | fileEnd hend => omega
  | piece hpiece => exact hpiece.comes hnone

/-- and one that has a piece to copy goes through if the piece is accepted
whole and the rest goes through. -/
theorem goesThrough_piece_iff {pos left : UInt64}
    (hpiece : Piece fetchChunk i s remaining pos left) :
    GoesThrough fetchChunk write i s remaining ↔
      failed (write i (pieceAt fetchChunk i s remaining)).hr = false ∧
      (write i (pieceAt fetchChunk i s remaining)).count.toNat =
        (pieceAt fetchChunk i s remaining).length ∧
      GoesThrough fetchChunk write (i + 1) { s with pos := pos } left := by
  have hnonempty := hpiece.nonempty
  have hmoves := hpiece.moves
  have hleft := hpiece.left
  have hinside := hpiece.inside
  constructor
  · intro hthrough
    cases hthrough with
    | done =>
        have hzero : (0 : UInt64).toNat = 0 := rfl
        omega
    | fileEnd hend => omega
    | @piece _ _ _ pos' left' hpiece' hok hwhole rest =>
        have hpos : pos' = pos := UInt64.toNat_inj.mp (by rw [hpiece'.moves, hmoves])
        have hsame : left' = left := by
          have hleft' := hpiece'.left
          exact UInt64.toNat_inj.mp (by omega)
        subst hpos hsame
        exact ⟨hok, hwhole, rest⟩
  · rintro ⟨hok, hwhole, rest⟩
    exact .piece hpiece hok hwhole rest

/-- **Everything goes through** exactly when the loop ends in order and the
destination has accepted as much as the source has moved. -/
theorem Copies.goesThrough_iff (hwrite : Modest write)
    (h : Copies fetchChunk write i s remaining s' ending moved bytes) :
    GoesThrough fetchChunk write i s remaining ↔ ending = none ∧ bytes.length = moved := by
  induction h with
  | done =>
      simp only [List.length_nil, and_self, iff_true]
      exact .done
  | fileEnd hremaining hend =>
      simp only [List.length_nil, and_self, iff_true]
      exact .fileEnd hend
  | readFails hremaining hinside hnone hfailed =>
      simp only [reduceCtorEq, false_and, iff_false]
      exact not_goesThrough_of_noBytes hremaining hinside hnone
  | writeFails hpiece hfailed =>
      simp [goesThrough_piece_iff hpiece, hfailed]
  | @piece i s s' remaining pos left ending moved bytes hpiece hok rest ih =>
      have hle := rest.length_le
      have haccepted := hwrite i (pieceAt fetchChunk i s remaining)
      rw [goesThrough_piece_iff hpiece, ih, List.length_append, hwrite.length_take]
      constructor
      · rintro ⟨-, hwhole, hending, hlength⟩
        exact ⟨hending, by omega⟩
      · rintro ⟨hending, hlength⟩
        exact ⟨hok, by omega, hending, by omega⟩

/-- The bytes that `Read` writes are those of the piece. -/
theorem take_eq_pieceAt (fetchChunk : Nat → UInt64 → UInt32 → Fetched) (i : Nat) (s : Stream)
    (remaining : UInt64) {n : Nat} (hn : n = min (answerAt fetchChunk i s remaining).chunk.length
      (s.want (takeSize remaining)).toNat) :
    (answerAt fetchChunk i s remaining).chunk.take n = pieceAt fetchChunk i s remaining ∧
      (pieceAt fetchChunk i s remaining).length = n := by
  constructor
  · rw [hn, Nat.min_comm, ← List.take_eq_take_min]
    rfl
  · rw [pieceAt, List.length_take, hn, Nat.min_comm]

/-- A piece is a stretch of the file. -/
theorem Piece.eq_segment {pos left : UInt64} (hhonest : ∀ i, HonestProvider content (fetchChunk i))
    (hpiece : Piece fetchChunk i s remaining pos left) :
    pieceAt fetchChunk i s remaining =
      segment content s.pos.toNat (s.pos.toNat + (pieceAt fetchChunk i s remaining).length) := by
  obtain ⟨htake, hlength⟩ := take_eq_pieceAt fetchChunk i s remaining rfl
  rw [hlength, ← htake]
  exact Stream.take_honest (hhonest i _ _) hpiece.comes rfl

/-- What the destination has accepted, if it is as much as the source has
moved, is that part of the file. -/
theorem Copies.exact (hhonest : ∀ i, HonestProvider content (fetchChunk i))
    (h : Copies fetchChunk write i s remaining s' ending moved bytes)
    (hlength : bytes.length = moved) :
    bytes = segment content s.pos.toNat (s.pos.toNat + moved) := by
  induction h with
  | done | fileEnd | readFails => simp
  | @writeFails i s remaining pos left hpiece hfailed =>
      rw [List.length_take] at hlength
      rw [List.take_of_length_le (by omega)]
      exact hpiece.eq_segment hhonest
  | @piece i s s' remaining pos left ending moved bytes hpiece hok rest ih =>
      have hle := rest.length_le
      rw [List.length_append, List.length_take] at hlength
      have hrest := ih (by omega)
      simp only [hpiece.moves] at hrest
      rw [List.take_of_length_le (by omega), hrest, ← Nat.add_assoc]
      refine (congrArg (· ++ _) (hpiece.eq_segment hhonest)).trans ?_
      exact segment_append content (Nat.le_add_right _ _) (Nat.le_add_right _ _)

/-! ## The loop -/

/-- What `CopyTo` stores at the end of the loop. -/
def storedCounts (totalRead totalWritten : UInt64) (moved accepted : Nat) :
    Option HResult → CopyResult
  | none => ⟨sOk, some (totalRead + UInt64.ofNat moved),
      some (totalWritten + UInt64.ofNat accepted)⟩
  | some hr => ⟨hr, some 0, some 0⟩

/-- **The loop copies**, and stores its counts if it ends in order. -/
theorem copyLoop_copies (hwrite : Modest write) (hidle : s.reading = false) (i : Nat)
    (remaining totalRead totalWritten : UInt64) (received : Bytes) :
    ∃ s' ending moved bytes, Copies fetchChunk write i s remaining s' ending moved bytes ∧
      Stream.copyLoop fetchChunk write i s remaining totalRead totalWritten received =
        (s', storedCounts totalRead totalWritten moved bytes.length ending, received ++ bytes) := by
  induction h : remaining.toNat using Nat.strong_induction_on
    generalizing i s remaining totalRead totalWritten received with
  | _ n ih =>
    rw [Stream.copyLoop]
    by_cases hzero : remaining = 0
    · subst hzero
      refine ⟨s, none, 0, [], .done, ?_⟩
      simp [storedCounts]
    have hremaining : 0 < remaining.toNat := by
      by_contra hle
      exact hzero (UInt64.toNat_inj.mp (by simpa using hle))
    have htake := toNat_takeSize remaining
    have hread := Stream.reads_read hidle (takeSize remaining) (fetchChunk i)
    simp only [if_neg hzero]
    generalize s.read true (takeSize remaining) (fetchChunk i) = r at hread ⊢
    cases hread with
    | nothing hcb => omega
    | atEnd hcb hend =>
        refine ⟨s, none, 0, [], .fileEnd hremaining hend, ?_⟩
        simp [storedCounts, failed, sFalse]
    | @refused hr hcb hinside hnone hfailed =>
        refine ⟨s, some hr, 0, [], .readFails hremaining hinside hnone hfailed, ?_⟩
        simp [storedCounts, hfailed]
    | @got n pos hr hcb hn hinside hsome hlength hpos hhr =>
        obtain ⟨hwritten, hpieceLength⟩ := take_eq_pieceAt fetchChunk i s remaining hlength
        have hok : failed hr = false := by
          rw [hhr]
          split <;> rfl
        have hfits : n < 2 ^ 32 := by omega
        have hgot : (UInt32.ofNat n).toNat = n := UInt32.toNat_ofNat_of_lt' hfits
        have hne : UInt32.ofNat n ≠ 0 := by
          intro hz
          rw [hz] at hgot
          exact absurd hgot (Nat.ne_of_lt hn)
        have hread : (UInt32.ofNat n).toUInt64 = UInt64.ofNat n := toUInt64_ofNat hfits
        have hleft : (remaining - (UInt32.ofNat n).toUInt64).toNat + n = remaining.toNat := by
          rw [hread]
          exact toNat_sub_ofNat (by omega)
        have hpiece : Piece fetchChunk i s remaining pos (remaining - (UInt32.ofNat n).toUInt64) :=
          ⟨hsome, by omega, by omega, by omega, by omega⟩
        have hchunk : (fetchChunk i s.pos (s.want (takeSize remaining))).chunk.take n =
            pieceAt fetchChunk i s remaining := hwritten
        simp only [hok, Bool.false_eq_true, if_false, Option.getD_some, hne, dif_neg,
          not_false_eq_true, hchunk]
        cases hwrites : failed (write i (pieceAt fetchChunk i s remaining)).hr with
        | true =>
            refine ⟨_, _, _, _, .writeFails hpiece hwrites, ?_⟩
            simp [storedCounts]
        | false =>
            obtain ⟨s', ending, moved, bytes, hcopies, hloop⟩ :=
              ih _ (by omega) (s := { s with pos := pos }) hidle (i + 1)
                (remaining - (UInt32.ofNat n).toUInt64)
                (totalRead + (UInt32.ofNat n).toUInt64)
                (totalWritten +
                  (write i (pieceAt fetchChunk i s remaining)).count.toUInt64)
                (received ++ (pieceAt fetchChunk i s remaining).take
                  (write i (pieceAt fetchChunk i s remaining)).count.toNat) rfl
            refine ⟨s', ending, _, _, .piece hpiece hwrites hcopies, ?_⟩
            simp only [Bool.false_eq_true, if_false]
            rw [hloop, List.append_assoc]
            have hcount : (write i (pieceAt fetchChunk i s remaining)).count.toUInt64 =
                UInt64.ofNat (write i (pieceAt fetchChunk i s remaining)).count.toNat :=
              UInt64.toNat_inj.mp (by simp)
            cases ending with
            | none =>
                simp only [storedCounts, hread, hcount, List.length_append, hwrite.length_take,
                  hpieceLength, UInt64.ofNat_add, UInt64.add_assoc]
            | some hr' => rfl

/-! ## Accounting -/

/-- The counts are what has happened: how far the source has moved and how
many bytes the destination has accepted; and `S_OK` means that these are the
bytes of the source, `cb` of them or as many as there are. -/
structure Accounted (content : Bytes) (s : Stream) (cb : UInt64)
    (out : Stream × CopyResult × Bytes) : Prop where
  read : ∃ n : UInt64, out.2.1.pcbRead = some n ∧ out.1.pos.toNat = s.pos.toNat + n.toNat
  written : ∃ n : UInt64, out.2.1.pcbWritten = some n ∧ out.2.2.length = n.toNat
  copied : out.2.1.hr = sOk →
    out.2.2 = segment content s.pos.toNat (min (s.pos.toNat + cb.toNat) content.length)

/-- A loop that ends in order has accounted for its bytes if the destination
has accepted them all, -/
theorem Copies.accounted_iff (hsize : s.size.toNat = content.length)
    (hhonest : ∀ i, HonestProvider content (fetchChunk i)) {cb : UInt64}
    (h : Copies fetchChunk write 0 s cb s' none moved bytes) :
    Accounted content s cb (s', storedCounts 0 0 moved bytes.length none, bytes) ↔
      bytes.length = moved := by
  obtain ⟨hpos, -, hbound⟩ := h.pos
  have hmoved := h.moved_eq
  have hlength := h.length_le
  have hcb := cb.toNat_lt
  have hnat : ∀ n, n ≤ cb.toNat → (0 + UInt64.ofNat n : UInt64).toNat = n := by
    intro n hn
    have hfits : n < 2 ^ 64 := by omega
    rw [UInt64.zero_add, UInt64.toNat_ofNat_of_lt' hfits]
  -- where the copied stretch ends
  have hstretch : segment content s.pos.toNat (min (s.pos.toNat + cb.toNat) content.length) =
      segment content s.pos.toNat (s.pos.toNat + moved) := by
    by_cases hinside : s.pos.toNat ≤ content.length
    · congr 1
      omega
    · rw [segment_of_le content (by omega), segment_of_le content (by omega)]
  constructor
  · intro haccounted
    have hcopied := haccounted.copied rfl
    simp only [hstretch] at hcopied
    rw [hcopied]
    by_cases hinside : s.pos.toNat ≤ content.length
    · rw [length_segment content (by omega)]
      omega
    · rw [segment_of_le content (by omega), List.length_nil]
      omega
  · intro hall
    refine ⟨⟨_, rfl, ?_⟩, ⟨_, rfl, ?_⟩, ?_⟩
    · rw [hnat moved hbound]
      exact hpos
    · rw [hnat bytes.length (by omega)]
    · intro _
      simp only [hstretch]
      exact h.exact hhonest hall

/-- and one that does not, if it has not moved. -/
theorem Copies.accounted_of_error {hr : HResult} {cb : UInt64} (hfailed : failed hr = true)
    (h : Copies fetchChunk write 0 s cb s' (some hr) moved bytes) :
    Accounted content s cb (s', storedCounts 0 0 moved bytes.length (some hr), bytes) ↔
      moved = 0 := by
  obtain ⟨hpos, -, -⟩ := h.pos
  have hlength := h.length_le
  constructor
  · intro haccounted
    obtain ⟨n, hn, hread⟩ := haccounted.read
    cases hn
    have hzero : (0 : UInt64).toNat = 0 := rfl
    simp only at hread
    omega
  · rintro rfl
    refine ⟨⟨0, rfl, hpos⟩, ⟨0, rfl, ?_⟩, ?_⟩
    · exact Nat.le_zero.mp hlength
    · rintro rfl
      cases hfailed

theorem Copies.failed_of_some {hr : HResult} {cb : UInt64} {i : Nat}
    (h : Copies fetchChunk write i s cb s' (some hr) moved bytes) : failed hr = true := by
  generalize hending : some hr = ending at h
  induction h with
  | done | fileEnd => cases hending
  | readFails _ _ _ hfailed | writeFails _ hfailed =>
      cases hending
      exact hfailed
  | piece _ _ _ ih => exact ih hending

/-- A copy that begins with an error has failed in its first read. -/
theorem Copies.firstReadFails_iff (hidle : s.reading = false) {cb : UInt64}
    (h : Copies fetchChunk write 0 s cb s' ending moved bytes) :
    FirstReadFails fetchChunk s cb ↔ moved = 0 ∧ ∃ hr, ending = some hr := by
  have hzero : (0 : UInt64).toNat = 0 := rfl
  constructor
  · rintro ⟨hcb, hinside, hwhy⟩
    have hnone : (answerAt fetchChunk 0 s cb).NoBytes := by
      refine hwhy.resolve_left ?_
      rw [hidle]
      simp
    cases h with
    | done => omega
    | fileEnd _ hend => omega
    | readFails => exact ⟨rfl, _, rfl⟩
    | writeFails hpiece | piece hpiece => exact absurd hnone hpiece.comes
  · rintro ⟨hmoved, hr, hending⟩
    cases h with
    | done | fileEnd => cases hending
    | readFails hremaining hinside hnone => exact ⟨hremaining, hinside, Or.inr hnone⟩
    | writeFails hpiece | piece hpiece =>
        have hnonempty := hpiece.nonempty
        omega

/-- Inside a `Read` of the same stream `CopyTo` gets nowhere, and says so. -/
theorem copyLoop_reading (fetchChunk : Nat → UInt64 → UInt32 → Fetched)
    (write : Nat → Bytes → Accepted) (hreading : s.reading = true) (cb : UInt64) :
    ∃ hr, Stream.copyLoop fetchChunk write 0 s cb 0 0 [] = (s, ⟨hr, some 0, some 0⟩, []) ∧
      (hr = sOk ∧ (cb = 0 ∨ s.size ≤ s.pos) ∨
        hr = stgEInUse ∧ FirstReadFails fetchChunk s cb) := by
  rw [Stream.copyLoop]
  by_cases hzero : cb = 0
  · exact ⟨sOk, by rw [if_pos hzero], Or.inl ⟨rfl, Or.inl hzero⟩⟩
  have hcb : 0 < cb.toNat := by
    by_contra hle
    exact hzero (UInt64.toNat_inj.mp (by simpa using hle))
  have htake := toNat_takeSize cb
  have hne : takeSize cb ≠ 0 := by
    intro hz
    rw [hz] at htake
    have hzeroNat : (0 : UInt32).toNat = 0 := rfl
    omega
  simp only [if_neg hzero]
  by_cases hend : s.size ≤ s.pos
  · refine ⟨sOk, ?_, Or.inl ⟨rfl, Or.inr hend⟩⟩
    simp [Stream.read, Stream.enterRead, hne, hend, failed, sFalse]
  · refine ⟨stgEInUse, ?_, Or.inr ⟨rfl, hcb, ?_, Or.inl hreading⟩⟩
    · simp [Stream.read, Stream.enterRead, hne, hend, hreading, failed, stgEInUse]
    · exact UInt64.lt_iff_toNat_lt.mp (UInt64.not_le.mp hend)

/-- **CopyTo accounts for what it does** exactly if every piece comes and is
accepted whole, or the first read fails. -/
theorem copyTo_accounted_iff (hsize : s.size.toNat = content.length)
    (hhonest : ∀ i, HonestProvider content (fetchChunk i)) (hwrite : Modest write)
    (cb : UInt64) :
    Accounted content s cb (s.copyTo fetchChunk write true cb) ↔
      FirstReadFails fetchChunk s cb ∨ GoesThrough fetchChunk write 0 s cb := by
  unfold Stream.copyTo
  simp only [Bool.not_true, Bool.false_eq_true, if_false]
  cases hreading : s.reading with
  | true =>
      obtain ⟨hr, hloop, hwhy⟩ := copyLoop_reading fetchChunk write hreading cb
      have hcounts : ∃ n : UInt64, some (0 : UInt64) = some n ∧
          s.pos.toNat = s.pos.toNat + n.toNat := ⟨0, rfl, rfl⟩
      rw [hloop]
      rcases hwhy with ⟨rfl, hnothing⟩ | ⟨rfl, hfails⟩
      · have hthrough : GoesThrough fetchChunk write 0 s cb := by
          rcases hnothing with rfl | hend
          · exact .done
          · exact .fileEnd (UInt64.le_iff_toNat_le.mp hend)
        refine ⟨fun _ => Or.inr hthrough, fun _ => ⟨hcounts, ⟨0, rfl, rfl⟩, fun _ => ?_⟩⟩
        rcases hnothing with rfl | hend
        · exact (segment_of_ge content (Nat.min_le_left _ _)).symm
        · have hle := UInt64.le_iff_toNat_le.mp hend
          exact (segment_of_le content (by omega)).symm
      · refine ⟨fun _ => Or.inl hfails, fun _ => ⟨hcounts, ⟨0, rfl, rfl⟩, fun hok => ?_⟩⟩
        cases hok
  | false =>
      obtain ⟨s', ending, moved, bytes, hcopies, hloop⟩ :=
        copyLoop_copies hwrite hreading 0 cb 0 0 []
      rw [hloop, List.nil_append, hcopies.goesThrough_iff hwrite,
        hcopies.firstReadFails_iff hreading]
      cases ending with
      | none =>
          rw [hcopies.accounted_iff hsize hhonest]
          simp
      | some hr =>
          rw [hcopies.accounted_of_error hcopies.failed_of_some]
          simp

end

/-- A destination that takes everything, and one that takes one byte of each
piece. -/
def takesAll : Nat → Bytes → Accepted :=
  fun _ bytes => { hr := sOk, count := UInt32.ofNat (bytes.length % 2 ^ 32) }
def takesOne : Nat → Bytes → Accepted :=
  fun _ bytes => { hr := sOk, count := if bytes = [] then 0 else 1 }

theorem takesAll_modest : Modest takesAll := by
  intro i bytes
  have hlt : bytes.length % 2 ^ 32 < 2 ^ 32 := Nat.mod_lt _ (by decide)
  rw [takesAll, UInt32.toNat_ofNat_of_lt' hlt]
  exact Nat.mod_le _ _

/-- Two of the three bytes of a file, in chunks of one byte. -/
theorem copyTo_accounted_two_bytes :
    (threeByteStream.copyTo (fun _ => portions threeBytes 1) takesAll true 2).2 =
        (⟨sOk, some 2, some 2⟩, [10, 20]) ∧
      (Accounted threeBytes threeByteStream 2
          (threeByteStream.copyTo (fun _ => portions threeBytes 1) takesAll true 2) ↔
        FirstReadFails (fun _ => portions threeBytes 1) threeByteStream 2 ∨
          GoesThrough (fun _ => portions threeBytes 1) takesAll 0 threeByteStream 2) := by
  constructor
  · have hfirst : threeByteStream.copyLoop (fun _ => portions threeBytes 1) takesAll 0 2 0 0 [] =
        { threeByteStream with pos := 1 }.copyLoop (fun _ => portions threeBytes 1) takesAll
          1 1 1 1 [10] := by
      rw [Stream.copyLoop]
      rfl
    have hsecond : { threeByteStream with pos := 1 }.copyLoop
        (fun _ => portions threeBytes 1) takesAll 1 1 1 1 [10] =
        { threeByteStream with pos := 2 }.copyLoop (fun _ => portions threeBytes 1) takesAll
          2 0 2 2 [10, 20] := by
      rw [Stream.copyLoop]
      rfl
    show (threeByteStream.copyLoop (fun _ => portions threeBytes 1) takesAll 0 2 0 0 []).2 = _
    rw [hfirst, hsecond, Stream.copyLoop]
    rfl
  · exact copyTo_accounted_iff rfl (fun _ => portions_honest _ _) takesAll_modest 2

/-- **What is not accounted for.**  After a failure in the second round one
byte has been read and written, and both counts say zero; a piece of three
bytes of which one is accepted is reported as copied. -/
theorem failure_and_short_write_not_accounted :
    ¬ Accounted threeBytes threeByteStream 3
        (threeByteStream.copyTo
          (fun i => if i = 0 then portions threeBytes 1 else unreachable) takesAll true 3) ∧
      ¬ Accounted threeBytes threeByteStream 3
        (threeByteStream.copyTo (fun _ => portions threeBytes 3) takesOne true 3) := by
  have hfirst : threeByteStream.copyLoop
      (fun i => if i = 0 then portions threeBytes 1 else unreachable) takesAll 0 3 0 0 [] =
      { threeByteStream with pos := 1 }.copyLoop
        (fun i => if i = 0 then portions threeBytes 1 else unreachable) takesAll 1 2 1 1 [10] := by
    rw [Stream.copyLoop]
    rfl
  have hfailure : threeByteStream.copyTo
      (fun i => if i = 0 then portions threeBytes 1 else unreachable) takesAll true 3 =
      ({ threeByteStream with pos := 1 }, ⟨eFail, some 0, some 0⟩, [10]) := by
    show threeByteStream.copyLoop _ takesAll 0 3 0 0 [] = _
    rw [hfirst, Stream.copyLoop]
    rfl
  have hround : threeByteStream.copyLoop (fun _ => portions threeBytes 3) takesOne 0 3 0 0 [] =
      { threeByteStream with pos := 3 }.copyLoop (fun _ => portions threeBytes 3) takesOne
        1 0 3 1 [10] := by
    rw [Stream.copyLoop]
    rfl
  have hshort : threeByteStream.copyTo (fun _ => portions threeBytes 3) takesOne true 3 =
      ({ threeByteStream with pos := 3 }, ⟨sOk, some 3, some 1⟩, [10]) := by
    show threeByteStream.copyLoop _ takesOne 0 3 0 0 [] = _
    rw [hround, Stream.copyLoop]
    rfl
  constructor
  · intro haccounted
    obtain ⟨n, hn, hread⟩ := haccounted.read
    rw [hfailure] at hn hread
    cases hn
    exact absurd hread (by decide)
  · intro haccounted
    have hcopied := haccounted.copied (by rw [hshort])
    rw [hshort] at hcopied
    exact absurd hcopied (by decide)

end VirtualFileStream
