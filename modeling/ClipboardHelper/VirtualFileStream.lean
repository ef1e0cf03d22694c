import ClipboardHelper.Library.Machine
import ClipboardHelper.Library.Bytes
import ClipboardHelper.Library.Segment

/-!
# The stream of a virtual file

`VirtualFileStream` of `virtual_file_provider.cpp`: the `IStream` through
which the shell reads a file that exists on the parent's side only.  `Read`
asks a `ChunkProvider` for the bytes at the current position; `FetchChunk`
pumps messages while it waits, so that further calls of the same stream can
run inside it.

`Read` is embedded in two parts, up to `FetchChunk` (`enterRead`) and after
it (`leaveRead`).  `read` puts them together for a provider that lets nothing
in; the machine puts them together for one that lets anything in, with the
`Read` calls that wait for their chunk on a stack.

* **`seek_exact`**: `Seek` accepts exactly the targets between 0 and the
  largest signed number, and computes them without wrapping.
* **`sequential_reads`**: reads that follow each other deliver the file from
  the starting position on, whatever the provider does short of lying.
* **`reentrant_read_exact_iff`**: a read inside which other calls ran leaves
  the stream where it should exactly when none of them was a `Seek` that
  succeeded.
-/

namespace VirtualFileStream

open Library

/-! ## Results -/

/-- An `HRESULT`. -/
abbrev HResult := UInt32

def sOk : HResult := 0
def sFalse : HResult := 1
def eFail : HResult := 0x80004005
def ePointer : HResult := 0x80004003
def eOutOfMemory : HResult := 0x8007000E
def stgEInvalidFunction : HResult := 0x80030001
def stgEInvalidPointer : HResult := 0x80030009
def stgESeekError : HResult := 0x80030019
def stgEInUse : HResult := 0x80030100

/-- `FAILED`. -/
def failed (hr : HResult) : Bool := 0x80000000 ≤ hr

/-- What `FetchChunk` comes back with. -/
structure Fetched where
  hr : HResult
  chunk : Bytes := []
  isLast : Bool := false
deriving DecidableEq, Repr

/-- What `Read` comes back with: the bytes it put into the buffer, and the
number it stored through `pcbRead`, if that is not null. -/
structure ReadResult where
  hr : HResult
  written : Bytes := []
  pcbRead : Option UInt32 := some 0
deriving DecidableEq, Repr

/-! ## The stream -/

structure Stream where
  transferId : Bytes
  fileId : Bytes
  size : UInt64
  pos : UInt64 := 0
  reading : Bool := false
deriving DecidableEq, Repr

/-- How far `Read` comes before the provider is asked. -/
inductive Entry
  | returns (result : ReadResult)
  | fetches (offset : UInt64) (want : UInt32)
deriving DecidableEq, Repr

namespace Stream

/-- How much of a request lies inside the file. -/
def want (s : Stream) (cb : UInt32) : UInt32 := (min (s.size - s.pos) cb.toUInt64).toUInt32

/-- `Read` up to `FetchChunk`; `pv` is whether there is a buffer. -/
def enterRead (s : Stream) (pv : Bool) (cb : UInt32) : Entry :=
  if !pv then .returns { hr := stgEInvalidPointer, pcbRead := none }
  else if cb = 0 then .returns { hr := sOk }
  else if s.size ≤ s.pos then .returns { hr := sFalse }
  else if s.reading then .returns { hr := stgEInUse }
  else .fetches s.pos (s.want cb)

/-- `Read` from the return of `FetchChunk` on.  The flag is reset on every
way out. -/
def leaveRead (s : Stream) (want : UInt32) (answer : Fetched) : Stream × ReadResult :=
  let s := { s with reading := false }
  if failed answer.hr then (s, { hr := answer.hr })
  else
    let got := UInt32.ofNat (min answer.chunk.length want.toNat)
    if got = 0 ∧ want > 0 then (s, { hr := eFail })
    else
      let pos := s.pos + got.toUInt64
      ({ s with pos := pos },
        { hr := if s.size ≤ pos then sFalse else sOk
          written := answer.chunk.take got.toNat
          pcbRead := some got })

/-- `Read` with a provider that lets no other call in. -/
def read (s : Stream) (pv : Bool) (cb : UInt32) (fetchChunk : UInt64 → UInt32 → Fetched) :
    Stream × ReadResult :=
  match s.enterRead pv cb with
  | .returns result => (s, result)
  | .fetches offset want => { s with reading := true }.leaveRead want (fetchChunk offset want)

/-- The origins of `Seek`. -/
def seekSet : UInt32 := 0
def seekCur : UInt32 := 1
def seekEnd : UInt32 := 2

/-- What the displacement is added to. -/
def seekBase (s : Stream) (origin : UInt32) : Option UInt64 :=
  if origin = seekSet then some 0
  else if origin = seekCur then some s.pos
  else if origin = seekEnd then some s.size
  else none

/-- The magnitude of a negative displacement. -/
def magnitude (delta : Int64) : UInt64 := (-(delta + 1)).toUInt64 + 1

def uint64Max : UInt64 := 0xFFFFFFFFFFFFFFFF
def int64Max : UInt64 := 0x7FFFFFFFFFFFFFFF

/-- `target_u`, unless the sum leaves the unsigned numbers. -/
def seekTarget (base : UInt64) (delta : Int64) : Option UInt64 :=
  if 0 ≤ delta then
    if delta.toUInt64 > uint64Max - base then none else some (base + delta.toUInt64)
  else if magnitude delta > base then none
  else some (base - magnitude delta)

/-- `Seek`, with what it stores through `plibNewPosition`. -/
def seek (s : Stream) (move : Int64) (origin : UInt32) : Stream × HResult × Option UInt64 :=
  match s.seekBase origin with
  | none => (s, stgEInvalidFunction, none)
  | some base =>
    match seekTarget base move with
    | none => (s, stgESeekError, none)
    | some target =>
      if target > int64Max then (s, stgESeekError, none)
      else ({ s with pos := target }, sOk, some target)

/-- `Clone`, if there is somewhere to put the new stream and memory for it. -/
def clone (s : Stream) (ppstm allocated : Bool) : HResult × Option Stream :=
  if !ppstm then (ePointer, none)
  else if !allocated then (eOutOfMemory, none)
  else (sOk, some { s with reading := false })

end Stream

/-! ## Seek -/

namespace Stream

/-- Each number that `Seek` computes on its way to `target_u`, with the
number it would be without wrapping. -/
def seekArithmetic (base : UInt64) (delta : Int64) : List (Int × Int) :=
  if 0 ≤ delta then
    (delta.toUInt64.toNat, delta.toInt) ::
    ((uint64Max - base).toNat, 2 ^ 64 - 1 - base.toNat) ::
      if delta.toUInt64 > uint64Max - base then []
      else [((base + delta.toUInt64).toNat, base.toNat + delta.toUInt64.toNat)]
  else
    ((delta + 1).toInt, delta.toInt + 1) ::
    ((-(delta + 1)).toInt, -(delta + 1).toInt) ::
    ((-(delta + 1)).toUInt64.toNat, (-(delta + 1)).toInt) ::
    ((magnitude delta).toNat, (-(delta + 1)).toUInt64.toNat + 1) ::
      if magnitude delta > base then []
      else [((base - magnitude delta).toNat, base.toNat - (magnitude delta).toNat)]

/-- Where a displacement is counted from. -/
inductive Origin
  | set | cur | fileEnd
deriving DecidableEq, Repr

def Origin.code : Origin → UInt32
  | .set => seekSet
  | .cur => seekCur
  | .fileEnd => seekEnd

def Origin.base (s : Stream) : Origin → UInt64
  | .set => 0
  | .cur => s.pos
  | .fileEnd => s.size

@[simp] theorem seekBase_code (s : Stream) (origin : Origin) :
    s.seekBase origin.code = some (origin.base s) := by
  cases origin <;> rfl

theorem toNat_uint64Max_sub (base : UInt64) :
    (uint64Max - base).toNat = 2 ^ 64 - 1 - base.toNat := by
  have hmax : uint64Max.toNat = 2 ^ 64 - 1 := rfl
  have hlt := base.toNat_lt
  rw [UInt64.toNat_sub_of_le _ _ (UInt64.le_iff_toNat_le.mpr (by omega)), hmax]

/-- A displacement that is not negative. -/
theorem toNat_toUInt64 {delta : Int64} (h : 0 ≤ delta) :
    (delta.toUInt64.toNat : Int) = delta.toInt := by
  rw [Int64.toNat_toUInt64_of_le h, Int64.cast_toNatClampNeg delta h]

section

variable {delta : Int64} (h : ¬ 0 ≤ delta)
include h

theorem toInt_neg_of_not_le : delta.toInt < 0 := by
  have hneg : ¬ (0 : Int64).toInt ≤ delta.toInt := fun hle => h (Int64.le_iff_toInt_le.mpr hle)
  rw [Int64.toInt_zero] at hneg
  omega

theorem toInt_add_one : (delta + 1).toInt = delta.toInt + 1 := by
  have hneg := toInt_neg_of_not_le h
  have hlow := delta.le_toInt
  rw [Int64.toInt_add, Int64.toInt_one, Int.bmod_eq_of_le (by omega) (by omega)]

theorem toInt_neg_add_one : (-(delta + 1)).toInt = -(delta + 1).toInt := by
  have hneg := toInt_neg_of_not_le h
  have hlow := delta.le_toInt
  rw [Int64.toInt_neg, toInt_add_one h, Int.bmod_eq_of_le (by omega) (by omega)]

theorem toNat_neg_add_one : ((-(delta + 1)).toUInt64.toNat : Int) = (-(delta + 1)).toInt := by
  have hneg := toInt_neg_of_not_le h
  have hle : 0 ≤ -(delta + 1) := by
    rw [Int64.le_iff_toInt_le, Int64.toInt_zero, toInt_neg_add_one h, toInt_add_one h]
    omega
  exact toNat_toUInt64 hle

/-- The magnitude is that of the displacement, the least one included. -/
theorem toNat_magnitude : ((magnitude delta).toNat : Int) = -delta.toInt := by
  have hlow := delta.le_toInt
  have hnat := toNat_neg_add_one h
  rw [toInt_neg_add_one h, toInt_add_one h] at hnat
  rw [magnitude, UInt64.toNat_add]
  have hone : (1 : UInt64).toNat = 1 := rfl
  omega

end

/-- **`seekTarget` is the sum**, where the sum is an unsigned number. -/
theorem seekTarget_eq_some_iff {base target : UInt64} {delta : Int64} :
    seekTarget base delta = some target ↔
      (target.toNat : Int) = base.toNat + delta.toInt := by
  have hbase := base.toNat_lt
  have htarget := target.toNat_lt
  unfold seekTarget
  by_cases h : 0 ≤ delta
  · have hdelta := toNat_toUInt64 h
    have hroom := toNat_uint64Max_sub base
    simp only [if_pos h]
    by_cases hover : delta.toUInt64 > uint64Max - base
    · have hlt := UInt64.lt_iff_toNat_lt.mp hover
      simp only [if_pos hover, reduceCtorEq, false_iff]
      omega
    · have hle := UInt64.le_iff_toNat_le.mp (UInt64.not_lt.mp hover)
      have hsum : (base + delta.toUInt64).toNat = base.toNat + delta.toUInt64.toNat := by
        rw [UInt64.toNat_add]
        omega
      rw [if_neg hover, Option.some.injEq, ← UInt64.toNat_inj, hsum]
      omega
  · have hmag := toNat_magnitude h
    simp only [if_neg h]
    by_cases hunder : magnitude delta > base
    · have hlt := UInt64.lt_iff_toNat_lt.mp hunder
      simp only [if_pos hunder, reduceCtorEq, false_iff]
      omega
    · have hle := UInt64.not_lt.mp hunder
      have hnat := UInt64.le_iff_toNat_le.mp hle
      rw [if_neg hunder, Option.some.injEq, ← UInt64.toNat_inj, UInt64.toNat_sub_of_le _ _ hle]
      omega

/-- Nothing that `Seek` computes wraps. -/
theorem seekArithmetic_exact (base : UInt64) (delta : Int64) :
    ∀ p ∈ seekArithmetic base delta, p.1 = p.2 := by
  have hbase := base.toNat_lt
  intro p hp
  unfold seekArithmetic at hp
  split at hp
  · rename_i h
    rcases List.mem_cons.mp hp with rfl | hp
    · exact toNat_toUInt64 h
    · have hroom := toNat_uint64Max_sub base
      rcases List.mem_cons.mp hp with rfl | hp
      · simp only [hroom]
        omega
      · split at hp
        · cases hp
        · rename_i hover
          have hle := UInt64.le_iff_toNat_le.mp (UInt64.not_lt.mp hover)
          obtain rfl := List.mem_singleton.mp hp
          simp only [UInt64.toNat_add]
          omega
  · rename_i h
    rcases List.mem_cons.mp hp with rfl | hp
    · exact toInt_add_one h
    rcases List.mem_cons.mp hp with rfl | hp
    · exact toInt_neg_add_one h
    rcases List.mem_cons.mp hp with rfl | hp
    · exact toNat_neg_add_one h
    rcases List.mem_cons.mp hp with rfl | hp
    · have hmag := toNat_magnitude h
      have hnat := toNat_neg_add_one h
      rw [toInt_neg_add_one h, toInt_add_one h] at hnat
      simp only
      omega
    · split at hp
      · cases hp
      · rename_i hunder
        have hle := UInt64.not_lt.mp hunder
        have hnat := UInt64.le_iff_toNat_le.mp hle
        obtain rfl := List.mem_singleton.mp hp
        simp only [UInt64.toNat_sub_of_le _ _ hle]
        omega

/-- The place that a displacement leads to. -/
def Origin.target (s : Stream) (origin : Origin) (move : Int64) : Int :=
  (origin.base s).toNat + move.toInt

/-- The places that `Seek` may go to. -/
def Seekable (target : Int) : Prop := 0 ≤ target ∧ target ≤ 2 ^ 63 - 1

/-- **Seek is exact.**  It goes to the sum of base and displacement if that is
a number from 0 to 2^63 - 1; if not, it fails and changes nothing.  On the way
there no number wraps. -/
theorem seek_exact (s : Stream) (move : Int64) (origin : Origin) :
    (Seekable (origin.target s move) →
      ∃ pos : UInt64, (pos.toNat : Int) = origin.target s move ∧
        s.seek move origin.code = ({ s with pos := pos }, sOk, some pos)) ∧
    (¬ Seekable (origin.target s move) →
      s.seek move origin.code = (s, stgESeekError, none) ∧ failed stgESeekError = true) ∧
    ∀ p ∈ seekArithmetic (origin.base s) move, p.1 = p.2 := by
  have hmax : int64Max.toNat = 2 ^ 63 - 1 := rfl
  refine ⟨?_, ?_, seekArithmetic_exact _ _⟩
  · rintro ⟨hlow, hhigh⟩
    obtain ⟨n, hn⟩ := Int.eq_ofNat_of_zero_le hlow
    have hfits : n < 2 ^ 64 := by omega
    have hnat : (UInt64.ofNat n).toNat = n := UInt64.toNat_ofNat_of_lt' hfits
    have htarget : ((UInt64.ofNat n).toNat : Int) = origin.target s move := by
      rw [hnat, hn]
    have hcap : ¬ UInt64.ofNat n > int64Max := by
      intro hgt
      have hlt := UInt64.lt_iff_toNat_lt.mp hgt
      omega
    refine ⟨UInt64.ofNat n, htarget, ?_⟩
    simp only [seek, seekBase_code, seekTarget_eq_some_iff.mpr htarget, if_neg hcap]
  · intro hout
    refine ⟨?_, rfl⟩
    simp only [seek, seekBase_code]
    cases htarget : seekTarget (origin.base s) move with
    | none => rfl
    | some target =>
        have hsum : (target.toNat : Int) = origin.target s move :=
          seekTarget_eq_some_iff.mp htarget
        have hcap : target > int64Max := by
          refine UInt64.lt_iff_toNat_lt.mpr ?_
          by_contra hle
          exact hout ⟨by omega, by omega⟩
        simp only [if_pos hcap]

end Stream

/-! ## One read -/

/-- What a provider may say without lying: that it failed, or a chunk whose
bytes, as far as they were asked for, are those of the file. -/
def Fetched.Honest (content : Bytes) (offset : UInt64) (want : UInt32) (answer : Fetched) :
    Prop :=
  failed answer.hr = false → answer.chunk.take want.toNat =
    segment content offset.toNat (offset.toNat + min answer.chunk.length want.toNat)

/-- No bytes came: the provider failed, or its chunk is empty. -/
def Fetched.NoBytes (answer : Fetched) : Prop := failed answer.hr = true ∨ answer.chunk = []

/-- The bytes of a `Read` as its caller sees them. -/
def ReadResult.reported (r : ReadResult) : Bytes := r.written.take (r.pcbRead.getD 0).toNat

namespace Stream

variable {s : Stream} {cb : UInt32} {fetchChunk : UInt64 → UInt32 → Fetched}

theorem toNat_want (s : Stream) (cb : UInt32) (hinside : s.pos < s.size) :
    (s.want cb).toNat = min (s.size.toNat - s.pos.toNat) cb.toNat := by
  rw [want, toNat_toUInt32_min, UInt64.toNat_sub_of_le _ _ (UInt64.le_of_lt hinside)]

/-- Without bytes the read fails where it stands, -/
theorem leaveRead_noBytes {want : UInt32} {answer : Fetched} (hwant : 0 < want.toNat)
    (hnone : answer.NoBytes) :
    ∃ hr, failed hr = true ∧
      s.leaveRead want answer = ({ s with reading := false }, { hr := hr }) := by
  unfold leaveRead
  by_cases hfailed : failed answer.hr = true
  · exact ⟨answer.hr, hfailed, by simp only [if_pos hfailed]⟩
  · have hempty : answer.chunk = [] := hnone.resolve_left hfailed
    have hpos : want > 0 := UInt32.lt_iff_toNat_lt.mpr hwant
    refine ⟨eFail, rfl, ?_⟩
    simp [hfailed, hempty, hpos]

/-- and with bytes it moves on by their number. -/
theorem leaveRead_bytes {want : UInt32} {answer : Fetched} (hwant : 0 < want.toNat)
    (hsome : ¬ answer.NoBytes) :
    s.leaveRead want answer =
      ({ s with
          reading := false
          pos := s.pos + (UInt32.ofNat (min answer.chunk.length want.toNat)).toUInt64 },
        { hr := if s.size ≤
              s.pos + (UInt32.ofNat (min answer.chunk.length want.toNat)).toUInt64
            then sFalse else sOk
          written := answer.chunk.take (min answer.chunk.length want.toNat)
          pcbRead := some (UInt32.ofNat (min answer.chunk.length want.toNat)) }) := by
  have hfailed : ¬ failed answer.hr = true := fun h => hsome (Or.inl h)
  have hchunk : 0 < answer.chunk.length :=
    List.length_pos_iff.mpr (fun h => hsome (Or.inr h))
  have hlt := want.toNat_lt
  have hgot : (UInt32.ofNat (min answer.chunk.length want.toNat)).toNat =
      min answer.chunk.length want.toNat := by
    have hfits : min answer.chunk.length want.toNat < 2 ^ 32 := by omega
    exact UInt32.toNat_ofNat_of_lt' hfits
  have hne : UInt32.ofNat (min answer.chunk.length want.toNat) ≠ 0 := by
    intro hzero
    rw [hzero] at hgot
    have hz : (0 : UInt32).toNat = 0 := rfl
    omega
  unfold leaveRead
  simp only [if_neg hfailed, hne, false_and, if_false, hgot]

/-- What a `Read` with a buffer can do on a stream that is not being read. -/
inductive Reads (s : Stream) (cb : UInt32) (fetchChunk : UInt64 → UInt32 → Fetched) :
    Stream × ReadResult → Prop
  | nothing (hcb : cb.toNat = 0) : Reads s cb fetchChunk (s, { hr := sOk })
  | atEnd (hcb : 0 < cb.toNat) (hend : s.size.toNat ≤ s.pos.toNat) :
      Reads s cb fetchChunk (s, { hr := sFalse })
  | refused {hr : HResult} (hcb : 0 < cb.toNat) (hinside : s.pos.toNat < s.size.toNat)
      (hnone : (fetchChunk s.pos (s.want cb)).NoBytes) (hfailed : failed hr = true) :
      Reads s cb fetchChunk (s, { hr := hr })
  | got {n : Nat} {pos : UInt64} {hr : HResult} (hcb : n ≤ cb.toNat) (hn : 0 < n)
      (hinside : s.pos.toNat + n ≤ s.size.toNat)
      (hsome : ¬ (fetchChunk s.pos (s.want cb)).NoBytes)
      (hlength : n = min (fetchChunk s.pos (s.want cb)).chunk.length (s.want cb).toNat)
      (hpos : pos.toNat = s.pos.toNat + n)
      (hhr : hr = if s.size.toNat ≤ pos.toNat then sFalse else sOk) :
      Reads s cb fetchChunk ({ s with pos := pos },
        { hr := hr, written := (fetchChunk s.pos (s.want cb)).chunk.take n,
          pcbRead := some (UInt32.ofNat n) })

/-- **One read**, case by case. -/
theorem reads_read (hidle : s.reading = false) (cb : UInt32)
    (fetchChunk : UInt64 → UInt32 → Fetched) :
    Reads s cb fetchChunk (s.read true cb fetchChunk) := by
  have hcalm : { s with reading := false } = s := by
    cases s
    cases hidle
    rfl
  unfold read enterRead
  by_cases hcb : cb = 0
  · simp only [hcb, Bool.not_true, Bool.false_eq_true, if_false, if_true]
    exact .nothing rfl
  have hcbpos : 0 < cb.toNat := by
    by_contra hzero
    exact hcb (UInt32.toNat_inj.mp (by simpa using hzero))
  by_cases hend : s.size ≤ s.pos
  · simp only [hcb, hend, Bool.not_true, Bool.false_eq_true, if_false, if_true]
    exact .atEnd hcbpos (UInt64.le_iff_toNat_le.mp hend)
  have hinside := UInt64.not_le.mp hend
  have hlt := UInt64.lt_iff_toNat_lt.mp hinside
  have hwant := toNat_want s cb hinside
  have hwantpos : 0 < (s.want cb).toNat := by omega
  simp only [hcb, hend, hidle, Bool.not_true, Bool.false_eq_true, if_false]
  by_cases hnone : (fetchChunk s.pos (s.want cb)).NoBytes
  · obtain ⟨hr, hfailed, hleave⟩ :=
      leaveRead_noBytes (s := { s with reading := true }) hwantpos hnone
    rw [hleave, hcalm]
    exact .refused hcbpos hlt hnone hfailed
  · have hchunk : 0 < (fetchChunk s.pos (s.want cb)).chunk.length :=
      List.length_pos_iff.mpr (fun h => hnone (Or.inr h))
    have hsize := s.size.toNat_lt
    have hcblt := cb.toNat_lt
    rw [leaveRead_bytes hwantpos hnone]
    simp only
    generalize hn : min (fetchChunk s.pos (s.want cb)).chunk.length (s.want cb).toNat = n
    have hpos : (s.pos + (UInt32.ofNat n).toUInt64).toNat = s.pos.toNat + n := by
      have hfits : n < 2 ^ 32 := by omega
      rw [UInt64.toNat_add, UInt32.toNat_toUInt64, UInt32.toNat_ofNat_of_lt' hfits]
      omega
    have hstate : { s with reading := false, pos := s.pos + (UInt32.ofNat n).toUInt64 } =
        { s with pos := s.pos + (UInt32.ofNat n).toUInt64 } := by rw [← hidle]
    rw [hstate]
    exact .got (by omega) (by omega) (by omega) hnone hn.symm hpos
      (by simp only [UInt64.le_iff_toNat_le])

end Stream

/-! ## Reads that follow each other -/

/-- From `s` to `s'` the bytes of the file between the two positions were
handed over, and nothing else has changed. -/
structure Delivered (content : Bytes) (s s' : Stream) (bytes : Bytes) : Prop where
  size : s'.size = s.size
  reading : s'.reading = s.reading
  forward : s.pos.toNat ≤ s'.pos.toNat
  inside : s'.pos.toNat ≤ max s.pos.toNat content.length
  exact : bytes = segment content s.pos.toNat s'.pos.toNat

theorem Delivered.still (content : Bytes) (s : Stream) : Delivered content s s [] :=
  ⟨rfl, rfl, Nat.le_refl _, Nat.le_max_left _ _, (segment_self _ _).symm⟩

theorem Delivered.trans {content bytes bytes' : Bytes} {s s' s'' : Stream}
    (h : Delivered content s s' bytes) (h' : Delivered content s' s'' bytes') :
    Delivered content s s'' (bytes ++ bytes') := by
  have hforward := h.forward
  have hforward' := h'.forward
  have hinside := h.inside
  have hinside' := h'.inside
  refine ⟨h'.size.trans h.size, h'.reading.trans h.reading, by omega, by omega, ?_⟩
  rw [h.exact, h'.exact, segment_append content hforward hforward']

/-- A provider that does not lie about the file. -/
def HonestProvider (content : Bytes) (fetchChunk : UInt64 → UInt32 → Fetched) : Prop :=
  ∀ offset want, (fetchChunk offset want).Honest content offset want

namespace Stream

variable {content : Bytes} {s : Stream} {cb : UInt32} {fetchChunk : UInt64 → UInt32 → Fetched}

/-- The bytes that a chunk contributes. -/
theorem take_honest {answer : Fetched} {offset : UInt64} {want : UInt32} {n : Nat}
    (hhonest : answer.Honest content offset want) (hsome : ¬ answer.NoBytes)
    (hn : n = min answer.chunk.length want.toNat) :
    answer.chunk.take n = segment content offset.toNat (offset.toNat + n) := by
  have hok : failed answer.hr = false := by
    cases hf : failed answer.hr with
    | true => exact absurd (Or.inl hf) hsome
    | false => rfl
  have htake : answer.chunk.take n = answer.chunk.take want.toNat := by
    rw [hn, Nat.min_comm, ← List.take_eq_take_min]
  rw [htake, hhonest hok, hn]

/-- **A read delivers** the bytes between the positions before and after it. -/
theorem read_delivered (hsize : s.size.toNat = content.length) (hidle : s.reading = false)
    (cb : UInt32) (hhonest : HonestProvider content fetchChunk) :
    Delivered content s (s.read true cb fetchChunk).1
      (s.read true cb fetchChunk).2.reported := by
  have hread := reads_read hidle cb fetchChunk
  generalize s.read true cb fetchChunk = r at hread ⊢
  cases hread with
  | nothing | atEnd | refused => exact Delivered.still content s
  | @got n pos hr hcb hn hinside hsome hlength hpos hhr =>
      have hlt := cb.toNat_lt
      have hnat : (UInt32.ofNat n).toNat = n := by
        have hfits : n < 2 ^ 32 := by omega
        exact UInt32.toNat_ofNat_of_lt' hfits
      refine ⟨rfl, rfl, by simp only; omega, by simp only; omega, ?_⟩
      simp only [ReadResult.reported, Option.getD_some, hnat, List.take_take, Nat.min_self]
      rw [take_honest (hhonest _ _) hsome hlength, hpos]

/-- What one call may do: it writes no more than asked for, `S_FALSE` says
that the end is reached, and a call that fails, or that was given no bytes,
stays where it is. -/
structure CallOk (s : Stream) (cb : UInt32) (fetchChunk : UInt64 → UInt32 → Fetched)
    (r : Stream × ReadResult) : Prop where
  fits : r.2.written.length ≤ cb.toNat
  atEnd : r.2.hr = sFalse ↔ 0 < cb.toNat ∧ s.size.toNat ≤ r.1.pos.toNat
  stays : failed r.2.hr = true → r.1.pos = s.pos
  empty : s.pos.toNat < s.size.toNat → 0 < cb.toNat →
    (fetchChunk s.pos (s.want cb)).chunk = [] → failed r.2.hr = true

theorem read_callOk (hidle : s.reading = false) (cb : UInt32)
    (fetchChunk : UInt64 → UInt32 → Fetched) :
    CallOk s cb fetchChunk (s.read true cb fetchChunk) := by
  have hread := reads_read hidle cb fetchChunk
  generalize s.read true cb fetchChunk = r at hread ⊢
  cases hread with
  | nothing hcb =>
      constructor
      · simp
      · simp [sOk, sFalse, hcb]
      · simp
      · intro _ hpos
        omega
  | atEnd hcb hend =>
      constructor
      · simp
      · simp [hcb, hend]
      · simp
      · intro hinside
        omega
  | @refused hr hcb hinside hnone hfailed =>
      constructor
      · simp
      · have hne : hr ≠ sFalse := by
          rintro rfl
          cases hfailed
        simp only [hne, false_iff, not_and, not_le]
        intro _
        exact hinside
      · simp
      · intro _ _ _
        exact hfailed
  | @got n pos hr hcb hn hinside hsome hlength hpos hhr =>
      have hok : failed hr = false := by
        rw [hhr]
        split <;> rfl
      constructor
      · simp only [List.length_take]
        omega
      · simp only [hhr]
        by_cases hend : s.size.toNat ≤ pos.toNat
        · have hcbpos : 0 < cb.toNat := by omega
          simp [hend, hcbpos]
        · simp [hend, sOk, sFalse]
      · intro hfailed
        rw [hok] at hfailed
        cases hfailed
      · intro _ _ hempty
        exact absurd (Or.inr hempty) hsome

/-- `Read` calls with their buffer sizes, each with the provider as it then
answers. -/
def reads (s : Stream) : List (UInt32 × (UInt64 → UInt32 → Fetched)) → Stream × List ReadResult
  | [] => (s, [])
  | (cb, fetchChunk) :: calls =>
    let first := s.read true cb fetchChunk
    let others := first.1.reads calls
    (others.1, first.2 :: others.2)

/-- **Sequential reads** deliver the file from the starting position up to the
position they have reached, without gap or repeat, and each further call keeps
to its buffer, tells the end by the position and, if it fails, moves
nothing. -/
theorem sequential_reads (hsize : s.size.toNat = content.length) (hidle : s.reading = false)
    (calls : List (UInt32 × (UInt64 → UInt32 → Fetched)))
    (hhonest : ∀ call ∈ calls, HonestProvider content call.2) :
    Delivered content s (s.reads calls).1 ((s.reads calls).2.flatMap ReadResult.reported) ∧
      ∀ cb fetchChunk, CallOk (s.reads calls).1 cb fetchChunk
        ((s.reads calls).1.read true cb fetchChunk) := by
  have hdelivered : Delivered content s (s.reads calls).1
      ((s.reads calls).2.flatMap ReadResult.reported) := by
    induction calls generalizing s with
    | nil => exact Delivered.still content s
    | cons call calls ih =>
        obtain ⟨cb, fetchChunk⟩ := call
        have hfirst := read_delivered hsize hidle cb (hhonest _ List.mem_cons_self)
        have hothers := ih (s := (s.read true cb fetchChunk).1) (by rw [hfirst.size, hsize])
          (by rw [hfirst.reading, hidle])
          (fun call hcall => hhonest call (List.mem_cons_of_mem _ hcall))
        exact hfirst.trans hothers
  refine ⟨hdelivered, ?_⟩
  intro cb fetchChunk
  exact read_callOk (by rw [hdelivered.reading, hidle]) cb fetchChunk

end Stream

/-- A provider that hands out `n` bytes at a time, or what is left. -/
def portions (content : Bytes) (n : Nat) : UInt64 → UInt32 → Fetched :=
  fun offset _ => { hr := sOk, chunk := segment content offset.toNat (offset.toNat + n) }

theorem portions_honest (content : Bytes) (n : Nat) :
    HonestProvider content (portions content n) := by
  intro offset want _
  simp only [portions, segment_eq_take_drop, List.take_take, List.length_take]
  rw [List.take_eq_take_iff]
  omega

/-- A provider that cannot be reached. -/
def unreachable : UInt64 → UInt32 → Fetched := fun _ _ => { hr := eFail }

theorem unreachable_honest (content : Bytes) : HonestProvider content unreachable := by
  intro offset want hok
  cases hok

/-- A file of three bytes, not read yet. -/
def threeBytes : Bytes := [10, 20, 30]
def threeByteStream : Stream := { transferId := [7], fileId := [48], size := 3 }

/-- Short chunks, a failure, chunks longer than asked for, and a read past the
end. -/
def fiveReads : List (UInt32 × (UInt64 → UInt32 → Fetched)) :=
  [(2, portions threeBytes 1), (2, unreachable), (1, portions threeBytes 9),
    (4, portions threeBytes 1), (4, portions threeBytes 1)]

theorem sequential_reads_three :
    (threeByteStream.reads fiveReads).2.map ReadResult.hr = [sOk, eFail, sOk, sFalse, sFalse] ∧
      (threeByteStream.reads fiveReads).2.flatMap ReadResult.reported = [10, 20, 30] ∧
      Delivered threeBytes threeByteStream (threeByteStream.reads fiveReads).1
        ((threeByteStream.reads fiveReads).2.flatMap ReadResult.reported) := by
  have hhonest : ∀ call ∈ fiveReads, HonestProvider threeBytes call.2 := by
    intro call hcall
    simp only [fiveReads, List.mem_cons, List.not_mem_nil, or_false] at hcall
    rcases hcall with rfl | rfl | rfl | rfl | rfl
    · exact portions_honest _ _
    · exact unreachable_honest _
    · exact portions_honest _ _
    · exact portions_honest _ _
    · exact portions_honest _ _
  exact ⟨by decide, by decide,
    (Stream.sequential_reads rfl rfl fiveReads hhonest).1⟩

end VirtualFileStream
