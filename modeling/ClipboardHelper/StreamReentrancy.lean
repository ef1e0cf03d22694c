import ClipboardHelper.VirtualFileStream

/-!
# Calls that run inside a read

While `FetchChunk` waits for its reply it pumps messages, and COM delivers
further calls to the same stream.  Here the stream and the `Read` calls that
wait for their chunk, innermost first, are one machine: any call may come in
at any time, and a chunk goes to the innermost read.

The flag `reading_` keeps a second `Read` from fetching, so the stack never
holds more than the outer one (`run_inside`).  `Seek` is not kept out, and
the outer `Read` adds the length of its chunk to whatever position it finds:
**`reentrant_read_exact_iff`**.
-/

namespace VirtualFileStream

open Library

/-- A `Read` that waits for its chunk. -/
structure Frame where
  position : UInt64
  want : UInt32
deriving DecidableEq, Repr

/-- The stream and the reads that wait, innermost first. -/
structure Apartment where
  stream : Stream
  frames : List Frame := []
deriving DecidableEq, Repr

inductive Action
  | read (pv : Bool) (cb : UInt32)
  | fetched (answer : Fetched)
  | seek (move : Int64) (origin : UInt32)
  | clone (ppstm allocated : Bool)
deriving DecidableEq, Repr

inductive Obs
  | fetching (position : UInt64) (want : UInt32)
  | readReturned (position : UInt64) (result : ReadResult)
  | sought (hr : HResult) (newPosition : Option UInt64)
  | cloned (hr : HResult) (copy : Option Stream)
deriving DecidableEq, Repr

/-- **The apartment**: one stream, with its calls nested in any way. -/
def machine : Machine Apartment Action Obs where
  step a
    | .read pv cb =>
      match a.stream.enterRead pv cb with
      | .returns result => some (a, [.readReturned a.stream.pos result])
      | .fetches offset want => some
          ({ stream := { a.stream with reading := true }, frames := ⟨offset, want⟩ :: a.frames },
            [.fetching offset want])
    | .fetched answer =>
      match a.frames with
      | [] => none
      | frame :: frames =>
        let left := a.stream.leaveRead frame.want answer
        some ({ stream := left.1, frames := frames }, [.readReturned frame.position left.2])
    | .seek move origin =>
      let sought := a.stream.seek move origin
      some ({ a with stream := sought.1 }, [.sought sought.2.1 sought.2.2])
    | .clone ppstm allocated =>
      let cloned := a.stream.clone ppstm allocated
      some (a, [.cloned cloned.1 cloned.2])

/-- What returns at once has written nothing. -/
theorem enterRead_returns {s : Stream} {pv : Bool} {cb : UInt32} {result : ReadResult}
    (h : s.enterRead pv cb = .returns result) : result.written = [] := by
  unfold Stream.enterRead at h
  (repeat' split at h) <;> cases h <;> rfl

/-- What a `Read` asks the provider for. -/
theorem enterRead_fetches {s : Stream} {pv : Bool} {cb want : UInt32} {offset : UInt64}
    (h : s.enterRead pv cb = .fetches offset want) :
    offset = s.pos ∧ want = s.want cb ∧ s.pos < s.size ∧ 0 < cb.toNat := by
  unfold Stream.enterRead at h
  split at h
  · cases h
  split at h
  · cases h
  rename_i hcb
  split at h
  · cases h
  rename_i hend
  split at h
  · cases h
  cases h
  refine ⟨rfl, rfl, UInt64.not_le.mp hend, ?_⟩
  by_contra hzero
  exact hcb (UInt32.toNat_inj.mp (by simpa using hzero))

/-- Nothing nested: the machine reads as `read` does. -/
theorem exec_read (s : Stream) (pv : Bool) (cb : UInt32)
    (fetchChunk : UInt64 → UInt32 → Fetched) :
    ∃ as h, machine.exec { stream := s } as =
      some ({ stream := (s.read pv cb fetchChunk).1 }, h) ∧
      .readReturned s.pos (s.read pv cb fetchChunk).2 ∈ h := by
  cases henter : s.enterRead pv cb with
  | returns result =>
      refine ⟨[.read pv cb], [.readReturned s.pos result], ?_, ?_⟩
      · simp [Machine.exec, machine, Stream.read, henter]
      · simp [Stream.read, henter]
  | fetches offset want =>
      obtain ⟨hoffset, -⟩ := enterRead_fetches henter
      refine ⟨[.read pv cb, .fetched (fetchChunk offset want)],
        [.fetching offset want, .readReturned offset (s.read pv cb fetchChunk).2], ?_, ?_⟩
      · simp [Machine.exec, machine, Stream.read, henter]
      · simp [hoffset]

/-! ## Calls inside a read -/

/-- The position of a `Seek` that was accepted. -/
def Obs.accepted? : Obs → Option UInt64
  | .sought _ newPosition => newPosition
  | _ => none

/-- The position that the last accepted `Seek` reported. -/
def lastAccepted (h : List Obs) : Option UInt64 := (h.filterMap Obs.accepted?).getLast?

/-- Calls inside a read that waits at the given depth of the stack: its own
chunk does not come before they have returned. -/
def Inside (depth : Nat) (a : Apartment) : Action → Prop
  | .fetched _ => depth < a.frames.length
  | _ => True

theorem lastAccepted_concat (h : List Obs) (o : Obs) :
    lastAccepted (h ++ [o]) = o.accepted?.or (lastAccepted h) := by
  rw [lastAccepted, List.filterMap_append, List.getLast?_append]
  cases ho : o.accepted? with
  | none => simp [ho, lastAccepted]
  | some pos => simp [ho]

/-- What calls inside a read leave behind: the read waits as before, and the
position is where the last accepted `Seek` put it. -/
structure Pumped (a : Apartment) (h : List Obs) (a' : Apartment) : Prop where
  frames : a'.frames = a.frames
  reading : a'.stream.reading = true
  size : a'.stream.size = a.stream.size
  pos : a'.stream.pos = (lastAccepted h).getD a.stream.pos
  target : ∀ t, lastAccepted h = some t → t.toNat ≤ 2 ^ 63 - 1

/-- A `Seek` either fails, or goes to where it says. -/
theorem seek_cases (s : Stream) (move : Int64) (origin : UInt32) :
    (∃ hr, s.seek move origin = (s, hr, none)) ∨
      ∃ target : UInt64, target.toNat ≤ 2 ^ 63 - 1 ∧
        s.seek move origin = ({ s with pos := target }, sOk, some target) := by
  unfold Stream.seek
  cases s.seekBase origin with
  | none => exact Or.inl ⟨_, rfl⟩
  | some base =>
      cases htarget : Stream.seekTarget base move with
      | none => exact Or.inl ⟨stgESeekError, by simp only [htarget]⟩
      | some target =>
          simp only [htarget]
          by_cases hcap : target > Stream.int64Max
          · exact Or.inl ⟨stgESeekError, by rw [if_pos hcap]⟩
          · refine Or.inr ⟨target, ?_, by rw [if_neg hcap]⟩
            exact UInt64.le_iff_toNat_le.mp (UInt64.not_lt.mp hcap)

/-- **Inside a read no second one gets as far as its chunk**, and only `Seek`
moves the stream. -/
theorem run_inside {a a' : Apartment} {h : List Obs} (hreading : a.stream.reading = true)
    (hrun : Machine.Run machine (Inside a.frames.length) a h a') : Pumped a h a' := by
  refine hrun.history_invariant (Pumped a) ⟨rfl, hreading, rfl, rfl, by simp [lastAccepted]⟩ ?_
  intro h s action s' os hp hguard hstep
  -- a call that changes nothing and is no accepted Seek
  have hquiet : ∀ o : Obs, o.accepted? = none → Pumped a (h ++ [o]) s := by
    intro o ho
    have hlast : lastAccepted (h ++ [o]) = lastAccepted h := by
      rw [lastAccepted_concat, ho]
      rfl
    exact ⟨hp.frames, hp.reading, hp.size, by rw [hlast]; exact hp.pos,
      by rw [hlast]; exact hp.target⟩
  cases action with
  | read pv cb =>
      have henter : ∃ result, s.stream.enterRead pv cb = .returns result := by
        simp only [Stream.enterRead, hp.reading, if_true]
        (repeat' split) <;> exact ⟨_, rfl⟩
      obtain ⟨result, henter⟩ := henter
      simp only [machine, henter, Option.some.injEq, Prod.mk.injEq] at hstep
      obtain ⟨rfl, rfl⟩ := hstep
      exact hquiet _ rfl
  | fetched answer =>
      rw [Inside, hp.frames] at hguard
      exact absurd hguard (Nat.lt_irrefl _)
  | seek move origin =>
      simp only [machine, Option.some.injEq, Prod.mk.injEq] at hstep
      obtain ⟨rfl, rfl⟩ := hstep
      rcases seek_cases s.stream move origin with ⟨hr, hseek⟩ | ⟨target, hcap, hseek⟩
      · rw [hseek]
        exact hquiet _ rfl
      · rw [hseek]
        have hlast : lastAccepted (h ++ [.sought sOk (some target)]) = some target := by
          rw [lastAccepted_concat]
          rfl
        refine ⟨hp.frames, hp.reading, hp.size, by rw [hlast]; rfl, ?_⟩
        intro t ht
        rw [hlast] at ht
        cases ht
        exact hcap
  | clone ppstm allocated =>
      simp only [machine, Option.some.injEq, Prod.mk.injEq] at hstep
      obtain ⟨rfl, rfl⟩ := hstep
      exact hquiet _ rfl

/-! ## The outer read -/

/-- A `Read` with a buffer, from `a` to `a'`, with the calls that ran inside
it: it returns at once, or its `FetchChunk` pumps them before it answers. -/
inductive ReadCall (content : Bytes) (a : Apartment) (cb : UInt32) :
    List Obs → ReadResult → Apartment → Prop
  | atOnce {position : UInt64} {result : ReadResult} {a' : Apartment}
      (hread : machine.step a (.read true cb) = some (a', [.readReturned position result])) :
      ReadCall content a cb [] result a'
  | pumping {position position' : UInt64} {want : UInt32} {nested : List Obs}
      {answer : Fetched} {result : ReadResult} {a₁ a₂ a' : Apartment}
      (hread : machine.step a (.read true cb) = some (a₁, [.fetching position want]))
      (hnested : Machine.Run machine (Inside a₁.frames.length) a₁ nested a₂)
      (hhonest : answer.Honest content position want)
      (hreturn : machine.step a₂ (.fetched answer) = some (a', [.readReturned position' result])) :
      ReadCall content a cb nested result a'

/-- The read handed over the bytes from its position on, and left the stream
behind them, or where the last accepted `Seek` had put it. -/
def ExactRead (content : Bytes) (a : Apartment) (nested : List Obs) (result : ReadResult)
    (a' : Apartment) : Prop :=
  result.written = segment content a.stream.pos.toNat
      (a.stream.pos.toNat + result.written.length) ∧
    match lastAccepted nested with
    | none => a'.stream.pos.toNat = a.stream.pos.toNat + result.written.length
    | some reported => a'.stream.pos = reported

/-- A read that succeeds writes what its chunk has of the bytes asked for and
adds their number to the position it finds. -/
theorem leaveRead_succeeds {s : Stream} {want : UInt32} {answer : Fetched}
    (hwant : 0 < want.toNat) (hsuccess : failed (s.leaveRead want answer).2.hr = false) :
    ∃ n, n = min answer.chunk.length want.toNat ∧ 0 < n ∧ ¬ answer.NoBytes ∧
      (s.leaveRead want answer).2.written = answer.chunk.take n ∧
      (s.leaveRead want answer).1.pos = s.pos + (UInt32.ofNat n).toUInt64 := by
  by_cases hnone : answer.NoBytes
  · obtain ⟨hr, hfailed, hleave⟩ := Stream.leaveRead_noBytes (s := s) hwant hnone
    rw [hleave] at hsuccess
    rw [hsuccess] at hfailed
    cases hfailed
  · have hchunk : 0 < answer.chunk.length :=
      List.length_pos_iff.mpr (fun h => hnone (Or.inr h))
    refine ⟨_, rfl, by omega, hnone, ?_, ?_⟩
    · rw [Stream.leaveRead_bytes hwant hnone]
    · rw [Stream.leaveRead_bytes hwant hnone]

theorem toNat_add_ofNat {pos : UInt64} {n : Nat} (hn : n < 2 ^ 32)
    (hpos : pos.toNat + n < 2 ^ 64) :
    (pos + (UInt32.ofNat n).toUInt64).toNat = pos.toNat + n := by
  rw [UInt64.toNat_add, UInt32.toNat_toUInt64, UInt32.toNat_ofNat_of_lt' hn]
  exact Nat.mod_eq_of_lt hpos

/-- **A read with other calls inside it is exact** if and only if no `Seek`
among them is accepted. -/
theorem reentrant_read_exact_iff {content : Bytes} {a a' : Apartment} {cb : UInt32}
    {nested : List Obs} {result : ReadResult}
    (hsize : a.stream.size.toNat = content.length)
    (hcall : ReadCall content a cb nested result a') (hsuccess : failed result.hr = false) :
    ExactRead content a nested result a' ↔ lastAccepted nested = none := by
  cases hcall with
  | @atOnce position result a' hread =>
      cases henter : a.stream.enterRead true cb with
      | fetches offset want => simp [machine, henter] at hread
      | returns result' =>
          simp only [machine, henter, Option.some.injEq, Prod.mk.injEq, List.cons.injEq,
            Obs.readReturned.injEq, and_true] at hread
          obtain ⟨rfl, -, rfl⟩ := hread
          have hwritten := enterRead_returns henter
          simp [ExactRead, hwritten, lastAccepted]
  | @pumping position position' want nested answer result a₁ a₂ a' hread hnested hhonest hreturn =>
      cases henter : a.stream.enterRead true cb with
      | returns result' => simp [machine, henter] at hread
      | fetches offset want' =>
          simp only [machine, henter, Option.some.injEq, Prod.mk.injEq, List.cons.injEq,
            Obs.fetching.injEq, and_true] at hread
          obtain ⟨rfl, rfl, rfl⟩ := hread
          obtain ⟨rfl, rfl, hinside, hcb⟩ := enterRead_fetches henter
          have hp := run_inside rfl hnested
          simp only [machine, hp.frames, Option.some.injEq, Prod.mk.injEq, List.cons.injEq,
            Obs.readReturned.injEq, and_true] at hreturn
          obtain ⟨rfl, -, rfl⟩ := hreturn
          have hwant := Stream.toNat_want a.stream cb hinside
          have hlt := UInt64.lt_iff_toNat_lt.mp hinside
          have hsizelt := a.stream.size.toNat_lt
          have hcblt := cb.toNat_lt
          obtain ⟨n, hn, hnpos, hsome, hwritten, hpos⟩ :=
            leaveRead_succeeds (by omega) hsuccess
          have hbytes := Stream.take_honest hhonest hsome hn
          have hlength : (segment content a.stream.pos.toNat
              (a.stream.pos.toNat + n)).length = n := by
            rw [← hbytes, List.length_take]
            omega
          have hmoved : a₂.stream.pos = (lastAccepted nested).getD a.stream.pos := hp.pos
          simp only [ExactRead, hwritten, hpos, hbytes, hlength, true_and]
          cases hlast : lastAccepted nested with
          | none =>
              rw [hlast, Option.getD_none] at hmoved
              simp only [iff_true]
              rw [hmoved, toNat_add_ofNat (by omega) (by omega)]
          | some reported =>
              -- the length of the chunk is added to what `Seek` reported
              rw [hlast, Option.getD_some] at hmoved
              have hcap := hp.target reported hlast
              simp only [reduceCtorEq, iff_false]
              intro hsame
              have hnat := congrArg UInt64.toNat hsame
              rw [hmoved, toNat_add_ofNat (by omega) (by omega)] at hnat
              omega

/-! ## Runs -/

/-- A file of four bytes, not read yet. -/
def fourBytes : Bytes := [10, 20, 30, 40]
def fourByteApartment : Apartment :=
  { stream := { transferId := [7], fileId := [48], size := 4 } }

/-- The same while a read of two bytes waits for its chunk. -/
def fourByteWaiting : Apartment :=
  { stream := { transferId := [7], fileId := [48], size := 4, reading := true }
    frames := [⟨0, 2⟩] }

/-- The chunk that it is waiting for. -/
def twoBytes : Fetched := { hr := sOk, chunk := [10, 20] }

theorem twoBytes_honest : twoBytes.Honest fourBytes 0 2 := by
  intro _
  decide

/-- A test for calls inside a read. -/
def insideTest (_ : Apartment) : Action → Bool
  | .fetched _ => false
  | _ => true

theorem inside_of_test {depth : Nat} (a : Apartment) (action : Action)
    (htest : insideTest a action = true) : Inside depth a action := by
  cases action with
  | fetched => cases htest
  | read | seek | clone => trivial

/-- Calls inside the read of two bytes make it a `ReadCall`. -/
theorem readCall_of_inside {nested : List Obs} {a₂ a' : Apartment} {result : ReadResult}
    (hnested : Machine.Run machine (Inside 1) fourByteWaiting nested a₂)
    (hreturn : machine.step a₂ (.fetched twoBytes) = some (a', [.readReturned 0 result])) :
    ReadCall fourBytes fourByteApartment 2 nested result a' := by
  have hread : machine.step fourByteApartment (.read true 2) =
      some (fourByteWaiting, [.fetching 0 2]) := rfl
  exact .pumping hread hnested twoBytes_honest hreturn

/-- A nested `Read`, which is refused, and a `Clone` do no harm. -/
theorem reentrant_read_exact_read_clone :
    ∃ nested result a', ReadCall fourBytes fourByteApartment 2 nested result a' ∧
      nested = [.readReturned 0 { hr := stgEInUse },
        .cloned sOk (some fourByteApartment.stream)] ∧
      (ExactRead fourBytes fourByteApartment nested result a' ↔
        lastAccepted nested = none) := by
  have hexec : (machine.execIf insideTest fourByteWaiting
      [.read true 1, .clone true true]).map (fun r => r) =
      some (fourByteWaiting, [.readReturned 0 { hr := stgEInUse },
        .cloned sOk (some fourByteApartment.stream)]) := by decide
  obtain ⟨nested, a₂, hnested, hresult⟩ := Machine.Run.of_execIf_map inside_of_test hexec
  obtain ⟨rfl, rfl⟩ := Prod.mk.inj hresult
  have hcall := readCall_of_inside hnested rfl
  exact ⟨_, _, _, hcall, rfl, reentrant_read_exact_iff rfl hcall rfl⟩

/-- **A `Seek` inside a read is overruled**: the stream is told to go to 1
while two bytes are read from 0, and ends up at 3. -/
theorem seek_inside_read_overruled :
    ∃ nested result a', ReadCall fourBytes fourByteApartment 2 nested result a' ∧
      result = { hr := sOk, written := [10, 20], pcbRead := some 2 } ∧
      lastAccepted nested = some 1 ∧ a'.stream.pos = 3 ∧
      ¬ ExactRead fourBytes fourByteApartment nested result a' := by
  have hexec : (machine.execIf insideTest fourByteWaiting
      [.seek 1 Stream.seekSet]).map (fun r => r) =
      some ({ fourByteWaiting with stream := { fourByteWaiting.stream with pos := 1 } },
        [.sought sOk (some 1)]) := by decide
  obtain ⟨nested, a₂, hnested, hresult⟩ := Machine.Run.of_execIf_map inside_of_test hexec
  obtain ⟨rfl, rfl⟩ := Prod.mk.inj hresult
  have hcall := readCall_of_inside hnested rfl
  refine ⟨_, _, _, hcall, rfl, rfl, rfl, ?_⟩
  rintro ⟨-, hpos⟩
  have hne : (3 : UInt64) ≠ 1 := by decide
  exact hne hpos

end VirtualFileStream
