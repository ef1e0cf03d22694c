import ClipboardHelper.Library.Cursor
import ClipboardHelper.Library.Machine
import ClipboardHelper.Library.Segment
import ClipboardHelper.VirtualDataObject

/-!
# The enumerator of an announcement

`VirtualFileEnum`, the `IEnumFORMATETC` of `virtual_file_provider.cpp`.  It
has a copy of the formats and a position of 32 bits.  Enumerators are made at
the start of the list by `EnumFormatEtc`, and at the place of another one by
`Clone`.

Whatever the list, an enumerator is a cursor over the formats that it counts,
`static_cast<ULONG>(formats_.size())` of them (`shows_of_run`): the position
stays inside, the subtraction of `Skip` does not underflow, and what `Next`
returns and `Skip` passes over is the front of the list.

**`contract_iff`**: it keeps the contract of an enumerator on exactly the
lists of fewer than 2³² formats.  On longer ones the count wraps, and `Next`
and `Skip` say `S_FALSE` with formats left.
-/

namespace VirtualFileEnum

open Library DispatchCodec VirtualFileStream VirtualDataObject

/-! ## One enumerator -/

/-- The fields of `VirtualFileEnum`, without its reference count. -/
structure Enumerator where
  formats : List FormatEtc
  pos : UInt32
deriving DecidableEq, Repr

/-- `static_cast<ULONG>(formats_.size())`. -/
def Enumerator.count (e : Enumerator) : UInt32 := UInt32.ofNat e.formats.length

/-- What `Next` comes to: its result, the elements in `rgelt`, whose number
`*pceltFetched` says, and the enumerator afterwards. -/
structure Fetched where
  hr : HResult
  elements : List FormatEtc
  after : Enumerator
deriving DecidableEq, Repr

/-- `Next`, given whether the two pointers are not null. -/
def Enumerator.next (e : Enumerator) (celt : UInt32) (rgelt pceltFetched : Bool) : Fetched :=
  if !rgelt then { hr := ePointer, elements := [], after := e }
  else if !pceltFetched && celt != 1 then { hr := eInvalidArg, elements := [], after := e }
  else
    let fetched := VirtualDataObject.next e.formats celt.toNat e.pos
    { hr := if fetched.1.length = celt.toNat then sOk else sFalse
      elements := fetched.1
      after := { e with pos := fetched.2 } }

/-- `Skip`. -/
def Enumerator.skip (e : Enumerator) (celt : UInt32) : HResult × Enumerator :=
  let remaining := e.count - e.pos
  if remaining < celt then (sFalse, { e with pos := e.count })
  else (sOk, { e with pos := e.pos + celt })

/-- `Reset`. -/
def Enumerator.reset (e : Enumerator) : Enumerator := { e with pos := 0 }

/-- `Clone`, given whether `ppenum` is not null and the allocation succeeds. -/
def Enumerator.clone (e : Enumerator) (ppenum allocated : Bool) : Except HResult Enumerator :=
  if !ppenum then .error ePointer
  else if !allocated then .error eOutOfMemory
  else .ok { formats := e.formats, pos := e.pos }

/-! ## All enumerators of a list -/

/-- The calls; the index says on which enumerator. -/
inductive Action
  | next (i : Nat) (celt : UInt32) (rgelt pceltFetched : Bool)
  | skip (i : Nat) (celt : UInt32)
  | reset (i : Nat)
  | clone (i : Nat) (ppenum allocated : Bool)
deriving DecidableEq, Repr

/-- The enumerator that is called. -/
def Action.target : Action → Nat
  | .next i _ _ _ | .skip i _ | .reset i | .clone i _ _ => i

inductive Obs
  | fetched (i : Nat) (elements : List FormatEtc) (hr : HResult)
  /-- `Skip` with the elements that it has passed over. -/
  | skipped (i : Nat) (elements : List FormatEtc) (hr : HResult)
  | reset (i : Nat)
  /-- A clone of enumerator `i` is enumerator `j`. -/
  | cloned (i j : Nat)
  | failed (i : Nat) (hr : HResult)
deriving DecidableEq, Repr

/-- One call on enumerator `e`, the one with index `i`. -/
def call (s : List Enumerator) (i : Nat) (e : Enumerator) :
    Action → List Enumerator × List Obs
  | .next _ celt rgelt pceltFetched =>
    let r := e.next celt rgelt pceltFetched
    (s.set i r.after, [.fetched i r.elements r.hr])
  | .skip _ celt =>
    let r := e.skip celt
    (s.set i r.2, [.skipped i (segment e.formats e.pos.toNat r.2.pos.toNat) r.1])
  | .reset _ => (s.set i e.reset, [.reset i])
  | .clone _ ppenum allocated =>
    match e.clone ppenum allocated with
    | .ok e' => (s ++ [e'], [.cloned i s.length])
    | .error hr => (s, [.failed i hr])

/-- **The enumerators of a list** under any sequence of calls. -/
def machine : Machine (List Enumerator) Action Obs where
  step s action := (s[action.target]?).map fun e => call s action.target e action

/-- What an enumerator has returned and passed over since its last `Reset`; a
clone takes over what the original has. -/
def note (passed : Nat → List FormatEtc) : Obs → Nat → List FormatEtc
  | .fetched i elements _ | .skipped i elements _ =>
    Function.update passed i (passed i ++ elements)
  | .reset i => Function.update passed i []
  | .cloned i j => Function.update passed j (passed i)
  | .failed _ _ => passed

def passed (h : List Obs) : Nat → List FormatEtc := h.foldl note (fun _ => [])

/-! ## An enumerator is a cursor -/

/-- The formats that an enumerator counts. -/
def Enumerator.counted (e : Enumerator) : List FormatEtc := e.formats.take e.count.toNat

theorem count_toNat (e : Enumerator) : e.count.toNat = e.formats.length % 2 ^ 32 :=
  UInt32.toNat_ofNat'

theorem length_counted (e : Enumerator) : e.counted.length = e.count.toNat := by
  have hle : e.formats.length % 2 ^ 32 ≤ e.formats.length := Nat.mod_le _ _
  rw [Enumerator.counted, List.length_take, count_toNat, Nat.min_eq_left hle]

/-- **The enumerator stands where the cursor does**, in the formats that it
counts. -/
structure Enumerator.Shows (e : Enumerator) (c : Cursor FormatEtc) : Prop where
  items : c.items = e.counted
  passed : c.passed = e.pos.toNat

section

variable {e : Enumerator} {c : Cursor FormatEtc}

/-- The position is inside. -/
theorem Enumerator.Shows.pos_le (hshows : e.Shows c) : e.pos ≤ e.count := by
  rw [UInt32.le_iff_toNat_le, ← hshows.passed, ← length_counted, ← hshows.items]
  exact c.within

theorem Enumerator.Shows.length_rest (hshows : e.Shows c) :
    c.rest.length = e.count.toNat - e.pos.toNat := by
  rw [Cursor.length_rest, hshows.items, length_counted, hshows.passed]

/-- Made by `EnumFormatEtc`. -/
theorem shows_start (formats : List FormatEtc) :
    (Enumerator.mk formats 0).Shows (.start (Enumerator.mk formats 0).counted) where
  items := rfl
  passed := rfl

theorem sFalse_ne_sOk : sFalse ≠ sOk := by decide

/-- `Next` with a bad pointer does nothing. -/
theorem next_invalid (e : Enumerator) (celt : UInt32) {rgelt pceltFetched : Bool}
    (hinvalid : ¬ (rgelt = true ∧ (pceltFetched = true ∨ celt = 1))) :
    (e.next celt rgelt pceltFetched).elements = [] ∧
      (e.next celt rgelt pceltFetched).after = e := by
  cases rgelt with
  | false => exact ⟨rfl, rfl⟩
  | true =>
      cases pceltFetched with
      | true => simp at hinvalid
      | false =>
          have hcelt : celt ≠ 1 := by simpa using hinvalid
          simp [Enumerator.next, hcelt]

/-- `Next` otherwise. -/
theorem next_valid (e : Enumerator) (celt : UInt32) {pceltFetched : Bool}
    (hvalid : pceltFetched = true ∨ celt = 1) :
    e.next celt true pceltFetched =
      { hr := if (VirtualDataObject.next e.formats celt.toNat e.pos).1.length = celt.toNat
          then sOk else sFalse
        elements := (VirtualDataObject.next e.formats celt.toNat e.pos).1
        after := { e with pos := (VirtualDataObject.next e.formats celt.toNat e.pos).2 } } := by
  rcases hvalid with rfl | rfl <;> simp [Enumerator.next]

/-- What an enumerator that stands at `c` passes over goes with the cursor. -/
theorem Enumerator.Shows.goes (hshows : e.Shows c) {n : Nat} {pos : UInt32}
    (hpos : pos.toNat = e.pos.toNat + (c.fetch n).length) :
    Enumerator.Shows { e with pos := pos } (c.advance n) where
  items := hshows.items
  passed := by rw [Cursor.passed_advance, hshows.passed, hpos]

/-- **`Next` steps with the cursor.** -/
theorem Enumerator.Shows.next (hshows : e.Shows c) (celt : UInt32) {pceltFetched : Bool}
    (hvalid : pceltFetched = true ∨ celt = 1) :
    (e.next celt true pceltFetched).after.Shows (c.advance celt.toNat) ∧
      (e.next celt true pceltFetched).elements = c.fetch celt.toNat ∧
      ((e.next celt true pceltFetched).hr = sOk ↔ celt.toNat ≤ c.rest.length) := by
  have helements : (VirtualDataObject.next e.formats celt.toNat e.pos).1 = c.fetch celt.toNat := by
    rw [next_eq, ← count_toNat, Cursor.fetch, Cursor.rest, hshows.items, hshows.passed]
    rfl
  have hpos := next_advances e.formats celt.toNat e.pos
  rw [helements] at hpos
  rw [next_valid e celt hvalid, helements, ← Cursor.length_fetch_eq_iff]
  refine ⟨hshows.goes hpos, rfl, ?_⟩
  by_cases hfull : (c.fetch celt.toNat).length = celt.toNat
  · simp [hfull]
  · simp [hfull, sFalse_ne_sOk]

theorem skip_of_lt {celt : UInt32} (hlt : e.count - e.pos < celt) :
    e.skip celt = (sFalse, { e with pos := e.count }) := by
  simp only [Enumerator.skip]
  rw [if_pos hlt]

theorem skip_of_le {celt : UInt32} (hle : ¬ e.count - e.pos < celt) :
    e.skip celt = (sOk, { e with pos := e.pos + celt }) := by
  simp only [Enumerator.skip]
  rw [if_neg hle]

theorem skip_formats (e : Enumerator) (celt : UInt32) : (e.skip celt).2.formats = e.formats := by
  by_cases hlt : e.count - e.pos < celt
  · rw [skip_of_lt hlt]
  · rw [skip_of_le hlt]

/-- **The subtraction of `Skip`** does not underflow. -/
theorem Enumerator.Shows.remaining (hshows : e.Shows c) :
    (e.count - e.pos).toNat = c.rest.length := by
  rw [UInt32.toNat_sub_of_le _ _ hshows.pos_le, hshows.length_rest]

/-- **`Skip` steps with the cursor.** -/
theorem Enumerator.Shows.skip (hshows : e.Shows c) (celt : UInt32) :
    (e.skip celt).2.Shows (c.advance celt.toNat) ∧
      ((e.skip celt).1 = sOk ↔ celt.toNat ≤ c.rest.length) := by
  have hremaining := hshows.remaining
  have hlength := hshows.length_rest
  have hle := UInt32.le_iff_toNat_le.mp hshows.pos_le
  by_cases hlt : e.count - e.pos < celt
  · have hfew : c.rest.length < celt.toNat := by
      rw [← hremaining]
      exact UInt32.lt_iff_toNat_lt.mp hlt
    rw [skip_of_lt hlt]
    refine ⟨hshows.goes ?_, by simp [sFalse_ne_sOk, hfew]⟩
    rw [Cursor.length_fetch, Nat.min_eq_right hfew.le, hlength]
    omega
  · have henough : celt.toNat ≤ c.rest.length := by
      rw [← hremaining]
      exact UInt32.le_iff_toNat_le.mp (UInt32.not_lt.mp hlt)
    rw [skip_of_le hlt]
    refine ⟨hshows.goes ?_, by simp [henough]⟩
    have hmax := e.count.toNat_lt
    rw [Cursor.length_fetch, Nat.min_eq_left henough, UInt32.toNat_add]
    exact Nat.mod_eq_of_lt (by omega)

/-- **`Reset`** goes back to the start. -/
theorem Enumerator.Shows.reset (hshows : e.Shows c) : e.reset.Shows (.start c.items) where
  items := hshows.items
  passed := rfl

/-- What `Skip` passes over. -/
theorem Enumerator.Shows.skipped (hshows : e.Shows c) (celt : UInt32) :
    segment e.formats e.pos.toNat (e.skip celt).2.pos.toNat = c.fetch celt.toNat := by
  obtain ⟨hafter, -⟩ := hshows.skip celt
  have hle : (c.advance celt.toNat).passed ≤ e.count.toNat := by
    rw [← length_counted, ← hshows.items]
    exact (c.advance celt.toNat).within
  rw [Cursor.fetch_eq_segment, ← hafter.passed, hshows.passed, hshows.items]
  simp only [Library.segment, Enumerator.counted]
  rw [List.take_take, Nat.min_eq_left hle]

end

/-! ## Any sequence of calls -/

/-- One rule for each way a call goes. -/
inductive Step (s : List Enumerator) : Action → List Obs → List Enumerator → Prop
  | fetches {i : Nat} {e : Enumerator} {celt : UInt32} {rgelt pceltFetched : Bool}
      (he : s[i]? = some e) :
      Step s (.next i celt rgelt pceltFetched)
        [.fetched i (e.next celt rgelt pceltFetched).elements
          (e.next celt rgelt pceltFetched).hr]
        (s.set i (e.next celt rgelt pceltFetched).after)
  | skips {i : Nat} {e : Enumerator} {celt : UInt32} (he : s[i]? = some e) :
      Step s (.skip i celt)
        [.skipped i (segment e.formats e.pos.toNat (e.skip celt).2.pos.toNat) (e.skip celt).1]
        (s.set i (e.skip celt).2)
  | resets {i : Nat} {e : Enumerator} (he : s[i]? = some e) :
      Step s (.reset i) [.reset i] (s.set i e.reset)
  | clones {i : Nat} {e : Enumerator} (he : s[i]? = some e) :
      Step s (.clone i true true) [.cloned i s.length] (s ++ [e])
  | refuses {i : Nat} {ppenum allocated : Bool} {hr : HResult}
      (hbad : ¬ (ppenum = true ∧ allocated = true)) (hhr : hr ≠ sOk) :
      Step s (.clone i ppenum allocated) [.failed i hr] s

theorem step_cases {s s' : List Enumerator} {a : Action} {os : List Obs}
    (h : machine.step s a = some (s', os)) : Step s a os s' := by
  obtain ⟨e, he, hcall⟩ := Option.map_eq_some_iff.mp h
  cases a with
  | next i celt rgelt pceltFetched =>
      cases hcall
      exact .fetches he
  | skip i celt =>
      cases hcall
      exact .skips he
  | reset i =>
      cases hcall
      exact .resets he
  | clone i ppenum allocated =>
      cases ppenum with
      | false =>
          cases hcall
          exact .refuses (by simp) (by decide)
      | true =>
          cases allocated with
          | false =>
              cases hcall
              exact .refuses (by simp) (by decide)
          | true =>
              cases hcall
              exact .clones he

@[simp] theorem passed_snoc (h : List Obs) (o : Obs) :
    passed (h ++ [o]) = note (passed h) o := by
  rw [passed, List.foldl_append]
  rfl

/-- **The invariant**: every enumerator stands where a cursor does that has
passed what the enumerator has returned and passed over. -/
def Walks (formats : List FormatEtc) (h : List Obs) (s : List Enumerator) : Prop :=
  ∀ i e, s[i]? = some e → e.formats = formats ∧ ∃ c, e.Shows c ∧ passed h i = c.front

theorem walks_initial (formats : List FormatEtc) : Walks formats [] [⟨formats, 0⟩] := by
  intro i e he
  cases i with
  | zero =>
      cases he
      exact ⟨rfl, _, shows_start formats, rfl⟩
  | succ i => cases he

/-- A call on one enumerator leaves the others alone. -/
theorem Walks.set {formats : List FormatEtc} {h : List Obs} {s : List Enumerator}
    (hwalks : Walks formats h s) {i : Nat} {e' : Enumerator} {o : Obs}
    (hothers : ∀ j, j ≠ i → passed (h ++ [o]) j = passed h j)
    (hnext : e'.formats = formats ∧ ∃ c, e'.Shows c ∧ passed (h ++ [o]) i = c.front) :
    Walks formats (h ++ [o]) (s.set i e') := by
  intro j e he
  by_cases hindex : i = j
  · subst hindex
    have hmem : e = e' := by
      rw [List.getElem?_set_self'] at he
      obtain ⟨_, -, heq⟩ := Option.map_eq_some_iff.mp he
      exact heq.symm
    subst hmem
    exact hnext
  · rw [List.getElem?_set_ne hindex] at he
    rw [hothers j (fun heq => hindex heq.symm)]
    exact hwalks j e he

theorem step_walks {formats : List FormatEtc} {h : List Obs} {s s' : List Enumerator}
    {a : Action} {os : List Obs} (hwalks : Walks formats h s)
    (hstep : machine.step s a = some (s', os)) : Walks formats (h ++ os) s' := by
  cases step_cases hstep with
  | @fetches i e celt rgelt pceltFetched he =>
      obtain ⟨hformats, c, hshows, hpassed⟩ := hwalks i e he
      refine hwalks.set (fun j hj => by simp [note, hj]) ?_
      by_cases hvalid : rgelt = true ∧ (pceltFetched = true ∨ celt = 1)
      · obtain ⟨rfl, hvalid⟩ := hvalid
        obtain ⟨hafter, helements, -⟩ := hshows.next celt hvalid
        refine ⟨?_, _, hafter, ?_⟩
        · rw [next_valid e celt hvalid]
          exact hformats
        · simp [note, hpassed, helements, Cursor.front_advance]
      · obtain ⟨helements, hafter⟩ := next_invalid e celt hvalid
        rw [helements, hafter]
        exact ⟨hformats, c, hshows, by simp [note, hpassed]⟩
  | @skips i e celt he =>
      obtain ⟨hformats, c, hshows, hpassed⟩ := hwalks i e he
      refine hwalks.set (fun j hj => by simp [note, hj]) ?_
      obtain ⟨hafter, -⟩ := hshows.skip celt
      refine ⟨?_, _, hafter, ?_⟩
      · rw [skip_formats]
        exact hformats
      · simp [note, hpassed, hshows.skipped, Cursor.front_advance]
  | @resets i e he =>
      obtain ⟨hformats, c, hshows, hpassed⟩ := hwalks i e he
      refine hwalks.set (fun j hj => by simp [note, hj]) ?_
      exact ⟨hformats, _, hshows.reset, by simp [note]⟩
  | @clones i e he =>
      intro j e' he'
      rcases Nat.lt_trichotomy j s.length with hlt | rfl | hgt
      · rw [List.getElem?_append_left hlt] at he'
        rw [passed_snoc, note, Function.update_of_ne hlt.ne]
        exact hwalks j e' he'
      · rw [List.getElem?_concat_length, Option.some.injEq] at he'
        subst he'
        rw [passed_snoc, note, Function.update_self]
        exact hwalks i e he
      · rw [List.getElem?_eq_none (by simp; omega)] at he'
        cases he'
  | refuses hbad hhr => simpa [Walks, note] using hwalks

theorem walks_of_run {formats : List FormatEtc} {h : List Obs} {s : List Enumerator}
    (hrun : machine.Run Machine.always [⟨formats, 0⟩] h s) : Walks formats h s :=
  hrun.history_invariant (Walks formats) (walks_initial formats)
    (fun _ _ _ _ _ hwalks _ hstep => step_walks hwalks hstep)

/-- The cloned enumerator, and all others, after a call. -/
theorem step_others {s s' : List Enumerator} {a : Action} {os : List Obs}
    (hstep : machine.step s a = some (s', os)) {j : Nat} {e : Enumerator} (hj : j ≠ a.target)
    (he : s[j]? = some e) : s'[j]? = some e := by
  obtain ⟨hlt, -⟩ := List.getElem?_eq_some_iff.mp he
  cases step_cases hstep with
  | fetches | skips | resets =>
      simp only [Action.target] at hj
      rw [List.getElem?_set_ne hj.symm]
      exact he
  | clones =>
      rw [List.getElem?_append_left hlt]
      exact he
  | refuses => exact he

/-! ## The contract -/

/-- **The contract of an enumerator**, in a state with a history. -/
structure Contract (formats : List FormatEtc) (h : List Obs) (s : List Enumerator) : Prop where
  /-- The position stays inside, and `Skip` subtracts no more than there is. -/
  cursor : ∀ (i : Nat) (e : Enumerator), s[i]? = some e →
    e.formats = formats ∧ e.pos.toNat ≤ formats.length ∧ e.pos ≤ e.count
  /-- What has been returned and passed over since the last `Reset` is the
  front of the list. -/
  front : ∀ (i : Nat) (e : Enumerator), s[i]? = some e → passed h i = formats.take e.pos.toNat
  /-- `Next` and `Skip` say `S_OK` if there are so many formats. -/
  next : ∀ (i : Nat) (e : Enumerator) celt pceltFetched, s[i]? = some e →
    (pceltFetched = true ∨ celt = 1) →
    ((e.next celt true pceltFetched).hr = sOk ↔ celt.toNat ≤ formats.length - e.pos.toNat)
  skip : ∀ (i : Nat) (e : Enumerator) celt, s[i]? = some e →
    ((e.skip celt).1 = sOk ↔ celt.toNat ≤ formats.length - e.pos.toNat)
  /-- A clone stands where the original does, -/
  clone : ∀ (i : Nat) e s' os, s[i]? = some e →
    machine.step s (.clone i true true) = some (s', os) → s'[s.length]? = some e
  /-- and a call on one enumerator changes no other. -/
  independent : ∀ a s' os, machine.step s a = some (s', os) →
    ∀ (j : Nat) e, j ≠ a.target → s[j]? = some e → s'[j]? = some e

section

variable {formats : List FormatEtc} {h : List Obs} {s : List Enumerator} {i : Nat}
  {e : Enumerator}

/-! What holds for every list. -/

theorem Walks.cursor (hwalks : Walks formats h s) (he : s[i]? = some e) :
    e.formats = formats ∧ e.pos.toNat ≤ formats.length ∧ e.pos ≤ e.count := by
  obtain ⟨rfl, c, hshows, -⟩ := hwalks i e he
  have hcount : e.count.toNat ≤ e.formats.length := by
    rw [count_toNat]
    exact Nat.mod_le _ _
  exact ⟨rfl, le_trans (UInt32.le_iff_toNat_le.mp hshows.pos_le) hcount, hshows.pos_le⟩

theorem Walks.front (hwalks : Walks formats h s) (he : s[i]? = some e) :
    passed h i = formats.take e.pos.toNat := by
  obtain ⟨rfl, c, hshows, hpassed⟩ := hwalks i e he
  have hpos := UInt32.le_iff_toNat_le.mp hshows.pos_le
  rw [hpassed, Cursor.front, hshows.items, hshows.passed, Enumerator.counted, List.take_take,
    Nat.min_eq_left hpos]

/-- `S_OK` is about the formats that are counted, -/
theorem Walks.next_iff (hwalks : Walks formats h s) (he : s[i]? = some e) (celt : UInt32)
    {pceltFetched : Bool} (hvalid : pceltFetched = true ∨ celt = 1) :
    (e.next celt true pceltFetched).hr = sOk ↔
      celt.toNat ≤ formats.length % 2 ^ 32 - e.pos.toNat := by
  obtain ⟨rfl, c, hshows, -⟩ := hwalks i e he
  rw [(hshows.next celt hvalid).2.2, hshows.length_rest, count_toNat]

/-- from `Skip` as well. -/
theorem Walks.skip_iff (hwalks : Walks formats h s) (he : s[i]? = some e) (celt : UInt32) :
    (e.skip celt).1 = sOk ↔ celt.toNat ≤ formats.length % 2 ^ 32 - e.pos.toNat := by
  obtain ⟨rfl, c, hshows, -⟩ := hwalks i e he
  rw [(hshows.skip celt).2, hshows.length_rest, count_toNat]

theorem clone_last (he : s[i]? = some e) {s' : List Enumerator} {os : List Obs}
    (hstep : machine.step s (.clone i true true) = some (s', os)) : s'[s.length]? = some e := by
  cases step_cases hstep with
  | @clones i e' he' =>
      rw [he, Option.some.injEq] at he'
      rw [List.getElem?_concat_length, he']
  | refuses hbad => exact absurd ⟨rfl, rfl⟩ hbad

/-- **Fewer than 2³² formats**: all are counted. -/
theorem Walks.contract (hshort : formats.length < 2 ^ 32) (hwalks : Walks formats h s) :
    Contract formats h s where
  cursor i e he := hwalks.cursor he
  front i e he := hwalks.front he
  next i e celt pceltFetched he hvalid := by
    rw [hwalks.next_iff he celt hvalid, Nat.mod_eq_of_lt hshort]
  skip i e celt he := by rw [hwalks.skip_iff he celt, Nat.mod_eq_of_lt hshort]
  clone i e s' os he hstep := clone_last he hstep
  independent a s' os hstep j e hj he := step_others hstep hj he

/-- All formats that are counted can be skipped at once. -/
theorem skip_counted (formats : List FormatEtc) :
    ∃ h, machine.Run Machine.always [⟨formats, 0⟩] h [⟨formats, UInt32.ofNat formats.length⟩] := by
  have hskip : (Enumerator.mk formats 0).skip (UInt32.ofNat formats.length) =
      (sOk, ⟨formats, UInt32.ofNat formats.length⟩) := by
    rw [skip_of_le (by simp [Enumerator.count]), UInt32.zero_add]
  have hstep : machine.step [⟨formats, 0⟩] (.skip 0 (UInt32.ofNat formats.length)) =
      some ([⟨formats, UInt32.ofNat formats.length⟩],
        [.skipped 0 (segment formats 0 (UInt32.ofNat formats.length).toNat) sOk]) := by
    simp only [machine, Action.target, call, List.getElem?_cons_zero, Option.map_some, hskip,
      List.set_cons_zero, UInt32.toNat_zero]
  exact ⟨_, .snoc .nil trivial hstep⟩

/-- **More formats**: then `Next` says `S_FALSE` for one format more. -/
theorem exists_breach (hlong : 2 ^ 32 ≤ formats.length) :
    ∃ h s, machine.Run Machine.always [⟨formats, 0⟩] h s ∧ ¬ Contract formats h s := by
  obtain ⟨h, hrun⟩ := skip_counted formats
  refine ⟨h, _, hrun, ?_⟩
  intro hcontract
  have hpos : (UInt32.ofNat formats.length).toNat = formats.length % 2 ^ 32 :=
    UInt32.toNat_ofNat'
  have hmod : formats.length % 2 ^ 32 < 2 ^ 32 := Nat.mod_lt _ (by omega)
  have hpromised := hcontract.next 0 _ 1 true rfl (.inl rfl)
  rw [(walks_of_run hrun).next_iff (i := 0) rfl 1 (.inl rfl)] at hpromised
  simp only [hpos, UInt32.toNat_one] at hpromised
  omega

end

/-- The enumerators of an announcement: there are three formats beside one for
each file. -/
theorem advertised_contract {formats : ClipboardFormats} {object : Object}
    (hfew : object.specs.length + 3 < 2 ^ 32) {h : List Obs} {s : List Enumerator}
    (hrun : machine.Run Machine.always [⟨advertised formats object, 0⟩] h s) :
    Contract (advertised formats object) h s :=
  (walks_of_run hrun).contract (by rw [length_advertised]; exact hfew)

/-- With 2³² formats the count is zero. -/
theorem next_of_wrapped {formats : List FormatEtc} (hlength : formats.length = 2 ^ 32) :
    ((Enumerator.mk formats 0).next 1 true true).elements = [] ∧
      ((Enumerator.mk formats 0).next 1 true true).hr = sFalse := by
  have hnone : (VirtualDataObject.next formats (1 : UInt32).toNat 0).1 = [] := by
    rw [next_eq, hlength]
    rfl
  rw [next_valid _ _ (.inl rfl), hnone]
  exact ⟨rfl, by simp⟩

end VirtualFileEnum
