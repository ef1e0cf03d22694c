import ClipboardHelper.Library.Layout

/-!
# Checked execution

A program of fixed-width integers and byte buffers, run with every check that
the language leaves to the programmer.  A number that does not fit its type
and an access outside its buffer are a `fault`; a program that gives up by
itself ends in `reject`.  A program that never faults is free of both kinds of
error, whatever it computes.

`memcpy` says what a copy between two buffers does (`memcpy_eq`): it faults
unless both ends fit, and fills exactly its part of the target.
-/

namespace Library

/-- How a checked run ends. -/
inductive Outcome (α : Type) where
  | fault
  | reject
  | ok (value : α)
deriving DecidableEq, Repr

namespace Outcome

variable {α β : Type}

def bind (run : Outcome α) (next : α → Outcome β) : Outcome β :=
  match run with
  | fault => fault
  | reject => reject
  | ok value => next value

instance : Monad Outcome where
  pure := ok
  bind := bind

@[simp] theorem pure_eq (value : α) : (pure value : Outcome α) = ok value := rfl

@[simp] theorem ok_bind (value : α) (next : α → Outcome β) : (ok value >>= next) = next value := rfl

@[simp] theorem reject_bind (next : α → Outcome β) : ((reject : Outcome α) >>= next) = reject := rfl

/-- `return false` under a condition. -/
def rejectIf (p : Prop) [Decidable p] : Outcome Unit := if p then reject else ok ()

theorem rejectIf_pos {p : Prop} [Decidable p] (h : p) : rejectIf p = reject := if_pos h

theorem rejectIf_neg {p : Prop} [Decidable p] (h : ¬ p) : rejectIf p = ok () := if_neg h

/-- A check that is part of a condition: where it fails so does the condition,
and where it passes the rest decides. -/
theorem rejectIf_then {p q : Prop} [Decidable p] [Decidable q] {next : Unit → Outcome β} {value : β}
    (hbad : p → ¬ q) (hgood : ¬ p → next () = if q then ok value else reject) :
    (rejectIf p >>= next) = if q then ok value else reject := by
  by_cases hp : p
  · rw [rejectIf_pos hp, reject_bind, if_neg (hbad hp)]
  · rw [rejectIf_neg hp, ok_bind, hgood hp]

/-! ## Numbers -/

/-- A signed number of 32 bits. -/
def int32 (n : Int) : Outcome Int := if -2 ^ 31 ≤ n ∧ n < 2 ^ 31 then ok n else fault

/-- A signed number of 64 bits. -/
def int64 (n : Int) : Outcome Int := if -2 ^ 63 ≤ n ∧ n < 2 ^ 63 then ok n else fault

/-- An unsigned number of 64 bits. -/
def size (n : Nat) : Outcome Nat := if n < 2 ^ 64 then ok n else fault

theorem int32_eq {n : Int} (hlow : -2 ^ 31 ≤ n) (hhigh : n < 2 ^ 31) : int32 n = ok n :=
  if_pos ⟨hlow, hhigh⟩

theorem int64_eq {n : Int} (hlow : -2 ^ 63 ≤ n) (hhigh : n < 2 ^ 63) : int64 n = ok n :=
  if_pos ⟨hlow, hhigh⟩

theorem size_eq {n : Nat} (h : n < 2 ^ 64) : size n = ok n := if_pos h

/-! ## Buffers -/

def load (memory : Bytes) (index : Nat) : Outcome UInt8 :=
  match memory[index]? with
  | none => fault
  | some b => ok b

/-- A field of a record, least significant byte first. -/
def loadLE (memory : Bytes) (offset width : Nat) : Outcome Nat :=
  match readLE memory offset width with
  | none => fault
  | some n => ok n

def store (memory : Bytes) (index : Nat) (b : UInt8) : Outcome Bytes :=
  if index < memory.length then ok (memory.set index b) else fault

/-- `memcpy` of `n` bytes, from the first on. -/
def memcpy (target source : Bytes) : Nat → Nat → Nat → Outcome Bytes
  | _, _, 0 => ok target
  | place, start, n + 1 => do
    let b ← load source start
    let target ← store target place b
    memcpy target source (place + 1) (start + 1) n

theorem load_eq {memory : Bytes} {index : Nat} (h : index < memory.length) :
    load memory index = ok memory[index] := by
  rw [load, List.getElem?_eq_getElem h]

theorem loadLE_eq (memory : Bytes) (offset width : Nat) (h : offset + width ≤ memory.length) :
    ∃ n, readLE memory offset width = some n ∧ loadLE memory offset width = ok n := by
  obtain ⟨n, hn⟩ := Option.isSome_iff_exists.mp ((readLE_isSome_iff memory offset width).mpr h)
  exact ⟨n, hn, by rw [loadLE, hn]⟩

/-- A store behind what has been filled already. -/
theorem store_append (front rest : Bytes) (old b : UInt8) :
    store (front ++ old :: rest) front.length b = ok (front ++ b :: rest) := by
  rw [store, if_pos (by simp), List.set_append_right front.length b (Nat.le_refl _),
    Nat.sub_self, List.set_cons_zero]

/-- **What a copy does**: it fills its part of the target, in the place of
`gap`, and nothing else. -/
theorem memcpy_eq {source gap : Bytes} {n : Nat} (hgap : gap.length = n) :
    ∀ (front rest : Bytes) (start : Nat), start + n ≤ source.length →
      memcpy (front ++ (gap ++ rest)) source front.length start n =
        ok (front ++ ((source.drop start).take n ++ rest)) := by
  induction n generalizing gap with
  | zero =>
      intro front rest start _
      rw [List.length_eq_zero_iff.mp hgap, memcpy, List.take_zero]
  | succ n ih =>
      intro front rest start hfits
      obtain ⟨old, gap, rfl⟩ := List.exists_cons_of_length_eq_add_one hgap
      rw [List.length_cons, Nat.add_right_cancel_iff] at hgap
      have hstart : start < source.length := by omega
      have htail := ih hgap (front ++ [source[start]]) rest (start + 1) (by omega)
      rw [List.length_append, List.length_singleton, List.append_assoc, List.append_assoc,
        List.singleton_append, List.singleton_append] at htail
      rw [memcpy, load_eq hstart, ok_bind, List.cons_append, store_append, ok_bind, htail,
        List.drop_eq_getElem_cons hstart, List.take_succ_cons, List.cons_append]

end Outcome

end Library
