import ClipboardHelper.Library.Segment

/-!
# Cursors

An enumerator shows a list in portions.  A **cursor** stands between two
elements of the list: in front of it is what has been passed, behind it what
is left.  Asked for a number of elements it passes so many, or all that are
left (`advance`), and what it passes continues what it has passed before
(`front_advance`).  A request is met in full exactly if so many are left
(`length_fetch_eq_iff`).
-/

namespace Library

/-- A place in a list. -/
@[ext] structure Cursor (α : Type) where
  items : List α
  passed : Nat
  within : passed ≤ items.length

namespace Cursor

variable {α : Type}

/-- The place in front of the list. -/
def start (items : List α) : Cursor α where
  items := items
  passed := 0
  within := Nat.zero_le _

/-- What has been passed, -/
def front (c : Cursor α) : List α := c.items.take c.passed

/-- what is left, -/
def rest (c : Cursor α) : List α := c.items.drop c.passed

/-- and the next elements of it. -/
def fetch (c : Cursor α) (n : Nat) : List α := c.rest.take n

/-- Past the next elements. -/
def advance (c : Cursor α) (n : Nat) : Cursor α where
  items := c.items
  passed := min (c.passed + n) c.items.length
  within := Nat.min_le_right _ _

@[simp] theorem front_start (items : List α) : (start items).front = [] := rfl

theorem length_rest (c : Cursor α) : c.rest.length = c.items.length - c.passed :=
  List.length_drop

/-- **Nothing is passed twice or left out.** -/
theorem front_advance (c : Cursor α) (n : Nat) :
    (c.advance n).front = c.front ++ c.fetch n := by
  calc (c.advance n).front
      = c.items.take (c.passed + n) := List.take_eq_take_min.symm
    _ = c.front ++ c.fetch n := List.take_add

theorem length_fetch (c : Cursor α) (n : Nat) : (c.fetch n).length = min n c.rest.length :=
  List.length_take

/-- The cursor goes on by what it passes. -/
theorem passed_advance (c : Cursor α) (n : Nat) :
    (c.advance n).passed = c.passed + (c.fetch n).length := by
  have hwithin := c.within
  rw [length_fetch, length_rest]
  show min (c.passed + n) c.items.length = _
  omega

/-- What is passed is the stretch between the two places. -/
theorem fetch_eq_segment (c : Cursor α) (n : Nat) :
    c.fetch n = segment c.items c.passed (c.advance n).passed := by
  rw [passed_advance, segment_eq_take_drop, length_fetch]
  exact List.take_eq_take_min

/-- **A request is met in full** if there is so much left. -/
theorem length_fetch_eq_iff (c : Cursor α) (n : Nat) :
    (c.fetch n).length = n ↔ n ≤ c.rest.length := by
  rw [length_fetch]
  omega

end Cursor

end Library
