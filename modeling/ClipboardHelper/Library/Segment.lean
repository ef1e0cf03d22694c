import Mathlib

/-!
# Stretches of a list

`segment xs a b` holds the elements from position `a` on and before position
`b`.  Stretches that meet can be joined (`segment_append`), and a stretch of a
concatenation that lies in one part is a stretch of that part
(`segment_append_left`, `segment_append_right`).
-/

namespace Library

variable {α : Type}

/-- The elements from position `a` on, before position `b`. -/
def segment (xs : List α) (a b : Nat) : List α := (xs.take b).drop a

@[simp] theorem segment_self (xs : List α) (a : Nat) : segment xs a a = [] := by
  simp [segment]

@[simp] theorem segment_all (xs : List α) : segment xs 0 xs.length = xs := by
  simp [segment]

/-- A stretch, counted from its beginning. -/
theorem segment_eq_take_drop (xs : List α) (a n : Nat) :
    segment xs a (a + n) = (xs.drop a).take n := by
  rw [segment, List.drop_take, Nat.add_sub_cancel_left]

theorem length_segment (xs : List α) {a b : Nat} (hb : b ≤ xs.length) :
    (segment xs a b).length = b - a := by
  rw [segment, List.length_drop, List.length_take, Nat.min_eq_left hb]

/-- **Stretches that meet** make one stretch. -/
theorem segment_append (xs : List α) {a b c : Nat} (hab : a ≤ b) (hbc : b ≤ c) :
    segment xs a b ++ segment xs b c = segment xs a c := by
  obtain ⟨m, rfl⟩ := Nat.exists_eq_add_of_le hab
  obtain ⟨n, rfl⟩ := Nat.exists_eq_add_of_le hbc
  rw [segment_eq_take_drop, segment_eq_take_drop, Nat.add_assoc, segment_eq_take_drop,
    List.take_add, List.drop_drop]

/-- **Rows**: the stretches of `n` elements one after the other. -/
theorem flatMap_segment (xs : List α) (n count : Nat) :
    ((List.range count).flatMap fun i => segment xs (i * n) ((i + 1) * n)) =
      segment xs 0 (count * n) := by
  induction count with
  | zero => simp
  | succ count ih =>
      rw [List.range_succ, List.flatMap_append, ih, List.flatMap_singleton]
      exact segment_append xs (Nat.zero_le _) (Nat.mul_le_mul_right n (Nat.le_succ count))

/-- Past the end there is nothing. -/
theorem segment_of_le (xs : List α) {a b : Nat} (ha : xs.length ≤ a) : segment xs a b = [] := by
  have hlength : (xs.take b).length ≤ a := by
    rw [List.length_take]
    omega
  rw [segment, List.drop_eq_nil_of_le hlength]

/-- A stretch that ends before it begins is empty. -/
theorem segment_of_ge (xs : List α) {a b : Nat} (hab : b ≤ a) : segment xs a b = [] := by
  have hlength : (xs.take b).length ≤ a := by
    rw [List.length_take]
    omega
  rw [segment, List.drop_eq_nil_of_le hlength]

/-- A list begins with a stretch, then comes the rest. -/
theorem segment_append_drop (xs : List α) {a b : Nat} (hab : a ≤ b) :
    segment xs a b ++ xs.drop b = xs.drop a := by
  obtain ⟨n, rfl⟩ := Nat.exists_eq_add_of_le hab
  rw [segment_eq_take_drop, ← List.drop_drop, List.take_append_drop]

theorem segment_append_left (xs ys : List α) {a b : Nat} (hb : b ≤ xs.length) :
    segment (xs ++ ys) a b = segment xs a b := by
  rw [segment, segment, List.take_append_of_le_length hb]

theorem segment_append_right (xs ys : List α) (a b : Nat) :
    segment (xs ++ ys) (xs.length + a) (xs.length + b) = segment ys a b := by
  simp [segment, List.drop_append, List.take_append]

end Library
