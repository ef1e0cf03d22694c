import ClipboardHelper.Library.Bytes

/-!
# Numbers in groups of seven bits

A number written as bytes of seven bits each, the lowest group first, where
the high bit of a byte says that another one follows.  `numeral` cuts the
bytes of the first number off a byte string; `denotes` is the number, as a
natural number without a bound.

Nothing is said about the width in which a reader keeps the number: that the
number stays below a power of 128 is a property of the bytes behind that
place (`denotes_lt_pow`).
-/

namespace Library

namespace Base128

/-- The bytes up to and with the first one whose high bit is clear; `none`
when there is no such byte. -/
def numeral : Bytes → Option Bytes
  | [] => none
  | b :: rest => if b.toNat < 128 then some [b] else (numeral rest).map (b :: ·)

/-- The groups of a numeral, put together. -/
def denotes (bytes : Bytes) : Nat := Nat.ofDigits 128 (bytes.map (·.toNat % 128))

@[simp] theorem denotes_nil : denotes [] = 0 := rfl

@[simp] theorem denotes_cons (b : UInt8) (bytes : Bytes) :
    denotes (b :: bytes) = b.toNat % 128 + 128 * denotes bytes := by
  simp [denotes, Nat.ofDigits_cons]

theorem numeral_cons_last {b : UInt8} (h : b.toNat < 128) (rest : Bytes) :
    numeral (b :: rest) = some [b] := by
  rw [numeral, if_pos h]

theorem numeral_cons_more {b : UInt8} (h : ¬ b.toNat < 128) (rest : Bytes) :
    numeral (b :: rest) = (numeral rest).map (b :: ·) := by
  rw [numeral, if_neg h]

/-- A numeral begins the string it is cut from, and what follows it does not
matter. -/
theorem numeral_eq_some {data num : Bytes} (h : numeral data = some num) :
    ∃ rest, data = num ++ rest ∧ ∀ tail, numeral (num ++ tail) = some num := by
  induction data generalizing num with
  | nil => cases h
  | cons b data ih =>
      by_cases hb : b.toNat < 128
      · rw [numeral_cons_last hb, Option.some.injEq] at h
        subst h
        exact ⟨data, rfl, fun tail => numeral_cons_last hb tail⟩
      · rw [numeral_cons_more hb, Option.map_eq_some_iff] at h
        obtain ⟨num', hnum, rfl⟩ := h
        obtain ⟨rest, rfl, htail⟩ := ih hnum
        refine ⟨rest, rfl, ?_⟩
        intro tail
        rw [List.cons_append, numeral_cons_more hb, htail, Option.map_some]

/-- A numeral has at least one byte; the last one has its high bit clear. -/
theorem numeral_last {data num : Bytes} (h : numeral data = some num) :
    ∃ init last, num = init ++ [last] ∧ last.toNat < 128 := by
  induction data generalizing num with
  | nil => cases h
  | cons b data ih =>
      by_cases hb : b.toNat < 128
      · rw [numeral_cons_last hb, Option.some.injEq] at h
        exact ⟨[], b, h.symm, hb⟩
      · rw [numeral_cons_more hb, Option.map_eq_some_iff] at h
        obtain ⟨num', hnum, rfl⟩ := h
        obtain ⟨init, last, rfl, hlast⟩ := ih hnum
        exact ⟨b :: init, last, rfl, hlast⟩

theorem length_numeral_pos {data num : Bytes} (h : numeral data = some num) :
    0 < num.length := by
  obtain ⟨init, last, rfl, -⟩ := numeral_last h
  simp

theorem denotes_append (front back : Bytes) :
    denotes (front ++ back) = denotes front + 128 ^ front.length * denotes back := by
  rw [denotes, List.map_append, Nat.ofDigits_append, List.length_map]
  rfl

theorem denotes_lt (bytes : Bytes) : denotes bytes < 128 ^ bytes.length := by
  have h := Nat.ofDigits_lt_base_pow_length (b := 128) (l := bytes.map (·.toNat % 128))
    (by omega) (by
      intro d hd
      obtain ⟨b, -, rfl⟩ := List.mem_map.mp hd
      exact Nat.mod_lt _ (by omega))
  rwa [List.length_map] at h

theorem denotes_eq_zero_iff (bytes : Bytes) :
    denotes bytes = 0 ↔ ∀ b ∈ bytes, b.toNat % 128 = 0 := by
  induction bytes with
  | nil => simp
  | cons b bytes ih =>
      rw [denotes_cons, Nat.add_eq_zero_iff, Nat.mul_eq_zero, ih]
      simp

/-- Cutting a numeral at a place where its groups above count. -/
theorem denotes_split {k : Nat} {bytes : Bytes} (hk : k ≤ bytes.length) :
    ∃ low < 128 ^ k, denotes bytes = low + 128 ^ k * denotes (bytes.drop k) := by
  have hlen : (bytes.take k).length = k := List.length_take_of_le hk
  refine ⟨denotes (bytes.take k), ?_, ?_⟩
  · have hlow := denotes_lt (bytes.take k)
    rwa [hlen] at hlow
  · have hcut := denotes_append (bytes.take k) (bytes.drop k)
    rwa [List.take_append_drop, hlen] at hcut

/-- **Size of a number.**  It is below `128 ^ k` when the groups behind the
first `k` are all zero. -/
theorem denotes_lt_pow (k : Nat) (bytes : Bytes) :
    denotes bytes < 128 ^ k ↔ ∀ b ∈ bytes.drop k, b.toNat % 128 = 0 := by
  rw [← denotes_eq_zero_iff]
  by_cases hk : k ≤ bytes.length
  · obtain ⟨low, hlow, hcut⟩ := denotes_split hk
    rw [hcut]
    cases denotes (bytes.drop k) with
    | zero => simpa using hlow
    | succ high =>
        have hle : 128 ^ k ≤ 128 ^ k * (high + 1) := Nat.le_mul_of_pos_right _ (by omega)
        constructor
        · intro h
          omega
        · intro h
          omega
  · have hshort : bytes.drop k = [] := List.drop_eq_nil_of_le (by omega)
    have hlt : denotes bytes < 128 ^ k :=
      (denotes_lt bytes).trans_le (Nat.pow_le_pow_right (by omega) (by omega))
    rw [hshort]
    simpa using hlt

end Base128

end Library
