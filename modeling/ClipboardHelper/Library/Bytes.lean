import Mathlib

/-!
# Byte strings

Byte strings as they appear in messages and keys, and their sizes.  The only
things said about them here are these:

* `decimal` is the numeral that `std::to_string` prints, written in ASCII;
  it is injective (`decimal_injective`) and contains digits only
  (`digit_of_mem_decimal`);
* a string that ends in a separator and a separator-free tail splits in one
  way only (`append_cons_inj_last`);
* the smaller of two sizes is the smaller one as a number (`toNat_min`), also
  where it is stored with half the width (`toNat_toUInt32_min`), and a size
  loses what is taken from it (`toNat_sub_ofNat`).
-/

namespace Library

/-- A byte string. -/
abbrev Bytes := List UInt8

/-- The ASCII code of a character below 256. -/
def asciiCode (c : Char) : UInt8 := UInt8.ofNat c.toNat

/-- An ASCII text, as bytes. -/
def ascii (text : String) : Bytes := text.toList.map asciiCode

/-- The decimal numeral of `n`, in ASCII. -/
def decimal (n : Nat) : Bytes := (Nat.toDigits 10 n).map asciiCode

theorem toNat_le_of_isDigit {c : Char} (h : c.isDigit) : 48 ≤ c.toNat ∧ c.toNat ≤ 57 := by
  simp only [Char.isDigit, Bool.and_eq_true, decide_eq_true_eq] at h
  exact ⟨UInt32.le_iff_toNat_le.mp h.1, UInt32.le_iff_toNat_le.mp h.2⟩

theorem toNat_asciiCode {c : Char} (h : c.isDigit) : (asciiCode c).toNat = c.toNat := by
  have hc := toNat_le_of_isDigit h
  simp only [asciiCode, UInt8.toNat_ofNat']
  omega

/-- The bytes of a numeral are the ASCII digits. -/
theorem digit_of_mem_decimal {n : Nat} {b : UInt8} (h : b ∈ decimal n) :
    48 ≤ b.toNat ∧ b.toNat ≤ 57 := by
  obtain ⟨c, hc, rfl⟩ := List.mem_map.mp h
  have hd := Nat.isDigit_of_mem_toDigits (by omega) (by omega) hc
  rw [toNat_asciiCode hd]
  exact toNat_le_of_isDigit hd

/-- The characters of a numeral can be read back from its bytes. -/
theorem chars_decimal (n : Nat) :
    (decimal n).map (fun b => Char.ofNat b.toNat) = Nat.toDigits 10 n := by
  rw [decimal, List.map_map]
  conv_rhs => rw [← List.map_id (Nat.toDigits 10 n)]
  apply List.map_congr_left
  intro c hc
  have hd := Nat.isDigit_of_mem_toDigits (by omega) (by omega) hc
  simp [toNat_asciiCode hd]

/-- **Numerals determine their number.** -/
theorem decimal_injective : Function.Injective decimal := by
  intro m n h
  have hchars : Nat.toDigits 10 m = Nat.toDigits 10 n := by
    rw [← chars_decimal m, h, chars_decimal]
  simpa using congrArg (Nat.ofDigitChars 10 · 0) hchars

/-- **The last separator.**  Two strings that end in a separator and a
separator-free tail agree only piece by piece. -/
theorem append_cons_inj_last {α : Type} {c : α} {xs xs' ys ys' : List α}
    (hys : c ∉ ys) (hys' : c ∉ ys') (h : xs ++ c :: ys = xs' ++ c :: ys') :
    xs = xs' ∧ ys = ys' := by
  rcases List.append_eq_append_iff.mp h with ⟨zs, hxs, hrest⟩ | ⟨zs, hxs, hrest⟩
  · cases zs with
    | nil => simpa [eq_comm] using And.intro hxs hrest
    | cons z zs =>
        rw [List.cons_append, List.cons.injEq] at hrest
        exact absurd (by simp [hrest.2]) hys
  · cases zs with
    | nil => simpa [eq_comm] using And.intro hxs hrest
    | cons z zs =>
        rw [List.cons_append, List.cons.injEq] at hrest
        exact absurd (by simp [hrest.2]) hys'

/-! ## Sizes -/

theorem toNat_min (a b : UInt64) : (min a b).toNat = min a.toNat b.toNat := by
  change (if a ≤ b then a else b).toNat = min a.toNat b.toNat
  by_cases hle : a ≤ b
  · rw [if_pos hle, Nat.min_eq_left (UInt64.le_iff_toNat_le.mp hle)]
  · have hge : b.toNat ≤ a.toNat := by
      have hlt := UInt64.lt_iff_toNat_lt.mp (UInt64.not_le.mp hle)
      omega
    rw [if_neg hle, Nat.min_eq_right hge]

/-- What does not exceed a 32-bit size fits into one. -/
theorem toNat_toUInt32_min (a : UInt64) (b : UInt32) :
    (min a b.toUInt64).toUInt32.toNat = min a.toNat b.toNat := by
  rw [UInt64.toNat_toUInt32, toNat_min, UInt32.toNat_toUInt64]
  exact Nat.mod_eq_of_lt (Nat.lt_of_le_of_lt (Nat.min_le_right _ _) b.toNat_lt)

/-- A 32-bit size in 64 bits. -/
theorem toUInt64_ofNat {n : Nat} (hn : n < 2 ^ 32) :
    (UInt32.ofNat n).toUInt64 = UInt64.ofNat n := by
  have hwide : n < 2 ^ 64 := by omega
  refine UInt64.toNat_inj.mp ?_
  rw [UInt32.toNat_toUInt64, UInt32.toNat_ofNat_of_lt' hn, UInt64.toNat_ofNat_of_lt' hwide]

/-- What is left of a size when part of it is done. -/
theorem toNat_sub_ofNat {a : UInt64} {n : Nat} (hn : n ≤ a.toNat) :
    (a - UInt64.ofNat n).toNat + n = a.toNat := by
  have hpart : (UInt64.ofNat n).toNat = n :=
    UInt64.toNat_ofNat_of_lt' (Nat.lt_of_le_of_lt hn a.toNat_lt)
  have hle : UInt64.ofNat n ≤ a := UInt64.le_iff_toNat_le.mpr (by omega)
  rw [UInt64.toNat_sub_of_le _ _ hle]
  omega

end Library
