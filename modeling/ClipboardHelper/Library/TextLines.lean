import ClipboardHelper.Library.Bytes

/-!
# Lines and escapes

Two conventions of text formats, over bytes.

* Percent escapes: `percentEncode` writes every byte that is not safe as `%`
  and two hexadecimal digits.  Decoding gives the bytes back, whichever bytes
  are safe, as long as `%` is not (`percentDecode_percentEncode`).
* Lines that end in CR LF: `crlfLines` cuts a text behind each pair; what is
  left at the end is a line unless it is empty.  Lines without a CR are read
  back (`crlfLines_flatMap`).
-/

namespace Library

/-! ## Percent escapes -/

/-- An upper-case hexadecimal digit. -/
def upperHex (n : Nat) : UInt8 := UInt8.ofNat (if n < 10 then 48 + n else 55 + n)

/-- The value of a hexadecimal digit, in either case. -/
def hexValue (c : UInt8) : Option Nat :=
  if 48 ≤ c.toNat ∧ c.toNat ≤ 57 then some (c.toNat - 48)
  else if 65 ≤ c.toNat ∧ c.toNat ≤ 70 then some (c.toNat - 55)
  else if 97 ≤ c.toNat ∧ c.toNat ≤ 102 then some (c.toNat - 87)
  else none

def percentEncode (safe : UInt8 → Bool) (bytes : Bytes) : Bytes :=
  bytes.flatMap fun c =>
    if safe c then [c] else [0x25, upperHex (c.toNat / 16), upperHex (c.toNat % 16)]

/-- Every `%` with two digits behind it is one byte; anything else stands for
itself. -/
def percentDecode : Bytes → Bytes
  | c :: a :: b :: rest =>
    if c = 0x25 then
      match hexValue a, hexValue b with
      | some high, some low => UInt8.ofNat (16 * high + low) :: percentDecode rest
      | _, _ => c :: percentDecode (a :: b :: rest)
    else c :: percentDecode (a :: b :: rest)
  | bytes => bytes

theorem hexValue_upperHex {n : Nat} (h : n < 16) : hexValue (upperHex n) = some n := by
  have hall : ∀ n : Fin 16, hexValue (upperHex n.val) = some n.val := by decide
  exact hall ⟨n, h⟩

theorem percentDecode_cons {c : UInt8} (hc : c ≠ 0x25) (rest : Bytes) :
    percentDecode (c :: rest) = c :: percentDecode rest := by
  match rest with
  | [] => rfl
  | [_] => rfl
  | a :: b :: rest => rw [percentDecode, if_neg hc]

theorem percentDecode_escape (c : UInt8) (rest : Bytes) :
    percentDecode (0x25 :: upperHex (c.toNat / 16) :: upperHex (c.toNat % 16) :: rest) =
      c :: percentDecode rest := by
  have hbyte := c.toNat_lt
  rw [percentDecode, if_pos rfl, hexValue_upperHex (by omega), hexValue_upperHex (by omega)]
  simp only [Nat.div_add_mod, UInt8.ofNat_toNat]

/-- **Percent escapes are read back.** -/
theorem percentDecode_percentEncode {safe : UInt8 → Bool} (hsafe : safe 0x25 = false)
    (bytes : Bytes) : percentDecode (percentEncode safe bytes) = bytes := by
  induction bytes with
  | nil => rfl
  | cons c bytes ih =>
      rw [percentEncode] at ih ⊢
      rw [List.flatMap_cons]
      cases hc : safe c with
      | true =>
          have hne : c ≠ 0x25 := by
            intro heq
            rw [heq, hsafe] at hc
            cases hc
          rw [if_pos rfl, List.singleton_append, percentDecode_cons hne, ih]
      | false =>
          rw [if_neg Bool.false_ne_true]
          exact (percentDecode_escape c _).trans (congrArg (c :: ·) ih)

/-! ## Lines that end in CR LF -/

def crlfLines : Bytes → List Bytes
  | [] => []
  | [c] => [[c]]
  | c :: d :: rest =>
    if c = 0x0D ∧ d = 0x0A then [] :: crlfLines rest
    else (crlfLines (d :: rest)).modifyHead (c :: ·)

theorem crlfLines_cons {c : UInt8} (hc : c ≠ 0x0D) {rest : Bytes} (hrest : rest ≠ []) :
    crlfLines (c :: rest) = (crlfLines rest).modifyHead (c :: ·) := by
  match rest with
  | d :: rest => rw [crlfLines, if_neg fun h => hc h.1]

/-- A line without a CR ends at the first CR LF. -/
theorem crlfLines_append {line : Bytes} (hline : 0x0D ∉ line) (rest : Bytes) :
    crlfLines (line ++ 0x0D :: 0x0A :: rest) = line :: crlfLines rest := by
  induction line with
  | nil => rw [List.nil_append, crlfLines, if_pos ⟨rfl, rfl⟩]
  | cons c line ih =>
      rw [List.mem_cons, not_or] at hline
      rw [List.cons_append, crlfLines_cons (Ne.symm hline.1) (by simp), ih hline.2]
      rfl

/-- **Lines are read back.** -/
theorem crlfLines_flatMap {lines : List Bytes} (h : ∀ line ∈ lines, 0x0D ∉ line) :
    crlfLines (lines.flatMap (· ++ [0x0D, 0x0A])) = lines := by
  induction lines with
  | nil => rfl
  | cons line lines ih =>
      rw [List.flatMap_cons, List.append_assoc, List.cons_append, List.singleton_append,
        crlfLines_append (h line List.mem_cons_self),
        ih fun other hother => h other (List.mem_cons_of_mem line hother)]

end Library
