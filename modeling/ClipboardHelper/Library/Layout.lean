import ClipboardHelper.Library.Bytes
import ClipboardHelper.Library.Segment

/-!
# Records in memory

What a C program finds when it looks at a block of bytes as a record:

* a field of `width` bytes at an offset, least significant byte first
  (`readLE`).  The read fails if the field is not inside the block, and every
  field that `record` has laid out is read back (`readLE_record`);
* an entry of an array whose entries have one size (`drop_flatMap`);
* a string of 16-bit units that ends at the first zero (`readWide`).  Nothing
  but a zero stops it: it goes on behind the field that it begins in
  (`nulTerminated_append`), and fails if the block ends first;
* a list of such strings, ended by an empty one.  It gives back the strings it
  was made of when none is empty or has a zero inside, and only then
  (`walkStrings_stringList_iff`).
-/

namespace Library

/-! ## Fields -/

/-- The lowest `width` bytes of a number, least significant first. -/
def littleEndian : Nat → Nat → Bytes
  | 0, _ => []
  | width + 1, n => UInt8.ofNat n :: littleEndian width (n / 256)

def ofLittleEndian : Bytes → Nat
  | [] => 0
  | b :: bs => b.toNat + 256 * ofLittleEndian bs

@[simp] theorem length_littleEndian (width n : Nat) : (littleEndian width n).length = width := by
  induction width generalizing n with
  | zero => rfl
  | succ width ih => rw [littleEndian, List.length_cons, ih]

theorem ofLittleEndian_littleEndian (width n : Nat) :
    ofLittleEndian (littleEndian width n) = n % 256 ^ width := by
  induction width generalizing n with
  | zero => rw [Nat.pow_zero, Nat.mod_one]; rfl
  | succ width ih =>
      have hbyte : (UInt8.ofNat n).toNat = n % 256 := UInt8.toNat_ofNat'
      rw [littleEndian, ofLittleEndian, ih, hbyte, Nat.pow_succ', Nat.mod_mul]

/-- The number in `width` bytes at `offset`, unless they reach past the end. -/
def readLE (bytes : Bytes) (offset width : Nat) : Option Nat :=
  if offset + width ≤ bytes.length then
    some (ofLittleEndian (segment bytes offset (offset + width)))
  else none

theorem readLE_isSome_iff (bytes : Bytes) (offset width : Nat) :
    (readLE bytes offset width).isSome ↔ offset + width ≤ bytes.length := by
  unfold readLE
  split
  · next hle => exact ⟨fun _ => hle, fun _ => rfl⟩
  · next hlt => exact ⟨fun h => absurd h (by simp), fun h => absurd h hlt⟩

theorem ofLittleEndian_lt (bytes : Bytes) : ofLittleEndian bytes < 256 ^ bytes.length := by
  induction bytes with
  | nil => simp [ofLittleEndian]
  | cons b bytes ih =>
      have hb := b.toNat_lt
      rw [ofLittleEndian, List.length_cons, Nat.pow_succ']
      omega

/-- A field holds what its bytes have room for. -/
theorem readLE_lt {bytes : Bytes} {offset width n : Nat} (h : readLE bytes offset width = some n) :
    n < 256 ^ width := by
  unfold readLE at h
  split at h
  · next hle =>
      have hlength := length_segment bytes (a := offset) hle
      rw [Nat.add_sub_cancel_left] at hlength
      have hlt := ofLittleEndian_lt (segment bytes offset (offset + width))
      rw [hlength] at hlt
      rw [Option.some.injEq] at h
      exact h ▸ hlt
  · cases h

/-- A read at a distance from an earlier place. -/
theorem readLE_drop {bytes : Bytes} {d : Nat} (hd : d ≤ bytes.length) (offset width : Nat) :
    readLE (bytes.drop d) offset width = readLE bytes (d + offset) width := by
  have hsegment : segment (bytes.drop d) offset (offset + width) =
      segment bytes (d + offset) (d + offset + width) := by
    rw [segment_eq_take_drop, segment_eq_take_drop, List.drop_drop]
  have hiff : offset + width ≤ (bytes.drop d).length ↔ d + offset + width ≤ bytes.length := by
    rw [List.length_drop]
    omega
  simp only [readLE, hsegment, hiff]

theorem readLE_littleEndian (before after : Bytes) (width n : Nat) :
    readLE (before ++ littleEndian width n ++ after) before.length width =
      some (n % 256 ^ width) := by
  have hlength : (before ++ littleEndian width n).length = before.length + width := by
    rw [List.length_append, length_littleEndian]
  have hfield : segment (before ++ littleEndian width n ++ after) before.length
      (before.length + width) = littleEndian width n := by
    rw [segment_append_left _ _ (by omega)]
    have hright := segment_append_right before (littleEndian width n) 0 width
    rw [Nat.add_zero] at hright
    rw [hright]
    exact (congrArg (segment _ 0) (length_littleEndian width n).symm).trans (segment_all _)
  rw [readLE, if_pos, hfield, ofLittleEndian_littleEndian]
  rw [List.length_append, hlength]
  omega

/-- What is laid out one after the other, taken apart at one place. -/
theorem flatMap_split {α β : Type} (f : α → List β) {xs : List α} {i : Nat}
    (hi : i < xs.length) :
    xs.flatMap f = (xs.take i).flatMap f ++ (f xs[i] ++ (xs.drop (i + 1)).flatMap f) := by
  conv_lhs => rw [← List.take_append_drop i xs, List.drop_eq_getElem_cons hi]
  rw [List.flatMap_append, List.flatMap_cons]

/-- The bytes of a record, given as the width and the value of each field. -/
def record (fields : List (Nat × Nat)) : Bytes :=
  fields.flatMap fun f => littleEndian f.1 f.2

/-- Where a field begins. -/
def offsetOf (fields : List (Nat × Nat)) (k : Nat) : Nat :=
  ((fields.take k).map Prod.fst).sum

theorem length_record (fields : List (Nat × Nat)) :
    (record fields).length = (fields.map Prod.fst).sum := by
  simp [record, List.length_flatMap]

/-- **A field that was laid out is read back.** -/
theorem readLE_record (fields : List (Nat × Nat)) (after : Bytes) {k : Nat}
    (hk : k < fields.length) :
    readLE (record fields ++ after) (offsetOf fields k) fields[k].1 =
      some (fields[k].2 % 256 ^ fields[k].1) := by
  have hsplit : record fields ++ after =
      record (fields.take k) ++ littleEndian fields[k].1 fields[k].2 ++
        (record (fields.drop (k + 1)) ++ after) := by
    simp only [record]
    rw [flatMap_split _ hk]
    simp only [List.append_assoc]
  rw [hsplit, show offsetOf fields k = (record (fields.take k)).length from
    (length_record _).symm]
  exact readLE_littleEndian _ _ _ _

/-! ## Arrays -/

theorem length_flatMap_const {α β : Type} {f : α → List β} {size : Nat} {xs : List α}
    (hsize : ∀ x ∈ xs, (f x).length = size) : (xs.flatMap f).length = xs.length * size := by
  induction xs with
  | nil => simp
  | cons x xs ih =>
      have hx := hsize x List.mem_cons_self
      have hxs := ih fun y hy => hsize y (List.mem_cons_of_mem x hy)
      rw [List.flatMap_cons, List.length_append, hx, hxs, List.length_cons, Nat.succ_mul,
        Nat.add_comm]

/-- **An entry of an array** of entries of one size. -/
theorem drop_flatMap {α β : Type} {f : α → List β} {size : Nat} {xs : List α}
    (hsize : ∀ x ∈ xs, (f x).length = size) {i : Nat} (hi : i < xs.length) :
    (xs.flatMap f).drop (i * size) = f xs[i] ++ (xs.drop (i + 1)).flatMap f := by
  have hbefore : ((xs.take i).flatMap f).length = i * size := by
    rw [length_flatMap_const fun x hx => hsize x (List.mem_of_mem_take hx), List.length_take,
      Nat.min_eq_left (by omega)]
  rw [flatMap_split f hi, ← hbefore, List.drop_left]

/-! ## Strings of 16-bit units -/

/-- The bytes of a string of 16-bit units. -/
def wide (cs : List UInt16) : Bytes := cs.flatMap fun c => littleEndian 2 c.toNat

/-- A block of bytes as 16-bit units. -/
def wideUnits : Bytes → List UInt16
  | lo :: hi :: rest => UInt16.ofNat (ofLittleEndian [lo, hi]) :: wideUnits rest
  | _ => []

/-- The units before the first zero, if there is one. -/
def nulTerminated (cs : List UInt16) : Option (List UInt16) :=
  if 0 ∈ cs then some (cs.takeWhile (· ≠ 0)) else none

/-- The string that begins at `offset`, unless the block ends before it. -/
def readWide (bytes : Bytes) (offset : Nat) : Option (List UInt16) :=
  nulTerminated (wideUnits (bytes.drop offset))

theorem length_wide (cs : List UInt16) : (wide cs).length = cs.length * 2 :=
  length_flatMap_const fun c _ => length_littleEndian 2 c.toNat

theorem wideUnits_wide_append (cs : List UInt16) (after : Bytes) :
    wideUnits (wide cs ++ after) = cs ++ wideUnits after := by
  induction cs with
  | nil => rfl
  | cons c cs ih =>
      have hunit : UInt16.ofNat (ofLittleEndian (littleEndian 2 c.toNat)) = c := by
        have hfits : c.toNat < 256 ^ 2 := c.toNat_lt
        rw [ofLittleEndian_littleEndian, Nat.mod_eq_of_lt hfits, UInt16.ofNat_toNat]
      have hcons : wide (c :: cs) ++ after =
          UInt8.ofNat c.toNat :: UInt8.ofNat (c.toNat / 256) :: (wide cs ++ after) := rfl
      rw [hcons, wideUnits, ih, List.cons_append]
      exact congrArg (· :: _) hunit

theorem wideUnits_append {front : Bytes} {n : Nat} (hfront : front.length = 2 * n)
    (after : Bytes) : wideUnits (front ++ after) = wideUnits front ++ wideUnits after := by
  induction n generalizing front with
  | zero =>
      rw [List.length_eq_zero_iff.mp hfront]
      rfl
  | succ n ih =>
      obtain ⟨lo, hi, rest, rfl⟩ : ∃ lo hi rest, front = lo :: hi :: rest := by
        match front, hfront with
        | lo :: hi :: rest, _ => exact ⟨lo, hi, rest, rfl⟩
      have hrest : rest.length = 2 * n := by
        simp only [List.length_cons] at hfront
        omega
      rw [List.cons_append, List.cons_append, wideUnits, ih hrest]
      rfl

/-- A string ends at its terminator, whatever follows. -/
theorem nulTerminated_of_nul {s : List UInt16} (hs : 0 ∉ s) (after : List UInt16) :
    nulTerminated (s ++ 0 :: after) = some s := by
  have htake : (s ++ 0 :: after).takeWhile (· ≠ 0) = s := by
    rw [List.takeWhile_append_of_pos]
    · simp
    · intro c hc
      rw [decide_eq_true_eq]
      rintro rfl
      exact hs hc
  rw [nulTerminated, if_pos (by simp), htake]

theorem nulTerminated_append_of_mem {front : List UInt16} (hnul : 0 ∈ front)
    (after : List UInt16) : nulTerminated (front ++ after) = nulTerminated front := by
  obtain ⟨s, rest, hfront, hs⟩ := List.eq_append_cons_of_mem hnul
  rw [hfront, List.append_assoc, List.cons_append, nulTerminated_of_nul hs,
    nulTerminated_of_nul hs]

/-- **A string without a terminator goes on** behind its field. -/
theorem nulTerminated_append {front : List UInt16} (hnul : 0 ∉ front) (after : List UInt16) :
    nulTerminated (front ++ after) = (nulTerminated after).map (front ++ ·) := by
  by_cases hafter : 0 ∈ after
  · obtain ⟨s, rest, rfl, hs⟩ := List.eq_append_cons_of_mem hafter
    have hboth : 0 ∉ front ++ s := by simp [hnul, hs]
    rw [← List.append_assoc, nulTerminated_of_nul hboth, nulTerminated_of_nul hs]
    rfl
  · rw [nulTerminated, if_neg (by simp [hnul, hafter]), nulTerminated, if_neg hafter]
    rfl

/-! ## Lists of strings -/

/-- Every string with its terminator, and one more zero. -/
def stringList (ss : List (List UInt16)) : List UInt16 := ss.flatMap (· ++ [0]) ++ [0]

/-- The strings between the zeros, up to the first empty one. -/
def walkStrings (cs : List UInt16) : List (List UInt16) :=
  (cs.splitOn 0).takeWhile (· ≠ [])

theorem not_mem_of_mem_splitOn {α : Type} [DecidableEq α] {sep : α} {xs piece : List α}
    (h : piece ∈ xs.splitOn sep) : sep ∉ piece := by
  induction xs generalizing piece with
  | nil =>
      rw [List.splitOn_nil, List.mem_singleton] at h
      simp [h]
  | cons x xs ih =>
      rw [List.splitOn_cons_eq_if_modifyHead] at h
      by_cases hx : x = sep
      · rw [if_pos (beq_iff_eq.mpr hx), List.mem_cons] at h
        cases h with
        | inl hnil => simp [hnil]
        | inr hrest => exact ih hrest
      · rw [if_neg (by simpa using hx)] at h
        obtain ⟨first, rest, hsplit⟩ :=
          List.exists_cons_of_ne_nil (List.splitOn_ne_nil sep xs)
        rw [hsplit, List.modifyHead_cons, List.mem_cons] at h
        rw [hsplit] at ih
        cases h with
        | inl hfirst =>
            rw [hfirst, List.mem_cons, not_or]
            exact ⟨fun hsep => hx hsep.symm, ih List.mem_cons_self⟩
        | inr hrest => exact ih (List.mem_cons_of_mem first hrest)

/-- The strings of a walk are not empty and have no zero inside. -/
theorem of_mem_walkStrings {cs s : List UInt16} (h : s ∈ walkStrings cs) : s ≠ [] ∧ 0 ∉ s := by
  have hsplit := List.takeWhile_prefix (· ≠ []) |>.subset h
  have hne := List.mem_takeWhile_imp h
  exact ⟨of_decide_eq_true hne, not_mem_of_mem_splitOn hsplit⟩

/-- **A list of strings is read back** exactly when no string is empty or has
a zero inside. -/
theorem walkStrings_stringList_iff (ss : List (List UInt16)) (after : List UInt16) :
    walkStrings (stringList ss ++ after) = ss ↔ ∀ s ∈ ss, s ≠ [] ∧ 0 ∉ s := by
  constructor
  · intro h s hs
    rw [← h] at hs
    exact of_mem_walkStrings hs
  · intro h
    induction ss with
    | nil =>
        have hsplit := List.splitOn_append_cons_self (a := (0 : UInt16)) [] after
        rw [List.nil_append] at hsplit
        rw [walkStrings, stringList, List.flatMap_nil, List.nil_append, List.singleton_append,
          hsplit]
        rfl
    | cons s ss ih =>
        have hs := h s List.mem_cons_self
        have hrest := ih fun t ht => h t (List.mem_cons_of_mem s ht)
        have hcons : stringList (s :: ss) ++ after = s ++ 0 :: (stringList ss ++ after) := by
          simp [stringList]
        rw [walkStrings] at hrest ⊢
        rw [hcons, List.splitOn_append_cons_self_of_not_mem hs.2,
          List.takeWhile_cons_of_pos (by simpa using hs.1), hrest]

end Library
