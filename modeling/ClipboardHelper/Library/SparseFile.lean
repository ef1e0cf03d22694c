import Mathlib

/-!
# Positioned writes into a growing file

A file is the list of its bytes.  Writing a block at an offset replaces the
bytes under the block; a gap between the old end of the file and the offset
is filled with `zero`, and nothing else changes.  These are the semantics of
a seek followed by a write on a POSIX file.

The lemmas say which bytes a write puts where (`getElem?_writeAt_inside`),
which it leaves alone (`getElem?_writeAt_outside`) and how long the file is
afterwards (`length_writeAt`).  For a sequence of writes, `Covers` and
`blockEnd` decide the length of the file, and `writeAll_agrees` its bytes.
-/

namespace Library

variable {β : Type}

/-- Write `block` at `offset`, filling a gap with `zero`. -/
def writeAt (zero : β) (file : List β) (offset : Nat) (block : List β) : List β :=
  file.take offset ++ List.replicate (offset - file.length) zero ++ block ++
    file.drop (offset + block.length)

/-- A positioned block of bytes. -/
abbrev Block (β : Type) := Nat × List β

/-- The position just past a block. -/
def blockEnd (b : Block β) : Nat := b.1 + b.2.length

/-- Every position below `size` lies inside one of the blocks. -/
def Covers (blocks : List (Block β)) (size : Nat) : Prop :=
  ∀ x, x < size → ∃ b ∈ blocks, b.1 ≤ x ∧ x < blockEnd b

/-- Write the blocks one after the other. -/
def writeAll (zero : β) (file : List β) (blocks : List (Block β)) : List β :=
  blocks.foldl (fun f b => writeAt zero f b.1 b.2) file

@[simp] theorem writeAll_nil (zero : β) (file : List β) :
    writeAll zero file [] = file := rfl

theorem writeAll_append (zero : β) (file : List β) (bs cs : List (Block β)) :
    writeAll zero file (bs ++ cs) = writeAll zero (writeAll zero file bs) cs := by
  simp [writeAll]

/-- A nonempty write ends the file at the later of its old end and the end of
the block. -/
theorem length_writeAt (zero : β) (file : List β) (offset : Nat) {block : List β}
    (hne : block ≠ []) :
    (writeAt zero file offset block).length =
      max file.length (offset + block.length) := by
  have hpos : 0 < block.length := List.length_pos_iff.mpr hne
  simp only [writeAt, List.length_append, List.length_take, List.length_replicate,
    List.length_drop]
  omega

/-- The part of the file in front of the block has exactly the length of the
offset. -/
private theorem length_writeAt_front (zero : β) (file : List β) (offset : Nat) :
    (file.take offset ++ List.replicate (offset - file.length) zero).length = offset := by
  simp only [List.length_append, List.length_take, List.length_replicate]
  omega

/-- Inside the block the file holds the block. -/
theorem getElem?_writeAt_inside (zero : β) (file : List β) {offset x : Nat}
    {block : List β} (hlo : offset ≤ x) (hhi : x < offset + block.length) :
    (writeAt zero file offset block)[x]? = block[x - offset]? := by
  have hfront := length_writeAt_front zero file offset
  rw [writeAt, List.getElem?_append_left (by
    rw [List.length_append, hfront]
    exact hhi)]
  rw [List.getElem?_append_right (by omega), hfront]

/-- Outside the block the old bytes of the file survive. -/
theorem getElem?_writeAt_outside (zero : β) (file : List β) {offset x : Nat}
    {block : List β} (hfile : x < file.length)
    (hout : x < offset ∨ offset + block.length ≤ x) :
    (writeAt zero file offset block)[x]? = file[x]? := by
  have hfront := length_writeAt_front zero file offset
  rcases hout with hlo | hhi
  · rw [writeAt, List.append_assoc, List.getElem?_append_left (by omega),
      List.getElem?_append_left (by
        rw [List.length_take]
        omega), List.getElem?_take_of_lt hlo]
  · rw [writeAt, List.getElem?_append_right (by
      rw [List.length_append, hfront]
      exact hhi), List.length_append, hfront, List.getElem?_drop]
    congr 1
    omega

/-- The file left by a sequence of nonempty writes is as long as the furthest
block reaches. -/
theorem length_writeAll_le_iff (zero : β) (blocks : List (Block β)) (file : List β)
    (hne : ∀ b ∈ blocks, b.2 ≠ []) (size : Nat) :
    (writeAll zero file blocks).length ≤ size ↔
      file.length ≤ size ∧ ∀ b ∈ blocks, blockEnd b ≤ size := by
  induction blocks generalizing file with
  | nil => simp
  | cons b bs ih =>
      have hb : b.2 ≠ [] := hne b List.mem_cons_self
      have hbs : ∀ c ∈ bs, c.2 ≠ [] := fun c hc => hne c (List.mem_cons_of_mem _ hc)
      have hlen := length_writeAt zero file b.1 hb
      have htail := ih (writeAt zero file b.1 b.2) hbs
      simp only [writeAll, List.foldl_cons] at htail ⊢
      rw [htail, hlen, max_le_iff, and_assoc]
      simp [blockEnd]

/-- Blocks that cover the file up to `size` make it at least that long. -/
theorem Covers.le_length_writeAll {blocks : List (Block β)} {size : Nat}
    (hcov : Covers blocks size) (zero : β) (file : List β)
    (hne : ∀ b ∈ blocks, b.2 ≠ []) :
    size ≤ (writeAll zero file blocks).length := by
  have hall := (length_writeAll_le_iff zero blocks file hne
    (writeAll zero file blocks).length).mp le_rfl
  rcases Nat.eq_zero_or_pos size with hz | hpos
  · omega
  · obtain ⟨b, hb, _, hlt⟩ := hcov (size - 1) (by omega)
    have := hall.2 b hb
    omega

/-- **Exact length.**  Covering writes leave a file of exactly `size` bytes
precisely when none of them reaches past `size`. -/
theorem Covers.length_writeAll_eq_iff {blocks : List (Block β)} {size : Nat}
    (hcov : Covers blocks size) (zero : β) (hne : ∀ b ∈ blocks, b.2 ≠ []) :
    (writeAll zero [] blocks).length = size ↔ ∀ b ∈ blocks, blockEnd b ≤ size := by
  have hle := length_writeAll_le_iff zero blocks [] hne size
  have hge := hcov.le_length_writeAll zero [] hne
  simp only [List.length_nil, Nat.zero_le, true_and] at hle
  rw [← hle]
  omega

/-- Writes that agree with `content` wherever they land keep agreeing with
it: each position below the end of the file that some block has reached holds
the byte of `content`. -/
theorem writeAll_agrees (zero : β) (content : List β) (blocks : List (Block β))
    (hagree : ∀ b ∈ blocks, ∀ i, i < b.2.length → b.2[i]? = content[b.1 + i]?)
    (hne : ∀ b ∈ blocks, b.2 ≠ []) {x : Nat} {b : Block β} (hb : b ∈ blocks)
    (hlo : b.1 ≤ x) (hhi : x < blockEnd b) (file : List β) :
    (writeAll zero file blocks)[x]? = content[x]? := by
  induction blocks using List.reverseRecOn with
  | nil => simp at hb
  | append_singleton bs c ih =>
      rw [writeAll_append]
      show (writeAt zero (writeAll zero file bs) c.1 c.2)[x]? = content[x]?
      have hc : c ∈ bs ++ [c] := by simp
      by_cases hin : c.1 ≤ x ∧ x < c.1 + c.2.length
      · -- the last block holds the position, whatever was there before
        rw [getElem?_writeAt_inside zero _ hin.1 hin.2, hagree c hc _ (by omega)]
        congr 1
        omega
      · have hbs : b ∈ bs := by
          rcases List.mem_append.mp hb with h | h
          · exact h
          · have hbc : b = c := by simpa using h
            subst hbc
            exact absurd ⟨hlo, hhi⟩ hin
        have hne' : ∀ d ∈ bs, d.2 ≠ [] :=
          fun d hd => hne d (List.mem_append_left _ hd)
        have hold := ih (fun d hd => hagree d (List.mem_append_left _ hd)) hne' hbs
        have hreach := ((length_writeAll_le_iff zero bs file hne'
          (writeAll zero file bs).length).mp le_rfl).2 b hbs
        rw [getElem?_writeAt_outside zero _ (by omega) (by omega)]
        exact hold

end Library
