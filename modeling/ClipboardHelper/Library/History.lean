import Mathlib

/-!
# Statements about the past of a history

A history is a list of observations, oldest first.  Two ways to speak about
what came before what:

* `Since P R h`: something that satisfies `P` was observed and nothing that
  satisfies `R` has been observed after it;
* `Whenever R h`: each observation stands in relation `R` to everything that
  was observed before it.

Both are carried from a history to a longer one by lemmas about the part
that is appended.
-/

namespace Library

section

variable {ο : Type}

/-- An observation with `P`, and none with `R` after it. -/
def Since (P R : ο → Prop) (h : List ο) : Prop :=
  ∃ before o after, h = before ++ o :: after ∧ P o ∧ ∀ o' ∈ after, ¬ R o'

/-- Every observation is related to what preceded it. -/
def Whenever (R : List ο → ο → Prop) (h : List ο) : Prop :=
  ∀ before o after, h = before ++ o :: after → R before o

variable {P R : ο → Prop} {h os : List ο}

/-- An observation of a longer history is its last one or an earlier one. -/
theorem split_snoc {before after : List ο} {o o' : ο} (heq : h ++ [o] = before ++ o' :: after) :
    (h = before ∧ o = o' ∧ after = []) ∨
      ∃ rest, after = rest ++ [o] ∧ h = before ++ o' :: rest := by
  rcases List.eq_nil_or_concat after with rfl | ⟨rest, last, rfl⟩
  · obtain ⟨rfl, hlast⟩ := List.append_inj' heq rfl
    exact Or.inl ⟨rfl, List.head_eq_of_cons_eq hlast, rfl⟩
  · have hassoc : h ++ [o] = (before ++ o' :: rest) ++ [last] := by
      rw [heq]
      simp
    obtain ⟨rfl, hlast⟩ := List.append_inj' hassoc rfl
    exact Or.inr ⟨rest, by rw [hlast, List.concat_eq_append], rfl⟩

/-- What is not among the new observations was made before them. -/
theorem split_append_of_not_mem {before after : List ο} {o : ο}
    (heq : h ++ os = before ++ o :: after) (ho : o ∉ os) :
    ∃ rest, after = rest ++ os ∧ h = before ++ o :: rest := by
  rcases List.append_eq_append_iff.mp heq with ⟨zs, rfl, hos⟩ | ⟨zs, rfl, hrest⟩
  · exact absurd (by simp [hos]) ho
  · cases zs with
    | nil =>
        rw [List.nil_append] at hrest
        exact absurd (by simp [← hrest]) ho
    | cons z zs =>
        rw [List.cons_append, List.cons.injEq] at hrest
        obtain ⟨rfl, rfl⟩ := hrest
        exact ⟨zs, rfl, rfl⟩

theorem Since.append (hs : Since P R h) (hquiet : ∀ o ∈ os, ¬ R o) : Since P R (h ++ os) := by
  obtain ⟨before, o, after, rfl, hP, hafter⟩ := hs
  refine ⟨before, o, after ++ os, by simp, hP, ?_⟩
  intro o' hmem
  rcases List.mem_append.mp hmem with hmem | hmem
  · exact hafter o' hmem
  · exact hquiet o' hmem

/-- The last observation is as fresh as can be. -/
theorem Since.snoc {o : ο} (hP : P o) : Since P R (h ++ [o]) :=
  ⟨h, o, [], rfl, hP, by simp⟩

/-- What the last observation does to `Since`. -/
theorem since_snoc {o : ο} : Since P R (h ++ [o]) ↔ P o ∨ Since P R h ∧ ¬ R o := by
  constructor
  · intro ⟨before, o', after, heq, hP, hafter⟩
    rcases split_snoc heq with ⟨-, rfl, -⟩ | ⟨rest, rfl, rfl⟩
    · exact Or.inl hP
    · refine Or.inr ⟨⟨before, o', rest, rfl, hP, ?_⟩, hafter o (by simp)⟩
      intro o'' hmem
      exact hafter o'' (by simp [hmem])
  · intro hcase
    rcases hcase with hP | ⟨hs, hR⟩
    · exact .snoc hP
    · exact hs.append (by simpa using hR)

/-- Observations that have nothing to do with `P` and `R` do not matter. -/
theorem since_append_of_neither (hP : ∀ o ∈ os, ¬ P o) (hR : ∀ o ∈ os, ¬ R o) :
    Since P R (h ++ os) ↔ Since P R h := by
  induction os generalizing h with
  | nil => simp
  | cons o os ih =>
      have hcons : h ++ o :: os = (h ++ [o]) ++ os := by simp
      have hPo := hP o List.mem_cons_self
      have hRo := hR o List.mem_cons_self
      rw [hcons, ih (fun o' h' => hP o' (List.mem_cons_of_mem _ h'))
        (fun o' h' => hR o' (List.mem_cons_of_mem _ h')), since_snoc]
      simp [hPo, hRo]

theorem Since.mem (hs : Since P R h) : ∃ o ∈ h, P o := by
  obtain ⟨before, o, after, rfl, hP, -⟩ := hs
  exact ⟨o, by simp, hP⟩

variable {Q : List ο → ο → Prop}

theorem Whenever.nil : Whenever Q [] := by
  intro before o after h
  cases before with
  | nil => cases h
  | cons => cases h

/-- What is known of every observation is known of each. -/
theorem Whenever.of_mem {o : ο} (hw : Whenever Q h) (ho : o ∈ h) : ∃ before, Q before o := by
  obtain ⟨before, after, heq⟩ := List.append_of_mem ho
  exact ⟨before, hw before o after heq⟩

/-- Appending one observation asks one question. -/
theorem Whenever.snoc {o : ο} (hw : Whenever Q h) (ho : Q h o) : Whenever Q (h ++ [o]) := by
  intro before o' after heq
  rcases split_snoc heq with ⟨rfl, rfl, -⟩ | ⟨rest, -, rfl⟩
  · exact ho
  · exact hw before o' rest rfl

/-- Appending several observations, one after the other. -/
theorem Whenever.append (hw : Whenever Q h)
    (hos : ∀ before o after, os = before ++ o :: after → Q (h ++ before) o) :
    Whenever Q (h ++ os) := by
  induction os generalizing h with
  | nil => simpa using hw
  | cons o os ih =>
      have hhead := hw.snoc (by simpa using hos [] o os rfl)
      have htail := ih hhead (fun before o' after heq => by
        have hnext := hos (o :: before) o' after (by rw [heq]; rfl)
        simpa using hnext)
      simpa using htail

end

end Library
