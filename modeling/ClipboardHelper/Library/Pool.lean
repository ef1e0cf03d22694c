import Mathlib

/-!
# Pools of things under way

Workers, messages, pending signals: a machine keeps what is under way in a
list, replaces one entry by its index (`List.set`) or takes one out
(`List.eraseIdx`).  What such a step does to the others:

* they keep their place (`mem_eraseIdx_of_ne`, `mem_set_of_ne`), and where
  entries have names of their own, exactly the others are left
  (`mem_eraseIdx_iff`);
* the sum of the weights changes by the weight of the one entry
  (`sum_eraseIdx`, `sum_set`; `sum_set_lost`, `sum_set_gained` where weights
  are not numbers).
-/

namespace Library

section

variable {α β : Type} {l : List α} {n : Nat} {x y : α}

/-- An entry that differs from the one at `n` stands elsewhere. -/
theorem exists_index_ne (hn : l[n]? = some y) (hx : x ∈ l) (hne : x ≠ y) :
    ∃ m, m ≠ n ∧ l[m]? = some x := by
  obtain ⟨m, hm⟩ := List.mem_iff_getElem?.mp hx
  refine ⟨m, ?_, hm⟩
  rintro rfl
  rw [hn] at hm
  exact hne (Option.some.inj hm).symm

theorem mem_eraseIdx_of_ne (hn : l[n]? = some y) (hx : x ∈ l) (hne : x ≠ y) :
    x ∈ l.eraseIdx n :=
  List.mem_eraseIdx_iff_getElem?.mpr (exists_index_ne hn hx hne)

theorem mem_set_of_ne (hn : l[n]? = some y) (hx : x ∈ l) (hne : x ≠ y) (z : α) :
    x ∈ l.set n z := by
  obtain ⟨m, hindex, hm⟩ := exists_index_ne hn hx hne
  refine List.mem_iff_getElem?.mpr ⟨m, ?_⟩
  rw [List.getElem?_set_ne hindex.symm, hm]

/-! ## Names -/

/-- An entry that changes keeps its name. -/
theorem map_set_of_eq (name : α → β) (hn : l[n]? = some y) (hname : name x = name y) :
    (l.set n x).map name = l.map name := by
  rw [List.map_set, hname]
  apply List.ext_getElem?
  intro i
  by_cases hi : n = i
  · subst hi
    rw [List.getElem?_set_self', List.getElem?_map, hn]
    rfl
  · rw [List.getElem?_set_ne hi]

/-- Who is left when one is gone. -/
theorem mem_eraseIdx_iff {name : α → β} (hnames : (l.map name).Nodup) (hn : l[n]? = some y) :
    x ∈ l.eraseIdx n ↔ x ∈ l ∧ name x ≠ name y := by
  constructor
  · intro hx
    obtain ⟨m, hm, hget⟩ := List.mem_eraseIdx_iff_getElem?.mp hx
    refine ⟨List.mem_of_getElem? hget, ?_⟩
    intro hname
    obtain rfl := List.inj_on_of_nodup_map hnames (List.mem_of_getElem? hget)
      (List.mem_of_getElem? hn) hname
    obtain ⟨hlt, -⟩ := List.getElem?_eq_some_iff.mp hn
    exact hm ((List.getElem?_inj hlt hnames.of_map).mp (hn.trans hget.symm)).symm
  · rintro ⟨hx, hname⟩
    refine mem_eraseIdx_of_ne hn hx ?_
    rintro rfl
    exact hname rfl

/-- Who is there when one has changed. -/
theorem mem_set_iff {name : α → β} (hnames : (l.map name).Nodup) (hn : l[n]? = some y) {z : α} :
    x ∈ l.set n z ↔ x = z ∨ (x ∈ l ∧ name x ≠ name y) := by
  obtain ⟨hlt, hy⟩ := List.getElem?_eq_some_iff.mp hn
  constructor
  · intro hx
    obtain ⟨m, hm⟩ := List.mem_iff_getElem?.mp hx
    by_cases hindex : n = m
    · subst hindex
      rw [List.getElem?_set_self hlt] at hm
      exact .inl (Option.some.inj hm).symm
    · rw [List.getElem?_set_ne hindex] at hm
      have hkept : x ∈ l.eraseIdx n :=
        List.mem_eraseIdx_iff_getElem?.mpr ⟨m, fun heq => hindex heq.symm, hm⟩
      exact .inr ((mem_eraseIdx_iff hnames hn).mp hkept)
  · intro hx
    rcases hx with rfl | ⟨hmem, hname⟩
    · exact List.mem_set hlt x
    · refine mem_set_of_ne hn hmem ?_ z
      rintro rfl
      exact hname rfl

/-! ## Weights -/

/-- Taking out an entry, up to the order, -/
theorem perm_eraseIdx (hn : l[n]? = some y) : List.Perm (y :: l.eraseIdx n) l := by
  obtain ⟨hlt, rfl⟩ := List.getElem?_eq_some_iff.mp hn
  exact List.getElem_cons_eraseIdx_perm hlt

/-- and replacing one. -/
theorem perm_set (z : α) (hn : l[n]? = some y) : List.Perm (y :: l.set n z) (z :: l) := by
  obtain ⟨hlt, -⟩ := List.getElem?_eq_some_iff.mp hn
  have hset := perm_eraseIdx (List.getElem?_set_self (a := z) hlt)
  rw [List.eraseIdx_set_eq] at hset
  calc List.Perm (y :: l.set n z) (y :: z :: l.eraseIdx n) := hset.symm.cons y
    List.Perm _ (z :: y :: l.eraseIdx n) := List.Perm.swap _ _ _
    List.Perm _ (z :: l) := (perm_eraseIdx hn).cons z

/-- The weight of an entry goes with it. -/
theorem sum_eraseIdx (f : α → Nat) (hn : l[n]? = some y) :
    ((l.eraseIdx n).map f).sum + f y = (l.map f).sum := by
  induction l generalizing n with
  | nil => cases hn
  | cons b l ih =>
      cases n with
      | zero =>
          cases hn
          simp [Nat.add_comm]
      | succ n =>
          have hrest := ih (n := n) hn
          simp only [List.eraseIdx_cons_succ, List.map_cons, List.sum_cons]
          omega

/-- An entry that is replaced changes the sum by the difference. -/
theorem sum_set (f : α → Nat) (z : α) (hn : l[n]? = some y) :
    ((l.set n z).map f).sum + f y = (l.map f).sum + f z := by
  induction l generalizing n with
  | nil => cases hn
  | cons c l ih =>
      cases n with
      | zero =>
          cases hn
          simp only [List.set_cons_zero, List.map_cons, List.sum_cons]
          omega
      | succ n =>
          have hrest := ih (n := n) hn
          simp only [List.set_cons_succ, List.map_cons, List.sum_cons]
          omega

/-! Weights that are not numbers: what a pool weighs after an entry has lost
a part, -/

section

variable {M : Type} [AddCancelCommMonoid M] {f : α → M} {z : α} {part : M}

theorem sum_set_lost (hn : l[n]? = some y) (hlost : f y = part + f z) :
    part + ((l.set n z).map f).sum = (l.map f).sum := by
  have hsum := ((perm_set z hn).map f).sum_eq
  rw [List.map_cons, List.map_cons, List.sum_cons, List.sum_cons, hlost, add_comm part,
    add_assoc] at hsum
  exact add_left_cancel hsum

/-- has gained one, -/
theorem sum_set_gained (hn : l[n]? = some y) (hgained : f z = part + f y) :
    ((l.set n z).map f).sum = part + (l.map f).sum := by
  have hsum := ((perm_set z hn).map f).sum_eq
  rw [List.map_cons, List.map_cons, List.sum_cons, List.sum_cons, hgained, add_comm part,
    add_assoc] at hsum
  exact add_left_cancel hsum

/-- or is taken out that weighs nothing. -/
theorem sum_eraseIdx_zero (hn : l[n]? = some y) (hzero : f y = 0) :
    ((l.eraseIdx n).map f).sum = (l.map f).sum := by
  have hsum := ((perm_eraseIdx hn).map f).sum_eq
  rwa [List.map_cons, List.sum_cons, hzero, zero_add] at hsum

end

theorem length_eraseIdx_lt (hn : l[n]? = some y) : (l.eraseIdx n).length + 1 = l.length := by
  obtain ⟨hlt, -⟩ := List.getElem?_eq_some_iff.mp hn
  rw [List.length_eraseIdx_of_lt hlt]
  omega

end

end Library
