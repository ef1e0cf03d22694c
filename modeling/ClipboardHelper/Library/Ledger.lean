import ClipboardHelper.Library.Machine

/-!
# Ledgers: what has come in is held or has left

References are taken and given back, objects are made and destroyed, tasks
are submitted and resolved.  In each case a machine takes things in, holds
them in one place or another, and lets them go; the question is whether it
lets each of them go exactly once.

A **ledger** names the things that an observation brings in, those that it
takes out, and those that a state holds, all counted with multiplicity.  It
is **balanced** when what has left together with what is held is what has
come in.  One step keeps the balance if it **moves** things without making or
losing any (`Balanced.step`), and a machine all of whose steps do so is
balanced after every run (`balanced_of_run`).  A thing that came in once and
is held no longer has then left exactly once (`Balanced.count_eq_one`).
-/

namespace Library

/-- What comes in, what leaves, and what is held. -/
structure Ledger (σ ο κ : Type) where
  enters : ο → Multiset κ
  leaves : ο → Multiset κ
  held : σ → Multiset κ

namespace Ledger

variable {σ α ο κ : Type} (L : Ledger σ ο κ)

/-- Everything that has come in along a history. -/
def entered (h : List ο) : Multiset κ := (h.map L.enters).sum

/-- Everything that has left along a history. -/
def left (h : List ο) : Multiset κ := (h.map L.leaves).sum

@[simp] theorem entered_nil : L.entered [] = 0 := rfl

@[simp] theorem left_nil : L.left [] = 0 := rfl

@[simp] theorem entered_cons (o : ο) (h : List ο) :
    L.entered (o :: h) = L.enters o + L.entered h := by
  simp [entered]

@[simp] theorem left_cons (o : ο) (h : List ο) :
    L.left (o :: h) = L.leaves o + L.left h := by
  simp [left]

@[simp] theorem entered_append (h os : List ο) :
    L.entered (h ++ os) = L.entered h + L.entered os := by
  simp [entered]

@[simp] theorem left_append (h os : List ο) : L.left (h ++ os) = L.left h + L.left os := by
  simp [left]

/-- Observations of one kind, each of which takes one thing out. -/
theorem left_map {β : Type} {f : β → ο} {g : β → κ} (hf : ∀ x, L.leaves (f x) = {g x})
    (xs : List β) : L.left (xs.map f) = (xs.map g : Multiset κ) := by
  induction xs with
  | nil => rfl
  | cons x xs ih =>
      rw [List.map_cons, left_cons, ih, hf]
      rfl

/-- Observations that take nothing out, and that bring nothing in. -/
theorem left_eq_zero {os : List ο} (hos : ∀ o ∈ os, L.leaves o = 0) : L.left os = 0 := by
  refine List.sum_eq_zero ?_
  intro things hmem
  obtain ⟨o, ho, rfl⟩ := List.mem_map.mp hmem
  exact hos o ho

theorem entered_eq_zero {os : List ο} (hos : ∀ o ∈ os, L.enters o = 0) : L.entered os = 0 := by
  refine List.sum_eq_zero ?_
  intro things hmem
  obtain ⟨o, ho, rfl⟩ := List.mem_map.mp hmem
  exact hos o ho

/-- Who brought it in. -/
theorem mem_entered {h : List ο} {k : κ} : k ∈ L.entered h ↔ ∃ o ∈ h, k ∈ L.enters o := by
  induction h with
  | nil => simp
  | cons o h ih => rw [entered_cons, Multiset.mem_add, ih, List.exists_mem_cons_iff]

/-- **Counting along a history**: a count that grows with every observation
as the ledger says is that of the ledger. -/
theorem count_left_of_cons [DecidableEq κ] {k : κ} (f : List ο → Nat) (hnil : f [] = 0)
    (hcons : ∀ o h, f (o :: h) = (L.leaves o).count k + f h) (h : List ο) :
    (L.left h).count k = f h := by
  induction h with
  | nil => simp [hnil]
  | cons o h ih => rw [left_cons, Multiset.count_add, ih, hcons]

theorem count_entered_of_cons [DecidableEq κ] {k : κ} (f : List ο → Nat) (hnil : f [] = 0)
    (hcons : ∀ o h, f (o :: h) = (L.enters o).count k + f h) (h : List ο) :
    (L.entered h).count k = f h := by
  induction h with
  | nil => simp [hnil]
  | cons o h ih => rw [entered_cons, Multiset.count_add, ih, hcons]

/-- **Balanced**: what has left and what is held make up what has come in. -/
def Balanced (h : List ο) (s : σ) : Prop := L.left h + L.held s = L.entered h

/-- A step that neither makes nor loses anything. -/
def Moves (s : σ) (os : List ο) (s' : σ) : Prop :=
  L.left os + L.held s' = L.held s + L.entered os

variable {L} {h os : List ο} {s s' : σ}

/-- Two moves, one after the other. -/
theorem Moves.trans {os' : List ο} {s'' : σ} (first : L.Moves s os s')
    (second : L.Moves s' os' s'') : L.Moves s (os ++ os') s'' := by
  calc L.left (os ++ os') + L.held s''
      = L.left os + (L.left os' + L.held s'') := by rw [left_append, add_assoc]
    _ = L.left os + L.held s' + L.entered os' := by rw [second, add_assoc]
    _ = L.held s + L.entered (os ++ os') := by rw [first, entered_append, add_assoc]

/-- **A step that moves things keeps the balance.** -/
theorem Balanced.step (hb : L.Balanced h s) (hm : L.Moves s os s') : L.Balanced (h ++ os) s' := by
  calc L.left (h ++ os) + L.held s'
      = L.left h + (L.left os + L.held s') := by rw [left_append, add_assoc]
    _ = L.left h + (L.held s + L.entered os) := by rw [hm]
    _ = (L.left h + L.held s) + L.entered os := by rw [add_assoc]
    _ = L.entered (h ++ os) := by rw [hb, entered_append]

/-- **A machine whose steps move things is balanced after every run.** -/
theorem balanced_of_run {m : Machine σ α ο} {ok : σ → α → Prop} {s₀ : σ}
    (hinit : L.held s₀ = 0)
    (hstep : ∀ s a s' os, ok s a → m.step s a = some (s', os) → L.Moves s os s')
    (hrun : m.Run ok s₀ h s) : L.Balanced h s := by
  refine hrun.history_invariant L.Balanced (by simp [Balanced, hinit]) ?_
  intro h s a s' os hb hok hs
  exact hb.step (hstep s a s' os hok hs)

/-- Nothing leaves that has not come in. -/
theorem Balanced.left_le (hb : L.Balanced h s) : L.left h ≤ L.entered h := by
  rw [← hb]
  exact Multiset.le_add_right _ _

variable [DecidableEq κ] {k : κ}

/-- What comes in once leaves at most once. -/
theorem Balanced.count_le_one (hb : L.Balanced h s) (honce : (L.entered h).Nodup) :
    (L.left h).count k ≤ 1 :=
  le_trans (Multiset.count_le_of_le k hb.left_le) (Multiset.nodup_iff_count_le_one.mp honce k)

/-- **Exactly once**: what came in once and is not held has left once. -/
theorem Balanced.count_eq_one (hb : L.Balanced h s) (honce : (L.entered h).Nodup)
    (hk : k ∈ L.entered h) (hfree : k ∉ L.held s) : (L.left h).count k = 1 := by
  have hone : (L.entered h).count k = 1 := Multiset.count_eq_one_of_mem honce hk
  rw [← hb, Multiset.count_add, Multiset.count_eq_zero_of_notMem hfree] at hone
  exact hone

end Ledger

end Library
