import ClipboardHelper.Library.Machine

/-!
# Machines that come to rest

Some of the actions of a machine are its own, the others come from outside.
A state is **at rest** if the machine has nothing of its own to do there.  If
its own steps use up a measure, it does at most so many of them in a row
(`length_le_of_uses_up`), and comes to rest wherever it is (`comes_to_rest`).
-/

namespace Library

namespace Machine

variable {σ α ο : Type} {m : Machine σ α ο} {own : α → Prop} {effort : σ → Nat}

/-- None of its own actions is possible. -/
def AtRest (m : Machine σ α ο) (own : α → Prop) (s : σ) : Prop :=
  ∀ a, own a → m.step s a = none

/-- In such a state each step of its own takes something of the measure. -/
def UsesUp (m : Machine σ α ο) (own : α → Prop) (ok : σ → Prop) (effort : σ → Nat) : Prop :=
  ∀ s a s' os, ok s → own a → m.step s a = some (s', os) → ok s' ∧ effort s' < effort s

theorem length_le_of_uses_up {ok : σ → Prop} (huses : m.UsesUp own ok effort) {as : List α}
    {s s' : σ} {os : List ο} (hok : ok s) (hown : ∀ a ∈ as, own a)
    (hexec : m.exec s as = some (s', os)) : as.length + effort s' ≤ effort s := by
  induction as generalizing s os with
  | nil =>
      cases hexec
      exact Nat.le_of_eq (Nat.zero_add _)
  | cons a as ih =>
      obtain ⟨t, os₁, os₂, hstep, hrest, rfl⟩ := exec_cons hexec
      obtain ⟨hokt, hless⟩ := huses s a t os₁ hok (hown a List.mem_cons_self) hstep
      have hle := ih hokt (fun b hb => hown b (List.mem_cons_of_mem a hb)) hrest
      rw [List.length_cons]
      omega

/-- **It comes to rest**, by steps of its own. -/
theorem comes_to_rest {ok : σ → Prop} (huses : m.UsesUp own ok effort) {s : σ} (hok : ok s) :
    ∃ as s' os, (∀ a ∈ as, own a) ∧ m.exec s as = some (s', os) ∧ m.AtRest own s' := by
  induction hn : effort s using Nat.strong_induction_on generalizing s with
  | _ n ih =>
      by_cases hrest : m.AtRest own s
      · exact ⟨[], s, [], nofun, rfl, hrest⟩
      · simp only [AtRest, not_forall] at hrest
        obtain ⟨a, hown, hsome⟩ := hrest
        obtain ⟨⟨t, os⟩, hstep⟩ := Option.ne_none_iff_exists'.mp hsome
        obtain ⟨hokt, hless⟩ := huses s a t os hok hown hstep
        obtain ⟨as, s', os', hall, hexec, hend⟩ := ih (effort t) (hn ▸ hless) hokt rfl
        refine ⟨a :: as, s', os ++ os', ?_, ?_, hend⟩
        · intro b hb
          rcases List.mem_cons.mp hb with rfl | hb
          · exact hown
          · exact hall b hb
        · simp only [exec, hstep, hexec]

end Machine

end Library
