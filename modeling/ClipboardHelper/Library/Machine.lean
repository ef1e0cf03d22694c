import Mathlib

/-!
# Machines that run step by step and leave a history

A machine takes one action at a time.  A step either refuses the action
(`none`) or moves to the next state and emits a finite list of observations.
A **run** is any finite sequence of accepted steps; the observations it has
emitted so far are its **history**.

A property of all interleavings is reduced here to what one step can do: a
relation between history and state that holds initially and survives every
step holds after every run (`Run.history_invariant`), and a relation on
states alone likewise (`Run.state_invariant`).

A run can carry a side condition on the state and the action before each
step; `always` is the unrestricted machine.  Where a statement needs to know
which actions were taken, `traced` records them with what they emitted; its
runs are those of the machine itself (`Run.traced`, `Run.observed`).

One machine simulates another if a relation between their histories and
states survives every step of the second, answered by some steps of the first
(`Run.simulated`).
-/

namespace Library

/-- A deterministic machine over states `σ`, actions `α` and observations
`ο`.  Nondeterminism of the environment lives in the choice of the action. -/
structure Machine (σ α ο : Type) where
  step : σ → α → Option (σ × List ο)

namespace Machine

variable {σ α ο : Type}

/-- Execute a list of actions, collecting the observations. -/
def exec (m : Machine σ α ο) : σ → List α → Option (σ × List ο)
  | s, [] => some (s, [])
  | s, a :: as =>
    match m.step s a with
    | none => none
    | some (s', os) =>
      match m.exec s' as with
      | none => none
      | some (s'', os') => some (s'', os ++ os')

/-- `Run m ok s₀ h s`: from `s₀`, steps that all met `ok` beforehand have
emitted the history `h` and reached `s`. -/
inductive Run (m : Machine σ α ο) (ok : σ → α → Prop) (s₀ : σ) :
    List ο → σ → Prop
  | nil : Run m ok s₀ [] s₀
  | snoc {h os : List ο} {s s' : σ} {a : α}
      (before : Run m ok s₀ h s) (guard : ok s a)
      (step : m.step s a = some (s', os)) : Run m ok s₀ (h ++ os) s'

/-- The unrestricted side condition. -/
def always : σ → α → Prop := fun _ _ => True

variable {m : Machine σ α ο} {ok : σ → α → Prop} {s₀ : σ}

/-- **History invariant rule.** -/
theorem Run.history_invariant (Inv : List ο → σ → Prop)
    (hinit : Inv [] s₀)
    (hstep : ∀ h s a s' os, Inv h s → ok s a →
      m.step s a = some (s', os) → Inv (h ++ os) s')
    {h : List ο} {s : σ} (hrun : Run m ok s₀ h s) : Inv h s := by
  induction hrun with
  | nil => exact hinit
  | snoc _ guard step ih => exact hstep _ _ _ _ _ ih guard step

/-- **State invariant rule.** -/
theorem Run.state_invariant (Inv : σ → Prop) (hinit : Inv s₀)
    (hstep : ∀ s a s' os, Inv s → ok s a →
      m.step s a = some (s', os) → Inv s')
    {h : List ο} {s : σ} (hrun : Run m ok s₀ h s) : Inv s := by
  induction hrun with
  | nil => exact hinit
  | snoc _ guard step ih => exact hstep _ _ _ _ ih guard step

/-- A weaker side condition admits every run of a stronger one. -/
theorem Run.mono {ok' : σ → α → Prop} (hok : ∀ s a, ok s a → ok' s a)
    {h : List ο} {s : σ} (hrun : Run m ok s₀ h s) : Run m ok' s₀ h s := by
  induction hrun with
  | nil => exact .nil
  | snoc _ guard step ih => exact .snoc ih (hok _ _ guard) step

/-- A run continues by a further run from the state it reached. -/
theorem Run.append {h h' : List ο} {s s' : σ}
    (first : Run m ok s₀ h s) (second : Run m ok s h' s') :
    Run m ok s₀ (h ++ h') s' := by
  induction second with
  | nil => simpa using first
  | snoc _ guard step ih =>
      rw [← List.append_assoc]
      exact .snoc ih guard step

/-- One step of the unrestricted machine is a run. -/
theorem Run.single {s s' : σ} {a : α} {os : List ο} (hstep : m.step s a = some (s', os)) :
    Run m always s os s' :=
  .snoc .nil trivial hstep

/-- **Simulation rule**: if some steps of `m'` answer every step of `m`, a run
of `m'` answers every run of `m`. -/
theorem Run.simulated {σ' α' ο' : Type} {m' : Machine σ' α' ο'} {ok' : σ' → α' → Prop}
    {s₀' : σ'} (R : List ο → σ → List ο' → σ' → Prop) (hinit : R [] s₀ [] s₀')
    (hstep : ∀ h s a os t h' s', R h s h' s' → ok s a → m.step s a = some (t, os) →
      ∃ os' t', Run m' ok' s' os' t' ∧ R (h ++ os) t (h' ++ os') t')
    {h : List ο} {s : σ} (hrun : Run m ok s₀ h s) :
    ∃ h' s', Run m' ok' s₀' h' s' ∧ R h s h' s' := by
  induction hrun with
  | nil => exact ⟨[], s₀', .nil, hinit⟩
  | snoc _ guard step ih =>
      obtain ⟨h', s', hrun', hrel⟩ := ih
      obtain ⟨os', t', hanswer, hrel'⟩ := hstep _ _ _ _ _ _ _ hrel guard step
      exact ⟨h' ++ os', t', hrun'.append hanswer, hrel'⟩

/-- Splitting off the first action of an execution. -/
theorem exec_cons {s s'' : σ} {a : α} {as : List α} {os : List ο}
    (h : m.exec s (a :: as) = some (s'', os)) :
    ∃ s' os₁ os₂, m.step s a = some (s', os₁) ∧
      m.exec s' as = some (s'', os₂) ∧ os = os₁ ++ os₂ := by
  simp only [exec] at h
  split at h
  · cases h
  · rename_i s' os₁ hstep
    split at h
    · cases h
    · rename_i t os₂ hrest
      cases h
      exact ⟨s', os₁, os₂, hstep, hrest, rfl⟩

/-- Every successful execution of the unrestricted machine is a run. -/
theorem Run.of_exec {as : List α} {s s' : σ} {os : List ο}
    (h : m.exec s as = some (s', os)) : Run m always s os s' := by
  induction as generalizing s os with
  | nil =>
      cases h
      exact .nil
  | cons a as ih =>
      obtain ⟨t, os₁, os₂, hstep, hrest, rfl⟩ := exec_cons h
      have first : Run m always s ([] ++ os₁) t := .snoc .nil trivial hstep
      exact Run.append (by simpa using first) (ih hrest)

/-- An execution whose result is known in part is a run with that part. -/
theorem Run.of_exec_map {β : Type} {as : List α} {s : σ} {f : σ × List ο → β} {b : β}
    (h : (m.exec s as).map f = some b) : ∃ os s', Run m always s os s' ∧ f (s', os) = b := by
  obtain ⟨⟨s', os⟩, hexec, hf⟩ := Option.map_eq_some_iff.mp h
  exact ⟨os, s', Run.of_exec hexec, hf⟩

/-- Execute a list of actions, each of which must pass a test beforehand. -/
def execIf (m : Machine σ α ο) (test : σ → α → Bool) : σ → List α → Option (σ × List ο)
  | s, [] => some (s, [])
  | s, a :: as =>
    if test s a then
      match m.step s a with
      | none => none
      | some (s', os) =>
        match m.execIf test s' as with
        | none => none
        | some (s'', os') => some (s'', os ++ os')
    else none

/-- Every successful tested execution is a run under the side condition that
the test decides. -/
theorem Run.of_execIf {test : σ → α → Bool} (htest : ∀ s a, test s a = true → ok s a)
    {as : List α} {s s' : σ} {os : List ο} (h : m.execIf test s as = some (s', os)) :
    Run m ok s os s' := by
  induction as generalizing s os with
  | nil =>
      cases h
      exact .nil
  | cons a as ih =>
      simp only [execIf] at h
      split at h
      · rename_i hpass
        split at h
        · cases h
        · rename_i t os₁ hstep
          split at h
          · cases h
          · rename_i t' os₂ hrest
            cases h
            have first : Run m ok s ([] ++ os₁) t := .snoc .nil (htest s a hpass) hstep
            exact Run.append (by simpa using first) (ih hrest)
      · cases h

/-- As `of_exec_map`, for tested executions. -/
theorem Run.of_execIf_map {β : Type} {test : σ → α → Bool}
    (htest : ∀ s a, test s a = true → ok s a) {as : List α} {s : σ} {f : σ × List ο → β}
    {b : β} (h : (m.execIf test s as).map f = some b) :
    ∃ os s', Run m ok s os s' ∧ f (s', os) = b := by
  obtain ⟨⟨s', os⟩, hexec, hf⟩ := Option.map_eq_some_iff.mp h
  exact ⟨os, s', Run.of_execIf htest hexec, hf⟩

/-- The machine that records each action together with what it emitted. -/
def traced (m : Machine σ α ο) : Machine σ α (α × List ο) where
  step s a := (m.step s a).map (fun r => (r.1, [(a, r.2)]))

/-- The observations along a trace. -/
def observed (t : List (α × List ο)) : List ο := t.flatMap Prod.snd

@[simp] theorem observed_append (t es : List (α × List ο)) :
    observed (t ++ es) = observed t ++ observed es :=
  List.flatMap_append

@[simp] theorem observed_singleton (a : α) (os : List ο) : observed [(a, os)] = os := by
  simp [observed]

/-- A step of the recording machine is a step of the machine. -/
theorem step_of_traced {s s' : σ} {a : α} {es : List (α × List ο)}
    (h : m.traced.step s a = some (s', es)) :
    ∃ os, m.step s a = some (s', os) ∧ es = [(a, os)] := by
  obtain ⟨⟨t, os⟩, hstep, heq⟩ := Option.map_eq_some_iff.mp h
  cases heq
  exact ⟨os, hstep, rfl⟩

/-- **A trace is a run**, -/
theorem Run.observed {t : List (α × List ο)} {s : σ} (hrun : Run m.traced ok s₀ t s) :
    Run m ok s₀ (observed t) s := by
  induction hrun with
  | nil => exact .nil
  | snoc _ guard step ih =>
      obtain ⟨os, hstep, rfl⟩ := step_of_traced step
      rw [observed_append, observed_singleton]
      exact .snoc ih guard hstep

/-- **and every run has a trace.** -/
theorem Run.traced {h : List ο} {s : σ} (hrun : Run m ok s₀ h s) :
    ∃ t, Run m.traced ok s₀ t s ∧ Machine.observed t = h := by
  induction hrun with
  | nil => exact ⟨[], .nil, rfl⟩
  | @snoc h os s s' a _ guard step ih =>
      obtain ⟨t, htrace, rfl⟩ := ih
      have hstep : m.traced.step s a = some (s', [(a, os)]) := by
        show (m.step s a).map (fun r => (r.1, [(a, r.2)])) = some (s', [(a, os)])
        rw [step]
        rfl
      exact ⟨t ++ [(a, os)], .snoc htrace guard hstep, by simp⟩

end Machine

end Library
