import Mathlib

/-!
# Programs that call a system

A program ends with a value, or makes a call and goes on with the answer.  A
**system** says of each call in which states it may be made, what it may be
answered, and in which state that leaves the system.

`Safe p s Q`: whatever the system answers, every call of `p` may be made when
it is made, and where `p` ends, `Q` holds of the value and the state.  It is
the weakest precondition of `p` for `Q`, and is the same as what one finds by
following `p` along all paths (`safe_iff`).  A sequence is taken apart at its
joints (`safe_bind`), a list of calls is one invariant (`safe_collect`).
-/

namespace Library

/-- A program over calls `κ`, a call `c` being answered by a `ρ c`. -/
inductive Program (κ : Type) (ρ : κ → Type) (α : Type)
  | done (value : α)
  | call (c : κ) (next : ρ c → Program κ ρ α)

namespace Program

variable {κ : Type} {ρ : κ → Type} {α β γ : Type}

def bind : Program κ ρ α → (α → Program κ ρ β) → Program κ ρ β
  | done value, f => f value
  | call c next, f => call c (fun r => (next r).bind f)

instance : Monad (Program κ ρ) where
  pure := done
  bind := bind

@[simp] theorem pure_eq (value : α) : (pure value : Program κ ρ α) = done value := rfl

@[simp] theorem done_bind (value : α) (f : α → Program κ ρ β) : (done value >>= f) = f value := rfl

@[simp] theorem call_bind (c : κ) (next : ρ c → Program κ ρ α) (f : α → Program κ ρ β) :
    (call c next >>= f) = call c (fun r => next r >>= f) := rfl

/-- One call. -/
def ask (c : κ) : Program κ ρ (ρ c) := call c done

/-- One program after the other, with what each of them ends with. -/
def collect (f : β → Program κ ρ γ) : List β → Program κ ρ (List γ)
  | [] => done []
  | b :: bs => do
    let value ← f b
    let values ← collect f bs
    return value :: values

end Program

/-- What a program may call, what it may be told, and what that does. -/
structure System (κ : Type) (ρ : κ → Type) (σ : Type) where
  allowed : σ → κ → Prop
  answers : σ → (c : κ) → ρ c → Prop
  after : σ → (c : κ) → ρ c → σ

namespace System

variable {κ : Type} {ρ : κ → Type} {σ α β γ : Type} (S : System κ ρ σ)

/-- `Reaches p s calls p' s'`: after these calls, answered so, `p'` is left of
`p`. -/
inductive Reaches : Program κ ρ α → σ → List ((c : κ) × ρ c) → Program κ ρ α → σ → Prop
  | here {p : Program κ ρ α} {s : σ} : Reaches p s [] p s
  | call {c : κ} {r : ρ c} {next : ρ c → Program κ ρ α} {s s' : σ} {p' : Program κ ρ α}
      {calls : List ((c : κ) × ρ c)} (answer : S.answers s c r)
      (rest : Reaches (next r) (S.after s c r) calls p' s') :
      Reaches (.call c next) s (⟨c, r⟩ :: calls) p' s'

def Safe : Program κ ρ α → σ → (α → σ → Prop) → Prop
  | .done value, s, Q => Q value s
  | .call c next, s, Q =>
    S.allowed s c ∧ ∀ r, S.answers s c r → Safe (next r) (S.after s c r) Q

variable {S} {s : σ} {p : Program κ ρ α} {Q Q' : α → σ → Prop}

@[simp] theorem safe_done {value : α} : S.Safe (.done value) s Q ↔ Q value s := Iff.rfl

theorem safe_call {c : κ} {next : ρ c → Program κ ρ α} :
    S.Safe (.call c next) s Q ↔
      S.allowed s c ∧ ∀ r, S.answers s c r → S.Safe (next r) (S.after s c r) Q :=
  Iff.rfl

@[simp] theorem safe_ask {c : κ} {Q : ρ c → σ → Prop} :
    S.Safe (.ask c) s Q ↔ S.allowed s c ∧ ∀ r, S.answers s c r → Q r (S.after s c r) :=
  Iff.rfl

/-- **A sequence**: the second program starts where the first one ends. -/
@[simp] theorem safe_bind {f : α → Program κ ρ β} {Q : β → σ → Prop} :
    S.Safe (p >>= f) s Q ↔ S.Safe p s (fun value s => S.Safe (f value) s Q) := by
  induction p generalizing s with
  | done value => exact Iff.rfl
  | call c next ih =>
      constructor
      · intro ⟨hallowed, hnext⟩
        exact ⟨hallowed, fun r hr => (ih r).mp (hnext r hr)⟩
      · intro ⟨hallowed, hnext⟩
        exact ⟨hallowed, fun r hr => (ih r).mpr (hnext r hr)⟩

theorem Safe.mono (hsafe : S.Safe p s Q) (hQ : ∀ value s, Q value s → Q' value s) :
    S.Safe p s Q' := by
  induction p generalizing s with
  | done value => exact hQ value s hsafe
  | call c next ih => exact ⟨hsafe.1, fun r hr => ih r (hsafe.2 r hr)⟩

/-- **A loop** keeps what each of its rounds keeps. -/
theorem safe_collect {f : β → Program κ ρ γ} {bs : List β} (Inv : σ → Prop) (hinv : Inv s)
    (hround : ∀ b ∈ bs, ∀ s, Inv s → S.Safe (f b) s (fun _ s => Inv s)) :
    S.Safe (.collect f bs) s (fun _ s => Inv s) := by
  induction bs generalizing s with
  | nil => exact hinv
  | cons b bs ih =>
      rw [Program.collect, safe_bind]
      refine (hround b List.mem_cons_self s hinv).mono ?_
      intro _ s hs
      rw [safe_bind]
      exact (ih hs fun b hb => hround b (List.mem_cons_of_mem _ hb)).mono fun _ _ h => h

/-! ## Along the paths -/

/-- What holds where a path has led to: the next call may be made, or the
program has ended as it should. -/
def Fine (Q : α → σ → Prop) : Program κ ρ α → σ → Prop
  | .done value, s => Q value s
  | .call c _, s => S.allowed s c

/-- What is left of a safe program is safe. -/
theorem Safe.reaches {p' : Program κ ρ α} {s' : σ} {calls : List ((c : κ) × ρ c)}
    (hsafe : S.Safe p s Q) (hreach : S.Reaches p s calls p' s') : S.Safe p' s' Q := by
  induction hreach with
  | here => exact hsafe
  | call answer _ ih => exact ih (hsafe.2 _ answer)

/-- **A program is safe if and only if every path of it is fine.** -/
theorem safe_iff : S.Safe p s Q ↔
    ∀ calls p' s', S.Reaches p s calls p' s' → S.Fine Q p' s' := by
  constructor
  · intro hsafe calls p' s' hreach
    have hleft := hsafe.reaches hreach
    cases p' with
    | done value => exact hleft
    | call c next => exact hleft.1
  · intro hpaths
    induction p generalizing s with
    | done value => exact hpaths _ _ _ .here
    | call c next ih =>
        refine ⟨hpaths _ _ _ .here, ?_⟩
        intro r hr
        exact ih r fun calls p' s' hreach => hpaths _ _ _ (.call hr hreach)

/-! ## With what is observed -/

/-- The system, and what was observed of the calls. -/
def observed {ω : Type} (S : System κ ρ σ) (observe : (c : κ) → ρ c → List ω) :
    System κ ρ (List ω × σ) where
  allowed s := S.allowed s.2
  answers s := S.answers s.2
  after s c r := (s.1 ++ observe c r, S.after s.2 c r)

section

variable {ω : Type} {observe : (c : κ) → ρ c → List ω} {os : List ω}

theorem Reaches.observed {p' : Program κ ρ α} {s' : σ} {calls : List ((c : κ) × ρ c)}
    (hreach : S.Reaches p s calls p' s') (os : List ω) :
    (S.observed observe).Reaches p (os, s) calls p'
      (os ++ calls.flatMap (fun call => observe call.1 call.2), s') := by
  induction hreach generalizing os with
  | here => simpa using .here
  | @call c r _ _ _ _ _ answer _ ih =>
      have hrest := ih (os ++ observe c r)
      rw [List.append_assoc] at hrest
      exact .call answer hrest

/-- What is safe is so whoever looks on. -/
theorem safe_observed_iff :
    (S.observed observe).Safe p (os, s) (fun value s => Q value s.2) ↔ S.Safe p s Q := by
  induction p generalizing s os with
  | done value => exact Iff.rfl
  | call c next ih =>
      constructor
      · intro ⟨hallowed, hnext⟩
        exact ⟨hallowed, fun r hr => ih r |>.mp (hnext r hr)⟩
      · intro ⟨hallowed, hnext⟩
        exact ⟨hallowed, fun r hr => ih r |>.mpr (hnext r hr)⟩

end

end System

end Library
