import Mathlib

/-!
# Exact transfers over short system calls

A stream socket moves as many bytes per call as it likes.  An *exact*
transfer calls it in a loop until the wanted number of bytes has moved.

`transfer` is that loop, reading its system calls off a **script**: each
entry moves at most so many bytes, is interrupted, or fails.  Reading moves
from the stream into a buffer, writing from a buffer onto the wire; both are
the same loop.

* `transfer_moves`: whatever the script, a prefix of the source has moved in
  order, and the transfer is done exactly when that prefix is as long as
  wanted;
* `transfer_done`: with no failing call and a script that supplies as many
  moving calls as bytes are wanted, it is done;
* `transfer_eof`: a source that is too short makes it fail.
-/

namespace Library

/-- What one call comes to: it moves at most `n + 1` elements, it is
interrupted and tried again, or it fails.  Moving from an exhausted source
reports the end of the stream. -/
inductive Io
  | moves (n : Nat)
  | retry
  | fails
deriving DecidableEq, Repr

def Io.isMove : Io → Bool
  | .moves _ => true
  | _ => false

/-- How a loop over calls ends: it is done, it failed, or the script ended
first and it still waits. -/
inductive Status
  | done
  | failed
  | blocked
deriving DecidableEq, Repr

/-- The outcome of a transfer: what is left of the source, what the
destination holds, and the calls that were not made. -/
structure Transfer (ε α : Type) where
  status : Status
  src : List α
  dst : List α
  script : List ε
deriving DecidableEq, Repr

section

variable {ε α : Type} (io : ε → Io)

/-- Move exactly `want` elements from `src` to the end of `dst`. -/
def transfer : List ε → List α → Nat → List α → Transfer ε α
  | [], src, want, dst => ⟨if want = 0 then .done else .blocked, src, dst, []⟩
  | e :: script, src, want, dst =>
    if want = 0 then ⟨.done, src, dst, e :: script⟩
    else
      match io e with
      | .moves n =>
        if src.length = 0 then ⟨.failed, src, dst, script⟩
        else
          let count := min (n + 1) (min want src.length)
          transfer script (src.drop count) (want - count) (dst ++ src.take count)
      | .retry => transfer script src want dst
      | .fails => ⟨.failed, src, dst, script⟩

/-- No call of the script fails. -/
def Steady (script : List ε) : Prop := ∀ e ∈ script, io e ≠ .fails

/-- How many calls of the script move something. -/
def supply (script : List ε) : Nat := script.countP (fun e => (io e).isMove)

/-- **What has moved** is a prefix of the source, in order; the transfer is
done exactly when it has the wanted length. -/
theorem transfer_moves (script : List ε) (src : List α) (want : Nat) (dst : List α) :
    ∃ k, k ≤ want ∧ k ≤ src.length ∧ (transfer io script src want dst).src = src.drop k ∧
      (transfer io script src want dst).dst = dst ++ src.take k ∧
      ((transfer io script src want dst).status = .done ↔ k = want) := by
  induction script generalizing src want dst with
  | nil =>
      refine ⟨0, by omega, by omega, rfl, by simp [transfer], ?_⟩
      by_cases hwant : want = 0 <;> simp [transfer, hwant]
      omega
  | cons e script ih =>
      by_cases hwant : want = 0
      · subst hwant
        exact ⟨0, by omega, by omega, by simp [transfer], by simp [transfer], by simp [transfer]⟩
      simp only [transfer, if_neg hwant]
      cases io e with
      | moves n =>
          by_cases hempty : src.length = 0
          · simp only [hempty, if_true]
            refine ⟨0, by omega, by omega, rfl, by simp, ?_⟩
            simp only [reduceCtorEq, false_iff]
            omega
          simp only [if_neg hempty]
          generalize hcount : min (n + 1) (min want src.length) = count
          obtain ⟨k, hk, hlen, hsrc, hdst, hdone⟩ :=
            ih (src.drop count) (want - count) (dst ++ src.take count)
          rw [List.length_drop] at hlen
          refine ⟨count + k, by omega, by omega, ?_, ?_, ?_⟩
          · rw [hsrc, List.drop_drop]
          · rw [hdst, List.append_assoc, ← List.take_add]
          · rw [hdone]
            omega
      | retry => exact ih src want dst
      | fails =>
          refine ⟨0, by omega, by omega, rfl, by simp, ?_⟩
          simp only [reduceCtorEq, false_iff]
          omega

variable {io}

theorem Steady.of_cons {e : ε} {script : List ε} (h : Steady io (e :: script)) :
    Steady io script :=
  fun e' hmem => h e' (List.mem_cons_of_mem e hmem)

/-- A done transfer has moved exactly what was wanted. -/
theorem transfer_of_done {script : List ε} {src : List α} {want : Nat} {dst : List α}
    (h : (transfer io script src want dst).status = .done) :
    want ≤ src.length ∧ (transfer io script src want dst).src = src.drop want ∧
      (transfer io script src want dst).dst = dst ++ src.take want := by
  obtain ⟨k, -, hlen, hsrc, hdst, hdone⟩ := transfer_moves io script src want dst
  rw [hdone] at h
  subst h
  exact ⟨hlen, hsrc, hdst⟩

/-- **Steady scripts get there**: with a moving call for each wanted element
the transfer is done, and uses up no more moving calls than that. -/
theorem transfer_done {script : List ε} (src : List α) (want : Nat) (dst : List α)
    (hsteady : Steady io script) (hsupply : want ≤ supply io script)
    (hlen : want ≤ src.length) :
    (transfer io script src want dst).status = .done ∧
      Steady io (transfer io script src want dst).script ∧
      supply io script ≤ supply io (transfer io script src want dst).script + want := by
  induction script generalizing src want dst with
  | nil =>
      have hwant : want = 0 := by simpa [supply] using hsupply
      exact ⟨by simp [transfer, hwant], hsteady, by simp [supply]⟩
  | cons e script ih =>
      by_cases hwant : want = 0
      · subst hwant
        exact ⟨by simp [transfer], by simpa [transfer] using hsteady, by simp [transfer]⟩
      have htail := hsteady.of_cons
      have hne := hsteady e (by simp)
      simp only [transfer, if_neg hwant]
      cases hio : io e with
      | moves n =>
          have hcons : supply io (e :: script) = supply io script + 1 := by
            simp [supply, hio, Io.isMove]
          have hsome : ¬ src.length = 0 := by omega
          simp only [if_neg hsome]
          generalize hcount : min (n + 1) (min want src.length) = count
          obtain ⟨hdone, hsteady', hrest⟩ :=
            ih (src.drop count) (want - count) (dst ++ src.take count) htail (by omega)
              (by rw [List.length_drop]; omega)
          exact ⟨hdone, hsteady', by omega⟩
      | retry =>
          have hcons : supply io (e :: script) = supply io script := by
            simp [supply, hio, Io.isMove]
          rw [hcons] at hsupply ⊢
          exact ih src want dst htail hsupply hlen
      | fails => exact absurd hio hne

/-- **A short source fails**: one moving call more than the source has
elements, and the end of the stream is seen. -/
theorem transfer_eof {script : List ε} (src : List α) (want : Nat) (dst : List α)
    (hsteady : Steady io script) (hsupply : src.length < supply io script)
    (hlen : src.length < want) : (transfer io script src want dst).status = .failed := by
  induction script generalizing src want dst with
  | nil => simp [supply] at hsupply
  | cons e script ih =>
      have htail := hsteady.of_cons
      have hne := hsteady e (by simp)
      simp only [transfer, if_neg (show ¬ want = 0 by omega)]
      cases hio : io e with
      | moves n =>
          have hcons : supply io (e :: script) = supply io script + 1 := by
            simp [supply, hio, Io.isMove]
          by_cases hempty : src.length = 0
          · simp [hempty]
          simp only [if_neg hempty]
          apply ih _ _ _ htail
          · rw [List.length_drop]
            omega
          · rw [List.length_drop]
            omega
      | retry =>
          have hcons : supply io (e :: script) = supply io script := by
            simp [supply, hio, Io.isMove]
          rw [hcons] at hsupply
          exact ih src want dst htail hsupply hlen
      | fails => exact absurd hio hne

end

end Library
