import Mathlib.Logic.Function.Basic
import Oxidrop.Lib.Run

/-!
# Machines that work on one cell at a time

The state is a family of cells. An event names at most one key, reads and
writes the cell at that key alone, and an event without a key answers without
looking at the state. Such events commute whenever their keys differ, and each
key's answers in a run are the answers it would get alone.
-/
namespace Keyed

open Run

variable {ε κ γ ω : Type*} [DecidableEq κ]

structure KeyedMachine (ε κ γ ω : Type*) where
  key : ε → Option κ
  idle : ε → ω
  cell : ε → γ → ω × γ

variable (M : KeyedMachine ε κ γ ω)

def KeyedMachine.step : Machine ε (κ → γ) ω := fun e s =>
  match M.key e with
  | none => (M.idle e, s)
  | some k => ((M.cell e (s k)).1, Function.update s k (M.cell e (s k)).2)

theorem step_none {e : ε} (s : κ → γ) (h : M.key e = none) : M.step e s = (M.idle e, s) := by
  simp [KeyedMachine.step, h]

theorem step_some {e : ε} {k : κ} (s : κ → γ) (h : M.key e = some k) :
    M.step e s = ((M.cell e (s k)).1, Function.update s k (M.cell e (s k)).2) := by
  simp [KeyedMachine.step, h]

/-- An event leaves every cell but its own as it was. -/
theorem step_other {e : ε} {k : κ} (s : κ → γ) (h : M.key e ≠ some k) :
    (M.step e s).2 k = s k := by
  cases he : M.key e with
  | none => rw [step_none M s he]
  | some j =>
    have hkj : k ≠ j := by intro hk; exact h (by rw [he, hk])
    rw [step_some M s he]
    simp [hkj]

/-- The answer and the new cell depend on the event's own cell alone. -/
theorem step_local {e : ε} {k : κ} (s t : κ → γ) (h : M.key e = some k) (hst : s k = t k) :
    (M.step e s).1 = (M.step e t).1 ∧ (M.step e s).2 k = (M.step e t).2 k := by
  simp [step_some M _ h, hst]

theorem step_answer {e f : ε} (s : κ → γ) (h : ∀ k, M.key e = some k → M.key f ≠ some k) :
    (M.step e (M.step f s).2).1 = (M.step e s).1 := by
  cases he : M.key e with
  | none => simp [step_none M _ he]
  | some k => exact (step_local M _ s he (step_other M s (h k he))).1

/-- Events of different keys commute: same answers, same final cells. -/
theorem step_comm {e f : ε} (s : κ → γ) (h : ∀ k, M.key e = some k → M.key f ≠ some k) :
    (M.step e (M.step f s).2).2 = (M.step f (M.step e s).2).2 := by
  cases he : M.key e with
  | none => simp [step_none M _ he]
  | some j =>
    cases hf : M.key f with
    | none => simp [step_none M _ hf]
    | some k =>
      have hjk : j ≠ k := by intro hjk; exact h j he (by rw [hf, hjk])
      simp only [step_some M _ he, step_some M _ hf]
      rw [Function.update_of_ne hjk, Function.update_of_ne (Ne.symm hjk)]
      exact Function.update_comm (Ne.symm hjk) _ _ s

/-- The answers that the events of key `k` get in a run. -/
def answersAt (k : κ) : (κ → γ) → List ε → List ω
  | _, [] => []
  | s, e :: es =>
    if M.key e = some k then (M.step e s).1 :: answersAt k (M.step e s).2 es
    else answersAt k (M.step e s).2 es

/-- Dropping the events of all other keys changes neither the answers at `k`
nor the cell at `k`. -/
theorem project (k : κ) (s t : κ → γ) (es : List ε) (hst : s k = t k) :
    answersAt M k s es = outputs M.step t (es.filter (fun e => M.key e = some k)) ∧
      run M.step s es k = run M.step t (es.filter (fun e => M.key e = some k)) k := by
  induction es generalizing s t with
  | nil => exact ⟨rfl, hst⟩
  | cons e es ih =>
    by_cases he : M.key e = some k
    · have hl := step_local M s t he hst
      have h := ih (M.step e s).2 (M.step e t).2 hl.2
      simp only [answersAt, he, if_true, decide_true, List.filter_cons_of_pos, outputs_cons,
        run_cons, hl.1, h.1, h.2, and_self]
    · have h := ih (M.step e s).2 t ((step_other M s he).trans hst)
      simpa only [answersAt, he, if_false, run_cons, decide_false, Bool.false_eq_true,
        not_false_eq_true, List.filter_cons_of_neg] using h

end Keyed
