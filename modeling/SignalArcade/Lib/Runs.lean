import Mathlib.Data.List.Basic

/-!
# Runs

A system with a total step function: its runs are the lists of actions taken one after
the other. `run` is the state a run ends in; `Along` says something of every action of a
run and the state it is taken in.

A law of runs is proved from an invariant: `Along.invariant` carries it to the state at
the end, and `Along.derive` gives from it what holds at every action on the way. Either
may use a condition that is known to hold along the run.
-/

namespace Runs

universe u v

variable {σ : Type u} {α : Type v} {step : σ → α → σ} {s : σ} {a : α} {actions later : List α}
  {C P : σ → α → Prop} {I : σ → Prop}

/-- The state a run ends in. -/
def run (step : σ → α → σ) (s : σ) (actions : List α) : σ := actions.foldl step s

@[simp] theorem run_nil : run step s [] = s := rfl

@[simp] theorem run_cons : run step s (a :: actions) = run step (step s a) actions := rfl

theorem run_append : run step s (actions ++ later) = run step (run step s actions) later :=
  List.foldl_append

/-- `C` holds of every action of a run and the state it is taken in. -/
def Along (step : σ → α → σ) (C : σ → α → Prop) : σ → List α → Prop
  | _, [] => True
  | s, a :: actions => C s a ∧ Along step C (step s a) actions

@[simp] theorem along_nil : Along step C s [] := trivial

@[simp] theorem along_cons : Along step C s (a :: actions) ↔ C s a ∧ Along step C (step s a) actions := Iff.rfl

instance [h : ∀ s a, Decidable (C s a)] : ∀ (s : σ) (actions : List α), Decidable (Along step C s actions)
  | _, [] => isTrue trivial
  | s, a :: actions =>
    have := instDecidableAlong (h := h) (step s a) actions
    inferInstanceAs (Decidable (C s a ∧ Along step C (step s a) actions))

theorem along_append :
    Along step C s (actions ++ later) ↔ Along step C s actions ∧ Along step C (run step s actions) later := by
  induction actions generalizing s with
  | nil => simp
  | cons a actions ih => simp [ih, and_assoc]

theorem along_iff :
    Along step C s actions ↔ ∀ before a after, actions = before ++ a :: after → C (run step s before) a := by
  constructor
  · rintro h before a after rfl
    exact (along_append.mp h).2.1
  · intro h
    induction actions generalizing s with
    | nil => exact along_nil
    | cons a actions ih =>
      refine ⟨h [] a actions rfl, ih fun before a' after he => ?_⟩
      exact h (a :: before) a' after (by rw [he, List.cons_append])

/-- What every step keeps, every run keeps. -/
theorem run_invariant (hI : I s) (keep : ∀ s a, I s → I (step s a)) : I (run step s actions) := by
  induction actions generalizing s with
  | nil => exact hI
  | cons a actions ih => exact ih (keep s a hI)

theorem Along.invariant (h : Along step C s actions) (hI : I s)
    (keep : ∀ s a, I s → C s a → I (step s a)) : I (run step s actions) := by
  induction actions generalizing s with
  | nil => exact hI
  | cons a actions ih => exact ih h.2 (keep s a hI h.1)

theorem Along.derive (h : Along step C s actions) (hI : I s)
    (keep : ∀ s a, I s → C s a → I (step s a)) (give : ∀ s a, I s → C s a → P s a) :
    Along step P s actions := by
  induction actions generalizing s with
  | nil => exact along_nil
  | cons a actions ih => exact ⟨give s a hI h.1, ih h.2 (keep s a hI h.1)⟩

end Runs
