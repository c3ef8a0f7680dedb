import Mathlib.Tactic.Linarith
import Mathlib.Tactic.Ring

/-!
# Bisection

What is accepted is searched for between an end that is accepted and an end that is refused. It need not be an
interval: the search keeps an end of either kind, and the outcome of the one that is accepted.
-/

namespace Bisection

/-- A search between two bounds, with the best found. -/
structure Search (K α : Type*) where
  low : K
  high : K
  candidate : α

variable {K α : Type*} [Field K] [LinearOrder K] (evaluate : K → α) (accepts : α → Prop) (low high : K)

/-- Where a search between two ends stands after some steps. -/
structure Between (steps : ℕ) (search : Search K α) : Prop where
  candidate : search.candidate = evaluate search.low
  accepted : accepts search.candidate
  refused : ¬accepts (evaluate search.high)
  width : search.high - search.low = (high - low) / 2 ^ steps
  low_le : low ≤ search.low
  le_high : search.high ≤ high

def step [DecidablePred accepts] (search : Search K α) : Search K α :=
  let midpoint := (search.low + search.high) / (2 : ℕ)
  let tested := evaluate midpoint
  if accepts tested then { search with low := midpoint, candidate := tested } else { search with high := midpoint }

variable {evaluate accepts low high} [IsStrictOrderedRing K] {steps : ℕ} {search : Search K α}

theorem Between.lt (h : Between evaluate accepts low high steps search) (hlt : low < high) : search.low < search.high := by
  have hwidth : 0 < search.high - search.low := by
    rw [h.width]
    exact div_pos (sub_pos.mpr hlt) (pow_pos two_pos _)
  exact sub_pos.mp hwidth

variable [DecidablePred accepts]

theorem Between.step (h : Between evaluate accepts low high steps search) (hlt : low < high) :
    Between evaluate accepts low high (steps + 1) (step evaluate accepts search) := by
  have hends := h.lt hlt
  have hlow := h.low_le
  have hhigh := h.le_high
  have hhalf : (high - low) / 2 ^ (steps + 1) = (search.high - search.low) / 2 := by rw [h.width, pow_succ, div_div]
  unfold Bisection.step
  rw [Nat.cast_ofNat]
  dsimp only
  split_ifs with haccepts
  · refine ⟨rfl, haccepts, h.refused, ?_, ?_, hhigh⟩ <;> dsimp only
    · rw [hhalf]; ring
    · linarith
  · refine ⟨h.candidate, h.accepted, haccepts, ?_, hlow, ?_⟩ <;> dsimp only
    · rw [hhalf]; ring
    · linarith

theorem between_iterate (hlt : low < high) (haccepts : accepts (evaluate low)) (hrefuses : ¬accepts (evaluate high))
    (steps : ℕ) : Between evaluate accepts low high steps ((step evaluate accepts)^[steps] ⟨low, high, evaluate low⟩) := by
  induction steps with
  | zero => exact ⟨rfl, haccepts, hrefuses, by simp, le_rfl, le_rfl⟩
  | succ steps ih =>
    rw [Function.iterate_succ_apply']
    exact ih.step hlt

end Bisection
