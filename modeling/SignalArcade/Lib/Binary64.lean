import Mathlib.Data.Int.Log
import Mathlib.Data.Rat.Floor
import Mathlib.Tactic.Linarith

/-!
# Rounding to doubles

The double next to a rational number, as IEEE 754 has it for the result of an operation: of two that are equally near the
one with the even significand. There are no infinities: a number that is too large is no double. Zero has no sign.
-/

namespace Binary64

/-- The integer next to a number, of two the even one. -/
def roundEven (q : ℚ) : ℤ :=
  if Int.fract q < 1 / 2 ∨ Int.fract q = 1 / 2 ∧ ⌊q⌋ % 2 = 0 then ⌊q⌋ else ⌊q⌋ + 1

/-- The exponent of the last place, where the least one is that of the subnormal numbers. -/
def exponent (q : ℚ) : ℤ := max (-1074) (Int.log 2 |q| - 52)

/-- The double next to a number, were there no largest one. -/
def rounded (q : ℚ) : ℚ := roundEven (q / 2 ^ exponent q) * 2 ^ exponent q

/-- The double next to a number, if it is not too large. -/
def double? (q : ℚ) : Option ℚ := if |rounded q| < 2 ^ 1024 then some (rounded q) else none

variable {q : ℚ}

theorem roundEven_le {n : ℤ} (h : q ≤ n) : roundEven q ≤ n := by
  have hfloor : ⌊q⌋ ≤ n := Int.floor_le_iff.mpr (h.trans_lt (lt_add_one _))
  unfold roundEven
  split_ifs with hbelow
  · exact hfloor
  · refine Int.add_one_le_of_lt (lt_of_le_of_ne hfloor fun heq => hbelow (.inl ?_))
    rw [Int.fract, heq]
    linarith

theorem le_roundEven {n : ℤ} (h : (n : ℚ) ≤ q) : n ≤ roundEven q := by
  have hfloor : n ≤ ⌊q⌋ := Int.le_floor.mpr h
  unfold roundEven
  split_ifs
  · exact hfloor
  · exact hfloor.trans (Int.le_add_one le_rfl)

theorem exponent_nonpos (h : |q| < 2 ^ 53) : exponent q ≤ 0 := by
  refine max_le (by norm_num) (sub_nonpos.mpr (Int.lt_add_one_iff.mp ?_))
  rcases eq_or_ne q 0 with rfl | hne
  · simp
  · exact (Int.lt_zpow_iff_log_lt Nat.one_lt_two (abs_pos.mpr hne)).mp (by exact_mod_cast h)

theorem unit_of_lt (h : |q| < 2 ^ 53) : ∃ k : ℕ, (2 : ℚ) ^ exponent q = 1 / 2 ^ k := by
  obtain ⟨k, hk⟩ := Int.eq_ofNat_of_zero_le (neg_nonneg.mpr (exponent_nonpos h))
  refine ⟨k, ?_⟩
  rw [← neg_neg (exponent q), hk, zpow_neg, zpow_natCast, one_div]

/-- **Rounding does not pass an integer**, of a number below the greatest significand. -/
theorem rounded_le {n : ℤ} (hlt : |q| < 2 ^ 53) (h : q ≤ n) : rounded q ≤ n := by
  obtain ⟨k, hunit⟩ := unit_of_lt hlt
  have hpos : (0 : ℚ) < 2 ^ k := by positivity
  have hscaled : roundEven (q * 2 ^ k) ≤ n * 2 ^ k := by
    refine roundEven_le ?_
    push_cast
    exact mul_le_mul_of_nonneg_right h hpos.le
  unfold rounded
  rw [hunit, div_div_eq_mul_div, div_one, mul_one_div, div_le_iff₀ hpos]
  exact_mod_cast hscaled

theorem le_rounded {n : ℤ} (hlt : |q| < 2 ^ 53) (h : (n : ℚ) ≤ q) : (n : ℚ) ≤ rounded q := by
  obtain ⟨k, hunit⟩ := unit_of_lt hlt
  have hpos : (0 : ℚ) < 2 ^ k := by positivity
  have hscaled : n * 2 ^ k ≤ roundEven (q * 2 ^ k) := by
    refine le_roundEven ?_
    push_cast
    exact mul_le_mul_of_nonneg_right h hpos.le
  unfold rounded
  rw [hunit, div_div_eq_mul_div, div_one, mul_one_div, le_div_iff₀ hpos]
  exact_mod_cast hscaled

end Binary64
