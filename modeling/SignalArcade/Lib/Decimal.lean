import Mathlib.Data.Int.Log
import Mathlib.Data.Rat.Floor
import Mathlib.Tactic.Positivity

/-!
# Decimal arithmetic of a fixed precision

A decimal context rounds the exact result of every operation to its number of
significant digits, half to even. Values are the rationals they denote.

What the arithmetic is used for is an order of amounts, and all that is needed of the
rounding is that it respects it: `round_mono`, also across powers of ten, where the
number of digits kept after the point changes.
-/

namespace Decimal

/-- The nearest integer, the even one of two. -/
def roundHalfEven (q : ℚ) : ℤ :=
  if q - ⌊q⌋ < 1 / 2 then ⌊q⌋
  else if 1 / 2 < q - ⌊q⌋ then ⌊q⌋ + 1
  else if ⌊q⌋ % 2 = 0 then ⌊q⌋ else ⌊q⌋ + 1

theorem floor_le_roundHalfEven (q : ℚ) : ⌊q⌋ ≤ roundHalfEven q := by
  unfold roundHalfEven
  split_ifs <;> omega

theorem roundHalfEven_le (q : ℚ) : roundHalfEven q ≤ ⌊q⌋ + 1 := by
  unfold roundHalfEven
  split_ifs <;> omega

@[simp] theorem roundHalfEven_intCast (n : ℤ) : roundHalfEven n = n := by
  simp [roundHalfEven]

theorem roundHalfEven_mono {x y : ℚ} (h : x ≤ y) : roundHalfEven x ≤ roundHalfEven y := by
  rcases (Int.floor_le_floor h).lt_or_eq with hlt | heq
  · calc roundHalfEven x ≤ ⌊x⌋ + 1 := roundHalfEven_le x
      _ ≤ ⌊y⌋ := hlt
      _ ≤ roundHalfEven y := floor_le_roundHalfEven y
  · -- within one unit the distance from the floor decides
    unfold roundHalfEven
    rw [heq]
    have hsub : x - ⌊y⌋ ≤ y - ⌊y⌋ := sub_le_sub_right h _
    split_ifs <;> first | omega | (exfalso; linarith)

/-- The exact value rounded to `n + 1` significant digits. -/
def round (n : ℕ) (q : ℚ) : ℚ :=
  if q = 0 then 0
  else roundHalfEven (q / 10 ^ (Int.log 10 |q| - n)) * 10 ^ (Int.log 10 |q| - n)

@[simp] theorem round_zero (n : ℕ) : round n 0 = 0 := if_pos rfl

private theorem ten_zpow_pos (e : ℤ) : (0 : ℚ) < 10 ^ e := zpow_pos (by norm_num) e

variable {n : ℕ}

private theorem round_of_pos {q : ℚ} (hq : 0 < q) :
    round n q = roundHalfEven (q / 10 ^ (Int.log 10 q - n)) * 10 ^ (Int.log 10 q - n) := by
  rw [round, if_neg hq.ne', abs_of_pos hq]

theorem le_round {q : ℚ} (hq : 0 < q) : 10 ^ Int.log 10 q ≤ round n q := by
  rw [round_of_pos hq]
  have hpow := ten_zpow_pos (Int.log 10 q - n)
  have hlow : (((10 : ℤ) ^ n : ℤ) : ℚ) ≤ q / 10 ^ (Int.log 10 q - n) := by
    rw [le_div_iff₀ hpow, Int.cast_pow, Int.cast_ofNat, ← zpow_natCast, ← zpow_add₀ (by norm_num)]
    simpa using Int.zpow_log_le_self (R := ℚ) (b := 10) (by norm_num) hq
  have hdigits : (10 : ℤ) ^ n ≤ roundHalfEven (q / 10 ^ (Int.log 10 q - n)) := by
    simpa only [roundHalfEven_intCast] using roundHalfEven_mono hlow
  calc (10 : ℚ) ^ Int.log 10 q = (((10 : ℤ) ^ n : ℤ) : ℚ) * 10 ^ (Int.log 10 q - n) := by
        rw [Int.cast_pow, Int.cast_ofNat, ← zpow_natCast, ← zpow_add₀ (by norm_num)]
        simp
    _ ≤ _ := mul_le_mul_of_nonneg_right (by exact_mod_cast hdigits) hpow.le

theorem round_le {q : ℚ} (hq : 0 < q) : round n q ≤ 10 ^ (Int.log 10 q + 1) := by
  rw [round_of_pos hq]
  have hpow := ten_zpow_pos (Int.log 10 q - n)
  have hsum : ((n + 1 : ℕ) : ℤ) + (Int.log 10 q - n) = Int.log 10 q + 1 := by push_cast; ring
  have hhigh : q / 10 ^ (Int.log 10 q - n) ≤ (((10 : ℤ) ^ (n + 1) : ℤ) : ℚ) := by
    rw [div_le_iff₀ hpow, Int.cast_pow, Int.cast_ofNat, ← zpow_natCast, ← zpow_add₀ (by norm_num), hsum]
    exact (Int.lt_zpow_succ_log_self (R := ℚ) (b := 10) (by norm_num) q).le
  have hdigits : roundHalfEven (q / 10 ^ (Int.log 10 q - n)) ≤ (10 : ℤ) ^ (n + 1) := by
    simpa only [roundHalfEven_intCast] using roundHalfEven_mono hhigh
  calc _ ≤ (((10 : ℤ) ^ (n + 1) : ℤ) : ℚ) * 10 ^ (Int.log 10 q - n) :=
        mul_le_mul_of_nonneg_right (by exact_mod_cast hdigits) hpow.le
    _ = 10 ^ (Int.log 10 q + 1) := by
        rw [Int.cast_pow, Int.cast_ofNat, ← zpow_natCast, ← zpow_add₀ (by norm_num), hsum]

theorem round_nonneg {q : ℚ} (hq : 0 ≤ q) : 0 ≤ round n q := by
  rcases hq.eq_or_lt with rfl | hq
  · simp
  · exact (ten_zpow_pos _).le.trans (le_round hq)

/-- **Rounding respects the order.** -/
theorem round_mono {x y : ℚ} (hx : 0 ≤ x) (h : x ≤ y) : round n x ≤ round n y := by
  rcases hx.eq_or_lt with rfl | hx
  · simpa using round_nonneg (h)
  have hy := hx.trans_le h
  rcases (Int.log_mono_right (b := 10) hx h).lt_or_eq with hlt | heq
  · -- a power of ten lies between them
    calc round n x ≤ 10 ^ (Int.log 10 x + 1) := round_le hx
      _ ≤ 10 ^ Int.log 10 y := zpow_le_zpow_right₀ (by norm_num) hlt
      _ ≤ round n y := le_round hy
  · rw [round_of_pos hx, round_of_pos hy, heq]
    have hpow := ten_zpow_pos (Int.log 10 y - n)
    refine mul_le_mul_of_nonneg_right ?_ hpow.le
    exact_mod_cast roundHalfEven_mono (div_le_div_of_nonneg_right h hpow.le)

end Decimal
