import Mathlib.Algebra.BigOperators.Field
import Mathlib.Algebra.BigOperators.Fin
import Mathlib.Algebra.Order.Chebyshev
import Mathlib.Tactic.Linarith
import Mathlib.Tactic.LinearCombination

/-!
# Linear systems

A square system is solved column by column: a row comes into the place of the column and is scaled,
and multiples of it are taken from the other rows. What the rows of a system on the way give for a
vector, they give up to a permutation at the beginning (`Reduces`), so that a pivot is not small where
the system is positive definite (`Reduces.one_le_pivot`).

The normal equations of a weighted sum of squares with a penalty are such a system, and where they hold
is the minimum of the sum (`objective_eq`).
-/

namespace LinearSystems

open Finset

variable {K : Type*} [Field K] {n : ℕ}

/-! ### Elimination -/

/-- The rows of a square system, each with its right side last. -/
abbrev System (K : Type*) (n : ℕ) := Fin n → Fin (n + 1) → K

/-- What a row gives for a vector, whose last entry is multiplied by the right side. -/
def System.value (s : System K n) (y : Fin (n + 1) → K) (row : Fin n) : K := ∑ place, s row place * y place

/-- A column is cleared by the row `pivot`, which changes places with the row of the column. -/
def System.clear (s : System K n) (column pivot : Fin n) : System K n := fun row place =>
  if row = column then s pivot place / s pivot column.castSucc
  else s (Equiv.swap column pivot row) place -
    s (Equiv.swap column pivot row) column.castSucc * (s pivot place / s pivot column.castSucc)

variable {s t : System K n} {column pivot row : Fin n} {y : Fin (n + 1) → K}

theorem value_clear_self : (t.clear column pivot).value y column = t.value y pivot / t pivot column.castSucc := by
  unfold System.value
  rw [sum_div]
  refine sum_congr rfl fun place _ => ?_
  rw [System.clear, if_pos rfl]
  ring

theorem value_clear_of_ne (h : row ≠ column) :
    (t.clear column pivot).value y row = t.value y (Equiv.swap column pivot row) -
      t (Equiv.swap column pivot row) column.castSucc * (t.clear column pivot).value y column := by
  unfold System.value
  rw [mul_sum, ← sum_sub_distrib]
  refine sum_congr rfl fun place _ => ?_
  rw [System.clear, System.clear, if_neg h, if_pos rfl]
  ring

/-- `t` is `s` with the first `k` columns cleared. -/
structure Reduces (s t : System K n) (k : ℕ) : Prop where
  unit : ∀ column : Fin n, column.val < k → ∀ row, t row column.castSucc = if row = column then 1 else 0
  /-- Where the first rows give zero, the others give what rows of `s` do. -/
  order : ∃ σ : Equiv.Perm (Fin n), ∀ y, (∀ row : Fin n, row.val < k → t.value y row = 0) →
    ∀ row, s.value y (σ row) = t.value y row

theorem Reduces.refl (s : System K n) : Reduces s s 0 :=
  ⟨fun _ h => absurd h (Nat.not_lt_zero _), Equiv.refl _, fun _ _ _ => rfl⟩

theorem swap_lt (h : row < column) (hpivot : column ≤ pivot) : Equiv.swap column pivot row = row :=
  Equiv.swap_apply_of_ne_of_ne h.ne (h.trans_le hpivot).ne

/-- **One more column is cleared.** -/
theorem Reduces.clear (h : Reduces s t column) (hpivot : column ≤ pivot) (hne : t pivot column.castSucc ≠ 0) :
    Reduces s (t.clear column pivot) (column + 1) := by
  constructor
  · intro cleared hcleared row
    rcases (Nat.lt_succ_iff_lt_or_eq.mp hcleared) with hlt | heq
    · have hzero : t pivot cleared.castSucc = 0 := by
        rw [h.unit cleared hlt, if_neg]
        rintro rfl
        exact absurd hpivot (not_le.mpr hlt)
      simp only [System.clear, hzero, zero_div, mul_zero, sub_zero]
      split_ifs with hrow hsame hsame
      · exact absurd (hrow.symm.trans hsame) (Fin.ne_of_gt hlt)
      · rfl
      · rw [h.unit cleared hlt, hsame, if_pos (swap_lt hlt hpivot)]
      · rw [h.unit cleared hlt, if_neg]
        intro hswap
        refine hsame ?_
        rw [← Equiv.swap_apply_self column pivot row, hswap, swap_lt hlt hpivot]
    · obtain rfl : cleared = column := Fin.ext heq
      simp only [System.clear, div_self hne, mul_one, sub_self]
  · obtain ⟨σ, hσ⟩ := h.order
    refine ⟨(Equiv.swap column pivot).trans σ, fun y hy row => ?_⟩
    have hself : (t.clear column pivot).value y column = 0 := hy column (Nat.lt_succ_self _)
    -- the other rows are as before, but for their places
    have hvalue (row : Fin n) : (t.clear column pivot).value y row = t.value y (Equiv.swap column pivot row) := by
      by_cases hrow : row = column
      · subst hrow
        rw [value_clear_self, div_eq_zero_iff, or_iff_left hne] at hself
        rw [value_clear_self, hself, zero_div, Equiv.swap_apply_left, hself]
      · rw [value_clear_of_ne hrow, hself, mul_zero, sub_zero]
    rw [hvalue, Equiv.trans_apply]
    refine hσ y (fun row hrow => ?_) _
    rw [← swap_lt hrow hpivot, ← hvalue]
    exact hy row (Nat.lt_succ_of_lt hrow)

/-- What a system gives for a vector, and for the right sides. -/
theorem value_snoc (x : Fin n → K) (last : K) :
    s.value (Fin.snoc x last) row = ∑ column, s row column.castSucc * x column + s row (Fin.last n) * last := by
  rw [System.value, Fin.sum_univ_castSucc, Fin.snoc_last]
  refine congrArg (· + _) (sum_congr rfl fun place _ => ?_)
  rw [Fin.snoc_castSucc]

/-- **When every column is cleared, the right sides are a solution.** -/
theorem Reduces.solution (h : Reduces s t n) (row : Fin n) :
    ∑ column, s row column.castSucc * t column (Fin.last n) = s row (Fin.last n) := by
  obtain ⟨σ, hσ⟩ := h.order
  have hzero (row : Fin n) : t.value (Fin.snoc (fun row => t row (Fin.last n)) (-1)) row = 0 := by
    rw [value_snoc]
    simp only [h.unit _ (Fin.is_lt _), ite_mul, one_mul, zero_mul, sum_ite_eq, mem_univ, if_true]
    ring
  have hvalue := hσ _ (fun row _ => hzero row) (σ.symm row)
  rw [Equiv.apply_symm_apply, hzero, value_snoc] at hvalue
  linear_combination hvalue

section Pivots

variable [LinearOrder K] [IsStrictOrderedRing K]

/-- **A pivot of a positive definite system is not small**, whichever rows changed places before. -/
theorem Reduces.one_le_pivot {bound : K} (h : Reduces s t column)
    (hdefinite : ∀ x : Fin n → K, ∑ row, x row ^ 2 ≤ ∑ row, x row * ∑ column, s row column.castSucc * x column)
    (hbound : ∀ row, column ≤ row → |t row column.castSucc| ≤ bound) : 1 ≤ bound ^ 2 * n := by
  -- the vector that the rows before the column send to zero, with a one in the column
  set x : Fin n → K := fun place =>
    if place < column then - t place column.castSucc else if place = column then 1 else 0 with hx
  have hvalue (row : Fin n) :
      t.value (Fin.snoc x 0) row = if row < column then 0 else t row column.castSucc := by
    have hterm (place : Fin n) : t row place.castSucc * x place =
        (if place = column then t row column.castSucc else 0) -
          if row = place then (if place < column then t place column.castSucc else 0) else 0 := by
      by_cases hplace : place < column
      · rw [hx, h.unit place hplace]
        simp only [if_pos hplace, if_neg hplace.ne]
        split_ifs <;> ring
      · simp only [hx, if_neg hplace, ite_self, sub_zero, mul_ite, mul_one, mul_zero]
        split_ifs with hsame
        · rw [hsame]
        · rfl
    rw [value_snoc, mul_zero, add_zero, sum_congr rfl fun place _ => hterm place, sum_sub_distrib,
      sum_ite_eq' Finset.univ column, sum_ite_eq Finset.univ row, if_pos (mem_univ _),
      if_pos (mem_univ _)]
    split_ifs
    · exact sub_self _
    · exact sub_zero _
  obtain ⟨σ, hσ⟩ := h.order
  have hrows (row : Fin n) : |∑ column, s row column.castSucc * x column| ≤ bound := by
    have hrow := hσ _ (fun row hrow => (hvalue row).trans (if_pos hrow)) (σ.symm row)
    rw [Equiv.apply_symm_apply, hvalue, value_snoc, mul_zero, add_zero] at hrow
    rw [hrow]
    split_ifs with hlt
    · rw [abs_zero]
      exact (abs_nonneg _).trans (hbound column le_rfl)
    · exact hbound _ (not_lt.mp hlt)
  have hone : 1 ≤ ∑ row, x row ^ 2 := by
    have hself : x column = 1 := by simp [hx]
    calc (1 : K) = x column ^ 2 := by rw [hself, one_pow]
      _ ≤ ∑ row, x row ^ 2 := single_le_sum (fun row _ => sq_nonneg (x row)) (mem_univ column)
  have hupper : ∑ row, x row ^ 2 ≤ bound * ∑ row, |x row| := by
    refine (hdefinite x).trans ?_
    rw [mul_sum]
    refine sum_le_sum fun row _ => (le_abs_self _).trans ?_
    rw [abs_mul, mul_comm bound]
    exact mul_le_mul_of_nonneg_left (hrows row) (abs_nonneg _)
  have hsquare : (∑ row, |x row|) ^ 2 ≤ n * ∑ row, x row ^ 2 := by
    have hcauchy := sq_sum_le_card_mul_sum_sq (s := Finset.univ) (f := fun row : Fin n => |x row|)
    simpa using hcauchy
  set total := ∑ row, x row ^ 2
  have hpos : 0 < total := zero_lt_one.trans_le hone
  have htotal : total * total ≤ (bound ^ 2 * n) * total := by
    calc total * total ≤ (bound * ∑ row, |x row|) * (bound * ∑ row, |x row|) :=
          mul_self_le_mul_self hpos.le hupper
      _ = bound ^ 2 * (∑ row, |x row|) ^ 2 := by ring
      _ ≤ bound ^ 2 * (n * total) := mul_le_mul_of_nonneg_left hsquare (sq_nonneg bound)
      _ = (bound ^ 2 * n) * total := by ring
  exact hone.trans (le_of_mul_le_mul_right htotal hpos)

end Pivots

/-- What holds of a loop over the columns holds at its end, unless it failed on the way. -/
theorem columns_invariant {S : Type*} (P : ℕ → S → Prop) {failed : Prop} {init : S} :
    ∀ {n : ℕ} (f : S → Fin n → Option S),
      (∀ (column : Fin n) state, P column state → (f state column).elim failed (P (column + 1))) → P 0 init →
        ((List.finRange n).foldlM f init).elim failed (P n)
  | 0, _, _, hinit => by simpa using hinit
  | n + 1, f, hstep, hinit => by
    have hbefore := columns_invariant P (fun state column => f state column.castSucc)
      (fun column state hstate => hstep column.castSucc state hstate) hinit
    rw [List.finRange_succ_last, List.foldlM_append, List.foldlM_map]
    cases hfold : (List.finRange n).foldlM (fun state column => f state column.castSucc) init with
    | none =>
      rw [hfold] at hbefore
      exact hbefore
    | some state =>
      rw [hfold] at hbefore
      simpa using hstep (Fin.last n) state hbefore

/-! ### Weighted squares -/

section Squares

variable {ι κ : Type*} [Fintype ι] [Fintype κ] (weights : ι → K) (design : ι → κ → K) (outcomes : ι → K)
  (penalty : κ → K)

/-- What a vector of coefficients predicts for a row. -/
def predict (row coefficients : κ → K) : K := ∑ place, row place * coefficients place

def normalMatrix [DecidableEq κ] (left right : κ) : K :=
  ∑ i, weights i * design i left * design i right + if left = right then penalty left else 0

def normalTarget (left : κ) : K := ∑ i, weights i * design i left * outcomes i

/-- The weighted squares of the errors, and the penalty. -/
def objective (coefficients : κ → K) : K :=
  ∑ i, weights i * (predict (design i) coefficients - outcomes i) ^ 2 + ∑ place, penalty place * coefficients place ^ 2

/-- What the objective grows by from its minimum. -/
def curvature (offset : κ → K) : K :=
  ∑ i, weights i * predict (design i) offset ^ 2 + ∑ place, penalty place * offset place ^ 2

variable {weights design outcomes penalty}

theorem sum_mul_normalMatrix [DecidableEq κ] (a b : κ → K) :
    ∑ left, a left * ∑ right, normalMatrix weights design penalty left right * b right =
      ∑ i, weights i * (predict (design i) a * predict (design i) b) + ∑ place, penalty place * (a place * b place) := by
  simp only [normalMatrix, add_mul, sum_add_distrib, mul_add, ite_mul, zero_mul, sum_ite_eq,
    mem_univ, if_true]
  congr 1
  · calc ∑ left, a left * ∑ right, (∑ i, weights i * design i left * design i right) * b right
        = ∑ left, ∑ i, ∑ right, weights i * (design i left * a left * (design i right * b right)) := by
          refine sum_congr rfl fun left _ => ?_
          rw [sum_comm, mul_sum]
          refine sum_congr rfl fun right _ => ?_
          rw [sum_mul, mul_sum]
          exact sum_congr rfl fun i _ => by ring
      _ = ∑ i, weights i * (predict (design i) a * predict (design i) b) := by
          rw [sum_comm]
          refine sum_congr rfl fun i _ => ?_
          rw [predict, predict, sum_mul_sum, mul_sum]
          exact sum_congr rfl fun left _ => (mul_sum ..).symm
  · exact sum_congr rfl fun place _ => by ring

theorem sum_mul_normalTarget (a : κ → K) :
    ∑ left, a left * normalTarget weights design outcomes left =
      ∑ i, weights i * (predict (design i) a * outcomes i) := by
  simp only [normalTarget, predict, mul_sum, sum_mul]
  rw [sum_comm]
  exact sum_congr rfl fun i _ => sum_congr rfl fun left _ => by ring

/-- **Where the normal equations hold, the objective has its minimum.** -/
theorem objective_eq [DecidableEq κ] {best : κ → K}
    (h : ∀ left, ∑ right, normalMatrix weights design penalty left right * best right =
      normalTarget weights design outcomes left) (coefficients : κ → K) :
    objective weights design outcomes penalty coefficients =
      objective weights design outcomes penalty best + curvature weights design penalty (coefficients - best) := by
  have hcross : ∑ i, weights i * (predict (design i) (coefficients - best) * predict (design i) best) +
      ∑ place, penalty place * ((coefficients - best) place * best place) =
        ∑ i, weights i * (predict (design i) (coefficients - best) * outcomes i) := by
    rw [← sum_mul_normalMatrix, ← sum_mul_normalTarget]
    simp only [h]
  have hpredict (i : ι) : predict (design i) coefficients =
      predict (design i) best + predict (design i) (coefficients - best) := by
    simp only [predict, Pi.sub_apply, ← sum_add_distrib]
    exact sum_congr rfl fun place _ => by ring
  have hsquares : ∑ i, weights i * (predict (design i) coefficients - outcomes i) ^ 2 =
      ∑ i, weights i * (predict (design i) best - outcomes i) ^ 2 +
        ∑ i, weights i * predict (design i) (coefficients - best) ^ 2 +
        2 * (∑ i, weights i * (predict (design i) (coefficients - best) * predict (design i) best) -
          ∑ i, weights i * (predict (design i) (coefficients - best) * outcomes i)) := by
    rw [← sum_sub_distrib, mul_sum, ← sum_add_distrib, ← sum_add_distrib]
    exact sum_congr rfl fun i _ => by rw [hpredict]; ring
  have hpenalty : ∑ place, penalty place * coefficients place ^ 2 =
      ∑ place, penalty place * best place ^ 2 + ∑ place, penalty place * (coefficients - best) place ^ 2 +
        2 * ∑ place, penalty place * ((coefficients - best) place * best place) := by
    rw [mul_sum, ← sum_add_distrib, ← sum_add_distrib]
    exact sum_congr rfl fun place _ => by rw [Pi.sub_apply]; ring
  rw [objective, objective, curvature, hsquares, hpenalty]
  linear_combination 2 * hcross

end Squares

/-- **With an intercept and centred columns, the curvature is at least the square of the offset.** -/
theorem sum_sq_le_curvature [LinearOrder K] [IsStrictOrderedRing K] {ι : Type*} [Fintype ι] {weights : ι → K}
    {design : ι → Fin (n + 1) → K} {penalty : Fin (n + 1) → K} (hweights : ∀ i, 0 ≤ weights i)
    (hone : 1 ≤ ∑ i, weights i) (hintercept : ∀ i, design i 0 = 1)
    (hcentred : ∀ place : Fin n, ∑ i, weights i * design i place.succ = 0) (hfirst : 0 ≤ penalty 0)
    (hpenalty : ∀ place : Fin n, 1 ≤ penalty place.succ) (offset : Fin (n + 1) → K) :
    ∑ place, offset place ^ 2 ≤ curvature weights design penalty offset := by
  set slope : ι → K := fun i => ∑ place : Fin n, design i place.succ * offset place.succ with hslope
  have hpredict (i : ι) : predict (design i) offset = offset 0 + slope i := by
    rw [predict, Fin.sum_univ_succ, hintercept, one_mul]
  have hzero : ∑ i, weights i * slope i = 0 := by
    simp only [hslope, mul_sum]
    rw [sum_comm]
    refine sum_eq_zero fun place _ => ?_
    simp only [← mul_assoc, ← sum_mul, hcentred, zero_mul]
  have hsquares : ∑ i, weights i * predict (design i) offset ^ 2 =
      (∑ i, weights i) * offset 0 ^ 2 + 2 * offset 0 * ∑ i, weights i * slope i + ∑ i, weights i * slope i ^ 2 := by
    rw [sum_mul, mul_sum, ← sum_add_distrib, ← sum_add_distrib]
    exact sum_congr rfl fun i _ => by rw [hpredict]; ring
  rw [curvature, hsquares, hzero, mul_zero, add_zero, Fin.sum_univ_succ, Fin.sum_univ_succ]
  have hlevel : offset 0 ^ 2 ≤ (∑ i, weights i) * offset 0 ^ 2 := le_mul_of_one_le_left (sq_nonneg _) hone
  have hspread : 0 ≤ ∑ i, weights i * slope i ^ 2 :=
    sum_nonneg fun i _ => mul_nonneg (hweights i) (sq_nonneg _)
  have hlevelPenalty : 0 ≤ penalty 0 * offset 0 ^ 2 := mul_nonneg hfirst (sq_nonneg _)
  have hslopes : ∑ place : Fin n, offset place.succ ^ 2 ≤ ∑ place : Fin n, penalty place.succ * offset place.succ ^ 2 :=
    sum_le_sum fun place _ => le_mul_of_one_le_left (sq_nonneg _) (hpenalty place)
  linarith

end LinearSystems
