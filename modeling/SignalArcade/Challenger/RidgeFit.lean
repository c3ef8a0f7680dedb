import Mathlib.Data.Rat.Sqrt
import SignalArcade.Lib.LinearSystems

/-!
# The ridge fit

`_fit` of `learning.py` weighs the rows by their age, standardises their features and hands the normal
equations to `_solve`, which eliminates with the largest pivot and gives up where that is too small. The
numbers are those of an ordered field, so that sums and quotients are exact.
-/

namespace SignalArcade.Challenger.RidgeFit

open LinearSystems List

variable {K : Type} [Field K] [LinearOrder K] {n : ℕ}

/-! ### Solving -/

def smallestPivot : K := 1 / 10 ^ 12

/-- A row, and what is to come out of it. -/
def augment (matrix : Fin n → Fin n → K) (target : Fin n → K) : System K n := fun index =>
  Fin.snoc (matrix index) (target index)

/-- Where the column is largest from its own row on; the first place, if there are several. -/
def pivotOf? (augmented : System K n) (column : Fin n) : Option (Fin n) :=
  ((List.finRange n).filter (column ≤ ·)).argmax fun row => |augmented row column.castSucc|

/-- What the loop of `_solve` does for a column. -/
def eliminate (augmented : System K n) (column : Fin n) : Option (System K n) := do
  let pivot ← pivotOf? augmented column
  if |augmented pivot column.castSucc| < smallestPivot then none
  else
    let swapped := augmented ∘ Equiv.swap column pivot
    let divisor := swapped column column.castSucc
    let divided := Function.update swapped column fun place => swapped column place / divisor
    some fun row =>
      if row = column then divided row
      else
        let factor := divided row column.castSucc
        if factor = 0 then divided row
        else fun place => divided row place - factor * divided column place

/-- Gauss and Jordan; nothing, without a pivot. -/
def solve (matrix : Fin n → Fin n → K) (target : Fin n → K) : Option (Fin n → K) := do
  let augmented ← (List.finRange n).foldlM eliminate (augment matrix target)
  return fun index => augmented index (Fin.last n)

/-! ### Fitting -/

/-- `math.sqrt` and the weights, of which the code relies on this. -/
structure Library (K : Type) [Field K] [LinearOrder K] where
  sqrt : K → K
  /-- `0.5 ** (age / 500)`. -/
  weight : ℕ → K
  weight_zero : weight 0 = 1
  weight_pos : ∀ age, 0 < weight age

/-- No sequence has more than `sys.maxsize` items, as Python counts them in a signed word of 64 bits. -/
structure Tuple (α : Type) where
  items : List α
  length_lt : items.length < 2 ^ 63

/-- An item of the rows with its outcome. -/
structure Row (K : Type) where
  features : String → Option K
  outcome : K

def minimumFeatureScale : K := 1 / 100

/-- The sums of the normal equations. -/
structure Equations (K : Type) (width : ℕ) where
  matrix : Fin width → Fin width → K
  target : Fin width → K

def Equations.zero : Equations K n := ⟨fun _ _ => 0, fun _ => 0⟩

def Equations.add (equations : Equations K n) (weight : K) (row : Fin n → K) (outcome : K) : Equations K n where
  target left := equations.target left + weight * row left * outcome
  matrix left right := equations.matrix left right + weight * row left * row right

/-- What is added on the diagonal, to the intercept and to the others. -/
def penalty : Fin (n + 1) → K := Fin.cons (1 / 10 ^ 6) fun _ => (2 : ℕ)

def Equations.penalised (equations : Equations K (n + 1)) : Equations K (n + 1) :=
  { equations with
    matrix := fun left right =>
      if left = right then equations.matrix left right + penalty left else equations.matrix left right }

section Fit

variable (library : Library K) (rows : List (Row K)) (featureNames : Tuple String)

def raw (row : Fin rows.length) (index : Fin featureNames.items.length) : K :=
  (rows[row].features featureNames.items[index]).getD 0

/-- The outcome, clipped. -/
def outcome (row : Fin rows.length) : K := max (-1) (min 3 rows[row].outcome)

/-- The weight of a row, by how many come after it. -/
def weight (row : Fin rows.length) : K := library.weight (rows.length - 1 - row)

def weightSum : K := ∑ row, weight library rows row

/-- The weighted mean of a feature. -/
def mean (index : Fin featureNames.items.length) : K :=
  (∑ row, weight library rows row * raw rows featureNames row index) / weightSum library rows

def variance (index : Fin featureNames.items.length) : K :=
  (∑ row, weight library rows row * (raw rows featureNames row index - mean library rows featureNames index) ^ 2) /
    weightSum library rows

/-- The deviation of a feature, and no less than the least. -/
def scale (index : Fin featureNames.items.length) : K :=
  max minimumFeatureScale (library.sqrt (variance library rows featureNames index))

/-- A standardised row, after the intercept. -/
def design (row : Fin rows.length) : Fin (featureNames.items.length + 1) → K :=
  Fin.cons 1 fun index =>
    (raw rows featureNames row index - mean library rows featureNames index) / scale library rows featureNames index

/-- The normal equations, summed row by row. -/
def equations : Equations K (featureNames.items.length + 1) :=
  let sums := (List.finRange rows.length).foldl (fun (sums : Equations K _) row =>
    sums.add (weight library rows row) (design library rows featureNames row) (outcome rows row)) .zero
  sums.penalised

/-- `_fit`: the means, the scales and the coefficients. -/
def fit : Option ((Fin featureNames.items.length → K) × (Fin featureNames.items.length → K) ×
    (Fin (featureNames.items.length + 1) → K)) :=
  if rows = [] then none
  else
    (solve (equations library rows featureNames).matrix (equations library rows featureNames).target).map
      fun coefficients => (mean library rows featureNames, scale library rows featureNames, coefficients)

end Fit

/-! ### What is solved -/

section Solved

variable {augmented : System K n} {column : Fin n}

theorem pivotOf?_spec (augmented : System K n) (column : Fin n) :
    ∃ pivot, pivotOf? augmented column = some pivot ∧ column ≤ pivot ∧
      ∀ row, column ≤ row → |augmented row column.castSucc| ≤ |augmented pivot column.castSucc| := by
  have hmem (row : Fin n) : row ∈ (List.finRange n).filter (column ≤ ·) ↔ column ≤ row := by
    simp [mem_filter, mem_finRange]
  cases hpivot : pivotOf? augmented column with
  | none =>
    have hempty := argmax_eq_none.mp hpivot
    exact absurd ((hmem column).mpr le_rfl) (hempty ▸ not_mem_nil)
  | some pivot =>
    exact ⟨pivot, rfl, (hmem pivot).mp (argmax_mem hpivot), fun row hrow =>
      le_of_mem_argmax (f := fun row => |augmented row column.castSucc|) ((hmem row).mpr hrow) hpivot⟩

/-- **A column is cleared by its pivot, or the pivot is too small.** -/
theorem eliminate_spec (augmented : System K n) (column : Fin n) :
    ∃ pivot, column ≤ pivot ∧ (∀ row, column ≤ row → |augmented row column.castSucc| ≤ |augmented pivot column.castSucc|) ∧
      eliminate augmented column =
        if |augmented pivot column.castSucc| < smallestPivot then none else some (augmented.clear column pivot) := by
  obtain ⟨pivot, hpivot, hle, hlargest⟩ := pivotOf?_spec augmented column
  refine ⟨pivot, hle, hlargest, ?_⟩
  rw [eliminate, hpivot]
  refine if_congr Iff.rfl rfl (congrArg some ?_)
  funext row place
  simp only [System.clear, Function.comp_apply, Equiv.swap_apply_left, Function.update_self]
  by_cases hrow : row = column
  · subst hrow
    rw [if_pos rfl, if_pos rfl, Function.update_self]
  · simp only [if_neg hrow, Function.update_of_ne hrow, Function.comp_apply]
    split_ifs with hfactor
    · rw [hfactor, zero_mul, sub_zero]
    · rfl

variable [IsStrictOrderedRing K]

theorem smallestPivot_pos : (0 : K) < smallestPivot := by
  unfold smallestPivot
  positivity

/-- The rows of the first system stay what they are, if the loop does not give up. -/
theorem eliminate_reduces {start : System K n} (h : Reduces start augmented column) :
    (eliminate augmented column).elim True (Reduces start · (column + 1)) := by
  obtain ⟨pivot, hle, -, heliminate⟩ := eliminate_spec augmented column
  rw [heliminate]
  split_ifs with hsmall
  · trivial
  · refine h.clear hle fun hzero => hsmall ?_
    rw [hzero, abs_zero]
    exact smallestPivot_pos

/-- **What `_solve` returns solves the system.** -/
theorem solve_solves {matrix : Fin n → Fin n → K} {target x : Fin n → K} (h : solve matrix target = some x)
    (row : Fin n) : ∑ column, matrix row column * x column = target row := by
  have hreduces := columns_invariant (fun k system => Reduces (augment matrix target) system k) eliminate (fun _ _ => eliminate_reduces) (Reduces.refl (augment matrix target))
  rw [solve, Option.bind_eq_bind, Option.bind_eq_some_iff] at h
  obtain ⟨augmented, hfold, hx⟩ := h
  obtain rfl := Option.some.inj hx
  rw [hfold] at hreduces
  simpa only [augment, Fin.snoc_castSucc, Fin.snoc_last] using Reduces.solution hreduces row

/-- **A definite system is solved**: its pivots are not too small. -/
theorem exists_solve {matrix : Fin n → Fin n → K} (target : Fin n → K) (hsize : n ≤ 2 ^ 63)
    (hdefinite : ∀ x : Fin n → K, ∑ row, x row ^ 2 ≤ ∑ row, x row * ∑ column, matrix row column * x column) :
    ∃ x, solve matrix target = some x := by
  have hstep (column : Fin n) (augmented : System K n) (h : Reduces (augment matrix target) augmented column) :
      (eliminate augmented column).elim False (Reduces (augment matrix target) · (column + 1)) := by
    obtain ⟨pivot, hle, hlargest, heliminate⟩ := eliminate_spec augmented column
    have hreduces := eliminate_reduces h
    have hpivot : 1 ≤ |augmented pivot column.castSucc| ^ 2 * n := by
      refine h.one_le_pivot (fun x => ?_) hlargest
      simpa only [augment, Fin.snoc_castSucc] using hdefinite x
    have hsmall : ¬ |augmented pivot column.castSucc| < smallestPivot := by
      intro hsmall
      have hsquare : |augmented pivot column.castSucc| ^ 2 ≤ smallestPivot ^ 2 :=
        pow_le_pow_left₀ (abs_nonneg _) hsmall.le 2
      have hcast : (n : K) ≤ 2 ^ 63 := by exact_mod_cast hsize
      have hproduct : |augmented pivot column.castSucc| ^ 2 * n ≤ smallestPivot ^ 2 * 2 ^ 63 :=
        mul_le_mul hsquare hcast (Nat.cast_nonneg n) (sq_nonneg _)
      have hlt : smallestPivot ^ 2 * 2 ^ 63 < (1 : K) := by
        unfold smallestPivot
        norm_num
      exact absurd (hpivot.trans hproduct) (not_le.mpr hlt)
    rw [heliminate, if_neg hsmall] at hreduces ⊢
    exact hreduces
  have hfold := columns_invariant (fun k system => Reduces (augment matrix target) system k) eliminate hstep (Reduces.refl (augment matrix target))
  cases hend : (List.finRange n).foldlM eliminate (augment matrix target) with
  | none =>
    rw [hend] at hfold
    exact hfold.elim
  | some augmented => exact ⟨_, by rw [solve, hend]; rfl⟩

end Solved

/-! ### What is fitted -/

section Fitted

variable {library : Library K} {rows : List (Row K)} {featureNames : Tuple String}

omit [LinearOrder K] in
theorem foldl_add {ι : Type} (weights : ι → K) (design : ι → Fin n → K) (outcomes : ι → K) (indices : List ι)
    (start : Equations K n) :
    indices.foldl (fun sums index => sums.add (weights index) (design index) (outcomes index)) start =
      ⟨fun left right => start.matrix left right + (indices.map fun i => weights i * design i left * design i right).sum,
        fun left => start.target left + (indices.map fun i => weights i * design i left * outcomes i).sum⟩ := by
  induction indices generalizing start with
  | nil => simp
  | cons index indices ih =>
    rw [foldl_cons, ih]
    simp only [Equations.add, map_cons, sum_cons, add_assoc]

/-- The loops make the normal equations. -/
theorem equations_eq (library : Library K) (rows : List (Row K)) (featureNames : Tuple String) :
    equations library rows featureNames =
      ⟨normalMatrix (weight library rows) (design library rows featureNames) penalty,
        normalTarget (weight library rows) (design library rows featureNames) (outcome rows)⟩ := by
  have hsum (f : Fin rows.length → K) : ((List.finRange rows.length).map f).sum = ∑ row, f row := (Fin.sum_univ_def f).symm
  rw [equations, foldl_add]
  simp only [Equations.penalised, Equations.zero, zero_add, hsum, Equations.mk.injEq]
  refine ⟨?_, rfl⟩
  funext left right
  rw [normalMatrix]
  split_ifs
  · rfl
  · exact (add_zero _).symm

variable [IsStrictOrderedRing K]

theorem one_le_weightSum (h : rows ≠ []) : 1 ≤ weightSum library rows := by
  have hlength : 0 < rows.length := length_pos_iff.mpr h
  -- the newest row
  have hlast : weight library rows ⟨rows.length - 1, by omega⟩ = 1 := by
    rw [weight, Nat.sub_self, library.weight_zero]
  rw [← hlast, weightSum]
  exact Finset.single_le_sum (fun (row : Fin rows.length) _ => (library.weight_pos (rows.length - 1 - row)).le)
    (Finset.mem_univ _)

theorem design_centred (h : rows ≠ []) (index : Fin featureNames.items.length) :
    ∑ row, weight library rows row * design library rows featureNames row index.succ = 0 := by
  have hsum : weightSum library rows ≠ 0 := (zero_lt_one.trans_le (one_le_weightSum h)).ne'
  have hterm (row : Fin rows.length) :
      weight library rows row * design library rows featureNames row index.succ =
        (weight library rows row * raw rows featureNames row index -
          weight library rows row * mean library rows featureNames index) / scale library rows featureNames index := by
    rw [design, Fin.cons_succ]
    ring
  rw [Finset.sum_congr rfl fun row _ => hterm row, ← Finset.sum_div, Finset.sum_sub_distrib, ← Finset.sum_mul,
    ← weightSum, mean, mul_div_cancel₀ _ hsum, sub_self, zero_div]

/-- **The ridge fit solves its system.** What `_solve` returns solves any system; it solves that of a fit, however many
rows and features there are, and the coefficients are the only minimum of the weighted squares with their penalty. -/
theorem ridge_fit_solves :
    (∀ (n : ℕ) (matrix : Fin n → Fin n → K) (target x : Fin n → K), solve matrix target = some x →
      ∀ row, ∑ column, matrix row column * x column = target row) ∧
    ∀ (library : Library K) (rows : List (Row K)) (featureNames : Tuple String), rows ≠ [] →
      ∃ coefficients,
        solve (equations library rows featureNames).matrix (equations library rows featureNames).target =
          some coefficients ∧
        fit library rows featureNames =
          some (mean library rows featureNames, scale library rows featureNames, coefficients) ∧
        ∀ others ≠ coefficients,
          objective (weight library rows) (design library rows featureNames) (outcome rows) penalty coefficients <
            objective (weight library rows) (design library rows featureNames) (outcome rows) penalty others := by
  refine ⟨fun n matrix target x h => solve_solves h, fun library rows featureNames hrows => ?_⟩
  have hcurvature (offset : Fin (featureNames.items.length + 1) → K) :
      ∑ place, offset place ^ 2 ≤ curvature (weight library rows) (design library rows featureNames) penalty offset := by
    refine sum_sq_le_curvature (fun row => (library.weight_pos _).le) (one_le_weightSum hrows) (fun row => rfl)
      (design_centred hrows) ?_ (fun index => ?_) offset
    · rw [penalty, Fin.cons_zero]
      positivity
    · rw [penalty, Fin.cons_succ]
      exact_mod_cast one_le_two
  obtain ⟨coefficients, hsolve⟩ : ∃ coefficients, solve (equations library rows featureNames).matrix
      (equations library rows featureNames).target = some coefficients := by
    refine exists_solve _ featureNames.length_lt fun x => (hcurvature x).trans_eq ?_
    rw [equations_eq, sum_mul_normalMatrix, curvature]
    simp only [sq]
  refine ⟨coefficients, hsolve, by rw [fit, if_neg hrows, hsolve, Option.map_some], fun others hne => ?_⟩
  have hnormal := solve_solves hsolve
  rw [equations_eq] at hnormal
  rw [objective_eq hnormal others]
  refine lt_add_of_pos_right _ (lt_of_lt_of_le ?_ (hcurvature _))
  obtain ⟨place, hplace⟩ := Function.ne_iff.mp hne
  exact Finset.sum_pos' (fun place _ => sq_nonneg _) ⟨place, Finset.mem_univ _, by
    rw [Pi.sub_apply]
    exact sq_pos_of_ne_zero (sub_ne_zero.mpr hplace)⟩

end Fitted

/-- The weights, where the age is a multiple of 500. -/
def halves : Library ℚ where
  sqrt := Rat.sqrt
  weight age := (1 / 2) ^ (age / 500)
  weight_zero := pow_zero _
  weight_pos age := pow_pos (by decide +kernel) _

/-- Two rows that differ in the one feature that is fitted, and in what came of them. -/
def twoRows : List (Row ℚ) := [⟨fun _ => some 1, 1 / 2⟩, ⟨fun _ => some 3, 3 / 2⟩]

def oneName : Tuple String := ⟨["momentum"], by decide⟩

/-- Two rows that differ. -/
theorem ridge_fit_solves_row : ∃ coefficients,
    fit halves twoRows oneName = some (mean halves twoRows oneName, scale halves twoRows oneName, coefficients) ∧
    (mean halves twoRows oneName, scale halves twoRows oneName) = (fun _ => 2, fun _ => 1) ∧
    ∀ others ≠ coefficients,
      objective (weight halves twoRows) (design halves twoRows oneName) (outcome twoRows) penalty coefficients <
        objective (weight halves twoRows) (design halves twoRows oneName) (outcome twoRows) penalty others := by
  obtain ⟨coefficients, -, hfit, hleast⟩ := ridge_fit_solves.2 halves twoRows oneName (cons_ne_nil _ _)
  exact ⟨coefficients, hfit, by decide +kernel, hleast⟩

end SignalArcade.Challenger.RidgeFit
