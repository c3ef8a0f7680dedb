import Mathlib.Algebra.BigOperators.Fin
import SignalArcade.Lib.Ranks
import SignalArcade.Lib.TieBreaks

/-!
# The mean outcome of the highest forecasts

`_top_mean` is how the validation of an Entry model judges what the model would have bought: the mean outcome of the
third of the rows with the highest predictions. Rows that are above the boundary of the third count in full; those at
the boundary share what is left of it, so that rows with equal forecasts are treated alike.
-/

namespace SignalArcade.Challenger

open Ranks TieBreaks List

/-- `count`, of so many rows. -/
def topCount (n : ℕ) : ℕ := max 1 (n / 3)

/-- `_top_mean`, nothing where it raises. -/
def topMean (predictions outcomes : List ℚ) : Option ℚ :=
  if outcomes = [] ∨ predictions.length ≠ outcomes.length then none
  else
    let count := topCount outcomes.length
    let boundary := largest predictions (count - 1)
    let selected := ((predictions.zip outcomes).filter fun row => boundary < row.1).map Prod.snd
    let tied := ((predictions.zip outcomes).filter fun row => row.1 = boundary).map Prod.snd
    some ((selected.sum + ((count : ℤ) - selected.length : ℤ) * (tied.sum / tied.length)) / count)

/-- The mean of the first rows of a ranking. -/
def plainTopMean (rows : List (ℚ × ℚ)) (ranking : Equiv.Perm (Fin rows.length)) : ℚ :=
  (∑ i : Fin rows.length with i.val < topCount rows.length, (rows.get (ranking i)).2) / topCount rows.length

/-! ### Rows and their places -/

section

variable {α : Type} (rows : List α) (q : α → Prop) [DecidablePred q]

theorem sum_filter_get (f : α → ℚ) :
    ∑ j : Fin rows.length with q (rows.get j), f (rows.get j) = ((rows.filter fun row => q row).map f).sum := by
  have hlist : ∑ j : Fin rows.length, (if q (rows.get j) then f (rows.get j) else 0) =
      (rows.map fun row => if q row then f row else 0).sum := 
    Fin.sum_univ_fun_getElem rows fun row => if q row then f row else 0
  rw [Finset.sum_filter, hlist]
  clear hlist
  induction rows with
  | nil => rfl
  | cons row rows ih =>
    rw [map_cons, sum_cons, ih]
    by_cases h : q row <;> simp [h]

theorem card_filter_get : (Finset.univ.filter fun j : Fin rows.length => q (rows.get j)).card =
    (rows.filter fun row => q row).length := by
  have h := sum_filter_get rows q fun _ => 1
  rw [Finset.sum_const, map_const', sum_replicate] at h
  simpa using h

end

variable {rows rows' : List (ℚ × ℚ)}

theorem topMean_rows (h : rows ≠ []) {boundary : ℚ}
    (hboundary : largest (rows.map Prod.fst) (topCount rows.length - 1) = boundary) :
    topMean (rows.map Prod.fst) (rows.map Prod.snd) =
      some ((((rows.filter fun row => boundary < row.1).map Prod.snd).sum +
        (topCount rows.length - (rows.filter fun row => boundary < row.1).length : ℚ) *
          (((rows.filter fun row => row.1 = boundary).map Prod.snd).sum / (rows.filter fun row => row.1 = boundary).length)) /
        topCount rows.length) := by
  have hzip : (rows.map Prod.fst).zip (rows.map Prod.snd) = rows := by
    rw [zip_map']
    simp
  unfold topMean
  rw [if_neg (by simp [h])]
  simp only [hzip, length_map, hboundary, Int.cast_sub, Int.cast_natCast]

theorem topMean_perm (hperm : rows'.Perm rows) :
    topMean (rows'.map Prod.fst) (rows'.map Prod.snd) = topMean (rows.map Prod.fst) (rows.map Prod.snd) := by
  by_cases h : rows = []
  · subst h
    rw [hperm.eq_nil]
  have h' : rows' ≠ [] := fun hnil => h (by simpa [hnil] using hperm.symm)
  have hboundary : ∀ k, largest (rows'.map Prod.fst) k = largest (rows.map Prod.fst) k := by
    intro k
    unfold largest
    rw [descending_congr (hperm.map Prod.fst)]
  rw [topMean_rows h rfl, topMean_rows h' rfl, hperm.length_eq, hboundary]
  rw [((hperm.filter _).map Prod.snd).sum_eq, ((hperm.filter _).map Prod.snd).sum_eq, (hperm.filter _).length_eq,
    (hperm.filter _).length_eq]

/-- **Ties count alike.** The order of the rows does not matter, and what they have is the average, over all rankings of
the rows by their predictions, of the plain mean outcome of the highest third. -/
theorem top_mean_tie_fair (rows : List (ℚ × ℚ)) (h : rows ≠ []) :
    (∀ rows' : List (ℚ × ℚ), rows'.Perm rows →
      topMean (rows'.map Prod.fst) (rows'.map Prod.snd) = topMean (rows.map Prod.fst) (rows.map Prod.snd)) ∧
    (rankings fun j => (rows.get j).1).Nonempty ∧
    topMean (rows.map Prod.fst) (rows.map Prod.snd) =
      some ((∑ ranking ∈ rankings fun j => (rows.get j).1, plainTopMean rows ranking) /
        (rankings fun j => (rows.get j).1).card) := by
  refine ⟨fun rows' hperm => topMean_perm hperm, rankings_nonempty, ?_⟩
  have hlength : 0 < rows.length := length_pos_iff.mpr h
  have hcount : 1 ≤ topCount rows.length ∧ topCount rows.length ≤ rows.length := by
    unfold topCount
    omega
  have hplace : topCount rows.length - 1 < (rows.map Prod.fst).length := by
    rw [length_map]
    omega
  obtain ⟨boundary, hboundary⟩ := exists_getElem?_descending hplace
  have hlargest : largest (rows.map Prod.fst) (topCount rows.length - 1) = boundary := by
    unfold largest
    rw [getD_eq_getElem?_getD, hboundary]
    rfl
  obtain ⟨-, hlow, hhigh⟩ := getElem?_descending hboundary
  rw [countP_map, countP_eq_length_filter] at hlow hhigh
  have habove := card_filter_get rows fun row => boundary < row.1
  have hfrom := card_filter_get rows fun row => boundary ≤ row.1
  have hlow' : (Finset.univ.filter fun j : Fin rows.length => boundary < (rows.get j).1).card ≤ topCount rows.length := by
    rw [habove]
    exact hlow.trans (Nat.sub_le _ _)
  have hhigh' : topCount rows.length ≤ (Finset.univ.filter fun j : Fin rows.length => boundary ≤ (rows.get j).1).card := by
    rw [hfrom]
    exact Nat.le_of_pred_lt hhigh
  have haverage := average_top (fun j => (rows.get j).1) (fun j => (rows.get j).2) hlow' hhigh' hcount.2
  rw [habove, card_filter_get rows fun row => row.1 = boundary, sum_filter_get rows (fun row => boundary < row.1) Prod.snd,
    sum_filter_get rows (fun row => row.1 = boundary) Prod.snd] at haverage
  unfold plainTopMean
  rw [topMean_rows h hlargest, ← Finset.sum_div, div_right_comm, haverage]

/-- Three rows of which two tie: the boundary is at the tie. -/
theorem top_mean_tie_fair_tied :
    topMean [1, 1, 0] [4, 2, 9] =
      some ((∑ ranking ∈ rankings fun j : Fin 3 => ([(1, 4), (1, 2), (0, 9)].get j : ℚ × ℚ).1,
        plainTopMean [(1, 4), (1, 2), (0, 9)] ranking) /
          (rankings fun j : Fin 3 => ([(1, 4), (1, 2), (0, 9)].get j : ℚ × ℚ).1).card) :=
  (top_mean_tie_fair [(1, 4), (1, 2), (0, 9)] (by simp)).2.2

end SignalArcade.Challenger
