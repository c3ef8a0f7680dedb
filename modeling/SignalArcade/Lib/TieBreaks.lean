import Mathlib.Algebra.BigOperators.Field
import Mathlib.Algebra.BigOperators.Group.Finset.Sigma
import Mathlib.Data.Fin.Tuple.Sort
import Mathlib.Data.Fintype.Perm
import Mathlib.Tactic.Linarith

/-!
# Ties

A ranking of scored entries is an order of all of them in which no score is before a larger one. Over the rankings of
entries with equal scores an entry does as well at its place as those it ties with do on average, `sum_rankings`. So the
first entries of a ranking have, on average, what those above the boundary have, and for the rest the mean of those at
the boundary, `average_top`.
-/

namespace TieBreaks

open Finset

variable {n : ℕ} {β : Type} [LinearOrder β] (score : Fin n → β) (y : Fin n → ℚ)

/-- The rankings: what is at each place. -/
def rankings : Finset (Equiv.Perm (Fin n)) :=
  Finset.univ.filter fun σ => ∀ i j, i ≤ j → score (σ j) ≤ score (σ i)

def tied (j : Fin n) : Finset (Fin n) := Finset.univ.filter fun k => score k = score j

def tiedMean (j : Fin n) : ℚ := (∑ k ∈ tied score j, y k) / (tied score j).card

variable {score y} {σ : Equiv.Perm (Fin n)} {j k : Fin n} {b : β} {c : ℕ}

theorem mem_rankings : σ ∈ rankings score ↔ Antitone (score ∘ σ) := by
  unfold rankings
  rw [mem_filter]
  constructor
  · rintro ⟨-, h⟩ i j hij
    exact h i j hij
  · intro h
    exact ⟨mem_univ σ, fun i j hij => h hij⟩

theorem rankings_nonempty : (rankings score).Nonempty := by
  refine ⟨Tuple.sort (OrderDual.toDual ∘ score), mem_rankings.mpr fun i j hij => ?_⟩
  exact Tuple.monotone_sort (OrderDual.toDual ∘ score) hij

theorem tied_congr (h : score j = score k) : tied score j = tied score k := by
  unfold tied
  rw [h]

theorem tied_card_ne_zero : ((tied score j).card : ℚ) ≠ 0 := by
  have hmem : j ∈ tied score j := mem_filter.mpr ⟨mem_univ j, rfl⟩
  exact_mod_cast (card_pos.mpr ⟨j, hmem⟩).ne'

theorem sum_tiedMean {w : Fin n → ℚ} (hw : ∀ j k, score j = score k → w j = w k) :
    ∑ j, w j * tiedMean score y j = ∑ j, w j * y j := by
  have hspread : ∀ j, w j * tiedMean score y j =
      ∑ k, if score k = score j then w k * y k / (tied score k).card else 0 := by
    intro j
    rw [tiedMean, sum_div, mul_sum, ← sum_filter]
    apply sum_congr rfl
    intro k hk
    have h : score k = score j := (mem_filter.mp hk).2
    rw [hw j k h.symm, tied_congr h, mul_div_assoc]
  simp only [hspread]
  rw [sum_comm]
  apply sum_congr rfl
  intro k _
  have hcount : (∑ j, if score k = score j then w k * y k / (tied score k).card else 0) =
      ((tied score k).card : ℚ) * (w k * y k / (tied score k).card) := by
    rw [← sum_filter, sum_const, nsmul_eq_mul]
    simp only [tied, eq_comm]
  rw [hcount, mul_div_cancel₀ _ tied_card_ne_zero]

theorem card_at_place (h : score j = score k) (i : Fin n) :
    ((rankings score).filter fun σ => σ i = j).card = ((rankings score).filter fun σ => σ i = k).card := by
  have hswap : ∀ x, score (Equiv.swap j k x) = score x := by
    intro x
    rw [Equiv.swap_apply_def]
    split_ifs with hj hk
    · rw [hj, h]
    · rw [hk, h]
    · rfl
  have hmaps : ∀ σ ∈ rankings score, Equiv.swap j k * σ ∈ rankings score := by
    intro σ hσ
    rw [mem_rankings] at hσ ⊢
    intro i i' hi
    have hle : score (σ i') ≤ score (σ i) := hσ hi
    simpa [hswap] using hle
  apply card_nbij' (Equiv.swap j k * ·) (Equiv.swap j k * ·)
  · intro σ hσ
    obtain ⟨hmem, hplace⟩ := mem_filter.mp hσ
    exact mem_filter.mpr ⟨hmaps σ hmem, by simp [hplace]⟩
  · intro σ hσ
    obtain ⟨hmem, hplace⟩ := mem_filter.mp hσ
    exact mem_filter.mpr ⟨hmaps σ hmem, by simp [hplace]⟩
  · intro σ _
    simp
  · intro σ _
    simp

theorem sum_at_place (z : Fin n → ℚ) (i : Fin n) :
    ∑ σ ∈ rankings score, z (σ i) = ∑ j, (((rankings score).filter fun σ => σ i = j).card : ℚ) * z j := by
  have hplace : ∀ σ : Equiv.Perm (Fin n), z (σ i) = ∑ j, if σ i = j then z j else 0 := by
    intro σ
    rw [sum_ite_eq, if_pos (mem_univ _)]
  simp only [hplace]
  rw [sum_comm]
  apply sum_congr rfl
  intro j _
  rw [← sum_filter, sum_const, nsmul_eq_mul]

theorem sum_rankings (i : Fin n) : ∑ σ ∈ rankings score, y (σ i) = ∑ σ ∈ rankings score, tiedMean score y (σ i) := by
  rw [sum_at_place, sum_at_place, sum_tiedMean]
  intro j k h
  rw [card_at_place h]

/-! ### The first places -/

theorem sum_above (b : β) : ∑ j with b < score j, tiedMean score y j = ∑ j with b < score j, y j := by
  have hweights : ∀ z : Fin n → ℚ, ∑ j with b < score j, z j = ∑ j, (if b < score j then 1 else 0) * z j := by
    intro z
    rw [sum_filter]
    apply sum_congr rfl
    intro j _
    split_ifs
    · rw [one_mul]
    · rw [zero_mul]
  rw [hweights, hweights, sum_tiedMean]
  intro j k h
  rw [h]

theorem place_score (hσ : σ ∈ rankings score) (hlow : (Finset.univ.filter fun j => b < score j).card ≤ c)
    (hhigh : c ≤ (Finset.univ.filter fun j => b ≤ score j).card) (i : Fin n) :
    (b < score (σ i) → i.val < c) ∧ (i.val < c → b ≤ score (σ i)) := by
  have hanti := mem_rankings.mp hσ
  have habove : (Finset.univ.filter fun i => b < (score ∘ σ) i).card = (Finset.univ.filter fun j => b < score j).card :=
    card_equiv σ fun i => by simp
  have hfrom : (Finset.univ.filter fun i => b ≤ (score ∘ σ) i).card = (Finset.univ.filter fun j => b ≤ score j).card :=
    card_equiv σ fun i => by simp
  constructor
  · intro h
    have hplace := (Tuple.lt_card_gt_iff_apply_gt_of_antitone (j := i) (a := b) hanti).mpr h
    omega
  · intro h
    apply (Tuple.lt_card_ge_iff_apply_ge_of_antitone (j := i) (a := b) hanti).mp
    omega

theorem sum_top (hσ : σ ∈ rankings score) (hlow : (Finset.univ.filter fun j => b < score j).card ≤ c)
    (hhigh : c ≤ (Finset.univ.filter fun j => b ≤ score j).card) (hc : c ≤ n) :
    ∑ i : Fin n with i.val < c, tiedMean score y (σ i) =
      ∑ j with b < score j, y j + (c - (Finset.univ.filter fun j => b < score j).card : ℚ) *
        ((∑ j with score j = b, y j) / (Finset.univ.filter fun j => score j = b).card) := by
  have hplace := place_score hσ hlow hhigh
  have habove : ∑ i : Fin n with i.val < c ∧ b < score (σ i), tiedMean score y (σ i) = ∑ j with b < score j, y j := by
    rw [← sum_above, sum_filter, sum_filter, ← Equiv.sum_comp σ fun j => if b < score j then _ else _]
    apply sum_congr rfl
    intro i _
    by_cases h : b < score (σ i)
    · rw [if_pos ⟨(hplace i).1 h, h⟩, if_pos h]
    · rw [if_neg fun hand => h hand.2, if_neg h]
  have hmean : ∀ i : Fin n, i.val < c → ¬ b < score (σ i) → tiedMean score y (σ i) =
      (∑ j with score j = b, y j) / (Finset.univ.filter fun j => score j = b).card := by
    intro i hi hnot
    have hb : score (σ i) = b := le_antisymm (not_lt.mp hnot) ((hplace i).2 hi)
    unfold tiedMean tied
    rw [hb]
  have hcard : ((Finset.univ.filter fun i : Fin n => i.val < c ∧ ¬ b < score (σ i)).card : ℚ) =
      c - (Finset.univ.filter fun j => b < score j).card := by
    have hall : (Finset.univ.filter fun i : Fin n => i.val < c).card = c := by
      rw [Fin.card_filter_val_lt, min_eq_right hc]
    have hperm : (Finset.univ.filter fun i : Fin n => i.val < c ∧ b < score (σ i)).card =
        (Finset.univ.filter fun j => b < score j).card := by
      refine card_equiv σ fun i => ?_
      simp only [mem_filter, mem_univ, true_and]
      exact ⟨fun h => h.2, fun h => ⟨(hplace i).1 h, h⟩⟩
    have hsplit := card_filter_add_card_filter_not (s := Finset.univ.filter fun i : Fin n => i.val < c)
      (fun i => b < score (σ i))
    rw [filter_filter, filter_filter, hperm, hall] at hsplit
    have hcast : ((Finset.univ.filter fun j => b < score j).card : ℚ) +
        (Finset.univ.filter fun i : Fin n => i.val < c ∧ ¬ b < score (σ i)).card = c := by exact_mod_cast hsplit
    linarith only [hcast]
  rw [← sum_filter_add_sum_filter_not _ fun i => b < score (σ i), filter_filter, filter_filter, habove]
  congr 1
  rw [← hcard, ← nsmul_eq_mul, ← sum_const]
  apply sum_congr rfl
  intro i hi
  obtain ⟨-, hi, hnot⟩ := mem_filter.mp hi
  exact hmean i hi hnot

variable (score y) in
/-- **The average over the rankings** of what the first places have. -/
theorem average_top (hlow : (Finset.univ.filter fun j => b < score j).card ≤ c)
    (hhigh : c ≤ (Finset.univ.filter fun j => b ≤ score j).card) (hc : c ≤ n) :
    (∑ σ ∈ rankings score, ∑ i : Fin n with i.val < c, y (σ i)) / (rankings score).card =
      ∑ j with b < score j, y j + (c - (Finset.univ.filter fun j => b < score j).card : ℚ) *
        ((∑ j with score j = b, y j) / (Finset.univ.filter fun j => score j = b).card) := by
  have hsome : ((rankings score).card : ℚ) ≠ 0 := by exact_mod_cast (card_pos.mpr rankings_nonempty).ne'
  rw [div_eq_iff hsome, sum_comm]
  calc ∑ i : Fin n with i.val < c, ∑ σ ∈ rankings score, y (σ i)
      = ∑ i : Fin n with i.val < c, ∑ σ ∈ rankings score, tiedMean score y (σ i) :=
        sum_congr rfl fun i _ => sum_rankings i
    _ = ∑ σ ∈ rankings score, ∑ i : Fin n with i.val < c, tiedMean score y (σ i) := sum_comm
    _ = _ := by
        rw [sum_congr rfl fun σ hσ => sum_top hσ hlow hhigh hc, sum_const, nsmul_eq_mul, mul_comm]

end TieBreaks
