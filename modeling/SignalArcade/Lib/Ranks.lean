import Mathlib.Data.List.Sort

/-!
# Ranks

The entries of a list, from the largest to the smallest. `largest l k` is the one of rank `k`; it is
known by how many entries there are from a bound on (`le_largest_iff`), and what follows from that:
it grows with the entries, and falls with the rank. The smallest entries are known by how many
there are below them (`mem_take_insertionSort`).
-/

namespace Ranks

open List

universe u

variable {α : Type u} [LinearOrder α]

/-- `sorted(l, reverse=True)`. -/
def descending (l : List α) : List α := l.insertionSort (· ≥ ·)

/-- The entry of rank `k`, where there is one. -/
def largest [Zero α] (l : List α) (k : ℕ) : α := (descending l).getD k 0

variable {l l' : List α} {t : α} {k k' : ℕ}

theorem descending_perm (l : List α) : (descending l).Perm l := perm_insertionSort _ l

theorem descending_pairwise (l : List α) : (descending l).Pairwise (· ≥ ·) := pairwise_insertionSort _ l

@[simp] theorem length_descending (l : List α) : (descending l).length = l.length := (descending_perm l).length_eq

theorem descending_congr (h : l.Perm l') : descending l = descending l' :=
  ((descending_perm l).trans (h.trans (descending_perm l').symm)).eq_of_pairwise' (descending_pairwise l)
    (descending_pairwise l')

theorem getElem_iff_countP {p : α → Bool} (hp : ∀ {a b}, a ≤ b → p a → p b) (hsorted : l.Pairwise (· ≥ ·))
    (hk : k < l.length) : p l[k] ↔ k < l.countP p := by
  induction l generalizing k with
  | nil => exact absurd hk (Nat.not_lt_zero k)
  | cons a l ih =>
    obtain ⟨hhead, htail⟩ := pairwise_cons.mp hsorted
    by_cases ha : p a
    · rw [countP_cons_of_pos ha]
      cases k with
      | zero => simpa using ha
      | succ k =>
        rw [getElem_cons_succ, ih htail (by simpa using hk)]
        omega
    · have hnone : l.countP p = 0 := by
        rw [countP_eq_zero]
        exact fun b hb hpb => ha (hp (hhead b hb) hpb)
      rw [countP_cons_of_neg ha, hnone]
      refine iff_of_false ?_ (Nat.not_lt_zero k)
      have hle : (a :: l)[k] ≤ a := by
        cases k with
        | zero => exact le_rfl
        | succ k => exact hhead _ (getElem_mem _)
      exact fun h => ha (hp hle h)

theorem le_getElem_iff (hsorted : l.Pairwise (· ≥ ·)) (hk : k < l.length) : t ≤ l[k] ↔ k < l.countP (t ≤ ·) := by
  have hp : ∀ {a b : α}, a ≤ b → decide (t ≤ a) → decide (t ≤ b) := by
    intro a b hab hta
    exact decide_eq_true ((of_decide_eq_true hta).trans hab)
  simpa using getElem_iff_countP hp hsorted hk

theorem lt_getElem_iff (hsorted : l.Pairwise (· ≥ ·)) (hk : k < l.length) : t < l[k] ↔ k < l.countP (t < ·) := by
  have hp : ∀ {a b : α}, a ≤ b → decide (t < a) → decide (t < b) := by
    intro a b hab hta
    exact decide_eq_true ((of_decide_eq_true hta).trans_le hab)
  simpa using getElem_iff_countP hp hsorted hk

variable {a : α}

theorem getElem?_descending (h : (descending l)[k]? = some a) :
    a ∈ l ∧ l.countP (a < ·) ≤ k ∧ k < l.countP (a ≤ ·) := by
  obtain ⟨hk, rfl⟩ := List.getElem?_eq_some_iff.mp h
  refine ⟨(descending_perm l).subset (getElem_mem hk), ?_, ?_⟩
  · rw [← (descending_perm l).countP_eq, ← not_lt, ← lt_getElem_iff (descending_pairwise l) hk]
    exact lt_irrefl _
  · rw [← (descending_perm l).countP_eq, ← le_getElem_iff (descending_pairwise l) hk]

theorem countP_le_eq (l : List α) (a : α) : l.countP (a ≤ ·) = l.countP (a < ·) + l.count a := by
  induction l with
  | nil => rfl
  | cons b l ih =>
    rw [countP_cons, countP_cons, count_cons, ih]
    rcases lt_trichotomy a b with h | rfl | h
    · simp [h, h.le, h.ne']
      omega
    · simp
      omega
    · simp [h.not_ge, h.not_gt, h.ne]

theorem countP_of_getElem?_descending (hnodup : l.Nodup) (h : (descending l)[k]? = some a) :
    l.countP (a < ·) = k := by
  obtain ⟨hmem, hle, hlt⟩ := getElem?_descending h
  rw [countP_le_eq, count_eq_one_of_mem hnodup hmem] at hlt
  omega

theorem getElem?_descending_of_countP (hnodup : l.Nodup) (hmem : a ∈ l) (hcount : l.countP (a < ·) = k) :
    (descending l)[k]? = some a := by
  obtain ⟨j, hj, hget⟩ := mem_iff_getElem.mp ((descending_perm l).symm.subset hmem)
  have hplace : (descending l)[j]? = some a := by rw [getElem?_eq_getElem hj, hget]
  rwa [← hcount, countP_of_getElem?_descending hnodup hplace]

theorem mem_take_descending {n : ℕ} (hnodup : l.Nodup) :
    a ∈ (descending l).take n ↔ a ∈ l ∧ l.countP (a < ·) < n := by
  constructor
  · intro hmem
    obtain ⟨i, hi, hget⟩ := List.mem_iff_getElem.mp hmem
    rw [List.length_take] at hi
    have hplace : (descending l)[i]? = some a := by
      rw [List.getElem?_eq_getElem (by omega), ← hget, List.getElem_take]
    exact ⟨(getElem?_descending hplace).1, by rw [countP_of_getElem?_descending hnodup hplace]; omega⟩
  · rintro ⟨hmem, hcount⟩
    obtain ⟨i, hi, hget⟩ := List.mem_iff_getElem.mp ((descending_perm l).symm.subset hmem)
    have hplace : (descending l)[i]? = some a := by rw [List.getElem?_eq_getElem hi, hget]
    rw [countP_of_getElem?_descending hnodup hplace] at hcount
    exact List.mem_take_iff_getElem.mpr ⟨i, by omega, hget⟩

theorem length_filter_countP (hnodup : l.Nodup) (n : ℕ) : (l.filter fun a => n ≤ l.countP (a < ·)).length = l.length - n := by
  have hperm : (l.filter fun a => n ≤ l.countP (a < ·)).Perm ((descending l).drop n) := by
    have hnodup' : (descending l).Nodup := (descending_perm l).nodup_iff.mpr hnodup
    refine (perm_ext_iff_of_nodup (hnodup.filter _) (hnodup'.sublist (drop_sublist _ _))).mpr fun a => ?_
    have hsplit : a ∈ l ↔ a ∈ (descending l).take n ∨ a ∈ (descending l).drop n := by
      rw [← mem_append, take_append_drop, (descending_perm l).mem_iff]
    rw [mem_filter, decide_eq_true_eq]
    constructor
    · rintro ⟨hmem, hmany⟩
      rcases hsplit.mp hmem with htake | hdrop
      · exact absurd ((mem_take_descending hnodup).mp htake).2 hmany.not_gt
      · exact hdrop
    · intro hdrop
      have hmem : a ∈ l := hsplit.mpr (.inr hdrop)
      refine ⟨hmem, Nat.le_of_not_lt fun hfew => ?_⟩
      exact disjoint_take_drop hnodup' le_rfl ((mem_take_descending hnodup).mpr ⟨hmem, hfew⟩) hdrop
  rw [hperm.length_eq, length_drop, length_descending]

theorem exists_getElem?_descending (hk : k < l.length) : ∃ a, (descending l)[k]? = some a :=
  ⟨_, getElem?_eq_getElem (by rwa [length_descending])⟩

theorem getElem?_descending_eq_none (hk : l.length ≤ k) : (descending l)[k]? = none :=
  getElem?_eq_none (by rwa [length_descending])

theorem countP_le_countP (h : Forall₂ (· ≤ ·) l l') (t : α) : l.countP (t ≤ ·) ≤ l'.countP (t ≤ ·) := by
  induction h with
  | nil => exact le_rfl
  | @cons a b l l' hab h ih =>
    rw [countP_cons, countP_cons]
    have hone : (if decide (t ≤ a) = true then 1 else 0) ≤ if decide (t ≤ b) = true then 1 else 0 := by
      by_cases ha : t ≤ a
      · simp [ha, ha.trans hab]
      · simp [ha]
    exact Nat.add_le_add ih hone

theorem mem_take_iff_countP {n : ℕ} (hsorted : l.Pairwise (· < ·)) :
    a ∈ l.take n ↔ a ∈ l ∧ l.countP (· < a) < n := by
  induction l generalizing n with
  | nil => simp
  | cons b l ih =>
    obtain ⟨hhead, htail⟩ := pairwise_cons.mp hsorted
    cases n with
    | zero => simp
    | succ n =>
      rw [take_succ_cons, mem_cons, mem_cons, ih htail]
      constructor
      · rintro (rfl | ⟨hmem, hcount⟩)
        · have hnone : l.countP (· < a) = 0 := by
            rw [countP_eq_zero]
            intro c hc
            simpa using (hhead c hc).le
          exact ⟨.inl rfl, by rw [countP_cons_of_neg (by simp), hnone]; exact Nat.succ_pos n⟩
        · rw [countP_cons_of_pos (by simpa using hhead a hmem)]
          exact ⟨.inr hmem, Nat.succ_lt_succ hcount⟩
      · rintro ⟨rfl | hmem, hcount⟩
        · exact .inl rfl
        · rw [countP_cons_of_pos (by simpa using hhead a hmem)] at hcount
          exact .inr ⟨hmem, Nat.lt_of_succ_lt_succ hcount⟩

theorem mem_take_insertionSort {n : ℕ} (hnodup : l.Nodup) :
    a ∈ (l.insertionSort (· ≤ ·)).take n ↔ a ∈ l ∧ l.countP (· < a) < n := by
  have hperm := perm_insertionSort (· ≤ ·) l
  have hsorted : (l.insertionSort (· ≤ ·)).Pairwise (· < ·) :=
    ((pairwise_insertionSort (· ≤ ·) l).and (hperm.nodup_iff.mpr hnodup)).imp fun h => lt_of_le_of_ne h.1 h.2
  rw [mem_take_iff_countP hsorted, hperm.mem_iff, hperm.countP_eq]

variable [Zero α]

theorem largest_eq_getElem (hk : k < (descending l).length) : largest l k = (descending l)[k] := by
  unfold largest
  rw [getD_eq_getElem?_getD, getElem?_eq_getElem hk, Option.getD_some]

theorem le_largest_iff (hk : k < l.length) : t ≤ largest l k ↔ k < l.countP (t ≤ ·) := by
  have hk' : k < (descending l).length := by rwa [length_descending]
  rw [largest_eq_getElem hk', le_getElem_iff (descending_pairwise l), (descending_perm l).countP_eq]

theorem largest_mem (hk : k < l.length) : largest l k ∈ l := by
  have hk' : k < (descending l).length := by rwa [length_descending]
  rw [largest_eq_getElem hk']
  exact (descending_perm l).subset (getElem_mem hk')

theorem largest_mono (h : Forall₂ (· ≤ ·) l l') (hk : k < l.length) : largest l k ≤ largest l' k := by
  rw [le_largest_iff (h.length_eq ▸ hk)]
  exact ((le_largest_iff hk).mp le_rfl).trans_le (countP_le_countP h _)

theorem largest_antitone (hle : k ≤ k') (hk : k' < l.length) : largest l k' ≤ largest l k := by
  rw [le_largest_iff (hle.trans_lt hk)]
  exact hle.trans_lt ((le_largest_iff hk).mp le_rfl)

end Ranks
