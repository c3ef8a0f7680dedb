import Mathlib.Data.List.Sort

/-!
# Keyset paging

A reader goes through the entries of a changing collection page by page, in their order: a
page holds the first entries above a cursor, and the next page starts at its last one.

A page takes every entry between the two cursors (`mem_page_of_le_next`), so that an entry
is passed over only while it is not there.
-/

namespace Paging

open List

universe u

variable {α : Type u} [LinearOrder α] {all : List α} {after p : α} {limit : ℕ}

/-- The first entries above a cursor. -/
def page (all : List α) (after : α) (limit : ℕ) : List α :=
  ((all.filter (after < ·)).insertionSort (· ≤ ·)).take limit

def next {β : Type u} (page : List β) (after : β) : β := page.getLast?.getD after

theorem lt_of_mem_page (h : p ∈ page all after limit) : after < p := by
  have hmem := (mem_insertionSort (· ≤ ·)).mp (mem_of_mem_take h)
  simpa using (mem_filter.mp hmem).2

theorem next_mem_or {β : Type u} (page : List β) (after : β) : next page after ∈ page ∨ next page after = after := by
  unfold next
  cases hl : page.getLast? with
  | none => exact .inr rfl
  | some p => exact .inl (mem_of_getLast? hl)

theorem le_next_of_mem (h : p ∈ page all after limit) : p ≤ next (page all after limit) after := by
  have hpairwise : (page all after limit).Pairwise (· ≤ ·) :=
    (pairwise_insertionSort (· ≤ ·) _).sublist (take_sublist _ _)
  have hne : page all after limit ≠ [] := ne_nil_of_mem h
  unfold next
  rw [getLast?_eq_some_getLast hne, Option.getD_some]
  rw [← dropLast_append_getLast hne] at h hpairwise
  rcases mem_append.mp h with hmem | hmem
  · exact (pairwise_append.mp hpairwise).2.2 p hmem _ (mem_singleton_self _)
  · exact (mem_singleton.mp hmem).le

theorem le_next (all : List α) (after : α) (limit : ℕ) : after ≤ next (page all after limit) after := by
  rcases next_mem_or (page all after limit) after with h | h
  · exact (lt_of_mem_page h).le
  · exact h.ge

theorem mem_page_of_le_next (hmem : p ∈ all) (hafter : after < p) (hle : p ≤ next (page all after limit) after) :
    p ∈ page all after limit := by
  rcases next_mem_or (page all after limit) after with hnext | hnext
  · have hsorted : p ∈ (all.filter (after < ·)).insertionSort (· ≤ ·) := by simp [hmem, hafter]
    rw [← take_append_drop limit ((all.filter (after < ·)).insertionSort (· ≤ ·))] at hsorted
    rcases mem_append.mp hsorted with htake | hdrop
    · exact htake
    · -- what is left of the entries is not below the last one of the page
      have hpairwise := pairwise_insertionSort (· ≤ ·) (all.filter (after < ·))
      rw [← take_append_drop limit ((all.filter (after < ·)).insertionSort (· ≤ ·))] at hpairwise
      have hge := (pairwise_append.mp hpairwise).2.2 _ hnext p hdrop
      exact le_antisymm hle hge ▸ hnext
  · rw [hnext] at hle
    exact absurd hafter (not_lt.mpr hle)

/-! ### Rows with a place in the order -/

section rows

variable {β : Type u} {place : β → α} {rows : List β} {next' : α}

section

variable (h : rows.Pairwise fun a b => place a < place b)
include h

theorem filter_le_append_filter_lt (after : α) :
    (rows.filter fun row => place row ≤ after) ++ (rows.filter fun row => after < place row) = rows := by
  induction rows with
  | nil => rfl
  | cons row rows ih =>
    obtain ⟨hrow, hrows⟩ := pairwise_cons.mp h
    by_cases hle : place row ≤ after
    · simp [hle, hle.not_gt, ih hrows]
    · have hlt : after < place row := not_le.mp hle
      have hnone : rows.filter (fun row => place row ≤ after) = [] := by
        rw [filter_eq_nil_iff]
        intro row' hmem hle'
        exact not_lt.mpr (of_decide_eq_true hle') (hlt.trans (hrow row' hmem))
      have hall : rows.filter (fun row => after < place row) = rows := by
        rw [filter_eq_self]
        intro row' hmem
        exact decide_eq_true (hlt.trans (hrow row' hmem))
      simp [hle, hlt, hnone, hall]

theorem filter_le_isInitial (after : α) :
    (rows.filter fun row => place row ≤ after) <+: rows :=
  ⟨_, filter_le_append_filter_lt h after⟩

theorem filter_le_append_between (hle : after ≤ next') :
    (rows.filter fun row => place row ≤ after) ++ (rows.filter fun row => after < place row ∧ place row ≤ next') =
      rows.filter fun row => place row ≤ next' := by
  have hkept : (rows.filter fun row => place row ≤ next').Pairwise fun a b => place a < place b :=
    h.sublist filter_sublist
  have hsplit := filter_le_append_filter_lt hkept after
  rw [filter_filter, filter_filter] at hsplit
  rw [← hsplit]
  congr 1
  · apply filter_congr
    intro row _
    rw [← Bool.decide_and]
    exact decide_eq_decide.mpr ⟨fun hrow => ⟨hrow, hrow.trans hle⟩, And.left⟩
  · apply filter_congr
    intro row _
    rw [Bool.decide_and]

end

end rows

end Paging
