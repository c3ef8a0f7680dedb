import Mathlib.Data.List.Basic

/-!
# Thinned lists

A recording of bounded size drops entries, but never its first or its last one. `Thinned`
relates what is kept to all there was; it survives appending the same entry to both
(`Thinned.append`) and dropping an inner entry of what is kept (`Thinned.eraseIdx`).
-/

universe u

variable {α : Type u} {kept all : List α}

/-- What is kept of a list: some of it, the first and the last among it. -/
structure Thinned (kept all : List α) : Prop where
  sublist : kept.Sublist all
  head_eq : kept.head? = all.head?
  getLast_eq : kept.getLast? = all.getLast?

namespace Thinned

theorem refl (all : List α) : Thinned all all := ⟨List.Sublist.refl all, rfl, rfl⟩

theorem trans {less : List α} (h : Thinned less kept) (h' : Thinned kept all) : Thinned less all :=
  ⟨h.sublist.trans h'.sublist, h.head_eq.trans h'.head_eq, h.getLast_eq.trans h'.getLast_eq⟩

theorem eq_nil_iff (h : Thinned kept all) : kept = [] ↔ all = [] := by
  rw [← List.head?_eq_none_iff, h.head_eq, List.head?_eq_none_iff]

theorem append (h : Thinned kept all) (a : α) : Thinned (kept ++ [a]) (all ++ [a]) where
  sublist := h.sublist.append_right [a]
  head_eq := by rw [List.head?_append, List.head?_append, h.head_eq]
  getLast_eq := by rw [List.getLast?_concat, List.getLast?_concat]

theorem eraseIdx (h : Thinned kept all) {i : ℕ} (hfirst : 0 < i) (hlast : i + 1 < kept.length) :
    Thinned (kept.eraseIdx i) all where
  sublist := (kept.eraseIdx_sublist i).trans h.sublist
  head_eq := by
    rw [← h.head_eq, List.eraseIdx_eq_take_drop_succ, List.head?_append, List.head?_take, if_neg (Nat.ne_of_gt hfirst)]
    cases kept with
    | nil => simp at hlast
    | cons a kept => rfl
  getLast_eq := by
    have hne : kept.drop (i + 1) ≠ [] := by
      rw [Ne, List.drop_eq_nil_iff]
      omega
    rw [← h.getLast_eq, List.eraseIdx_eq_take_drop_succ, List.getLast?_append, List.getLast?_drop,
      if_neg (by omega)]
    cases hl : kept.getLast? with
    | none => rw [List.getLast?_eq_none_iff.mp hl] at hne; simp at hne
    | some a => rfl

end Thinned
