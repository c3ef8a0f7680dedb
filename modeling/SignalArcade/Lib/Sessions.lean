import Mathlib.Data.List.Chain

/-!
# Sessions

Items that arrive one after the other are put into groups: an item that is near the one before it joins its group, and
any other begins a group of its own. Two items are then of one group exactly if every item on the way from
the one to the other is near the one before it.
-/

namespace Sessions

open List

variable {α ι : Type} (near : α → α → Prop) (group : α → ι)

/-- Two items are of one group exactly if none on the way is far from the one before it. -/
def Joined (items : List α) : Prop :=
  ∀ before a between b after, items = before ++ a :: (between ++ b :: after) →
    (group a = group b ↔ IsChain near (a :: (between ++ [b])))

variable {near group}

theorem Joined.nil : Joined near group [] := by
  intro before a between b after h
  simp at h

/-- Another item joins the last group if it is near, and no group if not. -/
theorem Joined.concat {items : List α} {item : α} (h : Joined near group items)
    (hnear : ∀ last ∈ items.getLast?, near last item → group item = group last)
    (hfar : ∀ last ∈ items.getLast?, ¬ near last item → ∀ other ∈ items, group other ≠ group item) :
    Joined near group (items ++ [item]) := by
  intro before a between b after hitems
  rcases eq_nil_or_concat' after with rfl | ⟨after, last, rfl⟩
  · -- The second item is the new one: what is near it, if anything, is the last of the others.
    have hsplit : items ++ [item] = (before ++ a :: between) ++ [b] := by simpa using hitems
    obtain ⟨rfl, hitem⟩ := append_inj' hsplit rfl
    obtain rfl : item = b := by simpa using hitem
    rcases eq_nil_or_concat' between with rfl | ⟨between, c, rfl⟩
    · by_cases hab : near a item
      · simp [hab, hnear a (by simp) hab]
      · simpa [hab] using hfar a (by simp) hab a (by simp)
    · have hlast : c ∈ (before ++ a :: (between ++ [c])).getLast? := by
        rw [← cons_append, ← append_assoc, getLast?_concat]
        rfl
      have hold := h before a between c [] rfl
      rw [append_assoc, singleton_append, isChain_cons_append_cons_cons]
      by_cases hc : near c item
      · simp [hnear c hlast hc, hold, hc]
      · simpa [hc] using hfar c hlast hc a (by simp)
  · have hsplit : items ++ [item] = (before ++ a :: (between ++ b :: after)) ++ [last] := by simpa using hitems
    exact h before a between b after (append_inj' hsplit rfl).1

end Sessions
