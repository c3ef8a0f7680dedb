import Mathlib.Data.List.DropRight
import Mathlib.Data.Finset.Card

/-!
# Selections from a list

The first row of each key, as a dictionary with `setdefault` keeps it, and the last rows of a
list, `List.rtake`. Both are sublists, so what is selected is one of the rows, in their order.
`best` is the first row that no other is better than, as `min` and `max` with a key give it.
-/

namespace Selection

open List

variable {α κ : Type} [DecidableEq κ] {key : α → κ} {l : List α} {a : α} {n : ℕ}

/-- The first of each key. -/
def firstPer (key : α → κ) : List α → List α
  | [] => []
  | a :: l => a :: (firstPer key l).filter fun b => key b ≠ key a

theorem firstPer_sublist (key : α → κ) (l : List α) : (firstPer key l).Sublist l := by
  induction l with
  | nil => exact .slnil
  | cons a l ih => exact (filter_sublist.trans ih).cons_cons a

theorem firstPer_eq_self {l : List α} (h : (l.map key).Nodup) : firstPer key l = l := by
  induction l with
  | nil => rfl
  | cons a l ih =>
    rw [map_cons, nodup_cons] at h
    rw [firstPer, ih h.2, filter_eq_self.mpr]
    intro b hb
    have hne : key b ≠ key a := ne_of_mem_of_not_mem (mem_map_of_mem hb) h.1
    simpa using hne

theorem nodup_map_firstPer (key : α → κ) (l : List α) : ((firstPer key l).map key).Nodup := by
  induction l with
  | nil => exact nodup_nil
  | cons a l ih =>
    rw [firstPer, map_cons, nodup_cons]
    constructor
    · intro hmem
      obtain ⟨b, hb, hkey⟩ := mem_map.mp hmem
      simpa [hkey] using of_mem_filter hb
    · exact ih.sublist (filter_sublist.map key)

theorem mem_firstPer_id {l : List κ} {a : κ} : a ∈ firstPer id l ↔ a ∈ l := by
  induction l with
  | nil => rfl
  | cons b l ih =>
    rw [firstPer, mem_cons, mem_cons, mem_filter, ih]
    by_cases hab : a = b <;> simp [hab]

theorem mem_map_firstPer {k : κ} : k ∈ (firstPer key l).map key ↔ k ∈ l.map key := by
  induction l with
  | nil => rfl
  | cons a l ih =>
    rw [firstPer, map_cons, map_cons, mem_cons, mem_cons, ← ih]
    by_cases hk : k = key a
    · simp [hk]
    · simp only [hk, false_or, mem_map, mem_filter, decide_eq_true_eq]
      constructor
      · rintro ⟨b, ⟨hb, -⟩, hkey⟩
        exact ⟨b, hb, hkey⟩
      · rintro ⟨b, hb, hkey⟩
        exact ⟨b, ⟨hb, hkey ▸ hk⟩, hkey⟩

theorem firstPer_concat (key : α → κ) (l : List α) (a : α) :
    firstPer key (l ++ [a]) = if key a ∈ l.map key then firstPer key l else firstPer key l ++ [a] := by
  induction l with
  | nil => rfl
  | cons b l ih =>
    rw [cons_append, firstPer, firstPer, ih]
    by_cases hmem : key a ∈ l.map key
    · simp [hmem]
    · by_cases hab : key a = key b
      · rw [if_neg hmem, filter_append]
        simp [hab]
      · simp [hmem, hab]

theorem firstPer_prefix_append (key : α → κ) (l l' : List α) : firstPer key l <+: firstPer key (l ++ l') := by
  induction l' using reverseRecOn with
  | nil => rw [append_nil]
  | append_singleton l' a ih =>
    rw [← append_assoc, firstPer_concat]
    split_ifs
    · exact ih
    · exact ih.trans (prefix_append _ _)

theorem firstPer_map {f : α → α} (hf : ∀ a, key (f a) = key a) (l : List α) :
    firstPer key (l.map f) = (firstPer key l).map f := by
  induction l with
  | nil => rfl
  | cons a l ih =>
    rw [map_cons, firstPer, firstPer, map_cons, ih, filter_map]
    congr 2
    apply filter_congr
    intro b _
    simp [hf]

omit [DecidableEq κ] in
theorem rtake_sublist (l : List α) (n : ℕ) : (l.rtake n).Sublist l := drop_sublist _ _

omit [DecidableEq κ] in
theorem length_rtake_le (l : List α) (n : ℕ) : (l.rtake n).length ≤ n := by
  rw [rtake, length_drop]
  omega

omit [DecidableEq κ] in
theorem rtake_of_length_le {l : List α} {n : ℕ} (h : l.length ≤ n) : l.rtake n = l := by
  rw [rtake, Nat.sub_eq_zero_of_le h, drop_zero]

omit [DecidableEq κ] in
theorem rtake_rtake (l : List α) (m n : ℕ) : (l.rtake m).rtake n = l.rtake (min n m) := by
  simp only [rtake, length_drop, drop_drop]
  congr 1
  omega

omit [DecidableEq κ] in
theorem map_rtake {β : Type} (f : α → β) (l : List α) (n : ℕ) : (l.rtake n).map f = (l.map f).rtake n := by
  rw [rtake, rtake, map_drop, length_map]

/-- The first row that no other is better than, in a list where `better` is a strict order. -/
def best (better : α → α → Bool) : List α → Option α
  | [] => none
  | a :: l =>
    match best better l with
    | none => some a
    | some b => if better b a then some b else some a

omit [DecidableEq κ] in
theorem best_mem {better : α → α → Bool} (h : best better l = some a) : a ∈ l := by
  induction l generalizing a with
  | nil => cases h
  | cons b l ih =>
    simp only [best] at h
    split at h
    · cases h
      exact mem_cons_self
    · next c hbest =>
      split_ifs at h
      · cases h
        exact mem_cons_of_mem _ (ih hbest)
      · cases h
        exact mem_cons_self

section

variable {β : Type} [LinearOrder β] {better : α → α → Bool} {f : α → β} {l' : List α}

end

/-! ### Counts of keys -/

/-- One more of a key. -/
def increment (a : κ) : List (κ × ℕ) → List (κ × ℕ)
  | [] => [(a, 1)]
  | (b, n) :: counts => if b = a then (b, n + 1) :: counts else (b, n) :: increment a counts

/-- How often each key is there, in the order in which the keys came. -/
def tally (keys : List κ) : List (κ × ℕ) := keys.foldl (fun counts a => increment a counts) []

theorem increment_map {keys : List κ} (hnodup : keys.Nodup) (f : κ → ℕ) (a : κ) :
    increment a (keys.map fun k => (k, f k)) =
      if a ∈ keys then keys.map fun k => (k, if k = a then f k + 1 else f k) else keys.map (fun k => (k, f k)) ++ [(a, 1)] := by
  induction keys with
  | nil => rfl
  | cons b keys ih =>
    obtain ⟨hb, hkeys⟩ := nodup_cons.mp hnodup
    rw [map_cons, increment, ih hkeys]
    by_cases hba : b = a
    · subst hba
      rw [if_pos rfl, if_pos mem_cons_self, map_cons, if_pos rfl]
      congr 1
      apply map_congr_left
      intro k hk
      rw [if_neg (ne_of_mem_of_not_mem hk hb)]
    · rw [if_neg hba]
      by_cases hmem : a ∈ keys
      · rw [if_pos hmem, if_pos (mem_cons_of_mem b hmem), map_cons, if_neg hba]
      · have hnot : a ∉ b :: keys := by
          rw [mem_cons]
          exact not_or.mpr ⟨fun hab => hba hab.symm, hmem⟩
        rw [if_neg hmem, if_neg hnot]
        rfl

theorem tally_eq (keys : List κ) : tally keys = (firstPer id keys).map fun k => (k, keys.count k) := by
  induction keys using reverseRecOn with
  | nil => rfl
  | append_singleton keys a ih =>
    have hnodup : (firstPer id keys).Nodup := by simpa using nodup_map_firstPer id keys
    have hconcat : tally (keys ++ [a]) = increment a (tally keys) := by simp [tally]
    rw [hconcat, ih, increment_map hnodup, firstPer_concat, map_id, id_eq]
    by_cases hmem : a ∈ keys
    · rw [if_pos (mem_firstPer_id.mpr hmem), if_pos hmem]
      apply map_congr_left
      intro k _
      by_cases hk : k = a
      · simp [hk]
      · simp [hk, Ne.symm hk]
    · rw [if_neg (mt mem_firstPer_id.mp hmem), if_neg hmem, map_append]
      congr 1
      · apply map_congr_left
        intro k hk
        have hne : k ≠ a := ne_of_mem_of_not_mem (mem_firstPer_id.mp hk) hmem
        simp [hne.symm]
      · simp [count_eq_zero_of_not_mem hmem]

theorem countP_tally (keys : List κ) (n : ℕ) :
    (tally keys).countP (fun count => n ≤ count.2) = (keys.toFinset.filter fun k => n ≤ keys.count k).card := by
  have hnodup : (firstPer id keys).Nodup := by simpa using nodup_map_firstPer id keys
  have hset : (firstPer id keys).toFinset = keys.toFinset := by
    ext k
    rw [mem_toFinset, mem_toFinset, mem_firstPer_id]
  rw [tally_eq, countP_map, countP_eq_length_filter, ← toFinset_card_of_nodup (hnodup.filter _),
    toFinset_filter, hset]
  congr 1
  apply Finset.filter_congr
  intro k _
  simp

end Selection
