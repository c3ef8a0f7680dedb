import Mathlib.Data.List.Dedup

/-!
# Recently used entries

A memory of bounded size remembers entries in the order they were used last, and forgets
the one that was not used for longest.

Whether an entry is still there depends on what was remembered since (`Recent.Holds.mem_of_few`):
fewer other entries than the memory has room for do not push it out.
-/

universe u

variable {α : Type u}

/-- Distinct entries, the one used last at the end. -/
structure Recent (α : Type u) where
  entries : List α
  nodup : entries.Nodup

namespace Recent

open List

instance : Membership α (Recent α) := ⟨fun r a => a ∈ r.entries⟩

theorem mem_def {r : Recent α} {a : α} : a ∈ r ↔ a ∈ r.entries := Iff.rfl

def empty : Recent α := ⟨[], nodup_nil⟩

variable [DecidableEq α] {r : Recent α} {capacity : ℕ} {history : List α} {a b : α}

instance (r : Recent α) (a : α) : Decidable (a ∈ r) := inferInstanceAs (Decidable (a ∈ r.entries))

omit [DecidableEq α] in
theorem nodup_snoc {l : List α} (hl : l.Nodup) (ha : a ∉ l) : (l ++ [a]).Nodup := by
  rw [← concat_eq_append, nodup_concat]
  exact ⟨ha, hl⟩

/-- A known entry is used again. -/
def touch (r : Recent α) (a : α) : Recent α :=
  ⟨r.entries.erase a ++ [a], nodup_snoc (r.nodup.erase a) r.nodup.not_mem_erase⟩

/-- A new entry is added, and those that are too many are forgotten. -/
def add (r : Recent α) (capacity : ℕ) (a : α) (h : a ∉ r) : Recent α :=
  ⟨(r.entries ++ [a]).drop ((r.entries ++ [a]).length - capacity), (nodup_snoc r.nodup h).sublist (drop_sublist _ _)⟩

/-- An entry is used: whether it is new, and the memory after it. -/
def remember (r : Recent α) (capacity : ℕ) (a : α) : Bool × Recent α :=
  if h : a ∈ r then (false, r.touch a) else (true, r.add capacity a h)

@[simp] theorem remember_fst (r : Recent α) (capacity : ℕ) (a : α) : (r.remember capacity a).1 = !decide (a ∈ r) := by
  unfold remember
  split_ifs with h <;> simp [h]

theorem mem_of_mem_remember (h : b ∈ (r.remember capacity a).2) : b ∈ r ∨ b = a := by
  unfold remember at h
  split_ifs at h
  · rcases mem_append.mp h with h | h
    · exact .inl (mem_of_mem_erase h)
    · exact .inr (mem_singleton.mp h)
  · rcases mem_append.mp (mem_of_mem_drop h) with h | h
    · exact .inl h
    · exact .inr (mem_singleton.mp h)

/-- What was remembered since an entry was; the history has the last one at its head. -/
def since (history : List α) (a : α) : List α := history.takeWhile (· ≠ a)

/-- An entry is in the memory with no newer ones than were remembered since, or too many were. -/
def Holds (r : Recent α) (capacity : ℕ) (history : List α) : Prop :=
  ∀ a ∈ history, (∃ older newer, r.entries = older ++ a :: newer ∧ newer ⊆ since history a) ∨
    capacity ≤ (since history a).dedup.length

theorem holds_empty (capacity : ℕ) : (empty : Recent α).Holds capacity [] :=
  fun _ ha => absurd ha not_mem_nil

theorem since_cons_of_ne {a b : α} (h : b ≠ a) (history : List α) :
    since (b :: history) a = b :: since history a := by simp [since, h]

theorem length_le_dedup {l l' : List α} (hl : l.Nodup) (hsub : l ⊆ l') : l.length ≤ l'.dedup.length :=
  hl.length_le_of_subset fun _ ha => mem_dedup.mpr (hsub ha)

section

variable (h : r.Holds capacity history)
include h

theorem holds_touch (b : α) : (r.touch b).Holds capacity (b :: history) := by
  intro a ha
  by_cases hab : b = a
  · subst hab
    exact .inl ⟨r.entries.erase b, [], rfl, nil_subset _⟩
  · rw [since_cons_of_ne hab]
    rcases h a ((mem_cons.mp ha).resolve_left (Ne.symm hab)) with ⟨older, newer, hentries, hnewer⟩ | hmany
    · left
      have hkeep {l : List α} (hl : l ⊆ newer) : l ++ [b] ⊆ b :: since history a := fun c hc => by
        rcases mem_append.mp hc with hc | hc
        · exact mem_cons_of_mem b (hnewer (hl hc))
        · exact mem_cons.mpr (.inl (mem_singleton.mp hc))
      unfold touch
      dsimp only
      rw [hentries, erase_append]
      split_ifs
      · exact ⟨older.erase b, newer ++ [b], by simp, hkeep (Subset.refl _)⟩
      · exact ⟨older, newer.erase b ++ [b], by simp [Ne.symm hab], hkeep (erase_subset)⟩
    · exact .inr (Nat.le_trans hmany (length_le_dedup (nodup_dedup _) fun c hc =>
        mem_cons_of_mem b (mem_dedup.mp hc)))

theorem holds_add (hcapacity : 0 < capacity) (hb : b ∉ r) :
    (r.add capacity b hb).Holds capacity (b :: history) := by
  intro a ha
  unfold add
  dsimp only
  by_cases hab : b = a
  · subst hab
    refine .inl ⟨r.entries.drop ((r.entries ++ [b]).length - capacity), [], ?_, nil_subset _⟩
    rw [drop_append_of_le_length]
    rw [length_append, length_singleton]
    omega
  · rw [since_cons_of_ne hab]
    rcases h a ((mem_cons.mp ha).resolve_left (Ne.symm hab)) with ⟨older, newer, hentries, hnewer⟩ | hmany
    · have hsub : newer ++ [b] ⊆ b :: since history a := fun c hc => by
        rcases mem_append.mp hc with hc | hc
        · exact mem_cons_of_mem b (hnewer hc)
        · exact mem_cons.mpr (.inl (mem_singleton.mp hc))
      have hnodup : (older ++ a :: (newer ++ [b])).Nodup := by
        have hsnoc := nodup_snoc r.nodup hb
        rw [hentries] at hsnoc
        simpa using hsnoc
      rw [hentries, show older ++ a :: newer ++ [b] = older ++ a :: (newer ++ [b]) by simp]
      rcases Nat.lt_or_ge older.length ((older ++ a :: (newer ++ [b])).length - capacity) with hdrops | hkeeps
      · -- the entry is pushed out by newer ones, all of them remembered since
        right
        have hnewer' : (newer ++ [b]).Nodup := hnodup.of_append_right.of_cons
        have hlength := length_le_dedup hnewer' hsub
        simp only [length_append, length_cons, length_nil] at hdrops hlength
        omega
      · exact .inl ⟨_, newer ++ [b], drop_append_of_le_length hkeeps, hsub⟩
    · exact .inr (Nat.le_trans hmany (length_le_dedup (nodup_dedup _) fun c hc =>
        mem_cons_of_mem b (mem_dedup.mp hc)))

theorem Holds.remember (hcapacity : 0 < capacity) (b : α) :
    (r.remember capacity b).2.Holds capacity (b :: history) := by
  unfold Recent.remember
  split_ifs with hb
  · exact holds_touch h b
  · exact holds_add h hcapacity hb

/-- **What was remembered stays** until as many other entries were as there is room for. -/
theorem Holds.mem_of_few (ha : a ∈ history) (hfew : (since history a).dedup.length < capacity) : a ∈ r := by
  rcases h a ha with ⟨older, newer, hentries, -⟩ | hmany
  · rw [mem_def, hentries]
    exact mem_append_right older mem_cons_self
  · exact absurd hfew (Nat.not_lt.mpr hmany)

end

end Recent
