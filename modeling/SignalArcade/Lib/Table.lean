import Mathlib.Data.Finset.Basic
import Mathlib.Algebra.BigOperators.Group.List.Basic

/-!
# Keyed tables

A table is a list of rows no two of which have the same key: a table of a database
with its primary key, or a dictionary whose values know their key. Writing a row
replaces the row of its key where it stands, or appends; that is `INSERT … ON
CONFLICT DO UPDATE`, and it is what assigning to a dictionary does to its order.
-/

/-- Rows with distinct keys. -/
structure Table (κ ρ : Type) (key : ρ → κ) where
  /-- The rows, oldest first. -/
  rows : List ρ
  nodup : (rows.map key).Nodup

namespace Table

open List

variable {κ ρ : Type} {key : ρ → κ}

instance : Membership ρ (Table κ ρ key) := ⟨fun t r => r ∈ t.rows⟩

variable {r : ρ} {t : Table κ ρ key} {rows : List ρ}

theorem mem_def : r ∈ t ↔ r ∈ t.rows := Iff.rfl

def empty : Table κ ρ key := ⟨[], nodup_nil⟩

@[simp] theorem not_mem_empty : r ∉ (empty : Table κ ρ key) := not_mem_nil

@[ext] theorem ext {t t' : Table κ ρ key} (h : t.rows = t'.rows) : t = t' := by
  cases t
  cases t'
  cases h
  rfl

theorem eq_of_key {r r' : ρ} (h : r ∈ t) (h' : r' ∈ t) (hk : key r = key r') : r = r' :=
  inj_on_of_nodup_map t.nodup h h' hk

variable [DecidableEq κ]

instance [DecidableEq ρ] : DecidableEq (Table κ ρ key) := fun t t' =>
  decidable_of_iff (t.rows = t'.rows) ⟨ext, fun h => h ▸ rfl⟩

/-- The row of a key. -/
def get? (t : Table κ ρ key) (k : κ) : Option ρ := t.rows.find? fun r => key r = k

/-- The row of a key is the one that has it. -/
theorem get?_eq_some {k : κ} : t.get? k = some r ↔ r ∈ t ∧ key r = k := by
  constructor
  · intro h
    exact ⟨mem_of_find?_eq_some h, by simpa using List.find?_some h⟩
  · rintro ⟨hr, rfl⟩
    cases hf : t.get? (key r) with
    | none => exact absurd (List.find?_eq_none.mp hf r hr) (by simp)
    | some r' =>
      have hk : key r' = key r := by simpa using List.find?_some hf
      rw [t.eq_of_key (mem_of_find?_eq_some hf) hr hk]

theorem get?_eq_none {k : κ} : t.get? k = none ↔ ∀ r ∈ t, key r ≠ k := by
  simp [get?, mem_def]

/-- The rows once `r` is written. -/
def upsertRows (key : ρ → κ) (r : ρ) : List ρ → List ρ
  | [] => [r]
  | r' :: rows => if key r' = key r then r :: rows else r' :: upsertRows key r rows

theorem map_key_upsertRows (r : ρ) (rows : List ρ) :
    (upsertRows key r rows).map key = if key r ∈ rows.map key then rows.map key else rows.map key ++ [key r] := by
  induction rows with
  | nil => rfl
  | cons r' rows ih =>
    by_cases h : key r' = key r
    · simp [upsertRows, h]
    · have h' : key r ≠ key r' := fun he => h he.symm
      rw [upsertRows, if_neg h, map_cons, ih]
      by_cases hm : key r ∈ rows.map key
      · simp [hm]
      · rw [if_neg hm, if_neg (by simpa [h'] using hm)]
        rfl

/-- Write a row. -/
def upsert (t : Table κ ρ key) (r : ρ) : Table κ ρ key where
  rows := upsertRows key r t.rows
  nodup := by
    rw [map_key_upsertRows]
    split_ifs with h
    · exact t.nodup
    · exact nodup_append.mpr ⟨t.nodup, nodup_singleton _, by
        rintro k hk k' hk' rfl
        exact h (mem_singleton.mp hk' ▸ hk)⟩

theorem mem_upsertRows {r r' : ρ} (hnodup : (rows.map key).Nodup) :
    r' ∈ upsertRows key r rows ↔ r' = r ∨ r' ∈ rows ∧ key r' ≠ key r := by
  induction rows with
  | nil => simp [upsertRows]
  | cons x rows ih =>
    rw [map_cons, nodup_cons] at hnodup
    by_cases hx : key x = key r
    · rw [upsertRows, if_pos hx, mem_cons, mem_cons]
      have hrest : r' ∈ rows → key r' ≠ key r := fun hr' he =>
        hnodup.1 (hx.trans he.symm ▸ mem_map_of_mem hr')
      constructor
      · rintro (h | h)
        · exact .inl h
        · exact .inr ⟨.inr h, hrest h⟩
      · rintro (h | ⟨rfl | h, hne⟩)
        · exact .inl h
        · exact absurd hx hne
        · exact .inr h
    · rw [upsertRows, if_neg hx, mem_cons, mem_cons, ih hnodup.2]
      constructor
      · rintro (rfl | h | ⟨h, hne⟩)
        · exact .inr ⟨.inl rfl, hx⟩
        · exact .inl h
        · exact .inr ⟨.inr h, hne⟩
      · rintro (h | ⟨rfl | h, hne⟩)
        · exact .inr (.inl h)
        · exact .inl rfl
        · exact .inr (.inr ⟨h, hne⟩)

/-- What is there after a row was put. -/
@[simp] theorem mem_upsert {r r' : ρ} :
    r' ∈ t.upsert r ↔ r' = r ∨ r' ∈ t ∧ key r' ≠ key r := mem_upsertRows t.nodup

theorem forall_mem_upsert {P : ρ → Prop} (hr : P r) (h : ∀ r' ∈ t, P r') :
    ∀ r' ∈ t.upsert r, P r' := by
  intro r' hr'
  rcases mem_upsert.mp hr' with rfl | ⟨hr', -⟩
  · exact hr
  · exact h r' hr'

theorem get?_upsert (t : Table κ ρ key) (r : ρ) (k : κ) :
    (t.upsert r).get? k = if k = key r then some r else t.get? k := by
  split_ifs with h
  · exact get?_eq_some.mpr ⟨mem_upsert.mpr (.inl rfl), h.symm⟩
  · cases hk : t.get? k with
    | none =>
      rw [get?_eq_none] at hk ⊢
      intro r' hr'
      rcases mem_upsert.mp hr' with rfl | ⟨hr', -⟩
      · exact fun he => h he.symm
      · exact hk r' hr'
    | some r' =>
      obtain ⟨hr', rfl⟩ := get?_eq_some.mp hk
      exact get?_eq_some.mpr ⟨mem_upsert.mpr (.inr ⟨hr', h⟩), rfl⟩

theorem upsertRows_fresh (h : ∀ r' ∈ rows, key r' ≠ key r) :
    upsertRows key r rows = rows ++ [r] := by
  induction rows with
  | nil => rfl
  | cons x rows ih =>
    rw [forall_mem_cons] at h
    rw [upsertRows, if_neg h.1, ih h.2, cons_append]

theorem rows_upsert_fresh (h : ∀ r' ∈ t, key r' ≠ key r) :
    (t.upsert r).rows = t.rows ++ [r] := upsertRows_fresh h

theorem map_upsert {β : Type} {f : ρ → β} {r r' : ρ} (h : r' ∈ t)
    (hk : key r' = key r) (hf : f r' = f r) : (t.upsert r).rows.map f = t.rows.map f := by
  obtain ⟨rows, hnodup⟩ := t
  show (upsertRows key r rows).map f = rows.map f
  rw [mem_def] at h
  induction rows with
  | nil => cases h
  | cons x rows ih =>
    rw [map_cons, nodup_cons] at hnodup
    by_cases hx : key x = key r
    · rw [upsertRows, if_pos hx, map_cons, map_cons]
      rcases mem_cons.mp h with rfl | h
      · rw [hf]
      · exact absurd (hx.trans hk.symm ▸ mem_map_of_mem h) hnodup.1
    · rw [upsertRows, if_neg hx, map_cons, map_cons]
      rcases mem_cons.mp h with rfl | h
      · exact absurd hk hx
      · rw [ih hnodup.2 h]

theorem upsert_of_get? (h : t.get? (key r) = some r) : t.upsert r = t := by
  have hrows : (t.upsert r).rows.map id = t.rows.map id := map_upsert (get?_eq_some.mp h).1 rfl rfl
  exact ext (by simpa using hrows)

/-- Delete the row of a key. -/
def erase (t : Table κ ρ key) (k : κ) : Table κ ρ key where
  rows := t.rows.filter fun r => key r ≠ k
  nodup := t.nodup.sublist (filter_sublist.map _)

@[simp] theorem mem_erase {k : κ} : r ∈ t.erase k ↔ r ∈ t ∧ key r ≠ k := by
  simp [erase, mem_def]

theorem get?_erase (t : Table κ ρ key) (k' k : κ) :
    (t.erase k').get? k = if k = k' then none else t.get? k := by
  split_ifs with h
  · exact get?_eq_none.mpr fun r hr he => (mem_erase.mp hr).2 (he.trans h)
  · cases hk : t.get? k with
    | none =>
      rw [get?_eq_none] at hk ⊢
      exact fun r hr => hk r (mem_erase.mp hr).1
    | some r =>
      obtain ⟨hr, rfl⟩ := get?_eq_some.mp hk
      exact get?_eq_some.mpr ⟨mem_erase.mpr ⟨hr, h⟩, rfl⟩

omit [DecidableEq κ] in
/-- Change the rows, but not their keys. -/
def map (t : Table κ ρ key) (f : ρ → ρ) (h : ∀ r, key (f r) = key r) : Table κ ρ key where
  rows := t.rows.map f
  nodup := by
    have hcomp : key ∘ f = key := funext h
    rw [map_map, hcomp]
    exact t.nodup

theorem get?_map (t : Table κ ρ key) {f : ρ → ρ} (h : ∀ r, key (f r) = key r) (k : κ) :
    (t.map f h).get? k = (t.get? k).map f := by
  show (t.rows.map f).find? _ = (t.rows.find? _).map f
  have hcomp : (fun r => decide (key r = k)) ∘ f = fun r => decide (key r = k) := by
    funext r
    simp [h]
  rw [List.find?_map, hcomp]

/-- Delete the oldest rows, as long as `p` holds of them. -/
def dropWhile (t : Table κ ρ key) (p : ρ → Bool) : Table κ ρ key where
  rows := t.rows.dropWhile p
  nodup := t.nodup.sublist ((dropWhile_sublist p).map _)

omit [DecidableEq κ] in
theorem mem_of_mem_dropWhile {p : ρ → Bool} (h : r ∈ t.dropWhile p) : r ∈ t :=
  (dropWhile_sublist p).subset h

omit [DecidableEq κ] in
/-- A row is one of the first of which `p` holds, or it stays. -/
theorem mem_takeWhile_or (h : r ∈ t) (p : ρ → Bool) :
    r ∈ t.rows.takeWhile p ∨ r ∈ t.dropWhile p :=
  mem_append.mp ((takeWhile_append_dropWhile (p := p) (l := t.rows)).symm ▸ h)

theorem filter_upsertRows (rows : List ρ) :
    (upsertRows key r rows).filter (fun r' => key r' ≠ key r) = rows.filter fun r' => key r' ≠ key r := by
  induction rows with
  | nil => simp [upsertRows]
  | cons x rows ih =>
    by_cases hx : key x = key r
    · simp [upsertRows, hx]
    · rw [upsertRows, if_neg hx, filter_cons, filter_cons, ih]

theorem erase_upsert (t : Table κ ρ key) (r : ρ) : (t.upsert r).erase (key r) = t.erase (key r) :=
  ext (filter_upsertRows t.rows)

theorem sum_erase {β : Type} [AddCommMonoid β] {f : ρ → β} (h : r ∈ t) :
    f r + ((t.erase (key r)).rows.map f).sum = (t.rows.map f).sum := by
  obtain ⟨rows, hnodup⟩ := t
  show f r + ((rows.filter fun r' => key r' ≠ key r).map f).sum = (rows.map f).sum
  rw [mem_def] at h
  induction rows with
  | nil => cases h
  | cons x rows ih =>
    rw [map_cons, nodup_cons] at hnodup
    by_cases hx : key x = key r
    · obtain rfl : x = r := by
        rcases mem_cons.mp h with rfl | h
        · rfl
        · exact absurd (hx ▸ mem_map_of_mem h) hnodup.1
      rw [filter_cons_of_neg (by simp), map_cons, sum_cons,
        filter_eq_self.mpr fun r' hr' => ?_]
      have hne : key r' ≠ key x := fun he => hnodup.1 (he ▸ mem_map_of_mem hr')
      simpa using hne
    · have h' : r ∈ rows := by
        rcases mem_cons.mp h with rfl | h
        · exact absurd rfl hx
        · exact h
      rw [filter_cons_of_pos (by simpa using hx), map_cons, map_cons, sum_cons,
        sum_cons, add_left_comm, ih hnodup.2 h']

/-- Insert a row, unless its key is taken. -/
def insert? (t : Table κ ρ key) (r : ρ) : Option (Table κ ρ key) :=
  if h : key r ∈ t.rows.map key then none
  else some ⟨t.rows ++ [r], by
    rw [map_append]
    exact nodup_append.mpr ⟨t.nodup, nodup_singleton _, by
      rintro k hk k' hk' rfl
      exact h (mem_singleton.mp hk' ▸ hk)⟩⟩

theorem insert?_eq_some {t t' : Table κ ρ key} (h : t.insert? r = some t') :
    (∀ r' ∈ t, key r' ≠ key r) ∧ t'.rows = t.rows ++ [r] := by
  unfold insert? at h
  split_ifs at h with hk
  rw [Option.some_inj] at h
  refine ⟨fun r' hr' he => hk (he ▸ mem_map_of_mem hr'), ?_⟩
  rw [← h]

theorem insert?_eq_upsert {t t' : Table κ ρ key} (h : t.insert? r = some t') :
    (∀ r' ∈ t, key r' ≠ key r) ∧ t' = t.upsert r := by
  obtain ⟨hfresh, hrows⟩ := insert?_eq_some h
  exact ⟨hfresh, ext (hrows.trans (rows_upsert_fresh hfresh).symm)⟩

/-- The table of a list of rows; a later row replaces an earlier one of its key. -/
def ofRows (rows : List ρ) : Table κ ρ key := rows.foldl upsert empty

theorem rows_ofRows (hnodup : (rows.map key).Nodup) :
    (ofRows rows : Table κ ρ key).rows = rows := by
  suffices ∀ (rows : List ρ) (t : Table κ ρ key), ((t.rows ++ rows).map key).Nodup →
      (rows.foldl upsert t).rows = t.rows ++ rows from this rows empty hnodup
  intro rows
  induction rows with
  | nil => exact fun t _ => (append_nil _).symm
  | cons x rows ih =>
    intro t hn
    have hfresh : ∀ r ∈ t, key r ≠ key x := by
      rw [map_append, nodup_append] at hn
      exact fun r hr => hn.2.2 _ (mem_map_of_mem hr) _ (by simp)
    have hrows := rows_upsert_fresh hfresh
    rw [foldl_cons, ih _ (by rw [hrows]; simpa using hn), hrows]
    simp

theorem mem_ofRows (hnodup : (rows.map key).Nodup) :
    r ∈ (ofRows rows : Table κ ρ key) ↔ r ∈ rows := by
  rw [mem_def, rows_ofRows hnodup]

theorem mem_foldl_upsert (h : r ∈ rows.foldl upsert t) :
    r ∈ t ∨ r ∈ rows := by
  induction rows generalizing t with
  | nil => exact .inl h
  | cons row rows ih =>
    rcases ih h with h | h
    · rcases mem_upsert.mp h with rfl | ⟨h, -⟩
      · exact .inr (mem_cons_self ..)
      · exact .inl h
    · exact .inr (mem_cons_of_mem _ h)

theorem mem_of_mem_ofRows (h : r ∈ (ofRows rows : Table κ ρ key)) : r ∈ rows :=
  (mem_foldl_upsert h).resolve_left not_mem_empty

theorem exists_get?_foldl_upsert {k : κ}
    (h : (∃ r, t.get? k = some r) ∨ ∃ r ∈ rows, key r = k) : ∃ r, (rows.foldl upsert t).get? k = some r := by
  induction rows generalizing t with
  | nil => exact h.resolve_right fun ⟨r, hr, _⟩ => absurd hr not_mem_nil
  | cons row rows ih =>
    refine ih ?_
    by_cases hk : k = key row
    · exact .inl ⟨row, by rw [get?_upsert, if_pos hk]⟩
    · rcases h with ⟨r, hr⟩ | ⟨r, hr, he⟩
      · exact .inl ⟨r, by rw [get?_upsert, if_neg hk, hr]⟩
      · rcases mem_cons.mp hr with rfl | hr
        · exact absurd he.symm hk
        · exact .inr ⟨r, hr, he⟩

theorem exists_get?_ofRows (h : r ∈ rows) :
    ∃ r', (ofRows rows : Table κ ρ key).get? (key r) = some r' :=
  exists_get?_foldl_upsert (.inr ⟨r, h, rfl⟩)

theorem get?_foldl_upsert_of_not_mem {k : κ} (h : ∀ r ∈ rows, key r ≠ k) :
    (rows.foldl upsert t).get? k = t.get? k := by
  induction rows generalizing t with
  | nil => rfl
  | cons row rows ih =>
    rw [foldl_cons, ih fun r hr => h r (mem_cons_of_mem _ hr), get?_upsert]
    exact if_neg fun hk => h row mem_cons_self hk.symm

theorem get?_foldl_upsert_of_mem (hnodup : (rows.map key).Nodup)
    (h : r ∈ rows) : (rows.foldl upsert t).get? (key r) = some r := by
  induction rows generalizing t with
  | nil => cases h
  | cons row rows ih =>
    rw [map_cons, nodup_cons] at hnodup
    rw [foldl_cons]
    rcases mem_cons.mp h with rfl | h
    · rw [get?_foldl_upsert_of_not_mem, get?_upsert, if_pos rfl]
      intro other hother hk
      exact hnodup.1 (hk ▸ mem_map_of_mem hother)
    · exact ih hnodup.2 h

def update (t changed : Table κ ρ key) : Table κ ρ key := changed.rows.foldl upsert t

theorem get?_update (t changed : Table κ ρ key) (k : κ) : (t.update changed).get? k = (changed.get? k <|> t.get? k) := by
  unfold update
  cases hchanged : changed.get? k with
  | none =>
    rw [get?_eq_none] at hchanged
    rw [get?_foldl_upsert_of_not_mem hchanged]
    rfl
  | some r =>
    obtain ⟨hmem, rfl⟩ := get?_eq_some.mp hchanged
    rw [get?_foldl_upsert_of_mem changed.nodup hmem]
    rfl

/-- The rows that satisfy a condition. -/
def filter (t : Table κ ρ key) (p : ρ → Bool) : Table κ ρ key where
  rows := t.rows.filter p
  nodup := t.nodup.sublist (filter_sublist.map key)

omit [DecidableEq κ] in
theorem mem_filter {p : ρ → Bool} : r ∈ t.filter p ↔ r ∈ t ∧ p r = true := List.mem_filter

theorem get?_filter (t : Table κ ρ key) (p : ρ → Bool) (k : κ) : (t.filter p).get? k = (t.get? k).filter p := by
  rw [Option.ext_iff]
  intro r
  rw [Option.filter_eq_some_iff, get?_eq_some, get?_eq_some, mem_filter]
  exact and_right_comm

end Table
