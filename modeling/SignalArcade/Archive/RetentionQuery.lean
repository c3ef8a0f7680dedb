import SignalArcade.Lib.Ranks
import SignalArcade.Paper.Models
import Mathlib.Data.Prod.Lex
import Mathlib.Data.String.Basic

/-!
# The deletes of the storage budget

`enforce_storage_budget` deletes the oldest rows of a category, trades or decisions that are no ENTER, in chunks, and
keeps the newest ones. Where the rows to keep begin is found in two stages, by the place of its time and by the place
among the identifiers of that time. A comparison with a row that is not there is NULL, which deletes nothing.
-/

namespace SignalArcade.StorageBudget

open Paper (EventKind DecisionAction)
open Ranks List

/-! ### Categories -/

/-- A row of `market_events`. -/
structure MarketEvent where
  eventId : String
  kind : EventKind
  receivedAt : String

/-- A row of `decisions`. -/
structure Decision where
  decisionId : String
  action : DecisionAction
  createdAt : String

/-- `timestamp`, `identifier` and `predicate`, which a query is made of. -/
structure Category (ρ τ ι : Type) where
  timestamp : ρ → τ
  identifier : ρ → ι
  predicate : ρ → Bool

def rawTrades : Category MarketEvent String String where
  timestamp := MarketEvent.receivedAt
  identifier := MarketEvent.eventId
  predicate event := event.kind = .trade

def nonEntryDecisions : Category Decision String String where
  timestamp := Decision.createdAt
  identifier := Decision.decisionId
  predicate decision := decision.action ≠ .enter

namespace Category

variable {ρ τ ι : Type} [LinearOrder τ] [LinearOrder ι] (c : Category ρ τ ι) (rows : List ρ)

/-- The order of deletion: oldest first. -/
def key (row : ρ) : τ ×ₗ ι := toLex (c.timestamp row, c.identifier row)

/-- The rows that the predicate picks. -/
def matching : List ρ := rows.filter c.predicate

/-! ### The query -/

def boundaryTime (preserved : ℕ) : Option τ := (descending ((c.matching rows).map c.timestamp))[preserved - 1]?

/-- `COUNT(*)`, of the rows above a time. -/
def countAbove (stamp : τ) : ℕ := (c.matching rows).countP (stamp < c.timestamp ·)

/-- `boundary`. An offset below zero is none. -/
def boundary (preserved : ℕ) : Option ι :=
  match c.boundaryTime rows preserved with
  | none => none
  | some stamp =>
    (descending (((c.matching rows).filter (c.timestamp · = stamp)).map c.identifier))[
      ((preserved : ℤ) - 1 - c.countAbove rows stamp).toNat]?

/-- Whether a row is below the boundary. -/
def isOld (preserved : ℕ) (row : ρ) : Bool :=
  match c.boundaryTime rows preserved with
  | none => false
  | some stamp =>
    c.timestamp row ≤ stamp ∧ (c.timestamp row < stamp ∨ (c.boundary rows preserved).any (c.identifier row < ·))

/-- The identifiers that the query selects. -/
def selected (preserved limit : ℕ) : List ι :=
  let candidates := if preserved = 0 then c.matching rows else (c.matching rows).filter (c.isOld rows preserved)
  (((candidates.map c.key).insertionSort (· ≤ ·)).take limit).map fun key => (ofLex key).2

/-- The delete, and how many rows it removed. -/
def delete (table : Table ι ρ c.identifier) (preserved limit : ℕ) : Table ι ρ c.identifier where
  rows := table.rows.filter fun row => c.identifier row ∉ c.selected table.rows preserved limit
  nodup := table.nodup.sublist (filter_sublist.map _)

/-! ### The plain comparison -/

/-- The row that the newest ones end with, by time and identifier. -/
def plainBoundary (preserved : ℕ) : Option (τ ×ₗ ι) :=
  (descending ((c.matching rows).map c.key))[preserved - 1]?

/-- `(timestamp, identifier) < (SELECT timestamp, identifier … OFFSET ?)`. -/
def isBelow (preserved : ℕ) (row : ρ) : Bool := (c.plainBoundary rows preserved).any (c.key row < ·)

variable {c rows} {preserved : ℕ}

theorem key_lt_key_iff {row row' : ρ} : c.key row < c.key row' ↔
    c.timestamp row < c.timestamp row' ∨ c.timestamp row = c.timestamp row' ∧ c.identifier row < c.identifier row' :=
  Prod.Lex.toLex_lt_toLex

omit [LinearOrder τ] [LinearOrder ι] in
theorem mem_matching {row : ρ} : row ∈ c.matching rows ↔ row ∈ rows ∧ c.predicate row := mem_filter

theorem countP_key_lt (row : ρ) : (c.matching rows).countP (c.key row < c.key ·) =
    c.countAbove rows (c.timestamp row) +
      (((c.matching rows).filter (c.timestamp · = c.timestamp row)).map c.identifier).countP (c.identifier row < ·) := by
  rw [countAbove, countP_map, countP_filter]
  simp only [key_lt_key_iff, Function.comp]
  induction c.matching rows with
  | nil => rfl
  | cons row' rows ih =>
    rw [countP_cons, countP_cons, countP_cons, ih]
    rcases lt_trichotomy (c.timestamp row) (c.timestamp row') with h | h | h
    · simp only [h, h.ne', true_or, decide_true, decide_false, Bool.and_false, if_true, Bool.false_eq_true, if_false]
      omega
    · rw [← h]
      simp only [lt_irrefl, false_or, true_and, decide_true, decide_false, Bool.and_true, Bool.false_eq_true, if_false]
      omega
    · simp only [h.not_gt, h.ne, h.ne', false_or, false_and, decide_false, Bool.and_false, Bool.false_eq_true, if_false]
      omega

theorem isBelow_iff (hpreserved : 0 < preserved) (row : ρ) :
    c.isBelow rows preserved row ↔ preserved ≤ (c.matching rows).countP (c.key row < c.key ·) := by
  rw [isBelow]
  cases hplain : c.plainBoundary rows preserved with
  | none =>
    have hlength : ((c.matching rows).map c.key).length ≤ preserved - 1 := by
      by_contra hmany
      obtain ⟨bound, hbound⟩ := exists_getElem?_descending (Nat.lt_of_not_le hmany)
      rw [plainBoundary, hbound] at hplain
      cases hplain
    rw [length_map] at hlength
    have hcount := countP_le_length (p := (c.key row < c.key ·)) (l := c.matching rows)
    refine iff_of_false (by simp) ?_
    omega
  | some bound =>
    obtain ⟨-, habove, hfrom⟩ := getElem?_descending hplain
    rw [countP_map] at habove hfrom
    rw [Option.any_some, decide_eq_true_eq]
    constructor
    · intro hlt
      have hmono : (c.matching rows).countP ((bound ≤ ·) ∘ c.key) ≤ (c.matching rows).countP (c.key row < c.key ·) :=
        countP_mono_left fun other _ hle => by
          simp only [Function.comp, decide_eq_true_eq] at hle ⊢
          exact hlt.trans_le hle
      omega
    · intro hmany
      by_contra hle
      have hmono : (c.matching rows).countP (c.key row < c.key ·) ≤ (c.matching rows).countP ((bound < ·) ∘ c.key) :=
        countP_mono_left fun other _ hlt => by
          simp only [Function.comp, decide_eq_true_eq] at hlt ⊢
          exact (not_lt.mp hle).trans_lt hlt
      omega

theorem countP_candidates {row : ρ} (hmany : preserved ≤ (c.matching rows).countP (c.key row < c.key ·)) :
    ((c.matching rows).filter fun row => preserved ≤ (c.matching rows).countP (c.key row < c.key ·)).countP
        (c.key · < c.key row) = (c.matching rows).countP (c.key · < c.key row) := by
  rw [countP_filter]
  refine countP_congr fun older _ => ?_
  rw [Bool.and_eq_true, decide_eq_true_eq, decide_eq_true_eq, and_iff_left_iff_imp]
  intro hlt
  refine hmany.trans (countP_mono_left fun newer _ hnewer => ?_)
  rw [decide_eq_true_eq] at hnewer ⊢
  exact hlt.trans hnewer

section Distinct

variable (hnodup : (rows.map c.identifier).Nodup)

include hnodup

omit [LinearOrder τ] [LinearOrder ι] in
theorem nodup_identifiers (p : ρ → Bool) : (((c.matching rows).filter p).map c.identifier).Nodup :=
  hnodup.sublist ((filter_sublist.trans filter_sublist).map _)

omit [LinearOrder τ] [LinearOrder ι] in
theorem nodup_keys (p : ρ → Bool) : (((c.matching rows).filter p).map c.key).Nodup := by
  have h := nodup_identifiers hnodup p
  have hmap : ((c.matching rows).filter p).map c.identifier =
      (((c.matching rows).filter p).map c.key).map fun key => (ofLex key).2 := by
    rw [map_map]
    rfl
  rw [hmap] at h
  exact h.of_map

omit [LinearOrder τ] [LinearOrder ι] in
theorem nodup_matching_keys : ((c.matching rows).map c.key).Nodup := by
  simpa using nodup_keys hnodup fun _ => true

/-- **The two stages** find the row by time and identifier. -/
theorem boundary_two_stages (hpreserved : 0 < preserved) :
    (c.boundaryTime rows preserved = none ∧ c.plainBoundary rows preserved = none) ∨
      ∃ stamp identifier, c.boundaryTime rows preserved = some stamp ∧ c.boundary rows preserved = some identifier ∧
        c.plainBoundary rows preserved = some (toLex (stamp, identifier)) := by
  by_cases hmany : preserved - 1 < (c.matching rows).length
  · obtain ⟨stamp, hstamp⟩ := exists_getElem?_descending (l := (c.matching rows).map c.timestamp) (by simpa using hmany)
    obtain ⟨-, habove, hfrom⟩ := getElem?_descending hstamp
    rw [countP_map] at habove
    rw [countP_le_eq, countP_map, count_eq_countP, countP_map] at hfrom
    have hties : (((c.matching rows).filter (c.timestamp · = stamp)).map c.identifier).length =
        (c.matching rows).countP ((· == stamp) ∘ c.timestamp) := by
      rw [length_map, ← countP_eq_length_filter]
      exact countP_congr fun row _ => by simp
    have habove' : c.countAbove rows stamp ≤ preserved - 1 := habove
    -- the place among the rows of that time is one that there is
    have hplace : ((preserved : ℤ) - 1 - c.countAbove rows stamp).toNat <
        (((c.matching rows).filter (c.timestamp · = stamp)).map c.identifier).length := by
      have hfrom' : preserved - 1 < c.countAbove rows stamp + (c.matching rows).countP ((· == stamp) ∘ c.timestamp) := hfrom
      omega
    obtain ⟨identifier, hidentifier⟩ := exists_getElem?_descending hplace
    have hcount := countP_of_getElem?_descending (nodup_identifiers hnodup _) hidentifier
    have hboundary : c.boundary rows preserved = some identifier := by
      rw [boundary, boundaryTime, hstamp]
      exact hidentifier
    obtain ⟨row, hrow, rfl⟩ := mem_map.mp (getElem?_descending hidentifier).1
    obtain ⟨hmatching, htime⟩ := mem_filter.mp hrow
    obtain rfl : c.timestamp row = stamp := by simpa using htime
    have hkey : (c.matching rows).countP (c.key row < c.key ·) = preserved - 1 := by
      rw [countP_key_lt, hcount]
      omega
    refine .inr ⟨_, _, hstamp, hboundary, ?_⟩
    refine getElem?_descending_of_countP (nodup_matching_keys hnodup) (mem_map_of_mem hmatching) ?_
    rw [countP_map]
    exact hkey
  · have hnone : (c.matching rows).length ≤ preserved - 1 := Nat.le_of_not_lt hmany
    exact .inl ⟨getElem?_descending_eq_none (by simpa using hnone), getElem?_descending_eq_none (by simpa using hnone)⟩

/-- **The two comparisons** agree. -/
theorem isOld_eq_isBelow (hpreserved : 0 < preserved) (row : ρ) :
    c.isOld rows preserved row = c.isBelow rows preserved row := by
  rw [isOld, isBelow]
  obtain ⟨htime, hplain⟩ | ⟨stamp, identifier, htime, hboundary, hplain⟩ := boundary_two_stages hnodup hpreserved
  · rw [htime, hplain]
    rfl
  · rw [htime, hboundary, hplain, Bool.eq_iff_iff]
    simp only [Option.any_some, decide_eq_true_eq]
    rw [key, Prod.Lex.toLex_lt_toLex]
    constructor
    · rintro ⟨hle, hlt | hlt⟩
      · exact .inl hlt
      · rcases hle.lt_or_eq with hless | heq
        · exact .inl hless
        · exact .inr ⟨heq, hlt⟩
    · rintro (hlt | ⟨heq, hlt⟩)
      · exact ⟨hlt.le, .inl hlt⟩
      · exact ⟨heq.le, .inr hlt⟩

/-! ### What is selected -/

theorem candidates_eq (preserved : ℕ) :
    (if preserved = 0 then c.matching rows else (c.matching rows).filter (c.isOld rows preserved)) =
      (c.matching rows).filter fun row => preserved ≤ (c.matching rows).countP (c.key row < c.key ·) := by
  by_cases hzero : preserved = 0
  · simp [hzero]
  · rw [if_neg hzero]
    refine filter_congr fun row _ => ?_
    rw [isOld_eq_isBelow hnodup (Nat.pos_of_ne_zero hzero), Bool.eq_iff_iff, isBelow_iff (Nat.pos_of_ne_zero hzero),
      decide_eq_true_eq]

/-- **What is selected**: the smallest rows of those with as many newer rows as are kept. -/
theorem mem_selected {limit : ℕ} {identifier : ι} : identifier ∈ c.selected rows preserved limit ↔
    ∃ row ∈ c.matching rows, c.identifier row = identifier ∧
      preserved ≤ (c.matching rows).countP (c.key row < c.key ·) ∧
      (c.matching rows).countP (c.key · < c.key row) < limit := by
  rw [selected, candidates_eq hnodup]
  constructor
  · intro hmem
    obtain ⟨key, hkey, rfl⟩ := mem_map.mp hmem
    obtain ⟨hcandidate, hfew⟩ := (mem_take_insertionSort (nodup_keys hnodup _)).mp hkey
    obtain ⟨row, hrow, rfl⟩ := mem_map.mp hcandidate
    obtain ⟨hmatching, hmany⟩ := mem_filter.mp hrow
    rw [decide_eq_true_eq] at hmany
    rw [countP_map] at hfew
    exact ⟨row, hmatching, rfl, hmany, (countP_candidates hmany).symm.trans_lt hfew⟩
  · rintro ⟨row, hmatching, rfl, hmany, hfew⟩
    refine mem_map.mpr ⟨c.key row, (mem_take_insertionSort (nodup_keys hnodup _)).mpr ⟨?_, ?_⟩, rfl⟩
    · exact mem_map_of_mem (mem_filter.mpr ⟨hmatching, decide_eq_true hmany⟩)
    · rw [countP_map]
      exact (countP_candidates hmany).trans_lt hfew

theorem length_selected (limit : ℕ) :
    (c.selected rows preserved limit).length = min limit ((c.matching rows).length - preserved) := by
  have hcandidates : ((c.matching rows).filter fun row =>
      preserved ≤ (c.matching rows).countP (c.key row < c.key ·)).length = (c.matching rows).length - preserved := by
    have h := length_filter_countP (nodup_matching_keys hnodup) preserved
    rw [filter_map, length_map, length_map] at h
    rw [← h]
    simp only [countP_map]
    rfl
  rw [selected, candidates_eq hnodup, length_map, length_take, length_insertionSort, length_map,
    hcandidates]

theorem countP_newest (hmany : preserved ≤ (c.matching rows).length) :
    (c.matching rows).countP (fun row => (c.matching rows).countP (c.key row < c.key ·) < preserved) = preserved := by
  have h := length_filter_countP (nodup_matching_keys hnodup) preserved
  rw [← countP_eq_length_filter, countP_map, length_map] at h
  have hsplit := length_eq_countP_add_countP
    (fun row => decide (preserved ≤ (c.matching rows).countP (c.key row < c.key ·))) (l := c.matching rows)
  have hold : (c.matching rows).countP (fun row => decide (preserved ≤ (c.matching rows).countP (c.key row < c.key ·))) =
      (c.matching rows).length - preserved := by
    rw [← h]
    refine countP_congr fun row _ => ?_
    simp only [Function.comp, countP_map]
    rfl
  have hnew : (c.matching rows).countP
      (fun row => ¬ decide (preserved ≤ (c.matching rows).countP (c.key row < c.key ·)) = true) =
      (c.matching rows).countP (fun row => (c.matching rows).countP (c.key row < c.key ·) < preserved) :=
    countP_congr fun row _ => by simp
  rw [hold, hnew] at hsplit
  omega

end Distinct

/-! ### What the delete leaves -/

variable {table : Table ι ρ c.identifier} {limit : ℕ}

/-- **A delete** removes the rows of the category with as many newer rows as are kept and fewer older ones than its
limit. -/
theorem mem_delete {row : ρ} : row ∈ c.delete table preserved limit ↔ row ∈ table ∧
    ¬ (c.predicate row ∧ preserved ≤ (c.matching table.rows).countP (c.key row < c.key ·) ∧
      (c.matching table.rows).countP (c.key · < c.key row) < limit) := by
  rw [Table.mem_def, Table.mem_def, delete, mem_filter, decide_eq_true_eq]
  refine and_congr_right fun hrow => not_congr ?_
  rw [mem_selected table.nodup]
  constructor
  · rintro ⟨row', hmatching, hid, hmany, hfew⟩
    obtain ⟨hrow', hpredicate⟩ := mem_matching.mp hmatching
    obtain rfl := table.eq_of_key hrow' hrow hid
    exact ⟨hpredicate, hmany, hfew⟩
  · rintro ⟨hpredicate, hmany, hfew⟩
    exact ⟨row, mem_matching.mpr ⟨hrow, hpredicate⟩, rfl, hmany, hfew⟩

/-- `rowcount`: as many rows are removed as there are to remove, up to the limit. -/
theorem length_delete : table.rows.length - (c.delete table preserved limit).rows.length =
    min limit ((c.matching table.rows).length - preserved) := by
  have hselected : (c.selected table.rows preserved limit).Nodup := by
    have hids := nodup_identifiers table.nodup fun row =>
      decide (preserved ≤ (c.matching table.rows).countP (c.key row < c.key ·))
    rw [selected, candidates_eq table.nodup]
    refine Nodup.sublist ((take_sublist _ _).map _) ?_
    rw [((perm_insertionSort (· ≤ ·) _).map _).nodup_iff, map_map]
    exact hids
  have hperm : ((table.rows.filter fun row => c.identifier row ∈ c.selected table.rows preserved limit).map
      c.identifier).Perm (c.selected table.rows preserved limit) := by
    refine (perm_ext_iff_of_nodup (table.nodup.sublist (filter_sublist.map _)) hselected).mpr fun identifier => ?_
    constructor
    · intro hmem
      obtain ⟨row, hrow, rfl⟩ := mem_map.mp hmem
      simpa using (mem_filter.mp hrow).2
    · intro hmem
      obtain ⟨row, hmatching, rfl, -⟩ := (mem_selected table.nodup).mp hmem
      exact mem_map_of_mem (mem_filter.mpr ⟨(mem_matching.mp hmatching).1, by simpa using hmem⟩)
  have hremoved := hperm.length_eq
  rw [length_map, length_selected table.nodup, ← countP_eq_length_filter] at hremoved
  have hsplit := length_eq_countP_add_countP
    (fun row => decide (c.identifier row ∈ c.selected table.rows preserved limit)) (l := table.rows)
  have hkept : (c.delete table preserved limit).rows.length = table.rows.countP
      (fun row => ¬ decide (c.identifier row ∈ c.selected table.rows preserved limit) = true) := by
    rw [countP_eq_length_filter, delete]
    simp
  omega

theorem delete_keeps {kept : ℕ} (hkept : kept ≤ preserved) (bound : τ ×ₗ ι)
    (hmany : kept ≤ (c.matching table.rows).countP (bound < c.key ·)) :
    kept ≤ (c.matching (c.delete table preserved limit).rows).countP (bound < c.key ·) := by
  have hmatching : (c.matching (c.delete table preserved limit).rows).countP (bound < c.key ·) =
      (c.matching table.rows).countP fun row =>
        bound < c.key row ∧ c.identifier row ∉ c.selected table.rows preserved limit := by
    rw [matching, matching, delete, filter_filter, countP_filter, countP_filter]
    refine countP_congr fun row _ => ?_
    simp only [Bool.and_eq_true, decide_eq_true_eq]
    tauto
  rw [hmatching]
  by_cases hremoved : ∃ row ∈ c.matching table.rows, bound < c.key row ∧
      c.identifier row ∈ c.selected table.rows preserved limit
  · -- a row above the bound is removed: all of the newest are above it, and stay
    obtain ⟨row, hrow, hbound, hselected⟩ := hremoved
    obtain ⟨row', hrow', hid, hnewer, -⟩ := (mem_selected table.nodup).mp hselected
    obtain rfl := table.eq_of_key (mem_matching.mp hrow').1 (mem_matching.mp hrow).1 hid
    rw [← countP_newest table.nodup (hnewer.trans countP_le_length)] at hkept
    refine hkept.trans (countP_mono_left fun newest hnewest hfew => ?_)
    rw [decide_eq_true_eq] at hfew ⊢
    constructor
    · by_contra hle
      have hmono : (c.matching table.rows).countP (c.key row' < c.key ·) ≤
          (c.matching table.rows).countP (c.key newest < c.key ·) :=
        countP_mono_left fun other _ hlt => by
          rw [decide_eq_true_eq] at hlt ⊢
          exact ((not_lt.mp hle).trans hbound.le).trans_lt hlt
      omega
    · intro hremoved
      obtain ⟨other, hother, hid, hmany', -⟩ := (mem_selected table.nodup).mp hremoved
      obtain rfl := table.eq_of_key (mem_matching.mp hother).1 (mem_matching.mp hnewest).1 hid
      omega
  · refine hmany.trans (countP_mono_left fun row hrow hbound => ?_)
    rw [decide_eq_true_eq] at hbound ⊢
    exact ⟨hbound, fun hselected => hremoved ⟨row, hrow, hbound, hselected⟩⟩

end Category

end SignalArcade.StorageBudget
