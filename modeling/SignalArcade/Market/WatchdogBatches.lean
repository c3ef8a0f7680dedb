import Mathlib.Algebra.Order.Ring.Int
import SignalArcade.Lib.Packing

/-!
# The batches of the position watchdog

`_position_watchdog_batches` packs the positions that are looked at into requests for accounts, none of which may ask for
more than a hundred. The accounts of a position are asked for together. Positions may share accounts, so the size of a
batch is that of the distinct addresses of its targets.
-/

namespace SignalArcade.Market.Watchdog

open Packing List

/-- A target. An address that is empty is not known. -/
structure Target where
  positionId : String
  mint : String
  venue : String
  curveAddress : String := ""
  poolAddress : String := ""
  poolBaseTokenAccount : String := ""
  poolQuoteTokenAccount : String := ""
  validationAddresses : List String := []
  minimumSlot : ℤ := 0

/-- `target_addresses`. -/
def Target.addresses (target : Target) : List String :=
  (if target.venue = "pump_curve" then [target.curveAddress]
    else [target.poolAddress, target.poolBaseTokenAccount, target.poolQuoteTokenAccount]).filter (· ≠ "") ++
    target.validationAddresses

/-- `target_minimum_slot`. -/
def Target.clampedSlot (target : Target) : ℤ := max 0 target.minimumSlot

/-- The targets that one request asks for. -/
structure Batch where
  targets : List Target
  addresses : List String
  minimumSlot : ℤ

/-- `_SOLANA_MULTIPLE_ACCOUNTS_LIMIT`. -/
def multipleAccountsLimit : ℕ := 100

/-- `dict.fromkeys`. -/
def distinct (addresses : List String) : List String := addKeys [] addresses

/-- The batches that are closed, and the one at hand. -/
structure Batching where
  batches : List Batch := []
  targets : List Target := []
  addresses : List String := []
  minimumSlot : Option ℤ := none

namespace Batching

def close (b : Batching) : Batching where
  batches := b.batches ++ [⟨b.targets, b.addresses, b.minimumSlot.getD 0⟩]

/-- A target joins the batch at hand, unless that would ask for nothing, or for too much. -/
def accept (b : Batching) (target : Target) (prospective : List String) : Batching :=
  if prospective = [] ∨ multipleAccountsLimit < prospective.length then b
  else
    { b with
      targets := b.targets ++ [target]
      addresses := prospective
      minimumSlot := some (b.minimumSlot.elim target.clampedSlot (min · target.clampedSlot)) }

/-- The loop over the targets. -/
def add (b : Batching) (target : Target) : Batching :=
  let prospective := distinct (b.addresses ++ target.addresses)
  if b.targets ≠ [] ∧ multipleAccountsLimit < prospective.length then b.close.accept target (distinct target.addresses)
  else b.accept target prospective

end Batching

/-- The batches, in the order of the targets. -/
def positionWatchdogBatches (targets : List Target) : List Batch :=
  let b := targets.foldl Batching.add {}
  if b.targets ≠ [] then b.close.batches else b.batches

/-! ### The batches of some targets -/

/-- The batch of some targets: their distinct addresses, and the least of their slots. -/
def describe (targets : List Target) : Batch where
  targets := targets
  addresses := keysOf Target.addresses targets
  minimumSlot := (targets.map Target.clampedSlot).min?.getD 0

theorem distinct_append {keys : List String} (h : keys.Nodup) (more : List String) :
    distinct (keys ++ more) = addKeys keys more := by
  have hkeys : addKeys [] keys = keys := by
    induction keys using reverseRecOn with
    | nil => rfl
    | append_singleton keys key ih =>
      rw [nodup_append] at h
      have hnew : key ∉ keys := fun hmem => h.2.2 key hmem key (by simp) rfl
      have hconcat : addKeys [] (keys ++ [key]) = addKey (addKeys [] keys) key :=
        foldl_concat _ _ _ _
      rw [hconcat, ih h.1, addKey, if_neg hnew]
  have happend : addKeys [] (keys ++ more) = addKeys (addKeys [] keys) more := foldl_append
  rw [distinct, happend, hkeys]

theorem min?_concat (l : List ℤ) (a : ℤ) : (l ++ [a]).min? = some (l.min?.elim a (min · a)) := by
  cases h : l.min? with
  | none =>
    rw [List.min?_eq_none_iff.mp h]
    rfl
  | some b =>
    obtain ⟨hb, hleast⟩ := List.min?_eq_some_iff.mp h
    refine List.min?_eq_some_iff.mpr ⟨?_, fun c hc => ?_⟩
    · rcases min_choice b a with hmin | hmin
      · rw [Option.elim_some, hmin]
        exact mem_append_left _ hb
      · rw [Option.elim_some, hmin]
        exact mem_append_right _ (mem_singleton_self a)
    · rcases mem_append.mp hc with hc | hc
      · exact (min_le_left b a).trans (hleast c hc)
      · rw [mem_singleton.mp hc]
        exact min_le_right b a

namespace Batching

/-- What is closed are batches of their targets, and the batch at hand is that of its own. -/
structure Formed (b : Batching) : Prop where
  batches : ∀ batch ∈ b.batches, batch = describe batch.targets
  addresses : b.addresses = keysOf Target.addresses b.targets
  minimumSlot : b.minimumSlot = (b.targets.map Target.clampedSlot).min?

def packed (b : Batching) : Packed Target String := ⟨b.batches.map Batch.targets, b.targets, b.addresses⟩

variable {b : Batching}

theorem Formed.close (h : b.Formed) : b.close.Formed := by
  refine ⟨fun batch hbatch => ?_, rfl, rfl⟩
  rcases mem_append.mp hbatch with hbatch | hbatch
  · exact h.batches batch hbatch
  · rw [mem_singleton.mp hbatch]
    unfold describe
    rw [h.addresses, h.minimumSlot]

theorem Formed.accept (h : b.Formed) (target : Target) :
    (b.accept target (addKeys b.addresses target.addresses)).Formed ∧
      (b.accept target (addKeys b.addresses target.addresses)).packed =
        b.packed.put multipleAccountsLimit target (addKeys b.addresses target.addresses) := by
  unfold Batching.accept Packed.put
  split_ifs
  · exact ⟨h, rfl⟩
  · refine ⟨⟨h.batches, ?_, ?_⟩, rfl⟩
    · rw [keysOf_concat, h.addresses]
    · rw [map_append, map_singleton, min?_concat, h.minimumSlot]

theorem Formed.add (h : b.Formed) (target : Target) :
    (b.add target).Formed ∧ (b.add target).packed = b.packed.add multipleAccountsLimit Target.addresses target := by
  have hnodup : b.addresses.Nodup := by
    rw [h.addresses]
    exact nodup_keysOf
  have hclose : (b.targets ≠ [] ∧ multipleAccountsLimit < (addKeys b.addresses target.addresses).length) ↔
      ¬ b.packed.batch.isEmpty = true ∧ multipleAccountsLimit < (addKeys b.packed.keys target.addresses).length := by
    unfold packed
    rw [List.isEmpty_iff]
  unfold Batching.add Packed.add
  dsimp only
  rw [distinct_append hnodup]
  by_cases hout : b.targets ≠ [] ∧ multipleAccountsLimit < (addKeys b.addresses target.addresses).length
  · obtain ⟨hformed, hpacked⟩ := h.close.accept target
    rw [if_pos hout, if_pos (hclose.mp hout)]
    have hclosed : b.close.packed = ⟨b.packed.full ++ [b.packed.batch], [], []⟩ := by
      simp [packed, Batching.close]
    rw [hclosed] at hpacked
    exact ⟨hformed, hpacked⟩
  · rw [if_neg hout, if_neg (mt hclose.mpr hout)]
    exact h.accept target

theorem Formed.foldl (h : b.Formed) (targets : List Target) :
    (targets.foldl Batching.add b).Formed ∧
      (targets.foldl Batching.add b).packed = targets.foldl (Packed.add multipleAccountsLimit Target.addresses) b.packed := by
  induction targets generalizing b with
  | nil => exact ⟨h, rfl⟩
  | cons target targets ih =>
    obtain ⟨hformed, hpacked⟩ := h.add target
    rw [foldl_cons, foldl_cons, ← hpacked]
    exact ih hformed

theorem formed_new : Batching.Formed {} := ⟨by simp, rfl, rfl⟩

end Batching

theorem positionWatchdogBatches_eq (targets : List Target) :
    positionWatchdogBatches targets = (batches multipleAccountsLimit Target.addresses targets).map describe := by
  obtain ⟨hformed, hpacked⟩ := Batching.formed_new.foldl targets
  have hclosed : ∀ b : Batching, b.Formed → (b.packed.full).map describe = b.batches := by
    intro b hb
    unfold Batching.packed
    rw [map_map]
    exact (map_congr_left fun batch hbatch => (hb.batches batch hbatch).symm).trans (map_id _)
  have hnew : Batching.packed {} = {} := rfl
  unfold positionWatchdogBatches batches Packed.all
  rw [← hnew, ← hpacked]
  dsimp only
  by_cases htargets : (targets.foldl Batching.add {}).targets = []
  · rw [if_neg (not_not.mpr htargets), if_pos (by simp [Batching.packed, htargets]), hclosed _ hformed]
  · rw [if_pos htargets, if_neg (by simp [Batching.packed, htargets]), ← hclosed _ hformed.close]
    congr 1
    unfold Batching.packed Batching.close
    rw [map_append]
    rfl

/-! ### No position is lost -/

/-- How many accounts a target asks for. -/
def Target.size (target : Target) : ℕ := (distinct target.addresses).length

theorem fits_iff {target : Target} :
    Fits multipleAccountsLimit Target.addresses target ↔ 1 ≤ target.size ∧ target.size ≤ multipleAccountsLimit := by
  unfold Fits Target.size distinct
  apply and_congr_left'
  rw [Nat.one_le_iff_ne_zero, ne_eq, ne_eq, length_eq_zero_iff, not_iff_not]
  constructor
  · intro h
    rw [h]
    rfl
  · intro h
    by_contra hne
    obtain ⟨address, hmem⟩ := exists_mem_of_ne_nil _ hne
    have hmem' : address ∈ addKeys [] target.addresses := mem_addKeys.mpr (.inr hmem)
    rw [h] at hmem'
    cases hmem'

/-- **No position is lost.** The targets are batched in their order, none of them twice, and each of those that ask for
between one and a hundred accounts is. A batch asks for at most a hundred distinct accounts, those of its targets, and
from the least of their slots on, where a slot below zero counts as zero. -/
theorem watchdog_batches (targets : List Target) :
    ((positionWatchdogBatches targets).flatMap Batch.targets).Sublist targets ∧
    ((positionWatchdogBatches targets).flatMap Batch.targets).filter (fun target => 1 ≤ target.size ∧ target.size ≤ 100) =
      targets.filter (fun target => 1 ≤ target.size ∧ target.size ≤ 100) ∧
    ∀ batch ∈ positionWatchdogBatches targets,
      batch.addresses.Nodup ∧ batch.addresses.length ≤ 100 ∧
      (∀ address, address ∈ batch.addresses ↔ ∃ target ∈ batch.targets, address ∈ target.addresses) ∧
      (∃ target ∈ batch.targets, batch.minimumSlot = max 0 target.minimumSlot) ∧
      ∀ target ∈ batch.targets, batch.minimumSlot ≤ max 0 target.minimumSlot := by
  have htargets : (positionWatchdogBatches targets).flatMap Batch.targets =
      (batches multipleAccountsLimit Target.addresses targets).flatten := by
    rw [positionWatchdogBatches_eq, flatMap_map]
    exact flatMap_id
  have hfits : ∀ target : Target, decide (1 ≤ target.size ∧ target.size ≤ 100) =
      decide (Fits multipleAccountsLimit Target.addresses target) := fun target => decide_eq_decide.mpr fits_iff.symm
  refine ⟨?_, ?_, fun batch hbatch => ?_⟩
  · rw [htargets]
    exact flatten_batches_sublist
  · simp only [hfits]
    rw [htargets]
    exact filter_flatten_batches
  rw [positionWatchdogBatches_eq] at hbatch
  obtain ⟨packed, hpacked, rfl⟩ := mem_map.mp hbatch
  obtain ⟨hne, hlength⟩ := keys_batches hpacked
  refine ⟨nodup_keysOf, hlength, fun address => mem_keysOf, ?_⟩
  have hsome : (packed.map Target.clampedSlot).min? ≠ none := by
    rw [ne_eq, List.min?_eq_none_iff, map_eq_nil_iff]
    exact hne
  obtain ⟨least, hleast⟩ := Option.ne_none_iff_exists'.mp hsome
  have hslot : (describe packed).minimumSlot = least := by
    unfold describe
    rw [hleast]
    rfl
  obtain ⟨hmem, hle⟩ := List.min?_eq_some_iff.mp hleast
  rw [hslot]
  constructor
  · obtain ⟨target, htarget, rfl⟩ := mem_map.mp hmem
    exact ⟨target, htarget, rfl⟩
  · intro target htarget
    exact hle _ (mem_map_of_mem htarget)

end SignalArcade.Market.Watchdog
