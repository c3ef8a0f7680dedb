import Mathlib.Data.List.Induction
import Mathlib.Data.List.Nodup

/-!
# Packing into batches

Items that need keys are packed one after the other. An item goes into the batch at hand as long as the distinct
keys of the batch stay within a limit, and begins a new batch otherwise. An item that needs no key, or by itself
more than the limit, is left out.
-/

namespace Packing

open List

variable {ι κ : Type} [DecidableEq κ] {limit : ℕ} {needs : ι → List κ} {items : List ι}

def addKey (keys : List κ) (key : κ) : List κ := if key ∈ keys then keys else keys ++ [key]

/-- The distinct keys of two lists, in their order. The keys of the first one are distinct already. -/
def addKeys (keys more : List κ) : List κ := more.foldl addKey keys

/-- Batches that are full, and the batch at hand with its keys. -/
structure Packed (ι κ : Type) where
  full : List (List ι) := []
  batch : List ι := []
  keys : List κ := []

/-- An item joins the batch at hand, which then has these keys. -/
def Packed.put (limit : ℕ) (p : Packed ι κ) (item : ι) (keys : List κ) : Packed ι κ :=
  if keys = [] ∨ limit < keys.length then p else { p with batch := p.batch ++ [item], keys := keys }

def Packed.add (limit : ℕ) (needs : ι → List κ) (p : Packed ι κ) (item : ι) : Packed ι κ :=
  if ¬ p.batch.isEmpty ∧ limit < (addKeys p.keys (needs item)).length then
    Packed.put limit ⟨p.full ++ [p.batch], [], []⟩ item (addKeys [] (needs item))
  else p.put limit item (addKeys p.keys (needs item))

/-- All batches. -/
def Packed.all (p : Packed ι κ) : List (List ι) := if p.batch.isEmpty then p.full else p.full ++ [p.batch]

def batches (limit : ℕ) (needs : ι → List κ) (items : List ι) : List (List ι) :=
  (items.foldl (Packed.add limit needs) {}).all

/-! ### What is in the batches -/

/-- The items packed so far. -/
def Packed.held (p : Packed ι κ) : List ι := p.full.flatten ++ p.batch

variable {p : Packed ι κ}

/-! ### Every item that fits is packed -/

theorem mem_addKeys {keys more : List κ} {key : κ} : key ∈ addKeys keys more ↔ key ∈ keys ∨ key ∈ more := by
  induction more generalizing keys with
  | nil => simp [addKeys]
  | cons first more ih =>
    have hfirst : key ∈ addKey keys first ↔ key ∈ keys ∨ key = first := by
      unfold addKey
      split_ifs with hmem
      · exact ⟨.inl, fun h => h.elim id fun heq => heq ▸ hmem⟩
      · rw [mem_append, mem_singleton]
    have hcons : addKeys keys (first :: more) = addKeys (addKey keys first) more := rfl
    rw [hcons, ih, hfirst, mem_cons, or_assoc]

theorem nodup_addKeys {keys more : List κ} (h : keys.Nodup) : (addKeys keys more).Nodup := by
  induction more generalizing keys with
  | nil => exact h
  | cons first more ih =>
    apply ih
    unfold addKey
    split_ifs with hmem
    · exact h
    · rw [nodup_append]
      refine ⟨h, by simp, fun key hkey other hother heq => hmem ?_⟩
      rw [← mem_singleton.mp hother, ← heq]
      exact hkey

def keysOf (needs : ι → List κ) (items : List ι) : List κ :=
  items.foldl (fun keys item => addKeys keys (needs item)) []

theorem keysOf_concat (item : ι) : keysOf needs (items ++ [item]) = addKeys (keysOf needs items) (needs item) := by
  unfold keysOf
  rw [foldl_concat]

theorem mem_keysOf {key : κ} : key ∈ keysOf needs items ↔ ∃ item ∈ items, key ∈ needs item := by
  induction items using reverseRecOn with
  | nil => simp [keysOf]
  | append_singleton items item ih =>
    rw [keysOf_concat, mem_addKeys, ih]
    simp [or_and_right, exists_or]

theorem nodup_keysOf : (keysOf needs items).Nodup := by
  induction items using reverseRecOn with
  | nil => exact nodup_nil
  | append_singleton items item ih =>
    rw [keysOf_concat]
    exact nodup_addKeys ih

/-- It needs something, and no more than the limit. -/
def Fits (limit : ℕ) (needs : ι → List κ) (item : ι) : Prop :=
  needs item ≠ [] ∧ (addKeys [] (needs item)).length ≤ limit

instance (item : ι) : Decidable (Fits limit needs item) :=
  decidable_of_iff (¬ (needs item).isEmpty ∧ (addKeys [] (needs item)).length ≤ limit) (by simp [Fits])

/-- The batches so far are within the limit, and the keys are those of the batch at hand. -/
structure Packed.Formed (limit : ℕ) (needs : ι → List κ) (p : Packed ι κ) : Prop where
  keys_eq : p.keys = keysOf needs p.batch
  within : p.keys.length ≤ limit
  full : ∀ batch ∈ p.full, batch ≠ [] ∧ (keysOf needs batch).length ≤ limit

theorem Packed.formed_new : Packed.Formed limit needs {} := ⟨rfl, Nat.zero_le _, by simp⟩

theorem Packed.Formed.put (h : p.Formed limit needs) (item : ι) :
    (p.put limit item (addKeys p.keys (needs item))).Formed limit needs ∧
      ((p.put limit item (addKeys p.keys (needs item))).held = p.held ++ [item] ∨
        (addKeys p.keys (needs item) = [] ∨ limit < (addKeys p.keys (needs item)).length) ∧
          (p.put limit item (addKeys p.keys (needs item))).held = p.held) := by
  unfold Packed.put
  split_ifs with hout
  · exact ⟨h, .inr ⟨hout, rfl⟩⟩
  · rw [not_or, Nat.not_lt] at hout
    refine ⟨⟨?_, hout.2, h.full⟩, .inl ?_⟩
    · rw [keysOf_concat, h.keys_eq]
    · unfold Packed.held
      rw [append_assoc]

theorem Packed.Formed.add (h : p.Formed limit needs) (item : ι) :
    (p.add limit needs item).Formed limit needs ∧
      ((p.add limit needs item).held = p.held ++ [item] ∨
        ¬ Fits limit needs item ∧ (p.add limit needs item).held = p.held) := by
  have hkeys : ∀ keys : List κ, needs item ≠ [] → addKeys keys (needs item) ≠ [] := by
    intro keys hne hnil
    obtain ⟨key, hkey⟩ := exists_mem_of_ne_nil _ hne
    have hmem : key ∈ addKeys keys (needs item) := mem_addKeys.mpr (.inr hkey)
    rw [hnil] at hmem
    cases hmem
  unfold Packed.add
  split_ifs with hclose
  · -- the batch at hand is closed, and the item begins the next one
    have hclosed : Packed.Formed limit needs ⟨p.full ++ [p.batch], [], []⟩ := by
      refine ⟨rfl, Nat.zero_le _, fun batch hbatch => ?_⟩
      rcases mem_append.mp hbatch with hbatch | hbatch
      · exact h.full batch hbatch
      · rw [mem_singleton.mp hbatch, ← h.keys_eq]
        exact ⟨by simpa using hclose.1, h.within⟩
    have hheld : Packed.held (⟨p.full ++ [p.batch], [], []⟩ : Packed ι κ) = p.held := by simp [Packed.held]
    obtain ⟨hput, hcases⟩ := hclosed.put item
    rw [hheld] at hcases
    refine ⟨hput, hcases.imp_right fun ⟨hout, hsame⟩ => ⟨?_, hsame⟩⟩
    rintro ⟨hne, hle⟩
    rcases hout with hnil | hlt
    · exact hkeys [] hne hnil
    · exact absurd hle (Nat.not_le.mpr hlt)
  · obtain ⟨hput, hcases⟩ := h.put item
    refine ⟨hput, hcases.imp_right fun ⟨hout, hsame⟩ => ⟨?_, hsame⟩⟩
    rintro ⟨hne, hle⟩
    rcases hout with hnil | hlt
    · exact hkeys _ hne hnil
    · have hempty : p.batch = [] := by
        by_contra hbatch
        exact hclose ⟨by simpa using hbatch, hlt⟩
      rw [h.keys_eq, hempty] at hlt
      exact absurd hle (Nat.not_le.mpr hlt)

theorem Packed.Formed.foldl (h : p.Formed limit needs) :
    (items.foldl (Packed.add limit needs) p).Formed limit needs ∧
      ∃ packed, (items.foldl (Packed.add limit needs) p).held = p.held ++ packed ∧ packed.Sublist items ∧
        packed.filter (fun item => Fits limit needs item) = items.filter fun item => Fits limit needs item := by
  induction items generalizing p with
  | nil => exact ⟨h, [], by simp⟩
  | cons item items ih =>
    obtain ⟨hadd, hcases⟩ := h.add item
    obtain ⟨hformed, packed, hheld, hsublist, hfilter⟩ := ih hadd
    refine ⟨hformed, ?_⟩
    rcases hcases with hpacked | ⟨hnot, hsame⟩
    · refine ⟨item :: packed, ?_, hsublist.cons_cons item, ?_⟩
      · rw [foldl_cons, hheld, hpacked, append_assoc]
        rfl
      · rw [filter_cons, filter_cons, hfilter]
    · refine ⟨packed, ?_, hsublist.cons item, ?_⟩
      · rw [foldl_cons, hheld, hsame]
      · rw [filter_cons, if_neg (by simpa using hnot), hfilter]

theorem Packed.formed_foldl :
    (items.foldl (Packed.add limit needs) {}).Formed limit needs ∧
      (items.foldl (Packed.add limit needs) {}).held.Sublist items ∧
        (items.foldl (Packed.add limit needs) {}).held.filter (fun item => Fits limit needs item) =
          items.filter fun item => Fits limit needs item := by
  obtain ⟨hformed, packed, hheld, hsublist, hfilter⟩ :=
    @Packed.Formed.foldl ι κ _ limit needs items {} Packed.formed_new
  have hnew : Packed.held ({} : Packed ι κ) = [] := rfl
  rw [hheld, hnew, nil_append]
  exact ⟨hformed, hsublist, hfilter⟩

omit [DecidableEq κ] in
theorem Packed.flatten_all (p : Packed ι κ) : p.all.flatten = p.held := by
  unfold Packed.all Packed.held
  split_ifs with hempty
  · rw [isEmpty_iff.mp hempty, append_nil]
  · rw [flatten_append, flatten_singleton]

/-- **The items are packed in their order.** -/
theorem flatten_batches_sublist : (batches limit needs items).flatten.Sublist items := by
  unfold batches
  rw [Packed.flatten_all]
  exact Packed.formed_foldl.2.1

/-- **Each item that fits is packed once.** -/
theorem filter_flatten_batches :
    (batches limit needs items).flatten.filter (fun item => Fits limit needs item) =
      items.filter fun item => Fits limit needs item := by
  unfold batches
  rw [Packed.flatten_all]
  exact Packed.formed_foldl.2.2

/-- **Each batch is within the limit.** -/
theorem keys_batches {batch : List ι} (hbatch : batch ∈ batches limit needs items) :
    batch ≠ [] ∧ (keysOf needs batch).length ≤ limit := by
  have hformed : (items.foldl (Packed.add limit needs) {}).Formed limit needs := Packed.formed_foldl.1
  unfold batches Packed.all at hbatch
  split_ifs at hbatch with hempty
  · exact hformed.full batch hbatch
  · rcases mem_append.mp hbatch with hbatch | hbatch
    · exact hformed.full batch hbatch
    · rw [mem_singleton.mp hbatch, ← hformed.keys_eq]
      exact ⟨by simpa using hempty, hformed.within⟩

end Packing
