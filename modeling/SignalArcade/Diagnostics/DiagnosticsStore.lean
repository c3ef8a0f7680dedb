import Mathlib.Data.Finset.Basic
import Mathlib.Algebra.BigOperators.Group.List.Basic

/-!
# The store of the diagnostics

What the writer of the diagnostics asks of its store. `append` adds the interval of a message in one transaction, or
refuses it, or raises; whether an interval whose append raised is there all the same is what `contains_interval` tells.

Of the database there are the identities of the intervals of a minute and the watermark of each boot, as committed and as
an open transaction has written them. What SQLite, the disk and the clock do is said by a `Weather`.
-/

namespace SignalArcade.Diagnostics

/-- What identifies an interval. -/
structure Interval where
  boot : String
  seq : ℤ
  deriving DecidableEq

/-- The checks of `invalid_identity`. -/
def Interval.Valid (interval : Interval) : Prop :=
  interval.boot.length = 32 ∧ (∀ c ∈ interval.boot.toList, c ∈ "0123456789abcdef".toList) ∧ 0 ≤ interval.seq ∧
    interval.seq < 2 ^ 53

instance (interval : Interval) : Decidable interval.Valid :=
  letI (text : List Char) : Decidable (∀ c ∈ text, c ∈ "0123456789abcdef".toList) := List.decidableBAll _ text
  inferInstanceAs (Decidable (_ ∧ _))

/-- A dictionary that is not empty. -/
structure Record where
  /-- `boot` and `seq`, where they are a text and a whole number. -/
  interval : Option Interval
  /-- There are `gauges` to write to. -/
  gauges : Bool
  /-- The `kind`s of the `events`, where these are a list. -/
  events : Option (List (Option String))
  deriving DecidableEq

/-- Where something is raised. -/
inductive Fault where
  /-- Before the transaction. -/
  | early
  /-- In the transaction, before the interval is written. -/
  | unwritten
  /-- In the transaction, after it. -/
  | written
  /-- After the commit. -/
  | late
  deriving DecidableEq

/-- What the surroundings do at a step. -/
structure Weather where
  /-- What may raise raises. -/
  raises : Bool := false
  /-- The guard's answer. -/
  canWrite : Bool := true
  /-- The allowance or the disk is used up. -/
  refuses : Bool := false
  fault : Option Fault := none
  /-- A transaction that breaks off is rolled back. -/
  rollsBack : Bool := true
  /-- The intervals that are deleted before the insertion, and after it. -/
  reclaimed : Finset Interval := ∅
  expired : Finset Interval := ∅
  /-- A boot that is forgotten. -/
  retired : Option String := none

/-- The tables, as a connection sees them. -/
structure Tables where
  /-- The `intervals` of tier 0. -/
  intervals : Finset Interval
  /-- `boots`. -/
  watermark : String → Option ℤ

/-- The interval is not after the last one of its boot. -/
def Tables.covers (tables : Tables) (interval : Interval) : Bool :=
  (tables.watermark interval.boot).any fun seq => interval.seq ≤ seq

/-- The tables once an interval is written. -/
def Tables.write (tables : Tables) (weather : Weather) (interval : Interval) : Tables where
  intervals := insert interval (tables.intervals \ weather.reclaimed) \ weather.expired
  watermark boot :=
    if boot = interval.boot then some interval.seq
    else if weather.retired = some boot then none
    else tables.watermark boot

/-- The store of diagnostics, over its own database. -/
structure DiagnosticsStore where
  durable : Tables
  /-- What the connection sees in a transaction that is open. -/
  working : Option Tables := none
  paused : Bool := false

namespace DiagnosticsStore

variable (store : DiagnosticsStore)

/-- What the connection sees. -/
def view : Tables := store.working.getD store.durable

/-- A transaction breaks off. -/
def abort (weather : Weather) (tables : Tables) : DiagnosticsStore :=
  { store with working := if weather.rollsBack then none else some tables }

/-- The transaction of `append`. A commit also makes durable what an earlier transaction had left open. -/
def transact (weather : Weather) (interval : Interval) : Except Fault Bool × DiagnosticsStore :=
  let store := { store with paused := false }
  let reclaimed : Tables := { store.view with intervals := store.view.intervals \ weather.reclaimed }
  if weather.fault = some .unwritten then (.error .unwritten, store.abort weather reclaimed)
  -- `missing_boot_watermark`
  else if interval ∈ reclaimed.intervals then (.error .unwritten, store.abort weather reclaimed)
  else
    let tables := store.view.write weather interval
    if weather.fault = some .written then (.error .written, store.abort weather tables)
    else
      let store := { store with durable := tables, working := none }
      if weather.fault = some .late then (.error .late, store) else (.ok true, store)

def append (weather : Weather) (record : Record) : Except Fault Bool × DiagnosticsStore :=
  match record.interval with
  | none => (.error .early, store)
  | some interval =>
    if ¬ interval.Valid ∨ weather.fault = some .early then (.error .early, store)
    else if store.view.covers interval then (.ok true, store)
    else if record.events.all fun events => 8 < events.length then (.error .early, store)
    else if weather.refuses then (.ok false, { store with paused := true })
    else store.transact weather interval

/-- `contains_interval`. In the source a `seq` that is a float is compared as SQLite does, so that 1.0 finds the interval 1;
here such a record has no interval. -/
def containsInterval (weather : Weather) (record : Record) : Except Fault Bool :=
  if store.working.isSome || weather.raises then .error .early
  else .ok (record.interval.any fun interval => interval ∈ store.view.intervals)

/-- Every interval that is stored, for good or not yet. -/
def Stored (interval : Interval) : Prop :=
  interval ∈ store.durable.intervals ∨ ∃ tables ∈ store.working, interval ∈ tables.intervals

variable {store} {weather : Weather} {record : Record} {interval other : Interval}

theorem stored_of_view (h : other ∈ store.view.intervals) : store.Stored other := by
  unfold view at h
  cases hworking : store.working with
  | none => exact .inl (by simpa [hworking] using h)
  | some tables => exact .inr ⟨tables, hworking, by simpa [hworking] using h⟩

theorem stored_abort {tables : Tables} (h : (store.abort weather tables).Stored other) :
    store.Stored other ∨ other ∈ tables.intervals := by
  rcases h with h | ⟨tables', htables, h⟩
  · exact .inl (.inl h)
  · cases hrolls : weather.rollsBack with
    | true => simp [abort, hrolls] at htables
    | false =>
      obtain rfl : tables = tables' := by simpa [abort, hrolls] using htables
      exact .inr h

theorem mem_write (h : other ∈ (store.view.write weather interval).intervals) : store.Stored other ∨ other = interval := by
  simp only [Tables.write, Finset.mem_sdiff, Finset.mem_insert] at h
  rcases h.1 with rfl | h
  · exact .inr rfl
  · exact .inl (stored_of_view h.1)

/-- What a transaction adds is the interval. -/
theorem stored_transact (h : (store.transact weather interval).2.Stored other) : store.Stored other ∨ other = interval := by
  unfold transact at h
  dsimp only at h
  split_ifs at h
  · rcases stored_abort h with h | h
    · exact .inl h
    · exact .inl (stored_of_view (Finset.mem_sdiff.mp h).1)
  · rcases stored_abort h with h | h
    · exact .inl h
    · exact .inl (stored_of_view (Finset.mem_sdiff.mp h).1)
  · rcases stored_abort h with h | h
    · exact .inl h
    · exact mem_write h
  all_goals
    rcases h with h | ⟨_, htables, _⟩
    · exact mem_write h
    · simp at htables

/-- **What `append` adds is the interval of its record.** -/
theorem stored_append (h : (store.append weather record).2.Stored other) :
    store.Stored other ∨ record.interval = some other := by
  unfold append at h
  split at h
  · exact .inl h
  · rename_i interval hinterval
    split_ifs at h
    · exact .inl h
    · exact .inl h
    · exact .inl h
    · exact .inl h
    · exact (stored_transact h).imp_right fun he => by rw [hinterval, he]

/-- What it refuses it does not write. -/
theorem refused (h : (store.append weather record).1 = .ok false) :
    (store.append weather record).2 = { store with paused := true } := by
  unfold append at h ⊢
  split at h
  · cases h
  · rename_i interval _
    split_ifs at h ⊢
    · cases h
    · rfl
    · unfold transact at h
      dsimp only at h
      split_ifs at h
      simp at h

/-- What raises after the commit leaves no transaction open. -/
theorem committed (h : (store.append weather record).1 = .error .late) : (store.append weather record).2.working = none := by
  unfold append at h ⊢
  split at h
  · cases h
  · split_ifs at h ⊢
    · cases h
    · cases h
    · unfold transact at h ⊢
      dsimp only at h ⊢
      split_ifs at h ⊢
      all_goals first | rfl | simp at h

/-- `contains_interval` returns `False` only if the interval is not stored, nor will be. -/
theorem not_stored (h : store.containsInterval weather record = .ok false) (hinterval : record.interval = some interval) :
    ¬ store.Stored interval := by
  unfold containsInterval at h
  split_ifs at h with hraises
  obtain ⟨hworking, -⟩ := (Bool.or_eq_false_iff.mp (Bool.eq_false_iff.mpr hraises))
  rw [Option.isSome_eq_false_iff, Option.isNone_iff_eq_none] at hworking
  rintro (hdurable | ⟨tables, htables, -⟩)
  · simp [view, hworking, hinterval, hdurable] at h
  · simp [hworking] at htables

end DiagnosticsStore

end SignalArcade.Diagnostics
