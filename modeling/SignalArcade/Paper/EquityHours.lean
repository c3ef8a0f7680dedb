import SignalArcade.Paper.EquityHistory
import Mathlib.Data.List.Pairwise
import Mathlib.Order.Bounds.Basic

/-!
# The hours of the equity history

Each row of an hour summarizes the points that were recorded in it. As long as the texts of the hours are ordered as the
hours, the history is in the order of time, no close is of an hour that goes on, and none is left out.
-/

namespace SignalArcade.Equity

open Clocks Runs List

variable {point opening : EquityPoint} {points : List EquityPoint} {rollup : EquityRollup} {tables : EquityTables}
  {world : World} {calls : List Call}

/-! ### Rows and the points they summarize -/

/-- The equities of some points. -/
def equities (points : List EquityPoint) : Set ℤ := {equity | ∃ point ∈ points, point.equityLamports = equity}

/-- A row says of some points of its hour how many they are, the last one, the highest and the lowest. -/
structure Summarizes (rollup : EquityRollup) (points : List EquityPoint) : Prop where
  start : ∀ point ∈ points, point.recordedAt.hourStart = rollup.bucketStart
  samples : rollup.samples = points.length
  close : ∃ last ∈ points.getLast?, last.equityLamports = rollup.closeEquityLamports ∧
    last.cashLamports = rollup.closeCashLamports
  high : IsGreatest (equities points) rollup.highEquityLamports
  low : IsLeast (equities points) rollup.lowEquityLamports

theorem summarizes_first (point : EquityPoint) : Summarizes (.first point) [point] where
  start other hother := by rw [mem_singleton.mp hother, EquityRollup.first]
  samples := rfl
  close := ⟨point, rfl, rfl, rfl⟩
  high := ⟨⟨point, by simp, rfl⟩, by rintro _ ⟨other, hother, rfl⟩; rw [mem_singleton.mp hother]; rfl⟩
  low := ⟨⟨point, by simp, rfl⟩, by rintro _ ⟨other, hother, rfl⟩; rw [mem_singleton.mp hother]; rfl⟩

theorem equities_concat (points : List EquityPoint) (point : EquityPoint) :
    equities (points ++ [point]) = insert point.equityLamports (equities points) := by
  ext equity
  simp [equities, or_comm, eq_comm]

theorem Summarizes.concat (h : Summarizes rollup points) (hstart : point.recordedAt.hourStart = rollup.bucketStart) :
    Summarizes (rollup.add point) (points ++ [point]) where
  start other hother := by
    rcases mem_append.mp hother with hother | hother
    · exact h.start other hother
    · rw [mem_singleton.mp hother]
      exact hstart
  samples := by simp [EquityRollup.add, h.samples]
  close := ⟨point, getLast?_concat, rfl, rfl⟩
  high := by
    rw [equities_concat, EquityRollup.add, max_comm]
    exact h.high.insert _
  low := by
    rw [equities_concat, EquityRollup.add, min_comm]
    exact h.low.insert _

/-! ### What is kept over a season -/

/-- The points of an hour. -/
def ofHour (key : List Char) (points : List EquityPoint) : List EquityPoint :=
  points.filter fun point => bucket point.recordedAt = key

/-- A row for each hour in which something was recorded, that summarizes it. -/
structure Rolled (tables : EquityTables) (recorded : List EquityPoint) : Prop where
  rows : ∀ rollup ∈ tables.rollups, Summarizes rollup (ofHour rollup.key recorded)
  covered : ∀ point ∈ recorded, ∃ rollup ∈ tables.rollups, rollup.key = bucket point.recordedAt

theorem ofHour_concat (key : List Char) (points : List EquityPoint) (point : EquityPoint) :
    ofHour key (points ++ [point]) = ofHour key points ++ if bucket point.recordedAt = key then [point] else [] := by
  simp [ofHour, filter_append, filter_singleton]

theorem key_rollup (tables : EquityTables) (point : EquityPoint) :
    (tables.rollup point).key = bucket point.recordedAt := by
  unfold EquityTables.rollup
  split
  · rfl
  next rollup hrollup => exact (Table.get?_eq_some.mp hrollup).2

theorem Rolled.recordEquity {recorded : List EquityPoint} (h : Rolled tables recorded) (point : EquityPoint) :
    Rolled (tables.recordEquity point) (recorded ++ [point]) where
  rows rollup hrollup := by
    rcases Table.mem_upsert.mp hrollup with rfl | ⟨hrollup, hkey⟩
    · rw [ofHour_concat, key_rollup, if_pos rfl]
      unfold EquityTables.rollup
      split
      next hnone =>
        -- Nothing was recorded in this hour before.
        have hempty : ofHour (bucket point.recordedAt) recorded = [] := by
          refine filter_eq_nil_iff.mpr fun other hother heq => ?_
          obtain ⟨rollup, hrollup, hkey⟩ := h.covered other hother
          exact Table.get?_eq_none.mp hnone rollup hrollup (hkey.trans (of_decide_eq_true heq))
        rw [hempty]
        exact summarizes_first point
      next rollup hsome =>
        obtain ⟨hmem, hkey⟩ := Table.get?_eq_some.mp hsome
        have hold := h.rows rollup hmem
        rw [hkey] at hold
        exact hold.concat (Clock.isoformat_inj hkey.symm)
    · rw [key_rollup] at hkey
      rw [ofHour_concat, if_neg hkey.symm, append_nil]
      exact h.rows rollup hrollup
  covered other hother := by
    rcases mem_append.mp hother with hother | hother
    · obtain ⟨rollup, hrollup, hkey⟩ := h.covered other hother
      by_cases hsame : rollup.key = (tables.rollup point).key
      · exact ⟨_, Table.mem_upsert.mpr (Or.inl rfl), hsame.symm.trans hkey⟩
      · exact ⟨rollup, Table.mem_upsert.mpr (Or.inr ⟨hrollup, hsame⟩), hkey⟩
    · rw [mem_singleton.mp hother]
      exact ⟨_, Table.mem_upsert.mpr (Or.inl rfl), key_rollup tables point⟩

theorem sublist_prune (tables : EquityTables) (maxEquityPoints rows : ℕ) :
    (tables.prune maxEquityPoints rows).points.Sublist tables.points := by
  unfold EquityTables.prune
  split
  · exact Sublist.refl _
  · exact filter_sublist

theorem rollups_prune (tables : EquityTables) (maxEquityPoints rows : ℕ) :
    (tables.prune maxEquityPoints rows).rollups = tables.rollups := by
  unfold EquityTables.prune
  split <;> rfl

/-- What holds of a season whose points are later and later and in readable hours. -/
structure Kept (opening : EquityPoint) (world : World) : Prop where
  points : world.tables.points.Sublist (opening :: world.recorded)
  inOrder : (opening :: world.recorded).Pairwise fun point later => point.recordedAt.instant ≤ later.recordedAt.instant
  above : ∀ point ∈ world.recorded, ¬ bucket point.recordedAt < bucket opening.recordedAt
  hours : world.recorded.Pairwise fun point later =>
    bucket point.recordedAt = bucket later.recordedAt ∨ Apart point.recordedAt later.recordedAt
  rolled : Rolled world.tables world.recorded

theorem Kept.step {call : Call} (h : Kept opening world) (hlater : Later opening.recordedAt world call)
    (hreadable : Readable opening.recordedAt world call) : Kept opening (world.step call) := by
  cases call with
  | recordEquity observedAt equityLamports cashLamports =>
    obtain ⟨hopening, hlater⟩ := hlater
    obtain ⟨habove, hhours⟩ := hreadable
    refine ⟨?_, ?_, ?_, ?_, h.rolled.recordEquity _⟩
    · exact h.points.append (Sublist.refl _)
    · rw [World.step, ← cons_append, pairwise_append]
      refine ⟨h.inOrder, pairwise_singleton _ _, ?_⟩
      simpa using ⟨hopening, hlater⟩
    · intro point hpoint
      rcases mem_append.mp hpoint with hpoint | hpoint
      · exact h.above point hpoint
      · rw [mem_singleton.mp hpoint]
        exact habove
    · rw [World.step, pairwise_append]
      refine ⟨h.hours, pairwise_singleton _ _, ?_⟩
      simpa using hhours
  | prune maxEquityPoints rows =>
    refine ⟨(sublist_prune ..).trans h.points, h.inOrder, h.above, h.hours, ?_⟩
    exact ⟨fun rollup hrollup => h.rolled.rows rollup (by simpa [World.step, rollups_prune] using hrollup),
      fun point hpoint => by simpa [World.step, rollups_prune] using h.rolled.covered point hpoint⟩

/-! ### Hours as texts and as times -/

/-- Two points are in one hour, or in two that are apart. -/
def Agree (point other : EquityPoint) : Prop :=
  bucket point.recordedAt = bucket other.recordedAt ∨ Apart point.recordedAt other.recordedAt ∨
    Apart other.recordedAt point.recordedAt

instance : Std.Symm Agree where
  symm _ _ h := by
    rcases h with h | h | h
    · exact Or.inl h.symm
    · exact Or.inr (Or.inr h)
    · exact Or.inr (Or.inl h)

theorem Kept.agree (h : Kept opening world) {other : EquityPoint} (hpoint : point ∈ world.recorded)
    (hother : other ∈ world.recorded) : Agree point other := by
  refine Pairwise.forall_of_forall (R := Agree) (fun _ _ => Or.inl rfl) ?_ hpoint hother
  exact h.hours.imp fun hhours => hhours.imp_right Or.inl

theorem Apart.asymm {earlier later : Clock} (h : Apart earlier later) : ¬ bucket later < bucket earlier :=
  lt_asymm h.lt

/-- Clocks of one offset are readable: they are in one hour, or in two that are apart. -/
theorem Apart.of_utcoffset {earlier later : Clock} (hoffset : earlier.utcoffset = later.utcoffset)
    (hle : earlier.instant ≤ later.instant) : bucket earlier = bucket later ∨ Apart earlier later := by
  have hstart := earlier.instant_hourStart
  have hstart' := later.instant_hourStart
  have hfrom := earlier.hourStart_le
  have hfrom' := later.hourStart_le
  have huntil := earlier.lt_hourStart
  have huntil' := later.lt_hourStart
  have hoffset' : earlier.hourStart.utcoffset = later.hourStart.utcoffset := hoffset
  have hhour : oneHour = 3600000000 := by decide
  rw [hhour] at hstart hstart' huntil huntil'
  rcases lt_trichotomy earlier.hours later.hours with hlt | heq | hgt
  · have hends : earlier.hourStart.plusHour?.isSome := Clock.plusHour_isSome_of_hours_lt hlt
    refine Or.inr ⟨(Clock.isoformat_lt_iff hoffset').mpr ?_, ?_, ?_, hends⟩
    · omega
    · omega
    · rw [hhour]
      omega
  · exact Or.inl (congrArg Clock.isoformat (Clock.hourStart_eq heq hoffset))
  · omega

/-- The time of a point is in the hour of a row. -/
def EquityRollup.Holds (rollup : EquityRollup) (point : EquityPoint) : Prop :=
  rollup.bucketStart.instant ≤ point.recordedAt.instant ∧
    point.recordedAt.instant < rollup.bucketStart.instant + oneHour

instance (rollup : EquityRollup) : DecidablePred rollup.Holds := fun _ => inferInstanceAs (Decidable (_ ∧ _))

section

variable (h : Kept opening world)
include h

section

variable (hrollup : rollup ∈ world.tables.rollups)
include hrollup

/-- A row is about some point of its hour. -/
theorem Kept.exists_point :
    ∃ point ∈ world.recorded, bucket point.recordedAt = rollup.key ∧ point.recordedAt.hourStart = rollup.bucketStart := by
  have hrows := h.rolled.rows rollup hrollup
  obtain ⟨last, hlast, -⟩ := hrows.close
  have hmem := mem_of_getLast? hlast
  have hstart := hrows.start last hmem
  obtain ⟨hpoint, hkey⟩ := mem_filter.mp hmem
  exact ⟨last, hpoint, of_decide_eq_true hkey, hstart⟩

/-- The points that have the text of an hour are those whose time is in it. -/
theorem Kept.holds_iff
    (hpoint : point ∈ world.recorded) : rollup.Holds point ↔ bucket point.recordedAt = rollup.key := by
  obtain ⟨other, hother, hkey, hstart⟩ := h.exists_point hrollup
  constructor
  · rintro ⟨hfrom, huntil⟩
    rw [← hstart] at hfrom huntil
    rcases h.agree hpoint hother with hsame | hapart | hapart
    · exact hsame.trans hkey
    · exact absurd hapart.before (not_lt.mpr hfrom)
    · exact absurd hapart.after (not_le.mpr huntil)
  · intro hsame
    have hhour : point.recordedAt.hourStart = rollup.bucketStart := Clock.isoformat_inj hsame
    unfold EquityRollup.Holds
    rw [← hhour]
    exact ⟨Clock.hourStart_le _, Clock.lt_hourStart _⟩

/-- Rows that are ordered as texts are ordered in time. -/
theorem Kept.start_le {other : EquityRollup} (hother : other ∈ world.tables.rollups) (hle : rollup.key ≤ other.key) :
    rollup.bucketStart.instant ≤ other.bucketStart.instant := by
  obtain ⟨point, hpoint, hkey, hstart⟩ := h.exists_point hrollup
  obtain ⟨point', hpoint', hkey', hstart'⟩ := h.exists_point hother
  rw [← hkey, ← hkey'] at hle
  rw [← hstart, ← hstart']
  rcases h.agree hpoint hpoint' with hsame | hapart | hapart
  · exact (congrArg Clock.instant (Clock.isoformat_inj hsame)).le
  · have hafter := hapart.after
    have hlt := Clock.lt_hourStart point'.recordedAt
    omega
  · exact absurd hapart.lt (not_lt.mpr hle)

/-- A row below the hour of a point as a text ends by the time of the point. -/
theorem Kept.ends_before (hpoint : point ∈ opening :: world.recorded) (hlt : rollup.key < bucket point.recordedAt) :
    rollup.bucketStart.plusHour?.isSome ∧ rollup.bucketStart.instant + oneHour ≤ point.recordedAt.instant := by
  obtain ⟨other, hother, hkey, hstart⟩ := h.exists_point hrollup
  rw [← hkey] at hlt
  rcases mem_cons.mp hpoint with rfl | hpoint
  · exact absurd hlt (h.above other hother)
  · rcases h.agree hother hpoint with hsame | hapart | hapart
    · exact absurd hlt (hsame ▸ lt_irrefl _)
    · rw [← hstart]
      exact ⟨hapart.ends, hapart.after⟩
    · exact absurd hlt hapart.asymm

end

/-- What was recorded before the hour of a point is below it as a text. -/
theorem Kept.lt_of_before {oldest : EquityPoint} (hpoint : point ∈ world.recorded)
    (holdest : oldest ∈ opening :: world.recorded)
    (hbefore : point.recordedAt.instant < oldest.recordedAt.hourStart.instant) :
    bucket point.recordedAt < bucket oldest.recordedAt := by
  rcases mem_cons.mp holdest with rfl | holdest
  · have hlater := (pairwise_cons.mp h.inOrder).1 point hpoint
    have hstart := Clock.hourStart_le oldest.recordedAt
    omega
  · rcases h.agree hpoint holdest with hsame | hapart | hapart
    · have hstart := Clock.hourStart_le point.recordedAt
      rw [Clock.isoformat_inj hsame] at hstart
      omega
    · exact hapart.lt
    · have hstart := Clock.hourStart_le oldest.recordedAt
      have hstart' := Clock.hourStart_le point.recordedAt
      have hapart := hapart.before
      omega

end

/-! ### What is read -/

variable {rollups : List EquityRollup} {oldest : List Char} {rollupLimit : ℕ}

theorem mem_rollupsBefore (h : rollup ∈ rollupsBefore oldest rollupLimit rollups) :
    rollup ∈ rollups ∧ rollup.key < oldest := by
  have hmem := mem_of_mem_take (mem_reverse.mp h)
  rw [mem_insertionSort, mem_filter] at hmem
  simpa using hmem

theorem mem_rollupsBefore_of_le (hlimit : (rollups.filter fun rollup => rollup.key < oldest).length ≤ rollupLimit)
    (hrollup : rollup ∈ rollups) (hlt : rollup.key < oldest) : rollup ∈ rollupsBefore oldest rollupLimit rollups := by
  rw [rollupsBefore, take_of_length_le (by rwa [length_insertionSort]), mem_reverse,
    mem_insertionSort, mem_filter]
  simpa using ⟨hrollup, hlt⟩

theorem pairwise_rollupsBefore (oldest : List Char) (rollupLimit : ℕ) (rollups : List EquityRollup) :
    (rollupsBefore oldest rollupLimit rollups).Pairwise fun a b => a.key ≤ b.key := by
  rw [rollupsBefore, pairwise_reverse]
  exact (pairwise_insertionSort _ _).sublist (take_sublist _ _)

theorem nodup_rollupsBefore (h : (rollups.map EquityRollup.key).Nodup) :
    ((rollupsBefore oldest rollupLimit rollups).map EquityRollup.key).Nodup := by
  rw [rollupsBefore, map_reverse, nodup_reverse]
  have hfilter : ((rollups.filter fun rollup => rollup.key < oldest).map EquityRollup.key).Nodup :=
    h.sublist (filter_sublist.map EquityRollup.key)
  have hsort := (perm_insertionSort NewestFirst (rollups.filter fun rollup => rollup.key < oldest)).map
    EquityRollup.key
  exact (hsort.nodup_iff.mpr hfilter).sublist ((take_sublist _ _).map EquityRollup.key)

/-- The time is in the hour of a close. -/
def HistoryPoint.Covers (time : ℤ) : HistoryPoint → Prop
  | .hourlyClose rollup periodEnd => rollup.bucketStart.instant ≤ time ∧ time < periodEnd.instant
  | .checkpoint _ => False

instance (time : ℤ) : DecidablePred (HistoryPoint.Covers time)
  | .hourlyClose _ _ => inferInstanceAs (Decidable (_ ∧ _))
  | .checkpoint _ => inferInstanceAs (Decidable False)

/-- The closes of some rows. -/
structure ClosesOf (rollups : List EquityRollup) (closes : List HistoryPoint) : Prop where
  mem : ∀ close ∈ closes, ∃ rollup ∈ rollups, ∃ periodEnd,
    rollup.bucketStart.plusHour? = some periodEnd ∧ close = .hourlyClose rollup periodEnd
  instants : closes.map HistoryPoint.instant = rollups.map fun rollup => rollup.bucketStart.instant
  count : ∀ point : EquityPoint,
    closes.countP (HistoryPoint.Covers point.recordedAt.instant) = rollups.countP fun rollup => rollup.Holds point

/-- The closes are those of the rows, if all hours end. -/
theorem exists_hourlyCloses (h : ∀ rollup ∈ rollups, rollup.bucketStart.plusHour?.isSome) :
    ∃ closes, hourlyCloses rollups = .ok closes ∧ ClosesOf rollups closes := by
  induction rollups with
  | nil => exact ⟨[], rfl, by simp, rfl, fun _ => rfl⟩
  | cons rollup rollups ih =>
    obtain ⟨hrollup, hrollups⟩ := forall_mem_cons.mp h
    obtain ⟨periodEnd, hend⟩ := Option.isSome_iff_exists.mp hrollup
    obtain ⟨closes, hok, hcloses⟩ := ih hrollups
    refine ⟨.hourlyClose rollup periodEnd :: closes, ?_, ?_, ?_, fun point => ?_⟩
    · rw [hourlyCloses, hend, hok]
      rfl
    · refine forall_mem_cons.mpr ⟨⟨rollup, mem_cons_self, periodEnd, hend, rfl⟩, fun close hclose => ?_⟩
      obtain ⟨other, hother, hspec⟩ := hcloses.mem close hclose
      exact ⟨other, mem_cons_of_mem _ hother, hspec⟩
    · rw [map_cons, map_cons, hcloses.instants, HistoryPoint.instant]
    · have hcovers : HistoryPoint.Covers point.recordedAt.instant (.hourlyClose rollup periodEnd) ↔ rollup.Holds point := by
        rw [HistoryPoint.Covers, EquityRollup.Holds, Clock.instant_plusHour hend]
      rw [countP_cons, countP_cons, hcloses.count]
      simp only [decide_eq_true_eq, hcovers]

theorem equityHistory_sublist (limit : ℕ) (points : List EquityPoint) : (equityHistory limit points).Sublist points := by
  have hsub := (take_sublist limit points.reverse).reverse
  rwa [reverse_reverse] at hsub

/-! ### The history of a season -/

/-- The history is in the order of time, no close covers an hour that ends after the first checkpoint, and what was
recorded before the hour of that is covered by one close, unless there are too many. -/
structure Ordered (recorded : List EquityPoint) (rollups : List EquityRollup) (rollupLimit : ℕ)
    (recent : List EquityPoint) (history : List HistoryPoint) : Prop where
  inTime : history.Pairwise fun point later => point.instant ≤ later.instant
  ended : ∀ rollup periodEnd, .hourlyClose rollup periodEnd ∈ history →
    ∀ oldest ∈ recent.head?, periodEnd.instant ≤ oldest.recordedAt.instant
  complete : ∀ oldest ∈ recent.head?,
    (rollups.filter fun rollup => rollup.key < bucket oldest.recordedAt).length ≤ rollupLimit →
      ∀ point ∈ recorded, point.recordedAt.instant < oldest.recordedAt.hourStart.instant →
        history.countP (HistoryPoint.Covers point.recordedAt.instant) = 1
  closes : ∀ rollup periodEnd, .hourlyClose rollup periodEnd ∈ history → rollup ∈ rollups

theorem oneHour_nonneg : 0 ≤ oneHour := by decide

theorem Kept.pairwise_rows (h : Kept opening world) (oldest : List Char) (rollupLimit : ℕ) :
    (rollupsBefore oldest rollupLimit world.tables.rollups.rows).Pairwise fun rollup later =>
      rollup.bucketStart.instant ≤ later.bucketStart.instant := by
  refine (pairwise_rollupsBefore oldest rollupLimit _).imp_of_mem fun hrollup hlater hle => ?_
  exact h.start_le (mem_rollupsBefore hrollup).1 (mem_rollupsBefore hlater).1 hle

/-- One row is about the hour of a point. -/
theorem Kept.count_rows (oldest : List Char) (rollupLimit : ℕ) (h : Kept opening world) (hpoint : point ∈ world.recorded)
    (hshown : ∀ rollup ∈ world.tables.rollups, rollup.key = bucket point.recordedAt →
      rollup ∈ rollupsBefore oldest rollupLimit world.tables.rollups.rows) :
    ((rollupsBefore oldest rollupLimit world.tables.rollups.rows).countP fun rollup => rollup.Holds point) = 1 := by
  obtain ⟨rollup, hrollup, hkey⟩ := h.rolled.covered point hpoint
  have hmem := mem_map_of_mem (f := EquityRollup.key) (hshown rollup hrollup hkey)
  have hcount := count_eq_one_of_mem (nodup_rollupsBefore world.tables.rollups.nodup) hmem
  rw [hkey, List.count, countP_map] at hcount
  rw [← hcount]
  refine countP_congr fun other hother => ?_
  have hiff := h.holds_iff (mem_rollupsBefore hother).1 hpoint
  simp only [decide_eq_true_eq, Function.comp_apply, beq_iff_eq]
  rw [hiff, eq_comm]

/-- What is shown of a season in which the points are later and later and in readable hours. -/
theorem Kept.ordered (rollupLimit : ℕ) (h : Kept opening world) {recent : List EquityPoint} {now : Clock}
    (hrecent : recent.Sublist (opening :: world.recorded))
    (hnow : recent ≠ [] ∨ now.hourStart.plusHour?.isSome) :
    ∃ closes, hourlyCloses (rollupsBefore (bucket (oldestAt now recent)) rollupLimit world.tables.rollups.rows) =
        .ok closes ∧
      Ordered world.recorded world.tables.rollups.rows rollupLimit recent (closes ++ recent.map .checkpoint) := by
  -- The rows that are shown end, and by the time of the first checkpoint.
  have hended : ∀ rollup ∈ rollupsBefore (bucket (oldestAt now recent)) rollupLimit world.tables.rollups.rows,
      rollup ∈ world.tables.rollups ∧ rollup.bucketStart.plusHour?.isSome ∧
        ∀ oldest ∈ recent.head?, rollup.bucketStart.instant + oneHour ≤ oldest.recordedAt.instant := by
    intro rollup hrollup
    obtain ⟨hmem, hlt⟩ := mem_rollupsBefore hrollup
    refine ⟨hmem, ?_⟩
    cases recent with
    | nil => exact ⟨Clock.plusHour_isSome_of_isoformat_lt hlt (hnow.resolve_left (by simp)), by simp⟩
    | cons oldest recent =>
      have hends := h.ends_before hmem (hrecent.mem mem_cons_self) hlt
      simpa using hends
  obtain ⟨closes, hok, hcloses⟩ := exists_hourlyCloses fun rollup hrollup => (hended rollup hrollup).2.1
  have hmem : ∀ rollup periodEnd, .hourlyClose rollup periodEnd ∈ closes ++ recent.map .checkpoint →
      rollup ∈ rollupsBefore (bucket (oldestAt now recent)) rollupLimit world.tables.rollups.rows ∧
        rollup.bucketStart.plusHour? = some periodEnd := by
    intro rollup periodEnd hclose
    rcases mem_append.mp hclose with hclose | hclose
    · obtain ⟨other, hother, otherEnd, hend, heq⟩ := hcloses.mem _ hclose
      obtain ⟨rfl, rfl⟩ := HistoryPoint.hourlyClose.inj heq
      exact ⟨hother, hend⟩
    · obtain ⟨point, -, hpoint⟩ := mem_map.mp hclose
      cases hpoint
  have htimes := h.inOrder.sublist hrecent
  refine ⟨closes, hok, ?_, ?_, ?_, fun rollup periodEnd hclose => (hended rollup (hmem _ _ hclose).1).1⟩
  · refine pairwise_append.mpr ⟨?_, pairwise_map.mpr htimes, ?_⟩
    · rw [← pairwise_map (f := HistoryPoint.instant) (R := (· ≤ ·)), hcloses.instants, pairwise_map]
      exact h.pairwise_rows _ _
    · intro close hclose checkpoint hcheckpoint
      obtain ⟨rollup, hrollup, periodEnd, -, rfl⟩ := hcloses.mem close hclose
      obtain ⟨point, hpoint, rfl⟩ := mem_map.mp hcheckpoint
      cases recent with
      | nil => cases hpoint
      | cons oldest recent =>
        have hend := (hended rollup hrollup).2.2 oldest rfl
        have hle : oldest.recordedAt.instant ≤ point.recordedAt.instant := by
          rcases mem_cons.mp hpoint with rfl | hpoint
          · exact le_rfl
          · exact (pairwise_cons.mp htimes).1 point hpoint
        have hhour := oneHour_nonneg
        simp only [HistoryPoint.instant]
        omega
  · intro rollup periodEnd hclose oldest holdest
    obtain ⟨hrollup, hend⟩ := hmem rollup periodEnd hclose
    rw [Clock.instant_plusHour hend]
    exact (hended rollup hrollup).2.2 oldest holdest
  · intro oldest holdest hlimit point hpoint hbefore
    cases recent with
    | nil => cases holdest
    | cons first recent =>
      obtain rfl : first = oldest := by simpa using holdest
      have hlt := h.lt_of_before hpoint (hrecent.mem mem_cons_self) hbefore
      have hshown := h.count_rows (bucket first.recordedAt) rollupLimit hpoint
        fun rollup hrollup hkey => mem_rollupsBefore_of_le hlimit hrollup (hkey ▸ hlt)
      have hcheckpoints : ((first :: recent).map HistoryPoint.checkpoint).countP
          (HistoryPoint.Covers point.recordedAt.instant) = 0 := by
        rw [countP_map]
        exact countP_eq_zero.mpr fun _ _ hcovers => of_decide_eq_true hcovers
      rw [countP_append, hcloses.count, hcheckpoints]
      exact hshown

/-- The first point of a season. -/
def openingPoint (sequence : ℕ) (now : Clock) (startingMinor : ℤ) : EquityPoint :=
  { id := sequence + 1, recordedAt := now, equityLamports := startingMinor, cashLamports := startingMinor }

variable {sequence : ℕ} {started : Clock} {startingMinor : ℤ}

theorem kept_opening : Kept (openingPoint sequence started startingMinor) (.opening sequence started startingMinor) where
  points := Sublist.refl _
  inOrder := pairwise_singleton _ _
  above := by simp [World.opening]
  hours := Pairwise.nil
  rolled := ⟨by simp [World.opening, EquityTables.opening], by simp [World.opening]⟩

theorem kept_run (hlater : Along World.step (Later started) (.opening sequence started startingMinor) calls)
    (hreadable : Along World.step (Readable started) (.opening sequence started startingMinor) calls) :
    Kept (openingPoint sequence started startingMinor)
      (run World.step (.opening sequence started startingMinor) calls) := by
  have hboth : Along World.step (fun world call => Later started world call ∧ Readable started world call)
      (.opening sequence started startingMinor) calls :=
    along_iff.mpr fun before call after hcalls =>
      ⟨along_iff.mp hlater before call after hcalls, along_iff.mp hreadable before call after hcalls⟩
  exact hboth.invariant kept_opening fun world call h hcall => h.step hcall.1 hcall.2

theorem recorded_prefix (world : World) (calls : List Call) : world.recorded <+: (run World.step world calls).recorded := by
  induction calls generalizing world with
  | nil => exact prefix_rfl
  | cons call calls ih =>
    refine List.IsPrefix.trans ?_ (ih (world.step call))
    cases call with
    | recordEquity observedAt equityLamports cashLamports => exact prefix_append _ _
    | prune maxEquityPoints rows => exact prefix_rfl

/-- **The history of a season is in order and complete.** The points are read after some calls, and the rows after
some more. -/
theorem compact_history_ordered (sequence : ℕ) (started : Clock) (startingMinor : ℤ) (calls between : List Call)
    (hlater : Along World.step (Later started) (.opening sequence started startingMinor) (calls ++ between))
    (hreadable : Along World.step (Readable started) (.opening sequence started startingMinor) (calls ++ between)) :
    let world := run World.step (.opening sequence started startingMinor) calls
    let later := run World.step (.opening sequence started startingMinor) (calls ++ between)
    (∀ recentLimit rollupLimit now,
      equityHistory recentLimit world.tables.points ≠ [] ∨ now.hourStart.plusHour?.isSome →
      ∃ history, compactEquityHistory recentLimit rollupLimit now world.tables.points later.tables.rollups.rows =
          .ok history ∧
        Ordered later.recorded later.tables.rollups.rows rollupLimit (equityHistory recentLimit world.tables.points)
          history) ∧
    ∀ rollup ∈ later.tables.rollups, Summarizes rollup (later.recorded.filter fun point => rollup.Holds point) := by
  intro world later
  have hkept : Kept (openingPoint sequence started startingMinor) world :=
    kept_run (along_append.mp hlater).1 (along_append.mp hreadable).1
  have hkept' : Kept (openingPoint sequence started startingMinor) later := kept_run hlater hreadable
  have hprefix : world.recorded <+: later.recorded := by
    dsimp only [world, later]
    rw [run_append]
    exact recorded_prefix _ between
  refine ⟨fun recentLimit rollupLimit now hnow => ?_, fun rollup hrollup => ?_⟩
  · have hrecent : (equityHistory recentLimit world.tables.points).Sublist
        (openingPoint sequence started startingMinor :: later.recorded) :=
      ((equityHistory_sublist _ _).trans hkept.points).trans (Sublist.cons_cons _ hprefix.sublist)
    obtain ⟨closes, hok, hordered⟩ := hkept'.ordered rollupLimit hrecent hnow
    refine ⟨_, ?_, hordered⟩
    rw [compactEquityHistory, hok]
    rfl
  · have hfilter : (later.recorded.filter fun point => rollup.Holds point) = ofHour rollup.key later.recorded := by
      refine filter_congr fun point hpoint => ?_
      simp only [hkept'.holds_iff hrollup hpoint]
    rw [hfilter]
    exact hkept'.rolled.rows rollup hrollup

/-- A time of the night in which the clocks are put back from two hours ahead of UTC to one. -/
def putBack : Fin 24 → Fin 60 → Fin 24 → Clock :=
  Clock.aheadOfUtc (.ofValid 2026 10 25 (by decide))

/-- Points of the two hours before that. The first one is pruned. -/
def evening : List Call :=
  [.recordEquity (putBack 0 10 2) 1010 900, .recordEquity (putBack 0 50 2) 990 900, .prune 2 1000,
    .recordEquity (putBack 1 20 2) 1020 900]

/-- The points of the evening are in the history before the clocks are put back. -/
theorem evening_ordered :
    ∃ history,
      compactEquityHistory 1 500 (putBack 2 0 2)
        (run World.step (.opening 0 (putBack 0 5 2) 1000) evening).tables.points
        (run World.step (.opening 0 (putBack 0 5 2) 1000)
          (evening ++ [.recordEquity (putBack 2 30 2) 1040 900])).tables.rollups.rows = .ok history ∧
      history.Pairwise fun point later => point.instant ≤ later.instant := by
  obtain ⟨history, hok, hordered⟩ :=
    (compact_history_ordered 0 (putBack 0 5 2) 1000 evening [.recordEquity (putBack 2 30 2) 1040 900]
      (by decide +kernel) (by decide +kernel)).1 1 500 (putBack 2 0 2) (by decide +kernel)
  exact ⟨history, hok, hordered.inTime⟩

/-- **The hour that the clocks are put back to comes first.** It is below the one before it as a text. -/
theorem put_back_out_of_order :
    let calls := [.recordEquity (putBack 2 30 2) 1010 900, .recordEquity (putBack 2 10 1) 990 900,
      .recordEquity (putBack 3 20 1) 1020 900]
    let world := run World.step (.opening 0 (putBack 0 5 2) 1000) calls
    Along World.step (Later (putBack 0 5 2)) (.opening 0 (putBack 0 5 2) 1000) calls ∧
    ((compactEquityHistory 1 500 (putBack 3 30 1) world.tables.points world.tables.rollups.rows).map
      fun history => history.map HistoryPoint.instant) =
      .ok [(putBack 2 0 1).instant, (putBack 2 0 2).instant, (putBack 3 20 1).instant] ∧
    (putBack 2 0 2).instant < (putBack 2 0 1).instant := by
  decide +kernel

end SignalArcade.Equity
