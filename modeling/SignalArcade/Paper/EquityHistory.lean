import SignalArcade.Lib.ClockTexts
import SignalArcade.Lib.Runs
import SignalArcade.Lib.Selection
import SignalArcade.Lib.Table
import Mathlib.Data.Char
import Mathlib.Data.List.Sort

/-!
# The equity history of a season

`record_equity` writes each equity twice: as a point of its own, which `prune_history` may delete after a while, and
into the row of its hour, which stays. `compact_equity_history` shows the last points, and before them the closes
of the hours that are over by then. An hour is the one on the clock that the point was written with, and hours are
compared by their texts.
-/

namespace SignalArcade.Equity

open Clocks Runs

/-! ### The tables -/

/-- A row of `equity_points`. -/
structure EquityPoint where
  id : ℕ
  recordedAt : Clock
  equityLamports : ℤ
  cashLamports : ℤ

/-- The text of the hour that a clock is in. -/
def bucket (clock : Clock) : List Char := clock.hourStart.isoformat

/-- A row of `equity_rollups`: an hour of points that were pruned. -/
structure EquityRollup where
  bucketStart : Clock
  openEquityLamports : ℤ
  highEquityLamports : ℤ
  lowEquityLamports : ℤ
  closeEquityLamports : ℤ
  closeCashLamports : ℤ
  samples : ℕ

/-- The primary key of `equity_rollups`. -/
def EquityRollup.key (rollup : EquityRollup) : List Char := rollup.bucketStart.isoformat

/-- Both tables. -/
structure EquityTables where
  /-- In the order of their ids. -/
  points : List EquityPoint
  rollups : Table (List Char) EquityRollup EquityRollup.key
  /-- The last id that was given away. -/
  sequence : ℕ

/-- The tables of a new season: its first point is not in a row of its hour. -/
def EquityTables.opening (sequence : ℕ) (now : Clock) (startingMinor : ℤ) : EquityTables where
  points := [{ id := sequence + 1, recordedAt := now, equityLamports := startingMinor, cashLamports := startingMinor }]
  rollups := .empty
  sequence := sequence + 1

/-- The row of an hour, with one more point: `ON CONFLICT(bucket_start) DO UPDATE`. -/
def EquityRollup.add (rollup : EquityRollup) (point : EquityPoint) : EquityRollup :=
  { rollup with
    highEquityLamports := max rollup.highEquityLamports point.equityLamports
    lowEquityLamports := min rollup.lowEquityLamports point.equityLamports
    closeEquityLamports := point.equityLamports
    closeCashLamports := point.cashLamports
    samples := rollup.samples + 1 }

/-- The row of an hour with one point. -/
def EquityRollup.first (point : EquityPoint) : EquityRollup where
  bucketStart := point.recordedAt.hourStart
  openEquityLamports := point.equityLamports
  highEquityLamports := point.equityLamports
  lowEquityLamports := point.equityLamports
  closeEquityLamports := point.equityLamports
  closeCashLamports := point.cashLamports
  samples := 1

def EquityTables.rollup (tables : EquityTables) (point : EquityPoint) : EquityRollup :=
  match tables.rollups.get? (bucket point.recordedAt) with
  | none => .first point
  | some rollup => rollup.add point

def EquityTables.recordEquity (tables : EquityTables) (point : EquityPoint) : EquityTables where
  points := tables.points ++ [point]
  rollups := tables.rollups.upsert (tables.rollup point)
  sequence := point.id

/-- The statement of `prune_history` on `equity_points`. All but the newest `maxEquityPoints` may go, the oldest
`rows` of them at once. A pass that yields deletes nothing. -/
def EquityTables.prune (tables : EquityTables) (maxEquityPoints rows : ℕ) : EquityTables :=
  match tables.points.reverse[maxEquityPoints]? with
  | none => tables
  | some last =>
    let ids := ((tables.points.filter fun point => point.id ≤ last.id).take rows).map EquityPoint.id
    { tables with points := tables.points.filter fun point => point.id ∉ ids }

/-! ### The history -/

/-- A point of the history that is shown. -/
inductive HistoryPoint where
  | hourlyClose (rollup : EquityRollup) (periodEnd : Clock)
  | checkpoint (point : EquityPoint)

/-- `recorded_at`. -/
def HistoryPoint.instant : HistoryPoint → ℤ
  | .hourlyClose rollup _ => rollup.bucketStart.instant
  | .checkpoint point => point.recordedAt.instant

/-- `OverflowError`. -/
inductive Overflow where
  | dateOutOfRange
  deriving DecidableEq

/-- The last points. -/
def equityHistory (limit : ℕ) (points : List EquityPoint) : List EquityPoint := (points.reverse.take limit).reverse

/-- The end of an hour. `timedelta` raises after the year 9999. -/
def hourlyCloses : List EquityRollup → Except Overflow (List HistoryPoint)
  | [] => .ok []
  | rollup :: rollups =>
    match rollup.bucketStart.plusHour? with
    | none => .error .dateOutOfRange
    | some periodEnd => do return .hourlyClose rollup periodEnd :: (← hourlyCloses rollups)

/-- The clock whose hour is the first one that is left out. -/
def oldestAt (now : Clock) (recent : List EquityPoint) : Clock :=
  match recent with
  | [] => now
  | point :: _ => point.recordedAt

/-- `bucket_start DESC`. -/
def NewestFirst (rollup other : EquityRollup) : Prop := other.key ≤ rollup.key

instance : DecidableRel NewestFirst := fun rollup other => inferInstanceAs (Decidable (other.key ≤ rollup.key))

/-- `WHERE bucket_start<? ORDER BY bucket_start DESC LIMIT ?`, the other way round. -/
def rollupsBefore (oldest : List Char) (rollupLimit : ℕ) (rollups : List EquityRollup) : List EquityRollup :=
  (((rollups.filter fun rollup => rollup.key < oldest).insertionSort NewestFirst).take rollupLimit).reverse

/-- `compact_equity_history`, which reads the points and afterwards the rows of the hours. -/
def compactEquityHistory (recentLimit rollupLimit : ℕ) (now : Clock) (points : List EquityPoint)
    (rollups : List EquityRollup) : Except Overflow (List HistoryPoint) := do
  let recent := equityHistory recentLimit points
  let hourly ← hourlyCloses (rollupsBefore (bucket (oldestAt now recent)) rollupLimit rollups)
  return hourly ++ recent.map .checkpoint

/-! ### Seasons -/

/-- A call that changes the tables. -/
inductive Call where
  | recordEquity (observedAt : Clock) (equityLamports cashLamports : ℤ)
  | prune (maxEquityPoints rows : ℕ)

/-- The tables, and all points that `record_equity` wrote in the season. -/
structure World where
  tables : EquityTables
  recorded : List EquityPoint := []

def World.step (world : World) : Call → World
  | .recordEquity recordedAt equityLamports cashLamports =>
    let point := { id := world.tables.sequence + 1, recordedAt, equityLamports, cashLamports }
    { tables := world.tables.recordEquity point, recorded := world.recorded ++ [point] }
  | .prune maxEquityPoints rows => { world with tables := world.tables.prune maxEquityPoints rows }

/-- A season when it begins. -/
def World.opening (sequence : ℕ) (started : Clock) (startingMinor : ℤ) : World where
  tables := .opening sequence started startingMinor

/-- No point is written at an earlier time than one before it. -/
def Later (opening : Clock) (world : World) : Call → Prop
  | .recordEquity observedAt _ _ =>
    opening.instant ≤ observedAt.instant ∧ ∀ point ∈ world.recorded, point.recordedAt.instant ≤ observedAt.instant
  | .prune _ _ => True

/-- A clock in an hour that is above that of an earlier one as a text, where neither is in the hour of the other. -/
structure Apart (earlier later : Clock) : Prop where
  lt : bucket earlier < bucket later
  before : earlier.instant < later.hourStart.instant
  after : earlier.hourStart.instant + oneHour ≤ later.instant
  /-- The hour ends before the year 10000. -/
  ends : earlier.hourStart.plusHour?.isSome

/-- The text of the hour of a new point is that of each point before it, or above it as it is later. It is not below that
of the opening of the season. -/
def Readable (opening : Clock) (world : World) : Call → Prop
  | .recordEquity observedAt _ _ =>
    ¬ bucket observedAt < bucket opening ∧
      ∀ point ∈ world.recorded, bucket point.recordedAt = bucket observedAt ∨ Apart point.recordedAt observedAt
  | .prune _ _ => True

instance (earlier later : Clock) : Decidable (Apart earlier later) :=
  decidable_of_iff
    (bucket earlier < bucket later ∧ earlier.instant < later.hourStart.instant ∧
      earlier.hourStart.instant + oneHour ≤ later.instant ∧ earlier.hourStart.plusHour?.isSome)
    ⟨fun h => ⟨h.1, h.2.1, h.2.2.1, h.2.2.2⟩, fun h => ⟨h.lt, h.before, h.after, h.ends⟩⟩

instance (opening : Clock) (world : World) : ∀ call, Decidable (Later opening world call)
  | .recordEquity .. => inferInstanceAs (Decidable (_ ∧ _))
  | .prune .. => inferInstanceAs (Decidable True)

instance (opening : Clock) (world : World) : ∀ call, Decidable (Readable opening world call)
  | .recordEquity .. => inferInstanceAs (Decidable (_ ∧ _))
  | .prune .. => inferInstanceAs (Decidable True)

end SignalArcade.Equity
