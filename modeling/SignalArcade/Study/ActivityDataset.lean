import SignalArcade.Lib.Checked
import SignalArcade.Lib.ClockTexts
import SignalArcade.Lib.Table
import Mathlib.Data.List.Sort
import Mathlib.Data.Prod.Lex
import Mathlib.Data.String.Basic

/-!
# Extracts of a study

`extract_study` reads from the evidence journal the policy episodes of a period. Their clocks are texts with offsets of
their own, so the statement selects by the first characters of the text, from a day before the period on, and by
`julianday` with a second to spare, and the clocks are read afterwards. `validate_dataset` checks what was read, or what
was imported, once more.
-/

namespace SignalArcade.ActivityDataset

open Checked Clocks

/-! ### What the code is given -/

/-- What `datetime.fromisoformat` returns. -/
inductive Reading where
  | naive (wall : ℤ)
  | aware (wall utcoffset : ℤ)
  deriving DecidableEq

/-- The values that `json.loads` returns, as far as they are told apart here. -/
inductive Json where
  | text (value : String)
  | list (items : List Json)
  | other

/-- The material of `_policy_identity_key`. -/
structure Identity where
  mint : String
  riskMode : String
  configurationFingerprint : Option String
  baselineVersion : String
  featureSchemaVersion : String

/-- The fields of a `LearningEvidenceEpisode` that are looked at. -/
structure Episode where
  episodeId : String
  lane : String
  createdAt : Reading
  entryAt : Reading
  identity : Identity

/-- The standard library, SQLite, pydantic and the hash functions. -/
structure Readers where
  fromisoformat : List Char → Option Reading
  /-- In days. -/
  julianday : List Char → Option ℚ
  modelValidateJson : String → Option Episode
  jsonLoads : String → Option Json
  sha256 : String → String
  stableDigest : Identity → String

/-- The window of the study, with its text. -/
structure StudyWindow where
  start : Clock
  finish : Clock
  /-- `model_dump_json`. -/
  dump : String

/-- A row of `learning_evidence_episodes`, as the study reads it. -/
structure EvidenceRow where
  episodeId : String
  lane : String
  createdAt : List Char
  recordJson : String

/-- A row of `learning_policy_identities`. -/
structure IdentityRow where
  identityKey : String
  firstEntryAt : List Char
  firstEpisodeId : String

/-- A companion of a parent. -/
structure CompanionRow where
  parentId : String
  recordJson : String

/-- What one read transaction sees. -/
structure Snapshot where
  userVersion : ℕ
  /-- The setting `coach_policy_pruned_through`. -/
  prunedThrough : Option String
  episodes : Table String EvidenceRow EvidenceRow.episodeId
  identities : Table String IdentityRow IdentityRow.identityKey
  /-- The table `learning_activity_policy`, if there is one. -/
  companions : Option (Table String CompanionRow CompanionRow.parentId)

/-- Why a dataset is refused. -/
inductive DatasetError where
  /-- A `ValueError` of the module. -/
  | value (text : String)
  /-- `fromisoformat` or pydantic raises `ValueError`. -/
  | unreadable
  /-- `OverflowError`. -/
  | dateOutOfRange
  /-- `TypeError`: a row is not there. -/
  | noRow
  /-- The handler interrupts a statement, or SQLite raises in it. -/
  | interrupted
  deriving DecidableEq

/-- Where the time may be up, or a statement may raise. -/
inductive Place where
  | opening
  | row (index : ℕ)
  | parent (index : ℕ)
  | finish

def maxRows : ℕ := 5000

def maxParentBytes : ℕ := 64 * 1024 * 1024

def maxActivityEvidenceBytes : ℕ := 4096

/-- The extract: the parents in their order, and what goes with them. -/
structure StudyDataset where
  specSha256 : String
  asOf : Reading
  sourceSchema : ℕ
  parents : List String
  identities : Table String IdentityRow IdentityRow.identityKey
  companions : Table String CompanionRow CompanionRow.parentId
  prunedThrough : Option String
  metadataRowsRead : ℕ
  parentBytes : ℕ

variable (readers : Readers)

def specDigest (study : StudyWindow) : String := readers.sha256 study.dump

/-- `aware_clock`: date and time of day, and the offset. -/
def awareClock (value : List Char) : Except DatasetError (ℤ × ℤ) :=
  match readers.fromisoformat value with
  | none => .error .unreadable
  | some (.naive _) => .error (.value "study data contains a naive clock")
  | some (.aware wall utcoffset) => .ok (wall, utcoffset)

/-- The instant that an aware clock shows. -/
def Reading.instant? : Reading → Option ℤ
  | .naive _ => none
  | .aware wall utcoffset => some (wall - utcoffset)

/-! ### Extracting -/

/-- The parameters of the statement: two dates and two clocks. -/
structure Envelope where
  lower : List Char
  upper : List Char
  from' : List Char
  until' : List Char

def orOverflow {α : Type} : Option α → Except DatasetError α
  | none => .error .dateOutOfRange
  | some a => .ok a

def envelope (study : StudyWindow) : Except DatasetError Envelope := do
  discard <| orOverflow (Clock.utc? study.start.instant)
  discard <| orOverflow (Clock.utc? study.finish.instant)
  let lower ← orOverflow (Clock.utc? (study.start.instant - oneDay))
  let upper ← orOverflow (Clock.utc? (study.finish.instant + 2 * oneDay))
  let from' ← orOverflow (Clock.utc? (study.start.instant - second))
  let until' ← orOverflow (Clock.utc? (study.finish.instant + second))
  return {
    lower := lower.date.isoformat
    upper := upper.date.isoformat
    from' := from'.isoformat
    until' := until'.isoformat }

/-- `julianday(created_at) BETWEEN julianday(?) AND julianday(?)`, which `NULL` does not satisfy. -/
def between (day lower upper : Option ℚ) : Bool :=
  match day, lower, upper with
  | some day, some lower, some upper => lower ≤ day ∧ day ≤ upper
  | _, _, _ => false

/-- The `WHERE` of the statement. -/
def Envelope.selects (envelope : Envelope) (row : EvidenceRow) : Bool :=
  row.lane = "policy" ∧ ¬ row.createdAt < envelope.lower ∧ row.createdAt < envelope.upper ∧
    (readers.julianday row.createdAt = none ∨
      between (readers.julianday row.createdAt) (readers.julianday envelope.from') (readers.julianday envelope.until'))

/-- The loop over the cursor, with the number of rows scanned before. -/
def scan (study : StudyWindow) (asOf : Clock) (fault : Place → Option DatasetError) :
    ℕ → List EvidenceRow → Except DatasetError (List (ℤ ×ₗ String))
  | _, [] => .ok []
  | scanned, row :: rows => do
    (fault (.row scanned)).elim (.ok ()) .error
    raiseIf (maxRows < scanned + 1) (.value "study row budget exceeded; no partial cohort accepted")
    let (wall, utcoffset) ← awareClock readers row.createdAt
    let instant := wall - utcoffset
    let metadata ← scan study asOf fault (scanned + 1) rows
    return if study.start.instant ≤ instant ∧ instant < study.finish.instant ∧ instant ≤ asOf.instant then
      toLex (instant, row.episodeId) :: metadata
    else metadata

/-- What the loop over the sorted metadata builds up. -/
structure Collected where
  parents : List String := []
  identities : Table String IdentityRow IdentityRow.identityKey := .empty
  companions : Table String CompanionRow CompanionRow.parentId := .empty
  byteCount : ℕ := 0

/-- The companion of a parent, or an empty one if it is too large. -/
def companion (snapshot : Snapshot) (episodeId : String) : Option CompanionRow := do
  let row ← (← snapshot.companions).get? episodeId
  return if row.recordJson.utf8ByteSize ≤ maxActivityEvidenceBytes then row else { row with recordJson := "\x7b\x7d" }

/-- The body of the loop over the sorted metadata. -/
def collect (snapshot : Snapshot) (budget : ℕ) (instant : ℤ) (episodeId : String) (collected : Collected) :
    Except DatasetError Collected := do
  let row ← (snapshot.episodes.get? episodeId).elim (.error .noRow) .ok
  let byteCount := collected.byteCount + row.recordJson.utf8ByteSize
  raiseIf (budget < byteCount) (.value "study parent byte budget exceeded; no partial cohort accepted")
  let parent ← (readers.modelValidateJson row.recordJson).elim (.error .unreadable) .ok
  raiseIf
    (parent.episodeId ≠ episodeId ∨ parent.lane ≠ "policy" ∨ parent.createdAt.instant? ≠ some instant ∨
      parent.entryAt.instant? ≠ some instant)
    (.value "study parent identity/clock disagrees with indexed metadata")
  let receipt := snapshot.identities.get? (readers.stableDigest parent.identity)
  return {
    parents := collected.parents ++ [row.recordJson]
    identities := receipt.elim collected.identities collected.identities.upsert
    companions := (companion snapshot episodeId).elim collected.companions collected.companions.upsert
    byteCount }

def collectAll (snapshot : Snapshot) (budget : ℕ) (fault : Place → Option DatasetError) :
    ℕ → List (ℤ ×ₗ String) → Collected → Except DatasetError Collected
  | _, [], collected => .ok collected
  | index, place :: metadata, collected => do
    (fault (.parent index)).elim (.ok ()) .error
    let collected ← collect readers snapshot budget (ofLex place).1 (ofLex place).2 collected
    collectAll snapshot budget fault (index + 1) metadata collected

/-- `extract_study`, where SQLite lists the selected rows in an order of its own. -/
def extractStudy (snapshot : Snapshot) (study : StudyWindow) (budget : ℕ) (asOf : Clock)
    (cursor : List EvidenceRow → List EvidenceRow) (fault : Place → Option DatasetError) :
    Except DatasetError StudyDataset := do
  raiseIf (¬ (0 < budget ∧ budget ≤ maxParentBytes)) (.value "invalid parent byte budget")
  (fault .opening).elim (.ok ()) .error
  let envelope ← envelope study
  let rows := (cursor (snapshot.episodes.rows.filter (envelope.selects readers))).take (maxRows + 1)
  let metadata ← scan readers study asOf fault 0 rows
  let collected ← collectAll readers snapshot budget fault 0 (metadata.insertionSort (· ≤ ·)) {}
  (fault .finish).elim (.ok ()) .error
  return {
    specSha256 := specDigest readers study
    asOf := .aware asOf.wall asOf.utcoffset
    sourceSchema := snapshot.userVersion
    parents := collected.parents
    identities := collected.identities
    companions := collected.companions
    prunedThrough := snapshot.prunedThrough
    metadataRowsRead := rows.length
    parentBytes := collected.byteCount }

/-! ### Validating -/

/-- The row as it is compared: the instant of its entry, and its id. -/
def Episode.place (row : Episode) : ℤ ×ₗ String := toLex ((row.entryAt.instant?).getD 0, row.episodeId)

def readParents : List String → Except DatasetError (List Episode)
  | [] => .ok []
  | payload :: payloads => do
    let row ← (readers.modelValidateJson payload).elim (.error .unreadable) .ok
    return row :: (← readParents payloads)

/-- `len({...}) != len(...)`, the other way round. -/
def distinct (rows : List Episode) : Prop := (rows.map Episode.episodeId).Nodup

instance (rows : List Episode) : Decidable (distinct rows) := inferInstanceAs (Decidable (List.Nodup _))

/-- A parent is out of the scope of the study. -/
def outOfScope (study : StudyWindow) (asOf : Reading) (row : Episode) : Bool :=
  match row.entryAt.instant? with
  | none => true
  | some entryAt =>
    row.createdAt.instant? ≠ some entryAt ∨ row.lane ≠ "policy" ∨
      ¬ (study.start.instant ≤ entryAt ∧ entryAt < study.finish.instant) ∨
      ∃ now ∈ asOf.instant?, now < entryAt

/-- The issues of one policy identity. What is raised in here is an issue too. -/
def identityIssues (study : StudyWindow) (data : StudyDataset) (rows : List Episode) (key : String) : List String :=
  let matching := rows.filter fun row => readers.stableDigest row.identity = key
  match data.identities.get? key with
  | none => ["missing_or_invalid_policy_identity"]
  | some receipt =>
    if receipt.firstEpisodeId = "" then ["missing_or_invalid_policy_identity"]
    else
      match awareClock readers receipt.firstEntryAt with
      | .error _ => ["missing_or_invalid_policy_identity"]
      | .ok (wall, utcoffset) =>
        let firstAt := wall - utcoffset
        if ∃ row ∈ matching, row.place < toLex (firstAt, receipt.firstEpisodeId) then
          ["missing_or_invalid_policy_identity"]
        else
          (if (study.start.instant ≤ firstAt ∧ firstAt < study.finish.instant) ∧
              ∀ row ∈ rows, row.episodeId ≠ receipt.firstEpisodeId then
            ["original_policy_parent_missing"] else []) ++
          (if (∃ row ∈ rows, row.episodeId = receipt.firstEpisodeId) ∧
              ¬ ∃ row ∈ matching, row.episodeId = receipt.firstEpisodeId ∧ row.entryAt.instant? = some firstAt then
            ["missing_or_invalid_policy_identity"] else [])

/-- The two texts of a watermark. -/
def watermark? : Option Json → Option (String × String)
  | some (.list [.text clock, .text episodeId]) => if clock = "" ∨ episodeId = "" then none else some (clock, episodeId)
  | _ => none

/-- The issues of the retention watermark. An `OverflowError` is not caught. -/
def retentionIssues (study : StudyWindow) : Option String → Except DatasetError (List String)
  | none => .ok []
  | some prunedThrough =>
    match watermark? (readers.jsonLoads prunedThrough) with
    | none => .ok ["invalid_retention_watermark"]
    | some (clock, _) =>
      match awareClock readers clock.toList with
      | .error _ => .ok ["invalid_retention_watermark"]
      | .ok (wall, utcoffset) => do
        raiseIf (lastWall < wall + 2 * oneDay) .dateOutOfRange
        return if study.start.instant ≤ wall - utcoffset + 2 * oneDay then ["retention_may_overlap_study"] else []

/-- `validate_dataset`: the rows, and the issues in order. -/
def validateDataset (data : StudyDataset) (study : StudyWindow) : Except DatasetError (List Episode × List String) := do
  raiseIf (data.specSha256 ≠ specDigest readers study ∨ data.asOf.instant? = none)
    (.value "dataset specification or observation clock mismatch")
  raiseIf (data.parentBytes ≠ (data.parents.map String.utf8ByteSize).sum) (.value "dataset parent byte count mismatch")
  raiseIf (data.metadataRowsRead < data.parents.length) (.value "dataset metadata count mismatch")
  let rows ← readParents readers data.parents
  let keys := (rows.map fun row => readers.stableDigest row.identity).dedup
  raiseIf
    (¬ distinct rows ∨ (∃ row ∈ data.companions.rows, row.parentId ∉ rows.map Episode.episodeId) ∨
      ∃ row ∈ data.identities.rows, row.identityKey ∉ keys)
    (.value "dataset contains duplicate or unrelated records")
  raiseIf (∃ row ∈ rows, outOfScope study data.asOf row) (.value "dataset contains an out-of-scope parent")
  let schemaIssues := if data.sourceSchema ≠ 16 then ["unverified_source_schema"] else []
  let retention ← retentionIssues readers study data.prunedThrough
  let issues := schemaIssues ++ keys.flatMap (identityIssues readers study data rows) ++ retention
  return (rows, issues.dedup.insertionSort (· ≤ ·))

end SignalArcade.ActivityDataset
