import SignalArcade.Arena.Skill
import SignalArcade.Lib.Runs
import SignalArcade.Lib.Table
import Mathlib.Data.Finset.Card

/-!
# Who took part in a season

The record of `season_strategy.py`: whether the baseline strategy, the local critic and
Champions or learners of which skills were used in a season, and by which versions.
`record_strategy_use` writes it and `read_strategy_record` reads it back through the strict
validators of `SeasonStrategyRecord`.
-/

namespace SignalArcade.Seasons

open Runs

/-! ### Times -/

/-- A `datetime`: microseconds of the epoch, with or without a time zone. -/
structure Datetime where
  aware : Bool
  micros : ℤ

/-- `a < b`. It raises when only one of them has a time zone. -/
def Datetime.lt? (a b : Datetime) : Option Bool := if a.aware = b.aware then some (a.micros < b.micros) else none

/-- How strings are read as times. -/
structure DatetimeReaders where
  /-- `datetime.fromisoformat`. `none` when it raises. -/
  fromisoformat : String → Option Datetime
  /-- `AwareDatetime`, in microseconds of the epoch. -/
  awareDatetime : String → Option ℤ
  /-- Where the first one reads a time zone, the second one reads no other time. Where it reads none they may differ: eight
  digits are a day to the first one and seconds to the second one. -/
  agree : ∀ {s : String} {d : Datetime} {t : ℤ}, fromisoformat s = some d → d.aware = true → awareDatetime s = some t →
    d.micros = t
  fromisoformat_empty : fromisoformat "" = none

variable (readers : DatetimeReaders)

/-- `datetime.fromisoformat(at) < datetime.fromisoformat(started)`, false. -/
def DatetimeReaders.notBefore (at' started : String) : Bool :=
  match readers.fromisoformat at', readers.fromisoformat started with
  | some d, some d' => d.lt? d' = some false
  | _, _ => false

/-! ### Participants -/

/-- Who can take part in a season. -/
inductive ParticipantKind where
  | champion | learner | aiCritic
  deriving DecidableEq

def ParticipantKind.value : ParticipantKind → String
  | .champion => "champion"
  | .learner => "learner"
  | .aiCritic => "ai_critic"

def ParticipantKind.ofValue? : String → Option ParticipantKind
  | "champion" => some .champion
  | "learner" => some .learner
  | "ai_critic" => some .aiCritic
  | _ => none

@[simp] theorem ParticipantKind.ofValue?_value (kind : ParticipantKind) : ofValue? kind.value = some kind := by
  cases kind <;> rfl

def skillValue (skill : Option ChallengerSkill) : String := skill.elim "" ChallengerSkill.value

/-- `Literal["entry", "manipulation", "sizing", "exit", ""]`. -/
def skillOfValue? (s : String) : Option (Option ChallengerSkill) :=
  if s = "" then some none else (ChallengerSkill.ofValue? s).map some

@[simp] theorem skillOfValue?_skillValue (skill : Option ChallengerSkill) :
    skillOfValue? (skillValue skill) = some skill := by
  cases skill with
  | none => rfl
  | some skill => simp [skillOfValue?, skillValue, ChallengerSkill.value_ne_empty]

/-- A participant as it is given: an item that is missing, or not a string, is `none`. -/
structure RawParticipant where
  kind : Option String
  skill : Option String
  version : Option String

/-- `(p.kind, p.skill, p.version)`. -/
structure Identity where
  kind : ParticipantKind
  skill : Option ChallengerSkill
  version : String
  deriving DecidableEq

/-- The items a participant is written as. -/
def Identity.raw (p : Identity) : RawParticipant := ⟨some p.kind.value, some (skillValue p.skill), some p.version⟩

/-- `str.isspace` of a character. -/
def isSpace (c : Char) : Bool :=
  c.toNat ∈ [0x85, 0xa0, 0x1680, 0x2028, 0x2029, 0x202f, 0x205f, 0x3000] || (0x09 ≤ c.toNat && c.toNat ≤ 0x0d) ||
    (0x1c ≤ c.toNat && c.toNat ≤ 0x20) || (0x2000 ≤ c.toNat && c.toNat ≤ 0x200a)

/-- What `StrategyParticipant` checks of kind, skill and version. -/
def Identity.valid (p : Identity) : Bool :=
  1 ≤ p.version.length && p.version.length ≤ 512 && decide (p.kind = .aiCritic ↔ p.skill = none) &&
    !p.version.toList.all isSpace

/-- `StrategyParticipant.model_validate({**participant, "first_used_at": at})`. -/
def strategyParticipant (participant : RawParticipant) (at' : String) : Option (Identity × ℤ) := do
  let kind ← ParticipantKind.ofValue? (← participant.kind)
  let skill ← skillOfValue? (← participant.skill)
  let version ← participant.version
  let firstUsedAt ← readers.awareDatetime at'
  if Identity.valid ⟨kind, skill, version⟩ then some (⟨kind, skill, version⟩, firstUsedAt) else none

/-! ### The record -/

/-- A participant, with the time of its first use. -/
structure Participant extends Identity where
  firstUsedAt : String
  deriving DecidableEq

/-- The record, as it is written. -/
@[ext]
structure StrategyRecord where
  schemaVersion : ℤ
  trackingStartedAt : String
  completeFromStart : Bool
  baselineObserved : Bool
  firstBaselineAt : Option String
  skillsObserved : List ChallengerSkill
  aiObserved : Bool
  championObserved : Bool
  unattributedUse : Bool
  participants : List Participant
  detailsLimited : Bool

def maxParticipants : ℕ := 128

def newStrategyRecord (startedAt : String) (complete : Bool) : StrategyRecord where
  schemaVersion := 1
  trackingStartedAt := startedAt
  completeFromStart := complete
  baselineObserved := false
  firstBaselineAt := none
  skillsObserved := []
  aiObserved := false
  championObserved := false
  unattributedUse := false
  participants := []
  detailsLimited := false

/-- The participants that `record_strategy_use` finds valid. -/
def validParticipants (participants : List RawParticipant) (at' : String) : List Identity :=
  participants.filterMap fun p => (strategyParticipant readers p at').map Prod.fst

def StrategyRecord.known (original : StrategyRecord) : Finset Identity :=
  (original.participants.map Participant.toIdentity).toFinset

def StrategyRecord.additions (original : StrategyRecord) (valid : List Identity) : List Identity :=
  let unique : Table Identity Identity id := .ofRows valid
  unique.rows.filter (· ∉ original.known)

def StrategyRecord.extended (original : StrategyRecord) (valid : List Identity) (unattributed baselineUse : Bool)
    (at' : String) : StrategyRecord :=
  let additions := original.additions valid
  { original with
    baselineObserved := original.baselineObserved || baselineUse
    firstBaselineAt := original.firstBaselineAt.or (if baselineUse then some at' else none)
    skillsObserved := ChallengerSkill.sorted fun skill =>
      skill ∈ original.skillsObserved || valid.any (·.skill = some skill)
    aiObserved := original.aiObserved || valid.any (·.kind = .aiCritic)
    championObserved := original.championObserved || valid.any (·.kind = .champion)
    detailsLimited := original.detailsLimited || maxParticipants < original.known.card + additions.length
    unattributedUse := original.unattributedUse || unattributed
    participants := original.participants ++
      (additions.take (maxParticipants - original.known.card)).map fun p => ⟨p, at'⟩ }

/-- `record_strategy_use`, at a time not before the start: a record without a new fact stays the same
object. -/
def StrategyRecord.use (original : StrategyRecord) (participants : List RawParticipant) (at' : String) :
    StrategyRecord :=
  let unattributed := participants.any fun p => (strategyParticipant readers p at').isNone
  let updated := original.extended (validParticipants readers participants at') unattributed participants.isEmpty at'
  if updated.participants = original.participants ∧
      updated.skillsObserved = original.skillsObserved ∧ updated.aiObserved = original.aiObserved ∧
      updated.championObserved = original.championObserved ∧
      updated.baselineObserved = original.baselineObserved ∧
      updated.detailsLimited = original.detailsLimited ∧
      updated.unattributedUse = original.unattributedUse then
    original
  else updated

def recordStrategyUse (original : StrategyRecord) (participants : List RawParticipant) (at' : String) :
    StrategyRecord :=
  if readers.notBefore at' original.trackingStartedAt then original.use readers participants at' else original

/-! ### The reader -/

/-- The record of a season, as it is read. -/
structure SeasonStrategyRecord where
  trackingStartedAt : ℤ
  completeFromStart : Bool
  baselineObserved : Bool
  firstBaselineAt : Option ℤ
  skillsObserved : List ChallengerSkill
  aiObserved : Bool
  championObserved : Bool
  unattributedUse : Bool
  participants : List (Identity × ℤ)
  detailsLimited : Bool

def SeasonStrategyRecord.consistentHistory (r : SeasonStrategyRecord) : Bool :=
  let identities : Finset Identity := (r.participants.map Prod.fst).toFinset
  let skills : Finset ChallengerSkill := (r.participants.filterMap (·.1.skill)).toFinset
  let recordedSkills : Finset ChallengerSkill := r.skillsObserved.toFinset
  let ai := r.participants.any (·.1.kind = .aiCritic)
  let champion := r.participants.any (·.1.kind = .champion)
  if identities.card ≠ r.participants.length ∨ recordedSkills.card ≠ r.skillsObserved.length ∨
      r.baselineObserved ≠ r.firstBaselineAt.isSome ∨ (∃ p ∈ r.participants, p.2 < r.trackingStartedAt) ∨
      (∃ t ∈ r.firstBaselineAt, t < r.trackingStartedAt) then
    false
  else if r.detailsLimited then
    r.participants.length = maxParticipants ∧ skills ⊆ recordedSkills ∧ (ai → r.aiObserved) ∧
      (champion → r.championObserved)
  else skills = recordedSkills ∧ ai = r.aiObserved ∧ champion = r.championObserved

/-- `AwareDatetime | None`. -/
def DatetimeReaders.awareDatetime? : Option String → Option (Option ℤ)
  | none => some none
  | some at' => (readers.awareDatetime at').map some

/-- `read_strategy_record`, of a record that was written. -/
def readStrategyRecord (record : StrategyRecord) : Option SeasonStrategyRecord := do
  let trackingStartedAt ← readers.awareDatetime record.trackingStartedAt
  let firstBaselineAt ← readers.awareDatetime? record.firstBaselineAt
  let participants ← record.participants.mapM fun p => strategyParticipant readers p.toIdentity.raw p.firstUsedAt
  let read : SeasonStrategyRecord :=
    { trackingStartedAt, completeFromStart := record.completeFromStart,
      baselineObserved := record.baselineObserved, firstBaselineAt,
      skillsObserved := record.skillsObserved, aiObserved := record.aiObserved,
      championObserved := record.championObserved, unattributedUse := record.unattributedUse,
      participants, detailsLimited := record.detailsLimited }
  if record.schemaVersion = 1 ∧ record.skillsObserved.length ≤ 4 ∧ record.participants.length ≤ maxParticipants ∧
      read.consistentHistory then some read else none

end SignalArcade.Seasons
