import SignalArcade.Arena.Skill
import SignalArcade.Lib.Runs
import SignalArcade.Lib.Table
import SignalArcade.Lib.Thinned
import Mathlib.Algebra.Order.Ring.Rat
import Mathlib.Algebra.Order.AddGroupWithTop
import Mathlib.Data.List.MinMax

/-!
# Battle replays

The recorder of `battle_replay.py`. A tournament writes its statistics to the state of a
skill, and the recorder copies them, with the time, to the replay of the battle between the
candidate under test and the Champion. A replay holds 32 points; of one more than that an
inner point is dropped, the one that turns least.
-/

namespace SignalArcade.Arena

open Runs

/-- A statistic, as far as the recorder tells values apart: `other` is neither `None` nor a number,
or it is not finite. -/
inductive Statistic where
  | none
  | int (n : ℤ)
  | float (x : ℚ)
  | other
  deriving DecidableEq

/-- The integers from here on are too large for a float. -/
def floatOverflow : ℤ := 2 ^ 1024 - 2 ^ 970

def Statistic.number? : Statistic → Option ℚ
  | .int n => some n
  | .float x => some x
  | _ => Option.none

def Statistic.finiteNumber : Statistic → Bool
  | .int n => |n| < floatOverflow
  | .float _ => true
  | _ => false

/-- `a == b`. -/
def Statistic.same : Statistic → Statistic → Bool
  | .none, .none => true
  | a, b => (a.number?.any fun x => b.number? = some x)

/-- `value is not None and not _finite_number(value)` is false. -/
def Statistic.recordable (v : Statistic) : Bool := v = .none || v.finiteNumber

/-- `lower <= mean <= upper`, when all three are known. -/
def ordered (lower mean upper : Statistic) : Bool :=
  match lower.number?, mean.number?, upper.number? with
  | some lower, some mean, some upper => lower ≤ mean && mean ≤ upper
  | _, _, _ => true

/-- What a point says of the tournament. -/
structure Evidence where
  observed : ℤ
  usable : ℤ
  coverage : ℚ
  mean : Statistic
  lower : Statistic
  upper : Statistic
  deriving DecidableEq

/-- `all(points[-1].get(key) == value for key, value in point.items())`. -/
def Evidence.same (a b : Evidence) : Bool :=
  a.observed = b.observed && a.usable = b.usable && a.coverage = b.coverage && a.mean.same b.mean &&
    a.lower.same b.lower && a.upper.same b.upper

/-- A point of a replay. -/
structure Point extends Evidence where
  time : ℕ
  sequence : ℕ
  deriving DecidableEq

/-- A replay: who fights, the limits at its start, and its points. -/
structure Replay where
  version : String
  cohortKey : String
  skill : ChallengerSkill
  candidateVersion : Option String
  championVersion : Option String
  minimumSamples : ℤ
  minimumCoverage : ℚ
  actionScoring : Option String
  /-- `partial`. -/
  incomplete : Bool
  sampled : Bool
  points : List Point
  deriving DecidableEq

/-- The statistics of a tournament, as the recorder reads them. -/
structure Tournament where
  candidateVersion : Option String
  championVersion : Option String
  actionScoring : Option String
  /-- `common_observed_count`, when it is there. -/
  observed : Option Statistic
  /-- `common_usable_count`, when it is there. -/
  usable : Option Statistic
  meanUplift : Statistic
  upliftLowerBound : Statistic
  upliftUpperBound : Statistic

/-- Who battles, and how it stands. -/
structure Contest where
  testingVersion : Option String
  championVersion : Option String
  lastTournament : Tournament

/-- The replays of finished battles, by their event. -/
abbrev FrozenReplays : Type := Table String (String × Replay) Prod.fst

/-- `ChallengerSkillState`, as far as the recorder goes. -/
structure ChallengerSkillState extends Contest where
  cohortKey : String
  skill : ChallengerSkill
  battleReplay : Option Replay := none
  battleReplayDirty : Bool := false
  pendingBattleReplays : FrozenReplays := .empty

def replayVersion : String := "battle-checkpoints-v1"

def maxReplayPoints : ℕ := 32

/-! ### The recorder -/

/-- The replay `start_replay` begins. -/
def ChallengerSkillState.freshReplay (state : ChallengerSkillState) (minimum : ℤ) (coverage : ℚ) : Replay where
  version := replayVersion
  cohortKey := state.cohortKey
  skill := state.skill
  candidateVersion := state.testingVersion
  championVersion := state.championVersion
  minimumSamples := minimum
  minimumCoverage := coverage
  actionScoring := state.lastTournament.actionScoring
  incomplete := false
  sampled := false
  points := []

def ChallengerSkillState.withReplay (state : ChallengerSkillState) (replay : Replay) : ChallengerSkillState :=
  { state with battleReplay := some replay, battleReplayDirty := true }

def startReplay (state : ChallengerSkillState) (minimum : ℤ) (coverage : ℚ) : ChallengerSkillState :=
  state.withReplay (state.freshReplay minimum coverage)

/-- `not value` is false of a version. -/
def present (version : Option String) : Bool := version.any (· ≠ "")

/-- The statistics are those of the pair that battles. -/
def Contest.battles (contest : Contest) : Bool :=
  present contest.testingVersion && present contest.championVersion &&
    contest.lastTournament.candidateVersion = contest.testingVersion &&
    contest.lastTournament.championVersion = contest.championVersion

/-- A corrected scoring starts the recording again. -/
def ChallengerSkillState.rescored (state : ChallengerSkillState) (minimum : ℤ) (coverage : ℚ) :
    ChallengerSkillState :=
  match state.battleReplay with
  | none => state
  | some replay =>
    if replay.actionScoring = state.lastTournament.actionScoring then state
    else state.withReplay { state.freshReplay minimum coverage with
      incomplete := !replay.points.isEmpty || replay.incomplete }

/-- A recording that begins in mid-battle. -/
def ChallengerSkillState.joined (state : ChallengerSkillState) (minimum : ℤ) (coverage : ℚ) :
    ChallengerSkillState × Replay :=
  match state.battleReplay with
  | some replay =>
    if replay.candidateVersion = state.testingVersion ∧ replay.championVersion = state.championVersion then
      (state, replay)
    else
      let replay := { state.freshReplay minimum coverage with incomplete := true }
      (state.withReplay replay, replay)
  | none =>
    let replay := { state.freshReplay minimum coverage with incomplete := true }
    (state.withReplay replay, replay)

/-- `usable / observed if observed else 0`. -/
def coverageOf (usable observed : ℤ) : ℚ := if observed = 0 then 0 else usable / observed

/-- The point the statistics make, if they are valid. -/
def Tournament.evidence? (stats : Tournament) : Option Evidence :=
  match stats.observed.getD (.int 0), stats.usable.getD (.int 0) with
  | .int observed, .int usable =>
    if 0 ≤ usable ∧ usable ≤ observed ∧ stats.meanUplift.recordable ∧ stats.upliftLowerBound.recordable ∧
        stats.upliftUpperBound.recordable ∧
        ordered stats.upliftLowerBound stats.meanUplift stats.upliftUpperBound then
      some ⟨observed, usable, coverageOf usable observed, stats.meanUplift, stats.upliftLowerBound,
        stats.upliftUpperBound⟩
    else none
  | _, _ => none

/-- How much a point turns. A mean that becomes unknown is kept before all others. -/
def importance (points : List Point) (index : ℕ) : WithTop ℚ :=
  let mean i := (points[i]?.bind fun p => p.mean.number?)
  match mean (index - 1), mean index, mean (index + 1) with
  | some before, some here, some after => ((|here - (before + after) / 2| : ℚ) : WithTop ℚ)
  | some _, none, _ => ⊤
  | _, _, _ => 0

/-- `del points[min(range(1, len(points) - 1), key=importance)]` when there are too many points. -/
def thin (replay : Replay) : Replay :=
  if maxReplayPoints < replay.points.length then
    { replay with
      points := match (List.range' 1 (replay.points.length - 2)).argmin (importance replay.points) with
        | some index => replay.points.eraseIdx index
        | none => replay.points
      sampled := true }
  else replay

/-- What becomes of a replay when evidence is presented at a time. `none` when it stays as it is. -/
def Replay.observe (shrink : Replay → Replay) (replay : Replay) (evidence : Evidence) (now : ℕ) : Option Replay :=
  match replay.points.getLast? with
  | none => some (shrink { replay with points := replay.points ++ [⟨evidence, now, 0⟩] })
  | some latest =>
    if latest.toEvidence.same evidence then none
    else if now ≤ latest.time then some { replay with incomplete := true }
    else some (shrink { replay with points := replay.points ++ [⟨evidence, now, latest.sequence + 1⟩] })

/-- `record_replay`, with what it does to keep a replay small. -/
def recordWith (shrink : Replay → Replay) (state : ChallengerSkillState) (minimum : ℤ) (coverage : ℚ) (now : ℕ) :
    ChallengerSkillState :=
  if state.battles then
    let (state, replay) := (state.rescored minimum coverage).joined minimum coverage
    match state.lastTournament.evidence? with
    | none => state
    | some evidence =>
      match replay.observe shrink evidence now with
      | none => state
      | some replay => state.withReplay replay
  else state

def recordReplay : ChallengerSkillState → ℤ → ℚ → ℕ → ChallengerSkillState := recordWith thin

def freezeReplay (state : ChallengerSkillState) (eventId : String) : ChallengerSkillState :=
  match state.battleReplay with
  | none => state
  | some replay =>
    if replay.points = [] then state
    else { state with pendingBattleReplays := state.pendingBattleReplays.upsert (eventId, replay) }

/-! ### The validator -/

/-- `datetime.min`. -/
def datetimeMin : ℤ := -62135596800000000

/-- The counts and the statistics of a point. -/
def Point.valid (p : Point) : Bool :=
  0 ≤ p.usable && p.usable ≤ p.observed &&
    |p.coverage - coverageOf p.usable p.observed| ≤ 1 / 10 ^ 9 &&
    p.mean.recordable && p.lower.recordable && p.upper.recordable && ordered p.lower p.mean p.upper

/-- The loop over the points. A time is a number: what is asked of its text is left out. -/
def validPoints (previousTime previousSequence : ℤ) : List Point → Bool
  | [] => true
  | p :: points =>
    previousTime < p.time && previousSequence < p.sequence && p.valid && validPoints p.time p.sequence points

def validKey (key : Option String) : Bool := key.any fun key => 1 ≤ key.length && key.length ≤ 180

/-- What the validator accepts. -/
def validReplay (replay : Replay) : Bool :=
  replay.version = replayVersion && validKey (some replay.cohortKey) && validKey replay.candidateVersion &&
    validKey replay.championVersion && replay.candidateVersion ≠ replay.championVersion &&
    1 ≤ replay.minimumSamples && replay.minimumSamples ≤ 10000 &&
    0 < replay.minimumCoverage && replay.minimumCoverage ≤ 1 &&
    1 ≤ replay.points.length && replay.points.length ≤ maxReplayPoints &&
    validPoints datetimeMin (-1) replay.points

/-! ### Battles -/

/-- What happens to the state of a skill: the tournament writes its statistics, and the recorder is
called. -/
inductive Action where
  | tournament (contest : Contest)
  | start (minimum : ℤ) (coverage : ℚ)
  | record (minimum : ℤ) (coverage : ℚ) (now : ℕ)
  | freeze (eventId : String)

def stepWith (shrink : Replay → Replay) (state : ChallengerSkillState) : Action → ChallengerSkillState
  | .tournament contest => { state with toContest := contest }
  | .start minimum coverage => startReplay state minimum coverage
  | .record minimum coverage now => recordWith shrink state minimum coverage now
  | .freeze eventId => freezeReplay state eventId

/-- One action, with the recorder of the source. -/
def step : ChallengerSkillState → Action → ChallengerSkillState := stepWith thin

/-- One action, with the recorder that forgets nothing. -/
def fullStep : ChallengerSkillState → Action → ChallengerSkillState := stepWith id

def Contest.after (contest : Contest) : Action → Contest
  | .tournament contest => contest
  | _ => contest

def Contest.presents (contest : Contest) : Action → List (Evidence × ℕ)
  | .record _ _ now => if contest.battles then (contest.lastTournament.evidence?.map (·, now)).toList else []
  | _ => []

/-- The evidence that a contest presents, in order. -/
def presented : Contest → List Action → List (Evidence × ℕ)
  | _, [] => []
  | contest, a :: actions => contest.presents a ++ presented (contest.after a) actions

/-- Versions that may battle, and values in the ranges of the validator. -/
structure FairBattle (contest : Contest) (minimum : ℤ) (coverage : ℚ) : Prop where
  distinct : contest.testingVersion ≠ contest.championVersion
  testing_le : ∀ version ∈ contest.testingVersion, version.length ≤ 180
  champion_le : ∀ version ∈ contest.championVersion, version.length ≤ 180
  minimum_mem : 1 ≤ minimum ∧ minimum ≤ 10000
  coverage_mem : 0 < coverage ∧ coverage ≤ 1

instance (contest : Contest) (minimum : ℤ) (coverage : ℚ) : Decidable (FairBattle contest minimum coverage) :=
  decidable_of_iff (contest.testingVersion ≠ contest.championVersion ∧
      (∀ version ∈ contest.testingVersion, version.length ≤ 180) ∧
      (∀ version ∈ contest.championVersion, version.length ≤ 180) ∧
      (1 ≤ minimum ∧ minimum ≤ 10000) ∧ 0 < coverage ∧ coverage ≤ 1)
    ⟨fun ⟨h, h', h'', hm, hc⟩ => ⟨h, h', h'', hm, hc⟩, fun ⟨h, h', h'', hm, hc⟩ => ⟨h, h', h'', hm, hc⟩⟩

/-- The recorder is called for a fair battle. -/
def Fair (state : ChallengerSkillState) : Action → Prop
  | .start minimum coverage | .record minimum coverage _ => FairBattle state.toContest minimum coverage
  | _ => True

instance (state : ChallengerSkillState) : (a : Action) → Decidable (Fair state a)
  | .start minimum coverage | .record minimum coverage _ =>
    inferInstanceAs (Decidable (FairBattle state.toContest minimum coverage))
  | .tournament _ | .freeze _ => inferInstanceAs (Decidable True)

end SignalArcade.Arena
