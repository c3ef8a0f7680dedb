import SignalArcade.Arena.BattleReplay
import SignalArcade.Challenger.Tournament

/-!
# Battles that are decided

The rounds of `_advance_entry_tournaments` with the recorder in them: a battle is recorded from its start, its
statistics are recorded in each round, and the round that decides it freezes the replay for the event it appends. The
state is saved with the replay of the battle, and both are loaded again. What the browser makes of the replay of an event
is `validateReplay` of `replay.ts`.
-/

namespace SignalArcade.Arena

open Challenger (LearningEngine ChallengerSkillArtifact CoverageRecord CoveragePolicy ChampionEvent ChampionEventKind
  Milestone TournamentRecord SkillKey CohortKey Verdict readPolicy savedMinimum)
open MeanBounds

/-! ### What the recorder sees -/

/-- The standard library and the digests. -/
structure Library where
  /-- `z_score * math.sqrt(variance / len(values))`, of its square. -/
  halfWidth : ℚ → ℚ
  cohortKey : CohortKey → String
  eventId : SkillKey → Milestone → String
  /-- The JSON of a replay has at most `MAX_REPLAY_BYTES`. -/
  fits : Replay → Bool

variable (library : Library)

/-- The private attributes of a state. -/
structure Recording where
  battleReplay : Option Replay := none
  battleReplayDirty : Bool := false
  pendingBattleReplays : FrozenReplays := .empty

/-- A state of the tournaments, with its recording. -/
structure Fighter where
  state : Challenger.ChallengerSkillState
  recording : Recording := {}

def vetoScoringVersion : String := "baseline-fallback-v1"

/-- A number of a record, or `None`. -/
def Statistic.ofOption : Option ℚ → Statistic
  | Option.none => .none
  | some x => .float x

def Library.lower (i : Interval) : ℚ := i.centre - library.halfWidth i.square

def Library.upper (i : Interval) : ℚ := i.centre + library.halfWidth i.square

/-- `last_tournament`, as the recorder reads it. -/
def tournamentOf (skill : ChallengerSkill) (record : TournamentRecord) : Tournament where
  candidateVersion := record.candidateVersion
  championVersion := record.championVersion
  actionScoring := if skill = .entry ∨ skill = .manipulation then some vetoScoringVersion else none
  observed := some (.int record.commonObservedCount)
  usable := some (.int record.commonUsableCount)
  meanUplift := .ofOption (record.uplift.map Interval.centre)
  upliftLowerBound := .ofOption (record.uplift.map library.lower)
  upliftUpperBound := .ofOption (record.uplift.map library.upper)

namespace Fighter

def recorder (fighter : Fighter) : ChallengerSkillState where
  testingVersion := fighter.state.testingVersion
  championVersion := fighter.state.championVersion
  lastTournament := tournamentOf library fighter.state.skill fighter.state.lastTournament
  cohortKey := library.cohortKey fighter.state.cohortKey
  skill := fighter.state.skill
  battleReplay := fighter.recording.battleReplay
  battleReplayDirty := fighter.recording.battleReplayDirty
  pendingBattleReplays := fighter.recording.pendingBattleReplays

/-- What the recorder leaves. -/
def recorded (fighter : Fighter) (recorder : ChallengerSkillState) : Fighter :=
  { fighter with
    recording :=
      { battleReplay := recorder.battleReplay
        battleReplayDirty := recorder.battleReplayDirty
        pendingBattleReplays := recorder.pendingBattleReplays } }

/-- `TOURNAMENT_MINIMUM_COMMON_OUTCOMES`. -/
def minimumSamples : ℤ := Challenger.tournamentMinimumCommonOutcomes

/-- `saved_minimum`, of a requirement that can be read. -/
def minimumCoverage (record : CoverageRecord) : ℚ := (savedMinimum record).untopD 0

def startReplay (fighter : Fighter) : Fighter :=
  fighter.recorded (Arena.startReplay (fighter.recorder library) minimumSamples
    (minimumCoverage fighter.state.lastTournament.coverage))

def recordReplay (now : ℕ) (fighter : Fighter) : Fighter :=
  fighter.recorded (Arena.recordReplay (fighter.recorder library) minimumSamples
    (minimumCoverage fighter.state.lastTournament.coverage) now)

def freezeReplay (eventId : String) (fighter : Fighter) : Fighter :=
  fighter.recorded (Arena.freezeReplay (fighter.recorder library) eventId)

/-! ### The rounds -/

def appendChampionEvent (event : ChampionEvent) (fighter : Fighter) : Fighter :=
  if fighter.state.championJourney.any fun known => known.milestone = event.milestone then fighter
  else
    let fighter :=
      if event.kind = .firstChampion then fighter
      else fighter.freezeReplay library (library.eventId fighter.state.key event.milestone)
    { fighter with state := { fighter.state with championJourney := fighter.state.championJourney ++ [event] } }

variable (engine : LearningEngine)

/-- A candidate begins to test against the Champion, and the battle is recorded. -/
def beginTournament (candidate : ChallengerSkillArtifact) (now : ℕ) (fighter : Fighter) : Fighter :=
  ({ fighter with state := engine.beginTournament candidate now fighter.state }.startReplay library).recordReplay library now

/-- The first Champion. -/
def crownFirst (selected : ChallengerSkillArtifact) (fighter : Fighter) : Fighter :=
  appendChampionEvent library
    { kind := .firstChampion
      candidateVersion := selected.version
      previousChampionVersion := none
      championVersion := selected.version
      occurredAt := selected.createdAt }
    { fighter with
      state :=
        { fighter.state with
          pendingVersions := fighter.state.pendingVersions.filter (· ≠ selected.version)
          championVersion := some selected.version
          lastTournament := { result := some .firstChampion, candidateVersion := some selected.version } } }

def startNextSkillTournament (now : ℕ) (fighter : Fighter) : Fighter :=
  if fighter.state.testingVersion.isSome then fighter
  else if fighter.state.championVersion.isSome ∧ (engine.judgeableChampion fighter.state).isNone then
    { fighter with state := LearningEngine.suspendUnavailable fighter.state.championVersion now fighter.state }
  else
    let fighter := { fighter with state := engine.withoutRedundant fighter.state }
    match engine.preferredPending fighter.state with
    | none => fighter
    | some selected =>
      if fighter.state.championVersion.isSome then fighter.beginTournament library engine selected now
      else
        let fighter := fighter.crownFirst library selected
        match engine.preferredPending fighter.state with
        | none => fighter
        | some candidate => fighter.beginTournament library engine candidate now

/-- The clock when a round records, when it appends its event, and when it starts the next tournament. -/
structure Readings where
  recorded : ℕ
  decided : ℕ
  started : ℕ

/-- The candidate of a battle that is lost or undecided. -/
def settle (candidateVersion : String) (event : ChampionEvent) (fighter : Fighter) : Fighter :=
  let fighter := fighter.appendChampionEvent library event
  { fighter with state := { LearningEngine.withRejected candidateVersion fighter.state with testingVersion := none } }

/-- The contest goes on, or ends with its verdict. -/
def advanceJudged (policy : CoveragePolicy) (candidateVersion championVersion : String) (readings : Readings)
    (fighter : Fighter) : Fighter :=
  let (record, found) := engine.judged policy candidateVersion championVersion fighter.state
  let fighter := recordReplay library readings.recorded
    { fighter with
      state := { fighter.state with commonForwardCount := record.commonUsableCount, lastTournament := record } }
  match found with
  | .collecting => fighter
  | .promoted =>
    startNextSkillTournament library engine readings.started
      (appendChampionEvent library
        (LearningEngine.championEvent .promoted candidateVersion championVersion candidateVersion record readings.decided)
        { fighter with state := { fighter.state with championVersion := some candidateVersion, testingVersion := none } })
  | .inconclusive =>
    startNextSkillTournament library engine readings.started
      (fighter.settle library candidateVersion
        (LearningEngine.championEvent .inconclusive candidateVersion championVersion championVersion record readings.decided))
  | .defended =>
    startNextSkillTournament library engine readings.started
      (fighter.settle library candidateVersion
        (LearningEngine.championEvent .defended candidateVersion championVersion championVersion record readings.decided))

/-- A tournament of a Coach candidate whose composition is not the active one any more. -/
def advanceStale (candidateVersion championVersion : String) (now : ℕ) (fighter : Fighter) : Fighter :=
  startNextSkillTournament library engine now
    { fighter with
      state :=
        { LearningEngine.withRejected candidateVersion fighter.state with
          testingVersion := none
          lastTournament :=
            { result := some .contextStale
              candidateVersion := some candidateVersion
              championVersion := some championVersion } } }

/-- A tournament one side of which is not available. -/
def advanceUnavailable (candidateVersion : String) (now : ℕ) (fighter : Fighter) : Fighter :=
  let suspended :=
    if (engine.judgeableChampion fighter.state).isNone then fighter.state.championVersion else some candidateVersion
  let state : Challenger.ChallengerSkillState :=
    { LearningEngine.suspendUnavailable suspended now fighter.state with testingVersion := none }
  if (engine.availableCandidate candidateVersion).isNone then
    let rejected :=
      if candidateVersion ∈ state.rejectedVersions then state.rejectedVersions
      else state.rejectedVersions ++ [candidateVersion]
    startNextSkillTournament library engine now
      { fighter with state := { state with rejectedVersions := rejected.rtake Challenger.maxModelVersions } }
  else if candidateVersion ∈ state.pendingVersions then { fighter with state }
  else
    { fighter with
      state :=
        { state with
          pendingVersions := (state.pendingVersions ++ [candidateVersion]).rtake Challenger.maxPendingChallengers } }

/-- A round of the loop of `_advance_entry_tournaments`, of a state of the current cohort. -/
def advance (readings : Readings) (fighter : Fighter) : Fighter :=
  match fighter.state.testingVersion with
  | none => fighter
  | some candidateVersion =>
    match engine.availableCandidate candidateVersion, engine.judgeableChampion fighter.state with
    | some candidate, some champion =>
      if candidate.isCoach ∧ candidate.dependencyVersions ≠ engine.activeSkillVersions then
        fighter.advanceStale library engine candidateVersion champion.version readings.started
      else match readPolicy fighter.state.lastTournament.coverage with
        | none => fighter
        | some policy => fighter.advanceJudged library engine policy candidateVersion champion.version readings
    | _, _ => fighter.advanceUnavailable library engine candidateVersion readings.started

/-- `_register_skill_artifact`, as far as the state goes. -/
def register (artifact : ChallengerSkillArtifact) (deferTournament : Bool) (now : ℕ) (fighter : Fighter) : Fighter :=
  let fighter := { fighter with state := { fighter.state with latestCandidateVersion := some artifact.version } }
  if engine.skillEligible artifact && !engine.redundantExitCandidate fighter.state artifact then
    let fighter := { fighter with state := engine.enqueue artifact fighter.state }
    if deferTournament then fighter else fighter.startNextSkillTournament library engine now
  else fighter

/-- What a round judges: the contestants, the record and the verdict. -/
def judges? (state : Challenger.ChallengerSkillState) : Option (String × String × TournamentRecord × Verdict) :=
  match state.testingVersion with
  | none => none
  | some candidateVersion =>
    match engine.availableCandidate candidateVersion, engine.judgeableChampion state with
    | some candidate, some champion =>
      if candidate.isCoach ∧ candidate.dependencyVersions ≠ engine.activeSkillVersions then none
      else (readPolicy state.lastTournament.coverage).map fun policy =>
        (candidateVersion, champion.version, engine.judged policy candidateVersion champion.version state)
    | _, _ => none

/-- The event of a battle that a round decides. -/
def decides? (now : ℕ) (state : Challenger.ChallengerSkillState) : Option ChampionEvent :=
  match judges? engine state with
  | some (candidate, champion, record, .promoted) =>
    some (LearningEngine.championEvent .promoted candidate champion candidate record now)
  | some (candidate, champion, record, .inconclusive) =>
    some (LearningEngine.championEvent .inconclusive candidate champion champion record now)
  | some (candidate, champion, record, .defended) =>
    some (LearningEngine.championEvent .defended candidate champion champion record now)
  | _ => none

end Fighter

/-! ### Saving and loading -/

/-- A fighter, what the database has of it, and the clock when it was read last. -/
structure Corner where
  fighter : Fighter
  saved : Challenger.ChallengerSkillState
  /-- `updated_at`, of the state and of its row. -/
  updatedAt : ℕ := 0
  savedAt : ℕ := 0
  /-- `_saved_skill_states` has the signature of what is saved. -/
  remembered : Bool := false
  /-- The row `active:…` of `champion_battle_replays`. -/
  activeRow : Option Replay := none
  /-- The rows `event:…`. -/
  eventRows : FrozenReplays := .empty
  clock : ℕ := 0
  /-- What is saved was acknowledged. -/
  acknowledged : saved.acknowledged = saved

/-- `INSERT OR IGNORE`. -/
def insertOrIgnore (rows : FrozenReplays) (frozen : String × Replay) : FrozenReplays :=
  if (rows.get? frozen.1).isSome then rows else rows.upsert frozen

theorem acknowledged_acknowledged (state : Challenger.ChallengerSkillState) :
    state.acknowledged.acknowledged = state.acknowledged := by
  have hlength (events : List ChampionEvent) (n : ℕ) : (events.rtake n).rtake n = events.rtake n := by
    simp only [List.rtake, List.drop_drop, List.length_drop]
    congr 1
    omega
  exact congrArg (fun championJourney => { state with championJourney }) (hlength ..)

/-- Whether `save_challenger_skill_state` finds nothing to write. -/
def Corner.skips (corner : Corner) (publication : Bool) : Bool :=
  !publication && corner.remembered && corner.fighter.state = corner.saved && !corner.fighter.recording.battleReplayDirty &&
    corner.fighter.recording.pendingBattleReplays = .empty

/-- `save_challenger_skill_state`, of a state that was updated at this time. A publication, which skips and remembers
nothing, commits. -/
def Corner.save (updatedAt : ℕ) (publication : Bool) (corner : Corner) : Corner :=
  if corner.skips publication then { corner with updatedAt := corner.savedAt }
  else
    let recording := corner.fighter.recording
    let state := corner.fighter.state.acknowledged
    { corner with
      fighter := { state, recording := { battleReplay := recording.battleReplay } }
      saved := state
      updatedAt
      savedAt := updatedAt
      remembered := !publication
      activeRow :=
        if recording.battleReplayDirty then (recording.battleReplay.filter library.fits).orElse fun _ => corner.activeRow
        else corner.activeRow
      eventRows :=
        (recording.pendingBattleReplays.rows.filter fun frozen => library.fits frozen.2).foldl insertOrIgnore
          corner.eventRows
      acknowledged := acknowledged_acknowledged _ }

/-- `list_challenger_skill_states`, which reads the last events from the journal. -/
def Corner.load (corner : Corner) (championJourney : List ChampionEvent) : Corner :=
  { corner with
    updatedAt := corner.savedAt
    remembered := false
    fighter :=
      { state := { corner.saved with championJourney }
        recording :=
          match corner.activeRow.filter fun replay => validReplay replay with
          | none => {}
          | some replay => { battleReplay := some { replay with incomplete := true }, battleReplayDirty := true } } }

/-- What happens to a fighter. The engine around it may be another one each time. -/
inductive Turn where
  | advance (engine : LearningEngine) (readings : Fighter.Readings)
  | start (engine : LearningEngine) (now : ℕ)
  | register (engine : LearningEngine) (artifact : ChallengerSkillArtifact) (deferTournament : Bool) (now : ℕ)
  /-- What else is done to the state. -/
  | govern (state : Challenger.ChallengerSkillState)
  | save (updatedAt : ℕ) (publication : Bool)
  | load (championJourney : List ChampionEvent)

/-- What a turn does to a corner. -/
def turn (corner : Corner) : Turn → Corner
  | .advance engine readings =>
    { corner with fighter := corner.fighter.advance library engine readings, clock := readings.started }
  | .start engine now =>
    { corner with fighter := corner.fighter.startNextSkillTournament library engine now, clock := now }
  | .register engine artifact deferTournament now =>
    { corner with fighter := corner.fighter.register library engine artifact deferTournament now, clock := now }
  | .govern state => { corner with fighter := { corner.fighter with state } }
  | .save updatedAt publication => corner.save library updatedAt publication
  | .load championJourney => corner.load championJourney

/-- Before anything is known of a skill. -/
def Corner.initial (key : SkillKey) : Corner where
  fighter := { state := { cohortKey := key.1, skill := key.2 } }
  saved := { cohortKey := key.1, skill := key.2 }
  acknowledged := rfl

/-! ### The browser -/

/-- `Number.MAX_SAFE_INTEGER`. -/
def maxSafeInteger : ℤ := 2 ^ 53 - 1

/-- A `ChallengerChampionEvent`, as the browser gets it. -/
structure BrowserEvent where
  eventId : String
  occurredAt : ℤ
  skill : ChallengerSkill
  kind : ChampionEventKind
  candidateVersion : String
  previousChampionVersion : Option String
  commonObservedCount : ℤ
  commonUsableCount : ℤ
  availabilityFraction : ℚ
  meanUplift : Statistic
  upliftLowerBound : Statistic

/-- What the API answers for an event. -/
structure Response where
  eventId : String
  cohortKey : String
  timeline : Option Replay

/-- The event as the browser gets it. -/
def browserEvent (key : SkillKey) (event : ChampionEvent) : BrowserEvent where
  eventId := library.eventId key event.milestone
  occurredAt := event.occurredAt
  skill := key.2
  kind := event.kind
  candidateVersion := event.candidateVersion
  previousChampionVersion := event.previousChampionVersion
  commonObservedCount := event.commonObservedCount
  commonUsableCount := event.commonUsableCount
  availabilityFraction := event.availabilityFraction
  meanUplift := .ofOption (event.uplift.map Interval.centre)
  upliftLowerBound := .ofOption (event.uplift.map library.lower)

def count (n : ℤ) : Bool := n ≤ maxSafeInteger ∧ 0 ≤ n

/-- `instant`, of the text of a UTC clock, in microseconds. -/
def instant? (time : ℤ) : Option ℤ := if |time| ≤ maxSafeInteger then some time else none

/-- The loop over the points, and the time of the last one. Before there is any it is `-Infinity`. -/
def timelineEnd (time : Option ℤ) (sequence : ℤ) : List Point → Option (Option ℤ)
  | [] => some time
  | p :: points => do
    guard (count p.sequence ∧ sequence < p.sequence)
    let now ← instant? p.time
    guard (time.all (· < now))
    guard (count p.usable ∧ count p.observed ∧ p.usable ≤ p.observed ∧
      |p.coverage - coverageOf p.usable p.observed| ≤ 1 / 10 ^ 9)
    guard (p.mean.recordable ∧ p.lower.recordable ∧ p.upper.recordable)
    guard (ordered p.lower p.mean p.upper)
    timelineEnd (some now) p.sequence points

/-- The checks of the browser. -/
def validateReplay (response : Response) (event : BrowserEvent) (cohort : String) : Option Replay := do
  guard (response.eventId = event.eventId ∧ response.cohortKey = cohort ∧ event.kind ≠ .firstChampion)
  let replay ← response.timeline
  guard (replay.version = replayVersion ∧ replay.cohortKey = cohort ∧ replay.skill = event.skill ∧
    replay.candidateVersion = some event.candidateVersion ∧ replay.championVersion = event.previousChampionVersion ∧
    replay.candidateVersion ≠ replay.championVersion)
  guard (count replay.minimumSamples ∧ 1 ≤ replay.minimumSamples ∧ replay.minimumSamples ≤ 10000 ∧
    0 < replay.minimumCoverage ∧ replay.minimumCoverage ≤ 1)
  guard (2 ≤ replay.points.length ∧ replay.points.length ≤ 32)
  let time ← timelineEnd none (-1) replay.points
  let last ← replay.points.getLast?
  let occurredAt ← instant? event.occurredAt
  guard (time.all (· ≤ occurredAt))
  guard (last.observed = event.commonObservedCount ∧ last.usable = event.commonUsableCount ∧
    last.coverage = event.availabilityFraction ∧ last.mean.same event.meanUplift ∧
    last.lower.same event.upliftLowerBound)
  return replay

end SignalArcade.Arena
