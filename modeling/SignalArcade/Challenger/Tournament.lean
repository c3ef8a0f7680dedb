import SignalArcade.Challenger.Activation

/-!
# Tournaments

How a Champion is found, in `learning.py`. An artifact that is registered waits in
`pending_versions`; `_start_next_skill_tournament` crowns the first one and lets the next one test
against the Champion; `_advance_entry_tournaments` compares the two on outcomes that both predicted
in advance, until one has won or the contest is inconclusive.
-/

namespace SignalArcade.Challenger

open MeanBounds Selection
open Paper (Instant)

/-! ### Constants -/

def tournamentMaximumCommonOutcomes : ℕ := 120

/-- `TOURNAMENT_MAXIMUM_COMMON_OBSERVED`: the number above at an availability of 70 percent. -/
def tournamentMaximumCommonObserved : ℕ := 172

def tournamentProofVersion : String := "paired-skill-outcomes-v2"

def maxPendingChallengers : ℕ := 4

def nonlinearComplexityMargin : ℚ := 2 / 100

def recentChampionEventsInMemory : ℕ := 100

/-! ### The journey of the Champions -/

/-- What the `event_id` of an event is the digest of, in its cohort and skill. -/
structure Milestone where
  kind : ChampionEventKind
  candidateVersion : String
  previousChampionVersion : Option String
  championVersion : String
  deriving DecidableEq

def ChampionEvent.milestone (event : ChampionEvent) : Milestone :=
  ⟨event.kind, event.candidateVersion, event.previousChampionVersion, event.championVersion⟩

namespace ChallengerSkillState

def appendChampionEvent (state : ChallengerSkillState) (event : ChampionEvent) : ChallengerSkillState :=
  if state.championJourney.any fun known => known.milestone = event.milestone then state
  else { state with championJourney := state.championJourney ++ [event] }

/-- `_acknowledge_skill_state`: what stays in memory when the state was saved. -/
def acknowledged (state : ChallengerSkillState) : ChallengerSkillState :=
  { state with championJourney := state.championJourney.rtake recentChampionEventsInMemory }

end ChallengerSkillState

/-! ### Who is next -/

namespace ChallengerSkillArtifact

variable (artifact other : ChallengerSkillArtifact)

/-- Whether two artifacts of the Exit skill are the same rule. -/
def sameRule : Bool :=
  artifact.hyperparameters.recipe = other.hyperparameters.recipe && artifact.skill = other.skill &&
    artifact.schemaVersion = other.schemaVersion && artifact.modelFamily = other.modelFamily &&
    artifact.implementationVersion = other.implementationVersion && artifact.recipeVersion = other.recipeVersion &&
    artifact.payloadFormat = other.payloadFormat && artifact.payloadDigest = other.payloadDigest &&
    artifact.riskMode = other.riskMode && artifact.configurationFingerprint = other.configurationFingerprint &&
    artifact.baselineVersion = other.baselineVersion && artifact.featureSchemaVersion = other.featureSchemaVersion &&
    artifact.featureNames = other.featureNames && artifact.parameters = other.parameters &&
    artifact.dependencyVersions = other.dependencyVersions

/-- Whether the key by which waiting artifacts are compared is below that of another one. -/
def olderThan : Bool :=
  decide (artifact.createdAt < other.createdAt) ||
    (decide (artifact.createdAt = other.createdAt) && decide (artifact.version < other.version))

/-- Whether two artifacts were trained and validated on the same evidence. -/
def samePopulation : Bool :=
  artifact.artifactMinimum = other.artifactMinimum &&
    artifact.hyperparameters.coverage.revision.getD (.int 0) = other.hyperparameters.coverage.revision.getD (.int 0) &&
    artifact.evidenceCohortDigest = other.evidenceCohortDigest && artifact.trainingCutoffAt = other.trainingCutoffAt &&
    artifact.trainingCount = other.trainingCount && artifact.validationCount = other.validationCount &&
    artifact.featureNames = other.featureNames

/-- Whether the artifacts name the same Policy population. -/
def samePolicyCohort : Bool :=
  match artifact.parameters.policyEvidenceCohort with
  | .text cohort => "v1:".isPrefixOf cohort && other.parameters.policyEvidenceCohort = .text cohort
  | _ => false

/-- Whether a nonlinear artifact is better than the linear one by enough for its complexity, over exact rationals. -/
def outweighs : Bool :=
  ((other.metrics.get "validation_rmse").finite?.any fun linear =>
    0 < linear && (artifact.metrics.get "validation_rmse").finite?.any fun nonlinear =>
      nonlinear ≤ linear * (1 - nonlinearComplexityMargin)) &&
  (other.metrics.get "policy_uplift_lower").finite?.all fun linear =>
    (artifact.metrics.get "policy_uplift_lower").finite?.any fun nonlinear => linear ≤ nonlinear

end ChallengerSkillArtifact

namespace LearningEngine

variable (engine : LearningEngine)

def redundantExitCandidate (state : ChallengerSkillState) (candidate : ChallengerSkillArtifact) : Bool :=
  (engine.artifact? state.championVersion).any fun champion =>
    champion.qualified && candidate.qualified && candidate.skill = .exit && candidate.modelFamily = .deterministic &&
      candidate.schemaVersion = challengerSkillSchemaVersion &&
      candidate.implementationVersion = "bounded-horizon-selector-v1" && candidate.recipeVersion = "exit-horizon-v1" &&
      candidate.payloadFormat = "inline" && !candidate.dependencyVersions.nonempty &&
      candidate.boundedExitHorizon.isSome && candidate.payloadDigest = some (engine.runtime.digest candidate.parameters) &&
      !(state.suspendedVersion = some champion.version &&
        !(state.suspensionReason = some .degraded || state.suspensionReason = some .unverifiable)) &&
      candidate.sameRule champion

/-- The pending artifacts that may test. -/
def waiting (state : ChallengerSkillState) : List ChallengerSkillArtifact :=
  (state.pendingVersions.filterMap engine.skillArtifacts.get?).filter fun artifact =>
    engine.skillEligible artifact && (state.skill ≠ .exit || artifact.exitArtifactAvailable engine.runtime) &&
      engine.loadable artifact && artifact.version ∉ state.rejectedVersions && state.championVersion ≠ some artifact.version

/-- The artifact of `_preferred_pending_version`. -/
def preferredPending (state : ChallengerSkillState) : Option ChallengerSkillArtifact :=
  let candidates := engine.waiting state
  (best ChallengerSkillArtifact.olderThan candidates).map fun oldest =>
    if oldest.evidenceCohortDigest.getD "" = "" ∨ oldest.trainingCutoffAt = none then oldest
    else
      let peers := candidates.filter oldest.samePopulation
      let newest (family : StatisticalModelFamily) :=
        best (fun a b => b.olderThan a) (peers.filter fun artifact => artifact.modelFamily = family)
      match newest .linear, newest .xgboost with
      | some linear, some nonlinear =>
        -- provenance that cannot be told is not made up: waiting order decides
        if !linear.samePolicyCohort nonlinear then oldest
        else if nonlinear.outweighs linear then nonlinear
        else linear
      | _, _ => oldest

/-! ### The next tournament -/

def judgeable (artifact : ChallengerSkillArtifact) : Bool := engine.exitAvailable artifact && engine.loadable artifact

def judgeableChampion (state : ChallengerSkillState) : Option ChallengerSkillArtifact :=
  (engine.artifact? state.championVersion).filter engine.judgeable

/-- A suspension because an artifact of a tournament is not available. -/
def suspendUnavailable (version : Option String) (now : Instant) (state : ChallengerSkillState) : ChallengerSkillState :=
  { state with
    suspendedVersion := version
    suspensionReason := some .tournamentArtifactUnavailable
    suspendedAt := some now }

def crownFirst (selected : ChallengerSkillArtifact) (state : ChallengerSkillState) : ChallengerSkillState :=
  ({ state with
      pendingVersions := state.pendingVersions.filter (· ≠ selected.version)
      championVersion := some selected.version
      lastTournament := { result := some .firstChampion, candidateVersion := some selected.version } }).appendChampionEvent
    { kind := .firstChampion
      candidateVersion := selected.version
      previousChampionVersion := none
      championVersion := selected.version
      occurredAt := selected.createdAt }

/-- A candidate begins to test against the Champion. -/
def beginTournament (candidate : ChallengerSkillArtifact) (now : Instant) (state : ChallengerSkillState) :
    ChallengerSkillState :=
  let floor : ℚ := if (engine.artifact? state.championVersion).any ChallengerSkillArtifact.isCoach then 70 / 100 else 0
  { state with
    pendingVersions := state.pendingVersions.filter (· ≠ candidate.version)
    testingVersion := some candidate.version
    commonForwardCount := 0
    lastTournament :=
      { coverage := engine.coverageReceipt candidate floor true now
        result := some .collecting
        candidateVersion := some candidate.version
        championVersion := state.championVersion } }

/-- The waiting versions without those that say nothing new. -/
def withoutRedundant (state : ChallengerSkillState) : ChallengerSkillState :=
  { state with
    pendingVersions := state.pendingVersions.filter fun version =>
      !(engine.skillArtifacts.get? version).any (engine.redundantExitCandidate state) }

def startNextSkillTournament (now : Instant) (state : ChallengerSkillState) : ChallengerSkillState :=
  if state.testingVersion.isSome then state
  else if state.championVersion.isSome ∧ (engine.judgeableChampion state).isNone then
    suspendUnavailable state.championVersion now state
  else
    let state := engine.withoutRedundant state
    match engine.preferredPending state with
    | none => state
    | some selected =>
      if state.championVersion.isSome then engine.beginTournament selected now state
      else
        let state := crownFirst selected state
        match engine.preferredPending state with
        | none => state
        | some candidate => engine.beginTournament candidate now state

/-! ### Registration -/

def withCoverageRequirement (artifact : ChallengerSkillArtifact) : ChallengerSkillArtifact :=
  if !artifact.isCoach && engine.coveragePolicy.revision ≠ 0 && artifact.hyperparameters.coverage.absent then
    let fresh := engine.coveragePolicy.fresh artifact.trainingCutoffAt
    { artifact with
      hyperparameters :=
        { artifact.hyperparameters with
          coverage := engine.coveragePolicy.metadata
          coverageFreshValidation := .flag fresh }
      qualified := artifact.qualified && fresh && !engine.coveragePolicyError }
  else artifact

/-- Whether a waiting version makes room for an artifact: there is one of each native family, and one of
the Coach. -/
def superseded (artifact : ChallengerSkillArtifact) (version : String) : Bool :=
  !(engine.skillArtifacts.get? version).any fun other =>
    other.isCoach ≠ artifact.isCoach || (!artifact.isCoach && other.modelFamily ≠ artifact.modelFamily)

def enqueue (artifact : ChallengerSkillArtifact) (state : ChallengerSkillState) : ChallengerSkillState :=
  let pending := state.pendingVersions.filter fun version =>
    !engine.superseded artifact version && state.testingVersion ≠ some version && state.championVersion ≠ some version
  let known : Bool :=
    state.testingVersion = some artifact.version || state.championVersion = some artifact.version ||
      artifact.version ∈ state.rejectedVersions
  { state with pendingVersions := (if known then pending else pending ++ [artifact.version]).rtake maxPendingChallengers }

def saveState (state : ChallengerSkillState) : LearningEngine := engine.setState state.acknowledged

def registeredState (artifact : ChallengerSkillArtifact) (deferTournament : Bool) (now : Instant)
    (state : ChallengerSkillState) : ChallengerSkillState :=
  let state := { state with latestCandidateVersion := some artifact.version }
  if engine.skillEligible artifact && !engine.redundantExitCandidate state artifact then
    let state := engine.enqueue artifact state
    if deferTournament then state else engine.startNextSkillTournament now state
  else state

/-- `_register_skill_artifact`, of an artifact that has a payload or none; nothing where it raises. A
version that is known can only be registered as it is. -/
def registerSkillArtifact (artifact : ChallengerSkillArtifact) (cohortKey : CohortKey) (payload deferTournament : Bool)
    (now : Instant) : Option LearningEngine :=
  let artifact := engine.withCoverageRequirement artifact
  if payload ≠ decide (artifact.modelFamily = .xgboost) then none
  else if (engine.skillArtifacts.get? artifact.version).any (· ≠ artifact) then none
  else
    let engine := { engine with skillArtifacts := engine.skillArtifacts.upsert artifact }
    let state := (engine.skillStates.get? (cohortKey, artifact.skill)).getD { cohortKey := cohortKey, skill := artifact.skill }
    some (engine.saveState (engine.registeredState artifact deferTournament now state))

end LearningEngine

/-! ### The comparison -/

/-- An outcome that both sides predicted. -/
structure PairedOutcome where
  candidateValue : ℚ
  championValue : ℚ
  candidateVetoedWinner : Bool
  championVetoedWinner : Bool

/-- What a tournament may come to. -/
inductive Verdict where
  | promoted | inconclusive | defended | collecting
  deriving DecidableEq

/-- `result` of the tournament. -/
def Verdict.result : Verdict → TournamentResult
  | .promoted => .promoted
  | .inconclusive => .inconclusive
  | .defended => .rejected
  | .collecting => .collecting

/-- What a tournament comes to on these outcomes, of `observed` that are resolved. -/
def verdict (minimumCoverage : WithTop ℚ) (observed : ℕ) (usable : List PairedOutcome) : Verdict :=
  let deltas := usable.map fun o => o.candidateValue - o.championValue
  let availability : ℚ := if observed = 0 then 0 else usable.length / observed
  let bounds := interval zScore deltas
  let enough : Bool := tournamentMinimumCommonOutcomes ≤ usable.length && minimumCoverage ≤ (availability : WithTop ℚ)
  let vetoGuard : Bool :=
    (usable.filter PairedOutcome.candidateVetoedWinner).length ≤
      (usable.filter PairedOutcome.championVetoedWinner).length + max 1 (usable.length / 20)
  let harmGuard : Bool :=
    (usable.filter fun o => o.candidateValue < o.championValue).length ≤ max 1 (usable.length * 35 / 100)
  let promoted : Bool := enough && bounds.any (fun i => i.lowerAbove 0) && vetoGuard && harmGuard
  let maximumReached : Bool :=
    tournamentMaximumCommonOutcomes ≤ usable.length || tournamentMaximumCommonObserved ≤ observed
  let undecided : Bool := bounds.all fun i => !i.lowerAbove 0 && !i.upperAtMost 0 && vetoGuard && harmGuard
  if promoted then .promoted
  else if maximumReached && (!enough || undecided) then .inconclusive
  else if (enough && bounds.any fun i => i.upperAtMost 0) || maximumReached then .defended
  else .collecting

namespace LearningEngine

variable (engine : LearningEngine)

/-- Whether an episode is one of a tournament: both sides predicted it, and both know the outcome. -/
def tournamentResolved (state : ChallengerSkillState) (policy : CoveragePolicy) (candidate champion : String)
    (episode : LearningEvidenceEpisode) : Bool :=
  (policy.effectiveAt.isNone || policy.fresh (some episode.createdAt)) && episode.riskMode = state.cohortKey.riskMode &&
    episode.configurationFingerprint = some state.cohortKey.configurationFingerprint &&
    episode.baselineVersion = state.cohortKey.baselineVersion &&
    episode.featureSchemaVersion = state.cohortKey.featureSchemaVersion && episode.baselineAction = .enter &&
    episode.baselineActionable && (episode.challengerEvaluations candidate).any episode.receiptOutcomeResolved &&
    (episode.challengerEvaluations champion).any episode.receiptOutcomeResolved

/-- What both sides made of an episode, if that can be told. -/
def pairedOutcome? (candidate champion : String) (episode : LearningEvidenceEpisode) : Option PairedOutcome := do
  let candidateReceipt ← episode.challengerEvaluations candidate
  let championReceipt ← episode.challengerEvaluations champion
  let candidateValue ← episode.tournamentPolicyValue candidateReceipt
  let championValue ← episode.tournamentPolicyValue championReceipt
  let winner := (episode.netReturn (some primaryHorizonSeconds)).any (0 < ·)
  some ⟨candidateValue, championValue, candidateReceipt.vetoApplies && winner, championReceipt.vetoApplies && winner⟩

def tournamentEpisodes (state : ChallengerSkillState) (policy : CoveragePolicy) (candidate champion : String) :
    List LearningEvidenceEpisode :=
  (engine.policyEvidence
    ⟨state.cohortKey.riskMode, some state.cohortKey.configurationFingerprint, state.cohortKey.baselineVersion⟩ none).filter
    (tournamentResolved state policy candidate champion)

/-! ### One state -/

/-- What an advance makes of a state. -/
structure TournamentStep where
  state : ChallengerSkillState
  saved : Bool
  /-- The new Champion, and the version of the old one. -/
  promoted : Option (ChallengerSkillArtifact × String) := none

def availableCandidate (version : String) : Option ChallengerSkillArtifact :=
  (engine.skillArtifacts.get? version).filter fun candidate => candidate.entryValidationCurrent && engine.judgeable candidate

/-- A tournament one side of which is not available. -/
def advanceUnavailable (candidateVersion : String) (now : Instant) (state : ChallengerSkillState) : ChallengerSkillState :=
  let suspended :=
    if (engine.judgeableChampion state).isNone then state.championVersion else some candidateVersion
  let state : ChallengerSkillState := { suspendUnavailable suspended now state with testingVersion := none }
  if (engine.availableCandidate candidateVersion).isNone then
    let rejected :=
      if candidateVersion ∈ state.rejectedVersions then state.rejectedVersions
      else state.rejectedVersions ++ [candidateVersion]
    engine.startNextSkillTournament now { state with rejectedVersions := rejected.rtake maxModelVersions }
  else if candidateVersion ∈ state.pendingVersions then state
  else { state with pendingVersions := (state.pendingVersions ++ [candidateVersion]).rtake maxPendingChallengers }

/-- `rejected_versions`, with a version that is not there yet. -/
def withRejected (version : String) (state : ChallengerSkillState) : ChallengerSkillState :=
  if version ∈ state.rejectedVersions then state
  else { state with rejectedVersions := (state.rejectedVersions ++ [version]).rtake maxModelVersions }

/-- A tournament of a Coach candidate whose composition is not the active one any more. -/
def advanceStale (candidateVersion championVersion : String) (now : Instant) (state : ChallengerSkillState) :
    ChallengerSkillState :=
  engine.startNextSkillTournament now
    { withRejected candidateVersion state with
      testingVersion := none
      lastTournament :=
        { result := some .contextStale
          candidateVersion := some candidateVersion
          championVersion := some championVersion } }

/-- The record of a comparison, and its verdict. -/
def judged (policy : CoveragePolicy) (candidateVersion championVersion : String) (state : ChallengerSkillState) :
    TournamentRecord × Verdict :=
  let resolved := engine.tournamentEpisodes state policy candidateVersion championVersion
  let usable := resolved.filterMap (pairedOutcome? candidateVersion championVersion)
  let found := verdict (savedMinimum state.lastTournament.coverage) resolved.length usable
  ({ coverage := state.lastTournament.coverage
     result := some found.result
     proofVersion := some tournamentProofVersion
     candidateVersion := some candidateVersion
     championVersion := some championVersion
     commonObservedCount := resolved.length
     commonUsableCount := usable.length
     availabilityFraction := if resolved.length = 0 then 0 else usable.length / resolved.length
     uplift := interval zScore (usable.map fun o => o.candidateValue - o.championValue) }, found)

def championEvent (kind : ChampionEventKind) (candidateVersion previous championVersion : String) (record : TournamentRecord)
    (now : Instant) : ChampionEvent where
  kind := kind
  candidateVersion := candidateVersion
  previousChampionVersion := some previous
  championVersion := championVersion
  occurredAt := now
  commonObservedCount := record.commonObservedCount
  commonUsableCount := record.commonUsableCount
  availabilityFraction := record.availabilityFraction
  uplift := record.uplift

def crownCandidate (candidateVersion : String) (event : ChampionEvent) (state : ChallengerSkillState) : ChallengerSkillState :=
  ({ state with championVersion := some candidateVersion, testingVersion := none }).appendChampionEvent event

def settleTournament (candidateVersion : String) (event : ChampionEvent) (state : ChallengerSkillState) : ChallengerSkillState :=
  { withRejected candidateVersion (state.appendChampionEvent event) with testingVersion := none }

/-- The contest goes on, or ends with its verdict. -/
def advanceJudged (policy : CoveragePolicy) (candidateVersion championVersion : String) (now : Instant)
    (state : ChallengerSkillState) : ChallengerSkillState :=
  let (record, found) := engine.judged policy candidateVersion championVersion state
  let state := { state with commonForwardCount := record.commonUsableCount, lastTournament := record }
  match found with
  | .collecting => state
  | .promoted =>
    engine.startNextSkillTournament now (crownCandidate candidateVersion
      (championEvent .promoted candidateVersion championVersion candidateVersion record now) state)
  | .inconclusive =>
    engine.startNextSkillTournament now (settleTournament candidateVersion
      (championEvent .inconclusive candidateVersion championVersion championVersion record now) state)
  | .defended =>
    engine.startNextSkillTournament now (settleTournament candidateVersion
      (championEvent .defended candidateVersion championVersion championVersion record now) state)

/-- A round of the loop of `_advance_entry_tournaments`, of a state of the current cohort. -/
def advanceState (now : Instant) (state : ChallengerSkillState) : TournamentStep :=
  match state.testingVersion with
  | none => { state := state, saved := false }
  | some candidateVersion =>
    match engine.availableCandidate candidateVersion, engine.judgeableChampion state with
    | some candidate, some champion =>
      if candidate.isCoach ∧ candidate.dependencyVersions ≠ engine.activeSkillVersions then
        { state := engine.advanceStale candidateVersion champion.version now state, saved := true }
      else match readPolicy state.lastTournament.coverage with
        -- a requirement that cannot be read is not replaced by a looser one
        | none => { state := state, saved := false }
        | some policy =>
          { state := engine.advanceJudged policy candidateVersion champion.version now state
            saved := true
            promoted :=
              if (engine.judged policy candidateVersion champion.version state).2 = .promoted then
                some (candidate, champion.version)
              else none }
    | _, _ => { state := engine.advanceUnavailable candidateVersion now state, saved := true }

/-! ### All states -/

/-- `_promote_active_skill`, and whether it returns. -/
def promoteActiveSkill (artifact : ChallengerSkillArtifact) (previousVersion : String) (now : Instant) :
    LearningEngine × Bool :=
  if engine.mode ≠ .active ∨ engine.activeSkillVersions artifact.skill ≠ some previousVersion then (engine, true)
  else if engine.independent artifact then (engine.suspendSkill artifact.skill .championReplaced now, true)
  else match engine.activateSkill artifact false false .dependencyPromoted now with
    | some engine => (engine, true)
    | none => (engine, false)

/-- A round of the loop, and whether it returns. -/
def advanceSkill (now : Instant) (key : SkillKey) : LearningEngine × Bool :=
  match engine.skillStates.get? key with
  | none => (engine, true)
  | some state =>
    if engine.currentCohortKey ≠ some key.1 then (engine, true)
    else
      let step := engine.advanceState now state
      if step.saved then
        match step.promoted with
        | none => (engine.saveState step.state, true)
        | some (candidate, previous) => (engine.saveState step.state).promoteActiveSkill candidate previous now
      else (engine, true)

/-- The loop; a round that raises ends it. -/
def advanceSkills (now : Instant) : LearningEngine → List SkillKey → LearningEngine
  | engine, [] => engine
  | engine, key :: keys =>
    match engine.advanceSkill now key with
    | (engine, true) => advanceSkills now engine keys
    | (engine, false) => engine

def advanceEntryTournaments (now : Instant) : LearningEngine :=
  advanceSkills now engine (engine.skillStates.rows.map ChallengerSkillState.key)

end LearningEngine

end SignalArcade.Challenger
