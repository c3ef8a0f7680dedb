import SignalArcade.Challenger.Engine
import SignalArcade.Lib.Selection
import Mathlib.Data.String.Basic

/-!
# Evidence that proves

Which episodes of the Policy lane prove something of a contract, `_policy_evidence`, and which
observations of Discovery are left to learn from: those of a market that is not reserved for
proof. A market proves once for each contract: by its earliest episode, which is the one that
`_policy_identities` remembers, if it remembers one.
-/

namespace SignalArcade.Challenger

open Paper (Instant RiskMode DecisionAction)
open Selection

def modelWindowObservations : ℕ := 1000

def minimumTrainingSamples : ℕ := 80

/-- A risk mode, a configuration and a Baseline version. -/
structure Contract where
  riskMode : RiskMode
  configurationFingerprint : Option String
  baselineVersion : String
  deriving DecidableEq

def ChallengerSkillArtifact.contract (artifact : ChallengerSkillArtifact) : Contract :=
  ⟨artifact.riskMode, some artifact.configurationFingerprint, artifact.baselineVersion⟩

/-- `_policy_identity_key`, of an observation. -/
def LearningObservation.policyIdentityKey (observation : LearningObservation) : PolicyIdentityKey :=
  ⟨observation.mint, observation.riskMode, observation.configurationFingerprint, observation.baselineVersion,
    observation.featureSchemaVersion⟩

/-- Whether an episode is one that can prove something, of any season. -/
def LearningEvidenceEpisode.qualifying (episode : LearningEvidenceEpisode) : Bool :=
  episode.lane = .policy && episode.evidenceSchemaVersion = learningEvidenceSchemaVersion &&
    episode.qualificationEligible && !episode.synthetic && episode.sourceMode = "solana_mainnet"

/-- It counts as evidence of the contract. -/
def LearningEvidenceEpisode.proves (episode : LearningEvidenceEpisode) (contract : Contract) : Bool :=
  episode.qualifying && episode.seasonId.isSome && episode.riskMode = contract.riskMode &&
    episode.configurationFingerprint = contract.configurationFingerprint &&
    episode.baselineVersion = contract.baselineVersion && episode.featureSchemaVersion = Challenger.featureSchemaVersion &&
    episode.baselineAction = .enter && episode.baselineActionable && featuresComplete episode.features

/-- The order of the evidence. -/
def entersBefore (first second : LearningEvidenceEpisode) : Prop :=
  first.entryAt < second.entryAt ∨ (first.entryAt = second.entryAt ∧ first.episodeId ≤ second.episodeId)

instance : DecidableRel entersBefore := fun first second =>
  inferInstanceAs
    (Decidable (first.entryAt < second.entryAt ∨ (first.entryAt = second.entryAt ∧ first.episodeId ≤ second.episodeId)))

namespace LearningEngine

variable (engine : LearningEngine)

def selectPolicyEvidence (contract : Contract) : List LearningEvidenceEpisode :=
  let eligible := (engine.evidenceEpisodes.rows.filter fun episode => episode.proves contract).insertionSort entersBefore
  let original := eligible.filter fun episode =>
    (engine.policyIdentities episode.policyIdentityKey).all episode.matchesPolicyIdentity
  (firstPer LearningEvidenceEpisode.mint original).rtake modelWindowObservations

/-- The evidence of a contract, from a time on. -/
def policyEvidence (contract : Contract) (notBefore : Option Instant) : List LearningEvidenceEpisode :=
  ((engine.selectPolicyEvidence contract).filter fun episode => notBefore.all fun start => start ≤ episode.entryAt).rtake
    modelWindowObservations

/-- `_current_observation_has_policy_twin`. -/
def observationHasPolicyTwin (observation : LearningObservation) : Bool :=
  (engine.policyIdentities observation.policyIdentityKey).isSome ||
    engine.evidenceEpisodes.rows.any fun episode =>
      episode.mint = observation.mint && episode.qualifying && episode.riskMode = observation.riskMode &&
        episode.configurationFingerprint = observation.configurationFingerprint &&
        episode.baselineVersion = observation.baselineVersion &&
        episode.featureSchemaVersion = observation.featureSchemaVersion

def byCreation (observations : List LearningObservation) : List LearningObservation :=
  observations.insertionSort fun first second => first.createdAt ≤ second.createdAt

/-- What `entry_outcome_availability` counts of a market. -/
structure ResolvedOutcome where
  mint : String
  createdAt : Instant
  usable : Bool

/-- `entry_outcome_availability`, of the cohort of the engine: how many outcomes were observed, and how
many of them are available. -/
def entryOutcomeAvailability : ℕ × ℕ :=
  let contract : Contract := ⟨engine.currentRiskMode, engine.configurationFingerprint, engine.baselineVersion⟩
  let discovery := (byCreation engine.observations.rows).filterMap fun observation =>
    if observation.riskMode = contract.riskMode ∧
        observation.configurationFingerprint = contract.configurationFingerprint ∧
        observation.sourceMode = "solana_mainnet" ∧ observation.featureSchemaVersion = Challenger.featureSchemaVersion ∧
        observation.baselineVersion = contract.baselineVersion ∧ featuresComplete observation.features ∧
        !engine.observationHasPolicyTwin observation then
      (observation.checkpoints primaryHorizonSeconds).map fun checkpoint =>
        (⟨observation.mint, observation.createdAt, checkpoint.netReturn.isSome⟩ : ResolvedOutcome)
    else none
  let policy := (engine.policyEvidence contract none).filterMap fun episode =>
    (episode.checkpoints primaryHorizonSeconds).map fun checkpoint =>
      (⟨episode.mint, episode.createdAt, checkpoint.netReturn.isSome⟩ : ResolvedOutcome)
  let combined := (discovery ++ policy).insertionSort fun first second => first.createdAt ≤ second.createdAt
  let resolved := (firstPer ResolvedOutcome.mint combined).rtake modelWindowObservations
  (resolved.length, (resolved.filter ResolvedOutcome.usable).length)

/-- `_entry_coverage_ready`, for a requirement of an artifact. -/
def entryCoverageReady (required : WithTop ℚ) : Bool :=
  let report := engine.entryOutcomeAvailability
  let fraction : ℚ := if report.1 = 0 then 0 else report.2 / report.1
  minimumTrainingSamples ≤ report.1 && engine.coveragePolicy.fraction ≤ fraction && !engine.coveragePolicyError &&
    (decide (required ≤ ((engine.coveragePolicy.fraction : ℚ) : WithTop ℚ)) || decide (required ≤ (fraction : WithTop ℚ)))

end LearningEngine

/-! ### What the selection is of -/

namespace LearningEngine

variable {engine : LearningEngine} {contract : Contract} {notBefore : Option Instant} {episode : LearningEvidenceEpisode}

theorem selectPolicyEvidence_sublist (engine : LearningEngine) (contract : Contract) :
    (engine.selectPolicyEvidence contract).Sublist
      ((engine.evidenceEpisodes.rows.filter fun episode => episode.proves contract).insertionSort entersBefore) :=
  (rtake_sublist _ _).trans ((firstPer_sublist _ _).trans List.filter_sublist)

/-- An episode that proves is one of the store, may prove something of the contract, and was entered no
earlier than is asked. -/
theorem mem_policyEvidence (h : episode ∈ engine.policyEvidence contract notBefore) :
    episode ∈ engine.evidenceEpisodes ∧ episode.proves contract = true ∧ ∀ start ∈ notBefore, start ≤ episode.entryAt := by
  have hkept := (rtake_sublist _ _).subset h
  rw [List.mem_filter] at hkept
  have hsorted := (selectPolicyEvidence_sublist engine contract).subset hkept.1
  rw [List.mem_insertionSort, List.mem_filter] at hsorted
  refine ⟨hsorted.1, hsorted.2, ?_⟩
  intro start hstart
  rw [Option.mem_def] at hstart
  simpa [hstart] using hkept.2

end LearningEngine

end SignalArcade.Challenger
