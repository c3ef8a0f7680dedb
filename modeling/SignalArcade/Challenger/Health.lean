import SignalArcade.Challenger.Activation
import SignalArcade.Challenger.Assess

/-!
# Health of what is active

Whether what is active still earns its authority: `_skill_health` of an active skill,
`_model_is_eligible` and `active_model_health` of the model of Entry that was active before there
were skills. Either is judged by its last `activeHealthWindow` resolved outcomes. Too few usable
ones make it unverifiable; it is degraded when its uplift is at most below the margin of harm.
-/

namespace SignalArcade.Challenger

open MeanBounds
open Paper (DecisionAction)

def activeHealthHarmMargin : ℚ := 1 / 100

def entryMinimumInDistributionFraction : ℚ := 95 / 100

def entryMinimumPolicySamples : ℕ := 20

def entryMinimumPolicySupported : ℕ := 10

def entryMinimumPolicyVetoes : ℕ := 5

def entryMaximumWinnerVetoFraction : ℚ := 35 / 100

def entryMinimumPolicyUplift : ℚ := 0

/-- The `state` of a report on health. -/
inductive HealthState where
  | suspended | unverifiable | degraded | healthy | collecting | inactive
  | other (text : String)
  deriving DecidableEq

def HealthState.ofText : String → HealthState
  | "suspended" => .suspended
  | "unverifiable" => .unverifiable
  | "degraded" => .degraded
  | "healthy" => .healthy
  | "collecting" => .collecting
  | "inactive" => .inactive
  | text => .other text

/-- The report on an active skill. -/
structure Health where
  state : HealthState
  observedCount : ℕ := 0
  usableCount : ℕ := 0
  availabilityFraction : ℚ := 0
  /-- `estimated_uplift` is its centre, `uplift_upper_bound` its upper end. -/
  uplift : Option Interval := none

/-- The report on outcomes of which some are usable, where `minimum` of them have to be. -/
def healthOf (minimum : WithTop ℚ) (observedCount : ℕ) (deltas : List ℚ) : Health :=
  let availability : ℚ := if observedCount = 0 then 0 else deltas.length / observedCount
  let upper := interval zScore deltas
  let enough : Bool := activeHealthMinimumSamples ≤ deltas.length && minimum ≤ (availability : WithTop ℚ)
  let unverifiable : Bool := activeHealthMinimumSamples ≤ observedCount && decide ((availability : WithTop ℚ) < minimum)
  let degraded : Bool := enough && upper.any fun i => i.upperBelow (-activeHealthHarmMargin)
  { state :=
      if unverifiable then .unverifiable
      else if degraded then .degraded
      else if enough then .healthy
      else .collecting
    observedCount := observedCount
    usableCount := deltas.length
    availabilityFraction := availability
    uplift := upper }

namespace LearningEngine

variable (engine : LearningEngine)

/-! ### A skill -/

/-- `minimum_coverage` of an active skill. -/
def healthMinimum (skill : ChallengerSkill) (artifact : ChallengerSkillArtifact) : WithTop ℚ :=
  match engine.currentSkillState skill with
  | some state => engine.supportCoverageMinimum artifact state
  | none => engine.coverageMinimum artifact

def activationHolds (skill : ChallengerSkill) (artifact : ChallengerSkillArtifact) : Bool :=
  engine.skillEligible artifact && engine.healthMinimum skill artifact ≠ ⊤ &&
    (skill ≠ .exit || artifact.exitArtifactAvailable engine.runtime) &&
    (!engine.independent artifact || (engine.currentSkillState skill).any fun state =>
      engine.validActivationProof state artifact (engine.activeSkillVersions.upstream skill))

def healthResolved (skill : ChallengerSkill) (artifact : ChallengerSkillArtifact) (episode : LearningEvidenceEpisode) :
    Bool :=
  match episode.challengerEvaluations artifact.version with
  | some receipt => episode.receiptOutcomeResolved receipt
  | none =>
    (if skill = .exit then artifact.exitResolutionHorizons else [some primaryHorizonSeconds]).all fun horizon =>
      (episode.checkpoint horizon).isSome

def healthObserved (skill : ChallengerSkill) (artifact : ChallengerSkillArtifact) (episode : LearningEvidenceEpisode) :
    Bool :=
  episode.riskMode = artifact.riskMode && episode.configurationFingerprint = some artifact.configurationFingerprint &&
    episode.baselineVersion = artifact.baselineVersion &&
    episode.activeSkillVersions skill = some artifact.version && episode.baselineAction = .enter &&
    episode.baselineActionable && upstreamSkillsSupported episode skill &&
    (!engine.independent artifact ||
      (((engine.currentSkillState skill).bind fun state => state.joinedAt).any (· < episode.createdAt) &&
        episode.activeSkillVersions.notDownstream skill =
          (engine.activeSkillVersions.upstream skill).set skill artifact.version)) &&
    healthResolved skill artifact episode

/-- By how much the artifact did better in an episode. -/
def healthDelta (skill : ChallengerSkill) (artifact : ChallengerSkillArtifact) (episode : LearningEvidenceEpisode) :
    Option ℚ := do
  -- an outcome without its receipt is unavailable, but is counted
  let receipt ← episode.challengerEvaluations artifact.version
  if engine.independent artifact then episode.participationDelta receipt
  else
    let actual ← episode.tournamentPolicyValue receipt
    let baseline ← episode.skillBaselineValue skill
    some (actual - baseline)

/-- How a version does on the newest evidence it answers for. -/
def skillHealth (skill : ChallengerSkill) (version : String) : Health :=
  match engine.skillArtifacts.get? version with
  | none => { state := .suspended }
  | some artifact =>
    if engine.activationHolds skill artifact then
      let observed :=
        ((engine.policyEvidence artifact.contract none).filter (engine.healthObserved skill artifact)).rtake activeHealthWindow
      healthOf (engine.healthMinimum skill artifact) observed.length (observed.filterMap (engine.healthDelta skill artifact))
    else { state := .suspended }

/-! ### The model -/

/-- `_coverage_minimum`, of a model. -/
def modelCoverageMinimum (model : LearningModel) : WithTop ℚ :=
  max ((engine.coveragePolicy.fraction : ℚ) : WithTop ℚ) model.artifactMinimum

def modelIsEligible (model : LearningModel) (requireNewerThanSuspension : Bool) : Bool :=
  model.qualified && !engine.coveragePolicyError && model.validationCurrent &&
    model.meetsCurrent engine.coveragePolicy.fraction && model.entryValidationCurrent &&
    learnerVersionPrefix.isPrefixOf model.version && model.shapeValid &&
    model.riskMode = some engine.currentRiskMode && model.configurationFingerprint = engine.configurationFingerprint &&
    entryMinimumInDistributionFraction ≤ model.validationInDistributionFraction &&
    model.qualificationEvidenceSchemaVersion = some learningEvidenceSchemaVersion &&
    entryMinimumPolicySamples ≤ model.policyValidationCount && entryMinimumPolicySamples ≤ model.policyObservedCount &&
    engine.modelCoverageMinimum model ≤ (model.policyOutcomeAvailabilityFraction : WithTop ℚ) &&
    entryMinimumPolicySupported ≤ model.policySupportedCount && entryMinimumPolicyVetoes ≤ model.policyVetoCount &&
    model.policyWinnerVetoFraction ≤ entryMaximumWinnerVetoFraction &&
    model.policyUpliftLowerBound.any (entryMinimumPolicyUplift < ·) && model.version ∉ engine.disabledModelVersions &&
    (!requireNewerThanSuspension || decide (engine.reactivationAfterOutcomes < model.outcomesSeen))

/-- The outcome of an observation of the model: what the Baseline made of it, where it is usable, and
whether the model supported it. -/
structure ModelOutcome where
  supported : Bool
  outcome : Option ℚ

def modelOutcome? (model : LearningModel) (observation : LearningObservation) : Option ModelOutcome := do
  let checkpoint ← observation.checkpoints primaryHorizonSeconds
  let prediction ← observation.evaluationPrediction
  let rmse ← observation.evaluationValidationRmse
  if observation.evaluationModelVersion = some model.version ∧ observation.baselineAction = .enter ∧
      observation.evaluationActionable = true then
    some ⟨0 < prediction - rmse, checkpoint.netReturn⟩
  else none

def activeModelHealth : Health :=
  match engine.activeModel, engine.mode with
  | some model, .active =>
    let resolved := ((byCreation engine.observations.rows).filterMap (modelOutcome? model)).rtake activeHealthWindow
    let deltas := resolved.filterMap fun o => o.outcome.map fun r => (if o.supported then r else 0) - r
    healthOf (engine.modelCoverageMinimum model) resolved.length deltas
  | _, _ => { state := engine.lastSuspension.elim .inactive .ofText }

/-! ### What health rests on -/

variable {engine} {engine' : LearningEngine} {skill : ChallengerSkill} {version : String}

/-- The health of a skill is the same in two engines that have the same artifacts, evidence and
requirement, and the same state and upstream authority of the skill. -/
theorem skillHealth_congr (hruntime : engine'.runtime = engine.runtime)
    (hpolicy : engine'.coveragePolicy = engine.coveragePolicy)
    (herror : engine'.coveragePolicyError = engine.coveragePolicyError)
    (hparticipation : engine'.autoParticipation = engine.autoParticipation)
    (hartifacts : engine'.skillArtifacts = engine.skillArtifacts) (hevidence : engine'.evidenceEpisodes = engine.evidenceEpisodes)
    (hidentities : engine'.policyIdentities = engine.policyIdentities)
    (hstate : engine'.currentSkillState skill = engine.currentSkillState skill)
    (hupstream : engine'.activeSkillVersions.upstream skill = engine.activeSkillVersions.upstream skill) :
    engine'.skillHealth skill version = engine.skillHealth skill version := by
  have heligible : ∀ artifact, engine'.skillEligible artifact = engine.skillEligible artifact := by
    intro artifact
    simp only [skillEligible, herror, hpolicy]
  have hcoverage : ∀ artifact, engine'.coverageMinimum artifact = engine.coverageMinimum artifact := by
    intro artifact
    simp only [coverageMinimum, hpolicy]
  have hminimum : ∀ artifact, engine'.healthMinimum skill artifact = engine.healthMinimum skill artifact := by
    intro artifact
    simp only [healthMinimum, hstate, supportCoverageMinimum, hcoverage]
  have hindependent : ∀ artifact, engine'.independent artifact = engine.independent artifact := by
    intro artifact
    simp only [independent, hparticipation]
  have hproof : ∀ artifact coverage, engine'.evidenceHolds artifact coverage = engine.evidenceHolds artifact coverage := by
    intro artifact coverage
    funext evidence
    simp only [evidenceHolds, hcoverage]
  have hholds : ∀ artifact, engine'.activationHolds skill artifact = engine.activationHolds skill artifact := by
    intro artifact
    simp only [activationHolds, heligible, hminimum, hruntime, hindependent, hstate, hupstream, validActivationProof, hproof]
  have hevidences : ∀ contract, engine'.policyEvidence contract none = engine.policyEvidence contract none := by
    intro contract
    simp only [policyEvidence, selectPolicyEvidence, hevidence, hidentities]
  have hobserved : ∀ artifact, engine'.healthObserved skill artifact = engine.healthObserved skill artifact := by
    intro artifact
    funext episode
    simp only [healthObserved, hindependent, hstate, hupstream]
  have hdelta : ∀ artifact, engine'.healthDelta skill artifact = engine.healthDelta skill artifact := by
    intro artifact
    funext episode
    simp only [healthDelta, hindependent]
  simp only [skillHealth, hartifacts, hholds, hevidences, hobserved, hdelta, hminimum]

end LearningEngine

end SignalArcade.Challenger
