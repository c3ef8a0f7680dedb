import SignalArcade.Challenger.Activation
import SignalArcade.Challenger.Assess

/-!
# Receipts frozen before the outcome

When a decision is registered, `_freeze_skill_evaluations` records what the Champion and the
contender of each skill propose for it, and `_freeze_sizing_bounds` to what size the guards of
the market would have kept the proposal of Sizing. A Coach artifact is evaluated only in the
context it was crowned for, which starts with the first observation if the Champion is not active.
-/

namespace SignalArcade.Challenger

open Paper (Instant RiskMode DecisionAction)

/-- The receipts of an observation, by the version of the artifact. -/
abbrev Evaluations := String → Option ChallengerEvaluationReceipt

/-- The bounded multiplier of a receipt of Sizing, for the decision it was made for. -/
def boundedFor (decision : Decision) (receipt : ChallengerEvaluationReceipt) : ℚ :=
  let proposed := if receipt.inDistribution then receipt.proposedAction.float?.getD 1 else 1
  let selected := if proposed ∉ sizingMultipliers ∨ decision.plannedOrderSizeSol.isNone then 1 else proposed
  if selected > 1 ∧ (decision.integrityAssessment.all (fun integrity => integrity.state ≠ .clean) ∨
      decision.plannedOrderSizeSol.any fun planned => (decision.sizingAssessment.bind fun s => s.maximumSizeSol).any
        fun maximum => planned * selected > maximum + 1 / 1000000000) then 1
  else selected

def freezeSizingBounds (decision : Decision) (evaluations : Evaluations) : Evaluations := fun version =>
  (evaluations version).map fun receipt =>
    if receipt.skill = .sizing then
      { receipt with
        parameters :=
          { receipt.parameters with
            boundsPolicy := some "sizing-authority-v1"
            boundedMultiplier := .float (boundedFor decision receipt) } }
    else receipt

namespace LearningEngine

variable (engine : LearningEngine)

/-- The observation that is registered for a decision, before anything is frozen. -/
def observationFor (decision : Decision) (features : Features) (evaluationActionable : Bool) : LearningObservation where
  mint := decision.mint
  createdAt := decision.createdAt
  riskMode := decision.riskMode
  configurationFingerprint := decision.configurationFingerprint
  baselineVersion := decision.baselineVersion
  baselineAction := decision.action
  baselineActionable := evaluationActionable
  features := features
  activeSkillVersions := engine.activeSkillVersions

/-- `_coach_evaluation_context`: whether the artifact is evaluated, and the state of its skill then. -/
def coachEvaluationContext (artifact : ChallengerSkillArtifact) (state : ChallengerSkillState)
    (observation : LearningObservation) : Bool × ChallengerSkillState :=
  if state.championVersion ≠ some artifact.version then
    (observation.activeSkillVersions = artifact.dependencyVersions, state)
  else
    let dependencies := engine.activeSkillVersions.upstream artifact.skill
    let context := observation.activeSkillVersions.notDownstream artifact.skill
    if engine.activeSkillVersions artifact.skill = some artifact.version then
      (engine.validActivationProof state artifact dependencies &&
        context = dependencies.set artifact.skill artifact.version &&
        state.joinedAt.any fun joined => joined < observation.createdAt, state)
    else if context ≠ dependencies then (false, state)
    else
      let proof := state.activationProof
      if proof.policy ≠ some coachJoinPolicy ∨ proof.artifactVersion ≠ some artifact.version ∨
          proof.dependencies ≠ some dependencies then
        (true, { state with
          activationProof :=
            { recovery := proof.recovery
              policy := some coachJoinPolicy
              artifactVersion := some artifact.version
              dependencies := some dependencies
              startedAt := some observation.createdAt } })
      else (true, state)

/-- The horizon that an Exit artifact selects, and whether it supports the features. -/
def exitSelection (artifact : ChallengerSkillArtifact) (observation : LearningObservation) : Option (ℕ × Bool) :=
  if artifact.isContextual then do
    let policy ← engine.runtime.loadPolicy artifact
    if artifact.createdAt < observation.createdAt ∧ artifact.riskMode = observation.riskMode ∧
        some artifact.configurationFingerprint = observation.configurationFingerprint ∧
        artifact.baselineVersion = observation.baselineVersion ∧
        artifact.featureSchemaVersion = observation.featureSchemaVersion then
      some (policy observation.features)
    else none
  else artifact.boundedExitHorizon.map fun horizon => (horizon, true)

def exitReceipt (artifact : ChallengerSkillArtifact) (state : ChallengerSkillState) (observation : LearningObservation) :
    Option ChallengerEvaluationReceipt :=
  (engine.exitSelection artifact observation).map fun (horizon, supported) =>
    { artifactVersion := artifact.version
      skill := .exit
      evaluatedAt := observation.createdAt
      inDistribution := supported
      proposedAction := .number horizon
      baselineActionable := observation.baselineActionable
      parameters := if artifact.isContextual then { championVersionAtEvaluation := state.championVersion } else {} }

def predictionReceipt (artifact : ChallengerSkillArtifact) (observation : LearningObservation) (rmse : ℚ) :
    ChallengerEvaluationReceipt :=
  let prediction := engine.predictArtifact artifact observation.features
  let supported := engine.artifactInSupport artifact observation.features
  let conservative := if artifact.skill = .sizing then prediction else engine.conservative observation.features artifact rmse
  { artifactVersion := artifact.version
    skill := artifact.skill
    evaluatedAt := observation.createdAt
    prediction := prediction
    conservativeValue := conservative
    inDistribution := supported
    proposedAction :=
      if artifact.skill = .sizing then
        match prediction with
        | some x => if supported then .number (nearestSizeMultiplier x) else .number 1
        | none => .number 1
      else if supported && conservative.any (0 < ·) then .support
      else .veto
    baselineActionable := observation.baselineActionable }

/-- The receipt that is frozen of a version; nothing within, where none is. -/
def frozenReceipt (artifact : ChallengerSkillArtifact) (state : ChallengerSkillState) (observation : LearningObservation) :
    Option (Option ChallengerEvaluationReceipt) :=
  if artifact.skill = .exit then
    match engine.exitReceipt artifact state observation with
    | none => some none
    | some receipt => receipt.validated.map some
  else do
    let rmse ← artifact.validationRmse
    (engine.predictionReceipt artifact observation rmse).validated.map some

/-- A round of the loop over the versions of a skill. -/
def freezeVersion (observation : LearningObservation) (acc : ChallengerSkillState × Evaluations) (version : String) :
    Option (ChallengerSkillState × Evaluations) :=
  match engine.artifact? (some version) with
  | none => some acc
  | some artifact =>
    if artifact.skill ≠ acc.1.skill then some acc
    else
      let context := if artifact.isCoach then engine.coachEvaluationContext artifact acc.1 observation else (true, acc.1)
      if context.1 = false then some (context.2, acc.2)
      else (engine.frozenReceipt artifact context.2 observation).map fun receipt =>
        (context.2, match receipt with
          | none => acc.2
          | some receipt => Function.update acc.2 version (some receipt))

def frozenVersions (state : ChallengerSkillState) : List String :=
  state.testingVersion.toList ++ (state.championVersion.filter fun version => state.testingVersion ≠ some version).toList

/-- A round of the loop over the skills. -/
def freezeSkill (cohort : CohortKey) (observation : LearningObservation) (acc : LearningEngine × Evaluations)
    (skill : ChallengerSkill) : Option (LearningEngine × Evaluations) :=
  match acc.1.skillStates.get? (cohort, skill) with
  | none => some acc
  | some state => do
    let frozen ← (frozenVersions state).foldlM (acc.1.freezeVersion observation) (state, acc.2)
    some (acc.1.setState frozen.1, frozen.2)

/-- `_freeze_skill_evaluations`: the engine then, and the receipts. -/
def freezeSkillEvaluations (observation : LearningObservation) : Option (LearningEngine × Evaluations) :=
  match challengerCohortKey observation.riskMode observation.configurationFingerprint observation.baselineVersion
      observation.featureSchemaVersion with
  | none => some (engine, observation.challengerEvaluations)
  | some cohort =>
    ChallengerSkill.order.foldlM (freezeSkill cohort observation) (engine, observation.challengerEvaluations)

/-- The receipts that are recorded for the observation of a decision. -/
def frozenEvaluations (decision : Decision) (features : Features) (evaluationActionable : Bool) : Option Evaluations :=
  (engine.freezeSkillEvaluations (engine.observationFor decision features evaluationActionable)).map fun frozen =>
    freezeSizingBounds decision frozen.2

end LearningEngine

end SignalArcade.Challenger
