import SignalArcade.Challenger.Engine

/-!
# The influence on a decision

`assess` of `learning.py`, and the path through the active skills. A skill that is active is
asked only where it has authority: `liveArtifact` is the long test. Entry and Manipulation can
make a decision to enter one to pass, Sizing can change the planned size; the three act in
sequence on what the ones before have left.
-/

namespace SignalArcade.Challenger

open Paper (Instant RiskMode DecisionAction MarketIntegrityState)

def learnerVersionPrefix : String := "learner-v6-"

def skillName : ChallengerSkill → String
  | .entry => "entry"
  | .manipulation => "manipulation"
  | .sizing => "sizing"
  | .exit => "exit"

/-- `ChallengerEvaluationReceipt(...)`; nothing, where its validation raises. -/
def ChallengerEvaluationReceipt.validated (receipt : ChallengerEvaluationReceipt) : Option ChallengerEvaluationReceipt :=
  if receipt.prediction.all (fun x => -10 ≤ x && x ≤ 10) && receipt.conservativeValue.all (fun x => -10 ≤ x && x ≤ 10) then
    some receipt
  else none

/-- What the loop over the skills has come to. -/
structure Assessment where
  action : DecisionAction
  plannedSize : Option ℚ
  reasons : List String
  blockers : List String
  appliedVersions : List String := []
  assessments : ChallengerSkill → Option ChallengerEvaluationReceipt := fun _ => none
  legacyAssessment : Option LearningAssessment := none

/-- The size that a multiplier is guarded to, with the proposal that is recorded. -/
def guardedMultiplier (decision : Decision) (plannedSize : Option ℚ) (selected : ℚ) : ℚ × Proposal :=
  if selected > 1 ∧ decision.integrityAssessment.all (fun integrity => integrity.state ≠ .clean) then
    (1, .baselineIntegrityGuard)
  else if selected > 1 ∧ plannedSize.any (fun size => (decision.sizingAssessment.bind fun s => s.maximumSizeSol).any
      fun maximum => size * selected > maximum + 1 / 1000000000) then (1, .baselineCapacityGuard)
  else (selected, .number selected)

namespace LearningEngine

variable (engine : LearningEngine)

/-- The prediction, if there is one. -/
def predictArtifact (artifact : ChallengerSkillArtifact) (features : Features) : Option ℚ :=
  if artifact.modelFamily ≠ .xgboost then artifact.predictSkillArtifact features
  else do
    let row ← artifact.featureNames.mapM features
    let model ← engine.nonlinearModels artifact.version
    model row

/-- The features are like those it was trained on. -/
def artifactInSupport (artifact : ChallengerSkillArtifact) (features : Features) : Bool :=
  artifact.withinSkillArtifactSupport features && engine.loadable artifact

/-- What the skills act on: an artifact that is active, unsuspended and eligible, in the contract
of the decision, on dependencies that are active. -/
def hasAuthority (decision : Decision) (skill : ChallengerSkill) (artifact : ChallengerSkillArtifact)
    (state : ChallengerSkillState) : Bool :=
  artifact.skill = skill && state.activeVersion = some artifact.version &&
    state.suspendedVersion ≠ some artifact.version &&
    ChallengerSkill.order.all (fun k => (state.activeDependencies k).all fun version =>
      engine.activeSkillVersions k = some version) &&
    artifact.riskMode = decision.riskMode &&
    some artifact.configurationFingerprint = decision.configurationFingerprint &&
    artifact.baselineVersion = decision.baselineVersion && engine.skillEligible artifact && engine.exitAvailable artifact

def liveArtifact (decision : Decision) (skill : ChallengerSkill) : Option ChallengerSkillArtifact := do
  let artifact ← engine.artifact? (engine.activeSkillVersions skill)
  let state ← engine.currentSkillState skill
  if engine.hasAuthority decision skill artifact state then some artifact else none

variable (decision : Decision) (features : Features) (baselineActionable : Bool)

/-- The conservative value of an artifact, with the error it is reduced by. -/
def conservative (artifact : ChallengerSkillArtifact) (rmse : ℚ) : Option ℚ :=
  (engine.predictArtifact artifact features).map fun prediction => prediction - rmse

/-- Whether a veto skill supports the decision. -/
def supports (artifact : ChallengerSkillArtifact) (rmse : ℚ) : Bool :=
  engine.artifactInSupport artifact features && (engine.conservative features artifact rmse).any (0 < ·)

def selectedMultiplier (artifact : ChallengerSkillArtifact) : ℚ :=
  match engine.predictArtifact artifact features with
  | some prediction => if engine.artifactInSupport artifact features then nearestSizeMultiplier prediction else 1
  | none => 1

def liveReceipt (artifact : ChallengerSkillArtifact) (skill : ChallengerSkill) (rmse : ℚ) (proposed : Proposal)
    (applied : Bool) (selected : Option ℚ) : ChallengerEvaluationReceipt where
  artifactVersion := artifact.version
  skill := skill
  evaluatedAt := decision.createdAt
  prediction := engine.predictArtifact artifact features
  conservativeValue := engine.conservative features artifact rmse
  inDistribution := engine.artifactInSupport artifact features
  proposedAction := proposed
  baselineActionable := baselineActionable
  parameters :=
    { applied := some applied
      selectedMultiplier := selected
      baselineSizeSol := selected.map fun _ => decision.plannedOrderSizeSol.getD 0 }

/-- The assessment that Entry leaves beside its receipt. -/
def entryAssessment (skill : ChallengerSkill) (artifact : ChallengerSkillArtifact) (rmse : ℚ) (applied : Bool)
    (before : Option LearningAssessment) : Option (Option LearningAssessment) :=
  if skill = .entry then
    (LearningAssessment.build? artifact.version ((engine.predictArtifact artifact features).getD 0)
      ((engine.conservative features artifact rmse).getD 0) rmse applied
      (if !engine.artifactInSupport artifact features then "out_of_distribution"
      else if engine.supports features artifact rmse then "supports_entry" else "caution")).map some
  else some before

/-- A round of the loop, for a skill that may veto. -/
def assessVeto (skill : ChallengerSkill) (artifact : ChallengerSkillArtifact) (rmse : ℚ) (s : Assessment) :
    Option Assessment := do
  let supported := engine.artifactInSupport artifact features
  let agrees := engine.supports features artifact rmse
  let applied : Bool := s.action = .enter && baselineActionable && supported
  let legacy ← engine.entryAssessment features skill artifact rmse applied s.legacyAssessment
  let receipt ← (engine.liveReceipt decision features baselineActionable artifact skill rmse
    (if agrees then .support else .veto) applied none).validated
  let s :=
    { s with
      assessments := Function.update s.assessments skill (some receipt)
      appliedVersions := if applied then s.appliedVersions ++ [artifact.version] else s.appliedVersions
      legacyAssessment := legacy }
  if applied && !agrees then
    some { s with
      action := .pass
      blockers := s.blockers ++ ["challenger_" ++ skillName skill ++ "_veto"]
      reasons := s.reasons ++ ["The qualified Challenger " ++ skillName skill ++ " skill preserved cash"] }
  else if applied then
    some { s with reasons := s.reasons ++ ["The qualified Challenger " ++ skillName skill ++ " skill agreed"] }
  else some s

/-- How a multiplier is written in a reason. -/
def multiplierText (multiplier : ℚ) : String :=
  if multiplier = 1 / 2 then "0.5" else if multiplier = 3 / 2 then "1.5" else if multiplier = 2 then "2" else "1"

/-- A round of the loop, for Sizing. -/
def assessSize (artifact : ChallengerSkillArtifact) (rmse : ℚ) (s : Assessment) : Option Assessment := do
  let supported := engine.artifactInSupport artifact features
  let (selected, proposed) := guardedMultiplier decision s.plannedSize (engine.selectedMultiplier features artifact)
  let applied : Bool :=
    s.action = .enter && baselineActionable && supported && s.plannedSize.isSome && selected ≠ 1
  let receipt ← (engine.liveReceipt decision features baselineActionable artifact .sizing rmse proposed applied
    (some selected)).validated
  let s :=
    { s with
      assessments := Function.update s.assessments .sizing (some receipt)
      appliedVersions := if applied then s.appliedVersions ++ [artifact.version] else s.appliedVersions }
  if applied then
    some { s with
      plannedSize := s.plannedSize.map fun size => size * selected
      reasons := s.reasons ++ ["The qualified Challenger sizing skill selected " ++ multiplierText selected ++ "x"] }
  else some s

/-- A round of the loop over the skills. -/
def assessSkill (skill : ChallengerSkill) (s : Assessment) : Option Assessment :=
  match engine.liveArtifact decision skill with
  | none => some s
  | some artifact => do
    let rmse ← artifact.validationRmse
    if skill = .entry ∨ skill = .manipulation then
      engine.assessVeto decision features baselineActionable skill artifact rmse s
    else engine.assessSize decision features baselineActionable artifact rmse s

/-- The active skills, in their order. -/
def assessActiveSkills : Option Decision :=
  match featureVector engine.runtime decision with
  | none => some decision
  | some features => do
    let start : Assessment :=
      { action := decision.action
        plannedSize := decision.plannedOrderSizeSol
        reasons := decision.reasons
        blockers := decision.blockers }
    let s ← engine.assessSkill decision features baselineActionable .entry start
    let s ← engine.assessSkill decision features baselineActionable .manipulation s
    let s ← engine.assessSkill decision features baselineActionable .sizing s
    some { decision with
      action := s.action
      reasons := s.reasons
      blockers := s.blockers
      plannedOrderSizeSol := s.plannedSize
      modelVersion := decision.modelVersion ++ s.appliedVersions
      learningAssessment := s.legacyAssessment
      challengerAssessments := s.assessments }

def latestModelForContext (mode : RiskMode) (configurationFingerprint : Option String) : Option LearningModel :=
  engine.models.reverse.find? fun model =>
    learnerVersionPrefix.isPrefixOf model.version && model.riskMode = some mode &&
      model.configurationFingerprint = configurationFingerprint

/-- `max(-1.0, min(10.0, prediction - model.validation_rmse))`. -/
def modelConservative (model : LearningModel) (features : Features) : ℚ :=
  max (-1) (min 10 (predictNamedParts model.parts features featureNames - model.validationRmse))

def withinModelSupport (model : LearningModel) (features : Features) : Bool :=
  model.shapeValid && withinNamedPartsSupport model.parts features featureNames

/-- Whether a model acts on the decision. -/
def modelApplies (model : LearningModel) : Bool :=
  engine.mode = .active && engine.activeModel.any (fun active => active.qualified && active.entryValidationCurrent) &&
    model.riskMode = some decision.riskMode && model.configurationFingerprint = decision.configurationFingerprint &&
    withinModelSupport model features && decision.action = .enter && baselineActionable

def assessModel (model : LearningModel) : Option Decision := do
  let prediction := predictNamedParts model.parts features featureNames
  let conservative := modelConservative model features
  let applied := engine.modelApplies decision features baselineActionable model
  let assessment ← LearningAssessment.build? model.version prediction conservative model.validationRmse applied
    (if !withinModelSupport model features then "out_of_distribution"
    else if 0 < conservative then "supports_entry" else "caution")
  let decision := { decision with learningAssessment := some assessment }
  if applied then
    let decision := { decision with modelVersion := decision.modelVersion ++ [model.version] }
    if conservative ≤ 0 then
      some { decision with
        action := .pass
        blockers := decision.blockers ++ ["learner_conservative_return_not_positive"]
        reasons := decision.reasons ++
          ["The proven learner preserved cash because its conservative outcome was not positive"] }
    else some { decision with reasons := decision.reasons ++ ["The proven learner also supports this baseline entry"] }
  else some decision

/-- The decision as the skills change it. -/
def assess (live : Bool) : Option Decision :=
  if live ∧ engine.mode = .active ∧ engine.activeSkillVersions.nonempty then
    engine.assessActiveSkills decision baselineActionable
  else
    let model :=
      if engine.mode = .active then engine.activeModel
      else engine.latestModelForContext decision.riskMode decision.configurationFingerprint
    match model with
    | none => some decision
    | some model =>
      if !live || !model.shapeValid then some decision
      else match featureVector engine.runtime decision with
        | none => some decision
        | some features => engine.assessModel decision features baselineActionable model

end LearningEngine

end SignalArcade.Challenger
