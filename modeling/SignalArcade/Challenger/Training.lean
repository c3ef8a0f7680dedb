import SignalArcade.Challenger.Policy

/-!
# Training

`_retrain_if_ready` of `learning.py`: how the trainers of the skills split the evidence, what
each fits, and on which episodes its proof is made. Entry, the nonlinear Entry and Manipulation
learn from Discovery and are proved on the Policy lane; Sizing and the two Exit trainers learn
from the earlier episodes of the Policy lane and are proved on the later ones.
-/

namespace SignalArcade.Challenger

open Paper (Instant RiskMode DecisionAction)
open Selection

/-! ### Constants -/

def minimumFitSamples : ℕ := 40

def minimumValidationSamples : ℕ := 20

def holdTimingMinimumSamples : ℕ := 60

def holdTimingWindowObservations : ℕ := 1000

def xgboostMinimumTrainingSamples : ℕ := 250

def learnableBaselineVersions : List String := ["baseline-v1.2", "baseline-v1.3", "baseline-v1.4", "baseline-v1.5"]

/-- `exit_context.FEATURES`. -/
def exitContextFeatures : List String :=
  ["opportunity", "danger", "confidence", "buy_ratio", "wallet_breadth", "concentration", "curve_progress", "momentum",
    "drawdown", "reserve_depth"]

/-! ### Splits -/

/-- The fits. Each reads the features of its rows and their outcomes. -/
structure Fitting where
  /-- `_fit`, for the names of features. -/
  fit : List String → List (Features × ℚ) → Option Parts
  fitXgboost : List (List ℚ) → List ℚ → Option String

/-- An observation of Discovery, with its outcome. -/
abbrev DiscoveryRow := LearningObservation × ℚ

/-- What is fitted, and the rows it was fitted to. -/
structure Trained (Row Parameters : Type) where
  contract : Contract
  /-- The rows before the validation. -/
  rawTraining : List Row
  /-- Those of them that are learned from. -/
  training : List Row
  validation : List Row
  validationStart : Instant
  /-- The episodes the proof is made on. -/
  policy : List LearningEvidenceEpisode
  parameters : Parameters

/-- `max(MINIMUM_VALIDATION_SAMPLES, count // 3)`. -/
def validationCount (count : ℕ) : ℕ := max minimumValidationSamples (count / 3)

/-- `rows[:-validation_count]`. -/
def rawTrainingRows {Row : Type} (rows : List Row) : List Row := rows.take (rows.length - validationCount rows.length)

/-- `rows[-validation_count:]`. -/
def validationRows {Row : Type} (rows : List Row) : List Row := rows.rtake (validationCount rows.length)

/-- The outcome was known by then. -/
def Checkpoints.observedBy (checkpoints : Checkpoints) (time : Instant) (horizon : ℕ) : Bool :=
  (checkpoints horizon).any fun checkpoint => checkpoint.observedAt ≤ time

def keyAbove (first second : ℚ × ℚ) : Bool := second.1 < first.1 || (first.1 = second.1 && second.2 < first.2)

/-- `max`, by a key: the first of the greatest. -/
def firstMax {α : Type} (key : α → ℚ × ℚ) : List α → Option α
  | [] => none
  | a :: l => some (l.foldl (fun best b => if keyAbove (key b) (key best) then b else best) a)

/-! ### Outcomes of the Policy lane -/

namespace LearningEvidenceEpisode

variable (episode : LearningEvidenceEpisode)

def bestSizeMultiplier : Option ℚ :=
  (firstMax (fun value : ℚ × ℚ => (value.2, -|value.1 - 1|))
    (sizingMultipliers.filterMap fun multiplier =>
      (episode.sizeTrialValue multiplier primaryHorizonSeconds).map fun value => (multiplier, value))).map Prod.fst

def checkpointUtility (horizon : ℕ) : ℚ := (episode.netReturn (some horizon)).getD (-1)

end LearningEvidenceEpisode

def meanHorizonUtility (episodes : List LearningEvidenceEpisode) (horizon : ℕ) : ℚ :=
  if episodes = [] then -1 else MeanBounds.mean (episodes.map fun episode => episode.checkpointUtility horizon)

/-! ### The trainers -/

namespace LearningEngine

variable (engine : LearningEngine) (fitting : Fitting)

def learnable (observation : LearningObservation) : Bool :=
  observation.sourceMode = "solana_mainnet" && observation.featureSchemaVersion = Challenger.featureSchemaVersion &&
    decide (observation.baselineVersion ∈ learnableBaselineVersions) && featuresComplete observation.features &&
    !engine.observationHasPolicyTwin observation

def usableRow (observation : LearningObservation) : Option DiscoveryRow :=
  (observation.checkpoints primaryHorizonSeconds).bind fun checkpoint =>
    checkpoint.netReturn.map fun outcome => (observation, outcome)

/-- `_training_rows`, of all modes. -/
def trainingRows : List DiscoveryRow :=
  ((byCreation engine.observations.rows).filter engine.learnable).filterMap usableRow

/-- The observations of a mode and configuration whose outcome is known or missing for good. -/
def resolvedObservations (riskMode : RiskMode) (configurationFingerprint : Option String) : List LearningObservation :=
  ((byCreation engine.observations.rows).filter fun observation =>
    observation.riskMode = riskMode && observation.configurationFingerprint = configurationFingerprint &&
      engine.learnable observation && (observation.checkpoints primaryHorizonSeconds).isSome).rtake modelWindowObservations

/-- The linear model of Entry. -/
def trainEntry (target : Option (RiskMode × Option String)) : Option (Trained DiscoveryRow Parts) := do
  let last ← engine.trainingRows.getLast?
  let (riskMode, configurationFingerprint) := target.getD (last.1.riskMode, last.1.configurationFingerprint)
  let rows := (engine.resolvedObservations riskMode configurationFingerprint).filterMap usableRow
  if rows.length < minimumTrainingSamples then none
  else
    let first ← (validationRows rows).head?
    let validationStart := first.1.createdAt
    let training := (rawTrainingRows rows).filter fun row =>
      row.1.checkpoints.observedBy validationStart primaryHorizonSeconds
    if training.length < minimumFitSamples then none
    else
      let parts ← fitting.fit featureNames (training.map fun row => (row.1.features, row.2))
      if rows.all fun row => row.1.baselineVersion = first.1.baselineVersion then
        let contract : Contract := ⟨riskMode, configurationFingerprint, first.1.baselineVersion⟩
        some
          { contract := contract
            rawTraining := rawTrainingRows rows
            training := training
            validation := validationRows rows
            validationStart := validationStart
            policy := engine.policyEvidence contract (some validationStart)
            parameters := parts }
      else none

/-- Whether a skill may be published for the contract. -/
def publishes (contract : Contract) : Bool :=
  contract.baselineVersion ∈ learnableBaselineVersions &&
    (challengerCohortKey contract.riskMode contract.configurationFingerprint contract.baselineVersion
      Challenger.featureSchemaVersion).isSome

/-- `_publish_nonlinear_entry_artifact`: the payload, with the support of the linear model. -/
def trainNonlinearEntry (entry : Trained DiscoveryRow Parts) : Option (Trained DiscoveryRow (String × Parts)) := do
  let first ← entry.validation.head?
  if !publishes entry.contract || decide (entry.training.length < xgboostMinimumTrainingSamples) then none
  else
    let payload ← fitting.fitXgboost
      (entry.training.map fun row => featureNames.map fun name => (row.1.features name).getD 0)
      (entry.training.map fun row => row.2)
    some
      { contract := entry.contract
        rawTraining := entry.rawTraining
        training := entry.training
        validation := entry.validation
        validationStart := entry.validationStart
        policy := engine.policyEvidence entry.contract (some first.1.createdAt)
        parameters := (payload, { entry.parameters with coefficients := List.replicate (featureNames.length + 1) 0 }) }

/-- `_publish_manipulation_artifact`. -/
def trainManipulation (entry : Trained DiscoveryRow Parts) : Option (Trained DiscoveryRow Parts) := do
  let first ← entry.validation.head?
  if !publishes entry.contract || entry.training.isEmpty then none
  else
    let parts ← fitting.fit manipulationFeatureNames (entry.training.map fun row => (row.1.features, row.2))
    some
      { entry with
        policy := engine.policyEvidence entry.contract (some first.1.createdAt)
        parameters := parts }

/-- `_publish_sizing_artifact`; learned from are the episodes that tell the best size. -/
def trainSizing (contract : Contract) : Option (Trained LearningEvidenceEpisode Parts) := do
  let evidence := engine.policyEvidence contract none
  if !publishes contract || decide (evidence.length < minimumTrainingSamples) then none
  else
    let first ← (validationRows evidence).head?
    let validationStart := first.entryAt
    let training := (rawTrainingRows evidence).filter fun episode =>
      episode.checkpoints.observedBy validationStart primaryHorizonSeconds
    let targets := training.filterMap fun episode => episode.bestSizeMultiplier.map fun target => (episode, target)
    let parts ← fitting.fit sizingFeatureNames (targets.map fun row => (row.1.features, row.2))
    if targets.length < minimumFitSamples then none
    else
      some
        { contract := contract
          rawTraining := rawTrainingRows evidence
          training := targets.map Prod.fst
          validation := validationRows evidence
          validationStart := validationStart
          policy := validationRows evidence
          parameters := parts }

/-- The horizons an Exit artifact may select. -/
def exitCandidates (riskMode : RiskMode) : List ℕ := learningHorizonsSeconds.filter (· ≤ maxHoldSeconds riskMode)

/-- `_publish_exit_artifact`: the horizon that is selected. -/
def trainExit (contract : Contract) : Option (Trained LearningEvidenceEpisode ℕ) := do
  let candidates := exitCandidates contract.riskMode
  let evidence := ((engine.policyEvidence contract none).filter fun episode =>
    candidates.all fun horizon => (episode.checkpoints horizon).isSome).rtake holdTimingWindowObservations
  if !publishes contract || decide (evidence.length < holdTimingMinimumSamples) then none
  else
    let first ← (validationRows evidence).head?
    let validationStart := first.entryAt
    let training := (rawTrainingRows evidence).filter fun episode =>
      candidates.all fun horizon => episode.checkpoints.observedBy validationStart horizon
    if training.length < minimumFitSamples then none
    else
      let selected ← firstMax (fun horizon =>
        (meanHorizonUtility training horizon, if horizon = maxHoldSeconds contract.riskMode then 1 else 0)) candidates
      some
        { contract := contract
          rawTraining := rawTrainingRows evidence
          training := training
          validation := validationRows evidence
          validationStart := validationStart
          policy := validationRows evidence
          parameters := selected }

def exitContextRows (training : List LearningEvidenceEpisode) (horizon : ℕ) : List (Features × ℚ) :=
  training.filterMap fun episode =>
    if exitContextFeatures.all fun name => (episode.features name).isSome then
      (episode.netReturn (some horizon)).map fun value => (episode.features, value)
    else none

/-- `_publish_contextual_exit`: a model for each horizon, on the split of the fixed selector. -/
def trainExitContext (reference : Trained LearningEvidenceEpisode ℕ) :
    Option (Trained LearningEvidenceEpisode (List (ℕ × Parts))) := do
  let models ← (exitCandidates reference.contract.riskMode).mapM fun horizon =>
    let rows := exitContextRows reference.training horizon
    if rows.length < minimumFitSamples then none
    else (fitting.fit exitContextFeatures rows).map fun parts => (horizon, parts)
  some
    { contract := reference.contract
      rawTraining := reference.rawTraining
      training := reference.training
      validation := reference.validation
      validationStart := reference.validationStart
      policy := reference.policy
      parameters := models }

/-- What a training publishes. -/
structure Retraining where
  entry : Trained DiscoveryRow Parts
  nonlinear : Option (Trained DiscoveryRow (String × Parts))
  manipulation : Option (Trained DiscoveryRow Parts)
  sizing : Option (Trained LearningEvidenceEpisode Parts)
  exit : Option (Trained LearningEvidenceEpisode ℕ)
  exitContext : Option (Trained LearningEvidenceEpisode (List (ℕ × Parts)))

/-- `_retrain_if_ready`. The skills are trained for the contract the engine is in. -/
def retrainIfReady (target : Option (RiskMode × Option String)) : Option Retraining :=
  (engine.trainEntry fitting target).map fun entry =>
    if entry.contract = ⟨engine.currentRiskMode, engine.configurationFingerprint, engine.baselineVersion⟩ then
      { entry := entry
        nonlinear := engine.trainNonlinearEntry fitting entry
        manipulation := engine.trainManipulation fitting entry
        sizing := engine.trainSizing fitting entry.contract
        exit := engine.trainExit entry.contract
        exitContext := (engine.trainExit entry.contract).bind (trainExitContext fitting) }
    else
      { entry := entry
        nonlinear := none
        manipulation := none
        sizing := none
        exit := none
        exitContext := none }

end LearningEngine

end SignalArcade.Challenger
