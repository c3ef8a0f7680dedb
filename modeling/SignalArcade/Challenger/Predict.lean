import SignalArcade.Challenger.Evidence

/-!
# Predictions

The features of a decision, and what an artifact makes of them: `_feature_vector`,
`_predict_skill_artifact`, `_within_skill_artifact_support` and what they call. A prediction may
be missing where the features are within the support of the artifact: a Coach policy asks for
more to predict than to support, and a nonlinear model may fail on the row it is given.
-/

namespace SignalArcade.Challenger

open Paper (Instant RiskMode DecisionAction FeatureSnapshot Scalar IntegrityAssessment SizingAssessment)

/-! ### Decisions -/

/-- What the features are made of of a `DecisionScore`. -/
structure DecisionScore where
  opportunity : ℚ
  danger : ℚ
  execution : ℚ
  confidence : ℚ

/-- `LearningAssessment`, with the bounds of its numbers. -/
structure LearningAssessment where
  modelVersion : String
  predictedNetReturn : ℚ
  conservativeNetReturn : ℚ
  validationRmse : ℚ
  applied : Bool
  verdict : String
  predicted_bounded : -1 ≤ predictedNetReturn ∧ predictedNetReturn ≤ 10
  conservative_bounded : -1 ≤ conservativeNetReturn ∧ conservativeNetReturn ≤ 10
  rmse_nonneg : 0 ≤ validationRmse

/-- `LearningAssessment(...)`; nothing, where its validation raises. -/
def LearningAssessment.build? (modelVersion : String) (predicted conservative rmse : ℚ) (applied : Bool)
    (verdict : String) : Option LearningAssessment :=
  if h : (-1 ≤ predicted ∧ predicted ≤ 10) ∧ (-1 ≤ conservative ∧ conservative ≤ 10) ∧ 0 ≤ rmse then
    some ⟨modelVersion, predicted, conservative, rmse, applied, verdict, h.1, h.2.1, h.2.2⟩
  else none

/-- What the learning engine reads of a `Decision`, and what it writes. -/
structure Decision where
  mint : String
  createdAt : Instant
  action : DecisionAction
  riskMode : RiskMode
  score : DecisionScore
  reasons : List String := []
  blockers : List String := []
  featureSnapshot : FeatureSnapshot
  /-- `model_version`, split at its `+` signs. -/
  modelVersion : List String
  plannedOrderSizeSol : Option ℚ := none
  integrityAssessment : Option IntegrityAssessment := none
  sizingAssessment : Option SizingAssessment := none
  learningAssessment : Option LearningAssessment := none
  challengerAssessments : ChallengerSkill → Option ChallengerEvaluationReceipt := fun _ => none
  configurationFingerprint : Option String

/-- `model_version.split("+", maxsplit=1)[0]`. -/
def Decision.baselineVersion (decision : Decision) : String := decision.modelVersion.headD ""

/-! ### Features -/

def clamp (value : ℚ) : ℚ := max 0 (min 1 value)

/-- `values.number(key, default)`. A text counts as missing here, even one that `float` would parse. -/
def number (values : FeatureSnapshot) (key : String) (default : ℚ) : ℚ :=
  match values.get? key with
  | none => default
  | some item =>
    match item.value with
    | .number q => q
    | _ => default

/-- The value of a feature of `INTEGRITY_FEATURE_NAMES`; all of them have to be there. -/
def integrityFeature (values : FeatureSnapshot) (name : String) : Option ℚ := do
  let item ← values.get? name
  match item.value, item.missingReason with
  | .number q, none => some (clamp q)
  | _, _ => none

/-- The features a model may read. -/
def featureVector (runtime : Runtime) (decision : Decision) : Option Features := do
  let values := decision.featureSnapshot
  let integrity ← integrityFeatureNames.mapM fun name => (integrityFeature values name).map fun q => (name, q)
  let own : List (String × ℚ) :=
    [("opportunity", decision.score.opportunity),
      ("danger", decision.score.danger),
      ("execution", decision.score.execution),
      ("confidence", decision.score.confidence),
      ("buy_ratio", clamp (number values "buy_ratio_5m" 0)),
      ("wallet_breadth", clamp (number values "unique_wallets_5m" 0 / 30)),
      ("concentration", clamp (number values "wallet_volume_hhi" 1)),
      ("repetition", clamp (number values "repeated_amount_ratio" 0)),
      ("coordination", clamp (number values "same_slot_ratio" 0)),
      ("curve_progress", clamp (number values "curve_progress" 0)),
      ("momentum", max (-1) (min 1 (number values "momentum_1m" 0))),
      ("drawdown", clamp (number values "drawdown_5m" 0)),
      ("reserve_depth", clamp (runtime.reserveDepth (max 0 (number values "virtual_quote_reserve_sol" 0))))]
  some fun name => (own ++ integrity).lookup name

/-! ### Linear models -/

def modelSupportZScore : ℚ := 6

/-- The vectors of a linear model. -/
structure Parts where
  means : List ℚ
  scales : List ℚ
  coefficients : List ℚ

/-- The features as the model sees them: each with its mean and its scale. -/
def Parts.row (parts : Parts) (features : Features) (names : List String) : List (ℚ × ℚ × ℚ) :=
  (names.map fun name => (features name).getD 0).zip (parts.means.zip parts.scales)

def predictNamedParts (parts : Parts) (features : Features) (names : List String) : ℚ :=
  let terms := ((parts.row features names).zip parts.coefficients.tail).map fun ((value, mean, scale), coefficient) =>
    coefficient * ((value - mean) / scale)
  max (-1) (min 10 (parts.coefficients.headD 0 + terms.sum))

def withinNamedPartsSupport (parts : Parts) (features : Features) (names : List String) : Bool :=
  parts.means.length = names.length && parts.scales.length = names.length && parts.scales.all (0 < ·) &&
    (parts.row features names).all fun (value, mean, scale) =>
      |(value - mean) / max scale (1 / 1000000)| ≤ modelSupportZScore

/-- `_model_shape_valid`. -/
def LearningModel.shapeValid (model : LearningModel) : Bool :=
  model.featureNames = Challenger.featureNames && model.means.length = Challenger.featureNames.length &&
    model.scales.length = Challenger.featureNames.length &&
    model.coefficients.length = Challenger.featureNames.length + 1 && model.scales.all (0 < ·)

def LearningModel.parts (model : LearningModel) : Parts := ⟨model.means, model.scales, model.coefficients⟩

/-! ### Artifacts -/

/-- Whether a condition of a Coach policy holds, where it can be told. -/
def CoachCondition.holds (condition : CoachCondition) (features : Features) : Option Bool := do
  let name ← condition.featureName
  let operator ← condition.operator
  let value ← features name
  let limit ← condition.threshold
  match operator with
  | .le => some (value ≤ limit)
  | .ge => some (limit ≤ value)

namespace ChallengerSkillArtifact

variable (artifact : ChallengerSkillArtifact) (features : Features)

def featureNamesValid : Bool :=
  artifact.featureNames = Challenger.featureNames || artifact.featureNames = manipulationFeatureNames ||
    artifact.featureNames = sizingFeatureNames

/-- `_skill_artifact_parts`. -/
def parts : Option Parts := do
  let means ← artifact.parameters.means
  let scales ← artifact.parameters.scales
  let coefficients ← artifact.parameters.coefficients
  let width := artifact.featureNames.length
  if artifact.featureNamesValid && means.length = width && scales.length = width &&
      coefficients.length = width + 1 && scales.all (0 < ·) then some ⟨means, scales, coefficients⟩
  else none

def predictCoach (policy : CoachPolicy) : Option ℚ :=
  if policy.kind = "sizing_multiplier" then policy.sizeMultiplier.filter (· ∈ sizingMultipliers)
  else do
    let conditions ← policy.conditions
    let met ← conditions.mapM fun condition => condition.bind fun c => c.holds features
    some (if met.all id then -1 else 1)

def predictSkillArtifact : Option ℚ :=
  match artifact.parameters.coachPolicy with
  | some policy => predictCoach features policy
  | none => artifact.parts.map fun parts => predictNamedParts parts features artifact.featureNames

def withinSkillArtifactSupport : Bool :=
  match artifact.parameters.coachPolicy with
  | some policy =>
    if policy.kind = "sizing_multiplier" then (predictCoach features policy).isSome
    else policy.conditions.any fun conditions =>
      conditions ≠ [] && conditions.all fun condition =>
        condition.any fun c => c.featureName.any fun name => (features name).isSome
  | none =>
    if artifact.modelFamily = .xgboost then
      match artifact.parameters.means, artifact.parameters.scales with
      | some means, some scales =>
        artifact.featureNamesValid && withinNamedPartsSupport ⟨means, scales, []⟩ features artifact.featureNames
      | _, _ => false
    else artifact.parts.any fun parts => withinNamedPartsSupport parts features artifact.featureNames

/-- `float(artifact.metrics.get("validation_rmse") or 0.0)`; nothing, where it raises. The metrics
of a stored artifact are finite. -/
def validationRmse : Option ℚ :=
  match artifact.metrics.get "validation_rmse" with
  | .none => some 0
  | .flag b => some (if b then 1 else 0)
  | .int n => some n
  | .float x => some x
  | .text s => if s = "" then some 0 else none
  | .nonfinite => none
  | .time _ => none

end ChallengerSkillArtifact

/-! ### Sizes -/

/-- Whether the key of the first candidate is below that of the second. -/
def nearer (value candidate best : ℚ) : Bool :=
  |candidate - value| < |best - value| || (|candidate - value| = |best - value| && candidate < best)

def nearestSizeMultiplier (value : ℚ) : ℚ :=
  sizingMultipliers.foldl (fun best candidate => if nearer value candidate best then candidate else best) (1 / 2)

theorem nearestSizeMultiplier_mem (value : ℚ) : nearestSizeMultiplier value ∈ sizingMultipliers := by
  unfold nearestSizeMultiplier
  suffices ∀ (candidates : List ℚ) (best : ℚ), best ∈ sizingMultipliers → candidates ⊆ sizingMultipliers →
      candidates.foldl (fun best candidate => if nearer value candidate best then candidate else best) best ∈
        sizingMultipliers from this _ _ (by decide +kernel) (List.Subset.refl _)
  intro candidates
  induction candidates with
  | nil => exact fun best hbest _ => hbest
  | cons candidate candidates ih =>
    intro best hbest hsub
    rw [List.cons_subset] at hsub
    rw [List.foldl_cons]
    apply ih _ _ hsub.2
    split_ifs
    · exact hsub.1
    · exact hbest

end SignalArcade.Challenger
