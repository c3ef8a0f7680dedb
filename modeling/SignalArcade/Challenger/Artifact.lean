import SignalArcade.Arena.Skill
import SignalArcade.Challenger.Coverage

/-!
# Artifacts of Challenger skills

`ChallengerSkillArtifact` of `models.py` and what `learning.py` and `coverage_policy.py` decide
from an artifact alone: whether it is qualified, which horizon an Exit artifact selects,
what a proposal predicts and whether the features are within its support.
-/

namespace SignalArcade

/-! ### The order of the skills -/

namespace ChallengerSkill

/-- The place of a skill in `order`. -/
def index : ChallengerSkill → ℕ
  | .entry => 0
  | .manipulation => 1
  | .sizing => 2
  | .exit => 3

def order : List ChallengerSkill := [.entry, .manipulation, .sizing, .exit]

@[simp] theorem mem_order (skill : ChallengerSkill) : skill ∈ order := by
  cases skill <;> decide

theorem order_nodup : order.Nodup := by decide

theorem order_sorted : order.Pairwise fun a b => a.index < b.index := by decide

theorem not_of_find?_order {p : ChallengerSkill → Bool} {first skill : ChallengerSkill} (h : order.find? p = some first)
    (hlt : skill.index < first.index) : p skill = false := by
  obtain ⟨-, before, after, horder, hbefore⟩ := List.find?_eq_some_iff_append.mp h
  have hsorted : (before ++ first :: after).Pairwise fun a b => a.index < b.index := horder ▸ order_sorted
  have hmem : skill ∈ before ++ first :: after := horder ▸ mem_order skill
  rw [List.pairwise_append] at hsorted
  rcases List.mem_append.mp hmem with hmem | hmem
  · simpa using hbefore skill hmem
  · rcases List.mem_cons.mp hmem with rfl | hmem
    · exact absurd hlt (lt_irrefl _)
    · exact absurd ((List.pairwise_cons.mp hsorted.2.1).1 skill hmem) hlt.asymm

end ChallengerSkill

namespace Challenger

open Paper (Instant RiskMode RiskLimits riskLimitsTable)

/-- A version for each skill. -/
abbrev SkillVersions := ChallengerSkill → Option String

instance : DecidableEq SkillVersions := fun f g =>
  decidable_of_iff (f .entry = g .entry ∧ f .manipulation = g .manipulation ∧ f .sizing = g .sizing ∧ f .exit = g .exit)
    ⟨fun ⟨h₁, h₂, h₃, h₄⟩ => funext fun
      | .entry => h₁
      | .manipulation => h₂
      | .sizing => h₃
      | .exit => h₄, fun h => h ▸ ⟨rfl, rfl, rfl, rfl⟩⟩

namespace SkillVersions

/-- `{}`. -/
def empty : SkillVersions := fun _ => none

/-- The versions of the skills that come earlier. -/
def upstream (versions : SkillVersions) (skill : ChallengerSkill) : SkillVersions := fun k =>
  if k.index < skill.index then versions k else none

def notDownstream (versions : SkillVersions) (skill : ChallengerSkill) : SkillVersions := fun k =>
  if skill.index < k.index then none else versions k

/-- `versions[skill] = version`. -/
def set (versions : SkillVersions) (skill : ChallengerSkill) (version : String) : SkillVersions :=
  Function.update versions skill (some version)

/-- `bool(versions)`. -/
def nonempty (versions : SkillVersions) : Bool := ChallengerSkill.order.any fun k => (versions k).isSome

theorem upstream_apply {versions : SkillVersions} {skill k : ChallengerSkill} {v : String} :
    versions.upstream skill k = some v ↔ k.index < skill.index ∧ versions k = some v := by
  unfold upstream
  split_ifs with h <;> simp [h]

theorem upstream_entry (versions : SkillVersions) : versions.upstream .entry = empty := by
  funext k
  exact if_neg (Nat.not_lt_zero _)

theorem upstream_congr {versions versions' : SkillVersions} {skill : ChallengerSkill}
    (h : ∀ k : ChallengerSkill, k.index < skill.index → versions k = versions' k) :
    versions.upstream skill = versions'.upstream skill := by
  funext k
  unfold upstream
  split_ifs with hk
  · exact h k hk
  · rfl

@[simp] theorem set_self (versions : SkillVersions) (skill : ChallengerSkill) (version : String) :
    versions.set skill version skill = some version := Function.update_self ..

theorem set_of_ne {versions : SkillVersions} {skill k : ChallengerSkill} {version : String} (h : k ≠ skill) :
    versions.set skill version k = versions k := Function.update_of_ne h ..

end SkillVersions

/-! ### The record -/

/-- How an artifact was made. -/
inductive StatisticalModelFamily where
  | linear | xgboost | deterministic
  deriving DecidableEq

/-- The comparison of a rule. -/
inductive CoachOperator where
  | le | ge
  deriving DecidableEq

/-- A condition of a Coach policy. An entry that is missing, or of another type than is asked
for, is nothing. -/
structure CoachCondition where
  featureName : Option String
  operator : Option CoachOperator
  /-- `float(threshold)`, when it is finite. -/
  threshold : Option ℚ
  deriving DecidableEq

/-- `parameters["coach_policy"]`. -/
structure CoachPolicy where
  kind : String
  /-- `float(size_multiplier)`. -/
  sizeMultiplier : Option ℚ
  /-- The conditions, when they are a list; one that is not a dictionary is nothing. -/
  conditions : Option (List (Option CoachCondition))
  deriving DecidableEq

/-- `parameters`. The vectors are there when they are lists of finite numbers. -/
structure Parameters where
  coachPolicy : Option CoachPolicy := none
  means : Option (List ℚ) := none
  scales : Option (List ℚ) := none
  coefficients : Option (List ℚ) := none
  policyEvidenceCohort : Value := .none
  selectedHorizonSeconds : Value := .none
  /-- The canonical text of the entries of a contextual Exit policy. -/
  contextPayload : String := ""
  deriving DecidableEq

/-- `hyperparameters`: those of the coverage requirement, and the recipe. -/
structure Hyperparameters where
  coverage : CoverageRecord := {}
  coverageFreshValidation : Value := .none
  recipe : Dict := []
  deriving DecidableEq

/-- A trained or proposed artifact of a skill. -/
structure ChallengerSkillArtifact where
  version : String
  schemaVersion : String := "challenger-skill-v1"
  skill : ChallengerSkill
  createdAt : Instant
  modelFamily : StatisticalModelFamily := .linear
  implementationVersion : String := "native-ridge-v1"
  recipeVersion : String := "linear-v1"
  hyperparameters : Hyperparameters := {}
  trainingCutoffAt : Option Instant := none
  evidenceCohortDigest : Option String := none
  payloadFormat : String := "inline"
  payloadDigest : Option String := none
  riskMode : RiskMode
  configurationFingerprint : String
  baselineVersion : String
  featureSchemaVersion : String
  trainingCount : ℕ := 0
  validationCount : ℕ := 0
  featureNames : List String := []
  parameters : Parameters := {}
  metrics : Dict := []
  dependencyVersions : SkillVersions := .empty
  qualified : Bool := false
  deriving DecidableEq

/-- `LearningModel`, the model of Entry before there were skills. -/
structure LearningModel where
  version : String
  hyperparameters : Hyperparameters := {}
  trainingCutoffAt : Option Instant := none
  outcomesSeen : ℕ := 0
  riskMode : Option RiskMode := none
  configurationFingerprint : Option String := none
  outcomeAvailabilityFraction : ℚ := 1
  featureNames : List String
  means : List ℚ
  scales : List ℚ
  coefficients : List ℚ
  validationRmse : ℚ
  validationRmse_nonneg : 0 ≤ validationRmse
  validationInDistributionFraction : ℚ := 0
  policyValidationCount : ℕ := 0
  policyObservedCount : ℕ := 0
  policyOutcomeAvailabilityFraction : ℚ := 0
  policySupportedCount : ℕ := 0
  policyVetoCount : ℕ := 0
  policyWinnerVetoFraction : ℚ := 0
  policyUpliftLowerBound : Option ℚ := none
  qualificationEvidenceSchemaVersion : Option String := none
  qualified : Bool := false

/-- Features by their names; nothing stands for one that is missing or not finite. -/
abbrev Features := String → Option ℚ

/-- A contextual Exit policy: the horizon it selects, and whether the features are within its
support. -/
abbrev ContextPolicy := Features → ℕ × Bool

/-- What is computed elsewhere. -/
structure Runtime where
  loadPolicy : ChallengerSkillArtifact → Option ContextPolicy
  /-- `_stable_digest` of parameters. -/
  digest : Parameters → String
  /-- `math.log1p(reserve_sol) / math.log(1_001)`. -/
  reserveDepth : ℚ → ℚ

def challengerSkillSchemaVersion : String := "challenger-skill-v2"

def featureSchemaVersion : String := "challenger-features-v5"

def entryValidationVersion : String := "entry-top-group-v2"

def learningHorizonsSeconds : List ℕ := [60, 300, 600, 900, 1200]

/-- `RISK_LIMITS[mode].max_hold_seconds`. -/
def maxHoldSeconds (mode : RiskMode) : ℕ := (riskLimitsTable mode).maxHoldSeconds

namespace ChallengerSkillArtifact

variable (runtime : Runtime) (artifact : ChallengerSkillArtifact)

/-- The Coach has made it. -/
def isCoach : Bool := artifact.schemaVersion = "challenger-skill-coach-v1"

/-- An artifact of Exit that reads the entry. -/
def isContextual : Bool :=
  artifact.recipeVersion = "exit-context-v1" || artifact.implementationVersion = "entry-context-exit-ridge-v1"

def artifactMinimum : WithTop ℚ :=
  if artifact.isCoach then ((70 / 100 : ℚ) : WithTop ℚ) else savedMinimum artifact.hyperparameters.coverage

def validationCurrent : Bool :=
  artifact.isCoach || artifact.hyperparameters.coverage.absent ||
    match readPolicy artifact.hyperparameters.coverage with
    | none => false
    | some policy =>
      artifact.hyperparameters.coverageFreshValidation = .flag true && policy.fresh artifact.trainingCutoffAt

/-- The metrics that `meets_current` asks for. -/
def coverageMetrics : List String :=
  match artifact.skill with
  | .entry | .manipulation => ["outcome_availability", "policy_outcome_availability"]
  | .sizing => ["outcome_availability"]
  | .exit =>
    "validation_availability_fraction" ::
      if artifact.isContextual || (artifact.metrics.lookup "reference_availability_fraction").isSome then
        ["reference_availability_fraction"] else []

def meetsCurrent (minimum : ℚ) : Bool :=
  artifact.artifactMinimum ≠ ⊤ &&
    (decide ((minimum : WithTop ℚ) ≤ artifact.artifactMinimum) ||
      artifact.coverageMetrics.all fun name =>
        (artifact.metrics.get name).finite?.any fun value => minimum ≤ value && value ≤ 1)

def entryValidationCurrent : Bool :=
  artifact.skill ≠ .entry || artifact.isCoach ||
    artifact.hyperparameters.recipe.get "entry_validation_version" = .text entryValidationVersion

def skillQualified : Bool :=
  artifact.qualified && artifact.entryValidationCurrent && artifact.artifactMinimum ≠ ⊤ && artifact.validationCurrent

def boundedExitHorizon : Option ℕ :=
  match artifact.parameters.selectedHorizonSeconds with
  | .int n =>
    if 0 ≤ n ∧ n.toNat ∈ learningHorizonsSeconds ∧ n.toNat ≤ maxHoldSeconds artifact.riskMode then some n.toNat else none
  | _ => none

/-- Whether its policy, or its horizon, can be read. -/
def exitArtifactAvailable : Bool :=
  if artifact.isContextual then (runtime.loadPolicy artifact).isSome else artifact.boundedExitHorizon.isSome

/-- `_exit_resolution_horizons`; no horizon is one that no checkpoint has. -/
def exitResolutionHorizons : List (Option ℕ) :=
  let baseline := maxHoldSeconds artifact.riskMode
  if artifact.isContextual then (learningHorizonsSeconds.filter (· ≤ baseline)).map some
  else [artifact.boundedExitHorizon, some baseline]

end ChallengerSkillArtifact

namespace LearningModel

variable (model : LearningModel)

/-- `coverage_policy.artifact_minimum`, of a model. -/
def artifactMinimum : WithTop ℚ := savedMinimum model.hyperparameters.coverage

/-- `coverage_policy.validation_current`, of a model. -/
def validationCurrent : Bool :=
  model.hyperparameters.coverage.absent ||
    match readPolicy model.hyperparameters.coverage with
    | none => false
    | some policy =>
      model.hyperparameters.coverageFreshValidation = .flag true && policy.fresh model.trainingCutoffAt

/-- `coverage_policy.meets_current`, of a model. -/
def meetsCurrent (minimum : ℚ) : Bool :=
  model.artifactMinimum ≠ ⊤ &&
    (decide ((minimum : WithTop ℚ) ≤ model.artifactMinimum) ||
      [model.outcomeAvailabilityFraction, model.policyOutcomeAvailabilityFraction].all fun value =>
        minimum ≤ value && value ≤ 1)

/-- `_entry_validation_current`, of a model. -/
def entryValidationCurrent : Bool :=
  model.hyperparameters.recipe.get "entry_validation_version" = .text entryValidationVersion

end LearningModel

end Challenger

end SignalArcade
