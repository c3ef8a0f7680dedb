import SignalArcade.Challenger.Tournament
import SignalArcade.Challenger.Training

/-!
# Candidates of the Coach

`seed_coach_candidate` of `learning.py`: a hypothesis that the Coach found promising becomes an
artifact, if it is one of the policies that the local generator could have produced, and is
registered as any other.
-/

namespace SignalArcade.Challenger

open Paper (Instant RiskMode)

/-- What an experiment of the Coach tries. -/
inductive CoachExperimentKind where
  | entryVeto | manipulationVeto | sizingMultiplier | earlierReview
  deriving DecidableEq

def CoachExperimentKind.text : CoachExperimentKind → String
  | .entryVeto => "entry_veto"
  | .manipulationVeto => "manipulation_veto"
  | .sizingMultiplier => "sizing_multiplier"
  | .earlierReview => "earlier_review"

/-- How an experiment stands. -/
inductive CoachExperimentState where
  | testing | promising | inconclusive | notSupported
  deriving DecidableEq

/-- A condition of a hypothesis. -/
abbrev CoachRule := String × CoachOperator × ℚ

/-- What `seed_coach_candidate` reads of a `CoachHypothesis`. -/
structure CoachHypothesis where
  /-- The first 20 digits of the digest of `hypothesis_id`. -/
  idDigest : String
  /-- The digest of the hypothesis with its times. -/
  evidenceDigest : String
  cutoffAt : Instant
  kind : CoachExperimentKind
  skill : ChallengerSkill
  state : CoachExperimentState
  contributionState : String
  riskMode : RiskMode
  configurationFingerprint : String
  baselineVersion : String
  featureSchemaVersion : String
  dependencyVersions : SkillVersions
  conditions : List CoachRule
  holdSeconds : Option ℕ
  baselineHoldSeconds : Option ℕ
  sizeMultiplier : Option ℚ
  discoveryUsableCount : ℕ
  forwardUsableCount : ℕ
  forwardAvailabilityFraction : ℚ
  forwardSeasonCount : ℕ
  forwardMeanUplift : Option ℚ
  forwardUpliftLowerBound : Option ℚ

def coachEntryRules : List CoachRule :=
  [("momentum", .le, -5 / 100), ("momentum", .le, 0), ("buy_ratio", .le, 50 / 100), ("buy_ratio", .le, 55 / 100),
    ("drawdown", .ge, 18 / 100), ("drawdown", .ge, 30 / 100), ("execution", .le, 85 / 100), ("confidence", .le, 72 / 100)]

def coachManipulationRules : List CoachRule :=
  [("concentration", .ge, 35 / 100), ("concentration", .ge, 50 / 100), ("danger", .ge, 20 / 100), ("danger", .ge, 30 / 100),
    ("single_trade_wallet_ratio", .ge, 90 / 100), ("round_trip_wallet_ratio", .ge, 35 / 100),
    ("round_trip_volume_ratio", .ge, 50 / 100), ("net_quote_flow_ratio", .le, 20 / 100),
    ("side_alternation_ratio", .ge, 75 / 100), ("quantized_amount_repeat_ratio", .ge, 40 / 100),
    ("slot_concentration_hhi", .ge, 30 / 100), ("price_direction_consistency", .ge, 90 / 100),
    ("microtrade_count_ratio", .ge, 75 / 100), ("microtrade_count_ratio", .ge, 90 / 100),
    ("meaningful_volume_ratio", .le, 35 / 100), ("meaningful_wallet_ratio", .le, 35 / 100),
    ("median_trade_quote_sol", .le, 5 / 1000), ("price_path_efficiency", .le, 15 / 100),
    ("rapid_price_reversal_ratio", .ge, 60 / 100), ("trade_density_5m", .ge, 70 / 100)]

def coachManipulationCombinations : List (List CoachRule) :=
  [[("round_trip_volume_ratio", .ge, 50 / 100), ("net_quote_flow_ratio", .le, 20 / 100)],
    [("side_alternation_ratio", .ge, 75 / 100), ("quantized_amount_repeat_ratio", .ge, 40 / 100)],
    [("single_trade_wallet_ratio", .ge, 90 / 100), ("slot_concentration_hhi", .ge, 30 / 100)],
    [("price_direction_consistency", .ge, 90 / 100), ("net_quote_flow_ratio", .le, 20 / 100)],
    [("microtrade_count_ratio", .ge, 75 / 100), ("meaningful_volume_ratio", .le, 35 / 100)],
    [("meaningful_wallet_ratio", .le, 35 / 100), ("median_trade_quote_sol", .le, 5 / 1000)],
    [("price_path_efficiency", .le, 15 / 100), ("rapid_price_reversal_ratio", .ge, 60 / 100)]]

namespace CoachHypothesis

variable (hypothesis : CoachHypothesis)

/-- `_coach_policy_is_allowlisted`. -/
def allowlisted : Bool :=
  match hypothesis.kind with
  | .entryVeto =>
    hypothesis.skill = .entry && hypothesis.conditions.length = 1 && hypothesis.conditions.all (· ∈ coachEntryRules) &&
      hypothesis.sizeMultiplier.isNone && hypothesis.holdSeconds.isNone && hypothesis.baselineHoldSeconds.isNone
  | .manipulationVeto =>
    hypothesis.skill = .manipulation &&
      ((hypothesis.conditions.length = 1 && hypothesis.conditions.all (· ∈ coachManipulationRules)) ||
        hypothesis.conditions ∈ coachManipulationCombinations) &&
      hypothesis.sizeMultiplier.isNone && hypothesis.holdSeconds.isNone && hypothesis.baselineHoldSeconds.isNone
  | .sizingMultiplier =>
    hypothesis.skill = .sizing && hypothesis.conditions = [] &&
      hypothesis.sizeMultiplier.any (fun multiplier => multiplier ∈ sizingMultipliers && multiplier ≠ 1) &&
      hypothesis.holdSeconds.isNone && hypothesis.baselineHoldSeconds.isNone
  | .earlierReview =>
    hypothesis.skill = .exit && hypothesis.conditions = [] && hypothesis.sizeMultiplier.isNone &&
      hypothesis.holdSeconds.any fun hold =>
        hold ∈ learningHorizonsSeconds && hypothesis.baselineHoldSeconds.any fun baseline =>
          baseline ∈ learningHorizonsSeconds && hold < baseline

def artifactVersion : String := "challenger-skill-v2-coach-" ++ hypothesis.skill.value ++ "-" ++ hypothesis.idDigest

def numberOrNone (x : Option ℚ) : Value := x.elim .none .float

def parameters : Parameters where
  coachPolicy :=
    some
      { kind := hypothesis.kind.text
        sizeMultiplier := hypothesis.sizeMultiplier
        conditions := some (hypothesis.conditions.map fun rule => some ⟨some rule.1, some rule.2.1, some rule.2.2⟩) }
  selectedHorizonSeconds := hypothesis.holdSeconds.elim .none fun seconds => .int seconds

def artifact (runtime : Runtime) (now : Instant) : ChallengerSkillArtifact where
  version := hypothesis.artifactVersion
  schemaVersion := "challenger-skill-coach-v1"
  skill := hypothesis.skill
  createdAt := now
  modelFamily := .deterministic
  implementationVersion := "coach-allowlist-v1"
  recipeVersion := "coach-policy-v1"
  trainingCutoffAt := some hypothesis.cutoffAt
  evidenceCohortDigest := some hypothesis.evidenceDigest
  payloadDigest := some (runtime.digest hypothesis.parameters)
  riskMode := hypothesis.riskMode
  configurationFingerprint := hypothesis.configurationFingerprint
  baselineVersion := hypothesis.baselineVersion
  featureSchemaVersion := hypothesis.featureSchemaVersion
  trainingCount := hypothesis.discoveryUsableCount
  validationCount := hypothesis.forwardUsableCount
  featureNames := hypothesis.conditions.map Prod.fst
  parameters := hypothesis.parameters
  metrics :=
    [("coach_seeded", .flag true), ("forward_availability_fraction", .float hypothesis.forwardAvailabilityFraction),
      ("forward_mean_uplift", numberOrNone hypothesis.forwardMeanUplift),
      ("forward_season_count", .int hypothesis.forwardSeasonCount),
      ("forward_uplift_lower_bound", numberOrNone hypothesis.forwardUpliftLowerBound), ("validation_rmse", .float 0)]
  dependencyVersions := hypothesis.dependencyVersions
  qualified := true

end CoachHypothesis

namespace LearningEngine

variable (engine : LearningEngine)

def coachContextCurrent (hypothesis : CoachHypothesis) : Bool :=
  hypothesis.state = .promising &&
    (hypothesis.contributionState = "ready" || hypothesis.contributionState = "waiting_for_champion") &&
    hypothesis.baselineVersion ∈ learnableBaselineVersions && hypothesis.featureSchemaVersion = featureSchemaVersion &&
    hypothesis.riskMode = engine.currentRiskMode &&
    some hypothesis.configurationFingerprint = engine.configurationFingerprint &&
    hypothesis.dependencyVersions = engine.activeSkillVersions && hypothesis.allowlisted

/-- `seed_coach_candidate`: the version, the status, and the engine; nothing where it raises. -/
def seedCoachCandidate (hypothesis : CoachHypothesis) (now : Instant) : Option (Option String × String × LearningEngine) :=
  if !engine.coachContextCurrent hypothesis then some (none, "coach_context_stale", engine)
  else match challengerCohortKey hypothesis.riskMode (some hypothesis.configurationFingerprint) hypothesis.baselineVersion
      hypothesis.featureSchemaVersion with
    | none => some (none, "coach_context_unavailable", engine)
    | some cohort =>
      if ((engine.skillStates.get? (cohort, hypothesis.skill)).bind fun state => state.championVersion).isNone then
        some (none, "waiting_for_champion", engine)
      else if (engine.skillArtifacts.get? hypothesis.artifactVersion).isSome then
        some (some hypothesis.artifactVersion, "handed_off", engine)
      else
        (engine.registerSkillArtifact (hypothesis.artifact engine.runtime now) cohort false false now).map fun engine =>
          (some hypothesis.artifactVersion, "handed_off", engine)

end LearningEngine

end SignalArcade.Challenger
