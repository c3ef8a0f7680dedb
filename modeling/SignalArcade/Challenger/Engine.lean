import SignalArcade.Challenger.Predict
import SignalArcade.Lib.MeanBounds

/-!
# The learning engine

What `LearningEngine` of `learning.py` keeps of the Challenger skills of a cohort: who the
Champion is, who tests for the crown, who is active, on what proof, and who is suspended; and
the checks that the operations of the engine share.
-/

namespace SignalArcade.Challenger

open Paper (Instant RiskMode DecisionAction)
open MeanBounds

/-! ### Constants -/

/-- How many outcomes health looks back on. -/
def activeHealthWindow : ℕ := 60

def activeHealthMinimumSamples : ℕ := 30

def tournamentMinimumCommonOutcomes : ℕ := 30

/-- `TOURNAMENT_Z_SCORE`, and those of health and of the policies. -/
def zScore : ℚ := 196 / 100

def maxModelVersions : ℕ := 1000

def sizingMaximumHarmFraction : ℚ := 35 / 100

/-! ### States -/

/-- What `_challenger_cohort_key` digests. -/
structure CohortKey where
  riskMode : RiskMode
  configurationFingerprint : String
  baselineVersion : String
  featureSchemaVersion : String
  deriving DecidableEq

def challengerCohortKey (riskMode : RiskMode) (configurationFingerprint : Option String) (baselineVersion : String)
    (featureSchemaVersion : String) : Option CohortKey :=
  (configurationFingerprint.filter (· ≠ "")).map fun configuration =>
    ⟨riskMode, configuration, baselineVersion, featureSchemaVersion⟩

/-- Why a skill is suspended. -/
inductive SuspensionReason where
  | degraded
  | unverifiable
  | suspended
  | championReplaced
  | activationProofUnavailable
  | tournamentArtifactUnavailable
  | coveragePolicyChanged
  | exitComparisonProofRequiresRequalification
  deriving DecidableEq

/-- The numbers of a proof on paired outcomes. -/
structure ProofEvidence where
  minimumAvailabilityFraction : WithTop ℚ
  ready : Bool
  observedCount : ℕ
  usableCount : ℕ
  availabilityFraction : ℚ
  meanUplift : Option ℚ
  /-- `uplift_lower_bound` is its lower end. -/
  upliftLowerBound : Option Interval
  harmCount : ℕ
  harmFraction : ℚ
  /-- `failed_checks`, of a recovery whose trial is complete. -/
  failedChecks : Option (List String) := none
  deriving DecidableEq

/-- A proof, with the requirement it was made under. -/
structure Proof where
  coverage : CoverageRecord
  evidence : ProofEvidence

/-- `status` of a recovery. -/
inductive RecoveryStatus where
  | collecting | passed | failed | contextChanged | policyChanged | restored
  deriving DecidableEq

/-- A row of a recovery trial. -/
structure RecoveryRow where
  id : String
  createdAt : Instant
  deadline : Instant
  /-- `row.get("delta")`: nothing before the outcome is observed, then what it is, if it can be told. -/
  delta : Option (Option ℚ) := none
  deriving DecidableEq

/-- When each upstream skill joined. -/
abbrev DependencyEpochs := ChallengerSkill → Option (Option Instant)

instance : DecidableEq DependencyEpochs := fun f g =>
  decidable_of_iff (f .entry = g .entry ∧ f .manipulation = g .manipulation ∧ f .sizing = g .sizing ∧ f .exit = g .exit)
    ⟨fun ⟨h₁, h₂, h₃, h₄⟩ => funext fun
      | .entry => h₁
      | .manipulation => h₂
      | .sizing => h₃
      | .exit => h₄, fun h => h ▸ ⟨rfl, rfl, rfl, rfl⟩⟩

/-- `activation_proof["recovery"]`. -/
structure Recovery where
  coverage : CoverageRecord
  policy : String
  artifactVersion : String
  suspendedAt : Option Instant
  reason : Option SuspensionReason
  dependencies : SkillVersions
  dependencyEpochs : DependencyEpochs
  startedAt : Instant
  status : RecoveryStatus
  rows : List RecoveryRow
  /-- What the last evaluation found. -/
  proof : Option ProofEvidence := none
  ready : Option Bool := none
  restoredAt : Option Instant := none
  deriving DecidableEq

/-- What an activation was granted on, as it is saved. -/
structure ActivationProof where
  coverage : CoverageRecord := {}
  policy : Option String := none
  artifactVersion : Option String := none
  dependencies : Option SkillVersions := none
  /-- `started_at`, of the context of a Coach crown. -/
  startedAt : Option Instant := none
  evidence : Option ProofEvidence := none
  recovery : Option Recovery := none
  deriving DecidableEq

/-- `result` of a tournament. -/
inductive TournamentResult where
  | firstChampion | collecting | promoted | inconclusive | rejected | contextStale
  | joinProof | dependencyActivated | dependencyPromoted | dependencyDeactivated | coveragePolicyChanged
  deriving DecidableEq

/-- `last_tournament`, as far as governance reads it. -/
structure TournamentRecord where
  coverage : CoverageRecord := {}
  result : Option TournamentResult := none
  proofVersion : Option String := none
  candidateVersion : Option String := none
  championVersion : Option String := none
  commonObservedCount : ℕ := 0
  commonUsableCount : ℕ := 0
  availabilityFraction : ℚ := 0
  /-- The mean, with the bounds of `uplift_lower_bound` and `uplift_upper_bound`. -/
  uplift : Option Interval := none
  dependency : Option ChallengerSkill := none
  deriving DecidableEq

/-- The `kind` of a Champion event. -/
inductive ChampionEventKind where
  | firstChampion | promoted | defended | inconclusive
  deriving DecidableEq

/-- `ChallengerChampionEvent`. Its `event_id` is the digest of the kind and the three versions, in
its cohort and skill. -/
structure ChampionEvent where
  kind : ChampionEventKind
  candidateVersion : String
  previousChampionVersion : Option String
  championVersion : String
  occurredAt : Instant
  commonObservedCount : ℕ := 0
  commonUsableCount : ℕ := 0
  availabilityFraction : ℚ := 0
  uplift : Option Interval := none
  deriving DecidableEq

/-- The state of a skill in a cohort, without its texts for display. -/
structure ChallengerSkillState where
  cohortKey : CohortKey
  skill : ChallengerSkill
  latestCandidateVersion : Option String := none
  testingVersion : Option String := none
  pendingVersions : List String := []
  championVersion : Option String := none
  activeVersion : Option String := none
  activeDependencies : SkillVersions := .empty
  activationProof : ActivationProof := {}
  commonForwardCount : ℕ := 0
  joinedAt : Option Instant := none
  suspendedVersion : Option String := none
  suspensionReason : Option SuspensionReason := none
  suspendedAt : Option Instant := none
  rejectedVersions : List String := []
  lastTournament : TournamentRecord := {}
  championJourney : List ChampionEvent := []
  deriving DecidableEq

/-- The key of a state. -/
abbrev SkillKey := CohortKey × ChallengerSkill

/-- The primary key of the state. -/
def ChallengerSkillState.key (state : ChallengerSkillState) : CohortKey × ChallengerSkill := (state.cohortKey, state.skill)

/-- The states, in the order of the dictionary. -/
abbrev SkillStates := Table (CohortKey × ChallengerSkill) ChallengerSkillState ChallengerSkillState.key

/-- The artifacts, by version. -/
abbrev SkillArtifacts := Table String ChallengerSkillArtifact ChallengerSkillArtifact.version

/-- The episodes, by id. -/
abbrev EvidenceEpisodes := Table String LearningEvidenceEpisode LearningEvidenceEpisode.episodeId

/-- The observations of Discovery, one for each mint. -/
abbrev LearningObservations := Table String LearningObservation LearningObservation.mint

/-- The mode of learning. -/
inductive LearningMode where
  | off | shadow | active
  deriving DecidableEq

/-- A nonlinear model that was loaded: the prediction for a row, unless it fails. -/
abbrev NonlinearModel := List ℚ → Option ℚ

/-- The engine: the runtime it sees, its tables and its policies. -/
structure LearningEngine where
  runtime : Runtime
  coveragePolicy : CoveragePolicy
  coveragePolicyError : Bool := false
  currentRiskMode : RiskMode
  configurationFingerprint : Option String
  baselineVersion : String
  mode : LearningMode
  consentGranted : Bool
  autoParticipation : Bool
  demoMode : Bool := false
  disabledModelVersions : List String := []
  skillArtifacts : SkillArtifacts
  /-- `_load_nonlinear_artifact`, by the version. -/
  nonlinearModels : String → Option NonlinearModel := fun _ => none
  skillStates : SkillStates
  activeSkillVersions : SkillVersions
  evidenceEpisodes : EvidenceEpisodes := .empty
  policyIdentities : PolicyIdentities := fun _ => none
  observations : LearningObservations := .empty
  /-- `models`, oldest first. -/
  models : List LearningModel := []
  activeModel : Option LearningModel := none
  reactivationAfterOutcomes : ℕ := 0
  /-- `last_suspension`: the state it tells. -/
  lastSuspension : Option String := none

namespace LearningEngine

variable (engine : LearningEngine)

def currentCohortKey : Option CohortKey :=
  challengerCohortKey engine.currentRiskMode engine.configurationFingerprint engine.baselineVersion featureSchemaVersion

/-- The state in the current cohort. -/
def currentSkillState (skill : ChallengerSkill) : Option ChallengerSkillState :=
  engine.currentCohortKey.bind fun cohort => engine.skillStates.get? (cohort, skill)

/-- `skill_artifacts.get(version or "")`. -/
def artifact? (version : Option String) : Option ChallengerSkillArtifact :=
  version.bind engine.skillArtifacts.get?

/-- `artifact.model_family != XGBOOST or _load_nonlinear_artifact(artifact) is not None`. -/
def loadable (artifact : ChallengerSkillArtifact) : Bool :=
  artifact.modelFamily ≠ .xgboost || (engine.nonlinearModels artifact.version).isSome

/-- `artifact.skill != EXIT or _exit_artifact_available(artifact)`. -/
def exitAvailable (artifact : ChallengerSkillArtifact) : Bool :=
  artifact.skill ≠ .exit || artifact.exitArtifactAvailable engine.runtime

/-- The greater of the two requirements. -/
def coverageMinimum (artifact : ChallengerSkillArtifact) : WithTop ℚ :=
  max ((engine.coveragePolicy.fraction : ℚ) : WithTop ℚ) artifact.artifactMinimum

/-- Qualified, and by the current coverage. -/
def skillEligible (artifact : ChallengerSkillArtifact) : Bool :=
  !engine.coveragePolicyError && artifact.skillQualified && artifact.meetsCurrent engine.coveragePolicy.fraction

def supportCoverageMinimum (artifact : ChallengerSkillArtifact) (state : ChallengerSkillState) : WithTop ℚ :=
  max (engine.coverageMinimum artifact)
    (if state.activationProof.artifactVersion = some artifact.version then savedMinimum state.activationProof.coverage else 0)

/-- `round(minimum * 100)`. A requirement is a whole number of percents, so nothing is rounded. -/
def percentOf (minimum : ℚ) : ℕ := (round (minimum * 100)).toNat

/-- The requirement that cannot be read. -/
def invalidCoverage : CoverageRecord := { version := some (.text "invalid") }

/-- `_coverage_receipt`, at the time `now`. -/
def coverageReceipt (artifact : ChallengerSkillArtifact) (floor : WithTop ℚ) (prospective : Bool) (now : Instant) :
    CoverageRecord :=
  let minimum : WithTop ℚ :=
    max (max floor ((engine.coveragePolicy.fraction : ℚ) : WithTop ℚ))
      (if artifact.isCoach then ((70 / 100 : ℚ) : WithTop ℚ) else if prospective then 0 else artifact.artifactMinimum)
  match minimum with
  | ⊤ => invalidCoverage
  | (q : ℚ) =>
    CoveragePolicy.metadata
      { percent := percentOf q
        revision := engine.coveragePolicy.revision
        effectiveAt := if prospective ∧ engine.coveragePolicy.revision ≠ 0 then some now else engine.coveragePolicy.effectiveAt }

def recoveryDependencies (skill : ChallengerSkill) : SkillVersions := engine.activeSkillVersions.upstream skill

def recoveryDependencyEpochs (skill : ChallengerSkill) : DependencyEpochs := fun k =>
  (engine.recoveryDependencies skill k).map fun _ => (engine.currentSkillState k).bind fun state => state.joinedAt

end LearningEngine

/-! ### What the checks rest on -/

namespace LearningEngine

variable {engine : LearningEngine} {skill : ChallengerSkill} {state : ChallengerSkillState} {version : Option String}
  {artifact : ChallengerSkillArtifact}

theorem currentSkillState_eq_some :
    engine.currentSkillState skill = some state ↔
      state ∈ engine.skillStates ∧ engine.currentCohortKey = some state.cohortKey ∧ state.skill = skill := by
  unfold currentSkillState
  cases hcohort : engine.currentCohortKey with
  | none => simp
  | some cohort =>
    rw [Option.bind_some, Table.get?_eq_some]
    constructor
    · rintro ⟨hmem, hkey⟩
      exact ⟨hmem, congrArg some (congrArg Prod.fst hkey).symm, congrArg Prod.snd hkey⟩
    · rintro ⟨hmem, hkey, rfl⟩
      cases hkey
      exact ⟨hmem, rfl⟩

theorem artifact?_eq_some :
    engine.artifact? version = some artifact ↔ artifact ∈ engine.skillArtifacts ∧ version = some artifact.version := by
  unfold artifact?
  cases version with
  | none => simp
  | some v =>
    rw [Option.bind_some, Table.get?_eq_some, Option.some_inj]
    exact and_congr_right fun _ => eq_comm

theorem coverageMinimum_ne_top (h : engine.skillEligible artifact = true) : engine.coverageMinimum artifact ≠ ⊤ := by
  simp only [skillEligible, ChallengerSkillArtifact.skillQualified, Bool.and_eq_true, decide_eq_true_eq] at h
  obtain ⟨⟨-, ⟨⟨-, hfinite⟩, -⟩⟩, -⟩ := h
  rw [coverageMinimum, ne_eq, max_eq_top]
  exact not_or.mpr ⟨WithTop.coe_ne_top, hfinite⟩

end LearningEngine

end SignalArcade.Challenger
