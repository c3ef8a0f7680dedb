import SignalArcade.Challenger.ExitContext
import SignalArcade.Challenger.Health
import SignalArcade.Challenger.FrozenEffect
import SignalArcade.Challenger.Tournament

/-!
# Exit timing

After how many seconds a normal hold is reviewed: `_active_exit_artifact`, `freeze_exit_timing_plan`
and `_hold_seconds_for_artifact` of `learning.py`. A contextual policy has a say in a position only by
the plan that was frozen when its order was made.
-/

namespace SignalArcade.Challenger

open Paper (Instant RiskMode DecisionAction)
open MeanBounds Selection List

/-! ### Timing by the model of Entry -/

def holdTimingMinimumAvailability : ℚ := 70 / 100

def holdTimingMinimumUplift : ℚ := 1 / 100

/-- `_checkpoint_utility`. -/
def timingUtility (observation : LearningObservation) (horizon : ℕ) : ℚ :=
  ((observation.checkpoints horizon).bind fun checkpoint => checkpoint.netReturn).getD (-1)

/-- `_mean_horizon_utility`. -/
def meanTimingUtility (observations : List LearningObservation) (horizon : ℕ) : ℚ :=
  if observations = [] then -1 else mean (observations.map fun observation => timingUtility observation horizon)

/-- What `hold_timing_validation` finds for a mode. -/
structure HoldTiming (mode : RiskMode) where
  qualified : Bool
  selectedHorizonSeconds : ℕ
  bounded : selectedHorizonSeconds ≤ maxHoldSeconds mode

/-- The horizons up to the longest hold. -/
def timingCandidates (mode : RiskMode) : List ℕ := learningHorizonsSeconds.filter (· ≤ maxHoldSeconds mode)

namespace LearningEngine

variable (engine : LearningEngine)

/-- The observations whose timing is compared, oldest first. -/
def timingRows (mode : RiskMode) : List LearningObservation :=
  ((byCreation engine.observations.rows).filter fun observation =>
      observation.riskMode = mode && observation.configurationFingerprint = engine.configurationFingerprint &&
        (observation.checkpoints (maxHoldSeconds mode)).isSome &&
        (timingCandidates mode).all fun horizon => (observation.checkpoints horizon).isSome).rtake
    holdTimingWindowObservations

/-- `hold_timing_validation`, where it is not remembered. -/
def holdTimingValidation (mode : RiskMode) : HoldTiming mode :=
  let rows := engine.timingRows mode
  let validation := validationRows rows
  let training := (rawTrainingRows rows).filter fun observation =>
    validation.head?.any fun first => (timingCandidates mode).all fun horizon =>
      observation.checkpoints.observedBy first.createdAt horizon
  if rows.length < holdTimingMinimumSamples ∨ training.length < minimumValidationSamples then
    ⟨false, maxHoldSeconds mode, le_rfl⟩
  else
    let key (horizon : ℕ) : ℚ × ℚ := (meanTimingUtility training horizon, if horizon = maxHoldSeconds mode then 1 else 0)
    match h : firstMax key (timingCandidates mode) with
    | none => ⟨false, maxHoldSeconds mode, le_rfl⟩
    | some selected =>
      let baseline := maxHoldSeconds mode
      let deltas := validation.map fun observation => timingUtility observation selected - timingUtility observation baseline
      let available := (validation.filter fun observation =>
        ((observation.checkpoints selected).bind fun checkpoint => checkpoint.netReturn).isSome).length
      { qualified :=
          selected ≠ baseline &&
            meanTimingUtility training baseline + holdTimingMinimumUplift ≤ meanTimingUtility training selected &&
            (interval zScore deltas).any (fun uplift => uplift.lowerAtLeast holdTimingMinimumUplift) &&
            holdTimingMinimumAvailability ≤ (available : ℚ) / validation.length
        selectedHorizonSeconds := selected
        bounded := by
          have hmem := mem_filter.mp (firstMax_mem h)
          simpa using hmem.2 }

end LearningEngine

/-! ### Plans -/

/-- The timing that a position is opened with. -/
structure ExitTimingPlan where
  artifactVersion : String
  payloadDigest : String
  selectedHorizonSeconds : ℕ
  createdAt : Instant
  riskMode : RiskMode
  configurationFingerprint : String
  baselineVersion : String
  featureSchemaVersion : String
  joinedAt : Instant
  dependencies : SkillVersions
  dependencyEpochs : DependencyEpochs
  features : List (String × ℚ)

/-- What is asked for of a plan that is read. -/
def ExitTimingPlan.valid (plan : ExitTimingPlan) : Bool :=
  plan.selectedHorizonSeconds ∈ contextHorizons && plan.selectedHorizonSeconds ≤ maxHoldSeconds plan.riskMode &&
    (plan.features.map Prod.fst).all (· ∈ exitContextFeatures) && exitContextFeatures.all (· ∈ plan.features.map Prod.fst)

def readPlan (plan : Option ExitTimingPlan) : Option ExitTimingPlan := plan.filter ExitTimingPlan.valid

/-- What is read of a `Position`. -/
structure TimedPosition where
  openedAt : Instant
  riskModeAtEntry : RiskMode
  baselineVersionAtEntry : String
  exitTimingPlan : Option ExitTimingPlan

/-- What is read of a `PaperOrder` that buys. -/
structure TimedOrder where
  createdAt : Instant
  fillAfter : Instant
  riskModeAtEntry : RiskMode
  baselineVersionAtEntry : String
  exitTimingPlan : Option ExitTimingPlan

/-- The order of a decision, as `submit_decision_with_reason` makes it; the latency is in milliseconds. -/
def TimedOrder.submit (decision : Decision) (latency : ℕ) (plan : Option ExitTimingPlan) : TimedOrder where
  createdAt := decision.createdAt
  fillAfter := decision.createdAt + 1000 * latency
  riskModeAtEntry := decision.riskMode
  baselineVersionAtEntry := decision.baselineVersion
  exitTimingPlan := plan

/-- The position an order opens, at the time at which it is filled; before it is due, it is not. -/
def TimedOrder.fill (order : TimedOrder) (now : Instant) : Option TimedPosition :=
  if now < order.createdAt ∨ now < order.fillAfter then none
  else
    some
      { openedAt := now
        riskModeAtEntry := order.riskModeAtEntry
        baselineVersionAtEntry := order.baselineVersionAtEntry
        exitTimingPlan := order.exitTimingPlan }

namespace LearningEngine

variable (engine : LearningEngine)

/-- What `_active_exit_artifact` asks of an artifact and of the state of Exit. -/
def exitAuthority (mode : RiskMode) (artifact : ChallengerSkillArtifact) (state : ChallengerSkillState) : Bool :=
  engine.mode = .active && artifact.qualified && artifact.skill = .exit && artifact.riskMode = mode &&
    some artifact.configurationFingerprint = engine.configurationFingerprint &&
    artifact.baselineVersion = engine.baselineVersion && artifact.featureSchemaVersion = featureSchemaVersion &&
    artifact.exitArtifactAvailable engine.runtime && state.activeVersion = some artifact.version &&
    state.championVersion = some artifact.version && state.suspendedVersion ≠ some artifact.version &&
    ChallengerSkill.order.all (fun k => (state.activeDependencies k).all fun version =>
      engine.activeSkillVersions k = some version) &&
    (!artifact.isContextual ||
      (engine.consentGranted && engine.validActivationProof state artifact (engine.recoveryDependencies .exit)))

/-- The artifact that times the exits. -/
def activeExitArtifact (mode : RiskMode) : Option ChallengerSkillArtifact := do
  let artifact ← engine.artifact? (engine.activeSkillVersions .exit)
  let state ← engine.currentSkillState .exit
  if engine.exitAuthority mode artifact state then some artifact else none

/-- The plan of a new position. -/
def freezeExitTimingPlan (decision : Decision) : Option ExitTimingPlan := do
  let artifact ← engine.activeExitArtifact decision.riskMode
  let state ← engine.currentSkillState .exit
  let joined ← state.joinedAt
  if !artifact.isContextual ∨ !engine.consentGranted ∨ decision.action ≠ .enter ∨
      decision.createdAt ≤ max artifact.createdAt joined ∨
      decision.configurationFingerprint ≠ some artifact.configurationFingerprint ∨
      decision.baselineVersion ≠ artifact.baselineVersion then none
  else
    let features ← featureVector engine.runtime decision
    let policy ← engine.runtime.loadPolicy artifact
    let selected := policy features
    if !selected.2 then none
    else
      some
        { artifactVersion := artifact.version
          payloadDigest := artifact.payloadDigest.getD ""
          selectedHorizonSeconds := selected.1
          createdAt := decision.createdAt
          riskMode := decision.riskMode
          configurationFingerprint := artifact.configurationFingerprint
          baselineVersion := artifact.baselineVersion
          featureSchemaVersion := featureSchemaVersion
          joinedAt := joined
          dependencies := state.activeDependencies
          dependencyEpochs := engine.recoveryDependencyEpochs .exit
          features := exitContextFeatures.filterMap fun name => (features name).map fun x => (name, x) }

/-- Whether the plan of a position is the one of the artifact, in its present state. -/
def planApplies (mode : RiskMode) (position : TimedPosition) (artifact : ChallengerSkillArtifact) (plan : ExitTimingPlan) :
    Bool :=
  engine.consentGranted &&
    (engine.currentSkillState .exit).any fun state => state.joinedAt.any fun joined =>
      plan.artifactVersion = artifact.version && some plan.payloadDigest = artifact.payloadDigest &&
        plan.riskMode = mode && mode = position.riskModeAtEntry && plan.baselineVersion = artifact.baselineVersion &&
        artifact.baselineVersion = position.baselineVersionAtEntry &&
        plan.configurationFingerprint = artifact.configurationFingerprint &&
        plan.featureSchemaVersion = featureSchemaVersion && plan.joinedAt = joined &&
        plan.dependencies = state.activeDependencies &&
        plan.dependencyEpochs = engine.recoveryDependencyEpochs .exit &&
        max artifact.createdAt joined < plan.createdAt && plan.createdAt ≤ position.openedAt

/-- The timing of the model that was active before there were skills. -/
def modelHoldSeconds (mode : RiskMode) (remembered : Option (HoldTiming mode)) : ℕ :=
  let assessment := remembered.getD (engine.holdTimingValidation mode)
  if engine.mode ≠ .active ∨ (!engine.activeModel.any fun model =>
      engine.modelIsEligible model false && model.riskMode = some mode) then maxHoldSeconds mode
  else if assessment.qualified then assessment.selectedHorizonSeconds
  else maxHoldSeconds mode

/-- `_hold_seconds_for_artifact`; the timing of a mode may be remembered. -/
def holdSecondsForArtifact (mode : RiskMode) (remembered : Option (HoldTiming mode)) (position : Option TimedPosition)
    (artifact : Option ChallengerSkillArtifact) : ℕ :=
  let fallback :=
    if (engine.artifact? (engine.activeSkillVersions .exit)).any ChallengerSkillArtifact.isContextual then maxHoldSeconds mode
    else engine.modelHoldSeconds mode remembered
  match artifact with
  | none => fallback
  | some artifact =>
    if artifact.isContextual then
      match position, readPlan (position.bind fun position => position.exitTimingPlan) with
      | some position, some plan =>
        if engine.planApplies mode position artifact plan then plan.selectedHorizonSeconds else maxHoldSeconds mode
      | _, _ => maxHoldSeconds mode
    else artifact.boundedExitHorizon.getD fallback

/-- How long a position is held. -/
def recommendedHoldSeconds (mode : RiskMode) (remembered : Option (HoldTiming mode)) (position : Option TimedPosition) : ℕ :=
  engine.holdSecondsForArtifact mode remembered position (engine.activeExitArtifact mode)

end LearningEngine

/-! ### What is frozen -/

/-- The plan was made by this artifact, under these conditions. -/
structure Planned (engine : LearningEngine) (decision : Decision) (plan : ExitTimingPlan)
    (artifact : ChallengerSkillArtifact) (state : ChallengerSkillState) (joined : Instant) (features : Features)
    (policy : ContextPolicy) : Prop where
  active : engine.activeExitArtifact decision.riskMode = some artifact
  current : engine.currentSkillState .exit = some state
  joinedAt : state.joinedAt = some joined
  contextual : artifact.isContextual = true
  consent : engine.consentGranted = true
  later : max artifact.createdAt joined < decision.createdAt
  configuration : decision.configurationFingerprint = some artifact.configurationFingerprint
  baseline : decision.baselineVersion = artifact.baselineVersion
  known : featureVector engine.runtime decision = some features
  loaded : engine.runtime.loadPolicy artifact = some policy
  supported : (policy features).2 = true
  plan : plan =
    { artifactVersion := artifact.version
      payloadDigest := artifact.payloadDigest.getD ""
      selectedHorizonSeconds := (policy features).1
      createdAt := decision.createdAt
      riskMode := decision.riskMode
      configurationFingerprint := artifact.configurationFingerprint
      baselineVersion := artifact.baselineVersion
      featureSchemaVersion := featureSchemaVersion
      joinedAt := joined
      dependencies := state.activeDependencies
      dependencyEpochs := engine.recoveryDependencyEpochs .exit
      features := exitContextFeatures.filterMap fun name => (features name).map fun x => (name, x) }

/-- The artifact is the active one of Exit. -/
structure ExitActive (engine : LearningEngine) (mode : RiskMode) (artifact : ChallengerSkillArtifact)
    (state : ChallengerSkillState) : Prop where
  known : engine.artifact? (some artifact.version) = some artifact
  current : engine.currentSkillState .exit = some state
  skill : artifact.skill = .exit
  mode : artifact.riskMode = mode
  configuration : some artifact.configurationFingerprint = engine.configurationFingerprint
  baseline : artifact.baselineVersion = engine.baselineVersion
  schema : artifact.featureSchemaVersion = featureSchemaVersion
  champion : state.championVersion = some artifact.version
  consent : artifact.isContextual = true → engine.consentGranted = true

/-- What is asked of a plan, of an artifact and of a position for the plan to apply. -/
structure Applies (engine : LearningEngine) (mode : RiskMode) (position : TimedPosition) (artifact : ChallengerSkillArtifact)
    (plan : ExitTimingPlan) (state : ChallengerSkillState) (joined : Instant) : Prop where
  consent : engine.consentGranted = true
  current : engine.currentSkillState .exit = some state
  joinedAt : state.joinedAt = some joined
  version : plan.artifactVersion = artifact.version
  digest : some plan.payloadDigest = artifact.payloadDigest
  modeSame : plan.riskMode = mode
  entered : mode = position.riskModeAtEntry
  baseline : plan.baselineVersion = artifact.baselineVersion
  baselineEntered : artifact.baselineVersion = position.baselineVersionAtEntry
  configuration : plan.configurationFingerprint = artifact.configurationFingerprint
  schema : plan.featureSchemaVersion = featureSchemaVersion
  joinedSame : plan.joinedAt = joined
  dependencies : plan.dependencies = state.activeDependencies
  epochs : plan.dependencyEpochs = engine.recoveryDependencyEpochs .exit
  later : max artifact.createdAt joined < plan.createdAt
  opened : plan.createdAt ≤ position.openedAt

namespace LearningEngine

variable {engine later : LearningEngine} {mode : RiskMode} {artifact : ChallengerSkillArtifact} {state : ChallengerSkillState}
  {decision : Decision} {plan : ExitTimingPlan} {joined : Instant} {features : Features} {policy : ContextPolicy}
  {evaluations : Evaluations} {remembered : Option (HoldTiming mode)} {position : TimedPosition}

theorem activeExitArtifact_eq_some (h : engine.activeExitArtifact mode = some artifact) :
    ∃ state, ExitActive engine mode artifact state := by
  simp only [activeExitArtifact, Option.bind_eq_bind, Option.bind_eq_some_iff] at h
  obtain ⟨found, hfound, state, hstate, h⟩ := h
  split_ifs at h with hchecked
  cases h
  simp only [exitAuthority, Bool.and_eq_true, Bool.or_eq_true, Bool.not_eq_true', decide_eq_true_eq] at hchecked
  obtain ⟨⟨⟨⟨⟨⟨⟨⟨⟨⟨⟨⟨-, -⟩, hskill⟩, hmode⟩, hconfiguration⟩, hbaseline⟩, hschema⟩, -⟩, -⟩, hchampion⟩, -⟩, -⟩, hconsent⟩ :=
    hchecked
  obtain ⟨hmem, -⟩ := artifact?_eq_some.mp hfound
  refine ⟨state, artifact?_eq_some.mpr ⟨hmem, rfl⟩, hstate, hskill, hmode, hconfiguration, hbaseline, hschema, hchampion, ?_⟩
  intro hcontextual
  rcases hconsent with hnot | hconsent
  · rw [hcontextual] at hnot
    cases hnot
  · exact hconsent.1

theorem activeExitArtifact_of_authority (hknown : engine.artifact? (engine.activeSkillVersions .exit) = some artifact)
    (hstate : engine.currentSkillState .exit = some state) (hauthority : engine.exitAuthority mode artifact state = true) :
    engine.activeExitArtifact mode = some artifact := by
  simp only [activeExitArtifact, hknown, hstate, Option.bind_eq_bind, Option.bind_some]
  exact if_pos hauthority

theorem freezeExitTimingPlan_eq_some (h : engine.freezeExitTimingPlan decision = some plan) :
    ∃ artifact state joined features policy, Planned engine decision plan artifact state joined features policy := by
  simp only [freezeExitTimingPlan, Option.bind_eq_bind, Option.bind_eq_some_iff] at h
  obtain ⟨artifact, hactive, state, hstate, joined, hjoined, h⟩ := h
  split_ifs at h with hrefused
  simp only [Option.bind_eq_some_iff] at h
  obtain ⟨features, hfeatures, policy, hpolicy, h⟩ := h
  split_ifs at h with hunsupported
  cases h
  push Not at hrefused
  obtain ⟨hcontextual, hconsent, -, hlater, hconfiguration, hbaseline⟩ := hrefused
  exact ⟨artifact, state, joined, features, policy, hactive, hstate, hjoined, by simpa using hcontextual, by simpa using hconsent,
    hlater, hconfiguration, hbaseline, hfeatures, hpolicy, by simpa using hunsupported, rfl⟩

theorem freezeExitTimingPlan_of_planned (hplan : Planned engine decision plan artifact state joined features policy)
    (henter : decision.action = .enter) : engine.freezeExitTimingPlan decision = some plan := by
  have hwilling : ¬((!artifact.isContextual) = true ∨ (!engine.consentGranted) = true ∨ decision.action ≠ .enter ∨
      decision.createdAt ≤ max artifact.createdAt joined ∨
      decision.configurationFingerprint ≠ some artifact.configurationFingerprint ∨
      decision.baselineVersion ≠ artifact.baselineVersion) := by
    simp only [hplan.contextual, hplan.consent, henter, hplan.configuration, hplan.baseline, not_le.mpr hplan.later,
      Bool.not_true, ne_eq, not_true_eq_false, reduceCtorEq, or_self, not_false_eq_true]
  simp only [freezeExitTimingPlan, hplan.active, hplan.current, hplan.joinedAt, hplan.known, hplan.loaded, hplan.supported,
    Option.bind_eq_bind, Option.bind_some]
  rw [if_neg hwilling, hplan.plan]
  rfl

/-- What governance keeps: a Champion is of the risk mode of the cohort in which it was registered. -/
def ChampionsInCohort (engine : LearningEngine) : Prop :=
  ∀ state ∈ engine.skillStates, ∀ artifact ∈ engine.skillArtifacts, state.championVersion = some artifact.version →
    artifact.riskMode = state.cohortKey.riskMode

/-- A plan is frozen in the risk mode of the learner. -/
theorem riskMode_of_planned (hplan : Planned engine decision plan artifact state joined features policy)
    (hcohort : engine.ChampionsInCohort) : decision.riskMode = engine.currentRiskMode := by
  obtain ⟨state', hactive⟩ := activeExitArtifact_eq_some hplan.active
  obtain ⟨hmem, hof, -⟩ := currentSkillState_eq_some.mp hactive.current
  obtain ⟨configuration, -, hkey⟩ := Option.map_eq_some_iff.mp hof
  have hchampion := hcohort state' hmem artifact (artifact?_eq_some.mp hactive.known).1 hactive.champion
  rw [← hactive.mode, hchampion, ← hkey]

/-- The plan is what the receipt proposes. -/
theorem planned_receipt (hplan : Planned engine decision plan artifact state joined features policy)
    (hcodec : ∃ codec : ContextCodec, engine.runtime.loadPolicy = codec.loadPolicy)
    (hcohort : engine.ChampionsInCohort) {actionable : Bool}
    (hfrozen : engine.frozenEvaluations decision features actionable = some evaluations) :
    ∃ receipt, evaluations plan.artifactVersion = some receipt ∧ receipt.inDistribution = true ∧
      receipt.proposedAction.int? = some plan.selectedHorizonSeconds := by
  obtain ⟨codec, hcodec⟩ := hcodec
  obtain ⟨state', hactive⟩ := activeExitArtifact_eq_some hplan.active
  obtain rfl : state' = state := Option.some_inj.mp (hactive.current.symm.trans hplan.current)
  obtain ⟨hmem, hof, hkey⟩ := currentSkillState_eq_some.mp hplan.current
  obtain ⟨frozen, hevaluations, rfl⟩ := Option.map_eq_some_iff.mp hfrozen
  have hkeyed : challengerCohortKey (engine.observationFor decision features actionable).riskMode
      (engine.observationFor decision features actionable).configurationFingerprint
      (engine.observationFor decision features actionable).baselineVersion
      (engine.observationFor decision features actionable).featureSchemaVersion = some state'.cohortKey := by
    show challengerCohortKey decision.riskMode decision.configurationFingerprint decision.baselineVersion featureSchemaVersion = _
    rw [riskMode_of_planned hplan hcohort, hplan.configuration, hplan.baseline, hactive.configuration, hactive.baseline]
    exact hof
  have hstate : engine.skillStates.get? (state'.cohortKey, artifact.skill) = some state' := by
    rw [hactive.skill, ← hkey]
    exact Table.get?_eq_some.mpr ⟨hmem, rfl⟩
  have hcoach : artifact.isCoach = false := not_coach_of_loaded (hcodec ▸ hplan.loaded)
  rw [freezeSkillEvaluations, hkeyed] at hevaluations
  obtain ⟨before, receipt, hreceipt, hwritten⟩ := foldlM_champion ChallengerSkill.order_nodup (ChallengerSkill.mem_order _)
    ⟨engine.skillStates, rfl⟩ hevaluations hstate hactive.champion hactive.known fun hyes => by
      rw [hcoach] at hyes
      cases hyes
  -- the receipt of the exit branch
  have hselection : engine.exitSelection artifact (engine.observationFor decision features actionable) =
      some (policy features) := by
    unfold exitSelection
    rw [if_pos hplan.contextual, hplan.loaded, Option.bind_eq_bind, Option.bind_some]
    refine if_pos ⟨(le_max_left _ _).trans_lt hplan.later, hactive.mode, hplan.configuration.symm, hplan.baseline.symm, ?_⟩
    exact hactive.schema
  have hfrozenReceipt : ∃ r, receipt = some r ∧ r.skill = .exit ∧ r.inDistribution = (policy features).2 ∧
      r.proposedAction = .number (policy features).1 := by
    unfold frozenReceipt exitReceipt at hreceipt
    rw [if_pos hactive.skill, hselection] at hreceipt
    obtain ⟨r, hr, rfl⟩ := Option.map_eq_some_iff.mp hreceipt
    simp only [ChallengerEvaluationReceipt.validated, hplan.contextual, if_true] at hr
    split_ifs at hr
    cases hr
    exact ⟨_, rfl, rfl, rfl, rfl⟩
  obtain ⟨r, rfl, hskill, hsupported, hproposed⟩ := hfrozenReceipt
  refine ⟨r, ?_, ?_, ?_⟩
  · rw [hplan.plan]
    unfold freezeSizingBounds
    rw [hwritten r rfl, Option.map_some, if_neg (by rw [hskill]; decide)]
  · rw [hsupported]
    exact hplan.supported
  · rw [hproposed, hplan.plan]
    unfold Proposal.int?
    simp

/-! ### What is held to -/

theorem planned_valid (hplan : Planned engine decision plan artifact state joined features policy)
    (hcodec : ∃ codec : ContextCodec, engine.runtime.loadPolicy = codec.loadPolicy) : plan.valid = true := by
  obtain ⟨codec, hcodec⟩ := hcodec
  have hloaded : codec.loadPolicy artifact = some policy := hcodec ▸ hplan.loaded
  obtain ⟨state', hactive⟩ := activeExitArtifact_eq_some hplan.active
  obtain ⟨hhorizon, hlongest⟩ := select_le hloaded features
  have hknown := features_of_loaded hloaded hplan.supported
  rw [hactive.mode] at hlongest
  rw [hplan.plan]
  unfold ExitTimingPlan.valid
  simp only [Bool.and_eq_true, decide_eq_true_eq, all_eq_true]
  refine ⟨⟨⟨hhorizon, hlongest⟩, fun name hname => ?_⟩, fun name hname => ?_⟩
  · obtain ⟨entry, hentry, rfl⟩ := mem_map.mp hname
    obtain ⟨known, hmem, hsome⟩ := mem_filterMap.mp hentry
    obtain ⟨x, -, rfl⟩ := Option.map_eq_some_iff.mp hsome
    exact hmem
  · obtain ⟨x, hx⟩ := Option.isSome_iff_exists.mp (hknown name hname)
    refine mem_map.mpr ⟨(name, x), mem_filterMap.mpr ⟨name, hname, ?_⟩, rfl⟩
    rw [hx]
    rfl

theorem planApplies_iff :
    engine.planApplies mode position artifact plan = true ↔
      ∃ state joined, Applies engine mode position artifact plan state joined := by
  unfold planApplies
  simp only [Bool.and_eq_true, Option.any_eq_true, decide_eq_true_eq]
  constructor
  · rintro ⟨hconsent, state, hstate, joined, hjoined,
      ⟨⟨⟨⟨⟨⟨⟨⟨⟨⟨⟨⟨hversion, hdigest⟩, hmode⟩, hentered⟩, hbaseline⟩, hbaselineEntered⟩, hconfiguration⟩, hschema⟩, hjoin⟩,
        hdependencies⟩, hepochs⟩, hlater⟩, hopenedAt⟩⟩
    exact ⟨state, joined, hconsent, hstate, hjoined, hversion, hdigest, hmode, hentered, hbaseline, hbaselineEntered,
      hconfiguration, hschema, hjoin, hdependencies, hepochs, hlater, hopenedAt⟩
  · rintro ⟨state, joined, h⟩
    exact ⟨h.consent, state, h.current, joined, h.joinedAt,
      ⟨⟨⟨⟨⟨⟨⟨⟨⟨⟨⟨⟨h.version, h.digest⟩, h.modeSame⟩, h.entered⟩, h.baseline⟩, h.baselineEntered⟩, h.configuration⟩, h.schema⟩, h.joinedSame⟩,
        h.dependencies⟩, h.epochs⟩, h.later⟩, h.opened⟩⟩

theorem modelHoldSeconds_le : engine.modelHoldSeconds mode remembered ≤ maxHoldSeconds mode := by
  unfold modelHoldSeconds
  dsimp only
  split_ifs
  · exact le_rfl
  · exact HoldTiming.bounded _
  · exact le_rfl

theorem boundedExitHorizon_le {horizon : ℕ} (h : artifact.boundedExitHorizon = some horizon) :
    horizon ≤ maxHoldSeconds artifact.riskMode := by
  unfold ChallengerSkillArtifact.boundedExitHorizon at h
  split at h
  · split_ifs at h with hbounds
    cases h
    exact hbounds.2.2
  · cases h

/-- No hold is longer than that of the mode. -/
theorem recommendedHoldSeconds_le (engine : LearningEngine) (mode : RiskMode) (remembered : Option (HoldTiming mode))
    (position : Option TimedPosition) : engine.recommendedHoldSeconds mode remembered position ≤ maxHoldSeconds mode := by
  have hfallback : (if (engine.artifact? (engine.activeSkillVersions .exit)).any ChallengerSkillArtifact.isContextual then
      maxHoldSeconds mode else engine.modelHoldSeconds mode remembered) ≤ maxHoldSeconds mode := by
    split_ifs
    · exact le_rfl
    · exact modelHoldSeconds_le
  unfold recommendedHoldSeconds holdSecondsForArtifact
  dsimp only
  cases hactive : engine.activeExitArtifact mode with
  | none => exact hfallback
  | some artifact =>
    obtain ⟨state, hstate⟩ := activeExitArtifact_eq_some hactive
    dsimp only
    by_cases hcontextual : artifact.isContextual = true
    · rw [if_pos hcontextual]
      split
      · next plan hplan =>
        split_ifs with happlies
        · obtain ⟨_, _, happlied⟩ := planApplies_iff.mp happlies
          obtain ⟨-, hvalid⟩ := Option.filter_eq_some_iff.mp hplan
          simp only [ExitTimingPlan.valid, Bool.and_eq_true, decide_eq_true_eq] at hvalid
          rw [← happlied.modeSame]
          exact hvalid.1.1.2
        · exact le_rfl
      · exact le_rfl
    · rw [if_neg hcontextual]
      cases hhorizon : artifact.boundedExitHorizon with
      | none => exact hfallback
      | some horizon =>
        have hle := boundedExitHorizon_le hhorizon
        rw [hstate.mode] at hle
        exact hle

end LearningEngine

/-! ### The epoch of a plan -/

/-- By what a contextual artifact has a say. -/
structure TimingAuthority where
  artifact : ChallengerSkillArtifact
  joinedAt : Instant
  dependencies : SkillVersions
  dependencyEpochs : DependencyEpochs

/-- The contextual artifact that has a say in a mode, by the consent, with its epoch. -/
def LearningEngine.timingAuthority (engine : LearningEngine) (mode : RiskMode) : Option TimingAuthority := do
  let artifact ← engine.activeExitArtifact mode
  let state ← engine.currentSkillState .exit
  let joined ← state.joinedAt
  if artifact.isContextual ∧ engine.consentGranted then
    some ⟨artifact, joined, state.activeDependencies, engine.recoveryDependencyEpochs .exit⟩
  else none

/-- What may become of an engine, with the versions that were pruned. A version says when it was trained: one that was
pruned is not registered again. -/
inductive Later (engine : LearningEngine) : List String → LearningEngine → Prop
  | now : Later engine [] engine
  /-- Governance, settings and restarts keep the artifacts. -/
  | governed {pruned before after} (h : Later engine pruned before) (hkept : after.skillArtifacts = before.skillArtifacts) :
    Later engine pruned after
  | registered {pruned before after artifact cohortKey payload deferTournament now} (h : Later engine pruned before)
    (hfresh : artifact.version ∉ pruned)
    (hregistered : before.registerSkillArtifact artifact cohortKey payload deferTournament now = some after) :
    Later engine pruned after
  | pruned {pruned before} (h : Later engine pruned before) (version : String) :
    Later engine (version :: pruned) { before with skillArtifacts := before.skillArtifacts.erase version }

namespace LearningEngine

variable {engine before after later : LearningEngine} {mode : RiskMode} {artifact : ChallengerSkillArtifact}
  {state : ChallengerSkillState} {decision : Decision} {plan : ExitTimingPlan} {joined : Instant} {features : Features}
  {policy : ContextPolicy} {evaluations : Evaluations} {position : TimedPosition} {pruned : List String}

variable {now : Instant}

theorem registerSkillArtifact_artifacts {cohortKey : CohortKey} {payload deferTournament : Bool}
    (h : before.registerSkillArtifact artifact cohortKey payload deferTournament now = some after) :
    (before.skillArtifacts.get? artifact.version).all (· = before.withCoverageRequirement artifact) = true ∧
      after.skillArtifacts = before.skillArtifacts.upsert (before.withCoverageRequirement artifact) := by
  have hversion : (before.withCoverageRequirement artifact).version = artifact.version := by
    unfold withCoverageRequirement
    split_ifs <;> rfl
  unfold registerSkillArtifact at h
  dsimp only at h
  rw [hversion] at h
  split_ifs at h with hpayload hother
  cases h
  refine ⟨?_, rfl⟩
  cases hknown : before.skillArtifacts.get? artifact.version with
  | none => rfl
  | some known =>
    rw [hknown] at hother
    simpa using hother

theorem artifact_of_later (hlater : Later engine pruned later) (h : engine.artifact? (some artifact.version) = some artifact) :
    later.artifact? (some artifact.version) = if artifact.version ∈ pruned then none else some artifact := by
  induction hlater with
  | now => simpa using h
  | governed _ hkept ih =>
    rw [← ih]
    show (_ : SkillArtifacts).get? _ = (_ : SkillArtifacts).get? _
    rw [hkept]
  | @registered pruned before after other cohortKey payload deferTournament now _ hfresh hregistered ih =>
    obtain ⟨hsame, hafter⟩ := registerSkillArtifact_artifacts hregistered
    have hversion : (before.withCoverageRequirement other).version = other.version := by
      unfold withCoverageRequirement
      split_ifs <;> rfl
    have ih' : before.skillArtifacts.get? artifact.version = if artifact.version ∈ pruned then none else some artifact := ih
    show after.skillArtifacts.get? artifact.version = _
    rw [hafter, Table.get?_upsert, hversion]
    by_cases hother : artifact.version = other.version
    · rw [if_pos hother, if_neg (hother ▸ hfresh)]
      rw [if_neg (hother ▸ hfresh), hother] at ih'
      rw [ih'] at hsame
      have hequal : artifact = before.withCoverageRequirement other := by simpa using hsame
      rw [← hequal]
    · rw [if_neg hother]
      exact ih'
  | pruned _ version ih =>
    show (Table.erase _ version).get? artifact.version = _
    rw [Table.get?_erase]
    by_cases hversion : artifact.version = version
    · rw [if_pos hversion, if_pos (mem_cons.mpr (.inl hversion))]
    · rw [if_neg hversion]
      refine ih.trans ?_
      simp [hversion]

theorem timingAuthority_of_planned (hplan : Planned engine decision plan artifact state joined features policy) :
    engine.timingAuthority decision.riskMode =
      some ⟨artifact, joined, state.activeDependencies, engine.recoveryDependencyEpochs .exit⟩ := by
  simp only [timingAuthority, hplan.active, hplan.current, hplan.joinedAt, Option.bind_eq_bind, Option.bind_some]
  exact if_pos ⟨hplan.contextual, hplan.consent⟩

theorem timingAuthority_eq_some {authority : TimingAuthority} (h : engine.timingAuthority mode = some authority) :
    engine.activeExitArtifact mode = some authority.artifact ∧ authority.artifact.isContextual = true ∧
      engine.consentGranted = true ∧ ∃ state, engine.currentSkillState .exit = some state ∧
        state.joinedAt = some authority.joinedAt ∧ authority.dependencies = state.activeDependencies ∧
        authority.dependencyEpochs = engine.recoveryDependencyEpochs .exit := by
  simp only [timingAuthority, Option.bind_eq_bind, Option.bind_eq_some_iff] at h
  obtain ⟨artifact, hactive, state, hstate, joined, hjoined, h⟩ := h
  split_ifs at h with hcontextual
  cases h
  exact ⟨hactive, hcontextual.1, hcontextual.2, state, hstate, hjoined, rfl, rfl⟩

theorem fill_eq_some {latency : ℕ} {entry : Option ExitTimingPlan}
    (h : (TimedOrder.submit decision latency entry).fill now = some position) :
    decision.createdAt ≤ position.openedAt ∧ position.riskModeAtEntry = decision.riskMode ∧
      position.baselineVersionAtEntry = decision.baselineVersion ∧ position.exitTimingPlan = entry := by
  unfold TimedOrder.fill at h
  split_ifs at h with hdue
  cases h
  push Not at hdue
  exact ⟨hdue.1, rfl, rfl, rfl⟩

theorem planApplies_of_planned (hplan : Planned engine decision plan artifact state joined features policy)
    (hcodec : ∃ codec : ContextCodec, engine.runtime.loadPolicy = codec.loadPolicy) (hlater : Later engine pruned later)
    {latency : ℕ} (hfill : (TimedOrder.submit decision latency (some plan)).fill now = some position)
    {active : ChallengerSkillArtifact} (hactive : later.activeExitArtifact mode = some active)
    (hcontextual : active.isContextual = true) :
    later.planApplies mode position active plan = true ↔
      later.timingAuthority mode = engine.timingAuthority decision.riskMode := by
  obtain ⟨codec, hcodec⟩ := hcodec
  obtain ⟨state₀, hactive₀⟩ := activeExitArtifact_eq_some hplan.active
  obtain ⟨laterState, hlaterActive⟩ := activeExitArtifact_eq_some hactive
  obtain ⟨hopened, hentered, hbaseline, -⟩ := fill_eq_some hfill
  rw [timingAuthority_of_planned hplan, planApplies_iff]
  constructor
  · rintro ⟨current, since, h⟩
    -- the version is the one of the artifact of the plan
    have hsame : active = artifact := by
      have hversion : artifact.version = active.version := by
        rw [← h.version, hplan.plan]
      have hkept := artifact_of_later hlater hactive₀.known
      rw [hversion, hlaterActive.known] at hkept
      split_ifs at hkept
      exact Option.some_inj.mp hkept
    subst hsame
    simp only [timingAuthority, hactive, h.current, h.joinedAt, Option.bind_eq_bind, Option.bind_some]
    rw [if_pos ⟨hcontextual, h.consent⟩, ← h.joinedSame, ← h.dependencies, ← h.epochs, hplan.plan]
  · intro h
    obtain ⟨hfound, -, hconsent, current, hcurrent, hjoined, hdependencies, hepochs⟩ := timingAuthority_eq_some h
    obtain rfl : active = artifact := Option.some_inj.mp (hactive.symm.trans hfound)
    have hdigest : ∃ digest, active.payloadDigest = some digest := by
      have hloaded : codec.loadPolicy active = some policy := hcodec ▸ hplan.loaded
      unfold ContextCodec.loadPolicy at hloaded
      split_ifs at hloaded with _ hdigest
      push Not at hdigest
      exact ⟨_, hdigest.2⟩
    obtain ⟨digest, hdigest⟩ := hdigest
    have hmode : mode = decision.riskMode := hlaterActive.mode.symm.trans hactive₀.mode
    refine ⟨current, joined, ?_⟩
    rw [hplan.plan]
    exact
      { consent := hconsent
        current := hcurrent
        joinedAt := hjoined
        version := rfl
        digest := by rw [hdigest]; rfl
        modeSame := hmode.symm
        entered := hmode.trans hentered.symm
        baseline := rfl
        baselineEntered := hplan.baseline.symm.trans hbaseline.symm
        configuration := rfl
        schema := rfl
        joinedSame := rfl
        dependencies := hdependencies
        epochs := hepochs
        later := hplan.later
        opened := hopened }

/-- A later hold is the plan's, or a fallback. -/
theorem recommendedHoldSeconds_of_planned (hplan : Planned engine decision plan artifact state joined features policy)
    (hcodec : ∃ codec : ContextCodec, engine.runtime.loadPolicy = codec.loadPolicy) (hlater : Later engine pruned later)
    {latency : ℕ} (hfill : (TimedOrder.submit decision latency (some plan)).fill now = some position)
    (remembered : Option (HoldTiming mode)) :
    (later.timingAuthority mode = engine.timingAuthority decision.riskMode →
      later.recommendedHoldSeconds mode remembered (some position) = plan.selectedHorizonSeconds) ∧
    (later.timingAuthority mode ≠ engine.timingAuthority decision.riskMode →
      later.recommendedHoldSeconds mode remembered (some position) = later.recommendedHoldSeconds mode remembered none) := by
  have hread : readPlan ((some position).bind fun position => position.exitTimingPlan) = some plan := by
    obtain ⟨-, -, -, hentry⟩ := fill_eq_some hfill
    show readPlan position.exitTimingPlan = _
    rw [hentry]
    exact Option.filter_eq_some_iff.mpr ⟨rfl, planned_valid hplan hcodec⟩
  unfold recommendedHoldSeconds
  cases hactive : later.activeExitArtifact mode with
  | none =>
    refine ⟨fun h => ?_, fun _ => rfl⟩
    rw [timingAuthority_of_planned hplan] at h
    obtain ⟨hfound, -⟩ := timingAuthority_eq_some h
    rw [hactive] at hfound
    cases hfound
  | some active =>
    by_cases hcontextual : active.isContextual = true
    · have happlies := planApplies_of_planned hplan hcodec hlater hfill hactive hcontextual
      simp only [holdSecondsForArtifact, if_pos hcontextual, hread]
      refine ⟨fun h => if_pos (happlies.mpr h), fun h => ?_⟩
      rw [if_neg (mt happlies.mp h)]
    · refine ⟨fun h => ?_, fun _ => ?_⟩
      · rw [timingAuthority_of_planned hplan] at h
        obtain ⟨hfound, hcontextual', -⟩ := timingAuthority_eq_some h
        obtain rfl : active = artifact := Option.some_inj.mp (hactive.symm.trans hfound)
        exact absurd hcontextual' hcontextual
      · simp only [holdSecondsForArtifact, if_neg hcontextual]

/-- What is held to without a plan: the horizon of a bounded artifact, the longest hold beside a contextual one, and what
the model of before there were skills has. -/
def unplannedHoldSeconds (engine : LearningEngine) (mode : RiskMode) (remembered : Option (HoldTiming mode)) : ℕ :=
  match engine.activeExitArtifact mode with
  | some artifact =>
    if artifact.isContextual then maxHoldSeconds mode else artifact.boundedExitHorizon.getD (maxHoldSeconds mode)
  | none =>
    if (engine.artifact? (engine.activeSkillVersions .exit)).any ChallengerSkillArtifact.isContextual then
      maxHoldSeconds mode
    else engine.modelHoldSeconds mode remembered

theorem recommendedHoldSeconds_none (engine : LearningEngine) (mode : RiskMode) (remembered : Option (HoldTiming mode)) :
    engine.recommendedHoldSeconds mode remembered none = engine.unplannedHoldSeconds mode remembered := by
  unfold recommendedHoldSeconds unplannedHoldSeconds
  cases hactive : engine.activeExitArtifact mode with
  | none => rfl
  | some artifact =>
    simp only [holdSecondsForArtifact]
    by_cases hcontextual : artifact.isContextual = true
    · rw [if_pos hcontextual, if_pos hcontextual]
    · rw [if_neg hcontextual, if_neg hcontextual]
      -- an active artifact that is not contextual has a horizon
      have havailable : artifact.exitArtifactAvailable engine.runtime = true := by
        simp only [activeExitArtifact, Option.bind_eq_bind, Option.bind_eq_some_iff] at hactive
        obtain ⟨found, -, state, -, h⟩ := hactive
        split_ifs at h with hchecked
        cases h
        simp only [exitAuthority, Bool.and_eq_true] at hchecked
        exact hchecked.1.1.1.1.1.2
      rw [ChallengerSkillArtifact.exitArtifactAvailable, if_neg hcontextual] at havailable
      obtain ⟨horizon, hhorizon⟩ := Option.isSome_iff_exists.mp havailable
      rw [hhorizon]
      rfl

end LearningEngine

/-- A plan is what the receipt of the same decision proposes, in distribution. A position holds to its plan as long as
the contextual artifact, since when it joined, the consent and what it depends on are as they were when the plan was
frozen. Otherwise it holds to what it would without a plan, which is never more than the longest hold of the mode. -/
theorem exit_timing_law {engine : LearningEngine} {decision : Decision} {plan : ExitTimingPlan}
    (hcodec : ∃ codec : ContextCodec, engine.runtime.loadPolicy = codec.loadPolicy)
    (hcohort : engine.ChampionsInCohort) (hfreeze : engine.freezeExitTimingPlan decision = some plan) :
    (∀ features actionable evaluations, featureVector engine.runtime decision = some features →
      engine.frozenEvaluations decision features actionable = some evaluations →
      ∃ receipt, evaluations plan.artifactVersion = some receipt ∧ receipt.inDistribution = true ∧
        receipt.proposedAction.int? = some plan.selectedHorizonSeconds) ∧
    ∀ pruned later latency now position mode (remembered : Option (HoldTiming mode)), Later engine pruned later →
      (TimedOrder.submit decision latency (some plan)).fill now = some position →
      (later.timingAuthority mode = engine.timingAuthority decision.riskMode →
        later.recommendedHoldSeconds mode remembered (some position) = plan.selectedHorizonSeconds) ∧
      (later.timingAuthority mode ≠ engine.timingAuthority decision.riskMode →
        later.recommendedHoldSeconds mode remembered (some position) = later.unplannedHoldSeconds mode remembered) ∧
      later.recommendedHoldSeconds mode remembered (some position) ≤ maxHoldSeconds mode := by
  obtain ⟨artifact, state, joined, features, policy, hplan⟩ := LearningEngine.freezeExitTimingPlan_eq_some hfreeze
  constructor
  · intro known actionable evaluations hknown hfrozen
    obtain rfl : known = features := Option.some_inj.mp (hknown.symm.trans hplan.known)
    exact LearningEngine.planned_receipt hplan hcodec hcohort hfrozen
  · intro pruned later latency now position mode remembered hlater hfill
    obtain ⟨hsame, hother⟩ := LearningEngine.recommendedHoldSeconds_of_planned hplan hcodec hlater hfill remembered
    refine ⟨hsame, fun h => ?_, LearningEngine.recommendedHoldSeconds_le later mode remembered (some position)⟩
    rw [hother h, LearningEngine.recommendedHoldSeconds_none]

/-! ### A plan of five minutes -/

/-- The text of a model that predicts a number. -/
def constantText (intercept : String) : String :=
  "\x7b\"coefficients\":[" ++ intercept ++ ",0.0,0.0,0.0,0.0,0.0,0.0,0.0,0.0,0.0,0.0]," ++
    "\"means\":[0.0,0.0,0.0,0.0,0.0,0.0,0.0,0.0,0.0,0.0],\"scales\":[1.0,1.0,1.0,1.0,1.0,1.0,1.0,1.0,1.0,1.0]\x7d"

def fiveMinutesText : String :=
  "\x7b\"baseline_horizon_seconds\":600,\"models\":\x7b\"300\":" ++ constantText "0.5" ++ ",\"60\":" ++ constantText "0.0" ++
    ",\"600\":" ++ constantText "0.0" ++ "\x7d\x7d"

/-- What it says. -/
def fiveMinutes : ContextData :=
  let model (horizon : ℕ) (intercept : ℚ) : ContextModel :=
    ⟨horizon, ⟨replicate 10 0, replicate 10 1, intercept :: replicate 10 0⟩⟩
  ⟨600, [model 60 0, model 300 (1 / 2), model 600 0]⟩

/-- What reads this text; it is the only one that is read below. -/
def fiveMinutesCodec : ContextCodec where
  decode _ := some fiveMinutes
  digest _ := "1e23a787d35e66b903b34435d492695cba010e024a5fe265179346f15bed61a4"

/-- An Exit artifact that selects by the features at the entry, or a minute for every position. -/
def timingArtifact (contextual : Bool) : ChallengerSkillArtifact :=
  { coachDouble with
    version := if contextual then "context" else "bounded"
    schemaVersion := challengerSkillSchemaVersion
    skill := .exit
    modelFamily := if contextual then .linear else .deterministic
    implementationVersion := if contextual then "entry-context-exit-ridge-v1" else "bounded-horizon-selector-v1"
    recipeVersion := if contextual then "exit-context-v1" else "exit-horizon-v1"
    payloadDigest := if contextual then some "1e23a787d35e66b903b34435d492695cba010e024a5fe265179346f15bed61a4" else none
    featureNames := if contextual then exitContextFeatures else []
    parameters :=
      { selectedHorizonSeconds := if contextual then .none else .int 60
        contextPayload := if contextual then fiveMinutesText else "" } }

/-- The Champion of Exit, since an instant. -/
def timingState (contextual : Bool) (joined : Instant) : ChallengerSkillState where
  cohortKey := ⟨.balanced, "configuration", "baseline-v1.5", featureSchemaVersion⟩
  skill := .exit
  championVersion := some (timingArtifact contextual).version
  activeVersion := some (timingArtifact contextual).version
  joinedAt := some joined
  activationProof :=
    { policy := some (timingArtifact contextual).activationPolicy
      artifactVersion := some (timingArtifact contextual).version
      dependencies := some .empty
      evidence := some
        { minimumAvailabilityFraction := 0
          ready := true
          observedCount := tournamentMinimumCommonOutcomes
          usableCount := tournamentMinimumCommonOutcomes
          availabilityFraction := 1
          meanUplift := some 1
          upliftLowerBound := some ⟨1, 0⟩
          harmCount := 0
          harmFraction := 0 } }

def timingEngine (contextual : Bool) (joined : Instant) : LearningEngine where
  runtime := ⟨fiveMinutesCodec.loadPolicy, fun _ => "", fun _ => 0⟩
  coveragePolicy := {}
  currentRiskMode := .balanced
  configurationFingerprint := some "configuration"
  baselineVersion := "baseline-v1.5"
  mode := .active
  consentGranted := true
  autoParticipation := true
  skillArtifacts := Table.ofRows [timingArtifact true, timingArtifact false]
  skillStates := Table.ofRows [timingState contextual joined]
  activeSkillVersions := SkillVersions.empty.set .exit (timingArtifact contextual).version

/-- An entry after both were trained. -/
def timedEntry : Decision := { cleanEntry with createdAt := 20 }

theorem length_le_utf8ByteSize (s : String) : s.length ≤ s.utf8ByteSize := by
  have hlist : ∀ l : List Char, l.length ≤ (String.ofList l).utf8ByteSize := by
    intro l
    induction l with
    | nil => exact Nat.zero_le _
    | cons c l ih =>
      have hcons : String.ofList (c :: l) = String.singleton c ++ String.ofList l := by
        rw [← singleton_append, String.ofList_append]
        rfl
      rw [hcons, String.utf8ByteSize_append, String.utf8ByteSize_singleton, length_cons]
      have hpos := Char.utf8Size_pos c
      omega
  calc
    s.length = s.toList.length := String.length_toList.symm
    _ ≤ _ := hlist s.toList
    _ = s.utf8ByteSize := by rw [String.ofList_toList]

theorem fiveMinutes_loaded :
    fiveMinutesCodec.loadPolicy (timingArtifact true) = some (ContextRidge.select ⟨600, fiveMinutes.models⟩) := by
  have hsize : fiveMinutesText.utf8ByteSize ≤ 24000 := by decide +kernel
  have hshort : ¬24000 < (timingArtifact true).parameters.contextPayload.length :=
    Nat.not_lt.mpr ((length_le_utf8ByteSize fiveMinutesText).trans hsize)
  have hdigest : ¬(timingArtifact true).payloadDigest ≠
      some (fiveMinutesCodec.digest (timingArtifact true).parameters.contextPayload) := not_not.mpr rfl
  unfold ContextCodec.loadPolicy
  rw [if_neg (by decide +kernel), if_neg (not_or.mpr ⟨hshort, hdigest⟩)]
  have hdecoded : fiveMinutesCodec.decodePolicy fiveMinutesText 600 = some ⟨600, fiveMinutes.models⟩ :=
    if_pos (by decide +kernel)
  exact congrArg (Option.map ContextRidge.select) hdecoded

theorem timingArtifact_available : (timingArtifact true).exitArtifactAvailable (timingEngine true 10).runtime = true := by
  have hruntime : (timingEngine true 10).runtime.loadPolicy = fiveMinutesCodec.loadPolicy := rfl
  rw [ChallengerSkillArtifact.exitArtifactAvailable, if_pos (by decide +kernel), hruntime, fiveMinutes_loaded,
    Option.isSome_some]

theorem timingEngine_state : (timingEngine true 10).currentSkillState .exit = some (timingState true 10) := rfl

theorem timingEngine_active : (timingEngine true 10).activeExitArtifact timedEntry.riskMode = some (timingArtifact true) := by
  have hknown : (timingEngine true 10).artifact? ((timingEngine true 10).activeSkillVersions .exit) =
      some (timingArtifact true) :=
    LearningEngine.artifact?_eq_some.mpr ⟨(Table.mem_ofRows (by simp [timingArtifact])).mpr mem_cons_self, rfl⟩
  have hauthority : (timingEngine true 10).exitAuthority timedEntry.riskMode (timingArtifact true) (timingState true 10) = true := by
    unfold LearningEngine.exitAuthority
    rw [timingArtifact_available]
    decide +kernel
  exact LearningEngine.activeExitArtifact_of_authority hknown timingEngine_state hauthority

theorem timedEntry_planned : ∃ plan, (timingEngine true 10).freezeExitTimingPlan timedEntry = some plan ∧
    plan.selectedHorizonSeconds = 300 := by
  have hruntime : (timingEngine true 10).runtime.loadPolicy = fiveMinutesCodec.loadPolicy := rfl
  have hselected : (featureVector (timingEngine true 10).runtime timedEntry).map
      (ContextRidge.select ⟨600, fiveMinutes.models⟩) = some (300, true) := by decide +kernel
  obtain ⟨features, hfeatures, hselect⟩ := Option.map_eq_some_iff.mp hselected
  refine ⟨_, LearningEngine.freezeExitTimingPlan_of_planned
    { active := timingEngine_active
      current := timingEngine_state
      joinedAt := rfl
      contextual := rfl
      consent := rfl
      later := by decide
      configuration := rfl
      baseline := rfl
      known := hfeatures
      loaded := (congrFun hruntime _).trans fiveMinutes_loaded
      supported := congrArg Prod.snd hselect
      plan := rfl } rfl, ?_⟩
  exact congrArg Prod.fst hselect

theorem timedEntry_fill (plan : ExitTimingPlan) : (TimedOrder.submit timedEntry 0 (some plan)).fill 30 =
    some ⟨30, .balanced, "baseline-v1.5", some plan⟩ := by
  have hdue : ¬((30 : Instant) < timedEntry.createdAt ∨ 30 < timedEntry.createdAt + 1000 * 0) := by decide
  exact if_neg hdue

/-- When a bounded artifact replaces the contextual one after the plan, the position is held to the minute of the bounded
one, not to the ten minutes of the mode. -/
theorem replaced_by_bounded : ∃ plan position,
    (timingEngine true 10).freezeExitTimingPlan timedEntry = some plan ∧
    (TimedOrder.submit timedEntry 0 (some plan)).fill 30 = some position ∧
    Later (timingEngine true 10) [] (timingEngine false 25) ∧
    (timingEngine false 25).timingAuthority .balanced ≠ (timingEngine true 10).timingAuthority .balanced ∧
    (timingEngine false 25).recommendedHoldSeconds .balanced none (some position) = 60 ∧ maxHoldSeconds .balanced = 600 := by
  obtain ⟨plan, hfreeze, -⟩ := timedEntry_planned
  obtain ⟨artifact, state, joined, features, policy, hplan⟩ := LearningEngine.freezeExitTimingPlan_eq_some hfreeze
  have hfill := timedEntry_fill plan
  have hlater : Later (timingEngine true 10) [] (timingEngine false 25) := .governed .now rfl
  have hnone : (timingEngine false 25).timingAuthority .balanced = none :=
    rfl
  have hother : (timingEngine false 25).timingAuthority .balanced ≠ (timingEngine true 10).timingAuthority .balanced := by
    rw [hnone, show (.balanced : RiskMode) = timedEntry.riskMode from rfl, LearningEngine.timingAuthority_of_planned hplan]
    exact (Option.some_ne_none _).symm
  refine ⟨plan, _, hfreeze, hfill, hlater, hother, ?_, by decide⟩
  obtain ⟨-, hunplanned⟩ :=
    LearningEngine.recommendedHoldSeconds_of_planned hplan ⟨fiveMinutesCodec, rfl⟩ hlater hfill
      (none : Option (HoldTiming .balanced))
  rw [hunplanned hother, LearningEngine.recommendedHoldSeconds_none]
  rfl

/-- The position of the entry holds to its five minutes as long as nothing changes. -/
theorem timedEntry_held : ∃ plan position,
    (timingEngine true 10).freezeExitTimingPlan timedEntry = some plan ∧
    (TimedOrder.submit timedEntry 0 (some plan)).fill 30 = some position ∧
    (timingEngine true 10).recommendedHoldSeconds .balanced none (some position) = 300 := by
  obtain ⟨plan, hfreeze, hselected⟩ := timedEntry_planned
  have hfill := timedEntry_fill plan
  have hcohort : (timingEngine true 10).ChampionsInCohort := by
    intro state hstate artifact hartifact _
    obtain rfl : state = timingState true 10 := mem_singleton.mp (Table.mem_of_mem_ofRows hstate)
    rcases mem_pair.mp (Table.mem_of_mem_ofRows hartifact) with rfl | rfl <;> rfl
  obtain ⟨-, hlaw⟩ := exit_timing_law ⟨fiveMinutesCodec, rfl⟩ hcohort hfreeze
  obtain ⟨hsame, -⟩ := hlaw [] _ 0 30 _ .balanced none .now hfill
  exact ⟨plan, _, hfreeze, hfill, (hsame rfl).trans hselected⟩

end SignalArcade.Challenger
