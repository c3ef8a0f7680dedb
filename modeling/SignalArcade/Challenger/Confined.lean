import SignalArcade.Challenger.Assess

/-!
# The influence on a decision is confined

`Confined` is what an assessment may make of a decision: an entry becomes a pass by the veto of
a skill that has authority and supports the features, or of the model of before there were
skills; the planned size is multiplied by an allowed multiplier, above one only in a clean
market and within the maximum of the sizing assessment. A missing prediction vetoes too.
-/

namespace SignalArcade.Challenger

open Paper (Instant RiskMode DecisionAction MarketIntegrityState)

/-! ### What an assessment may change -/

/-- The artifact of an active skill, in the contract of the decision, supports its features without
a conservative value above zero. -/
structure SkillVeto (engine : LearningEngine) (decision : Decision) (features : Features) (skill : ChallengerSkill)
    (artifact : ChallengerSkillArtifact) : Prop where
  known : artifact ∈ engine.skillArtifacts
  active : engine.activeSkillVersions skill = some artifact.version
  state : ∃ state, engine.currentSkillState skill = some state ∧ state.activeVersion = some artifact.version ∧
    state.suspendedVersion ≠ some artifact.version
  skill : artifact.skill = skill
  riskMode : artifact.riskMode = decision.riskMode
  configuration : some artifact.configurationFingerprint = decision.configurationFingerprint
  baseline : artifact.baselineVersion = decision.baselineVersion
  eligible : engine.skillEligible artifact = true
  supported : engine.artifactInSupport artifact features = true
  notPositive : ∀ rmse ∈ artifact.validationRmse, ∀ value ∈ engine.conservative features artifact rmse, value ≤ 0

/-- Without active skills, the active model supports the features with a conservative value that is
not above zero. -/
structure ModelVeto (engine : LearningEngine) (decision : Decision) (features : Features) (model : LearningModel) :
    Prop where
  active : engine.mode = .active ∧ engine.activeModel = some model
  alone : engine.activeSkillVersions.nonempty = false
  qualified : model.qualified = true ∧ model.entryValidationCurrent = true
  riskMode : model.riskMode = some decision.riskMode
  configuration : model.configurationFingerprint = decision.configurationFingerprint
  supported : LearningEngine.withinModelSupport model features = true
  notPositive : LearningEngine.modelConservative model features ≤ 0

/-- The planned size at a multiplier, and where it may be above the plan: in a clean market, within
the maximum where there is one. -/
structure Resized (decision : Decision) (multiplier : ℚ) (size : Option ℚ) : Prop where
  allowed : multiplier ∈ sizingMultipliers
  size : size = decision.plannedOrderSizeSol.map fun planned => planned * multiplier
  clean : 1 < multiplier → ∃ integrity, decision.integrityAssessment = some integrity ∧ integrity.state = .clean
  capacity : 1 < multiplier → ∀ planned ∈ decision.plannedOrderSizeSol, ∀ sizing ∈ decision.sizingAssessment,
    ∀ maximum ∈ sizing.maximumSizeSol, planned * multiplier ≤ maximum + 1 / 1000000000

/-- What an assessment may make of a decision. -/
structure Confined (engine : LearningEngine) (decision : Decision) (baselineActionable : Bool) (decision' : Decision) :
    Prop where
  /-- What is not an entry is not touched. -/
  notEnter : decision.action ≠ .enter →
    decision'.action = decision.action ∧ decision'.plannedOrderSizeSol = decision.plannedOrderSizeSol
  /-- Nor is what cannot be acted on, or has no features. -/
  idle : baselineActionable = false ∨ featureVector engine.runtime decision = none →
    decision'.action = decision.action ∧ decision'.plannedOrderSizeSol = decision.plannedOrderSizeSol
  veto : decision'.action ≠ decision.action → decision'.action = .pass ∧
    ∃ features, featureVector engine.runtime decision = some features ∧
      ((∃ skill artifact, (skill = .entry ∨ skill = .manipulation) ∧ SkillVeto engine decision features skill artifact) ∨
        ∃ model, ModelVeto engine decision features model)
  resized : ∃ multiplier, Resized decision multiplier decision'.plannedOrderSizeSol

theorem Resized.planned (decision : Decision) : Resized decision 1 decision.plannedOrderSizeSol where
  allowed := by decide +kernel
  size := by simp
  clean h := absurd h (lt_irrefl 1)
  capacity h := absurd h (lt_irrefl 1)

theorem Confined.of_same {engine : LearningEngine} {decision decision' : Decision} {baselineActionable : Bool}
    (haction : decision'.action = decision.action)
    (hsize : decision'.plannedOrderSizeSol = decision.plannedOrderSizeSol) :
    Confined engine decision baselineActionable decision' where
  notEnter _ := ⟨haction, hsize⟩
  idle _ := ⟨haction, hsize⟩
  veto h := absurd haction h
  resized := ⟨1, hsize ▸ .planned decision⟩

/-! ### The rounds of the loop -/

section

variable {decision : Decision} {features : Features} {baselineActionable : Bool} {skill : ChallengerSkill}
  {artifact : ChallengerSkillArtifact} {rmse : ℚ} {s s' : Assessment} {engine : LearningEngine}

namespace LearningEngine

theorem liveArtifact_eq_some (h : engine.liveArtifact decision skill = some artifact) :
    (artifact ∈ engine.skillArtifacts ∧ engine.activeSkillVersions skill = some artifact.version) ∧
      ∃ state, engine.currentSkillState skill = some state ∧ engine.hasAuthority decision skill artifact state = true := by
  simp only [liveArtifact, Option.bind_eq_bind, Option.bind_eq_some_iff] at h
  obtain ⟨found, hfound, state, hstate, h⟩ := h
  split_ifs at h with hauthority
  cases h
  exact ⟨artifact?_eq_some.mp hfound, state, hstate, hauthority⟩

/-- When a skill that may veto makes a pass of what is still an entry. -/
def Vetoes (engine : LearningEngine) (features : Features) (baselineActionable : Bool) (artifact : ChallengerSkillArtifact)
    (rmse : ℚ) (action : DecisionAction) : Prop :=
  action = .enter ∧ baselineActionable = true ∧ engine.artifactInSupport artifact features = true ∧
    engine.supports features artifact rmse = false

instance (engine : LearningEngine) (features : Features) (baselineActionable : Bool) (artifact : ChallengerSkillArtifact)
    (rmse : ℚ) (action : DecisionAction) : Decidable (Vetoes engine features baselineActionable artifact rmse action) :=
  inferInstanceAs (Decidable (_ ∧ _))

theorem assessVeto_spec (h : engine.assessVeto decision features baselineActionable skill artifact rmse s = some s') :
    s'.plannedSize = s.plannedSize ∧
      s'.action = if Vetoes engine features baselineActionable artifact rmse s.action then .pass else s.action := by
  simp only [assessVeto, Option.bind_eq_bind, Option.bind_eq_some_iff] at h
  obtain ⟨legacy, -, receipt, -, h⟩ := h
  have hiff : (decide (s.action = .enter) && baselineActionable && engine.artifactInSupport artifact features &&
      !engine.supports features artifact rmse) = true ↔ Vetoes engine features baselineActionable artifact rmse s.action := by
    simp only [Vetoes, Bool.and_eq_true, decide_eq_true_eq, Bool.not_eq_true', and_assoc]
  by_cases hveto : Vetoes engine features baselineActionable artifact rmse s.action
  · rw [if_pos (hiff.mpr hveto)] at h
    cases h
    exact ⟨rfl, (if_pos hveto).symm⟩
  · rw [if_neg (mt hiff.mp hveto)] at h
    rw [if_neg hveto]
    split_ifs at h <;> cases h <;> exact ⟨rfl, rfl⟩

theorem guardedMultiplier_spec (decision : Decision) (plannedSize : Option ℚ) {selected : ℚ}
    (h : selected ∈ sizingMultipliers) :
    (guardedMultiplier decision plannedSize selected).1 ∈ sizingMultipliers ∧
      (1 < (guardedMultiplier decision plannedSize selected).1 →
        (∃ integrity, decision.integrityAssessment = some integrity ∧ integrity.state = .clean) ∧
          ∀ planned ∈ plannedSize, ∀ sizing ∈ decision.sizingAssessment, ∀ maximum ∈ sizing.maximumSizeSol,
            planned * (guardedMultiplier decision plannedSize selected).1 ≤ maximum + 1 / 1000000000) := by
  have hone : (1 : ℚ) ∈ sizingMultipliers := by decide +kernel
  unfold guardedMultiplier
  split_ifs with hintegrity hcapacity
  · exact ⟨hone, fun hlt => absurd hlt (lt_irrefl 1)⟩
  · exact ⟨hone, fun hlt => absurd hlt (lt_irrefl 1)⟩
  · refine ⟨h, fun hlt => ⟨?_, ?_⟩⟩
    · cases hassessed : decision.integrityAssessment with
      | none => exact absurd ⟨hlt, by rw [hassessed]; rfl⟩ hintegrity
      | some integrity =>
        refine ⟨integrity, rfl, ?_⟩
        by_contra hstate
        exact hintegrity ⟨hlt, by simpa [hassessed] using hstate⟩
    · intro planned hplanned sizing hsizing maximum hmaximum
      rw [Option.mem_def] at hplanned hsizing hmaximum
      by_contra hlarge
      exact hcapacity ⟨hlt, by simpa [hplanned, hsizing, hmaximum] using hlarge⟩

theorem selectedMultiplier_mem (artifact : ChallengerSkillArtifact) (features : Features) :
    engine.selectedMultiplier features artifact ∈ sizingMultipliers := by
  have hone : (1 : ℚ) ∈ sizingMultipliers := by decide +kernel
  unfold selectedMultiplier
  split
  · split_ifs
    · exact nearestSizeMultiplier_mem _
    · exact hone
  · exact hone

/-- Sizing leaves the action; what is still an entry it makes at the multiplier that is left when the
guards have been asked. -/
theorem assessSize_spec (h : engine.assessSize decision features baselineActionable artifact rmse s = some s') :
    s'.action = s.action ∧
      s'.plannedSize =
        if s.action = .enter ∧ baselineActionable = true ∧ engine.artifactInSupport artifact features = true then
          s.plannedSize.map fun size =>
            size * (guardedMultiplier decision s.plannedSize (engine.selectedMultiplier features artifact)).1
        else s.plannedSize := by
  simp only [assessSize, Option.bind_eq_bind, Option.bind_eq_some_iff] at h
  obtain ⟨receipt, -, h⟩ := h
  generalize guardedMultiplier decision s.plannedSize (engine.selectedMultiplier features artifact) = guarded at h ⊢
  by_cases happlied : (decide (s.action = .enter) && baselineActionable && engine.artifactInSupport artifact features &&
      s.plannedSize.isSome && decide (guarded.1 ≠ 1)) = true
  · rw [if_pos happlied] at h
    cases h
    simp only [Bool.and_eq_true, decide_eq_true_eq] at happlied
    obtain ⟨⟨⟨⟨henter, hactionable⟩, hsupported⟩, -⟩, -⟩ := happlied
    exact ⟨rfl, (if_pos ⟨henter, hactionable, hsupported⟩).symm⟩
  · rw [if_neg happlied] at h
    have hsame : s'.action = s.action ∧ s'.plannedSize = s.plannedSize := by
      cases h
      exact ⟨rfl, rfl⟩
    refine ⟨hsame.1, hsame.2.trans ?_⟩
    split_ifs with hacts
    · -- there is no size, or it stays what it is
      cases hsize : s.plannedSize with
      | none => rfl
      | some size =>
        have hone : guarded.1 = 1 := by
          by_contra hne
          exact happlied (by simp [hacts.1, hacts.2.1, hacts.2.2, hsize, hne])
        rw [Option.map_some, hone, mul_one]
    · rfl

theorem assessSkill_veto (hskill : skill = .entry ∨ skill = .manipulation)
    (h : engine.assessSkill decision features baselineActionable skill s = some s') :
    s'.plannedSize = s.plannedSize ∧
      (s'.action = s.action ∨
        s'.action = .pass ∧ s.action = .enter ∧ baselineActionable = true ∧
          ∃ artifact, SkillVeto engine decision features skill artifact) := by
  unfold assessSkill at h
  cases hlive : engine.liveArtifact decision skill with
  | none =>
    rw [hlive] at h
    cases h
    exact ⟨rfl, .inl rfl⟩
  | some artifact =>
    simp only [hlive, if_pos hskill, Option.bind_eq_bind, Option.bind_eq_some_iff] at h
    obtain ⟨rmse, hrmse, h⟩ := h
    obtain ⟨hsize, haction⟩ := assessVeto_spec h
    by_cases hveto : Vetoes engine features baselineActionable artifact rmse s.action
    case neg => exact ⟨hsize, .inl (haction.trans (if_neg hveto))⟩
    rw [if_pos hveto] at haction
    obtain ⟨henter, hactionable, hsupported, hagrees⟩ := hveto
    obtain ⟨⟨hknown, hactive⟩, state, hstate, hauthority⟩ := liveArtifact_eq_some hlive
    simp only [hasAuthority, Bool.and_eq_true, decide_eq_true_eq] at hauthority
    obtain ⟨⟨⟨⟨⟨⟨⟨⟨hof, hversion⟩, hsuspended⟩, -⟩, hrisk⟩, hconfiguration⟩, hbaseline⟩, heligible⟩, -⟩ := hauthority
    refine ⟨hsize, .inr ⟨haction, henter, hactionable, artifact, hknown, hactive, ⟨state, hstate, hversion, hsuspended⟩,
      hof, hrisk, hconfiguration, hbaseline, heligible, hsupported, ?_⟩⟩
    intro rmse' hrmse' value hvalue
    rw [Option.mem_def, hrmse, Option.some_inj] at hrmse'
    subst hrmse'
    rw [Option.mem_def] at hvalue
    simpa [supports, hsupported, hvalue] using hagrees

theorem assessSkill_sizing (h : engine.assessSkill decision features baselineActionable .sizing s = some s') :
    s'.action = s.action ∧
      (s'.plannedSize = s.plannedSize ∨
        s.action = .enter ∧ baselineActionable = true ∧
          ∃ selected ∈ sizingMultipliers, s'.plannedSize = s.plannedSize.map fun size =>
            size * (guardedMultiplier decision s.plannedSize selected).1) := by
  unfold assessSkill at h
  cases hlive : engine.liveArtifact decision .sizing with
  | none =>
    rw [hlive] at h
    cases h
    exact ⟨rfl, .inl rfl⟩
  | some artifact =>
    simp only [hlive, reduceCtorEq, or_self, if_false, Option.bind_eq_bind, Option.bind_eq_some_iff] at h
    obtain ⟨rmse, -, h⟩ := h
    obtain ⟨haction, hsize⟩ := assessSize_spec h
    split_ifs at hsize with hacts
    · exact ⟨haction, .inr ⟨hacts.1, hacts.2.1, _, selectedMultiplier_mem artifact features, hsize⟩⟩
    · exact ⟨haction, .inl hsize⟩

/-! ### The assessment -/

/-- The skills, one after the other. -/
theorem assessActiveSkills_confined {decision' : Decision}
    (h : engine.assessActiveSkills decision baselineActionable = some decision') :
    Confined engine decision baselineActionable decision' := by
  unfold assessActiveSkills at h
  cases hfeatures : featureVector engine.runtime decision with
  | none =>
    rw [hfeatures] at h
    cases h
    exact .of_same rfl rfl
  | some features =>
    simp only [hfeatures, Option.bind_eq_bind, Option.bind_eq_some_iff] at h
    obtain ⟨s₁, h₁, s₂, h₂, s₃, h₃, h⟩ := h
    cases h
    obtain ⟨hsize₁, haction₁⟩ := assessSkill_veto (.inl rfl) h₁
    obtain ⟨hsize₂, haction₂⟩ := assessSkill_veto (.inr rfl) h₂
    obtain ⟨haction₃, hsize₃⟩ := assessSkill_sizing h₃
    replace hsize₂ : s₂.plannedSize = decision.plannedOrderSizeSol := hsize₂.trans hsize₁
    -- the action after the two veto skills
    have hvetoed : s₃.action = decision.action ∨ s₃.action = .pass ∧ decision.action = .enter ∧ baselineActionable = true ∧
        ∃ skill artifact, (skill = .entry ∨ skill = .manipulation) ∧ SkillVeto engine decision features skill artifact := by
      rw [haction₃]
      rcases haction₁ with haction₁ | ⟨haction₁, henter, hactionable, artifact, hveto⟩
      · rcases haction₂ with haction₂ | ⟨haction₂, henter, hactionable, artifact, hveto⟩
        · exact .inl (haction₂.trans haction₁)
        · exact .inr ⟨haction₂, haction₁.symm.trans henter, hactionable, .manipulation, artifact, .inr rfl, hveto⟩
      · rcases haction₂ with haction₂ | ⟨-, henter', -⟩
        · exact .inr ⟨haction₂.trans haction₁, henter, hactionable, .entry, artifact, .inl rfl, hveto⟩
        · rw [haction₁] at henter'
          cases henter'
    -- Sizing acts on what is still an entry
    have hsized : s₃.plannedSize = decision.plannedOrderSizeSol ∨ decision.action = .enter ∧ baselineActionable = true ∧
        ∃ selected ∈ sizingMultipliers, s₃.plannedSize = decision.plannedOrderSizeSol.map fun size =>
          size * (guardedMultiplier decision decision.plannedOrderSizeSol selected).1 := by
      rw [hsize₂] at hsize₃
      rcases hsize₃ with hsame | ⟨henter, hactionable, hsize⟩
      · exact .inl hsame
      · right
        refine ⟨?_, hactionable, hsize⟩
        rw [← haction₃] at henter
        rcases hvetoed with hsame | ⟨hpass, -⟩
        · exact hsame.symm.trans henter
        · rw [hpass] at henter
          cases henter
    constructor
    case notEnter =>
      intro hnot
      constructor
      · exact hvetoed.resolve_right fun ⟨_, henter, _⟩ => hnot henter
      · exact hsized.resolve_right fun ⟨henter, _⟩ => hnot henter
    case idle =>
      intro hidle
      have hoff : baselineActionable = false := hidle.resolve_right (by simp [hfeatures])
      constructor
      · exact hvetoed.resolve_right fun ⟨_, _, hon, _⟩ => by simp [hoff] at hon
      · exact hsized.resolve_right fun ⟨_, hon, _⟩ => by simp [hoff] at hon
    case veto =>
      intro hchanged
      obtain ⟨hpass, -, -, hveto⟩ := hvetoed.resolve_left hchanged
      exact ⟨hpass, features, hfeatures, .inl hveto⟩
    case resized =>
      rcases hsized with hsame | ⟨-, -, selected, hselected, hsize⟩
      · exact ⟨1, (show s₃.plannedSize = _ from hsame) ▸ .planned decision⟩
      · obtain ⟨hallowed, hguards⟩ := guardedMultiplier_spec decision decision.plannedOrderSizeSol hselected
        exact ⟨_, hallowed, hsize, fun hlt => (hguards hlt).1, fun hlt => (hguards hlt).2⟩

theorem assessModel_confined {model : LearningModel} {decision' : Decision}
    (hfeatures : featureVector engine.runtime decision = some features)
    (halone : engine.mode = .active → engine.activeModel = some model ∧ engine.activeSkillVersions.nonempty = false)
    (h : engine.assessModel decision features baselineActionable model = some decision') :
    Confined engine decision baselineActionable decision' := by
  simp only [assessModel, Option.bind_eq_bind, Option.bind_eq_some_iff] at h
  obtain ⟨assessment, -, h⟩ := h
  split_ifs at h with happlies hvalue
  · cases h
    simp only [modelApplies, Bool.and_eq_true, decide_eq_true_eq] at happlies
    obtain ⟨⟨⟨⟨⟨⟨hmode, hqualified⟩, hrisk⟩, hconfiguration⟩, hsupported⟩, henter⟩, hactionable⟩ := happlies
    obtain ⟨hactive, hnone⟩ := halone hmode
    rw [hactive, Option.any_some, Bool.and_eq_true] at hqualified
    constructor
    case notEnter => exact fun hnot => absurd henter hnot
    case idle =>
      rintro (hoff | hmissing)
      · simp [hoff] at hactionable
      · simp [hmissing] at hfeatures
    case veto =>
      intro _
      exact ⟨rfl, features, hfeatures, .inr ⟨model, ⟨hmode, hactive⟩, hnone, hqualified, hrisk, hconfiguration,
        hsupported, hvalue⟩⟩
    case resized => exact ⟨1, .planned decision⟩
  · cases h
    exact .of_same rfl rfl
  · cases h
    exact .of_same rfl rfl

/-- **The influence of the Challenger is confined**, whatever the artifacts predict. -/
theorem assess_confined {live : Bool} {decision' : Decision}
    (h : engine.assess decision baselineActionable live = some decision') :
    Confined engine decision baselineActionable decision' := by
  simp only [assess] at h
  by_cases hskills : live = true ∧ engine.mode = .active ∧ engine.activeSkillVersions.nonempty = true
  · rw [if_pos hskills] at h
    exact assessActiveSkills_confined h
  rw [if_neg hskills] at h
  split at h
  · cases h
    exact .of_same rfl rfl
  next model hmodel =>
    by_cases hidle : (!live || !model.shapeValid) = true
    · rw [if_pos hidle] at h
      cases h
      exact .of_same rfl rfl
    rw [if_neg hidle] at h
    split at h
    · cases h
      exact .of_same rfl rfl
    next features hfeatures =>
      refine assessModel_confined hfeatures ?_ h
      intro hmode
      rw [if_pos hmode] at hmodel
      refine ⟨hmodel, ?_⟩
      simp only [Bool.or_eq_true, Bool.not_eq_true', not_or, Bool.not_eq_false] at hidle
      simpa [hidle.1, hmode] using hskills

end LearningEngine

end

/-! ### What is not prevented -/

def cleanEntry : Decision where
  mint := "mint"
  createdAt := 1
  action := .enter
  riskMode := .balanced
  score := ⟨1 / 2, 1 / 2, 1 / 2, 1 / 2⟩
  featureSnapshot :=
    { mint := "mint"
      symbol := "M"
      name := "M"
      venue := "pump"
      computedAt := 1
      values := integrityFeatureNames.map fun name => (name, ⟨.number 0, "ratio", 1, [], 0, 1, none⟩)
      dataConfidence := 1
      hardFlags := [] }
  modelVersion := ["baseline-v1.5"]
  plannedOrderSizeSol := some 1
  integrityAssessment := some ⟨"integrity", .clean, 0, 1, 10, 0, [], []⟩
  configurationFingerprint := some "configuration"

/-- A Manipulation artifact whose nonlinear model is loaded. -/
def nonlinearVeto : ChallengerSkillArtifact where
  version := "nonlinear"
  skill := .manipulation
  createdAt := 0
  modelFamily := .xgboost
  riskMode := .balanced
  configurationFingerprint := "configuration"
  baselineVersion := "baseline-v1.5"
  featureSchemaVersion := featureSchemaVersion
  featureNames := manipulationFeatureNames
  parameters :=
    { means := some (List.replicate manipulationFeatureNames.length 0)
      scales := some (List.replicate manipulationFeatureNames.length 1) }
  qualified := true

def coachDouble : ChallengerSkillArtifact where
  version := "double"
  schemaVersion := "challenger-skill-coach-v1"
  skill := .sizing
  createdAt := 0
  modelFamily := .deterministic
  riskMode := .balanced
  configurationFingerprint := "configuration"
  baselineVersion := "baseline-v1.5"
  featureSchemaVersion := featureSchemaVersion
  parameters := { coachPolicy := some ⟨"sizing_multiplier", some 2, some []⟩ }
  qualified := true

def lossModel : LearningModel where
  version := "learner-v6-1"
  hyperparameters := { recipe := [("entry_validation_version", .text entryValidationVersion)] }
  riskMode := some .balanced
  configurationFingerprint := some "configuration"
  featureNames := featureNames
  means := List.replicate featureNames.length 0
  scales := List.replicate featureNames.length 1
  coefficients := -1 :: List.replicate featureNames.length 0
  validationRmse := 0
  validationRmse_nonneg := le_refl 0
  qualified := true

/-- An engine in which an artifact is the active Champion of its skill, or the model is active. The
nonlinear model fails on every row. -/
def championEngine (artifact : Option ChallengerSkillArtifact) : LearningEngine where
  runtime := ⟨fun _ => none, fun _ => "", fun _ => 0⟩
  coveragePolicy := {}
  currentRiskMode := .balanced
  configurationFingerprint := some "configuration"
  baselineVersion := "baseline-v1.5"
  mode := .active
  consentGranted := true
  autoParticipation := true
  skillArtifacts := Table.ofRows artifact.toList
  nonlinearModels _ := some fun _ => none
  skillStates := Table.ofRows (artifact.toList.map fun artifact =>
    { cohortKey := ⟨.balanced, "configuration", "baseline-v1.5", featureSchemaVersion⟩
      skill := artifact.skill
      championVersion := some artifact.version
      activeVersion := some artifact.version })
  activeSkillVersions := fun skill => (artifact.filter fun artifact => artifact.skill = skill).map fun a => a.version
  activeModel := if artifact.isNone then some lossModel else none

/-- A skill vetoes without a prediction; a size is doubled without a maximum; and without a skill
the model vetoes. -/
theorem assess_beyond_predictions :
    ((((championEngine (some nonlinearVeto)).assess cleanEntry true true).map Decision.action = some .pass ∧
        (featureVector (championEngine (some nonlinearVeto)).runtime cleanEntry).map
          ((championEngine (some nonlinearVeto)).predictArtifact nonlinearVeto) = some none) ∧
      ((championEngine (some coachDouble)).assess cleanEntry true true).map Decision.plannedOrderSizeSol =
        some (some 2) ∧ cleanEntry.sizingAssessment = none) ∧
      ((championEngine none).assess cleanEntry true true).map Decision.action = some .pass ∧
        (championEngine none).activeSkillVersions = .empty := by
  refine ⟨⟨⟨?_, ?_⟩, ?_, rfl⟩, ?_, ?_⟩ <;> decide +kernel

/-- A clean entry under a Coach who doubles it. -/
theorem assess_double_confined : ∃ decision', (championEngine (some coachDouble)).assess cleanEntry true true = some decision' ∧
    Confined (championEngine (some coachDouble)) cleanEntry true decision' := by
  have hsome : ((championEngine (some coachDouble)).assess cleanEntry true true).isSome := by decide +kernel
  obtain ⟨decision', h⟩ := Option.isSome_iff_exists.mp hsome
  exact ⟨decision', h, LearningEngine.assess_confined h⟩

end SignalArcade.Challenger
