import SignalArcade.Challenger.FrozenEffect
import SignalArcade.Study.Hypothesis

/-!
# The policy that is tested

A hypothesis of the Coach that is taken over becomes an artifact, and a tournament judges the
artifact by the receipts that are frozen of it. The Coach judges the hypothesis by the episodes
themselves. The two readings of a policy meet here.
-/

namespace SignalArcade

open Paper (Instant RiskMode)

namespace Challenger

/-! ### Which receipts are frozen -/

namespace LearningEngine

variable {engine engine' : LearningEngine} {observation : LearningObservation}
  {artifact : ChallengerSkillArtifact} {version : String} {evaluations : Evaluations} {receipt : ChallengerEvaluationReceipt}

theorem freezeVersion_receipt {acc acc' : ChallengerSkillState × Evaluations} {round : String}
    (h : engine.freezeVersion observation acc round = some acc')
    (hartifact : engine.artifact? (some version) = some artifact) (hreceipt : acc'.2 version = some receipt) :
    acc.2 version = some receipt ∨ ∃ state, engine.frozenReceipt artifact state observation = some (some receipt) := by
  unfold freezeVersion at h
  cases hround : engine.artifact? (some round) with
  | none =>
    rw [hround] at h
    cases h
    exact .inl hreceipt
  | some other =>
    simp only [hround] at h
    generalize (if other.isCoach = true then engine.coachEvaluationContext other acc.1 observation else (true, acc.1)) =
      context at h
    split_ifs at h
    · cases h
      exact .inl hreceipt
    · cases h
      exact .inl hreceipt
    · obtain ⟨frozen, hfrozen, h⟩ := Option.map_eq_some_iff.mp h
      cases h
      cases frozen with
      | none => exact .inl hreceipt
      | some frozen =>
        by_cases hversion : version = round
        · subst hversion
          rw [hartifact, Option.some_inj] at hround
          subst hround
          have hself : Function.update acc.2 version (some frozen) version = some receipt := hreceipt
          rw [Function.update_self, Option.some_inj] at hself
          subst hself
          exact .inr ⟨_, hfrozen⟩
        · have hother : Function.update acc.2 round (some frozen) version = some receipt := hreceipt
          rw [Function.update_of_ne hversion] at hother
          exact .inl hother

/-- The receipt is that of the frozen artifact. -/
theorem freezeSkillEvaluations_receipt (h : engine.freezeSkillEvaluations observation = some (engine', evaluations))
    (hartifact : engine.artifact? (some version) = some artifact)
    (hnew : observation.challengerEvaluations version = none) (hreceipt : evaluations version = some receipt) :
    ∃ state, engine.frozenReceipt artifact state observation = some (some receipt) := by
  have hversions : ∀ (states : SkillStates) (versions : List String) (start frozen : ChallengerSkillState × Evaluations),
      versions.foldlM (({ engine with skillStates := states } : LearningEngine).freezeVersion observation) start = some frozen →
        frozen.2 version = some receipt → start.2 version = some receipt ∨
          ∃ state, engine.frozenReceipt artifact state observation = some (some receipt) := by
    intro states versions
    induction versions with
    | nil =>
      intro start frozen hfold hlast
      cases hfold
      exact .inl hlast
    | cons round versions ih =>
      intro start frozen hfold hlast
      rw [List.foldlM_cons, Option.bind_eq_bind, Option.bind_eq_some_iff] at hfold
      obtain ⟨next, hnext, hfold⟩ := hfold
      rcases ih next frozen hfold hlast with hbefore | hfound
      · exact freezeVersion_receipt hnext hartifact hbefore
      · exact .inr hfound
  have hskills : ∀ (cohort : CohortKey) (skills : List ChallengerSkill) (acc last : LearningEngine × Evaluations),
      (∃ states, acc.1 = { engine with skillStates := states }) →
        skills.foldlM (freezeSkill cohort observation) acc = some last → last.2 version = some receipt →
          acc.2 version = some receipt ∨
            ∃ state, engine.frozenReceipt artifact state observation = some (some receipt) := by
    intro cohort skills
    induction skills with
    | nil =>
      intro acc last _ hfold hlast
      cases hfold
      exact .inl hlast
    | cons skill skills ih =>
      intro acc last hacc hfold hlast
      rw [List.foldlM_cons, Option.bind_eq_bind, Option.bind_eq_some_iff] at hfold
      obtain ⟨next, hnext, hfold⟩ := hfold
      obtain ⟨states, hstates⟩ := hacc
      have hframe : ∃ states, next.1 = { engine with skillStates := states } := by
        obtain ⟨states', hframe⟩ := (freezeSkill_frame hnext).1
        exact ⟨states', by rw [hframe, hstates]⟩
      rcases ih next last hframe hfold hlast with hbefore | hfound
      · unfold freezeSkill at hnext
        cases hstate : acc.1.skillStates.get? (cohort, skill) with
        | none =>
          rw [hstate] at hnext
          cases hnext
          exact .inl hbefore
        | some state =>
          simp only [hstate, Option.bind_eq_bind, Option.bind_eq_some_iff] at hnext
          obtain ⟨frozen, hfrozen, hnext⟩ := hnext
          cases hnext
          rw [hstates] at hfrozen
          exact hversions states _ _ _ hfrozen hbefore
      · exact .inr hfound
  unfold freezeSkillEvaluations at h
  split at h
  · cases h
    rw [hnew] at hreceipt
    cases hreceipt
  · rcases hskills _ _ _ _ ⟨engine.skillStates, rfl⟩ h hreceipt with hold | hfound
    · cases hnew.symm.trans hold
    · exact hfound

end LearningEngine

/-! ### What a Coach policy proposes -/

section

variable {rules : List CoachRule} {features : Features} {policy : CoachPolicy}

/-- The rules, as the parameters of an artifact have them. -/
def conditionsOf (rules : List CoachRule) : List (Option CoachCondition) :=
  rules.map fun rule => some ⟨some rule.1, some rule.2.1, some rule.2.2⟩

def featuresKnown (rules : List CoachRule) (features : Features) : Bool := rules.all fun rule => (features rule.1).isSome

theorem mapM_holds (hknown : featuresKnown rules features = true) :
    (conditionsOf rules).mapM (fun condition => condition.bind fun c => c.holds features) =
      some (rules.map (Study.conditionMatches features)) := by
  induction rules with
  | nil => rfl
  | cons rule rules ih =>
    unfold featuresKnown at hknown ih
    rw [List.all_cons, Bool.and_eq_true] at hknown
    obtain ⟨value, hvalue⟩ := Option.isSome_iff_exists.mp hknown.1
    have hrule : (some ⟨some rule.1, some rule.2.1, some rule.2.2⟩ : Option CoachCondition).bind (fun c => c.holds features) =
        some (Study.conditionMatches features rule) := by
      unfold CoachCondition.holds Study.conditionMatches
      cases rule.2.1 <;> simp [hvalue]
    unfold conditionsOf at ih ⊢
    rw [List.map_cons, List.mapM_cons, hrule, ih hknown.2]
    rfl

theorem featuresKnown_of_matches (h : rules.all (Study.conditionMatches features) = true) :
    featuresKnown rules features = true := by
  unfold featuresKnown
  rw [List.all_eq_true] at h ⊢
  intro rule hrule
  have hmatch := h rule hrule
  unfold Study.conditionMatches at hmatch
  exact Option.isSome_of_any hmatch

theorem predictCoach_rules (hkind : policy.kind ≠ "sizing_multiplier") (hconditions : policy.conditions = some (conditionsOf rules))
    (hknown : featuresKnown rules features = true) :
    ChallengerSkillArtifact.predictCoach features policy =
      some (if rules.all (Study.conditionMatches features) then -1 else 1) := by
  unfold ChallengerSkillArtifact.predictCoach
  rw [if_neg hkind, hconditions, Option.bind_eq_bind, Option.bind_some, mapM_holds hknown, Option.bind_eq_bind, Option.bind_some,
    List.all_map]
  rfl

theorem withinSupport_rules {artifact : ChallengerSkillArtifact} (hpolicy : artifact.parameters.coachPolicy = some policy)
    (hkind : policy.kind ≠ "sizing_multiplier") (hconditions : policy.conditions = some (conditionsOf rules)) (hrules : rules ≠ []) :
    artifact.withinSkillArtifactSupport features = featuresKnown rules features := by
  have hsome : conditionsOf rules ≠ [] := fun hnil => hrules (List.map_eq_nil_iff.mp hnil)
  unfold ChallengerSkillArtifact.withinSkillArtifactSupport
  simp only [hpolicy, hkind, if_false, hconditions, Option.any_some, hsome, ne_eq, not_false_eq_true, decide_true,
    Bool.true_and]
  unfold conditionsOf featuresKnown
  rw [List.all_map]
  rfl

end

/-! ### Candidates of the Coach -/

/-- The artifact carries the policy of the hypothesis. -/
structure SeededFrom (hypothesis : CoachHypothesis) (artifact : ChallengerSkillArtifact) : Prop where
  skill : artifact.skill = hypothesis.skill
  family : artifact.modelFamily = .deterministic
  recipe : artifact.isContextual = false
  mode : artifact.riskMode = hypothesis.riskMode
  parameters : artifact.parameters = hypothesis.parameters
  rmse : artifact.validationRmse = some 0

namespace LearningEngine

variable {engine engine' : LearningEngine} {hypothesis : CoachHypothesis} {now : Instant} {version : String} {status : String}

/-- A new candidate carries the policy. -/
theorem seedCoachCandidate_seeded (h : engine.seedCoachCandidate hypothesis now = some (some version, status, engine'))
    (hnew : engine.skillArtifacts.get? version = none) :
    hypothesis.allowlisted = true ∧
      ∃ artifact, engine'.artifact? (some version) = some artifact ∧ SeededFrom hypothesis artifact := by
  unfold seedCoachCandidate at h
  by_cases hcurrent : engine.coachContextCurrent hypothesis = true
  · simp only [hcurrent, Bool.not_true, Bool.false_eq_true, if_false] at h
    have hallowed : hypothesis.allowlisted = true := by
      unfold coachContextCurrent at hcurrent
      exact (Bool.and_eq_true_iff.mp hcurrent).2
    refine ⟨hallowed, ?_⟩
    cases hcohort : challengerCohortKey hypothesis.riskMode (some hypothesis.configurationFingerprint)
        hypothesis.baselineVersion hypothesis.featureSchemaVersion with
    | none =>
      rw [hcohort] at h
      cases h
    | some cohort =>
      simp only [hcohort] at h
      split_ifs at h with hchampion hknown
      · cases h
      · cases h
        rw [hnew] at hknown
        cases hknown
      · obtain ⟨registered, hregistered, heq⟩ := Option.map_eq_some_iff.mp h
        cases heq
        unfold registerSkillArtifact at hregistered
        have hcoverage : engine.withCoverageRequirement (hypothesis.artifact engine.runtime now) =
            hypothesis.artifact engine.runtime now := rfl
        rw [hcoverage] at hregistered
        dsimp only at hregistered
        split_ifs at hregistered
        cases hregistered
        refine ⟨hypothesis.artifact engine.runtime now, ?_, ⟨rfl, rfl, rfl, rfl, rfl, rfl⟩⟩
        show (engine.skillArtifacts.upsert (hypothesis.artifact engine.runtime now)).get? hypothesis.artifactVersion = _
        rw [Table.get?_upsert]
        exact if_pos rfl
  · rw [Bool.not_eq_true] at hcurrent
    simp only [hcurrent, Bool.not_false, if_true] at h
    cases h

end LearningEngine

end Challenger

namespace Study

open Challenger
open LearningEvidenceEpisode

/-! ### The record that is read -/

def ContributionState.text : ContributionState → String
  | .researchOnly => "research_only"
  | .ready => "ready"
  | .waitingForChampion => "waiting_for_champion"
  | .handedOff => "handed_off"
  | .stale => "stale"

/-- What `seed_coach_candidate` reads of a record besides: digests, and numbers for the metrics. -/
structure SeedRecord where
  idDigest : String
  evidenceDigest : String
  discoveryUsableCount : ℕ
  forwardUpliftLowerBound : Option ℚ

/-- The hypothesis as `seed_coach_candidate` reads it. -/
def CoachHypothesis.seed (hypothesis : CoachHypothesis) (record : SeedRecord) : Challenger.CoachHypothesis where
  idDigest := record.idDigest
  evidenceDigest := record.evidenceDigest
  cutoffAt := hypothesis.cutoffAt
  kind := hypothesis.kind
  skill := hypothesis.skill
  state := hypothesis.evidence.state
  contributionState := hypothesis.evidence.contributionState.text
  riskMode := hypothesis.riskMode
  configurationFingerprint := hypothesis.configurationFingerprint
  baselineVersion := hypothesis.baselineVersion
  featureSchemaVersion := hypothesis.featureSchemaVersion
  dependencyVersions := hypothesis.dependencyVersions
  conditions := hypothesis.conditions
  holdSeconds := hypothesis.holdSeconds
  baselineHoldSeconds := hypothesis.baselineHoldSeconds
  sizeMultiplier := hypothesis.sizeMultiplier
  discoveryUsableCount := record.discoveryUsableCount
  forwardUsableCount := hypothesis.evidence.forwardUsableCount
  forwardAvailabilityFraction := hypothesis.evidence.forwardAvailabilityFraction
  forwardSeasonCount := hypothesis.evidence.forwardSeasonCount
  forwardMeanUplift := hypothesis.evidence.forwardUplift.map MeanBounds.Interval.centre
  forwardUpliftLowerBound := record.forwardUpliftLowerBound

variable {hypothesis : Challenger.CoachHypothesis} {episode : LearningEvidenceEpisode}
  {engine : LearningEngine} {artifact : ChallengerSkillArtifact} {state : ChallengerSkillState}
  {observation : LearningObservation} {receipt : ChallengerEvaluationReceipt} {multiplier : ℚ}

/-! ### The receipts of the four kinds -/

theorem vetoApplies_seeded (hseeded : SeededFrom hypothesis artifact)
    (hkind : hypothesis.kind = .entryVeto ∨ hypothesis.kind = .manipulationVeto)
    (hskill : artifact.skill = .entry ∨ artifact.skill = .manipulation) (hrules : hypothesis.conditions ≠ []) :
    (engine.predictionReceipt artifact observation 0).vetoApplies = true ↔
      hypothesis.conditions.all (conditionMatches observation.features) = true := by
  have hpolicy : artifact.parameters.coachPolicy =
      some ⟨hypothesis.kind.text, hypothesis.sizeMultiplier, some (conditionsOf hypothesis.conditions)⟩ := by
    rw [hseeded.parameters]
    rfl
  have htext : hypothesis.kind.text ≠ "sizing_multiplier" := by
    rcases hkind with hkind | hkind <;> rw [hkind] <;> decide
  have hsupport : engine.artifactInSupport artifact observation.features =
      featuresKnown hypothesis.conditions observation.features := by
    unfold LearningEngine.artifactInSupport LearningEngine.loadable
    rw [withinSupport_rules hpolicy htext rfl hrules, hseeded.family]
    exact Bool.and_true _
  rw [vetoApplies_predictionReceipt hskill, hsupport]
  unfold LearningEngine.supports LearningEngine.conservative LearningEngine.predictArtifact
  rw [hsupport, hseeded.family]
  by_cases hknown : featuresKnown hypothesis.conditions observation.features = true
  · have hprediction : artifact.predictSkillArtifact observation.features =
        some (if hypothesis.conditions.all (conditionMatches observation.features) then -1 else 1) := by
      unfold ChallengerSkillArtifact.predictSkillArtifact
      rw [hpolicy]
      exact predictCoach_rules htext rfl hknown
    rw [if_pos (by decide), hprediction, hknown]
    cases hypothesis.conditions.all (conditionMatches observation.features) with
    | true => norm_num
    | false => norm_num
  · refine iff_of_false (fun h => hknown h.1) fun hmatch => hknown (featuresKnown_of_matches hmatch)

theorem nearestSizeMultiplier_self (h : multiplier ∈ sizingMultipliers) :
    nearestSizeMultiplier multiplier = multiplier := by
  have hall : ∀ m ∈ sizingMultipliers, nearestSizeMultiplier m = m := by decide +kernel
  exact hall multiplier h

theorem proposedAction_seeded (hseeded : SeededFrom hypothesis artifact)
    (hkind : hypothesis.kind = .sizingMultiplier) (hskill : artifact.skill = .sizing)
    (hmultiplier : hypothesis.sizeMultiplier = some multiplier) (hallowed : multiplier ∈ sizingMultipliers) :
    (engine.predictionReceipt artifact observation 0).proposedAction = .number multiplier := by
  have hpolicy : artifact.parameters.coachPolicy =
      some ⟨"sizing_multiplier", some multiplier, some (conditionsOf hypothesis.conditions)⟩ := by
    rw [hseeded.parameters, ← hmultiplier]
    unfold CoachHypothesis.parameters
    rw [hkind]
    rfl
  have hcoach : ChallengerSkillArtifact.predictCoach observation.features
      ⟨"sizing_multiplier", some multiplier, some (conditionsOf hypothesis.conditions)⟩ = some multiplier := by
    unfold ChallengerSkillArtifact.predictCoach
    rw [if_pos rfl]
    exact Option.filter_eq_some_iff.mpr ⟨rfl, by simpa using hallowed⟩
  have hprediction : engine.predictArtifact artifact observation.features = some multiplier := by
    unfold LearningEngine.predictArtifact ChallengerSkillArtifact.predictSkillArtifact
    rw [hseeded.family, if_pos (by decide), hpolicy]
    exact hcoach
  have hsupport : engine.artifactInSupport artifact observation.features = true := by
    unfold LearningEngine.artifactInSupport LearningEngine.loadable ChallengerSkillArtifact.withinSkillArtifactSupport
    rw [hpolicy, hseeded.family]
    dsimp only
    rw [if_pos rfl, hcoach]
    rfl
  unfold LearningEngine.predictionReceipt
  simp only [hskill, if_true, hprediction, hsupport, nearestSizeMultiplier_self hallowed]

theorem exitReceipt_seeded {seconds : ℕ} (hseeded : SeededFrom hypothesis artifact) (hskill : artifact.skill = .exit)
    (hhold : hypothesis.holdSeconds = some seconds)
    (h : engine.frozenReceipt artifact state observation = some (some receipt)) :
    receipt.skill = .exit ∧ receipt.proposedAction = .number seconds := by
  have hselected : artifact.parameters.selectedHorizonSeconds = .int seconds := by
    rw [hseeded.parameters]
    unfold CoachHypothesis.parameters
    rw [hhold]
    rfl
  have hreceipt : ∃ frozen, engine.exitReceipt artifact state observation = some frozen ∧ receipt = frozen := by
    unfold LearningEngine.frozenReceipt at h
    rw [if_pos hskill] at h
    cases hfrozen : engine.exitReceipt artifact state observation with
    | none =>
      rw [hfrozen] at h
      cases h
    | some frozen =>
      rw [hfrozen] at h
      obtain ⟨validated, hvalidated, heq⟩ := Option.map_eq_some_iff.mp h
      cases heq
      unfold ChallengerEvaluationReceipt.validated at hvalidated
      split_ifs at hvalidated
      exact ⟨frozen, rfl, (Option.some_inj.mp hvalidated).symm⟩
  obtain ⟨frozen, hfrozen, rfl⟩ := hreceipt
  unfold LearningEngine.exitReceipt LearningEngine.exitSelection at hfrozen
  simp only [hseeded.recipe, Bool.false_eq_true, if_false, Option.map_map] at hfrozen
  obtain ⟨horizon, hhorizon, rfl⟩ := Option.map_eq_some_iff.mp hfrozen
  unfold ChallengerSkillArtifact.boundedExitHorizon at hhorizon
  rw [hselected] at hhorizon
  dsimp only at hhorizon
  split_ifs at hhorizon
  cases hhorizon
  exact ⟨rfl, rfl⟩

/-! ### The two readings -/

theorem veto_skill {kind : CoachExperimentKind} (hkind : kind = .entryVeto ∨ kind = .manipulationVeto) :
    skillForKind kind = .entry ∨ skillForKind kind = .manipulation := by
  rcases hkind with rfl | rfl
  · exact .inl rfl
  · exact .inr rfl

theorem uplift_veto (engine : LearningEngine) (episode : LearningEvidenceEpisode) (observation : LearningObservation)
    (hskill : artifact.skill = .entry ∨ artifact.skill = .manipulation) :
    Terms.uplift (episode.tournamentPolicyValue (engine.predictionReceipt artifact observation 0))
        (episode.skillBaselineValue artifact.skill) =
      (episode.netReturn (some primaryHorizonSeconds)).map fun outcome =>
        if (engine.predictionReceipt artifact observation 0).vetoApplies then -outcome else 0 := by
  have hbaseline : episode.skillBaselineValue artifact.skill = episode.netReturn (some primaryHorizonSeconds) := by
    unfold skillBaselineValue
    rcases hskill with hskill | hskill <;> rw [hskill]
  have hproposed : (engine.predictionReceipt artifact observation 0).proposedAction = .support ∨
      (engine.predictionReceipt artifact observation 0).proposedAction = .veto := by
    have hsizing : artifact.skill ≠ .sizing := by
      rcases hskill with hskill | hskill <;> rw [hskill] <;> decide
    unfold LearningEngine.predictionReceipt
    simp only [hsizing, if_false]
    split_ifs
    · exact .inl rfl
    · exact .inr rfl
  have htested : episode.tournamentPolicyValue (engine.predictionReceipt artifact observation 0) =
      (episode.netReturn (some primaryHorizonSeconds)).map fun outcome =>
        if (engine.predictionReceipt artifact observation 0).vetoApplies then 0 else outcome := by
    have hreceipt : (engine.predictionReceipt artifact observation 0).skill = artifact.skill := rfl
    unfold tournamentPolicyValue
    rw [hreceipt]
    rcases hskill with hskill | hskill <;> rw [hskill] <;> simp only [hproposed, if_true] <;>
      cases episode.netReturn (some primaryHorizonSeconds) <;> rfl
  rw [htested, hbaseline]
  cases episode.netReturn (some primaryHorizonSeconds) with
  | none => rfl
  | some outcome =>
    show some ((if (engine.predictionReceipt artifact observation 0).vetoApplies = true then 0 else outcome) - outcome) = some _
    split_ifs
    · rw [zero_sub]
    · rw [sub_self]

theorem uplift_size (hskill : receipt.skill = .sizing) (hproposed : receipt.proposedAction = .number multiplier) :
    Terms.uplift (episode.tournamentPolicyValue receipt) (episode.skillBaselineValue .sizing) =
      Terms.uplift (episode.sizeTrialValue multiplier primaryHorizonSeconds) (episode.sizeTrialValue 1 primaryHorizonSeconds) := by
  unfold tournamentPolicyValue skillBaselineValue
  rw [hskill, hproposed]
  rfl

theorem tested_review {seconds : ℕ} (hskill : receipt.skill = .exit) (hproposed : receipt.proposedAction = .number seconds) :
    episode.tournamentPolicyValue receipt = episode.netReturn (some seconds) := by
  have hhorizon : (Proposal.number seconds).horizon? = some seconds := by
    unfold Proposal.horizon? Proposal.int?
    simp
  unfold tournamentPolicyValue
  rw [hskill, hproposed, hhorizon]

theorem allowlisted_fields (h : hypothesis.allowlisted = true) :
    ((hypothesis.kind = .entryVeto ∨ hypothesis.kind = .manipulationVeto) → hypothesis.conditions ≠ []) ∧
      (hypothesis.kind = .sizingMultiplier →
        ∃ multiplier, hypothesis.sizeMultiplier = some multiplier ∧ multiplier ∈ sizingMultipliers) ∧
      (hypothesis.kind = .earlierReview → ∃ seconds, hypothesis.holdSeconds = some seconds) := by
  unfold CoachHypothesis.allowlisted at h
  refine ⟨?_, fun hkind => ?_, fun hkind => ?_⟩
  · rintro (hkind | hkind) hnil
    · rw [hkind, hnil] at h
      simp at h
    · rw [hkind, hnil] at h
      have hnone : ([] : List CoachRule) ∉ coachManipulationCombinations := by decide
      simp [hnone] at h
  · rw [hkind] at h
    simp only [Bool.and_eq_true, Option.any_eq_true, decide_eq_true_eq] at h
    obtain ⟨multiplier, hmultiplier, hmem, -⟩ := h.1.1.2
    exact ⟨multiplier, hmultiplier, hmem⟩
  · rw [hkind] at h
    simp only [Bool.and_eq_true, Option.any_eq_true, decide_eq_true_eq] at h
    obtain ⟨seconds, hseconds, -⟩ := h.2
    exact ⟨seconds, hseconds⟩

section

variable {hypothesis : CoachHypothesis} {record : SeedRecord}

/-- What is tested of a hypothesis with the receipt of an artifact that was seeded from it. -/
def Agrees (hypothesis : CoachHypothesis) (episode : LearningEvidenceEpisode) (receipt : ChallengerEvaluationReceipt) : Prop :=
  (∀ value, hypothesis.hypothesisObservationValue episode = (true, true, value) →
      ((hypothesis.kind = .earlierReview → hypothesis.baselineHorizon = maxHoldSeconds hypothesis.riskMode) →
        Terms.uplift (episode.tournamentPolicyValue receipt) (episode.skillBaselineValue hypothesis.skill) = value) ∧
      (hypothesis.kind = .earlierReview →
        Terms.uplift (episode.tournamentPolicyValue receipt) (episode.netReturn (some hypothesis.baselineHorizon)) = value)) ∧
    (hypothesis.relevant episode = false →
      Terms.uplift (episode.tournamentPolicyValue receipt) (episode.skillBaselineValue hypothesis.skill) = some 0 ∨
        Terms.uplift (episode.tournamentPolicyValue receipt) (episode.skillBaselineValue hypothesis.skill) = none)

theorem Agrees.of_pending (hvalue : hypothesis.hypothesisObservationValue episode = (false, true, none)) :
    Agrees hypothesis episode receipt := by
  unfold Agrees Terms.relevant
  rw [hvalue]
  refine ⟨fun value hresolved => ?_, fun hrelevant => ?_⟩
  · cases hresolved
  · cases hrelevant

theorem Agrees.of_value {value : Option ℚ} (hvalue : hypothesis.hypothesisObservationValue episode = (true, true, value))
    (hother : hypothesis.kind ≠ .earlierReview)
    (htested : Terms.uplift (episode.tournamentPolicyValue receipt) (episode.skillBaselineValue hypothesis.skill) = value) :
    Agrees hypothesis episode receipt := by
  unfold Agrees Terms.relevant
  rw [hvalue]
  refine ⟨fun value' hresolved => ⟨fun _ => ?_, fun hreview => absurd hreview hother⟩, fun hrelevant => ?_⟩
  · exact htested.trans (congrArg (fun result => result.2.2) hresolved)
  · cases hrelevant

section

variable (hkind : hypothesis.kind = .entryVeto ∨ hypothesis.kind = .manipulationVeto)
include hkind

section

variable (henter : episode.baselineAction = .enter) (hactionable : episode.baselineActionable = true)
include henter hactionable

theorem value_veto_unmatched (hmatch : ¬hypothesis.matchesFeatures episode.features = true) :
    hypothesis.hypothesisObservationValue episode = (false, false, none) := by
  unfold Terms.hypothesisObservationValue Terms.skill
  rcases hkind with hkind | hkind <;> rw [hkind, henter, hactionable, Bool.eq_false_iff.mpr hmatch] <;> rfl

theorem value_veto_pending (hmatch : hypothesis.matchesFeatures episode.features = true)
    (hcheckpoint : episode.checkpoints primaryHorizonSeconds = none) :
    hypothesis.hypothesisObservationValue episode = (false, true, none) := by
  unfold Terms.hypothesisObservationValue Terms.skill
  rcases hkind with hkind | hkind <;> rw [hkind, henter, hactionable, hmatch, hcheckpoint] <;> rfl

theorem value_veto {checkpoint : LearningCheckpoint} (hmatch : hypothesis.matchesFeatures episode.features = true)
    (hcheckpoint : episode.checkpoints primaryHorizonSeconds = some checkpoint) :
    hypothesis.hypothesisObservationValue episode = (true, true, checkpoint.netReturn.map fun netReturn => -netReturn) := by
  unfold Terms.hypothesisObservationValue Terms.skill
  rcases hkind with hkind | hkind <;> rw [hkind, henter, hactionable, hmatch, hcheckpoint] <;> rfl

end

/-- A veto. -/
theorem agrees_veto (hseeded : SeededFrom (hypothesis.seed record) artifact) (hrules : hypothesis.conditions ≠ [])
    (henter : episode.baselineAction = .enter) (hactionable : episode.baselineActionable = true)
    (hfeatures : observation.features = episode.features) :
    Agrees hypothesis episode (engine.predictionReceipt artifact observation 0) := by
  have hskill : artifact.skill = .entry ∨ artifact.skill = .manipulation := by
    rw [hseeded.skill]
    exact veto_skill hkind
  have hsame : artifact.skill = hypothesis.skill := hseeded.skill
  have htested := uplift_veto engine episode observation hskill
  have hveto : (engine.predictionReceipt artifact observation 0).vetoApplies = true ↔
      hypothesis.matchesFeatures episode.features = true := by
    rw [vetoApplies_seeded hseeded hkind hskill hrules, hfeatures]
    unfold Terms.matchesFeatures
    rw [if_pos hrules]
    rfl
  have hother : hypothesis.kind ≠ .earlierReview := by
    rcases hkind with hkind | hkind <;> rw [hkind] <;> decide
  by_cases hmatch : hypothesis.matchesFeatures episode.features = true
  · simp only [hveto.mpr hmatch, if_true] at htested
    unfold netReturn checkpoint at htested
    rw [Option.bind_some, hsame] at htested
    cases hcheckpoint : episode.checkpoints primaryHorizonSeconds with
    | none => exact .of_pending (value_veto_pending hkind henter hactionable hmatch hcheckpoint)
    | some checkpoint =>
      rw [hcheckpoint] at htested
      exact .of_value (value_veto hkind henter hactionable hmatch hcheckpoint) hother htested
  · unfold Agrees Terms.relevant
    rw [← hsame, htested, value_veto_unmatched hkind henter hactionable hmatch]
    simp only [mt hveto.mp hmatch]
    refine ⟨fun value hresolved => ?_, fun _ => ?_⟩
    · cases hresolved
    · cases episode.netReturn (some primaryHorizonSeconds) with
      | none => exact .inr rfl
      | some outcome => exact .inl rfl

end

/-- Another size. -/
theorem agrees_size (hkind : hypothesis.kind = .sizingMultiplier)
    (hmultiplier : hypothesis.sizeMultiplier = some multiplier) (hskill : receipt.skill = .sizing)
    (hproposed : receipt.proposedAction = .number multiplier)
    (henter : episode.baselineAction = .enter) (hactionable : episode.baselineActionable = true) :
    Agrees hypothesis episode receipt := by
  have hsizing : hypothesis.skill = .sizing := by
    unfold Terms.skill
    rw [hkind]
    rfl
  have hother : hypothesis.kind ≠ .earlierReview := by
    rw [hkind]
    decide
  have htested : Terms.uplift (episode.tournamentPolicyValue receipt) _ = _ := uplift_size hskill hproposed
  rw [← hsizing] at htested
  cases htrial : episode.sizeTrials multiplier with
  | none =>
    -- without a trial there is no value
    refine .of_value (?_ : _ = (true, true, none)) hother (htested.trans ?_)
    · simp [Terms.hypothesisObservationValue, hsizing, hmultiplier, henter, hactionable, htrial]
    · unfold sizeTrialValue
      rw [htrial]
      rfl
  | some trial =>
    cases hbaseline : episode.sizeTrials 1 with
    | none =>
      refine .of_value (?_ : _ = (true, true, none)) hother (htested.trans ?_)
      · simp [Terms.hypothesisObservationValue, hsizing, hmultiplier, henter, hactionable, htrial, hbaseline]
      · unfold sizeTrialValue
        rw [htrial, hbaseline]
        rfl
    | some baselineTrial =>
      have hvalue : hypothesis.hypothesisObservationValue episode =
          if (trial.checkpoints primaryHorizonSeconds).isNone || (baselineTrial.checkpoints primaryHorizonSeconds).isNone
          then (false, true, none)
          else (true, true, Terms.uplift (episode.sizeTrialValue multiplier primaryHorizonSeconds)
            (episode.sizeTrialValue 1 primaryHorizonSeconds)) := by
        simp [Terms.hypothesisObservationValue, hsizing, hmultiplier, henter, hactionable, htrial, hbaseline]
      split_ifs at hvalue
      · exact .of_pending hvalue
      · exact .of_value hvalue hother htested

/-- An earlier review. -/
theorem agrees_review {seconds : ℕ} (hkind : hypothesis.kind = .earlierReview)
    (hhold : hypothesis.holdSeconds = some seconds) (hskill : receipt.skill = .exit)
    (hproposed : receipt.proposedAction = .number seconds) (hmode : episode.riskMode = hypothesis.riskMode)
    (henter : episode.baselineAction = .enter) (hactionable : episode.baselineActionable = true) :
    Agrees hypothesis episode receipt := by
  have hexit : hypothesis.skill = .exit := by
    unfold Terms.skill
    rw [hkind]
    rfl
  have hlongest : episode.skillBaselineValue .exit = episode.netReturn (some (maxHoldSeconds hypothesis.riskMode)) := by
    unfold skillBaselineValue
    rw [hmode]
  -- a value has both checkpoints; without one of them there is none yet
  have hstudied : hypothesis.relevant episode = true ∧
      ∀ value, hypothesis.hypothesisObservationValue episode = (true, true, value) →
        Terms.uplift (episode.netReturn (some seconds)) (episode.netReturn (some hypothesis.baselineHorizon)) = value := by
    unfold netReturn checkpoint Terms.relevant
    rw [Option.bind_some, Option.bind_some]
    cases hselected : episode.checkpoints seconds with
    | none =>
      have hvalue : hypothesis.hypothesisObservationValue episode = (false, true, none) := by
        simp [Terms.hypothesisObservationValue, hexit, hhold, henter, hactionable, hselected]
      rw [hvalue]
      refine ⟨rfl, fun value hresolved => ?_⟩
      cases hresolved
    | some selectedCheckpoint =>
      cases hbaseline : episode.checkpoints hypothesis.baselineHorizon with
      | none =>
        have hvalue : hypothesis.hypothesisObservationValue episode = (false, true, none) := by
          simp [Terms.hypothesisObservationValue, hexit, hhold, henter, hactionable, hselected, hbaseline]
        rw [hvalue]
        refine ⟨rfl, fun value hresolved => ?_⟩
        cases hresolved
      | some baselineCheckpoint =>
        have hvalue : hypothesis.hypothesisObservationValue episode =
            (true, true, Terms.uplift selectedCheckpoint.netReturn baselineCheckpoint.netReturn) := by
          simp [Terms.hypothesisObservationValue, hexit, hhold, henter, hactionable, hselected, hbaseline]
        rw [hvalue]
        exact ⟨rfl, fun value hresolved => congrArg (fun result => result.2.2) hresolved⟩
  unfold Agrees
  rw [hexit, tested_review hskill hproposed, hlongest]
  refine ⟨fun value hresolved => ⟨fun hsame => ?_, fun _ => hstudied.2 value hresolved⟩, fun hnot => ?_⟩
  · rw [← hsame hkind]
    exact hstudied.2 value hresolved
  · rw [hstudied.1] at hnot
    cases hnot

/-- **The policy the Coach proved is the policy the tournament tests.** Let a receipt be frozen of the
artifact of a hypothesis for an entry that could be acted on. Where the study has a value, the tournament has the same
against the Baseline, or against the hold of the study where the policy is an earlier review that was compared with
another hold than the longest of the mode. Where the study does not speak, the tournament has no difference. -/
theorem seeded_policy_tested {engine engine' later after : LearningEngine} {now : Instant} {version status : String}
    {evaluations : Evaluations}
    (hseed : engine.seedCoachCandidate (hypothesis.seed record) now = some (some version, status, engine'))
    (hnew : engine.skillArtifacts.get? version = none)
    (hkept : later.artifact? (some version) = engine'.artifact? (some version))
    (hfrozen : later.freezeSkillEvaluations observation = some (after, evaluations))
    (hfirst : observation.challengerEvaluations version = none) (hreceipt : evaluations version = some receipt)
    (hfeatures : observation.features = episode.features) (hmode : episode.riskMode = hypothesis.riskMode)
    (henter : episode.baselineAction = .enter) (hactionable : episode.baselineActionable = true) :
    Agrees hypothesis episode receipt := by
  obtain ⟨hallowed, artifact, hartifact, hseeded⟩ := LearningEngine.seedCoachCandidate_seeded hseed hnew
  obtain ⟨state, hstate⟩ :=
    LearningEngine.freezeSkillEvaluations_receipt hfrozen (hkept.trans hartifact) hfirst hreceipt
  obtain ⟨hveto, hsize, hreview⟩ := allowlisted_fields hallowed
  have hskill : artifact.skill = skillForKind hypothesis.kind := hseeded.skill
  have hpredicted : artifact.skill ≠ .exit → receipt = later.predictionReceipt artifact observation 0 := by
    intro hexit
    obtain ⟨rmse, hrmse, hprediction⟩ := LearningEngine.frozenReceipt_prediction hexit hstate
    rw [hseeded.rmse, Option.some_inj] at hrmse
    rw [← hrmse, Option.some_inj] at hprediction
    exact hprediction
  have hvetoes : hypothesis.kind = .entryVeto ∨ hypothesis.kind = .manipulationVeto → Agrees hypothesis episode receipt := by
    intro hkind
    have hexit : artifact.skill ≠ .exit := by
      rw [hskill]
      rcases hkind with hkind | hkind <;> rw [hkind] <;> decide
    rw [hpredicted hexit]
    exact agrees_veto hkind hseeded (hveto hkind) henter hactionable hfeatures
  cases hkind : hypothesis.kind with
  | entryVeto => exact hvetoes (.inl hkind)
  | manipulationVeto => exact hvetoes (.inr hkind)
  | sizingMultiplier =>
    obtain ⟨multiplier, hmultiplier, hmem⟩ := hsize hkind
    rw [hkind] at hskill
    have hexit : artifact.skill ≠ .exit := by
      rw [hskill]
      decide
    have hprediction := hpredicted hexit
    refine agrees_size hkind hmultiplier ?_ ?_ henter hactionable
    · rw [hprediction]
      exact hskill
    · rw [hprediction]
      exact proposedAction_seeded hseeded hkind hskill hmultiplier hmem
  | earlierReview =>
    obtain ⟨seconds, hseconds⟩ := hreview hkind
    rw [hkind] at hskill
    obtain ⟨hreceiptSkill, hproposed⟩ := exitReceipt_seeded hseeded hskill hseconds hstate
    exact agrees_review hkind hseconds hreceiptSkill hproposed hmode henter hactionable

end

/-! ### A review that is tested against another hold -/

/-- The Champion that has normal holds reviewed after five minutes. -/
def reviewChampion : ChallengerSkillArtifact :=
  { coachDouble with
    version := "review"
    schemaVersion := challengerSkillSchemaVersion
    skill := .exit
    parameters := { selectedHorizonSeconds := .int 300 } }

/-- The Coach found that a review after a minute is better than the one after five. -/
def minuteReview : CoachHypothesis where
  hypothesisId := "hypothesis"
  createdAt := 0
  cutoffAt := 0
  kind := .earlierReview
  riskMode := .balanced
  configurationFingerprint := "configuration"
  baselineVersion := "baseline-v1.5"
  featureSchemaVersion := featureSchemaVersion
  dependencyVersions := (championEngine (some reviewChampion)).activeSkillVersions
  holdSeconds := some 60
  baselineHoldSeconds := some 300
  updatedAt := 0
  evidence := { state := .promising, contributionState := .ready }

/-- The episode: it is best to sell early, and worst to hold on. -/
def fallingEpisode : LearningEvidenceEpisode where
  episodeId := "episode"
  mint := "mint"
  createdAt := 1
  entryAt := 1
  riskMode := .balanced
  configurationFingerprint := some "configuration"
  baselineVersion := "baseline-v1.5"
  baselineAction := .enter
  baselineActionable := true
  features _ := some 0
  activeSkillVersions := minuteReview.dependencyVersions
  checkpoints horizon :=
    (([(60, 1 / 10), (300, 1 / 20), (600, -1 / 5)] : List (ℕ × ℚ)).lookup horizon).map fun netReturn =>
      { observedAt := 1 + horizon, netReturn := some (max (-1) (min 10 netReturn)), exitValueLamports := none,
        bounded := clampedReturn_bounded netReturn }

/-- The observation of the episode, when it begins. -/
def fallingObservation : LearningObservation where
  mint := "mint"
  createdAt := 1
  riskMode := .balanced
  configurationFingerprint := some "configuration"
  baselineVersion := "baseline-v1.5"
  baselineAction := .enter
  baselineActionable := true
  features _ := some 0
  activeSkillVersions := minuteReview.dependencyVersions

def minuteRecord : SeedRecord := ⟨"digest", "evidence", 0, none⟩

/-- The version once a hypothesis is handed off, and what is proposed by the receipt that is frozen then. -/
def proposalOf (engine : LearningEngine) (hypothesis : CoachHypothesis) : Option (String × ChallengerSkill × Proposal) := do
  let seeded ← engine.seedCoachCandidate (hypothesis.seed minuteRecord) 0
  let version ← seeded.1
  let frozen ← seeded.2.2.freezeSkillEvaluations fallingObservation
  let receipt ← frozen.2 version
  some (version, receipt.skill, receipt.proposedAction)

theorem frozen_of_proposal {engine : LearningEngine} {hypothesis : CoachHypothesis} {version : String}
    {skill : ChallengerSkill} {proposed : Proposal} (h : proposalOf engine hypothesis = some (version, skill, proposed)) :
    ∃ status engine' after evaluations receipt,
      engine.seedCoachCandidate (hypothesis.seed minuteRecord) 0 = some (some version, status, engine') ∧
        engine'.freezeSkillEvaluations fallingObservation = some (after, evaluations) ∧ evaluations version = some receipt ∧
        receipt.skill = skill ∧ receipt.proposedAction = proposed := by
  simp only [proposalOf, Option.bind_eq_bind, Option.bind_eq_some_iff] at h
  obtain ⟨⟨version?, status, engine'⟩, hseeded, version', hversion, ⟨after, evaluations⟩, hfrozen, receipt, hreceipt, heq⟩ := h
  cases hversion
  simp only [Option.some_inj, Prod.mk.injEq] at heq
  obtain ⟨rfl, hskill, hproposed⟩ := heq
  exact ⟨status, engine', after, evaluations, receipt, hseeded, hfrozen, hreceipt, hskill, hproposed⟩

/-- The Coach found that entries without momentum are better passed. -/
def stillVeto : CoachHypothesis :=
  { minuteReview with
    kind := .entryVeto
    conditions := [("momentum", .le, 0)]
    holdSeconds := none
    baselineHoldSeconds := none }

/-- The engine of the review, in which Entry has a Champion too. -/
def entryEngine : LearningEngine :=
  { championEngine (some reviewChampion) with
    skillArtifacts := Table.ofRows [reviewChampion, { reviewChampion with version := "entry", skill := .entry }]
    skillStates := Table.ofRows
      [{ cohortKey := ⟨.balanced, "configuration", "baseline-v1.5", featureSchemaVersion⟩
         skill := .entry
         championVersion := some "entry" }] }

/-- The veto is tested by what it was studied by: the entry would have gained a twentieth. -/
theorem veto_tested : ∃ receipt, receipt.proposedAction = .veto ∧
    stillVeto.hypothesisObservationValue fallingEpisode = (true, true, some (-1 / 20)) ∧
    Terms.uplift (fallingEpisode.tournamentPolicyValue receipt) (fallingEpisode.skillBaselineValue stillVeto.skill) =
      some (-1 / 20) := by
  have hproposal : proposalOf entryEngine stillVeto =
      some ("challenger-skill-v2-coach-entry-digest", .entry, .veto) := by decide +kernel
  obtain ⟨status, engine', after, evaluations, receipt, hseed, hfrozen, hreceipt, -, hproposed⟩ := frozen_of_proposal hproposal
  have hvalue : stillVeto.hypothesisObservationValue fallingEpisode = (true, true, some (-1 / 20)) := by decide +kernel
  have hagrees : Agrees stillVeto fallingEpisode receipt :=
    seeded_policy_tested hseed (by decide +kernel) rfl hfrozen rfl hreceipt rfl rfl rfl rfl
  exact ⟨receipt, hproposed, hvalue, (hagrees.1 _ hvalue).1 fun hkind => by cases hkind⟩

/-- **A review is tested against another hold**: a study that finds a gain of a twentieth is tested as one of three
tenths. -/
theorem other_baseline : ∃ version status engine' after evaluations receipt,
    (championEngine (some reviewChampion)).seedCoachCandidate (minuteReview.seed minuteRecord) 0 =
        some (some version, status, engine') ∧
      engine'.freezeSkillEvaluations fallingObservation = some (after, evaluations) ∧ evaluations version = some receipt ∧
      minuteReview.hypothesisObservationValue fallingEpisode = (true, true, some (1 / 20)) ∧
      Terms.uplift (fallingEpisode.tournamentPolicyValue receipt) (fallingEpisode.skillBaselineValue minuteReview.skill) =
        some (3 / 10) := by
  have hproposal : proposalOf (championEngine (some reviewChampion)) minuteReview =
      some ("challenger-skill-v2-coach-exit-digest", .exit, .number (60 : ℕ)) := by decide +kernel
  obtain ⟨status, engine', after, evaluations, receipt, hseed, hfrozen, hreceipt, hskill, hproposed⟩ :=
    frozen_of_proposal hproposal
  refine ⟨_, status, engine', after, evaluations, receipt, hseed, hfrozen, hreceipt, by decide +kernel, ?_⟩
  rw [tested_review hskill hproposed]
  decide +kernel

end Study

end SignalArcade
