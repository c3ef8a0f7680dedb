import SignalArcade.Challenger.Freeze
import SignalArcade.Challenger.Confined

/-!
# The effect that is scored

What the active skills make of a decision is what the receipts say that are frozen for its
observation: `assess_eq_frozen`. Both paths look up the artifacts, predict, and guard the size on
their own. They agree where each active skill has authority over the decision and is the
Champion of its state, and a Coach Champion is in the context it is evaluated in: `Scored`.
-/

namespace SignalArcade.Challenger

open List

open Paper (Instant RiskMode DecisionAction)

/-! ### What is frozen -/

namespace LearningEngine

variable {engine : LearningEngine} {cohort : CohortKey} {observation : LearningObservation} {skill : ChallengerSkill}
  {artifact : ChallengerSkillArtifact} {state : ChallengerSkillState} {version : String}

theorem coachEvaluationContext_contender (h : state.championVersion ≠ some artifact.version) :
    (engine.coachEvaluationContext artifact state observation).2 = state := by
  rw [coachEvaluationContext, if_pos h]

theorem coachEvaluationContext_kept :
    (engine.coachEvaluationContext artifact state observation).2.skill = state.skill ∧
      (engine.coachEvaluationContext artifact state observation).2.cohortKey = state.cohortKey := by
  unfold coachEvaluationContext
  dsimp only
  split_ifs <;> exact ⟨rfl, rfl⟩

/-- A round over a version writes at most the receipt of the version, and leaves the key of the
state; of a contender it leaves the state. -/
theorem freezeVersion_frame {acc acc' : ChallengerSkillState × Evaluations}
    (h : engine.freezeVersion observation acc version = some acc') :
    (acc'.1.skill = acc.1.skill ∧ acc'.1.cohortKey = acc.1.cohortKey) ∧
      (acc.1.championVersion ≠ some version → acc'.1 = acc.1) ∧
      (∀ v ≠ version, acc'.2 v = acc.2 v) ∧
      ∀ artifact, engine.artifact? (some version) = some artifact → artifact.skill ≠ acc.1.skill → acc' = acc := by
  unfold freezeVersion at h
  cases hartifact : engine.artifact? (some version) with
  | none =>
    rw [hartifact] at h
    cases h
    exact ⟨⟨rfl, rfl⟩, fun _ => rfl, fun _ _ => rfl, fun _ _ _ => rfl⟩
  | some artifact =>
    obtain ⟨-, hversion⟩ := artifact?_eq_some.mp hartifact
    rw [Option.some_inj] at hversion
    rw [hartifact] at h
    by_cases hskill : artifact.skill ≠ acc.1.skill
    · simp only [hskill, ne_eq, not_false_eq_true, if_true] at h
      cases h
      exact ⟨⟨rfl, rfl⟩, fun _ => rfl, fun _ _ => rfl, fun _ _ _ => rfl⟩
    · simp only [hskill, if_false] at h
      generalize hcontext : (if artifact.isCoach = true then engine.coachEvaluationContext artifact acc.1 observation
        else (true, acc.1)) = context at h
      have hkept : (context.2.skill = acc.1.skill ∧ context.2.cohortKey = acc.1.cohortKey) ∧
          (acc.1.championVersion ≠ some version → context.2 = acc.1) := by
        rw [← hcontext]
        split_ifs
        · refine ⟨coachEvaluationContext_kept, fun hne => coachEvaluationContext_contender ?_⟩
          rw [← hversion]
          exact hne
        · exact ⟨⟨rfl, rfl⟩, fun _ => rfl⟩
      have hsame : ∀ found, some artifact = some found → found.skill ≠ acc.1.skill → acc' = acc := by
        intro found hfound hne
        cases hfound
        exact absurd hne hskill
      split_ifs at h with hoff
      · cases h
        exact ⟨hkept.1, hkept.2, fun _ _ => rfl, hsame⟩
      · obtain ⟨receipt, -, h⟩ := Option.map_eq_some_iff.mp h
        cases h
        refine ⟨hkept.1, hkept.2, fun v hv => ?_, hsame⟩
        cases receipt with
        | none => rfl
        | some receipt => exact Function.update_of_ne hv _ _

theorem frozenReceipt_prediction {receipt : Option ChallengerEvaluationReceipt} (hexit : artifact.skill ≠ .exit)
    (h : engine.frozenReceipt artifact state observation = some receipt) :
    ∃ rmse, artifact.validationRmse = some rmse ∧ receipt = some (engine.predictionReceipt artifact observation rmse) := by
  simp only [frozenReceipt, hexit, if_false, Option.bind_eq_bind, Option.bind_eq_some_iff] at h
  obtain ⟨rmse, hrmse, h⟩ := h
  obtain ⟨validated, hvalidated, rfl⟩ := Option.map_eq_some_iff.mp h
  unfold ChallengerEvaluationReceipt.validated at hvalidated
  split_ifs at hvalidated
  cases hvalidated
  exact ⟨rmse, hrmse, rfl⟩

theorem freezeVersion_champion {acc acc' : ChallengerSkillState × Evaluations}
    (h : engine.freezeVersion observation acc version = some acc')
    (hartifact : engine.artifact? (some version) = some artifact) (hskill : artifact.skill = acc.1.skill)
    (hcontext : artifact.isCoach = true → (engine.coachEvaluationContext artifact acc.1 observation).1 = true) :
    ∃ state' receipt, engine.frozenReceipt artifact state' observation = some receipt ∧ ∀ r ∈ receipt, acc'.2 version = some r := by
  unfold freezeVersion at h
  simp only [hartifact, hskill, ne_eq, not_true_eq_false, if_false] at h
  have hon : (if artifact.isCoach = true then engine.coachEvaluationContext artifact acc.1 observation
      else (true, acc.1)).1 = true := by
    split_ifs with hcoach
    · exact hcontext hcoach
    · rfl
  simp only [hon, Bool.true_eq_false, if_false] at h
  obtain ⟨receipt, hreceipt, h⟩ := Option.map_eq_some_iff.mp h
  cases h
  refine ⟨_, receipt, hreceipt, fun r hr => ?_⟩
  rw [Option.mem_def] at hr
  subst hr
  exact Function.update_self ..

variable {acc acc' : LearningEngine × Evaluations}

theorem freezeSkill_frame (h : freezeSkill cohort observation acc skill = some acc') :
    (∃ states, acc'.1 = { acc.1 with skillStates := states }) ∧
      (∀ k ≠ skill, acc'.1.skillStates.get? (cohort, k) = acc.1.skillStates.get? (cohort, k)) ∧
      ∀ v artifact, acc.1.artifact? (some v) = some artifact → artifact.skill ≠ skill → acc'.2 v = acc.2 v := by
  unfold freezeSkill at h
  cases hstate : acc.1.skillStates.get? (cohort, skill) with
  | none =>
    rw [hstate] at h
    cases h
    exact ⟨⟨acc.1.skillStates, rfl⟩, fun _ _ => rfl, fun _ _ _ _ => rfl⟩
  | some state =>
    simp only [hstate, Option.bind_eq_bind, Option.bind_eq_some_iff] at h
    obtain ⟨frozen, hfrozen, h⟩ := h
    cases h
    obtain ⟨-, hkey⟩ := Table.get?_eq_some.mp hstate
    have hstep : ∀ (versions : List String) (start : ChallengerSkillState × Evaluations),
        versions.foldlM (acc.1.freezeVersion observation) start = some frozen →
          (frozen.1.skill = start.1.skill ∧ frozen.1.cohortKey = start.1.cohortKey) ∧
            ∀ v artifact, acc.1.artifact? (some v) = some artifact → artifact.skill ≠ start.1.skill →
              frozen.2 v = start.2 v := by
      intro versions
      induction versions with
      | nil =>
        intro start hfold
        cases hfold
        exact ⟨⟨rfl, rfl⟩, fun _ _ _ _ => rfl⟩
      | cons version versions ih =>
        intro start hfold
        rw [foldlM_cons, Option.bind_eq_bind, Option.bind_eq_some_iff] at hfold
        obtain ⟨next, hnext, hfold⟩ := hfold
        obtain ⟨hkept, -, hothers, hforeign⟩ := freezeVersion_frame hnext
        obtain ⟨hkept', hevaluations⟩ := ih next hfold
        refine ⟨⟨hkept'.1.trans hkept.1, hkept'.2.trans hkept.2⟩, fun v artifact hartifact hne => ?_⟩
        rw [hevaluations v artifact hartifact (by rw [hkept.1]; exact hne)]
        by_cases hv : v = version
        · subst hv
          rw [hforeign artifact hartifact hne]
        · exact hothers v hv
    obtain ⟨hkept, hevaluations⟩ := hstep _ _ hfrozen
    have hskill : state.skill = skill := congrArg Prod.snd hkey
    refine ⟨⟨_, rfl⟩, fun k hk => ?_, fun v artifact hartifact hne => ?_⟩
    · show (acc.1.skillStates.upsert frozen.1).get? (cohort, k) = _
      rw [Table.get?_upsert, if_neg]
      intro he
      have he' : k = frozen.1.skill := congrArg Prod.snd he
      rw [hkept.1, hskill] at he'
      exact hk he'
    · exact hevaluations v artifact hartifact (by rw [hskill]; exact hne)

theorem freezeSkill_champion (h : freezeSkill cohort observation acc artifact.skill = some acc')
    (hstate : acc.1.skillStates.get? (cohort, artifact.skill) = some state)
    (hchampion : state.championVersion = some artifact.version)
    (hartifact : acc.1.artifact? (some artifact.version) = some artifact)
    (hcontext : artifact.isCoach = true → (acc.1.coachEvaluationContext artifact state observation).1 = true) :
    ∃ state' receipt, acc.1.frozenReceipt artifact state' observation = some receipt ∧
      ∀ r ∈ receipt, acc'.2 artifact.version = some r := by
  unfold freezeSkill at h
  simp only [hstate, Option.bind_eq_bind, Option.bind_eq_some_iff] at h
  obtain ⟨frozen, hfrozen, h⟩ := h
  cases h
  have hskill : artifact.skill = state.skill := (congrArg Prod.snd (Table.get?_eq_some.mp hstate).2).symm
  -- the contender, if there is another one, comes first and leaves the state
  have hlast : ∃ start : ChallengerSkillState × Evaluations, start.1 = state ∧
      acc.1.freezeVersion observation start artifact.version = some frozen := by
    unfold frozenVersions at hfrozen
    cases htesting : state.testingVersion with
    | none =>
      simp only [htesting, hchampion, Option.toList_none, nil_append, Option.filter_some, ne_eq, reduceCtorEq,
        not_false_eq_true, decide_true, if_true, Option.toList_some, foldlM_cons, foldlM_nil,
        Option.bind_eq_bind, Option.pure_def, Option.bind_fun_some] at hfrozen
      exact ⟨_, rfl, hfrozen⟩
    | some testing =>
      by_cases hsame : testing = artifact.version
      · subst hsame
        simp only [htesting, hchampion, Option.toList_some, Option.filter_some, ne_eq, not_true_eq_false, decide_false,
          Bool.false_eq_true, if_false, Option.toList_none, append_nil, foldlM_cons, foldlM_nil,
          Option.bind_eq_bind, Option.pure_def, Option.bind_fun_some] at hfrozen
        exact ⟨_, rfl, hfrozen⟩
      · simp only [htesting, hchampion, Option.toList_some, Option.filter_some, ne_eq, Option.some_inj, hsame,
          not_false_eq_true, decide_true, if_true, cons_append, nil_append, foldlM_cons, foldlM_nil,
          Option.bind_eq_bind, Option.pure_def, Option.bind_fun_some, Option.bind_eq_some_iff] at hfrozen
        obtain ⟨next, hnext, hfrozen⟩ := hfrozen
        obtain ⟨-, hstays, -, -⟩ := freezeVersion_frame hnext
        refine ⟨next, hstays ?_, hfrozen⟩
        rw [hchampion, ne_eq, Option.some_inj]
        exact fun he => hsame he.symm
  obtain ⟨start, hstart, hfreeze⟩ := hlast
  refine freezeVersion_champion hfreeze hartifact (by rw [hstart]; exact hskill) ?_
  rw [hstart]
  exact hcontext

/-- **The receipt of a Champion is frozen**, in the course of the loop over the skills. -/
theorem foldlM_champion {skills : List ChallengerSkill} (hnodup : skills.Nodup) (hmem : artifact.skill ∈ skills)
    (hacc : ∃ states, acc.1 = { engine with skillStates := states })
    (h : skills.foldlM (freezeSkill cohort observation) acc = some acc')
    (hstate : acc.1.skillStates.get? (cohort, artifact.skill) = some state)
    (hchampion : state.championVersion = some artifact.version)
    (hartifact : engine.artifact? (some artifact.version) = some artifact)
    (hcontext : artifact.isCoach = true → (engine.coachEvaluationContext artifact state observation).1 = true) :
    ∃ state' receipt, engine.frozenReceipt artifact state' observation = some receipt ∧
      ∀ r ∈ receipt, acc'.2 artifact.version = some r := by
  -- after the round of its skill the receipt stays
  have hrest : ∀ (skills : List ChallengerSkill) (acc : LearningEngine × Evaluations), artifact.skill ∉ skills →
      (∃ states, acc.1 = { engine with skillStates := states }) →
        skills.foldlM (freezeSkill cohort observation) acc = some acc' → acc'.2 artifact.version = acc.2 artifact.version := by
    intro skills
    induction skills with
    | nil =>
      intro acc _ _ hfold
      cases hfold
      rfl
    | cons skill skills ih =>
      intro acc hnot hacc hfold
      rw [foldlM_cons, Option.bind_eq_bind, Option.bind_eq_some_iff] at hfold
      obtain ⟨next, hnext, hfold⟩ := hfold
      obtain ⟨hframe, -, hevaluations⟩ := freezeSkill_frame hnext
      obtain ⟨states, hstates⟩ := hacc
      have hnext' : ∃ states, next.1 = { engine with skillStates := states } := by
        obtain ⟨states', hframe⟩ := hframe
        exact ⟨states', by rw [hframe, hstates]⟩
      rw [mem_cons, not_or] at hnot
      rw [ih next hnot.2 hnext' hfold]
      exact hevaluations artifact.version artifact (by rw [hstates]; exact hartifact) hnot.1
  induction skills generalizing acc with
  | nil => cases hmem
  | cons skill skills ih =>
    rw [foldlM_cons, Option.bind_eq_bind, Option.bind_eq_some_iff] at h
    obtain ⟨next, hnext, hfold⟩ := h
    rw [nodup_cons] at hnodup
    obtain ⟨hframe, hstates', -⟩ := freezeSkill_frame hnext
    obtain ⟨states, hstates⟩ := hacc
    have hnext' : ∃ states, next.1 = { engine with skillStates := states } := by
      obtain ⟨states', hframe⟩ := hframe
      exact ⟨states', by rw [hframe, hstates]⟩
    by_cases hskill : skill = artifact.skill
    · subst hskill
      have hartifact' : acc.1.artifact? (some artifact.version) = some artifact := by
        rw [hstates]
        exact hartifact
      have hcontext' : artifact.isCoach = true → (acc.1.coachEvaluationContext artifact state observation).1 = true := by
        rw [hstates]
        exact hcontext
      obtain ⟨state', receipt, hreceipt, hwritten⟩ := freezeSkill_champion hnext hstate hchampion hartifact' hcontext'
      rw [hstates] at hreceipt
      refine ⟨state', receipt, hreceipt, fun r hr => ?_⟩
      rw [hrest skills next hnodup.1 hnext' hfold]
      exact hwritten r hr
    · have hmem' : artifact.skill ∈ skills := (mem_cons.mp hmem).resolve_left fun he => hskill he.symm
      refine ih hnodup.2 hmem' hnext' hfold ?_
      rw [hstates' _ fun he => hskill he.symm]
      exact hstate

end LearningEngine

/-! ### What the receipts say -/

section

variable {engine : LearningEngine} {observation : LearningObservation} {artifact : ChallengerSkillArtifact} {rmse : ℚ}

theorem vetoApplies_predictionReceipt (hskill : artifact.skill = .entry ∨ artifact.skill = .manipulation) :
    (engine.predictionReceipt artifact observation rmse).vetoApplies = true ↔
      engine.artifactInSupport artifact observation.features = true ∧
        engine.supports observation.features artifact rmse = false := by
  have hsizing : artifact.skill ≠ .sizing := by
    rintro he
    rw [he] at hskill
    simp at hskill
  have hveto : (decide (artifact.skill = .entry) || decide (artifact.skill = .manipulation)) = true := by
    rcases hskill with h | h <;> simp [h]
  simp only [ChallengerEvaluationReceipt.vetoApplies, LearningEngine.predictionReceipt, hsizing, hveto, if_false,
    LearningEngine.supports, Bool.true_and, Bool.and_eq_true, decide_eq_true_eq]
  cases engine.artifactInSupport artifact observation.features with
  | false => simp
  | true => cases (engine.conservative observation.features artifact rmse).any (0 < ·) <;> simp

theorem boundedFor_mem (decision : Decision) (receipt : ChallengerEvaluationReceipt) :
    boundedFor decision receipt ∈ sizingMultipliers := by
  have hone : (1 : ℚ) ∈ sizingMultipliers := by decide +kernel
  unfold boundedFor
  dsimp only
  generalize (if receipt.inDistribution = true then receipt.proposedAction.float?.getD 1 else 1) = proposed
  by_cases hrefused : proposed ∉ sizingMultipliers ∨ decision.plannedOrderSizeSol.isNone = true
  · rw [if_pos hrefused]
    split_ifs <;> exact hone
  · rw [if_neg hrefused]
    split_ifs
    · exact hone
    · exact not_not.mp fun hnot => hrefused (.inl hnot)

theorem boundedFor_eq {decision : Decision} {receipt : ChallengerEvaluationReceipt} {selected : ℚ}
    (hselected : selected ∈ sizingMultipliers) (hsupported : receipt.inDistribution = true)
    (hproposed : receipt.proposedAction = .number selected) (hplanned : decision.plannedOrderSizeSol.isSome) :
    boundedFor decision receipt = (guardedMultiplier decision decision.plannedOrderSizeSol selected).1 := by
  obtain ⟨planned, hplanned⟩ := Option.isSome_iff_exists.mp hplanned
  simp only [boundedFor, guardedMultiplier, hsupported, hproposed, Proposal.float?, hplanned, hselected, if_true,
    Option.getD_some, not_true_eq_false, Option.isNone_some, Bool.false_eq_true, or_self, if_false]
  by_cases hintegrity : selected > 1 ∧ decision.integrityAssessment.all (fun integrity => integrity.state ≠ .clean) = true
  · rw [if_pos ⟨hintegrity.1, .inl hintegrity.2⟩, if_pos hintegrity]
  · rw [if_neg hintegrity]
    by_cases hcapacity : selected > 1 ∧ (some planned).any (fun size => (decision.sizingAssessment.bind fun s =>
        s.maximumSizeSol).any fun maximum => decide (size * selected > maximum + 1 / 1000000000)) = true
    · rw [if_pos ⟨hcapacity.1, .inr hcapacity.2⟩, if_pos hcapacity]
    · rw [if_neg hcapacity, if_neg]
      rintro ⟨hlt, h | h⟩
      · exact hintegrity ⟨hlt, h⟩
      · exact hcapacity ⟨hlt, h⟩

theorem boundedSizingMultiplier_predictionReceipt {decision : Decision} {features : Features}
    (hskill : artifact.skill = .sizing) {evaluations : Evaluations} {version : String}
    (h : evaluations version = some
      (engine.predictionReceipt artifact (engine.observationFor decision features true) rmse)) :
    ∃ receipt multiplier, freezeSizingBounds decision evaluations version = some receipt ∧
      receipt.boundedSizingMultiplier = some multiplier ∧
      (decision.plannedOrderSizeSol.map fun size => size * multiplier) =
        if engine.artifactInSupport artifact features = true then
          decision.plannedOrderSizeSol.map fun size =>
            size * (guardedMultiplier decision decision.plannedOrderSizeSol (engine.selectedMultiplier features artifact)).1
        else decision.plannedOrderSizeSol := by
  set receipt := engine.predictionReceipt artifact (engine.observationFor decision features true) rmse with hreceipt
  have hof : receipt.skill = .sizing := hskill
  have hin : receipt.inDistribution = engine.artifactInSupport artifact features := rfl
  have hmem := boundedFor_mem decision receipt
  cases hsupported : engine.artifactInSupport artifact features with
  | false =>
    refine ⟨_, 1, by rw [freezeSizingBounds, h, Option.map_some, if_pos hof], ?_, ?_⟩
    · simp [ChallengerEvaluationReceipt.boundedSizingMultiplier, hin, hsupported]
    · cases decision.plannedOrderSizeSol <;> simp
  | true =>
    refine ⟨_, boundedFor decision receipt, by rw [freezeSizingBounds, h, Option.map_some, if_pos hof], ?_, ?_⟩
    · simp [ChallengerEvaluationReceipt.boundedSizingMultiplier, hin, hsupported, Value.finite?, hmem]
    · cases hplanned : decision.plannedOrderSizeSol with
      | none => rfl
      | some planned =>
        have hproposed : receipt.proposedAction = .number (engine.selectedMultiplier features artifact) := by
          have hpredicted : engine.predictArtifact artifact (engine.observationFor decision features true).features =
              engine.predictArtifact artifact features := rfl
          have hsupported' : engine.artifactInSupport artifact (engine.observationFor decision features true).features =
              true := hsupported
          rw [hreceipt]
          simp only [LearningEngine.predictionReceipt, hskill, if_true, hpredicted, hsupported',
            LearningEngine.selectedMultiplier, hsupported]
          cases engine.predictArtifact artifact features <;> rfl
        rw [boundedFor_eq (LearningEngine.selectedMultiplier_mem artifact features) (by rw [hin, hsupported]) hproposed
          (by rw [hplanned]; rfl), hplanned]
        rfl

end

/-! ### The effect that is scored -/

namespace LearningEngine

/-- The artifact of each active skill is the Champion of a state of its cohort, and not suspended. -/
def ChampionsActive (engine : LearningEngine) : Prop :=
  ∀ skill version, engine.activeSkillVersions skill = some version →
    ∃ state artifact, engine.currentSkillState skill = some state ∧ engine.artifact? (some version) = some artifact ∧
      state.championVersion = some version ∧ state.suspendedVersion ≠ some version ∧
      challengerCohortKey artifact.riskMode (some artifact.configurationFingerprint) artifact.baselineVersion
        artifact.featureSchemaVersion = some state.cohortKey

/-- What has authority over a decision is evaluated for it: a Coach artifact is in its context. -/
def Scored (engine : LearningEngine) (decision : Decision) (features : Features) : Prop :=
  ∀ skill artifact state, skill ≠ .exit → engine.liveArtifact decision skill = some artifact → artifact.isCoach = true →
    engine.currentSkillState skill = some state →
      (engine.coachEvaluationContext artifact state (engine.observationFor decision features true)).1 = true

/-- The frozen receipt of the live artifact vetoes. -/
def FrozenVeto (engine : LearningEngine) (decision : Decision) (evaluations : Evaluations) (skill : ChallengerSkill) : Prop :=
  ∃ artifact receipt, engine.liveArtifact decision skill = some artifact ∧ evaluations artifact.version = some receipt ∧
    receipt.vetoApplies = true

/-- The multiplier of the frozen receipt of the active size skill with authority, one where there is none. -/
def FrozenMultiplier (engine : LearningEngine) (decision : Decision) (evaluations : Evaluations) (multiplier : ℚ) : Prop :=
  (engine.liveArtifact decision .sizing = none ∧ multiplier = 1) ∨
    ∃ artifact receipt, engine.liveArtifact decision .sizing = some artifact ∧
      evaluations artifact.version = some receipt ∧ receipt.boundedSizingMultiplier = some multiplier

variable {engine : LearningEngine} {decision decision' : Decision} {features : Features} {evaluations : Evaluations}
  {skill : ChallengerSkill} {artifact : ChallengerSkillArtifact} {s s' : Assessment}

section

variable (hchampions : engine.ChampionsActive)
include hchampions

theorem cohort_of_live (hlive : engine.liveArtifact decision skill = some artifact) :
    challengerCohortKey decision.riskMode decision.configurationFingerprint decision.baselineVersion featureSchemaVersion =
      engine.currentCohortKey := by
  obtain ⟨⟨hknown, hactive⟩, state, hstate, hauthority⟩ := liveArtifact_eq_some hlive
  obtain ⟨state', artifact', hstate', hartifact', -, -, hcohort⟩ := hchampions skill artifact.version hactive
  rw [hstate, Option.some_inj] at hstate'
  subst hstate'
  obtain rfl : artifact = artifact' :=
    Option.some_inj.mp ((artifact?_eq_some.mpr ⟨hknown, rfl⟩).symm.trans hartifact')
  simp only [hasAuthority, Bool.and_eq_true, decide_eq_true_eq] at hauthority
  obtain ⟨⟨⟨⟨⟨-, hrisk⟩, hconfiguration⟩, hbaseline⟩, -⟩, -⟩ := hauthority
  obtain ⟨-, hof, -⟩ := currentSkillState_eq_some.mp hstate
  rw [← hrisk, ← hconfiguration, ← hbaseline, hof, ← hcohort]
  -- the states of the engine are of the schema of the features
  have hschema : state.cohortKey.featureSchemaVersion = featureSchemaVersion := by
    obtain ⟨configuration, -, hkey⟩ := Option.map_eq_some_iff.mp hof
    rw [← hkey]
  obtain ⟨configuration, hconfigured, hkey⟩ := Option.map_eq_some_iff.mp hcohort
  rw [← hkey] at hschema
  have hsame : artifact.featureSchemaVersion = featureSchemaVersion := hschema
  rw [hsame]

section

variable (hscored : engine.Scored decision features)
include hscored

theorem frozen_of_live {frozen : LearningEngine × Evaluations}
    (hfrozen : engine.freezeSkillEvaluations (engine.observationFor decision features true) = some frozen)
    (hexit : skill ≠ .exit) (hlive : engine.liveArtifact decision skill = some artifact) :
    ∃ rmse, artifact.validationRmse = some rmse ∧ frozen.2 artifact.version =
      some (engine.predictionReceipt artifact (engine.observationFor decision features true) rmse) := by
  have hcohort := cohort_of_live hchampions hlive
  obtain ⟨⟨hknown, hactive⟩, state, hstate, hauthority⟩ := liveArtifact_eq_some hlive
  obtain ⟨state', -, hstate', -, hchampion, -⟩ := hchampions skill artifact.version hactive
  rw [hstate, Option.some_inj] at hstate'
  subst hstate'
  simp only [hasAuthority, Bool.and_eq_true, decide_eq_true_eq] at hauthority
  obtain rfl : artifact.skill = skill := hauthority.1.1.1.1.1.1.1.1
  obtain ⟨hmem, hof, hkey⟩ := currentSkillState_eq_some.mp hstate
  have hobserved : challengerCohortKey (engine.observationFor decision features true).riskMode
      (engine.observationFor decision features true).configurationFingerprint
      (engine.observationFor decision features true).baselineVersion
      (engine.observationFor decision features true).featureSchemaVersion = some state.cohortKey :=
    hcohort.trans hof
  rw [freezeSkillEvaluations, hobserved] at hfrozen
  have hstate' : engine.skillStates.get? (state.cohortKey, artifact.skill) = some state := by
    rw [← hkey]
    exact Table.get?_eq_some.mpr ⟨hmem, rfl⟩
  obtain ⟨state', receipt, hreceipt, hwritten⟩ := foldlM_champion ChallengerSkill.order_nodup (ChallengerSkill.mem_order _)
    ⟨engine.skillStates, rfl⟩ hfrozen hstate' hchampion (artifact?_eq_some.mpr ⟨hknown, rfl⟩) fun hcoach =>
      hscored _ artifact state hexit hlive hcoach hstate
  obtain ⟨rmse, hrmse, hprediction⟩ := frozenReceipt_prediction hexit hreceipt
  exact ⟨rmse, hrmse, hwritten _ hprediction⟩

/-- A live veto is the frozen one. -/
theorem assessSkill_frozenVeto (hfrozen : engine.frozenEvaluations decision features true = some evaluations)
    (hskill : skill = .entry ∨ skill = .manipulation)
    (h : engine.assessSkill decision features true skill s = some s') :
    s'.plannedSize = s.plannedSize ∧ (s.action ≠ .enter → s'.action = s.action) ∧
      (s.action = .enter → (engine.FrozenVeto decision evaluations skill ∧ s'.action = .pass) ∨
        (¬ engine.FrozenVeto decision evaluations skill ∧ s'.action = .enter)) := by
  have hexit : skill ≠ .exit := by
    rintro rfl
    simp at hskill
  obtain ⟨frozen, hskills, rfl⟩ := Option.map_eq_some_iff.mp hfrozen
  unfold assessSkill at h
  cases hlive : engine.liveArtifact decision skill with
  | none =>
    rw [hlive] at h
    cases h
    refine ⟨rfl, fun _ => rfl, fun henter => .inr ⟨?_, henter⟩⟩
    rintro ⟨artifact, receipt, hsome, -⟩
    rw [hlive] at hsome
    cases hsome
  | some artifact =>
    simp only [hlive, if_pos hskill, Option.bind_eq_bind, Option.bind_eq_some_iff] at h
    obtain ⟨rmse, hrmse, h⟩ := h
    obtain ⟨rmse', hrmse', hreceipt⟩ := frozen_of_live hchampions hscored hskills hexit hlive
    rw [hrmse, Option.some_inj] at hrmse'
    subst hrmse'
    obtain ⟨hsize, haction⟩ := assessVeto_spec h
    obtain ⟨⟨-, -⟩, state, -, hauthority⟩ := liveArtifact_eq_some hlive
    simp only [hasAuthority, Bool.and_eq_true, decide_eq_true_eq] at hauthority
    obtain rfl : artifact.skill = skill := hauthority.1.1.1.1.1.1.1.1
    -- the bounds of sizes leave the receipt of a veto skill
    have hbounds : freezeSizingBounds decision frozen.2 artifact.version =
        some (engine.predictionReceipt artifact (engine.observationFor decision features true) rmse) := by
      have hsizing : artifact.skill ≠ .sizing := by
        intro he
        rw [he] at hskill
        simp at hskill
      rw [freezeSizingBounds, hreceipt, Option.map_some]
      exact congrArg some (if_neg hsizing)
    have hveto : engine.FrozenVeto decision (freezeSizingBounds decision frozen.2) artifact.skill ↔
        engine.artifactInSupport artifact features = true ∧ engine.supports features artifact rmse = false := by
      have happlies : (engine.predictionReceipt artifact (engine.observationFor decision features true) rmse).vetoApplies =
          true ↔ engine.artifactInSupport artifact features = true ∧ engine.supports features artifact rmse = false :=
        vetoApplies_predictionReceipt hskill
      rw [← happlies]
      constructor
      · rintro ⟨found, receipt, hfound, hsome, hvetoes⟩
        rw [hlive, Option.some_inj] at hfound
        subst hfound
        rw [hbounds, Option.some_inj] at hsome
        subst hsome
        exact hvetoes
      · intro hvetoes
        exact ⟨artifact, _, hlive, hbounds, hvetoes⟩
    refine ⟨hsize, fun hnot => haction.trans (if_neg fun hveto => hnot hveto.1), fun henter => ?_⟩
    by_cases happlies : engine.FrozenVeto decision (freezeSizingBounds decision frozen.2) artifact.skill
    · have hvetoes : Vetoes engine features true artifact rmse s.action := ⟨henter, rfl, hveto.mp happlies⟩
      exact .inl ⟨happlies, haction.trans (if_pos hvetoes)⟩
    · refine .inr ⟨happlies, ?_⟩
      rw [haction, if_neg fun hvetoes => happlies (hveto.mpr hvetoes.2.2), henter]

/-- A live size is the frozen one. -/
theorem assessSkill_frozenMultiplier (hfrozen : engine.frozenEvaluations decision features true = some evaluations)
    (hplanned : s.plannedSize = decision.plannedOrderSizeSol)
    (h : engine.assessSkill decision features true .sizing s = some s') :
    s'.action = s.action ∧
      (s.action = .enter → ∃ multiplier, engine.FrozenMultiplier decision evaluations multiplier ∧
        s'.plannedSize = decision.plannedOrderSizeSol.map fun size => size * multiplier) := by
  obtain ⟨frozen, hskills, rfl⟩ := Option.map_eq_some_iff.mp hfrozen
  unfold assessSkill at h
  cases hlive : engine.liveArtifact decision .sizing with
  | none =>
    rw [hlive] at h
    cases h
    refine ⟨rfl, fun _ => ⟨1, .inl ⟨hlive, rfl⟩, ?_⟩⟩
    rw [hplanned]
    cases decision.plannedOrderSizeSol <;> simp
  | some artifact =>
    simp only [hlive, reduceCtorEq, or_self, if_false, Option.bind_eq_bind, Option.bind_eq_some_iff] at h
    obtain ⟨rmse, hrmse, h⟩ := h
    obtain ⟨rmse', hrmse', hreceipt⟩ := frozen_of_live hchampions hscored hskills (by decide) hlive
    rw [hrmse, Option.some_inj] at hrmse'
    subst hrmse'
    obtain ⟨haction, hsize⟩ := assessSize_spec h
    obtain ⟨-, state, -, hauthority⟩ := liveArtifact_eq_some hlive
    simp only [hasAuthority, Bool.and_eq_true, decide_eq_true_eq] at hauthority
    have hskill : artifact.skill = .sizing := hauthority.1.1.1.1.1.1.1.1
    obtain ⟨receipt, multiplier, hbounds, hmultiplier, heffect⟩ :=
      boundedSizingMultiplier_predictionReceipt hskill hreceipt
    refine ⟨haction, fun henter => ⟨multiplier, .inr ⟨artifact, receipt, hlive, hbounds, hmultiplier⟩, ?_⟩⟩
    rw [hsize, heffect, hplanned]
    simp only [henter, true_and]

end

end

/-- **The effect applied is the effect that is scored**: a decision to enter is passed exactly where
a frozen receipt vetoes, and else its size is multiplied by what is frozen of Sizing. -/
theorem assess_eq_frozen (henter : decision.action = .enter)
    (hfeatures : featureVector engine.runtime decision = some features) (hchampions : engine.ChampionsActive)
    (hscored : engine.Scored decision features)
    (hfrozen : engine.frozenEvaluations decision features true = some evaluations)
    (h : engine.assessActiveSkills decision true = some decision') :
    (decision'.action = .pass ↔
      engine.FrozenVeto decision evaluations .entry ∨ engine.FrozenVeto decision evaluations .manipulation) ∧
    (decision'.action ≠ .pass → ∃ multiplier, engine.FrozenMultiplier decision evaluations multiplier ∧
      decision'.plannedOrderSizeSol = decision.plannedOrderSizeSol.map fun size => size * multiplier) := by
  unfold assessActiveSkills at h
  simp only [hfeatures, Option.bind_eq_bind, Option.bind_eq_some_iff] at h
  obtain ⟨s₁, h₁, s₂, h₂, s₃, h₃, h⟩ := h
  cases h
  obtain ⟨hsize₁, -, henter₁⟩ := assessSkill_frozenVeto hchampions hscored hfrozen (.inl rfl) h₁
  obtain ⟨hsize₂, hstay₂, henter₂⟩ := assessSkill_frozenVeto hchampions hscored hfrozen (.inr rfl) h₂
  obtain ⟨haction₃, hsize₃⟩ := assessSkill_frozenMultiplier hchampions hscored hfrozen (hsize₂.trans hsize₁) h₃
  show (s₃.action = .pass ↔ _) ∧ (s₃.action ≠ .pass → _)
  rw [haction₃]
  rcases henter₁ henter with ⟨hveto₁, haction₁⟩ | ⟨hnot₁, haction₁⟩
  · have haction₂ : s₂.action = .pass := (hstay₂ (by rw [haction₁]; decide)).trans haction₁
    exact ⟨⟨fun _ => .inl hveto₁, fun _ => haction₂⟩, fun hne => absurd haction₂ hne⟩
  · rcases henter₂ haction₁ with ⟨hveto₂, haction₂⟩ | ⟨hnot₂, haction₂⟩
    · exact ⟨⟨fun _ => .inr hveto₂, fun _ => haction₂⟩, fun hne => absurd haction₂ hne⟩
    · refine ⟨⟨fun hpass => ?_, fun hveto => (hveto.elim hnot₁ hnot₂).elim⟩, fun _ => hsize₃ haction₂⟩
      rw [haction₂] at hpass
      cases hpass

/-! ### Where it is not -/

/-- A Coach artifact of Entry that vetoes whatever the danger is. -/
def coachVeto : ChallengerSkillArtifact :=
  { coachDouble with
    version := "cautious"
    skill := .entry
    parameters := { coachPolicy := some ⟨"veto", none, some [some ⟨some "danger", some .le, some 1⟩]⟩ } }

theorem championEngine_championsActive {artifact : ChallengerSkillArtifact}
    (h : challengerCohortKey artifact.riskMode (some artifact.configurationFingerprint) artifact.baselineVersion
      artifact.featureSchemaVersion = some ⟨.balanced, "configuration", "baseline-v1.5", featureSchemaVersion⟩) :
    (championEngine (some artifact)).ChampionsActive := by
  intro skill version hactive
  obtain ⟨found, hfound, rfl⟩ := Option.map_eq_some_iff.mp hactive
  obtain ⟨hsome, hskill⟩ := Option.filter_eq_some_iff.mp hfound
  cases hsome
  rw [decide_eq_true_eq] at hskill
  subst hskill
  refine ⟨_, artifact, currentSkillState_eq_some.mpr ⟨mem_singleton_self _, rfl, rfl⟩,
    artifact?_eq_some.mpr ⟨mem_singleton_self _, rfl⟩, rfl, by simp, h⟩

/-- The receipts of the clean decision veto, or there are none. -/
def frozenVetoes (engine : LearningEngine) (version : String) : Option (Option Bool) := do
  let features ← featureVector engine.runtime cleanEntry
  let evaluations ← engine.frozenEvaluations cleanEntry features true
  some ((evaluations version).map ChallengerEvaluationReceipt.vetoApplies)

/-- A Champion whose requirement cannot be read is scored as a veto and does not act; a Coach
Champion that has not joined before the decision vetoes and is not scored. -/
theorem live_effect_not_scored :
    (({ championEngine (some nonlinearVeto) with coveragePolicyError := true } : LearningEngine).ChampionsActive ∧
        (({ championEngine (some nonlinearVeto) with coveragePolicyError := true } : LearningEngine).assessActiveSkills
          cleanEntry true).map Decision.action = some .enter ∧
        frozenVetoes { championEngine (some nonlinearVeto) with coveragePolicyError := true } "nonlinear" =
          some (some true)) ∧
      (championEngine (some coachVeto)).ChampionsActive ∧
        ((championEngine (some coachVeto)).assessActiveSkills cleanEntry true).map Decision.action = some .pass ∧
        frozenVetoes (championEngine (some coachVeto)) "cautious" = some none := by
  refine ⟨⟨championEngine_championsActive (by decide +kernel), ?_, ?_⟩,
    championEngine_championsActive (by decide +kernel), ?_, ?_⟩ <;> decide +kernel

/-- The effect of the nonlinear veto is the one that is scored. -/
theorem assess_eq_frozen_nonlinear : ∃ features evaluations decision',
    (championEngine (some nonlinearVeto)).frozenEvaluations cleanEntry features true = some evaluations ∧
      (championEngine (some nonlinearVeto)).assessActiveSkills cleanEntry true = some decision' ∧
      (decision'.action = .pass ↔
        (championEngine (some nonlinearVeto)).FrozenVeto cleanEntry evaluations .entry ∨
          (championEngine (some nonlinearVeto)).FrozenVeto cleanEntry evaluations .manipulation) := by
  have hassessed : ((championEngine (some nonlinearVeto)).assessActiveSkills cleanEntry true).isSome := by
    decide +kernel
  have hevaluated : frozenVetoes (championEngine (some nonlinearVeto)) "nonlinear" = some (some true) := by
    decide +kernel
  obtain ⟨decision', h⟩ := Option.isSome_iff_exists.mp hassessed
  simp only [frozenVetoes, Option.bind_eq_bind, Option.bind_eq_some_iff] at hevaluated
  obtain ⟨features, hfeatures, evaluations, hfrozen, -⟩ := hevaluated
  refine ⟨features, evaluations, decision', hfrozen, h,
    (assess_eq_frozen (by rfl) hfeatures (championEngine_championsActive (by decide +kernel)) ?_ hfrozen h).1⟩
  -- there is no Coach artifact
  intro skill artifact state _ hlive hcoach _
  obtain ⟨⟨hknown, -⟩, -⟩ := liveArtifact_eq_some hlive
  obtain rfl : artifact = nonlinearVeto := mem_singleton.mp hknown
  cases hcoach

end LearningEngine

end SignalArcade.Challenger
