import SignalArcade.Challenger.Activation

/-!
# Receipts of activations

What `_activate_skill` leaves in the state of a skill is what `_valid_activation_proof` asks
for, though one puts the receipt together from a proof, a coverage record and the active skills,
and the other reads it back: `activateSkill_valid`. After a restart the map is the one that was
left, where what is upstream is restored and the root permission is there: `activateSkill_restored`.
Whatever was stored, what is restored is closed upstream: `restoredMap_closed`.
-/

namespace SignalArcade.Challenger

open Paper (Instant RiskMode)
open MeanBounds List

/-! ### What is upstream -/

namespace SkillVersions

variable {versions : SkillVersions} {skill : ChallengerSkill} {version : String}

theorem notDownstream_of_none (h : versions skill = none) : versions.notDownstream skill = versions.upstream skill := by
  funext k
  cases k <;> cases skill <;> simp [upstream, notDownstream, ChallengerSkill.index, h]

theorem notDownstream_of_some (h : versions skill = some version) :
    versions.notDownstream skill = (versions.upstream skill).set skill version := by
  funext k
  cases k <;> cases skill <;> simp [upstream, notDownstream, set, ChallengerSkill.index, h, Function.update]

theorem notDownstream_next (versions : SkillVersions) :
    versions.notDownstream .entry = versions.upstream .manipulation ∧
      versions.notDownstream .manipulation = versions.upstream .sizing ∧
      versions.notDownstream .sizing = versions.upstream .exit ∧ versions.notDownstream .exit = versions := by
  refine ⟨?_, ?_, ?_, ?_⟩ <;> funext k <;> cases k <;> simp [upstream, notDownstream, ChallengerSkill.index]

end SkillVersions

/-! ### Coverage records -/

theorem CoverageRecord.override_readable (record : CoverageRecord) {second : CoverageRecord}
    (h : savedMinimum second ≠ ⊤) :
    second = {} ∧ record.override second = record ∨ record.override second = second := by
  obtain ⟨policy, -, hread, -⟩ := savedMinimum_finite h
  unfold readPolicy at hread
  split at hread
  · next habsent =>
    left
    simp only [CoverageRecord.absent, Bool.and_eq_true, Option.isNone_iff_eq_none] at habsent
    obtain ⟨version, percent, revision, effective⟩ := second
    obtain ⟨⟨⟨rfl, rfl⟩, rfl⟩, rfl⟩ := habsent
    exact ⟨rfl, rfl⟩
  · split at hread
    · next version percent revision effective hversion hpercent hrevision heffective =>
      right
      simp [CoverageRecord.override, hversion, hpercent, hrevision, heffective]
      cases second
      simp_all
    · cases hread

namespace LearningEngine

variable {engine engine' : LearningEngine} {artifact : ChallengerSkillArtifact} {state : ChallengerSkillState}
  {now : Instant} {skill : ChallengerSkill}

theorem percentOf_percent (percent : ℕ) : percentOf ((percent : ℚ) / 100) = percent := by
  unfold percentOf
  have hmul : (percent : ℚ) / 100 * 100 = ((percent : ℤ) : ℚ) := by push_cast; ring
  rw [hmul, round_intCast, Int.toNat_natCast]

theorem coverageMinimum_percent (hvalid : engine.coveragePolicy.Valid) (h : engine.coverageMinimum artifact ≠ ⊤) :
    ∃ percent : ℕ, percent ∈ percentages ∧ engine.coverageMinimum artifact = ((percent / 100 : ℚ) : WithTop ℚ) := by
  have hsaved : artifact.artifactMinimum ≠ ⊤ := by
    intro htop
    exact h (by rw [coverageMinimum, htop, max_top_right])
  have hartifact : ∃ percent : ℕ, percent ∈ percentages ∧ artifact.artifactMinimum = ((percent / 100 : ℚ) : WithTop ℚ) := by
    unfold ChallengerSkillArtifact.artifactMinimum at hsaved ⊢
    split_ifs with hcoach
    · exact ⟨70, by decide, by norm_num⟩
    · rw [if_neg hcoach] at hsaved
      obtain ⟨policy, hpolicy, -, hminimum⟩ := savedMinimum_finite hsaved
      exact ⟨policy.percent, hpolicy.percent, hminimum⟩
  obtain ⟨percent, hpercent, hminimum⟩ := hartifact
  rw [coverageMinimum, hminimum]
  rcases max_choice ((engine.coveragePolicy.fraction : ℚ) : WithTop ℚ) ((percent / 100 : ℚ) : WithTop ℚ) with hmax | hmax
  · exact ⟨engine.coveragePolicy.percent, hvalid.percent, hmax⟩
  · exact ⟨percent, hpercent, hmax⟩

/-- **What is recorded of the requirement is read back as the requirement.** -/
theorem savedMinimum_coverageReceipt (hvalid : engine.coveragePolicy.Valid) (h : engine.coverageMinimum artifact ≠ ⊤) :
    savedMinimum (engine.coverageReceipt artifact 0 false now) = engine.coverageMinimum artifact := by
  obtain ⟨percent, hpercent, hminimum⟩ := coverageMinimum_percent hvalid h
  have hreceipt : max (max (0 : WithTop ℚ) ((engine.coveragePolicy.fraction : ℚ) : WithTop ℚ))
      (if artifact.isCoach then ((70 / 100 : ℚ) : WithTop ℚ) else if false = true then 0 else artifact.artifactMinimum) =
        ((percent / 100 : ℚ) : WithTop ℚ) := by
    have hnonneg : (0 : WithTop ℚ) ≤ ((engine.coveragePolicy.fraction : ℚ) : WithTop ℚ) := by
      have hfraction : (0 : ℚ) ≤ engine.coveragePolicy.fraction := by
        unfold CoveragePolicy.fraction
        positivity
      exact_mod_cast hfraction
    rw [max_eq_right hnonneg, ← hminimum, coverageMinimum]
    congr 1
    simp only [Bool.false_eq_true, if_false, ChallengerSkillArtifact.artifactMinimum]
    split_ifs <;> rfl
  have hpolicy : CoveragePolicy.Valid
      { percent := percentOf (percent / 100)
        revision := engine.coveragePolicy.revision
        effectiveAt := engine.coveragePolicy.effectiveAt } := by
    rw [percentOf_percent]
    refine ⟨hpercent, ?_, hvalid.effective⟩
    intro hrevision
    have hdefault := hvalid.legacy hrevision
    have hle : ((70 / 100 : ℚ) : WithTop ℚ) ≤ ((percent / 100 : ℚ) : WithTop ℚ) := by
      rw [← hminimum, coverageMinimum, hdefault]
      exact le_max_left _ _
    have hle' : (70 : ℚ) ≤ percent := by
      have := WithTop.coe_le_coe.mp hle
      linarith
    have hseventy : percent = 70 := by
      simp only [percentages, mem_cons, not_mem_nil, or_false] at hpercent
      have : 70 ≤ percent := by exact_mod_cast hle'
      omega
    rw [hseventy, hdefault]
  rw [coverageReceipt, hreceipt]
  simp only [Bool.false_eq_true, false_and, if_false]
  rw [savedMinimum_metadata hpolicy, hminimum]
  simp only [CoveragePolicy.fraction, percentOf_percent]

/-! ### The numbers of a proof -/

theorem evidenceHolds_of_counts {coverage : CoverageRecord} {evidence : ProofEvidence} (observed : List (Option ℚ))
    (hready : evidence.ready = true) (hobserved : evidence.observedCount = observed.length)
    (husable : evidence.usableCount = (observed.filterMap id).length)
    (henough : tournamentMinimumCommonOutcomes ≤ evidence.usableCount)
    (havailability : evidence.availabilityFraction = evidence.usableCount / evidence.observedCount)
    (hminimum : max (engine.coverageMinimum artifact) (savedMinimum coverage) ≤ (evidence.availabilityFraction : WithTop ℚ))
    (hadvantage : evidence.upliftLowerBound.any (fun i => i.lowerAbove 0) = true)
    (hharm : 0 ≤ evidence.harmFraction ∧ evidence.harmFraction ≤ sizingMaximumHarmFraction) :
    engine.evidenceHolds artifact coverage evidence = true := by
  have hle : evidence.usableCount ≤ evidence.observedCount := by
    rw [husable, hobserved]
    exact length_filterMap_le _ _
  have hpos : 0 < evidence.observedCount := by
    have : 0 < tournamentMinimumCommonOutcomes := by decide
    omega
  have hone : evidence.availabilityFraction ≤ 1 := by
    rw [havailability, div_le_one (by exact_mod_cast hpos)]
    exact_mod_cast hle
  have hclose : isClose evidence.availabilityFraction (evidence.usableCount / evidence.observedCount) = true := by
    rw [havailability, isClose, decide_eq_true_eq, sub_self, abs_zero]
    positivity
  simp only [evidenceHolds, hready, henough, hle, hminimum, hone, hclose, hadvantage, hharm.1, hharm.2, decide_true,
    Bool.and_self]

theorem harmFraction_nonneg (harm total : ℕ) (p : Prop) [Decidable p] : 0 ≤ if p then (0 : ℚ) else harm / total := by
  split_ifs <;> positivity

theorem joinProof_holds {contextValid : Bool} {outcomes : List (Option ℚ)} {coverage : CoverageRecord}
    (hcoverage : savedMinimum coverage = engine.coverageMinimum artifact)
    (hready : (joinProof (engine.coverageMinimum artifact) contextValid outcomes).ready = true) :
    engine.evidenceHolds artifact coverage (joinProof (engine.coverageMinimum artifact) contextValid outcomes) = true := by
  have hparts := hready
  simp only [joinProof, Bool.and_eq_true, decide_eq_true_eq] at hparts
  obtain ⟨⟨⟨⟨-, henough⟩, hcovered⟩, hadvantage⟩, hharm⟩ := hparts
  have hnonempty : outcomes ≠ [] := by
    rintro rfl
    exact absurd henough (by decide)
  apply evidenceHolds_of_counts outcomes hready rfl rfl henough
  · simp only [joinProof, if_neg hnonempty]
  · rw [hcoverage, max_self]
    exact hcovered
  · exact hadvantage
  · exact ⟨harmFraction_nonneg _ _ _, hharm⟩

/-- A proof passes the check once it is recorded with the requirement of an activation. -/
structure Recorded (engine : LearningEngine) (artifact : ChallengerSkillArtifact) (now : Instant) (proof : Proof) : Prop where
  readable : savedMinimum ((engine.coverageReceipt artifact 0 false now).override proof.coverage) ≠ ⊤
  holds : engine.evidenceHolds artifact ((engine.coverageReceipt artifact 0 false now).override proof.coverage)
    proof.evidence = true

/-- **A join proof that is ready passes the check**: it is recorded with the requirement it was made
under. -/
theorem skillJoinEvidence_recorded (hvalid : engine.coveragePolicy.Valid) (heligible : engine.skillEligible artifact = true)
    (hready : (engine.skillJoinEvidence artifact true now).evidence.ready = true) :
    Recorded engine artifact now (engine.skillJoinEvidence artifact true now) := by
  have hfinite := coverageMinimum_ne_top heligible
  have hminimum : savedMinimum (engine.coverageReceipt artifact 0 false now) = engine.coverageMinimum artifact :=
    savedMinimum_coverageReceipt hvalid hfinite
  rw [← hminimum] at hfinite
  have hsame : (engine.coverageReceipt artifact 0 false now).override
      (engine.skillJoinEvidence artifact true now).coverage = engine.coverageReceipt artifact 0 false now := by
    rcases CoverageRecord.override_readable (engine.coverageReceipt artifact 0 false now) hfinite with ⟨-, h⟩ | h <;> exact h
  constructor
  · rw [hsame]
    exact hfinite
  · rw [hsame]
    exact joinProof_holds hminimum hready

/-! ### Recovery -/

theorem skillRecoveryProof_eq_some {proof : Proof} (h : (engine.skillRecoveryProof now state).proof = some proof) :
    ∃ artifact recovery rows, engine.recoveringChampion state = some artifact ∧
      state.activationProof.recovery = some recovery ∧ recoveryOpen state recovery = true ∧
      proof = engine.recoveryProof artifact state recovery rows ∧
      (engine.skillRecoveryProof now state).state = withRecovery state (closeRecovery recovery rows proof) := by
  unfold skillRecoveryProof at h ⊢
  split at h
  · next artifact recovery hchampion hrecovery =>
    by_cases hopen : recoveryOpen state recovery = true
    · by_cases hcomposition : engine.compositionHolds state recovery = true
      · by_cases haccepted : rowsAccepted artifact state recovery.rows = true
        · by_cases hcomplete : (engine.fillRows artifact state.skill now recovery.rows).2 = true
          · simp only [hopen, hcomposition, haccepted, hcomplete, Bool.not_true, Bool.false_eq_true, if_false,
              Option.some_inj] at h
            refine ⟨artifact, recovery, _, hchampion, hrecovery, hopen, h.symm, ?_⟩
            simp only [hopen, hcomposition, haccepted, hcomplete, Bool.not_true, Bool.false_eq_true, if_false, ← h]
          · simp [hopen, hcomposition, haccepted, hcomplete] at h
        · simp [hopen, hcomposition, haccepted] at h
      · simp [hopen, hcomposition] at h
    · simp [hopen] at h
  · cases h

theorem filterMap_delta (rows : List RecoveryRow) :
    rows.filterMap (fun row => row.delta.join) =
      ((rows.filter fun row => row.delta.isSome).map fun row => row.delta.join).filterMap id := by
  induction rows with
  | nil => rfl
  | cons row rows ih =>
    cases hdelta : row.delta with
    | none => simp [hdelta, ih]
    | some delta => cases delta <;> simp [hdelta, ih]

/-- **The proof of a recovery that is ready passes the check**, under the requirement it is recorded
with: that of its trial, or the one in force where the trial was not recorded with any. -/
theorem recoveryProof_holds {recovery : Recovery} {rows : List RecoveryRow} (hvalid : engine.coveragePolicy.Valid)
    (heligible : engine.skillEligible artifact = true) (hcoverage : savedMinimum recovery.coverage ≠ ⊤)
    (hready : (engine.recoveryProof artifact state recovery rows).evidence.ready = true) :
    Recorded engine artifact now (engine.recoveryProof artifact state recovery rows) := by
  have hfinite := coverageMinimum_ne_top heligible
  have hreceipt : savedMinimum (engine.coverageReceipt artifact 0 false now) = engine.coverageMinimum artifact :=
    savedMinimum_coverageReceipt hvalid hfinite
  -- the record is that of the trial, or of the artifact
  have hsaved : savedMinimum ((engine.coverageReceipt artifact 0 false now).override recovery.coverage) ≠ ⊤ ∧
      max (engine.coverageMinimum artifact)
          (savedMinimum ((engine.coverageReceipt artifact 0 false now).override recovery.coverage)) ≤
        max (engine.supportCoverageMinimum artifact state) (savedMinimum recovery.coverage) := by
    have hsupport : engine.coverageMinimum artifact ≤ engine.supportCoverageMinimum artifact state := le_max_left _ _
    rcases CoverageRecord.override_readable (engine.coverageReceipt artifact 0 false now) hcoverage with
      ⟨-, hoverride⟩ | hoverride
    · rw [hoverride, hreceipt, max_self]
      exact ⟨hfinite, hsupport.trans (le_max_left _ _)⟩
    · rw [hoverride]
      exact ⟨hcoverage, max_le_max_right _ hsupport⟩
  refine ⟨hsaved.1, ?_⟩
  have hparts := hready
  simp only [recoveryProof, Bool.and_eq_true, decide_eq_true_eq] at hparts
  obtain ⟨⟨⟨⟨hcomplete, henough⟩, hcovered⟩, hadvantage⟩, -, hharm⟩ := hparts
  have hpos : (rows.filter fun row => row.delta.isSome).length ≠ 0 := by
    rw [hcomplete]
    decide
  apply evidenceHolds_of_counts ((rows.filter fun row => row.delta.isSome).map fun row => row.delta.join) hready
  · exact (length_map _).symm
  · exact congrArg List.length (filterMap_delta rows)
  · exact henough
  · simp only [recoveryProof, if_neg hpos]
  · exact hsaved.2.trans hcovered
  · exact hadvantage
  · exact ⟨harmFraction_nonneg _ _ _, hharm⟩

/-! ### The states of the engine -/

theorem currentSkillState_setState (h : engine.currentCohortKey = some state.cohortKey) (k : ChallengerSkill) :
    (engine.setState state).currentSkillState k = if k = state.skill then some state else engine.currentSkillState k := by
  show (engine.currentCohortKey.bind fun cohort => (engine.skillStates.upsert state).get? (cohort, k)) = _
  rw [h, Option.bind_some, Table.get?_upsert]
  by_cases hk : k = state.skill
  · rw [if_pos hk, if_pos (by rw [hk]; rfl)]
  · rw [if_neg hk, if_neg fun hkey => hk (congrArg Prod.snd hkey), currentSkillState, h, Option.bind_some]

theorem deactivateSkills_frame (result : TournamentResult) (dependency : ChallengerSkill) (skills : List ChallengerSkill)
    (engine : LearningEngine) :
    ∃ states, engine.deactivateSkills result dependency skills = { engine with skillStates := states } ∧
      ∀ k ∉ skills, (engine.deactivateSkills result dependency skills).currentSkillState k = engine.currentSkillState k := by
  induction skills generalizing engine with
  | nil => exact ⟨engine.skillStates, rfl, fun _ _ => rfl⟩
  | cons skill skills ih =>
    unfold deactivateSkills at ih ⊢
    rw [foldl_cons]
    cases hstate : engine.currentSkillState skill with
    | none =>
      obtain ⟨states, heq, hframe⟩ := ih engine
      exact ⟨states, heq, fun k hk => hframe k fun hmem => hk (mem_cons_of_mem _ hmem)⟩
    | some state =>
      cases engine.activeSkillVersions skill with
      | none =>
        obtain ⟨states, heq, hframe⟩ := ih engine
        exact ⟨states, heq, fun k hk => hframe k fun hmem => hk (mem_cons_of_mem _ hmem)⟩
      | some version =>
        obtain ⟨states, heq, hframe⟩ := ih (engine.setState (deactivated state result dependency))
        refine ⟨states, heq, fun k hk => ?_⟩
        obtain ⟨-, hcohort, hskill⟩ := currentSkillState_eq_some.mp hstate
        have hne : k ≠ (deactivated state result dependency).skill := by
          rintro rfl
          exact hk (by rw [← hskill]; exact mem_cons_self)
        have hcohort' : engine.currentCohortKey = some (deactivated state result dependency).cohortKey := hcohort
        rw [hframe k fun hmem => hk (mem_cons_of_mem _ hmem), currentSkillState_setState hcohort', if_neg hne]

theorem skillRecoveryProof_state (engine : LearningEngine) (now : Instant) (state : ChallengerSkillState) :
    (engine.skillRecoveryProof now state).state = state ∨
      ∃ recovery, (engine.skillRecoveryProof now state).state = withRecovery state recovery := by
  unfold skillRecoveryProof
  split
  · dsimp only
    split_ifs
    · exact .inl rfl
    · exact .inr ⟨_, rfl⟩
    · exact .inl rfl
    · exact .inr ⟨_, rfl⟩
    · exact .inr ⟨_, rfl⟩
  · exact .inl rfl

theorem evaluateRecovery_frame (engine : LearningEngine) (skill : ChallengerSkill) (now : Instant) :
    ∃ states, (engine.evaluateRecovery skill now).1 = { engine with skillStates := states } ∧
      ∀ k ≠ skill, (engine.evaluateRecovery skill now).1.currentSkillState k = engine.currentSkillState k := by
  unfold evaluateRecovery
  cases hstate : engine.currentSkillState skill with
  | none => exact ⟨engine.skillStates, rfl, fun _ _ => rfl⟩
  | some state =>
    refine ⟨_, rfl, fun k hk => ?_⟩
    obtain ⟨-, hcohort, hskill⟩ := currentSkillState_eq_some.mp hstate
    have hkept : (engine.skillRecoveryProof now state).state.cohortKey = state.cohortKey ∧
        (engine.skillRecoveryProof now state).state.skill = state.skill := by
      rcases skillRecoveryProof_state engine now state with h | ⟨recovery, h⟩ <;> rw [h] <;> exact ⟨rfl, rfl⟩
    rw [currentSkillState_setState (by rw [hkept.1]; exact hcohort), hkept.2, hskill, if_neg hk]

/-! ### What an activation does -/

theorem evaluateRecovery_holds {proof : Proof} (hvalid : engine.coveragePolicy.Valid)
    (hknown : artifact ∈ engine.skillArtifacts) (h : (engine.evaluateRecovery artifact.skill now).2 = some proof)
    (hstate : (engine.evaluateRecovery artifact.skill now).1.currentSkillState artifact.skill = some state)
    (hchampion : state.championVersion = some artifact.version) (heligible : engine.skillEligible artifact = true) :
    Recorded engine artifact now proof := by
  unfold evaluateRecovery at h hstate
  cases horiginal : engine.currentSkillState artifact.skill with
  | none =>
    rw [horiginal] at h
    cases h
  | some original =>
    simp only [horiginal, Option.filter_eq_some_iff] at h hstate
    obtain ⟨hproof, hready⟩ := h
    obtain ⟨champion, recovery, rows, hrecovering, -, hopen, rfl, hafter⟩ := skillRecoveryProof_eq_some hproof
    obtain ⟨-, hcohort, hskill⟩ := currentSkillState_eq_some.mp horiginal
    rw [hafter, currentSkillState_setState (by exact hcohort)] at hstate
    simp only [withRecovery, hskill, if_true, Option.some_inj] at hstate
    -- the Champion that recovers is the artifact
    obtain ⟨hfound, -⟩ := Option.filter_eq_some_iff.mp hrecovering
    obtain ⟨hmem, hversion⟩ := artifact?_eq_some.mp hfound
    have hsame : champion = artifact := by
      apply engine.skillArtifacts.eq_of_key hmem hknown
      rw [← hstate, hversion, Option.some_inj] at hchampion
      exact hchampion
    subst hsame
    have hcoverage : savedMinimum recovery.coverage ≠ ⊤ := by
      simp only [recoveryOpen, Bool.and_eq_true, decide_eq_true_eq] at hopen
      exact hopen.1.1.1.2
    exact recoveryProof_holds hvalid heligible hcoverage hready

/-- What an activation that succeeded found, and what it left. -/
structure Activated (engine : LearningEngine) (artifact : ChallengerSkillArtifact) (recovering grantConsent : Bool)
    (now : Instant) (state : ChallengerSkillState) (proof : Option Proof) (engine' : LearningEngine) : Prop where
  champion : state.championVersion = some artifact.version
  eligible : engine.skillEligible artifact = true
  available : engine.exitAvailable artifact = true
  loadable : engine.loadable artifact = true
  unsuspended : recovering = false → state.suspendedVersion ≠ some artifact.version
  settings : ∃ states, engine' = { engine with
    skillStates := states
    activeSkillVersions := (engine.activeSkillVersions.upstream artifact.skill).set artifact.skill artifact.version
    mode := .active
    activeModel := none
    consentGranted := engine.consentGranted || grantConsent }
  published : engine'.currentSkillState artifact.skill = some (engine.activatedState state artifact recovering proof now)
  skill : state.skill = artifact.skill
  upstream : ∀ k : ChallengerSkill, k.index < artifact.skill.index → engine'.currentSkillState k = engine.currentSkillState k
  proof : engine.coveragePolicy.Valid → artifact ∈ engine.skillArtifacts → engine.independent artifact = true →
    proof = none ∧ artifact.skill = .entry ∧ artifact.isCoach = false ∨
      ∃ p, proof = some p ∧ Recorded engine artifact now p

/-- What an activation leaves. -/
theorem activateSkill_activated {recovering grantConsent : Bool} {reason : TournamentResult}
    (h : engine.activateSkill artifact recovering grantConsent reason now = some engine') :
    ∃ state proof, Activated engine artifact recovering grantConsent now state proof engine' := by
  unfold activateSkill at h
  generalize hevaluated : (if recovering = true then engine.evaluateRecovery artifact.skill now else (engine, none)) =
    evaluated at h
  obtain ⟨engine₁, recoveryProof⟩ := evaluated
  simp only [Option.bind_eq_bind, Option.bind_eq_some_iff] at h
  obtain ⟨state, hstate, h⟩ := h
  split_ifs at h with hactivatable
  rw [Option.bind_eq_some_iff] at h
  obtain ⟨proof, hproof, h⟩ := h
  cases h
  -- the evaluation leaves everything but the state of the skill
  have hframe : ∃ states, engine₁ = { engine with skillStates := states } ∧
      ∀ k ≠ artifact.skill, engine₁.currentSkillState k = engine.currentSkillState k := by
    cases recovering with
    | false =>
      cases hevaluated
      exact ⟨engine.skillStates, rfl, fun _ _ => rfl⟩
    | true =>
      obtain ⟨states, heq, hkept⟩ := evaluateRecovery_frame engine artifact.skill now
      rw [if_pos rfl] at hevaluated
      rw [hevaluated] at heq hkept
      exact ⟨states, heq, hkept⟩
  obtain ⟨states₁, hengine₁, hkept₁⟩ := hframe
  obtain ⟨states₂, hdeactivated, hkept₂⟩ := deactivateSkills_frame reason artifact.skill (downstream artifact.skill) engine₁
  obtain ⟨-, hcohort, hskill⟩ := currentSkillState_eq_some.mp hstate
  simp only [activatable, Bool.and_eq_true, decide_eq_true_eq, Bool.or_eq_true, Bool.not_eq_true'] at hactivatable
  obtain ⟨⟨⟨⟨⟨hchampion, heligible⟩, havailable⟩, hloadable⟩, hsuspended⟩, hrecovering⟩ := hactivatable
  have hstatic : engine₁.skillEligible artifact = engine.skillEligible artifact ∧
      engine₁.exitAvailable artifact = engine.exitAvailable artifact ∧
      engine₁.loadable artifact = engine.loadable artifact := by
    rw [hengine₁]
    exact ⟨rfl, rfl, rfl⟩
  rw [hstatic.1] at heligible
  rw [hstatic.2.1] at havailable
  rw [hstatic.2.2] at hloadable
  have hactivated : ∀ proof, engine₁.activatedState state artifact recovering proof now =
      engine.activatedState state artifact recovering proof now := by
    intro proof
    rw [hengine₁]
    rfl
  have hcohort' : (engine₁.deactivateSkills reason artifact.skill (downstream artifact.skill)).currentCohortKey =
      some (engine₁.activatedState state artifact recovering proof now).cohortKey := by
    rw [hdeactivated]
    exact hcohort
  refine ⟨state, proof, hchampion, heligible, havailable, hloadable, ?_, ?_, ?_, hskill, ?_, ?_⟩
  · rintro rfl
    cases hevaluated
    exact hsuspended.resolve_right (by simp)
  · refine ⟨(states₂.upsert (engine₁.activatedState state artifact recovering proof now)), ?_⟩
    rw [hdeactivated, hengine₁]
    rfl
  · show ((engine₁.deactivateSkills reason artifact.skill (downstream artifact.skill)).setState _).currentSkillState _ = _
    rw [currentSkillState_setState hcohort', ← hactivated]
    exact if_pos hskill.symm
  · intro k hk
    have hne : k ≠ artifact.skill := by
      rintro rfl
      exact Nat.lt_irrefl _ hk
    show ((engine₁.deactivateSkills reason artifact.skill (downstream artifact.skill)).setState _).currentSkillState _ = _
    have hne' : k ≠ (engine₁.activatedState state artifact recovering proof now).skill := fun he => hne (he.trans hskill)
    have hnot : k ∉ downstream artifact.skill := by
      simp only [downstream, mem_filter, decide_eq_true_eq, not_and]
      intro _
      exact Nat.lt_asymm hk
    rw [currentSkillState_setState hcohort', if_neg hne', hkept₂ k hnot, hkept₁ k hne]
  · intro hvalid hknown hindependent
    have hindependent₁ : engine₁.independent artifact = true := by
      rw [hengine₁]
      exact hindependent
    simp only [LearningEngine.activationProof, hindependent₁, Bool.not_true, Bool.false_eq_true, if_false] at hproof
    split_ifs at hproof with hcandidate hfresh hready
    · cases hproof
      have hrecorded := skillJoinEvidence_recorded (by rw [hengine₁]; exact hvalid) (hstatic.1.trans heligible) hready
      subst hengine₁
      exact .inr ⟨_, rfl, hrecorded.readable, hrecorded.holds⟩
    · cases hproof
      cases recovering with
      | false =>
        cases hevaluated
        left
        refine ⟨rfl, ?_⟩
        by_contra hnot
        apply hfresh
        refine ⟨rfl, ?_⟩
        by_cases hentry : artifact.skill = .entry
        · right
          by_contra hcoach
          exact hnot ⟨hentry, by simpa using hcoach⟩
        · exact .inl hentry
      | true =>
        obtain ⟨p, hp⟩ := Option.isSome_iff_exists.mp (hrecovering.resolve_left (by simp))
        rw [if_pos rfl] at hevaluated
        refine .inr ⟨p, hp, evaluateRecovery_holds hvalid hknown ?_ ?_ hchampion heligible⟩
        · rw [hevaluated]
          exact hp
        · rw [hevaluated]
          exact hstate

variable {recovering grantConsent : Bool} {reason : TournamentResult} {proof : Option Proof}

/-- **What an independent activation leaves passes the check.** -/
theorem Activated.valid (h : Activated engine artifact recovering grantConsent now state proof engine')
    (hvalid : engine.coveragePolicy.Valid) (hknown : artifact ∈ engine.skillArtifacts)
    (hindependent : engine.independent artifact = true) :
    engine.validActivationProof (engine.activatedState state artifact recovering proof now) artifact
      (engine.activeSkillVersions.upstream artifact.skill) = true := by
  simp only [validActivationProof, activationReceipt, hindependent, if_true, decide_true, Bool.true_and,
    activatedState, Option.isSome_some]
  rcases h.proof hvalid hknown hindependent with ⟨rfl, hentry, hcoach⟩ | ⟨p, rfl, hrecorded⟩
  · have hminimum : savedMinimum (engine.coverageReceipt artifact 0 false now) = engine.coverageMinimum artifact :=
      savedMinimum_coverageReceipt hvalid (coverageMinimum_ne_top h.eligible)
    have hempty : (engine.coverageReceipt artifact 0 false now).override {} = engine.coverageReceipt artifact 0 false now := by
      simp [CoverageRecord.override]
    simp only [hentry, hcoach, Option.map_none, Option.getD_none, hempty, hminimum, and_self, if_true,
      SkillVersions.upstream_entry, decide_true, h.eligible, Bool.and_true, ne_eq, decide_not, Bool.not_eq_true',
      decide_eq_false_iff_not]
    exact coverageMinimum_ne_top h.eligible
  · have hreadable := hrecorded.readable
    simp only [Option.map_some, Option.getD_some, Option.any_some, hrecorded.holds, ne_eq, hreadable, not_false_eq_true,
      decide_true, Bool.true_and]
    split_ifs with hentry
    · rw [hentry.1, SkillVersions.upstream_entry]
      simp [h.eligible]
    · rfl

/-! ### After a restart -/

theorem restoredVersions_upstream (h : ∀ k v, engine.activeSkillVersions k = some v →
      engine.restorable (engine.activeSkillVersions.upstream k) k v = true) :
    engine.restoredVersions ChallengerSkill.order .empty = engine.activeSkillVersions := by
  have hstep : ∀ (k : ChallengerSkill) (skills : List ChallengerSkill),
      engine.restoredVersions (k :: skills) (engine.activeSkillVersions.upstream k) =
        engine.restoredVersions skills (engine.activeSkillVersions.notDownstream k) := by
    intro k skills
    rw [restoredVersions]
    cases hversion : engine.activeSkillVersions k with
    | none => rw [SkillVersions.notDownstream_of_none hversion]
    | some version => simp only [h k version hversion, if_true, SkillVersions.notDownstream_of_some hversion]
  obtain ⟨h₁, h₂, h₃, h₄⟩ := engine.activeSkillVersions.notDownstream_next
  calc engine.restoredVersions ChallengerSkill.order .empty
      = engine.restoredVersions ChallengerSkill.order (engine.activeSkillVersions.upstream .entry) := by
        rw [SkillVersions.upstream_entry]
    _ = engine.restoredVersions [.manipulation, .sizing, .exit] (engine.activeSkillVersions.upstream .manipulation) := by
        rw [ChallengerSkill.order, hstep, h₁]
    _ = engine.restoredVersions [.sizing, .exit] (engine.activeSkillVersions.upstream .sizing) := by rw [hstep, h₂]
    _ = engine.restoredVersions [.exit] (engine.activeSkillVersions.upstream .exit) := by rw [hstep, h₃]
    _ = engine.activeSkillVersions := by rw [hstep, h₄, restoredVersions]

/-- What has been restored is the active version, and the dependencies of its state are restored. -/
def Closed (engine : LearningEngine) (restored : SkillVersions) : Prop :=
  ∀ k v, restored k = some v → engine.activeSkillVersions k = some v ∧
    ∃ state, engine.currentSkillState k = some state ∧
      ∀ dependency w, state.activeDependencies dependency = some w → restored dependency = some w

theorem closed_empty (engine : LearningEngine) : Closed engine .empty := by
  intro k v h
  cases h

theorem Closed.set {restored : SkillVersions} {version : String} (h : Closed engine restored)
    (hactive : engine.activeSkillVersions skill = some version)
    (hrestorable : engine.restorable restored skill version = true) : Closed engine (restored.set skill version) := by
  -- nothing that was restored is replaced
  have hkept : ∀ k v, restored k = some v → restored.set skill version k = some v := by
    intro k v hk
    by_cases hsame : k = skill
    · subst hsame
      rw [(h k v hk).1, Option.some_inj] at hactive
      rw [SkillVersions.set_self, hactive]
    · rw [SkillVersions.set_of_ne hsame]
      exact hk
  intro k v hk
  by_cases hsame : k = skill
  · subst hsame
    rw [SkillVersions.set_self, Option.some_inj] at hk
    subst hk
    refine ⟨hactive, ?_⟩
    unfold restorable at hrestorable
    split at hrestorable
    · next found state _ hstate =>
      simp only [Bool.and_eq_true, all_eq_true, ChallengerSkill.mem_order, forall_const] at hrestorable
      refine ⟨state, hstate, fun dependency w hdependency => hkept dependency w ?_⟩
      have hdependencies := hrestorable.1.2 dependency
      rw [hdependency, Option.all_some, decide_eq_true_eq] at hdependencies
      exact hdependencies
    · cases hrestorable
  · rw [SkillVersions.set_of_ne hsame] at hk
    obtain ⟨hactive', state, hstate, hdependencies⟩ := h k v hk
    exact ⟨hactive', state, hstate, fun dependency w hdependency => hkept dependency w (hdependencies dependency w hdependency)⟩

theorem Closed.restoredVersions (skills : List ChallengerSkill) {restored : SkillVersions} (h : Closed engine restored) :
    Closed engine (engine.restoredVersions skills restored) := by
  induction skills generalizing restored with
  | nil => exact h
  | cons skill skills ih =>
    rw [LearningEngine.restoredVersions]
    cases hactive : engine.activeSkillVersions skill with
    | none => exact ih h
    | some version =>
      dsimp only
      split_ifs with hrestorable
      · exact ih (h.set hactive hrestorable)
      · exact h

/-- **What is restored is closed upstream.** -/
theorem restoredMap_closed (engine : LearningEngine) : Closed engine engine.restoredMap := by
  simp only [restoredMap]
  split_ifs
  · exact closed_empty engine
  · exact closed_empty engine
  · exact (closed_empty engine).restoredVersions _

section

variable (h : Activated engine artifact recovering grantConsent now state proof engine')
include h

theorem Activated.versions (k : ChallengerSkill) :
    engine'.activeSkillVersions k =
      if k = artifact.skill then some artifact.version
      else if k.index < artifact.skill.index then engine.activeSkillVersions k else none := by
  obtain ⟨states, hsettings⟩ := h.settings
  have hmap : engine'.activeSkillVersions =
      (engine.activeSkillVersions.upstream artifact.skill).set artifact.skill artifact.version := by rw [hsettings]
  rw [hmap]
  split_ifs with hsame hupstream
  · rw [hsame, SkillVersions.set_self]
  · rw [SkillVersions.set_of_ne hsame]
    exact if_pos hupstream
  · rw [SkillVersions.set_of_ne hsame]
    exact if_neg hupstream

theorem Activated.upstreamVersions {k : ChallengerSkill} (hk : k.index ≤ artifact.skill.index) :
    engine'.activeSkillVersions.upstream k = engine.activeSkillVersions.upstream k := by
  apply SkillVersions.upstream_congr
  intro j hj
  have hlt := hj.trans_le hk
  rw [h.versions, if_neg (by rintro rfl; exact Nat.lt_irrefl _ hlt), if_pos hlt]

theorem Activated.restorable_upstream
    {k : ChallengerSkill} (hk : k.index < artifact.skill.index) (restored : SkillVersions) (version : String) :
    engine'.restorable restored k version = engine.restorable restored k version := by
  have hstate := h.upstream k hk
  obtain ⟨states, hsettings⟩ := h.settings
  unfold restorable
  rw [hstate, hsettings]
  rfl

theorem Activated.restorable (hvalid : engine.coveragePolicy.Valid) (hknown : artifact ∈ engine.skillArtifacts)
    (hindependent : engine.independent artifact = true) :
    engine'.restorable (engine.activeSkillVersions.upstream artifact.skill) artifact.skill artifact.version = true := by
  have hproof := h.valid hvalid hknown hindependent
  have hstate := h.published
  obtain ⟨states, hsettings⟩ := h.settings
  have hfound : engine'.artifact? (some artifact.version) = some artifact := by
    apply artifact?_eq_some.mpr
    rw [hsettings]
    exact ⟨hknown, rfl⟩
  have hsuspended : (engine.activatedState state artifact recovering proof now).suspendedVersion ≠ some artifact.version := by
    cases recovering with
    | true => simp [activatedState]
    | false => exact h.unsuspended rfl
  have hreadable : savedMinimum (engine.activatedState state artifact recovering proof now).activationProof.coverage ≠ ⊤ := by
    simp only [validActivationProof, Bool.and_eq_true, decide_eq_true_eq] at hproof
    exact hproof.1.2
  have hsupport : engine.supportCoverageMinimum artifact (engine.activatedState state artifact recovering proof now) ≠ ⊤ := by
    rw [supportCoverageMinimum, ne_eq, max_eq_top]
    refine not_or.mpr ⟨coverageMinimum_ne_top h.eligible, ?_⟩
    split_ifs
    · exact hreadable
    · exact WithTop.zero_ne_top
  unfold LearningEngine.restorable
  rw [hfound, hstate]
  have hstatic : engine'.skillEligible artifact = true ∧ engine'.exitAvailable artifact = true ∧
      engine'.loadable artifact = true ∧
      engine'.supportCoverageMinimum artifact (engine.activatedState state artifact recovering proof now) ≠ ⊤ ∧
      engine'.validActivationProof (engine.activatedState state artifact recovering proof now) artifact
        (engine.activeSkillVersions.upstream artifact.skill) = true := by
    rw [hsettings]
    exact ⟨h.eligible, h.available, h.loadable, hsupport, hproof⟩
  obtain ⟨heligible, havailable, hloadable, hsupport, hproof⟩ := hstatic
  have hdependencies : ChallengerSkill.order.all (fun k =>
      ((engine.activatedState state artifact recovering proof now).activeDependencies k).all fun v =>
        engine.activeSkillVersions.upstream artifact.skill k = some v) = true := by
    rw [all_eq_true]
    intro k _
    show (engine.activeSkillVersions.upstream artifact.skill k).all _ = true
    cases engine.activeSkillVersions.upstream artifact.skill k <;> simp
  have hchampion : (engine.activatedState state artifact recovering proof now).championVersion = some artifact.version :=
    h.champion
  have hactive : (engine.activatedState state artifact recovering proof now).activeVersion = some artifact.version := rfl
  simp only [heligible, havailable, hloadable, hsupport, hproof, hdependencies, hsuspended, hchampion, hactive, ne_eq,
    not_false_eq_true, decide_true, Bool.or_true, Bool.and_self]

end

/-- **An independent activation leaves a receipt that is valid at once, and survives a restart** where
what is upstream does and the root permission is there. Whatever is restored, from whatever was
stored, has its dependencies restored with it. -/
theorem activation_survives_restart (hvalid : engine.coveragePolicy.Valid) (hknown : artifact ∈ engine.skillArtifacts)
    (hindependent : engine.independent artifact = true)
    (h : engine.activateSkill artifact recovering grantConsent reason now = some engine') :
    (∃ state, engine'.currentSkillState artifact.skill = some state ∧
        engine'.validActivationProof state artifact state.activeDependencies = true) ∧
      (engine.autoParticipation = true ∨ (engine'.activeSkillVersions .entry).isSome →
        (∀ k : ChallengerSkill, k.index < artifact.skill.index → ∀ v, engine.activeSkillVersions k = some v →
          engine.restorable (engine.activeSkillVersions.upstream k) k v = true) →
        engine'.restoreActiveSkillVersions.activeSkillVersions = engine'.activeSkillVersions) ∧
      ∀ (stored : LearningEngine) k v, stored.restoreActiveSkillVersions.activeSkillVersions k = some v →
        ∃ state, stored.currentSkillState k = some state ∧
          ∀ dependency w, state.activeDependencies dependency = some w →
            stored.restoreActiveSkillVersions.activeSkillVersions dependency = some w := by
  obtain ⟨state, proof, hactivated⟩ := activateSkill_activated h
  refine ⟨?_, ?_, ?_⟩
  · refine ⟨_, hactivated.published, ?_⟩
    have hproof := hactivated.valid hvalid hknown hindependent
    obtain ⟨states, hsettings⟩ := hactivated.settings
    rw [hsettings]
    exact hproof
  · intro hroot hupstream
    have hall : ∀ k v, engine'.activeSkillVersions k = some v →
        engine'.restorable (engine'.activeSkillVersions.upstream k) k v = true := by
      intro k v hk
      have hversions := hactivated.versions k
      rw [hk] at hversions
      split_ifs at hversions with hsame hlt
      · cases hversions
        rw [hsame, hactivated.upstreamVersions (Nat.le_refl _)]
        exact hactivated.restorable hvalid hknown hindependent
      · rw [hactivated.upstreamVersions hlt.le, hactivated.restorable_upstream hlt]
        exact hupstream k hlt v hversions.symm
    have hmode : engine'.mode = .active := by
      obtain ⟨states, hsettings⟩ := hactivated.settings
      rw [hsettings]
    have hauto : engine'.autoParticipation = engine.autoParticipation := by
      obtain ⟨states, hsettings⟩ := hactivated.settings
      rw [hsettings]
    have hpermitted : ¬ (engine'.autoParticipation = false ∧ engine'.activeSkillVersions .entry = none) := by
      rintro ⟨hoff, hnone⟩
      rw [hauto] at hoff
      rw [hoff, hnone] at hroot
      simp at hroot
    simp only [restoreActiveSkillVersions, restoredMap, hmode, ne_eq, not_true_eq_false, if_false,
      restoredVersions_upstream hall, hpermitted]
  · intro stored k v hk
    have hmap : stored.restoreActiveSkillVersions.activeSkillVersions = stored.restoredMap := by
      unfold restoreActiveSkillVersions
      split_ifs with hmode
      · simp [restoredMap, hmode]
      · rfl
    rw [hmap] at hk ⊢
    obtain ⟨-, state, hstate, hdependencies⟩ := restoredMap_closed stored k v hk
    exact ⟨state, hstate, hdependencies⟩

/-! ### Where a receipt is not enough -/

def doubleCoach : ChallengerSkillArtifact where
  version := "double"
  schemaVersion := "challenger-skill-coach-v1"
  skill := .sizing
  createdAt := 0
  modelFamily := .deterministic
  riskMode := .balanced
  configurationFingerprint := "configuration"
  baselineVersion := "baseline-v1.5"
  featureSchemaVersion := featureSchemaVersion
  parameters := { coachPolicy := some ⟨"sizing_multiplier", some 2, some []⟩ }
  qualified := true

def payloadVeto : ChallengerSkillArtifact where
  version := "payload"
  skill := .manipulation
  createdAt := 0
  modelFamily := .xgboost
  riskMode := .balanced
  configurationFingerprint := "configuration"
  baselineVersion := "baseline-v1.5"
  featureSchemaVersion := featureSchemaVersion
  qualified := true

/-- An episode in which the doubled size earned twice as much. -/
def doubledOutcome (n : ℕ) : LearningEvidenceEpisode where
  episodeId := "e" ++ toString n
  mint := "m" ++ toString n
  createdAt := 10 + n
  entryAt := 10 + n
  qualificationEligible := true
  seasonId := some "season"
  riskMode := .balanced
  configurationFingerprint := some "configuration"
  baselineVersion := "baseline-v1.5"
  baselineAction := .enter
  baselineActionable := true
  features _ := some 0
  challengerEvaluations version :=
    if version = "double" then
      some
        { artifactVersion := "double"
          skill := .sizing
          evaluatedAt := 10 + n
          inDistribution := true
          proposedAction := .number 2
          baselineActionable := true
          parameters := { boundsPolicy := some "sizing-authority-v1", boundedMultiplier := .float 2 } }
    else none
  sizeTrials multiplier :=
    if multiplier = 2 then
      some ⟨some 2, true, fun _ => some { observedAt := 2, netReturn := none, exitValueLamports := some 4, bounded := noReturn_bounded }⟩
    else if multiplier = 1 then
      some ⟨some 1, true, fun _ => some { observedAt := 2, netReturn := none, exitValueLamports := some 2, bounded := noReturn_bounded }⟩
    else none
  checkpoints _ := some (.missing 2)

/-- The trial of a Champion that was suspended, with all outcomes observed. -/
def finishedTrial : Recovery where
  coverage := {}
  policy := recoveryPolicy
  artifactVersion := "double"
  suspendedAt := some 0
  reason := some .degraded
  dependencies := SkillVersions.empty.set .manipulation "payload"
  dependencyEpochs k := if k = .manipulation then some (some 0) else none
  startedAt := 1
  status := .collecting
  rows := (range activeHealthWindow).map fun n =>
    { id := "e" ++ toString n, createdAt := 1, deadline := 2, delta := some (some 1) }

/-- The states: of a Coach crown that joins, or that recovers beside an active skill. -/
def coachStates (recovers : Bool) : List ChallengerSkillState :=
  let cohort : CohortKey := ⟨.balanced, "configuration", "baseline-v1.5", featureSchemaVersion⟩
  if recovers then
    [{ cohortKey := cohort
       skill := .sizing
       championVersion := some "double"
       suspendedVersion := some "double"
       suspensionReason := some .degraded
       suspendedAt := some 0
       activationProof := { recovery := some finishedTrial } },
      { cohortKey := cohort
        skill := .manipulation
        championVersion := some "payload"
        activeVersion := some "payload"
        joinedAt := some 0 }]
  else
    [{ cohortKey := cohort
       skill := .sizing
       championVersion := some "double"
       activationProof :=
         { policy := some coachJoinPolicy
           artifactVersion := some "double"
           dependencies := some .empty
           startedAt := some 1 } }]

/-- The engine they are in. The payload is not there any more. -/
def coachEngine (automatic recovers : Bool) : LearningEngine where
  runtime := ⟨fun _ => none, fun _ => "", fun _ => 0⟩
  coveragePolicy := {}
  currentRiskMode := .balanced
  configurationFingerprint := some "configuration"
  baselineVersion := "baseline-v1.5"
  mode := .active
  consentGranted := true
  autoParticipation := automatic
  skillArtifacts := Table.ofRows [doubleCoach, payloadVeto]
  skillStates := Table.ofRows (coachStates recovers)
  activeSkillVersions := if recovers then SkillVersions.empty.set .manipulation "payload" else .empty
  evidenceEpisodes := Table.ofRows ((range tournamentMinimumCommonOutcomes).map doubledOutcome)

/-- Without the root permission, or beside a skill that is not restored, the skill that was activated
is not restored either. -/
theorem activation_lost_at_restart :
    ((coachEngine false false).activateSkill doubleCoach false false .dependencyActivated 100).map
        (fun engine => (engine.activeSkillVersions .sizing, engine.restoreActiveSkillVersions.activeSkillVersions .sizing)) =
      some (some "double", none) ∧
    ((coachEngine true true).activateSkill doubleCoach true false .dependencyActivated 100).map
        (fun engine => (engine.activeSkillVersions .sizing, engine.restoreActiveSkillVersions.activeSkillVersions .sizing)) =
      some (some "double", none) := by
  constructor <;> decide +kernel

def rootEntry : ChallengerSkillArtifact :=
  { payloadVeto with
    version := "root"
    skill := .entry
    modelFamily := .linear
    hyperparameters := { recipe := [("entry_validation_version", .text entryValidationVersion)] } }

/-- The doubled size earned twice as much beside the active Entry skill, which supported the entry. -/
def supportedOutcome (n : ℕ) : LearningEvidenceEpisode :=
  { doubledOutcome n with
    activeSkillVersions := SkillVersions.empty.set .entry "root"
    challengerEvaluations := fun version =>
      if version = "root" then
        some
          { artifactVersion := "root"
            skill := .entry
            evaluatedAt := 10 + n
            inDistribution := true
            proposedAction := .support
            baselineActionable := true }
      else (doubledOutcome n).challengerEvaluations version }

/-- The engine in which the Coach crown joins beside an active Entry skill. -/
def rootedEngine : LearningEngine :=
  { coachEngine false false with
    skillArtifacts := Table.ofRows [doubleCoach, rootEntry]
    skillStates := Table.ofRows
      ((coachStates false).map (fun state =>
          { state with activationProof := { state.activationProof with
            dependencies := some (SkillVersions.empty.set .entry "root") } }) ++
        [{ cohortKey := ⟨.balanced, "configuration", "baseline-v1.5", featureSchemaVersion⟩
           skill := .entry
           championVersion := some "root"
           activeVersion := some "root"
           joinedAt := some 0 }])
    activeSkillVersions := SkillVersions.empty.set .entry "root"
    evidenceEpisodes := Table.ofRows ((range tournamentMinimumCommonOutcomes).map supportedOutcome) }

/-- Beside an active Entry skill, which is restored, the Coach crown is restored too. -/
theorem activation_survives_restart_coach : ∃ engine',
    rootedEngine.activateSkill doubleCoach false false .dependencyActivated 100 = some engine' ∧
      engine'.activeSkillVersions .entry = some "root" ∧ engine'.activeSkillVersions .sizing = some "double" ∧
      engine'.restoreActiveSkillVersions.activeSkillVersions = engine'.activeSkillVersions := by
  have hactive : (rootedEngine.activateSkill doubleCoach false false .dependencyActivated 100).any fun engine' =>
      engine'.activeSkillVersions .entry = some "root" ∧ engine'.activeSkillVersions .sizing = some "double" := by
    decide +kernel
  obtain ⟨engine', h, hversions⟩ := (Option.any_eq_true _ _).mp hactive
  obtain ⟨hentry, hsizing⟩ := of_decide_eq_true hversions
  have hknown : doubleCoach ∈ rootedEngine.skillArtifacts :=
    (artifact?_eq_some.mp (show rootedEngine.artifact? (some "double") = some doubleCoach by decide +kernel)).1
  have hrestorable : ∀ k ∈ ChallengerSkill.order, (rootedEngine.activeSkillVersions k).all fun v =>
      rootedEngine.restorable (rootedEngine.activeSkillVersions.upstream k) k v = true := by
    decide +kernel
  refine ⟨engine', h, hentry, hsizing, ?_⟩
  refine (activation_survives_restart (by decide) hknown (by decide) h).2.1 (.inr (by rw [hentry]; rfl)) ?_
  intro k _ v hv
  simpa [hv] using hrestorable k (ChallengerSkill.mem_order k)

end LearningEngine

end SignalArcade.Challenger
