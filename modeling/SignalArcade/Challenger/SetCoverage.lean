import SignalArcade.Challenger.Authority
import SignalArcade.Challenger.Health
import SignalArcade.Challenger.RecoveryTrial

/-!
# Changing the coverage policy

`set_coverage_policy` of `learning.py`. Everything is prepared on a copy: what was started under a
less strict requirement is closed, the active skills are checked in their order, and from the first
one that fails on, all lose their authority. The changed states, the map, the mode and the settings
are saved in one transaction, and only then does the engine take them over.
-/

namespace SignalArcade.Challenger

open Paper (Instant)
open Prog Option

/-! ### What is closed -/

def closeTournament (fraction : ℚ) (state : ChallengerSkillState) : ChallengerSkillState :=
  match state.testingVersion with
  | some testing =>
    if savedMinimum state.lastTournament.coverage < (fraction : WithTop ℚ) then
      { state with
        rejectedVersions := (state.rejectedVersions ++ [testing]).rtake maxModelVersions
        lastTournament := { state.lastTournament with result := some .coveragePolicyChanged }
        testingVersion := none }
    else state
  | none => state

/-- Whether a recovery is closed by a requirement. -/
def Recovery.tooLax (fraction : ℚ) (recovery : Recovery) : Bool :=
  (recovery.status = .collecting || recovery.status = .passed) &&
    decide (savedMinimum recovery.coverage < (fraction : WithTop ℚ))

def closeLaxRecovery (fraction : ℚ) (state : ChallengerSkillState) : ChallengerSkillState :=
  match state.activationProof.recovery with
  | some recovery =>
    if recovery.tooLax fraction then LearningEngine.withRecovery state recovery.policyClosed else state
  | none => state

/-- A round of the loop over the states. -/
def closeLax (fraction : ℚ) (state : ChallengerSkillState) : ChallengerSkillState :=
  closeLaxRecovery fraction (closeTournament fraction state)

theorem closeTournament_key (fraction : ℚ) (state : ChallengerSkillState) :
    (closeTournament fraction state).key = state.key := by
  unfold closeTournament
  split
  · split_ifs <;> rfl
  · rfl

theorem closeLax_key (fraction : ℚ) (state : ChallengerSkillState) : (closeLax fraction state).key = state.key := by
  unfold closeLax closeLaxRecovery
  split
  · split_ifs
    · exact closeTournament_key fraction state
    · exact closeTournament_key fraction state
  · exact closeTournament_key fraction state

theorem closeLax_frame (fraction : ℚ) (state : ChallengerSkillState) :
    ∃ rejected tournament testing recovery, closeLax fraction state =
      { state with
        rejectedVersions := rejected
        lastTournament := tournament
        testingVersion := testing
        activationProof := { state.activationProof with recovery := recovery } } := by
  have htournament : ∃ rejected tournament testing, closeTournament fraction state =
      { state with rejectedVersions := rejected, lastTournament := tournament, testingVersion := testing } := by
    unfold closeTournament
    split
    · split_ifs <;> exact ⟨_, _, _, rfl⟩
    · exact ⟨_, _, _, rfl⟩
  obtain ⟨rejected, tournament, testing, htournament⟩ := htournament
  unfold closeLax closeLaxRecovery
  rw [htournament]
  split
  · split_ifs <;> exact ⟨_, _, _, _, rfl⟩
  · exact ⟨_, _, _, _, rfl⟩

/-- A state in which nothing that is going on was started under a less strict requirement. -/
structure ChallengerSkillState.Meets (fraction : ℚ) (state : ChallengerSkillState) : Prop where
  tournament : state.testingVersion.isSome → (fraction : WithTop ℚ) ≤ savedMinimum state.lastTournament.coverage
  recovery : ∀ recovery ∈ state.activationProof.recovery, recovery.status = .collecting ∨ recovery.status = .passed →
    (fraction : WithTop ℚ) ≤ savedMinimum recovery.coverage

theorem closeLax_meets (fraction : ℚ) (state : ChallengerSkillState) : (closeLax fraction state).Meets fraction := by
  have htournament : (closeTournament fraction state).testingVersion.isSome →
      (fraction : WithTop ℚ) ≤ savedMinimum (closeTournament fraction state).lastTournament.coverage := by
    unfold closeTournament
    split
    · split_ifs with hlax
      · simp
      · exact fun _ => not_lt.mp hlax
    · next hnone => simp [hnone]
  have hsame : (closeLax fraction state).testingVersion = (closeTournament fraction state).testingVersion ∧
      (closeLax fraction state).lastTournament = (closeTournament fraction state).lastTournament := by
    unfold closeLax closeLaxRecovery
    split
    · split_ifs <;> exact ⟨rfl, rfl⟩
    · exact ⟨rfl, rfl⟩
  constructor
  case tournament =>
    rw [hsame.1, hsame.2]
    exact htournament
  case recovery =>
    intro recovery hmem hopen
    unfold closeLax closeLaxRecovery at hmem
    split at hmem
    · next found hfound =>
      split_ifs at hmem with hlax
      · cases hmem
        rcases hopen with hopen | hopen <;> cases hopen
      · rw [hfound, mem_some_iff] at hmem
        subst hmem
        have hopen' : (found.status = .collecting || found.status = .passed) = true := by simpa using hopen
        simpa [Recovery.tooLax, hopen'] using hlax
    · next hnone =>
      rw [hnone] at hmem
      cases hmem

theorem closeLax_rejects {fraction : ℚ} {state : ChallengerSkillState} {testing : String}
    (h : state.testingVersion = some testing) (hclosed : (closeLax fraction state).testingVersion = none) :
    testing ∈ (closeLax fraction state).rejectedVersions ∧
      (closeLax fraction state).lastTournament.result = some .coveragePolicyChanged := by
  have hsame : (closeLax fraction state).testingVersion = (closeTournament fraction state).testingVersion ∧
      (closeLax fraction state).rejectedVersions = (closeTournament fraction state).rejectedVersions ∧
      (closeLax fraction state).lastTournament = (closeTournament fraction state).lastTournament := by
    unfold closeLax closeLaxRecovery
    split
    · split_ifs <;> exact ⟨rfl, rfl, rfl⟩
    · exact ⟨rfl, rfl, rfl⟩
  rw [hsame.1] at hclosed
  rw [hsame.2.1, hsame.2.2]
  simp only [closeTournament, h] at hclosed ⊢
  split_ifs at hclosed ⊢
  · refine ⟨?_, rfl⟩
    rw [show maxModelVersions = 999 + 1 from rfl, List.rtake_concat_succ]
    exact List.mem_append_right _ (List.mem_singleton_self _)
  · rw [h] at hclosed
    cases hclosed

/-! ### What is revoked -/

/-- The state of a skill whose active version is removed; it is the first one, or downstream of it. -/
def revokeState (removed : String) (first : Bool) (now : Instant) (state : ChallengerSkillState) : ChallengerSkillState :=
  if first then
    { state with
      activeVersion := none
      activeDependencies := .empty
      suspendedVersion := some removed
      suspendedAt := some now
      suspensionReason := some .coveragePolicyChanged }
  else { state with activeVersion := none, activeDependencies := .empty }

theorem revokeState_key (removed : String) (first : Bool) (now : Instant) (state : ChallengerSkillState) :
    (revokeState removed first now state).key = state.key := by
  cases first <;> rfl

/-- The copy on which a change is prepared, and the states that change. -/
structure CoverageChange where
  staged : LearningEngine
  changed : SkillStates

namespace LearningEngine

variable (engine : LearningEngine)

/-- The copy under the new policy, where what was started under a less strict one is closed. -/
def closedUnder (policy : CoveragePolicy) : CoverageChange where
  staged :=
    { engine with
      coveragePolicy := policy
      coveragePolicyError := false
      skillStates := engine.skillStates.map (closeLax policy.fraction) (closeLax_key _) }
  changed :=
    (engine.skillStates.filter fun state => closeLax policy.fraction state ≠ state).map (closeLax policy.fraction) (closeLax_key _)

/-- Whether an active version passes the check under the policy of the copy. Its health is asked for only
where the requirement is above the one in force. -/
def keeps (staged : LearningEngine) (skill : ChallengerSkill) (version : String) : Bool :=
  (engine.skillArtifacts.get? version).any fun artifact =>
    staged.skillEligible artifact &&
      (decide ((staged.coveragePolicy.fraction : WithTop ℚ) ≤ engine.coverageMinimum artifact) ||
        decide ((staged.skillHealth skill version).state ∉ [HealthState.unverifiable, .degraded, .suspended]))

/-- The first active skill that does not pass. -/
def firstRevoked (staged : LearningEngine) : Option ChallengerSkill :=
  ChallengerSkill.order.find? fun skill => (engine.activeSkillVersions skill).any fun version => !engine.keeps staged skill version

/-- A round of the loop over `order[order.index(skill):]`. -/
def revokeAffected (first : ChallengerSkill) (now : Instant) (change : CoverageChange) (affected : ChallengerSkill) :
    CoverageChange :=
  match engine.activeSkillVersions affected, change.staged.currentSkillState affected with
  | some removed, some state =>
    let revoked := revokeState removed (affected = first) now state
    { staged := change.staged.setState revoked, changed := change.changed.upsert revoked }
  | _, _ => change

/-- `order[order.index(skill):]`. -/
def fromSkill (skill : ChallengerSkill) : List ChallengerSkill := ChallengerSkill.order.filter fun k => skill.index ≤ k.index

/-- What is prepared on the copy. -/
def coverageChange (policy : CoveragePolicy) (now : Instant) : CoverageChange :=
  let change := engine.closedUnder policy
  match engine.firstRevoked change.staged with
  | none => change
  | some first => (fromSkill first).foldl (engine.revokeAffected first now) change

/-- `versions`, at the end. -/
def coverageVersions (policy : CoveragePolicy) : SkillVersions :=
  match engine.firstRevoked (engine.closedUnder policy).staged with
  | none => engine.activeSkillVersions
  | some first => engine.activeSkillVersions.upstream first

def legacyRevoked (staged : LearningEngine) : Bool :=
  engine.activeModel.any fun model =>
    !staged.modelIsEligible model false ||
      (decide (engine.modelCoverageMinimum model < (staged.coveragePolicy.fraction : WithTop ℚ)) &&
        decide (staged.activeModelHealth.state ∈ [HealthState.degraded, .unverifiable]))

/-- The engine after the change. -/
def withCoverage (policy : CoveragePolicy) (now : Instant) : LearningEngine :=
  let change := engine.coverageChange policy now
  let versions := engine.coverageVersions policy
  let revoked := engine.legacyRevoked change.staged
  { engine with
    coveragePolicy := policy
    coveragePolicyError := false
    skillStates := engine.skillStates.update change.changed
    activeSkillVersions := versions
    disabledModelVersions :=
      if revoked then engine.disabledModelVersions ∪ (engine.activeModel.map LearningModel.version).toList
      else engine.disabledModelVersions
    mode :=
      if engine.mode = .active ∧ versions.nonempty = false ∧ (engine.activeModel = none ∨ revoked = true) then .shadow
      else engine.mode
    activeModel := if revoked then none else engine.activeModel }

/-- What is saved. -/
def coverageUpdate (policy : CoveragePolicy) (now : Instant) : AuthorityUpdate :=
  let change := engine.coverageChange policy now
  let revoked := engine.legacyRevoked change.staged
  { states := change.changed.rows
    versions := engine.coverageVersions policy
    mode := some (engine.withCoverage policy now).mode
    clearLegacyModel := revoked
    coveragePolicy := some policy.record
    disabledLearningModels := if revoked then some (engine.withCoverage policy now).disabledModelVersions else none }

end LearningEngine

/-! ### The operation -/

/-- `percent`, if it is one of the percentages. -/
def acceptedPercent : Value → Option ℕ
  | .int n => if 0 ≤ n ∧ n.toNat ∈ percentages then some n.toNat else none
  | _ => none

/-- What is to be saved is saved before memory changes. -/
def setCoveragePolicy (percent expectedRevision : Value) (now : Instant) : Authority Unit := do
  let world ← get
  match acceptedPercent percent with
  | none => throw (.value "coverage must be 70, 65, 60 or 55 percent")
  | some percent =>
    if expectedRevision ≠ .int world.engine.coveragePolicy.revision then
      throw (.value "coverage settings changed; refresh before saving")
    else if percent = world.engine.coveragePolicy.percent ∧ world.engine.coveragePolicyError = false then
      return
    else
      Authority.persistRevokedAuthority
      let policy : CoveragePolicy :=
        { percent := percent, revision := world.engine.coveragePolicy.revision + 1, effectiveAt := some now }
      Authority.saveChallengerAuthority (world.engine.coverageUpdate policy now)
      modify fun after => { after with engine := world.engine.withCoverage policy now }

/-! ### What a state becomes -/

section

variable {engine : LearningEngine} {policy : CoveragePolicy} {now : Instant} {key : SkillKey} {state state' : ChallengerSkillState}

namespace LearningEngine

def revised (engine : LearningEngine) (policy : CoveragePolicy) (now : Instant) (state : ChallengerSkillState) :
    ChallengerSkillState :=
  let closed := closeLax policy.fraction state
  match engine.firstRevoked (engine.closedUnder policy).staged, engine.activeSkillVersions state.skill with
  | some first, some removed =>
    if engine.currentCohortKey = some state.cohortKey ∧ first.index ≤ state.skill.index then
      revokeState removed (state.skill = first) now closed
    else closed
  | _, _ => closed

theorem mem_fromSkill {first skill : ChallengerSkill} : skill ∈ fromSkill first ↔ first.index ≤ skill.index := by
  simp [fromSkill]

theorem fromSkill_nodup (first : ChallengerSkill) : (fromSkill first).Nodup := ChallengerSkill.order_nodup.filter _

/-- What is staged are the changed states over the old. -/
def CoverageChange.Overlays (change : CoverageChange) (engine : LearningEngine) : Prop :=
  ∀ key, change.staged.skillStates.get? key = (change.changed.get? key <|> engine.skillStates.get? key)

theorem closedUnder_overlays (engine : LearningEngine) (policy : CoveragePolicy) :
    CoverageChange.Overlays (engine.closedUnder policy) engine := by
  intro key
  simp only [closedUnder, Table.get?_map, Table.get?_filter]
  cases hstate : engine.skillStates.get? key with
  | none => rfl
  | some state =>
    by_cases hsame : closeLax policy.fraction state = state
    · rw [filter_some_neg (by simpa using hsame)]
      exact congrArg some hsame
    · rw [filter_some_pos (by simpa using hsame)]
      rfl

theorem get?_revokeAffected (engine : LearningEngine) (first affected : ChallengerSkill) (now : Instant)
    (change : CoverageChange) (key : SkillKey) :
    (engine.revokeAffected first now change affected).staged.skillStates.get? key =
      if change.staged.currentCohortKey = some key.1 ∧ key.2 = affected then
        (change.staged.skillStates.get? key).map fun state =>
          (engine.activeSkillVersions affected).elim state fun removed => revokeState removed (affected = first) now state
      else change.staged.skillStates.get? key := by
  unfold revokeAffected
  split
  · next removed state hremoved hstate =>
    obtain ⟨hmem, hcohort, hskill⟩ := currentSkillState_eq_some.mp hstate
    have hrow : change.staged.skillStates.get? state.key = some state := Table.get?_eq_some.mpr ⟨hmem, rfl⟩
    show (change.staged.skillStates.upsert _).get? key = _
    rw [Table.get?_upsert, revokeState_key, hremoved]
    by_cases hkey : key = state.key
    · subst hkey
      rw [if_pos rfl, if_pos ⟨hcohort, hskill⟩, hrow]
      rfl
    · rw [if_neg hkey, if_neg]
      rintro ⟨hcohort', rfl⟩
      rw [hcohort, some_inj] at hcohort'
      exact hkey (Prod.ext hcohort'.symm hskill.symm)
  · next hnone =>
    split_ifs with h
    · obtain ⟨hcohort, rfl⟩ := h
      cases hversion : engine.activeSkillVersions key.2 with
      | none => simp
      | some removed =>
        -- there is no state
        have hstate : change.staged.currentSkillState key.2 = none := by
          cases hstate : change.staged.currentSkillState key.2 with
          | none => rfl
          | some state => exact absurd hstate (hnone removed state hversion)
        have hnothing : change.staged.skillStates.get? key = none := by
          rw [currentSkillState, hcohort] at hstate
          exact hstate
        rw [hnothing]
        rfl
    · rfl

theorem revokeAffected_overlays {first affected : ChallengerSkill} {change : CoverageChange} (base : LearningEngine)
    (h : CoverageChange.Overlays change base) :
    CoverageChange.Overlays (engine.revokeAffected first now change affected) base := by
  unfold revokeAffected
  split
  · next removed state _ _ =>
    intro key
    show (change.staged.skillStates.upsert _).get? key = ((change.changed.upsert _).get? key <|> _)
    rw [Table.get?_upsert, Table.get?_upsert]
    split_ifs
    · rfl
    · exact h key
  · exact h

theorem revokeAffected_cohort (first affected : ChallengerSkill) (change : CoverageChange) :
    (engine.revokeAffected first now change affected).staged.currentCohortKey = change.staged.currentCohortKey := by
  unfold revokeAffected
  split <;> rfl

theorem get?_foldl_revokeAffected (first : ChallengerSkill) {skills : List ChallengerSkill} (hnodup : skills.Nodup)
    (change : CoverageChange) (key : SkillKey) :
    (skills.foldl (engine.revokeAffected first now) change).staged.skillStates.get? key =
      if change.staged.currentCohortKey = some key.1 ∧ key.2 ∈ skills then
        (change.staged.skillStates.get? key).map fun state =>
          (engine.activeSkillVersions key.2).elim state fun removed => revokeState removed (key.2 = first) now state
      else change.staged.skillStates.get? key := by
  induction skills generalizing change with
  | nil => simp
  | cons skill skills ih =>
    rw [List.nodup_cons] at hnodup
    rw [List.foldl_cons, ih hnodup.2, revokeAffected_cohort, get?_revokeAffected]
    by_cases hcohort : change.staged.currentCohortKey = some key.1
    · by_cases hskill : key.2 = skill
      · subst hskill
        simp [hcohort, hnodup.1]
      · simp [hcohort, hskill]
    · simp [hcohort]

/-- **What a state becomes.** -/
theorem get?_withCoverage (engine : LearningEngine) (policy : CoveragePolicy) (now : Instant) (key : SkillKey) :
    (engine.withCoverage policy now).skillStates.get? key = (engine.skillStates.get? key).map (engine.revised policy now) := by
  have hoverlay : CoverageChange.Overlays (engine.coverageChange policy now) engine := by
    unfold coverageChange
    dsimp only
    split
    · exact closedUnder_overlays engine policy
    · next first _ =>
      suffices ∀ (skills : List ChallengerSkill) (change : CoverageChange), CoverageChange.Overlays change engine →
          CoverageChange.Overlays (skills.foldl (engine.revokeAffected first now) change) engine from
        this _ _ (closedUnder_overlays engine policy)
      intro skills
      induction skills with
      | nil => exact fun change h => h
      | cons skill skills ih => exact fun change h => ih _ (revokeAffected_overlays engine h)
  have hclosed : ∀ key, (engine.closedUnder policy).staged.skillStates.get? key =
      (engine.skillStates.get? key).map (closeLax policy.fraction) := fun key => Table.get?_map _ (closeLax_key _) key
  show (engine.skillStates.update (engine.coverageChange policy now).changed).get? key = _
  rw [Table.get?_update, ← hoverlay key]
  unfold coverageChange
  dsimp only
  cases hfirst : engine.firstRevoked (engine.closedUnder policy).staged with
  | none =>
    rw [hclosed]
    congr 1
    funext state
    simp only [revised, hfirst]
  | some first =>
    dsimp only
    rw [get?_foldl_revokeAffected first (fromSkill_nodup first), hclosed]
    cases hstate : engine.skillStates.get? key with
    | none => simp
    | some state =>
      obtain ⟨-, rfl⟩ := Table.get?_eq_some.mp hstate
      have hcohort : (engine.closedUnder policy).staged.currentCohortKey = engine.currentCohortKey := rfl
      simp only [revised, hfirst, hcohort, map_some, mem_fromSkill, ChallengerSkillState.key]
      cases hversion : engine.activeSkillVersions state.skill with
      | none => simp
      | some removed =>
        by_cases h : engine.currentCohortKey = some state.cohortKey ∧ first.index ≤ state.skill.index
        · rw [if_pos h]
          exact congrArg some (if_pos h).symm
        · rw [if_neg h]
          exact congrArg some (if_neg h).symm

/-! ### Who stays active -/

variable {skill : ChallengerSkill} {version : String} {first : ChallengerSkill}

theorem coverageVersions_eq_some (h : engine.coverageVersions policy skill = some version) :
    engine.activeSkillVersions skill = some version ∧
      (∀ first ∈ engine.firstRevoked (engine.closedUnder policy).staged, skill.index < first.index) ∧
      engine.keeps (engine.closedUnder policy).staged skill version = true := by
  unfold coverageVersions at h
  cases hfirst : engine.firstRevoked (engine.closedUnder policy).staged with
  | none =>
    rw [hfirst] at h
    refine ⟨h, by simp, ?_⟩
    have hpasses := List.find?_eq_none.mp hfirst skill (ChallengerSkill.mem_order skill)
    have h' : engine.activeSkillVersions skill = some version := h
    simpa [h'] using hpasses
  | some first =>
    rw [hfirst] at h
    obtain ⟨hlt, hversion⟩ := SkillVersions.upstream_apply.mp h
    refine ⟨hversion, ?_, ?_⟩
    · rintro found hfound
      cases hfound
      exact hlt
    · simpa [hversion] using ChallengerSkill.not_of_find?_order hfirst hlt

theorem coverageVersions_eq_none (hactive : (engine.activeSkillVersions skill).isSome)
    (h : engine.coverageVersions policy skill = none) :
    ∃ first, engine.firstRevoked (engine.closedUnder policy).staged = some first ∧ first.index ≤ skill.index := by
  unfold coverageVersions at h
  cases hfirst : engine.firstRevoked (engine.closedUnder policy).staged with
  | none =>
    rw [hfirst] at h
    rw [show engine.activeSkillVersions skill = none from h] at hactive
    cases hactive
  | some first =>
    rw [hfirst] at h
    refine ⟨first, rfl, ?_⟩
    by_contra hlt
    obtain ⟨version, hversion⟩ := isSome_iff_exists.mp hactive
    have hkept := SkillVersions.upstream_apply.mpr ⟨not_le.mp hlt, hversion⟩
    rw [show engine.activeSkillVersions.upstream first skill = none from h] at hkept
    cases hkept

theorem coverageVersions_of_le (hfirst : engine.firstRevoked (engine.closedUnder policy).staged = some first)
    (hle : first.index ≤ skill.index) : engine.coverageVersions policy skill = none := by
  unfold coverageVersions
  rw [hfirst]
  exact if_neg (not_lt.mpr hle)

theorem skillHealth_withCoverage (h : engine.coverageVersions policy skill = some version) :
    (engine.withCoverage policy now).skillHealth skill version =
      (engine.closedUnder policy).staged.skillHealth skill version := by
  obtain ⟨-, hbefore, -⟩ := coverageVersions_eq_some h
  apply skillHealth_congr
  case hstate =>
    show engine.currentCohortKey.bind (fun cohort => (engine.withCoverage policy now).skillStates.get? (cohort, skill)) =
      engine.currentCohortKey.bind fun cohort => (engine.closedUnder policy).staged.skillStates.get? (cohort, skill)
    congr 1
    funext cohort
    rw [get?_withCoverage, show (engine.closedUnder policy).staged.skillStates.get? (cohort, skill) = _ from
      Table.get?_map _ (closeLax_key _) _]
    cases hstate : engine.skillStates.get? (cohort, skill) with
    | none => rfl
    | some state =>
      have hskill : state.skill = skill := congrArg Prod.snd (Table.get?_eq_some.mp hstate).2
      simp only [map_some, some_inj, revised, hskill]
      split
      · next first removed hfirst _ =>
        rw [if_neg]
        rintro ⟨-, hle⟩
        exact absurd (hbefore first hfirst) (not_lt.mpr hle)
      · rfl
  case hupstream =>
    apply SkillVersions.upstream_congr
    intro k hk
    show engine.coverageVersions policy k = engine.activeSkillVersions k
    unfold coverageVersions
    cases hfirst : engine.firstRevoked (engine.closedUnder policy).staged with
    | none => rfl
    | some first => exact if_pos (hk.trans (hbefore first hfirst))
  all_goals rfl

theorem revised_cases (engine : LearningEngine) (policy : CoveragePolicy) (now : Instant) (state : ChallengerSkillState) :
    (engine.revised policy now state = closeLax policy.fraction state ∧
      (engine.currentCohortKey = some state.cohortKey → (engine.activeSkillVersions state.skill).isSome →
        (engine.coverageVersions policy state.skill).isSome)) ∨
      ∃ removed first, engine.currentCohortKey = some state.cohortKey ∧
        engine.activeSkillVersions state.skill = some removed ∧ engine.coverageVersions policy state.skill = none ∧
        engine.revised policy now state = revokeState removed first now (closeLax policy.fraction state) := by
  unfold revised
  dsimp only
  split
  · next first removed hfirst hremoved =>
    split_ifs with h
    · exact .inr ⟨removed, _, h.1, hremoved, coverageVersions_of_le hfirst h.2, rfl⟩
    · refine .inl ⟨rfl, fun hcohort hactive => ?_⟩
      rw [isSome_iff_ne_none]
      intro hnone
      obtain ⟨found, hfound, hle⟩ := coverageVersions_eq_none hactive hnone
      rw [hfirst] at hfound
      cases hfound
      exact h ⟨hcohort, hle⟩
  · next hnot =>
    refine .inl ⟨rfl, fun _ hactive => ?_⟩
    rw [isSome_iff_ne_none]
    intro hnone
    obtain ⟨found, hfound, -⟩ := coverageVersions_eq_none hactive hnone
    obtain ⟨removed, hremoved⟩ := isSome_iff_exists.mp hactive
    exact hnot found removed hfound hremoved

end LearningEngine

end

/-! ### What a change comes to -/

/-- What the database has saved is what is in memory. -/
structure SavedAuthority.Agrees (saved : SavedAuthority) (engine : LearningEngine) : Prop where
  coveragePolicy : engine.coveragePolicyError = false → readPolicy saved.coveragePolicy = some engine.coveragePolicy
  states : ∀ key, saved.states.get? key = engine.skillStates.get? key
  activeSkillVersions : saved.activeSkillVersions = engine.activeSkillVersions
  mode : saved.mode = engine.mode
  activeModel : saved.activeLearningModel = engine.activeModel.map LearningModel.version
  disabledModels : saved.disabledLearningModels = engine.disabledModelVersions

/-- What becomes of a state when the policy changes from one engine to the other. -/
structure Tightened (before after : LearningEngine) (now : Instant) (state state' : ChallengerSkillState) : Prop where
  /-- Nothing that is going on was started under a less strict requirement. -/
  meets : state'.Meets after.coveragePolicy.fraction
  rejects : ∀ testing ∈ state.testingVersion, state'.testingVersion = none →
    testing ∈ state'.rejectedVersions ∧ state'.lastTournament.result = some .coveragePolicyChanged
  champion : state'.championVersion = state.championVersion
  candidates : state'.latestCandidateVersion = state.latestCandidateVersion ∧ state'.pendingVersions = state.pendingVersions
  active : state'.activeVersion = state.activeVersion ∨ state'.activeVersion = none
  /-- A suspension stays, unless the skill is revoked and it becomes that of the version removed. -/
  suspension : state'.suspension = state.suspension ∨
    before.currentCohortKey = some state.cohortKey ∧ after.activeSkillVersions state.skill = none ∧
      ∃ removed, before.activeSkillVersions state.skill = some removed ∧
        state'.suspension = (state.championVersion, some removed, some .coveragePolicyChanged, some now)
  revoked : before.currentCohortKey = some state.cohortKey → (before.activeSkillVersions state.skill).isSome →
    after.activeSkillVersions state.skill = none → state'.activeVersion = none ∧ state'.activeDependencies = .empty

/-- A change of the policy that succeeded. -/
structure CoverageChanged (before after : AuthorityWorld) (percent : ℕ) (now : Instant) : Prop where
  policy : after.engine.coveragePolicy = ⟨percent, before.engine.coveragePolicy.revision + 1, some now⟩ ∧
    after.engine.coveragePolicyError = false
  /-- What was committed is what is in memory, and so is everything else, if it was before. -/
  committed : after.saved.coveragePolicy = after.engine.coveragePolicy.record ∧
    after.saved.activeSkillVersions = after.engine.activeSkillVersions ∧ after.saved.mode = after.engine.mode ∧
    ∀ key, after.engine.skillStates.get? key ≠ before.engine.skillStates.get? key →
      after.saved.states.get? key = after.engine.skillStates.get? key
  agrees : before.settled.saved.Agrees before.engine → after.saved.Agrees after.engine
  pending : after.pending.rows = []
  /-- Every skill that is active is eligible, and where the requirement is above the one it was active under,
  its health was found to hold. -/
  eligible : ∀ skill version, after.engine.activeSkillVersions skill = some version →
    ∃ artifact, after.engine.skillArtifacts.get? version = some artifact ∧ after.engine.skillEligible artifact = true ∧
      (before.engine.coverageMinimum artifact < (after.engine.coveragePolicy.fraction : WithTop ℚ) →
        (after.engine.skillHealth skill version).state ∉ [HealthState.unverifiable, .degraded, .suspended])
  remains : ∀ skill version, after.engine.activeSkillVersions skill = some version →
    before.engine.activeSkillVersions skill = some version
  downstream : ∀ skill k : ChallengerSkill, (before.engine.activeSkillVersions skill).isSome →
    after.engine.activeSkillVersions skill = none → skill.index ≤ k.index → after.engine.activeSkillVersions k = none
  states : ∀ key, Option.Rel (Tightened before.engine after.engine now) (before.engine.skillStates.get? key)
    (after.engine.skillStates.get? key)
  /-- No candidate becomes qualified: the artifacts are what they were. -/
  artifacts : after.engine.skillArtifacts = before.engine.skillArtifacts

namespace LearningEngine

variable {engine : LearningEngine} {policy : CoveragePolicy} {now : Instant}

theorem revised_tightened (engine : LearningEngine) (policy : CoveragePolicy) (now : Instant) (state : ChallengerSkillState) :
    Tightened engine (engine.withCoverage policy now) now state (engine.revised policy now state) := by
  have hmeets := closeLax_meets policy.fraction state
  have hrejects := @closeLax_rejects policy.fraction state
  obtain ⟨rejected, tournament, testing, recovery, hclosed⟩ := closeLax_frame policy.fraction state
  rcases revised_cases engine policy now state with ⟨hstate, hactive⟩ | ⟨removed, first, hcohort, hremoved, hnone, hstate⟩
  · rw [hstate]
    rw [hclosed] at hmeets hrejects ⊢
    constructor
    case meets => exact hmeets
    case rejects => exact fun candidate hcandidate => hrejects hcandidate
    case champion => rfl
    case candidates => exact ⟨rfl, rfl⟩
    case active => exact .inl rfl
    case suspension => exact .inl rfl
    case revoked =>
      intro hcohort hbefore hafter
      have hkept := hactive hcohort hbefore
      rw [show engine.coverageVersions policy state.skill = none from hafter] at hkept
      cases hkept
  · rw [hstate]
    rw [hclosed] at hmeets hrejects ⊢
    cases first with
    | true =>
      constructor
      case meets => exact ⟨hmeets.tournament, hmeets.recovery⟩
      case rejects => exact fun candidate hcandidate => hrejects hcandidate
      case champion => rfl
      case candidates => exact ⟨rfl, rfl⟩
      case active => exact .inr rfl
      case suspension => exact .inr ⟨hcohort, hnone, removed, hremoved, rfl⟩
      case revoked => exact fun _ _ _ => ⟨rfl, rfl⟩
    | false =>
      constructor
      case meets => exact ⟨hmeets.tournament, hmeets.recovery⟩
      case rejects => exact fun candidate hcandidate => hrejects hcandidate
      case champion => rfl
      case candidates => exact ⟨rfl, rfl⟩
      case active => exact .inr rfl
      case suspension => exact .inl rfl
      case revoked => exact fun _ _ _ => ⟨rfl, rfl⟩

theorem get?_coverageUpdate (engine : LearningEngine) (policy : CoveragePolicy) (now : Instant) (saved : SkillStates)
    (key : SkillKey) :
    ((engine.coverageUpdate policy now).states.foldl Table.upsert saved).get? key =
        (engine.withCoverage policy now).skillStates.get? key ∨
      ((engine.coverageUpdate policy now).states.foldl Table.upsert saved).get? key = saved.get? key ∧
        (engine.withCoverage policy now).skillStates.get? key = engine.skillStates.get? key := by
  show (saved.update (engine.coverageChange policy now).changed).get? key =
      (engine.skillStates.update (engine.coverageChange policy now).changed).get? key ∨
    (saved.update (engine.coverageChange policy now).changed).get? key = saved.get? key ∧
      (engine.skillStates.update (engine.coverageChange policy now).changed).get? key = engine.skillStates.get? key
  simp only [Table.get?_update]
  cases (engine.coverageChange policy now).changed.get? key with
  | none => exact .inr ⟨rfl, rfl⟩
  | some state => exact .inl rfl

end LearningEngine

variable {world : AuthorityWorld} {percent : ℕ} {now : Instant}

/-- What the change comes to where no write raises. -/
theorem coverageChanged (hpercent : percent ∈ percentages) (policy : CoveragePolicy)
    (hpolicy : policy = ⟨percent, world.engine.coveragePolicy.revision + 1, some now⟩) :
    CoverageChanged world
      { world.settled.written (SavedAuthority.save · (world.engine.coverageUpdate policy now)) with
        engine := world.engine.withCoverage policy now } percent now := by
  have hvalid : policy.Valid := by
    rw [hpolicy]
    exact ⟨hpercent, fun h => absurd h (Nat.succ_ne_zero _), fun _ => rfl⟩
  have hstates := world.engine.get?_coverageUpdate policy now world.settled.saved.states
  constructor
  case policy => exact ⟨hpolicy, rfl⟩
  case committed =>
    refine ⟨rfl, rfl, rfl, fun key hchanged => ?_⟩
    exact (hstates key).resolve_right fun hsame => hchanged hsame.2
  case agrees =>
    intro hagrees
    constructor
    case coveragePolicy => exact fun _ => readPolicy_record hvalid
    case states =>
      intro key
      rcases hstates key with hsaved | ⟨hsaved, hsame⟩
      · exact hsaved
      · exact hsaved.trans ((hagrees.states key).trans hsame.symm)
    case activeSkillVersions => rfl
    case mode => rfl
    case activeModel =>
      show (if world.engine.legacyRevoked _ then none else world.settled.saved.activeLearningModel) =
        Option.map _ (if world.engine.legacyRevoked _ then none else world.engine.activeModel)
      rw [hagrees.activeModel]
      split_ifs <;> rfl
    case disabledModels =>
      show (if world.engine.legacyRevoked _ then some (world.engine.withCoverage policy now).disabledModelVersions
        else none).getD world.settled.saved.disabledLearningModels = (world.engine.withCoverage policy now).disabledModelVersions
      rw [hagrees.disabledModels]
      split_ifs with hrevoked
      · rfl
      · exact (if_neg hrevoked).symm
  case pending => exact world.settled_pending
  case eligible =>
    intro skill version hversion
    obtain ⟨-, -, hkeeps⟩ := LearningEngine.coverageVersions_eq_some hversion
    obtain ⟨artifact, hartifact, hpasses⟩ := (any_eq_true _ _).mp hkeeps
    simp only [Bool.and_eq_true, Bool.or_eq_true, decide_eq_true_eq] at hpasses
    refine ⟨artifact, hartifact, hpasses.1, fun hstricter => ?_⟩
    have hhealth := hpasses.2.resolve_left (not_le.mpr hstricter)
    exact (LearningEngine.skillHealth_withCoverage hversion).symm ▸ hhealth
  case remains => exact fun skill version hversion => (LearningEngine.coverageVersions_eq_some hversion).1
  case downstream =>
    intro skill k hactive hnone hle
    obtain ⟨first, hfirst, hbefore⟩ := LearningEngine.coverageVersions_eq_none hactive hnone
    exact LearningEngine.coverageVersions_of_le hfirst (hbefore.trans hle)
  case states =>
    intro key
    show Option.Rel _ _ ((world.engine.withCoverage policy now).skillStates.get? key)
    rw [LearningEngine.get?_withCoverage]
    cases world.engine.skillStates.get? key with
    | none => exact .none
    | some state => exact .some (world.engine.revised_tightened policy now state)
  case artifacts => rfl

/-- What a call that raises may have done: it persisted the revocations that were pending. -/
def CoverageRefused (before after : AuthorityWorld) : Prop :=
  after.engine = before.engine ∧
    (after.pending = before.pending ∧ after.saved = before.saved ∨
      before.pending.rows ≠ [] ∧ after.pending.rows = [] ∧ after.saved = before.settled.saved)

/-- **A change of the coverage policy happens as a whole or not at all**, whichever write raises. -/
theorem setCoveragePolicy_atomic (percent expectedRevision : Value) (now : Instant) (world : AuthorityWorld) :
    Wp (setCoveragePolicy percent expectedRevision now)
      (fun _ after => ∃ n : ℕ, percent = .int n ∧ n ∈ percentages ∧
        (after = world ∧ n = world.engine.coveragePolicy.percent ∧ world.engine.coveragePolicyError = false ∨
          CoverageChanged world after n now))
      (fun _ after => CoverageRefused world after) world := by
  have hunchanged : CoverageRefused world world := ⟨rfl, .inl ⟨rfl, rfl⟩⟩
  unfold setCoveragePolicy
  rw [wp_bind, wp_get]
  cases hpercent : acceptedPercent percent with
  | none => exact hunchanged
  | some n =>
    obtain ⟨hint, hmem⟩ : percent = .int n ∧ n ∈ percentages := by
      cases percent with
      | int k =>
        simp only [acceptedPercent] at hpercent
        split_ifs at hpercent with h
        cases hpercent
        exact ⟨by rw [Int.toNat_of_nonneg h.1], h.2⟩
      | _ => cases hpercent
    dsimp only
    rw [wp_ite]
    refine ⟨fun _ => hunchanged, fun _ => ?_⟩
    rw [wp_ite]
    refine ⟨fun hsame => ⟨n, hint, hmem, .inl ⟨rfl, hsame⟩⟩, fun _ => ?_⟩
    rw [wp_bind, Authority.wp_persistRevokedAuthority]
    refine ⟨fun _ _ => ⟨rfl, .inl ⟨rfl, rfl⟩⟩, fun _ => ?_⟩
    rw [wp_bind, Authority.wp_saveChallengerAuthority]
    constructor
    · intro _
      refine ⟨world.settled_engine, ?_⟩
      by_cases hpending : world.pending.rows = []
      · left
        simp [AuthorityWorld.failed, AuthorityWorld.settled, hpending]
      · exact .inr ⟨hpending, world.settled_pending, rfl⟩
    · intro _
      rw [wp_modify]
      exact ⟨n, hint, hmem, .inr (coverageChanged hmem _ rfl)⟩

/-! ### What a change does not do -/

open LearningEngine (doublingArtifact doublingEngine doublingState)

/-- The sizing skill, active, with a suspension of an earlier Champion if there is one. -/
def activeSizing (version : String) (suspended : Option String) : ChallengerSkillState :=
  { doublingState with
    championVersion := some version
    activeVersion := some version
    suspendedVersion := suspended
    activationProof := {} }

/-- An entry whose outcome is known, without the receipt of the skill that was active. -/
def unreceived (n : ℕ) : LearningEvidenceEpisode where
  episodeId := "u" ++ toString n
  mint := "mint" ++ toString n
  createdAt := n
  entryAt := n
  qualificationEligible := true
  seasonId := some "season"
  riskMode := .balanced
  configurationFingerprint := some "configuration"
  baselineVersion := "baseline-v1.5"
  baselineAction := .enter
  baselineActionable := true
  features := fun _ => some 0
  activeSkillVersions := SkillVersions.empty.set .sizing "doubling"
  checkpoints _ := some (.missing 0)

def sizingEngine (version : String) (suspended : Option String) : LearningEngine :=
  { doublingEngine 4 with
    autoParticipation := false
    skillStates := Table.ofRows [activeSizing version suspended]
    activeSkillVersions := SkillVersions.empty.set .sizing version
    evidenceEpisodes := Table.ofRows ((List.range activeHealthMinimumSamples).map unreceived)
    policyIdentities := fun _ => none }

/-- The engine beside a database that has saved it. -/
def sizingWorld (engine : LearningEngine) (pending : SkillStates) (faults : List Bool) : AuthorityWorld where
  engine := engine
  pending := pending
  saved :=
    { coveragePolicy := engine.coveragePolicy.record
      states := Table.ofRows [activeSizing "doubling" none]
      activeSkillVersions := SkillVersions.empty.set .sizing "doubling"
      mode := .active
      consentGranted := true
      activeLearningModel := none
      disabledLearningModels := [] }
  faults := faults

/-- The requirement is lowered to 65 percent. -/
def lowered (world : AuthorityWorld) : AuthorityWorld := after (setCoveragePolicy (.int 65) (.int 0) 9) world

/-- A change that raises has persisted a revocation that was pending. -/
def revocationPending : AuthorityWorld :=
  sizingWorld { sizingEngine "doubling" none with activeSkillVersions := .empty }
    (Table.ofRows [{ activeSizing "doubling" none with activeVersion := none }]) [false, true]

/-- A call that raises changes the database by what was pending; one that lowers the requirement leaves a
skill active that is unverifiable, and where it revokes a skill of which an earlier version is suspended,
the suspension becomes that of the version removed. -/
theorem coverage_change_departs :
    Wp (setCoveragePolicy (.int 65) (.int 0) 9) (fun _ _ => False)
        (fun _ after => after.saved.activeSkillVersions ≠ revocationPending.saved.activeSkillVersions) revocationPending ∧
      (lowered (sizingWorld (sizingEngine "doubling" none) .empty [])).engine.coveragePolicy.percent = 65 ∧
      (lowered (sizingWorld (sizingEngine "doubling" none) .empty [])).engine.activeSkillVersions .sizing = some "doubling" ∧
      ((lowered (sizingWorld (sizingEngine "doubling" none) .empty [])).engine.skillHealth .sizing "doubling").state =
        .unverifiable ∧
      ((lowered (sizingWorld (sizingEngine "lost" (some "earlier")) .empty [])).engine.currentSkillState .sizing).map
        (fun state => state.suspendedVersion) = some (some "lost") := by
  refine ⟨?_, ?_, ?_, ?_, ?_⟩ <;> decide +kernel

end SignalArcade.Challenger
