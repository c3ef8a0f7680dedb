import SignalArcade.Challenger.ActivationReceipts

/-!
# What authority leaves alone

The operations on authority write several states. Of each state they change a few fields; what is a
function of the other fields is the same after them. `SameAt key f` says so of the state under a key.
-/

namespace SignalArcade.Challenger

open Paper (Instant)

namespace LearningEngine

section

variable {α : Type} {key : SkillKey} {f : ChallengerSkillState → α} {engine engine' engine'' : LearningEngine}
  {state : ChallengerSkillState} {artifact : ChallengerSkillArtifact} {now : Instant}

/-- The state under the key has the same `f`, or there is none before and after. -/
def SameAt (key : SkillKey) (f : ChallengerSkillState → α) (engine engine' : LearningEngine) : Prop :=
  (engine'.skillStates.get? key).map f = (engine.skillStates.get? key).map f

theorem SameAt.refl (key : SkillKey) (f : ChallengerSkillState → α) (engine : LearningEngine) : SameAt key f engine engine := rfl

theorem SameAt.trans (h : SameAt key f engine engine') (h' : SameAt key f engine' engine'') : SameAt key f engine engine'' :=
  Eq.trans h' h

/-- A state that is written under another key, or has the same `f`. -/
theorem SameAt.setState (h : state.key = key → (engine.skillStates.get? key).map f = some (f state)) :
    SameAt key f engine (engine.setState state) := by
  show ((engine.skillStates.upsert state).get? key).map f = _
  rw [Table.get?_upsert]
  split_ifs with hkey
  · exact (h hkey.symm).symm
  · rfl

variable {skill : ChallengerSkill}

theorem get?_of_currentSkillState (h : engine.currentSkillState skill = some state) :
    engine.skillStates.get? state.key = some state :=
  Table.get?_eq_some.mpr ⟨(currentSkillState_eq_some.mp h).1, rfl⟩

/-- The state of a skill replaced by one with the same `f`. -/
theorem SameAt.setState_current {state' : ChallengerSkillState}
    (hstate : engine.currentSkillState skill = some state) (hkey : state'.key = state.key) (hf : state.key = key → f state' = f state) :
    SameAt key f engine (engine.setState state') := by
  apply SameAt.setState
  intro hat
  rw [hkey] at hat
  rw [hf hat, ← hat, get?_of_currentSkillState hstate]
  rfl

theorem deactivateSkills_sameAt {result : TournamentResult} {dependency : ChallengerSkill}
    (hf : ∀ s, f (deactivated s result dependency) = f s) (skills : List ChallengerSkill) (engine : LearningEngine) :
    SameAt key f engine (engine.deactivateSkills result dependency skills) := by
  induction skills generalizing engine with
  | nil => exact .refl _ _ _
  | cons skill skills ih =>
    refine SameAt.trans ?_ (ih _)
    dsimp only
    split
    · next state _ hstate _ => exact .setState_current hstate rfl fun _ => hf state
    · exact .refl _ _ _

theorem suspendSkill_sameAt {reason : SuspensionReason}
    (hdownstream : ∀ s, f (deactivated s .dependencyDeactivated skill) = f s)
    (hskill : ∀ s version, engine.currentSkillState skill = some s → engine.activeSkillVersions skill = some version →
      s.key = key → f (suspendedState s version reason now) = f s) :
    SameAt key f engine (engine.suspendSkill skill reason now) := by
  have hdeactivated : SameAt key f engine (engine.deactivateSkills .dependencyDeactivated skill (downstream skill)) :=
    deactivateSkills_sameAt hdownstream _ engine
  unfold suspendSkill
  dsimp only
  split
  · next state version hstate hversion =>
    refine hdeactivated.trans (.setState fun hkey => ?_)
    have hkey' : state.key = key := hkey
    rw [show _ = _ from hdeactivated, ← hkey', get?_of_currentSkillState hstate]
    exact congrArg some (hskill state version hstate hversion hkey').symm
  · exact hdeactivated

theorem evaluateRecovery_sameAt (hf : ∀ s recovery, f (withRecovery s recovery) = f s) (skill : ChallengerSkill) :
    SameAt key f engine (engine.evaluateRecovery skill now).1 := by
  unfold evaluateRecovery
  cases hstate : engine.currentSkillState skill with
  | none => exact .refl _ _ _
  | some state =>
    apply SameAt.setState_current hstate
    · rcases skillRecoveryProof_state engine now state with h | ⟨recovery, h⟩
      · rw [h]
      · rw [h]
        rfl
    · intro _
      rcases skillRecoveryProof_state engine now state with h | ⟨recovery, h⟩
      · rw [h]
      · rw [h]
        exact hf state recovery

theorem activateSkill_sameAt {recovering grantConsent : Bool} {reason : TournamentResult}
    (hrecovery : ∀ s recovery, f (withRecovery s recovery) = f s)
    (hdownstream : ∀ s, f (deactivated s reason artifact.skill) = f s)
    (hskill : ∀ (e : LearningEngine) s proof, s.key = key → f (e.activatedState s artifact recovering proof now) = f s)
    (h : engine.activateSkill artifact recovering grantConsent reason now = some engine') : SameAt key f engine engine' := by
  unfold activateSkill at h
  generalize hevaluated : (if recovering = true then engine.evaluateRecovery artifact.skill now else (engine, none)) =
    evaluated at h
  obtain ⟨engine₁, proof₁⟩ := evaluated
  have hfirst : SameAt key f engine engine₁ := by
    split_ifs at hevaluated
    · rw [← show _ = engine₁ from congrArg Prod.fst hevaluated]
      exact evaluateRecovery_sameAt hrecovery _
    · cases hevaluated
      exact .refl _ _ _
  simp only [Option.bind_eq_bind, Option.bind_eq_some_iff] at h
  obtain ⟨state, hstate, h⟩ := h
  split_ifs at h
  obtain ⟨proof, -, h⟩ := Option.bind_eq_some_iff.mp h
  cases h
  have hdeactivated : SameAt key f engine₁ (engine₁.deactivateSkills reason artifact.skill (downstream artifact.skill)) :=
    deactivateSkills_sameAt hdownstream _ engine₁
  refine hfirst.trans (hdeactivated.trans ?_)
  refine @SameAt.setState _ key f (engine₁.deactivateSkills reason artifact.skill (downstream artifact.skill)) _ fun hkey => ?_
  have hkey' : state.key = key := hkey
  rw [show _ = _ from hdeactivated, ← hkey', get?_of_currentSkillState hstate]
  exact congrArg some (hskill engine₁ state proof hkey').symm

end

end LearningEngine

end SignalArcade.Challenger
