import SignalArcade.Challenger.ActivationReceipts
import SignalArcade.Challenger.Freeze
import SignalArcade.Challenger.RecoveryResolves
import SignalArcade.Lib.Runs

/-!
# One trial for each suspension

A suspended Champion has one trial. Episodes are enrolled in it, it is evaluated, the context of
the skill is recorded beside it, the engine is restarted, and everything around it may change:
the evidence, the permissions, the composition, the cohort. `TrialAction` lists what may happen
before the suspension ends; `step` is what it does to the states in memory and to those saved.
-/

namespace SignalArcade.Challenger

open Paper (Instant)
open Runs List

/-! ### What may happen to a trial -/

/-- The engine, and the states as they are saved. -/
structure TrialWorld where
  engine : LearningEngine
  saved : SkillStates

/-- What may happen while a skill is suspended. -/
inductive TrialAction where
  /-- `_enroll_skill_recovery`. -/
  | enroll (episode : LearningEvidenceEpisode) (now : Instant)
  /-- `_skill_recovery_proof`, of the current state of a skill. -/
  | evaluate (skill : ChallengerSkill) (now : Instant)
  /-- `_coach_evaluation_context`. -/
  | coachContext (skill : ChallengerSkill) (artifact : ChallengerSkillArtifact) (observation : LearningObservation)
  /-- Another operation on a state, and whether it is saved. -/
  | write (state : ChallengerSkillState) (saved : Bool)
  /-- A change of everything but the states. -/
  | outside (engine : LearningEngine)
  /-- The states are read again. -/
  | restart

/-- `recovery["status"] = "policy_changed"`, of a stricter coverage policy. -/
def Recovery.policyClosed (recovery : Recovery) : Recovery :=
  { recovery with status := .policyChanged, ready := some false }

namespace ChallengerSkillState

def suspension (state : ChallengerSkillState) :
    Option String × Option String × Option SuspensionReason × Option Instant :=
  (state.championVersion, state.suspendedVersion, state.suspensionReason, state.suspendedAt)

/-- Another operation leaves the suspension, and leaves or closes its trial. -/
def Spares (state state' : ChallengerSkillState) : Prop :=
  state'.suspension = state.suspension ∧
    (state'.activationProof.recovery = state.activationProof.recovery ∨
      state'.activationProof.recovery = state.activationProof.recovery.map Recovery.policyClosed)

instance (state state' : ChallengerSkillState) : Decidable (state.Spares state') := inferInstanceAs (Decidable (_ ∧ _))

end ChallengerSkillState

namespace TrialWorld

def write (world : TrialWorld) (state : ChallengerSkillState) (saved : Bool) : TrialWorld where
  engine := world.engine.setState state
  saved := if saved then world.saved.upsert state else world.saved

/-- A round of the loop of `_enroll_skill_recovery`. -/
def enrollSkill (episode : LearningEvidenceEpisode) (now : Instant) (world : TrialWorld) (skill : ChallengerSkill) :
    TrialWorld :=
  match (world.engine.currentSkillState skill).bind (world.engine.enrollState episode now) with
  | some state => world.write state true
  | none => world

/-- `_enroll_skill_recovery`. -/
def enroll (world : TrialWorld) (episode : LearningEvidenceEpisode) (now : Instant) : TrialWorld :=
  if world.engine.recoveryCandidate episode then ChallengerSkill.order.foldl (enrollSkill episode now) world else world

/-- `_skill_recovery_proof`. -/
def evaluate (world : TrialWorld) (skill : ChallengerSkill) (now : Instant) : TrialWorld :=
  match world.engine.currentSkillState skill with
  | some state =>
    let outcome := world.engine.skillRecoveryProof now state
    world.write outcome.state outcome.saved
  | none => world

/-- `_coach_evaluation_context`; what it writes it saves. -/
def coachContext (world : TrialWorld) (skill : ChallengerSkill) (artifact : ChallengerSkillArtifact)
    (observation : LearningObservation) : TrialWorld :=
  match world.engine.currentSkillState skill with
  | some state =>
    let state' := (world.engine.coachEvaluationContext artifact state observation).2
    world.write state' (state' ≠ state)
  | none => world

variable (key : SkillKey)

/-- What an action does, until the suspension of the skill under this key ends. -/
def step (world : TrialWorld) : TrialAction → TrialWorld
  | .enroll episode now => world.enroll episode now
  | .evaluate skill now => world.evaluate skill now
  | .coachContext skill artifact observation => world.coachContext skill artifact observation
  | .write state saved =>
    if state.key ≠ key ∨ (world.engine.skillStates.get? key).any (fun s => s.Spares state) then world.write state saved
    else world
  | .outside engine => { world with engine := { engine with skillStates := world.engine.skillStates } }
  | .restart => { world with engine := { world.engine with skillStates := world.saved } }

def state? (world : TrialWorld) : Option ChallengerSkillState := world.engine.skillStates.get? key

/-- The trial of the key, if there is one. -/
def trial (world : TrialWorld) : Option Recovery := (world.state? key).bind fun state => state.activationProof.recovery

def savedTrial (world : TrialWorld) : Option Recovery :=
  (world.saved.get? key).bind fun state => state.activationProof.recovery

/-- A restart finds the trial as it is in memory. -/
def Durable (world : TrialWorld) : TrialAction → Prop
  | .restart => world.savedTrial key = world.trial key
  | _ => True

end TrialWorld

/-! ### How a trial goes on -/

/-- Rows that are filled in and appended to: each stays in its place. -/
def Grows (rows rows' : List RecoveryRow) : Prop :=
  ∀ (i : ℕ) (row : RecoveryRow), rows[i]? = some row → ∃ row', rows'[i]? = some row' ∧ row.Filled row'

theorem Grows.refl (rows : List RecoveryRow) : Grows rows rows := fun _ row hrow => ⟨row, hrow, .refl row⟩

theorem Grows.trans {rows rows' rows'' : List RecoveryRow} (h : Grows rows rows') (h' : Grows rows' rows'') :
    Grows rows rows'' := by
  intro i row hrow
  obtain ⟨row', hrow', hfilled⟩ := h i row hrow
  obtain ⟨row'', hrow'', hfilled'⟩ := h' i row' hrow'
  exact ⟨row'', hrow'', hfilled.trans hfilled'⟩

theorem Grows.append (rows appended : List RecoveryRow) : Grows rows (rows ++ appended) := by
  intro i row hrow
  refine ⟨row, ?_, .refl row⟩
  rw [List.getElem?_append_left (List.getElem?_eq_some_iff.mp hrow).1]
  exact hrow

theorem Grows.of_forall₂ {rows rows' : List RecoveryRow} (h : List.Forall₂ RecoveryRow.Filled rows rows') :
    Grows rows rows' := by
  intro i row hrow
  obtain ⟨hi, rfl⟩ := List.getElem?_eq_some_iff.mp hrow
  have hi' : i < rows'.length := h.length_eq ▸ hi
  exact ⟨rows'[i], List.getElem?_eq_getElem hi', h.get hi hi'⟩

/-- What a trial may hold at any time. -/
structure Bounded (rows : List RecoveryRow) : Prop where
  length : rows.length ≤ activeHealthWindow
  ids : (rows.map RecoveryRow.id).Nodup

/-- A trial that has ended: no evaluation is ready after it. -/
def Recovery.Ended (recovery : Recovery) : Prop := recovery.status ≠ .collecting ∧ recovery.status ≠ .passed

/-- The rows of the trial. -/
def rowsOf (trial : Option Recovery) : List RecoveryRow := (trial.map Recovery.rows).getD []

/-- How a trial goes on, or begins, where the rows that are new are `new`. -/
structure Advances (new : String → Instant → Prop) (trial trial' : Option Recovery) : Prop where
  grows : Grows (rowsOf trial) (rowsOf trial')
  bounded : Bounded (rowsOf trial) → Bounded (rowsOf trial')
  origin : ∀ row' ∈ rowsOf trial', (∃ row ∈ rowsOf trial, row.Filled row') ∨ new row'.id row'.createdAt
  ended : ∀ recovery ∈ trial, recovery.Ended → ∃ recovery' ∈ trial', recovery'.Ended

section

variable {new new' : String → Instant → Prop} {trial trial' trial'' : Option Recovery}

theorem Advances.refl (new : String → Instant → Prop) (trial : Option Recovery) : Advances new trial trial where
  grows := .refl _
  bounded := id
  origin row hrow := .inl ⟨row, hrow, .refl row⟩
  ended recovery hmem hended := ⟨recovery, hmem, hended⟩

theorem Advances.trans (h : Advances new trial trial') (h' : Advances new trial' trial'') : Advances new trial trial'' where
  grows := h.grows.trans h'.grows
  bounded hbounded := h'.bounded (h.bounded hbounded)
  origin := by
    intro row'' hrow''
    rcases h'.origin row'' hrow'' with ⟨row', hrow', hfilled'⟩ | hnew
    · rcases h.origin row' hrow' with ⟨row, hrow, hfilled⟩ | hnew
      · exact .inl ⟨row, hrow, hfilled.trans hfilled'⟩
      · rw [hfilled'.id, hfilled'.createdAt]
        exact .inr hnew
    · exact .inr hnew
  ended := by
    intro recovery hmem hended
    obtain ⟨recovery', hmem', hended'⟩ := h.ended recovery hmem hended
    exact h'.ended recovery' hmem' hended'

theorem Advances.mono (hnew : ∀ id createdAt, new id createdAt → new' id createdAt) (h : Advances new trial trial') :
    Advances new' trial trial' where
  grows := h.grows
  bounded := h.bounded
  origin row hrow := (h.origin row hrow).imp_right (hnew _ _)
  ended := h.ended

theorem Bounded.of_forall₂ {rows rows' : List RecoveryRow} (h : Forall₂ RecoveryRow.Filled rows rows')
    (hbounded : Bounded rows) : Bounded rows' := by
  have hids : rows'.map RecoveryRow.id = rows.map RecoveryRow.id := by
    clear hbounded
    induction h with
    | nil => rfl
    | cons hrow _ ih => rw [map_cons, map_cons, hrow.id, ih]
  refine ⟨h.length_eq ▸ hbounded.length, ?_⟩
  rw [hids]
  exact hbounded.ids

theorem Advances.of_filled {recovery recovery' : Recovery}
    (h : Forall₂ RecoveryRow.Filled recovery.rows recovery'.rows) (hended : recovery.Ended → recovery'.Ended) :
    Advances new (some recovery) (some recovery') where
  grows := .of_forall₂ h
  bounded := .of_forall₂ h
  origin row' hrow' := .inl (exists_left_of_forall₂ h hrow')
  ended := by
    rintro found hmem he
    cases hmem
    exact ⟨recovery', rfl, hended he⟩

end

/-! ### What the operations do to a state -/

namespace LearningEngine

variable {engine : LearningEngine} {state state' : ChallengerSkillState} {new : String → Instant → Prop} {now : Instant}
  {episode : LearningEvidenceEpisode}

theorem skillRecoveryProof_advances (engine : LearningEngine) (now : Instant) (state : ChallengerSkillState) :
    Advances new state.activationProof.recovery (engine.skillRecoveryProof now state).state.activationProof.recovery := by
  unfold skillRecoveryProof
  split
  · next artifact recovery _ hrecovery =>
    have hsame : Forall₂ RecoveryRow.Filled recovery.rows recovery.rows :=
      forall₂_same.mpr fun row _ => .refl row
    by_cases hopen : recoveryOpen state recovery = true
    case neg =>
      simp only [hopen, Bool.not_false, if_true]
      exact .refl _ _
    -- what is open has not ended
    have hgoes : ¬ recovery.Ended := by
      simp only [recoveryOpen, Bool.and_eq_true, Bool.or_eq_true, decide_eq_true_eq] at hopen
      rintro ⟨hcollecting, hpassed⟩
      exact hopen.2.elim hcollecting hpassed
    simp only [hopen, Bool.not_true, Bool.false_eq_true, if_false]
    split_ifs
    · rw [hrecovery]
      exact .of_filled hsame fun hended => absurd hended hgoes
    · exact .refl _ _
    · rw [hrecovery]
      exact .of_filled (fillRows_filled _) fun hended => absurd hended hgoes
    · rw [hrecovery]
      exact .of_filled (fillRows_filled _) fun hended => absurd hended hgoes
  · exact .refl _ _

theorem skillRecoveryProof_kept (engine : LearningEngine) (now : Instant) (state : ChallengerSkillState) :
    (engine.skillRecoveryProof now state).state.key = state.key ∧
      (engine.skillRecoveryProof now state).state.suspension = state.suspension ∧
      (engine.skillRecoveryProof now state).state.joinedAt = state.joinedAt := by
  rcases skillRecoveryProof_state engine now state with h | ⟨recovery, h⟩ <;> rw [h] <;> exact ⟨rfl, rfl, rfl⟩

theorem coachEvaluationContext_trial (engine : LearningEngine) (artifact : ChallengerSkillArtifact)
    (state : ChallengerSkillState) (observation : LearningObservation) :
    (engine.coachEvaluationContext artifact state observation).2.key = state.key ∧
      (engine.coachEvaluationContext artifact state observation).2.suspension = state.suspension ∧
      (engine.coachEvaluationContext artifact state observation).2.activationProof.recovery =
        state.activationProof.recovery := by
  unfold coachEvaluationContext
  dsimp only
  split_ifs <;> exact ⟨rfl, rfl, rfl⟩

/-- An enrolment appends the row of the episode to a trial of the Champion that is open and has
room, or begins one. -/
theorem enrollState_advances (h : engine.enrollState episode now state = some state') :
    (state'.key = state.key ∧ state'.suspension = state.suspension ∧ state'.joinedAt = state.joinedAt) ∧
      Advances (fun id createdAt => id = episode.episodeId ∧ createdAt = episode.createdAt) state.activationProof.recovery
        state'.activationProof.recovery ∧
      ∃ artifact, engine.artifact? state.championVersion = some artifact ∧
        engine.recoverySince artifact state < episode.createdAt := by
  simp only [enrollState, Option.bind_eq_bind, Option.bind_eq_some_iff] at h
  obtain ⟨artifact, hchampion, h⟩ := h
  obtain ⟨hartifact, -⟩ := Option.filter_eq_some_iff.mp hchampion
  split_ifs at h with henrollable hclosed hfull hknown
  cases h
  rw [not_or, not_not] at hclosed
  have hsince : engine.recoverySince artifact state < episode.createdAt := by
    simp only [enrollable, Bool.and_eq_true, decide_eq_true_eq] at henrollable
    exact henrollable.1.1.1.1.1
  refine ⟨⟨rfl, rfl, rfl⟩, ?_, artifact, hartifact, hsince⟩
  generalize hfresh : engine.newRecovery artifact state episode.createdAt now = fresh at hclosed hfull hknown ⊢
  have hrows : (state.activationProof.recovery.getD fresh).rows = rowsOf state.activationProof.recovery := by
    cases state.activationProof.recovery with
    | none =>
      rw [← hfresh]
      rfl
    | some recovery => rfl
  have hrows' : rowsOf (some { state.activationProof.recovery.getD fresh with
      rows := (state.activationProof.recovery.getD fresh).rows ++ [recoveryRow episode state.skill] }) =
        rowsOf state.activationProof.recovery ++ [recoveryRow episode state.skill] :=
    congrArg (· ++ [recoveryRow episode state.skill]) hrows
  rw [hrows, not_le] at hfull
  rw [hrows] at hknown
  constructor
  case grows =>
    rw [hrows']
    exact .append _ _
  case bounded =>
    rintro ⟨hlength, hids⟩
    rw [hrows']
    refine ⟨?_, ?_⟩
    · rw [length_append, length_singleton]
      exact hfull
    · rw [map_append, map_singleton]
      refine nodup_append.mpr ⟨hids, nodup_singleton _, ?_⟩
      rintro id hid id' hid' rfl
      obtain ⟨row, hrow, rfl⟩ := mem_map.mp hid
      apply hknown
      rw [any_eq_true]
      exact ⟨row, hrow, decide_eq_true (mem_singleton.mp hid')⟩
  case origin =>
    intro row' hrow'
    rw [hrows', mem_append, mem_singleton] at hrow'
    rcases hrow' with hrow' | rfl
    · exact .inl ⟨row', hrow', .refl row'⟩
    · exact .inr ⟨rfl, rfl⟩
  case ended =>
    intro recovery hmem hended
    rw [Option.mem_def] at hmem
    rw [hmem, Option.getD_some] at hclosed
    exact absurd hclosed.1 hended.1

end LearningEngine

theorem ChallengerSkillState.Spares.advances {new : String → Instant → Prop} {state state' : ChallengerSkillState}
    (h : state.Spares state') : Advances new state.activationProof.recovery state'.activationProof.recovery := by
  rcases h.2 with hsame | hclosed
  · rw [hsame]
    exact .refl _ _
  · rw [hclosed]
    cases state.activationProof.recovery with
    | none => exact .refl _ _
    | some recovery =>
      refine .of_filled (forall₂_same.mpr fun row _ => .refl row) fun _ => ⟨?_, ?_⟩ <;>
        exact fun h => RecoveryStatus.noConfusion h

/-! ### Steps -/

namespace TrialWorld

variable {key : SkillKey} {world world' start : TrialWorld} {state state' : ChallengerSkillState} {saved : Bool}
  {new : String → Instant → Prop} {episode : LearningEvidenceEpisode} {now : Instant}

/-- The skill is in this suspension, in memory and as it is saved. -/
def Suspended (key : SkillKey)
    (suspension : Option String × Option String × Option SuspensionReason × Option Instant) (world : TrialWorld) : Prop :=
  (∃ state, world.state? key = some state ∧ state.suspension = suspension) ∧
    ∃ state, world.saved.get? key = some state ∧ state.suspension = suspension

variable {suspension : Option String × Option String × Option SuspensionReason × Option Instant}

theorem state?_write : (world.write state saved).state? key = if key = state.key then some state else world.state? key :=
  Table.get?_upsert ..

/-- **`_suspend_skill` starts a trial**: the skill is in its suspension, and has none yet. -/
theorem suspendSkill_starts {engine : LearningEngine} {skill : ChallengerSkill} {version : String} {reason : SuspensionReason}
    {now : Instant} (hstate : engine.currentSkillState skill = some state)
    (hversion : engine.activeSkillVersions skill = some version) :
    let suspended := engine.suspendSkill skill reason now
    Suspended state.key (state.championVersion, some version, some reason, some now) ⟨suspended, suspended.skillStates⟩ ∧
      trial state.key ⟨suspended, suspended.skillStates⟩ = none := by
  intro suspended
  have hget : suspended.skillStates.get? state.key = some (LearningEngine.suspendedState state version reason now) := by
    simp only [suspended, LearningEngine.suspendSkill, hstate, hversion]
    exact (Table.get?_upsert ..).trans (if_pos rfl)
  exact ⟨⟨⟨_, hget, rfl⟩, _, hget, rfl⟩, congrArg (Option.bind · _) hget⟩

theorem saved_write : (world.write state saved).saved.get? key =
    if saved = true ∧ key = state.key then some state else world.saved.get? key := by
  unfold write
  cases saved with
  | false => simp
  | true => simpa using Table.get?_upsert ..

theorem trial_of_state (h : world.state? key = some state) : world.trial key = state.activationProof.recovery := by
  rw [trial, h, Option.bind_some]

theorem write_advances (hsuspended : Suspended key suspension world)
    (h : ∀ old, world.state? key = some old → state.key = key →
      state.suspension = old.suspension ∧ Advances new old.activationProof.recovery state.activationProof.recovery) :
    Suspended key suspension (world.write state saved) ∧
      Advances new (world.trial key) ((world.write state saved).trial key) := by
  obtain ⟨⟨old, hold, hsuspension⟩, stored, hstored, hsame⟩ := hsuspended
  by_cases hkey : key = state.key
  · obtain ⟨hkept, hadvances⟩ := h old hold hkey.symm
    have hnow : (world.write state saved).state? key = some state := by rw [state?_write, if_pos hkey]
    refine ⟨⟨⟨state, hnow, hkept.trans hsuspension⟩, ?_⟩, ?_⟩
    · rw [saved_write]
      split_ifs
      · exact ⟨state, rfl, hkept.trans hsuspension⟩
      · exact ⟨stored, hstored, hsame⟩
    · rw [trial_of_state hold, trial_of_state hnow]
      exact hadvances
  · have hnow : (world.write state saved).state? key = some old := by rw [state?_write, if_neg hkey, hold]
    refine ⟨⟨⟨old, hnow, hsuspension⟩, stored, ?_, hsame⟩, ?_⟩
    · rw [saved_write, if_neg fun hboth => hkey hboth.2, hstored]
    · rw [trial_of_state hold, trial_of_state hnow]
      exact .refl _ _

variable {skill : ChallengerSkill}

theorem state?_of_current (h : world.engine.currentSkillState skill = some state) :
    world.state? state.key = some state :=
  Table.get?_eq_some.mpr ⟨(LearningEngine.currentSkillState_eq_some.mp h).1, rfl⟩

/-- The episode was created after the artifact, the suspension, and every join upstream. -/
def CreatedAfter (key : SkillKey) (world : TrialWorld) (episode : LearningEvidenceEpisode) : Prop :=
  ∃ state artifact, world.state? key = some state ∧ world.engine.artifact? state.championVersion = some artifact ∧
    artifact.createdAt < episode.createdAt ∧ (∀ suspendedAt ∈ state.suspendedAt, suspendedAt < episode.createdAt) ∧
    ∀ upstream joined, (world.engine.recoveryDependencies key.2 upstream).isSome →
      ((world.engine.currentSkillState upstream).bind fun s => s.joinedAt) = some joined → joined < episode.createdAt

/-- The world differs from another one in states of the same suspensions and joins. -/
structure Around (start world : TrialWorld) : Prop where
  engine : ∃ states, world.engine = { start.engine with skillStates := states }
  states : ∀ key state, world.state? key = some state →
    ∃ old, start.state? key = some old ∧ old.suspension = state.suspension ∧ old.joinedAt = state.joinedAt
  joins : ∀ skill, ((world.engine.currentSkillState skill).bind fun s => s.joinedAt) =
    (start.engine.currentSkillState skill).bind fun s => s.joinedAt

theorem Around.refl (world : TrialWorld) : Around world world where
  engine := ⟨world.engine.skillStates, rfl⟩
  states _ state hstate := ⟨state, hstate, rfl, rfl⟩
  joins _ := rfl

theorem Around.write (h : Around start world) (hstate : world.engine.currentSkillState skill = some state)
    (hkey : state'.key = state.key) (hsuspension : state'.suspension = state.suspension)
    (hjoined : state'.joinedAt = state.joinedAt) : Around start (world.write state' saved) := by
  obtain ⟨states, hengine⟩ := h.engine
  obtain ⟨-, hcohort, hskill⟩ := LearningEngine.currentSkillState_eq_some.mp hstate
  have hcohort' : world.engine.currentCohortKey = some state'.cohortKey :=
    hcohort.trans (congrArg some (congrArg Prod.fst hkey).symm)
  constructor
  case engine => exact ⟨_, by rw [TrialWorld.write, LearningEngine.setState, hengine]⟩
  case states =>
    intro key found hfound
    rw [state?_write] at hfound
    split_ifs at hfound with hsame
    · cases hfound
      obtain ⟨old, hold, hsuspended, hjoins⟩ := h.states state.key state (state?_of_current hstate)
      refine ⟨old, ?_, hsuspended.trans hsuspension.symm, hjoins.trans hjoined.symm⟩
      rw [hsame, hkey]
      exact hold
    · exact h.states key found hfound
  case joins =>
    intro k
    show (((world.engine.setState state').currentSkillState k).bind fun s => s.joinedAt) = _
    rw [LearningEngine.currentSkillState_setState hcohort' k, ← h.joins k]
    split_ifs with hk
    · have hk' : k = skill := hk.trans ((congrArg Prod.snd hkey).trans hskill)
      rw [hk', hstate, Option.bind_some, Option.bind_some, hjoined]
    · rfl

theorem foldl_max_lt {times : List Instant} {first limit : Instant} :
    times.foldl max first < limit ↔ first < limit ∧ ∀ time ∈ times, time < limit := by
  induction times generalizing first with
  | nil => simp
  | cons time times ih =>
    rw [foldl_cons, ih, max_lt_iff, forall_mem_cons, and_assoc]

theorem Around.createdAfter (h : Around start world) {artifact : ChallengerSkillArtifact}
    (hstate : world.state? key = some state)
    (hartifact : world.engine.artifact? state.championVersion = some artifact)
    (hsince : world.engine.recoverySince artifact state < episode.createdAt) : CreatedAfter key start episode := by
  obtain ⟨old, hold, hsuspension, -⟩ := h.states key state hstate
  obtain ⟨states, hengine⟩ := h.engine
  have hskill : state.skill = key.2 := congrArg Prod.snd (Table.get?_eq_some.mp hstate).2
  simp only [ChallengerSkillState.suspension, Prod.mk.injEq] at hsuspension
  obtain ⟨hchampion, -, -, hsuspendedAt⟩ := hsuspension
  rw [LearningEngine.recoverySince, foldl_max_lt, max_lt_iff] at hsince
  obtain ⟨⟨hcreated, hsuspended⟩, hjoins⟩ := hsince
  refine ⟨old, artifact, hold, ?_, hcreated, ?_, ?_⟩
  · rw [hchampion, ← hartifact, hengine]
    rfl
  · intro suspendedAt hmem
    rw [hsuspendedAt, Option.mem_def] at hmem
    rw [hmem] at hsuspended
    exact hsuspended
  · intro upstream joined hactive hjoined
    apply hjoins
    rw [mem_filterMap]
    refine ⟨upstream, ?_, ?_⟩
    · rw [mem_filter, hskill, hengine]
      exact ⟨ChallengerSkill.mem_order _, hactive⟩
    · rw [h.joins]
      exact hjoined

/-- The episode makes this row of the trial. -/
def NewRow (key : SkillKey) (world : TrialWorld) (episode : LearningEvidenceEpisode) (id : String) (createdAt : Instant) :
    Prop :=
  id = episode.episodeId ∧ createdAt = episode.createdAt ∧ CreatedAfter key world episode

theorem enrollSkill_advances (hsuspended : Suspended key suspension world) (haround : Around start world) :
    Around start (world.enrollSkill episode now skill) ∧ Suspended key suspension (world.enrollSkill episode now skill) ∧
      Advances (NewRow key start episode) (world.trial key) ((world.enrollSkill episode now skill).trial key) := by
  unfold enrollSkill
  cases henrolled : (world.engine.currentSkillState skill).bind (world.engine.enrollState episode now) with
  | none => exact ⟨haround, hsuspended, .refl _ _⟩
  | some state' =>
    obtain ⟨state, hstate, hstate'⟩ := Option.bind_eq_some_iff.mp henrolled
    obtain ⟨⟨hkey, hsuspension, hjoined⟩, hadvances, artifact, hartifact, hsince⟩ :=
      LearningEngine.enrollState_advances hstate'
    refine ⟨haround.write hstate hkey hsuspension hjoined, write_advances hsuspended ?_⟩
    intro old hold hsame
    obtain rfl : old = state := by
      have hcurrent := state?_of_current hstate
      rw [← hkey, hsame, hold, Option.some_inj] at hcurrent
      exact hcurrent
    refine ⟨hsuspension, hadvances.mono ?_⟩
    rintro id createdAt ⟨hid, hcreatedAt⟩
    exact ⟨hid, hcreatedAt, haround.createdAfter hold hartifact hsince⟩

theorem foldl_enrollSkill_advances (skills : List ChallengerSkill) (hsuspended : Suspended key suspension world)
    (haround : Around start world) :
    Suspended key suspension (skills.foldl (enrollSkill episode now) world) ∧
      Advances (NewRow key start episode) (world.trial key) ((skills.foldl (enrollSkill episode now) world).trial key) := by
  induction skills generalizing world with
  | nil => exact ⟨hsuspended, .refl _ _⟩
  | cons skill skills ih =>
    obtain ⟨haround', hsuspended', hadvances⟩ := enrollSkill_advances hsuspended haround
    obtain ⟨hsuspended'', hadvances'⟩ := ih hsuspended' haround'
    exact ⟨hsuspended'', hadvances.trans hadvances'⟩

/-- The action adds this row. -/
def Adds (key : SkillKey) (world : TrialWorld) (action : TrialAction) (id : String) (createdAt : Instant) : Prop :=
  ∃ episode now, action = .enroll episode now ∧ NewRow key world episode id createdAt

/-- **A step keeps the suspension**, and its trial goes on. -/
theorem step_advances {action : TrialAction} (hsuspended : Suspended key suspension world)
    (hdurable : Durable key world action) :
    Suspended key suspension (step key world action) ∧
      Advances (Adds key world action) (world.trial key) ((step key world action).trial key) := by
  cases action with
  | enroll episode now =>
    show Suspended key suspension (world.enroll episode now) ∧ Advances _ _ ((world.enroll episode now).trial key)
    unfold enroll
    split_ifs
    · obtain ⟨hkept, hadvances⟩ := foldl_enrollSkill_advances ChallengerSkill.order hsuspended (.refl world)
      exact ⟨hkept, hadvances.mono fun id createdAt hnew => ⟨episode, now, rfl, hnew⟩⟩
    · exact ⟨hsuspended, .refl _ _⟩
  | evaluate skill now =>
    show Suspended key suspension (world.evaluate skill now) ∧ Advances _ _ ((world.evaluate skill now).trial key)
    unfold evaluate
    cases hstate : world.engine.currentSkillState skill with
    | none => exact ⟨hsuspended, .refl _ _⟩
    | some state =>
      obtain ⟨hkey, hsuspension, -⟩ := LearningEngine.skillRecoveryProof_kept world.engine now state
      refine write_advances hsuspended fun old hold hsame => ?_
      obtain rfl : old = state := by
        have hcurrent := state?_of_current hstate
        rw [← hkey, hsame, hold, Option.some_inj] at hcurrent
        exact hcurrent
      exact ⟨hsuspension, LearningEngine.skillRecoveryProof_advances world.engine now old⟩
  | coachContext skill artifact observation =>
    show Suspended key suspension (world.coachContext skill artifact observation) ∧
      Advances _ _ ((world.coachContext skill artifact observation).trial key)
    unfold coachContext
    cases hstate : world.engine.currentSkillState skill with
    | none => exact ⟨hsuspended, .refl _ _⟩
    | some state =>
      obtain ⟨hkey, hsuspension, hrecovery⟩ :=
        LearningEngine.coachEvaluationContext_trial world.engine artifact state observation
      refine write_advances hsuspended fun old hold hsame => ?_
      obtain rfl : old = state := by
        have hcurrent := state?_of_current hstate
        rw [← hkey, hsame, hold, Option.some_inj] at hcurrent
        exact hcurrent
      rw [hrecovery]
      exact ⟨hsuspension, .refl _ _⟩
  | write state saved =>
    show Suspended key suspension (if _ then world.write state saved else world) ∧
      Advances _ _ ((if _ then world.write state saved else world).trial key)
    split_ifs with hallowed
    · refine write_advances hsuspended fun old hold hsame => ?_
      have hspares : old.Spares state := by
        have hany := hallowed.resolve_left (not_not.mpr hsame)
        rw [show world.engine.skillStates.get? key = some old from hold, Option.any_some, decide_eq_true_eq] at hany
        exact hany
      exact ⟨hspares.1, hspares.advances⟩
    · exact ⟨hsuspended, .refl _ _⟩
  | outside engine => exact ⟨hsuspended, .refl _ _⟩
  | restart =>
    obtain ⟨-, stored, hstored, hsame⟩ := hsuspended
    refine ⟨⟨⟨stored, hstored, hsame⟩, stored, hstored, hsame⟩, ?_⟩
    have htrial : (step key world .restart).trial key = world.trial key := hdurable
    rw [htrial]
    exact .refl _ _

/-! ### Runs -/

/-- One of the actions added the row. -/
def EnrolledIn (key : SkillKey) (world : TrialWorld) (actions : List TrialAction) (id : String) (createdAt : Instant) :
    Prop :=
  ∃ before action after, actions = before ++ action :: after ∧ Adds key (run (step key) world before) action id createdAt

/-- **A run keeps the suspension**, and its trial goes on. -/
theorem run_advances {actions : List TrialAction} (hsuspended : Suspended key suspension world)
    (h : Along (step key) (Durable key) world actions) :
    Suspended key suspension (run (step key) world actions) ∧
      Advances (EnrolledIn key world actions) (world.trial key) ((run (step key) world actions).trial key) := by
  induction actions generalizing world with
  | nil => exact ⟨hsuspended, .refl _ _⟩
  | cons action actions ih =>
    obtain ⟨hkept, hadvances⟩ := step_advances hsuspended h.1
    obtain ⟨hkept', hadvances'⟩ := ih hkept h.2
    refine ⟨hkept', (hadvances.mono ?_).trans (hadvances'.mono ?_)⟩
    · exact fun id createdAt hadds => ⟨[], action, actions, rfl, hadds⟩
    · rintro id createdAt ⟨before, later, after, rfl, hadds⟩
      exact ⟨action :: before, later, after, rfl, hadds⟩

theorem ready_complete {engine : LearningEngine} {recovery : Recovery} (hrecovery : state.activationProof.recovery = some recovery)
    (hbounded : Bounded recovery.rows) (h : (engine.skillRecoveryProof now state).ready = true) :
    ¬ recovery.Ended ∧ ∃ recovery', (engine.skillRecoveryProof now state).state.activationProof.recovery = some recovery' ∧
      recovery'.rows.length = activeHealthWindow ∧ ∀ row ∈ recovery'.rows, row.delta.isSome := by
  obtain ⟨proof, hproof, hready⟩ := (Option.any_eq_true _ _).mp h
  obtain ⟨artifact, found, rows, -, hfound, hopen, rfl, hstate⟩ := LearningEngine.skillRecoveryProof_eq_some hproof
  rw [hrecovery, Option.some_inj] at hfound
  subst hfound
  have hgoes : ¬ recovery.Ended := by
    simp only [LearningEngine.recoveryOpen, Bool.and_eq_true, Bool.or_eq_true, decide_eq_true_eq] at hopen
    rintro ⟨hcollecting, hpassed⟩
    exact hopen.2.elim hcollecting hpassed
  have hadvances : Advances (fun _ _ => False) state.activationProof.recovery
      (engine.skillRecoveryProof now state).state.activationProof.recovery :=
    LearningEngine.skillRecoveryProof_advances engine now state
  rw [hrecovery, hstate] at hadvances
  have hlength : rows.length ≤ activeHealthWindow := (hadvances.bounded hbounded).length
  simp only [LearningEngine.recoveryProof, Bool.and_eq_true, decide_eq_true_eq] at hready
  have hobserved : (rows.filter fun row => row.delta.isSome).length = activeHealthWindow := hready.1.1.1.1
  have hall : (rows.filter fun row => row.delta.isSome).length = rows.length :=
    le_antisymm (length_filter_le _ _) (hobserved ▸ hlength)
  refine ⟨hgoes, _, by rw [hstate]; rfl, ?_, ?_⟩
  · exact hall.symm.trans hobserved
  · exact length_filter_eq_length_iff.mp hall

/-- The trial of a suspension, at all times of a run. -/
structure FixedTrial (key : SkillKey) (start : TrialWorld) (actions : List TrialAction) : Prop where
  /-- Rows are appended, and filled in once. -/
  grows : ∀ before middle after, actions = before ++ (middle ++ after) →
    Grows (rowsOf ((run (step key) start before).trial key)) (rowsOf ((run (step key) start (before ++ middle)).trial key))
  /-- There are never more than `activeHealthWindow`, each of another episode. -/
  bounded : ∀ before after, actions = before ++ after → Bounded (rowsOf ((run (step key) start before).trial key))
  enrolled : ∀ before after, actions = before ++ after → ∀ row ∈ rowsOf ((run (step key) start before).trial key),
    EnrolledIn key start before row.id row.createdAt
  /-- A proof that is ready is of all rows. -/
  ready : ∀ before after state now, actions = before ++ after → (run (step key) start before).state? key = some state →
    ((run (step key) start before).engine.skillRecoveryProof now state).ready = true →
      ∃ recovery, ((run (step key) start before).engine.skillRecoveryProof now state).state.activationProof.recovery =
          some recovery ∧
        recovery.rows.length = activeHealthWindow ∧ ∀ row ∈ recovery.rows, row.delta.isSome
  /-- Once it has failed, or its context changed, no proof is ready any more. -/
  ended : ∀ before middle after recovery state now, actions = before ++ (middle ++ after) →
    recovery ∈ (run (step key) start before).trial key →
    recovery.status = .failed ∨ recovery.status = .contextChanged →
    (run (step key) start (before ++ middle)).state? key = some state →
      ((run (step key) start (before ++ middle)).engine.skillRecoveryProof now state).ready = false

/-- **Recovery uses one fixed trial for each suspension**, in every run that is durable. -/
theorem recovery_trial_fixed {actions : List TrialAction} (hsuspended : Suspended key suspension start)
    (hnone : start.trial key = none) (h : Along (step key) (Durable key) start actions) :
    FixedTrial key start actions := by
  -- what a part of the run comes to
  have hpart : ∀ before middle after, actions = before ++ (middle ++ after) →
      Advances (EnrolledIn key (run (step key) start before) middle) ((run (step key) start before).trial key)
        ((run (step key) start (before ++ middle)).trial key) := by
    rintro before middle after rfl
    obtain ⟨hbefore, hrest⟩ := along_append.mp h
    obtain ⟨hmiddle, -⟩ := along_append.mp hrest
    rw [run_append]
    exact (run_advances (run_advances hsuspended hbefore).1 hmiddle).2
  have hbegin : ∀ before after, actions = before ++ after →
      Advances (EnrolledIn key start before) none ((run (step key) start before).trial key) := by
    rintro before after rfl
    have hadvances := hpart [] before after rfl
    rw [run_nil, hnone] at hadvances
    exact hadvances
  have hbounded : ∀ before after, actions = before ++ after →
      Bounded (rowsOf ((run (step key) start before).trial key)) :=
    fun before after he => (hbegin before after he).bounded ⟨Nat.zero_le _, nodup_nil⟩
  constructor
  case grows => exact fun before middle after he => (hpart before middle after he).grows
  case bounded => exact hbounded
  case enrolled =>
    intro before after he row hrow
    refine ((hbegin before after he).origin row hrow).resolve_left ?_
    rintro ⟨old, hold, -⟩
    cases hold
  case ready =>
    intro before after state now he hstate hready
    have hrows := hbounded before after he
    rw [trial_of_state hstate] at hrows
    cases hrecovery : state.activationProof.recovery with
    | none => simp [LearningEngine.RecoveryOutcome.ready, LearningEngine.skillRecoveryProof, hrecovery] at hready
    | some recovery =>
      rw [hrecovery] at hrows
      exact (ready_complete hrecovery hrows hready).2
  case ended =>
    intro before middle after recovery state now he hmem hstatus hstate
    have hended : recovery.Ended := by
      rcases hstatus with hstatus | hstatus <;> exact ⟨by rw [hstatus]; decide, by rw [hstatus]; decide⟩
    obtain ⟨recovery', hmem', hended'⟩ := (hpart before middle after he).ended recovery hmem hended
    have hrows := hbounded (before ++ middle) after (by rw [he, append_assoc])
    rw [trial_of_state hstate] at hmem' hrows
    rw [Option.mem_def] at hmem'
    rw [hmem'] at hrows
    by_contra hready
    rw [Bool.not_eq_false] at hready
    exact (ready_complete hmem' hrows hready).1 hended'

end TrialWorld

/-! ### What a restart forgets -/

open LearningEngine (doubledEpisode doublingEngine doublingState)

def enrolledEpisode (n : ℕ) : LearningEvidenceEpisode :=
  { doubledEpisode 4 with
    episodeId := "e" ++ toString n
    mint := "mint" ++ toString n
    features := fun _ => some 0
    sizeTrials := fun _ => none
    checkpoints := fun _ => none }

/-- The same episode with its outcome; and an entry of the same mint and season made later, under the
id of an episode that was pruned. -/
def keptEpisodes : List LearningEvidenceEpisode :=
  [{ doubledEpisode 4 with mint := "mint0" }, { enrolledEpisode 1 with createdAt := 5, qualificationEligible := false }]

def trialEngine (episodes : EvidenceEpisodes) : LearningEngine :=
  { doublingEngine 4 with
    skillStates := Table.ofRows [{ doublingState with activationProof := {} }]
    evidenceEpisodes := episodes
    policyIdentities := fun key =>
      if key.mint = "mint0" then some (some 1, "e0") else if key.mint = "mint1" then some (some 1, "e1") else none }

/-- The engine when the skill is suspended. -/
def trialStart : TrialWorld := ⟨trialEngine .empty, (trialEngine .empty).skillStates⟩

def trialKey : SkillKey := doublingState.key

/-- Two episodes are enrolled; the first has its outcome, the second was pruned and its id is used again. -/
def trialFilled : List TrialAction :=
  [.enroll (enrolledEpisode 0) 2, .enroll (enrolledEpisode 1) 2, .outside (trialEngine (Table.ofRows keptEpisodes)),
    .evaluate .sizing 6]

/-- The first is pruned as well, and the engine is restarted; the trial is evaluated after the deadlines. -/
def trialForgotten : List TrialAction :=
  trialFilled ++ [.restart, .outside (trialEngine .empty), .evaluate .sizing (seconds 10000)]

/-- The outcomes in the trial after a run. -/
def trialDeltas (actions : List TrialAction) : List (Option (Option ℚ)) :=
  (rowsOf ((run (TrialWorld.step trialKey) trialStart actions).trial trialKey)).map RecoveryRow.delta

/-- An outcome that was filled in is another one after a restart. -/
theorem trial_delta_forgotten :
    trialDeltas trialFilled = [some (some 2), none] ∧ trialDeltas trialForgotten = [some none, some none] := by
  constructor <;> decide +kernel

/-- Two are enrolled before a restart. -/
theorem recovery_trial_fixed_sample :
    TrialWorld.FixedTrial trialKey trialStart [.enroll (enrolledEpisode 0) 2, .enroll (enrolledEpisode 1) 2, .restart] := by
  have hsaved : TrialWorld.savedTrial trialKey (run (TrialWorld.step trialKey) trialStart
      [.enroll (enrolledEpisode 0) 2, .enroll (enrolledEpisode 1) 2]) =
        TrialWorld.trial trialKey (run (TrialWorld.step trialKey) trialStart
          [.enroll (enrolledEpisode 0) 2, .enroll (enrolledEpisode 1) 2]) := by decide +kernel
  refine TrialWorld.recovery_trial_fixed ⟨⟨_, rfl, rfl⟩, _, rfl, rfl⟩ rfl ?_
  exact ⟨trivial, trivial, hsaved, trivial⟩

end SignalArcade.Challenger
