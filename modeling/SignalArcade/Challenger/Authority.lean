import SignalArcade.Challenger.Activation
import SignalArcade.Lib.Prog

/-!
# Authority, in memory and in the database

Who is active is kept by the map of the engine, by the states of the skills, and by the database.
A revocation takes effect in memory first: `_pending_authority_states` are the states whose
revocation is still to be persisted, and `_persist_revoked_authority` retries that before anything
else is granted.
-/

namespace SignalArcade.Challenger

open Paper (Instant)
open Prog

/-! ### The world -/

/-- What the database keeps of authority. -/
structure SavedAuthority where
  /-- `skill_coverage_policy`. -/
  coveragePolicy : CoverageRecord
  states : SkillStates
  /-- `active_challenger_skills`. -/
  activeSkillVersions : SkillVersions
  /-- `learning_mode`. -/
  mode : LearningMode
  /-- `challenger_consent_granted`. -/
  consentGranted : Bool
  /-- `active_learning_model`, unless it is empty. -/
  activeLearningModel : Option String
  /-- `disabled_learning_models`: a set. -/
  disabledLearningModels : List String

/-- The arguments of `save_challenger_authority`. -/
structure AuthorityUpdate where
  states : List ChallengerSkillState
  versions : SkillVersions
  mode : Option LearningMode := none
  grantConsent : Bool := false
  clearLegacyModel : Bool := false
  /-- Two entries of `coverage_settings`. -/
  coveragePolicy : Option CoverageRecord := none
  disabledLearningModels : Option (List String) := none

/-- `save_challenger_authority`: the transaction. -/
def SavedAuthority.save (saved : SavedAuthority) (update : AuthorityUpdate) : SavedAuthority where
  coveragePolicy := update.coveragePolicy.getD saved.coveragePolicy
  states := update.states.foldl Table.upsert saved.states
  activeSkillVersions := update.versions
  mode := update.mode.getD saved.mode
  consentGranted := saved.consentGranted || update.grantConsent
  activeLearningModel := if update.clearLegacyModel then none else saved.activeLearningModel
  disabledLearningModels := update.disabledLearningModels.getD saved.disabledLearningModels

/-- The engine and the database. -/
structure AuthorityWorld where
  engine : LearningEngine
  /-- `_pending_authority_states`. -/
  pending : SkillStates := .empty
  saved : SavedAuthority
  /-- Whether the next write raises, and the one after it. -/
  faults : List Bool := []

/-- What an operation may raise. -/
inductive AuthorityError where
  /-- `ValueError`. -/
  | value (message : String)
  | database

/-- What runs on the world of authority, and may raise. -/
abbrev Authority := EStateM AuthorityError AuthorityWorld

namespace AuthorityWorld

/-- Whether the next write raises. -/
def writeFails (world : AuthorityWorld) : Bool := world.faults.headD false

/-- The world after the write has raised. -/
def failed (world : AuthorityWorld) : AuthorityWorld := { world with faults := world.faults.tail }

def written (world : AuthorityWorld) (change : SavedAuthority → SavedAuthority) : AuthorityWorld :=
  { world with saved := change world.saved, faults := world.faults.tail }

/-- What the pending revocations save. -/
def revocation (world : AuthorityWorld) : AuthorityUpdate where
  states := world.pending.rows
  versions := world.engine.activeSkillVersions
  mode := some world.engine.mode
  clearLegacyModel := true

/-- The world once the pending revocations are persisted, if there are any. -/
def settled (world : AuthorityWorld) : AuthorityWorld :=
  if world.pending.rows = [] then world
  else { world.written (SavedAuthority.save · world.revocation) with pending := .empty }

end AuthorityWorld

/-! ### Writes -/

namespace Authority

/-- A write to the database. -/
def commit (change : SavedAuthority → SavedAuthority) : Authority Unit := do
  if (← get).writeFails then
    modify AuthorityWorld.failed
    throw .database
  else
    modify (AuthorityWorld.written · change)

def saveChallengerAuthority (update : AuthorityUpdate) : Authority Unit := commit (SavedAuthority.save · update)

def persistRevokedAuthority : Authority Unit := do
  let world ← get
  if world.pending.rows ≠ [] then
    saveChallengerAuthority world.revocation
    modify fun world => { world with pending := .empty }

variable {Q : Unit → AuthorityWorld → Prop} {E : AuthorityError → AuthorityWorld → Prop} {world : AuthorityWorld}
  {change : SavedAuthority → SavedAuthority} {update : AuthorityUpdate}

@[simp] theorem wp_commit :
    Wp (commit change) Q E world ↔
      (world.writeFails = true → E .database world.failed) ∧ (world.writeFails = false → Q ⟨⟩ (world.written change)) := by
  simp only [commit, wp_bind, wp_get, wp_ite, wp_modify, wp_throw, Bool.not_eq_true]

@[simp] theorem wp_saveChallengerAuthority :
    Wp (saveChallengerAuthority update) Q E world ↔
      (world.writeFails = true → E .database world.failed) ∧
        (world.writeFails = false → Q ⟨⟩ (world.written (SavedAuthority.save · update))) := wp_commit

theorem wp_persistRevokedAuthority :
    Wp persistRevokedAuthority Q E world ↔
      (world.pending.rows ≠ [] → world.writeFails = true → E .database world.failed) ∧
        ((world.pending.rows ≠ [] → world.writeFails = false) → Q ⟨⟩ world.settled) := by
  simp only [persistRevokedAuthority, wp_bind, wp_get, wp_ite, wp_saveChallengerAuthority, wp_modify, wp_pure]
  by_cases hpending : world.pending.rows = [] <;> simp [hpending, AuthorityWorld.settled]

end Authority

/-! ### What is pending -/

namespace AuthorityWorld

variable (world : AuthorityWorld)

@[simp] theorem settled_engine : world.settled.engine = world.engine := by
  unfold settled
  split_ifs <;> rfl

@[simp] theorem settled_pending : world.settled.pending.rows = [] := by
  unfold settled
  split_ifs with h
  · exact h
  · rfl

end AuthorityWorld

end SignalArcade.Challenger
