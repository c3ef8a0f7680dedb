import SignalArcade.Challenger.TournamentRuns
import SignalArcade.Lib.Prog

/-!
# The publication of what was trained

`finish_training_job` saves the models and the artifacts of a job in one transaction of the
database, and registers them in a copy of the engine. What the copy has come to takes the place of
what the engine has when the transaction is committed.
-/

namespace SignalArcade.Challenger

open Paper (Instant)
open Prog List

/-! ### The program -/

/-- What is trained of a skill: the artifact, its cohort, and whether it comes with a payload. -/
structure TrainedArtifact where
  artifact : ChallengerSkillArtifact
  cohortKey : CohortKey
  payload : Bool

/-- What a training job hands over. -/
structure TrainingOutput where
  models : List LearningModel := []
  artifacts : List TrainedArtifact := []

/-- The tables that a publication writes. -/
structure TrainingDatabase where
  /-- `learning_models`. -/
  models : Table String LearningModel LearningModel.version := .empty
  /-- `challenger_skill_artifacts`. -/
  artifacts : SkillArtifacts := .empty
  /-- `challenger_skill_states`. -/
  states : SkillStates := .empty

namespace TrainingDatabase

def saveLearningModel (saved : TrainingDatabase) (model : LearningModel) : Option TrainingDatabase :=
  some { saved with models := if (saved.models.get? model.version).isSome then saved.models else saved.models.upsert model }

/-- `save_challenger_artifact`. It raises when the version contains something else. -/
def saveChallengerArtifact (saved : TrainingDatabase) (artifact : ChallengerSkillArtifact) : Option TrainingDatabase :=
  match saved.artifacts.get? artifact.version with
  | none => some { saved with artifacts := saved.artifacts.upsert artifact }
  | some existing => if existing ≠ artifact then none else some saved

def saveChallengerSkillState (saved : TrainingDatabase) (state : ChallengerSkillState) : Option TrainingDatabase :=
  some { saved with states := saved.states.upsert state }

end TrainingDatabase

/-- A publication in hand, with what it has saved. -/
structure Publication where
  models : List LearningModel
  skillArtifacts : SkillArtifacts
  /-- The states that are those of the engine. -/
  shared : SkillStates
  own : SkillStates
  saved : TrainingDatabase
  /-- Whether the next statement fails, and the one after it. -/
  faults : List Bool

/-- What a publication may raise. -/
inductive PublicationError where
  | value | database

/-- A program of a publication. -/
abbrev Publishing := EStateM PublicationError Publication

namespace Publication

/-- `skill_states.get`. -/
def state? (world : Publication) (key : SkillKey) : Option ChallengerSkillState :=
  (world.own.get? key).or (world.shared.get? key)

/-- A state is changed where it lies. A new one is the publication's own. -/
def assign (world : Publication) (state : ChallengerSkillState) : Publication :=
  if (world.own.get? state.key).isNone ∧ (world.shared.get? state.key).isSome then
    { world with shared := world.shared.upsert state }
  else { world with own := world.own.upsert state }

def registeredState (world : Publication) (engine : LearningEngine) (artifact : ChallengerSkillArtifact)
    (cohortKey : CohortKey) (now : Instant) : ChallengerSkillState :=
  { engine with skillArtifacts := world.skillArtifacts }.registeredState artifact true now
    ((world.state? (cohortKey, artifact.skill)).getD { cohortKey := cohortKey, skill := artifact.skill })

/-- The states, once they are acknowledged. -/
def states (world : Publication) : SkillStates :=
  (world.own.rows.map ChallengerSkillState.acknowledged).foldl Table.upsert world.shared

end Publication

namespace Publishing

/-- A statement. -/
def save (change : TrainingDatabase → Option TrainingDatabase) : Publishing Unit := do
  let world ← get
  set { world with faults := world.faults.tail }
  if world.faults.headD false then throw .database
  match change world.saved with
  | none => throw .value
  | some saved => modify fun world => { world with saved }

def publishModel (model : LearningModel) : Publishing Unit := do
  save (·.saveLearningModel model)
  modify fun world =>
    { world with models := if world.models.any (·.version = model.version) then world.models else world.models ++ [model] }

/-- `_register_skill_artifact` of the copy, without a tournament. -/
def registerSkillArtifact (engine : LearningEngine) (now : Instant) (trained : TrainedArtifact) : Publishing Unit := do
  let artifact := engine.withCoverageRequirement trained.artifact
  if trained.payload ≠ decide (artifact.modelFamily = .xgboost) then throw .value
  save (·.saveChallengerArtifact artifact)
  modify fun world => { world with skillArtifacts := world.skillArtifacts.upsert artifact }
  let world ← get
  let state := world.registeredState engine artifact trained.cohortKey now
  set (world.assign state)
  save (·.saveChallengerSkillState state)

/-- `training_publication`, around a block. A commit that fails is rolled back, too. -/
def trainingPublication (block : Publishing Unit) : Publishing Unit := fun world =>
  match (do save some; block; save some : Publishing Unit) world with
  | .ok _ world' => .ok () world'
  | .error e world' => .error e { world' with saved := world.saved }

/-- What `finish_training_job` does in the transaction. -/
def publish (engine : LearningEngine) (output : TrainingOutput) (now : Instant) : Publishing Unit :=
  trainingPublication do
    output.models.forM publishModel
    output.artifacts.forM (registerSkillArtifact engine now)

end Publishing

/-- The states whose skills are published. -/
def TrainingOutput.affected (output : TrainingOutput) : List SkillKey :=
  output.artifacts.map fun trained => (trained.cohortKey, trained.artifact.skill)

namespace LearningEngine

variable (engine : LearningEngine)

/-- The copy of the engine, as a publication begins. -/
def fork (saved : TrainingDatabase) (output : TrainingOutput) (faults : List Bool) : Publication where
  models := engine.models
  skillArtifacts := engine.skillArtifacts
  shared := engine.skillStates
  own := engine.skillStates.filter fun state => state.key ∈ output.affected
  saved := saved
  faults := faults

/-- The publication of what was trained: whether it raises, the engine and the database. -/
def publishTraining (saved : TrainingDatabase) (output : TrainingOutput) (now : Instant) (faults : List Bool) :
    Option PublicationError × LearningEngine × TrainingDatabase :=
  match Publishing.publish engine output now (engine.fork saved output faults) with
  | .error e world => (some e, { engine with skillStates := world.shared }, world.saved)
  | .ok _ world =>
    (none, { engine with models := world.models, skillArtifacts := world.skillArtifacts, skillStates := world.states },
      world.saved)

end LearningEngine

/-! ### A statement -/

variable {engine : LearningEngine} {output : TrainingOutput} {now : Instant} {world : Publication}

theorem wp_save {change : TrainingDatabase → Option TrainingDatabase} {Q : Unit → Publication → Prop}
    {E : PublicationError → Publication → Prop} (hraise : ∀ e faults, E e { world with faults })
    (hok : ∀ saved faults, change world.saved = some saved → Q () { world with saved, faults }) :
    Wp (Publishing.save change) Q E world := by
  unfold Publishing.save
  simp only [wp_bind, wp_get, wp_set, wp_ite, wp_throw]
  constructor
  · intro _
    exact hraise .database _
  · intro _
    cases hsaved : change world.saved with
    | none => exact hraise .value _
    | some saved => exact hok saved _ hsaved

/-! ### What a publication in progress is -/

/-- The states of the engine are as they were, and none of them is one that is published. -/
structure Apart (engine : LearningEngine) (output : TrainingOutput) (world : Publication) : Prop where
  shared : world.shared = engine.skillStates
  published : ∀ key ∈ output.affected, world.own.get? key = none → engine.skillStates.get? key = none

/-- The model is known, and saved. -/
def Modelled (model : LearningModel) (world : Publication) : Prop :=
  (∃ known ∈ world.models, known.version = model.version) ∧ (world.saved.models.get? model.version).isSome

/-- An artifact is published, and with it the state of its skill. -/
structure Registered (engine : LearningEngine) (trained : TrainedArtifact) (world : Publication) : Prop where
  saved : world.saved.artifacts.get? (engine.withCoverageRequirement trained.artifact).version =
    some (engine.withCoverageRequirement trained.artifact)
  known : world.skillArtifacts.get? (engine.withCoverageRequirement trained.artifact).version =
    some (engine.withCoverageRequirement trained.artifact)
  state : ∃ state, world.own.get? (trained.cohortKey, trained.artifact.skill) = some state ∧
    world.saved.states.get? (trained.cohortKey, trained.artifact.skill) = some state

variable {state : ChallengerSkillState}

theorem Apart.assign (h : Apart engine output world) (hkey : state.key ∈ output.affected) :
    world.assign state = { world with own := world.own.upsert state } := by
  unfold Publication.assign
  apply if_neg
  rintro ⟨hown, hshared⟩
  rw [h.shared, h.published state.key hkey (by simpa using hown)] at hshared
  cases hshared

theorem Apart.upsert (h : Apart engine output world) :
    Apart engine output { world with own := world.own.upsert state } where
  shared := h.shared
  published key hkey hnone := by
    rw [Table.get?_upsert] at hnone
    split_ifs at hnone
    exact h.published key hkey hnone

theorem fork_apart (engine : LearningEngine) (saved : TrainingDatabase) (output : TrainingOutput) (faults : List Bool) :
    Apart engine output (engine.fork saved output faults) where
  shared := rfl
  published key hkey hnone := by
    unfold LearningEngine.fork at hnone
    rw [Table.get?_filter] at hnone
    cases hstate : engine.skillStates.get? key with
    | none => rfl
    | some state =>
      rw [hstate, Option.filter_some, (Table.get?_eq_some.mp hstate).2, if_pos (by simpa using hkey)] at hnone
      cases hnone

theorem withCoverageRequirement_skill (artifact : ChallengerSkillArtifact) :
    (engine.withCoverageRequirement artifact).skill = artifact.skill := by
  unfold LearningEngine.withCoverageRequirement
  split_ifs <;> rfl

/-! ### The steps of the transaction -/

theorem mem_models {models : List LearningModel} {model known : LearningModel} (h : known ∈ models) :
    known ∈ if models.any (·.version = model.version) then models else models ++ [model] := by
  split_ifs
  · exact h
  · exact mem_append_left _ h

theorem isSome_models {models : Table String LearningModel LearningModel.version} {model : LearningModel} {version : String}
    (h : version = model.version ∨ (models.get? version).isSome) :
    ((if (models.get? model.version).isSome then models else models.upsert model).get? version).isSome := by
  split_ifs with hknown
  · rcases h with rfl | h
    · exact hknown
    · exact h
  · rw [Table.get?_upsert]
    split_ifs with hversion
    · rfl
    · exact h.resolve_left hversion

theorem publishModel_spec (model : LearningModel) :
    Wp (Publishing.publishModel model)
      (fun _ world' => world'.shared = world.shared ∧ world'.own = world.own ∧ Modelled model world' ∧
        ∀ other, Modelled other world → Modelled other world')
      (fun _ world' => world'.shared = world.shared) world := by
  unfold Publishing.publishModel
  rw [wp_bind]
  refine wp_save (fun _ _ => rfl) fun saved faults hsaved => ?_
  rw [wp_modify]
  obtain rfl := Option.some_inj.mp hsaved
  refine ⟨rfl, rfl, ⟨?_, isSome_models (.inl rfl)⟩, ?_⟩
  · dsimp only
    split_ifs with hknown
    · simpa using hknown
    · exact ⟨model, mem_append_right _ (mem_singleton.mpr rfl), rfl⟩
  · rintro other ⟨⟨known, hmem, hversion⟩, hsome⟩
    exact ⟨⟨known, mem_models hmem, hversion⟩, isSome_models (.inr hsome)⟩

theorem saveChallengerArtifact_spec {saved saved' : TrainingDatabase} {artifact : ChallengerSkillArtifact}
    (h : saved.saveChallengerArtifact artifact = some saved') :
    saved'.models = saved.models ∧ saved'.states = saved.states ∧ saved'.artifacts.get? artifact.version = some artifact ∧
      ∀ other, saved.artifacts.get? other.version = some other → saved'.artifacts.get? other.version = some other := by
  unfold TrainingDatabase.saveChallengerArtifact at h
  cases hknown : saved.artifacts.get? artifact.version with
  | none =>
    simp only [hknown, Option.some.injEq] at h
    subst h
    refine ⟨rfl, rfl, ?_, ?_⟩
    · rw [Table.get?_upsert, if_pos rfl]
    · intro other hother
      rw [Table.get?_upsert, if_neg, hother]
      intro hversion
      rw [hversion, hknown] at hother
      cases hother
  | some existing =>
    simp only [hknown, ne_eq, ite_not] at h
    split_ifs at h with heq
    obtain rfl := Option.some_inj.mp h
    exact ⟨rfl, rfl, heq ▸ hknown, fun _ hother => hother⟩

theorem Registered.keep {trained other : TrainedArtifact} {saved : TrainingDatabase}
    {faults : List Bool} (h : Registered engine other world)
    (hsaved : world.saved.saveChallengerArtifact (engine.withCoverageRequirement trained.artifact) = some saved) :
    Registered engine other
      { world with
        skillArtifacts := world.skillArtifacts.upsert (engine.withCoverageRequirement trained.artifact)
        own := world.own.upsert state
        saved := { saved with states := saved.states.upsert state }
        faults := faults } := by
  obtain ⟨-, hstates, hartifact, hkept⟩ := saveChallengerArtifact_spec hsaved
  have hother := hkept _ h.saved
  obtain ⟨state', hown, hstate⟩ := h.state
  refine ⟨hother, ?_, ?_⟩
  · dsimp only
    rw [Table.get?_upsert]
    split_ifs with hversion
    · rw [hversion, hartifact] at hother
      exact hother
    · exact h.known
  · dsimp only
    rw [Table.get?_upsert, Table.get?_upsert]
    split_ifs with hkey
    · exact ⟨state, rfl, rfl⟩
    · exact ⟨state', hown, hstates ▸ hstate⟩

theorem registeredState_key (artifact : ChallengerSkillArtifact) (cohortKey : CohortKey) :
    (world.registeredState engine artifact cohortKey now).key = (cohortKey, artifact.skill) := by
  unfold Publication.registeredState
  rw [LearningEngine.registeredState_key]
  cases hstate : world.state? (cohortKey, artifact.skill) with
  | none => rfl
  | some state =>
    unfold Publication.state? at hstate
    rcases Option.or_eq_some_iff.mp hstate with hown | ⟨-, hshared⟩
    · exact (Table.get?_eq_some.mp hown).2
    · exact (Table.get?_eq_some.mp hshared).2

theorem registerSkillArtifact_spec {trained : TrainedArtifact} (h : Apart engine output world)
    (hmem : trained ∈ output.artifacts) :
    Wp (Publishing.registerSkillArtifact engine now trained)
      (fun _ world' => Apart engine output world' ∧ Registered engine trained world' ∧
        (∀ other, Registered engine other world → Registered engine other world') ∧
        ∀ model, Modelled model world → Modelled model world')
      (fun _ world' => world'.shared = engine.skillStates) world := by
  have haffected : (trained.cohortKey, trained.artifact.skill) ∈ output.affected :=
    mem_map_of_mem (f := fun trained => (trained.cohortKey, trained.artifact.skill)) hmem
  unfold Publishing.registerSkillArtifact
  dsimp only
  rw [wp_ite]
  refine ⟨fun _ => h.shared, fun _ => ?_⟩
  rw [wp_bind]
  refine wp_save (fun _ _ => h.shared) fun saved faults hsaved => ?_
  rw [wp_bind, wp_modify, wp_bind, wp_get]
  generalize hstate : Publication.registeredState _ engine _ trained.cohortKey now = state
  have hkey : state.key = (trained.cohortKey, trained.artifact.skill) := by
    rw [← hstate, registeredState_key, withCoverageRequirement_skill]
  have happart : Apart engine output
      { world with
        skillArtifacts := world.skillArtifacts.upsert (engine.withCoverageRequirement trained.artifact)
        saved := saved
        faults := faults } := ⟨h.shared, h.published⟩
  rw [wp_bind, wp_set, happart.assign (hkey ▸ haffected)]
  refine wp_save (fun _ _ => h.shared) fun saved' faults' hsaved' => ?_
  obtain rfl := Option.some_inj.mp hsaved'
  obtain ⟨hmodels, -, hartifact, -⟩ := saveChallengerArtifact_spec hsaved
  refine ⟨?_, ?_, ?_, ?_⟩
  · exact ⟨h.shared, happart.upsert.published⟩
  · refine ⟨hartifact, ?_, state, ?_, ?_⟩
    · rw [Table.get?_upsert, if_pos rfl]
    · rw [Table.get?_upsert, if_pos hkey.symm]
    · rw [Table.get?_upsert, if_pos hkey.symm]
  · exact fun other hother => hother.keep hsaved
  · rintro model ⟨hknown, hsome⟩
    exact ⟨hknown, hmodels ▸ hsome⟩

/-! ### All or nothing -/

/-- What a publication is to do is done, but for these models and artifacts. -/
structure Doing (engine : LearningEngine) (output : TrainingOutput) (models : List LearningModel)
    (artifacts : List TrainedArtifact) (world : Publication) : Prop where
  apart : Apart engine output world
  modelled : ∀ model ∈ output.models, model ∈ models ∨ Modelled model world
  registered : ∀ trained ∈ output.artifacts, trained ∈ artifacts ∨ Registered engine trained world
  left : artifacts ⊆ output.artifacts

theorem block_spec (h : Apart engine output world) :
    Wp (do output.models.forM Publishing.publishModel; output.artifacts.forM (Publishing.registerSkillArtifact engine now))
      (fun _ world' => Doing engine output [] [] world') (fun _ world' => world'.shared = engine.skillStates) world := by
  have hmodels : Doing engine output output.models output.artifacts world :=
    ⟨h, fun _ hmem => .inl hmem, fun _ hmem => .inl hmem, Subset.refl _⟩
  rw [wp_bind]
  refine (Wp.forM (I := fun models => Doing engine output models output.artifacts) ?_ _ _ hmodels).mono ?_ fun _ _ h => h
  · intro model models world hdoing
    refine (publishModel_spec model).mono (fun _ world' hspec => ?_) fun _ _ hshared => hshared.trans hdoing.apart.shared
    obtain ⟨hshared, hown, hmodel, hkept⟩ := hspec
    refine ⟨⟨hshared.trans hdoing.apart.shared, hown ▸ hdoing.apart.published⟩, ?_, fun _ hmem => .inl hmem, hdoing.left⟩
    intro other hother
    rcases hdoing.modelled other hother with hleft | hdone
    · rcases mem_cons.mp hleft with rfl | hleft
      · exact .inr hmodel
      · exact .inl hleft
    · exact .inr (hkept other hdone)
  · intro _ world hdoing
    refine Wp.forM (I := fun artifacts => Doing engine output [] artifacts) ?_ _ _ hdoing
    intro trained artifacts world hdoing
    refine (registerSkillArtifact_spec hdoing.apart (hdoing.left mem_cons_self)).mono (fun _ world' hspec => ?_)
      fun _ _ hshared => hshared
    obtain ⟨happart, htrained, hkept, hmodels⟩ := hspec
    refine ⟨happart, ?_, ?_, fun _ hmem => hdoing.left (mem_cons_of_mem _ hmem)⟩
    · intro model hmodel
      exact .inr (hmodels model ((hdoing.modelled model hmodel).resolve_left not_mem_nil))
    · intro other hother
      rcases hdoing.registered other hother with hleft | hdone
      · rcases mem_cons.mp hleft with rfl | hleft
        · exact .inr htrained
        · exact .inl hleft
      · exact .inr (hkept other hdone)

theorem wp_trainingPublication {block : Publishing Unit} {Q E : Publication → Prop}
    (hblock : ∀ faults, Wp block (fun _ => Q) (fun _ => E) { world with faults })
    (hQ : ∀ world' faults, Q world' → Q { world' with faults }) (hE : ∀ world', Q world' → E world')
    (hbegin : ∀ faults, E { world with faults }) (hsaved : ∀ world' saved, E world' → E { world' with saved }) :
    Wp (Publishing.trainingPublication block) (fun _ => Q) (fun _ world' => E world' ∧ world'.saved = world.saved) world := by
  have hwhole : Wp (do Publishing.save some; block; Publishing.save some : Publishing Unit) (fun _ => Q) (fun _ => E) world := by
    rw [wp_bind]
    refine wp_save (fun _ faults => hbegin faults) fun saved faults hbegun => ?_
    obtain rfl := Option.some_inj.mp hbegun
    rw [wp_bind]
    refine (hblock faults).mono (fun _ world' hdone => ?_) fun _ _ hraised => hraised
    refine wp_save (fun _ faults' => hE _ (hQ _ faults' hdone)) fun saved' faults' hended => ?_
    obtain rfl := Option.some_inj.mp hended
    exact hQ _ faults' hdone
  unfold Wp at hwhole
  unfold Wp Publishing.trainingPublication
  generalize (do Publishing.save some; block; Publishing.save some : Publishing Unit) world = result at hwhole ⊢
  cases result with
  | ok _ world' => exact hwhole
  | error _ world' => exact ⟨hsaved _ _ hwhole, rfl⟩

/-- What is in the engine and the database once everything is published. -/
structure Published (engine : LearningEngine) (output : TrainingOutput) (engine' : LearningEngine)
    (saved' : TrainingDatabase) : Prop where
  models : ∀ model ∈ output.models, (∃ known ∈ engine'.models, known.version = model.version) ∧
    (saved'.models.get? model.version).isSome
  artifacts : ∀ trained ∈ output.artifacts,
    engine'.skillArtifacts.get? (engine.withCoverageRequirement trained.artifact).version =
        some (engine.withCoverageRequirement trained.artifact) ∧
      saved'.artifacts.get? (engine.withCoverageRequirement trained.artifact).version =
        some (engine.withCoverageRequirement trained.artifact)
  states : ∀ key ∈ output.affected, ∃ state, saved'.states.get? key = some state ∧
    engine'.skillStates.get? key = some state.acknowledged

theorem get?_states {key : SkillKey} (h : world.own.get? key = some state) :
    world.states.get? key = some state.acknowledged := by
  obtain ⟨hmem, rfl⟩ := Table.get?_eq_some.mp h
  have hkeys : (world.own.rows.map ChallengerSkillState.acknowledged).map ChallengerSkillState.key =
      world.own.rows.map ChallengerSkillState.key := by
    rw [map_map]
    rfl
  exact Table.get?_foldl_upsert_of_mem (hkeys ▸ world.own.nodup) (mem_map_of_mem hmem)

/-- **All or nothing**: a publication that raises leaves the engine and the database as they were, and one
that returns has everything in both. -/
theorem publication_atomic (engine : LearningEngine) (saved : TrainingDatabase) (output : TrainingOutput) (now : Instant)
    (faults : List Bool) :
    match engine.publishTraining saved output now faults with
    | (some _, engine', saved') => engine' = engine ∧ saved' = saved
    | (none, engine', saved') => Published engine output engine' saved' := by
  have hspec : Wp (Publishing.publish engine output now) (fun _ world' => Doing engine output [] [] world')
      (fun _ world' => world'.shared = engine.skillStates ∧ world'.saved = saved)
      (engine.fork saved output faults) := by
    refine wp_trainingPublication (E := fun world' => world'.shared = engine.skillStates) (fun faults' => ?_)
      (fun world' faults' h => ?_) (fun world' h => h.apart.shared) (fun _ => rfl) fun _ _ h => h
    · exact block_spec (fork_apart engine saved output faults')
    · refine ⟨⟨h.apart.shared, h.apart.published⟩, h.modelled, ?_, h.left⟩
      intro trained hmem
      have hregistered := (h.registered trained hmem).resolve_left not_mem_nil
      exact .inr ⟨hregistered.saved, hregistered.known, hregistered.state⟩
  unfold LearningEngine.publishTraining
  unfold Wp at hspec
  generalize Publishing.publish engine output now (engine.fork saved output faults) = result at hspec ⊢
  cases result with
  | error e world' =>
    obtain ⟨hshared, hsaved⟩ := hspec
    dsimp only
    rw [hshared]
    exact ⟨rfl, hsaved⟩
  | ok _ world' =>
    dsimp only at hspec ⊢
    have hregistered : ∀ trained ∈ output.artifacts, Registered engine trained world' := fun trained hmem =>
      (hspec.registered trained hmem).resolve_left not_mem_nil
    refine ⟨?_, ?_, ?_⟩
    · exact fun model hmem => (hspec.modelled model hmem).resolve_left not_mem_nil
    · exact fun trained hmem => ⟨(hregistered trained hmem).known, (hregistered trained hmem).saved⟩
    · intro key hkey
      obtain ⟨trained, hmem, rfl⟩ := mem_map.mp hkey
      obtain ⟨state, hown, hstate⟩ := (hregistered trained hmem).state
      exact ⟨state, hstate, get?_states hown⟩

end SignalArcade.Challenger
