import SignalArcade.Challenger.Assess
import SignalArcade.Challenger.Publication

/-!
# Training requests and jobs

A request for training names a mode and a configuration. The trainer takes the oldest one, prepares
a job from the evidence as it is then, fits it, and publishes what was fitted. Meanwhile other
requests come in, and the context of the job may change.
-/

namespace SignalArcade.Challenger

open Paper (Instant RiskMode)
open Runs Selection List

/-! ### Requests -/

/-- What requests are for. -/
abbrev TrainingKey := RiskMode × Option String

/-- A request for training. -/
structure TrainingRequest where
  key : TrainingKey
  requestedAt : Instant

/-- The requests that wait. -/
abbrev TrainingRequests := Table TrainingKey TrainingRequest TrainingRequest.key

namespace TrainingRequests

def setdefault (requests : TrainingRequests) (key : TrainingKey) (requestedAt : Instant) : TrainingRequests :=
  if (requests.get? key).isSome then requests else requests.upsert ⟨key, requestedAt⟩

/-- `min(requests, key=requests.__getitem__)`. -/
def oldest (requests : TrainingRequests) : Option TrainingRequest :=
  best (fun request other => request.requestedAt < other.requestedAt) requests.rows

end TrainingRequests

/-! ### The fences -/

def retrainSampleInterval : ℕ := 10

/-- `_training_authority_context`. The states are told in the order of their keys. -/
structure AuthorityContext where
  riskMode : RiskMode
  configurationFingerprint : Option String
  baselineVersion : String
  coveragePolicy : CoveragePolicy
  coveragePolicyError : Bool
  mode : LearningMode
  consentGranted : Bool
  autoParticipation : Bool
  activeSkillVersions : SkillVersions
  states : Multiset (SkillKey × Option String × Option String × Option String × Option String)
  deriving DecidableEq

namespace LearningEngine

variable (engine : LearningEngine)

def trainingAuthorityContext : AuthorityContext where
  riskMode := engine.currentRiskMode
  configurationFingerprint := engine.configurationFingerprint
  baselineVersion := engine.baselineVersion
  coveragePolicy := engine.coveragePolicy
  coveragePolicyError := engine.coveragePolicyError
  mode := engine.mode
  consentGranted := engine.consentGranted
  autoParticipation := engine.autoParticipation
  activeSkillVersions := engine.activeSkillVersions
  states := engine.skillStates.rows.map fun state =>
    (state.key, state.championVersion, state.testingVersion, state.activeVersion, state.suspendedVersion)

/-- `_new_outcomes_since_model`, of a model created at `createdAt`. -/
def newOutcomesSinceModel (model : LearningModel) (createdAt : Instant) : ℕ :=
  engine.observations.rows.countP fun observation =>
    observation.sourceMode = "solana_mainnet" && observation.featureSchemaVersion = Challenger.featureSchemaVersion &&
      decide (observation.baselineVersion ∈ learnableBaselineVersions) &&
      some observation.riskMode = model.riskMode &&
      observation.configurationFingerprint = model.configurationFingerprint &&
      (observation.checkpoints primaryHorizonSeconds).any (fun checkpoint =>
        checkpoint.netReturn.isSome && createdAt < checkpoint.observedAt) &&
      featuresComplete observation.features

/-- Whether the latest model of a context has seen almost all there is. -/
def upToDate (createdAt : String → Instant) (key : TrainingKey) : Bool :=
  (engine.latestModelForContext key.1 key.2).any fun model =>
    engine.newOutcomesSinceModel model (createdAt model.version) < retrainSampleInterval

end LearningEngine

/-! ### The trainer -/

/-- `TrainingJob`. `snapshotAt` is the step in which its evidence was frozen. -/
structure TrainingJob (ρ : Type) where
  workspace : LearningEngine
  key : TrainingKey
  requestedAt : Instant
  startedMonotonic : ℚ
  authorityContext : AuthorityContext
  runtimeContext : ρ
  snapshotAt : ℕ

/-- What became of a request. -/
inductive Outcome where
  /-- The engine and the times of its models, when it was looked at. -/
  | upToDate (engine : LearningEngine) (createdAt : String → Instant)
  | discarded
  | unchanged
  | published

/-- That the requests for a key were consumed which were made before the step `asOf`. -/
structure Consumption where
  key : TrainingKey
  asOf : ℕ
  outcome : Outcome

/-- A request was consumed without a job only when the latest model had seen almost all there was. -/
def Consumption.Explained (consumption : Consumption) : Prop :=
  ∀ engine createdAt, consumption.outcome = .upToDate engine createdAt → engine.upToDate createdAt consumption.key = true

/-- What the trainer is doing. -/
inductive Phase (ρ : Type) where
  | idle
  | preparing (key : TrainingKey) (requestedAt : Instant)
  | fitting (job : TrainingJob ρ)
  /-- `finish_training_job`, before `finally`. -/
  | finishing (job : TrainingJob ρ)
  /-- `release_unpublished_training_job` is next. -/
  | finished (job : TrainingJob ρ)

/-- The engine, its database and its trainer. -/
structure Trainer (ρ : Type) where
  engine : LearningEngine
  /-- `created_at` of the models. -/
  modelCreatedAt : String → Instant
  saved : TrainingDatabase
  requests : TrainingRequests := .empty
  active : Option TrainingKey := none
  phase : Phase ρ := .idle
  clock : ℕ := 0
  asked : List (TrainingKey × ℕ) := []
  consumed : List Consumption := []

/-- What `finish_training_job` finds. -/
structure Finish (ρ : Type) where
  runtimeContext : ρ
  monotonic : ℚ
  now : Instant
  /-- Nothing, when the fit failed. -/
  fitted : Option TrainingOutput
  /-- Which statements of the publication fail. -/
  faults : List Bool
  /-- What governance makes of the engine and the database when they are published, and whether it raises. -/
  govern : LearningEngine → TrainingDatabase → LearningEngine × TrainingDatabase × Bool

/-- The steps of the trainer, and of the rest of the program. -/
inductive TrainingAction (ρ : Type) where
  /-- `request_retraining`. -/
  | request (key : TrainingKey) (now : Instant)
  /-- Anything else. -/
  | evolve (engine : LearningEngine) (modelCreatedAt : String → Instant) (saved : TrainingDatabase)
  /-- `prepare_next_training` takes a request. -/
  | take
  /-- The rest of it, which may raise. -/
  | prepare (runtimeContext : ρ) (monotonic : ℚ) (raises : Bool)
  | finish (finish : Finish ρ)
  /-- `finally`. -/
  | settle
  /-- `release_unpublished_training_job`. -/
  | release

namespace Trainer

variable {ρ : Type} (s : Trainer ρ)

/-- `request_retraining`. -/
def ask (key : TrainingKey) (now : Instant) : Trainer ρ :=
  { s with requests := s.requests.setdefault key now, asked := (key, s.clock) :: s.asked }

/-- A request goes back into the queue. -/
def requeue (key : TrainingKey) (requestedAt : Instant) : Trainer ρ :=
  { s with requests := s.requests.setdefault key requestedAt }

def consume (key : TrainingKey) (asOf : ℕ) (outcome : Outcome) : Trainer ρ :=
  { s with consumed := ⟨key, asOf, outcome⟩ :: s.consumed }

/-- `prepare_next_training`, until it has a request. -/
def takeRequest : Trainer ρ :=
  match s.phase, s.active, s.requests.oldest with
  | .idle, none, some request =>
    { s with
      requests := s.requests.erase request.key
      active := some request.key
      phase := .preparing request.key request.requestedAt }
  | _, _, _ => s

/-- `prepare_next_training`, once it has one. -/
def prepare (key : TrainingKey) (requestedAt : Instant) (runtimeContext : ρ) (monotonic : ℚ) (raises : Bool) : Trainer ρ :=
  if raises then { s.requeue key requestedAt with active := none, phase := .idle }
  else if s.engine.upToDate s.modelCreatedAt key then
    { s.consume key s.clock (.upToDate s.engine s.modelCreatedAt) with active := none, phase := .idle }
  else
    { s with
      phase := .fitting
        { workspace := s.engine
          key := key
          requestedAt := requestedAt
          startedMonotonic := monotonic
          authorityContext := s.engine.trainingAuthorityContext
          runtimeContext := runtimeContext
          snapshotAt := s.clock } }

/-- What is fitted is published and governed. -/
def publish (job : TrainingJob ρ) (output : TrainingOutput) (finish : Finish ρ) : Trainer ρ :=
  match s.engine.publishTraining s.saved output finish.now finish.faults with
  | (some _, engine, saved) => { s with engine, saved }.requeue job.key job.requestedAt
  | (none, engine, saved) =>
    match finish.govern engine saved with
    | (engine, saved, true) => { s with engine, saved }.requeue job.key job.requestedAt
    | (engine, saved, false) => { s with engine, saved }.consume job.key job.snapshotAt .published

/-- `release_unpublished_training_job`. -/
def releaseJob (job : TrainingJob ρ) : Trainer ρ :=
  if s.active = some job.key then { s.requeue job.key job.requestedAt with active := none } else s

section

variable [DecidableEq ρ]

/-- `training_job_stale`. -/
def stale (job : TrainingJob ρ) (runtimeContext : ρ) (monotonic : ℚ) : Bool :=
  job.authorityContext ≠ s.engine.trainingAuthorityContext || job.runtimeContext ≠ runtimeContext ||
    120 < monotonic - job.startedMonotonic

/-- `finish_training_job`, before `finally`. -/
def finishJob (job : TrainingJob ρ) (finish : Finish ρ) : Trainer ρ :=
  match finish.fitted with
  | none => s.requeue job.key job.requestedAt
  | some output =>
    if s.stale job finish.runtimeContext finish.monotonic then
      (s.consume job.key job.snapshotAt .discarded).ask
        (s.engine.currentRiskMode, s.engine.configurationFingerprint) finish.now
    else if output.models.isEmpty && output.artifacts.isEmpty then s.consume job.key job.snapshotAt .unchanged
    else s.publish job output finish

/-- What an action does. One that is not due does nothing. -/
def act : TrainingAction ρ → Trainer ρ
  | .request key now => s.ask key now
  | .evolve engine modelCreatedAt saved => { s with engine, modelCreatedAt, saved }
  | .take => s.takeRequest
  | .prepare runtimeContext monotonic raises =>
    match s.phase with
    | .preparing key requestedAt => s.prepare key requestedAt runtimeContext monotonic raises
    | _ => s
  | .finish finish =>
    match s.phase with
    | .fitting job => { s.finishJob job finish with phase := .finishing job }
    | _ => s
  | .settle =>
    match s.phase with
    | .finishing job => { s with active := none, phase := .finished job }
    | _ => s
  | .release =>
    match s.phase with
    | .fitting job | .finished job => { s.releaseJob job with phase := .idle }
    | _ => s

def step (s : Trainer ρ) (action : TrainingAction ρ) : Trainer ρ := { s.act action with clock := s.clock + 1 }

end

/-! ### Who answers for a request -/

/-- A request is queued, or was consumed as of a later step. -/
def Held (key : TrainingKey) (n : ℕ) : Prop :=
  (s.requests.get? key).isSome ∨ ∃ consumption ∈ s.consumed, consumption.key = key ∧ n < consumption.asOf

/-- A request is what the trainer works on. -/
def InHand (key : TrainingKey) (n : ℕ) : Prop :=
  s.active = some key ∧
    match s.phase with
    | .preparing key' _ => key' = key
    | .fitting job => job.key = key ∧ n < job.snapshotAt
    | .idle | .finishing _ | .finished _ => False

/-- A request is not lost. -/
def Accounted (key : TrainingKey) (n : ℕ) : Prop := s.Held key n ∨ s.InHand key n

/-- What the trainer works on is what is active. -/
def Owned : Prop :=
  s.active =
    match s.phase with
    | .preparing key _ => some key
    | .fitting job | .finishing job => some job.key
    | .idle | .finished _ => none

/-- Where every request is accounted for. -/
structure Sound : Prop where
  accounted : ∀ key n, (key, n) ∈ s.asked → s.Accounted key n
  earlier : ∀ key n, (key, n) ∈ s.asked → n < s.clock
  owned : s.Owned
  explained : ∀ consumption ∈ s.consumed, Consumption.Explained consumption

variable {s} {key key' : TrainingKey} {n asOf : ℕ} {now requestedAt : Instant} {outcome : Outcome} {job : TrainingJob ρ}

/-! ### The queue -/

theorem isSome_setdefault {requests : TrainingRequests} :
    ((requests.setdefault key requestedAt).get? key').isSome ↔ key' = key ∨ (requests.get? key').isSome := by
  unfold TrainingRequests.setdefault
  split_ifs with hqueued
  · constructor
    · exact .inr
    · rintro (rfl | h)
      · exact hqueued
      · exact h
  · rw [Table.get?_upsert]
    dsimp only
    split_ifs with hkey
    · exact ⟨fun _ => .inl hkey, fun _ => rfl⟩
    · exact ⟨.inr, fun h => h.resolve_left hkey⟩

theorem Held.ask (h : s.Held key n) (key' : TrainingKey) (now : Instant) : (s.ask key' now).Held key n :=
  h.imp_left fun hqueued => isSome_setdefault.mpr (.inr hqueued)

theorem held_ask (s : Trainer ρ) (key : TrainingKey) (n : ℕ) (now : Instant) : (s.ask key now).Held key n :=
  .inl (isSome_setdefault.mpr (.inl rfl))

theorem Held.requeue (h : s.Held key n) (key' : TrainingKey) (requestedAt : Instant) :
    (s.requeue key' requestedAt).Held key n :=
  h.imp_left fun hqueued => isSome_setdefault.mpr (.inr hqueued)

theorem held_requeue (s : Trainer ρ) (key : TrainingKey) (n : ℕ) (requestedAt : Instant) :
    (s.requeue key requestedAt).Held key n :=
  .inl (isSome_setdefault.mpr (.inl rfl))

theorem Held.consume (h : s.Held key n) (key' : TrainingKey) (asOf : ℕ) (outcome : Outcome) :
    (s.consume key' asOf outcome).Held key n :=
  h.imp_right fun ⟨consumption, hmem, hof⟩ => ⟨consumption, mem_cons_of_mem _ hmem, hof⟩

theorem held_consume (s : Trainer ρ) (key : TrainingKey) (outcome : Outcome) (h : n < asOf) :
    (s.consume key asOf outcome).Held key n :=
  .inr ⟨⟨key, asOf, outcome⟩, mem_cons_self, rfl, h⟩

/-! ### Steps -/

/-- What an action leaves: every request is accounted for, and what is new was asked now or can be explained. -/
structure Settles (s s' : Trainer ρ) : Prop where
  accounted : ∀ key n, (key, n) ∈ s'.asked → s'.Accounted key n
  asked : ∀ key n, (key, n) ∈ s'.asked → (key, n) ∈ s.asked ∨ n = s.clock
  owned : s'.Owned
  explained : ∀ consumption ∈ s'.consumed, consumption ∈ s.consumed ∨ Consumption.Explained consumption

theorem Sound.same (h : s.Sound) : s.Settles s :=
  ⟨h.accounted, fun _ _ => .inl, h.owned, fun _ => .inl⟩

theorem Sound.asks (h : s.Sound) (key : TrainingKey) (now : Instant) : s.Settles (s.ask key now) where
  accounted key' n hmem := by
    rcases mem_cons.mp hmem with heq | hmem
    · cases heq
      exact .inl (held_ask s key s.clock now)
    · rcases h.accounted key' n hmem with hheld | hhand
      · exact .inl (hheld.ask key now)
      · exact .inr hhand
  asked key' n hmem := by
    rcases mem_cons.mp hmem with heq | hmem
    · cases heq
      exact .inr rfl
    · exact .inl hmem
  owned := h.owned
  explained _ := .inl

theorem Sound.takes (h : s.Sound) : s.Settles s.takeRequest := by
  unfold takeRequest
  split
  · next request hphase hactive holdest =>
    refine ⟨fun key n hmem => ?_, fun _ _ => .inl, rfl, fun _ => .inl⟩
    rcases h.accounted key n hmem with (hqueued | hconsumed) | ⟨-, hhand⟩
    · by_cases hkey : key = request.key
      · exact .inr ⟨congrArg some hkey.symm, hkey.symm⟩
      · refine .inl (.inl ?_)
        dsimp only
        rw [Table.get?_erase, if_neg hkey]
        exact hqueued
    · exact .inl (.inr hconsumed)
    · rw [hphase] at hhand
      exact hhand.elim
  · exact h.same

theorem Sound.prepares (h : s.Sound) (hphase : s.phase = .preparing key requestedAt) (runtimeContext : ρ) (monotonic : ℚ)
    (raises : Bool) : s.Settles (s.prepare key requestedAt runtimeContext monotonic raises) := by
  have hheld : ∀ key' n, (key', n) ∈ s.asked → s.Held key' n ∨ (key' = key ∧ n < s.clock) := by
    intro key' n hmem
    refine (h.accounted key' n hmem).imp_right fun ⟨_, hhand⟩ => ?_
    rw [hphase] at hhand
    exact ⟨hhand.symm, h.earlier key' n hmem⟩
  unfold prepare
  split_ifs with hraises hupToDate
  · refine ⟨fun key' n hmem => ?_, fun _ _ => .inl, rfl, fun _ => .inl⟩
    rcases hheld key' n hmem with hheld | ⟨rfl, -⟩
    · exact .inl (hheld.requeue key requestedAt)
    · exact .inl (held_requeue s key' n requestedAt)
  · refine ⟨fun key' n hmem => ?_, fun _ _ => .inl, rfl, fun consumption hmem => ?_⟩
    · rcases hheld key' n hmem with hheld | ⟨rfl, hlt⟩
      · exact .inl (hheld.consume key s.clock _)
      · exact .inl (held_consume s key' _ hlt)
    · rcases mem_cons.mp hmem with rfl | hmem
      · refine .inr fun engine createdAt houtcome => ?_
        cases houtcome
        exact hupToDate
      · exact .inl hmem
  · refine ⟨fun key' n hmem => ?_, fun _ _ => .inl, ?_, fun _ => .inl⟩
    · rcases hheld key' n hmem with hheld | ⟨rfl, hlt⟩
      · exact .inl hheld
      · exact .inr ⟨by rw [h.owned, hphase], rfl, hlt⟩
    · unfold Owned
      rw [h.owned, hphase]

/-- What a step does to what the trainer keeps of requests: it queues some, asks for one, or consumes those of the job. -/
structure Answers (job : TrainingJob ρ) (s s' : Trainer ρ) : Prop where
  held : ∀ key n, s.Held key n ∨ (key = job.key ∧ n < job.snapshotAt) → s'.Held key n
  asked : ∀ key n, (key, n) ∈ s'.asked → (key, n) ∈ s.asked ∨ (n = s.clock ∧ s'.Held key n)
  active : s'.active = s.active
  explained : ∀ consumption ∈ s'.consumed, consumption ∈ s.consumed ∨ Consumption.Explained consumption

theorem answers_requeue (s s' : Trainer ρ) (job : TrainingJob ρ) (requestedAt : Instant) (hrequests : s'.requests = s.requests)
    (hactive : s'.active = s.active) (hasked : s'.asked = s.asked) (hconsumed : s'.consumed = s.consumed) :
    Answers job s (s'.requeue job.key requestedAt) where
  held key n h := by
    rcases h with h | ⟨rfl, -⟩
    · refine Held.requeue ?_ job.key requestedAt
      unfold Held at h ⊢
      rwa [hrequests, hconsumed]
    · exact held_requeue s' job.key n requestedAt
  asked key n hmem := .inl (hasked ▸ hmem)
  active := hactive
  explained _ hmem := .inl (hconsumed ▸ hmem)

theorem answers_consume (s s' : Trainer ρ) (job : TrainingJob ρ) (houtcome : ∀ engine createdAt, outcome ≠ .upToDate engine createdAt)
    (hrequests : s'.requests = s.requests) (hactive : s'.active = s.active) (hasked : s'.asked = s.asked)
    (hconsumed : s'.consumed = s.consumed) : Answers job s (s'.consume job.key job.snapshotAt outcome) where
  held key n h := by
    rcases h with h | ⟨rfl, hlt⟩
    · refine Held.consume ?_ job.key job.snapshotAt outcome
      unfold Held at h ⊢
      rwa [hrequests, hconsumed]
    · exact held_consume s' job.key outcome hlt
  asked key n hmem := .inl (hasked ▸ hmem)
  active := hactive
  explained consumption hmem := by
    rcases mem_cons.mp hmem with rfl | hmem
    · exact .inr fun engine createdAt h => absurd h (houtcome engine createdAt)
    · exact .inl (hconsumed ▸ hmem)

theorem publish_answers (s : Trainer ρ) (job : TrainingJob ρ) (output : TrainingOutput) (finish : Finish ρ) :
    Answers job s (s.publish job output finish) := by
  unfold publish
  split
  · exact answers_requeue s _ job job.requestedAt rfl rfl rfl rfl
  · split
    · exact answers_requeue s _ job job.requestedAt rfl rfl rfl rfl
    · exact answers_consume s _ job (fun _ _ h => by cases h) rfl rfl rfl rfl

section

variable [DecidableEq ρ]

theorem finishJob_answers (s : Trainer ρ) (job : TrainingJob ρ) (finish : Finish ρ) :
    Answers job s (s.finishJob job finish) := by
  unfold finishJob
  split
  · exact answers_requeue s s job job.requestedAt rfl rfl rfl rfl
  · next output _ =>
    split_ifs
    · have hconsumed : Answers job s (s.consume job.key job.snapshotAt .discarded) :=
        answers_consume s s job (fun _ _ h => by cases h) rfl rfl rfl rfl
      refine ⟨fun key n h => (hconsumed.held key n h).ask _ finish.now, fun key n hmem => ?_, hconsumed.active,
        hconsumed.explained⟩
      rcases mem_cons.mp hmem with heq | hmem
      · cases heq
        exact .inr ⟨rfl, held_ask _ _ _ _⟩
      · exact .inl hmem
    · exact answers_consume s s job (fun _ _ h => by cases h) rfl rfl rfl rfl
    · exact publish_answers s job output finish

theorem Sound.finishes (h : s.Sound) (hphase : s.phase = .fitting job) (finish : Finish ρ) :
    s.Settles { s.finishJob job finish with phase := .finishing job } := by
  have hanswers := finishJob_answers s job finish
  refine ⟨fun key n hmem => ?_, fun key n hmem => ?_, ?_, hanswers.explained⟩
  · rcases hanswers.asked key n hmem with hmem | ⟨-, hheld⟩
    · refine .inl (hanswers.held key n ((h.accounted key n hmem).imp_right fun ⟨_, hhand⟩ => ?_))
      rw [hphase] at hhand
      exact ⟨hhand.1.symm, hhand.2⟩
    · exact .inl hheld
  · exact (hanswers.asked key n hmem).imp_right And.left
  · have howned : s.active = some job.key := by rw [h.owned, hphase]
    exact hanswers.active.trans howned

end

theorem Sound.settles (h : s.Sound) (hphase : s.phase = .finishing job) :
    s.Settles { s with active := none, phase := .finished job } := by
  refine ⟨fun key n hmem => ?_, fun _ _ => .inl, rfl, fun _ => .inl⟩
  refine (h.accounted key n hmem).imp_right fun ⟨_, hhand⟩ => ?_
  rw [hphase] at hhand
  exact hhand.elim

theorem Sound.releases (h : s.Sound) (hphase : s.phase = .fitting job ∨ s.phase = .finished job) :
    s.Settles { s.releaseJob job with phase := .idle } := by
  unfold releaseJob
  rcases hphase with hphase | hphase
  · have howned : s.active = some job.key := by rw [h.owned, hphase]
    rw [if_pos howned]
    refine ⟨fun key n hmem => ?_, fun _ _ => .inl, rfl, fun _ => .inl⟩
    rcases h.accounted key n hmem with hheld | ⟨-, hhand⟩
    · exact .inl (hheld.requeue job.key job.requestedAt)
    · rw [hphase] at hhand
      obtain ⟨rfl, -⟩ := hhand
      exact .inl (held_requeue s job.key n job.requestedAt)
  · have howned : s.active = none := by rw [h.owned, hphase]
    rw [if_neg (by rw [howned]; simp)]
    refine ⟨fun key n hmem => ?_, fun _ _ => .inl, howned, fun _ => .inl⟩
    refine (h.accounted key n hmem).imp_right fun ⟨_, hhand⟩ => ?_
    rw [hphase] at hhand
    exact hhand.elim

section

variable [DecidableEq ρ]

theorem Sound.acts (h : s.Sound) (action : TrainingAction ρ) : s.Settles (s.act action) := by
  cases action with
  | request key now => exact h.asks key now
  | evolve engine modelCreatedAt saved => exact ⟨h.accounted, fun _ _ => .inl, h.owned, fun _ => .inl⟩
  | take => exact h.takes
  | prepare runtimeContext monotonic raises =>
    dsimp only [act]
    split
    · next hphase => exact h.prepares hphase runtimeContext monotonic raises
    · exact h.same
  | finish finish =>
    dsimp only [act]
    split
    · next hphase => exact h.finishes hphase finish
    · exact h.same
  | settle =>
    dsimp only [act]
    split
    · next hphase => exact h.settles hphase
    · exact h.same
  | release =>
    dsimp only [act]
    split
    · next hphase => exact h.releases (.inl hphase)
    · next hphase => exact h.releases (.inr hphase)
    · exact h.same

theorem Sound.step (h : s.Sound) (action : TrainingAction ρ) : (s.step action).Sound := by
  have hsettles := h.acts action
  refine ⟨hsettles.accounted, fun key n hmem => ?_, hsettles.owned, fun consumption hmem => ?_⟩
  · show n < s.clock + 1
    rcases hsettles.asked key n hmem with hmem | rfl
    · exact Nat.lt_succ_of_lt (h.earlier key n hmem)
    · exact Nat.lt_succ_self _
  · rcases hsettles.explained consumption hmem with hmem | hexplained
    · exact h.explained consumption hmem
    · exact hexplained

/-- The job is current, and its publication raises. -/
def PublicationRaises (s : Trainer ρ) (job : TrainingJob ρ) (finish : Finish ρ) : Prop :=
  s.phase = .fitting job ∧ s.stale job finish.runtimeContext finish.monotonic = false ∧
    ∃ output, finish.fitted = some output ∧ (output.models.isEmpty && output.artifacts.isEmpty) = false ∧
      ((s.engine.publishTraining s.saved output finish.now finish.faults).1).isSome

theorem step_of_raises {finish : Finish ρ} (h : s.PublicationRaises job finish) :
    (s.step (.finish finish)).engine = s.engine ∧ (s.step (.finish finish)).saved = s.saved ∧
      ((s.step (.finish finish)).requests.get? job.key).isSome := by
  obtain ⟨hphase, hfresh, output, hfitted, hoccupied, hraises⟩ := h
  have hatomic := publication_atomic s.engine s.saved output finish.now finish.faults
  have hfinish : s.finishJob job finish = s.publish job output finish := by
    unfold finishJob
    simp only [hfitted, hfresh, hoccupied, Bool.false_eq_true, if_false]
  unfold step act
  simp only [hphase, hfinish]
  unfold publish
  generalize s.engine.publishTraining s.saved output finish.now finish.faults = result at hatomic hraises ⊢
  obtain ⟨_ | e, engine, saved⟩ := result
  · cases hraises
  · obtain ⟨rfl, rfl⟩ := hatomic
    exact ⟨rfl, rfl, isSome_setdefault.mpr (.inl rfl)⟩

end

end Trainer

/-- **No request for training is lost.** In every run each request is queued, or is what the job in hand is for and
older than its evidence, or was consumed at a later step, by a job whose evidence was frozen then or because the latest
model had seen all but less than ten outcomes. What is published is all in the engine and the database, and a
publication that raises leaves both as they were, with its request in the queue. -/
theorem requests_accounted {ρ : Type} [DecidableEq ρ] (engine : LearningEngine) (modelCreatedAt : String → Instant)
    (saved : TrainingDatabase) (actions : List (TrainingAction ρ)) :
    let s := run Trainer.step ({ engine, modelCreatedAt, saved } : Trainer ρ) actions;
    (∀ key n, (key, n) ∈ s.asked → s.Accounted key n) ∧
      (∀ consumption ∈ s.consumed, consumption.Explained) ∧
      (∀ output now faults,
        match s.engine.publishTraining s.saved output now faults with
        | (some _, engine', saved') => engine' = s.engine ∧ saved' = s.saved
        | (none, engine', saved') => Published s.engine output engine' saved') ∧
      ∀ job finish, s.PublicationRaises job finish →
        (s.step (.finish finish)).engine = s.engine ∧ (s.step (.finish finish)).saved = s.saved ∧
          ((s.step (.finish finish)).requests.get? job.key).isSome := by
  intro s
  have hstart : Trainer.Sound ({ engine, modelCreatedAt, saved } : Trainer ρ) :=
    ⟨fun _ _ hmem => absurd hmem not_mem_nil, fun _ _ hmem => absurd hmem not_mem_nil, rfl,
      fun _ hmem => absurd hmem not_mem_nil⟩
  have hsound : s.Sound := run_invariant hstart fun _ action h => h.step action
  refine ⟨hsound.accounted, hsound.explained, ?_, fun _ _ => Trainer.step_of_raises⟩
  exact fun output now faults => publication_atomic s.engine s.saved output now faults

/-! ### A request without a job -/

theorem latestModel_rmse : (0 : ℚ) ≤ 0 := le_rfl

def latestModel : LearningModel where
  version := "learner-v6-1"
  riskMode := some .balanced
  configurationFingerprint := some "configuration"
  featureNames := []
  means := []
  scales := []
  coefficients := []
  validationRmse := 0
  validationRmse_nonneg := latestModel_rmse

/-- A trainer of an engine with this model, and without outcomes. -/
def idleTrainer : Trainer Unit where
  engine :=
    { runtime := ⟨fun _ => none, fun _ => "", fun _ => 0⟩
      coveragePolicy := {}
      currentRiskMode := .balanced
      configurationFingerprint := some "configuration"
      baselineVersion := "baseline-v1.5"
      mode := .active
      consentGranted := true
      autoParticipation := true
      skillArtifacts := .empty
      skillStates := .empty
      activeSkillVersions := .empty
      models := [latestModel] }
  modelCreatedAt := fun _ => 0
  saved := {}

def requestTaken : List (TrainingAction Unit) :=
  [.request (.balanced, some "configuration") 0, .take, .prepare () 0 false]

/-- Whether there is no job. -/
def Phase.jobless {ρ : Type} : Phase ρ → Bool
  | .idle | .preparing _ _ => true
  | .fitting _ | .finishing _ | .finished _ => false

/-- **A request without a job**: it is neither queued nor active, and no job was ever prepared, for a look at the
outcomes has consumed it. -/
theorem request_without_job :
    let s := run Trainer.step idleTrainer requestTaken;
    s.asked = [((.balanced, some "configuration"), 0)] ∧ s.requests.rows = [] ∧ s.active = none ∧
      ∀ before, before <+: requestTaken → (run Trainer.step idleTrainer before).phase.jobless = true := by
  have hjobless : ∀ n ≤ 3, (run Trainer.step idleTrainer (requestTaken.take n)).phase.jobless = true := by
    decide +kernel
  refine ⟨by decide +kernel, by decide +kernel, by decide +kernel, fun before hbefore => ?_⟩
  rw [prefix_iff_eq_take.mp hbefore]
  exact hjobless before.length hbefore.length_le

end SignalArcade.Challenger
