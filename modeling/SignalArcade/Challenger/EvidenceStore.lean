import SignalArcade.Challenger.PolicyLedger
import SignalArcade.Challenger.Collection
import SignalArcade.Lib.Prog

/-!
# Learning evidence in memory and in the database

The learner keeps what it observes in two dictionaries and writes it to two tables; the identities of the Policy
lane stand in a third. The broker writes to the database too: an order that is saved is linked to the episode of its
decision there, and `link_policy_order` does the same to the episode in memory.
-/

namespace SignalArcade.Challenger.Mirror

open Paper (Instant)
open Market.Features (TokenState)
open Collection (Trajectory Pass Context Economics expiredReason)
open Prog

/-! ### Records -/

/-- A row of discovery: what was entered, and its trajectory. -/
structure LearningObservation where
  decisionId : String
  entered : Challenger.LearningObservation
  economics : Economics
  row : Trajectory

def LearningObservation.mint (observation : LearningObservation) : String := observation.entered.mint

def LearningObservation.observationId (observation : LearningObservation) : String := "learning-" ++ observation.decisionId

/-- A row of evidence: what was entered, and its trajectory. -/
structure LearningEvidenceEpisode where
  entered : Challenger.LearningEvidenceEpisode
  decisionId : Option String
  orderId : Option String := none
  economics : Option Economics
  row : Trajectory
  completedAt : Option Instant := none

def LearningEvidenceEpisode.episodeId (episode : LearningEvidenceEpisode) : String := episode.entered.episodeId

def LearningEvidenceEpisode.policy (episode : LearningEvidenceEpisode) : Bool := episode.entered.lane = .policy

/-- Of a `PaperOrder`, which it is and whose. -/
structure PaperOrder where
  orderId : String
  decisionId : Option String
  deriving DecidableEq

/-- The rows of discovery, by mint. -/
abbrev Observations := Table String LearningObservation LearningObservation.mint

/-- The rows of evidence. -/
abbrev Episodes := Table String LearningEvidenceEpisode LearningEvidenceEpisode.episodeId

/-- The tables of the database: a mint has one observation. -/
structure Database where
  learningObservations : Observations := .empty
  learningEvidenceEpisodes : Episodes := .empty
  learningPolicyIdentities : PolicyIdentities := fun _ => none
  paperOrders : Table String PaperOrder PaperOrder.orderId := .empty

/-- What the engine has in memory. -/
structure Learner where
  observations : Observations := .empty
  evidenceEpisodes : Episodes := .empty
  policyIdentities : PolicyIdentities := fun _ => none

/-- The learner, beside its database. -/
structure Store where
  learner : Learner := {}
  database : Database := {}

/-! ### The database -/

def Episodes.link (episodes : Episodes) (orderId : String) : Option LearningEvidenceEpisode → Episodes
  | some episode => episodes.upsert { episode with orderId := some orderId }
  | none => episodes

def LearningEvidenceEpisode.decidedBy (decisionId : String) (episode : LearningEvidenceEpisode) : Bool :=
  episode.policy && episode.decisionId = some decisionId

namespace Database

variable (database : Database)

/-- `save_order`: the first episode of the decision is linked with it. -/
def saveOrder (order : PaperOrder) : Database :=
  let database := { database with paperOrders := database.paperOrders.upsert order }
  match order.decisionId.filter (· ≠ "") with
  | none => database
  | some decisionId =>
    let found := (database.learningEvidenceEpisodes.rows.filter (·.decidedBy decisionId)).insertionSort
      fun a b => a.episodeId ≤ b.episodeId
    { database with
      learningEvidenceEpisodes := database.learningEvidenceEpisodes.link order.orderId found.head? }

/-- `save_learning_evidence_episode`. -/
def saveEpisode (episode : LearningEvidenceEpisode) : Database :=
  { database with learningEvidenceEpisodes := database.learningEvidenceEpisodes.upsert episode }

/-- `save_learning_observation`. -/
def saveObservation (observation : LearningObservation) : Database :=
  { database with learningObservations := database.learningObservations.upsert observation }

/-- `remember_policy_identities`, of one episode. -/
def rememberIdentity (episode : LearningEvidenceEpisode) : Database :=
  { database with
    learningPolicyIdentities := remember database.learningPolicyIdentities episode.entered }

def conflicts (observation : LearningObservation) : Bool :=
  (database.learningObservations.get? observation.mint).any fun existing =>
    existing.observationId ≠ observation.observationId

end Database

/-- A write of the pass that may raise. -/
inductive Write where
  | episode (episodeId : String)
  | identity
  | observation (mint : String)
  /-- The trial of a suspended skill. -/
  | recovery
  | decision
  | order
  | fill
  | pruneObservations
  | pruneEpisodes
  deriving DecidableEq

/-- A handler ends, or breaks off at a write that raised. -/
abbrev Handler := EStateM Write Store

variable (raises : Write → Bool)

def commit (write : Write) (change : Database → Database) : Handler Unit := do
  if raises write then throw write
  modify fun s => { s with database := change s.database }

def inMemory (change : Learner → Learner) : Handler Unit := modify fun s => { s with learner := change s.learner }

/-- `save_learning_observation`, and the constraint of its table. -/
def saveObservation (observation : LearningObservation) : Handler Unit := do
  let s ← get
  if s.database.conflicts observation then throw (.observation observation.mint)
  commit raises (.observation observation.mint) (·.saveObservation observation)

/-! ### Registration -/

/-- A decision that is registered, with its entry. -/
structure Registration where
  decisionId : String
  enrolment : Enrolment
  economics : Economics
  feeBps : ℤ
  networkFeeLamports : ℤ
  sizeTrials : ℚ → Option Collection.ChallengerSizeTrial

namespace Registration

variable (registration : Registration)

/-- What will be collected. -/
def row : Trajectory where
  mint := registration.enrolment.observation.mint
  enteredAt := registration.enrolment.observation.createdAt
  configurationFingerprint := registration.enrolment.observation.configurationFingerprint
  feeBps := registration.feeBps
  checkpointNetworkFeeLamports := some registration.networkFeeLamports
  sizeTrials := registration.sizeTrials

def observation : LearningObservation where
  decisionId := registration.decisionId
  entered := registration.enrolment.observation
  economics := registration.economics
  row := registration.row

def episode (hash : TrajectoryMaterial → String) : LearningEvidenceEpisode where
  entered := registration.enrolment.episode hash
  decisionId := some registration.decisionId
  economics := some registration.economics
  row := registration.row

end Registration

def enrolledAs (s : Store) (episode : LearningEvidenceEpisode) : LearningEvidenceEpisode :=
  { episode with
    entered := enrolled
      (load s.learner.policyIdentities s.database.learningPolicyIdentities episode.entered.policyIdentityKey)
      episode.entered }

/-- An episode is registered in the Policy lane: in memory, in its table, and in the ledger. -/
def enrolPolicy (episode : LearningEvidenceEpisode) : Handler Unit := do
  let s ← get
  let enrolled := enrolledAs s episode
  inMemory fun learner =>
    { learner with
      policyIdentities :=
        load learner.policyIdentities s.database.learningPolicyIdentities episode.entered.policyIdentityKey
      evidenceEpisodes := learner.evidenceEpisodes.upsert enrolled }
  commit raises (.episode enrolled.episodeId) (·.saveEpisode enrolled)
  if enrolled.entered.policyIdentity.isSome then
    commit raises .identity (·.rememberIdentity enrolled)
    let s ← get
    inMemory fun learner =>
      { learner with
        policyIdentities :=
          refresh learner.policyIdentities s.database.learningPolicyIdentities enrolled.entered.policyIdentityKey }
  commit raises .recovery id

/-- A decision is recorded in Discovery: in memory, and in its table. -/
def enrolDiscovery (observation : LearningObservation) : Handler Unit := do
  let s ← get
  inMemory fun learner =>
    { learner with
      policyIdentities :=
        load learner.policyIdentities s.database.learningPolicyIdentities observation.entered.policyIdentityKey
      observations := learner.observations.upsert observation }
  saveObservation raises observation

/-- `register`, of a decision whose entry was quoted. -/
def register (hash : TrajectoryMaterial → String) (registration : Registration) : Handler Unit := do
  let s ← get
  let enrolment := registration.enrolment
  let existingPolicy := (s.learner.evidenceEpisodes.get? (registration.episode hash).episodeId).any (·.policy)
  let discoveryExists := (s.learner.observations.get? enrolment.observation.mint).isSome
  if discoveryExists ∧ (¬ enrolment.evaluationActionable ∨ existingPolicy) then return
  if enrolment.observation.baselineAction = .enter ∧ enrolment.evaluationActionable ∧ ¬ existingPolicy then
    enrolPolicy raises (registration.episode hash)
  if ¬ discoveryExists then enrolDiscovery raises registration.observation

/-! ### Orders -/

def linkPolicyOrder (decisionId orderId : String) : Handler Unit :=
  inMemory fun learner =>
    { learner with
      evidenceEpisodes := learner.evidenceEpisodes.link orderId
        (learner.evidenceEpisodes.rows.find? (·.decidedBy decisionId)) }

/-- A decision is submitted: it is saved with its order, and the order is linked in memory. -/
def submit (decisionId orderId : String) : Handler Unit := do
  commit raises .decision id
  commit raises .order (·.saveOrder ⟨orderId, some decisionId⟩)
  linkPolicyOrder decisionId orderId

/-- A fill is committed with the episode of the Execution lane, which `remember_committed_evidence` reads. -/
def fill (episode : LearningEvidenceEpisode) : Handler Unit := do
  commit raises .fill (·.saveEpisode episode)
  inMemory fun learner => { learner with evidenceEpisodes := learner.evidenceEpisodes.upsert episode }

/-! ### Checkpoints -/

/-- An episode goes through the loops. -/
def LearningEvidenceEpisode.collects (episode : LearningEvidenceEpisode) : Bool :=
  episode.policy && episode.row.status = .pending

/-- An episode after a loop: once it is complete it says when. -/
def LearningEvidenceEpisode.advance (episode : LearningEvidenceEpisode) (now : Instant) (pass : Pass) :
    LearningEvidenceEpisode :=
  let row := pass.row.finish
  { episode with
    row := row
    completedAt := if row.status = .complete then some now else episode.completedAt }

/-- An episode goes through a loop, and is saved when it changed. -/
def advanceEpisode (now : Instant) (collect : LearningEvidenceEpisode → Pass) (episodeId : String) : Handler Unit := do
  let s ← get
  match (s.learner.evidenceEpisodes.get? episodeId).filter (·.collects) with
  | none => return
  | some episode =>
    let pass := collect episode
    let advanced := episode.advance now pass
    inMemory fun learner => { learner with evidenceEpisodes := learner.evidenceEpisodes.upsert advanced }
    if pass.changed ≠ 0 ∨ advanced.row.status = .complete then
      commit raises (.episode episodeId) (·.saveEpisode advanced)

/-- An observation goes through a loop, and is saved when it changed. -/
def advanceObservation (collect : LearningObservation → Pass) (mint : String) : Handler Unit := do
  let s ← get
  match (s.learner.observations.get? mint).filter (·.row.status = .pending) with
  | none => return
  | some observation =>
    let pass := collect observation
    let advanced := { observation with row := pass.row.finish }
    inMemory fun learner => { learner with observations := learner.observations.upsert advanced }
    if pass.changed ≠ 0 then saveObservation raises advanced

/-- A market is observed. -/
structure Sighting where
  context : Context
  state : TokenState
  now : Instant
  cached : Bool

/-- The loops of `observe_market`. -/
def Sighting.episodePass (sighting : Sighting) (episode : LearningEvidenceEpisode) : Pass :=
  episode.row.observed sighting.context sighting.state sighting.now sighting.cached episode.economics

def Sighting.observationPass (sighting : Sighting) (observation : LearningObservation) : Pass :=
  observation.row.observed sighting.context sighting.state sighting.now sighting.cached (some observation.economics)

def observeMarket (sighting : Sighting) : Handler Unit := do
  let s ← get
  let ids := (s.learner.evidenceEpisodes.rows.filter (·.entered.mint = sighting.state.mint)).map (·.episodeId)
  ids.forM (advanceEpisode raises sighting.now sighting.episodePass)
  advanceObservation raises sighting.observationPass sighting.state.mint

/-- `expire_checkpoints`, of a collection that knows its markets. -/
def expireCheckpoints (context : Context) (now : Instant) (states : String → Option TokenState) : Handler Unit := do
  let s ← get
  (s.learner.observations.rows.map (·.mint)).forM (advanceObservation raises fun observation =>
    observation.row.expired now (expiredReason context now (states observation.mint)))
  (s.learner.evidenceEpisodes.rows.map (·.episodeId)).forM (advanceEpisode raises now fun episode =>
    episode.row.expired now (expiredReason context now (states episode.entered.mint)))

/-! ### Pruning and restarts -/

/-- A key of what is left in memory. -/
def Learner.retains (learner : Learner) (key : PolicyIdentityKey) : Bool :=
  (learner.observations.rows.any fun observation => observation.entered.policyIdentityKey = key) ||
    learner.evidenceEpisodes.rows.any fun episode => episode.entered.policyIdentityKey = key

/-- The identities of what is left in memory. -/
def Learner.forget (learner : Learner) (removed : Bool) : Learner :=
  { learner with
    policyIdentities := fun key => if removed && !learner.retains key then none else learner.policyIdentities key }

/-- `_prune_complete_history`, of the mints and the episodes that the database lets go. -/
def pruneCompleteHistory (mints episodeIds : List String) : Handler Unit := do
  commit raises .pruneObservations fun database =>
    { database with learningObservations := database.learningObservations.filter fun o => o.mint ∉ mints }
  inMemory fun learner => { learner with observations := learner.observations.filter fun o => o.mint ∉ mints }
  commit raises .pruneEpisodes fun database =>
    { database with
      learningEvidenceEpisodes := database.learningEvidenceEpisodes.filter fun e => e.episodeId ∉ episodeIds }
  inMemory fun learner =>
    let removed := mints ≠ [] || learner.evidenceEpisodes.rows.any fun e => e.episodeId ∈ episodeIds
    { learner with
      evidenceEpisodes := learner.evidenceEpisodes.filter fun e => e.episodeId ∉ episodeIds }.forget removed

/-- The learner is made again from its database. -/
def restart : Handler Unit := do
  commit raises .identity fun database =>
    { database with
      learningPolicyIdentities :=
        (database.learningEvidenceEpisodes.rows.map (·.entered)).foldl remember database.learningPolicyIdentities }
  modify fun s =>
    let learner : Learner :=
      { observations := s.database.learningObservations
        evidenceEpisodes := s.database.learningEvidenceEpisodes
        policyIdentities := s.database.learningPolicyIdentities }
    { s with learner := learner.forget true }

/-! ### Events -/

/-- What the orchestrator has done. -/
inductive Action where
  | register (registration : Registration)
  | submit (decisionId orderId : String)
  | saveOrder (order : PaperOrder)
  | fill (episode : LearningEvidenceEpisode)
  | observeMarket (sighting : Sighting)
  | expireCheckpoints (context : Context) (now : Instant) (states : String → Option TokenState)
  | prune (mints episodeIds : List String)
  | restart

/-- What is done, and which writes of it raise. -/
structure Event where
  action : Action
  raises : Write → Bool := fun _ => false

def handle (hash : TrajectoryMaterial → String) (event : Event) : Handler Unit :=
  match event.action with
  | .register registration => register event.raises hash registration
  | .submit decisionId orderId => submit event.raises decisionId orderId
  | .saveOrder order => commit event.raises .order (·.saveOrder order)
  | .fill episode => fill event.raises episode
  | .observeMarket sighting => observeMarket event.raises sighting
  | .expireCheckpoints context now states => expireCheckpoints event.raises context now states
  | .prune mints episodeIds => pruneCompleteHistory event.raises mints episodeIds
  | .restart => restart event.raises

/-- The store once an event was handled, whether or not it raised. -/
def step (hash : TrajectoryMaterial → String) (s : Store) (event : Event) : Store := after (handle hash event) s

end SignalArcade.Challenger.Mirror
