import SignalArcade.Challenger.Collection
import SignalArcade.Lib.Prog

/-!
# Work that is due

A market event is handed to `observe_market` only when `has_due_market_work` says that something is due for its mint.
The check looks up the observation of the mint and goes through the episodes that an index keeps for it; the call does
the same, with three loops, and writes as it goes: checkpoints, attempts, counts of the diagnostics, rows of the
database.
-/

namespace SignalArcade.Challenger.Collection.DueWork

open Prog
open Paper (Instant RiskMode)
open Market.Features (TokenState)

/-! ### The engine -/

/-- An observation, with the context its outcome is counted under. -/
structure KeptObservation where
  observation : LearningObservation
  observationId : String
  riskMode : RiskMode
  baselineVersion : String
  featureSchemaVersion : String
  activeSkillVersions : List (String × String)

/-- An episode, with its mode and the reason it was completed for. -/
structure KeptEpisode where
  episode : LearningEvidenceEpisode
  riskMode : RiskMode
  completionReason : Option String := none

/-- A risk mode and a configuration. -/
abbrev Cohort := RiskMode × Option String

/-- What becomes of a checkpoint. -/
inductive OutcomeStage where
  | usable | unavailable | expired
  deriving DecidableEq

/-- `CollectionDiagnostics`: how often each stage was recorded of a lane and a horizon, the last stage of a request for
what is pending, and how often something expired after it. -/
structure CollectionDiagnostics where
  counts : String × ℕ × OutcomeStage → ℕ
  pending : List ((String × ℕ × String) × String)
  expiry : String × ℕ × String → ℕ

/-- A row that is saved. -/
inductive Write where
  | observation (row : KeptObservation)
  | episode (row : KeptEpisode)
  | outcomesSeen (count : ℕ)
  | contextOutcomesSeen (counts : List (String × ℕ))

/-- The engine, as far as `observe_market` changes it itself, and the rest of it. -/
structure LearningEngine (ρ : Type) where
  observations : Table String KeptObservation fun kept => kept.observation.row.mint
  evidenceEpisodes : Table String KeptEpisode fun kept => kept.episode.episodeId
  evidenceEpisodeIdsByMint : List (String × List String)
  collectionDiagnostics : CollectionDiagnostics
  outcomesSeen : ℕ
  contextOutcomeCounts : List (String × ℕ)
  timingRevision : ℕ
  timingCache : List String
  /-- What was written to the database, the last row first. -/
  database : List Write
  rest : ρ

/-- What is raised. -/
inductive EngineError (ε : Type) where
  /-- `KeyError`: the index has an episode that is not there. -/
  | key (episodeId : String)
  | raised (error : ε)

/-- What runs on the engine, and may raise. -/
abbrev Program (ρ ε : Type) := EStateM (EngineError ε) (LearningEngine ρ)

/-- What is done elsewhere. -/
structure Surroundings (ρ ε : Type) where
  coachOutcomeContextKey : RiskMode → Option String → String → String → List (String × String) → String
  /-- What `_advance_primary_outcomes` does for some cohorts. -/
  govern : List Cohort → Program ρ ε Unit
  pruneCompleteHistory : Program ρ ε Unit

/-- `CollectionDiagnostics.record`, of an outcome. -/
def CollectionDiagnostics.record (diagnostics : CollectionDiagnostics) (lane : String) (horizon : ℕ)
    (stage : OutcomeStage) (trajectoryId : String) : CollectionDiagnostics where
  counts := Function.update diagnostics.counts (lane, horizon, stage)
    (min (2 ^ 63 - 1) (diagnostics.counts (lane, horizon, stage) + 1))
  pending := diagnostics.pending.filter fun entry => entry.1 ≠ (lane, horizon, trajectoryId)
  expiry :=
    let last := (diagnostics.pending.lookup (lane, horizon, trajectoryId)).getD "unknown"
    if stage = .expired then
      Function.update diagnostics.expiry (lane, horizon, last)
        (min (2 ^ 63 - 1) (diagnostics.expiry (lane, horizon, last) + 1))
    else diagnostics.expiry

/-- `counts[key] = counts.get(key, 0) + 1`. -/
def increment (counts : List (String × ℕ)) (key : String) : List (String × ℕ) :=
  Table.upsertRows Prod.fst (key, (counts.lookup key).getD 0 + 1) counts

namespace LearningEngine

variable {ρ ε : Type} (engine : LearningEngine ρ)

/-- `_evidence_episode_ids_by_mint.get(mint, ())`. -/
def episodeIdsOf (mint : String) : List String := (engine.evidenceEpisodeIdsByMint.lookup mint).getD []

/-! ### The check -/

def due (now entered : Instant) (checkpoints : Checkpoints) : Bool :=
  checkpoints.rows.length = learningHorizonsSeconds.length ||
    learningHorizonsSeconds.any fun horizon =>
      (checkpoints.get? horizon).isNone && seconds horizon ≤ max 0 (now - entered)

/-- The loop over the episodes. -/
def anyDueEpisode (now : Instant) : List String → Except (EngineError ε) Bool
  | [] => .ok false
  | episodeId :: episodeIds =>
    match engine.evidenceEpisodes.get? episodeId with
    | none => .error (.key episodeId)
    | some kept =>
      if kept.episode.collects && due now kept.episode.row.enteredAt kept.episode.row.checkpoints then .ok true
      else anyDueEpisode now episodeIds

/-- Whether the market has work that is due. -/
def hasDueMarketWork (mint : String) (now : Instant) : Except (EngineError ε) Bool :=
  if (engine.observations.get? mint).any fun kept => kept.observation.row.status = .pending &&
      due now kept.observation.row.enteredAt kept.observation.row.checkpoints then
    .ok true
  else engine.anyDueEpisode now (engine.episodeIdsOf mint)

end LearningEngine

/-! ### The call -/

section ObserveMarket

variable {ρ ε : Type} (context : Context) (surroundings : Surroundings ρ ε) (state : TokenState) (now : Instant)
  (cached : Bool)

def stageOf (age : ℤ) (horizon : ℕ) (checkpoint : Option LearningCheckpoint) : OutcomeStage :=
  if seconds (horizon + checkpointGraceSeconds) < age then .expired
  else if (checkpoint.bind (·.netReturn)).isSome then .usable else .unavailable

def observeHorizon (economics : Option Economics) (lane trajectoryId : String) (work : Pass × CollectionDiagnostics)
    (horizon : ℕ) : Pass × CollectionDiagnostics :=
  let pass := work.1.observe context state now cached economics horizon
  if pass.changed = work.1.changed then (pass, work.2)
  else
    (pass, work.2.record lane horizon (stageOf (pass.row.age now) horizon (pass.row.checkpoints.get? horizon)) trajectoryId)

/-- The loop over the horizons. -/
def observeTrajectory (economics : Option Economics) (lane trajectoryId : String) (row : Trajectory)
    (diagnostics : CollectionDiagnostics) : Pass × CollectionDiagnostics :=
  learningHorizonsSeconds.foldl (observeHorizon context state now cached economics lane trajectoryId)
    ({ row := row }, diagnostics)

/-- What `_observe_policy_episodes` returns. -/
structure PolicyPass where
  changed : ℕ := 0
  primaryCohorts : List Cohort := []
  completed : Bool := false

def advanceEpisode (kept : KeptEpisode) (policy : PolicyPass) : Program ρ ε PolicyPass := do
  let engine ← get
  let work := observeTrajectory context state now cached kept.episode.economics "policy" kept.episode.episodeId
    kept.episode.row engine.collectionDiagnostics
  let completed : Bool := work.1.row.finish.status = .complete
  let kept' : KeptEpisode :=
    { kept with
      episode := kept.episode.advance now work.1
      completionReason := if completed then some "all_horizons_resolved" else kept.completionReason }
  set { engine with
        evidenceEpisodes := engine.evidenceEpisodes.upsert kept'
        collectionDiagnostics := work.2
        database := if work.1.changed ≠ 0 ∨ completed then .episode kept' :: engine.database else engine.database }
  return { changed := policy.changed + work.1.changed
           primaryCohorts :=
            if work.1.primaryChanged then
              policy.primaryCohorts.insert (kept.riskMode, kept.episode.row.configurationFingerprint)
            else policy.primaryCohorts
           completed := policy.completed || completed }

def observePolicyEpisode (policy : PolicyPass) (episodeId : String) : Program ρ ε PolicyPass := do
  let engine ← get
  match engine.evidenceEpisodes.get? episodeId with
  | none => throw (.key episodeId)
  | some kept => if kept.episode.collects then advanceEpisode context state now cached kept policy else return policy

def observePolicyEpisodes : Program ρ ε PolicyPass := do
  let engine ← get
  (engine.episodeIdsOf state.mint).foldlM (observePolicyEpisode context state now cached) {}

def advancePrimaryOutcomes (cohorts : List Cohort) (outcomesChanged : Bool) : Program ρ ε Unit :=
  if cohorts.isEmpty ∧ ¬ outcomesChanged then pure () else surroundings.govern cohorts

def recordUsableOutcome (kept : KeptObservation) : Program ρ ε Unit := do
  let engine ← get
  let counts := increment engine.contextOutcomeCounts
    (surroundings.coachOutcomeContextKey kept.riskMode kept.observation.row.configurationFingerprint kept.baselineVersion
      kept.featureSchemaVersion kept.activeSkillVersions)
  set { engine with
        outcomesSeen := engine.outcomesSeen + 1
        contextOutcomeCounts := counts
        database := .contextOutcomesSeen counts :: .outcomesSeen (engine.outcomesSeen + 1) :: engine.database }

/-- The observation after the loop, and what it sets off. -/
def advanceObservation (kept : KeptObservation) (policy : PolicyPass) : Program ρ ε ℕ := do
  let engine ← get
  let work := observeTrajectory context state now cached (some kept.observation.economics) "discovery" kept.observationId
    kept.observation.row engine.collectionDiagnostics
  let kept' : KeptObservation := { kept with observation := { kept.observation with row := work.1.row.finish } }
  let changed := work.1.changed
  set { engine with
        observations := engine.observations.upsert kept'
        collectionDiagnostics := work.2
        database := if changed ≠ 0 then .observation kept' :: engine.database else engine.database
        timingRevision := if changed ≠ 0 then engine.timingRevision + 1 else engine.timingRevision
        timingCache := if changed ≠ 0 then [] else engine.timingCache }
  if work.1.primaryChanged ∧ work.1.becameAvailable then recordUsableOutcome surroundings kept' else pure ()
  advancePrimaryOutcomes surroundings
    (if work.1.primaryChanged then
      policy.primaryCohorts.insert (kept.riskMode, kept.observation.row.configurationFingerprint)
    else policy.primaryCohorts)
    (changed ≠ 0 ∨ policy.changed ≠ 0)
  if kept'.observation.row.status = .complete ∨ policy.completed then surroundings.pruneCompleteHistory else pure ()
  return changed + policy.changed

/-- What is done of the observation of the mint, if it is pending. -/
def observeObservation (policy : PolicyPass) : Program ρ ε ℕ := do
  let engine ← get
  match (engine.observations.get? state.mint).filter fun kept => kept.observation.row.status = .pending with
  | none => do
    advancePrimaryOutcomes surroundings policy.primaryCohorts (policy.changed ≠ 0)
    if policy.completed then surroundings.pruneCompleteHistory else pure ()
    return policy.changed
  | some kept => advanceObservation context surroundings state now cached kept policy

/-- Nothing, unless the market is live. -/
def observeMarket (live : Bool) : Program ρ ε ℕ :=
  if ¬ live then return 0
  else do
    let policy ← observePolicyEpisodes context state now cached
    observeObservation context surroundings state now cached policy

end ObserveMarket

/-! ### Nothing is due -/

section Idle

variable {ρ ε : Type} {context : Context} {surroundings : Surroundings ρ ε} {state : TokenState} {now : Instant}
  {cached : Bool} {row : Trajectory}

section

variable (h : LearningEngine.due now row.enteredAt row.checkpoints = false)
include h

theorem not_due :
    row.checkpoints.rows.length ≠ learningHorizonsSeconds.length ∧
      ∀ horizon ∈ learningHorizonsSeconds,
        (row.checkpoints.get? horizon).isSome ∨ row.age now < seconds horizon := by
  unfold LearningEngine.due at h
  rw [Bool.or_eq_false_iff, decide_eq_false_iff_not, List.any_eq_false] at h
  refine ⟨h.1, fun horizon hmem => ?_⟩
  have hhorizon := h.2 horizon hmem
  rw [Bool.and_eq_true, Option.isNone_iff_eq_none, decide_eq_true_eq, not_and, not_le] at hhorizon
  by_cases hnone : row.checkpoints.get? horizon = none
  · exact .inr (hhorizon hnone)
  · exact .inl (Option.isSome_iff_ne_none.mpr hnone)

theorem observeTrajectory_idle
    (economics : Option Economics) (lane trajectoryId : String) (diagnostics : CollectionDiagnostics) :
    observeTrajectory context state now cached economics lane trajectoryId row diagnostics = ({ row := row }, diagnostics) := by
  have hrounds := (not_due h).2
  unfold observeTrajectory
  generalize learningHorizonsSeconds = horizons at hrounds
  induction horizons with
  | nil => rfl
  | cons horizon horizons ih =>
    have hround : observeHorizon context state now cached economics lane trajectoryId ({ row := row }, diagnostics) horizon =
        ({ row := row }, diagnostics) := by
      have hpass : Pass.observe context state now cached economics { row := row } horizon = { row := row } :=
        if_pos (hrounds horizon List.mem_cons_self)
      unfold observeHorizon
      rw [hpass]
      exact if_pos rfl
    rw [List.foldl_cons, hround]
    exact ih fun horizon' hmem => hrounds horizon' (List.mem_cons_of_mem _ hmem)

theorem finish_idle : row.finish = row :=
  if_neg (not_due h).1

end

variable {engine : LearningEngine ρ}

theorem advanceEpisode_idle {kept : KeptEpisode} (policy : PolicyPass)
    (hkept : engine.evidenceEpisodes.get? kept.episode.episodeId = some kept) (hcollects : kept.episode.collects = true)
    (h : LearningEngine.due now kept.episode.row.enteredAt kept.episode.row.checkpoints = false) :
    advanceEpisode context state now cached kept policy engine = (.ok policy engine : EStateM.Result (EngineError ε) _ _) := by
  have hpending : kept.episode.row.status = .pending := by
    simpa using (Bool.and_eq_true_iff.mp hcollects).2
  have hadvance : kept.episode.advance now { row := kept.episode.row } = kept.episode := by
    simp [LearningEvidenceEpisode.advance, finish_idle h, hpending]
  show EStateM.Result.ok _ _ = _
  simp [observeTrajectory_idle h, finish_idle h, hpending, hadvance, Table.upsert_of_get? hkept]

/-- Episodes without due work are left. -/
theorem observePolicyEpisodes_idle {episodeIds : List String} (policy : PolicyPass)
    (h : engine.anyDueEpisode now episodeIds = (.ok false : Except (EngineError ε) Bool)) :
    episodeIds.foldlM (observePolicyEpisode context state now cached) policy engine =
      (.ok policy engine : EStateM.Result (EngineError ε) _ _) := by
  induction episodeIds with
  | nil => rfl
  | cons episodeId episodeIds ih =>
    unfold LearningEngine.anyDueEpisode at h
    cases hget : engine.evidenceEpisodes.get? episodeId with
    | none =>
      rw [hget] at h
      cases h
    | some kept =>
      rw [hget] at h
      dsimp only at h
      split at h
      · cases h
      next hdue =>
      have hround : observePolicyEpisode context state now cached policy episodeId engine =
          (.ok policy engine : EStateM.Result (EngineError ε) _ _) := by
        unfold observePolicyEpisode
        rw [get_bind, hget]
        dsimp only
        by_cases hcollects : kept.episode.collects = true
        · rw [if_pos hcollects]
          have hkey : kept.episode.episodeId = episodeId := (Table.get?_eq_some.mp hget).2
          apply advanceEpisode_idle policy (hkey ▸ hget) hcollects
          simpa [hcollects] using hdue
        · rw [if_neg hcollects]
          rfl
      rw [List.foldlM_cons, bind_of_ok hround]
      exact ih h

theorem observeObservation_idle
    (h : ∀ kept, engine.observations.get? state.mint = some kept → kept.observation.row.status = .pending →
      LearningEngine.due now kept.observation.row.enteredAt kept.observation.row.checkpoints = false) :
    observeObservation context surroundings state now cached {} engine = .ok 0 engine := by
  unfold observeObservation
  rw [get_bind]
  cases hget : (engine.observations.get? state.mint).filter fun kept => kept.observation.row.status = .pending with
  | none => rfl
  | some kept =>
    obtain ⟨hkept, hpending⟩ := Option.filter_eq_some_iff.mp hget
    have hidle := h kept hkept (by simpa using hpending)
    have hkey : kept.observation.row.mint = state.mint := (Table.get?_eq_some.mp hkept).2
    have hsame : engine.observations.upsert kept = engine.observations := Table.upsert_of_get? (hkey ▸ hkept)
    have hstatus : kept.observation.row.status = .pending := by simpa using hpending
    dsimp only
    unfold advanceObservation
    rw [get_bind]
    simp only [observeTrajectory_idle hidle, finish_idle hidle, hsame, hstatus]
    rfl

end Idle

/-- **The check hides no work.** When it says that nothing is due for the mint, the call at this moment returns zero and
leaves the engine and the database as they are. -/
theorem due_work_not_hidden {ρ ε : Type} (context : Context) (surroundings : Surroundings ρ ε) (engine : LearningEngine ρ)
    (state : TokenState) (now : Instant) (live cached : Bool)
    (h : engine.hasDueMarketWork state.mint now = (.ok false : Except (EngineError ε) Bool)) :
    observeMarket context surroundings state now cached live engine = .ok 0 engine := by
  unfold LearningEngine.hasDueMarketWork at h
  split at h
  · cases h
  next hobservation =>
  unfold observeMarket
  by_cases hlive : live = true
  · rw [if_neg (not_not.mpr hlive)]
    have hpolicy : observePolicyEpisodes context state now cached engine =
        (.ok {} engine : EStateM.Result (EngineError ε) _ _) := by
      unfold observePolicyEpisodes
      rw [get_bind]
      exact observePolicyEpisodes_idle {} h
    rw [bind_of_ok hpolicy]
    apply observeObservation_idle
    intro kept hkept hpending
    simpa [hkept, hpending] using hobservation
  · rw [if_pos hlive]
    rfl

/-! ### Half a minute after an entry -/

/-- A purchase that was just made. -/
def freshRow : Trajectory where
  mint := "mint"
  enteredAt := 0
  configurationFingerprint := none
  feeBps := 100
  checkpointNetworkFeeLamports := some 5000
  sizeTrials := fun _ => none

theorem thousand_pos : (0 : ℤ) < 1000 := by decide

def freshEconomics : Economics := ⟨1000, 1000, thousand_pos, thousand_pos⟩

def freshObservation : KeptObservation where
  observation := { serial := 0, economics := freshEconomics, row := freshRow }
  observationId := "observation"
  riskMode := .balanced
  baselineVersion := "baseline"
  featureSchemaVersion := "features"
  activeSkillVersions := []

def freshEpisode : KeptEpisode where
  episode :=
    { serial := 1, episodeId := "episode", lane := .policy, economics := some freshEconomics, row := freshRow }
  riskMode := .balanced

/-- An engine with an observation and an episode of it. -/
def freshEngine : LearningEngine Unit where
  observations := ⟨[freshObservation], List.nodup_singleton _⟩
  evidenceEpisodes := ⟨[freshEpisode], List.nodup_singleton _⟩
  evidenceEpisodeIdsByMint := [("mint", ["episode"])]
  collectionDiagnostics := { counts := fun _ => 0, pending := [], expiry := fun _ => 0 }
  outcomesSeen := 0
  contextOutcomeCounts := []
  timingRevision := 0
  timingCache := []
  database := []
  rest := ()

def freshContext : Context where
  staleMarketSeconds := 30
  networkFeeLamports := 5000
  priorityFeeLamports := 0
  pumpFeeBps := 100
  configurationFingerprint := none

def freshSurroundings : Surroundings Unit Unit where
  coachOutcomeContextKey := fun _ _ _ _ _ => "context"
  govern := fun _ => pure ()
  pruneCompleteHistory := pure ()

/-- Nothing is due of a new engine. -/
theorem due_work_not_hidden_fresh :
    observeMarket freshContext freshSurroundings { mint := "mint" } (seconds 30) false true freshEngine =
      .ok 0 freshEngine :=
  due_work_not_hidden freshContext freshSurroundings freshEngine { mint := "mint" } (seconds 30) true false rfl

end SignalArcade.Challenger.Collection.DueWork
