import SignalArcade.Challenger.Recovery
import SignalArcade.Market.TokenReserves

/-!
# The collection of outcomes

An observation of Discovery and an episode of the Policy lane have an outcome at each of five horizons: what the tokens
bought would have been sold for then. `observe_market` takes it from the route when it is seen between the horizon and
the end of its grace; `expire_checkpoints`, and a market that is seen too late, record that there is none. The trials of
other sizes are recorded with their trajectory.
-/

namespace SignalArcade.Challenger.Collection

open Paper (Instant RiskMode CurveQuote QuoteError quoteBuy quoteSell riskLimitsTable)
open Market.Features (TokenState ReserveAudit)

/-! ### Checkpoints -/

/-- Why an exit cannot be quoted. -/
inductive ExitError where
  | feeContext
  | quote (error : QuoteError)

def ExitError.text : ExitError → String
  | .feeContext => "original checkpoint fee context unavailable"
  | .quote error => error.text

/-- What is kept of an exit that could not be quoted. -/
structure QuoteFailure where
  reason : String
  virtualTokenReserves : ℤ
  virtualQuoteReserves : ℤ
  realQuoteReserves : Option ℤ
  feeBps : ℤ

/-- The route of a market: its audited reserves, or why there are none. -/
structure RouteSnapshot where
  audit : Option ReserveAudit
  failure : Option QuoteFailure := none

/-- `LearningCheckpoint`, with the bounds of its return. -/
structure LearningCheckpoint where
  horizonSeconds : ℕ
  observedAt : Instant
  netReturn : Option ℚ := none
  exitValueLamports : Option ℤ := none
  missingReason : Option String := none
  routeSnapshot : Option RouteSnapshot := none
  routeSource : Option String := none
  routeEventId : Option String := none
  reserveObservedAt : Option Instant := none
  reserveAgeSeconds : Option ℚ := none
  bounded : ∀ r ∈ netReturn, -1 ≤ r ∧ r ≤ 10

/-- A checkpoint without an outcome. -/
def LearningCheckpoint.missing (horizon : ℕ) (now : Instant) (reason : String) : LearningCheckpoint where
  horizonSeconds := horizon
  observedAt := now
  missingReason := some reason
  bounded := noReturn_bounded

/-- The checkpoints of a trajectory, by their horizon. -/
abbrev Checkpoints := Table ℕ LearningCheckpoint LearningCheckpoint.horizonSeconds

/-! ### The route -/

/-- The settings, and the configuration of the engine. -/
structure Context where
  staleMarketSeconds : ℕ
  networkFeeLamports : ℤ
  priorityFeeLamports : ℤ
  pumpFeeBps : ℤ
  configurationFingerprint : Option String

/-- `state.last_reserve_at or state.last_event_at`. -/
def routeObservedAt (state : TokenState) : Option Instant := state.lastReserveAt.or state.lastEventAt

/-- `WRAPPED_SOL_MINT` and `NATIVE_SOL_MINT`. -/
def solMints : List String := ["So11111111111111111111111111111111111111112", "11111111111111111111111111111111"]

/-- `_checkpoint_route_missing_reason`. -/
def routeMissingReason (state : TokenState) (now : Instant) (staleAfterSeconds : ℕ) (requireTimestamp : Bool) :
    Option String :=
  if state.virtualTokenReserves ≤ 0 ∨ state.virtualQuoteReserves ≤ 0 then some "route_reserves_unavailable"
  else if state.complete ∧ state.venue = "pump_curve" then some "migration_route_unconfirmed"
  else if state.venue = "pump_swap" ∧ ¬ state.routeVerified then some "pumpswap_route_unverified"
  else if state.quoteMint ∉ solMints then some "unsupported_quote_route"
  else
    match routeObservedAt state with
    | none => if requireTimestamp then some "reserve_timestamp_unavailable" else none
    | some at_ =>
      if now < at_ then some "future_route_timestamp"
      else if seconds staleAfterSeconds < now - at_ then some "stale_cached_route"
      else none

/-- `_expired_checkpoint_reason`, of a collection that knows its markets. -/
def expiredReason (context : Context) (now : Instant) (state : Option TokenState) : String :=
  match state with
  | none => "tracked_route_state_unavailable"
  | some state => (routeMissingReason state now context.staleMarketSeconds true).getD "checkpoint_window_elapsed"

/-- The source and the event of a route: a text that is empty counts as none. -/
def routeSource (state : TokenState) : String := if state.reserveSource ≠ "" then state.reserveSource else state.venue

def routeEventId (state : TokenState) : Option String :=
  (state.lastReserveEventId.filter (· ≠ "")).or state.lastEventId

def reserveAge (now at_ : Instant) : ℚ := max 0 ((now - at_ : ℤ) / 1000000)

def feeRate (state : TokenState) (entryFeeBps : ℤ) : ℤ :=
  if state.reserveFeeComponents.isSome ∨ state.feeBps ≠ 0 then state.feeBps else entryFeeBps

def exitQuote (state : TokenState) (tokenUnits entryFeeBps : ℤ) (networkFee : Except ExitError ℤ) :
    Except ExitError CurveQuote := do
  let networkFee ← networkFee
  (quoteSell state.virtualTokenReserves state.virtualQuoteReserves tokenUnits (feeRate state entryFeeBps) networkFee
    state.realQuoteReserves state.reserveFeeComponents state.reserveLpFeeBps).mapError .quote

/-- What was paid for what. -/
structure Economics where
  tokenUnits : ℤ
  entryCostLamports : ℤ
  units_pos : 0 < tokenUnits
  cost_pos : 0 < entryCostLamports

/-- The entry that was quoted, where its numbers are valid. -/
def Economics.ofQuote? (quote : CurveQuote) : Option Economics :=
  if h : 0 < quote.tokenUnits ∧ 0 < quote.walletSolLamports then
    some ⟨quote.tokenUnits, quote.walletSolLamports, h.1, h.2⟩
  else none

/-- A checkpoint with the outcome of an exit, or `_failed_quote_checkpoint`. -/
def LearningCheckpoint.sold (state : TokenState) (now : Instant) (horizon : ℕ) (entryCostLamports : ℤ)
    (missingReason : String) : Except ExitError CurveQuote → LearningCheckpoint
  | .ok quote =>
    let at_ := (routeObservedAt state).getD now
    { horizonSeconds := horizon
      observedAt := now
      netReturn := some (max (-1) (min 10 ((quote.walletSolLamports - entryCostLamports : ℤ) / entryCostLamports)))
      exitValueLamports := some quote.walletSolLamports
      routeSnapshot := state.reserveAudit.map fun audit => { audit := some audit }
      routeSource := some (Collection.routeSource state)
      routeEventId := Collection.routeEventId state
      reserveObservedAt := some at_
      reserveAgeSeconds := some (reserveAge now at_)
      bounded := clampedReturn_bounded _ }
  | .error error =>
    { horizonSeconds := horizon
      observedAt := now
      missingReason := some missingReason
      routeSource := some (Collection.routeSource state)
      routeEventId := Collection.routeEventId state
      reserveObservedAt := routeObservedAt state
      reserveAgeSeconds := (routeObservedAt state).map (reserveAge now)
      routeSnapshot := some
        { audit := state.reserveAudit
          failure := some
            { reason := String.ofList (error.text.toList.take 160)
              virtualTokenReserves := state.virtualTokenReserves
              virtualQuoteReserves := state.virtualQuoteReserves
              realQuoteReserves := state.realQuoteReserves
              feeBps := state.feeBps } }
      bounded := noReturn_bounded }

/-! ### Trajectories -/

/-- A trial of another size, as the collection writes it. -/
structure ChallengerSizeTrial where
  economics : Option Economics
  eligibleAtEntry : Bool
  entryMissingReason : Option String
  checkpoints : Checkpoints := .empty

/-- `LearningObservationStatus`, and of `LearningEvidenceStatus` what an episode of the Policy lane may have. -/
inductive Status where
  | pending | complete
  deriving DecidableEq

/-- What an observation and an episode have in common. -/
structure Trajectory where
  mint : String
  /-- `created_at` of an observation, `entry_at` of an episode. -/
  enteredAt : Instant
  configurationFingerprint : Option String
  feeBps : ℤ
  checkpointNetworkFeeLamports : Option ℤ
  /-- The trials, by their multiplier. -/
  sizeTrials : ℚ → Option ChallengerSizeTrial
  checkpoints : Checkpoints := .empty
  checkpointAttempts : ℕ → ℕ := fun _ => 0
  status : Status := .pending

/-- A row of discovery while it is collected. -/
structure LearningObservation where
  /-- The number under which it was enrolled. -/
  serial : ℕ
  economics : Economics
  row : Trajectory

/-- A row of evidence while it is collected. -/
structure LearningEvidenceEpisode where
  serial : ℕ
  episodeId : String
  lane : LearningEvidenceLane
  economics : Option Economics
  row : Trajectory
  completedAt : Option Instant := none

def ChallengerSizeTrial.record (trial : ChallengerSizeTrial) (checkpoint : LearningCheckpoint) : ChallengerSizeTrial :=
  if (trial.checkpoints.get? checkpoint.horizonSeconds).isSome then trial
  else { trial with checkpoints := trial.checkpoints.upsert checkpoint }

namespace Trajectory

variable (row : Trajectory)

def record (checkpoint : LearningCheckpoint) (ofTrial : ChallengerSizeTrial → LearningCheckpoint) : Trajectory :=
  { row with
    checkpoints := row.checkpoints.upsert checkpoint
    sizeTrials := fun multiplier => (row.sizeTrials multiplier).map fun trial => trial.record (ofTrial trial) }

/-- A checkpoint without an outcome, with `_mark_size_trials_missing`. -/
def recordMissing (horizon : ℕ) (now : Instant) (reason : String) : Trajectory :=
  row.record (.missing horizon now reason) fun _ => .missing horizon now reason

def checkpointNetworkFee (context : Context) : Except ExitError ℤ :=
  match row.checkpointNetworkFeeLamports with
  | some fee => .ok fee
  | none =>
    if row.configurationFingerprint ≠ context.configurationFingerprint then .error .feeContext
    else .ok (context.networkFeeLamports + context.priorityFeeLamports)

/-- `_observe_size_checkpoint`, of one trial. -/
def sizeCheckpoint (context : Context) (state : TokenState) (now : Instant) (horizon : ℕ) (trial : ChallengerSizeTrial) :
    LearningCheckpoint :=
  match trial.economics with
  | some economics =>
    if trial.eligibleAtEntry then
      .sold state now horizon economics.entryCostLamports "size_trial_exit_quote_unavailable"
        (exitQuote state economics.tokenUnits row.feeBps (row.checkpointNetworkFee context))
    else .missing horizon now ((trial.entryMissingReason.filter (· ≠ "")).getD "size_trial_ineligible_at_entry")
  | none => .missing horizon now ((trial.entryMissingReason.filter (· ≠ "")).getD "size_trial_ineligible_at_entry")

/-- How long ago the trajectory was entered. -/
def age (now : Instant) : ℤ := max 0 (now - row.enteredAt)

/-- The trajectory is complete once it has as many checkpoints as there are horizons. -/
def finish : Trajectory :=
  if row.checkpoints.rows.length = learningHorizonsSeconds.length then { row with status := .complete } else row

end Trajectory

/-! ### The loop over the horizons -/

/-- The loop: the trajectory so far, how many checkpoints were written, and what is known of the primary one. -/
structure Pass where
  row : Trajectory
  changed : ℕ := 0
  primaryChanged : Bool := false
  becameAvailable : Bool := false

namespace Pass

variable (context : Context) (state : TokenState) (now : Instant) (cached : Bool) (economics : Option Economics)

def attempted (pass : Pass) (attempts : ℕ → ℕ) : Pass :=
  { pass with row := { pass.row with checkpointAttempts := attempts } }

/-- A checkpoint was written. -/
def wrote (pass : Pass) (horizon : ℕ) (row : Trajectory) (becameAvailable : Bool) : Pass where
  row := row
  changed := pass.changed + 1
  primaryChanged := pass.primaryChanged || horizon = primaryHorizonSeconds
  becameAvailable := becameAvailable

/-- A horizon that is due on a route that may be quoted. -/
def quote (pass : Pass) (economics : Economics) (horizon : ℕ) : Pass :=
  let exit := exitQuote state economics.tokenUnits pass.row.feeBps (pass.row.checkpointNetworkFee context)
  pass.wrote horizon
    (pass.row.record (.sold state now horizon economics.entryCostLamports "executable_exit_quote_unavailable" exit)
      (pass.row.sizeCheckpoint context state now horizon))
    (match exit with
      | .ok _ => horizon = primaryHorizonSeconds
      | .error _ => pass.becameAvailable)

/-- A horizon of `observe_market` and `_observe_policy_episodes`. -/
def observe (pass : Pass) (horizon : ℕ) : Pass :=
  if (pass.row.checkpoints.get? horizon).isSome ∨ pass.row.age now < seconds horizon then pass
  else
    let routeMissing := routeMissingReason state now context.staleMarketSeconds cached
    let pass := pass.attempted
      (Function.update pass.row.checkpointAttempts horizon (pass.row.checkpointAttempts horizon + 1))
    if seconds (horizon + checkpointGraceSeconds) < pass.row.age now then
      pass.wrote horizon (pass.row.recordMissing horizon now (routeMissing.getD "checkpoint_window_elapsed"))
        pass.becameAvailable
    else if routeMissing.isSome then pass
    else
      match economics with
      | none =>
        pass.wrote horizon (pass.row.recordMissing horizon now "policy_entry_economics_unavailable") pass.becameAvailable
      | some economics => pass.quote context state now economics horizon

/-- A horizon of `expire_checkpoints`. -/
def expire (reason : String) (pass : Pass) (horizon : ℕ) : Pass :=
  if (pass.row.checkpoints.get? horizon).isSome ∨ pass.row.age now ≤ seconds (horizon + checkpointGraceSeconds) then pass
  else pass.wrote horizon (pass.row.recordMissing horizon now reason) pass.becameAvailable

end Pass

/-- The loop of `observe_market`, and of `_observe_policy_episodes`. -/
def Trajectory.observed (row : Trajectory) (context : Context) (state : TokenState) (now : Instant) (cached : Bool)
    (economics : Option Economics) : Pass :=
  learningHorizonsSeconds.foldl (Pass.observe context state now cached economics) { row := row }

/-- The loop of `expire_checkpoints`. -/
def Trajectory.expired (row : Trajectory) (now : Instant) (reason : String) : Pass :=
  learningHorizonsSeconds.foldl (Pass.expire now reason) { row := row }

/-! ### The engine -/

/-- What the learning engine collects. -/
structure Collector where
  observations : Table String LearningObservation fun observation => observation.row.mint
  evidenceEpisodes : Table String LearningEvidenceEpisode LearningEvidenceEpisode.episodeId
  outcomesSeen : ℕ
  /-- How many trajectories were enrolled. -/
  enrolled : ℕ := 0
  counted : List ℕ := []

/-- A decision that may be registered. -/
structure Decision where
  createdAt : Instant
  riskMode : RiskMode
  sizeSol : ℚ
  configurationFingerprint : Option String
  /-- It enters, and the broker could act on it. -/
  actionable : Bool
  episodeId : String

/-- A trial of `_build_size_trials`. -/
def sizeTrial (state : TokenState) (riskMode : RiskMode) (sizeSol : ℚ) (feeBps networkFee : ℤ) (entry : CurveQuote)
    (multiplier : ℚ) : ChallengerSizeTrial :=
  let quote := if multiplier = 1 then .ok entry
    else quoteBuy state.virtualTokenReserves state.virtualQuoteReserves state.realTokenReserves
      (max 1 (sizeSol * multiplier * 1000000000).floor) feeBps networkFee
  match quote.toOption.bind fun quote => (Economics.ofQuote? quote).map fun economics => (quote, economics) with
  | some (quote, economics) =>
    let eligible : Bool := quote.priceImpactFraction ≤ (riskLimitsTable riskMode).maxPriceImpact
    { economics := some economics
      eligibleAtEntry := eligible
      entryMissingReason := if eligible then none else some "entry_impact_above_mode_limit" }
  | none =>
    { economics := none
      eligibleAtEntry := false
      entryMissingReason := some "entry_quote_unavailable" }

def buildSizeTrials (state : TokenState) (riskMode : RiskMode) (sizeSol : ℚ) (feeBps networkFee : ℤ) (entry : CurveQuote)
    (multiplier : ℚ) : Option ChallengerSizeTrial :=
  if multiplier ∈ sizingMultipliers then some (sizeTrial state riskMode sizeSol feeBps networkFee entry multiplier)
  else none

namespace Collector

variable (context : Context) (s : Collector)

def enrolPolicy (episodeId : String) (economics : Economics) (row : Trajectory) : Collector :=
  { s with
    evidenceEpisodes := s.evidenceEpisodes.upsert
      { serial := s.enrolled, episodeId := episodeId, lane := .policy, economics := some economics, row := row }
    enrolled := s.enrolled + 1 }

def enrolDiscovery (economics : Economics) (row : Trajectory) : Collector :=
  { s with
    observations := s.observations.upsert { serial := s.enrolled, economics := economics, row := row }
    enrolled := s.enrolled + 1 }

/-- `register`, of a decision with complete features. -/
def register (state : TokenState) (decision : Decision) : Collector :=
  let feeBps := feeRate state context.pumpFeeBps
  let networkFee := context.networkFeeLamports + context.priorityFeeLamports
  let entry := quoteBuy state.virtualTokenReserves state.virtualQuoteReserves state.realTokenReserves
    (max 1 (decision.sizeSol * 1000000000).floor) feeBps networkFee
  match entry.toOption.bind fun entry => (Economics.ofQuote? entry).map fun economics => (entry, economics) with
  | none => s
  | some (entry, economics) =>
    let row : Trajectory :=
      { mint := state.mint
        enteredAt := decision.createdAt
        configurationFingerprint := decision.configurationFingerprint
        feeBps := feeBps
        checkpointNetworkFeeLamports := some networkFee
        sizeTrials := buildSizeTrials state decision.riskMode decision.sizeSol feeBps networkFee entry }
    let existingPolicy := s.evidenceEpisodes.rows.any fun episode =>
      episode.lane = .policy && episode.episodeId = decision.episodeId
    let discoveryExists := (s.observations.get? state.mint).isSome
    let s := if decision.actionable ∧ ¬ existingPolicy then s.enrolPolicy decision.episodeId economics row else s
    if discoveryExists then s else s.enrolDiscovery economics row

end Collector

namespace LearningEvidenceEpisode

/-- The episode goes through the loops. -/
def collects (episode : LearningEvidenceEpisode) : Bool :=
  episode.lane = .policy && episode.row.status = .pending

/-- An episode after a loop: once it is complete it says when. -/
def advance (episode : LearningEvidenceEpisode) (now : Instant) (pass : Pass) :
    LearningEvidenceEpisode :=
  let row := pass.row.finish
  { episode with
    row := row
    completedAt := if row.status = .complete then some now else episode.completedAt }

/-- `_observe_policy_episodes`, of one episode. -/
def observe (context : Context) (state : TokenState) (now : Instant) (cached : Bool)
    (episode : LearningEvidenceEpisode) : LearningEvidenceEpisode :=
  if episode.row.mint = state.mint ∧ episode.collects then
    episode.advance now (episode.row.observed context state now cached episode.economics)
  else episode

/-- `expire_checkpoints`, of one episode. -/
def expire (now : Instant) (reason : String → String) (episode : LearningEvidenceEpisode) :
    LearningEvidenceEpisode :=
  if episode.collects then episode.advance now (episode.row.expired now (reason episode.row.mint)) else episode

end LearningEvidenceEpisode

/-- `expire_checkpoints`, of one observation. -/
def LearningObservation.expire (now : Instant) (reason : String → String) (observation : LearningObservation) :
    LearningObservation :=
  if observation.row.status = .pending then
    { observation with row := (observation.row.expired now (reason observation.row.mint)).row.finish }
  else observation

theorem LearningEvidenceEpisode.advance_episodeId (episode : LearningEvidenceEpisode) (now : Instant) (pass : Pass) :
    (episode.advance now pass).episodeId = episode.episodeId := rfl

theorem LearningEvidenceEpisode.observe_episodeId {context : Context} {state : TokenState} {now : Instant} {cached : Bool}
    (episode : LearningEvidenceEpisode) : (episode.observe context state now cached).episodeId = episode.episodeId := by
  unfold LearningEvidenceEpisode.observe
  split_ifs
  · exact advance_episodeId ..
  · rfl

theorem LearningEvidenceEpisode.expire_episodeId {now : Instant} {reason : String → String}
    (episode : LearningEvidenceEpisode) : (episode.expire now reason).episodeId = episode.episodeId := by
  unfold LearningEvidenceEpisode.expire
  split_ifs
  · exact advance_episodeId ..
  · rfl

end SignalArcade.Challenger.Collection
