import SignalArcade.Challenger.Artifact
import Mathlib.Algebra.Order.AbsoluteValue.Basic

/-!
# Evidence of Challenger skills

What `learning.py` records of a decision, and what it makes of it later. A receipt is the
proposal of an artifact, frozen before the outcome exists; checkpoints are the outcomes at
fixed horizons; a size trial is the order the decision would have been at another size.
`participationValues` compares what a skill would have made of an episode with what the
Baseline made of it.
-/

namespace SignalArcade.Challenger

open Paper (Instant RiskMode DecisionAction)

/-! ### Outcomes -/

/-- `LearningCheckpoint`, with the bounds of its return. -/
structure LearningCheckpoint where
  observedAt : Instant
  netReturn : Option ℚ
  exitValueLamports : Option ℕ
  bounded : ∀ r ∈ netReturn, -1 ≤ r ∧ r ≤ 10

theorem noReturn_bounded : ∀ r ∈ (none : Option ℚ), -1 ≤ r ∧ r ≤ 10 := by
  simp

theorem zeroReturn_bounded : ∀ r ∈ some (0 : ℚ), -1 ≤ r ∧ r ≤ 10 := by
  simp

theorem clampedReturn_bounded (x : ℚ) : ∀ r ∈ some (max (-1) (min 10 x)), -1 ≤ r ∧ r ≤ 10 := by
  intro r hr
  cases hr
  exact ⟨le_max_left _ _, max_le (by norm_num) (min_le_left _ _)⟩

/-- A checkpoint without an outcome. -/
def LearningCheckpoint.missing (at_ : Instant) : LearningCheckpoint := ⟨at_, none, none, noReturn_bounded⟩

/-- The checkpoints, by horizon. -/
abbrev Checkpoints := ℕ → Option LearningCheckpoint

/-- A trial of another size, as training reads it. -/
structure ChallengerSizeTrial where
  entryCostLamports : Option ℕ
  eligibleAtEntry : Bool
  checkpoints : Checkpoints

/-- The horizon that evidence is judged at. -/
def primaryHorizonSeconds : ℕ := 300

def checkpointGraceSeconds : ℕ := 90

def sizingMultipliers : List ℚ := [1 / 2, 1, 3 / 2, 2]

/-! ### Receipts -/

/-- `proposed_action`. A number is one that is written as `{:g}` writes it. -/
inductive Proposal where
  | support
  | veto
  | baseline
  | baselineIntegrityGuard
  | baselineCapacityGuard
  | number (x : ℚ)
  | other (s : String)
  deriving DecidableEq

/-- `float(proposed_action)`. -/
def Proposal.float? : Proposal → Option ℚ
  | .number x => some x
  | _ => none

/-- `int(proposed_action)`. -/
def Proposal.int? : Proposal → Option ℤ
  | .number x => if x.den = 1 then some x.num else none
  | _ => none

/-- What the readers of a receipt take from its `parameters`. -/
structure ReceiptParameters where
  boundsPolicy : Option String := none
  boundedMultiplier : Value := .none
  championVersionAtEvaluation : Option String := none
  applied : Option Bool := none
  selectedMultiplier : Option ℚ := none
  baselineSizeSol : Option ℚ := none

/-- What an artifact said when the entry was decided. -/
structure ChallengerEvaluationReceipt where
  artifactVersion : String
  skill : ChallengerSkill
  evaluatedAt : Instant
  prediction : Option ℚ := none
  conservativeValue : Option ℚ := none
  inDistribution : Bool := false
  proposedAction : Proposal
  baselineActionable : Bool := false
  parameters : ReceiptParameters := {}

/-- Evidence of the policy, or of what was executed. -/
inductive LearningEvidenceLane where
  | policy | execution
  deriving DecidableEq

def learningEvidenceSchemaVersion : String := "learning-evidence-v2"

/-- An episode of evidence, as far as training and the tournament read it. -/
structure LearningEvidenceEpisode where
  episodeId : String
  evidenceSchemaVersion : String := learningEvidenceSchemaVersion
  lane : LearningEvidenceLane := .policy
  mint : String
  createdAt : Instant
  entryAt : Instant
  sourceMode : String := "solana_mainnet"
  synthetic : Bool := false
  qualificationEligible : Bool := false
  seasonId : Option String := none
  riskMode : RiskMode
  configurationFingerprint : Option String
  baselineVersion : String
  featureSchemaVersion : String := featureSchemaVersion
  baselineAction : DecisionAction
  baselineActionable : Bool := false
  features : Features := fun _ => none
  activeSkillVersions : SkillVersions := .empty
  /-- The receipts, by the version of the artifact. -/
  challengerEvaluations : String → Option ChallengerEvaluationReceipt := fun _ => none
  /-- The trials, by their multiplier. -/
  sizeTrials : ℚ → Option ChallengerSizeTrial := fun _ => none
  checkpoints : Checkpoints := fun _ => none

/-- The outcome of a size trial was observed when that of the episode was. -/
def LearningEvidenceEpisode.TrialsFollow (episode : LearningEvidenceEpisode) : Prop :=
  ∀ multiplier trial horizon checkpoint, episode.sizeTrials multiplier = some trial →
    trial.checkpoints horizon = some checkpoint →
      ∃ own, episode.checkpoints horizon = some own ∧ own.observedAt = checkpoint.observedAt

/-- `LearningObservation`: what Discovery records of a decision. -/
structure LearningObservation where
  mint : String
  createdAt : Instant
  sourceMode : String := "solana_mainnet"
  seasonId : Option String := none
  riskMode : RiskMode
  configurationFingerprint : Option String
  baselineVersion : String
  featureSchemaVersion : String := featureSchemaVersion
  baselineAction : DecisionAction
  baselineActionable : Bool := false
  evaluationActionable : Bool := false
  evaluationModelVersion : Option String := none
  evaluationPrediction : Option ℚ := none
  evaluationValidationRmse : Option ℚ := none
  features : Features := fun _ => none
  activeSkillVersions : SkillVersions := .empty
  challengerEvaluations : String → Option ChallengerEvaluationReceipt := fun _ => none
  sizeTrials : ℚ → Option ChallengerSizeTrial := fun _ => none
  checkpoints : Checkpoints := fun _ => none

def integrityFeatureNames : List String :=
  ["single_trade_wallet_ratio", "round_trip_wallet_ratio", "round_trip_volume_ratio", "net_quote_flow_ratio",
    "side_alternation_ratio", "quantized_amount_repeat_ratio", "slot_concentration_hhi",
    "price_direction_consistency", "microtrade_count_ratio", "meaningful_volume_ratio", "meaningful_wallet_ratio",
    "median_trade_quote_sol", "price_path_efficiency", "rapid_price_reversal_ratio", "trade_density_5m"]

def featureNames : List String :=
  ["opportunity", "danger", "execution", "confidence", "buy_ratio", "wallet_breadth", "concentration", "repetition",
    "coordination", "curve_progress", "momentum", "drawdown", "reserve_depth"] ++ integrityFeatureNames

def manipulationFeatureNames : List String :=
  ["danger", "confidence", "concentration", "repetition", "coordination"] ++ integrityFeatureNames

def sizingFeatureNames : List String :=
  ["opportunity", "danger", "execution", "confidence", "reserve_depth", "momentum", "drawdown"] ++ integrityFeatureNames

def featuresComplete (features : Features) : Bool := featureNames.all fun name => (features name).isSome

/-! ### The first episode of an identity -/

/-- What `_policy_identity_key` digests. -/
structure PolicyIdentityKey where
  mint : String
  riskMode : RiskMode
  configurationFingerprint : Option String
  baselineVersion : String
  featureSchemaVersion : String
  deriving DecidableEq

/-- `_policy_identities`: when the first episode of an identity was entered, if that can be read,
and which one it is. -/
abbrev PolicyIdentities := PolicyIdentityKey → Option (Option Instant × String)

namespace LearningEvidenceEpisode

variable (episode : LearningEvidenceEpisode)

/-- The identity that counts once. -/
def policyIdentityKey : PolicyIdentityKey :=
  ⟨episode.mint, episode.riskMode, episode.configurationFingerprint, episode.baselineVersion, episode.featureSchemaVersion⟩

def matchesPolicyIdentity (identity : Option Instant × String) : Bool :=
  identity.2 = episode.episodeId && identity.1 = some episode.entryAt

/-- `episode.checkpoints.get(str(horizon))`, for a horizon that may be `None`. -/
def checkpoint (horizon : Option ℕ) : Option LearningCheckpoint := horizon.bind episode.checkpoints

/-! ### What was made of it -/

def sizeTrialValue (multiplier : ℚ) (horizon : ℕ) : Option ℚ := do
  let trial ← episode.sizeTrials multiplier
  let baseline ← episode.sizeTrials 1
  if trial.eligibleAtEntry then
    let cost ← trial.entryCostLamports
    let baselineCost ← baseline.entryCostLamports
    if baselineCost = 0 then none
    else
      let checkpoint ← trial.checkpoints horizon
      let exitValue ← checkpoint.exitValueLamports
      some (((exitValue : ℚ) - cost) / baselineCost)
  else none

def netReturn (horizon : Option ℕ) : Option ℚ := (episode.checkpoint horizon).bind fun c => c.netReturn

end LearningEvidenceEpisode

def ChallengerEvaluationReceipt.vetoApplies (receipt : ChallengerEvaluationReceipt) : Bool :=
  (receipt.skill = .entry || receipt.skill = .manipulation) && receipt.inDistribution && receipt.proposedAction = .veto

def ChallengerEvaluationReceipt.boundedSizingMultiplier (receipt : ChallengerEvaluationReceipt) : Option ℚ :=
  if !receipt.inDistribution then some 1
  else if receipt.parameters.boundsPolicy ≠ some "sizing-authority-v1" then none
  else receipt.parameters.boundedMultiplier.finite?.filter (· ∈ sizingMultipliers)

/-- The horizon a proposal names, as the key of a checkpoint. -/
def Proposal.horizon? (proposal : Proposal) : Option ℕ := proposal.int?.bind fun n => if 0 ≤ n then some n.toNat else none

namespace LearningEvidenceEpisode

variable (episode : LearningEvidenceEpisode) (receipt : ChallengerEvaluationReceipt)

/-- What the receipt's proposal would have returned. -/
def tournamentPolicyValue : Option ℚ :=
  match receipt.skill with
  | .sizing => receipt.proposedAction.float?.bind fun multiplier => episode.sizeTrialValue multiplier primaryHorizonSeconds
  | .exit => episode.netReturn receipt.proposedAction.horizon?
  | _ =>
    (episode.netReturn primaryHorizonSeconds).bind fun outcome =>
      if receipt.proposedAction = .support ∨ receipt.proposedAction = .veto then
        some (if receipt.vetoApplies then 0 else outcome)
      else none

/-- `_skill_receipt_outcome_resolved`. -/
def receiptOutcomeResolved : Bool :=
  match receipt.skill with
  | .exit =>
    match receipt.proposedAction.int? with
    | none => true
    | some _ =>
      (episode.checkpoint receipt.proposedAction.horizon?).isSome &&
        (episode.checkpoints (maxHoldSeconds episode.riskMode)).isSome
  | _ => (episode.checkpoints primaryHorizonSeconds).isSome

/-- What the baseline returned in its place. -/
def skillBaselineValue (skill : ChallengerSkill) : Option ℚ :=
  match skill with
  | .sizing => episode.sizeTrialValue 1 primaryHorizonSeconds
  | .exit => episode.netReturn (some (maxHoldSeconds episode.riskMode))
  | _ => episode.netReturn (some primaryHorizonSeconds)

/-- `_participation_values`: what the skill made of the episode, and what the Baseline made of it. -/
def participationValues : Option ℚ × Option ℚ :=
  if !receipt.baselineActionable || receipt.evaluatedAt ≠ episode.createdAt then (none, none)
  else
    let baseline := episode.skillBaselineValue receipt.skill
    if !receipt.inDistribution && receipt.skill ≠ .exit then (baseline, baseline)
    else if receipt.skill = .sizing then
      match receipt.boundedSizingMultiplier with
      | none => (none, baseline)
      | some selected => (episode.sizeTrialValue selected primaryHorizonSeconds, baseline)
    else match receipt.skill, episode.activeSkillVersions .sizing with
      | .exit, some sizingVersion =>
        -- the return of an Exit proposal is that of the size the sizing skill gave the order
        match episode.challengerEvaluations sizingVersion with
        | none => (none, none)
        | some sizing =>
          if sizing.skill ≠ .sizing ∨ sizing.evaluatedAt ≠ episode.createdAt then (none, none)
          else match sizing.boundedSizingMultiplier with
            | none => (none, none)
            | some multiplier =>
              let baselineHorizon := maxHoldSeconds episode.riskMode
              if receipt.inDistribution then
                match receipt.proposedAction.int? with
                | none => (none, none)
                | some _ =>
                  (receipt.proposedAction.horizon?.bind (episode.sizeTrialValue multiplier),
                    episode.sizeTrialValue multiplier baselineHorizon)
              else (episode.sizeTrialValue multiplier baselineHorizon, episode.sizeTrialValue multiplier baselineHorizon)
      | _, _ => (if receipt.inDistribution then episode.tournamentPolicyValue receipt else baseline, baseline)

/-- By how much the skill did better, where both values are known. -/
def participationDelta : Option ℚ :=
  match episode.participationValues receipt with
  | (some actual, some baseline) => some (actual - baseline)
  | _ => none

end LearningEvidenceEpisode

end SignalArcade.Challenger
