import SignalArcade.Challenger.Predict
import SignalArcade.Lib.MeanBounds

/-!
# The qualification of a critic

`ai_lab.py`: what a local model answers about an entry, the assessment that is kept of it, and
`qualification`, by which an exact model earns its veto: enough outcomes that can be measured, enough
vetoes among them, valid and quick answers, and a benefit that is positive at its lower bound.
-/

namespace SignalArcade.Ai

open Paper (Instant DecisionAction)
open Challenger (Decision)
open MeanBounds

/-! ### Answers -/

/-- The mode of the critic. -/
inductive AiDecisionMode where
  | off | shadow | guarded
  deriving DecidableEq

/-- What the critic answers. -/
inductive AiCriticVerdict where
  | support | veto | insufficientEvidence
  deriving DecidableEq

/-- `confidence` of an answer. -/
inductive CriticConfidence where
  | low | medium | high
  deriving DecidableEq

/-- `_CriticPayload`, before its lists are checked. -/
structure CriticPayload where
  verdict : AiCriticVerdict
  confidence : CriticConfidence
  evidenceRefs : List String
  riskFlags : List String

/-- `RISK_FLAGS`. -/
def riskFlagNames : List String :=
  ["concentration", "coordination", "creator_activity", "liquidity", "momentum_extreme", "drawdown", "data_quality", "cost_edge",
    "synthetic_activity", "none"]

/-- `feature_names` of `critic_evidence_payload`, sorted. -/
def criticFeatureNames : List String :=
  ["buy_ratio_5m", "creator_sells_5m", "curve_progress", "drawdown_5m", "integrity_window_complete", "meaningful_volume_ratio",
    "meaningful_wallet_ratio", "median_trade_quote_sol", "microtrade_count_ratio", "momentum_1m", "observed_fee_bps",
    "price_path_efficiency", "rapid_price_reversal_ratio", "repeated_amount_ratio", "same_slot_ratio", "trade_count_1m",
    "trade_count_5m", "trade_density_5m", "trade_window_span_seconds", "unique_wallets_5m", "virtual_quote_reserve_sol",
    "wallet_volume_hhi"]

/-- The names of the evidence that is supplied: the keys of `critic_evidence_payload`. -/
def suppliedEvidence (decision : Decision) : List String :=
  ["opportunity", "danger", "execution", "confidence", "net_edge_index"] ++
    criticFeatureNames.filter fun name => (decision.featureSnapshot.get? name).isSome

/-- What an answer must be to be valid. -/
def CriticPayload.accepted (payload : CriticPayload) (allowed : List String) : Bool :=
  payload.evidenceRefs.length ≤ 2 && payload.riskFlags.length ≤ 2 && payload.evidenceRefs.all (· ∈ allowed) &&
    payload.riskFlags.all (· ∈ riskFlagNames) && (!payload.evidenceRefs.isEmpty || payload.verdict = .insufficientEvidence)

/-! ### Assessments -/

def promptVersion : String := "ai-critic-v4"

def schemaVersion : String := "ai-critic-schema-v5"

/-- An assessment, as far as the qualification reads it. -/
structure AiCriticAssessment where
  assessmentId : String
  createdAt : Instant
  mode : AiDecisionMode
  applied : Bool
  modelName : String
  modelDigest : String
  promptVersion : String
  schemaVersion : String
  latencyMs : ℕ
  valid : Bool
  verdict : Option AiCriticVerdict := none
  confidence : Option CriticConfidence := none
  evidenceRefs : List String := []
  riskFlags : List String := []
  counterfactualUplift : Option ℚ := none
  resolvedAt : Option Instant := none
  configurationFingerprint : Option String

/-- The assessments in memory. -/
abbrev Assessments := Table String AiCriticAssessment AiCriticAssessment.assessmentId

/-- `list_ai_assessments`: the newest first. -/
def listAiAssessments (durable : Assessments) (limit : ℕ) : List AiCriticAssessment :=
  (durable.rows.insertionSort fun a b => b.createdAt ≤ a.createdAt).take limit

/-- A veto of high confidence. -/
def AiCriticAssessment.vetoes (assessment : AiCriticAssessment) : Bool :=
  assessment.verdict = some .veto && assessment.confidence = some .high

/-- The assessment `_assess` makes of an answer: none where there is no answer in time; the payload is nothing where it
is not of the schema. The text that the identifier is a digest of stands for it. -/
def critique (decisionId : String) (decision : Decision) (mode : AiDecisionMode) (modelName modelDigest : String)
    (now : Instant) (timeoutMs : ℕ) (answer : Option (Option CriticPayload × ℕ)) : AiCriticAssessment :=
  let common : AiCriticAssessment :=
    { assessmentId := decisionId ++ ":" ++ modelDigest ++ ":" ++ promptVersion
      createdAt := now
      mode := mode
      applied := true
      modelName := modelName
      modelDigest := modelDigest
      promptVersion := promptVersion
      schemaVersion := schemaVersion
      latencyMs := timeoutMs
      valid := false
      configurationFingerprint := decision.configurationFingerprint }
  match answer with
  | none => common
  | some (payload, latencyMs) =>
    match payload.filter fun payload => payload.accepted (suppliedEvidence decision) with
    | none => { common with latencyMs := latencyMs }
    | some payload =>
      { common with
        latencyMs := latencyMs
        valid := true
        verdict := some payload.verdict
        confidence := some payload.confidence
        evidenceRefs := payload.evidenceRefs
        riskFlags := payload.riskFlags }

/-! ### The audit -/

/-- `MODEL_CATALOG`, the names. -/
def modelCatalog : List String := ["qwen3.5:2b", "phi4-mini:3.8b", "qwen3.5:4b", "qwen3.5:9b", "qwen3.5:27b"]

def minimumResolvedAssessments : ℕ := 200

def minimumVetoOutcomes : ℕ := 20

def maxGuardedP95LatencyMs : ℕ := 2500

def minimumValidFraction : ℚ := 99 / 100

def qualificationZScore : ℚ := 196 / 100

/-- The contract a critic is audited in: the model by its name and its digest, and the configuration. -/
structure Contract where
  modelName : String
  modelDigest : String
  configurationFingerprint : String
  deriving DecidableEq

/-- What `qualification` finds. -/
structure Qualification where
  qualified : Bool
  curatedModel : Bool
  modelDigest : String
  configurationFingerprint : String
  assessments : ℕ
  resolved : ℕ
  vetoOutcomes : ℕ
  validFraction : ℚ
  meanCounterfactualUplift : Option ℚ
  /-- `uplift_lower_bound` is its lower end. -/
  upliftBounds : Option Interval
  p95LatencyMs : Option ℕ

/-- The latency that one in twenty exceeds. -/
def p95 (latencies : List ℕ) : Option ℕ :=
  (latencies.insertionSort (· ≤ ·))[min (latencies.length - 1) ((latencies.length * 95 + 99) / 100 - 1)]?

/-- `qualification` of a contract by the assessments, where it is not remembered. -/
def qualify (contract : Contract) (durable : Assessments) : Qualification :=
  let matching := (listAiAssessments durable 5000).filter fun item =>
    item.modelName = contract.modelName && item.modelDigest = contract.modelDigest && item.promptVersion = promptVersion &&
      item.schemaVersion = schemaVersion && item.configurationFingerprint = some contract.configurationFingerprint
  let valid := matching.filter fun item => item.valid
  let measurable := matching.filter fun item => item.resolvedAt.isSome && item.counterfactualUplift.isSome
  let uplifts := measurable.filterMap fun item => item.counterfactualUplift
  let vetoes := measurable.filter AiCriticAssessment.vetoes
  let curatedModel : Bool := contract.modelName ∈ modelCatalog
  let bounds := if 2 ≤ uplifts.length then interval qualificationZScore uplifts else none
  let validFraction : ℚ := if matching = [] then 0 else valid.length / matching.length
  let latency := p95 (valid.map fun item => item.latencyMs)
  { qualified :=
      curatedModel && minimumResolvedAssessments ≤ measurable.length && minimumVetoOutcomes ≤ vetoes.length &&
        minimumValidFraction ≤ validFraction && bounds.any (fun i => i.lowerAbove 0) &&
        latency.any (· ≤ maxGuardedP95LatencyMs)
    curatedModel := curatedModel
    modelDigest := contract.modelDigest
    configurationFingerprint := contract.configurationFingerprint
    assessments := matching.length
    resolved := measurable.length
    vetoOutcomes := vetoes.length
    validFraction := validFraction
    meanCounterfactualUplift := if uplifts = [] then none else some (mean uplifts)
    upliftBounds := bounds
    p95LatencyMs := latency }

theorem critique_cites {decisionId : String} {decision : Decision} {mode : AiDecisionMode} {modelName modelDigest : String}
    {now : Instant} {timeoutMs : ℕ} {answer : Option (Option CriticPayload × ℕ)}
    (h : (critique decisionId decision mode modelName modelDigest now timeoutMs answer).valid = true) :
    ∀ ref ∈ (critique decisionId decision mode modelName modelDigest now timeoutMs answer).evidenceRefs,
      ref ∈ suppliedEvidence decision := by
  unfold critique at h ⊢
  dsimp only at h ⊢
  cases answer with
  | none => cases h
  | some answer =>
    obtain ⟨payload, latencyMs⟩ := answer
    dsimp only at h ⊢
    cases hpayload : payload.filter fun payload => payload.accepted (suppliedEvidence decision) with
    | none =>
      rw [hpayload] at h
      cases h
    | some payload =>
      obtain ⟨-, haccepted⟩ := Option.filter_eq_some_iff.mp hpayload
      simp only [CriticPayload.accepted, Bool.and_eq_true, List.all_eq_true, decide_eq_true_eq] at haccepted
      exact haccepted.1.1.2

theorem critique_model (decisionId : String) (decision : Decision) (mode : AiDecisionMode) (modelName modelDigest : String)
    (now : Instant) (timeoutMs : ℕ) (answer : Option (Option CriticPayload × ℕ)) :
    (critique decisionId decision mode modelName modelDigest now timeoutMs answer).modelName = modelName ∧
      (critique decisionId decision mode modelName modelDigest now timeoutMs answer).modelDigest = modelDigest := by
  unfold critique
  dsimp only
  split
  · exact ⟨rfl, rfl⟩
  · split
    · exact ⟨rfl, rfl⟩
    · exact ⟨rfl, rfl⟩

end SignalArcade.Ai
