import SignalArcade.Baseline.Integrity
import SignalArcade.Lib.Decimal
import SignalArcade.Lib.Selection

/-!
# The baseline

`DecisionEngine.evaluate` of `decision.py`: the scores of a market, what stands in the way of an
entry, and what is done. The generations of the baseline differ in the integrity policy they are
paired with, and in what they make of it. The numbers are exact.
-/

namespace SignalArcade.Baseline

open Paper (FeatureSnapshot MarketIntegrityState IntegrityAssessment RiskMode RiskLimits DecisionAction riskLimitsTable)
open Challenger (clamp number)
open Selection

/-- `SUPPORTED_BASELINE_VERSIONS`. -/
inductive BaselineVersion where
  | legacy | previous | recent | corroborated | current
  deriving DecidableEq

def BaselineVersion.text : BaselineVersion → String
  | .legacy => "baseline-v1.1"
  | .previous => "baseline-v1.2"
  | .recent => "baseline-v1.3"
  | .corroborated => "baseline-v1.4"
  | .current => "baseline-v1.5"

/-- `integrity_policy_for_baseline`; the legacy baseline assesses nothing. -/
def BaselineVersion.policy : BaselineVersion → Option IntegrityPolicy
  | .legacy => none
  | .previous => some .previous
  | .recent | .corroborated => some .recent
  | .current => some .current

def uncertainIntegrityHoldScore : ℚ := 80 / 100

/-- The engine of the baseline: its fees. -/
structure DecisionEngine where
  defaultFeeBps : ℤ := 125
  oneWayNetworkFeeLamports : ℤ := 30000

/-- `DecisionScore`. -/
structure BaselineScore where
  opportunity : ℚ
  danger : ℚ
  execution : ℚ
  confidence : ℚ
  netEdgeIndex : ℚ
  composite : ℤ

/-- The signals of an opportunity. -/
structure OpportunitySignals where
  velocity : ℚ
  participation : ℚ
  balance : ℚ
  progress : ℚ
  momentum : ℚ

/-- `Decision`, but for its identity. -/
structure BaselineDecision where
  action : DecisionAction
  riskMode : RiskMode
  score : BaselineScore
  reasons : List String
  blockers : List String
  modelVersion : BaselineVersion
  plannedOrderSizeSol : ℚ
  integrityAssessment : Option IntegrityAssessment

/-! ### Scores -/

variable (version : BaselineVersion) (features : FeatureSnapshot)

/-- `activity_credit`: a wall of dust-sized transfers is not an opportunity. -/
def activityCredit : ℚ :=
  25 / 100 + 75 / 100 *
    clamp (min ((usableFraction features "meaningful_volume_ratio").getD 0)
      ((usableFraction features "meaningful_wallet_ratio").getD 0) / (60 / 100))

def opportunitySignals : OpportunitySignals :=
  let momentum := number features "momentum_1m" 0
  let credit := if version = .current then activityCredit features else 1
  { velocity := clamp (number features "trade_count_1m" 0 / 30) * credit
    participation := clamp (number features "unique_wallets_5m" 0 / 24) * credit
    balance := clamp ((number features "buy_ratio_5m" 0 - 42 / 100) / (35 / 100))
    progress := clamp (number features "curve_progress" 0 / (70 / 100))
    momentum := clamp (momentum / (35 / 100)) * clamp ((15 / 10 - momentum) / (12 / 10)) }

def opportunity : ℚ :=
  let signals := opportunitySignals version features
  clamp (25 / 100 * signals.velocity + 25 / 100 * signals.participation + 18 / 100 * signals.balance +
    20 / 100 * signals.progress + 12 / 100 * signals.momentum)

/-- `danger`, before the integrity of the market is looked at. -/
def baseDanger : ℚ :=
  clamp (28 / 100 * clamp ((number features "wallet_volume_hhi" 1 - 8 / 100) / (42 / 100)) +
    18 / 100 * clamp ((number features "repeated_amount_ratio" 0 - 15 / 100) / (60 / 100)) +
    14 / 100 * clamp ((number features "same_slot_ratio" 0 - 20 / 100) / (65 / 100)) +
    25 / 100 * (if 0 < number features "creator_sells_5m" 0 then 1 else 0) +
    10 / 100 * number features "drawdown_5m" 0 +
    5 / 100 * clamp ((number features "momentum_1m" 0 - 70 / 100) / (130 / 100)))

def integrity : Option IntegrityAssessment := version.policy.map fun policy => assessMarketIntegrity policy features

/-- A market that is called suspicious, or worse. -/
def manipulated (state : MarketIntegrityState) : Bool := state = .suspicious || state = .severe

def danger : ℚ :=
  match integrity version features with
  | none => baseDanger features
  | some integrity =>
    if manipulated integrity.state then clamp (baseDanger features + 22 / 100 * integrity.score) else baseDanger features

/-- `order_size`: a planned size of nothing is no plan. -/
def orderSize (limits : RiskLimits) (plannedOrderSizeSol : Option ℚ) : ℚ :=
  (plannedOrderSizeSol.filter (· ≠ 0)).getD limits.orderSizeSol

def impact (orderSize : ℚ) : ℚ :=
  let reserveSol := number features "virtual_quote_reserve_sol" 0
  if reserveSol ≤ 0 then 1 else clamp (orderSize / max reserveSol (1 / 1000000))

/-- `int` of a number: towards zero. -/
def toInt (q : ℚ) : ℤ := if 0 ≤ q then ⌊q⌋ else ⌈q⌉

/-- `round_trip_protocol_cost + round_trip_network_cost`. -/
def DecisionEngine.roundTripCost (engine : DecisionEngine) (orderSize : ℚ) : ℚ :=
  2 * clamp (number features "observed_fee_bps" engine.defaultFeeBps / 10000) +
    2 * engine.oneWayNetworkFeeLamports / max 1 (toInt (orderSize * 1000000000))

def DecisionEngine.netEdge (engine : DecisionEngine) (orderSize : ℚ) : ℚ :=
  opportunity version features * (22 / 100) - danger version features * (32 / 100) -
    impact features orderSize * (18 / 10) - engine.roundTripCost features orderSize

/-! ### What stands in the way -/

def integrityIsMature (integrity : IntegrityAssessment) : Bool :=
  integrityMinSampleCount ≤ integrity.sampleCount && integrityMinAgeSeconds ≤ number features "age_seconds" 0 &&
    integrityMinCoverage ≤ integrity.coverage && integrityWindowComplete features && currentIntegrityCoreComplete features

def integrityBlockers : List String :=
  match integrity version features with
  | none => []
  | some integrity =>
    (if integrity.state = .severe then ["market_integrity_severe"] else []) ++
      (if version = .current ∧ integrity.state = .suspicious then ["market_integrity_suspicious"] else []) ++
      if version ≠ .current then []
      else if !integrityIsMature features integrity then ["market_integrity_evidence_not_mature"]
      else if integrity.state = .uncertain ∧ 0 < integrity.categoryCount ∧ uncertainIntegrityHoldScore ≤ integrity.score then
        ["market_integrity_uncertain_high_risk"]
      else []

def blocks (condition : Bool) (blocker : String) : List String := if condition then [blocker] else []

def DecisionEngine.blockers (engine : DecisionEngine) (limits : RiskLimits) (orderSize : ℚ) : List String :=
  features.hardFlags ++ integrityBlockers version features ++
    blocks (number features "age_seconds" 0 < 15) "needs_at_least_15_seconds_of_history" ++
    blocks (number features "trade_count_5m" 0 < 8) "needs_at_least_8_observed_trades" ++
    blocks (number features "unique_wallets_5m" 0 < 5) "needs_at_least_5_unique_wallets" ++
    blocks (features.dataConfidence < limits.minConfidence) "data_confidence_below_risk_mode_minimum" ++
    blocks (limits.maxDanger < danger version features) "danger_above_risk_mode_limit" ++
    blocks (limits.maxPriceImpact < impact features orderSize) "estimated_price_impact_above_limit" ++
    blocks (engine.netEdge version features orderSize < limits.minNetEdgeIndex) "heuristic_net_edge_below_minimum"

/-- The blockers of evidence that cannot be relied on. -/
def unreliableBlockers : List String :=
  ["missing_curve_reserves", "stale_market_data", "curve_complete_route_unconfirmed", "unsupported_quote_mint_v1",
    "unsupported_token_program", "mint_safety_unverified", "mint_account_failed_safety_checks"]

/-- `learning`. -/
def stillLearning : Bool :=
  number features "age_seconds" 0 < 15 || number features "trade_count_5m" 0 < 8 || number features "unique_wallets_5m" 0 < 5

/-- `action`. -/
def actionOf (learning : Bool) (blockers : List String) : DecisionAction :=
  if blockers.any (· ∈ unreliableBlockers) then .abstain
  else if learning then .watch
  else if blockers.isEmpty then .enter
  else .pass

def reasons (signals : OpportunitySignals) (impact danger confidence : ℚ) : List String :=
  let ranked := ([(signals.velocity, "Trading velocity is building"),
    (signals.participation, "Participation is spread across more wallets"),
    (signals.balance, "Buy demand currently exceeds sell demand"),
    (signals.progress, "The bonding curve has meaningful progress"),
    (signals.momentum, "Short-term momentum is positive but not extreme")] : List (ℚ × String)).insertionSort
      fun signal signal' => signal.1 ≥ signal'.1
  let reasons := ((ranked.take 3).filter fun signal => 25 / 100 ≤ signal.1).map Prod.snd ++
    blocks (3 / 100 < impact) "The selected paper size has noticeable price impact" ++
    blocks (35 / 100 < danger) "Manipulation or concentration risk is elevated" ++
    blocks (confidence < 65 / 100) "The evidence set is still incomplete"
  if reasons.isEmpty then ["Not enough reliable evidence has accumulated yet"] else reasons

/-- `evaluate`, of the baseline. -/
def DecisionEngine.evaluate (engine : DecisionEngine) (mode : RiskMode) (plannedOrderSizeSol : Option ℚ)
    (policyLimits : Option RiskLimits) : BaselineDecision :=
  let limits := policyLimits.getD (riskLimitsTable mode)
  let orderSize := orderSize limits plannedOrderSizeSol
  let opportunity := opportunity version features
  let danger := danger version features
  let impact := impact features orderSize
  let execution := clamp (1 - impact * 6)
  let blockers := engine.blockers version features limits orderSize
  { action := actionOf (stillLearning features) blockers
    riskMode := mode
    score :=
      { opportunity := opportunity
        danger := danger
        execution := execution
        confidence := features.dataConfidence
        netEdgeIndex := engine.netEdge version features orderSize
        composite := Decimal.roundHalfEven (100 * clamp (opportunity * (45 / 100) + (1 - danger) * (25 / 100) +
          execution * (15 / 100) + features.dataConfidence * (15 / 100))) }
    reasons := reasons (opportunitySignals version features) impact danger features.dataConfidence
    blockers := firstPer id blockers
    modelVersion := version
    plannedOrderSizeSol := orderSize
    integrityAssessment := integrity version features }

end SignalArcade.Baseline
