import SignalArcade.Lib.Table
import SignalArcade.Paper.CurveMath

/-!
# The records of a paper season

The broker's data: what it reads of the market, the decisions it is handed, and what
it keeps and stores of orders, fills, positions and the ledger.
-/

namespace SignalArcade.Paper

/-- A time, in microseconds. -/
abbrev Instant := ℤ

/-- Whole milliseconds, in microseconds. -/
def milliseconds (n : ℕ) : ℤ := 1000 * n

/-! ### Kinds -/

/-- The kinds of market events. -/
inductive EventKind where
  | create | trade | complete | migrate | market | health
  deriving DecidableEq

/-- The side of an order. -/
inductive Side where
  | buy | sell
  deriving DecidableEq

/-- What a decision comes to. -/
inductive DecisionAction where
  | enter | watch | pass | abstain
  deriving DecidableEq

/-- The states of a market's integrity. -/
inductive MarketIntegrityState where
  | clean | uncertain | suspicious | severe
  deriving DecidableEq

/-- What an exit assessment comes to. -/
inductive ExitAction where
  | hold | wait | exit
  deriving DecidableEq

/-- Whether a position can be sold. -/
inductive PositionMarketStatus where
  | active | exitBlocked | dormant
  deriving DecidableEq

/-- The status of an order. -/
inductive OrderStatus where
  | pending | filled | failed | cancelled
  deriving DecidableEq

/-- The risk modes. -/
inductive RiskMode where
  | safe | balanced | aggressive
  deriving DecidableEq

/-- The currency of the account. -/
inductive QuoteCurrency where
  | sol | usdc
  deriving DecidableEq

/-! ### Limits -/

/-- The limits of a risk mode. -/
structure RiskLimits where
  mode : RiskMode
  orderSizeSol : ℚ
  minNetEdgeIndex : ℚ
  maxDanger : ℚ
  minConfidence : ℚ
  maxPriceImpact : ℚ
  maxOpenPositions : ℕ
  maxExposureFraction : ℚ
  maxDrawdownFraction : ℚ
  stopLossFraction : ℚ
  takeProfitFraction : ℚ
  trailingStopFraction : ℚ
  minimumHoldSupport : ℚ
  migrationGuardProgress : ℚ
  maxHoldSeconds : ℕ
  hardMaxHoldSeconds : ℕ

/-- `RISK_LIMITS`. -/
def riskLimitsTable : RiskMode → RiskLimits
  | .safe =>
    { mode := .safe, orderSizeSol := 1 / 100, minNetEdgeIndex := 4 / 100, maxDanger := 25 / 100
      minConfidence := 72 / 100, maxPriceImpact := 3 / 100, maxOpenPositions := 2
      maxExposureFraction := 5 / 100, maxDrawdownFraction := 8 / 100, stopLossFraction := 8 / 100
      takeProfitFraction := 15 / 100, trailingStopFraction := 6 / 100, minimumHoldSupport := 62 / 100
      migrationGuardProgress := 88 / 100, maxHoldSeconds := 300, hardMaxHoldSeconds := 900 }
  | .balanced =>
    { mode := .balanced, orderSizeSol := 25 / 1000, minNetEdgeIndex := 25 / 1000, maxDanger := 38 / 100
      minConfidence := 62 / 100, maxPriceImpact := 6 / 100, maxOpenPositions := 4
      maxExposureFraction := 12 / 100, maxDrawdownFraction := 15 / 100, stopLossFraction := 12 / 100
      takeProfitFraction := 25 / 100, trailingStopFraction := 10 / 100, minimumHoldSupport := 55 / 100
      migrationGuardProgress := 92 / 100, maxHoldSeconds := 600, hardMaxHoldSeconds := 1800 }
  | .aggressive =>
    { mode := .aggressive, orderSizeSol := 5 / 100, minNetEdgeIndex := 15 / 1000, maxDanger := 50 / 100
      minConfidence := 55 / 100, maxPriceImpact := 10 / 100, maxOpenPositions := 6
      maxExposureFraction := 20 / 100, maxDrawdownFraction := 25 / 100, stopLossFraction := 18 / 100
      takeProfitFraction := 40 / 100, trailingStopFraction := 15 / 100, minimumHoldSupport := 48 / 100
      migrationGuardProgress := 95 / 100, maxHoldSeconds := 1200, hardMaxHoldSeconds := 3600 }

/-- What the broker reads of a season's frozen profile. -/
structure SeasonProfile where
  riskMode : RiskMode
  riskLimits : RiskLimits
  /-- `effective_drawdown_bps`: absent, or off, or a number of basis points. -/
  effectiveDrawdownBps : Option (Option ℕ)

/-- What the broker reads of the settings. -/
structure Settings where
  entryLatencyMs : ℕ := 850
  exitLatencyMs : ℕ := 1100
  networkFeeLamports : ℕ := 5000
  priorityFeeLamports : ℕ := 25000
  pumpFeeBps : ℕ := 125
  equitySampleSeconds : ℕ := 5
  positionMarkStaleSeconds : ℕ := 90

/-- The network's part of the cost of a transaction. -/
def Settings.oneWayFee (settings : Settings) : ℤ := settings.networkFeeLamports + settings.priorityFeeLamports

/-! ### The market -/

/-- The value of a data item. -/
inductive Scalar where
  | number (q : ℚ)
  | text (s : String)
  | flag (b : Bool)
  | missing
  deriving DecidableEq

/-- A feature's value, with where it is from. -/
structure DataValue where
  value : Scalar
  unit : String
  asOf : Instant
  sources : List String
  freshnessSeconds : ℚ
  quality : ℚ
  missingReason : Option String

/-- The features of a market at a time. -/
structure FeatureSnapshot where
  mint : String
  symbol : String
  name : String
  venue : String
  computedAt : Instant
  values : List (String × DataValue)
  dataConfidence : ℚ
  hardFlags : List String

/-- `values.get(key)`. -/
def FeatureSnapshot.get? (features : FeatureSnapshot) (key : String) : Option DataValue :=
  features.values.lookup key

/-- What the broker reads of a `TokenState`. -/
structure TokenState where
  mint : String
  venue : String
  curveAddress : String
  poolAddress : String
  poolBaseTokenAccount : String
  poolQuoteTokenAccount : String
  quoteMint : String
  lastEventAt : Option Instant
  lastReserveAt : Option Instant
  lastReserveSlot : ℤ
  reserveSource : String
  reserveFeeComponents : Option (List ℤ)
  reserveLpFeeBps : ℤ
  lastReserveEventId : Option String
  lastReserveSignature : Option String
  virtualTokenReserves : ℤ
  virtualQuoteReserves : ℤ
  realTokenReserves : ℤ
  realQuoteReserves : Option ℤ
  feeBps : ℤ

/-- `state.last_reserve_at or state.last_event_at`. -/
def TokenState.reserveObservedAt (state : TokenState) : Option Instant :=
  state.lastReserveAt <|> state.lastEventAt

/-- The fee rate in force: the observed one, or the configured one where none was observed. -/
def TokenState.feeRate (state : TokenState) (settings : Settings) : ℤ :=
  if state.reserveFeeComponents.isSome then state.feeBps
  else if state.feeBps ≠ 0 then state.feeBps else settings.pumpFeeBps

/-! ### Decisions -/

/-- What the integrity policy says of a market. -/
structure IntegrityAssessment where
  policyVersion : String
  state : MarketIntegrityState
  score : ℚ
  coverage : ℚ
  sampleCount : ℕ
  categoryCount : ℕ
  categories : List String
  evidence : List String

/-- How the size of an entry was chosen. -/
structure SizingAssessment where
  policyVersion : String
  baseSizeSol : ℚ
  desiredSizeSol : ℚ
  selectedSizeSol : ℚ
  maximumSizeSol : Option ℚ
  accountAllocationFraction : ℚ
  constraints : List String
  reasons : List String

/-- What the broker reads of a `ChallengerEvaluationReceipt` of the sizing skill. -/
structure ChallengerSizing where
  artifactVersion : String
  /-- Its `skill` is `sizing`. -/
  isSizing : Bool
  inDistribution : Bool
  proposedAction : String
  baselineActionable : Bool
  parameters : List (String × Scalar)

/-- What the broker reads of a `Decision`. -/
structure Decision where
  decisionId : String
  mint : String
  symbol : String
  createdAt : Instant
  action : DecisionAction
  riskMode : RiskMode
  /-- `model_version`, split at its `+` signs. -/
  modelVersion : List String
  plannedOrderSizeSol : Option ℚ
  integrityAssessment : Option IntegrityAssessment
  sizingAssessment : Option SizingAssessment
  /-- `challenger_assessments["sizing"]`: absent, or a record that does not validate, or a
  receipt. -/
  challengerSizing : Option (Option ChallengerSizing)

/-- `model_version.split("+", maxsplit=1)[0]`. -/
def Decision.baselineVersion (decision : Decision) : String := decision.modelVersion.headD ""

/-- What the fill-time check reads of a refreshed decision. -/
structure RefreshedDecision where
  action : DecisionAction
  blockers : List String
  integrityAssessment : Option IntegrityAssessment

/-! ### Why an order does not get on -/

/-- Why a decision's receipt is refused. -/
inductive ReceiptBlocker where
  | unsupportedBaselineVersion
  | currentBaselineReceiptIncomplete
  | currentBaselinePolicyVersionMismatch
  | challengerSizingReceiptInvalid
  | challengerSizingIntegrityGuardFailed
  | currentBaselineSizeReceiptMismatch
  deriving DecidableEq

def ReceiptBlocker.text : ReceiptBlocker → String
  | .unsupportedBaselineVersion => "unsupported_baseline_version"
  | .currentBaselineReceiptIncomplete => "current_baseline_receipt_incomplete"
  | .currentBaselinePolicyVersionMismatch => "current_baseline_policy_version_mismatch"
  | .challengerSizingReceiptInvalid => "challenger_sizing_receipt_invalid"
  | .challengerSizingIntegrityGuardFailed => "challenger_sizing_integrity_guard_failed"
  | .currentBaselineSizeReceiptMismatch => "current_baseline_size_receipt_mismatch"

/-- Why an entry is refused, at submission or when it is due. -/
inductive Blocker where
  | paperPortfolioNotInitialized
  | decisionIsNotAnEntry
  | receipt (blocker : ReceiptBlocker)
  | mintAlreadyTradedThisSeason
  | positionAlreadyOpen
  | orderAlreadyPending
  | portfolioCapacityReached
  | portfolioDrawdownLimitReached
  | freshSolUsdcConversionUnavailable
  | portfolioExposureLimitReached
  | unreservedPaperCashInsufficient
  | paperCashInsufficient
  | entryThesisUnavailableAtFill
  | pendingOrderSizeDiffersFromEntryReceipt
  | refreshed (blocker : String)
  | entryThesisDeteriorated
  | entrySizeNoLongerSupportedByIntegrity
  | unsupportedBaselineVersion
  deriving DecidableEq

def Blocker.text : Blocker → String
  | .paperPortfolioNotInitialized => "paper_portfolio_not_initialized"
  | .decisionIsNotAnEntry => "decision_is_not_an_entry"
  | .receipt blocker => blocker.text
  | .mintAlreadyTradedThisSeason => "mint_already_traded_this_season"
  | .positionAlreadyOpen => "position_already_open"
  | .orderAlreadyPending => "order_already_pending"
  | .portfolioCapacityReached => "portfolio_capacity_reached"
  | .portfolioDrawdownLimitReached => "portfolio_drawdown_limit_reached"
  | .freshSolUsdcConversionUnavailable => "fresh_sol_usdc_conversion_unavailable"
  | .portfolioExposureLimitReached => "portfolio_exposure_limit_reached"
  | .unreservedPaperCashInsufficient => "unreserved_paper_cash_insufficient"
  | .paperCashInsufficient => "paper_cash_insufficient"
  | .entryThesisUnavailableAtFill => "entry_thesis_unavailable_at_fill"
  | .pendingOrderSizeDiffersFromEntryReceipt => "pending_order_size_differs_from_entry_receipt"
  | .refreshed blocker => blocker
  | .entryThesisDeteriorated => "entry_thesis_deteriorated"
  | .entrySizeNoLongerSupportedByIntegrity => "entry_size_no_longer_supported_by_integrity"
  | .unsupportedBaselineVersion => "unsupported_baseline_version"

/-- What is recorded as the `failure_reason` of an order. -/
inductive OrderReason where
  /-- Not a failure: why a sell was scheduled. -/
  | scheduled (reason : String)
  | fillRejected (blocker : Blocker)
  | quote (error : QuoteError)
  | positionNoLongerExists
  | conversionUnavailable
  | virtualCashChanged
  | expired
  | cancelled (reason : String)
  deriving DecidableEq

/-- The text recorded. That of a failure is cut to 300 characters. -/
def OrderReason.text : OrderReason → String
  | .scheduled reason => "scheduled_reason:" ++ reason
  | .fillRejected blocker => String.ofList (("fill_rejected:" ++ blocker.text).toList.take 300)
  | .quote error => error.text
  | .positionNoLongerExists => "position no longer exists"
  | .conversionUnavailable => "fresh SOL/USDC conversion is unavailable"
  | .virtualCashChanged => "virtual cash changed before the order filled"
  | .expired => "no_fresh_executable_market_state_within_90_seconds"
  | .cancelled reason => reason

/-! ### Orders -/

/-- What an order asks for. -/
structure Request where
  orderId : ℕ
  decisionId : Option String := none
  mint : String
  symbol : String
  side : Side
  requestedSolLamports : ℤ := 0
  requestedTokenUnits : ℤ := 0
  /-- The cash reserved while a buy waits. -/
  reservedAccountMinor : ℤ := 0
  createdAt : Instant
  fillAfter : Instant
  riskModeAtEntry : Option RiskMode := none
  baselineVersionAtEntry : String := "baseline-v1.1"
  /-- `exit_timing_plan`: a record the broker only carries along. -/
  exitTimingPlan : Option String := none

/-- An order: its request, and what became of it. -/
structure PaperOrder extends Request where
  status : OrderStatus := .pending
  filledAt : Option Instant := none
  failureReason : Option OrderReason := none

/-- Orders by their identifier. -/
abbrev Orders := Table ℕ PaperOrder (·.orderId)

/-! ### Fills -/

/-- The reserves that a fill was quoted on. -/
structure ExecutionReserveSnapshot where
  observedAt : Instant
  eventId : Option String
  signature : Option String
  slot : ℤ
  source : String
  venue : String
  quoteMint : String
  virtualTokenReserves : ℤ
  virtualQuoteReserves : ℤ
  realTokenReserves : ℤ
  realQuoteReserves : Option ℤ
  feeBps : ℤ
  deriving DecidableEq

/-- `execution_fee_provenance`: how the fee was computed. -/
structure FeeProvenance where
  version : ℤ
  rounding : String
  feeComponents : Option (List ℤ)
  lpFeeBps : ℤ
  source : String
  deriving DecidableEq

/-- What the exit policy says of a position. -/
structure ExitAssessment where
  policyVersion : String
  evaluatedAt : Instant
  action : ExitAction
  reason : String
  supportScore : ℚ
  pnlFraction : ℚ
  peakReturnFraction : ℚ
  drawdownFromPeakFraction : ℚ
  ageSeconds : ℚ
  softHoldSeconds : ℕ
  hardHoldSeconds : ℕ
  evidence : List String
  strategySeasonId : Option String
  strategyParticipant : Option (List (String × String))
  deriving DecidableEq

/-- The receipt of a fill. -/
structure FillReceipt where
  fillId : ℕ
  orderId : ℕ
  mint : String
  symbol : String
  side : Side
  filledAt : Instant
  tokenUnits : ℤ
  grossSolLamports : ℤ
  protocolFeeLamports : ℤ
  networkFeeLamports : ℤ
  netSolLamports : ℤ
  priceImpactFraction : ℚ
  latencyMs : ℤ
  sourceEventId : String
  venue : String
  reserveSnapshot : Option ExecutionReserveSnapshot
  executionFeeProvenance : Option FeeProvenance
  assumptions : List String
  accountCurrency : QuoteCurrency
  accountDecimals : ℕ
  solUsdPrice : Option ℚ
  exitAssessment : Option ExitAssessment
  positionOpenedAt : Option Instant
  entryRiskMode : Option RiskMode
  peakAccountMinor : ℤ
  realizedReturnFraction : Option ℚ
  peakReturnFraction : Option ℚ
  accountGrossMinor : ℤ
  accountProtocolFeeMinor : ℤ
  accountNetworkFeeMinor : ℤ
  accountNetMinor : ℤ
  deriving DecidableEq

/-! ### Positions -/

/-- What a position holds, and what it cost. -/
structure Holding where
  positionId : ℕ
  mint : String
  symbol : String
  tokenUnits : ℤ
  entryCostLamports : ℤ
  bookValueLamports : ℤ
  openedAt : Instant
  entryFillId : ℕ
  riskModeAtEntry : Option RiskMode
  baselineVersionAtEntry : String
  exitTimingPlan : Option String

/-- `Position`: a holding, the route it is valued on, its last mark, and the integrity
warnings seen. -/
structure Position extends Holding where
  venue : String
  curveAddress : String
  poolAddress : String
  poolBaseTokenAccount : String
  poolQuoteTokenAccount : String
  quoteMint : String
  lastMarkLamports : ℤ := 0
  unrealizedPnlLamports : ℤ := 0
  lastMarkedAt : Option Instant := none
  markAgeSeconds : Option ℚ := none
  markIsStale : Bool := true
  markIsExecutable : Bool := false
  markBlockers : List String := []
  marketStatus : PositionMarketStatus := .dormant
  peakMarkLamports : ℤ := 0
  peakMarkedAt : Option Instant := none
  exitAssessment : Option ExitAssessment := none
  integrityWarningCount : ℕ := 0
  integrityWarningSince : Option Instant := none
  integrityLastWarningAt : Option Instant := none
  integrityLastEvaluatedAt : Option Instant := none
  integrityLastState : MarketIntegrityState := .uncertain

/-- Open positions by their mint. -/
abbrev Positions := Table String Position (·.mint)

/-! ### The ledger -/

/-- An account of the ledger. -/
inductive Account where
  | cash | capital | networkExpense | exitExpense | realizedGain | realizedLoss
  /-- `inventory:<mint>`. -/
  | inventory (mint : String)
  deriving DecidableEq

/-- A line of a transaction of the ledger. -/
structure LedgerEntry where
  account : Account
  debit : ℤ
  credit : ℤ
  memo : String

/-- What the line adds to the balance of its account. -/
def LedgerEntry.amount (entry : LedgerEntry) : ℤ := entry.debit - entry.credit

/-- The transaction a line belongs to: the opening of a season, or a fill. -/
inductive TxId where
  | opening (seasonId : String)
  | fill (fillId : ℕ)

/-- The lines of one transaction, which balance and are not negative. -/
structure LedgerTransaction where
  txId : TxId
  createdAt : Instant
  entries : List LedgerEntry
  balanced : (entries.map (·.debit)).sum = (entries.map (·.credit)).sum
  nonneg : ∀ entry ∈ entries, 0 ≤ entry.debit ∧ 0 ≤ entry.credit

end SignalArcade.Paper
