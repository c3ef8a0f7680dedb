import SignalArcade.Lib.Decimal
import SignalArcade.Lib.Prog
import SignalArcade.Paper.Database

/-!
# The paper broker

`PaperBroker`, over its database: what it keeps in memory, and every operation that
submits, marks, schedules, fills, fails or cancels. A season is given by its `Env`; it
fixes the settings, the currency, the profile, the policies the broker consults, what
the wall clock shows, and which database writes raise.
-/

namespace SignalArcade.Paper

open Checked Prog

/-! ### The season -/

/-- Where a write is made. The mark that follows a committed buy has a place of its own. -/
inductive WriteSite where
  | saveDecision | saveOrder | savePosition | fillMark | commitBuyFill | commitSellFill | setSetting
  | recordEquity
  deriving DecidableEq

/-- The policies the broker consults. -/
structure Policies where
  /-- `DecisionEngine.evaluate`: features, mode, planned size, limits, baseline version. -/
  evaluate : FeatureSnapshot → RiskMode → ℚ → RiskLimits → String → RefreshedDecision
  /-- `assess_exit`: position, features, time, limits, soft hold, integrity reason. -/
  assessExit : Position → FeatureSnapshot → Instant → RiskLimits → Option ℤ → Option String → ExitAssessment
  /-- `assess_market_integrity(…).state`: features and policy version. -/
  assessMarketIntegrity : FeatureSnapshot → String → MarketIntegrityState

/-- What is fixed for a season. -/
structure Env where
  settings : Settings
  quoteCurrency : QuoteCurrency
  startingLamports : ℤ
  /-- `initialize` refuses anything else. -/
  starting_pos : 0 < startingLamports
  seasonId : String
  seasonProfile : Option SeasonProfile
  policies : Policies
  /-- `datetime.now(UTC)`, when asked at a tick. -/
  utcNow : ℕ → Instant
  /-- Whether a write made at a tick raises. -/
  raises : ℕ → WriteSite → Bool

def Env.quoteDecimals (env : Env) : ℕ :=
  match env.quoteCurrency with
  | .sol => 9
  | .usdc => 6

/-- What the broker keeps in memory. -/
structure Memory where
  initialized : Bool
  positions : Positions
  pending : Orders
  tradedMints : Finset String
  lastEquityRecordedAt : Option Instant

/-- The broker and its database. -/
structure World where
  database : Database
  memory : Memory
  ticks : ℕ := 0

/-- The records that may fail their own validation. -/
inductive RecordKind where
  | paperOrder | reserveSnapshot | fillReceipt | position

/-- What an operation raises. -/
inductive Exn where
  | writeFailed (site : WriteSite)
  /-- A commit was refused by its validators. -/
  | rejected (error : CommitError)
  /-- A transaction failed. -/
  | database (error : DatabaseError)
  /-- `pydantic.ValidationError`. -/
  | invalid (record : RecordKind)
  /-- `ValueError("fresh SOL/USDC conversion is unavailable")`, not caught. -/
  | conversionUnavailable
  /-- `AssertionError`. -/
  | assertion

/-- A method of the broker. -/
abbrev Broker := EStateM Exn World

/-! ### The outside world -/

def tick : Broker ℕ := do
  let w ← get
  set { w with ticks := w.ticks + 1 }
  return w.ticks

/-- `uuid.uuid4()`. -/
def uuid4 : Broker ℕ := tick

/-- `datetime.now(UTC)`. -/
def utcNow (env : Env) : Broker Instant := do
  let n ← tick
  return env.utcNow n

def transact (env : Env) (site : WriteSite) (write : Database → Except DatabaseError Database) :
    Broker Unit := do
  let n ← tick
  if env.raises n site then throw (.writeFailed site)
  else do
    let w ← get
    let db ← ofExcept .database (write w.database)
    set { w with database := db }

/-- `self.positions[mint] = position`, or a change of the position that is there. -/
def putPosition (position : Position) : Broker Unit :=
  modify fun w => { w with memory.positions := w.memory.positions.upsert position }

/-- `self.pending[order_id] = order`, or a change of the order that is there. -/
def putPending (order : PaperOrder) : Broker Unit :=
  modify fun w => { w with memory.pending := w.memory.pending.upsert order }

/-- `self.pending.pop(order_id, None)`. -/
def popPending (orderId : ℕ) : Broker Unit :=
  modify fun w => { w with memory.pending := w.memory.pending.erase orderId }

/-- A position is changed where it is, and saved. -/
def updatePosition (env : Env) (site : WriteSite) (position : Position) : Broker Unit := do
  putPosition position
  transact env site fun db => db.savePosition position

/-- A new order becomes pending, and is saved. -/
def placeOrder (env : Env) (order : PaperOrder) : Broker Unit := do
  putPending order
  transact env .saveOrder fun db => db.saveOrder order

/-! ### The account currency -/

def lamportsPerSol : ℤ := 1000000000

def usdcMinorPerUnit : ℤ := 1000000

/-- Rounding to whole minor units. -/
inductive Rounding where
  | ceiling | floor

/-- `to_integral_value`. -/
def Rounding.apply : Rounding → ℚ → ℤ
  | .ceiling, q => ⌈q⌉
  | .floor, q => ⌊q⌋

/-- A decimal operation rounds to 28 digits. -/
def decimal (q : ℚ) : ℚ := Decimal.round 27 q

def acceptablePrice (price : Option ℚ) : Option ℚ := price.filter fun p => 0 < p ∧ p < 1000000

/-- `Decimal(sol_lamports) * Decimal(price) * Decimal(USDC_MINOR_PER_UNIT) /
Decimal(LAMPORTS_PER_SOL)`. -/
def convertedMinor (solLamports : ℤ) (price : ℚ) : ℚ :=
  decimal (decimal (decimal (solLamports * price) * usdcMinorPerUnit) / lamportsPerSol)

/-- `_account_minor_from_sol`; `none` is its `ValueError`. -/
def accountMinorFromSol (env : Env) (solLamports : ℤ) (price : Option ℚ) (rounding : Rounding) : Option ℤ :=
  match env.quoteCurrency with
  | .sol => some solLamports
  | .usdc => (acceptablePrice price).map fun p => max 0 (rounding.apply (convertedMinor solLamports p))

/-- What a fill comes to in the account currency. -/
structure AccountValues where
  gross : ℤ
  protocolFee : ℤ
  networkFee : ℤ
  net : ℤ

def accountFillValues (env : Env) (side : Side) (quote : CurveQuote) (price : Option ℚ) : Option AccountValues :=
  match side with
  | .buy => do
    let total ← accountMinorFromSol env quote.walletSolLamports price .ceiling
    let protocol ← accountMinorFromSol env quote.protocolFeeLamports price .ceiling
    let network ← accountMinorFromSol env quote.networkFeeLamports price .ceiling
    return ⟨max 0 (total - protocol - network), protocol, network, total⟩
  | .sell => do
    let net ← accountMinorFromSol env quote.walletSolLamports price .floor
    let protocol ← accountMinorFromSol env quote.protocolFeeLamports price .ceiling
    let network ← accountMinorFromSol env quote.networkFeeLamports price .ceiling
    return ⟨net + protocol + network, protocol, network, net⟩

/-! ### Versions and limits -/

/-- The Baseline generations that can be learned from. -/
inductive Baseline where
  | previous | recent | corroborated | current
  deriving DecidableEq

def legacyBaselineVersion : String := "baseline-v1.1"

/-- `LEARNABLE_BASELINE_VERSIONS`. -/
def learnableBaseline (version : String) : Option Baseline :=
  if version = "baseline-v1.2" then some .previous
  else if version = "baseline-v1.3" then some .recent
  else if version = "baseline-v1.4" then some .corroborated
  else if version = "baseline-v1.5" then some .current
  else none

def integrityPolicyForBaseline : Baseline → String
  | .previous => "integrity-gates-v1"
  | .recent | .corroborated => "integrity-gates-v2"
  | .current => "integrity-gates-v3"

def sizingPolicyVersion : String := "quality-size-v1"

def integrityReferenceSizeMultiplier (baseline : Baseline) (state : MarketIntegrityState) : ℚ :=
  match state with
  | .suspicious => 60 / 100
  | .severe => 50 / 100
  | .uncertain => if baseline = .corroborated ∨ baseline = .current then 70 / 100 else 1
  | .clean => 1

/-- `int`, of a number: towards zero. -/
def truncate (q : ℚ) : ℤ := q.num.tdiv q.den

/-- The mode asked for, or that of the profile, or the default. -/
def Env.selectedMode (env : Env) (mode : Option RiskMode) : RiskMode :=
  (mode <|> env.seasonProfile.map (·.riskMode)).getD .balanced

/-- The limits of the season's profile, if it is of the mode. -/
def riskLimits (env : Env) (mode : Option RiskMode) : RiskLimits :=
  match env.seasonProfile with
  | some profile =>
    if profile.riskMode = env.selectedMode mode then profile.riskLimits else riskLimitsTable (env.selectedMode mode)
  | none => riskLimitsTable (env.selectedMode mode)

def drawdownLimitFraction (env : Env) (mode : Option RiskMode) : Option ℚ :=
  match env.seasonProfile with
  | some profile =>
    match profile.effectiveDrawdownBps with
    | some bps =>
      if profile.riskMode = env.selectedMode mode then bps.map fun b => b / 10000
      else some (riskLimits env mode).maxDrawdownFraction
    | none => some (riskLimits env mode).maxDrawdownFraction
  | none => some (riskLimits env mode).maxDrawdownFraction

def effectiveExitLimits (position : Position) (mode : RiskMode) : RiskLimits :=
  let current := riskLimitsTable mode
  let entered := riskLimitsTable (position.riskModeAtEntry.getD mode)
  { current with
    stopLossFraction := min current.stopLossFraction entered.stopLossFraction
    takeProfitFraction := min current.takeProfitFraction entered.takeProfitFraction
    trailingStopFraction := min current.trailingStopFraction entered.trailingStopFraction
    minimumHoldSupport := max current.minimumHoldSupport entered.minimumHoldSupport
    migrationGuardProgress := min current.migrationGuardProgress entered.migrationGuardProgress
    maxHoldSeconds := min current.maxHoldSeconds entered.maxHoldSeconds
    hardMaxHoldSeconds := min current.hardMaxHoldSeconds entered.hardMaxHoldSeconds }

def positionExitLimits (env : Env) (position : Position) (mode : RiskMode) : RiskLimits :=
  match env.seasonProfile with
  | some _ => riskLimits env (some mode)
  | none => effectiveExitLimits position mode

/-! ### The portfolio -/

/-- `cash_lamports`. -/
def World.cash (w : World) : ℤ := w.database.ledgerBalance .cash

def Memory.hasPendingFor (memory : Memory) (mint : String) (side : Option Side) : Bool :=
  memory.pending.rows.any fun order => order.mint = mint ∧ (side = none ∨ side = some order.side)

def Memory.pendingBuys (memory : Memory) : List PaperOrder :=
  memory.pending.rows.filter fun order => order.side = .buy

/-- The portfolio as it is shown. -/
structure PortfolioSnapshot where
  initialized : Bool
  quoteCurrency : QuoteCurrency
  quoteDecimals : ℕ
  cashLamports : ℤ
  reservedCashLamports : ℤ
  availableCashLamports : ℤ
  investedValueLamports : ℤ
  lastKnownInvestedValueLamports : ℤ
  staleInvestedValueLamports : ℤ
  stalePositionCount : ℕ
  routeBlockedInvestedValueLamports : ℤ
  routeBlockedPositionCount : ℕ
  excludedInvestedValueLamports : ℤ
  excludedPositionCount : ℕ
  startingLamports : ℤ
  equityLamports : ℤ
  peakEquityLamports : ℤ
  lastKnownEquityLamports : ℤ
  realizedPnlLamports : ℤ
  unrealizedPnlLamports : ℤ
  drawdownFraction : ℚ
  riskHalted : Bool
  positions : List Position
  pendingOrders : List PaperOrder

def markAge (now : Instant) (stored : Position) : Option ℚ :=
  stored.lastMarkedAt.map fun marked => max 0 ((now - marked : ℤ) / 1000000 : ℚ)

def shownPosition (env : Env) (now : Instant) (stored : Position) : Position :=
  let age := markAge now stored
  let stale := stored.markIsStale ∨ age = none ∨
    ∃ a ∈ age, (env.settings.positionMarkStaleSeconds : ℚ) < a
  { stored with
    markAgeSeconds := age
    markIsStale := stale
    markIsExecutable := ¬ stale ∧ stored.markIsExecutable
    markBlockers :=
      if stale ∧ "stale_market_data" ∉ stored.markBlockers then stored.markBlockers ++ ["stale_market_data"]
      else stored.markBlockers
    marketStatus :=
      if stale then .dormant else if stored.markIsExecutable then .active else .exitBlocked }

def equityPeakBasis : String := "executable-route-v1"

/-- The peak before this snapshot, settled in the database when it was kept on another
basis. -/
def previousPeak (env : Env) (equity : ℤ) (persistPeak : Bool) : Broker ℤ := do
  let w ← get
  if w.database.equityPeakBasis ≠ some equityPeakBasis then do
    let peak := max (max env.startingLamports equity) w.database.maxRecordedCash
    if persistPeak then do
      transact env .setSetting fun db => db.setPeakEquity peak
      transact env .setSetting fun db => db.setEquityPeakBasis equityPeakBasis
      return peak
    else return peak
  else return w.database.peakEquityLamports

/-- The portfolio; its peak is saved when asked for. -/
def snapshot (env : Env) (mode : Option RiskMode) (persistPeak : Bool) : Broker PortfolioSnapshot := do
  let now ← utcNow env
  let w ← get
  let positions := w.memory.positions.rows.map (shownPosition env now)
  let stale := positions.filter fun position => position.markIsStale
  let active := positions.filter fun position => ¬ position.markIsStale ∧ position.markIsExecutable
  let blocked := positions.filter fun position => ¬ position.markIsStale ∧ ¬ position.markIsExecutable
  let cash := w.cash
  let inventoryMark := (active.map (·.lastMarkLamports)).sum
  let blockedMark := (blocked.map (·.lastMarkLamports)).sum
  let staleMark := (stale.map (·.lastMarkLamports)).sum
  let excluded := blocked ++ stale
  let reservedCash := (w.memory.pendingBuys.map (·.reservedAccountMinor)).sum
  let equity := max 0 (cash + inventoryMark)
  let previous ← previousPeak env equity persistPeak
  let peak := max previous equity
  if persistPeak ∧ previous < peak then transact env .setSetting fun db => db.setPeakEquity peak
  else pure ()
  let drawdown : ℚ := if peak ≤ 0 then 0 else max 0 (min 1 (1 - equity / peak))
  return {
    initialized := w.memory.initialized
    quoteCurrency := env.quoteCurrency
    quoteDecimals := env.quoteDecimals
    cashLamports := cash
    reservedCashLamports := reservedCash
    availableCashLamports := max 0 (cash - reservedCash)
    investedValueLamports := inventoryMark
    lastKnownInvestedValueLamports := inventoryMark + blockedMark + staleMark
    staleInvestedValueLamports := staleMark
    stalePositionCount := stale.length
    routeBlockedInvestedValueLamports := blockedMark
    routeBlockedPositionCount := blocked.length
    excludedInvestedValueLamports := blockedMark + staleMark
    excludedPositionCount := excluded.length
    startingLamports := env.startingLamports
    equityLamports := equity
    peakEquityLamports := peak
    lastKnownEquityLamports := max 0 (cash + (inventoryMark + blockedMark + staleMark))
    realizedPnlLamports := w.database.realizedPnlLamports
    unrealizedPnlLamports := (active.map (·.unrealizedPnlLamports)).sum -
      (excluded.map (·.entryCostLamports)).sum
    drawdownFraction := drawdown
    riskHalted := ∃ limit ∈ drawdownLimitFraction env mode, limit ≤ drawdown
    positions := positions
    pendingOrders := w.memory.pending.rows }

def capacityPositions (portfolio : PortfolioSnapshot) : List Position :=
  portfolio.positions.filter fun position => position.marketStatus ≠ .dormant

/-! ### Entering -/

/-- A decimal `f"{multiplier:g}"` of the multipliers there are. -/
def multiplierText (multiplier : ℚ) : String :=
  if multiplier = 1 / 2 then "0.5" else if multiplier = 3 / 2 then "1.5" else "2"

/-- The check of an applied sizing challenger: its multiplier, or why it is refused. -/
def appliedMultiplier (decision : Decision) (sizing : SizingAssessment) (challenger : ChallengerSizing) :
    Except ReceiptBlocker ℚ :=
  match challenger.parameters.lookup "selected_multiplier", challenger.parameters.lookup "baseline_size_sol" with
  | some (.number multiplier), some (.number baselineSize) => do
    raiseIf ((multiplier ≠ 1 / 2 ∧ multiplier ≠ 3 / 2 ∧ multiplier ≠ 2) ∨
      |baselineSize - sizing.selectedSizeSol| > 1 / 1000000000 ∨ challenger.inDistribution = false ∨
      challenger.baselineActionable = false ∨ challenger.proposedAction ≠ multiplierText multiplier ∨
      challenger.artifactVersion ∉ decision.modelVersion.tail) .challengerSizingReceiptInvalid
    return multiplier
  | _, _ => .error .challengerSizingReceiptInvalid

/-- The size the receipts support: the sizing assessment's, times an applied challenger's
multiplier. -/
def supportedSize (decision : Decision) (sizing : SizingAssessment) (integrity : IntegrityAssessment) :
    Except ReceiptBlocker ℚ :=
  match decision.challengerSizing with
  | none => .ok sizing.selectedSizeSol
  | some none => .error .challengerSizingReceiptInvalid
  | some (some challenger) => do
    raiseIf (challenger.isSizing = false) .challengerSizingReceiptInvalid
    if challenger.parameters.lookup "applied" = some (.flag true) then do
      let multiplier ← appliedMultiplier decision sizing challenger
      raiseIf (1 < multiplier ∧ integrity.state ≠ .clean) .challengerSizingIntegrityGuardFailed
      return sizing.selectedSizeSol * multiplier
    else return sizing.selectedSizeSol

def entryStrategyReceiptBlocker (decision : Decision) : Option ReceiptBlocker :=
  if decision.baselineVersion = legacyBaselineVersion then none
  else match learnableBaseline decision.baselineVersion with
    | none => some .unsupportedBaselineVersion
    | some baseline =>
      match decision.plannedOrderSizeSol, decision.sizingAssessment, decision.integrityAssessment with
      | some planned, some sizing, some integrity =>
        if sizing.policyVersion ≠ sizingPolicyVersion ∨
            integrity.policyVersion ≠ integrityPolicyForBaseline baseline then
          some .currentBaselinePolicyVersionMismatch
        else match supportedSize decision sizing integrity with
          | .error blocker => some blocker
          | .ok expected =>
            if |truncate (planned * lamportsPerSol) - truncate (expected * lamportsPerSol)| > 1 then
              some .currentBaselineSizeReceiptMismatch
            else none
      | _, _, _ => some .currentBaselineReceiptIncomplete

/-- What a request comes to in the account currency, with the fees of the transaction. -/
def requiredMinor (env : Env) (requestedSolLamports : ℤ) (price : Option ℚ) : Option ℤ :=
  accountMinorFromSol env (requestedSolLamports + env.settings.oneWayFee) price .ceiling

/-- `_pending_reservation`; `none` is its `ValueError`. -/
def pendingReservation (env : Env) (order : PaperOrder) (price : Option ℚ) : Option ℤ :=
  if 0 < order.reservedAccountMinor then some order.reservedAccountMinor
  else requiredMinor env order.requestedSolLamports price

/-- The reservations of the pending buys, together. -/
def reservedTotal (env : Env) (orders : List PaperOrder) (price : Option ℚ) : Broker ℤ :=
  match orders.mapM fun order => pendingReservation env order price with
  | some reservations => pure reservations.sum
  | none => throw .conversionUnavailable

/-- The limits `_entry_assessment` checks once nothing stands against the mint: capacity,
drawdown, exposure and unreserved cash. -/
def entryLimits (env : Env) (decision : Decision) (price : Option ℚ) : Broker (Except Blocker (ℤ × ℤ)) := do
  let limits := riskLimits env (some decision.riskMode)
  let portfolio ← snapshot env (some decision.riskMode) true
  let w ← get
  let capacity := capacityPositions portfolio
  let pendingBuys := w.memory.pendingBuys
  if limits.maxOpenPositions ≤ capacity.length + pendingBuys.length then
    return .error .portfolioCapacityReached
  else if ∃ limit ∈ drawdownLimitFraction env (some decision.riskMode), limit ≤ portfolio.drawdownFraction then
    return .error .portfolioDrawdownLimitReached
  else do
    let request := truncate
      ((decision.plannedOrderSizeSol.filter fun size => size ≠ 0).getD limits.orderSizeSol * lamportsPerSol)
    match requiredMinor env request price with
    | none => return .error .freshSolUsdcConversionUnavailable
    | some required => do
      let reserved ← reservedTotal env pendingBuys price
      let exposure := (capacity.map (·.entryCostLamports)).sum + reserved
      if truncate (portfolio.equityLamports * limits.maxExposureFraction) < exposure + required then
        return .error .portfolioExposureLimitReached
      else if max 0 (portfolio.cashLamports - reserved) < required then
        return .error .unreservedPaperCashInsufficient
      else return .ok (request, required)

/-- `_entry_assessment`: why not, or what to request and to reserve. -/
def entryAssessment (env : Env) (decision : Decision) (price : Option ℚ) :
    Broker (Except Blocker (ℤ × ℤ)) := do
  let w ← get
  if w.memory.initialized = false then return .error .paperPortfolioNotInitialized
  else if decision.action ≠ .enter then return .error .decisionIsNotAnEntry
  else match entryStrategyReceiptBlocker decision with
    | some blocker => return .error (.receipt blocker)
    | none =>
      if decision.mint ∈ w.memory.tradedMints then return .error .mintAlreadyTradedThisSeason
      else if (w.memory.positions.get? decision.mint).isSome then return .error .positionAlreadyOpen
      else if w.memory.hasPendingFor decision.mint none then return .error .orderAlreadyPending
      else entryLimits env decision price

/-- A `PaperOrder` with a negative amount does not validate. -/
def validatedOrder (order : PaperOrder) : Broker PaperOrder :=
  if order.requestedSolLamports < 0 ∨ order.requestedTokenUnits < 0 ∨ order.reservedAccountMinor < 0 then
    throw (.invalid .paperOrder)
  else pure order

def buyOrder (env : Env) (orderId : ℕ) (decision : Decision) (request required : ℤ)
    (exitTimingPlan : Option String) : PaperOrder where
  orderId := orderId
  decisionId := some decision.decisionId
  mint := decision.mint
  symbol := decision.symbol
  side := .buy
  requestedSolLamports := request
  reservedAccountMinor := required
  createdAt := decision.createdAt
  fillAfter := decision.createdAt + milliseconds env.settings.entryLatencyMs
  riskModeAtEntry := some decision.riskMode
  baselineVersionAtEntry := decision.baselineVersion
  exitTimingPlan := exitTimingPlan

def submitDecisionWithReason (env : Env) (decision : Decision) (price : Option ℚ)
    (exitTimingPlan : Option String) : Broker (Except Blocker PaperOrder) := do
  let assessment ← entryAssessment env decision price
  match assessment with
  | .error blocker => return .error blocker
  | .ok (request, required) => do
    let orderId ← uuid4
    let order ← validatedOrder (buyOrder env orderId decision request required exitTimingPlan)
    transact env .saveDecision fun db => db.saveDecision decision
    placeOrder env order
    return .ok order

/-! ### Retiring orders -/

/-- An order that ends without a fill. -/
def PaperOrder.retired (order : PaperOrder) (status : OrderStatus) (reason : OrderReason) (now : Instant) :
    PaperOrder :=
  { order with status := status, failureReason := some reason, filledAt := some now }

/-- A pending order is changed where it is, saved, and taken out of the pending ones. -/
def retireOrder (env : Env) (order : PaperOrder) (status : OrderStatus) (reason : OrderReason)
    (now : Instant) : Broker Unit := do
  putPending (order.retired status reason now)
  transact env .saveOrder fun db => db.saveOrder (order.retired status reason now)
  popPending order.orderId

def failOrder (env : Env) (order : PaperOrder) (reason : OrderReason) (now : Instant) : Broker Unit :=
  retireOrder env order .failed reason now

/-- The cancellation of the pending orders of a kind. How many there were. -/
def cancelWhere (env : Env) (cancels : PaperOrder → Bool) (now : Instant) (reason : String) : Broker ℕ := do
  let w ← get
  let cancelled ← collect (fun order => do
    if cancels order = false then return none
    else do
      retireOrder env order .cancelled (.cancelled reason) now
      return some order) w.memory.pending.rows
  return cancelled.length

def cancelPendingOrders (env : Env) (now : Instant) (reason : String) : Broker ℕ :=
  cancelWhere env (fun _ => true) now reason

def cancelPendingBuys (env : Env) (now : Instant) (reason : String) : Broker ℕ :=
  cancelWhere env (fun order => order.side = .buy) now reason

def cancelPendingSells (env : Env) (now : Instant) (reason : String) : Broker ℕ :=
  cancelWhere env (fun order => order.side = .sell) now reason

def expireStuckOrders (env : Env) (now : Instant) : Broker (List PaperOrder) := do
  let w ← get
  collect (fun order => do
    if now - order.fillAfter > 90 * 1000000 then do
      failOrder env order .expired now
      return some order
    else return none) w.memory.pending.rows

/-! ### Marks -/

/-- The flags a sell cannot be filled under, in alphabetical order. -/
def unfillableSellFlags : List String :=
  ["curve_complete_route_unconfirmed", "missing_curve_reserves", "pumpswap_route_unverified",
    "stale_market_data", "unsupported_quote_mint_v1", "unsupported_token_program"]

/-- The flags a buy cannot be filled under. -/
def unfillableBuyFlags : List String :=
  unfillableSellFlags ++ ["mint_safety_unverified", "mint_account_failed_safety_checks"]

/-- `sorted(set(features.hard_flags) & UNFILLABLE_SELL_FLAGS)`. -/
def routeBlockers (features : FeatureSnapshot) : List String :=
  unfillableSellFlags.filter fun flag => flag ∈ features.hardFlags

/-- A blocker put in its alphabetical place. -/
def withBlocker (blockers : List String) (blocker : String) : List String :=
  ["curve_complete_route_unconfirmed", "fresh_sol_usdc_conversion_unavailable",
    "insufficient_real_quote_liquidity", "mark_calculation_unavailable", "missing_curve_reserves",
    "pumpswap_route_unverified", "stale_market_data", "unsupported_quote_mint_v1",
    "unsupported_token_program"].filter fun name => name ∈ blockers ∨ name = blocker

/-- The quote errors whose text mentions the real quote reserves. -/
def QuoteError.isLiquidity : QuoteError → Bool
  | .realQuoteInvalid | .exceedsRealQuote => true
  | _ => false

/-- The sale of so many units at the state's reserves. -/
def sellQuote (env : Env) (state : TokenState) (tokenUnits : ℤ) : Except QuoteError CurveQuote :=
  quoteSell state.virtualTokenReserves state.virtualQuoteReserves tokenUnits (state.feeRate env.settings)
    env.settings.oneWayFee state.realQuoteReserves state.reserveFeeComponents
    state.reserveLpFeeBps

/-- What a position would sell for in the account currency, or the blocker to record. -/
def markValue (env : Env) (state : TokenState) (price : Option ℚ) (position : Position) : Except String ℤ :=
  let conversion := decide (env.quoteCurrency = .usdc ∧ price = none)
  match sellQuote env state position.tokenUnits with
  | .error e => .error (if conversion then "fresh_sol_usdc_conversion_unavailable"
      else if e.isLiquidity then "insufficient_real_quote_liquidity" else "mark_calculation_unavailable")
  | .ok quote =>
    match accountMinorFromSol env quote.walletSolLamports price .floor with
    | none => .error (if conversion then "fresh_sol_usdc_conversion_unavailable"
        else "mark_calculation_unavailable")
    | some value => .ok value

def Position.routed (position : Position) (state : TokenState) : Position :=
  { position with
    venue := state.venue
    curveAddress := state.curveAddress
    poolAddress := state.poolAddress
    poolBaseTokenAccount := state.poolBaseTokenAccount
    poolQuoteTokenAccount := state.poolQuoteTokenAccount
    quoteMint := state.quoteMint }

/-- A position with a mark just calculated. An old indicative peak gives way to the first
executable mark. -/
def Position.valued (position : Position) (value : ℤ) (blockers : List String) (markedAt : Instant) : Position :=
  let peaks := blockers = [] ∧ (position.markIsExecutable = false ∨ position.peakMarkLamports < value)
  { position with
    lastMarkLamports := value
    unrealizedPnlLamports := value - position.entryCostLamports
    lastMarkedAt := some markedAt
    markAgeSeconds := some 0
    markIsStale := false
    markIsExecutable := blockers = []
    markBlockers := blockers
    marketStatus := if blockers = [] then .active else .exitBlocked
    peakMarkLamports := if peaks then value else position.peakMarkLamports
    peakMarkedAt := if peaks then some markedAt else position.peakMarkedAt }

def markedPosition (env : Env) (state : TokenState) (features : FeatureSnapshot) (price : Option ℚ)
    (markedAt : Instant) (position : Position) : Position :=
  let blockers := routeBlockers features
  let position := position.routed state
  if "stale_market_data" ∈ blockers then
    { position with
      markIsStale := true
      markIsExecutable := false
      markBlockers := blockers
      marketStatus := .dormant }
  else match markValue env state price position with
    | .error blocker =>
      { position with
        markIsExecutable := false
        markBlockers := withBlocker blockers blocker
        marketStatus := .exitBlocked }
    | .ok value => position.valued value blockers markedAt

/-- `_mark_position`. A mark older than the position or than its last mark is left out. -/
def markPosition (env : Env) (site : WriteSite) (state : TokenState) (features : FeatureSnapshot)
    (price : Option ℚ) (markedAt : Instant) : Broker Unit := do
  let w ← get
  match w.memory.positions.get? state.mint with
  | none => pure ()
  | some position =>
    if markedAt < position.openedAt ∨ ∃ last ∈ position.lastMarkedAt, markedAt < last then pure ()
    else updatePosition env site (markedPosition env state features price markedAt position)

def markTimestamp (state : TokenState) (features : FeatureSnapshot) (fallback : Instant) : Instant :=
  match features.get? "price_sol" with
  | some price => price.asOf
  | none => state.reserveObservedAt.getD fallback

/-! ### Exits -/

/-- The warning counters of a position after one more integrity assessment. -/
def Position.warned (position : Position) (state : MarketIntegrityState) (evidenceAt now : Instant) : Position :=
  let counted :=
    match state with
    | .clean =>
      { position with
        integrityWarningCount := 0
        integrityWarningSince := none
        integrityLastWarningAt := none }
    | .suspicious | .severe =>
      let gap := position.integrityLastWarningAt.map fun last => evidenceAt - last
      if position.integrityWarningSince = none ∨ ∃ g ∈ gap, 60 * 1000000 < g then
        { position with
          integrityWarningSince := some evidenceAt
          integrityWarningCount := 1
          integrityLastWarningAt := some evidenceAt }
      else if ∀ g ∈ gap, 5 * 1000000 ≤ g then
        { position with
          integrityWarningCount := position.integrityWarningCount + 1
          integrityLastWarningAt := some evidenceAt }
      else position
    | .uncertain => position
  { counted with integrityLastState := state, integrityLastEvaluatedAt := some now }

def Position.warningReason (position : Position) (state : MarketIntegrityState) (now : Instant) : Option String :=
  let age := (position.integrityWarningSince.map fun since => now - since).getD 0
  if state = .severe ∧ 2 ≤ position.integrityWarningCount ∧ 10 * 1000000 ≤ age then
    some "persistent_severe_market_integrity"
  else if state = .suspicious ∧ 3 ≤ position.integrityWarningCount ∧ 20 * 1000000 ≤ age then
    some "persistent_suspicious_market_integrity"
  else none

/-- `_persistent_integrity_exit_reason`: the position with its counters, and the reason. -/
def persistentIntegrityExitReason (env : Env) (position : Position) (features : FeatureSnapshot)
    (now : Instant) : Position × Option String :=
  match learnableBaseline position.baselineVersionAtEntry with
  | none => (position, none)
  | some baseline =>
    let state := env.policies.assessMarketIntegrity features (integrityPolicyForBaseline baseline)
    let evidenceAt := ((features.get? "trade_count_5m").map (·.asOf)).getD features.computedAt
    let position := position.warned state evidenceAt now
    (position, position.warningReason state now)

def sellOrder (env : Env) (orderId : ℕ) (position : Position) (now : Instant) (reason : String) : PaperOrder where
  orderId := orderId
  mint := position.mint
  symbol := position.symbol
  side := .sell
  requestedTokenUnits := position.tokenUnits
  createdAt := now
  fillAfter := now + milliseconds env.settings.exitLatencyMs
  failureReason := some (.scheduled reason)
  riskModeAtEntry := position.riskModeAtEntry

/-- A sell of the position becomes pending. -/
def scheduleExit (env : Env) (position : Position) (now : Instant) (reason : String) : Broker Unit := do
  let orderId ← uuid4
  let order ← validatedOrder (sellOrder env orderId position now reason)
  placeOrder env order

def assessedPosition (env : Env) (features : FeatureSnapshot) (now : Instant) (mode : RiskMode)
    (softHoldSeconds : Option ℤ) (softHoldParticipant : Option (List (String × String)))
    (position : Position) : Position × ExitAssessment :=
  let limits := positionExitLimits env position mode
  let warned := persistentIntegrityExitReason env position features now
  let assessment := env.policies.assessExit warned.1 features now limits softHoldSeconds warned.2
  let assessment := { assessment with
    strategySeasonId := some env.seasonId
    strategyParticipant :=
      if assessment.softHoldSeconds < limits.maxHoldSeconds then softHoldParticipant else none }
  ({ warned.1 with exitAssessment := some assessment }, assessment)

def scheduleExitIfNeeded (env : Env) (state : TokenState) (features : FeatureSnapshot) (now : Instant)
    (mode : RiskMode) (softHoldSeconds : Option ℤ) (softHoldParticipant : Option (List (String × String))) :
    Broker Unit := do
  let w ← get
  match w.memory.positions.get? state.mint with
  | none => pure ()
  | some position =>
    if w.memory.hasPendingFor state.mint (some .sell) then pure ()
    else if now < position.openedAt then pure ()
    else do
      let assessed := assessedPosition env features now mode softHoldSeconds softHoldParticipant position
      updatePosition env .savePosition assessed.1
      if assessed.2.action = .exit ∧ assessed.1.markIsExecutable then
        scheduleExit env assessed.1 now assessed.2.reason
      else pure ()

def scheduleProfileTransitionExits (env : Env) (now : Instant) : Broker ℕ := do
  let portfolio ← snapshot env none false
  let scheduled ← collect (fun observed => do
    let w ← get
    if observed.marketStatus ≠ .active ∨ w.memory.hasPendingFor observed.mint (some .sell) then return none
    else match w.memory.positions.get? observed.mint with
      | none => return none
      | some position => do
        scheduleExit env position now "manual_profile_change"
        return some position) portfolio.positions
  return scheduled.length

/-! ### Filling -/

/-- The check of an order of a learnable Baseline when it is due: the thesis it was entered
on, and the same decision on the features of now. -/
def thesisBlocker (env : Env) (order : PaperOrder) (mode : RiskMode) (features : FeatureSnapshot)
    (baseline : Baseline) : Broker (Option Blocker) := do
  let w ← get
  match order.decisionId.bind w.database.decisions.get? with
  | none => return some .entryThesisUnavailableAtFill
  | some decision =>
    match entryStrategyReceiptBlocker decision with
    | some blocker => return some (.receipt blocker)
    | none =>
      match decision.plannedOrderSizeSol with
      | none => throw .assertion
      | some planned =>
        if |order.requestedSolLamports - truncate (planned * lamportsPerSol)| > 1 then
          return some .pendingOrderSizeDiffersFromEntryReceipt
        else do
          let entryMode := order.riskModeAtEntry.getD mode
          let refreshed := env.policies.evaluate features entryMode
            (order.requestedSolLamports / lamportsPerSol) (riskLimits env (some entryMode))
            order.baselineVersionAtEntry
          if refreshed.action ≠ .enter then
            return some (match refreshed.blockers with
              | blocker :: _ => .refreshed blocker
              | [] => .entryThesisDeteriorated)
          else do
            let originalBase := (decision.sizingAssessment.map (·.baseSizeSol)).getD planned
            let multiplier :=
              match refreshed.integrityAssessment with
              | some integrity => integrityReferenceSizeMultiplier baseline integrity.state
              | none => 1
            if (refreshed.integrityAssessment.map (·.state)) ≠ some .clean ∧
                truncate (originalBase * multiplier * lamportsPerSol) + 1 < order.requestedSolLamports then
              return some .entrySizeNoLongerSupportedByIntegrity
            else return none

def pendingBuyFillBlocker (env : Env) (order : PaperOrder) (mode : RiskMode) (price : Option ℚ)
    (features : FeatureSnapshot) : Broker (Option Blocker) := do
  let limits := riskLimits env (some mode)
  let portfolio ← snapshot env (some mode) true
  let w ← get
  let capacity := capacityPositions portfolio
  if limits.maxOpenPositions ≤ capacity.length then return some .portfolioCapacityReached
  else if ∃ limit ∈ drawdownLimitFraction env (some mode), limit ≤ portfolio.drawdownFraction then
    return some .portfolioDrawdownLimitReached
  else match requiredMinor env order.requestedSolLamports price with
    | none => return some .freshSolUsdcConversionUnavailable
    | some required =>
      let exposure := (capacity.map (·.entryCostLamports)).sum
      if truncate (portfolio.equityLamports * limits.maxExposureFraction) < exposure + required then
        return some .portfolioExposureLimitReached
      else if w.cash < required then return some .paperCashInsufficient
      else match learnableBaseline order.baselineVersionAtEntry with
        | some baseline => thesisBlocker env order mode features baseline
        | none =>
          if order.baselineVersionAtEntry ≠ legacyBaselineVersion then return some .unsupportedBaselineVersion
          else return none

/-- The quote of an order that is due. Nothing, when the position of a sell is not open yet. -/
def orderQuote (env : Env) (order : PaperOrder) (state : TokenState) (position : Option Position)
    (now : Instant) : Except OrderReason (Option CurveQuote) :=
  match order.side with
  | .buy =>
    match quoteBuy state.virtualTokenReserves state.virtualQuoteReserves state.realTokenReserves
        order.requestedSolLamports (state.feeRate env.settings) env.settings.oneWayFee with
    | .error e => .error (.quote e)
    | .ok quote => .ok (some quote)
  | .sell =>
    match position with
    | none => .error .positionNoLongerExists
    | some position =>
      if now < position.openedAt then .ok none
      else match sellQuote env state position.tokenUnits with
        | .error e => .error (.quote e)
        | .ok quote => .ok (some quote)

/-- The reserves a fill was quoted against. -/
def TokenState.reserveSnapshot (state : TokenState) (settings : Settings) (now : Instant) :
    ExecutionReserveSnapshot where
  observedAt := state.reserveObservedAt.getD now
  eventId := state.lastReserveEventId
  signature := state.lastReserveSignature
  slot := state.lastReserveSlot
  source := if state.reserveSource = "" then "unknown" else state.reserveSource
  venue := state.venue
  quoteMint := state.quoteMint
  virtualTokenReserves := state.virtualTokenReserves
  virtualQuoteReserves := state.virtualQuoteReserves
  realTokenReserves := state.realTokenReserves
  realQuoteReserves := state.realQuoteReserves
  feeBps := state.feeRate settings

/-- The bounds of `ExecutionReserveSnapshot`. -/
def ExecutionReserveSnapshot.isValid (reserve : ExecutionReserveSnapshot) : Bool :=
  0 ≤ reserve.slot ∧ 0 ≤ reserve.virtualTokenReserves ∧ 0 ≤ reserve.virtualQuoteReserves ∧
    0 ≤ reserve.realTokenReserves ∧ (∀ real ∈ reserve.realQuoteReserves, 0 ≤ real) ∧
    0 ≤ reserve.feeBps ∧ reserve.feeBps ≤ 10000

/-- Where the fee rate came from. -/
def TokenState.feeSource (state : TokenState) : String :=
  if state.reserveFeeComponents.isSome ∨ state.feeBps ≠ 0 then "observed_event" else "configured_fallback"

/-- How the fee of a fill was computed. -/
def TokenState.feeProvenance (state : TokenState) (side : Side) : FeeProvenance :=
  let parts := if side = .sell then state.reserveFeeComponents else none
  { version := 1
    rounding := if parts.isSome then "components" else "aggregate"
    feeComponents := parts
    lpFeeBps := if side = .sell then state.reserveLpFeeBps else 0
    source := state.feeSource }

/-- A return, kept in the range the receipt records. -/
def clampReturn (value : ℚ) : ℚ := max (-1) (min 10 value)

def fillReceipt (env : Env) (fillId : ℕ) (order : PaperOrder) (state : TokenState) (sourceEventId : String)
    (now : Instant) (price : Option ℚ) (position : Option Position) (quote : CurveQuote)
    (values : AccountValues) : FillReceipt :=
  let reason := order.failureReason.map OrderReason.text
  let manualProfileExit := order.side = .sell ∧ reason = some "scheduled_reason:manual_profile_change"
  let costed := position.filter fun p => p.entryCostLamports ≠ 0
  { fillId := fillId
    orderId := order.orderId
    mint := order.mint
    symbol := order.symbol
    side := order.side
    filledAt := now
    tokenUnits := quote.tokenUnits
    grossSolLamports := quote.curveSolLamports
    protocolFeeLamports := quote.protocolFeeLamports
    networkFeeLamports := quote.networkFeeLamports
    netSolLamports := quote.walletSolLamports
    priceImpactFraction := quote.priceImpactFraction
    latencyMs := max 0 ((now - order.createdAt) / 1000)
    sourceEventId := sourceEventId
    venue := state.venue
    reserveSnapshot := some (state.reserveSnapshot env.settings now)
    executionFeeProvenance := some (state.feeProvenance order.side)
    assumptions :=
      (reason.filter fun text => order.side = .sell ∧
        "scheduled_reason:".toList.isPrefixOf text.toList).toList ++
      ["protocol_fee_bps=" ++ toString (state.feeRate env.settings), "fee_source=" ++ state.feeSource,
        "filled_after_configured_latency_against_latest_observed_reserves",
        "constant_product_integer_rounding"]
    accountCurrency := env.quoteCurrency
    accountDecimals := env.quoteDecimals
    solUsdPrice := if env.quoteCurrency = .usdc then price else none
    exitAssessment := if manualProfileExit then none else position.bind (·.exitAssessment)
    positionOpenedAt := position.map (·.openedAt)
    entryRiskMode := position.bind (·.riskModeAtEntry)
    peakAccountMinor := (position.map (·.peakMarkLamports)).getD 0
    realizedReturnFraction := costed.map fun p =>
      clampReturn ((values.net - p.entryCostLamports) / p.entryCostLamports)
    peakReturnFraction := costed.map fun p => clampReturn (p.peakMarkLamports / p.entryCostLamports - 1)
    accountGrossMinor := values.gross
    accountProtocolFeeMinor := values.protocolFee
    accountNetworkFeeMinor := values.networkFee
    accountNetMinor := values.net }

/-- The bounds of `FillReceipt`. -/
def FillReceipt.isValid (fill : FillReceipt) : Bool :=
  0 ≤ fill.tokenUnits ∧ 0 ≤ fill.grossSolLamports ∧ 0 ≤ fill.protocolFeeLamports ∧
    0 ≤ fill.networkFeeLamports ∧ 0 ≤ fill.netSolLamports ∧ 0 ≤ fill.priceImpactFraction ∧
    fill.priceImpactFraction ≤ 1 ∧ 0 ≤ fill.latencyMs ∧ 0 ≤ fill.accountGrossMinor ∧
    0 ≤ fill.accountProtocolFeeMinor ∧ 0 ≤ fill.accountNetworkFeeMinor ∧ 0 ≤ fill.accountNetMinor ∧
    (∀ price ∈ fill.solUsdPrice, 0 < price) ∧ 0 ≤ fill.peakAccountMinor

/-- `migrate_legacy_sol_account_values`. -/
def FillReceipt.migrated (fill : FillReceipt) : FillReceipt :=
  if fill.accountCurrency ≠ .sol ∨ fill.accountNetMinor ≠ 0 then fill
  else { fill with
    accountGrossMinor := fill.grossSolLamports
    accountProtocolFeeMinor := fill.protocolFeeLamports
    accountNetworkFeeMinor := fill.networkFeeLamports
    accountNetMinor := fill.netSolLamports }

/-- `FillReceipt(…)` validates its reserves and itself. -/
def validatedReceipt (fill : FillReceipt) : Broker FillReceipt :=
  if ∃ reserve ∈ fill.reserveSnapshot, reserve.isValid = false then throw (.invalid .reserveSnapshot)
  else if fill.isValid = false then throw (.invalid .fillReceipt)
  else pure fill.migrated

def buyEntries (fill : FillReceipt) : List LedgerEntry :=
  [⟨.inventory fill.mint, fill.accountNetMinor - fill.accountNetworkFeeMinor, 0, "Virtual token inventory"⟩,
    ⟨.networkExpense, fill.accountNetworkFeeMinor, 0, "Simulated network fee"⟩,
    ⟨.cash, 0, fill.accountNetMinor, "Paper buy cash outflow"⟩]

def sellEntries (fill : FillReceipt) (position : Holding) : List LedgerEntry :=
  [⟨.cash, fill.accountNetMinor, 0, "Paper sell cash inflow"⟩,
    ⟨.exitExpense, fill.accountProtocolFeeMinor + fill.accountNetworkFeeMinor, 0, "Protocol and network fees"⟩,
    ⟨.inventory fill.mint, 0, position.bookValueLamports, "Close virtual token inventory"⟩,
    if position.bookValueLamports ≤ fill.accountGrossMinor then
      ⟨.realizedGain, 0, fill.accountGrossMinor - position.bookValueLamports, "Realized paper gain"⟩
    else ⟨.realizedLoss, position.bookValueLamports - fill.accountGrossMinor, 0, "Realized paper loss"⟩]

def openedHolding (positionId : ℕ) (order : PaperOrder) (fill : FillReceipt) : Holding where
  positionId := positionId
  mint := order.mint
  symbol := order.symbol
  tokenUnits := fill.tokenUnits
  entryCostLamports := fill.accountNetMinor
  bookValueLamports := fill.accountNetMinor - fill.accountNetworkFeeMinor
  openedAt := fill.filledAt
  entryFillId := fill.fillId
  riskModeAtEntry := order.riskModeAtEntry
  baselineVersionAtEntry := order.baselineVersionAtEntry
  exitTimingPlan := order.exitTimingPlan

def openedPosition (holding : Holding) (state : TokenState) : Position where
  toHolding := holding
  venue := state.venue
  curveAddress := state.curveAddress
  poolAddress := state.poolAddress
  poolBaseTokenAccount := state.poolBaseTokenAccount
  poolQuoteTokenAccount := state.poolQuoteTokenAccount
  quoteMint := state.quoteMint

/-- The bounds of `Position`. -/
def Holding.isValid (holding : Holding) : Bool :=
  0 ≤ holding.tokenUnits ∧ 0 ≤ holding.entryCostLamports ∧ 0 ≤ holding.bookValueLamports

def accountBuy (env : Env) (order : PaperOrder) (fill : FillReceipt) (state : TokenState) : Broker Unit := do
  let positionId ← uuid4
  let holding := openedHolding positionId order fill
  if holding.isValid = false then throw (.invalid .position)
  else do
    let position := openedPosition holding state
    let rows ← ofExcept .rejected (validatedLedgerEntries (.fill fill.fillId) fill.filledAt (buyEntries fill))
    ofExcept .rejected (validateFillCommit order fill holding)
    transact env .commitBuyFill fun db => db.commitBuyFill order fill position rows
    putPosition position
    modify fun w => { w with memory.tradedMints := insert order.mint w.memory.tradedMints }

def accountSell (env : Env) (order : PaperOrder) (fill : FillReceipt) (position : Position) : Broker Unit := do
  let w ← get
  let running := w.database.realizedPnlLamports + (fill.accountNetMinor - position.entryCostLamports)
  let rows ← ofExcept .rejected
    (validatedLedgerEntries (.fill fill.fillId) fill.filledAt (sellEntries fill position.toHolding))
  ofExcept .rejected (validateFillCommit order fill position.toHolding)
  transact env .commitSellFill fun db => db.commitSellFill order fill position.toHolding rows running
  modify fun w => { w with memory.positions := w.memory.positions.erase order.mint }

def Memory.sellPosition (memory : Memory) (order : PaperOrder) : Option Position :=
  match order.side with
  | .buy => none
  | .sell => memory.positions.get? order.mint

def PaperOrder.filled (order : PaperOrder) (now : Instant) : PaperOrder :=
  { order with status := .filled, filledAt := some now }

/-- The fill of an order whose quote and account values are known: receipt, commit, first
mark, and out of the pending ones. -/
def settle (env : Env) (order : PaperOrder) (state : TokenState) (features : FeatureSnapshot)
    (sourceEventId : String) (now : Instant) (price : Option ℚ) (position : Option Position)
    (quote : CurveQuote) (values : AccountValues) : Broker FillReceipt := do
  let fillId ← uuid4
  let receipt ← validatedReceipt
    (fillReceipt env fillId order state sourceEventId now price position quote values)
  match position with
  | none => do
    accountBuy env (order.filled now) receipt state
    markPosition env .fillMark state features price now
  | some position => accountSell env (order.filled now) receipt position
  popPending order.orderId
  return receipt

def fill (env : Env) (order : PaperOrder) (state : TokenState) (features : FeatureSnapshot)
    (sourceEventId : String) (now : Instant) (price : Option ℚ) : Broker (Option FillReceipt) := do
  if now < order.createdAt ∨ now < order.fillAfter then return none
  else do
    let w ← get
    let position := w.memory.sellPosition order
    match orderQuote env order state position now with
    | .error reason => do
      failOrder env order reason now
      return none
    | .ok none => return none
    | .ok (some quote) =>
      match accountFillValues env order.side quote price with
      | none => do
        failOrder env order .conversionUnavailable now
        return none
      | some values =>
        if order.side = .buy ∧ w.cash < values.net then do
          failOrder env order .virtualCashChanged now
          return none
        else do
          let receipt ← settle env order state features sourceEventId now price position quote values
          return some receipt

/-! ### Updates -/

/-- What an update of the market, or of the clock, hands to the broker. -/
structure Update where
  state : TokenState
  features : FeatureSnapshot
  sourceEventId : String
  now : Instant
  mode : RiskMode
  solUsdPrice : Option ℚ
  softHoldSeconds : Option ℤ := none
  softHoldParticipant : Option (List (String × String)) := none

def recordEquity (env : Env) (now : Instant) (force : Bool) : Broker Unit := do
  let w ← get
  if force = false ∧ ∃ last ∈ w.memory.lastEquityRecordedAt,
      now - last < 1000000 * env.settings.equitySampleSeconds then pure ()
  else do
    let portfolio ← snapshot env none true
    transact env .recordEquity fun db => db.recordEquity portfolio.equityLamports portfolio.cashLamports
    modify fun w => { w with memory.lastEquityRecordedAt := some now }

/-- One round of `_fill_due_orders`. -/
def fillDueOrder (env : Env) (u : Update) (order : PaperOrder) : Broker (Option FillReceipt) := do
  let w ← get
  if order.mint ≠ u.state.mint ∨ u.now < order.createdAt ∨ u.now < order.fillAfter then return none
  else if ∃ position ∈ w.memory.sellPosition order, u.now < position.openedAt then return none
  else match order.side with
    | .buy =>
      if ∃ flag ∈ u.features.hardFlags, flag ∈ unfillableBuyFlags then return none
      else do
        let blocker ← pendingBuyFillBlocker env order u.mode u.solUsdPrice u.features
        match blocker with
        | some blocker => do
          failOrder env order (.fillRejected blocker) u.now
          return none
        | none => fill env order u.state u.features u.sourceEventId u.now u.solUsdPrice
    | .sell =>
      if ∃ flag ∈ u.features.hardFlags, flag ∈ unfillableSellFlags then return none
      else fill env order u.state u.features u.sourceEventId u.now u.solUsdPrice

/-- Whether the reserves of the update are observed in its future. -/
def Update.fromTheFuture (u : Update) : Bool := ∃ observed ∈ u.state.reserveObservedAt, u.now < observed

def fillDueOrders (env : Env) (u : Update) (records : Bool) : Broker (List FillReceipt) := do
  if u.fromTheFuture then return []
  else do
    let w ← get
    let receipts ← collect (fillDueOrder env u) w.memory.pending.rows
    if records then recordEquity env u.now (receipts ≠ []) else pure ()
    return receipts

def markUpdate (env : Env) (u : Update) : Broker Unit :=
  markPosition env .savePosition u.state u.features u.solUsdPrice (markTimestamp u.state u.features u.now)

def reassessPosition (env : Env) (u : Update) : Broker Unit := do
  markUpdate env u
  scheduleExitIfNeeded env u.state u.features u.now u.mode u.softHoldSeconds u.softHoldParticipant

def onMarketState (env : Env) (u : Update) (eventKind : EventKind) : Broker (List FillReceipt) := do
  if eventKind ≠ .trade then return []
  else do
    reassessPosition env u
    let receipts ← fillDueOrders env u false
    let _ ← expireStuckOrders env u.now
    recordEquity env u.now (receipts ≠ [])
    return receipts

def processDueOrders (env : Env) (u : Update) (records : Bool) : Broker (List FillReceipt) := do
  if u.fromTheFuture then return []
  else do
    markUpdate env u
    fillDueOrders env u records

def observeMarketState (env : Env) (u : Update) : Broker Unit := do
  markUpdate env u
  recordEquity env u.now false

def reassessAndProcessDueOrders (env : Env) (u : Update) : Broker (List FillReceipt) := do
  reassessPosition env u
  fillDueOrders env u true

/-! ### Runs -/

/-- What a broker reads back when it starts. -/
def recover (db : Database) : Memory where
  initialized := true
  positions := Table.ofRows (listPositions db.positions)
  pending := Table.ofRows (pendingOrders db.paperOrders)
  tradedMints := boughtMints db.fills
  lastEquityRecordedAt := none

/-- What is done with a broker in the course of a season. -/
inductive Action where
  | submitDecision (decision : Decision) (price : Option ℚ) (exitTimingPlan : Option String)
  | onMarketState (update : Update) (eventKind : EventKind)
  | processDueOrders (update : Update) (records : Bool)
  | observeMarketState (update : Update)
  | reassessPosition (update : Update)
  | reassessAndProcessDueOrders (update : Update)
  | expireStuckOrders (now : Instant)
  | cancelPendingOrders (now : Instant) (reason : String)
  | cancelPendingBuys (now : Instant) (reason : String)
  | cancelPendingSells (now : Instant) (reason : String)
  | scheduleProfileTransitionExits (now : Instant)
  /-- The process ends and another one starts from the database. -/
  | restart

/-- The SOL/USD price an action is handed. -/
def Action.price : Action → Option ℚ
  | .submitDecision _ price _ => price
  | .onMarketState u _ | .processDueOrders u _ | .observeMarketState u | .reassessPosition u
  | .reassessAndProcessDueOrders u => u.solUsdPrice
  | _ => none

/-- An operation, its result left out. -/
def perform (env : Env) : Action → Broker Unit
  | .submitDecision decision price plan => do let _ ← submitDecisionWithReason env decision price plan
  | .onMarketState u eventKind => do let _ ← onMarketState env u eventKind
  | .processDueOrders u records => do let _ ← processDueOrders env u records
  | .observeMarketState u => observeMarketState env u
  | .reassessPosition u => reassessPosition env u
  | .reassessAndProcessDueOrders u => do let _ ← reassessAndProcessDueOrders env u
  | .expireStuckOrders now => do let _ ← expireStuckOrders env now
  | .cancelPendingOrders now reason => do let _ ← cancelPendingOrders env now reason
  | .cancelPendingBuys now reason => do let _ ← cancelPendingBuys env now reason
  | .cancelPendingSells now reason => do let _ ← cancelPendingSells env now reason
  | .scheduleProfileTransitionExits now => do let _ ← scheduleProfileTransitionExits env now
  | .restart => modify fun w => { w with memory := recover w.database }

/-- The opening of a season: `initialize_portfolio`. -/
def openingTransaction (env : Env) : LedgerTransaction where
  txId := .opening env.seasonId
  createdAt := env.utcNow 0
  entries := [⟨.cash, env.startingLamports, 0, "Initial virtual bankroll"⟩,
    ⟨.capital, 0, env.startingLamports, "Initial virtual bankroll"⟩]
  balanced := by simp
  nonneg := by simpa using env.starting_pos.le

/-- A season just initialized. -/
def World.opened (env : Env) : World where
  database :=
    { ledgerEntries := [openingTransaction env]
      peakEquityLamports := env.startingLamports
      equityPeakBasis := some equityPeakBasis
      equityPoints := [(env.startingLamports, env.startingLamports)] }
  memory :=
    { initialized := true
      positions := Table.empty
      pending := Table.empty
      tradedMints := ∅
      lastEquityRecordedAt := some (env.utcNow 0) }
  ticks := 1

/-- The state an operation leaves, whether it returns or raises. -/
def step (env : Env) (w : World) (action : Action) : World := after (perform env action) w

/-- A run from the opening of the account. -/
def run (env : Env) (actions : List Action) : World := actions.foldl (step env) (World.opened env)

/-! ### A small season

Without latencies, and with a network fee of one lamport. Every decision is confirmed, every
position is to be sold. -/

def sampleExit : ExitAssessment where
  policyVersion := "adaptive-exit-v1"
  evaluatedAt := 0
  action := .exit
  reason := "stop_loss"
  supportScore := 0
  pnlFraction := 0
  peakReturnFraction := 0
  drawdownFromPeakFraction := 0
  ageSeconds := 0
  softHoldSeconds := 600
  hardHoldSeconds := 1800
  evidence := []
  strategySeasonId := none
  strategyParticipant := none

def sampleEnv (quoteCurrency : QuoteCurrency) (raises : ℕ → WriteSite → Bool) : Env where
  settings := { networkFeeLamports := 1, priorityFeeLamports := 0, entryLatencyMs := 0, exitLatencyMs := 0 }
  quoteCurrency := quoteCurrency
  startingLamports := 1000000000
  starting_pos := by decide
  seasonId := "season"
  seasonProfile := none
  policies :=
    { evaluate := fun _ _ _ _ _ => ⟨.enter, [], none⟩
      assessExit := fun _ _ _ _ _ _ => sampleExit
      assessMarketIntegrity := fun _ _ => .clean }
  utcNow := fun _ => 0
  raises := raises

def sampleDecision (mint : String) (sizeSol : ℚ) : Decision where
  decisionId := mint
  mint := mint
  symbol := mint
  createdAt := 0
  action := .enter
  riskMode := .aggressive
  modelVersion := ["baseline-v1.1"]
  plannedOrderSizeSol := some sizeSol
  integrityAssessment := none
  sizingAssessment := none
  challengerSizing := none

def sampleState (mint : String) (virtualQuoteReserves : ℤ) (parts : Option (List ℤ)) : TokenState where
  mint := mint
  venue := "pump_curve"
  curveAddress := ""
  poolAddress := ""
  poolBaseTokenAccount := ""
  poolQuoteTokenAccount := ""
  quoteMint := "SOL"
  lastEventAt := some 0
  lastReserveAt := some 0
  lastReserveSlot := 1
  reserveSource := "event"
  reserveFeeComponents := parts
  reserveLpFeeBps := 0
  lastReserveEventId := none
  lastReserveSignature := none
  virtualTokenReserves := 1000000000000
  virtualQuoteReserves := virtualQuoteReserves
  realTokenReserves := 800000000000
  realQuoteReserves := none
  feeBps := 100

def sampleUpdate (mint : String) (virtualQuoteReserves : ℤ) (parts : Option (List ℤ)) (price : Option ℚ) : Update where
  state := sampleState mint virtualQuoteReserves parts
  features := ⟨mint, mint, mint, "pump_curve", 0, [], 1, []⟩
  sourceEventId := "event"
  now := 0
  mode := .aggressive
  solUsdPrice := price

end SignalArcade.Paper
