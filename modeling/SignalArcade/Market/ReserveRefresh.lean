import SignalArcade.Market.TokenReserves

/-!
# Reserves read from accounts

Beside the events, three calls of the feature engine write the reserves of a token: the refresh of a curve,
that of a pool, and a snapshot of the position watchdog. A snapshot is a copy of the token's state whose
reserves and fees were read from the accounts of one slot and validated; it brings the proof.
-/

namespace SignalArcade.Market.Features

open Checked

/-- `ReserveRefreshRejected`. -/
inductive RefreshRejected where
  | staleSlotOrTimestamp
  | missingAccounts
  | unsupportedVenue
  | curvePdaMismatch
  | mintNotVerifiedSafe
  | missingAccountOrWrongOwner
  | invalidAccountData
  | unsupportedAccountLayout
  | unreviewedAccountExtension
  | invalidFeeSupply
  | curveMigrated
  | unsupportedQuoteMint
  | poolMintMismatch
  | poolPdaMismatch
  | poolVaultMappingChanged
  | poolSellsDisabled
  | unsupportedVaultLayout
  | malformedVaultExtension
  | unreviewedVaultExtension
  | unsupportedTokenProgram
  | vaultMappingOrStateInvalid
  | unsupportedNegativeVirtualReserves
  | invalidRealReserves
  | noExecutableReserves
  | invalidFeeTiers
  | unorderedFeeTiers
  | missingFees
  | invalidFeeRates

/-! ### Accounts -/

/-- The rates of a schedule. -/
structure Fees where
  lpFeeBps : ℤ
  protocolFeeBps : ℤ
  creatorFeeBps : ℤ

/-- A tier of fees, from a market cap on. -/
structure FeeTier where
  marketCapLamportsThreshold : ℤ
  fees : Fees

/-- The fees that an account has. -/
structure FeeConfig where
  flatFees : Option Fees
  feeTiers : Option (List FeeTier)

/-- What is read of `Global` and `GlobalConfig`. -/
structure GlobalValues where
  creatorFeeConfigurable : Bool
  disableFlags : ℕ

/-- What is read of a `BondingCurve`. -/
structure BondingCurve where
  complete : Bool
  quoteMint : Option String
  isMayhemMode : Bool
  isHolderReward : Bool
  virtualTokenReserves : ℤ
  virtualQuoteReserves : ℤ
  realTokenReserves : ℤ
  realQuoteReserves : ℤ
  creator : String
  creatorFeeBps : ℤ

/-- What is read of a `Pool`. -/
structure Pool where
  isMayhemMode : Bool
  isHolderReward : Bool
  baseMint : String
  quoteMint : String
  /-- The address derived from its index, its creator and its mints. -/
  address : String
  poolBaseTokenAccount : String
  poolQuoteTokenAccount : String
  virtualQuoteReserves : ℤ
  coinCreator : String
  creatorFeeBps : ℤ
  /-- Its creator is the pool authority of the mint. -/
  canonical : Bool

/-- What the accounts of a result decode to, for a token. -/
structure Accounts where
  /-- `reserve_addresses`. -/
  addresses : Except RefreshRejected Unit
  mintSupply : Except RefreshRejected ℤ
  feeConfig : Except RefreshRejected FeeConfig
  globalValues : Except RefreshRejected GlobalValues
  curve : Except RefreshRejected BondingCurve
  pool : Except RefreshRejected Pool
  /-- `_vault`, of the two vaults of the pool. -/
  baseVault : Except RefreshRejected ℤ
  quoteVault : Except RefreshRejected ℤ

/-- The result of a read of accounts. -/
structure RpcResult where
  slot : ℤ
  accounts : Option Accounts

/-! ### Fees -/

def Fees.toList (fees : Fees) : List ℤ := [fees.lpFeeBps, fees.protocolFeeBps, fees.creatorFeeBps]

/-- The schedule of the highest tier that is reached. -/
def selectTier (marketCap : ℤ) (selected : Fees) (tiers : List FeeTier) : Fees :=
  tiers.foldl (fun selected tier => if tier.marketCapLamportsThreshold ≤ marketCap then tier.fees else selected) selected

/-- The schedule that applies. -/
def FeeConfig.select (config : FeeConfig) (marketCap : ℤ) (canonical : Bool) : Except RefreshRejected Fees :=
  if canonical then
    match config.feeTiers with
    | none | some [] => .error .invalidFeeTiers
    | some (tier :: tiers) => do
      raiseIf (128 < (tier :: tiers).length) .invalidFeeTiers
      raiseIf (¬ ((tier :: tiers).map (·.marketCapLamportsThreshold)).Pairwise (· < ·) ∨
        tier.marketCapLamportsThreshold < 0) .unorderedFeeTiers
      return selectTier marketCap tier.fees (tier :: tiers)
  else
    match config.flatFees with
    | none => .error .missingFees
    | some fees => .ok fees

def fees (config : FeeConfig) (marketCap : ℤ) (canonical : Bool) : Except RefreshRejected Fees := do
  let result ← config.select marketCap canonical
  raiseIf (result.toList.any (· < 0) ∨ 10000 ≤ result.toList.sum) .invalidFeeRates
  return result

/-! ### `validated_learning_state` -/

def nativeSolMint : String := "11111111111111111111111111111111"

def wrappedSolMint : String := "So11111111111111111111111111111111111111112"

/-- What a route is worth, and what its fees depend on. -/
structure RouteReading where
  virtualTokenReserves : ℤ
  virtualQuoteReserves : ℤ
  realTokenReserves : ℤ
  realQuoteReserves : ℤ
  quoteMint : String
  routeVerified : Bool
  creator : String
  coinCreatorFeeBps : ℤ
  canonical : Bool
  mayhem : Bool
  holderReward : Bool
  /-- The supply the market cap is taken of is fixed. -/
  fixedSupply : Bool

def readCurve (original : TokenState) (accounts : Accounts) : Except RefreshRejected RouteReading := do
  let curve ← accounts.curve
  raiseIf curve.complete .curveMigrated
  raiseIf (curve.quoteMint ∉ [some nativeSolMint, some wrappedSolMint]) .unsupportedQuoteMint
  return {
    virtualTokenReserves := curve.virtualTokenReserves
    virtualQuoteReserves := curve.virtualQuoteReserves
    realTokenReserves := curve.realTokenReserves
    realQuoteReserves := curve.realQuoteReserves
    quoteMint := original.quoteMint
    routeVerified := original.routeVerified
    creator := curve.creator
    coinCreatorFeeBps := curve.creatorFeeBps
    canonical := true
    mayhem := curve.isMayhemMode
    holderReward := curve.isHolderReward
    -- a curve's mayhem sells use the current supply, a pool's the fixed one
    fixedSupply := !curve.isMayhemMode }

def readPool (original : TokenState) (accounts : Accounts) (globalValues : GlobalValues) :
    Except RefreshRejected RouteReading := do
  let pool ← accounts.pool
  raiseIf (pool.baseMint ≠ original.mint ∨ pool.quoteMint ≠ wrappedSolMint) .poolMintMismatch
  raiseIf (pool.address ≠ original.poolAddress) .poolPdaMismatch
  raiseIf (pool.poolBaseTokenAccount ≠ original.poolBaseTokenAccount ∨
    pool.poolQuoteTokenAccount ≠ original.poolQuoteTokenAccount) .poolVaultMappingChanged
  raiseIf (globalValues.disableFlags.testBit 4) .poolSellsDisabled
  let base ← accounts.baseVault
  let quote ← accounts.quoteVault
  raiseIf (pool.virtualQuoteReserves < 0) .unsupportedNegativeVirtualReserves
  return {
    virtualTokenReserves := base
    virtualQuoteReserves := quote + pool.virtualQuoteReserves
    realTokenReserves := base
    realQuoteReserves := quote
    quoteMint := pool.quoteMint
    routeVerified := true
    creator := pool.coinCreator
    coinCreatorFeeBps := pool.creatorFeeBps
    canonical := pool.canonical
    mayhem := pool.isMayhemMode
    holderReward := pool.isHolderReward
    fixedSupply := pool.isMayhemMode }

/-- The supply the market cap is taken of. -/
def RouteReading.feeSupply (reading : RouteReading) (mintSupply : ℤ) : ℤ :=
  if reading.fixedSupply then 1000000000000000 else mintSupply

/-- A side of the curve is empty. -/
def RouteReading.empty (reading : RouteReading) : Bool :=
  reading.virtualTokenReserves = 0 ∨ reading.virtualQuoteReserves = 0

def RouteReading.marketCap (reading : RouteReading) (mintSupply : ℤ) : Option ℤ :=
  if reading.empty then none
  else some ((reading.virtualQuoteReserves * reading.feeSupply mintSupply).fdiv reading.virtualTokenReserves)

/-- The components of the fee. A rate stored with the route replaces that of the schedule. -/
def RouteReading.components (reading : RouteReading) (venue : String) (fees : Fees) (creatorFeeConfigurable : Bool) :
    List ℤ :=
  [if venue = "pump_swap" then fees.lpFeeBps else 0, fees.protocolFeeBps,
    if reading.creator = nativeSolMint then 0
    else if creatorFeeConfigurable ∧ reading.coinCreatorFeeBps ≠ 0 then reading.coinCreatorFeeBps
    else fees.creatorFeeBps]

def TokenState.routeIdentity (s : TokenState) : List String :=
  [s.mint, s.venue, s.curveAddress, s.poolAddress, s.poolBaseTokenAccount, s.poolQuoteTokenAccount, s.quoteMint]

/-- The state with what was read, and the fees that were found for it. -/
def TokenState.withReading (original : TokenState) (reading : RouteReading) (components : List ℤ) (slot observedAt : ℤ) :
    TokenState :=
  { original with
    virtualTokenReserves := reading.virtualTokenReserves
    virtualQuoteReserves := reading.virtualQuoteReserves
    realTokenReserves := reading.realTokenReserves
    realQuoteReserves := some reading.realQuoteReserves
    quoteMint := reading.quoteMint
    routeVerified := reading.routeVerified
    -- nothing is said of the price of an empty route
    reserveFeeComponents := if reading.empty then none else some components
    reserveLpFeeBps := if reading.empty then 0 else components.headD 0
    feeBps := if reading.empty then 0 else components.sum
    lastReserveAt := some observedAt
    lastReserveSlot := slot
    reserveSource := "solana-rpc-learning"
    lastReserveEventId := some ("learning-rpc:" ++ toString slot ++ ":" ++ original.mint) }

/-- The proof of a state that was read. -/
def TokenState.audit (s : TokenState) (reading : RouteReading) (globalValues : GlobalValues)
    (mintSupply slot requestedAt observedAt : ℤ) : ReserveAudit where
  requestedAt := requestedAt
  observedAt := observedAt
  slot := slot
  routeIdentity := s.routeIdentity
  virtualTokenReserves := s.virtualTokenReserves
  virtualQuoteReserves := s.virtualQuoteReserves
  realQuoteReserves := s.realQuoteReserves
  feeComponentsBps := s.reserveFeeComponents
  economicState := if reading.empty then "empty_route" else "reserves_present"
  feeMarketCap := reading.marketCap mintSupply
  feeSupply := reading.feeSupply mintSupply
  feeSupplySource := if reading.fixedSupply then "fixed_billion" else "verified_mint"
  isMayhemMode := reading.mayhem
  isHolderReward := reading.holderReward
  creatorFeeConfigurable := globalValues.creatorFeeConfigurable
  storedCreatorFeeBps := reading.coinCreatorFeeBps

def TokenState.withProof (original : TokenState) (reading : RouteReading) (components : List ℤ)
    (globalValues : GlobalValues) (mintSupply slot requestedAt observedAt : ℤ) : TokenState :=
  let state := original.withReading reading components slot observedAt
  { state with reserveAudit := some (state.audit reading globalValues mintSupply slot requestedAt observedAt) }

/-- `result.get("accounts")`, which must be there. -/
def RpcResult.required (result : RpcResult) : Except RefreshRejected Accounts :=
  match result.accounts with
  | none => .error .missingAccounts
  | some accounts => .ok accounts

def readRoute (original : TokenState) (accounts : Accounts) (globalValues : GlobalValues) :
    Except RefreshRejected RouteReading :=
  if original.venue = "pump_curve" then readCurve original accounts else readPool original accounts globalValues

def TokenState.seenAfter (original : TokenState) (observedAt : ℤ) : Bool :=
  original.lastEventAt.any (observedAt < ·) || original.lastReserveAt.any (observedAt < ·)

def validatedLearningState (original : TokenState) (result : RpcResult) (requestedAt observedAt : ℤ)
    (allowEmpty : Bool) : Except RefreshRejected TokenState := do
  raiseIf (result.slot ≤ 0 ∨ result.slot < max original.lastSlot original.lastReserveSlot ∨
    ¬ (0 ≤ observedAt - requestedAt ∧ observedAt - requestedAt ≤ 8000000) ∨ original.seenAfter observedAt)
    .staleSlotOrTimestamp
  let accounts ← result.required
  accounts.addresses
  let mintSupply ← accounts.mintSupply
  raiseIf (¬ (0 < mintSupply ∧ mintSupply ≤ 2 ^ 64 - 1)) .invalidFeeSupply
  let feeConfig ← accounts.feeConfig
  let globalValues ← accounts.globalValues
  let reading ← readRoute original accounts globalValues
  raiseIf (reading.realQuoteReserves < 0 ∨ reading.realTokenReserves < 0) .invalidRealReserves
  raiseIf (reading.empty ∧ ¬ allowEmpty) .noExecutableReserves
  let schedule ← fees feeConfig ((reading.marketCap mintSupply).getD 0) reading.canonical
  let components := reading.components original.venue schedule globalValues.creatorFeeConfigurable
  raiseIf (components.any (· < 0) ∨ 10000 ≤ components.sum) .invalidFeeRates
  return original.withProof reading components globalValues mintSupply result.slot requestedAt observedAt

/-! ### The calls of the feature engine -/

/-- What a call that writes reserves returns, and the state after it. -/
abbrev Written : Type := Bool × TokenState

def TokenState.confirmPumpswapRoute (s : TokenState) (poolAddress quoteMint baseAccount quoteAccount : String) : Written :=
  if s.venue ≠ "pump_swap" ∨ poolAddress = "" ∨ s.poolAddress ≠ poolAddress then (false, s)
  else (true, { s with
    quoteMint := quoteMint
    poolBaseTokenAccount := if baseAccount = "" then s.poolBaseTokenAccount else baseAccount
    poolQuoteTokenAccount := if quoteAccount = "" then s.poolQuoteTokenAccount else quoteAccount
    routeVerified := true })

/-- A read of the accounts of a slot is too old for the state. -/
def TokenState.outdated (s : TokenState) (slot : ℤ) : Bool :=
  slot < max s.lastSlot s.lastReserveSlot ∨ 0 < s.lastReserveSlot ∧ slot ≤ s.lastReserveSlot

/-- `virtual_quote` of the values of a curve. -/
def curveVirtualQuote (values : Payload) : ℤ := number values ["virtual_quote_reserves", "virtual_sol_reserves"]

/-- `real_quote` of the values of a curve, when it is taken over. -/
def curveRealQuote? (values : Payload) : Option ℤ :=
  let realQuote := numberOr values ["real_quote_reserves", "real_sol_reserves"] (-1)
  if 0 ≤ realQuote then some realQuote else none

/-- The checks of `refresh_pump_curve`. -/
def TokenState.takesCurve (s : TokenState) (curveAddress : String) (values : Payload) (slot : ℤ) (observationId : String) :
    Bool :=
  s.venue = "pump_curve" ∧ curveAddress ≠ "" ∧ s.curveAddress = curveAddress ∧ observationId ≠ "" ∧
    ¬ s.outdated slot ∧ 0 < number values ["virtual_token_reserves"] ∧ 0 < curveVirtualQuote values ∧
    0 ≤ number values ["real_token_reserves"] ∧
    ∀ quoteMint ∈ text? values ["quote_mint"], quoteMint = s.quoteMint

def TokenState.refreshPumpCurve (s : TokenState) (curveAddress : String) (values : Payload) (slot at_ : ℤ)
    (observationId : String) : Written :=
  if s.takesCurve curveAddress values slot observationId then
    (true, { s with
      virtualTokenReserves := number values ["virtual_token_reserves"]
      virtualQuoteReserves := curveVirtualQuote values
      realTokenReserves := number values ["real_token_reserves"]
      realQuoteReserves := (curveRealQuote? values).or s.realQuoteReserves
      tokenTotalSupply := max s.tokenTotalSupply (number values ["token_total_supply"])
      complete := ((values.lookup "complete").map Json.truthy).getD s.complete
      lastReserveAt := some (latest at_ s.lastReserveAt)
      lastReserveSlot := slot
      reserveSource := "solana_rpc:position_watchdog"
      lastReserveEventId := some observationId
      lastReserveSignature := none })
  else (false, s)

/-- What a refresh of a pool is called with. -/
structure PoolRead where
  poolAddress : String
  baseTokenAccount : String
  quoteTokenAccount : String
  baseAmount : ℤ
  quoteAmount : ℤ
  virtualQuoteReserves : ℤ
  slot : ℤ
  at_ : ℤ
  observationId : String

/-- The checks of `refresh_pumpswap_reserves`. -/
def TokenState.takesPool (s : TokenState) (read : PoolRead) : Bool :=
  s.venue = "pump_swap" ∧ s.routeVerified ∧ s.poolAddress = read.poolAddress ∧
    s.poolBaseTokenAccount = read.baseTokenAccount ∧ s.poolQuoteTokenAccount = read.quoteTokenAccount ∧
    read.observationId ≠ "" ∧ ¬ s.outdated read.slot ∧ 0 < read.baseAmount ∧ 0 ≤ read.quoteAmount ∧
    0 ≤ read.virtualQuoteReserves

def TokenState.refreshPumpswapReserves (s : TokenState) (read : PoolRead) : Written :=
  if s.takesPool read then
    (true, { s with
      virtualTokenReserves := read.baseAmount
      realTokenReserves := read.baseAmount
      virtualQuoteReserves := max 1 (read.quoteAmount + read.virtualQuoteReserves)
      realQuoteReserves := some read.quoteAmount
      initialRealTokenReserves := if s.initialRealTokenReserves = 0 then read.baseAmount else s.initialRealTokenReserves
      lastReserveAt := some (latest read.at_ s.lastReserveAt)
      lastReserveSlot := read.slot
      reserveSource := "solana_rpc:position_watchdog"
      lastReserveEventId := some read.observationId
      lastReserveSignature := none })
  else (false, s)

/-- The checks of `apply_validated_watchdog_snapshot`. -/
def TokenState.takesSnapshot (s snapshot : TokenState) : Bool :=
  s.mint = snapshot.mint ∧ s.venue = snapshot.venue ∧ s.curveAddress = snapshot.curveAddress ∧
    s.poolAddress = snapshot.poolAddress ∧ s.poolBaseTokenAccount = snapshot.poolBaseTokenAccount ∧
    s.poolQuoteTokenAccount = snapshot.poolQuoteTokenAccount ∧ s.lastSlot ≤ snapshot.lastReserveSlot ∧
    s.lastReserveSlot < snapshot.lastReserveSlot ∧ snapshot.reserveAudit.isSome

def TokenState.applyValidatedWatchdogSnapshot (s snapshot : TokenState) : Written :=
  if s.takesSnapshot snapshot then
    (true, { s with
      virtualTokenReserves := snapshot.virtualTokenReserves
      virtualQuoteReserves := snapshot.virtualQuoteReserves
      realTokenReserves := snapshot.realTokenReserves
      realQuoteReserves := snapshot.realQuoteReserves
      quoteMint := snapshot.quoteMint
      routeVerified := snapshot.routeVerified
      feeBps := snapshot.feeBps
      reserveFeeComponents := snapshot.reserveFeeComponents
      reserveLpFeeBps := snapshot.reserveLpFeeBps
      reserveAudit := snapshot.reserveAudit
      lastReserveAt := snapshot.lastReserveAt
      lastReserveSlot := snapshot.lastReserveSlot
      reserveSource := "solana_rpc:position_watchdog"
      lastReserveEventId := some ("solana-rpc:" ++ toString snapshot.lastReserveSlot ++ ":" ++ snapshot.mint)
      lastReserveSignature := none })
  else (false, s)

/-- What the watchdog does with the accounts it has read of a token, of which it holds a copy. -/
def TokenState.watchdog (s original : TokenState) (result : RpcResult) (requestedAt observedAt : ℤ) : Written :=
  match validatedLearningState original result requestedAt observedAt true with
  | .error _ => (false, s)
  | .ok snapshot => s.applyValidatedWatchdogSnapshot snapshot

/-! ### Steps -/

/-- Something writes the state of a token. -/
inductive Action where
  | event (event : MarketEvent)
  | confirmRoute (poolAddress quoteMint baseAccount quoteAccount : String)
  | refreshCurve (curveAddress : String) (values : Payload) (slot at_ : ℤ) (observationId : String)
  | refreshPool (read : PoolRead)
  | watchdog (original : TokenState) (result : RpcResult) (requestedAt observedAt : ℤ)

/-- What the call of an action returns, and the state after it. -/
def TokenState.write (s : TokenState) : Action → Written
  | .event event => (true, s.applyEvent event)
  | .confirmRoute poolAddress quoteMint baseAccount quoteAccount =>
    s.confirmPumpswapRoute poolAddress quoteMint baseAccount quoteAccount
  | .refreshCurve curveAddress values slot at_ observationId =>
    s.refreshPumpCurve curveAddress values slot at_ observationId
  | .refreshPool read => s.refreshPumpswapReserves read
  | .watchdog original result requestedAt observedAt => s.watchdog original result requestedAt observedAt

def TokenState.step (s : TokenState) (a : Action) : TokenState := (s.write a).2

end SignalArcade.Market.Features
