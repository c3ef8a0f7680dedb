import SignalArcade.Market.EventOrder
import SignalArcade.Paper.CurveMath

/-!
# The reserves of a token

What the feature engine knows of the route of a token: its reserves, the fee rate and how it splits, the
proof the reserves were read with, and the slot and the time of all this. Market events write it, each
as far as its payload goes, and so do reads of the accounts of the route.
-/

namespace SignalArcade.Market.Features

/-! ### Payloads -/

/-- A value of a payload. -/
inductive Json where
  | null
  | bool (b : Bool)
  | int (n : ℤ)
  | float (x : ℚ)
  | text (s : String)
  /-- A list or a dictionary. -/
  | items (nonempty : Bool)
  deriving DecidableEq

/-- The payload of an event. -/
abbrev Payload : Type := List (String × Json)

/-- The digits of a number, with single underscores between them. -/
def ofDigits : ℕ → List Char → Option ℕ
  | n, [] => some n
  | n, '_' :: c :: cs => if c.isDigit then ofDigits (10 * n + (c.toNat - 48)) cs else none
  | n, c :: cs => if c.isDigit then ofDigits (10 * n + (c.toNat - 48)) cs else none

/-- A number without a sign. -/
def ofUnsigned : List Char → Option ℤ
  | [] => none
  | c :: cs => if c.isDigit then (ofDigits (c.toNat - 48) cs).map Int.ofNat else none

/-- `int` of a text, `none` where it raises. Digits are those of ASCII here, and blanks are spaces, tabs and ends of
lines. -/
def ofText (s : String) : Option ℤ :=
  match ((s.toList.dropWhile Char.isWhitespace).reverse.dropWhile Char.isWhitespace).reverse with
  | '-' :: cs => (ofUnsigned cs).map Int.neg
  | '+' :: cs => ofUnsigned cs
  | cs => ofUnsigned cs

/-- `int` of a value, `none` where it raises. -/
def Json.toInt? : Json → Option ℤ
  | .null => none
  | .bool b => some (if b then 1 else 0)
  | .int n => some n
  | .float x => some (x.num.tdiv x.den)
  | .text s => ofText s
  | .items _ => none

/-- `bool` of a value. -/
def Json.truthy : Json → Bool
  | .null => false
  | .bool b => b
  | .int n => n ≠ 0
  | .float x => x ≠ 0
  | .text s => s ≠ ""
  | .items nonempty => nonempty

/-- `_value`: what the first of the keys has that has anything. -/
def value (payload : Payload) : List String → Option Json
  | [] => none
  | key :: keys =>
    match payload.lookup key with
    | none | some .null => value payload keys
    | some v => some v

/-- `_number`. -/
def numberOr (payload : Payload) (keys : List String) (default : ℤ) : ℤ :=
  match value payload keys with
  | none => default
  | some v => v.toInt?.getD default

/-- `_number` without a default. -/
def number (payload : Payload) (keys : List String) : ℤ := numberOr payload keys 0

def text? (payload : Payload) (keys : List String) : Option String :=
  match value payload keys with
  | some (.text s) => some s
  | _ => none

/-! ### Events -/

/-- An event of a market, as far as the reserves depend on it. -/
structure MarketEvent where
  eventId : String
  source : String
  kind : EventKind
  signature : Option String := none
  slot : Option ℕ := none
  receivedAt : ℤ
  payload : Payload

/-- `event.slot or 0`. -/
def MarketEvent.slotOrZero (event : MarketEvent) : ℤ := event.slot.getD 0

def virtualTokenKeys : List String := ["virtual_token_reserves", "virtualTokenReserves"]

def virtualQuoteKeys : List String := ["virtual_quote_reserves", "virtualQuoteReserves"]

def virtualSolKeys : List String := ["virtual_sol_reserves", "virtualSolReserves"]

def poolBaseKeys : List String :=
  ["pool_base_token_reserves", "poolBaseTokenReserves", "pool_base_amount", "poolBaseAmount",
    "base_reserves_after", "baseReservesAfter"]

def poolQuoteKeys : List String :=
  ["pool_quote_token_reserves", "poolQuoteTokenReserves", "pool_quote_amount", "poolQuoteAmount",
    "real_quote_reserves_after", "realQuoteReservesAfter"]

def realQuoteKeys : List String := ["real_quote_reserves", "realQuoteReserves", "real_sol_reserves", "realSolReserves"]

def realTokenKeys : List String := ["real_token_reserves", "realTokenReserves"]

namespace MarketEvent

/-- `reserve_observed`: one of the keys alone has a positive number. -/
def reserveObserved (event : MarketEvent) : Bool :=
  (virtualTokenKeys ++ virtualSolKeys ++ virtualQuoteKeys ++ poolBaseKeys ++ poolQuoteKeys).any fun key =>
    0 < number event.payload [key]

def isAmm (event : MarketEvent) : Bool :=
  "pAMMBay6".toList <:+: event.source.toList ∨
    ∃ name ∈ text? event.payload ["event_name"], name.toLower ∈ ["buyevent", "sellevent", "createpoolevent"]

def observedFeeBps (event : MarketEvent) : ℤ :=
  if event.isAmm then
    number event.payload ["lp_fee_basis_points", "lpFeeBasisPoints"] +
      number event.payload ["protocol_fee_basis_points", "protocolFeeBasisPoints"] +
      number event.payload ["coin_creator_fee_basis_points", "coinCreatorFeeBasisPoints"]
  else
    number event.payload ["fee_basis_points", "feeBasisPoints"] +
      number event.payload ["creator_fee_basis_points", "creatorFeeBasisPoints"]

/-- The rate is taken over. -/
def feeObserved (event : MarketEvent) : Bool := 0 < event.observedFeeBps ∧ event.observedFeeBps ≤ 5000

def poolQuote? (event : MarketEvent) : Option ℤ :=
  (value event.payload poolQuoteKeys).bind fun _ =>
    let poolQuote := number event.payload poolQuoteKeys
    if 0 ≤ poolQuote then some poolQuote else none

/-- The real quote of a curve that is taken over. -/
def realQuote? (event : MarketEvent) : Option ℤ :=
  (value event.payload realQuoteKeys).bind fun _ =>
    let realQuote := numberOr event.payload realQuoteKeys (-1)
    if 0 ≤ realQuote then some realQuote else none

/-- The time of creation is beyond the calendar: setting it raises. -/
def createRaises (event : MarketEvent) : Bool :=
  event.kind = .create ∧ 253402300800 ≤ number event.payload ["timestamp"]

end MarketEvent

/-! ### The state -/

/-- `reserve_audit`: the proof of reserves read from accounts. -/
structure ReserveAudit where
  requestedAt : ℤ
  observedAt : ℤ
  slot : ℤ
  routeIdentity : List String
  virtualTokenReserves : ℤ
  virtualQuoteReserves : ℤ
  realQuoteReserves : Option ℤ
  feeComponentsBps : Option (List ℤ)
  economicState : String
  feeMarketCap : Option ℤ
  feeSupply : ℤ
  feeSupplySource : String
  isMayhemMode : Bool
  isHolderReward : Bool
  creatorFeeConfigurable : Bool
  storedCreatorFeeBps : ℤ
  deriving DecidableEq

/-- `TokenState`, what it knows of the route. -/
structure TokenState where
  mint : String
  venue : String := "pump_curve"
  curveAddress : String := ""
  poolAddress : String := ""
  poolBaseTokenAccount : String := ""
  poolQuoteTokenAccount : String := ""
  quoteMint : String := "So11111111111111111111111111111111111111112"
  routeVerified : Bool := false
  lastEventAt : Option ℤ := none
  lastEventId : Option String := none
  lastSlot : ℤ := 0
  lastReserveAt : Option ℤ := none
  lastReserveSlot : ℤ := 0
  reserveSource : String := ""
  reserveAudit : Option ReserveAudit := none
  reserveFeeComponents : Option (List ℤ) := none
  reserveLpFeeBps : ℤ := 0
  lastReserveEventId : Option String := none
  lastReserveSignature : Option String := none
  virtualTokenReserves : ℤ := 0
  virtualQuoteReserves : ℤ := 0
  realTokenReserves : ℤ := 0
  realQuoteReserves : Option ℤ := none
  initialRealTokenReserves : ℤ := 0
  tokenTotalSupply : ℤ := 0
  complete : Bool := false
  feeBps : ℤ := 0
  deriving DecidableEq

/-- The latest of a time and those already seen. -/
def latest (at_ : ℤ) (seen : Option ℤ) : ℤ := seen.elim at_ (max at_)

def TokenState.effectiveAt (s : TokenState) (event : MarketEvent) : ℤ :=
  latest (latest event.receivedAt s.lastEventAt) s.lastReserveAt

def TokenState.routeRegression (s : TokenState) (event : MarketEvent) : Bool :=
  s.venue = "pump_swap" ∧ s.routeVerified ∧ ¬ event.isAmm

/-! ### `TokenState.apply` -/

/-- What an event says for any route. -/
def TokenState.observe (s : TokenState) (event : MarketEvent) : TokenState :=
  let observed := event.reserveObserved
  { s with
    lastEventAt := if event.kind = .market then s.lastEventAt else some (s.effectiveAt event)
    lastEventId := if event.kind = .market then s.lastEventId else some event.eventId
    reserveAudit := if observed then none else s.reserveAudit
    reserveFeeComponents := if observed then none else s.reserveFeeComponents
    reserveLpFeeBps := if observed then 0 else s.reserveLpFeeBps
    lastSlot := max s.lastSlot event.slotOrZero
    curveAddress :=
      match text? event.payload ["bonding_curve", "bondingCurve"] with
      | some curve => if 30 ≤ curve.length ∧ curve.length ≤ 50 then curve else s.curveAddress
      | none => s.curveAddress
    quoteMint :=
      if s.venue = "pump_swap" ∧ s.routeVerified then s.quoteMint
      else (text? event.payload ["quote_mint", "quoteMint"]).getD s.quoteMint }

def TokenState.takeKind (s : TokenState) (event : MarketEvent) : TokenState :=
  { s with
    tokenTotalSupply :=
      if event.kind = .create then
        numberOr event.payload ["token_total_supply", "tokenTotalSupply"] s.tokenTotalSupply
      else s.tokenTotalSupply
    complete := s.complete || event.kind = .complete || event.kind = .migrate }

/-- The pool of an AMM event. Another pool than before is not verified, and may bring its quote. -/
def TokenState.takePool (s : TokenState) (event : MarketEvent) : TokenState :=
  match text? event.payload ["pool"] with
  | none => { s with venue := "pump_swap" }
  | some pool =>
    if pool = s.poolAddress then { s with venue := "pump_swap" }
    else { s with
      venue := "pump_swap"
      poolAddress := pool
      routeVerified := false
      quoteMint := (text? event.payload ["quote_mint", "quoteMint"]).getD s.quoteMint }

def TokenState.takePoolReserves (s : TokenState) (event : MarketEvent) : TokenState :=
  let poolBase := number event.payload poolBaseKeys
  let poolQuote := number event.payload poolQuoteKeys
  { s with
    virtualTokenReserves := if 0 < poolBase then poolBase else s.virtualTokenReserves
    realTokenReserves := if 0 < poolBase then poolBase else s.realTokenReserves
    initialRealTokenReserves :=
      if 0 < poolBase ∧ s.initialRealTokenReserves = 0 then poolBase else s.initialRealTokenReserves
    virtualQuoteReserves :=
      if 0 < poolQuote then max 1 (poolQuote + number event.payload virtualQuoteKeys) else s.virtualQuoteReserves
    realQuoteReserves := event.poolQuote?.or s.realQuoteReserves }

def TokenState.takeFees (s : TokenState) (event : MarketEvent) : TokenState :=
  if event.feeObserved then { s with feeBps := event.observedFeeBps } else s

def TokenState.takeCurveReserves (s : TokenState) (event : MarketEvent) : TokenState :=
  { s with
    virtualTokenReserves := numberOr event.payload virtualTokenKeys s.virtualTokenReserves
    virtualQuoteReserves := numberOr event.payload (virtualSolKeys ++ virtualQuoteKeys) s.virtualQuoteReserves
    realQuoteReserves := event.realQuote?.or s.realQuoteReserves }

def TokenState.takeRealTokens (s : TokenState) (event : MarketEvent) : TokenState :=
  { s with realTokenReserves := numberOr event.payload realTokenKeys s.realTokenReserves }

def TokenState.takeInitial (s : TokenState) : TokenState :=
  if s.initialRealTokenReserves = 0 ∧ 0 < s.realTokenReserves then
    { s with initialRealTokenReserves := s.realTokenReserves }
  else s

/-- The reserves are those of the event from now on. -/
def TokenState.stamp (s : TokenState) (event : MarketEvent) (effectiveAt : ℤ) : TokenState :=
  if event.reserveObserved ∧ 0 < s.virtualTokenReserves ∧ 0 < s.virtualQuoteReserves then
    { s with
      lastReserveAt := some (latest effectiveAt s.lastReserveAt)
      lastReserveSlot := max s.lastReserveSlot event.slotOrZero
      reserveSource := event.source
      lastReserveEventId := some event.eventId
      lastReserveSignature := event.signature }
  else s

/-- What an event does to the route of the token. An event of the curve leaves a verified pool alone. -/
def TokenState.takeRoute (s : TokenState) (event : MarketEvent) (effectiveAt : ℤ) : TokenState :=
  if event.isAmm then
    (((((s.takePool event).takePoolReserves event).takeFees event).takeRealTokens event).takeInitial).stamp event
      effectiveAt
  else if s.routeRegression event then s.takeInitial
  else ((((s.takeFees event).takeCurveReserves event).takeRealTokens event).takeInitial).stamp event effectiveAt

/-- `TokenState.apply`. A time of creation that cannot be set ends it early. -/
def TokenState.apply (s : TokenState) (event : MarketEvent) : TokenState :=
  let observed := s.observe event
  if event.createRaises then observed else (observed.takeKind event).takeRoute event (s.effectiveAt event)

/-- `FeatureEngine.apply`, of a token that is known. A trade on the curve says nothing of a verified pool. -/
def TokenState.applyEvent (s : TokenState) (event : MarketEvent) : TokenState :=
  if event.kind = .trade ∧ s.routeRegression event then s else s.apply event

end SignalArcade.Market.Features
