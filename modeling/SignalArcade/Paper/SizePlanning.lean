import SignalArcade.Paper.Walks

/-!
# Planned sizes

`plan_entry_size` chooses the size of an entry: a reference size that follows the realized results, changed with the
quality of the evidence, and bounded by caps. The caps are what the entry's own checks will compare its cost with,
converted to SOL, less the fees. The size is checked again when the decision is submitted, in the other direction.
-/

namespace SignalArcade.Paper

open Checked Prog

/-! ### Conversions -/

/-- How the broker calculates. -/
structure Arithmetic where
  /-- An operation of the decimal context rounds its result. -/
  context : ℚ → ℚ
  /-- `math.sqrt`. -/
  sqrt : ℚ → ℚ
  /-- `float`, of a text. -/
  float : String → Option ℚ

/-- No rounding. -/
def Arithmetic.Exact (arith : Arithmetic) : Prop := ∀ q, arith.context q = q

variable (arith : Arithmetic) (env : Env)

/-- `_account_minor_from_sol`. -/
def minorFromSol (solLamports : ℤ) (price : Option ℚ) (rounding : Rounding) : Option ℤ :=
  match env.quoteCurrency with
  | .sol => some solLamports
  | .usdc => (acceptablePrice price).map fun p => max 0 (rounding.apply
      (arith.context (arith.context (arith.context (solLamports * p) * usdcMinorPerUnit) / lamportsPerSol)))

/-- `_sol_lamports_from_account_minor`. -/
def lamportsFromMinor (accountMinor : ℤ) (price : Option ℚ) : Option ℤ :=
  match env.quoteCurrency with
  | .sol => some (max 0 accountMinor)
  | .usdc => (acceptablePrice price).map fun p => max 0
      ⌊arith.context (arith.context (accountMinor * lamportsPerSol) / arith.context (p * usdcMinorPerUnit))⌋

/-- `_pending_reservation`. -/
def pendingReservationOf (order : PaperOrder) (price : Option ℚ) : Option ℤ :=
  if 0 < order.reservedAccountMinor then some order.reservedAccountMinor
  else minorFromSol arith env (order.requestedSolLamports + env.settings.oneWayFee) price .ceiling

/-- The reservations of the pending buys. -/
def reservationsOf (orders : List PaperOrder) (price : Option ℚ) : Option (List ℤ) :=
  orders.mapM fun order => pendingReservationOf arith env order price

/-! ### The gate -/

def reservedTotalOf (orders : List PaperOrder) (price : Option ℚ) : Broker ℤ :=
  match reservationsOf arith env orders price with
  | some reservations => pure reservations.sum
  | none => throw .conversionUnavailable

/-- The exposure that the mode permits. -/
def exposureLimit (limits : RiskLimits) (portfolio : PortfolioSnapshot) : ℤ :=
  truncate (portfolio.equityLamports * limits.maxExposureFraction)

/-- The checks of `_entry_assessment` from the valuation on. -/
def entryGate (decision : Decision) (price : Option ℚ) : Broker (Except Blocker (ℤ × ℤ)) := do
  let limits := riskLimits env (some decision.riskMode)
  let portfolio ← snapshot env (some decision.riskMode) true
  let w ← get
  let capacity := capacityPositions portfolio
  let pendingBuys := w.memory.pendingBuys
  if limits.maxOpenPositions ≤ capacity.length + pendingBuys.length then
    return .error .portfolioCapacityReached
  else if ∃ limit ∈ drawdownLimitFraction env (some decision.riskMode), limit ≤ portfolio.drawdownFraction then
    return .error .portfolioDrawdownLimitReached
  else do
    let request := truncate
      ((decision.plannedOrderSizeSol.filter fun size => size ≠ 0).getD limits.orderSizeSol * lamportsPerSol)
    match minorFromSol arith env (request + env.settings.oneWayFee) price .ceiling with
    | none => return .error .freshSolUsdcConversionUnavailable
    | some required => do
      let reserved ← reservedTotalOf arith env pendingBuys price
      let exposure := (capacity.map (·.entryCostLamports)).sum + reserved
      if exposureLimit limits portfolio < exposure + required then
        return .error .portfolioExposureLimitReached
      else if max 0 (portfolio.cashLamports - reserved) < required then
        return .error .unreservedPaperCashInsufficient
      else return .ok (request, required)

/-- In the rounding of the decimal context the gate is the broker's own. -/
theorem entryLimits_eq (hcontext : arith.context = decimal) (decision : Decision) (price : Option ℚ) :
    entryGate arith env decision price = entryLimits env decision price := by
  obtain ⟨context, sqrt, float⟩ := arith
  obtain rfl := hcontext
  rfl

/-! ### The plan -/

/-- `DecisionScore`, as far as the plan reads it. -/
structure DecisionScore where
  opportunity : ℚ
  danger : ℚ
  execution : ℚ
  confidence : ℚ

/-- A decision with what its size is planned by. -/
structure ScoredDecision extends Decision where
  score : DecisionScore
  featureSnapshot : FeatureSnapshot

def FeatureSnapshot.number (features : FeatureSnapshot) (key : String) : ℚ :=
  match (features.get? key).map DataValue.value with
  | some (.number q) => q
  | some (.text s) => (arith.float s).getD 0
  | _ => 0

def clampFraction (value : ℚ) : ℚ := max 0 (min 1 value)

/-- `_integrity_reference_size_multiplier`, of any version. -/
def referenceMultiplier (version : String) (state : MarketIntegrityState) : ℚ :=
  match state with
  | .suspicious => 60 / 100
  | .severe => 50 / 100
  | .uncertain => if version = "baseline-v1.4" ∨ version = "baseline-v1.5" then 70 / 100 else 1
  | .clean => 1

def smallestSizeSol : ℚ := 1 / 1000000

/-- What results are measured by: the starting balance with the realized results. -/
def realizedBankroll (portfolio : PortfolioSnapshot) : ℤ := max 1 (env.startingLamports + portfolio.realizedPnlLamports)

/-- A position's share of the exposure that is permitted. -/
def perPositionCap (limits : RiskLimits) (portfolio : PortfolioSnapshot) : ℤ :=
  truncate (portfolio.equityLamports * limits.maxExposureFraction / limits.maxOpenPositions)

def plannedSizeFromPortfolio (initialized : Bool) (limits : RiskLimits) (portfolio : PortfolioSnapshot) (price : Option ℚ) :
    ℚ :=
  if initialized = false ∨ env.startingLamports ≤ 0 then limits.orderSizeSol
  else
    let growthRatio : ℚ := realizedBankroll env portfolio / env.startingLamports
    let growthFactor := max (1 / 2) (min (3 / 2) (arith.sqrt (max 0 growthRatio)))
    let grownLamports := truncate (limits.orderSizeSol * lamportsPerSol * growthFactor)
    match lamportsFromMinor arith env (perPositionCap limits portfolio) price with
    | none => limits.orderSizeSol
    | some exposureCapLamports => (max 1 (min grownLamports exposureCapLamports) : ℤ) / lamportsPerSol

def realizedAccountTargetSol (initialized : Bool) (targetFraction : ℚ) (price : Option ℚ) (fallback : ℚ)
    (portfolio : PortfolioSnapshot) : ℚ :=
  if initialized = false ∨ env.startingLamports ≤ 0 then fallback
  else
    match lamportsFromMinor arith env (max 1 (truncate (realizedBankroll env portfolio * targetFraction))) price with
    | none => fallback
    | some lamports => (lamports : ℚ) / lamportsPerSol

def ScoredDecision.quality (decision : ScoredDecision) : ℚ :=
  clampFraction (30 / 100 * decision.score.opportunity + 25 / 100 * decision.score.confidence +
    20 / 100 * decision.score.execution + 25 / 100 * (1 - decision.score.danger))

/-- How much of a slot clean evidence earns. -/
def ScoredDecision.confidenceToScale (decision : ScoredDecision) : ℚ :=
  let scale := clampFraction ((decision.quality - 58 / 100) / (34 / 100))
  if decision.baselineVersion = "baseline-v1.5" then
    let economicQuality := clampFraction (min (decision.featureSnapshot.number arith "meaningful_volume_ratio")
      (decision.featureSnapshot.number arith "meaningful_wallet_ratio"))
    scale * clampFraction (25 / 100 + economicQuality)
  else scale

/-- `desired_size_sol`, of the reference size. -/
def desiredSizeSol (initialized : Bool) (decision : ScoredDecision) (limits : RiskLimits) (portfolio : PortfolioSnapshot)
    (price : Option ℚ) (baseSizeSol : ℚ) : ℚ :=
  match decision.integrityAssessment.map IntegrityAssessment.state with
  | none => baseSizeSol
  | some .clean =>
    let perSlotFraction := limits.maxExposureFraction / limits.maxOpenPositions
    let targetFraction := perSlotFraction * (25 / 100 + 75 / 100 * decision.confidenceToScale arith)
    max baseSizeSol (realizedAccountTargetSol arith env initialized targetFraction price baseSizeSol portfolio)
  | some state => max smallestSizeSol (baseSizeSol * referenceMultiplier decision.baselineVersion state)

/-- `reasons`. -/
def sizingReasons (decision : ScoredDecision) : List String :=
  match decision.integrityAssessment.map IntegrityAssessment.state with
  | none => ["Uncertain integrity evidence keeps the reference paper size"]
  | some .uncertain =>
    if referenceMultiplier decision.baselineVersion .uncertain < 1 then
      ["Unresolved integrity evidence reduces the exploratory paper size"]
    else ["Uncertain integrity evidence keeps the reference paper size"]
  | some .suspicious => ["Corroborated integrity concerns reduce the reference paper size"]
  | some .severe => ["Severe integrity evidence cannot size up and remains entry-blocked"]
  | some .clean =>
    "Clean, mature evidence allows bounded sizing from realized bankroll" ::
      if decision.baselineVersion = "baseline-v1.5" then ["Economically meaningful activity bounds any size increase"]
      else []

/-- The caps of the account. -/
def accountCaps (limits : RiskLimits) (portfolio : PortfolioSnapshot) (reserved : ℤ) : List (String × ℤ) :=
  let exposure := ((capacityPositions portfolio).map (·.entryCostLamports)).sum + reserved
  [("per_position_exposure_cap", perPositionCap limits portfolio),
    ("remaining_portfolio_exposure", max 0 (exposureLimit limits portfolio - exposure)),
    ("available_cash", max 0 (portfolio.cashLamports - reserved))]

/-- What is left of a cap for the size, or what is desired where it cannot be converted. -/
def capLamports (accountMinor : ℤ) (price : Option ℚ) (desiredLamports : ℤ) : ℤ :=
  match lamportsFromMinor arith env accountMinor price with
  | none => desiredLamports
  | some lamports => max 1 (lamports - env.settings.oneWayFee)

/-- `caps["price_impact_cap"]`, where a reserve is observed. -/
def priceImpactCap (limits : RiskLimits) (decision : ScoredDecision) : Option ℤ :=
  let reserveSol := max 0 (decision.featureSnapshot.number arith "virtual_quote_reserve_sol")
  if 0 < reserveSol then some (max 1 (truncate (reserveSol * limits.maxPriceImpact * lamportsPerSol))) else none

/-- `caps`. -/
def sizeCaps (limits : RiskLimits) (decision : ScoredDecision) (portfolio : PortfolioSnapshot) (reserved : ℤ)
    (price : Option ℚ) (desiredLamports : ℤ) : List (String × ℤ) :=
  (accountCaps limits portfolio reserved).map (fun cap => (cap.1, capLamports arith env cap.2 price desiredLamports)) ++
    ((priceImpactCap arith limits decision).map fun cap => ("price_impact_cap", cap)).toList

/-- `min(caps.values()) if caps else desired_lamports`. -/
def leastCap (caps : List (String × ℤ)) (desiredLamports : ℤ) : ℤ :=
  (caps.map Prod.snd).min?.getD desiredLamports

/-- `plan_entry_size`, once the portfolio is valued and the reservations are converted. -/
def sizing (initialized : Bool) (decision : ScoredDecision) (portfolio : PortfolioSnapshot) (reserved : ℤ) (price : Option ℚ) :
    SizingAssessment :=
  let limits := riskLimits env (some decision.riskMode)
  let baseSizeSol := plannedSizeFromPortfolio arith env initialized limits portfolio price
  let desired := desiredSizeSol arith env initialized decision limits portfolio price baseSizeSol
  let desiredLamports := max 1 (truncate (desired * lamportsPerSol))
  let caps := sizeCaps arith env limits decision portfolio reserved price desiredLamports
  let maximumLamports := leastCap caps desiredLamports
  let selectedLamports := min desiredLamports maximumLamports
  let constraints := (caps.filter fun cap => cap.2 ≤ desiredLamports ∧ cap.2 = selectedLamports).map Prod.fst
  let selectedSizeSol : ℚ := (max 1 selectedLamports : ℤ) / lamportsPerSol
  let maximumSizeSol : ℚ := (max 1 maximumLamports : ℤ) / lamportsPerSol
  let selectedAccountMinor :=
    (minorFromSol arith env (max 1 (truncate (selectedSizeSol * lamportsPerSol))) price .ceiling).getD 0
  { policyVersion := sizingPolicyVersion
    baseSizeSol := baseSizeSol
    desiredSizeSol := max smallestSizeSol desired
    selectedSizeSol := max smallestSizeSol selectedSizeSol
    maximumSizeSol := some (max smallestSizeSol maximumSizeSol)
    accountAllocationFraction := clampFraction (selectedAccountMinor / realizedBankroll env portfolio)
    constraints := if constraints = [] then ["quality_target"] else constraints
    reasons := sizingReasons decision }

/-- The size of an entry, and what capped it. -/
def planEntrySize (decision : ScoredDecision) (price : Option ℚ) : Broker SizingAssessment := do
  let portfolio ← snapshot env (some decision.riskMode) true
  let w ← get
  let reserved ← reservedTotalOf arith env w.memory.pendingBuys price
  return sizing arith env w.memory.initialized decision portfolio reserved price

/-! ### The conversions agree -/

variable {arith : Arithmetic} {env : Env} {price : Option ℚ}

theorem acceptablePrice_pos {p : ℚ} (h : acceptablePrice price = some p) : 0 < p := by
  rw [acceptablePrice, Option.filter_eq_some_iff] at h
  exact (of_decide_eq_true h.2).1

/-- **What fits the floor fits the ceiling**: a cost within the lamports of an amount is within the amount. -/
theorem minor_le_of_lamports (hexact : arith.Exact) {minor lamports cost : ℤ}
    (hlamports : lamportsFromMinor arith env minor price = some lamports) (hcost : 0 < cost) (hle : cost ≤ lamports) :
    ∃ required, minorFromSol arith env cost price .ceiling = some required ∧ 0 < required ∧ required ≤ minor := by
  unfold lamportsFromMinor at hlamports
  unfold minorFromSol
  cases hcurrency : env.quoteCurrency with
  | sol =>
    simp only [hcurrency, Option.some.injEq] at hlamports
    refine ⟨cost, rfl, hcost, ?_⟩
    omega
  | usdc =>
    simp only [hcurrency, Option.map_eq_some_iff] at hlamports
    obtain ⟨p, hp, rfl⟩ := hlamports
    refine ⟨_, by rw [hp]; rfl, ?_⟩
    have hpos := acceptablePrice_pos hp
    have hfloor : cost ≤ ⌊(minor * lamportsPerSol : ℚ) / (p * usdcMinorPerUnit)⌋ := by
      simp only [hexact _] at hle
      omega
    have hback : (cost * p * usdcMinorPerUnit / lamportsPerSol : ℚ) ≤ minor := by
      have hunits : (0 : ℚ) < p * usdcMinorPerUnit := by
        simp only [usdcMinorPerUnit]
        positivity
      rw [Int.le_floor, le_div_iff₀ hunits, ← mul_assoc] at hfloor
      rw [div_le_iff₀ (by norm_num [lamportsPerSol])]
      exact hfloor
    have hrequired : 0 < ⌈(cost * p * usdcMinorPerUnit / lamportsPerSol : ℚ)⌉ := by
      rw [Int.ceil_pos]
      simp only [usdcMinorPerUnit, lamportsPerSol]
      positivity
    simp only [hexact _, Rounding.apply, max_eq_right hrequired.le]
    exact ⟨hrequired, Int.ceil_le.mpr hback⟩

/-- The conversion accepts the price. -/
def Converts (env : Env) (price : Option ℚ) : Prop := env.quoteCurrency = .usdc → (acceptablePrice price).isSome

theorem Converts.minorFromSol (h : Converts env price) (solLamports : ℤ) (rounding : Rounding) :
    (minorFromSol arith env solLamports price rounding).isSome := by
  unfold Paper.minorFromSol
  cases hcurrency : env.quoteCurrency with
  | sol => rfl
  | usdc => simpa using h hcurrency

theorem Converts.reservations (h : Converts env price) (orders : List PaperOrder) :
    ∃ reservations, reservationsOf arith env orders price = some reservations := by
  induction orders with
  | nil => exact ⟨[], rfl⟩
  | cons order orders ih =>
    obtain ⟨reservations, ih⟩ := ih
    have horder : (pendingReservationOf arith env order price).isSome := by
      unfold pendingReservationOf
      split_ifs
      · rfl
      · exact h.minorFromSol _ _
    obtain ⟨reservation, horder⟩ := Option.isSome_iff_exists.mp horder
    unfold reservationsOf at ih ⊢
    exact ⟨reservation :: reservations, by simp [List.mapM_cons, horder, ih]⟩

/-! ### Within the caps -/

theorem truncate_le (q : ℚ) : (truncate q : ℚ) ≤ max 0 q := by
  unfold truncate
  by_cases hq : 0 ≤ q
  · rw [Int.tdiv_eq_ediv_of_nonneg (Rat.num_nonneg.mpr hq), ← Rat.floor_def']
    exact (Int.floor_le q).trans (le_max_right 0 q)
  · have hnum : q.num ≤ 0 := (Rat.num_neg.mpr (not_le.mp hq)).le
    have htdiv : 0 ≤ (-q.num).tdiv q.den := Int.tdiv_nonneg (by omega) (by positivity)
    rw [Int.neg_tdiv] at htdiv
    exact le_max_of_le_left (by exact_mod_cast Int.neg_nonneg.mp htdiv)

@[simp] theorem truncate_intCast (n : ℤ) : truncate n = n := by
  simp [truncate]

theorem leastCap_le {caps : List (String × ℤ)} {cap : String × ℤ} (h : cap ∈ caps) (desiredLamports : ℤ) :
    leastCap caps desiredLamports ≤ cap.2 := by
  have hmem : cap.2 ∈ caps.map Prod.snd := List.mem_map_of_mem h
  unfold leastCap
  cases hmin : (caps.map Prod.snd).min? with
  | none => simp_all
  | some least => exact (List.min?_eq_some_iff.mp hmin).2 _ hmem

/-- No account cap, once it is converted and the fees are taken off, is below the smallest size that a plan states. -/
def RoomForSmallest (arith : Arithmetic) (env : Env) (limits : RiskLimits) (portfolio : PortfolioSnapshot) (reserved : ℤ)
    (price : Option ℚ) : Prop :=
  ∀ cap ∈ accountCaps limits portfolio reserved, ∃ lamports ∈ lamportsFromMinor arith env cap.2 price,
    smallestSizeSol ≤ (lamports - env.settings.oneWayFee : ℤ) / lamportsPerSol

theorem lamportsPerSol_pos : (0 : ℚ) < lamportsPerSol := by
  norm_num [lamportsPerSol]

theorem smallestSizeSol_le_iff (lamports : ℤ) : smallestSizeSol ≤ lamports / lamportsPerSol ↔ 1000 ≤ lamports := by
  rw [le_div_iff₀ lamportsPerSol_pos]
  norm_num [smallestSizeSol, lamportsPerSol]
  exact_mod_cast Iff.rfl

/-- **A size within the maximum that is stated is within a cap** that is not below the smallest size. -/
theorem le_of_le_maximum {k least cap : ℤ}
    (hk : (k / lamportsPerSol : ℚ) ≤ max smallestSizeSol ((max 1 least : ℤ) / lamportsPerSol))
    (hleast : least ≤ cap) (hcap : smallestSizeSol ≤ cap / lamportsPerSol) : k ≤ cap := by
  have hthousand := (smallestSizeSol_le_iff cap).mp hcap
  have hstated : (k / lamportsPerSol : ℚ) ≤ cap / lamportsPerSol := by
    refine hk.trans (max_le hcap ?_)
    rw [div_le_div_iff_of_pos_right lamportsPerSol_pos]
    exact_mod_cast max_le (by omega) hleast
  rw [div_le_div_iff_of_pos_right lamportsPerSol_pos] at hstated
  exact_mod_cast hstated

theorem stated_le (sizeSol : ℚ) (capLamports : ℤ) :
    max smallestSizeSol ((max 1 (min (max 1 (truncate (sizeSol * lamportsPerSol))) capLamports) : ℤ) / lamportsPerSol) ≤
      max smallestSizeSol sizeSol := by
  apply max_le (le_max_left _ _)
  have hselected : max 1 (min (max 1 (truncate (sizeSol * lamportsPerSol))) capLamports) ≤
      max 1 (truncate (sizeSol * lamportsPerSol)) := max_le (le_max_left _ _) (min_le_left _ _)
  rw [div_le_iff₀ lamportsPerSol_pos, max_mul_of_nonneg _ _ lamportsPerSol_pos.le]
  calc ((max 1 (min (max 1 (truncate (sizeSol * lamportsPerSol))) capLamports) : ℤ) : ℚ)
      ≤ (max 1 (truncate (sizeSol * lamportsPerSol)) : ℤ) := by exact_mod_cast hselected
    _ = max 1 (truncate (sizeSol * lamportsPerSol) : ℚ) := by push_cast; rfl
    _ ≤ max 1 (max 0 (sizeSol * lamportsPerSol)) := max_le_max le_rfl (truncate_le _)
    _ ≤ max (smallestSizeSol * lamportsPerSol) (sizeSol * lamportsPerSol) := by
      have hthousand : smallestSizeSol * lamportsPerSol = 1000 := by norm_num [smallestSizeSol, lamportsPerSol]
      rw [hthousand]
      refine max_le (le_max_of_le_left (by norm_num)) (max_le (le_max_of_le_left (by norm_num)) (le_max_right _ _))

/-! ### The plan and the gate -/

theorem get_apply (w : World) : (get : Broker World) w = .ok w w := rfl

theorem planEntrySize_eq {decision : ScoredDecision} {w w' : World} {portfolio : PortfolioSnapshot}
    {reservations : List ℤ} (hsnapshot : snapshot env (some decision.riskMode) true w = .ok portfolio w')
    (hreservations : reservationsOf arith env w'.memory.pendingBuys price = some reservations) :
    planEntrySize arith env decision price w =
      .ok (sizing arith env w'.memory.initialized decision portfolio reservations.sum price) w' := by
  simp [planEntrySize, reservedTotalOf, bind, EStateM.bind, hsnapshot, hreservations, get_apply, pure,
    EStateM.pure]

/-- **What the gate says of a size that its cost is known of.** -/
theorem entryGate_eq {gated : Decision} {w w' : World} {portfolio : PortfolioSnapshot}
    {reservations : List ℤ} {request required : ℤ}
    (hsnapshot : snapshot env (some gated.riskMode) true w = .ok portfolio w')
    (hreservations : reservationsOf arith env w'.memory.pendingBuys price = some reservations)
    (hplanned : gated.plannedOrderSizeSol = some (request / lamportsPerSol : ℚ)) (hrequest : 0 < request)
    (hrequired : minorFromSol arith env (request + env.settings.oneWayFee) price .ceiling = some required)
    (hexposure : ((capacityPositions portfolio).map (·.entryCostLamports)).sum + reservations.sum + required ≤
      exposureLimit (riskLimits env (some gated.riskMode)) portfolio)
    (hcash : required ≤ max 0 (portfolio.cashLamports - reservations.sum)) :
    ∃ result, entryGate arith env gated price w = .ok result w' ∧
      (result = .ok (request, required) ∨ result = .error .portfolioCapacityReached ∨
        result = .error .portfolioDrawdownLimitReached) := by
  have hsize : truncate ((gated.plannedOrderSizeSol.filter fun size => size ≠ 0).getD
      (riskLimits env (some gated.riskMode)).orderSizeSol * lamportsPerSol) = request := by
    have hne : (request / lamportsPerSol : ℚ) ≠ 0 :=
      div_ne_zero (by exact_mod_cast hrequest.ne') lamportsPerSol_pos.ne'
    rw [hplanned, Option.filter_some, if_pos (decide_eq_true hne), Option.getD_some,
      div_mul_cancel₀ _ lamportsPerSol_pos.ne', truncate_intCast]
  unfold entryGate
  simp only [bind, EStateM.bind, hsnapshot, get_apply]
  by_cases hcapacity : (riskLimits env (some gated.riskMode)).maxOpenPositions ≤
      (capacityPositions portfolio).length + w'.memory.pendingBuys.length
  · rw [if_pos hcapacity]
    exact ⟨_, rfl, .inr (.inl rfl)⟩
  rw [if_neg hcapacity]
  by_cases hdrawdown : ∃ limit ∈ drawdownLimitFraction env (some gated.riskMode), limit ≤ portfolio.drawdownFraction
  · rw [if_pos hdrawdown]
    exact ⟨_, rfl, .inr (.inr rfl)⟩
  rw [if_neg hdrawdown]
  refine ⟨.ok (request, required), ?_, .inl rfl⟩
  simp only [hsize, hrequired, reservedTotalOf, hreservations, EStateM.bind, pure, EStateM.pure]
  rw [if_neg (not_lt.mpr hexposure), if_neg (not_lt.mpr hcash)]
  rfl

/-! ### Planned sizes pass -/

variable {decision : ScoredDecision} {portfolio : PortfolioSnapshot} {reserved : ℤ} {price : Option ℚ} {initialized : Bool}
variable {maximum : ℚ} {k required : ℤ}

theorem le_of_sizing (cap : String × ℤ)
    (hmaximum : (sizing arith env initialized decision portfolio reserved price).maximumSizeSol = some maximum)
    (hle : (k / lamportsPerSol : ℚ) ≤ maximum)
    (hcap : ∀ desiredLamports, cap ∈
      sizeCaps arith env (riskLimits env (some decision.riskMode)) decision portfolio reserved price desiredLamports)
    (hsmallest : smallestSizeSol ≤ cap.2 / lamportsPerSol) : k ≤ cap.2 := by
  simp only [sizing, Option.some.injEq] at hmaximum
  rw [← hmaximum] at hle
  exact le_of_le_maximum hle (leastCap_le (hcap _) _) hsmallest

theorem required_le (hexact : arith.Exact)
    (hroom : RoomForSmallest arith env (riskLimits env (some decision.riskMode)) portfolio reserved price)
    (hmaximum : (sizing arith env initialized decision portfolio reserved price).maximumSizeSol = some maximum)
    (hk : 0 < k) (hle : (k / lamportsPerSol : ℚ) ≤ maximum)
    (hrequired : minorFromSol arith env (k + env.settings.oneWayFee) price .ceiling = some required)
    {cap : String × ℤ} (hcap : cap ∈ accountCaps (riskLimits env (some decision.riskMode)) portfolio reserved) :
    0 < required ∧ required ≤ cap.2 := by
  obtain ⟨lamports, hlamports, hsmallest⟩ := hroom cap hcap
  have hthousand := (smallestSizeSol_le_iff _).mp hsmallest
  have hfee := env.settings.oneWayFee_nonneg
  have hcapped : ∀ desiredLamports, capLamports arith env cap.2 price desiredLamports =
      lamports - env.settings.oneWayFee := by
    intro desiredLamports
    simp only [capLamports, Option.mem_def.mp hlamports]
    omega
  have hwithin : k ≤ lamports - env.settings.oneWayFee :=
    le_of_sizing (cap.1, lamports - env.settings.oneWayFee) hmaximum hle
      (fun desiredLamports => List.mem_append_left _ (List.mem_map.mpr ⟨cap, hcap, by rw [hcapped]⟩)) hsmallest
  obtain ⟨cost, hcost, hpos, hminor⟩ := minor_le_of_lamports hexact hlamports
    (show 0 < k + env.settings.oneWayFee by omega) (by omega)
  obtain rfl : cost = required := Option.some.inj (hcost.symm.trans hrequired)
  exact ⟨hpos, hminor⟩

theorem within_impact
    (hmaximum : (sizing arith env initialized decision portfolio reserved price).maximumSizeSol = some maximum)
    (hle : (k / lamportsPerSol : ℚ) ≤ maximum) {impact : ℤ}
    (himpact : impact ∈ priceImpactCap arith (riskLimits env (some decision.riskMode)) decision)
    (hsmallest : smallestSizeSol ≤ impact / lamportsPerSol) :
    (k / lamportsPerSol : ℚ) ≤ max 0 (decision.featureSnapshot.number arith "virtual_quote_reserve_sol") *
      (riskLimits env (some decision.riskMode)).maxPriceImpact := by
  have hwithin : k ≤ impact := le_of_sizing ("price_impact_cap", impact) hmaximum hle
    (fun _ => List.mem_append_right _ (by simp [Option.mem_def.mp himpact])) hsmallest
  have hthousand := (smallestSizeSol_le_iff _).mp hsmallest
  dsimp only [priceImpactCap] at himpact
  set permitted : ℚ := max 0 (decision.featureSnapshot.number arith "virtual_quote_reserve_sol") *
    (riskLimits env (some decision.riskMode)).maxPriceImpact
  split_ifs at himpact with hreserve
  · have himpact : max 1 (truncate (permitted * lamportsPerSol)) = impact := Option.some.inj himpact
    have hpermitted : (impact : ℚ) ≤ max 0 (permitted * lamportsPerSol) := by
      refine le_trans ?_ (truncate_le _)
      exact_mod_cast (by omega : impact ≤ truncate (permitted * lamportsPerSol))
    have hk : (k : ℚ) ≤ permitted * lamportsPerSol := by
      rcases le_max_iff.mp hpermitted with himpossible | hpermitted
      · have : impact ≤ 0 := by exact_mod_cast himpossible
        omega
      · exact le_trans (by exact_mod_cast hwithin) hpermitted
    rwa [div_le_iff₀ lamportsPerSol_pos]
  · cases himpact

theorem referenceMultiplier_le_one (version : String) (state : MarketIntegrityState) :
    0 ≤ referenceMultiplier version state ∧ referenceMultiplier version state ≤ 1 := by
  cases state <;> simp only [referenceMultiplier]
  case uncertain => split_ifs <;> norm_num
  all_goals norm_num

theorem max_mul_le {baseSizeSol multiplier : ℚ} (h : 0 ≤ multiplier ∧ multiplier ≤ 1) :
    max smallestSizeSol (baseSizeSol * multiplier) ≤ max smallestSizeSol baseSizeSol := by
  apply max_le (le_max_left _ _)
  by_cases hbase : 0 ≤ baseSizeSol
  · exact le_max_of_le_right (mul_le_of_le_one_right hbase h.2)
  · have hsmallest : (0 : ℚ) ≤ smallestSizeSol := by norm_num [smallestSizeSol]
    exact le_max_of_le_left ((mul_nonpos_of_nonpos_of_nonneg (not_le.mp hbase).le h.1).trans hsmallest)

theorem desiredSizeSol_le {limits : RiskLimits} {baseSizeSol : ℚ}
    (hclean : ∀ integrity ∈ decision.integrityAssessment, integrity.state ≠ .clean) :
    desiredSizeSol arith env initialized decision limits portfolio price baseSizeSol ≤ max smallestSizeSol baseSizeSol := by
  unfold desiredSizeSol
  cases hintegrity : decision.integrityAssessment with
  | none => exact le_max_right _ _
  | some integrity =>
    have hstate := hclean integrity hintegrity
    simp only [Option.map_some]
    cases hcase : integrity.state with
    | clean => exact absurd hcase hstate
    | uncertain => exact max_mul_le (referenceMultiplier_le_one _ _)
    | suspicious => exact max_mul_le (referenceMultiplier_le_one _ _)
    | severe => exact max_mul_le (referenceMultiplier_le_one _ _)

/-- **A size within the plan passes the broker's own gates.** -/
theorem planned_sizes_pass (hexact : arith.Exact) (decision : ScoredDecision) (price : Option ℚ)
    (hprice : Converts env price) (w w' : World) (portfolio : PortfolioSnapshot)
    (hsnapshot : snapshot env (some decision.riskMode) true w = .ok portfolio w') :
    ∃ reservations assessment maximum,
      reservationsOf arith env w.memory.pendingBuys price = some reservations ∧
      planEntrySize arith env decision price w = .ok assessment w' ∧
      assessment.maximumSizeSol = some maximum ∧
      (RoomForSmallest arith env (riskLimits env (some decision.riskMode)) portfolio reservations.sum price →
        ∀ k : ℤ, 0 < k → (k / lamportsPerSol : ℚ) ≤ maximum →
          ∃ required, minorFromSol arith env (k + env.settings.oneWayFee) price .ceiling = some required ∧
            required ≤ perPositionCap (riskLimits env (some decision.riskMode)) portfolio ∧
            ∀ gated : Decision, gated.riskMode = decision.riskMode →
              gated.plannedOrderSizeSol = some (k / lamportsPerSol : ℚ) →
              ∃ result, entryGate arith env gated price w = .ok result w' ∧
                (result = .ok (k, required) ∨ result = .error .portfolioCapacityReached ∨
                  result = .error .portfolioDrawdownLimitReached)) ∧
      (∀ impact ∈ priceImpactCap arith (riskLimits env (some decision.riskMode)) decision,
        smallestSizeSol ≤ impact / lamportsPerSol → ∀ k : ℤ, (k / lamportsPerSol : ℚ) ≤ maximum →
          (k / lamportsPerSol : ℚ) ≤ max 0 (decision.featureSnapshot.number arith "virtual_quote_reserve_sol") *
            (riskLimits env (some decision.riskMode)).maxPriceImpact) ∧
      assessment.selectedSizeSol ≤ maximum ∧
      ((∀ integrity ∈ decision.integrityAssessment, integrity.state ≠ .clean) →
        assessment.selectedSizeSol ≤ max smallestSizeSol assessment.baseSizeSol) := by
  obtain ⟨reservations, hreservations⟩ : ∃ reservations,
      reservationsOf arith env w.memory.pendingBuys price = some reservations := hprice.reservations _
  have hquiet : Quietly (snapshot env (some decision.riskMode) true) _ w := snapshot_quietly _ _
  have hpending : w'.memory.pendingBuys = w.memory.pendingBuys := by
    unfold Quietly Wp at hquiet
    rw [hsnapshot] at hquiet
    unfold Memory.pendingBuys
    rw [hquiet.1.pending]
  rw [← hpending] at hreservations
  refine ⟨reservations, _, _, hpending ▸ hreservations, planEntrySize_eq hsnapshot hreservations, rfl, ?_, ?_, ?_, ?_⟩
  · intro hroom k hk hle
    obtain ⟨required, hrequired⟩ : ∃ required,
        minorFromSol arith env (k + env.settings.oneWayFee) price .ceiling = some required :=
      Option.isSome_iff_exists.mp (hprice.minorFromSol _ _)
    have hwithin {cap : String × ℤ}
        (hcap : cap ∈ accountCaps (riskLimits env (some decision.riskMode)) portfolio reservations.sum) :=
      required_le hexact hroom rfl hk hle hrequired hcap
    have hposition := hwithin (.head _)
    have hexposure := hwithin (.tail _ (.head _))
    have hcash := hwithin (.tail _ (.tail _ (.head _)))
    refine ⟨required, hrequired, hposition.2, fun gated hmode hplanned => ?_⟩
    rw [← hmode] at hsnapshot hexposure
    apply entryGate_eq hsnapshot hreservations hplanned hk hrequired
    · simp only at hexposure
      omega
    · exact hcash.2
  · intro impact himpact hsmallest k hle
    exact within_impact rfl hle himpact hsmallest
  · apply max_le_max le_rfl
    rw [div_le_div_iff_of_pos_right lamportsPerSol_pos]
    exact_mod_cast max_le_max le_rfl (min_le_right _ _)
  · intro hclean
    exact (stated_le _ _).trans (max_le (le_max_left _ _) (desiredSizeSol_le hclean))

/-! ### A small plan -/

def sampleArithmetic : Arithmetic := ⟨id, id, fun _ => none⟩

def sampleScored (mint : String) : ScoredDecision where
  toDecision := sampleDecision mint (1 / 100)
  score := ⟨1 / 2, 1 / 2, 1 / 2, 1 / 2⟩
  featureSnapshot :=
    ⟨mint, mint, mint, "pump_curve", 0,
      [("virtual_quote_reserve_sol", ⟨.number 30, "SOL", 0, [], 0, 1, none⟩)], 1, []⟩

/-- A season of four thousand lamports. -/
def tinyEnv : Env :=
  { sampleEnv .sol fun _ _ => false with
    startingLamports := 4000
    starting_pos := by decide }

/-- An entry that is planned and passes. -/
theorem planned_sizes_pass_sample :
    ∃ assessment w', planEntrySize sampleArithmetic (sampleEnv .usdc fun _ _ => false) (sampleScored "mint") (some 150)
      (World.opened (sampleEnv .usdc fun _ _ => false)) = .ok assessment w' ∧
      assessment.selectedSizeSol ≤ max smallestSizeSol assessment.baseSizeSol ∧
      ∃ result, entryGate sampleArithmetic (sampleEnv .usdc fun _ _ => false)
        (sampleDecision "mint" ((10000000 : ℤ) / lamportsPerSol)) (some 150)
        (World.opened (sampleEnv .usdc fun _ _ => false)) = .ok result w' ∧
        (result = .ok (10000000, 1500001) ∨ result = .error .portfolioCapacityReached ∨
          result = .error .portfolioDrawdownLimitReached) := by
  obtain ⟨reservations, assessment, maximum, hreservations, hplan, hmaximum, hgate, -, -, hselected⟩ :=
    @planned_sizes_pass sampleArithmetic (sampleEnv .usdc fun _ _ => false) (fun _ => rfl) (sampleScored "mint")
      (some 150) (fun _ => rfl) (World.opened (sampleEnv .usdc fun _ _ => false)) _ _ rfl
  obtain rfl : [] = reservations := Option.some.inj hreservations
  obtain rfl : _ = assessment := (EStateM.Result.ok.inj hplan).1
  obtain rfl : _ = maximum := Option.some.inj hmaximum
  obtain ⟨required, hrequired, -, hgate⟩ :=
    hgate (by unfold RoomForSmallest; decide +kernel) 10000000 (by decide) (by decide +kernel)
  obtain rfl : 1500001 = required := by
    have hcost : minorFromSol sampleArithmetic (sampleEnv .usdc fun _ _ => false) (10000000 + 1) (some 150) .ceiling =
        some 1500001 := by decide +kernel
    exact Option.some.inj (hcost.symm.trans hrequired)
  exact ⟨_, _, hplan, hselected (by decide), hgate _ rfl rfl⟩

/-- Of four thousand lamports the largest size that is stated is a thousand, which is more than the exposure leaves: no
cap is down to its one lamport, and the gate refuses. -/
theorem tiny_caps_lifted :
    Converts tinyEnv none ∧
    Wp (snapshot tinyEnv (some .aggressive) true) (fun portfolio _ =>
      ∀ cap ∈ accountCaps (riskLimits tinyEnv (some .aggressive)) portfolio 0,
        ∃ lamports ∈ lamportsFromMinor sampleArithmetic tinyEnv cap.2 none, 1 < lamports - tinyEnv.settings.oneWayFee)
      (fun _ _ => False) (World.opened tinyEnv) ∧
    Wp (planEntrySize sampleArithmetic tinyEnv (sampleScored "mint") none) (fun assessment _ =>
      assessment.maximumSizeSol = some (1000 / lamportsPerSol : ℚ)) (fun _ _ => False) (World.opened tinyEnv) ∧
    Wp (entryGate sampleArithmetic tinyEnv (sampleDecision "mint" (1000 / lamportsPerSol)) none) (fun result _ =>
      result matches .error .portfolioExposureLimitReached) (fun _ _ => False) (World.opened tinyEnv) := by
  refine ⟨nofun, ?_, ?_, ?_⟩ <;> decide +kernel

end SignalArcade.Paper
