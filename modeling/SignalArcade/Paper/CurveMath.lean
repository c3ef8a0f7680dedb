import SignalArcade.Lib.Checked
import Mathlib.Data.Rat.Floor
import Mathlib.Tactic.Positivity

/-!
# Constant-product quotes

The two quotes of `paper/curve_math.py`. `quoteBuy` spends a lamport budget on a
Pump-style curve, `quoteSell` sells token units into it; both work on integers and
round every step against the trader: the curve input is floored, the reserve left
behind is ceiled, and each fee component is ceiled on its own.
-/

namespace SignalArcade.Paper

open Checked List

/-- The `ValueError`s of `curve_math.py`. -/
inductive QuoteError where
  /-- `ceil_div` by zero or a negative number. -/
  | denominatorNotPositive
  /-- A virtual reserve is zero or negative. -/
  | reservesNotPositive
  /-- A virtual reserve has more than 127 bits. -/
  | reservesTooLarge
  /-- Nothing left to buy. -/
  | noRealTokens
  | budgetNotPositive
  /-- A rate outside `0..10_000`. -/
  | feeOutOfRange
  /-- No curve input is affordable. -/
  | budgetBelowFees
  /-- The buy rounds to nothing. -/
  | noTokenOutput
  /-- Nothing to sell. -/
  | tokenAmountNotPositive
  /-- The components do not add up to the rate, or the LP share is not one of them. -/
  | feeComponentsInconsistent
  /-- The sale rounds to nothing. -/
  | noSolOutput
  /-- A negative or oversized quote vault. -/
  | realQuoteInvalid
  /-- The quote vault cannot cover the sale. -/
  | exceedsRealQuote
  /-- The fees eat the whole sale. -/
  | feesExceedProceeds
  deriving DecidableEq, Repr

def QuoteError.text : QuoteError → String
  | .denominatorNotPositive => "denominator must be positive"
  | .reservesNotPositive => "reserves must be positive"
  | .reservesTooLarge => "reserve value is unreasonably large"
  | .noRealTokens => "no real token reserves remain"
  | .budgetNotPositive => "trade budget must be positive"
  | .feeOutOfRange => "fee_bps outside supported range"
  | .budgetBelowFees => "trade budget is smaller than fees"
  | .noTokenOutput => "quote produced no token output"
  | .tokenAmountNotPositive => "token amount must be positive"
  | .feeComponentsInconsistent => "fee components are inconsistent"
  | .noSolOutput => "quote produced no SOL output"
  | .realQuoteInvalid => "real quote reserves are invalid"
  | .exceedsRealQuote => "sell output exceeds real quote reserves"
  | .feesExceedProceeds => "fees exceed sell proceeds"

/-! ### Rounding up -/

/-- `-(-numerator // denominator)`, for a positive denominator. -/
def ceilQuot (numerator denominator : ℤ) : ℤ := -(-numerator / denominator)

def ceilDiv (numerator denominator : ℤ) : Except QuoteError ℤ := do
  raiseIf (denominator ≤ 0) .denominatorNotPositive
  return ceilQuot numerator denominator

variable {n d : ℤ}

theorem ceilDiv_of_pos (hd : 0 < d) : ceilDiv n d = .ok (ceilQuot n d) := by
  rw [ceilDiv, raiseIf_of_not (by omega)]
  rfl

theorem le_ceilQuot_mul (hd : 0 < d) : n ≤ ceilQuot n d * d := by
  have := Int.ediv_mul_le (-n) hd.ne'
  simp only [ceilQuot, neg_mul]
  omega

theorem ceilQuot_mul_lt (hd : 0 < d) : ceilQuot n d * d < n + d := by
  have := Int.lt_ediv_add_one_mul_self (-n) hd
  simp only [ceilQuot, neg_mul]
  linarith

/-- `ceilQuot n d` is the least integer whose product with `d` reaches `n`. -/
theorem ceilQuot_le_iff {n d k : ℤ} (hd : 0 < d) : ceilQuot n d ≤ k ↔ n ≤ k * d := by
  constructor
  · intro h
    exact (le_ceilQuot_mul hd).trans (mul_le_mul_of_nonneg_right h hd.le)
  · intro h
    have hlt : ceilQuot n d * d < (k + 1) * d := by
      have := ceilQuot_mul_lt (n := n) hd
      linarith
    exact Int.lt_add_one_iff.mp (lt_of_mul_lt_mul_right hlt hd.le)

theorem ceilQuot_nonneg (hn : 0 ≤ n) (hd : 0 < d) : 0 ≤ ceilQuot n d := by
  by_contra h
  have := (ceilQuot_le_iff hd).mp (show ceilQuot n d ≤ -1 by omega)
  linarith

theorem ceilQuot_pos (hn : 0 < n) (hd : 0 < d) : 0 < ceilQuot n d := by
  by_contra h
  have := (ceilQuot_le_iff hd).mp (show ceilQuot n d ≤ 0 by omega)
  linarith

/-! ### The quotes -/

/-- A quote of the bonding curve. -/
structure CurveQuote where
  tokenUnits : ℤ
  /-- What goes into, or comes out of, the curve. -/
  curveSolLamports : ℤ
  protocolFeeLamports : ℤ
  networkFeeLamports : ℤ
  /-- What the wallet pays, or receives. -/
  walletSolLamports : ℤ
  /-- How far the execution price is from the spot price. -/
  priceImpactFraction : ℚ
  deriving DecidableEq, Repr

/-- `_validate_reserves`: both positive, neither above 127 bits. -/
def validateReserves (tokenReserves solReserves : ℤ) : Except QuoteError Unit := do
  raiseIf (tokenReserves ≤ 0 ∨ solReserves ≤ 0) .reservesNotPositive
  raiseIf (2 ^ 127 ≤ tokenReserves ∨ 2 ^ 127 ≤ solReserves) .reservesTooLarge

/-- The adjustment loop of `quote_buy`: count the curve input down until it and its fee
fit the budget. `0` when none does. -/
def adjustInput (budget feeBps : ℤ) : ℕ → ℕ
  | 0 => 0
  | c + 1 =>
    if (c + 1 : ℕ) + ceilQuot ((c + 1 : ℕ) * feeBps) 10000 ≤ budget then c + 1
    else adjustInput budget feeBps c

/-- The most that the budget buys. -/
def quoteBuy (virtualTokenReserves virtualSolReserves realTokenReserves
    walletTradeBudgetLamports feeBps networkFeeLamports : ℤ) : Except QuoteError CurveQuote := do
  validateReserves virtualTokenReserves virtualSolReserves
  raiseIf (realTokenReserves ≤ 0) .noRealTokens
  raiseIf (walletTradeBudgetLamports ≤ 0) .budgetNotPositive
  raiseIf (¬ (0 ≤ feeBps ∧ feeBps ≤ 10000)) .feeOutOfRange
  let curveInput : ℤ := adjustInput walletTradeBudgetLamports feeBps
    (walletTradeBudgetLamports * 10000 / (10000 + feeBps)).toNat
  raiseIf (curveInput ≤ 0) .budgetBelowFees
  let protocolFee ← ceilDiv (curveInput * feeBps) 10000
  let invariant := virtualTokenReserves * virtualSolReserves
  let nextSol := virtualSolReserves + curveInput
  let nextToken ← ceilDiv invariant nextSol
  let tokenOut := min realTokenReserves (virtualTokenReserves - nextToken)
  raiseIf (tokenOut ≤ 0) .noTokenOutput
  let spot : ℚ := virtualSolReserves / virtualTokenReserves
  let execution : ℚ := curveInput / tokenOut
  let impact := if 0 < spot then max 0 (execution / spot - 1) else 1
  return {
    tokenUnits := tokenOut
    curveSolLamports := curveInput
    protocolFeeLamports := protocolFee
    networkFeeLamports := networkFeeLamports
    walletSolLamports := curveInput + protocolFee + networkFeeLamports
    priceImpactFraction := min 1 impact }

/-- The checks of `quote_sell` on the fee components: without components there is no LP
share; with them each is a rate, they add up to `feeBps`, and the LP share is one of them
or zero. -/
def componentsConsistent (feeBps : ℤ) (feeComponents : Option (List ℤ)) (lpFeeBps : ℤ) : Bool :=
  match feeComponents with
  | none => lpFeeBps = 0
  | some parts =>
    parts.all (fun part => 0 ≤ part ∧ part ≤ 10000) ∧ parts.sum = feeBps ∧
      (lpFeeBps = 0 ∨ lpFeeBps ∈ parts)

/-- `fee_components or (fee_bps,)`: the rates the fee is ceiled by, one by one. -/
def feeParts (feeBps : ℤ) (feeComponents : Option (List ℤ)) : List ℤ :=
  match feeComponents with
  | some (part :: parts) => part :: parts
  | _ => [feeBps]

/-- The liquidity check of `quote_sell`: what leaves the vault, the gross less the LP fee
that stays in the pool, is covered by it. -/
def checkRealQuote (gross lpFeeBps : ℤ) (realQuoteReserves : Option ℤ) : Except QuoteError Unit :=
  match realQuoteReserves with
  | none => .ok ()
  | some real => do
    raiseIf (real < 0 ∨ 2 ^ 127 ≤ real) .realQuoteInvalid
    let retainedLpFee ← ceilDiv (gross * lpFeeBps) 10000
    raiseIf (gross - retainedLpFee > real) .exceedsRealQuote

/-- What a sale brings, its fees rounded up. -/
def quoteSell (virtualTokenReserves virtualSolReserves tokenUnits feeBps networkFeeLamports : ℤ)
    (realQuoteReserves : Option ℤ) (feeComponents : Option (List ℤ)) (lpFeeBps : ℤ) :
    Except QuoteError CurveQuote := do
  validateReserves virtualTokenReserves virtualSolReserves
  raiseIf (tokenUnits ≤ 0) .tokenAmountNotPositive
  raiseIf (¬ (0 ≤ feeBps ∧ feeBps ≤ 10000)) .feeOutOfRange
  raiseIf (¬ componentsConsistent feeBps feeComponents lpFeeBps) .feeComponentsInconsistent
  let invariant := virtualTokenReserves * virtualSolReserves
  let nextToken := virtualTokenReserves + tokenUnits
  let nextSol ← ceilDiv invariant nextToken
  let gross := virtualSolReserves - nextSol
  raiseIf (gross ≤ 0) .noSolOutput
  checkRealQuote gross lpFeeBps realQuoteReserves
  let fees ← (feeParts feeBps feeComponents).mapM fun part => ceilDiv (gross * part) 10000
  let protocolFee := fees.sum
  let walletReceived := gross - protocolFee - networkFeeLamports
  raiseIf (walletReceived ≤ 0) .feesExceedProceeds
  let spot : ℚ := virtualSolReserves / virtualTokenReserves
  let execution : ℚ := gross / tokenUnits
  let impact := if 0 < spot then max 0 (1 - execution / spot) else 1
  return {
    tokenUnits := tokenUnits
    curveSolLamports := gross
    protocolFeeLamports := protocolFee
    networkFeeLamports := networkFeeLamports
    walletSolLamports := walletReceived
    priceImpactFraction := min 1 impact }

/-! ### What an accepted quote is -/

theorem validateReserves_ok {t s : ℤ} {u : Unit} (h : validateReserves t s = .ok u) :
    0 < t ∧ 0 < s ∧ t < 2 ^ 127 ∧ s < 2 ^ 127 := by
  simp only [validateReserves, bind_eq_ok, raiseIf_eq_ok] at h
  obtain ⟨-, h1, h2⟩ := h
  omega

theorem adjustInput_affordable {budget feeBps : ℤ} {n : ℕ} (h : 0 < adjustInput budget feeBps n) :
    (adjustInput budget feeBps n : ℤ) + ceilQuot (adjustInput budget feeBps n * feeBps) 10000 ≤
      budget := by
  induction n with
  | zero => simp [adjustInput] at h
  | succ n ih =>
    rw [adjustInput] at h ⊢
    split_ifs at h ⊢ with hc
    · exact hc
    · exact ih h

/-- What has been checked, and what the quote is, when `quoteBuy` returns `q`. -/
structure BuyQuoted (virtualToken virtualSol realToken budget feeBps networkFee : ℤ)
    (q : CurveQuote) : Prop where
  token_pos : 0 < virtualToken
  sol_pos : 0 < virtualSol
  fee_range : 0 ≤ feeBps ∧ feeBps ≤ 10000
  curve_eq : q.curveSolLamports =
    adjustInput budget feeBps (budget * 10000 / (10000 + feeBps)).toNat
  curve_pos : 0 < q.curveSolLamports
  protocol_eq : q.protocolFeeLamports = ceilQuot (q.curveSolLamports * feeBps) 10000
  units_eq : q.tokenUnits = min realToken (virtualToken -
    ceilQuot (virtualToken * virtualSol) (virtualSol + q.curveSolLamports))
  units_pos : 0 < q.tokenUnits
  network_eq : q.networkFeeLamports = networkFee
  wallet_eq : q.walletSolLamports = q.curveSolLamports + q.protocolFeeLamports + networkFee
  impact_range : 0 ≤ q.priceImpactFraction ∧ q.priceImpactFraction ≤ 1

/-- A price impact clamped to `0..1` lies there. -/
theorem impact_clamped {c : Prop} [Decidable c] (x : ℚ) :
    0 ≤ min 1 (if c then max 0 x else 1) ∧ min 1 (if c then max 0 x else 1) ≤ 1 := by
  refine ⟨le_min zero_le_one ?_, min_le_left _ _⟩
  split_ifs
  · exact le_max_left _ _
  · exact zero_le_one

variable {q : CurveQuote} {X Y R B f n : ℤ}

/-- What a quote of a buy satisfies. -/
theorem quoteBuy_ok (h : quoteBuy X Y R B f n = .ok q) :
    BuyQuoted X Y R B f n q := by
  simp only [quoteBuy, bind_eq_ok, raiseIf_eq_ok, pure_eq_ok] at h
  obtain ⟨_, hv, _, hR, _, hB, _, hf, _, hc, p, hp, t, ht, _, hu, rfl⟩ := h
  obtain ⟨hX, hY, -, -⟩ := validateReserves_ok hv
  rw [not_not] at hf
  rw [ceilDiv_of_pos (by norm_num), Except.ok.injEq] at hp
  rw [ceilDiv_of_pos (by omega), Except.ok.injEq] at ht
  subst hp ht
  exact {
    token_pos := hX
    sol_pos := hY
    fee_range := hf
    curve_eq := rfl
    curve_pos := not_le.mp hc
    protocol_eq := rfl
    units_eq := rfl
    units_pos := not_le.mp hu
    network_eq := rfl
    wallet_eq := rfl
    impact_range := impact_clamped _ }

theorem BuyQuoted.within_budget (h : BuyQuoted X Y R B f n q) :
    q.curveSolLamports + q.protocolFeeLamports ≤ B := by
  have hc := h.curve_pos
  rw [h.protocol_eq]
  rw [h.curve_eq] at hc ⊢
  exact adjustInput_affordable (by exact_mod_cast hc)

theorem BuyQuoted.protocol_nonneg (h : BuyQuoted X Y R B f n q) :
    0 ≤ q.protocolFeeLamports := by
  rw [h.protocol_eq]
  exact ceilQuot_nonneg (mul_nonneg h.curve_pos.le h.fee_range.1) (by norm_num)

/-- A buy never empties the virtual reserve, and the product of the reserves does not
decrease across it. -/
theorem BuyQuoted.product_le (h : BuyQuoted X Y R B f n q) :
    X * Y ≤ (X - q.tokenUnits) * (Y + q.curveSolLamports) := by
  have hY : 0 < Y + q.curveSolLamports := by
    have := h.sol_pos
    have := h.curve_pos
    omega
  have hu : ceilQuot (X * Y) (Y + q.curveSolLamports) ≤ X - q.tokenUnits := by
    have := h.units_eq ▸ min_le_right R (X - ceilQuot (X * Y) (Y + q.curveSolLamports))
    omega
  exact (ceilQuot_le_iff hY).mp hu

/-- What has been checked, and what the quote is, when `quoteSell` returns `q`. -/
structure SellQuoted (virtualToken virtualSol tokenUnits feeBps networkFee : ℤ)
    (feeComponents : Option (List ℤ)) (lpFeeBps : ℤ) (q : CurveQuote) : Prop where
  token_pos : 0 < virtualToken
  sol_pos : 0 < virtualSol
  units_pos : 0 < tokenUnits
  units_eq : q.tokenUnits = tokenUnits
  fee_range : 0 ≤ feeBps ∧ feeBps ≤ 10000
  components : componentsConsistent feeBps feeComponents lpFeeBps = true
  curve_eq : q.curveSolLamports =
    virtualSol - ceilQuot (virtualToken * virtualSol) (virtualToken + tokenUnits)
  curve_pos : 0 < q.curveSolLamports
  protocol_eq : q.protocolFeeLamports =
    ((feeParts feeBps feeComponents).map fun part => ceilQuot (q.curveSolLamports * part) 10000).sum
  network_eq : q.networkFeeLamports = networkFee
  wallet_eq : q.walletSolLamports = q.curveSolLamports - q.protocolFeeLamports - networkFee
  wallet_pos : 0 < q.walletSolLamports
  impact_range : 0 ≤ q.priceImpactFraction ∧ q.priceImpactFraction ≤ 1

theorem mapM_ceilDiv (gross : ℤ) (parts : List ℤ) :
    (parts.mapM fun part => ceilDiv (gross * part) 10000) =
      .ok (parts.map fun part => ceilQuot (gross * part) 10000) := by
  have hpure : (fun part => ceilDiv (gross * part) 10000) =
      fun part => (pure (ceilQuot (gross * part) 10000) : Except QuoteError ℤ) :=
    funext fun part => ceilDiv_of_pos (by norm_num)
  rw [hpure, mapM_pure]
  rfl

variable {parts : Option (List ℤ)} {X Y t f n lp : ℤ}

/-- What a quote of a sale satisfies. -/
theorem quoteSell_ok {X Y t f n : ℤ} {real : Option ℤ} {lp : ℤ} (h : quoteSell X Y t f n real parts lp = .ok q) :
    SellQuoted X Y t f n parts lp q := by
  simp only [quoteSell, mapM_ceilDiv, bind_eq_ok, raiseIf_eq_ok, pure_eq_ok] at h
  obtain ⟨_, hv, _, ht, _, hf, _, hc, s, hs, _, hg, _, -, fees, hfees, _, hw, rfl⟩ := h
  obtain ⟨hX, hY, -, -⟩ := validateReserves_ok hv
  rw [not_not] at hf hc
  rw [ceilDiv_of_pos (by omega), Except.ok.injEq] at hs
  rw [Except.ok.injEq] at hfees
  subst hs hfees
  exact {
    token_pos := hX
    sol_pos := hY
    units_pos := not_le.mp ht
    units_eq := rfl
    fee_range := hf
    components := hc
    curve_eq := rfl
    curve_pos := not_le.mp hg
    protocol_eq := rfl
    network_eq := rfl
    wallet_eq := rfl
    wallet_pos := not_le.mp hw
    impact_range := impact_clamped _ }

theorem ceilDiv_ne_inconsistent : ceilDiv n d ≠ .error .feeComponentsInconsistent := by
  intro h
  simp only [ceilDiv, bind_eq_error, raiseIf_eq_error] at h
  rcases h with ⟨-, h⟩ | ⟨_, -, h⟩ <;> cases h

theorem quoteSell_inconsistent {X Y t f n : ℤ} {real : Option ℤ} {lp : ℤ}
    (h : quoteSell X Y t f n real parts lp = .error .feeComponentsInconsistent) :
    componentsConsistent f parts lp = false := by
  simp only [quoteSell, mapM_ceilDiv, bind_eq_error, raiseIf_eq_error] at h
  rcases h with h | ⟨_, -, ⟨-, h⟩ | ⟨_, -, ⟨-, h⟩ | ⟨_, -, ⟨h, -⟩ | ⟨_, -, h⟩⟩⟩⟩
  · simp only [validateReserves, bind_eq_error, raiseIf_eq_error] at h
    rcases h with ⟨-, h⟩ | ⟨_, -, -, h⟩ <;> cases h
  · cases h
  · cases h
  · simpa using h
  · rcases h with h | ⟨_, -, ⟨-, h⟩ | ⟨_, -, h | ⟨_, -, h | ⟨_, -, ⟨-, h⟩ | ⟨_, -, h⟩⟩⟩⟩⟩
    · exact absurd h ceilDiv_ne_inconsistent
    · cases h
    · unfold checkRealQuote at h
      split at h
      · cases h
      · simp only [bind_eq_error, raiseIf_eq_error] at h
        rcases h with ⟨-, h⟩ | ⟨_, -, h | ⟨_, -, -, h⟩⟩
        · cases h
        · exact absurd h ceilDiv_ne_inconsistent
        · cases h
    · cases h
    · cases h
    · cases h

section

variable (h : SellQuoted X Y t f n parts lp q)
include h

theorem SellQuoted.part_nonneg {part : ℤ} (hp : part ∈ feeParts f parts) : 0 ≤ part := by
  have hc := h.components
  match parts with
  | none | some [] =>
    rw [feeParts, mem_singleton] at hp
    · exact hp ▸ h.fee_range.1
    · simp
  | some (a :: l) =>
    simp only [componentsConsistent, decide_eq_true_eq, all_eq_true] at hc
    exact (hc.1 part hp).1

theorem SellQuoted.parts_sum : (feeParts f parts).sum = f := by
  have hc := h.components
  match parts with
  | none | some [] => simp [feeParts]
  | some (a :: l) =>
    simp only [componentsConsistent, decide_eq_true_eq] at hc
    exact hc.2.1

theorem SellQuoted.protocol_nonneg : 0 ≤ q.protocolFeeLamports := by
  rw [h.protocol_eq]
  refine sum_nonneg fun x hx => ?_
  obtain ⟨part, hp, rfl⟩ := mem_map.mp hx
  exact ceilQuot_nonneg (mul_nonneg h.curve_pos.le (h.part_nonneg hp)) (by norm_num)

theorem SellQuoted.protocol_pos (hf : 0 < f) : 0 < q.protocolFeeLamports := by
  obtain ⟨part, hp, hpos⟩ : ∃ part ∈ feeParts f parts, 0 < part := by
    by_contra hnone
    push Not at hnone
    have := sum_le_card_nsmul _ 0 hnone
    rw [h.parts_sum, nsmul_zero] at this
    omega
  rw [h.protocol_eq]
  have hnonneg : ∀ x ∈ (feeParts f parts).map fun part => ceilQuot (q.curveSolLamports * part) 10000,
      0 ≤ x := by
    intro x hx
    obtain ⟨part', hp', rfl⟩ := mem_map.mp hx
    exact ceilQuot_nonneg (mul_nonneg h.curve_pos.le (h.part_nonneg hp')) (by norm_num)
  calc 0 < ceilQuot (q.curveSolLamports * part) 10000 :=
        ceilQuot_pos (mul_pos h.curve_pos hpos) (by norm_num)
    _ ≤ _ := single_le_sum hnonneg _ (mem_map_of_mem hp)

theorem SellQuoted.product_le : X * Y ≤ (X + t) * (Y - q.curveSolLamports) := by
  have ht : 0 < X + t := by
    have := h.token_pos
    have := h.units_pos
    omega
  have := le_ceilQuot_mul (n := X * Y) ht
  rw [h.curve_eq]
  linarith

end

/-! ### Round trips -/

variable {X Y R B f n f' n' lp t : ℤ} {real : Option ℤ} {parts : Option (List ℤ)} {q s : CurveQuote}

theorem sell_unchanged_lt (hq : BuyQuoted X Y R B f n q)
    (hs : SellQuoted X Y q.tokenUnits f' n' parts lp s) : s.curveSolLamports < q.curveSolLamports := by
  have hbuy : q.tokenUnits * (Y + q.curveSolLamports) ≤ X * q.curveSolLamports := by
    linarith [hq.product_le]
  have hsell : s.curveSolLamports * (X + q.tokenUnits) ≤ Y * q.tokenUnits := by
    linarith [hs.product_le]
  have hpos : 0 < q.curveSolLamports * q.tokenUnits := mul_pos hq.curve_pos hq.units_pos
  -- Otherwise the two bounds would make the product of input and output nonpositive.
  by_contra hle
  have hmul := mul_le_mul_of_nonneg_right (not_lt.mp hle)
    (add_pos hq.token_pos hq.units_pos).le
  linarith

/-- Selling what was bought into the reserves the buy leaves returns at most what was
spent. -/
theorem sell_after_buy_le (hq : BuyQuoted X Y R B f n q)
    (hs : SellQuoted (X - q.tokenUnits) (Y + q.curveSolLamports) q.tokenUnits f' n' parts lp s) :
    s.curveSolLamports ≤ q.curveSolLamports := by
  have hX := hq.token_pos
  have hpost : X * Y ≤ X * (Y + q.curveSolLamports - s.curveSolLamports) := by
    have hs' := hs.product_le
    rw [show X - q.tokenUnits + q.tokenUnits = X by ring] at hs'
    exact hq.product_le.trans hs'
  have := le_of_mul_le_mul_left hpost hX
  omega

/-- **No money pump**: what a buy returned, sold back, brings in at most what went into
the curve, and the wallet gets back at most what it paid for the trade, strictly less unless
the sale is quoted against the reserves the buy leaves and neither side charges any fee. The
product of the reserves decreases across neither trade. -/
theorem roundTrip_bound (hn' : 0 ≤ n') (hq : quoteBuy X Y R B f n = .ok q) :
    X * Y ≤ (X - q.tokenUnits) * (Y + q.curveSolLamports) ∧
    (∀ f' real parts lp s, quoteSell X Y q.tokenUnits f' n' real parts lp = .ok s →
      s.curveSolLamports ≤ q.curveSolLamports ∧
      s.walletSolLamports < q.walletSolLamports - q.networkFeeLamports ∧
      X * Y ≤ (X + q.tokenUnits) * (Y - s.curveSolLamports)) ∧
    (∀ f' real parts lp s,
      quoteSell (X - q.tokenUnits) (Y + q.curveSolLamports) q.tokenUnits f' n' real parts lp = .ok s →
      s.curveSolLamports ≤ q.curveSolLamports ∧
      s.walletSolLamports ≤ q.walletSolLamports - q.networkFeeLamports ∧
      (0 < f ∨ 0 < f' ∨ 0 < n' →
        s.walletSolLamports < q.walletSolLamports - q.networkFeeLamports) ∧
      (X - q.tokenUnits) * (Y + q.curveSolLamports) ≤
        (X - q.tokenUnits + q.tokenUnits) * (Y + q.curveSolLamports - s.curveSolLamports)) := by
  have hb := quoteBuy_ok hq
  have hwallet := hb.wallet_eq
  have hnet := hb.network_eq
  have hbuyFee := hb.protocol_nonneg
  refine ⟨hb.product_le, fun f' real parts lp s hs => ?_, fun f' real parts lp s hs => ?_⟩
  · have hk := quoteSell_ok hs
    have hlt := sell_unchanged_lt hb hk
    have hsellFee := hk.protocol_nonneg
    have hsellWallet := hk.wallet_eq
    exact ⟨hlt.le, by omega, hk.product_le⟩
  · have hk := quoteSell_ok hs
    have hle := sell_after_buy_le hb hk
    have hsellFee := hk.protocol_nonneg
    have hsellWallet := hk.wallet_eq
    refine ⟨hle, by omega, fun hfee => ?_, hk.product_le⟩
    -- Some fee is positive, and a positive rate costs at least one lamport.
    rcases hfee with hf | hf | hf
    · have : 0 < q.protocolFeeLamports := by
        rw [hb.protocol_eq]
        exact ceilQuot_pos (mul_pos hb.curve_pos hf) (by norm_num)
      omega
    · have := hk.protocol_pos hf
      omega
    · omega

/-- A buy of 100 lamports at 1%, and its sale into the unchanged reserves and into those the
buy leaves. -/
theorem roundTrip_bound_sample :
    ∃ q s s' : CurveQuote, quoteBuy 1000 1000 1000 100 100 5 = .ok q ∧
      quoteSell 1000 1000 q.tokenUnits 100 5 none none 0 = .ok s ∧
      quoteSell (1000 - q.tokenUnits) (1000 + q.curveSolLamports) q.tokenUnits 100 5 none none 0 =
        .ok s' ∧
      s.walletSolLamports < q.walletSolLamports - q.networkFeeLamports ∧
      s'.walletSolLamports < q.walletSolLamports - q.networkFeeLamports := by
  have hq : quoteBuy 1000 1000 1000 100 100 5 = .ok ⟨90, 99, 1, 5, 105, 1 / 10⟩ := by decide +kernel
  have hs : quoteSell 1000 1000 90 100 5 none none 0 = .ok ⟨90, 82, 1, 5, 76, 4 / 45⟩ := by
    decide +kernel
  have hs' : quoteSell (1000 - 90) (1000 + 99) 90 100 5 none none 0 =
      .ok ⟨90, 98, 1, 5, 92, 139 / 1413⟩ := by decide +kernel
  have h := roundTrip_bound (show (0 : ℤ) ≤ 5 by decide) hq
  exact ⟨_, _, _, hq, hs, hs', (h.2.1 100 none none 0 _ hs).2.1,
    (h.2.2 100 none none 0 _ hs').2.2.1 (Or.inl (by decide))⟩

/-- Without any fee a round trip through the reserves the buy leaves breaks even: the
wallet gets back exactly what it paid. -/
theorem roundTrip_breakEven :
    ∃ q s, quoteBuy 100 100 100 100 0 0 = .ok q ∧
      quoteSell (100 - q.tokenUnits) (100 + q.curveSolLamports) q.tokenUnits 0 0 none none 0 = .ok s ∧
      ¬ s.walletSolLamports < q.walletSolLamports - 0 :=
  ⟨_, _, rfl, rfl, by decide⟩

end SignalArcade.Paper
