import SignalArcade.Paper.Books

/-!
# The receipt of a fill

What the broker writes down when it fills an order, and why nobody objects. The receipt
satisfies the commit validator, its ledger lines balance and are not negative, and the
audit quotes the same amounts again.
-/

namespace SignalArcade.Paper

open Checked List

variable {env : Env} {price : Option ℚ} {rounding : Rounding}

/-! ### Conversions -/

theorem convertedMinor_mono {x y : ℤ} {p : ℚ} (hp : 0 ≤ p) (hx : 0 ≤ x) (h : x ≤ y) :
    convertedMinor x p ≤ convertedMinor y p := by
  have hx' : (0 : ℚ) ≤ x := by exact_mod_cast hx
  have hxy : (x : ℚ) ≤ y := by exact_mod_cast h
  have hprice : decimal (x * p) ≤ decimal (y * p) :=
    Decimal.round_mono (mul_nonneg hx' hp) (mul_le_mul_of_nonneg_right hxy hp)
  have hprice0 : 0 ≤ decimal (x * p) := Decimal.round_nonneg (mul_nonneg hx' hp)
  have hunits0 : (0 : ℚ) ≤ usdcMinorPerUnit := by norm_num [usdcMinorPerUnit]
  have hunits : decimal (decimal (x * p) * usdcMinorPerUnit) ≤ decimal (decimal (y * p) * usdcMinorPerUnit) :=
    Decimal.round_mono (mul_nonneg hprice0 hunits0) (mul_le_mul_of_nonneg_right hprice hunits0)
  have hlamports : (0 : ℚ) ≤ lamportsPerSol := by norm_num [lamportsPerSol]
  exact Decimal.round_mono (div_nonneg (Decimal.round_nonneg (mul_nonneg hprice0 hunits0)) hlamports)
    (div_le_div_of_nonneg_right hunits hlamports)

theorem Rounding.apply_mono {p q : ℚ} (h : p ≤ q) : rounding.apply p ≤ rounding.apply q := by
  cases rounding with
  | ceiling => exact Int.ceil_mono h
  | floor => exact Int.floor_mono h

/-- **A conversion respects the order of amounts**, and does not fail for one of two. -/
theorem accountMinorFromSol_mono {x y b : ℤ} (hx : 0 ≤ x) (h : x ≤ y)
    (hy : accountMinorFromSol env y price rounding = some b) :
    ∃ a, accountMinorFromSol env x price rounding = some a ∧ a ≤ b := by
  unfold accountMinorFromSol at hy ⊢
  cases hc : env.quoteCurrency with
  | sol =>
    simp only [hc, Option.some.injEq] at hy
    exact ⟨x, rfl, hy ▸ h⟩
  | usdc =>
    simp only [hc, Option.map_eq_some_iff] at hy ⊢
    obtain ⟨p, hp, rfl⟩ := hy
    have hpos : 0 ≤ p := by
      rw [acceptablePrice, Option.filter_eq_some_iff] at hp
      exact (of_decide_eq_true hp.2).1.le
    exact ⟨_, ⟨p, hp, rfl⟩, max_le_max le_rfl (Rounding.apply_mono (convertedMinor_mono hpos hx h))⟩

theorem accountMinorFromSol_nonneg {x a : ℤ} (hx : 0 ≤ x)
    (h : accountMinorFromSol env x price rounding = some a) : 0 ≤ a := by
  unfold accountMinorFromSol at h
  cases hc : env.quoteCurrency with
  | sol =>
    simp only [hc, Option.some.injEq] at h
    exact h ▸ hx
  | usdc =>
    simp only [hc, Option.map_eq_some_iff] at h
    obtain ⟨p, -, rfl⟩ := h
    exact le_max_left _ _

theorem accountMinorFromSol_sol (h : env.quoteCurrency = .sol) (x : ℤ) :
    accountMinorFromSol env x price rounding = some x := by
  rw [accountMinorFromSol, h]

/-! ### What a quote comes to -/

variable {o : PaperOrder} {state : TokenState} {position : Option Position} {now : Instant}
  {quote : CurveQuote} {values : AccountValues}

/-- The quote adds up, and its amounts can be paid. -/
structure Payable (side : Side) (quote : CurveQuote) (networkFee : ℤ) : Prop where
  curve_nonneg : 0 ≤ quote.curveSolLamports
  protocol_nonneg : 0 ≤ quote.protocolFeeLamports
  network_eq : quote.networkFeeLamports = networkFee
  wallet_nonneg : 0 ≤ quote.walletSolLamports
  wallet_eq : quote.walletSolLamports = match side with
    | .buy => quote.curveSolLamports + quote.protocolFeeLamports + quote.networkFeeLamports
    | .sell => quote.curveSolLamports - quote.protocolFeeLamports - quote.networkFeeLamports

theorem Payable.wallet_buy {networkFee : ℤ} (h : Payable .buy quote networkFee) : quote.walletSolLamports =
    quote.curveSolLamports + quote.protocolFeeLamports + quote.networkFeeLamports := h.wallet_eq

theorem Payable.wallet_sell {networkFee : ℤ} (h : Payable .sell quote networkFee) : quote.walletSolLamports =
    quote.curveSolLamports - quote.protocolFeeLamports - quote.networkFeeLamports := h.wallet_eq

theorem Settings.oneWayFee_nonneg (settings : Settings) : 0 ≤ settings.oneWayFee := by
  unfold Settings.oneWayFee
  omega

theorem orderQuote_ok (h : orderQuote env o state position now = .ok (some quote)) :
    (o.side = .buy ∧ quoteBuy state.virtualTokenReserves state.virtualQuoteReserves state.realTokenReserves
      o.requestedSolLamports (state.feeRate env.settings) env.settings.oneWayFee = .ok quote) ∨
    (o.side = .sell ∧ ∃ p, position = some p ∧ p.openedAt ≤ now ∧
      sellQuote env state p.tokenUnits = .ok quote) := by
  unfold orderQuote at h
  cases hside : o.side with
  | buy =>
    simp only [hside] at h
    split at h
    · cases h
    · next quote' hquote =>
      cases h
      exact .inl ⟨rfl, hquote⟩
  | sell =>
    simp only [hside] at h
    cases position with
    | none => cases h
    | some p =>
      dsimp only at h
      split_ifs at h with hopen
      · cases h
      · split at h
        · cases h
        · next quote' hquote =>
          cases h
          exact .inr ⟨rfl, p, rfl, not_lt.mp hopen, hquote⟩

theorem orderQuote_payable (h : orderQuote env o state position now = .ok (some quote)) :
    Payable o.side quote env.settings.oneWayFee := by
  have hfee := env.settings.oneWayFee_nonneg
  rcases orderQuote_ok h with ⟨hside, hquote⟩ | ⟨hside, p, -, -, hquote⟩
  · have hq := quoteBuy_ok hquote
    have hcurve := hq.curve_pos
    have hprotocol := hq.protocol_nonneg
    have hwallet := hq.wallet_eq
    exact ⟨hcurve.le, hprotocol, hq.network_eq, by omega, by rw [hside, hwallet, hq.network_eq]⟩
  · have hq := quoteSell_ok hquote
    exact ⟨hq.curve_pos.le, hq.protocol_nonneg, hq.network_eq, hq.wallet_pos.le,
      by rw [hside, hq.wallet_eq, hq.network_eq]⟩

theorem accountFillValues_buy (hq : Payable .buy quote env.settings.oneWayFee)
    (h : accountFillValues env .buy quote price = some values) :
    accountMinorFromSol env quote.walletSolLamports price .ceiling = some values.net ∧
      0 ≤ values.networkFee ∧ values.networkFee ≤ values.net := by
  simp only [accountFillValues, Option.bind_eq_bind, Option.bind_eq_some_iff, Option.pure_def,
    Option.some.injEq] at h
  obtain ⟨total, htotal, protocol, hprotocol, network, hnetwork, rfl⟩ := h
  have hfee : 0 ≤ quote.networkFeeLamports := hq.network_eq ▸ env.settings.oneWayFee_nonneg
  have hle : quote.networkFeeLamports ≤ quote.walletSolLamports := by
    have hwallet := hq.wallet_buy
    have hcurve := hq.curve_nonneg
    have hprotocol := hq.protocol_nonneg
    omega
  obtain ⟨network', hnetwork', hle'⟩ := accountMinorFromSol_mono hfee hle htotal
  obtain rfl := Option.some.inj (hnetwork.symm.trans hnetwork')
  exact ⟨htotal, accountMinorFromSol_nonneg hfee hnetwork, hle'⟩

theorem accountFillValues_sell (hq : Payable .sell quote env.settings.oneWayFee)
    (h : accountFillValues env .sell quote price = some values) :
    0 ≤ values.net ∧ 0 ≤ values.protocolFee ∧ 0 ≤ values.networkFee ∧
      values.gross = values.net + values.protocolFee + values.networkFee := by
  simp only [accountFillValues, Option.bind_eq_bind, Option.bind_eq_some_iff, Option.pure_def,
    Option.some.injEq] at h
  obtain ⟨net, hnet, protocol, hprotocol, network, hnetwork, rfl⟩ := h
  have hfee : 0 ≤ quote.networkFeeLamports := hq.network_eq ▸ env.settings.oneWayFee_nonneg
  exact ⟨accountMinorFromSol_nonneg hq.wallet_nonneg hnet, accountMinorFromSol_nonneg hq.protocol_nonneg hprotocol,
    accountMinorFromSol_nonneg hfee hnetwork, rfl⟩

theorem accountFillValues_sol {side : Side} (hc : env.quoteCurrency = .sol)
    (hq : Payable side quote env.settings.oneWayFee) (h : accountFillValues env side quote price = some values) :
    values = ⟨quote.curveSolLamports, quote.protocolFeeLamports, quote.networkFeeLamports,
      quote.walletSolLamports⟩ := by
  have hcurve := hq.curve_nonneg
  cases side with
  | buy =>
    have hwallet := hq.wallet_buy
    simp only [accountFillValues, accountMinorFromSol_sol hc, Option.bind_eq_bind, Option.bind_some,
      Option.pure_def, Option.some.injEq] at h
    rw [← h, hwallet, AccountValues.mk.injEq]
    refine ⟨?_, rfl, rfl, rfl⟩
    rw [max_eq_right] <;> omega
  | sell =>
    have hwallet := hq.wallet_sell
    simp only [accountFillValues, accountMinorFromSol_sol hc, Option.bind_eq_bind, Option.bind_some,
      Option.pure_def, Option.some.injEq] at h
    rw [← h, AccountValues.mk.injEq]
    refine ⟨?_, rfl, rfl, rfl⟩
    omega

/-- **A buy costs no more than its request comes to at the same price.** -/
theorem net_le_required (hside : o.side = .buy) (hquote : orderQuote env o state position now = .ok (some quote))
    (h : accountFillValues env o.side quote price = some values) :
    ∃ required, requiredMinor env o.requestedSolLamports price = some required ∧ values.net ≤ required := by
  have hpay := orderQuote_payable hquote
  rw [hside] at h hpay
  obtain ⟨hnet, -, -⟩ := accountFillValues_buy hpay h
  rcases orderQuote_ok hquote with ⟨-, hbuy⟩ | ⟨hsell, -⟩
  · have hbudget := (quoteBuy_ok hbuy).within_budget
    have hwallet := hpay.wallet_buy
    have hnetwork := hpay.network_eq
    have hle : quote.walletSolLamports ≤ o.requestedSolLamports + env.settings.oneWayFee := by omega
    -- the conversion of the larger amount does not fail either
    have hsome : ∃ required, requiredMinor env o.requestedSolLamports price = some required := by
      unfold requiredMinor accountMinorFromSol at *
      cases hc : env.quoteCurrency with
      | sol => exact ⟨_, rfl⟩
      | usdc =>
        simp only [hc, Option.map_eq_some_iff] at hnet ⊢
        obtain ⟨p, hp, -⟩ := hnet
        exact ⟨_, p, hp, rfl⟩
    obtain ⟨required, hrequired⟩ := hsome
    obtain ⟨net, hnet', hle'⟩ := accountMinorFromSol_mono hpay.wallet_nonneg hle hrequired
    obtain rfl := Option.some.inj (hnet.symm.trans hnet')
    exact ⟨required, hrequired, hle'⟩
  · rw [hside] at hsell
    cases hsell

/-! ### The receipt -/

variable {fillId : ℕ} {src : String}

theorem fillReceipt_migrated (hq : Payable o.side quote env.settings.oneWayFee)
    (h : accountFillValues env o.side quote price = some values) :
    (fillReceipt env fillId o state src now price position quote values).migrated =
      fillReceipt env fillId o state src now price position quote values := by
  unfold FillReceipt.migrated
  split_ifs with hcurrency
  · rfl
  · rw [not_or, not_ne_iff] at hcurrency
    have hvalues := accountFillValues_sol hcurrency.1 hq h
    subst hvalues
    rfl

theorem buyEntries_accepted {r : FillReceipt} (hnetwork : 0 ≤ r.accountNetworkFeeMinor)
    (hle : r.accountNetworkFeeMinor ≤ r.accountNetMinor) (e : CommitError) :
    validatedLedgerEntries (.fill r.fillId) r.filledAt (buyEntries r) ≠ .error e := by
  refine validatedLedgerEntries_accepts (by simp [buyEntries]) (fun entry hentry => ?_) e
  simp only [buyEntries, mem_cons, not_mem_nil, or_false] at hentry
  rcases hentry with rfl | rfl | rfl <;> constructor <;> simp only <;> omega

theorem sellEntries_accepted {r : FillReceipt} {holding : Holding} (hnet : 0 ≤ r.accountNetMinor)
    (hprotocol : 0 ≤ r.accountProtocolFeeMinor) (hnetwork : 0 ≤ r.accountNetworkFeeMinor)
    (hgross : r.accountGrossMinor = r.accountNetMinor + r.accountProtocolFeeMinor + r.accountNetworkFeeMinor)
    (hbook : 0 ≤ holding.bookValueLamports) (e : CommitError) :
    validatedLedgerEntries (.fill r.fillId) r.filledAt (sellEntries r holding) ≠ .error e := by
  refine validatedLedgerEntries_accepts ?_ (fun entry hentry => ?_) e
  · unfold sellEntries
    split_ifs <;> simp only [map_cons, map_nil, sum_cons, sum_nil] <;> omega
  · unfold sellEntries at hentry
    split_ifs at hentry with hgain <;> simp only [mem_cons, not_mem_nil, or_false] at hentry
    -- the result of the sell is a gain or a loss, of what is left
    · rcases hentry with rfl | rfl | rfl | rfl <;> constructor <;> simp only <;> omega
    · rcases hentry with rfl | rfl | rfl | rfl <;> constructor <;> simp only <;> omega

/-- **The receipt and its filled order pass the validator**, with the position that is opened
or closed. -/
theorem fillReceipt_valid {holding : Holding} (hlatency : o.createdAt ≤ o.fillAfter)
    (hdue : o.createdAt ≤ now ∧ o.fillAfter ≤ now) (hobserved : ∀ t ∈ state.reserveObservedAt, t ≤ now)
    (hmint : holding.mint = o.mint)
    (hbuy : o.side = .buy → holding.entryFillId = fillId ∧ holding.openedAt = now)
    (hsell : o.side = .sell → ∃ p, position = some p ∧ p.toHolding = holding ∧ p.openedAt ≤ now) :
    FillCommitValid (o.filled now) (fillReceipt env fillId o state src now price position quote values)
      holding where
  same_order := ⟨rfl, rfl, rfl, rfl⟩
  latency := hlatency
  filled_at := rfl
  due := hdue
  reserve := fun reserve hr => by
    obtain rfl := Option.some.inj hr
    refine ⟨?_, rfl⟩
    show state.reserveObservedAt.getD now ≤ now
    cases hobs : state.reserveObservedAt with
    | none => exact le_rfl
    | some t => exact hobserved t hobs
  mint := hmint
  buy := hbuy
  sell := fun hside => by
    obtain ⟨p, rfl, rfl, hopened⟩ := hsell hside
    exact ⟨hopened, .inr rfl⟩

theorem feeProvenance_source (side : Side) : (state.feeProvenance side).source = "observed_event" ∨
    (state.feeProvenance side).source = "configured_fallback" := by
  show state.feeSource = _ ∨ state.feeSource = _
  unfold TokenState.feeSource
  split_ifs
  · exact .inl rfl
  · exact .inr rfl

theorem feeProvenance_wellFormed {units feeBps networkFee : ℤ}
    (hq : SellQuoted state.virtualTokenReserves state.virtualQuoteReserves units feeBps networkFee
      state.reserveFeeComponents state.reserveLpFeeBps quote)
    (hfew : ∀ parts ∈ state.reserveFeeComponents, parts.length ≤ 16) :
    (state.feeProvenance .sell).wellFormed .sell = true := by
  have hc := hq.components
  unfold FeeProvenance.wellFormed TokenState.feeProvenance
  cases hparts : state.reserveFeeComponents with
  | none =>
    rw [hparts] at hc
    simp only [componentsConsistent, decide_eq_true_eq] at hc
    simp [hc]
  | some parts =>
    rw [hparts] at hc
    simp only [componentsConsistent, decide_eq_true_eq, all_eq_true] at hc
    obtain ⟨hrates, -, hlp⟩ := hc
    have hlpRange : 0 ≤ state.reserveLpFeeBps ∧ state.reserveLpFeeBps ≤ 10000 := by
      rcases hlp with h0 | hmem
      · omega
      · exact hrates _ hmem
    simp [hlpRange, hfew parts hparts]
    exact fun part hpart => hrates part hpart

/-- **The receipt replays**, when the audit reads its fee components. -/
theorem fillReceipt_replays (hquote : orderQuote env o state position now = .ok (some quote))
    (hfew : (fillReceipt env fillId o state src now price position quote values).fewComponents) :
    feeQuoteReplayStatus (fillReceipt env fillId o state src now price position quote values)
      (some (o.filled now)) = .matched := by
  have hpay := orderQuote_payable hquote
  refine replay_matched_iff.mpr ⟨state.feeProvenance o.side, state.reserveSnapshot env.settings now, rfl, rfl,
    rfl, feeProvenance_source o.side, ⟨rfl, rfl, rfl⟩, ?_, quote, ?_, rfl, rfl, rfl, rfl, rfl⟩
  · show (state.feeProvenance o.side).wellFormed o.side = true
    rcases orderQuote_ok hquote with ⟨hside, -⟩ | ⟨hside, p, -, -, hsell⟩
    · rw [hside]
      rfl
    · rw [hside]
      refine feeProvenance_wellFormed (quoteSell_ok hsell) fun parts hparts => ?_
      refine hfew _ rfl parts ?_
      simp only [TokenState.feeProvenance, hside, if_true]
      exact hparts
  · rcases orderQuote_ok hquote with ⟨hside, hbuy⟩ | ⟨hside, p, -, -, hsell⟩
    · have hfill : (fillReceipt env fillId o state src now price position quote values).side = .buy := hside
      rw [replayQuote, hfill]
      show quoteBuy _ _ _ _ _ quote.networkFeeLamports = _
      rw [hpay.network_eq]
      exact hbuy
    · have hfill : (fillReceipt env fillId o state src now price position quote values).side = .sell := hside
      rw [replayQuote, hfill]
      show quoteSell _ _ quote.tokenUnits _ quote.networkFeeLamports _
        (if o.side = .sell then state.reserveFeeComponents else none)
        (if o.side = .sell then state.reserveLpFeeBps else 0) = _
      rw [hpay.network_eq, (quoteSell_ok hsell).units_eq, if_pos hside, if_pos hside]
      exact hsell

end SignalArcade.Paper
