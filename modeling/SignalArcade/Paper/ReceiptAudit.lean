import SignalArcade.Paper.Models

/-!
# Replaying receipts

`fee_quote_replay_status`: the quote of a fill is computed again from its receipt and
its order alone, and compared with what the receipt records.
-/

namespace SignalArcade.Paper

/-- What the audit answers. -/
inductive ReplayStatus where
  | unavailable | invalidInputs | matched | mismatch
  deriving DecidableEq

/-- The recipe's components and LP share fit the side and the rounding it names. -/
def FeeProvenance.wellFormed (recipe : FeeProvenance) (side : Side) : Bool :=
  decide (0 ≤ recipe.lpFeeBps ∧ recipe.lpFeeBps ≤ 10000) &&
    match recipe.feeComponents with
    | none => decide (recipe.rounding = "aggregate" ∧ recipe.lpFeeBps = 0)
    | some parts => decide (side = .sell ∧ recipe.rounding = "components" ∧ parts.length ≤ 16 ∧
        ∀ part ∈ parts, 0 ≤ part ∧ part ≤ 10000)

/-- The quote, computed again. -/
def replayQuote (fill : FillReceipt) (recipe : FeeProvenance) (reserve : ExecutionReserveSnapshot)
    (order : PaperOrder) : Except QuoteError CurveQuote :=
  match fill.side with
  | .buy => quoteBuy reserve.virtualTokenReserves reserve.virtualQuoteReserves reserve.realTokenReserves
      order.requestedSolLamports reserve.feeBps fill.networkFeeLamports
  | .sell => quoteSell reserve.virtualTokenReserves reserve.virtualQuoteReserves fill.tokenUnits
      reserve.feeBps fill.networkFeeLamports reserve.realQuoteReserves recipe.feeComponents recipe.lpFeeBps

/-- The receipt has the amounts of the quote. -/
def FillReceipt.records (fill : FillReceipt) (quote : CurveQuote) : Prop :=
  quote.tokenUnits = fill.tokenUnits ∧ quote.curveSolLamports = fill.grossSolLamports ∧
    quote.protocolFeeLamports = fill.protocolFeeLamports ∧
    quote.networkFeeLamports = fill.networkFeeLamports ∧ quote.walletSolLamports = fill.netSolLamports

instance (fill : FillReceipt) (quote : CurveQuote) : Decidable (fill.records quote) :=
  inferInstanceAs (Decidable (_ ∧ _ ∧ _ ∧ _ ∧ _))

/-- What comes of quoting the fill again. -/
def feeQuoteReplayStatus (fill : FillReceipt) (order : Option PaperOrder) : ReplayStatus :=
  match fill.executionFeeProvenance, fill.reserveSnapshot, order with
  | some recipe, some reserve, some order =>
    if recipe.version ≠ 1 then .unavailable
    else if (recipe.source ≠ "observed_event" ∧ recipe.source ≠ "configured_fallback") ∨
        order.orderId ≠ fill.orderId ∨ order.mint ≠ fill.mint ∨ order.side ≠ fill.side then .invalidInputs
    else if recipe.wellFormed fill.side = false then .invalidInputs
    else match replayQuote fill recipe reserve order with
      | .error _ => .invalidInputs
      | .ok quote => if fill.records quote then .matched else .mismatch
  | _, _, _ => .unavailable

/-- The receipt has no more fee components than the audit reads. -/
def FillReceipt.fewComponents (fill : FillReceipt) : Prop :=
  ∀ recipe ∈ fill.executionFeeProvenance, ∀ parts ∈ recipe.feeComponents, parts.length ≤ 16

instance (fill : FillReceipt) : Decidable fill.fewComponents :=
  inferInstanceAs (Decidable (∀ recipe ∈ fill.executionFeeProvenance, ∀ parts ∈ recipe.feeComponents,
    parts.length ≤ 16))

/-! ### What matching means -/

/-- The receipt replays with the order: its recipe is one the audit knows, and the quote
computed again is the one it records. -/
structure Replays (fill : FillReceipt) (recipe : FeeProvenance) (reserve : ExecutionReserveSnapshot)
    (order : PaperOrder) : Prop where
  recipe_eq : fill.executionFeeProvenance = some recipe
  reserve_eq : fill.reserveSnapshot = some reserve
  version : recipe.version = 1
  source : recipe.source = "observed_event" ∨ recipe.source = "configured_fallback"
  order_matches : order.orderId = fill.orderId ∧ order.mint = fill.mint ∧ order.side = fill.side
  wellFormed : recipe.wellFormed fill.side = true
  quoted : ∃ quote, replayQuote fill recipe reserve order = .ok quote ∧ fill.records quote

/-- The match, as one quote. -/
theorem replay_matched_iff {fill : FillReceipt} {order : PaperOrder} :
    feeQuoteReplayStatus fill (some order) = .matched ↔ ∃ recipe reserve, Replays fill recipe reserve order := by
  constructor
  · intro h
    unfold feeQuoteReplayStatus at h
    split at h
    · next recipe reserve order' hrecipe hreserve horder =>
      obtain rfl := Option.some.inj horder
      split_ifs at h with hversion hmatch hformed
      split at h
      · cases h
      · next quote hquote =>
        split_ifs at h with hrecords
        refine ⟨recipe, reserve, hrecipe, hreserve, not_ne_iff.mp hversion, ?_, ?_, by simpa using hformed,
          quote, hquote, hrecords⟩ <;> tauto
    · cases h
  · rintro ⟨recipe, reserve, h⟩
    obtain ⟨quote, hquote, hrecords⟩ := h.quoted
    obtain ⟨hid, hmint, hside⟩ := h.order_matches
    simp only [feeQuoteReplayStatus, h.recipe_eq, h.reserve_eq, h.version, hid, hmint, hside, h.wellFormed,
      hquote, if_pos hrecords]
    rcases h.source with hs | hs <;> simp [hs]

theorem replayQuote_wallet {fill : FillReceipt} {recipe : FeeProvenance} {reserve : ExecutionReserveSnapshot}
    {order : PaperOrder} {quote : CurveQuote} (h : replayQuote fill recipe reserve order = .ok quote) :
    quote.networkFeeLamports = fill.networkFeeLamports ∧
      quote.walletSolLamports = match fill.side with
        | .buy => quote.curveSolLamports + quote.protocolFeeLamports + quote.networkFeeLamports
        | .sell => quote.curveSolLamports - quote.protocolFeeLamports - quote.networkFeeLamports := by
  unfold replayQuote at h
  cases hside : fill.side with
  | buy =>
    rw [hside] at h
    have hq := quoteBuy_ok h
    exact ⟨hq.network_eq, by rw [hq.wallet_eq, hq.network_eq]⟩
  | sell =>
    rw [hside] at h
    have hq := quoteSell_ok h
    exact ⟨hq.network_eq, by rw [hq.wallet_eq, hq.network_eq]⟩

variable {fill : FillReceipt} {order : PaperOrder}

theorem Replays.inputs_eq {fill' : FillReceipt} {recipe recipe' : FeeProvenance}
    {reserve reserve' : ExecutionReserveSnapshot} (h : Replays fill recipe reserve order)
    (h' : Replays fill' recipe' reserve' order)
    (hrecipe : fill'.executionFeeProvenance = fill.executionFeeProvenance)
    (hreserve : fill'.reserveSnapshot = fill.reserveSnapshot) : recipe' = recipe ∧ reserve' = reserve := by
  have hr := h'.recipe_eq
  have hs := h'.reserve_eq
  rw [hrecipe, h.recipe_eq, Option.some_inj] at hr
  rw [hreserve, h.reserve_eq, Option.some_inj] at hs
  exact ⟨hr.symm, hs.symm⟩

/-- A receipt with another gross amount, protocol fee or net amount is compared with the
same quote. -/
theorem matched_amounts {gross protocol net : ℤ} (h : feeQuoteReplayStatus fill (some order) = .matched)
    (h' : feeQuoteReplayStatus { fill with
      grossSolLamports := gross
      protocolFeeLamports := protocol
      netSolLamports := net } (some order) = .matched) :
    gross = fill.grossSolLamports ∧ protocol = fill.protocolFeeLamports ∧ net = fill.netSolLamports := by
  obtain ⟨recipe, reserve, hr⟩ := replay_matched_iff.mp h
  obtain ⟨recipe', reserve', hr'⟩ := replay_matched_iff.mp h'
  obtain ⟨rfl, rfl⟩ := hr.inputs_eq hr' rfl rfl
  obtain ⟨quote, hquote, -, hgross, hprotocol, -, hnet⟩ := hr.quoted
  obtain ⟨quote', hquote', -, hgross', hprotocol', -, hnet'⟩ := hr'.quoted
  obtain rfl : quote = quote' := Except.ok.inj (hquote.symm.trans hquote')
  exact ⟨hgross'.symm.trans hgross, hprotocol'.symm.trans hprotocol, hnet'.symm.trans hnet⟩

theorem matched_network {network : ℤ} (h : feeQuoteReplayStatus fill (some order) = .matched)
    (h' : feeQuoteReplayStatus { fill with networkFeeLamports := network } (some order) = .matched) :
    network = fill.networkFeeLamports := by
  obtain ⟨recipe, reserve, hr⟩ := replay_matched_iff.mp h
  obtain ⟨recipe', reserve', hr'⟩ := replay_matched_iff.mp h'
  obtain ⟨quote, hquote, -, hgross, hprotocol, hnetwork, hnet⟩ := hr.quoted
  obtain ⟨quote', hquote', -, hgross', hprotocol', hnetwork', hnet'⟩ := hr'.quoted
  have hwallet := (replayQuote_wallet hquote).2
  have hwallet' := (replayQuote_wallet hquote').2
  simp only at hgross' hprotocol' hnetwork' hnet' hwallet'
  cases hside : fill.side <;> simp only [hside] at hwallet hwallet' <;> omega

theorem matched_units_buy {units : ℤ} (hside : fill.side = .buy)
    (h : feeQuoteReplayStatus fill (some order) = .matched)
    (h' : feeQuoteReplayStatus { fill with tokenUnits := units } (some order) = .matched) :
    units = fill.tokenUnits := by
  obtain ⟨recipe, reserve, hr⟩ := replay_matched_iff.mp h
  obtain ⟨recipe', reserve', hr'⟩ := replay_matched_iff.mp h'
  obtain ⟨rfl, rfl⟩ := hr.inputs_eq hr' rfl rfl
  obtain ⟨quote, hquote, hunits, -⟩ := hr.quoted
  obtain ⟨quote', hquote', hunits', -⟩ := hr'.quoted
  simp only [replayQuote, hside] at hquote hquote'
  obtain rfl : quote = quote' := Except.ok.inj (hquote.symm.trans hquote')
  exact hunits'.symm.trans hunits

/-- **A sell's receipt with other units still matches exactly when selling those units comes
to the same amounts.** -/
theorem matched_units_sell {units : ℤ} (hside : fill.side = .sell) {recipe : FeeProvenance}
    {reserve : ExecutionReserveSnapshot} (hr : Replays fill recipe reserve order) :
    feeQuoteReplayStatus { fill with tokenUnits := units } (some order) = .matched ↔
      ∃ quote, quoteSell reserve.virtualTokenReserves reserve.virtualQuoteReserves units reserve.feeBps
          fill.networkFeeLamports reserve.realQuoteReserves recipe.feeComponents recipe.lpFeeBps = .ok quote ∧
        quote.curveSolLamports = fill.grossSolLamports ∧
        quote.protocolFeeLamports = fill.protocolFeeLamports ∧
        quote.walletSolLamports = fill.netSolLamports := by
  rw [replay_matched_iff]
  constructor
  · rintro ⟨recipe', reserve', hr'⟩
    obtain ⟨rfl, rfl⟩ := hr.inputs_eq hr' rfl rfl
    obtain ⟨quote, hquote, -, hgross, hprotocol, -, hnet⟩ := hr'.quoted
    simp only [replayQuote, hside] at hquote
    exact ⟨quote, hquote, hgross, hprotocol, hnet⟩
  · rintro ⟨quote, hquote, hgross, hprotocol, hnet⟩
    refine ⟨recipe, reserve, hr.recipe_eq, hr.reserve_eq, hr.version, hr.source, hr.order_matches,
      hr.wellFormed, quote, ?_, ?_, hgross, hprotocol, ?_, hnet⟩
    · simp only [replayQuote, hside]
      exact hquote
    · exact (quoteSell_ok hquote).units_eq
    · exact (quoteSell_ok hquote).network_eq

end SignalArcade.Paper
