import SignalArcade.Market.TokenReserves
import SignalArcade.Paper.Models

/-!
# The window of trades

The feature engine keeps the trades of a token of the last five minutes, 5000 of them at most, and computes its metrics
from those of the current venue. A trade that has expired is not missed; one that had to go for lack of room is, and the
last such trade is remembered. Metrics are computed again after a second.
-/

namespace SignalArcade.Market.Features

open Runs List

/-! ### The source -/

/-- `maxlen` of `trades`. -/
def maxTrades : ℕ := 5000

def second : ℤ := 1000000

/-- Five minutes. -/
def windowSpan : ℤ := 300 * second

/-- A trade in the window. -/
structure TradeObservation where
  receivedAt : ℤ
  slot : ℤ
  side : Paper.Side
  user : String
  tokenUnits : ℤ
  quoteLamports : ℤ
  priceSol : ℚ
  signature : String := ""
  venue : String := "pump_curve"

/-- `RollingTradeMetrics`: the windows, and whether a trade of them is missed. -/
structure RollingTradeMetrics where
  computedAt : ℤ
  venue : String
  trades1m : List TradeObservation
  trades5m : List TradeObservation
  bufferSaturated : Bool

/-- A token with its trades. -/
structure TradeState where
  token : TokenState
  trades : List TradeObservation := []
  lastEvictedTrade : Option TradeObservation := none
  rollingTradeMetrics : Option RollingTradeMetrics := none

def TokenState.priceSol (s : TokenState) : ℚ :=
  if s.virtualTokenReserves ≤ 0 ∨ s.virtualQuoteReserves ≤ 0 then 0
  else (s.virtualQuoteReserves / 1000000000) / (s.virtualTokenReserves / 1000000)

/-- The text of a value, if it is one of Python's own texts; `str` of any other is from outside. -/
def Json.str (pyStr : Json → String) : Json → String
  | .text s => s
  | other => pyStr other

/-- Whether a trade buys. -/
def MarketEvent.buys (pyStr : Json → String) (event : MarketEvent) : Bool :=
  match value event.payload ["is_buy", "isBuy"] with
  | some isBuy => isBuy.truthy
  | none =>
    match event.payload.lookup "event_name" with
    | some name => name.truthy && "buy".toList <:+: (name.str pyStr).toLower.toList
    | none => false

/-- The trade that `_apply_trade` makes of an event. -/
def TokenState.observation (pyStr : Json → String) (s : TokenState) (event : MarketEvent) (effectiveAt : ℤ) : TradeObservation :=
  let buys := event.buys pyStr
  let tokenUnits := number event.payload (["token_amount", "tokenAmount"] ++
    if buys then ["base_amount_out", "baseAmountOut"] else ["base_amount_in", "baseAmountIn"])
  let quoteLamports := number event.payload (["sol_amount", "solAmount"] ++
    if buys then ["quote_amount_in", "quoteAmountIn"] else ["quote_amount_out", "quoteAmountOut"])
  { receivedAt := effectiveAt
    slot := event.slotOrZero
    side := if buys then .buy else .sell
    user := ((value event.payload ["user"]).map (Json.str pyStr)).getD "unknown"
    tokenUnits := max 0 tokenUnits
    quoteLamports := max 0 quoteLamports
    priceSol := max 0 (if 0 < tokenUnits ∧ 0 < quoteLamports then (quoteLamports / 1000000000) / (tokenUnits / 1000000)
      else s.priceSol)
    signature := event.signature.getD ""
    venue := s.venue }

namespace TradeState

variable (s : TradeState)

/-- The trades that have not expired. -/
def unexpired (effectiveAt : ℤ) : List TradeObservation := s.trades.dropWhile (·.receivedAt < effectiveAt - windowSpan)

/-- The trade that has to go for another one. -/
def evicts (effectiveAt : ℤ) : Option TradeObservation :=
  if maxTrades ≤ (s.unexpired effectiveAt).length then (s.unexpired effectiveAt).head? else none

/-- A trade is appended. -/
def append (trade : TradeObservation) : TradeState :=
  { s with
    trades := (s.unexpired trade.receivedAt).drop (if maxTrades ≤ (s.unexpired trade.receivedAt).length then 1 else 0) ++ [trade]
    lastEvictedTrade := (s.evicts trade.receivedAt).or s.lastEvictedTrade }

/-- The trade of an event. One on the curve says nothing of a verified pool. -/
def trade? (pyStr : Json → String) (event : MarketEvent) : Option TradeObservation :=
  if event.kind = .trade ∧ ¬s.token.routeRegression event then
    some ((s.token.apply event).observation pyStr event (s.token.effectiveAt event))
  else none

/-- `TokenState.apply`, with `_apply_trade`. -/
def apply (pyStr : Json → String) (event : MarketEvent) : TradeState :=
  let applied := { s with token := s.token.apply event }
  match s.trade? pyStr event with
  | some trade => applied.append trade
  | none => applied

/-- Metrics that are reused. -/
def reused (now : ℤ) : Option RollingTradeMetrics :=
  s.rollingTradeMetrics.filter fun cached =>
    cached.venue = s.token.venue ∧ 0 ≤ now - cached.computedAt ∧ now - cached.computedAt < second

/-- The last trade that had to go is one of the venue, in the window. -/
def evictedWithin (now : ℤ) : Bool :=
  s.lastEvictedTrade.any fun evicted =>
    evicted.venue = s.token.venue ∧ 0 ≤ now - evicted.receivedAt ∧ now - evicted.receivedAt ≤ windowSpan

/-- A trade of the venue, in the window. -/
def Within (now : ℤ) (trade : TradeObservation) : Prop :=
  trade.venue = s.token.venue ∧ 0 ≤ now - trade.receivedAt ∧ now - trade.receivedAt ≤ windowSpan

instance (now : ℤ) (trade : TradeObservation) : Decidable (s.Within now trade) :=
  inferInstanceAs (Decidable (_ ∧ _ ∧ _))

/-- Metrics that are computed. -/
def compute (now : ℤ) : RollingTradeMetrics :=
  let trades5m := s.trades.filter (s.Within now ·)
  { computedAt := now
    venue := s.token.venue
    trades1m := trades5m.filter (now - ·.receivedAt ≤ 60 * second)
    trades5m
    bufferSaturated := s.evictedWithin now }

/-- `_rolling_trade_metrics`. -/
def rollingMetrics (now : ℤ) : RollingTradeMetrics := (s.reused now).getD (s.compute now)

/-- `trade_buffer_saturated` of a snapshot. -/
def tradeBufferSaturated (now : ℤ) : Bool := (s.rollingMetrics now).bufferSaturated || s.evictedWithin now

end TradeState

/-! ### Runs -/

/-- A token with its trades, all trades that were accepted, those that had to go, and how many of these had to go before
the metrics were computed. -/
structure Watch where
  state : TradeState
  accepted : List TradeObservation := []
  evicted : List TradeObservation := []
  mark : ℕ := 0

/-- What happens to a token. -/
inductive TradeAction where
  /-- `TokenState.apply`. -/
  | event (event : MarketEvent)
  /-- `_rolling_trade_metrics`. -/
  | metrics (now : ℤ)
  /-- A read of the accounts of its route writes the token, not its venue or the time of the last event. -/
  | refreshed (token : TokenState)

namespace Watch

variable (w : Watch)

def apply (pyStr : Json → String) (event : MarketEvent) : Watch :=
  let trade := w.state.trade? pyStr event
  { w with
    state := w.state.apply pyStr event
    accepted := w.accepted ++ trade.toList
    evicted := w.evicted ++ (trade.bind fun trade => w.state.evicts trade.receivedAt).toList }

def metrics (now : ℤ) : Watch :=
  { w with
    state := { w.state with rollingTradeMetrics := some (w.state.rollingMetrics now) }
    mark := if (w.state.reused now).isSome then w.mark else w.evicted.length }

def refreshed (token : TokenState) : Watch :=
  if token.venue = w.state.token.venue ∧ token.lastEventAt = w.state.token.lastEventAt then
    { w with state := { w.state with token } }
  else w

def step (pyStr : Json → String) (w : Watch) : TradeAction → Watch
  | .event event => w.apply pyStr event
  | .metrics now => w.metrics now
  | .refreshed token => w.refreshed token

end Watch

/-! ### Tokens -/

section token

variable {s : TokenState} {event : MarketEvent} {effectiveAt : ℤ}

/-- The venue, and the time of the last event. -/
def TokenState.seen (s : TokenState) : String × Option ℤ := (s.venue, s.lastEventAt)

theorem seen_takeFees : (s.takeFees event).seen = s.seen := by
  unfold TokenState.takeFees
  split_ifs <;> rfl

theorem seen_takeInitial : s.takeInitial.seen = s.seen := by
  unfold TokenState.takeInitial
  split_ifs <;> rfl

theorem seen_stamp : (s.stamp event effectiveAt).seen = s.seen := by
  unfold TokenState.stamp
  split_ifs <;> rfl

theorem seen_takePool : (s.takePool event).seen = ("pump_swap", s.lastEventAt) := by
  unfold TokenState.takePool
  split
  · rfl
  · split_ifs <;> rfl

theorem seen_takePoolReserves : (s.takePoolReserves event).seen = s.seen := rfl

theorem seen_takeCurveReserves : (s.takeCurveReserves event).seen = s.seen := rfl

theorem seen_takeRealTokens : (s.takeRealTokens event).seen = s.seen := rfl

theorem seen_takeRoute : (s.takeRoute event effectiveAt).seen = s.seen ∨
    (s.takeRoute event effectiveAt).seen = ("pump_swap", s.lastEventAt) := by
  unfold TokenState.takeRoute
  split_ifs
  · right
    rw [seen_stamp, seen_takeInitial, seen_takeRealTokens, seen_takeFees, seen_takePoolReserves, seen_takePool]
  · exact .inl seen_takeInitial
  · left
    rw [seen_stamp, seen_takeInitial, seen_takeRealTokens, seen_takeCurveReserves, seen_takeFees]

theorem seen_apply : (s.apply event).seen = (s.observe event).seen ∨
    (s.apply event).seen = ("pump_swap", (s.observe event).lastEventAt) := by
  unfold TokenState.apply
  dsimp only
  split_ifs
  · exact .inl rfl
  · exact seen_takeRoute (s := (s.observe event).takeKind event)

theorem apply_venue (s : TokenState) (event : MarketEvent) :
    (s.apply event).venue = s.venue ∨ (s.apply event).venue = "pump_swap" :=
  seen_apply.imp (congrArg Prod.fst) (congrArg Prod.fst)

theorem apply_lastEventAt (s : TokenState) (event : MarketEvent) :
    (s.apply event).lastEventAt = if event.kind = .market then s.lastEventAt else some (s.effectiveAt event) :=
  seen_apply.elim (congrArg Prod.snd) (congrArg Prod.snd)

theorem le_effectiveAt {at_ : ℤ} (h : at_ ∈ s.lastEventAt) : at_ ≤ s.effectiveAt event := by
  have hlatest : ∀ (x : ℤ) (seen : Option ℤ), x ≤ latest x seen := by
    intro x seen
    cases seen with
    | none => exact le_rfl
    | some y => exact le_max_left x y
  refine le_trans ?_ (hlatest _ _)
  rw [Option.mem_def.mp h]
  exact le_max_right _ _

end token

/-! ### The invariant -/

/-- A token after its trades. -/
structure Watch.Sound (w : Watch) : Prop where
  /-- In the order of their times; and once there are trades of the venue, all are. -/
  ordered : w.accepted.Pairwise fun a b =>
    a.receivedAt ≤ b.receivedAt ∧ (a.venue = w.state.token.venue → b.venue = w.state.token.venue)
  curve : w.state.token.venue ≠ "pump_swap" → ∀ trade ∈ w.accepted, trade.venue ≠ "pump_swap"
  seen : ∀ trade ∈ w.accepted, ∃ at_ ∈ w.state.token.lastEventAt, trade.receivedAt ≤ at_
  /-- A trade that is not kept has expired, or had to go. -/
  kept : ∃ gone, w.accepted = gone ++ w.state.trades ∧ w.evicted.Sublist gone ∧ ∀ trade ∈ gone, trade ∈ w.evicted ∨
    ∃ at_ ∈ w.state.token.lastEventAt, trade.receivedAt < at_ - windowSpan
  last : w.state.lastEvictedTrade = w.evicted.getLast?
  cached : ∀ metrics ∈ w.state.rollingTradeMetrics, ∀ trade ∈ metrics.trades5m, trade.venue = metrics.venue

namespace Watch.Sound

variable {w : Watch} {pyStr : Json → String}

theorem retoken (h : w.Sound) {token : TokenState}
    (hvenue : token.venue = w.state.token.venue ∨ token.venue = "pump_swap")
    (hseen : ∀ at_ ∈ w.state.token.lastEventAt, ∃ later ∈ token.lastEventAt, at_ ≤ later) :
    Watch.Sound { w with state := { w.state with token } } where
  ordered := by
    by_cases hsame : token.venue = w.state.token.venue
    · show w.accepted.Pairwise fun a b => a.receivedAt ≤ b.receivedAt ∧ (a.venue = token.venue → b.venue = token.venue)
      rw [hsame]
      exact h.ordered
    · have hpool := hvenue.resolve_left hsame
      have hcurve := h.curve (hpool ▸ Ne.symm hsame)
      refine h.ordered.imp_of_mem fun ha _ hab => ⟨hab.1, fun hswap => ?_⟩
      exact absurd (hswap.trans hpool) (hcurve _ ha)
  curve := by
    intro hnot
    exact h.curve (hvenue.resolve_right hnot ▸ hnot)
  seen := by
    intro trade htrade
    obtain ⟨at_, hat, hle⟩ := h.seen trade htrade
    obtain ⟨later, hlater, hle'⟩ := hseen at_ hat
    exact ⟨later, hlater, hle.trans hle'⟩
  kept := by
    obtain ⟨gone, haccepted, hsub, hgone⟩ := h.kept
    refine ⟨gone, haccepted, hsub, fun trade htrade => (hgone trade htrade).imp_right ?_⟩
    rintro ⟨at_, hat, hlt⟩
    obtain ⟨later, hlater, hle⟩ := hseen at_ hat
    exact ⟨later, hlater, by omega⟩
  last := h.last
  cached := h.cached

theorem append (h : w.Sound) {trade : TradeObservation} (hvenue : trade.venue = w.state.token.venue)
    (hseen : w.state.token.lastEventAt = some trade.receivedAt) :
    Watch.Sound { w with
      state := w.state.append trade
      accepted := w.accepted ++ [trade]
      evicted := w.evicted ++ (w.state.evicts trade.receivedAt).toList } := by
  obtain ⟨gone, haccepted, hsub, hgone⟩ := h.kept
  set expired := w.state.trades.takeWhile fun old => decide (old.receivedAt < trade.receivedAt - windowSpan) with hexpired
  have hsplit : w.state.trades = expired ++ w.state.unexpired trade.receivedAt := (takeWhile_append_dropWhile).symm
  constructor
  case ordered =>
    refine pairwise_append.mpr ⟨h.ordered, pairwise_singleton _ _, fun old hold new hnew => ?_⟩
    obtain rfl := mem_singleton.mp hnew
    obtain ⟨at_, hat, hle⟩ := h.seen old hold
    rw [hseen] at hat
    cases hat
    exact ⟨hle, fun _ => hvenue⟩
  case curve =>
    intro hnot old hold
    rcases mem_append.mp hold with hold | hold
    · exact h.curve hnot old hold
    · rw [mem_singleton.mp hold, hvenue]
      exact hnot
  case seen =>
    intro old hold
    rcases mem_append.mp hold with hold | hold
    · exact h.seen old hold
    · rw [mem_singleton.mp hold]
      exact ⟨_, hseen, le_rfl⟩
  case kept =>
    set room := if maxTrades ≤ (w.state.unexpired trade.receivedAt).length then 1 else 0 with hroom
    have hevicts : (w.state.unexpired trade.receivedAt).take room = (w.state.evicts trade.receivedAt).toList := by
      unfold TradeState.evicts
      rw [hroom]
      split_ifs
      · cases w.state.unexpired trade.receivedAt <;> rfl
      · rfl
    refine ⟨gone ++ expired ++ (w.state.unexpired trade.receivedAt).take room, ?_, ?_, fun old hold => ?_⟩
    · show w.accepted ++ [trade] = _ ++ ((w.state.unexpired trade.receivedAt).drop room ++ [trade])
      rw [haccepted, append_assoc _ ((w.state.unexpired trade.receivedAt).take room), ← append_assoc (List.take _ _),
        take_append_drop, hsplit]
      simp only [append_assoc]
    · rw [hevicts]
      exact (hsub.trans (sublist_append_left _ _)).append (Sublist.refl _)
    · rw [hevicts] at hold
      rcases mem_append.mp hold with hold | hold
      · rcases mem_append.mp hold with hold | hold
        · exact (hgone old hold).imp_left (mem_append_left _)
        · have hlt := mem_takeWhile_imp (p := fun old : TradeObservation => decide (old.receivedAt < trade.receivedAt - windowSpan)) hold
          exact .inr ⟨_, hseen, of_decide_eq_true hlt⟩
      · exact .inl (mem_append_right _ hold)
  case last =>
    show (w.state.evicts trade.receivedAt).or w.state.lastEvictedTrade = _
    rw [h.last]
    cases w.state.evicts trade.receivedAt <;> simp
  case cached => exact h.cached

theorem metrics (h : w.Sound) (now : ℤ) : (w.metrics now).Sound where
  ordered := h.ordered
  curve := h.curve
  seen := h.seen
  kept := h.kept
  last := h.last
  cached := by
    intro metrics hmetrics
    obtain rfl : w.state.rollingMetrics now = metrics := Option.some_inj.mp hmetrics
    unfold TradeState.rollingMetrics
    cases hreused : w.state.reused now with
    | none =>
      intro trade htrade
      exact (of_decide_eq_true (mem_filter.mp htrade).2).1
    | some cached => exact h.cached cached (Option.filter_eq_some_iff.mp hreused).1

/-- **Every step** keeps it. -/
theorem step (h : w.Sound) (action : TradeAction) : (w.step pyStr action).Sound := by
  cases action with
  | metrics now => exact h.metrics now
  | refreshed token =>
    show (w.refreshed token).Sound
    unfold Watch.refreshed
    split_ifs with hsame
    · exact h.retoken (.inl hsame.1) fun at_ hat => ⟨at_, hsame.2 ▸ hat, le_rfl⟩
    · exact h
  | event event =>
    show (w.apply pyStr event).Sound
    have happlied : Watch.Sound { w with state := { w.state with token := w.state.token.apply event } } := by
      refine h.retoken (apply_venue _ _) fun at_ hat => ?_
      rw [apply_lastEventAt]
      split_ifs
      · exact ⟨at_, hat, le_rfl⟩
      · exact ⟨_, rfl, le_effectiveAt hat⟩
    unfold Watch.apply TradeState.apply
    dsimp only
    cases htrade : w.state.trade? pyStr event with
    | none =>
      simp only [Option.toList_none, Option.bind_none, append_nil]
      exact happlied
    | some trade =>
      unfold TradeState.trade? at htrade
      split_ifs at htrade with htrades
      cases htrade
      refine happlied.append rfl ?_
      show (w.state.token.apply event).lastEventAt = some (w.state.token.effectiveAt event)
      rw [apply_lastEventAt, if_neg (by rw [htrades.1]; decide)]

theorem start (token : TokenState) : Watch.Sound { state := { token } } where
  ordered := Pairwise.nil
  curve _ _ h := absurd h not_mem_nil
  seen _ h := absurd h not_mem_nil
  kept := ⟨[], rfl, Sublist.refl _, fun _ h => absurd h not_mem_nil⟩
  last := rfl
  cached _ h := absurd h (Option.not_mem_none _)

theorem run (pyStr : Json → String) (token : TokenState) (actions : List TradeAction) :
    (Runs.run (Watch.step pyStr) { state := { token } } actions).Sound :=
  run_invariant (I := Watch.Sound) (start token) fun _ action h => h.step action

/-! ### The windows -/

theorem evictedWithin (h : w.Sound) {now : ℤ} (hnow : ∀ at_ ∈ w.state.token.lastEventAt, at_ ≤ now) {trade : TradeObservation}
    (htrade : trade ∈ w.evicted) (hwithin : w.state.Within now trade) : w.state.evictedWithin now = true := by
  obtain ⟨gone, haccepted, hsub, -⟩ := h.kept
  have hsublist : w.evicted.Sublist w.accepted := haccepted ▸ hsub.trans (sublist_append_left _ _)
  have hordered := h.ordered.sublist hsublist
  obtain ⟨before, last, hlast⟩ := eq_nil_or_concat w.evicted |>.resolve_left (ne_nil_of_mem htrade)
  rw [concat_eq_append] at hlast
  obtain ⟨at_, hat, hle⟩ := h.seen last (hsublist.subset (hlast ▸ mem_append_right _ mem_cons_self))
  have hafter : trade.receivedAt ≤ last.receivedAt ∧ last.venue = w.state.token.venue := by
    rw [hlast] at htrade hordered
    rcases mem_append.mp htrade with hbefore | heq
    · have hrel := (pairwise_append.mp hordered).2.2 trade hbefore last mem_cons_self
      exact ⟨hrel.1, hrel.2 hwithin.1⟩
    · obtain rfl := mem_singleton.mp heq
      exact ⟨le_rfl, hwithin.1⟩
  unfold TradeState.evictedWithin
  rw [h.last, hlast, getLast?_concat, Option.any_some, decide_eq_true_eq]
  have hspan := hwithin.2.2
  have hlater := hnow at_ hat
  exact ⟨hafter.2, by omega, by omega⟩

theorem window (h : w.Sound) {now : ℤ} (hnow : ∀ at_ ∈ w.state.token.lastEventAt, at_ ≤ now)
    (hfull : (w.state.compute now).bufferSaturated = false) :
    (w.state.compute now).trades5m = w.accepted.filter (w.state.Within now ·) := by
  obtain ⟨gone, haccepted, -, hgone⟩ := h.kept
  have hnone : gone.filter (w.state.Within now ·) = [] := by
    rw [filter_eq_nil_iff]
    intro trade htrade hwithin
    rw [decide_eq_true_eq] at hwithin
    rcases hgone trade htrade with hevicted | ⟨at_, hat, hlt⟩
    · exact absurd (h.evictedWithin hnow hevicted hwithin) (Bool.eq_false_iff.mp hfull)
    · have hle := hnow at_ hat
      have hspan := hwithin.2.2
      omega
  show w.state.trades.filter _ = _
  rw [haccepted, filter_append, hnone, nil_append]

end Watch.Sound

/-- **The window of trades is complete, unless it is flagged**: in every run the times of the trades that are kept do not
decrease; metrics that are computed have all trades of the venue in the window, each once and in order, unless a missing
one is flagged; and it is flagged where metrics are reused though a trade that is still in the window had to go. -/
theorem trade_window_complete (pyStr : Json → String) (token : TokenState) (actions : List TradeAction) :
    let w := run (Watch.step pyStr) { state := { token } } actions;
    w.state.trades.Pairwise (·.receivedAt ≤ ·.receivedAt) ∧
    ∀ now, (∀ at_ ∈ w.state.token.lastEventAt, at_ ≤ now) →
      (w.state.reused now = none → (w.state.rollingMetrics now).bufferSaturated = false →
        (w.state.rollingMetrics now).trades5m = w.accepted.filter (w.state.Within now ·)) ∧
      ∀ metrics, w.state.reused now = some metrics → ∀ trade ∈ metrics.trades5m, trade ∈ w.evicted.drop w.mark →
        now - trade.receivedAt ≤ windowSpan → w.state.tradeBufferSaturated now = true := by
  intro w
  have hsound : w.Sound := .run pyStr token actions
  obtain ⟨gone, haccepted, hsub, -⟩ := hsound.kept
  refine ⟨?_, fun now hnow => ⟨fun hfresh hfull => ?_, fun metrics hreused trade htrade hevicted hspan => ?_⟩⟩
  · exact (haccepted ▸ hsound.ordered).sublist (sublist_append_right _ _) |>.imp And.left
  · unfold TradeState.rollingMetrics at hfull ⊢
    rw [hfresh] at hfull ⊢
    exact hsound.window hnow hfull
  · obtain ⟨hcached, hvalid⟩ := Option.filter_eq_some_iff.mp hreused
    have hgone := mem_of_mem_drop hevicted
    obtain ⟨at_, hat, hle⟩ := hsound.seen trade (haccepted ▸ mem_append_left _ (hsub.subset hgone))
    have hlater := hnow at_ hat
    have hvenue := (hsound.cached metrics hcached trade htrade).trans (of_decide_eq_true hvalid).1
    exact Bool.or_eq_true_iff.mpr (.inr (hsound.evictedWithin hnow hgone ⟨hvenue, by omega, hspan⟩))

/-! ### A trade that has expired since -/

def tradeAt (at_ : ℤ) : MarketEvent := { eventId := "trade", source := "rpc", kind := .trade, receivedAt := at_, payload := [] }

def observedAt (at_ : ℤ) : TradeObservation :=
  { receivedAt := at_, slot := 0, side := .sell, user := "unknown", tokenUnits := 0, quoteLamports := 0, priceSol := 0 }

/-- The token after a trade. -/
def tokenAt (at_ : ℤ) : TokenState := { mint := "mint", lastEventAt := some at_, lastEventId := some "trade" }

/-- A trade after 700 seconds, and more of them after 1000. -/
def Watch.sample (n : ℕ) : Watch :=
  let trades := observedAt (700 * second) :: replicate n (observedAt (1000 * second))
  { state := { token := tokenAt (1000 * second), trades }, accepted := trades }

theorem sample_unexpired (n : ℕ) : (Watch.sample n).state.unexpired (1000 * second) = (Watch.sample n).state.trades :=
  dropWhile_cons_of_neg (by decide)

theorem sample_length (n : ℕ) : ((Watch.sample n).state.unexpired (1000 * second)).length = n + 1 := by
  rw [sample_unexpired]
  exact congrArg (· + 1) length_replicate

theorem sample_trade (pyStr : Json → String) (n : ℕ) :
    (Watch.sample n).state.trade? pyStr (tradeAt (1000 * second)) = some (observedAt (1000 * second)) := rfl

theorem sample_token (n : ℕ) :
    (Watch.sample n).state.token.apply (tradeAt (1000 * second)) = (Watch.sample n).state.token := by
  show (tokenAt (1000 * second)).apply (tradeAt (1000 * second)) = tokenAt (1000 * second)
  decide +kernel

theorem sample_step (pyStr : Json → String) {n : ℕ} (hn : n + 1 < maxTrades) :
    (Watch.sample n).step pyStr (.event (tradeAt (1000 * second))) = Watch.sample (n + 1) := by
  have hroom : ¬maxTrades ≤ ((Watch.sample n).state.unexpired (1000 * second)).length := by
    rw [sample_length]
    exact Nat.not_le.mpr hn
  have happlied : (Watch.sample n).state.apply pyStr (tradeAt (1000 * second)) =
      (Watch.sample n).state.append (observedAt (1000 * second)) := by
    unfold TradeState.apply
    rw [sample_trade, sample_token]
  have happend : (Watch.sample n).state.append (observedAt (1000 * second)) = (Watch.sample (n + 1)).state := by
    unfold TradeState.append TradeState.evicts
    rw [show (observedAt (1000 * second)).receivedAt = 1000 * second from rfl, if_neg hroom, if_neg hroom, sample_unexpired]
    unfold Watch.sample
    rw [replicate_succ']
    rfl
  unfold Watch.step Watch.apply
  dsimp only
  rw [happlied, happend, sample_trade, Option.bind_some, show (observedAt (1000 * second)).receivedAt = 1000 * second from rfl]
  unfold TradeState.evicts
  rw [if_neg hroom]
  unfold Watch.sample
  rw [replicate_succ']
  rfl

theorem sample_run (pyStr : Json → String) (k : ℕ) {n : ℕ} (hn : n + k < maxTrades) :
    run (Watch.step pyStr) (Watch.sample n) (replicate k (.event (tradeAt (1000 * second)))) = Watch.sample (n + k) := by
  induction k generalizing n with
  | zero => rfl
  | succ k ih =>
    rw [replicate_succ, run_cons, sample_step pyStr (by omega), ih (by omega)]
    congr 1
    omega

theorem sample_missed (pyStr : Json → String) {n : ℕ} (hn : n + 1 = maxTrades) :
    let w := ((Watch.sample n).metrics (1000 * second)).apply pyStr (tradeAt (1000 * second));
    let now := 1000 * second + second / 2;
    (∀ at_ ∈ w.state.token.lastEventAt, at_ ≤ now) ∧ ∃ metrics, w.state.reused now = some metrics ∧
      ∃ trade ∈ metrics.trades5m, trade ∈ w.evicted.drop w.mark ∧ w.state.tradeBufferSaturated now = false := by
  intro w now
  set v := (Watch.sample n).metrics (1000 * second) with hv
  have hroom : maxTrades ≤ ((Watch.sample n).state.unexpired (1000 * second)).length := by
    rw [sample_length, hn]
  have hevicts : v.state.evicts (1000 * second) = some (observedAt (700 * second)) := by
    show (Watch.sample n).state.evicts (1000 * second) = _
    unfold TradeState.evicts
    rw [if_pos hroom, sample_unexpired]
    rfl
  have htrade : v.state.trade? pyStr (tradeAt (1000 * second)) = some (observedAt (1000 * second)) := sample_trade pyStr n
  have htoken : v.state.token.apply (tradeAt (1000 * second)) = v.state.token := sample_token n
  have hstate : w.state = v.state.append (observedAt (1000 * second)) := by
    show v.state.apply pyStr (tradeAt (1000 * second)) = _
    unfold TradeState.apply
    rw [htrade, htoken]
  have hevicted : w.evicted.drop w.mark = [observedAt (700 * second)] := by
    show ((v.state.trade? pyStr _).bind fun trade => v.state.evicts trade.receivedAt).toList = _
    rw [htrade, Option.bind_some]
    exact congrArg Option.toList hevicts
  have hlast : (v.state.append (observedAt (1000 * second))).lastEvictedTrade = some (observedAt (700 * second)) :=
    congrArg (Option.or · v.state.lastEvictedTrade) hevicts
  rw [hevicted, hstate]
  refine ⟨fun at_ hat => ?_, (Watch.sample n).state.compute (1000 * second), rfl, observedAt (700 * second), ?_,
    mem_cons_self, ?_⟩
  · obtain rfl : 1000 * second = at_ := Option.some_inj.mp hat
    decide
  · exact mem_filter.mpr ⟨mem_cons_self, rfl⟩
  · show ((Watch.sample n).state.evictedWithin (1000 * second) || TradeState.evictedWithin _ now) = false
    unfold TradeState.evictedWithin
    rw [hlast]
    rfl

/-- Metrics that are used again may miss an evicted trade. -/
theorem reused_expired : ¬∀ (pyStr : Json → String) (token : TokenState) (actions : List TradeAction) (now : ℤ),
    let w := run (Watch.step pyStr) { state := { token } } actions;
    (∀ at_ ∈ w.state.token.lastEventAt, at_ ≤ now) → ∀ metrics, w.state.reused now = some metrics →
      ∀ trade ∈ metrics.trades5m, trade ∈ w.evicted.drop w.mark → w.state.tradeBufferSaturated now = true := by
  intro hall
  let pyStr : Json → String := fun _ => ""
  have hfirst : run (Watch.step pyStr) { state := { token := { mint := "mint" } } } [.event (tradeAt (700 * second))] =
      { state := { token := tokenAt (700 * second), trades := [observedAt (700 * second)] }
        accepted := [observedAt (700 * second)] } := rfl
  have hsecond : run (Watch.step pyStr)
      { state := { token := tokenAt (700 * second), trades := [observedAt (700 * second)] }
        accepted := [observedAt (700 * second)] } [.event (tradeAt (1000 * second))] = Watch.sample 1 := rfl
  obtain ⟨hnow, metrics, hreused, trade, htrade, hevicted, hfull⟩ := sample_missed pyStr (n := 4999) rfl
  have hrun : run (Watch.step pyStr) { state := { token := { mint := "mint" } } }
      ([.event (tradeAt (700 * second))] ++ [.event (tradeAt (1000 * second))] ++
        replicate 4998 (.event (tradeAt (1000 * second))) ++ [.metrics (1000 * second), .event (tradeAt (1000 * second))]) =
      ((Watch.sample 4999).metrics (1000 * second)).apply pyStr (tradeAt (1000 * second)) := by
    rw [run_append, run_append, run_append, hfirst, hsecond, sample_run pyStr 4998 (by decide)]
    rfl
  rw [← hrun] at hnow hreused hevicted hfull
  exact absurd (hall pyStr _ _ _ hnow metrics hreused trade htrade hevicted) (Bool.eq_false_iff.mp hfull)

end SignalArcade.Market.Features
