import SignalArcade.Paper.Walks

/-!
# What filling does to the books

The rest of the operations: the blockers of a pending buy, the commits, `_fill`, the loop
over the orders that are due, and what calls it. Together with the operations that do not
fill, every action of a season is a walk.
-/

namespace SignalArcade.Paper

open Checked Prog Steps

variable {env : Env} {price : Option ℚ} {w w' : World} {o : PaperOrder} {r : FillReceipt} {now : Instant}

/-! ### What stands against a buy that is due -/

theorem thesisBlocker_quietly (mode : RiskMode) (features : FeatureSnapshot) (baseline : Baseline) :
    Quietly (thesisBlocker env o mode features baseline)
      (fun result _ => result ≠ some .paperCashInsufficient) w := by
  unfold thesisBlocker
  refine .get_bind ?_
  split
  · exact .pure (by simp)
  · split
    · exact .pure (by simp)
    · split
      · exact .throw (by simp)
      · refine .ite (fun _ => .pure (by simp)) fun _ => .ite (fun _ => .pure ?_) fun _ =>
          .ite (fun _ => .pure (by simp)) fun _ => .pure (by simp)
        split <;> simp

theorem pendingBuyFillBlocker_quietly (mode : RiskMode) (features : FeatureSnapshot) :
    Quietly (pendingBuyFillBlocker env o mode price features) (fun result _ =>
      result = some .paperCashInsufficient →
        ∃ required, requiredMinor env o.requestedSolLamports price = some required ∧ w.cash < required) w := by
  unfold pendingBuyFillBlocker
  refine (snapshot_quietly _ _).bind fun portfolio w1 h1 _ => .get_bind ?_
  refine .ite (fun _ => .pure (by simp)) fun _ => .ite (fun _ => .pure (by simp)) fun _ => ?_
  split
  · exact .pure (by simp)
  · next required hrequired =>
    refine .ite (fun _ => .pure (by simp)) fun _ => .ite (fun hshort => .pure fun _ => ?_) fun _ => ?_
    · exact ⟨required, hrequired, h1.cash ▸ hshort⟩
    · split
      · exact (thesisBlocker_quietly mode features _).mono fun _ _ _ hne he => absurd he hne
      · exact .ite (fun _ => .pure (by simp)) fun _ => .pure (by simp)

/-! ### Commits -/

/-- What the broker knows of a fill it is about to commit. -/
structure Ready (env : Env) (price : Option ℚ) (b : Books) (o : PaperOrder) (r : FillReceipt) : Prop where
  pending : o ∈ b.pending
  replays : r.fewComponents → feeQuoteReplayStatus r (some (o.filled r.filledAt)) = .matched
  buy : o.side = .buy → 0 ≤ r.accountNetworkFeeMinor ∧ r.accountNetworkFeeMinor ≤ r.accountNetMinor ∧
    r.accountNetMinor ≤ b.cash ∧ (∀ positionId,
      FillCommitValid (o.filled r.filledAt) r (openedHolding positionId (o.filled r.filledAt) r)) ∧
    ∃ required, requiredMinor env o.requestedSolLamports price = some required ∧ r.accountNetMinor ≤ required
  sell : o.side = .sell → 0 ≤ r.accountNetMinor ∧ 0 ≤ r.accountProtocolFeeMinor ∧
    0 ≤ r.accountNetworkFeeMinor ∧
    r.accountGrossMinor = r.accountNetMinor + r.accountProtocolFeeMinor + r.accountNetworkFeeMinor

theorem accountBuy_wp (hr : Ready env price w.books o r) (hside : o.side = .buy) (state : TokenState) :
    Wp (accountBuy env (o.filled r.filledAt) r state)
      (fun _ w' => ∃ p tx, BuyCommitted env price w.books o r p tx ∧ w.ticks ≤ w'.ticks ∧
        w'.books = { w.books.commitBuy (o.filled r.filledAt) r p tx with ticks := w'.ticks })
      (fun e w' => Quiet w w' ∧ ¬ e.Refused) w := by
  obtain ⟨hnetwork, hle, haffordable, hvalid, hpriced⟩ := hr.buy hside
  unfold accountBuy
  rw [wp_bind]
  refine Wp.mono (tick_quietly w) (fun positionId w1 ⟨h1, _, hticks⟩ => ?_) fun _ _ h => h
  refine wp_ite.mpr ⟨fun _ => ⟨h1, by simp⟩, fun _ => ?_⟩
  rw [wp_bind, wp_ofExcept]
  refine ⟨fun tx htx => ?_, fun e he => absurd he (buyEntries_accepted hnetwork hle e)⟩
  rw [wp_bind, wp_ofExcept]
  refine ⟨fun _ _ => ?_, fun e he => absurd he ((hvalid positionId).accepted e)⟩
  rw [wp_bind]
  have hquiet : Quiet w { w1 with ticks := w1.ticks + 1 } := h1.trans ⟨rfl, Nat.le_succ _⟩
  refine transact_wp (fun _ => ⟨hquiet, by simp⟩)
    (fun e _ => ⟨hquiet, by simp⟩) fun db hdb => ?_
  obtain ⟨hrow, hfills, hpositions, rfl⟩ := commitBuyFill_ok hdb
  have hb1 := h1.books_eq
  have hrows : w1.books.orders = w.books.orders := by rw [hb1]
  have hfillsEq : w1.books.fills = w.books.fills := by rw [hb1]
  have hstored : w1.books.stored = w.books.stored := by rw [hb1]
  refine ⟨openedPosition (openedHolding positionId (o.filled r.filledAt) r) state, tx, ?_, ?_, ?_⟩
  · exact {
      pending := hr.pending
      row := by rw [← hrows]; exact hrow
      fresh := by rw [← hfillsEq]; exact hfills
      valid := hvalid positionId
      replays := hr.replays
      side := hside
      holding := ⟨positionId, rfl⟩
      new_position := by rw [← hstored]; exact hpositions
      entries := validatedLedgerEntries_eq_ok htx
      affordable := haffordable
      priced := hpriced }
  · exact hquiet.le
  · exact congrArg (fun b : Books => { b.commitBuy (o.filled r.filledAt) r
      (openedPosition (openedHolding positionId (o.filled r.filledAt) r) state) tx with
      ticks := w1.ticks + 1 }) hb1

variable {p : Position}

theorem accountSell_wp (hs : Sound env w.books) (hr : Ready env price w.books o r) (hside : o.side = .sell)
    (hp : p ∈ w.memory.positions) (hopened : r.positionOpenedAt = some p.openedAt)
    (hvalid : FillCommitValid (o.filled r.filledAt) r p.toHolding) :
    Wp (accountSell env (o.filled r.filledAt) r p)
      (fun _ w' => ∃ tx, SellCommitted w.books o r p tx ∧ w.ticks ≤ w'.ticks ∧
        w'.books = { w.books.sell (o.filled r.filledAt) r p tx with
          pending := w.memory.pending
          ticks := w'.ticks })
      (fun e w' => Quiet w w' ∧ ¬ e.Refused) w := by
  obtain ⟨hnet, hprotocol, hnetwork, hgross⟩ := hr.sell hside
  have hbook : 0 ≤ p.bookValueLamports := hs.book_nonneg p hp
  unfold accountSell
  rw [wp_bind, wp_get, wp_bind, wp_ofExcept]
  refine ⟨fun tx htx => ?_, fun e he => absurd he (sellEntries_accepted hnet hprotocol hnetwork hgross hbook e)⟩
  rw [wp_bind, wp_ofExcept]
  refine ⟨fun _ _ => ?_, fun e he => absurd he (hvalid.accepted e)⟩
  rw [wp_bind]
  refine transact_wp (fun _ => ⟨⟨rfl, Nat.le_succ _⟩, by simp⟩)
    (fun e _ => ⟨⟨rfl, Nat.le_succ _⟩, by simp⟩) fun db hdb => ?_
  obtain ⟨hrow, hfills, rfl⟩ := commitSellFill_ok hdb
  refine ⟨tx, ?_, Nat.le_succ _, rfl⟩
  exact {
    pending := hr.pending
    row := hrow
    fresh := hfills
    valid := hvalid
    replays := hr.replays
    side := hside
    position := hp
    opened := hopened
    entries := validatedLedgerEntries_eq_ok htx }

/-! ### Filling an order -/

theorem validatedReceipt_quietly (fill : FillReceipt) :
    Quietly (validatedReceipt fill) (fun receipt _ => receipt = fill.migrated) w := by
  unfold validatedReceipt
  exact .ite (fun _ => .throw (by simp)) fun _ =>
    .ite (fun _ => .throw (by simp)) fun _ => .pure rfl

theorem BuyCommitted.later {b : Books} {tx : LedgerTransaction}
    (h : BuyCommitted env price b o r p tx) (n : ℕ) : BuyCommitted env price { b with ticks := n } o r p tx :=
  ⟨⟨h.pending, h.row, h.fresh, h.valid, h.replays⟩, h.side, h.holding, h.new_position, h.entries, h.affordable,
    h.priced⟩

theorem keepsOthers_pop (h : w'.memory.pending = w.memory.pending) :
    KeepsOthers o w { w' with memory.pending := w'.memory.pending.erase o.orderId } := by
  intro x hx hne
  show x ∈ w'.memory.pending.erase o.orderId
  rw [h]
  exact Table.mem_erase.mpr ⟨hx, hne⟩

theorem settleBuy_walks (hs : Sound env w.books) (hr : Ready env price w.books o r) (hside : o.side = .buy)
    (state : TokenState) (features : FeatureSnapshot) (price' : Option ℚ) :
    Walks env price (do
        accountBuy env (o.filled r.filledAt) r state
        markPosition env .fillMark state features price' r.filledAt
        popPending o.orderId
        return r) (fun _ w' => KeepsOthers o w w') w := by
  unfold Walks popPending
  rw [wp_bind]
  refine (accountBuy_wp hr hside state).mono (fun _ w1 h => ?_) fun e w1 h => ⟨h.1.settled.ended, h.2⟩
  obtain ⟨p, tx, hc, hle, hb1⟩ := h
  have hs1 : Sound env w1.books := by
    rw [hb1]
    exact (hs.commitBuy hc).tick hle
  have hbuy : Settled (Change env price) w.books (w.books.buy (o.filled r.filledAt) r p tx) :=
    .single (.buy hc)
  -- the books once the order is taken out of the pending ones
  let dropped : Books → Books := fun b => { b with pending := b.pending.erase o.orderId }
  rw [wp_bind]
  refine (markPosition_wp hs1 .fillMark state features price' r.filledAt).mono (fun _ w2 h2 => ?_)
    fun e w2 h2 => ?_
  · rw [wp_bind, wp_modify, wp_pure]
    rcases h2 with rfl | ⟨q, hq, q', hh, hle', hb2⟩
    · refine ⟨?_, keepsOthers_pop (congrArg Books.pending hb1)⟩
      exact (congrArg (Settled (Change env price) w.books) (congrArg dropped hb1)).mpr
        (hbuy.trans (.single (.tick hle)))
    · rw [hb1] at hb2 hq
      refine ⟨?_, keepsOthers_pop (congrArg Books.pending hb2)⟩
      have hmark : Change env price none (w.books.buy (o.filled r.filledAt) r p tx)
          ((w.books.buy (o.filled r.filledAt) r p tx).mark q') := .mark hq hh
      exact (congrArg (Settled (Change env price) w.books) (congrArg dropped hb2)).mpr
        (hbuy.trans ((Settled.single hmark).trans (.single (.tick (hle.trans hle')))))
  · obtain ⟨rfl, hfail, q, hq, q', hh, hle', hb2⟩ := h2
    rw [hb1] at hb2 hq
    refine ⟨?_, by simp⟩
    have hbroken : Change env price (some .fillMark) { w.books with ticks := w2.ticks }
        (({ w.books with ticks := w2.ticks }.commitBuy (o.filled r.filledAt) r p tx).markUnsaved q') :=
      .buyUnmarked (hc.later w2.ticks) hq hh
    rw [hb2]
    exact (Settled.single (.tick (hle.trans hle'))).broken hfail hbroken

theorem settleSell_walks (hs : Sound env w.books) (hr : Ready env price w.books o r) (hside : o.side = .sell)
    (hp : p ∈ w.memory.positions) (hopened : r.positionOpenedAt = some p.openedAt)
    (hvalid : FillCommitValid (o.filled r.filledAt) r p.toHolding) :
    Walks env price (do
        accountSell env (o.filled r.filledAt) r p
        popPending o.orderId
        return r) (fun _ w' => KeepsOthers o w w') w := by
  unfold Walks popPending
  rw [wp_bind]
  refine (accountSell_wp hs hr hside hp hopened hvalid).mono (fun _ w1 h => ?_)
    fun e w1 h => ⟨h.1.settled.ended, h.2⟩
  obtain ⟨tx, hc, hle, hb1⟩ := h
  rw [wp_bind, wp_modify, wp_pure]
  let dropped : Books → Books := fun b => { b with pending := b.pending.erase o.orderId }
  refine ⟨?_, keepsOthers_pop (congrArg Books.pending hb1)⟩
  have hsell : Settled (Change env price) w.books (w.books.sell (o.filled r.filledAt) r p tx) := .single (.sell hc)
  exact (congrArg (Settled (Change env price) w.books) (congrArg dropped hb1)).mpr
    (hsell.trans (.single (.tick hle)))

theorem sellPosition_buy (hside : o.side = .buy) : w.memory.sellPosition o = none := by
  rw [Memory.sellPosition, hside]

theorem sellPosition_sell (hside : o.side = .sell) (h : w.memory.sellPosition o = some p) :
    p ∈ w.memory.positions ∧ p.mint = o.mint := by
  rw [Memory.sellPosition, hside] at h
  exact Table.get?_eq_some.mp h

variable {state : TokenState} {position : Option Position} {quote : CurveQuote} {values : AccountValues}
  {src : String} {fillId : ℕ}

theorem fillReceipt_ready {b : Books} (ho : o ∈ b.pending) (hlatency : o.createdAt ≤ o.fillAfter)
    (hdue : o.createdAt ≤ now ∧ o.fillAfter ≤ now) (hobserved : ∀ t ∈ state.reserveObservedAt, t ≤ now)
    (hquote : orderQuote env o state position now = .ok (some quote))
    (hvalues : accountFillValues env o.side quote price = some values)
    (hcash : o.side = .buy → values.net ≤ b.cash) :
    Ready env price b o (fillReceipt env fillId o state src now price position quote values) where
  pending := ho
  replays := fillReceipt_replays hquote
  buy := fun hside => by
    obtain ⟨-, hnetwork, hle⟩ := accountFillValues_buy (hside ▸ orderQuote_payable hquote) (hside ▸ hvalues)
    refine ⟨hnetwork, hle, hcash hside, fun positionId => ?_, net_le_required hside hquote hvalues⟩
    exact fillReceipt_valid hlatency hdue hobserved rfl (fun _ => ⟨rfl, rfl⟩)
      fun hsell => by rw [hside] at hsell; cases hsell
  sell := fun hside => accountFillValues_sell (hside ▸ orderQuote_payable hquote) (hside ▸ hvalues)

/-- **A fill**: its receipt validates, its commit is accepted, and the order is no longer
pending. -/
theorem settle_walks (hs : Sound env w.books) (ho : o ∈ w.memory.pending)
    (hdue : o.createdAt ≤ now ∧ o.fillAfter ≤ now) (hobserved : ∀ t ∈ state.reserveObservedAt, t ≤ now)
    (hposition : w.memory.sellPosition o = position)
    (hquote : orderQuote env o state position now = .ok (some quote))
    (hvalues : accountFillValues env o.side quote price = some values)
    (hcash : o.side = .buy → values.net ≤ w.cash) (features : FeatureSnapshot) :
    Walks env price (settle env o state features src now price position quote values)
      (fun _ w' => KeepsOthers o w w') w := by
  unfold settle
  refine (tick_quietly w).walks.bind fun fillId w1 _ ⟨h1, _⟩ => ?_
  refine (validatedReceipt_quietly _).walks.bind fun r w2 _ ⟨h2, hr⟩ => ?_
  rw [fillReceipt_migrated (orderQuote_payable hquote) hvalues] at hr
  subst hr
  have hq : Quiet w w2 := h1.trans h2
  have hs2 : Sound env w2.books := hq.sound hs
  have ho2 : o ∈ w2.memory.pending := by rwa [hq.pending]
  have hready : Ready env price w2.books o (fillReceipt env fillId o state src now price position quote values) :=
    fillReceipt_ready ho2 (hs.latency o ho) hdue hobserved hquote hvalues fun hside => by
      have hcash2 : w2.books.cash = w.cash := hq.cash
      rw [hcash2]
      exact hcash hside
  rcases orderQuote_ok hquote with ⟨hside, -⟩ | ⟨hside, p, hp, hopened, -⟩
  · rw [sellPosition_buy hside] at hposition
    subst hposition
    exact (settleBuy_walks hs2 hready hside state features price).mono fun _ _ =>
      hq.keepsOthers_trans
  · subst hp
    obtain ⟨hmem, hmint⟩ := sellPosition_sell hside hposition
    have hvalid : FillCommitValid (o.filled now)
        (fillReceipt env fillId o state src now price (some p) quote values) p.toHolding :=
      fillReceipt_valid (hs.latency o ho) hdue hobserved hmint
        (fun hbuy => by rw [hside] at hbuy; cases hbuy) fun _ => ⟨p, rfl, rfl, hopened⟩
    have hmem2 : p ∈ w2.memory.positions := by rwa [hq.positions]
    exact (settleSell_walks hs2 hready hside hmem2 rfl hvalid).mono fun _ _ => hq.keepsOthers_trans

theorem failOrder_walks {reason : OrderReason} (ho : o ∈ w.memory.pending) (h : Grounds env price w.books o reason) :
    Walks env price (failOrder env o reason now) (fun _ w' => KeepsOthers o w w') w :=
  retireOrder_walks ho (.inl rfl) h

theorem orderQuote_grounds {reason : OrderReason}
    (h : orderQuote env o state (w.memory.sellPosition o) now = .error reason) :
    Grounds env price w.books o reason := by
  unfold orderQuote at h
  cases hside : o.side with
  | buy =>
    simp only [hside] at h
    split at h
    · cases h
      exact .trivial (by simp) rfl
    · cases h
  | sell =>
    simp only [hside] at h
    cases hposition : w.memory.sellPosition o with
    | none =>
      rw [hposition] at h
      cases h
      refine ⟨fun _ => ⟨hside, ?_⟩, fun hshort => by cases hshort⟩
      rw [Memory.sellPosition, hside] at hposition
      exact Table.get?_eq_none.mp hposition
    | some p =>
      rw [hposition] at h
      dsimp only at h
      split_ifs at h
      split at h
      · cases h
        exact .trivial (by simp) rfl
      · cases h

/-- **An order that is due is filled, or it fails, or it waits.** -/
theorem fill_walks (hs : Sound env w.books) (ho : o ∈ w.memory.pending)
    (hobserved : ∀ t ∈ state.reserveObservedAt, t ≤ now) (features : FeatureSnapshot) :
    Walks env price (fill env o state features src now price) (fun _ w' => KeepsOthers o w w') w := by
  unfold fill
  refine .ite (fun _ => .pure (Quiet.refl.keepsOthers o)) fun hdue => .get_bind ?_
  rw [not_or, not_lt, not_lt] at hdue
  dsimp only
  split
  · next reason hreason =>
    exact (failOrder_walks ho (orderQuote_grounds hreason)).bind fun _ _ _ hkeep => .pure hkeep
  · exact .pure (Quiet.refl.keepsOthers o)
  · next quote hquote =>
    split
    · exact (failOrder_walks ho (.trivial (by simp) rfl)).bind fun _ _ _ hkeep => .pure hkeep
    · next values hvalues =>
      refine .ite (fun hshort => ?_) fun henough => ?_
      · -- the cash does not even cover what the request comes to
        obtain ⟨required, hrequired, hle⟩ := net_le_required hshort.1 hquote hvalues
        have hgrounds : Grounds env price w.books o .virtualCashChanged :=
          ⟨fun h => (by cases h), fun _ => ⟨hshort.1, required, hrequired, hshort.2.trans_le hle⟩⟩
        exact (failOrder_walks ho hgrounds).bind fun _ _ _ hkeep => .pure hkeep
      · rw [not_and, not_lt] at henough
        exact (settle_walks hs ho hdue hobserved rfl hquote hvalues henough features).bind
          fun _ _ _ hkeep => .pure hkeep

/-! ### Updates -/

section

variable (hs : Sound env w.books)
include hs

theorem fillDueOrder_walks {u : Update} (ho : o ∈ w.memory.pending)
    (hobserved : ∀ t ∈ u.state.reserveObservedAt, t ≤ u.now) :
    Walks env u.solUsdPrice (fillDueOrder env u o) (fun _ w' => KeepsOthers o w w') w := by
  unfold fillDueOrder
  refine .get_bind (.ite (fun _ => .pure (Quiet.refl.keepsOthers o)) fun _ =>
    .ite (fun _ => .pure (Quiet.refl.keepsOthers o)) fun _ => ?_)
  split
  · next hside =>
    refine .ite (fun _ => .pure (Quiet.refl.keepsOthers o)) fun _ => ?_
    refine (pendingBuyFillBlocker_quietly u.mode u.features).walks.bind fun blocker w1 _ ⟨h1, hshort⟩ => ?_
    have hs1 : Sound env w1.books := h1.sound hs
    have ho1 : o ∈ w1.memory.pending := by rwa [h1.pending]
    cases blocker with
    | none => exact (fill_walks hs1 ho1 hobserved u.features).mono fun _ _ => h1.keepsOthers_trans
    | some blocker =>
      have hgrounds : Grounds env u.solUsdPrice w1.books o (.fillRejected blocker) := by
        refine ⟨fun h => (by cases h), fun h => ⟨hside, ?_⟩⟩
        have hcash1 : w1.books.cash = w.cash := h1.cash
        rw [hcash1]
        refine hshort ?_
        unfold OrderReason.cashShort at h
        split at h
        · next heq => cases heq
        · next heq => cases heq; rfl
        · cases h
      exact (failOrder_walks ho1 hgrounds).bind fun _ _ _ h2 => .pure (h1.keepsOthers_trans h2)
  · exact .ite (fun _ => .pure (Quiet.refl.keepsOthers o)) fun _ => fill_walks hs ho hobserved u.features

theorem fillDueOrders_walks (u : Update) (records : Bool) :
    Walks env u.solUsdPrice (fillDueOrders env u records) (fun _ _ => True) w := by
  unfold fillDueOrders
  refine .ite (fun _ => .pure trivial) fun hfuture => .get_bind ?_
  have hobserved : ∀ t ∈ u.state.reserveObservedAt, t ≤ u.now := fun t ht => by
    by_contra hlt
    exact hfuture (by simpa [Update.fromTheFuture] using ⟨t, ht, not_le.mp hlt⟩)
  refine (pendingLoop_walks hs fun o w' hs' ho => fillDueOrder_walks hs' ho hobserved).bind
    fun receipts w1 _ _ => ?_
  exact .ite (fun _ => (recordEquity_quietly u.now _).walks.bind fun _ _ _ _ => .pure trivial) fun _ => .pure trivial

theorem markUpdate_walks (u : Update) :
    Walks env price (markUpdate env u) (fun _ _ => True) w :=
  markPosition_walks hs u.state u.features u.solUsdPrice _

theorem reassessPosition_walks (u : Update) :
    Walks env price (reassessPosition env u) (fun _ _ => True) w :=
  (markUpdate_walks hs u).bind fun _ _ hw _ => scheduleExitIfNeeded_walks (hs.settled hw) _ _ _ _ _ _

theorem onMarketState_walks (u : Update) (eventKind : EventKind) :
    Walks env u.solUsdPrice (onMarketState env u eventKind) (fun _ _ => True) w := by
  unfold onMarketState
  refine .ite (fun _ => .pure trivial) fun _ => ?_
  refine (reassessPosition_walks hs u).bind fun _ w1 hw1 _ => ?_
  have hs1 := hs.settled hw1
  refine (fillDueOrders_walks hs1 u false).bind fun receipts w2 hw2 _ => ?_
  refine (expireStuckOrders_walks (hs1.settled hw2) u.now).bind fun _ w3 _ _ => ?_
  exact (recordEquity_quietly u.now _).walks.bind fun _ _ _ _ => .pure trivial

theorem processDueOrders_walks (u : Update) (records : Bool) :
    Walks env u.solUsdPrice (processDueOrders env u records) (fun _ _ => True) w := by
  unfold processDueOrders
  refine .ite (fun _ => .pure trivial) fun _ => ?_
  exact (markUpdate_walks hs u).bind fun _ _ hw _ => fillDueOrders_walks (hs.settled hw) u records

theorem observeMarketState_walks (u : Update) :
    Walks env price (observeMarketState env u) (fun _ _ => True) w :=
  (markUpdate_walks hs u).bind fun _ _ _ _ => (recordEquity_quietly u.now false).walks.mono fun _ _ _ => trivial

theorem reassessAndProcessDueOrders_walks (u : Update) :
    Walks env u.solUsdPrice (reassessAndProcessDueOrders env u) (fun _ _ => True) w :=
  (reassessPosition_walks hs u).bind fun _ _ hw _ => fillDueOrders_walks (hs.settled hw) u true

end

/-! ### Actions -/

/-- **Every action goes by changes of the books.** -/
theorem perform_walks (hs : Sound env w.books) (action : Action) (h : action ≠ .restart) :
    Walks env action.price (perform env action) (fun _ _ => True) w := by
  cases action with
  | submitDecision decision price plan =>
    exact (submitDecisionWithReason_walks hs decision plan).bind fun _ _ _ _ => .pure trivial
  | onMarketState u eventKind => exact (onMarketState_walks hs u eventKind).bind fun _ _ _ _ => .pure trivial
  | processDueOrders u records => exact (processDueOrders_walks hs u records).bind fun _ _ _ _ => .pure trivial
  | observeMarketState u => exact observeMarketState_walks hs u
  | reassessPosition u => exact reassessPosition_walks hs u
  | reassessAndProcessDueOrders u =>
    exact (reassessAndProcessDueOrders_walks hs u).bind fun _ _ _ _ => .pure trivial
  | expireStuckOrders now => exact (expireStuckOrders_walks hs now).bind fun _ _ _ _ => .pure trivial
  | cancelPendingOrders now reason =>
    exact (cancelWhere_walks hs _ now reason).bind fun _ _ _ _ => .pure trivial
  | cancelPendingBuys now reason => exact (cancelWhere_walks hs _ now reason).bind fun _ _ _ _ => .pure trivial
  | cancelPendingSells now reason => exact (cancelWhere_walks hs _ now reason).bind fun _ _ _ _ => .pure trivial
  | scheduleProfileTransitionExits now =>
    exact (scheduleProfileTransitionExits_walks hs now).bind fun _ _ _ _ => .pure trivial
  | restart => exact absurd rfl h

theorem step_cases (hs : Sound env w.books) (action : Action) :
    (action = .restart ∧ (step env w action).books = w.books.restart) ∨
      Ended (Change env action.price) env.mayFail w.books (step env w action).books := by
  by_cases h : action = .restart
  · subst h
    exact .inl ⟨rfl, rfl⟩
  · refine .inr (Wp.after (P := fun w' : World =>
      Ended (Change env action.price) env.mayFail w.books w'.books) ?_)
    exact Wp.mono (perform_walks hs action h) (fun _ _ h => h.1.ended) fun _ _ h => h.1

/-- **An invariant of runs**: it holds at the opening, every change keeps it, also where a write
that may fail breaks it off, and so does a restart. -/
theorem run_invariant {I : Books → Prop} (opened : I (World.opened env).books)
    (change : ∀ (action : Action) b b', Sound env b → I b → Change env action.price none b b' → I b')
    (broken : ∀ (action : Action) site b b', env.mayFail site → Sound env b → I b →
      Change env action.price (some site) b b' → I b')
    (restart : ∀ b, Sound env b → I b → I b.restart) (actions : List Action) :
    Sound env (run env actions).books ∧ I (run env actions).books := by
  have hstep : ∀ (w : World) (action : Action), Sound env w.books ∧ I w.books →
      Sound env (step env w action).books ∧ I (step env w action).books := by
    rintro w action ⟨hs, hI⟩
    rcases step_cases hs action with ⟨-, hbooks⟩ | hended
    · rw [hbooks]
      exact ⟨hs.restart, restart _ hs hI⟩
    · exact hended.invariant (I := fun b => Sound env b ∧ I b) ⟨hs, hI⟩
        (fun b b' h hc => ⟨h.1.change hc, change action b b' h.1 h.2 hc⟩)
        fun site b b' hfail h hc => ⟨h.1.change hc, broken action site b b' hfail h.1 h.2 hc⟩
  suffices h : ∀ (actions : List Action) (w : World), Sound env w.books ∧ I w.books →
      Sound env (actions.foldl (step env) w).books ∧ I (actions.foldl (step env) w).books from
    h actions _ ⟨Sound.opened env, opened⟩
  intro actions
  induction actions with
  | nil => exact fun w h => h
  | cons action actions ih => exact fun w h => ih _ (hstep w action h)

/-- **The books are sound in every run**, whichever writes fail. -/
theorem run_sound (actions : List Action) : Sound env (run env actions).books :=
  (run_invariant (I := fun _ => True) trivial (fun _ _ _ _ _ _ => trivial) (fun _ _ _ _ _ _ _ _ => trivial)
    (fun _ _ _ => trivial) actions).1

end SignalArcade.Paper
