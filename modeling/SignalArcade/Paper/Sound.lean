import SignalArcade.Paper.Books

/-!
# What always holds of the books

`Sound` is what every change keeps, the broken-off ones included: whichever writes fail,
the money adds up, every fill can be replayed and follows its order, no mint is bought
twice, and no two orders that can still be filled are of one mint.
-/

namespace SignalArcade.Paper

open List

/-- A fill agrees with its order as it is stored: its quote replays, as long as the audit reads
its fee components, and while the order is stored as filled its times are not objected to. -/
structure Audited (fills : List FillReceipt) (f : FillReceipt) (row : PaperOrder) : Prop where
  replays : f.fewComponents → feeQuoteReplayStatus f (some row) = .matched
  chronology : row.status = .filled → fillChronologyReason f (some row) (entryFill fills f.mint) = none

/-- The invariant of the books. -/
structure Sound (env : Env) (b : Books) : Prop where
  pending_known : ∀ o ∈ b.pending, o.orderId < b.ticks
  stored_known : ∀ row ∈ b.orders, row.orderId < b.ticks
  /-- What is stored of a pending order asks for the same. -/
  twin : ∀ o ∈ b.pending, ∀ row ∈ b.orders, row.orderId = o.orderId → row.toRequest = o.toRequest
  durable : ∀ row ∈ b.orders, row.status = .pending → ∃ o ∈ b.pending, o.orderId = row.orderId
  open_unfilled : ∀ row ∈ b.orders, row.status = .pending → b.Unfilled row.orderId
  latency : ∀ o ∈ b.pending, o.createdAt ≤ o.fillAfter
  amounts_nonneg : ∀ o ∈ b.pending, 0 ≤ o.requestedSolLamports ∧ 0 ≤ o.reservedAccountMinor
  not_gone : ∀ o, o ∈ b.pending ∨ o ∈ b.orders → o.failureReason ≠ some .positionNoLongerExists
  sell_unfilled : ∀ o ∈ b.pending, o.side = .sell → b.Unfilled o.orderId
  buy_untraded : ∀ o ∈ b.pending, o.side = .buy → b.Unfilled o.orderId → o.mint ∉ b.traded
  sell_held : ∀ o ∈ b.pending, o.side = .sell →
    ∃ p ∈ b.positions, p.mint = o.mint ∧ p.tokenUnits = o.requestedTokenUnits
  one_order : ∀ o ∈ b.pending, ∀ o' ∈ b.pending, b.Unfilled o.orderId → b.Unfilled o'.orderId →
    o.mint = o'.mint → o.orderId = o'.orderId
  traded_iff : ∀ m, m ∈ b.traded ↔ ∃ f ∈ b.fills, f.side = .buy ∧ f.mint = m
  /-- A mint is bought once. -/
  one_buy : ∀ f ∈ b.fills, ∀ f' ∈ b.fills, f.side = .buy → f'.side = .buy → f.mint = f'.mint → f = f'
  filled : ∀ f ∈ b.fills, ∃ row ∈ b.orders, row.orderId = f.orderId ∧ Audited b.fills f row
  one_fill : (b.fills.map (·.orderId)).Nodup
  /-- The positions in memory are those stored, up to how they are valued. -/
  held : (b.positions.rows.map (·.toHolding)).Perm (b.stored.rows.map (·.toHolding))
  bought : ∀ p ∈ b.positions, ∃ f ∈ b.fills, f.side = .buy ∧ f.mint = p.mint ∧ f.filledAt = p.openedAt
  book_nonneg : ∀ p ∈ b.positions, 0 ≤ p.bookValueLamports
  /-- The cash is the bankroll, plus what was realized, less what the open positions cost. -/
  cash_eq : b.cash = env.startingLamports + b.realized - (b.positions.rows.map (·.entryCostLamports)).sum
  inventory_eq : ∀ m, balance b.ledger (.inventory m) =
    ((b.positions.get? m).map (·.bookValueLamports)).getD 0
  cash_nonneg : 0 ≤ b.cash

/-! ### The ledger of a fill -/

theorem balance_append (ledger : List LedgerTransaction) (tx : LedgerTransaction) (account : Account) :
    balance (ledger ++ [tx]) account = balance ledger account + tx.amount account := by
  simp [balance]

variable {r : FillReceipt} {p : Position} {tx : LedgerTransaction}

theorem buyEntries_cash (h : tx.entries = buyEntries r) : tx.amount .cash = -r.accountNetMinor := by
  simp [LedgerTransaction.amount, h, buyEntries, LedgerEntry.amount]

theorem buyEntries_inventory (h : tx.entries = buyEntries r) (m : String) :
    tx.amount (.inventory m) = if m = r.mint then r.accountNetMinor - r.accountNetworkFeeMinor else 0 := by
  by_cases hm : m = r.mint
  · simp [LedgerTransaction.amount, h, buyEntries, LedgerEntry.amount, hm]
  · have hm' : ¬ r.mint = m := fun he => hm he.symm
    simp [LedgerTransaction.amount, h, buyEntries, hm, hm']

variable {position : Holding}

section

variable (h : tx.entries = sellEntries r position)
include h

theorem sellEntries_cash :
    tx.amount .cash = r.accountNetMinor := by
  by_cases hg : position.bookValueLamports ≤ r.accountGrossMinor <;>
    simp [LedgerTransaction.amount, h, sellEntries, LedgerEntry.amount, hg]

theorem sellEntries_inventory (m : String) :
    tx.amount (.inventory m) = if m = r.mint then -position.bookValueLamports else 0 := by
  by_cases hg : position.bookValueLamports ≤ r.accountGrossMinor <;> by_cases hm : m = r.mint
  all_goals
    have hm' : r.mint = m ↔ m = r.mint := eq_comm
    simp [LedgerTransaction.amount, h, sellEntries, LedgerEntry.amount, hg, hm', hm]

theorem sellEntries_net_nonneg :
    0 ≤ r.accountNetMinor :=
  (tx.nonneg ⟨.cash, r.accountNetMinor, 0, "Paper sell cash inflow"⟩ (by simp [h, sellEntries])).1

end

theorem buyEntries_book_nonneg (h : tx.entries = buyEntries r) :
    0 ≤ r.accountNetMinor - r.accountNetworkFeeMinor :=
  (tx.nonneg ⟨.inventory r.mint, r.accountNetMinor - r.accountNetworkFeeMinor, 0, "Virtual token inventory"⟩
    (by simp [h, buyEntries])).1

/-! ### Books that differ in one respect -/

variable {env : Env} {price : Option ℚ} {b : Books} {o : PaperOrder}

theorem feeQuoteReplayStatus_congr {o o' : PaperOrder} (h : o.toRequest = o'.toRequest) (r : FillReceipt) :
    feeQuoteReplayStatus r (some o) = feeQuoteReplayStatus r (some o') := by
  unfold feeQuoteReplayStatus
  cases r.executionFeeProvenance with
  | none => rfl
  | some recipe =>
    cases r.reserveSnapshot with
    | none => rfl
    | some reserve => simp only [replayQuote, h]

theorem exists_holding {positions : Positions} {p : Position}
    (hperm : (positions.rows.map (·.toHolding)).Perm (b.positions.rows.map (·.toHolding)))
    (hp : p ∈ b.positions) : ∃ q ∈ positions, q.toHolding = p.toHolding := by
  have hmem := hperm.symm.subset (mem_map_of_mem (f := fun q : Position => q.toHolding) hp)
  obtain ⟨q, hq, he⟩ := mem_map.mp hmem
  exact ⟨q, hq, he⟩

theorem Sound.revalued (h : Sound env b) {positions : Positions} {stored : Table ℕ Position (·.positionId)}
    (hp : (positions.rows.map (·.toHolding)).Perm (b.positions.rows.map (·.toHolding)))
    (hs : (stored.rows.map (·.toHolding)).Perm (b.stored.rows.map (·.toHolding))) :
    Sound env { b with positions := positions, stored := stored } := by
  have hback : ∀ q ∈ positions, ∃ p ∈ b.positions, p.toHolding = q.toHolding := fun q hq => by
    obtain ⟨p, hp', he⟩ := mem_map.mp
      (hp.subset (mem_map_of_mem (f := fun q : Position => q.toHolding) hq))
    exact ⟨p, hp', he⟩
  refine { h with
    sell_held := fun o ho hside => ?_
    held := hp.trans (h.held.trans hs.symm)
    bought := fun q hq => ?_
    book_nonneg := fun q hq => ?_
    cash_eq := ?_
    inventory_eq := fun m => ?_ }
  · obtain ⟨p, hp', hmint, hunits⟩ := h.sell_held o ho hside
    obtain ⟨q, hq, he⟩ := exists_holding hp hp'
    exact ⟨q, hq, by rw [he, hmint], by rw [he, hunits]⟩
  · obtain ⟨p, hp', he⟩ := hback q hq
    rw [← he]
    exact h.bought p hp'
  · obtain ⟨p, hp', he⟩ := hback q hq
    rw [← he]
    exact h.book_nonneg p hp'
  · have hsum := (hp.map (·.entryCostLamports)).sum_eq
    simp only [map_map] at hsum
    exact h.cash_eq.trans (congrArg _ hsum.symm)
  · -- a mint has the same holding before and after
    rw [h.inventory_eq m]
    suffices hget : (positions.get? m).map (·.bookValueLamports) =
        (b.positions.get? m).map (·.bookValueLamports) by rw [hget]
    cases hget : b.positions.get? m with
    | none =>
      rw [Table.get?_eq_none] at hget
      have hnone : positions.get? m = none := Table.get?_eq_none.mpr fun q hq he => by
        obtain ⟨p, hp', hh⟩ := hback q hq
        exact hget p hp' (by rw [hh, he])
      rw [hnone]
    | some p =>
      obtain ⟨hp', rfl⟩ := Table.get?_eq_some.mp hget
      obtain ⟨q, hq, he⟩ := exists_holding hp hp'
      have hsome : positions.get? p.mint = some q := Table.get?_eq_some.mpr ⟨hq, by rw [he]⟩
      rw [hsome, Option.map_some, Option.map_some, he]

theorem Sound.fresh_unfilled (h : Sound env b) (ho : Fresh b o) : b.Unfilled o.orderId := by
  intro f hf he
  obtain ⟨row, hrow, hid, -⟩ := h.filled f hf
  exact ho.not_stored row hrow (hid.trans he)

theorem Sound.expose (h : Sound env b) (ho : Placeable env price b o) : Sound env (b.expose o) := by
  have hunfilled : b.Unfilled o.orderId := h.fresh_unfilled ho.toFresh
  -- another order of the mint can only be one that has been filled
  have hother : ∀ x ∈ b.pending, b.Unfilled x.orderId → x.mint ≠ o.mint := by
    intro x hx hu hm
    cases hside : o.side with
    | buy => exact (ho.buy hside).2.1 x hx hm
    | sell =>
      obtain ⟨⟨p, hp, hmint, -⟩, hnosell⟩ := ho.sell hside
      have hxbuy : x.side = .buy := by
        cases hx' : x.side with
        | buy => rfl
        | sell => exact absurd hx' (hnosell x hx hm)
      refine h.buy_untraded x hx hxbuy hu ?_
      obtain ⟨f, hf, hfside, hfmint, -⟩ := h.bought p hp
      exact (h.traded_iff _).mpr ⟨f, hf, hfside, by rw [hfmint, hmint, hm]⟩
  refine { h with
    pending_known := Table.forall_mem_upsert ho.known h.pending_known
    twin := Table.forall_mem_upsert (fun row hrow hid => absurd hid (ho.not_stored row hrow)) h.twin
    durable := ?_
    latency := Table.forall_mem_upsert ho.latency h.latency
    amounts_nonneg := Table.forall_mem_upsert ho.amounts_nonneg h.amounts_nonneg
    not_gone := ?_
    sell_unfilled := Table.forall_mem_upsert (fun _ => hunfilled) h.sell_unfilled
    buy_untraded := Table.forall_mem_upsert (fun hside _ => (ho.buy hside).1) h.buy_untraded
    sell_held := Table.forall_mem_upsert (fun hside => (ho.sell hside).1) h.sell_held
    one_order := ?_ }
  · intro row hrow hstatus
    obtain ⟨x, hx, hid⟩ := h.durable row hrow hstatus
    exact ⟨x, Table.mem_upsert.mpr (.inr ⟨hx, ho.not_pending x hx⟩), hid⟩
  · have hreason : o.failureReason ≠ some .positionNoLongerExists := by
      rcases ho.reason with hr | ⟨why, hr⟩ <;> simp [hr]
    have hpending : ∀ x ∈ b.pending.upsert o, x.failureReason ≠ some .positionNoLongerExists :=
      Table.forall_mem_upsert hreason fun x hx => h.not_gone x (.inl hx)
    exact fun x hx => hx.elim (hpending x) fun hx => h.not_gone x (.inr hx)
  · intro x hx y hy hux huy hm
    rcases Table.mem_upsert.mp hx with rfl | ⟨hx', -⟩ <;> rcases Table.mem_upsert.mp hy with rfl | ⟨hy', -⟩
    · rfl
    · exact absurd hm.symm (hother y hy' huy)
    · exact absurd hm (hother x hx' hux)
    · exact h.one_order x hx' y hy' hux huy hm

theorem Sound.requested (h : Sound env b) {pending : Orders}
    (hback : ∀ x ∈ pending, ∃ y ∈ b.pending, y.toRequest = x.toRequest)
    (hdurable : ∀ row ∈ b.orders, row.status = .pending → ∃ x ∈ pending, x.orderId = row.orderId)
    (hreason : ∀ x ∈ pending, x.failureReason ≠ some .positionNoLongerExists) :
    Sound env { b with pending := pending } := by
  refine { h with
    pending_known := ?_
    twin := ?_
    durable := hdurable
    latency := ?_
    amounts_nonneg := ?_
    not_gone := fun x hx => hx.elim (hreason x) fun hx => h.not_gone x (.inr hx)
    sell_unfilled := ?_
    buy_untraded := ?_
    sell_held := ?_
    one_order := ?_ }
  -- each clause speaks of the request only
  · intro x hx
    obtain ⟨y, hy, he⟩ := hback x hx
    rw [← he]
    exact h.pending_known y hy
  · intro x hx
    obtain ⟨y, hy, he⟩ := hback x hx
    rw [← he]
    exact h.twin y hy
  · intro x hx
    obtain ⟨y, hy, he⟩ := hback x hx
    rw [← he]
    exact h.latency y hy
  · intro x hx
    obtain ⟨y, hy, he⟩ := hback x hx
    rw [← he]
    exact h.amounts_nonneg y hy
  · intro x hx
    obtain ⟨y, hy, he⟩ := hback x hx
    rw [← he]
    exact h.sell_unfilled y hy
  · intro x hx
    obtain ⟨y, hy, he⟩ := hback x hx
    rw [← he]
    exact h.buy_untraded y hy
  · intro x hx
    obtain ⟨y, hy, he⟩ := hback x hx
    rw [← he]
    exact h.sell_held y hy
  · intro x hx y hy
    obtain ⟨x', hx', hex⟩ := hback x hx
    obtain ⟨y', hy', hey⟩ := hback y hy
    rw [← hex, ← hey]
    exact h.one_order x' hx' y' hy'

theorem Sound.reworded (h : Sound env b) {o' : PaperOrder} (ho : o ∈ b.pending)
    (hreq : o'.toRequest = o.toRequest) (hreason : o'.failureReason ≠ some .positionNoLongerExists) :
    Sound env (b.expose o') := by
  refine h.requested (Table.forall_mem_upsert ⟨o, ho, hreq.symm⟩ fun x hx => ⟨x, hx, rfl⟩) ?_
    (Table.forall_mem_upsert hreason fun x hx => h.not_gone x (.inl hx))
  intro row hrow hstatus
  obtain ⟨x, hx, hxid⟩ := h.durable row hrow hstatus
  by_cases hxo : x.orderId = o'.orderId
  · exact ⟨o', Table.mem_upsert.mpr (.inl rfl), by rw [← hxo, hxid]⟩
  · exact ⟨x, Table.mem_upsert.mpr (.inr ⟨hx, hxo⟩), hxid⟩

variable {row : PaperOrder} {holding : Holding}

theorem Sound.save (h : Sound env b) (ho : o ∈ b.pending)
    (hreq : row.toRequest = o.toRequest) (hreason : row.failureReason ≠ some .positionNoLongerExists)
    (hfilled : row.status ≠ .filled) (hpending : row.status = .pending → b.Unfilled row.orderId) :
    Sound env { b with orders := b.orders.upsert row } := by
  have hid : row.orderId = o.orderId := by rw [hreq]
  refine { h with
    stored_known := Table.forall_mem_upsert (hid ▸ h.pending_known o ho) h.stored_known
    twin := ?_
    durable := Table.forall_mem_upsert (fun _ => ⟨o, ho, hid.symm⟩) h.durable
    open_unfilled := Table.forall_mem_upsert hpending h.open_unfilled
    not_gone := ?_
    filled := ?_ }
  · intro x hx
    refine Table.forall_mem_upsert (fun hxid => ?_) (h.twin x hx)
    rw [hreq, b.pending.eq_of_key ho hx (by rw [← hid, hxid])]
  · have hrows : ∀ x ∈ b.orders.upsert row, x.failureReason ≠ some .positionNoLongerExists :=
      Table.forall_mem_upsert hreason fun x hx => h.not_gone x (.inr hx)
    exact fun x hx => hx.elim (fun hx => h.not_gone x (.inl hx)) (hrows x)
  · intro f hf
    obtain ⟨x, hx, hxid, haudit⟩ := h.filled f hf
    by_cases hxr : x.orderId = row.orderId
    · -- the row of a filled order gives way to one that asks for the same
      refine ⟨row, Table.mem_upsert.mpr (.inl rfl), by rw [← hxr, hxid], ?_, fun hs => absurd hs hfilled⟩
      rw [feeQuoteReplayStatus_congr (hreq.trans (h.twin o ho x hx (hxr.trans hid)).symm)]
      exact haudit.replays
    · exact ⟨x, Table.mem_upsert.mpr (.inr ⟨hx, hxr⟩), hxid, haudit⟩

theorem Sound.drop (h : Sound env b) {id : ℕ} (hrow : ∀ row ∈ b.orders, row.orderId = id → row.status ≠ .pending) :
    Sound env { b with pending := b.pending.erase id } := by
  have hsub : ∀ x ∈ b.pending.erase id, x ∈ b.pending := fun x hx => (Table.mem_erase.mp hx).1
  refine h.requested (fun x hx => ⟨x, hsub x hx, rfl⟩) ?_ fun x hx => h.not_gone x (.inl (hsub x hx))
  intro row hrow' hstatus
  obtain ⟨x, hx, hxid⟩ := h.durable row hrow' hstatus
  refine ⟨x, Table.mem_erase.mpr ⟨hx, fun he => ?_⟩, hxid⟩
  exact hrow row hrow' (hxid.symm.trans he) hstatus

/-! ### Fills -/

theorem Sound.not_traded (h : Sound env b) (ho : o ∈ b.pending) (hside : o.side = .buy)
    (hu : b.Unfilled o.orderId) : ∀ f ∈ b.fills, f.side = .buy → f.mint ≠ o.mint := fun f hf hbuy hm =>
  h.buy_untraded o ho hside hu ((h.traded_iff _).mpr ⟨f, hf, hbuy, hm⟩)

theorem Sound.unfilled (h : Sound env b) (hc : Committed b o r holding) :
    b.Unfilled o.orderId := by
  obtain ⟨row, hrow, hid, hstatus⟩ := hc.row
  exact hid ▸ h.open_unfilled row hrow hstatus

theorem Committed.order_eq (hc : Committed b o r holding) :
    o.orderId = r.orderId ∧ o.mint = r.mint ∧ o.side = r.side := by
  obtain ⟨hid, hmint, hside, -⟩ := hc.valid.same_order
  exact ⟨hid, hmint, hside⟩

theorem unfilled_append {id : ℕ} :
    (∀ f ∈ b.fills ++ [r], f.orderId ≠ id) ↔ b.Unfilled id ∧ r.orderId ≠ id := by
  simp [Books.Unfilled, or_imp, forall_and]

theorem mem_orders_filled {now : Instant} :
    row ∈ b.orders.upsert (o.filled now) ↔ row = o.filled now ∨ row ∈ b.orders ∧ row.orderId ≠ o.orderId :=
  Table.mem_upsert

theorem entry_of_chronology {entry : Option FillReceipt} (hside : r.side = .sell)
    (h : fillChronologyReason r (some row) entry = none) : entry ≠ none := by
  rintro rfl
  unfold fillChronologyReason sellChronologyReason at h
  simp only [hside, if_true] at h
  split_ifs at h

theorem Audited.append {f : FillReceipt} (ha : Audited b.fills f row) (hf : f ∈ b.fills)
    (hnew : r.side = .buy → ∀ f ∈ b.fills, f.side = .buy → f.mint ≠ r.mint) :
    Audited (b.fills ++ [r]) f row where
  replays := ha.replays
  chronology := fun hstatus => by
    have hold := ha.chronology hstatus
    rwa [entryFill_append]
    rintro ⟨hmint, hside⟩
    cases hfs : f.side with
    | buy => exact hnew hside f hf hfs hmint.symm
    | sell =>
      -- a sell that was audited has a buy of its mint before it
      obtain ⟨e, he⟩ := Option.ne_none_iff_exists'.mp (entry_of_chronology hfs hold)
      obtain ⟨hmem, hbuy, hemint⟩ := entryFill_some he
      exact hnew hside e hmem hbuy (hemint.trans hmint.symm)

theorem Sound.filled_append (h : Sound env b) (hc : Committed b o r holding)
    (hnew : r.side = .buy → ∀ f ∈ b.fills, f.side = .buy → f.mint ≠ r.mint)
    (hentry : r.side = .sell → ∃ buy, entryFill (b.fills ++ [r]) r.mint = some buy ∧
      buy.filledAt = holding.openedAt) :
    ∀ f ∈ b.fills ++ [r], ∃ row ∈ b.orders.upsert (o.filled r.filledAt), row.orderId = f.orderId ∧
      Audited (b.fills ++ [r]) f row := by
  intro f hf
  rcases mem_append.mp hf with hf | hf
  · obtain ⟨row, hrow, hid, ha⟩ := h.filled f hf
    have hne : row.orderId ≠ o.orderId := fun he => h.unfilled hc f hf (hid.symm.trans he)
    exact ⟨row, mem_orders_filled.mpr (.inr ⟨hrow, hne⟩), hid, ha.append hf hnew⟩
  · obtain rfl := mem_singleton.mp hf
    exact ⟨o.filled f.filledAt, mem_orders_filled.mpr (.inl rfl), hc.order_eq.1, hc.replays,
      fun _ => hc.valid.chronology hentry⟩

theorem Sound.one_fill_append (h : Sound env b) (hc : Committed b o r holding) :
    ((b.fills ++ [r]).map (·.orderId)).Nodup := by
  rw [map_append]
  refine nodup_append.mpr ⟨h.one_fill, nodup_singleton _, ?_⟩
  rintro id hid id' hid' rfl
  obtain ⟨f, hf, rfl⟩ := mem_map.mp hid
  exact (hc.fresh f hf).2 (mem_singleton.mp hid')

theorem row_pending {now : Instant} (hrow : row ∈ b.orders.upsert (o.filled now)) (hstatus : row.status = .pending) :
    row ∈ b.orders ∧ row.orderId ≠ o.orderId := by
  rcases mem_orders_filled.mp hrow with rfl | hrow
  · cases hstatus
  · exact hrow

theorem Sound.not_bought (h : Sound env b) (hc : BuyCommitted env price b o r p tx) :
    ∀ f ∈ b.fills, f.side = .buy → f.mint ≠ r.mint := by
  rw [← hc.order_eq.2.1]
  exact h.not_traded hc.pending hc.side (h.unfilled hc.toCommitted)

theorem Sound.not_held (h : Sound env b) (hc : BuyCommitted env price b o r p tx) :
    ∀ q ∈ b.positions, q.mint ≠ p.mint := by
  intro q hq he
  obtain ⟨f, hf, hfbuy, hfmint, -⟩ := h.bought q hq
  exact h.not_bought hc f hf hfbuy (hfmint.trans (he.trans hc.valid.mint))

/-! ### The money of a fill -/

section

variable (hc : BuyCommitted env price b o r p tx)
include hc

theorem BuyCommitted.book_eq :
    p.bookValueLamports = r.accountNetMinor - r.accountNetworkFeeMinor := by
  obtain ⟨positionId, hholding⟩ := hc.holding
  rw [hholding]
  rfl

theorem BuyCommitted.cost_eq :
    p.entryCostLamports = r.accountNetMinor := by
  obtain ⟨positionId, hholding⟩ := hc.holding
  rw [hholding]
  rfl

theorem BuyCommitted.cash_eq :
    balance (b.ledger ++ [tx]) .cash = b.cash - r.accountNetMinor := by
  rw [balance_append, buyEntries_cash hc.entries, Books.cash, sub_eq_add_neg]

end

theorem SellCommitted.cash_eq (hc : SellCommitted b o r p tx) :
    balance (b.ledger ++ [tx]) .cash = b.cash + r.accountNetMinor := by
  rw [balance_append, sellEntries_cash hc.entries, Books.cash]

theorem Sound.buy_cost (h : Sound env b) (hc : BuyCommitted env price b o r p tx) :
    balance (b.ledger ++ [tx]) .cash =
      env.startingLamports + b.realized - ((b.positions.upsert p).rows.map (·.entryCostLamports)).sum := by
  have hsum : ((b.positions.upsert p).rows.map (·.entryCostLamports)).sum =
      (b.positions.rows.map (·.entryCostLamports)).sum + r.accountNetMinor := by
    rw [Table.rows_upsert_fresh (h.not_held hc)]
    simp [hc.cost_eq]
  rw [hc.cash_eq, h.cash_eq, hsum]
  omega

theorem Sound.sell_cost (h : Sound env b) (hc : SellCommitted b o r p tx) :
    balance (b.ledger ++ [tx]) .cash = env.startingLamports +
      (b.realized + (r.accountNetMinor - p.entryCostLamports)) -
      ((b.positions.erase p.mint).rows.map (·.entryCostLamports)).sum := by
  have hsum := Table.sum_erase (f := fun q : Position => q.entryCostLamports) hc.position
  rw [hc.cash_eq, h.cash_eq]
  omega

theorem Sound.buy_inventory (h : Sound env b) (hc : BuyCommitted env price b o r p tx) (m : String) :
    balance (b.ledger ++ [tx]) (.inventory m) =
      (((b.positions.upsert p).get? m).map (·.bookValueLamports)).getD 0 := by
  have hpmint : p.mint = r.mint := hc.valid.mint
  rw [balance_append, h.inventory_eq, buyEntries_inventory hc.entries, Table.get?_upsert, hpmint]
  split_ifs with hm
  · have hget : b.positions.get? m = none := Table.get?_eq_none.mpr fun q hq he =>
      h.not_held hc q hq (he.trans (hm.trans hpmint.symm))
    simp [hget, hc.book_eq]
  · simp

theorem Sound.sell_inventory (h : Sound env b) (hc : SellCommitted b o r p tx) (m : String) :
    balance (b.ledger ++ [tx]) (.inventory m) =
      (((b.positions.erase p.mint).get? m).map (·.bookValueLamports)).getD 0 := by
  have hpmint : p.mint = r.mint := hc.valid.mint
  rw [balance_append, h.inventory_eq, sellEntries_inventory hc.entries, Table.get?_erase, hpmint]
  split_ifs with hm
  · have hget : b.positions.get? m = some p :=
      Table.get?_eq_some.mpr ⟨hc.position, hpmint.trans hm.symm⟩
    simp [hget]
  · simp

/-! ### Commits -/

theorem Sound.open_unfilled_append (h : Sound env b) (hc : Committed b o r holding) :
    ∀ row ∈ b.orders.upsert (o.filled r.filledAt), row.status = .pending →
      ∀ f ∈ b.fills ++ [r], f.orderId ≠ row.orderId := by
  intro row hrow hstatus
  obtain ⟨hrow, hne⟩ := row_pending hrow hstatus
  refine unfilled_append.mpr ⟨h.open_unfilled row hrow hstatus, ?_⟩
  exact fun he => hne (hc.order_eq.1.trans he).symm

theorem Sound.not_gone_filled (h : Sound env b) (ho : o ∈ b.pending) {now : Instant} :
    ∀ x, x ∈ b.pending ∨ x ∈ b.orders.upsert (o.filled now) →
      x.failureReason ≠ some .positionNoLongerExists := by
  have hrows : ∀ x ∈ b.orders.upsert (o.filled now), x.failureReason ≠ some .positionNoLongerExists :=
    Table.forall_mem_upsert (h.not_gone o (.inl ho)) fun x hx => h.not_gone x (.inr hx)
  exact fun x hx => hx.elim (fun hx => h.not_gone x (.inl hx)) (hrows x)

theorem Sound.commitBuy (h : Sound env b) (hc : BuyCommitted env price b o r p tx) :
    Sound env (b.commitBuy (o.filled r.filledAt) r p tx) := by
  have hu := h.unfilled hc.toCommitted
  obtain ⟨hid, hmint, hside⟩ := hc.order_eq
  have hbuy : r.side = .buy := hside.symm.trans hc.side
  have hnew := h.not_bought hc
  have hnone := h.not_held hc
  refine { h with
    stored_known := Table.forall_mem_upsert (h.pending_known o hc.pending) h.stored_known
    twin := fun x hx row hrow hrid => ?_
    durable := fun row hrow hstatus => ?_
    open_unfilled := h.open_unfilled_append hc.toCommitted
    not_gone := h.not_gone_filled hc.pending
    sell_unfilled := fun x hx hxs => ?_
    buy_untraded := fun x hx hxs hxu => ?_
    sell_held := fun x hx hxs => ?_
    one_order := fun x hx y hy hxu hyu => ?_
    traded_iff := fun m => ?_
    one_buy := fun f hf f' hf' hfs hfs' hm => ?_
    filled := ?_
    one_fill := h.one_fill_append hc.toCommitted
    held := ?_
    bought := fun q hq => ?_
    book_nonneg := ?_
    cash_eq := h.buy_cost hc
    inventory_eq := h.buy_inventory hc
    cash_nonneg := ?_ }
  · rcases mem_orders_filled.mp hrow with rfl | ⟨hrow, -⟩
    · rw [b.pending.eq_of_key hc.pending hx hrid]
      rfl
    · exact h.twin x hx row hrow hrid
  · exact h.durable row (row_pending hrow hstatus).1 hstatus
  · refine unfilled_append.mpr ⟨h.sell_unfilled x hx hxs, fun he => ?_⟩
    rw [b.pending.eq_of_key hx hc.pending (hid.trans he).symm, hc.side] at hxs
    cases hxs
  · obtain ⟨hxu, hne⟩ := unfilled_append.mp hxu
    refine fun hm => (Finset.mem_insert.mp hm).elim (fun hm => hne ?_) (h.buy_untraded x hx hxs hxu)
    exact hid.symm.trans (h.one_order x hx o hc.pending hxu hu hm).symm
  · obtain ⟨q, hq, hqm, hqu⟩ := h.sell_held x hx hxs
    exact ⟨q, Table.mem_upsert.mpr (.inr ⟨hq, hnone q hq⟩), hqm, hqu⟩
  · exact h.one_order x hx y hy (unfilled_append.mp hxu).1 (unfilled_append.mp hyu).1
  · show m ∈ insert o.mint b.traded ↔ ∃ f ∈ b.fills ++ [r], f.side = .buy ∧ f.mint = m
    simp only [Finset.mem_insert, h.traded_iff, mem_append, mem_singleton, or_and_right, exists_or,
      exists_eq_left, hbuy, true_and, hmint]
    rw [or_comm, eq_comm]
  · rcases mem_append.mp hf with hf | hf <;> rcases mem_append.mp hf' with hf' | hf'
    · exact h.one_buy f hf f' hf' hfs hfs' hm
    · exact absurd (mem_singleton.mp hf' ▸ hm) (hnew f hf hfs)
    · exact absurd (mem_singleton.mp hf ▸ hm).symm (hnew f' hf' hfs')
    · rw [mem_singleton.mp hf, mem_singleton.mp hf']
  · exact h.filled_append hc.toCommitted (fun _ => hnew) fun hs => absurd (hbuy.symm.trans hs) (by simp)
  · have hfresh : ∀ s ∈ b.stored, s.positionId ≠ p.positionId := fun s hs => (hc.new_position s hs).2
    show ((b.positions.upsert p).rows.map _).Perm ((b.stored.upsert p).rows.map _)
    rw [Table.rows_upsert_fresh hnone, Table.rows_upsert_fresh hfresh, map_append, map_append]
    exact h.held.append_right _
  · rcases Table.mem_upsert.mp hq with rfl | ⟨hq, -⟩
    · have hmem : r ∈ b.fills ++ [r] := by simp
      exact ⟨r, hmem, hbuy, hc.valid.mint.symm, (hc.valid.buy hbuy).2.symm⟩
    · obtain ⟨f, hf, hrest⟩ := h.bought q hq
      exact ⟨f, mem_append_left _ hf, hrest⟩
  · refine Table.forall_mem_upsert ?_ h.book_nonneg
    rw [hc.book_eq]
    exact buyEntries_book_nonneg hc.entries
  · have haffordable := hc.affordable
    show 0 ≤ balance (b.ledger ++ [tx]) .cash
    rw [hc.cash_eq]
    omega

theorem Sound.held_erase (h : Sound env b) (hp : p ∈ b.positions) :
    ((b.positions.erase p.mint).rows.map (·.toHolding)).Perm
      ((b.stored.erase p.positionId).rows.map (·.toHolding)) := by
  have hleft : (b.positions.erase p.mint).rows.map (·.toHolding) =
      (b.positions.rows.map (·.toHolding)).filter fun x => x.mint ≠ p.mint := by
    rw [filter_map]
    rfl
  have hright : (b.stored.erase p.positionId).rows.map (·.toHolding) =
      (b.stored.rows.map (·.toHolding)).filter fun x => x.positionId ≠ p.positionId := by
    rw [filter_map]
    rfl
  rw [hleft, hright]
  refine (h.held.filter _).trans (Perm.of_eq (filter_congr fun x hx => ?_))
  -- among the holdings stored, the one of the mint is the one of the identifier
  have hiff : x.mint = p.mint ↔ x.positionId = p.positionId := by
    constructor
    · intro hm
      obtain ⟨q, hq, rfl⟩ := mem_map.mp (h.held.symm.subset hx)
      rw [b.positions.eq_of_key hq hp hm]
    · intro hpid
      obtain ⟨s, hs, rfl⟩ := mem_map.mp hx
      obtain ⟨s', hs', he⟩ := mem_map.mp (h.held.subset (mem_map_of_mem hp))
      rw [b.stored.eq_of_key hs hs' (hpid.trans (by rw [he])), he]
  simp only [ne_eq, hiff]

theorem Sound.sell (h : Sound env b) (hc : SellCommitted b o r p tx) :
    Sound env (b.sell (o.filled r.filledAt) r p tx) := by
  have hu := h.unfilled hc.toCommitted
  obtain ⟨hid, hmint, hside⟩ := hc.order_eq
  have hsell : r.side = .sell := hside.symm.trans hc.side
  have hpos : (b.sell (o.filled r.filledAt) r p tx).positions = b.positions.erase p.mint := by
    show b.positions.erase o.mint = b.positions.erase p.mint
    rw [hc.valid.mint, hmint]
  have hsub : ∀ {x}, x ∈ b.pending.erase o.orderId → x ∈ b.pending := fun hx => (Table.mem_erase.mp hx).1
  have hqsub : ∀ {q}, q ∈ b.positions.erase o.mint → q ∈ b.positions := fun hq => (Table.mem_erase.mp hq).1
  refine { h with
    pending_known := fun x hx => h.pending_known x (hsub hx)
    stored_known := Table.forall_mem_upsert (h.pending_known o hc.pending) h.stored_known
    twin := fun x hx row hrow hrid => ?_
    durable := fun row hrow hstatus => ?_
    open_unfilled := h.open_unfilled_append hc.toCommitted
    latency := fun x hx => h.latency x (hsub hx)
    amounts_nonneg := fun x hx => h.amounts_nonneg x (hsub hx)
    not_gone := fun x hx => h.not_gone_filled hc.pending x (hx.imp_left hsub)
    sell_unfilled := fun x hx hxs => ?_
    buy_untraded := fun x hx hxs hxu => h.buy_untraded x (hsub hx) hxs (unfilled_append.mp hxu).1
    sell_held := fun x hx hxs => ?_
    one_order := fun x hx y hy hxu hyu =>
      h.one_order x (hsub hx) y (hsub hy) (unfilled_append.mp hxu).1 (unfilled_append.mp hyu).1
    traded_iff := fun m => ?_
    one_buy := fun f hf f' hf' hfs hfs' => ?_
    filled := ?_
    one_fill := h.one_fill_append hc.toCommitted
    held := hpos ▸ h.held_erase hc.position
    bought := fun q hq => ?_
    book_nonneg := fun q hq => h.book_nonneg q (hqsub hq)
    cash_eq := hpos ▸ h.sell_cost hc
    inventory_eq := hpos ▸ h.sell_inventory hc
    cash_nonneg := ?_ }
  · obtain ⟨hx, hne⟩ := Table.mem_erase.mp hx
    rcases mem_orders_filled.mp hrow with rfl | ⟨hrow, -⟩
    · exact absurd hrid.symm hne
    · exact h.twin x hx row hrow hrid
  · obtain ⟨hrow, hne⟩ := row_pending hrow hstatus
    obtain ⟨x, hx, hxid⟩ := h.durable row hrow hstatus
    exact ⟨x, Table.mem_erase.mpr ⟨hx, fun he => hne (hxid.symm.trans he)⟩, hxid⟩
  · obtain ⟨hx, hne⟩ := Table.mem_erase.mp hx
    exact unfilled_append.mpr ⟨h.sell_unfilled x hx hxs, fun he => hne (hid.trans he).symm⟩
  · obtain ⟨hx, hne⟩ := Table.mem_erase.mp hx
    obtain ⟨q, hq, hqm, hqu⟩ := h.sell_held x hx hxs
    refine ⟨q, Table.mem_erase.mpr ⟨hq, fun he => hne ?_⟩, hqm, hqu⟩
    exact h.one_order x hx o hc.pending (h.sell_unfilled x hx hxs) hu (hqm.symm.trans he)
  · show m ∈ b.traded ↔ ∃ f ∈ b.fills ++ [r], f.side = .buy ∧ f.mint = m
    simp [h.traded_iff, hsell, or_and_right, exists_or]
  · have hbuy : ∀ {f}, f ∈ b.fills ++ [r] → f.side = .buy → f ∈ b.fills := fun hf hfs => by
      rcases mem_append.mp hf with hf | hf
      · exact hf
      · rw [mem_singleton.mp hf, hsell] at hfs
        cases hfs
    exact h.one_buy f (hbuy hf hfs) f' (hbuy hf' hfs') hfs hfs'
  · refine h.filled_append hc.toCommitted (fun hb => absurd (hsell.symm.trans hb) (by simp)) fun _ => ?_
    obtain ⟨f, hf, hfbuy, hfmint, hopened⟩ := h.bought p hc.position
    refine ⟨f, ?_, hopened⟩
    rw [entryFill_append (by simp [hsell]), ← hc.valid.mint, ← hfmint]
    exact entryFill_eq hf hfbuy fun f' hf' hbuy' hm => h.one_buy f' hf' f hf hbuy' hfbuy hm
  · obtain ⟨f, hf, hrest⟩ := h.bought q (hqsub hq)
    exact ⟨f, mem_append_left _ hf, hrest⟩
  · have hnet := sellEntries_net_nonneg hc.entries
    have hcash := h.cash_nonneg
    show 0 ≤ balance (b.ledger ++ [tx]) .cash
    rw [hc.cash_eq]
    omega

/-! ### Changes -/

theorem mark_holdings {p p' : Position} (hp : p ∈ b.positions) (hh : p'.toHolding = p.toHolding) :
    (b.positions.upsert p').rows.map (·.toHolding) = b.positions.rows.map (·.toHolding) :=
  Table.map_upsert hp (by rw [hh]) hh.symm

theorem Sound.mark_stored (h : Sound env b) {p p' : Position} (hp : p ∈ b.positions)
    (hh : p'.toHolding = p.toHolding) :
    (b.stored.upsert p').rows.map (·.toHolding) = b.stored.rows.map (·.toHolding) := by
  obtain ⟨s, hs, he⟩ := mem_map.mp (h.held.subset (mem_map_of_mem hp))
  exact Table.map_upsert hs (by rw [he, hh]) (he.trans hh.symm)

theorem Sound.grounds (h : Sound env b) (ho : o ∈ b.pending) {reason : OrderReason}
    (hg : Grounds env price b o reason) : some reason ≠ some OrderReason.positionNoLongerExists := by
  intro he
  obtain ⟨hside, hnone⟩ := hg.gone (Option.some.inj he)
  obtain ⟨p, hp, hm, -⟩ := h.sell_held o ho hside
  exact hnone p hp hm

theorem Sound.tick (h : Sound env b) {n : ℕ} (hn : b.ticks ≤ n) : Sound env { b with ticks := n } :=
  { h with
    pending_known := fun o ho => (h.pending_known o ho).trans_le hn
    stored_known := fun row hrow => (h.stored_known row hrow).trans_le hn }

/-- **Every change keeps the books sound**, also when it is broken off. -/
theorem Sound.change {site : Option WriteSite} {b' : Books} (h : Sound env b)
    (hc : Change env price site b b') : Sound env b' := by
  cases hc with
  | tick hn => exact h.tick hn
  | mark hp hh =>
    exact h.revalued (.of_eq (mark_holdings hp hh)) (.of_eq (h.mark_stored hp hh))
  | markUnsaved hp hh => exact h.revalued (.of_eq (mark_holdings hp hh)) (.refl _)
  | @place _ o ho =>
    have hmem : o ∈ b.pending.upsert o := Table.mem_upsert.mpr (.inl rfl)
    refine (h.expose ho).save hmem rfl ((h.expose ho).not_gone _ (.inl hmem)) ?_ ?_
    · rw [ho.status]
      decide
    · exact fun _ => h.fresh_unfilled ho.toFresh
  | expose ho => exact h.expose ho
  | @retire _ o status reason now ho hs hg =>
    have hne : (o.retired status reason now).status ≠ .pending := by
      rcases hs with rfl | rfl <;> simp [PaperOrder.retired]
    have hfilled : (o.retired status reason now).status ≠ .filled := by
      rcases hs with rfl | rfl <;> simp [PaperOrder.retired]
    have hsave : Sound env { b with orders := b.orders.upsert (o.retired status reason now) } :=
      h.save ho rfl (h.grounds ho hg) hfilled fun hp => absurd hp hne
    refine hsave.drop fun row hrow hid => ?_
    rcases Table.mem_upsert.mp hrow with rfl | ⟨-, hother⟩
    · exact hne
    · exact absurd hid hother
  | retireUnsaved ho _ hg => exact h.reworded ho rfl (h.grounds ho hg)
  | buy hbuy =>
    refine (h.commitBuy hbuy).drop fun row hrow hid => ?_
    rcases mem_orders_filled.mp hrow with rfl | ⟨-, hother⟩
    · exact fun hs => by cases hs
    · exact absurd hid hother
  | buyUnmarked hbuy hq hh =>
    exact (h.commitBuy hbuy).revalued (.of_eq (mark_holdings hq hh)) (.refl _)
  | sell hsell => exact h.sell hsell

theorem Sound.settled {b' : Books} (h : Sound env b) (hs : Steps.Settled (Change env price) b b') :
    Sound env b' := hs.invariant h fun _ _ h hc => h.change hc

/-! ### Opening and restarting -/

section

variable (h : Sound env b)
include h

theorem Sound.recalled_pending (hrow : row ∈ (Table.ofRows (pendingOrders b.orders) : Orders)) :
    row ∈ b.orders ∧ row.status = .pending ∧ ∃ o ∈ b.pending, o.toRequest = row.toRequest := by
  obtain ⟨hmem, hstatus⟩ := mem_recalled.mp hrow
  obtain ⟨o, ho, hid⟩ := h.durable row hmem hstatus
  exact ⟨hmem, hstatus, o, ho, (h.twin o ho row hmem hid.symm).symm⟩

theorem Sound.recalled :
    Sound env { b with pending := Table.ofRows (pendingOrders b.orders) } := by
  refine h.requested (fun row hrow => ?_) (fun row hrow hstatus => ?_) fun row hrow => ?_
  · obtain ⟨-, -, o, ho, he⟩ := h.recalled_pending hrow
    exact ⟨o, ho, he⟩
  · exact ⟨row, mem_recalled.mpr ⟨hrow, hstatus⟩, rfl⟩
  · exact h.not_gone row (.inr (h.recalled_pending hrow).1)

theorem Sound.read_perm :
    ((listPositions b.stored).map (·.toHolding)).Perm (b.positions.rows.map (·.toHolding)) :=
  ((listPositions_perm b.stored).map _).trans h.held.symm

theorem Sound.read_nodup : ((listPositions b.stored).map (·.mint)).Nodup := by
  have hmints := (h.read_perm.map (·.mint)).nodup_iff
  rw [map_map, map_map] at hmints
  exact hmints.mpr b.positions.nodup

theorem Sound.read_holdings :
    ((Table.ofRows (listPositions b.stored) : Positions).rows.map (·.toHolding)).Perm
      (b.positions.rows.map (·.toHolding)) := by
  rw [Table.rows_ofRows h.read_nodup]
  exact h.read_perm

/-- **A broker that starts from the database finds its books sound.** -/
theorem Sound.restart : Sound env b.restart := by
  have htraded : boughtMints b.fills = b.traded := by
    ext m
    rw [mem_boughtMints, h.traded_iff]
  have hb : b.restart = { b with
      pending := Table.ofRows (pendingOrders b.orders)
      positions := Table.ofRows (listPositions b.stored) } := by
    rw [Books.restart, htraded]
  rw [hb]
  exact h.recalled.revalued h.read_holdings (.refl _)

end

theorem Sound.beginning (hpending : b.pending = Table.empty) (hpositions : b.positions = Table.empty)
    (htraded : b.traded = ∅) (horders : b.orders = Table.empty) (hfills : b.fills = [])
    (hstored : b.stored = Table.empty) (hrealized : b.realized = 0) (hcash : b.cash = env.startingLamports)
    (hinventory : ∀ m, balance b.ledger (.inventory m) = 0) : Sound env b := by
  have hpending' : ∀ o, o ∉ b.pending := fun o => hpending ▸ Table.not_mem_empty
  have horders' : ∀ o, o ∉ b.orders := fun o => horders ▸ Table.not_mem_empty
  have hpositions' : ∀ p, p ∉ b.positions := fun p => hpositions ▸ Table.not_mem_empty
  refine {
    pending_known := fun o ho => absurd ho (hpending' o)
    stored_known := fun o ho => absurd ho (horders' o)
    twin := fun o ho => absurd ho (hpending' o)
    durable := fun o ho => absurd ho (horders' o)
    open_unfilled := fun o ho => absurd ho (horders' o)
    latency := fun o ho => absurd ho (hpending' o)
    amounts_nonneg := fun o ho => absurd ho (hpending' o)
    not_gone := fun o ho => ho.elim (absurd · (hpending' o)) (absurd · (horders' o))
    sell_unfilled := fun o ho => absurd ho (hpending' o)
    buy_untraded := fun o ho => absurd ho (hpending' o)
    sell_held := fun o ho => absurd ho (hpending' o)
    one_order := fun o ho => absurd ho (hpending' o)
    traded_iff := fun m => by simp [htraded, hfills]
    one_buy := fun f hf => absurd hf (by simp [hfills])
    filled := fun f hf => absurd hf (by simp [hfills])
    one_fill := by simp [hfills]
    held := by simp [hpositions, hstored, Table.empty]
    bought := fun p hp => absurd hp (hpositions' p)
    book_nonneg := fun p hp => absurd hp (hpositions' p)
    cash_eq := by simp [hcash, hrealized, hpositions, Table.empty]
    inventory_eq := fun m => ?_
    cash_nonneg := hcash ▸ env.starting_pos.le }
  rw [hinventory, hpositions]
  rfl

theorem Sound.opened (env : Env) : Sound env (World.opened env).books := by
  refine .beginning rfl rfl rfl rfl rfl rfl rfl ?_ fun m => ?_
  · simp [World.opened, World.books, Books.cash, balance, LedgerTransaction.amount, openingTransaction,
      LedgerEntry.amount]
  · simp [World.opened, World.books, balance, LedgerTransaction.amount, openingTransaction]

end SignalArcade.Paper
