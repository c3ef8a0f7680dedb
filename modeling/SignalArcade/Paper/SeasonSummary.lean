import SignalArcade.Paper.Season

/-!
# The summary of a season

`season_summary` goes through the fills of the season, pairs each sell with the first buy of its mint, and counts the
trades that are closed by what the pair comes to. The broker's own realized profit is kept along the way, each sell
adding its net amount less the cost of its position.
-/

namespace SignalArcade.Paper

open Prog List

/-! ### The summary -/

/-- What `iter_fill_contexts` yields: a fill and its order, the entry of its mint and the order of the entry. -/
structure FillContext where
  fill : FillReceipt
  order : Option PaperOrder
  entry : Option FillReceipt
  entryOrder : Option PaperOrder

/-- `iter_fill_contexts`: the fills in the order they were inserted in, read page by page from one snapshot. -/
def Database.iterFillContexts (db : Database) : List FillContext :=
  db.fills.map fun fill =>
    { fill
      order := db.paperOrders.get? fill.orderId
      entry := entryFill db.fills fill.mint
      entryOrder := (entryFill db.fills fill.mint).bind fun entry => db.paperOrders.get? entry.orderId }

def FillContext.reason (c : FillContext) : Option ChronologyReason := fillChronologyReason c.fill c.order c.entry

/-- `pnl`, of a fill that closes a trade. -/
def FillContext.pnl (c : FillContext) : Option ℤ :=
  match c.entry with
  | none => none
  | some entry =>
    if c.fill.side = .sell ∧ c.reason = none ∧ fillChronologyReason entry c.entryOrder (some entry) = none then
      some (c.fill.accountNetMinor - entry.accountNetMinor)
    else none

/-- What the loop over the fills counts. -/
structure TradeCounts where
  totalFees : ℤ := 0
  closedCount : ℕ := 0
  wins : ℕ := 0
  losses : ℕ := 0
  breakEven : ℕ := 0
  issueCount : ℕ := 0
  hasBuy : Bool := false

def TradeCounts.close (counts : TradeCounts) (pnl : ℤ) : TradeCounts :=
  { counts with
    closedCount := counts.closedCount + 1
    wins := counts.wins + if 0 < pnl then 1 else 0
    losses := counts.losses + if pnl < 0 then 1 else 0
    breakEven := counts.breakEven + if pnl = 0 then 1 else 0 }

/-- One round of the loop. -/
def TradeCounts.add (counts : TradeCounts) (c : FillContext) : TradeCounts :=
  let counts :=
    { counts with
      totalFees := counts.totalFees + (c.fill.accountProtocolFeeMinor + c.fill.accountNetworkFeeMinor)
      hasBuy := counts.hasBuy || c.fill.side = .buy
      issueCount := counts.issueCount + if c.reason ≠ none then 1 else 0 }
  match c.pnl with
  | some pnl => counts.close pnl
  | none => counts

/-- What `season_summary` returns. -/
structure SeasonSummary where
  endingEquityMinor : ℤ
  lastKnownEndingEquityMinor : ℤ
  peakEquityMinor : ℤ
  realizedPnlMinor : ℤ
  netPnlMinor : ℤ
  totalFeesMinor : ℤ
  closedTrades : ℕ
  wins : ℕ
  losses : ℕ
  breakEven : ℕ
  endingDrawdownFraction : ℚ
  openPositions : ℕ
  meaningfulActivity : Bool
  executionAuditIssueCount : ℕ

/-- The summary, from all fills. -/
def seasonSummary (env : Env) : Broker SeasonSummary := do
  let portfolio ← snapshot env none false
  let w ← get
  let counts := w.database.iterFillContexts.foldl TradeCounts.add {}
  return {
    endingEquityMinor := portfolio.equityLamports
    lastKnownEndingEquityMinor := portfolio.lastKnownEquityLamports
    peakEquityMinor := max (max env.startingLamports portfolio.equityLamports) w.database.peakEquityLamports
    realizedPnlMinor := portfolio.realizedPnlLamports
    netPnlMinor := portfolio.equityLamports - env.startingLamports
    totalFeesMinor := counts.totalFees
    closedTrades := counts.closedCount
    wins := counts.wins
    losses := counts.losses
    breakEven := counts.breakEven
    endingDrawdownFraction := portfolio.drawdownFraction
    openPositions := portfolio.positions.length
    meaningfulActivity := counts.hasBuy || !portfolio.positions.isEmpty || counts.closedCount ≠ 0
    executionAuditIssueCount := counts.issueCount }

/-- The profits of the closed trades, in the order of their sells. -/
def Database.tradePnls (db : Database) : List ℤ := db.iterFillContexts.filterMap FillContext.pnl

/-! ### The counts -/

/-- The counts, from the profits. -/
theorem foldl_add_counts (contexts : List FillContext) (counts : TradeCounts) :
    let pnls := contexts.filterMap FillContext.pnl
    let counts' := contexts.foldl TradeCounts.add counts
    counts'.closedCount = counts.closedCount + pnls.length ∧ counts'.wins = counts.wins + pnls.countP (0 < ·) ∧
      counts'.losses = counts.losses + pnls.countP (· < 0) ∧
      counts'.breakEven = counts.breakEven + pnls.countP (· = 0) := by
  induction contexts generalizing counts with
  | nil => simp
  | cons c contexts ih =>
    obtain ⟨hclosed, hwins, hlosses, hbreak⟩ := ih (counts.add c)
    cases hpnl : c.pnl with
    | none =>
      have hadd : (counts.add c).closedCount = counts.closedCount ∧ (counts.add c).wins = counts.wins ∧
          (counts.add c).losses = counts.losses ∧ (counts.add c).breakEven = counts.breakEven := by
        simp [TradeCounts.add, hpnl]
      simp only [foldl_cons, filterMap_cons, hpnl, hclosed, hwins, hlosses, hbreak, hadd, and_self]
    | some pnl =>
      have hadd : (counts.add c).closedCount = counts.closedCount + 1 ∧
          (counts.add c).wins = counts.wins + (if 0 < pnl then 1 else 0) ∧
          (counts.add c).losses = counts.losses + (if pnl < 0 then 1 else 0) ∧
          (counts.add c).breakEven = counts.breakEven + (if pnl = 0 then 1 else 0) := by
        simp [TradeCounts.add, hpnl, TradeCounts.close]
      simp only [foldl_cons, filterMap_cons, hpnl, hclosed, hwins, hlosses, hbreak, hadd, length_cons,
        countP_cons, decide_eq_true_eq]
      omega

theorem length_outcomes (pnls : List ℤ) :
    pnls.length = pnls.countP (0 < ·) + pnls.countP (· < 0) + pnls.countP (· = 0) := by
  induction pnls with
  | nil => rfl
  | cons pnl pnls ih =>
    simp only [length_cons, countP_cons, decide_eq_true_eq, ih]
    split_ifs <;> omega

/-! ### Buys and sells -/

def profit (fills : List FillReceipt) (f : FillReceipt) : ℤ :=
  if f.side = .sell then f.accountNetMinor - ((entryFill fills f.mint).map (·.accountNetMinor)).getD 0 else 0

/-- The sells follow the buys. -/
structure Paired (b : Books) : Prop where
  /-- A sell comes after a buy of its mint. -/
  preceded : ∀ before f after, b.fills = before ++ f :: after → f.side = .sell →
    ∃ buy ∈ before, buy.side = .buy ∧ buy.mint = f.mint
  /-- A mint is sold once. -/
  one_sell : ∀ f ∈ b.fills, ∀ f' ∈ b.fills, f.side = .sell → f'.side = .sell → f.mint = f'.mint → f = f'
  unsold : ∀ p ∈ b.positions, ∀ f ∈ b.fills, f.side = .sell → f.mint ≠ p.mint
  cost : ∀ p ∈ b.positions, ∀ f ∈ b.fills, f.side = .buy → f.mint = p.mint → f.accountNetMinor = p.entryCostLamports
  realized_eq : b.realized = (b.fills.map (profit b.fills)).sum

variable {env : Env} {price : Option ℚ} {b b' : Books} {o : PaperOrder} {r : FillReceipt} {p : Position}
  {tx : LedgerTransaction}

theorem Paired.bought (h : Paired b) {f : FillReceipt} (hf : f ∈ b.fills) (hside : f.side = .sell) :
    ∃ buy ∈ b.fills, buy.side = .buy ∧ buy.mint = f.mint := by
  obtain ⟨before, after, hfills⟩ := append_of_mem hf
  obtain ⟨buy, hbuy, hrest⟩ := h.preceded before f after hfills hside
  exact ⟨buy, hfills ▸ mem_append_left _ hbuy, hrest⟩

theorem Paired.of_holdings (h : Paired b) (hfills : b'.fills = b.fills) (hrealized : b'.realized = b.realized)
    (hpositions : ∀ q ∈ b'.positions, ∃ p ∈ b.positions, p.toHolding = q.toHolding) : Paired b' where
  preceded := hfills ▸ h.preceded
  one_sell := hfills ▸ h.one_sell
  unsold := by
    intro q hq
    obtain ⟨p, hp, he⟩ := hpositions q hq
    rw [hfills, ← he]
    exact h.unsold p hp
  cost := by
    intro q hq
    obtain ⟨p, hp, he⟩ := hpositions q hq
    rw [hfills, ← he]
    exact h.cost p hp
  realized_eq := by rw [hfills, hrealized, h.realized_eq]

theorem map_profit_append (h : ∀ f ∈ b.fills, f.side = .sell → ¬ (r.mint = f.mint ∧ r.side = .buy)) :
    b.fills.map (profit (b.fills ++ [r])) = b.fills.map (profit b.fills) := by
  refine map_congr_left fun f hf => ?_
  unfold profit
  split_ifs with hside
  · rw [entryFill_append (h f hf hside)]
  · rfl

theorem Paired.preceded_append (h : Paired b)
    (hr : r.side = .sell → ∃ buy ∈ b.fills, buy.side = .buy ∧ buy.mint = r.mint) :
    ∀ before f after, b.fills ++ [r] = before ++ f :: after → f.side = .sell →
      ∃ buy ∈ before, buy.side = .buy ∧ buy.mint = f.mint := by
  intro before f after hfills hside
  rcases eq_nil_or_concat after with rfl | ⟨after, x, rfl⟩
  · obtain ⟨hbefore, hf⟩ := append_inj' hfills rfl
    obtain rfl := List.cons.inj hf |>.1
    exact hbefore ▸ hr hside
  · rw [concat_eq_append, ← cons_append, ← append_assoc] at hfills
    exact h.preceded before f after (append_inj' hfills rfl).1 hside

theorem Paired.commitBuy (hs : Sound env b) (h : Paired b) (hc : BuyCommitted env price b o r p tx) :
    Paired (b.commitBuy (o.filled r.filledAt) r p tx) := by
  have hbuy : r.side = .buy := hc.order_eq.2.2.symm.trans hc.side
  have hmint : p.mint = r.mint := hc.valid.mint
  have hnot : r.side ≠ .sell := by simp [hbuy]
  -- no fill so far is of the mint
  have hnew : ∀ f ∈ b.fills, f.mint ≠ r.mint := by
    intro f hf he
    cases hside : f.side with
    | buy => exact hs.not_bought hc f hf hside he
    | sell =>
      obtain ⟨buy, hmem, hbuyside, hbuymint⟩ := h.bought hf hside
      exact hs.not_bought hc buy hmem hbuyside (hbuymint.trans he)
  have hold : ∀ f ∈ b.fills ++ [r], f.side = .sell → f ∈ b.fills := by
    intro f hf hside
    rcases mem_append.mp hf with hf | hf
    · exact hf
    · exact absurd (mem_singleton.mp hf ▸ hside) hnot
  refine {
    preceded := h.preceded_append fun hside => absurd hside hnot
    one_sell := fun f hf f' hf' hside hside' => h.one_sell f (hold f hf hside) f' (hold f' hf' hside') hside hside'
    unsold := ?_
    cost := ?_
    realized_eq := ?_ }
  · intro q hq f hf hside
    rcases Table.mem_upsert.mp hq with rfl | ⟨hq, -⟩
    · exact hmint ▸ hnew f (hold f hf hside)
    · exact h.unsold q hq f (hold f hf hside) hside
  · intro q hq f hf hside he
    rcases Table.mem_upsert.mp hq with rfl | ⟨hq, -⟩
    · rcases mem_append.mp hf with hf | hf
      · exact absurd (he.trans hmint) (hnew f hf)
      · rw [mem_singleton.mp hf, hc.cost_eq]
    · rcases mem_append.mp hf with hf | hf
      · exact h.cost q hq f hf hside he
      · rw [mem_singleton.mp hf, ← hmint] at he
        exact absurd he.symm (hs.not_held hc q hq)
  · have hr : profit (b.fills ++ [r]) r = 0 := if_neg hnot
    show b.realized = ((b.fills ++ [r]).map (profit (b.fills ++ [r]))).sum
    rw [map_append, sum_append, map_profit_append fun f hf _ he => hnew f hf he.1.symm, ← h.realized_eq]
    simp [hr]

theorem Paired.sell (hs : Sound env b) (h : Paired b) (hc : SellCommitted b o r p tx) :
    Paired (b.sell (o.filled r.filledAt) r p tx) := by
  obtain ⟨hid, hmint, hside⟩ := hc.order_eq
  have hsell : r.side = .sell := hside.symm.trans hc.side
  have hpmint : p.mint = r.mint := hc.valid.mint
  obtain ⟨buy, hbuy, hbuyside, hbuymint, -⟩ := hs.bought p hc.position
  have hentry : entryFill b.fills r.mint = some buy := by
    rw [← hpmint, ← hbuymint]
    exact entryFill_eq hbuy hbuyside fun f hf hfside hm => hs.one_buy f hf buy hbuy hfside hbuyside hm
  have hcost : buy.accountNetMinor = p.entryCostLamports := h.cost p hc.position buy hbuy hbuyside hbuymint
  have hunsold : ∀ f ∈ b.fills, f.side = .sell → f.mint ≠ r.mint := hpmint ▸ h.unsold p hc.position
  refine {
    preceded := h.preceded_append fun _ => ⟨buy, hbuy, hbuyside, hbuymint.trans hpmint⟩
    one_sell := ?_
    unsold := ?_
    cost := ?_
    realized_eq := ?_ }
  · intro f hf f' hf' hfs hfs' hm
    rcases mem_append.mp hf with hf | hf <;> rcases mem_append.mp hf' with hf' | hf'
    · exact h.one_sell f hf f' hf' hfs hfs' hm
    · rw [mem_singleton.mp hf'] at hm
      exact absurd hm (hunsold f hf hfs)
    · rw [mem_singleton.mp hf] at hm
      exact absurd hm.symm (hunsold f' hf' hfs')
    · rw [mem_singleton.mp hf, mem_singleton.mp hf']
  · intro q hq f hf hfs he
    obtain ⟨hq, hne⟩ := Table.mem_erase.mp hq
    rcases mem_append.mp hf with hf | hf
    · exact h.unsold q hq f hf hfs he
    · rw [mem_singleton.mp hf] at he
      exact hne (he.symm.trans hmint.symm)
  · intro q hq f hf hfs he
    obtain ⟨hq, -⟩ := Table.mem_erase.mp hq
    rcases mem_append.mp hf with hf | hf
    · exact h.cost q hq f hf hfs he
    · rw [mem_singleton.mp hf, hsell] at hfs
      cases hfs
  · have hr : profit (b.fills ++ [r]) r = r.accountNetMinor - p.entryCostLamports := by
      rw [profit, if_pos hsell, entryFill_append (by simp [hsell]), hentry, ← hcost]
      rfl
    show b.realized + (r.accountNetMinor - p.entryCostLamports) = ((b.fills ++ [r]).map (profit (b.fills ++ [r]))).sum
    rw [map_append, sum_append, map_profit_append (by simp [hsell]), ← h.realized_eq]
    simp [hr]

/-! ### Runs -/

theorem mem_upsert_holding {q p' : Position} (hp : p ∈ b.positions) (hh : p'.toHolding = p.toHolding)
    (hq : q ∈ b.positions.upsert p') : ∃ p ∈ b.positions, p.toHolding = q.toHolding := by
  rcases Table.mem_upsert.mp hq with rfl | ⟨hq, -⟩
  · exact ⟨p, hp, hh.symm⟩
  · exact ⟨q, hq, rfl⟩

theorem Paired.change {site : Option WriteSite} (hs : Sound env b) (h : Paired b) (hc : Change env price site b b') :
    Paired b' := by
  cases hc with
  | tick _ => exact h.of_holdings rfl rfl fun q hq => ⟨q, hq, rfl⟩
  | mark hp hh => exact h.of_holdings rfl rfl fun q hq => mem_upsert_holding hp hh hq
  | markUnsaved hp hh => exact h.of_holdings rfl rfl fun q hq => mem_upsert_holding hp hh hq
  | place _ => exact h.of_holdings rfl rfl fun q hq => ⟨q, hq, rfl⟩
  | expose _ => exact h.of_holdings rfl rfl fun q hq => ⟨q, hq, rfl⟩
  | retire _ _ _ => exact h.of_holdings rfl rfl fun q hq => ⟨q, hq, rfl⟩
  | retireUnsaved _ _ _ => exact h.of_holdings rfl rfl fun q hq => ⟨q, hq, rfl⟩
  | buy hbuy => exact (h.commitBuy hs hbuy).of_holdings rfl rfl fun q hq => ⟨q, hq, rfl⟩
  | buyUnmarked hbuy hp hh => exact (h.commitBuy hs hbuy).of_holdings rfl rfl fun q hq => mem_upsert_holding hp hh hq
  | sell hsell => exact h.sell hs hsell

theorem Paired.restart (hs : Sound env b) (h : Paired b) : Paired b.restart := by
  refine h.of_holdings rfl rfl fun q hq => ?_
  obtain ⟨p, hp, he⟩ := mem_map.mp
    (hs.read_holdings.subset (mem_map_of_mem (f := fun q : Position => q.toHolding) hq))
  exact ⟨p, hp, he⟩

/-- **The sells follow the buys in every run.** -/
theorem run_paired (env : Env) (actions : List Action) : Paired (run env actions).books := by
  refine (run_invariant (I := Paired) ?_ (fun _ _ _ hs h hc => h.change hs hc) (fun _ _ _ _ _ hs h hc => h.change hs hc)
    (fun _ hs h => h.restart hs) actions).2
  exact {
    preceded := fun before f after hfills => by
      have hnil : ([] : List FillReceipt) = before ++ f :: after := hfills
      simp at hnil
    one_sell := fun f hf => absurd hf not_mem_nil
    unsold := fun p hp => absurd hp Table.not_mem_empty
    cost := fun p hp => absurd hp Table.not_mem_empty
    realized_eq := rfl }

/-! ### The summary of a run -/

theorem snapshot_reads (env : Env) (mode : Option RiskMode) (w : World) :
    Wp (snapshot env mode false)
      (fun portfolio w' => portfolio.realizedPnlLamports = w.database.realizedPnlLamports ∧ w'.database = w.database)
      (fun _ _ => False) w := by
  unfold snapshot utcNow tick previousPeak
  simp only [wp_bind, wp_get, wp_set, wp_pure, wp_ite, Bool.false_eq_true, false_and, false_implies, not_false_eq_true,
    implies_true, and_self]

theorem sell_of_chronology {f : FillReceipt} {order : Option PaperOrder} {entry : Option FillReceipt}
    (hside : f.side = .sell) (h : fillChronologyReason f order entry = none) : sellChronologyReason f entry = none := by
  unfold fillChronologyReason at h
  cases order with
  | none => cases h
  | some row =>
    dsimp only at h
    rw [if_pos hside] at h
    split_ifs at h
    exact h

theorem entry_le_of_chronology {f entry : FillReceipt} (h : sellChronologyReason f (some entry) = none) :
    entry.filledAt ≤ f.filledAt := by
  by_contra hlt
  unfold sellChronologyReason at h
  dsimp only at h
  rw [if_pos (not_le.mp hlt)] at h
  split_ifs at h

theorem sum_filterMap {α : Type} (g : α → Option ℤ) (l : List α) :
    (l.filterMap g).sum = (l.map fun a => (g a).getD 0).sum := by
  induction l with
  | nil => rfl
  | cons a l ih =>
    cases h : g a <;> simp [h, ih]

theorem Paired.entry (hs : Sound env b) (h : Paired b) {before after : List FillReceipt} {f : FillReceipt}
    (hfills : b.fills = before ++ f :: after) (hside : f.side = .sell) :
    ∃ buy ∈ before, buy.side = .buy ∧ buy.mint = f.mint ∧ entryFill b.fills f.mint = some buy ∧
      ∀ fill ∈ b.fills, fill.mint = f.mint → fill = buy ∨ fill = f := by
  obtain ⟨buy, hbefore, hbuyside, hbuymint⟩ := h.preceded before f after hfills hside
  have hbuy : buy ∈ b.fills := hfills ▸ mem_append_left _ hbefore
  have hf : f ∈ b.fills := by simp [hfills]
  refine ⟨buy, hbefore, hbuyside, hbuymint, ?_, fun fill hfill hmint => ?_⟩
  · rw [← hbuymint]
    exact entryFill_eq hbuy hbuyside fun f' hf' hside' hm => hs.one_buy f' hf' buy hbuy hside' hbuyside hm
  · cases hfside : fill.side with
    | buy => exact .inl (hs.one_buy fill hfill buy hbuy hfside hbuyside (hmint.trans hbuymint.symm))
    | sell => exact .inr (h.one_sell fill hfill f hf hfside hside hmint)

/-- Each sell is matched with its buy. -/
theorem Paired.sum_tradePnls {w : World} (hs : Sound env w.books) (h : Paired w.books)
    (haudit : ∀ c ∈ w.database.iterFillContexts, c.reason = none) :
    w.database.tradePnls.sum = w.database.realizedPnlLamports := by
  have hrealized : w.database.realizedPnlLamports = (w.database.fills.map (profit w.database.fills)).sum :=
    h.realized_eq
  have hreason : ∀ f ∈ w.database.fills, fillChronologyReason f (w.database.paperOrders.get? f.orderId)
      (entryFill w.database.fills f.mint) = none := fun f hf => haudit _ (mem_map_of_mem hf)
  rw [Database.tradePnls, sum_filterMap, Database.iterFillContexts, map_map, hrealized]
  congr 1
  refine map_congr_left fun f hf => ?_
  cases hside : f.side with
  | buy =>
    cases hentry : entryFill w.database.fills f.mint <;> simp [FillContext.pnl, profit, hside, hentry]
  | sell =>
    obtain ⟨before, after, hfills⟩ := append_of_mem hf
    obtain ⟨buy, hbefore, -, hbuymint, hentry, -⟩ := h.entry hs (f := f) hfills hside
    have hentry' : entryFill w.database.fills f.mint = some buy := hentry
    have hfaudit := hreason f hf
    have hbuyaudit := hreason buy (hfills ▸ mem_append_left _ hbefore)
    rw [hbuymint, hentry'] at hbuyaudit
    rw [hentry'] at hfaudit
    simp [FillContext.pnl, FillContext.reason, profit, hside, hentry', hfaudit, hbuyaudit]

/-- **The trades add up to the realized profit.** After any run to whose fills the audit of the chronology does not
object, the summary comes to its end. The profits of its trades add up to the realized profit of the broker, which it
reports; it counts those trades as closed, and each of them as a win, a loss or as broken even. And a sell has one buy:
it is of the same mint, comes before and is no later, and the two are all the fills of the mint. -/
theorem trades_add_up (env : Env) (actions : List Action)
    (haudit : ∀ c ∈ (run env actions).database.iterFillContexts, c.reason = none) :
    let w := run env actions
    let pnls := w.database.tradePnls
    Wp (seasonSummary env)
        (fun summary _ => pnls.sum = w.database.realizedPnlLamports ∧
          summary.realizedPnlMinor = w.database.realizedPnlLamports ∧ summary.closedTrades = pnls.length ∧
          summary.wins = pnls.countP (0 < ·) ∧ summary.losses = pnls.countP (· < 0) ∧
          summary.breakEven = pnls.countP (· = 0) ∧
          summary.closedTrades = summary.wins + summary.losses + summary.breakEven)
        (fun _ _ => False) w ∧
      ∀ before f after, w.database.fills = before ++ f :: after → f.side = .sell →
        ∃ buy ∈ before, buy.side = .buy ∧ buy.mint = f.mint ∧ entryFill w.database.fills f.mint = some buy ∧
          buy.filledAt ≤ f.filledAt ∧ ∀ fill ∈ w.database.fills, fill.mint = f.mint → fill = buy ∨ fill = f := by
  intro w pnls
  have hs : Sound env w.books := run_sound actions
  have h : Paired w.books := run_paired env actions
  constructor
  · unfold seasonSummary
    rw [wp_bind]
    refine (snapshot_reads env none w).mono (fun portfolio w' hread => ?_) fun _ _ he => he
    obtain ⟨hrealized, hdatabase⟩ := hread
    rw [wp_bind, wp_get, wp_pure, hdatabase]
    obtain ⟨hclosed, hwins, hlosses, hbreak⟩ := foldl_add_counts w.database.iterFillContexts {}
    simp only [zero_add] at hclosed hwins hlosses hbreak
    refine ⟨h.sum_tradePnls hs haudit, hrealized, hclosed, hwins, hlosses, hbreak, ?_⟩
    simp only [hclosed, hwins, hlosses, hbreak]
    exact length_outcomes _
  · intro before f after hfills hside
    obtain ⟨buy, hbefore, hbuyside, hbuymint, hentry, honly⟩ := h.entry hs hfills hside
    have hf : f ∈ w.database.fills := by simp [hfills]
    have hreason := haudit _ (mem_map_of_mem hf)
    have hentry' : entryFill w.database.fills f.mint = some buy := hentry
    rw [FillContext.reason, hentry'] at hreason
    exact ⟨buy, hbefore, hbuyside, hbuymint, hentry', entry_le_of_chronology (sell_of_chronology hside hreason),
      honly⟩

/-- After a buy and its sell one trade is closed. -/
theorem trades_add_up_trade :
    let w := run (sampleEnv .sol fun _ _ => false) (sampleTrade none)
    w.database.tradePnls.length = 1 ∧ w.database.tradePnls.sum = w.database.realizedPnlLamports := by
  have haudit : ∀ c ∈ (run (sampleEnv .sol fun _ _ => false) (sampleTrade none)).database.iterFillContexts,
      c.reason = none := by decide +kernel
  refine ⟨by decide +kernel, ?_⟩
  have hsummary := (trades_add_up _ _ haudit).1
  unfold Wp at hsummary
  split at hsummary
  · exact hsummary.1
  · exact hsummary.elim

end SignalArcade.Paper
