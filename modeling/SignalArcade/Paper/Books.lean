import SignalArcade.Lib.Steps
import SignalArcade.Paper.Broker

/-!
# The books of a season

What the season is about, without how positions are valued and which settings are kept:
the orders pending and stored, the positions open and stored, the fills, the ledger.
`World.books` reads them off the broker and its database.
-/

namespace SignalArcade.Paper

/-- What the broker and its database say together. -/
structure Books where
  pending : Orders
  /-- The open positions in memory. -/
  positions : Positions
  /-- The mints bought this season. -/
  traded : Finset String
  orders : Orders
  fills : List FillReceipt
  stored : Table ℕ Position (·.positionId)
  ledger : List LedgerTransaction
  /-- The realized profit stored. -/
  realized : ℤ
  /-- Identifiers drawn so far are below this. -/
  ticks : ℕ

/-- The books of a broker and its database. -/
def World.books (w : World) : Books where
  pending := w.memory.pending
  positions := w.memory.positions
  traded := w.memory.tradedMints
  orders := w.database.paperOrders
  fills := w.database.fills
  stored := w.database.positions
  ledger := w.database.ledgerEntries
  realized := w.database.realizedPnlLamports
  ticks := w.ticks

namespace Books

variable (b : Books)

/-- What the ledger says of the cash. -/
def cash : ℤ := balance b.ledger .cash

/-- The reservations of the pending buys, together. -/
def reserved : ℤ := ((b.pending.rows.filter fun o => o.side = .buy).map (·.reservedAccountMinor)).sum

/-- No fill is of the order. -/
def Unfilled (orderId : ℕ) : Prop := ∀ f ∈ b.fills, f.orderId ≠ orderId

/-! ### What is done to the books -/

/-- An order becomes pending and is saved. -/
def place (o : PaperOrder) : Books :=
  { b with pending := b.pending.upsert o, orders := b.orders.upsert o }

/-- An order becomes pending, or a pending one is changed, and is not saved. -/
def expose (o : PaperOrder) : Books := { b with pending := b.pending.upsert o }

/-- An order that has ended is saved and no longer pending. -/
def retire (o : PaperOrder) : Books :=
  { b with pending := b.pending.erase o.orderId, orders := b.orders.upsert o }

def mark (p : Position) : Books :=
  { b with positions := b.positions.upsert p, stored := b.stored.upsert p }

def markUnsaved (p : Position) : Books := { b with positions := b.positions.upsert p }

/-- What a buy commits: the order as filled, the receipt, the ledger and the position. -/
def commitBuy (o : PaperOrder) (r : FillReceipt) (p : Position) (tx : LedgerTransaction) : Books :=
  { b with
    orders := b.orders.upsert o
    fills := b.fills ++ [r]
    ledger := b.ledger ++ [tx]
    stored := b.stored.upsert p
    positions := b.positions.upsert p
    traded := insert o.mint b.traded }

/-- A buy that is committed, marked and no longer pending. -/
def buy (o : PaperOrder) (r : FillReceipt) (p : Position) (tx : LedgerTransaction) : Books :=
  { b.commitBuy o r p tx with pending := b.pending.erase o.orderId }

def sell (o : PaperOrder) (r : FillReceipt) (p : Position) (tx : LedgerTransaction) : Books :=
  { b with
    orders := b.orders.upsert o
    fills := b.fills ++ [r]
    ledger := b.ledger ++ [tx]
    stored := b.stored.erase p.positionId
    positions := b.positions.erase o.mint
    realized := b.realized + (r.accountNetMinor - p.entryCostLamports)
    pending := b.pending.erase o.orderId }

/-- The books of a broker that starts from the database. -/
def restart : Books :=
  { b with
    pending := Table.ofRows (pendingOrders b.orders)
    positions := Table.ofRows (listPositions b.stored)
    traded := boughtMints b.fills }

end Books

/-! ### What is checked before -/

/-- An order nobody knows yet. -/
structure Fresh (b : Books) (o : PaperOrder) : Prop where
  known : o.orderId < b.ticks
  not_pending : ∀ o' ∈ b.pending, o'.orderId ≠ o.orderId
  not_stored : ∀ row ∈ b.orders, row.orderId ≠ o.orderId

/-- The order can be placed on the books. -/
structure Placeable (env : Env) (price : Option ℚ) (b : Books) (o : PaperOrder) : Prop extends Fresh b o where
  status : o.status = .pending
  latency : o.createdAt ≤ o.fillAfter
  amounts_nonneg : 0 ≤ o.requestedSolLamports ∧ 0 ≤ o.reservedAccountMinor
  reason : o.failureReason = none ∨ ∃ why, o.failureReason = some (.scheduled why)
  /-- A buy is of a mint nothing stands against, and its reservation is unreserved cash. -/
  buy : o.side = .buy → o.mint ∉ b.traded ∧ (∀ o' ∈ b.pending, o'.mint ≠ o.mint) ∧
    requiredMinor env o.requestedSolLamports price = some o.reservedAccountMinor ∧
    (o.reservedAccountMinor ≤ 0 ∨ b.reserved + o.reservedAccountMinor ≤ b.cash)
  sell : o.side = .sell → (∃ p ∈ b.positions, p.mint = o.mint ∧ p.tokenUnits = o.requestedTokenUnits) ∧
    ∀ o' ∈ b.pending, o'.mint = o.mint → o'.side ≠ .sell

/-- The reason is a lack of cash. -/
def OrderReason.cashShort : OrderReason → Bool
  | .virtualCashChanged => true
  | .fillRejected .paperCashInsufficient => true
  | _ => false

/-- What the code has found when it gives certain reasons for a failure. -/
structure Grounds (env : Env) (price : Option ℚ) (b : Books) (o : PaperOrder) (reason : OrderReason) : Prop where
  gone : reason = .positionNoLongerExists → o.side = .sell ∧ ∀ p ∈ b.positions, p.mint ≠ o.mint
  short : reason.cashShort = true → o.side = .buy ∧
    ∃ required, requiredMinor env o.requestedSolLamports price = some required ∧ b.cash < required

/-- What has been found when a fill is committed, whichever its side. -/
structure Committed (b : Books) (o : PaperOrder) (r : FillReceipt) (h : Holding) : Prop where
  pending : o ∈ b.pending
  row : ∃ row ∈ b.orders, row.orderId = o.orderId ∧ row.status = .pending
  fresh : ∀ f ∈ b.fills, f.fillId ≠ r.fillId ∧ f.orderId ≠ r.orderId
  valid : FillCommitValid (o.filled r.filledAt) r h
  replays : r.fewComponents → feeQuoteReplayStatus r (some (o.filled r.filledAt)) = .matched

/-- What a committed buy has to satisfy. -/
structure BuyCommitted (env : Env) (price : Option ℚ) (b : Books) (o : PaperOrder) (r : FillReceipt)
    (p : Position) (tx : LedgerTransaction) : Prop extends Committed b o r p.toHolding where
  side : o.side = .buy
  holding : ∃ positionId, p.toHolding = openedHolding positionId (o.filled r.filledAt) r
  new_position : ∀ s ∈ b.stored, s.mint ≠ o.mint ∧ s.positionId ≠ p.positionId
  entries : tx.entries = buyEntries r
  affordable : r.accountNetMinor ≤ b.cash
  /-- The net amount is within what the request comes to at the price of the fill. -/
  priced : ∃ required, requiredMinor env o.requestedSolLamports price = some required ∧
    r.accountNetMinor ≤ required

/-- What a committed sell has to satisfy. -/
structure SellCommitted (b : Books) (o : PaperOrder) (r : FillReceipt) (p : Position)
    (tx : LedgerTransaction) : Prop extends Committed b o r p.toHolding where
  side : o.side = .sell
  position : p ∈ b.positions
  opened : r.positionOpenedAt = some p.openedAt
  entries : tx.entries = sellEntries r p.toHolding

/-! ### The changes -/

/-- What can happen to the books: completely, or broken off where a write failed. -/
inductive Change (env : Env) (price : Option ℚ) : Option WriteSite → Books → Books → Prop where
  /-- Identifiers are drawn, and whatever is not in the books changes. -/
  | tick {b : Books} {n : ℕ} (h : b.ticks ≤ n) : Change env price none b { b with ticks := n }
  | mark {b : Books} {p p' : Position} (hp : p ∈ b.positions) (h : p'.toHolding = p.toHolding) :
      Change env price none b (b.mark p')
  | markUnsaved {b : Books} {p p' : Position} (hp : p ∈ b.positions) (h : p'.toHolding = p.toHolding) :
      Change env price (some .savePosition) b (b.markUnsaved p')
  | place {b : Books} {o : PaperOrder} (h : Placeable env price b o) : Change env price none b (b.place o)
  | expose {b : Books} {o : PaperOrder} (h : Placeable env price b o) :
      Change env price (some .saveOrder) b (b.expose o)
  | retire {b : Books} {o : PaperOrder} {status : OrderStatus} {reason : OrderReason} {now : Instant}
      (ho : o ∈ b.pending) (hs : status = .failed ∨ status = .cancelled) (h : Grounds env price b o reason) :
      Change env price none b (b.retire (o.retired status reason now))
  | retireUnsaved {b : Books} {o : PaperOrder} {status : OrderStatus} {reason : OrderReason} {now : Instant}
      (ho : o ∈ b.pending) (hs : status = .failed ∨ status = .cancelled) (h : Grounds env price b o reason) :
      Change env price (some .saveOrder) b (b.expose (o.retired status reason now))
  | buy {b : Books} {o : PaperOrder} {r : FillReceipt} {p : Position} {tx : LedgerTransaction}
      (h : BuyCommitted env price b o r p tx) : Change env price none b (b.buy (o.filled r.filledAt) r p tx)
  /-- The mark that follows is not saved, and the order stays pending. -/
  | buyUnmarked {b : Books} {o : PaperOrder} {r : FillReceipt} {p q p' : Position} {tx : LedgerTransaction}
      (h : BuyCommitted env price b o r p tx) (hq : q ∈ (b.commitBuy (o.filled r.filledAt) r p tx).positions)
      (hp : p'.toHolding = q.toHolding) :
      Change env price (some .fillMark) b ((b.commitBuy (o.filled r.filledAt) r p tx).markUnsaved p')
  | sell {b : Books} {o : PaperOrder} {r : FillReceipt} {p : Position} {tx : LedgerTransaction}
      (h : SellCommitted b o r p tx) : Change env price none b (b.sell (o.filled r.filledAt) r p tx)

end SignalArcade.Paper
