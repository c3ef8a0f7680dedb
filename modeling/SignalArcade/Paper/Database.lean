import SignalArcade.Paper.ReceiptAudit
import Mathlib.Data.List.Sort
import Mathlib.Data.Prod.Lex

/-!
# The database of a paper season

The tables the broker writes, the writes, and what is read back. Each write is one
transaction: it gives the next database, or an error and no database at all. The two
commits of a fill first validate what they are given, `_validated_ledger_entries` and
`_validate_fill_commit`, and then do everything a fill changes at once.
-/

namespace SignalArcade.Paper

open Checked List

/-- Why a fill is not committed. -/
inductive CommitError where
  | ledgerNotBalanced
  | ledgerNegative
  | notItsFilledOrder
  | latencyPredatesCreation
  | executionTimesDiffer
  | predatesOrderOrLatency
  | reserveFromTheFuture
  | venueDiffers
  | positionMintDiffers
  | buyWithoutItsPosition
  | sellPredatesPosition
  | sellBoundaryDiffers

/-- What a transaction raises. -/
inductive DatabaseError where
  /-- `RuntimeError("paper order is no longer pending")`. -/
  | orderNoLongerPending
  /-- `RuntimeError("paper position disappeared during sell commit")`. -/
  | positionDisappeared
  /-- `sqlite3.IntegrityError`: a primary key or a unique column is taken. -/
  | notUnique

/-- The tables. -/
structure Database where
  paperOrders : Orders := Table.empty
  /-- `fills`, in the order they were inserted in. -/
  fills : List FillReceipt := []
  positions : Table ℕ Position (·.positionId) := Table.empty
  /-- `ledger_entries`, a transaction at a time. -/
  ledgerEntries : List LedgerTransaction := []
  decisions : Table String Decision (·.decisionId) := Table.empty
  /-- The setting `realized_pnl_lamports`. -/
  realizedPnlLamports : ℤ := 0
  /-- The setting `peak_equity_lamports`. -/
  peakEquityLamports : ℤ := 0
  /-- The setting `equity_peak_basis`. -/
  equityPeakBasis : Option String := none
  /-- `equity_points`: equity and cash. -/
  equityPoints : List (ℤ × ℤ) := []

/-! ### The ledger -/

def validatedLedgerEntries (txId : TxId) (createdAt : Instant) (entries : List LedgerEntry) :
    Except CommitError LedgerTransaction :=
  if balanced : (entries.map (·.debit)).sum = (entries.map (·.credit)).sum then
    if nonneg : ∀ entry ∈ entries, 0 ≤ entry.debit ∧ 0 ≤ entry.credit then
      .ok ⟨txId, createdAt, entries, balanced, nonneg⟩
    else .error .ledgerNegative
  else .error .ledgerNotBalanced

def LedgerTransaction.amount (tx : LedgerTransaction) (account : Account) : ℤ :=
  ((tx.entries.filter fun entry => entry.account = account).map LedgerEntry.amount).sum

/-- The balance of an account. -/
def balance (ledger : List LedgerTransaction) (account : Account) : ℤ :=
  (ledger.map fun tx => tx.amount account).sum

def Database.ledgerBalance (db : Database) (account : Account) : ℤ := balance db.ledgerEntries account

/-! ### Writes -/

/-- `save_decision`: a decision already there is left alone. -/
def Database.saveDecision (db : Database) (decision : Decision) : Except DatabaseError Database :=
  match db.decisions.insert? decision with
  | some decisions => .ok { db with decisions := decisions }
  | none => .ok db

def Database.saveOrder (db : Database) (order : PaperOrder) : Except DatabaseError Database :=
  .ok { db with paperOrders := db.paperOrders.upsert order }

/-- `save_position`: a new position needs a mint of its own. -/
def Database.savePosition (db : Database) (position : Position) : Except DatabaseError Database := do
  raiseIf (db.positions.get? position.positionId = none ∧ ∃ row ∈ db.positions.rows, row.mint = position.mint)
    .notUnique
  return { db with positions := db.positions.upsert position }

/-- `set_setting("peak_equity_lamports", …)`, with the basis when it is set too. -/
def Database.setPeakEquity (db : Database) (peak : ℤ) : Except DatabaseError Database :=
  .ok { db with peakEquityLamports := peak }

/-- `set_setting("equity_peak_basis", …)`. -/
def Database.setEquityPeakBasis (db : Database) (basis : String) : Except DatabaseError Database :=
  .ok { db with equityPeakBasis := some basis }

def Database.recordEquity (db : Database) (equity cash : ℤ) : Except DatabaseError Database :=
  .ok { db with equityPoints := db.equityPoints ++ [(equity, cash)] }

/-- The part of `_validate_fill_commit` on the reserve snapshot. -/
def validateFillReserve (fill : FillReceipt) : Except CommitError Unit :=
  match fill.reserveSnapshot with
  | none => .ok ()
  | some reserve => do
    raiseIf (fill.filledAt < reserve.observedAt) .reserveFromTheFuture
    raiseIf (reserve.venue ≠ fill.venue) .venueDiffers

/-- The part of `_validate_fill_commit` on the position. -/
def validateFillPosition (fill : FillReceipt) (position : Holding) : Except CommitError Unit := do
  raiseIf (position.mint ≠ fill.mint) .positionMintDiffers
  match fill.side with
  | .buy =>
    raiseIf (position.entryFillId ≠ fill.fillId ∨ position.openedAt ≠ fill.filledAt) .buyWithoutItsPosition
  | .sell =>
    raiseIf (fill.filledAt < position.openedAt) .sellPredatesPosition
    raiseIf (fill.positionOpenedAt ≠ none ∧ fill.positionOpenedAt ≠ some position.openedAt)
      .sellBoundaryDiffers

def validateFillCommit (order : PaperOrder) (fill : FillReceipt) (position : Holding) : Except CommitError Unit := do
  raiseIf (order.orderId ≠ fill.orderId ∨ order.mint ≠ fill.mint ∨ order.side ≠ fill.side ∨
    order.status ≠ .filled) .notItsFilledOrder
  raiseIf (order.fillAfter < order.createdAt) .latencyPredatesCreation
  raiseIf (order.filledAt ≠ some fill.filledAt) .executionTimesDiffer
  raiseIf (fill.filledAt < order.createdAt ∨ fill.filledAt < order.fillAfter) .predatesOrderOrLatency
  validateFillReserve fill
  validateFillPosition fill position

def Database.requirePendingOrder (db : Database) (orderId : ℕ) : Except DatabaseError Unit :=
  raiseIf ((db.paperOrders.get? orderId).map (·.status) ≠ some .pending) .orderNoLongerPending

/-- `_insert_fill`: a fill has an identifier and an order of its own. -/
def Database.insertFill (db : Database) (fill : FillReceipt) : Except DatabaseError (List FillReceipt) := do
  raiseIf (∃ row ∈ db.fills, row.fillId = fill.fillId ∨ row.orderId = fill.orderId) .notUnique
  return db.fills ++ [fill]

/-- `INSERT INTO positions`. -/
def Database.insertPosition (db : Database) (position : Position) :
    Except DatabaseError (Table ℕ Position (·.positionId)) := do
  raiseIf (∃ row ∈ db.positions.rows, row.mint = position.mint) .notUnique
  match db.positions.insert? position with
  | some positions => return positions
  | none => .error .notUnique

/-- The transaction of `commit_buy_fill`. -/
def Database.commitBuyFill (db : Database) (order : PaperOrder) (fill : FillReceipt) (position : Position)
    (rows : LedgerTransaction) : Except DatabaseError Database := do
  db.requirePendingOrder order.orderId
  let fills ← db.insertFill fill
  let positions ← db.insertPosition position
  return { db with
    paperOrders := db.paperOrders.upsert order
    fills := fills
    ledgerEntries := db.ledgerEntries ++ [rows]
    positions := positions }

/-- The transaction of `commit_sell_fill`. -/
def Database.commitSellFill (db : Database) (order : PaperOrder) (fill : FillReceipt) (position : Holding)
    (rows : LedgerTransaction) (realizedPnlLamports : ℤ) : Except DatabaseError Database := do
  db.requirePendingOrder order.orderId
  let fills ← db.insertFill fill
  raiseIf (db.positions.get? position.positionId = none) .positionDisappeared
  return { db with
    paperOrders := db.paperOrders.upsert order
    fills := fills
    ledgerEntries := db.ledgerEntries ++ [rows]
    positions := db.positions.erase position.positionId
    realizedPnlLamports := realizedPnlLamports }

/-! ### Reads -/

/-- `list_orders(["pending"])`, of the table of orders. -/
def pendingOrders (orders : Orders) : List PaperOrder :=
  (orders.rows.filter fun order => order.status = .pending).insertionSort
    fun order order' => order.createdAt ≤ order'.createdAt

/-- `list_positions`, of the table of positions. -/
def listPositions (positions : Table ℕ Position (·.positionId)) : List Position :=
  positions.rows.insertionSort fun position position' => position.openedAt ≤ position'.openedAt

/-- `bought_mints`, of the fills. -/
def boughtMints (fills : List FillReceipt) : Finset String :=
  ((fills.filter fun fill => fill.side = .buy).map (·.mint)).toFinset

def Database.maxRecordedCash (db : Database) : ℤ := (db.equityPoints.map (·.2)).foldl max 0

/-- The entry `iter_fill_contexts` joins to a fill: the first buy of the mint. -/
def entryFill (fills : List FillReceipt) (mint : String) : Option FillReceipt :=
  ((fills.filter fun fill => fill.mint = mint ∧ fill.side = .buy).insertionSort
    fun fill fill' => toLex (fill.filledAt, fill.fillId) ≤ toLex (fill'.filledAt, fill'.fillId)).head?

/-! ### The audit of a fill's chronology -/

/-- What the audit objects to. -/
inductive ChronologyReason where
  | orderUnavailable
  | notItsOrder
  | notFilled
  | latencyPredatesCreation
  | executionTimesDiffer
  | predatesOrder
  | predatesLatency
  | reserveFromTheFuture
  | venueDiffers
  | sellWithoutBuy
  | notItsEntryBoundary
  | sellPredatesPosition
  | sellPredatesEntry

def sellChronologyReason (fill : FillReceipt) (entry : Option FillReceipt) : Option ChronologyReason :=
  match entry with
  | none => some .sellWithoutBuy
  | some entry =>
    if fill.positionOpenedAt ≠ none ∧ fill.positionOpenedAt ≠ some entry.filledAt then some .notItsEntryBoundary
    else if fill.filledAt < fill.positionOpenedAt.getD entry.filledAt then some .sellPredatesPosition
    else if fill.filledAt < entry.filledAt then some .sellPredatesEntry
    else none

/-- Why a fill does not fit its order, or its entry. -/
def fillChronologyReason (fill : FillReceipt) (order : Option PaperOrder) (entry : Option FillReceipt) :
    Option ChronologyReason :=
  match order with
  | none => some .orderUnavailable
  | some order =>
    if order.mint ≠ fill.mint ∨ order.side ≠ fill.side then some .notItsOrder
    else if order.status ≠ .filled then some .notFilled
    else if order.fillAfter < order.createdAt then some .latencyPredatesCreation
    else if order.filledAt ≠ some fill.filledAt then some .executionTimesDiffer
    else if fill.filledAt < order.createdAt then some .predatesOrder
    else if fill.filledAt < order.fillAfter then some .predatesLatency
    else if ∃ reserve ∈ fill.reserveSnapshot, fill.filledAt < reserve.observedAt then
      some .reserveFromTheFuture
    else if ∃ reserve ∈ fill.reserveSnapshot, reserve.venue ≠ fill.venue then some .venueDiffers
    else if fill.side = .sell then sellChronologyReason fill entry
    else none

/-! ### What is read back -/

theorem pendingOrders_perm (orders : Orders) :
    (pendingOrders orders).Perm (orders.rows.filter fun order => order.status = .pending) :=
  perm_insertionSort _ _

theorem mem_pendingOrders {orders : Orders} {order : PaperOrder} :
    order ∈ pendingOrders orders ↔ order ∈ orders ∧ order.status = .pending := by
  rw [(pendingOrders_perm orders).mem_iff, mem_filter, decide_eq_true_eq]
  rfl

theorem mem_recalled {orders : Orders} {order : PaperOrder} :
    order ∈ (Table.ofRows (pendingOrders orders) : Orders) ↔ order ∈ orders ∧ order.status = .pending := by
  have hperm := (pendingOrders_perm orders).map (·.orderId)
  have hnodup : ((pendingOrders orders).map (·.orderId)).Nodup :=
    hperm.nodup_iff.mpr (orders.nodup.sublist (filter_sublist.map _))
  rw [Table.mem_ofRows hnodup, mem_pendingOrders]

theorem listPositions_perm (positions : Table ℕ Position (·.positionId)) :
    (listPositions positions).Perm positions.rows := perm_insertionSort _ _

variable {fills : List FillReceipt}

theorem mem_boughtMints {mint : String} :
    mint ∈ boughtMints fills ↔ ∃ fill ∈ fills, fill.side = .buy ∧ fill.mint = mint := by
  simp [boughtMints, and_assoc]

theorem entryFill_eq {buy : FillReceipt} (hmem : buy ∈ fills) (hside : buy.side = .buy)
    (hone : ∀ fill ∈ fills, fill.side = .buy → fill.mint = buy.mint → fill = buy) :
    entryFill fills buy.mint = some buy := by
  have hperm := perm_insertionSort
    (fun fill fill' : FillReceipt => toLex (fill.filledAt, fill.fillId) ≤ toLex (fill'.filledAt, fill'.fillId))
    (fills.filter fun fill => fill.mint = buy.mint ∧ fill.side = .buy)
  have hfirst : buy ∈ fills.filter fun fill => fill.mint = buy.mint ∧ fill.side = .buy := by
    simp [hmem, hside]
  unfold entryFill
  cases hsorted : (fills.filter fun fill => fill.mint = buy.mint ∧ fill.side = .buy).insertionSort
      fun fill fill' => toLex (fill.filledAt, fill.fillId) ≤ toLex (fill'.filledAt, fill'.fillId) with
  | nil =>
    rw [hsorted] at hperm
    rw [nil_perm.mp hperm] at hfirst
    cases hfirst
  | cons fill rest =>
    rw [hsorted] at hperm
    have hfill := hperm.subset (mem_cons_self)
    rw [mem_filter, decide_eq_true_eq] at hfill
    obtain ⟨hfill, hmint, hbuy⟩ := hfill
    rw [hone fill hfill hbuy hmint]
    rfl

theorem entryFill_some {mint : String} {buy : FillReceipt}
    (h : entryFill fills mint = some buy) : buy ∈ fills ∧ buy.side = .buy ∧ buy.mint = mint := by
  have hmem := (perm_insertionSort _ _).subset (mem_of_head? h)
  rw [mem_filter, decide_eq_true_eq] at hmem
  exact ⟨hmem.1, hmem.2.2, hmem.2.1⟩

theorem entryFill_append {fill : FillReceipt} {mint : String}
    (h : ¬ (fill.mint = mint ∧ fill.side = .buy)) : entryFill (fills ++ [fill]) mint = entryFill fills mint := by
  rw [entryFill, filter_append, filter_cons_of_neg (by simpa using h), filter_nil,
    append_nil, entryFill]

/-! ### What the transactions check -/

variable {db db' : Database} {order : PaperOrder} {fill : FillReceipt} {position : Position}
  {holding : Holding} {rows : LedgerTransaction}

theorem validatedLedgerEntries_eq_ok {txId : TxId} {createdAt : Instant} {entries : List LedgerEntry}
    (h : validatedLedgerEntries txId createdAt entries = .ok rows) : rows.entries = entries := by
  unfold validatedLedgerEntries at h
  split_ifs at h
  obtain rfl := Except.ok.inj h
  rfl

theorem validatedLedgerEntries_accepts {txId : TxId} {createdAt : Instant} {entries : List LedgerEntry}
    (balanced : (entries.map (·.debit)).sum = (entries.map (·.credit)).sum)
    (nonneg : ∀ entry ∈ entries, 0 ≤ entry.debit ∧ 0 ≤ entry.credit) (e : CommitError) :
    validatedLedgerEntries txId createdAt entries ≠ .error e := by
  rw [validatedLedgerEntries, dif_pos balanced, dif_pos nonneg]
  exact fun h => by cases h

/-- What `_validate_fill_commit` asks for. -/
structure FillCommitValid (order : PaperOrder) (fill : FillReceipt) (holding : Holding) : Prop where
  same_order : order.orderId = fill.orderId ∧ order.mint = fill.mint ∧ order.side = fill.side ∧
    order.status = .filled
  latency : order.createdAt ≤ order.fillAfter
  filled_at : order.filledAt = some fill.filledAt
  due : order.createdAt ≤ fill.filledAt ∧ order.fillAfter ≤ fill.filledAt
  reserve : ∀ reserve ∈ fill.reserveSnapshot,
    reserve.observedAt ≤ fill.filledAt ∧ reserve.venue = fill.venue
  mint : holding.mint = fill.mint
  buy : fill.side = .buy → holding.entryFillId = fill.fillId ∧ holding.openedAt = fill.filledAt
  sell : fill.side = .sell → holding.openedAt ≤ fill.filledAt ∧
    (fill.positionOpenedAt = none ∨ fill.positionOpenedAt = some holding.openedAt)

theorem validateFillReserve_ok_iff : validateFillReserve fill = .ok () ↔
    ∀ reserve ∈ fill.reserveSnapshot, reserve.observedAt ≤ fill.filledAt ∧ reserve.venue = fill.venue := by
  unfold validateFillReserve
  cases fill.reserveSnapshot with
  | none => simp
  | some reserve => simp [bind_eq_ok, raiseIf_eq_ok]

theorem validateFillPosition_ok_iff : validateFillPosition fill holding = .ok () ↔
    holding.mint = fill.mint ∧
    (fill.side = .buy → holding.entryFillId = fill.fillId ∧ holding.openedAt = fill.filledAt) ∧
    (fill.side = .sell → holding.openedAt ≤ fill.filledAt ∧
      (fill.positionOpenedAt = none ∨ fill.positionOpenedAt = some holding.openedAt)) := by
  unfold validateFillPosition
  cases fill.side with
  | buy => simp [bind_eq_ok, raiseIf_eq_ok]
  | sell => simp [bind_eq_ok, raiseIf_eq_ok, or_iff_not_imp_left]

/-- **The validator accepts exactly what it asks for.** -/
theorem validateFillCommit_ok_iff : validateFillCommit order fill holding = .ok () ↔
    FillCommitValid order fill holding := by
  simp only [validateFillCommit, bind_eq_ok, raiseIf_eq_ok, not_or, not_not, not_lt]
  constructor
  · rintro ⟨_, hsame, _, hlatency, _, hfilled, _, hdue, _, hreserve, hposition⟩
    obtain ⟨hmint, hbuy, hsell⟩ := validateFillPosition_ok_iff.mp hposition
    exact ⟨hsame, hlatency, hfilled, hdue, validateFillReserve_ok_iff.mp hreserve, hmint, hbuy, hsell⟩
  · intro h
    exact ⟨⟨⟩, h.same_order, ⟨⟩, h.latency, ⟨⟩, h.filled_at, ⟨⟩, h.due, ⟨⟩,
      validateFillReserve_ok_iff.mpr h.reserve, validateFillPosition_ok_iff.mpr ⟨h.mint, h.buy, h.sell⟩⟩

theorem FillCommitValid.accepted (h : FillCommitValid order fill holding) (e : CommitError) :
    validateFillCommit order fill holding ≠ .error e := by
  rw [validateFillCommit_ok_iff.mpr h]
  exact fun h => by cases h

/-- **What the validator lets through, the audit has no objection to.** -/
theorem FillCommitValid.chronology (h : FillCommitValid order fill holding) {entry : Option FillReceipt}
    (hentry : fill.side = .sell → ∃ buy, entry = some buy ∧ buy.filledAt = holding.openedAt) :
    fillChronologyReason fill (some order) entry = none := by
  obtain ⟨-, hmint, hside, hstatus⟩ := h.same_order
  obtain ⟨hcreated, hafter⟩ := h.due
  have hobserved : ¬ ∃ reserve ∈ fill.reserveSnapshot, fill.filledAt < reserve.observedAt := by
    rintro ⟨reserve, hr, hlt⟩
    exact absurd (h.reserve reserve hr).1 (not_le.mpr hlt)
  have hvenue : ¬ ∃ reserve ∈ fill.reserveSnapshot, reserve.venue ≠ fill.venue := by
    rintro ⟨reserve, hr, hne⟩
    exact hne (h.reserve reserve hr).2
  simp only [fillChronologyReason, hmint, hside, hstatus, ne_eq, not_true_eq_false, or_self, if_false,
    if_neg h.latency.not_gt, h.filled_at, if_neg hcreated.not_gt, if_neg hafter.not_gt, if_neg hobserved,
    if_neg hvenue]
  split_ifs with hs
  · obtain ⟨buy, rfl, hopened⟩ := hentry hs
    obtain ⟨hle, hboundary⟩ := h.sell hs
    rw [← hopened] at hle hboundary
    rcases hboundary with hb | hb <;> simp [sellChronologyReason, hb, hle.not_gt]
  · rfl

theorem requirePendingOrder_ok {id : ℕ} (h : db.requirePendingOrder id = .ok ()) :
    ∃ row ∈ db.paperOrders, row.orderId = id ∧ row.status = .pending := by
  rw [Database.requirePendingOrder, raiseIf_eq_ok, not_not, Option.map_eq_some_iff] at h
  obtain ⟨row, hrow, hstatus⟩ := h
  obtain ⟨hmem, hid⟩ := Table.get?_eq_some.mp hrow
  exact ⟨row, hmem, hid, hstatus⟩

theorem insertFill_ok (h : db.insertFill fill = .ok fills) :
    (∀ row ∈ db.fills, row.fillId ≠ fill.fillId ∧ row.orderId ≠ fill.orderId) ∧ fills = db.fills ++ [fill] := by
  simp only [Database.insertFill, bind_eq_ok, raiseIf_eq_ok, pure_eq_ok, not_exists, not_and, not_or] at h
  obtain ⟨_, hnew, rfl⟩ := h
  exact ⟨hnew, rfl⟩

theorem insertPosition_ok {positions : Table ℕ Position (·.positionId)}
    (h : db.insertPosition position = .ok positions) :
    (∀ row ∈ db.positions, row.mint ≠ position.mint ∧ row.positionId ≠ position.positionId) ∧
      positions = db.positions.upsert position := by
  simp only [Database.insertPosition, bind_eq_ok, raiseIf_eq_ok, not_exists, not_and] at h
  obtain ⟨_, hmint, h⟩ := h
  split at h
  · next positions' hinsert =>
    rw [pure_eq_ok] at h
    subst h
    obtain ⟨hid, hrows⟩ := Table.insert?_eq_upsert hinsert
    exact ⟨fun row hrow => ⟨hmint row hrow, hid row hrow⟩, hrows⟩
  · cases h

theorem commitBuyFill_ok (h : db.commitBuyFill order fill position rows = .ok db') :
    (∃ row ∈ db.paperOrders, row.orderId = order.orderId ∧ row.status = .pending) ∧
    (∀ row ∈ db.fills, row.fillId ≠ fill.fillId ∧ row.orderId ≠ fill.orderId) ∧
    (∀ row ∈ db.positions, row.mint ≠ position.mint ∧ row.positionId ≠ position.positionId) ∧
    db' = { db with
      paperOrders := db.paperOrders.upsert order
      fills := db.fills ++ [fill]
      ledgerEntries := db.ledgerEntries ++ [rows]
      positions := db.positions.upsert position } := by
  simp only [Database.commitBuyFill, bind_eq_ok, pure_eq_ok] at h
  obtain ⟨_, hpending, fills, hfills, positions, hpositions, rfl⟩ := h
  obtain ⟨hnew, rfl⟩ := insertFill_ok hfills
  obtain ⟨hfresh, rfl⟩ := insertPosition_ok hpositions
  exact ⟨requirePendingOrder_ok hpending, hnew, hfresh, rfl⟩

theorem commitSellFill_ok {realized : ℤ} (h : db.commitSellFill order fill holding rows realized = .ok db') :
    (∃ row ∈ db.paperOrders, row.orderId = order.orderId ∧ row.status = .pending) ∧
    (∀ row ∈ db.fills, row.fillId ≠ fill.fillId ∧ row.orderId ≠ fill.orderId) ∧
    db' = { db with
      paperOrders := db.paperOrders.upsert order
      fills := db.fills ++ [fill]
      ledgerEntries := db.ledgerEntries ++ [rows]
      positions := db.positions.erase holding.positionId
      realizedPnlLamports := realized } := by
  simp only [Database.commitSellFill, bind_eq_ok, raiseIf_eq_ok, pure_eq_ok] at h
  obtain ⟨_, hpending, fills, hfills, _, -, rfl⟩ := h
  obtain ⟨hnew, rfl⟩ := insertFill_ok hfills
  exact ⟨requirePendingOrder_ok hpending, hnew, rfl⟩

theorem savePosition_stored (h : ∃ row ∈ db.positions, row.positionId = position.positionId) :
    db.savePosition position = .ok { db with positions := db.positions.upsert position } := by
  obtain ⟨row, hrow, hid⟩ := h
  have hget : db.positions.get? position.positionId = some row := Table.get?_eq_some.mpr ⟨hrow, hid⟩
  rw [Database.savePosition, raiseIf_of_not (by simp [hget])]
  rfl

end SignalArcade.Paper
