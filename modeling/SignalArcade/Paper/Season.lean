import Mathlib.Algebra.BigOperators.Group.Finset.Piecewise
import SignalArcade.Paper.Fills

/-!
# What holds in every run of a season

What is known of the money and of the receipts after any sequence of actions, whichever
database writes fail on the way. All of it is read off the soundness of the books, except
that a fill has just been committed, which is a matter of one action.
-/

namespace SignalArcade.Paper

open Prog Steps List

/-! ### Money -/

/-- The accounts the ledger has lines of. -/
def Database.accounts (db : Database) : Finset Account :=
  ((db.ledgerEntries.flatMap (·.entries)).map (·.account)).toFinset

theorem sum_accounts {accounts : Finset Account} (entries : List LedgerEntry)
    (h : ∀ entry ∈ entries, entry.account ∈ accounts) :
    ∑ account ∈ accounts, ((entries.filter fun entry => entry.account = account).map LedgerEntry.amount).sum =
      (entries.map LedgerEntry.amount).sum := by
  induction entries with
  | nil => simp
  | cons entry entries ih =>
    rw [forall_mem_cons] at h
    have hline : ∀ account, (((entry :: entries).filter fun e => e.account = account).map LedgerEntry.amount).sum =
        (if entry.account = account then entry.amount else 0) +
          ((entries.filter fun e => e.account = account).map LedgerEntry.amount).sum := by
      intro account
      by_cases he : entry.account = account <;> simp [he]
    simp only [hline, Finset.sum_add_distrib, ih h.2, Finset.sum_ite_eq, if_pos h.1, map_cons, sum_cons]

theorem LedgerTransaction.sum_amount (tx : LedgerTransaction) : (tx.entries.map LedgerEntry.amount).sum = 0 := by
  have hsplit : ∀ entries : List LedgerEntry, (entries.map LedgerEntry.amount).sum =
      (entries.map (·.debit)).sum - (entries.map (·.credit)).sum := by
    intro entries
    induction entries with
    | nil => rfl
    | cons entry entries ih =>
      simp only [map_cons, sum_cons, ih, LedgerEntry.amount]
      omega
  rw [hsplit, tx.balanced, sub_self]

/-- **Every ledger balances.** -/
theorem sum_balances {ledger : List LedgerTransaction} {accounts : Finset Account}
    (h : ∀ tx ∈ ledger, ∀ entry ∈ tx.entries, entry.account ∈ accounts) :
    ∑ account ∈ accounts, balance ledger account = 0 := by
  induction ledger with
  | nil => simp [balance]
  | cons tx ledger ih =>
    rw [forall_mem_cons] at h
    have htx : ∑ account ∈ accounts, tx.amount account = 0 :=
      (sum_accounts tx.entries h.1).trans tx.sum_amount
    have hcons : ∀ account, balance (tx :: ledger) account = tx.amount account + balance ledger account := by
      intro account
      simp [balance]
    simp only [hcons, Finset.sum_add_distrib, htx, ih h.2, add_zero]

/-- **The money adds up in every run.** The cash is the bankroll, plus the profit realized, less
what the open positions cost; the inventory of a mint is the book value of its position; the
balances of all accounts cancel; and the cash is never negative. -/
theorem cash_conserved (env : Env) (actions : List Action) :
    let w := run env actions
    w.cash = env.startingLamports + w.database.realizedPnlLamports -
        (w.memory.positions.rows.map (·.entryCostLamports)).sum ∧
      (∀ mint, w.database.ledgerBalance (.inventory mint) =
        ((w.memory.positions.get? mint).map (·.bookValueLamports)).getD 0) ∧
      ∑ account ∈ w.database.accounts, w.database.ledgerBalance account = 0 ∧
      0 ≤ w.cash := by
  intro w
  have hs : Sound env w.books := run_sound actions
  refine ⟨hs.cash_eq, hs.inventory_eq, sum_balances fun tx htx entry hentry => ?_, hs.cash_nonneg⟩
  rw [Database.accounts, mem_toFinset]
  exact mem_map_of_mem (mem_flatMap.mpr ⟨tx, htx, hentry⟩)

/-! ### Fills -/

/-- The fills made since are stored with their orders as filled. -/
def FilledSince (before : List FillReceipt) (b : Books) : Prop :=
  ∀ f ∈ b.fills, f ∉ before → ∃ row ∈ b.orders, row.orderId = f.orderId ∧ row.status = .filled

/-- And their orders are not pending. -/
def SettledSince (before : List FillReceipt) (b : Books) : Prop :=
  FilledSince before b ∧ ∀ f ∈ b.fills, f ∉ before → ∀ o ∈ b.pending, o.orderId ≠ f.orderId

variable {env : Env} {price : Option ℚ} {before : List FillReceipt} {b b' : Books} {o : PaperOrder}

theorem FilledSince.upsert (h : FilledSince before b) {row : PaperOrder} {fills : List FillReceipt}
    (hfills : ∀ f ∈ fills, f ∉ before → f ∈ b.fills)
    (hrow : ∀ f ∈ b.fills, f ∉ before → row.orderId ≠ f.orderId) :
    ∀ f ∈ fills, f ∉ before →
      ∃ row' ∈ b.orders.upsert row, row'.orderId = f.orderId ∧ row'.status = .filled := by
  intro f hf hnew
  obtain ⟨row', hrow', hid, hstatus⟩ := h f (hfills f hf hnew) hnew
  refine ⟨row', Table.mem_upsert.mpr (.inr ⟨hrow', fun he => ?_⟩), hid, hstatus⟩
  exact hrow f (hfills f hf hnew) hnew (he.symm.trans hid)

theorem SettledSince.commit (h : SettledSince before b) {r : FillReceipt} {holding : Holding}
    (hc : Committed b o r holding) :
    ∀ f ∈ b.fills ++ [r], f ∉ before →
      ∃ row ∈ b.orders.upsert (o.filled r.filledAt), row.orderId = f.orderId ∧ row.status = .filled := by
  have hother : ∀ f ∈ b.fills, f ∉ before → (o.filled r.filledAt).orderId ≠ f.orderId :=
    fun f hf hnew => h.2 f hf hnew o hc.pending
  intro f hf hnew
  rcases mem_append.mp hf with hf | hf
  · exact h.1.upsert (fun _ hf _ => hf) hother f hf hnew
  · obtain rfl := mem_singleton.mp hf
    exact ⟨_, Table.mem_upsert.mpr (.inl rfl), hc.order_eq.1, rfl⟩

theorem SettledSince.commit_pending (h : SettledSince before b) {r : FillReceipt} {holding : Holding}
    (hc : Committed b o r holding) :
    ∀ f ∈ b.fills ++ [r], f ∉ before → ∀ x ∈ b.pending.erase o.orderId, x.orderId ≠ f.orderId := by
  intro f hf hnew x hx
  obtain ⟨hx, hne⟩ := Table.mem_erase.mp hx
  rcases mem_append.mp hf with hf | hf
  · exact h.2 f hf hnew x hx
  · obtain rfl := mem_singleton.mp hf
    exact hc.order_eq.1 ▸ hne

theorem SettledSince.change (hs : Sound env b) (h : SettledSince before b) (hc : Change env price none b b') :
    SettledSince before b' := by
  cases hc with
  | tick _ => exact h
  | mark _ _ => exact h
  | @place _ o ho =>
    have hnew : ∀ f ∈ b.fills, o.orderId ≠ f.orderId := fun f hf he =>
      hs.fresh_unfilled ho.toFresh f hf he.symm
    refine ⟨h.1.upsert (fun _ hf _ => hf) fun f hf _ => hnew f hf, fun f hf hf' x hx => ?_⟩
    rcases Table.mem_upsert.mp hx with rfl | ⟨hx, -⟩
    · exact hnew f hf
    · exact h.2 f hf hf' x hx
  | retire ho _ _ =>
    refine ⟨h.1.upsert (fun _ hf _ => hf) fun f hf hf' he => h.2 f hf hf' _ ho he, fun f hf hf' x hx => ?_⟩
    exact h.2 f hf hf' x (Table.mem_erase.mp hx).1
  | buy hc =>
    have hpending := h.commit_pending hc.toCommitted
    exact ⟨h.commit hc.toCommitted, hpending⟩
  | sell hc =>
    have hpending := h.commit_pending hc.toCommitted
    exact ⟨h.commit hc.toCommitted, hpending⟩

theorem SettledSince.broken {site : WriteSite} (h : SettledSince before b)
    (hc : Change env price (some site) b b') : FilledSince before b' := by
  cases hc with
  | markUnsaved _ _ => exact h.1
  | expose _ => exact h.1
  | retireUnsaved _ _ _ => exact h.1
  | buyUnmarked hc _ _ => exact h.commit hc.toCommitted

theorem SettledSince.ended {possible : WriteSite → Prop} (hs : Sound env b) (h : SettledSince before b)
    (hended : Ended (Change env price) possible b b') : FilledSince before b' := by
  obtain ⟨c, hc, hlast⟩ := hended
  have hsettled : Sound env c ∧ SettledSince before c :=
    hc.invariant (I := fun b => Sound env b ∧ SettledSince before b) ⟨hs, h⟩
      fun _ _ hI hchange => ⟨hI.1.change hchange, hI.2.change hI.1 hchange⟩
  rcases hlast with rfl | ⟨site, -, hbroken⟩
  · exact hsettled.2.1
  · exact hsettled.2.broken hbroken

/-- **No fill is refused.** In every run, an action does not end with a commit turned down by its
validators; and to the fills it has committed the audit of the chronology has no objection. -/
theorem fills_accepted (env : Env) (actions : List Action) (action : Action) :
    let w := run env actions
    let w' := step env w action
    (∀ error s, perform env action w ≠ .error (.rejected error) s) ∧
      ∀ f ∈ w'.database.fills, f ∉ w.database.fills →
        fillChronologyReason f (w'.database.paperOrders.get? f.orderId) (entryFill w'.database.fills f.mint) =
          none := by
  intro w w'
  have hs : Sound env w.books := run_sound actions
  have hs' : Sound env w'.books := by
    have hrun : w' = run env (actions ++ [action]) := by simp [w, w', run]
    rw [hrun]
    exact run_sound _
  constructor
  · intro error s he
    by_cases hrestart : action = .restart
    · subst hrestart
      cases he
    · exact ((perform_walks hs action hrestart).error he).2 ⟨error, rfl⟩
  · intro f hf hnew
    have hfilled : ∃ row ∈ w'.books.orders, row.orderId = f.orderId ∧ row.status = .filled := by
      rcases step_cases hs action with ⟨-, hbooks⟩ | hended
      · have hfills : w'.database.fills = w.database.fills := congrArg Books.fills hbooks
        exact absurd (hfills ▸ hf) hnew
      · have hstart : SettledSince w.database.fills w.books :=
          ⟨fun f hf hnew => absurd hf hnew, fun f hf hnew => absurd hf hnew⟩
        exact hstart.ended hs hended f hf hnew
    obtain ⟨row, hrow, hid, hstatus⟩ := hfilled
    obtain ⟨row', hrow', hid', haudit⟩ := hs'.filled f hf
    obtain rfl := w'.books.orders.eq_of_key hrow hrow' (hid.trans hid'.symm)
    have hget : w'.database.paperOrders.get? f.orderId = some row := Table.get?_eq_some.mpr ⟨hrow, hid⟩
    rw [hget]
    exact haudit.chronology hstatus

def sampleTrade (parts : Option (List ℤ)) : List Action :=
  [.submitDecision (sampleDecision "A" (1 / 1000)) none none,
    .processDueOrders (sampleUpdate "A" 30000000000 parts none) false,
    .reassessAndProcessDueOrders (sampleUpdate "A" 30000000000 parts none)]

/-- The sell that follows a buy is committed, and the audit of its chronology accepts it. -/
theorem fills_accepted_trade :
    let w := run (sampleEnv .sol fun _ _ => false) ((sampleTrade none).take 2)
    let w' := step (sampleEnv .sol fun _ _ => false) w
      (.reassessAndProcessDueOrders (sampleUpdate "A" 30000000000 none none))
    ∃ f ∈ w'.database.fills, f.side = .sell ∧
      fillChronologyReason f (w'.database.paperOrders.get? f.orderId) (entryFill w'.database.fills f.mint) =
        none := by
  intro w w'
  obtain ⟨f, hf, hside, hnew⟩ : ∃ f ∈ w'.database.fills, f.side = .sell ∧ f ∉ w.database.fills := by
    decide +kernel
  exact ⟨f, hf, hside, (fills_accepted _ _ _).2 f hf hnew⟩

/-! ### Receipts -/

/-- **Every receipt replays.** In every run, a fill that records no more fee components than the
audit reads is matched with its order; with another gross amount, protocol fee, network fee or
net amount it would not be, nor, if it is a buy, with other units. With other units a sell is
still matched exactly when selling those comes to the same amounts. -/
theorem receipts_replay (env : Env) (actions : List Action) :
    let db := (run env actions).database
    ∀ f ∈ db.fills, f.fewComponents →
      let status := fun f' : FillReceipt => feeQuoteReplayStatus f' (db.paperOrders.get? f.orderId)
      status f = .matched ∧
      (∀ x, status { f with grossSolLamports := x } = .matched → x = f.grossSolLamports) ∧
      (∀ x, status { f with protocolFeeLamports := x } = .matched → x = f.protocolFeeLamports) ∧
      (∀ x, status { f with networkFeeLamports := x } = .matched → x = f.networkFeeLamports) ∧
      (∀ x, status { f with netSolLamports := x } = .matched → x = f.netSolLamports) ∧
      (f.side = .buy → ∀ x, status { f with tokenUnits := x } = .matched → x = f.tokenUnits) ∧
      (f.side = .sell → ∃ recipe reserve, f.executionFeeProvenance = some recipe ∧
        f.reserveSnapshot = some reserve ∧ ∀ x, status { f with tokenUnits := x } = .matched ↔
          ∃ quote, quoteSell reserve.virtualTokenReserves reserve.virtualQuoteReserves x reserve.feeBps
              f.networkFeeLamports reserve.realQuoteReserves recipe.feeComponents recipe.lpFeeBps = .ok quote ∧
            quote.curveSolLamports = f.grossSolLamports ∧
            quote.protocolFeeLamports = f.protocolFeeLamports ∧
            quote.walletSolLamports = f.netSolLamports) := by
  intro db f hf hfew status
  have hs : Sound env (run env actions).books := run_sound actions
  obtain ⟨row, hrow, hid, haudit⟩ := hs.filled f hf
  have hget : db.paperOrders.get? f.orderId = some row := Table.get?_eq_some.mpr ⟨hrow, hid⟩
  have hmatched := haudit.replays hfew
  have hstatus : ∀ f', status f' = feeQuoteReplayStatus f' (some row) := fun f' => by
    simp only [status, hget]
  simp only [hstatus]
  refine ⟨hmatched, fun x hx => ?_, fun x hx => ?_, fun x hx => matched_network hmatched hx, fun x hx => ?_,
    fun hside x hx => matched_units_buy hside hmatched hx, fun hside => ?_⟩
  · exact (matched_amounts hmatched hx).1
  · exact (matched_amounts hmatched hx).2.1
  · exact (matched_amounts hmatched hx).2.2
  · obtain ⟨recipe, reserve, hr⟩ := replay_matched_iff.mp hmatched
    exact ⟨recipe, reserve, hr.recipe_eq, hr.reserve_eq, fun x => matched_units_sell hside hr⟩

/-- A buy and a sell. -/
theorem receipts_replay_trade :
    let db := (run (sampleEnv .sol fun _ _ => false) (sampleTrade none)).database
    db.fills.length = 2 ∧ ∀ f ∈ db.fills, feeQuoteReplayStatus f (db.paperOrders.get? f.orderId) = .matched := by
  refine ⟨by decide +kernel, fun f hf => ?_⟩
  have hfew : ∀ f ∈ (run (sampleEnv .sol fun _ _ => false) (sampleTrade none)).database.fills,
      f.fewComponents := by decide +kernel
  exact (receipts_replay _ _ f hf (hfew f hf)).1

/-- A sell of one unit more comes to the same amounts, so its receipt is matched with that unit,
too. And when the fee has seventeen components, the receipt of the sell is not matched at all. -/
theorem receipts_replay_limits :
    (let db := (run (sampleEnv .sol fun _ _ => false) (sampleTrade none)).database
      ∃ f ∈ db.fills, f.side = .sell ∧ feeQuoteReplayStatus { f with tokenUnits := f.tokenUnits + 1 }
        (db.paperOrders.get? f.orderId) = .matched) ∧
    (let db := (run (sampleEnv .sol fun _ _ => false) (sampleTrade (some (100 :: replicate 16 0)))).database
      ∃ f ∈ db.fills, f.side = .sell ∧
        feeQuoteReplayStatus f (db.paperOrders.get? f.orderId) = .invalidInputs) := by
  decide +kernel

end SignalArcade.Paper
