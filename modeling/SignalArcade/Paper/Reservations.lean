import SignalArcade.Paper.Fills

/-!
# Reserved cash

A pending buy reserves what its request came to when it was submitted. At the fill the request
is converted again, at the price of then, and only compared with all the cash. So whether the
reservations are honoured is a matter of the prices: as long as no pending buy comes to more
than it reserved, they are.
-/

namespace SignalArcade.Paper

open Steps List

variable {env : Env} {price : Option ℚ} {site : WriteSite} {b b' : Books} {o : PaperOrder}

/-! ### Reservations, order by order -/

def PaperOrder.heldBack (order : PaperOrder) : ℤ := if order.side = .buy then order.reservedAccountMinor else 0

theorem heldBack_buy (h : o.side = .buy) : o.heldBack = o.reservedAccountMinor := if_pos h

theorem reserved_eq (b : Books) : b.reserved = (b.pending.rows.map PaperOrder.heldBack).sum := by
  unfold Books.reserved
  induction b.pending.rows with
  | nil => rfl
  | cons o rows ih =>
    by_cases hside : o.side = .buy
    · rw [filter_cons_of_pos (by simpa using hside), map_cons, map_cons, sum_cons,
        sum_cons, ih, heldBack_buy hside]
    · rw [filter_cons_of_neg (by simpa using hside), map_cons, sum_cons, ih, PaperOrder.heldBack,
        if_neg hside, zero_add]

theorem Sound.heldBack_nonneg (hs : Sound env b) (ho : o ∈ b.pending) : 0 ≤ o.heldBack := by
  unfold PaperOrder.heldBack
  split_ifs
  · exact (hs.amounts_nonneg o ho).2
  · exact le_rfl

theorem reserved_erase (ho : o ∈ b.pending) :
    o.heldBack + ((b.pending.erase o.orderId).rows.map PaperOrder.heldBack).sum = b.reserved := by
  rw [reserved_eq]
  exact Table.sum_erase ho

theorem Sound.heldBack_le (hs : Sound env b) (ho : o ∈ b.pending) : o.heldBack ≤ b.reserved := by
  have hrest : 0 ≤ ((b.pending.erase o.orderId).rows.map PaperOrder.heldBack).sum := by
    refine sum_nonneg fun x hx => ?_
    obtain ⟨x', hx', rfl⟩ := mem_map.mp hx
    exact hs.heldBack_nonneg (Table.mem_erase.mp hx').1
  have := reserved_erase ho
  omega

theorem reserved_place (ho : ∀ o' ∈ b.pending, o'.orderId ≠ o.orderId) :
    ((b.pending.upsert o).rows.map PaperOrder.heldBack).sum = b.reserved + o.heldBack := by
  rw [Table.rows_upsert_fresh ho, map_append, sum_append, reserved_eq]
  simp

/-! ### Honoured reservations -/

/-- No pending buy comes to more than it reserved. -/
def Covers (env : Env) (price : Option ℚ) (b : Books) : Prop :=
  ∀ o ∈ b.pending, o.side = .buy → ∀ required, requiredMinor env o.requestedSolLamports price = some required →
    required ≤ o.reservedAccountMinor

/-- The reservations are covered by the cash. -/
structure Honoured (env : Env) (b : Books) : Prop where
  reserved_le : b.reserved ≤ b.cash
  not_short : ∀ o, o ∈ b.pending ∨ o ∈ b.orders → ∀ reason ∈ o.failureReason, reason.cashShort = false
  /-- In SOL a reservation is the request with its fees. -/
  exact_sol : env.quoteCurrency = .sol → ∀ o ∈ b.pending, o.side = .buy →
    o.reservedAccountMinor = o.requestedSolLamports + env.settings.oneWayFee

theorem requiredMinor_sol (hc : env.quoteCurrency = .sol) (request : ℤ) :
    requiredMinor env request price = some (request + env.settings.oneWayFee) :=
  accountMinorFromSol_sol hc _

theorem Honoured.covers_sol (h : Honoured env b) (hc : env.quoteCurrency = .sol) : Covers env price b := by
  intro o ho hside required hrequired
  rw [requiredMinor_sol hc, Option.some_inj] at hrequired
  exact (hrequired.symm.trans (h.exact_sol hc o ho hside).symm).le

theorem Placeable.reserved_le (h : Honoured env b) (ho : Placeable env price b o) :
    b.reserved + o.heldBack ≤ b.cash := by
  have hle := h.reserved_le
  cases hside : o.side with
  | buy =>
    obtain ⟨-, -, -, henough⟩ := ho.buy hside
    rw [heldBack_buy hside]
    omega
  | sell => simpa [PaperOrder.heldBack, hside] using hle

theorem Honoured.grounds (hs : Sound env b) (h : Honoured env b) (hcovers : Covers env price b)
    (ho : o ∈ b.pending) {reason : OrderReason} (hg : Grounds env price b o reason) : reason.cashShort = false := by
  by_contra hshort
  rw [Bool.not_eq_false] at hshort
  obtain ⟨hside, required, hrequired, hlt⟩ := hg.short hshort
  have hreserved := hcovers o ho hside required hrequired
  have hheld := hs.heldBack_le ho
  have hle := h.reserved_le
  rw [heldBack_buy hside] at hheld
  omega

theorem Honoured.retired_not_short (hs : Sound env b) (h : Honoured env b) (hcovers : Covers env price b)
    (ho : o ∈ b.pending) {status : OrderStatus} {reason : OrderReason} {now : Instant}
    (hg : Grounds env price b o reason) :
    ∀ reason' ∈ (o.retired status reason now).failureReason, reason'.cashShort = false := by
  intro reason' hreason
  obtain rfl := Option.some.inj hreason
  exact h.grounds hs hcovers ho hg

theorem Placeable.not_short (ho : Placeable env price b o) :
    ∀ reason ∈ o.failureReason, reason.cashShort = false := by
  intro reason hreason
  rcases ho.reason with hnone | ⟨why, hwhy⟩
  · rw [hnone] at hreason
    cases hreason
  · rw [hwhy] at hreason
    cases hreason
    rfl

theorem Honoured.expose (h : Honoured env b) (ho : Placeable env price b o) : Honoured env (b.expose o) where
  reserved_le := by
    rw [reserved_eq]
    exact (reserved_place ho.not_pending).trans_le (ho.reserved_le h)
  not_short := by
    have hpending : ∀ x ∈ b.pending.upsert o, ∀ reason ∈ x.failureReason, reason.cashShort = false :=
      Table.forall_mem_upsert ho.not_short fun x hx => h.not_short x (.inl hx)
    exact fun x hx => hx.elim (hpending x) fun hx => h.not_short x (.inr hx)
  exact_sol := fun hc => by
    refine Table.forall_mem_upsert (fun hside => ?_) (h.exact_sol hc)
    obtain ⟨-, -, hrequired, -⟩ := ho.buy hside
    rw [requiredMinor_sol hc, Option.some_inj] at hrequired
    exact hrequired.symm

theorem Covers.expose (h : Covers env price b) (ho : Placeable env price b o) : Covers env price (b.expose o) := by
  refine Table.forall_mem_upsert (fun hside required hrequired => ?_) h
  obtain ⟨-, -, hreserved, -⟩ := ho.buy hside
  exact (Option.some.inj (hrequired.symm.trans hreserved)).le

theorem Honoured.save (h : Honoured env b) {row : PaperOrder}
    (hrow : ∀ reason ∈ row.failureReason, reason.cashShort = false) :
    Honoured env { b with orders := b.orders.upsert row } where
  reserved_le := h.reserved_le
  not_short := by
    have hrows : ∀ x ∈ b.orders.upsert row, ∀ reason ∈ x.failureReason, reason.cashShort = false :=
      Table.forall_mem_upsert hrow fun x hx => h.not_short x (.inr hx)
    exact fun x hx => hx.elim (fun hx => h.not_short x (.inl hx)) (hrows x)
  exact_sol := h.exact_sol

theorem Honoured.leave (h : Honoured env b) (ho : o ∈ b.pending) {row : PaperOrder}
    (hrow : ∀ reason ∈ row.failureReason, reason.cashShort = false) {ledger : List LedgerTransaction}
    (hcash : b.cash ≤ balance ledger .cash + o.heldBack) :
    Honoured env { b with
      orders := b.orders.upsert row
      pending := b.pending.erase o.orderId
      ledger := ledger } where
  reserved_le := by
    have hle := h.reserved_le
    have herase := reserved_erase ho
    rw [reserved_eq]
    show ((b.pending.erase o.orderId).rows.map PaperOrder.heldBack).sum ≤ balance ledger .cash
    omega
  not_short := fun x hx =>
    (h.save hrow).not_short x (hx.imp_left fun hx => (Table.mem_erase.mp hx).1)
  exact_sol := fun hc x hx => h.exact_sol hc x (Table.mem_erase.mp hx).1

theorem Covers.drop (h : Covers env price b) (id : ℕ) :
    Covers env price { b with pending := b.pending.erase id } :=
  fun x hx => h x (Table.mem_erase.mp hx).1

theorem Honoured.change (hs : Sound env b) (h : Honoured env b) (hcovers : Covers env price b)
    (hc : Change env price none b b') : Honoured env b' ∧ Covers env price b' := by
  cases hc with
  | tick _ => exact ⟨⟨h.reserved_le, h.not_short, h.exact_sol⟩, hcovers⟩
  | mark _ _ => exact ⟨⟨h.reserved_le, h.not_short, h.exact_sol⟩, hcovers⟩
  | @place _ o ho =>
    exact ⟨(h.expose ho).save ho.not_short, hcovers.expose ho⟩
  | @retire _ o status reason now ho _ hg =>
    have hcash : b.cash ≤ balance b.ledger .cash + o.heldBack :=
      le_add_of_nonneg_right (hs.heldBack_nonneg ho)
    exact ⟨h.leave ho (h.retired_not_short hs hcovers ho hg) hcash, hcovers.drop o.orderId⟩
  | @buy _ o r p tx hc =>
    have hrow : ∀ reason ∈ (o.filled r.filledAt).failureReason, reason.cashShort = false :=
      h.not_short o (.inl hc.pending)
    -- the fill takes no more than its order held back
    have hcash : b.cash ≤ balance (b.ledger ++ [tx]) .cash + o.heldBack := by
      obtain ⟨required, hrequired, hnet⟩ := hc.priced
      have hreserved := hcovers o hc.pending hc.side required hrequired
      rw [hc.cash_eq, heldBack_buy hc.side]
      omega
    have hleft := h.leave hc.pending hrow hcash
    exact ⟨⟨hleft.reserved_le, hleft.not_short, hleft.exact_sol⟩, hcovers.drop o.orderId⟩
  | @sell _ o r p tx hc =>
    have hrow : ∀ reason ∈ (o.filled r.filledAt).failureReason, reason.cashShort = false :=
      h.not_short o (.inl hc.pending)
    have hcash : b.cash ≤ balance (b.ledger ++ [tx]) .cash + o.heldBack := by
      have hnet := sellEntries_net_nonneg hc.entries
      have hheld := hs.heldBack_nonneg hc.pending
      rw [hc.cash_eq]
      omega
    have hleft := h.leave hc.pending hrow hcash
    exact ⟨⟨hleft.reserved_le, hleft.not_short, hleft.exact_sol⟩, hcovers.drop o.orderId⟩

theorem Honoured.broken (hs : Sound env b) (h : Honoured env b) (hcovers : Covers env price b)
    (hsite : site ≠ .fillMark) (hc : Change env price (some site) b b') : Honoured env b' := by
  cases hc with
  | markUnsaved _ _ => exact ⟨h.reserved_le, h.not_short, h.exact_sol⟩
  | expose ho => exact h.expose ho
  | @retireUnsaved _ o status reason now ho _ hg =>
    have hheld : ((b.pending.upsert (o.retired status reason now)).rows.map PaperOrder.heldBack) =
        b.pending.rows.map PaperOrder.heldBack := Table.map_upsert ho rfl rfl
    have hpending : ∀ x ∈ b.pending.upsert (o.retired status reason now),
        ∀ reason' ∈ x.failureReason, reason'.cashShort = false :=
      Table.forall_mem_upsert (h.retired_not_short hs hcovers ho hg) fun x hx => h.not_short x (.inl hx)
    refine ⟨?_, fun x hx => hx.elim (hpending x) fun hx => h.not_short x (.inr hx), fun hsol => ?_⟩
    · have hle := h.reserved_le
      rw [reserved_eq] at hle ⊢
      exact (congrArg List.sum hheld).trans_le hle
    · exact Table.forall_mem_upsert (h.exact_sol hsol o ho) (h.exact_sol hsol)
  | buyUnmarked _ _ _ => exact absurd rfl hsite

theorem Sound.recalled_heldBack_le (hs : Sound env b) :
    ((Table.ofRows (pendingOrders b.orders) : Orders).rows.map PaperOrder.heldBack).sum ≤ b.reserved := by
  let heldBack : Request → ℤ := fun x => if x.side = .buy then x.reservedAccountMinor else 0
  have hmap : ∀ t : Orders, t.rows.map PaperOrder.heldBack = (t.rows.map (·.toRequest)).map heldBack := fun t => by
    rw [map_map]
    rfl
  -- their requests are some of those that are pending
  have hnodup : ((Table.ofRows (pendingOrders b.orders) : Orders).rows.map (·.toRequest)).Nodup := by
    refine Nodup.of_map (·.orderId) ?_
    rw [map_map]
    exact (Table.ofRows (pendingOrders b.orders) : Orders).nodup
  have hsub : (Table.ofRows (pendingOrders b.orders) : Orders).rows.map (·.toRequest) ⊆
      b.pending.rows.map (·.toRequest) := by
    intro x hx
    obtain ⟨row, hrow, rfl⟩ := mem_map.mp hx
    obtain ⟨-, -, o, ho, he⟩ := hs.recalled_pending hrow
    exact he ▸ mem_map_of_mem ho
  obtain ⟨l, hperm, hsublist⟩ := hnodup.subperm hsub
  rw [reserved_eq, hmap, hmap]
  calc _ = (l.map heldBack).sum := (hperm.map heldBack).sum_eq.symm
    _ ≤ _ := by
      refine Sublist.sum_le_sum (hsublist.map heldBack) fun x hx => ?_
      rw [← hmap] at hx
      obtain ⟨o, ho, rfl⟩ := mem_map.mp hx
      exact hs.heldBack_nonneg ho

theorem Honoured.restart (hs : Sound env b) (h : Honoured env b) : Honoured env b.restart where
  reserved_le := by
    rw [reserved_eq]
    exact hs.recalled_heldBack_le.trans h.reserved_le
  not_short := fun x hx => h.not_short x (.inr (hx.elim (fun hx => (hs.recalled_pending hx).1) id))
  exact_sol := fun hc x hx hside => by
    obtain ⟨-, -, o, ho, he⟩ := hs.recalled_pending hx
    rw [← he] at hside ⊢
    exact h.exact_sol hc o ho hside

/-! ### Runs -/

theorem Honoured.step {w : World} (hs : Sound env w.books) (h : Honoured env w.books)
    (hmark : ∀ n, env.raises n .fillMark = false) {action : Action}
    (hcovers : Covers env action.price w.books) : Honoured env (step env w action).books := by
  rcases step_cases hs action with ⟨-, hbooks⟩ | ⟨c, hc, hlast⟩
  · rw [hbooks]
    exact h.restart hs
  · have hsettled : Sound env c ∧ Honoured env c ∧ Covers env action.price c :=
      hc.invariant (I := fun b => Sound env b ∧ Honoured env b ∧ Covers env action.price b) ⟨hs, h, hcovers⟩
        fun _ _ hI hchange => ⟨hI.1.change hchange, hI.2.1.change hI.1 hI.2.2 hchange⟩
    rcases hlast with hlast | ⟨site, ⟨n, hn⟩, hbroken⟩
    · exact hlast ▸ hsettled.2.1
    · refine hsettled.2.1.broken hsettled.1 hsettled.2.2 ?_ hbroken
      rintro rfl
      rw [hmark n] at hn
      cases hn

/-- **The reservations of the pending buys are covered by the cash, and no order fails for lack of
cash**, in every run in which no save of the mark after a committed buy raises, in SOL at any
prices, and otherwise when no action is handed a price at which a pending buy comes to more
than it reserved. -/
theorem reservations_honoured (env : Env) (hmark : ∀ n, env.raises n .fillMark = false) (actions : List Action)
    (hprice : env.quoteCurrency = .sol ∨ ∀ before action after, actions = before ++ action :: after →
      ∀ o ∈ (run env before).memory.pendingBuys, ∀ required,
        requiredMinor env o.requestedSolLamports action.price = some required →
          required ≤ o.reservedAccountMinor) :
    let w := run env actions
    (w.memory.pendingBuys.map (·.reservedAccountMinor)).sum ≤ w.cash ∧
      ∀ o, o ∈ w.memory.pending ∨ o ∈ w.database.paperOrders →
        ∀ reason ∈ o.failureReason, reason.cashShort = false := by
  intro w
  suffices h : Honoured env (run env actions).books from ⟨h.reserved_le, h.not_short⟩
  clear w
  induction actions using reverseRecOn with
  | nil =>
    refine ⟨?_, fun o ho => ho.elim (absurd · Table.not_mem_empty) (absurd · Table.not_mem_empty),
      fun _ o ho => absurd ho Table.not_mem_empty⟩
    exact (Sound.opened env).cash_nonneg
  | append_singleton actions action ih =>
    have hprefix := ih (hprice.imp_right fun h before a after he =>
      h before a (after ++ [action]) (by rw [he, append_assoc, cons_append]))
    have hrun : run env (actions ++ [action]) = SignalArcade.Paper.step env (run env actions) action := by simp [run]
    rw [hrun]
    refine hprefix.step (run_sound actions) hmark ?_
    rcases hprice with hsol | hprice
    · exact hprefix.covers_sol hsol
    · intro o ho hside
      exact hprice actions action [] rfl o (mem_filter.mpr ⟨ho, by simpa using hside⟩)

/-- A position that has become worth much, and two orders on the strength of it. Then the price of
SOL doubles, and both are due. -/
def sampleRise : List Action :=
  [.submitDecision (sampleDecision "A" (1 / 100)) (some 100) none,
    .processDueOrders (sampleUpdate "A" 30000000000 none (some 100)) false,
    .observeMarketState (sampleUpdate "A" 300000000000000 none (some 100)),
    .submitDecision (sampleDecision "B" 4) (some 100) none,
    .submitDecision (sampleDecision "C" 4) (some 100) none,
    .processDueOrders (sampleUpdate "B" 30000000000 none (some 200)) false,
    .processDueOrders (sampleUpdate "C" 30000000000 none (some 200)) false]

/-- At the price of the submission a buy is filled, and nothing lacks cash. -/
theorem reservations_honoured_same :
    let w := run (sampleEnv .usdc fun _ _ => false) (sampleRise.take 2)
    w.database.fills.length = 1 ∧ (w.memory.pendingBuys.map (·.reservedAccountMinor)).sum ≤ w.cash := by
  refine ⟨by decide +kernel, (reservations_honoured _ (fun _ => rfl) _ (.inr ?_)).1⟩
  intro before action after he o ho required hrequired
  -- before the first action nothing is pending, and before the second the order just submitted
  rcases before with _ | ⟨first, _ | ⟨second, before⟩⟩
  · cases ho
  · have hexact : ∀ o ∈ (run (sampleEnv .usdc fun _ _ => false) (sampleRise.take 1)).memory.pendingBuys,
        requiredMinor (sampleEnv .usdc fun _ _ => false) o.requestedSolLamports (some 100) =
          some o.reservedAccountMinor := by decide +kernel
    obtain ⟨rfl, hrest⟩ := List.cons.inj he
    obtain ⟨rfl, -⟩ := List.cons.inj hrest
    exact (Option.some.inj (hrequired.symm.trans (hexact o ho))).le
  · simp [sampleRise] at he

/-- When the price of SOL doubles, the first fill takes cash that is reserved for the second order,
which then fails for lack of it. -/
theorem reservations_honoured_rise :
    let w := fun n => run (sampleEnv .usdc fun _ _ => false) (sampleRise.take n)
    (w 6).cash < ((w 6).memory.pendingBuys.map (·.reservedAccountMinor)).sum ∧
      ∃ o ∈ (w 7).database.paperOrders.rows, o.failureReason = some (.fillRejected .paperCashInsufficient) := by
  decide +kernel

end SignalArcade.Paper
