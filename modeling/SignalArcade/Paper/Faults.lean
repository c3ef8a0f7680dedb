import SignalArcade.Paper.Fills

/-!
# Writes that fail

What depends on which database writes fail. An operation changes the memory and writes a row
as two steps, and what it leaves when the write raises is what later operations find.
-/

namespace SignalArcade.Paper

variable {env : Env} {price : Option ℚ} {site : WriteSite} {b b' : Books} {o : PaperOrder}

/-! ### Tidy books -/

/-- The pending orders are not filled, and what is stored of orders says how far they are. -/
structure Tidy (b : Books) : Prop where
  filled : ∀ f ∈ b.fills, ∀ row ∈ b.orders, row.orderId = f.orderId → row.status = .filled
  unfilled : ∀ o ∈ b.pending, b.Unfilled o.orderId
  durable : ∀ o ∈ b.pending, ∀ row ∈ b.orders, row.orderId = o.orderId → row.status = .pending

theorem Tidy.commit (h : Tidy b) {r : FillReceipt} {holding : Holding} (hc : Committed b o r holding) :
    (∀ f ∈ b.fills ++ [r], ∀ row ∈ b.orders.upsert (o.filled r.filledAt), row.orderId = f.orderId →
      row.status = .filled) ∧
    (∀ x ∈ b.pending.erase o.orderId, ∀ f ∈ b.fills ++ [r], f.orderId ≠ x.orderId) ∧
    ∀ x ∈ b.pending.erase o.orderId, ∀ row ∈ b.orders.upsert (o.filled r.filledAt), row.orderId = x.orderId →
      row.status = .pending := by
  have hid := hc.order_eq.1
  refine ⟨fun f hf row hrow he => ?_, fun x hx => ?_, fun x hx row hrow he => ?_⟩
  · rcases mem_orders_filled.mp hrow with rfl | ⟨hrow, hne⟩
    · rfl
    · rcases List.mem_append.mp hf with hf | hf
      · exact h.filled f hf row hrow he
      · rw [List.mem_singleton.mp hf] at he
        exact absurd (he.trans hid.symm) hne
  · obtain ⟨hx, hne⟩ := Table.mem_erase.mp hx
    exact unfilled_append.mpr ⟨h.unfilled x hx, fun he => hne (hid.trans he).symm⟩
  · obtain ⟨hx, hne⟩ := Table.mem_erase.mp hx
    rcases mem_orders_filled.mp hrow with rfl | ⟨hrow, -⟩
    · exact absurd he.symm hne
    · exact h.durable x hx row hrow he

theorem Tidy.change (hs : Sound env b) (h : Tidy b) (hc : Change env price none b b') : Tidy b' := by
  cases hc with
  | tick _ => exact ⟨h.filled, h.unfilled, h.durable⟩
  | mark _ _ => exact ⟨h.filled, h.unfilled, h.durable⟩
  | @place _ o ho =>
    have hnew := hs.fresh_unfilled ho.toFresh
    refine ⟨fun f hf => ?_, Table.forall_mem_upsert hnew h.unfilled, fun x hx row hrow he => ?_⟩
    · exact Table.forall_mem_upsert (fun he => absurd he.symm (hnew f hf)) (h.filled f hf)
    · rcases Table.mem_upsert.mp hrow with rfl | ⟨hrow, hne⟩
      · exact ho.status
      · rcases Table.mem_upsert.mp hx with rfl | ⟨hx, -⟩
        · exact absurd he hne
        · exact h.durable x hx row hrow he
  | @retire _ o status reason now ho _ _ =>
    refine ⟨fun f hf => ?_, fun x hx => h.unfilled x (Table.mem_erase.mp hx).1, fun x hx => ?_⟩
    · exact Table.forall_mem_upsert (fun he => absurd he.symm (h.unfilled o ho f hf)) (h.filled f hf)
    · obtain ⟨hx, hne⟩ := Table.mem_erase.mp hx
      exact Table.forall_mem_upsert (fun he => absurd he.symm hne) (h.durable x hx)
  | buy hc =>
    obtain ⟨hfilled, hunfilled, hdurable⟩ := h.commit hc.toCommitted
    exact ⟨hfilled, hunfilled, hdurable⟩
  | sell hc =>
    obtain ⟨hfilled, hunfilled, hdurable⟩ := h.commit hc.toCommitted
    exact ⟨hfilled, hunfilled, hdurable⟩

theorem Tidy.broken (hs : Sound env b) (h : Tidy b) (hsite : site ≠ .fillMark)
    (hc : Change env price (some site) b b') : Tidy b' := by
  cases hc with
  | markUnsaved _ _ => exact ⟨h.filled, h.unfilled, h.durable⟩
  | @expose _ o ho =>
    have hstored : ∀ row ∈ b.orders, row.orderId = o.orderId → row.status = .pending :=
      fun row hrow he => absurd he (ho.not_stored row hrow)
    exact ⟨h.filled, Table.forall_mem_upsert (hs.fresh_unfilled ho.toFresh) h.unfilled,
      Table.forall_mem_upsert hstored h.durable⟩
  | @retireUnsaved _ o status reason now ho _ _ =>
    exact ⟨h.filled, Table.forall_mem_upsert (h.unfilled o ho) h.unfilled,
      Table.forall_mem_upsert (h.durable o ho) h.durable⟩
  | buyUnmarked _ _ _ => exact absurd rfl hsite

theorem Tidy.restart (hs : Sound env b) (h : Tidy b) : Tidy b.restart := by
  refine ⟨h.filled, fun x hx => ?_, fun x hx row hrow he => ?_⟩
  · obtain ⟨hmem, hstatus⟩ := mem_recalled.mp hx
    exact hs.open_unfilled x hmem hstatus
  · obtain ⟨hmem, hstatus⟩ := mem_recalled.mp hx
    rw [b.orders.eq_of_key hrow hmem he]
    exact hstatus

theorem run_tidy (h : ∀ n, env.raises n .fillMark = false) (actions : List Action) :
    Sound env (run env actions).books ∧ Tidy (run env actions).books := by
  refine run_invariant ?_ (fun _ _ _ hs ht hc => ht.change hs hc) (fun _ site _ _ hfail hs ht hc => ?_)
    (fun _ hs ht => ht.restart hs) actions
  · exact ⟨fun f hf => absurd hf List.not_mem_nil, fun o ho => absurd ho Table.not_mem_empty,
      fun o ho => absurd ho Table.not_mem_empty⟩
  · refine ht.broken hs ?_ hc
    rintro rfl
    obtain ⟨n, hn⟩ := hfail
    rw [h n] at hn
    cases hn

/-- **An order that has a fill is stored as filled**, and no pending order is stored as ended, in
every run in which no save of the mark after a committed buy raises. -/
theorem fills_stay_filled (env : Env) (h : ∀ n, env.raises n .fillMark = false) (actions : List Action) :
    let w := run env actions
    (∀ f ∈ w.database.fills, ∃ row, w.database.paperOrders.get? f.orderId = some row ∧ row.status = .filled) ∧
      ∀ o ∈ w.memory.pending, ∀ row, w.database.paperOrders.get? o.orderId = some row → row.status = .pending := by
  intro w
  obtain ⟨hs, ht⟩ := run_tidy h actions
  refine ⟨fun f hf => ?_, fun o ho row hget => ?_⟩
  · obtain ⟨row, hrow, hid, -⟩ := hs.filled f hf
    exact ⟨row, Table.get?_eq_some.mpr ⟨hrow, hid⟩, ht.filled f hf row hrow hid⟩
  · obtain ⟨hrow, hid⟩ := Table.get?_eq_some.mp hget
    exact ht.durable o ho row hrow hid

def sampleEntry : List Action :=
  [.submitDecision (sampleDecision "A" (1 / 1000)) none none,
    .processDueOrders (sampleUpdate "A" 30000000000 none none) false,
    .expireStuckOrders 100000000]

/-- A buy that is filled. -/
theorem fills_stay_filled_entry :
    let w := run (sampleEnv .sol fun _ _ => false) sampleEntry
    w.database.fills.length = 1 ∧
      ∀ f ∈ w.database.fills, ∃ row, w.database.paperOrders.get? f.orderId = some row ∧ row.status = .filled :=
  ⟨by decide +kernel, (fills_stay_filled _ (fun _ => rfl) _).1⟩

/-- When the mark of the buy is not saved, the order is filled, still pending, and failed when it
expires. -/
theorem fills_stay_filled_unmarked :
    let w := run (sampleEnv .sol fun _ site => site = .fillMark) sampleEntry
    ∃ f ∈ w.database.fills, (w.database.paperOrders.get? f.orderId).map (·.status) = some .failed := by
  decide +kernel

/-! ### The history -/

/-- Nothing that was written is taken back: an order asks for what it asked for, and stays as it ended. -/
structure Continues (base b : Books) : Prop where
  fills : base.fills <+: b.fills
  ledger : base.ledger <+: b.ledger
  orders : ∀ row ∈ base.orders, ∃ row' ∈ b.orders, row'.toRequest = row.toRequest ∧
    (row.status ≠ .pending → row' = row)

variable {base : Books}

/-- The row of an order is written while the order is pending. -/
theorem Continues.write (hs : Sound env b) (ht : Tidy b) (h : Continues base b) (ho : o ∈ b.pending) {row : PaperOrder}
    (hrow : row.toRequest = o.toRequest) :
    ∀ old ∈ base.orders, ∃ row' ∈ b.orders.upsert row, row'.toRequest = old.toRequest ∧
      (old.status ≠ .pending → row' = old) := by
  intro old hold
  obtain ⟨row', hrow', hsame, hended⟩ := h.orders old hold
  have hid : row.orderId = o.orderId := congrArg Request.orderId hrow
  by_cases he : row'.orderId = o.orderId
  · refine ⟨row, Table.mem_upsert.mpr (.inl rfl), hrow.trans ((hs.twin o ho row' hrow' he).symm.trans hsame), fun hne => ?_⟩
    exact absurd (hended hne ▸ ht.durable o ho row' hrow' he) hne
  · exact ⟨row', Table.mem_upsert.mpr (.inr ⟨hrow', hid ▸ he⟩), hsame, hended⟩

theorem Continues.change (hs : Sound env b) (ht : Tidy b) (h : Continues base b) {site : Option WriteSite}
    (hc : Change env price site b b') : Continues base b' := by
  cases hc with
  | tick _ => exact ⟨h.fills, h.ledger, h.orders⟩
  | mark _ _ => exact ⟨h.fills, h.ledger, h.orders⟩
  | markUnsaved _ _ => exact ⟨h.fills, h.ledger, h.orders⟩
  | @place _ o ho =>
    refine ⟨h.fills, h.ledger, fun old hold => ?_⟩
    obtain ⟨row, hrow, hsame⟩ := h.orders old hold
    exact ⟨row, Table.mem_upsert.mpr (.inr ⟨hrow, ho.not_stored row hrow⟩), hsame⟩
  | expose _ => exact ⟨h.fills, h.ledger, h.orders⟩
  | retire ho _ _ => exact ⟨h.fills, h.ledger, h.write hs ht ho rfl⟩
  | retireUnsaved _ _ _ => exact ⟨h.fills, h.ledger, h.orders⟩
  | buy hc =>
    exact ⟨h.fills.trans (List.prefix_append _ _), h.ledger.trans (List.prefix_append _ _),
      h.write hs ht hc.pending rfl⟩
  | buyUnmarked hc _ _ =>
    exact ⟨h.fills.trans (List.prefix_append _ _), h.ledger.trans (List.prefix_append _ _),
      h.write hs ht hc.pending rfl⟩
  | sell hc =>
    exact ⟨h.fills.trans (List.prefix_append _ _), h.ledger.trans (List.prefix_append _ _),
      h.write hs ht hc.pending rfl⟩

theorem Continues.run (hmark : ∀ n, env.raises n .fillMark = false) (actions : List Action) {w : World}
    (hs : Sound env w.books) (ht : Tidy w.books) (h : Continues base w.books) :
    Continues base (actions.foldl (step env) w).books := by
  induction actions generalizing w with
  | nil => exact h
  | cons action actions ih =>
    suffices hstep : Sound env (step env w action).books ∧ Tidy (step env w action).books ∧
        Continues base (step env w action).books from ih hstep.1 hstep.2.1 hstep.2.2
    rcases step_cases hs action with ⟨-, hbooks⟩ | hended
    · rw [hbooks]
      exact ⟨hs.restart, ht.restart hs, h.fills, h.ledger, h.orders⟩
    · refine hended.invariant (I := fun c => Sound env c ∧ Tidy c ∧ Continues base c) ⟨hs, ht, h⟩
        (fun _ _ h hc => ⟨h.1.change hc, h.2.1.change h.1 hc, h.2.2.change h.1 h.2.1 hc⟩) fun site _ _ hfail h hc => ?_
      refine ⟨h.1.change hc, h.2.1.broken h.1 ?_ hc, h.2.2.change h.1 h.2.1 hc⟩
      rintro rfl
      obtain ⟨n, hn⟩ := hfail
      rw [hmark n] at hn
      cases hn

/-- **The history is only added to.** Whatever follows, and however often the broker is started anew: the fills and the
ledger begin with what they were, no order is deleted or asks for anything else, and one that has ended is not changed, in
every run in which no save of the mark after a committed buy raises. -/
theorem history_only_grows (env : Env) (hmark : ∀ n, env.raises n .fillMark = false) (actions later : List Action) :
    Continues (run env actions).books (run env (actions ++ later)).books := by
  obtain ⟨hs, ht⟩ := run_tidy hmark actions
  have hsame : Continues (run env actions).books (run env actions).books :=
    ⟨List.prefix_rfl, List.prefix_rfl, fun row hrow => ⟨row, hrow, rfl, fun _ => rfl⟩⟩
  have hlater := hsame.run hmark later hs ht
  rwa [run, ← List.foldl_append] at hlater

theorem history_only_grows_entry :
    let w := run (sampleEnv .sol fun _ _ => false) (sampleEntry.take 2)
    w.database.fills.length = 1 ∧ Continues w.books
      (run (sampleEnv .sol fun _ _ => false) (sampleEntry.take 2 ++ [.expireStuckOrders 100000000, .restart])).books :=
  ⟨by decide +kernel, history_only_grows _ (fun _ => rfl) _ _⟩

/-! ### Orders and positions -/

def buysOf (fills : List FillReceipt) (mint : String) : List FillReceipt :=
  fills.filter fun fill => fill.side = .buy ∧ fill.mint = mint

theorem Sound.buysOf_le_one (hs : Sound env b) (mint : String) : (buysOf b.fills mint).length ≤ 1 := by
  have hmem : ∀ f ∈ buysOf b.fills mint, f ∈ b.fills ∧ f.side = .buy ∧ f.mint = mint := fun f hf => by
    simpa [buysOf] using hf
  have hnodup : (buysOf b.fills mint).Nodup := hs.one_fill.of_map.sublist List.filter_sublist
  rcases hl : buysOf b.fills mint with _ | ⟨f, _ | ⟨f', rest⟩⟩
  · exact Nat.zero_le _
  · exact le_rfl
  · -- two of them would be the same
    rw [hl] at hmem hnodup
    obtain ⟨hf, hside, hm⟩ := hmem f (by simp)
    obtain ⟨hf', hside', hm'⟩ := hmem f' (by simp)
    have heq := hs.one_buy f hf f' hf' hside hside' (hm.trans hm'.symm)
    exact absurd (heq ▸ List.mem_cons_self) (List.nodup_cons.mp hnodup).1

/-- **Orders and positions keep out of each other's way**, in every run in which no save of the mark
after a committed buy raises: a mint has one pending order; a pending sell is of all units of an
open position; a pending buy is of a mint that is not held and was not traded; what is held was
traded; a mint is bought once; and no order fails because its position no longer exists. -/
theorem orders_exclusive (env : Env) (h : ∀ n, env.raises n .fillMark = false) (actions : List Action) :
    let w := run env actions
    (∀ o ∈ w.memory.pending, ∀ o' ∈ w.memory.pending, o.mint = o'.mint → o = o') ∧
      (∀ o ∈ w.memory.pending, o.side = .sell →
        ∃ p, w.memory.positions.get? o.mint = some p ∧ p.tokenUnits = o.requestedTokenUnits) ∧
      (∀ o ∈ w.memory.pending, o.side = .buy →
        w.memory.positions.get? o.mint = none ∧ o.mint ∉ w.memory.tradedMints) ∧
      (∀ p ∈ w.memory.positions, p.mint ∈ w.memory.tradedMints) ∧
      (∀ mint, (buysOf w.database.fills mint).length ≤ 1) ∧
      ∀ o, o ∈ w.memory.pending ∨ o ∈ w.database.paperOrders →
        o.failureReason ≠ some .positionNoLongerExists := by
  intro w
  obtain ⟨hs, ht⟩ := run_tidy h actions
  have htraded : ∀ p ∈ w.memory.positions, p.mint ∈ w.memory.tradedMints := fun p hp => by
    obtain ⟨f, hf, hside, hm, -⟩ := hs.bought p hp
    exact (hs.traded_iff _).mpr ⟨f, hf, hside, hm⟩
  refine ⟨fun o ho o' ho' hm => ?_, fun o ho hside => ?_, fun o ho hside => ?_, htraded, hs.buysOf_le_one,
    hs.not_gone⟩
  · exact w.memory.pending.eq_of_key ho ho'
      (hs.one_order o ho o' ho' (ht.unfilled o ho) (ht.unfilled o' ho') hm)
  · obtain ⟨p, hp, hm, hunits⟩ := hs.sell_held o ho hside
    exact ⟨p, Table.get?_eq_some.mpr ⟨hp, hm⟩, hunits⟩
  · have huntraded : o.mint ∉ w.memory.tradedMints := hs.buy_untraded o ho hside (ht.unfilled o ho)
    exact ⟨Table.get?_eq_none.mpr fun p hp hm => huntraded (hm ▸ htraded p hp), huntraded⟩

/-- What was bought is held and traded, and its order is not pending. -/
theorem orders_exclusive_entry :
    let w := run (sampleEnv .sol fun _ _ => false) (sampleEntry.take 2)
    w.memory.positions.rows.length = 1 ∧ ∀ p ∈ w.memory.positions, p.mint ∈ w.memory.tradedMints :=
  ⟨by decide +kernel, (orders_exclusive _ (fun _ => rfl) _).2.2.2.1⟩

/-- When the mark of the buy is not saved, the buy stays pending for a mint that is held. -/
theorem orders_exclusive_unmarked :
    let w := run (sampleEnv .sol fun _ site => site = .fillMark) (sampleEntry.take 2)
    ∃ o ∈ w.memory.pending.rows, o.side = .buy ∧ (w.memory.positions.get? o.mint).isSome ∧
      o.mint ∈ w.memory.tradedMints := by
  decide +kernel

/-! ### Mirrored books -/

/-- The database is a mirror of the memory. -/
structure Mirrored (b : Books) : Prop where
  pending_iff : ∀ o, o ∈ b.pending ↔ o ∈ b.orders ∧ o.status = .pending
  positions_iff : ∀ p, p ∈ b.positions ↔ p ∈ b.stored

theorem Mirrored.end_order (h : Mirrored b) {row : PaperOrder} (hrow : row.status ≠ .pending) (x : PaperOrder) :
    x ∈ b.pending.erase row.orderId ↔ x ∈ b.orders.upsert row ∧ x.status = .pending := by
  rw [Table.mem_erase, Table.mem_upsert, h.pending_iff]
  constructor
  · rintro ⟨⟨hx, hstatus⟩, hne⟩
    exact ⟨.inr ⟨hx, hne⟩, hstatus⟩
  · rintro ⟨rfl | ⟨hx, hne⟩, hstatus⟩
    · exact absurd hstatus hrow
    · exact ⟨⟨hx, hstatus⟩, hne⟩

theorem Mirrored.same_key (h : Mirrored b) {p x : Position} (hp : p ∈ b.positions) (hx : x ∈ b.positions) :
    x.mint = p.mint ↔ x.positionId = p.positionId := by
  constructor
  · intro hm
    rw [b.positions.eq_of_key hx hp hm]
  · intro hid
    rw [b.stored.eq_of_key ((h.positions_iff x).mp hx) ((h.positions_iff p).mp hp) hid]

/-- A change keeps memory and rows alike. -/
theorem Mirrored.change (h : Mirrored b) (hc : Change env price none b b') : Mirrored b' := by
  cases hc with
  | tick _ => exact ⟨h.pending_iff, h.positions_iff⟩
  | @mark _ p p' hp hh =>
    refine ⟨h.pending_iff, fun x => ?_⟩
    have hkey : x ∈ b.positions → (x.mint ≠ p'.mint ↔ x.positionId ≠ p'.positionId) := fun hx => by
      rw [hh]
      exact (h.same_key hp hx).not
    show x ∈ b.positions.upsert p' ↔ x ∈ b.stored.upsert p'
    rw [Table.mem_upsert, Table.mem_upsert, ← h.positions_iff]
    exact or_congr_right (and_congr_right hkey)
  | @place _ o ho =>
    refine ⟨fun x => ?_, h.positions_iff⟩
    show x ∈ b.pending.upsert o ↔ x ∈ b.orders.upsert o ∧ x.status = .pending
    rw [Table.mem_upsert, Table.mem_upsert, h.pending_iff]
    constructor
    · rintro (rfl | ⟨⟨hx, hstatus⟩, hne⟩)
      · exact ⟨.inl rfl, ho.status⟩
      · exact ⟨.inr ⟨hx, hne⟩, hstatus⟩
    · rintro ⟨rfl | ⟨hx, hne⟩, hstatus⟩
      · exact .inl rfl
      · exact .inr ⟨⟨hx, hstatus⟩, hne⟩
  | @retire _ o status reason now _ hstatus _ =>
    have hne : (o.retired status reason now).status ≠ .pending := by
      rcases hstatus with rfl | rfl <;> simp [PaperOrder.retired]
    exact ⟨h.end_order hne, h.positions_iff⟩
  | @buy _ o r p tx hc =>
    have hne : (o.filled r.filledAt).status ≠ .pending := by simp [PaperOrder.filled]
    refine ⟨h.end_order hne, fun x => ?_⟩
    have hpmint : p.mint = o.mint := hc.valid.mint.trans hc.order_eq.2.1.symm
    show x ∈ b.positions.upsert p ↔ x ∈ b.stored.upsert p
    rw [Table.mem_upsert, Table.mem_upsert, ← h.positions_iff]
    refine or_congr_right (and_congr_right fun hx => ?_)
    -- the new position is of a mint and an identifier of its own
    obtain ⟨hm, hid⟩ := hc.new_position x ((h.positions_iff x).mp hx)
    exact iff_of_true (fun he => hm (he.trans hpmint)) hid
  | @sell _ o r p tx hc =>
    have hne : (o.filled r.filledAt).status ≠ .pending := by simp [PaperOrder.filled]
    refine ⟨h.end_order hne, fun x => ?_⟩
    have hpmint : p.mint = o.mint := hc.valid.mint.trans hc.order_eq.2.1.symm
    show x ∈ b.positions.erase o.mint ↔ x ∈ b.stored.erase p.positionId
    rw [Table.mem_erase, Table.mem_erase, ← h.positions_iff, ← hpmint]
    exact and_congr_right fun hx => (h.same_key hc.position hx).not

theorem Sound.mem_read (hs : Sound env b) (p : Position) :
    p ∈ (Table.ofRows (listPositions b.stored) : Positions) ↔ p ∈ b.stored := by
  rw [Table.mem_ofRows hs.read_nodup, (listPositions_perm b.stored).mem_iff]
  rfl

theorem Sound.mirrored (hs : Sound env b) : Mirrored b.restart :=
  ⟨fun _ => mem_recalled, hs.mem_read⟩

/-- **A broker that starts from the database is the one that runs**, in every run in which no save of
an order or of a position raises: every pending order is stored as it is, and what is read back are
the same pending orders, positions and traded mints. -/
theorem recover_same (env : Env) (horder : ∀ n, env.raises n .saveOrder = false)
    (hposition : ∀ n, env.raises n .savePosition = false) (hmark : ∀ n, env.raises n .fillMark = false)
    (actions : List Action) :
    let w := run env actions
    (∀ o ∈ w.memory.pending, ∃ row, w.database.paperOrders.get? o.orderId = some row ∧
        row.status = .pending ∧ row.toRequest = o.toRequest) ∧
      (∀ o, o ∈ (recover w.database).pending ↔ o ∈ w.memory.pending) ∧
      (∀ p, p ∈ (recover w.database).positions ↔ p ∈ w.memory.positions) ∧
      (recover w.database).tradedMints = w.memory.tradedMints := by
  intro w
  have hrun : Sound env w.books ∧ Mirrored w.books := by
    refine run_invariant ?_ (fun _ _ _ _ hm hc => hm.change hc) (fun _ site _ _ hfail _ _ hc => ?_)
      (fun _ hs _ => hs.mirrored) actions
    · exact ⟨fun o => iff_of_false Table.not_mem_empty fun ho => Table.not_mem_empty ho.1,
        fun p => iff_of_false Table.not_mem_empty Table.not_mem_empty⟩
    · obtain ⟨n, hn⟩ := hfail
      cases hc with
      | markUnsaved _ _ => rw [hposition n] at hn; cases hn
      | expose _ => rw [horder n] at hn; cases hn
      | retireUnsaved _ _ _ => rw [horder n] at hn; cases hn
      | buyUnmarked _ _ _ => rw [hmark n] at hn; cases hn
  obtain ⟨hs, hm⟩ := hrun
  refine ⟨fun o ho => ?_, fun o => ?_, fun p => ?_, ?_⟩
  · obtain ⟨hrow, hstatus⟩ := (hm.pending_iff o).mp ho
    exact ⟨o, Table.get?_eq_some.mpr ⟨hrow, rfl⟩, hstatus, rfl⟩
  · exact mem_recalled.trans (hm.pending_iff o).symm
  · exact (hs.mem_read p).trans (hm.positions_iff p).symm
  · ext m
    exact mem_boughtMints.trans (hs.traded_iff m).symm

/-- A submitted order is found again. -/
theorem recover_same_entry :
    let w := run (sampleEnv .sol fun _ _ => false) (sampleEntry.take 1)
    w.memory.pending.rows.length = 1 ∧ ∀ o, o ∈ (recover w.database).pending ↔ o ∈ w.memory.pending :=
  ⟨by decide +kernel, (recover_same _ (fun _ => rfl) (fun _ => rfl) (fun _ => rfl) _).2.1⟩

/-- An order whose save fails is pending, and not stored. -/
theorem recover_same_unsaved :
    let w := run (sampleEnv .sol fun _ site => site = .saveOrder) (sampleEntry.take 1)
    (∃ o ∈ w.memory.pending.rows, w.database.paperOrders.get? o.orderId = none) ∧
      (recover w.database).pending.rows = [] := by
  decide +kernel

end SignalArcade.Paper
