import SignalArcade.Paper.Receipts
import SignalArcade.Paper.Sound

/-!
# What the operations do to the books

The programs of the broker, related to the changes of the books. `Walks` says of a
program that it goes from books to books by complete changes, that it ends in a change
that broke off only where a write may fail, and that no fill it commits is refused.
-/

namespace SignalArcade.Paper

open Checked Prog Steps List

/-! ### Walks -/

/-- A write made at the place may raise. -/
def Env.mayFail (env : Env) (site : WriteSite) : Prop := ∃ n, env.raises n site = true

/-- A fill the broker built is refused. -/
def Exn.Refused (e : Exn) : Prop := ∃ error, e = .rejected error

@[simp] theorem Exn.refused_iff {e : Exn} : e.Refused ↔ ∃ error, e = .rejected error := Iff.rfl

/-- A program goes by changes of the books, and what it returns is as said. -/
def Walks (env : Env) (price : Option ℚ) {α : Type} (x : Broker α) (Q : α → World → Prop) (w : World) : Prop :=
  Wp x (fun a w' => Settled (Change env price) w.books w'.books ∧ Q a w')
    (fun e w' => Ended (Change env price) env.mayFail w.books w'.books ∧ ¬ e.Refused) w

section Rules

variable {env : Env} {price : Option ℚ} {α β : Type} {x : Broker α} {f : α → Broker β}
variable {Q Q' : α → World → Prop} {R : β → World → Prop} {w : World}

theorem Walks.mono (h : Walks env price x Q w) (hQ : ∀ a w', Q a w' → Q' a w') : Walks env price x Q' w :=
  Wp.mono h (fun a w' ha => ⟨ha.1, hQ a w' ha.2⟩) fun _ _ he => he

theorem Walks.pure {a : α} (h : Q a w) : Walks env price (Pure.pure a : Broker α) Q w :=
  ⟨.refl, h⟩

theorem Walks.bind (h : Walks env price x Q w)
    (hf : ∀ a w', Settled (Change env price) w.books w'.books → Q a w' → Walks env price (f a) R w') :
    Walks env price (x >>= f) R w := by
  unfold Walks
  rw [wp_bind]
  refine Wp.mono h (fun a w' ha => ?_) fun _ _ he => he
  exact Wp.mono (hf a w' ha.1 ha.2) (fun _ _ hb => ⟨ha.1.trans hb.1, hb.2⟩)
    fun _ _ he => ⟨ha.1.trans_ended he.1, he.2⟩

theorem Walks.get_bind {f : World → Broker β} (h : Walks env price (f w) R w) :
    Walks env price (get >>= f) R w := h

theorem Walks.ite {c : Prop} [Decidable c] {y : Broker α} (hx : c → Walks env price x Q w)
    (hy : ¬ c → Walks env price y Q w) : Walks env price (if c then x else y) Q w :=
  wp_ite.mpr ⟨hx, hy⟩

theorem Walks.collect {body : α → Broker (Option β)} {I : List α → World → Prop}
    (hbody : ∀ a l w', Settled (Change env price) w.books w'.books → I (a :: l) w' →
      Walks env price (body a) (fun _ => I l) w') (l : List α) (h : I l w) :
    Walks env price (Prog.collect body l) (fun _ => I []) w := by
  refine Wp.collect (I := fun l w' => Settled (Change env price) w.books w'.books ∧ I l w')
    (fun a l w' hw => ?_) l w ⟨.refl, h⟩
  exact Wp.mono (hbody a l w' hw.1 hw.2) (fun _ _ hb => ⟨hw.1.trans hb.1, hb.2⟩)
    fun _ _ he => ⟨hw.1.trans_ended he.1, he.2⟩

end Rules

variable {env : Env} {price : Option ℚ} {w w' w'' : World}

/-! ### Quiet programs -/

/-- The books are the same, but for identifiers drawn. -/
structure Quiet (w w' : World) : Prop where
  books_eq : w'.books = { w.books with ticks := w'.ticks }
  le : w.ticks ≤ w'.ticks

theorem Quiet.refl : Quiet w w := ⟨rfl, le_rfl⟩

theorem Quiet.trans (h : Quiet w w') (h' : Quiet w' w'') : Quiet w w'' :=
  ⟨by rw [h'.books_eq, h.books_eq], h.le.trans h'.le⟩

theorem Quiet.settled (h : Quiet w w') : Settled (Change env price) w.books w'.books := by
  rw [h.books_eq]
  exact .single (.tick h.le)

theorem Quiet.sound (h : Quiet w w') (hs : Sound env w.books) : Sound env w'.books := by
  rw [h.books_eq]
  exact hs.tick h.le

section

variable (h : Quiet w w')

include h

theorem Quiet.pending : w'.memory.pending = w.memory.pending := congrArg Books.pending h.books_eq

theorem Quiet.positions : w'.memory.positions = w.memory.positions := congrArg Books.positions h.books_eq

theorem Quiet.cash : w'.cash = w.cash := congrArg Books.cash h.books_eq

end

/-- A quiet program: its exceptions leave the books as they were, too. -/
def Quietly {α : Type} (x : Broker α) (Q : α → World → Prop) (w : World) : Prop :=
  Wp x (fun a w' => Quiet w w' ∧ Q a w') (fun e w' => Quiet w w' ∧ ¬ e.Refused) w

section

variable {α β : Type} {x : Broker α} {f : α → Broker β} {Q Q' : α → World → Prop} {R : β → World → Prop}

namespace Quietly

theorem walks (h : Quietly x Q w) : Walks env price x (fun a w' => Quiet w w' ∧ Q a w') w :=
  Wp.mono h (fun _ _ ha => ⟨ha.1.settled, ha⟩) fun _ _ he => ⟨he.1.settled.ended, he.2⟩

theorem mono (h : Quietly x Q w) (hQ : ∀ a w', Quiet w w' → Q a w' → Q' a w') : Quietly x Q' w :=
  Wp.mono h (fun a w' ha => ⟨ha.1, hQ a w' ha.1 ha.2⟩) fun _ _ he => he

theorem pure {a : α} (h : Q a w) : Quietly (Pure.pure a : Broker α) Q w := ⟨.refl, h⟩

theorem throw {e : Exn} (h : ¬ e.Refused) : Quietly (throw e : Broker α) Q w := ⟨.refl, h⟩

theorem bind (h : Quietly x Q w) (hf : ∀ a w', Quiet w w' → Q a w' → Quietly (f a) R w') :
    Quietly (x >>= f) R w := by
  unfold Quietly
  rw [wp_bind]
  refine Wp.mono h (fun a w' ha => ?_) fun _ _ he => he
  exact Wp.mono (hf a w' ha.1 ha.2) (fun b w'' hb => ⟨ha.1.trans hb.1, hb.2⟩)
    fun _ _ he => ⟨ha.1.trans he.1, he.2⟩

theorem get_bind {f : World → Broker β} (h : Quietly (f w) R w) : Quietly (get >>= f) R w := h

theorem ite {c : Prop} [Decidable c] {y : Broker α} (hx : c → Quietly x Q w)
    (hy : ¬ c → Quietly y Q w) : Quietly (if c then x else y) Q w := wp_ite.mpr ⟨hx, hy⟩

end Quietly

end

theorem tick_quietly (w : World) : Quietly tick (fun n w' => n = w.ticks ∧ w'.ticks = w.ticks + 1) w :=
  ⟨⟨rfl, Nat.le_succ _⟩, rfl, rfl⟩

theorem utcNow_quietly (w : World) : Quietly (utcNow env) (fun _ _ => True) w :=
  (tick_quietly w).bind fun _ _ _ _ => .pure trivial

theorem transact_wp {site : WriteSite} {write : Database → Except DatabaseError Database}
    {Q : Unit → World → Prop} {E : Exn → World → Prop}
    (hraise : env.mayFail site → E (.writeFailed site) { w with ticks := w.ticks + 1 })
    (herror : ∀ e, write w.database = .error e → E (.database e) { w with ticks := w.ticks + 1 })
    (hok : ∀ db, write w.database = .ok db → Q ⟨⟩ { w with database := db, ticks := w.ticks + 1 }) :
    Wp (transact env site write) Q E w := by
  unfold transact tick
  simp only [wp_bind, wp_get, wp_set, wp_pure, wp_ite, wp_throw, wp_ofExcept]
  exact ⟨fun h => hraise ⟨_, h⟩, fun _ => ⟨hok, herror⟩⟩

theorem transact_quietly {site : WriteSite} {write : Database → Except DatabaseError Database}
    (h : ∀ db, write w.database = .ok db → World.books { w with database := db } = w.books) :
    Quietly (transact env site write) (fun _ _ => True) w := by
  refine transact_wp (fun _ => ⟨⟨rfl, Nat.le_succ _⟩, by simp⟩)
    (fun e _ => ⟨⟨rfl, Nat.le_succ _⟩, by simp⟩) fun db hdb => ⟨⟨?_, Nat.le_succ _⟩, trivial⟩
  exact congrArg (fun b : Books => { b with ticks := w.ticks + 1 }) (h db hdb)

theorem setPeakEquity_quietly (peak : ℤ) :
    Quietly (transact env .setSetting fun db => db.setPeakEquity peak) (fun _ _ => True) w :=
  transact_quietly fun _ h => by cases h; rfl

theorem previousPeak_quietly (equity : ℤ) (persistPeak : Bool) :
    Quietly (previousPeak env equity persistPeak) (fun _ _ => True) w := by
  unfold previousPeak
  refine .get_bind (.ite (fun _ => .ite (fun _ => ?_) fun _ => .pure trivial) fun _ => .pure trivial)
  refine (setPeakEquity_quietly _).bind fun _ _ _ _ => ?_
  refine (transact_quietly fun _ h => by cases h; rfl).bind fun _ _ _ _ => .pure trivial

theorem snapshot_quietly (mode : Option RiskMode) (persistPeak : Bool) :
    Quietly (snapshot env mode persistPeak) (fun portfolio _ => portfolio.cashLamports = w.cash) w := by
  unfold snapshot
  refine (utcNow_quietly w).bind fun _ w1 h1 _ => .get_bind ?_
  refine (previousPeak_quietly _ _).bind fun _ w2 h2 _ => ?_
  exact .ite (fun _ => (setPeakEquity_quietly _).bind fun _ _ _ _ => .pure h1.cash) fun _ => .pure h1.cash

theorem recordEquity_quietly (now : Instant) (force : Bool) :
    Quietly (recordEquity env now force) (fun _ _ => True) w := by
  unfold recordEquity
  refine .get_bind (.ite (fun _ => .pure trivial) fun _ => ?_)
  refine (snapshot_quietly none true).bind fun _ _ _ _ => ?_
  refine (transact_quietly fun _ h => by cases h; rfl).bind fun _ _ _ _ => ?_
  exact ⟨⟨rfl, le_rfl⟩, trivial⟩

/-! ### Placing and retiring orders -/

variable {o : PaperOrder}

theorem Sound.fresh (hs : Sound env w.books) (h : Quiet w w') (hlt : w.ticks < w'.ticks)
    (ho : o.orderId = w.ticks) : Fresh w'.books o := by
  rw [h.books_eq]
  refine ⟨ho.trans_lt hlt, fun o' ho' he => ?_, fun row hrow he => ?_⟩
  · exact (hs.pending_known o' ho').ne (he.trans ho)
  · exact (hs.stored_known row hrow).ne (he.trans ho)

theorem placeOrder_walks (h : Placeable env price w.books o) :
    Walks env price (placeOrder env o) (fun _ _ => True) w := by
  have hbroken : Change env price (some .saveOrder) { w.books with ticks := w.ticks + 1 }
      ({ w.books with ticks := w.ticks + 1 }.expose o) :=
    .expose { h with known := h.known.trans (Nat.lt_succ_self _) }
  unfold Walks placeOrder putPending
  rw [wp_bind, wp_modify]
  refine transact_wp (fun hfail => ⟨?_, by simp⟩) (fun e he => by cases he)
    fun db hdb => ⟨?_, trivial⟩
  · exact (Settled.single (.tick (Nat.le_succ _))).broken hfail hbroken
  · cases hdb
    exact (Settled.single (.place h)).trans (.single (.tick (Nat.le_succ _)))

/-- The other pending orders stay pending. -/
def KeepsOthers (o : PaperOrder) (w w' : World) : Prop :=
  ∀ x ∈ w.memory.pending, x.orderId ≠ o.orderId → x ∈ w'.memory.pending

theorem Quiet.keepsOthers (h : Quiet w w') (o : PaperOrder) : KeepsOthers o w w' := fun x hx _ => by
  rw [h.pending]
  exact hx

theorem Quiet.keepsOthers_trans (h : Quiet w w') (h' : KeepsOthers o w' w'') :
    KeepsOthers o w w'' := by
  intro x hx hne
  rw [← h.pending] at hx
  exact h' x hx hne

theorem retireOrder_walks {status : OrderStatus} {reason : OrderReason} {now : Instant}
    (ho : o ∈ w.memory.pending) (hstatus : status = .failed ∨ status = .cancelled)
    (h : Grounds env price w.books o reason) :
    Walks env price (retireOrder env o status reason now) (fun _ w' => KeepsOthers o w w') w := by
  have hbroken : Change env price (some .saveOrder) { w.books with ticks := w.ticks + 1 }
      ({ w.books with ticks := w.ticks + 1 }.expose (o.retired status reason now)) :=
    .retireUnsaved ho hstatus ⟨h.gone, h.short⟩
  have herase : (w.memory.pending.upsert (o.retired status reason now)).erase o.orderId =
      w.memory.pending.erase o.orderId := Table.erase_upsert _ _
  unfold Walks retireOrder putPending popPending
  rw [wp_bind, wp_modify, wp_bind]
  refine transact_wp (fun hfail => ⟨?_, by simp⟩) (fun e he => by cases he) fun db hdb => ?_
  · exact (Settled.single (.tick (Nat.le_succ _))).broken hfail hbroken
  · cases hdb
    rw [wp_modify]
    have hbooks : Settled (Change env price) w.books
        { w.books.retire (o.retired status reason now) with ticks := w.ticks + 1 } :=
      (Settled.single (.retire ho hstatus h)).trans (.single (.tick (Nat.le_succ _)))
    refine ⟨?_, fun x hx hne => Table.mem_erase.mpr ⟨Table.mem_upsert.mpr (.inr ⟨hx, hne⟩), hne⟩⟩
    simp only [World.books, herase]
    exact hbooks

theorem pendingLoop_walks {β : Type} {body : PaperOrder → Broker (Option β)} (hs : Sound env w.books)
    (hbody : ∀ o w', Sound env w'.books → o ∈ w'.memory.pending →
      Walks env price (body o) (fun _ w'' => KeepsOthers o w' w'') w') :
    Walks env price (collect body w.memory.pending.rows) (fun _ _ => True) w := by
  let I : List PaperOrder → World → Prop := fun l w' =>
    (∀ o ∈ l, o ∈ w'.memory.pending) ∧ (l.map (·.orderId)).Nodup
  have hstart : I w.memory.pending.rows w := ⟨fun o ho => ho, w.memory.pending.nodup⟩
  refine (Walks.collect (fun o l w' hw hI => ?_) w.memory.pending.rows hstart).mono fun _ _ _ => trivial
  obtain ⟨hmem, hnodup⟩ := hI
  rw [forall_mem_cons] at hmem
  rw [map_cons, nodup_cons] at hnodup
  refine (hbody o w' (hs.settled hw) hmem.1).mono fun _ w'' hkeep => ⟨fun x hx => ?_, hnodup.2⟩
  exact hkeep x (hmem.2 x hx) fun he => hnodup.1 (he ▸ mem_map_of_mem hx)

theorem Grounds.trivial {b : Books} {reason : OrderReason}
    (hgone : reason ≠ .positionNoLongerExists) (hshort : reason.cashShort = false) :
    Grounds env price b o reason :=
  ⟨fun h => absurd h hgone, fun h => absurd (hshort.symm.trans h) (by decide)⟩

theorem cancelWhere_walks (hs : Sound env w.books) (cancels : PaperOrder → Bool) (now : Instant) (reason : String) :
    Walks env price (cancelWhere env cancels now reason) (fun _ _ => True) w := by
  unfold cancelWhere
  refine .get_bind ((pendingLoop_walks hs fun o w' hs' ho => ?_).bind fun _ _ _ _ => .pure trivial)
  refine .ite (fun _ => .pure (Quiet.refl.keepsOthers o)) fun _ => ?_
  exact (retireOrder_walks ho (.inr rfl) (.trivial (by simp) rfl)).bind fun _ _ _ hkeep => .pure hkeep

theorem expireStuckOrders_walks (hs : Sound env w.books) (now : Instant) :
    Walks env price (expireStuckOrders env now) (fun _ _ => True) w := by
  unfold expireStuckOrders
  refine .get_bind (pendingLoop_walks hs fun o w' hs' ho => ?_)
  refine .ite (fun _ => ?_) fun _ => .pure (Quiet.refl.keepsOthers o)
  exact (retireOrder_walks ho (.inl rfl) (.trivial (by simp) rfl)).bind fun _ _ _ hkeep => .pure hkeep

/-! ### Entering -/

theorem requiredMinor_nonneg {request required : ℤ} (hreq : 0 ≤ request)
    (h : requiredMinor env request price = some required) : 0 ≤ required :=
  accountMinorFromSol_nonneg (add_nonneg hreq env.settings.oneWayFee_nonneg) h

theorem reserved_le {orders : List PaperOrder}
    (hamounts : ∀ o ∈ orders, 0 ≤ o.requestedSolLamports ∧ 0 ≤ o.reservedAccountMinor) {reservations : List ℤ}
    (h : (orders.mapM fun o => pendingReservation env o price) = some reservations) :
    (orders.map (·.reservedAccountMinor)).sum ≤ reservations.sum := by
  induction orders generalizing reservations with
  | nil =>
    cases h
    rfl
  | cons o orders ih =>
    rw [mapM_cons] at h
    rw [forall_mem_cons] at hamounts
    obtain ⟨first, hfirst, rest, hrest, rfl⟩ : ∃ first, pendingReservation env o price = some first ∧
        ∃ rest, (orders.mapM fun o => pendingReservation env o price) = some rest ∧
          first :: rest = reservations := by simpa [Option.bind_eq_some_iff] using h
    have hle : o.reservedAccountMinor ≤ first := by
      unfold pendingReservation at hfirst
      split_ifs at hfirst with hpos
      · exact (Option.some.inj hfirst).le
      · exact (not_lt.mp hpos).trans (requiredMinor_nonneg hamounts.1.1 hfirst)
    rw [map_cons, sum_cons, sum_cons]
    exact add_le_add hle (ih hamounts.2 hrest)

theorem reservedTotal_quietly (orders : List PaperOrder) :
    Quietly (reservedTotal env orders price) (fun total _ =>
      ∃ reservations, (orders.mapM fun o => pendingReservation env o price) = some reservations ∧
        total = reservations.sum) w := by
  unfold reservedTotal
  split
  · next reservations h => exact .pure ⟨reservations, h, rfl⟩
  · exact .throw (by simp)

/-- What is found when an entry is allowed: what it reserves, of cash that is not reserved. -/
def Affords (env : Env) (price : Option ℚ) (b : Books) (result : Except Blocker (ℤ × ℤ)) : Prop :=
  ∀ request required, result = .ok (request, required) →
    requiredMinor env request price = some required ∧ (required ≤ 0 ∨ b.reserved + required ≤ b.cash)

theorem Affords.error {b : Books} (blocker : Blocker) : Affords env price b (.error blocker) :=
  fun _ _ h => by cases h

theorem entryLimits_quietly (hs : Sound env w.books) (decision : Decision) :
    Quietly (entryLimits env decision price) (fun result _ => Affords env price w.books result) w := by
  unfold entryLimits
  refine (snapshot_quietly _ _).bind fun portfolio w1 h1 hcash => .get_bind ?_
  refine .ite (fun _ => .pure (.error _)) fun _ => .ite (fun _ => .pure (.error _)) fun _ => ?_
  dsimp only
  split
  · exact .pure (.error _)
  · next required hrequired =>
    refine (reservedTotal_quietly _).bind fun total w2 h2 ⟨reservations, hmap, htotal⟩ => ?_
    refine .ite (fun _ => .pure (.error _)) fun _ => .ite (fun _ => .pure (.error _)) fun henough => .pure ?_
    intro request required' heq
    cases heq
    have hpending : w1.memory.pendingBuys = w.memory.pendingBuys := by
      rw [Memory.pendingBuys, h1.pending, Memory.pendingBuys]
    have hle := reserved_le (fun o ho => hs.amounts_nonneg o (mem_filter.mp (hpending ▸ ho)).1) hmap
    have hreserved : w.books.reserved = (w1.memory.pendingBuys.map (·.reservedAccountMinor)).sum := by
      rw [hpending]
      rfl
    have hcash' : portfolio.cashLamports = w.books.cash := hcash
    exact ⟨hrequired, by omega⟩

theorem entryAssessment_quietly (hs : Sound env w.books) (decision : Decision) :
    Quietly (entryAssessment env decision price) (fun result _ => Affords env price w.books result ∧
      ∀ allowed, result = .ok allowed → decision.mint ∉ w.books.traded ∧
        ∀ o ∈ w.books.pending, o.mint ≠ decision.mint) w := by
  have herror : ∀ blocker, Affords env price w.books (.error blocker) ∧
      ∀ allowed, (.error blocker : Except Blocker (ℤ × ℤ)) = .ok allowed → decision.mint ∉ w.books.traded ∧
        ∀ o ∈ w.books.pending, o.mint ≠ decision.mint :=
    fun blocker => ⟨.error blocker, fun _ h => by cases h⟩
  unfold entryAssessment
  refine .get_bind (.ite (fun _ => .pure (herror _)) fun _ => .ite (fun _ => .pure (herror _)) fun _ => ?_)
  split
  · exact .pure (herror _)
  refine .ite (fun _ => .pure (herror _)) fun htraded => .ite (fun _ => .pure (herror _)) fun _ =>
    .ite (fun _ => .pure (herror _)) fun hpending => ?_
  refine (entryLimits_quietly hs decision).mono fun result _ _ haffords => ⟨haffords, fun _ _ => ⟨htraded, ?_⟩⟩
  intro o ho hm
  refine hpending ?_
  simp only [Memory.hasPendingFor, any_eq_true]
  exact ⟨o, ho, by simp [hm]⟩

theorem validatedOrder_quietly (order : PaperOrder) :
    Quietly (validatedOrder order) (fun order' _ =>
      order' = order ∧ 0 ≤ order.requestedSolLamports ∧ 0 ≤ order.reservedAccountMinor) w := by
  unfold validatedOrder
  refine .ite (fun _ => .throw (by simp)) fun h => ?_
  push Not at h
  exact .pure ⟨rfl, h.1, h.2.2⟩

theorem le_add_milliseconds (t : Instant) (n : ℕ) : t ≤ t + milliseconds n :=
  le_add_of_nonneg_right (mul_nonneg (by decide) (Int.natCast_nonneg n))

/-- **A decision is refused, or its order is placed.** -/
theorem submitDecisionWithReason_walks (hs : Sound env w.books) (decision : Decision) (plan : Option String) :
    Walks env price (submitDecisionWithReason env decision price plan) (fun _ _ => True) w := by
  unfold submitDecisionWithReason
  refine (entryAssessment_quietly hs decision).walks.bind fun assessment w1 _ ⟨h1, haffords, hmint⟩ => ?_
  cases assessment with
  | error blocker => exact .pure trivial
  | ok allowed =>
    obtain ⟨request, required⟩ := allowed
    obtain ⟨hrequired, henough⟩ := haffords request required rfl
    obtain ⟨htraded, hpending⟩ := hmint _ rfl
    refine (tick_quietly w1).walks.bind fun orderId w2 _ ⟨h2, hid, hticks⟩ => ?_
    refine (validatedOrder_quietly _).walks.bind fun order w3 _ ⟨h3, horder, hamounts⟩ => ?_
    refine (transact_quietly fun db hdb => ?_).walks.bind fun _ w4 _ ⟨h4, _⟩ => ?_
    · unfold Database.saveDecision at hdb
      split at hdb <;> cases hdb <;> rfl
    subst horder
    have hq : Quiet w w4 := h1.trans (h2.trans (h3.trans h4))
    have hfresh : Fresh w4.books (buyOrder env orderId decision request required plan) :=
      (h1.sound hs).fresh (h2.trans (h3.trans h4)) (by have := h3.le; have := h4.le; omega) hid
    refine (placeOrder_walks { hfresh with
      status := rfl
      latency := le_add_milliseconds _ _
      amounts_nonneg := hamounts
      reason := .inl rfl
      buy := fun _ => ?_
      sell := fun h => by cases h }).bind fun _ _ _ _ => .pure trivial
    rw [hq.books_eq]
    exact ⟨htraded, hpending, hrequired, henough⟩

/-! ### Marks -/

theorem markedPosition_holding (state : TokenState) (features : FeatureSnapshot) (markedAt : Instant)
    (position : Position) :
    (markedPosition env state features price markedAt position).toHolding = position.toHolding := by
  unfold markedPosition
  dsimp only
  split_ifs
  · rfl
  · split <;> rfl

/-- A position is marked, as far as the memory goes. -/
def MarkedIn (w : World) (mark : Books → Position → Books) (w' : World) : Prop :=
  ∃ p ∈ w.books.positions, ∃ p' : Position, p'.toHolding = p.toHolding ∧ w.ticks ≤ w'.ticks ∧
    w'.books = { mark w.books p' with ticks := w'.ticks }

theorem updatePosition_wp (hs : Sound env w.books) {site : WriteSite} {p p' : Position}
    (hp : p ∈ w.memory.positions) (hh : p'.toHolding = p.toHolding) :
    Wp (updatePosition env site p') (fun _ w' => MarkedIn w Books.mark w')
      (fun e w' => e = .writeFailed site ∧ env.mayFail site ∧ MarkedIn w Books.markUnsaved w') w := by
  obtain ⟨s, hstored, hsp⟩ := mem_map.mp (hs.held.subset (mem_map_of_mem hp))
  have hsave : w.database.savePosition p' =
      .ok { w.database with positions := w.database.positions.upsert p' } :=
    savePosition_stored ⟨s, hstored, by rw [hsp, hh]⟩
  unfold updatePosition putPosition
  rw [wp_bind, wp_modify]
  refine transact_wp (fun hfail => ⟨rfl, hfail, p, hp, p', hh, Nat.le_succ _, rfl⟩)
    (fun e he => absurd (hsave.symm.trans he) (by simp)) fun db hdb => ?_
  obtain rfl := Except.ok.inj (hsave.symm.trans hdb)
  exact ⟨p, hp, p', hh, Nat.le_succ _, rfl⟩

theorem MarkedIn.settled (h : MarkedIn w Books.mark w') : Settled (Change env price) w.books w'.books := by
  obtain ⟨p, hp, p', hh, hle, hbooks⟩ := h
  rw [hbooks]
  exact (Settled.single (.mark hp hh)).trans (.single (.tick hle))

theorem MarkedIn.broken (h : MarkedIn w Books.markUnsaved w') (hfail : env.mayFail .savePosition) :
    Ended (Change env price) env.mayFail w.books w'.books := by
  obtain ⟨p, hp, p', hh, hle, hbooks⟩ := h
  have hbroken : Change env price (some .savePosition) { w.books with ticks := w'.ticks }
      ({ w.books with ticks := w'.ticks }.markUnsaved p') := .markUnsaved hp hh
  rw [hbooks]
  exact (Settled.single (.tick hle)).broken hfail hbroken

theorem MarkedIn.positions (h : MarkedIn w Books.mark w') : w'.memory.pending = w.memory.pending ∧
    ∀ p ∈ w.memory.positions, ∃ p' ∈ w'.memory.positions, p'.toHolding = p.toHolding := by
  obtain ⟨p, hp, p', hh, -, hbooks⟩ := h
  refine ⟨congrArg Books.pending hbooks, fun q hq => ?_⟩
  have hpos : w'.memory.positions = w.memory.positions.upsert p' := congrArg Books.positions hbooks
  have hperm := Perm.of_eq (mark_holdings hp hh)
  exact hpos ▸ exists_holding hperm hq

/-- **A mark** changes how one position is valued; where its save fails, only in memory. -/
theorem markPosition_wp (hs : Sound env w.books) (site : WriteSite) (state : TokenState)
    (features : FeatureSnapshot) (price : Option ℚ) (markedAt : Instant) :
    Wp (markPosition env site state features price markedAt)
      (fun _ w' => w' = w ∨ MarkedIn w Books.mark w')
      (fun e w' => e = .writeFailed site ∧ env.mayFail site ∧ MarkedIn w Books.markUnsaved w') w := by
  unfold markPosition
  rw [wp_bind, wp_get]
  split
  · exact wp_pure.mpr (.inl rfl)
  · next position hget =>
    have hp := (Table.get?_eq_some.mp hget).1
    refine wp_ite.mpr ⟨fun _ => wp_pure.mpr (.inl rfl), fun _ => ?_⟩
    exact (updatePosition_wp hs hp (markedPosition_holding state features markedAt position)).mono
      (fun _ _ h => .inr h) fun _ _ h => h

theorem markPosition_walks (hs : Sound env w.books) (state : TokenState) (features : FeatureSnapshot)
    (price' : Option ℚ) (markedAt : Instant) :
    Walks env price (markPosition env .savePosition state features price' markedAt) (fun _ _ => True) w := by
  refine (markPosition_wp hs .savePosition state features price' markedAt).mono (fun _ w' h => ⟨?_, trivial⟩) ?_
  · rcases h with rfl | h
    · exact .refl
    · exact h.settled
  · rintro e w' ⟨rfl, hfail, h⟩
    exact ⟨h.broken hfail, by simp⟩

/-! ### Exits -/

theorem scheduleExit_walks (hs : Sound env w.books) {position : Position} (now : Instant) (reason : String)
    (hheld : ∃ p ∈ w.books.positions, p.mint = position.mint ∧ p.tokenUnits = position.tokenUnits)
    (hnone : ∀ o ∈ w.books.pending, o.mint = position.mint → o.side ≠ .sell) :
    Walks env price (scheduleExit env position now reason) (fun _ _ => True) w := by
  unfold scheduleExit
  refine (tick_quietly w).walks.bind fun orderId w1 _ ⟨h1, hid, hticks⟩ => ?_
  refine (validatedOrder_quietly _).walks.bind fun order w2 _ ⟨h2, horder, hamounts⟩ => ?_
  subst horder
  have hq : Quiet w w2 := h1.trans h2
  have hfresh : Fresh w2.books (sellOrder env orderId position now reason) :=
    hs.fresh hq (by have := h2.le; omega) hid
  refine placeOrder_walks { hfresh with
    status := rfl
    latency := le_add_milliseconds _ _
    amounts_nonneg := hamounts
    reason := .inr ⟨reason, rfl⟩
    buy := fun h => by cases h
    sell := fun _ => ?_ }
  rw [hq.books_eq]
  exact ⟨hheld, hnone⟩

theorem persistentIntegrityExitReason_holding (position : Position) (features : FeatureSnapshot) (now : Instant) :
    (persistentIntegrityExitReason env position features now).1.toHolding = position.toHolding := by
  unfold persistentIntegrityExitReason
  split
  · rfl
  · dsimp only [Position.warned]
    split
    · rfl
    · split_ifs <;> rfl
    · split_ifs <;> rfl
    · rfl

theorem not_hasPendingFor {mint : String} (h : ¬ w.memory.hasPendingFor mint (some .sell) = true) :
    ∀ o ∈ w.books.pending, o.mint = mint → o.side ≠ .sell := by
  intro o ho hm hside
  refine h ?_
  simp only [Memory.hasPendingFor, any_eq_true]
  exact ⟨o, ho, by simp [hm, hside]⟩

theorem scheduleExitIfNeeded_walks (hs : Sound env w.books) (state : TokenState) (features : FeatureSnapshot)
    (now : Instant) (mode : RiskMode) (softHoldSeconds : Option ℤ)
    (softHoldParticipant : Option (List (String × String))) :
    Walks env price (scheduleExitIfNeeded env state features now mode softHoldSeconds softHoldParticipant)
      (fun _ _ => True) w := by
  unfold scheduleExitIfNeeded
  refine .get_bind ?_
  split
  · exact .pure trivial
  · next position hget =>
    obtain ⟨hp, hmint⟩ := Table.get?_eq_some.mp hget
    refine .ite (fun _ => .pure trivial) fun hpending => .ite (fun _ => .pure trivial) fun _ => ?_
    dsimp only
    generalize hassessed : assessedPosition env features now mode softHoldSeconds softHoldParticipant position =
      assessed
    have hh : assessed.1.toHolding = position.toHolding := by
      rw [← hassessed]
      exact persistentIntegrityExitReason_holding position features now
    have hmark : Walks env price (updatePosition env .savePosition assessed.1)
        (fun _ w' => MarkedIn w Books.mark w') w := by
      refine (updatePosition_wp hs hp hh).mono (fun _ w' h => ⟨h.settled, h⟩) ?_
      rintro e w' ⟨rfl, hfail, h⟩
      exact ⟨h.broken hfail, by simp⟩
    refine hmark.bind fun _ w1 hw hmarked => .ite (fun _ => ?_) fun _ => .pure trivial
    obtain ⟨hkeep, hholdings⟩ := hmarked.positions
    obtain ⟨p', hp', he⟩ := hholdings position hp
    refine scheduleExit_walks (hs.settled hw) now _ ⟨p', hp', by rw [he, hh], by rw [he, hh]⟩ fun o ho hm => ?_
    have ho' : o ∈ w.books.pending := by
      rw [← show w1.books.pending = w.books.pending from hkeep]
      exact ho
    exact not_hasPendingFor hpending o ho' (hm.trans (by rw [hh, hmint]))

theorem scheduleProfileTransitionExits_walks (hs : Sound env w.books) (now : Instant) :
    Walks env price (scheduleProfileTransitionExits env now) (fun _ _ => True) w := by
  unfold scheduleProfileTransitionExits
  refine (snapshot_quietly none false).walks.bind fun portfolio w1 _ ⟨h1, _⟩ => ?_
  refine (Walks.collect (I := fun _ _ => True) (fun observed l w2 hw _ => ?_) portfolio.positions trivial).bind
    fun _ _ _ _ => .pure trivial
  refine .get_bind (.ite (fun _ => .pure trivial) fun hactive => ?_)
  split
  · exact .pure trivial
  · next position hget =>
    obtain ⟨hp, hmint⟩ := Table.get?_eq_some.mp hget
    rw [not_or] at hactive
    refine (scheduleExit_walks ((h1.sound hs).settled hw) now _ ⟨position, hp, rfl, rfl⟩
      fun o ho hm => ?_).bind fun _ _ _ _ => .pure trivial
    exact not_hasPendingFor hactive.2 o ho (hm.trans hmint)

end SignalArcade.Paper
