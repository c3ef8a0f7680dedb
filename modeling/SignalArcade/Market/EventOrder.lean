import SignalArcade.Market.IntegrityWindow

/-!
# The order of a token's events

The orchestrator keeps for each token a cursor, the slot and the enqueue sequence of what it
accepted last. An event of a lower slot is refused, and so is one of the same slot, or
without a slot, that was enqueued earlier or is dated before the state of the token.
-/

namespace SignalArcade.Market

open Runs List

/-! ### Events and tokens -/

/-- The kinds of market events. -/
inductive EventKind where
  | create | trade | complete | migrate | market | health
  deriving DecidableEq

/-- `MarketEvent`, as far as its processing is modelled. -/
structure MarketEvent where
  eventId : String
  kind : EventKind
  mint : Option String
  slot : Option ℕ
  receivedAt : ℤ
  deriving DecidableEq

/-- `event.slot or 0`. -/
def MarketEvent.slotOrZero (event : MarketEvent) : ℕ := event.slot.getD 0

/-- The clocks of a token's features. -/
structure TokenState where
  lastEventAt : Option ℤ := none
  lastSlot : ℕ := 0
  lastReserveAt : Option ℤ := none
  lastReserveSlot : ℕ := 0

/-- The times it has seen. -/
def TokenState.boundaryAt (state : TokenState) : Option ℤ :=
  match state.lastEventAt, state.lastReserveAt with
  | some a, some b => some (max a b)
  | some a, none => some a
  | none, b => b

/-- `max(state.last_slot, state.last_reserve_slot)`. -/
def TokenState.slot (state : TokenState) : ℕ := max state.lastSlot state.lastReserveSlot

/-- `TokenState.apply`. `reserves` says that the event carries reserves that are taken over. -/
def TokenState.apply (state : TokenState) (event : MarketEvent) (reserves : Bool) : TokenState :=
  let effectiveAt := match state.boundaryAt with
    | some boundary => max event.receivedAt boundary
    | none => event.receivedAt
  let state := if event.kind = .market then state else { state with lastEventAt := some effectiveAt }
  let state := { state with lastSlot := max state.lastSlot event.slotOrZero }
  if reserves then
    { state with
      lastReserveAt := some effectiveAt
      lastReserveSlot := max state.lastReserveSlot event.slotOrZero }
  else state

/-! ### The cursor -/

/-- A slot and an enqueue sequence. -/
abbrev Cursor : Type := ℕ × ℕ

/-- The part of the orchestrator that orders events. -/
structure EventOrder where
  /-- `_event_order_by_mint`. -/
  cursors : String → Option Cursor := fun _ => none
  tokens : String → Option TokenState := fun _ => none
  reorderedEvents : ℕ := 0
  integrity : IntegrityWindow

namespace EventOrder

def stateSlot (s : EventOrder) (mint : String) : ℕ := (s.tokens mint).elim 0 TokenState.slot

/-- `(last_slot, last_sequence)`: the cursor of a token, or the slot of its features if that is higher. -/
def last (s : EventOrder) (mint : String) : Cursor :=
  let cursor := (s.cursors mint).getD (0, 0)
  if cursor.1 < s.stateSlot mint then (s.stateSlot mint, 0) else cursor

def reordered (s : EventOrder) (mint : String) (event : MarketEvent) (sequence : ℕ) : Bool :=
  let (lastSlot, lastSequence) := s.last mint
  let eventSlot := event.slotOrZero
  let sameSlotOrSlotless := eventSlot = 0 || lastSlot = 0 || eventSlot = lastSlot
  (0 < eventSlot && 0 < lastSlot && eventSlot < lastSlot) ||
    (sameSlotOrSlotless &&
      (sequence ≤ lastSequence || ((s.tokens mint).bind TokenState.boundaryAt).any (event.receivedAt < ·)))

def setCursor (s : EventOrder) (mint : String) (cursor : Cursor) : EventOrder :=
  { s with cursors := Function.update s.cursors mint (some cursor) }

def acceptEventOrder (s : EventOrder) (event : MarketEvent) (sequence : ℕ) (now : ℤ) : Bool × EventOrder :=
  match event.mint.filter (· ≠ "") with
  | none => (true, s)
  | some mint =>
    if s.reordered mint event sequence then
      (false, { s with
        reorderedEvents := s.reorderedEvents + 1
        integrity := s.integrity.noteMintGap (some mint) now })
    else if (s.last mint).1 < event.slotOrZero then (true, s.setCursor mint (event.slotOrZero, sequence))
    else (true, s.setCursor mint ((s.last mint).1, sequence))

def advanceEventOrderBoundary (s : EventOrder) (mint : String) (slot sequence : ℕ) : EventOrder :=
  let cursor := (s.cursors mint).getD (0, 0)
  if cursor.1 < slot then s.setCursor mint (slot, sequence)
  else if slot = cursor.1 then s.setCursor mint (slot, max sequence cursor.2)
  else s

/-- The features of a token take an event over. -/
def applyFeatures (s : EventOrder) (event : MarketEvent) (reserves : Bool) : EventOrder :=
  match event.mint.filter (· ≠ "") with
  | none => s
  | some mint =>
    { s with tokens := Function.update s.tokens mint (some (((s.tokens mint).getD {}).apply event reserves)) }

end EventOrder

/-! ### Runs -/

/-- What happens to the order of events. -/
inductive OrderAction where
  | accept (event : MarketEvent) (sequence : ℕ) (now : ℤ)
  | advance (mint : String) (slot sequence : ℕ)
  | applyFeatures (event : MarketEvent) (reserves : Bool)

/-- The order of events, with the events accepted so far. -/
structure OrderLog where
  order : EventOrder
  accepted : List (MarketEvent × ℕ) := []

def OrderLog.step (s : OrderLog) : OrderAction → OrderLog
  | .accept event sequence now =>
    let (accepts, order) := s.order.acceptEventOrder event sequence now
    ⟨order, if accepts then s.accepted ++ [(event, sequence)] else s.accepted⟩
  | .advance mint slot sequence => { s with order := s.order.advanceEventOrderBoundary mint slot sequence }
  | .applyFeatures event reserves => { s with order := s.order.applyFeatures event reserves }

/-- What was accepted of a mint. -/
def OrderLog.acceptedOf (s : OrderLog) (mint : String) : List (MarketEvent × ℕ) :=
  s.accepted.filter fun e => e.1.mint = some mint

/-- Features are made from accepted events only. -/
def OrderLog.FromAccepted (s : OrderLog) : OrderAction → Prop
  | .applyFeatures event _ => event ∈ s.accepted.map Prod.fst
  | _ => True

instance (s : OrderLog) : (a : OrderAction) → Decidable (s.FromAccepted a)
  | .applyFeatures event _ => inferInstanceAs (Decidable (event ∈ s.accepted.map Prod.fst))
  | .accept _ _ _ | .advance _ _ _ => inferInstanceAs (Decidable True)

/-- The events without a slot that were accepted are no later than a sequence. -/
def OrderLog.SlotlessBy (s : OrderLog) (mint : String) (sequence : ℕ) : Prop :=
  ∀ e ∈ s.acceptedOf mint, e.1.slotOrZero = 0 → e.2 ≤ sequence

/-- The cursor does not move to a higher slot with a sequence below that of an accepted event without a
slot. -/
def OrderLog.KeepsSequence (s : OrderLog) : OrderAction → Prop
  | .accept event sequence _ =>
    ∀ mint ∈ event.mint, 0 < (s.order.last mint).1 → (s.order.last mint).1 < event.slotOrZero →
      s.SlotlessBy mint sequence
  | .advance mint slot sequence =>
    ((s.order.cursors mint).getD (0, 0)).1 < slot → s.SlotlessBy mint sequence
  | .applyFeatures _ _ => True

instance (s : OrderLog) (mint : String) (sequence : ℕ) : Decidable (s.SlotlessBy mint sequence) :=
  inferInstanceAs (Decidable (∀ e ∈ s.acceptedOf mint, e.1.slotOrZero = 0 → e.2 ≤ sequence))

instance (s : OrderLog) : (a : OrderAction) → Decidable (s.KeepsSequence a)
  | .accept event sequence _ =>
    inferInstanceAs (Decidable (∀ mint ∈ event.mint, 0 < (s.order.last mint).1 →
      (s.order.last mint).1 < event.slotOrZero → s.SlotlessBy mint sequence))
  | .advance mint slot sequence =>
    inferInstanceAs (Decidable (((s.order.cursors mint).getD (0, 0)).1 < slot → s.SlotlessBy mint sequence))
  | .applyFeatures _ _ => inferInstanceAs (Decidable True)

/-- One accepted event comes before another one: slots do not decrease, and in one slot, or without a slot,
it was enqueued earlier. -/
def Causal (e e' : MarketEvent × ℕ) : Prop :=
  (0 < e.1.slotOrZero → 0 < e'.1.slotOrZero → e.1.slotOrZero ≤ e'.1.slotOrZero) ∧
    (e.1.slotOrZero = e'.1.slotOrZero → e.2 < e'.2)

instance (e e' : MarketEvent × ℕ) : Decidable (Causal e e') := inferInstanceAs (Decidable (_ ∧ _))

/-! ### One call -/

variable {mint : String}

theorem TokenState.slot_apply_le (state : TokenState) (event : MarketEvent) (reserves : Bool) :
    (state.apply event reserves).slot ≤ max state.slot event.slotOrZero := by
  unfold TokenState.apply TokenState.slot
  dsimp only
  split_ifs <;> dsimp only <;> omega

theorem applyFeatures_stateSlot (s : EventOrder) (event : MarketEvent) (reserves : Bool) (mint : String) :
    (s.applyFeatures event reserves).stateSlot mint = s.stateSlot mint ∨
      event.mint = some mint ∧
        (s.applyFeatures event reserves).stateSlot mint ≤ max (s.stateSlot mint) event.slotOrZero := by
  unfold EventOrder.applyFeatures
  cases hfilter : event.mint.filter (· ≠ "") with
  | none => exact .inl rfl
  | some mint' =>
    have hmint := (Option.filter_eq_some_iff.mp hfilter).1
    dsimp only [EventOrder.stateSlot]
    by_cases he : mint' = mint
    · subst he
      refine .inr ⟨hmint, ?_⟩
      rw [Function.update_self, Option.elim_some]
      refine (TokenState.slot_apply_le _ event reserves).trans ?_
      cases s.tokens mint' with
      | none => exact le_rfl
      | some state => exact le_rfl
    · exact .inl (by rw [Function.update_of_ne (Ne.symm he)])

variable {event : MarketEvent} {s : OrderLog}

/-- What `_accept_event_order` does with an event of a token. -/
theorem acceptEventOrder_cases (s : EventOrder) (hmint : event.mint = some mint)
    (hne : mint ≠ "") (sequence : ℕ) (now : ℤ) :
    ((s.acceptEventOrder event sequence now).1 = false ∧
      (s.acceptEventOrder event sequence now).2.cursors = s.cursors ∧
      (s.acceptEventOrder event sequence now).2.tokens = s.tokens) ∨
    (s.acceptEventOrder event sequence now =
        (true, s.setCursor mint (max (s.last mint).1 event.slotOrZero, sequence)) ∧
      (0 < event.slotOrZero → (s.last mint).1 ≤ event.slotOrZero) ∧
      (event.slotOrZero = 0 ∨ (s.last mint).1 = 0 ∨ event.slotOrZero = (s.last mint).1 →
        (s.last mint).2 < sequence)) := by
  have hfilter : event.mint.filter (· ≠ "") = some mint := by simp [hmint, hne]
  unfold EventOrder.acceptEventOrder
  rw [hfilter]
  dsimp only
  split_ifs with hreordered hhigher
  · exact .inl ⟨rfl, rfl, rfl⟩
  all_goals
    simp only [EventOrder.reordered, Bool.or_eq_true, Bool.and_eq_true, decide_eq_true_eq, not_or, not_and] at hreordered
    obtain ⟨hslot, hsequence⟩ := hreordered
    refine .inr ⟨?_, fun hpos => ?_, fun hsame => ?_⟩
  · rw [max_eq_right hhigher.le]
  · exact hhigher.le
  · exact not_le.mp (hsequence (by tauto)).1
  · rw [max_eq_left (not_lt.mp hhigher)]
  · by_contra hlt
    exact hslot ⟨hpos, by omega⟩ (not_le.mp hlt)
  · exact not_le.mp (hsequence (by tauto)).1

theorem acceptEventOrder_other (s : EventOrder) (hmint : event.mint ≠ some mint) (sequence : ℕ) (now : ℤ) :
    (s.acceptEventOrder event sequence now).2.cursors mint = s.cursors mint ∧
      (s.acceptEventOrder event sequence now).2.tokens = s.tokens := by
  unfold EventOrder.acceptEventOrder
  cases hfilter : event.mint.filter (· ≠ "") with
  | none => exact ⟨rfl, rfl⟩
  | some mint' =>
    have hne : mint ≠ mint' := by
      rintro rfl
      exact hmint (Option.filter_eq_some_iff.mp hfilter).1
    dsimp only
    split_ifs
    · exact ⟨rfl, rfl⟩
    · exact ⟨Function.update_of_ne hne _ _, rfl⟩
    · exact ⟨Function.update_of_ne hne _ _, rfl⟩

/-! ### Accepted events -/

/-- The accepted events of a token are in order, and not beyond its cursor. -/
structure OrderLog.Ordered (s : OrderLog) (mint : String) : Prop where
  causal : (s.acceptedOf mint).Pairwise Causal
  cursor : ∀ e ∈ s.acceptedOf mint, ∃ cursor, s.order.cursors mint = some cursor ∧
    s.order.stateSlot mint ≤ cursor.1 ∧ e.1.slotOrZero ≤ cursor.1 ∧
    (e.1.slotOrZero = 0 ∨ e.1.slotOrZero = cursor.1 → e.2 ≤ cursor.2)

theorem last_of_stateSlot_le {s : EventOrder} {cursor : Cursor} (hcursor : s.cursors mint = some cursor)
    (hle : s.stateSlot mint ≤ cursor.1) : s.last mint = cursor := by
  unfold EventOrder.last
  rw [hcursor, Option.getD_some, if_neg (not_lt.mpr hle)]

theorem stateSlot_le_last (s : EventOrder) (mint : String) : s.stateSlot mint ≤ (s.last mint).1 := by
  unfold EventOrder.last
  dsimp only
  split_ifs with h
  · exact le_rfl
  · exact not_lt.mp h

namespace OrderLog.Ordered

theorem last (h : s.Ordered mint) {e : MarketEvent × ℕ}
    (he : e ∈ s.acceptedOf mint) : e.1.slotOrZero ≤ (s.order.last mint).1 ∧
      (e.1.slotOrZero = 0 ∨ e.1.slotOrZero = (s.order.last mint).1 → e.2 ≤ (s.order.last mint).2) := by
  obtain ⟨cursor, hcursor, hstate, hslot, hsequence⟩ := h.cursor e he
  rw [last_of_stateSlot_le hcursor hstate]
  exact ⟨hslot, hsequence⟩

theorem congr {s s' : OrderLog} (h : s.Ordered mint) (haccepted : s'.acceptedOf mint = s.acceptedOf mint)
    (hcursors : s'.order.cursors mint = s.order.cursors mint) (htokens : s'.order.tokens mint = s.order.tokens mint) :
    s'.Ordered mint := by
  have hstate : s'.order.stateSlot mint = s.order.stateSlot mint := by
    rw [EventOrder.stateSlot, EventOrder.stateSlot, htokens]
  refine ⟨haccepted ▸ h.causal, fun e he => ?_⟩
  rw [hcursors, hstate]
  exact h.cursor e (haccepted ▸ he)

theorem accept (h : s.Ordered mint) (hmint : event.mint = some mint)
    {sequence : ℕ} (hslot : 0 < event.slotOrZero → (s.order.last mint).1 ≤ event.slotOrZero)
    (hsame : event.slotOrZero = 0 ∨ (s.order.last mint).1 = 0 ∨ event.slotOrZero = (s.order.last mint).1 →
      (s.order.last mint).2 < sequence)
    (hkeeps : 0 < (s.order.last mint).1 → (s.order.last mint).1 < event.slotOrZero → s.SlotlessBy mint sequence) :
    OrderLog.Ordered
      ⟨s.order.setCursor mint (max (s.order.last mint).1 event.slotOrZero, sequence), s.accepted ++ [(event, sequence)]⟩
      mint := by
  have haccepted : OrderLog.acceptedOf
      ⟨s.order.setCursor mint (max (s.order.last mint).1 event.slotOrZero, sequence), s.accepted ++ [(event, sequence)]⟩
      mint = s.acceptedOf mint ++ [(event, sequence)] := by
    simp [OrderLog.acceptedOf, hmint]
  have hcursor : (s.order.setCursor mint (max (s.order.last mint).1 event.slotOrZero, sequence)).cursors mint =
      some (max (s.order.last mint).1 event.slotOrZero, sequence) := Function.update_self ..
  constructor
  · rw [haccepted]
    refine pairwise_append.mpr ⟨h.causal, pairwise_singleton _ _, fun e he e' he' => ?_⟩
    rw [mem_singleton.mp he']
    obtain ⟨hle, hsequence⟩ := h.last he
    exact ⟨fun _ hpos => hle.trans (hslot hpos), fun heq => by dsimp only at heq ⊢; omega⟩
  · rw [haccepted]
    intro e he
    refine ⟨_, hcursor, (stateSlot_le_last s.order mint).trans (le_max_left _ _), ?_⟩
    rcases mem_append.mp he with he | he
    · obtain ⟨hle, hsequence⟩ := h.last he
      have hslotless : 0 < (s.order.last mint).1 → (s.order.last mint).1 < event.slotOrZero →
          e.1.slotOrZero = 0 → e.2 ≤ sequence := fun hpos hlt => hkeeps hpos hlt e he
      refine ⟨hle.trans (le_max_left _ _), fun heq => ?_⟩
      dsimp only at heq ⊢
      omega
    · rw [mem_singleton.mp he]
      exact ⟨le_max_right _ _, fun _ => le_rfl⟩

theorem advance (h : s.Ordered mint) {mint' : String} {slot sequence : ℕ}
    (hkeeps : s.KeepsSequence (.advance mint' slot sequence)) :
    (s.step (.advance mint' slot sequence)).Ordered mint := by
  refine ⟨h.causal, fun e he => ?_⟩
  obtain ⟨cursor, hcursor, hstate, hslot, hsequence⟩ := h.cursor e he
  simp only [OrderLog.step, EventOrder.advanceEventOrderBoundary]
  by_cases hmint : mint' = mint
  · subst hmint
    have hslotless := fun hlt => hkeeps hlt e he
    rw [hcursor, Option.getD_some] at hslotless ⊢
    split_ifs with hhigher hequal
    · refine ⟨_, Function.update_self .., hstate.trans hhigher.le, hslot.trans hhigher.le, fun heq => ?_⟩
      have := hslotless hhigher
      dsimp only at heq ⊢
      omega
    · refine ⟨_, Function.update_self .., hequal ▸ hstate, hequal ▸ hslot, fun heq => ?_⟩
      exact (hsequence (hequal ▸ heq)).trans (le_max_right _ _)
    · exact ⟨cursor, hcursor, hstate, hslot, hsequence⟩
  · have hother (c : Cursor) : (s.order.setCursor mint' c).cursors mint = s.order.cursors mint :=
      Function.update_of_ne (Ne.symm hmint) _ _
    split_ifs
    · exact ⟨cursor, (hother _).trans hcursor, hstate, hslot, hsequence⟩
    · exact ⟨cursor, (hother _).trans hcursor, hstate, hslot, hsequence⟩
    · exact ⟨cursor, hcursor, hstate, hslot, hsequence⟩

theorem applyFeatures (h : s.Ordered mint) {reserves : Bool}
    (hfrom : s.FromAccepted (.applyFeatures event reserves)) :
    (s.step (.applyFeatures event reserves)).Ordered mint := by
  refine ⟨h.causal, fun e he => ?_⟩
  obtain ⟨cursor, hcursor, hstate, hslot, hsequence⟩ := h.cursor e he
  have hcursors : (s.order.applyFeatures event reserves).cursors = s.order.cursors := by
    unfold EventOrder.applyFeatures
    split <;> rfl
  refine ⟨cursor, by rw [OrderLog.step, hcursors, hcursor], ?_, hslot, hsequence⟩
  rcases applyFeatures_stateSlot s.order event reserves mint with hsame | ⟨hmint, hle⟩
  · rw [OrderLog.step, hsame]
    exact hstate
  · -- the event was accepted, so its slot is not beyond the cursor either
    obtain ⟨⟨_, sequence⟩, haccepted, rfl⟩ := mem_map.mp hfrom
    have hmem : (_, sequence) ∈ s.acceptedOf mint := mem_filter.mpr ⟨haccepted, by simpa using hmint⟩
    obtain ⟨cursor', hcursor', -, hslot', -⟩ := h.cursor _ hmem
    obtain rfl : cursor' = cursor := Option.some_inj.mp (hcursor'.symm.trans hcursor)
    exact hle.trans (max_le hstate hslot')

/-- What is accepted stays in order. -/
theorem step (h : s.Ordered mint) (hne : mint ≠ "") {a : OrderAction}
    (hfrom : s.FromAccepted a) (hkeeps : s.KeepsSequence a) : (s.step a).Ordered mint := by
  cases a with
  | accept event sequence now =>
    by_cases hmint : event.mint = some mint
    · rcases acceptEventOrder_cases s.order hmint hne sequence now with
        ⟨hrefused, hcursors, htokens⟩ | ⟨haccepted, hslot, hsame⟩
      · refine h.congr ?_ (congrFun hcursors mint) (congrFun htokens mint)
        simp [OrderLog.step, OrderLog.acceptedOf, hrefused]
      · have := h.accept hmint hslot hsame (hkeeps mint hmint)
        simpa [OrderLog.step, haccepted] using this
    · obtain ⟨hcursors, htokens⟩ := acceptEventOrder_other s.order hmint sequence now
      refine h.congr ?_ hcursors (congrFun htokens mint)
      unfold OrderLog.step OrderLog.acceptedOf
      dsimp only
      split_ifs
      · simp [hmint]
      · rfl
  | advance mint' slot sequence => exact h.advance hkeeps
  | applyFeatures event reserves => exact h.applyFeatures hfrom

end OrderLog.Ordered

/-- **Accepted events are in causal order**, in every run with features from accepted events only whose calls
keep the sequence of the events without a slot. -/
theorem accepted_in_order (order : EventOrder) (actions : List OrderAction) (hne : mint ≠ "")
    (h : Along OrderLog.step (fun s a => s.FromAccepted a ∧ s.KeepsSequence a) ⟨order, []⟩ actions) :
    ((run OrderLog.step ⟨order, []⟩ actions).acceptedOf mint).Pairwise Causal :=
  (h.invariant (I := fun s : OrderLog => s.Ordered mint) ⟨Pairwise.nil, fun _ he => absurd he not_mem_nil⟩
    fun _ _ hs ha => hs.step hne ha.1 ha.2).causal

/-- A token's order of events when nothing is known yet. -/
def emptyOrder : EventOrder where
  integrity := { demoMode := false, maxGapMints := 10000, lastStreamReconnects := 0 }

/-- A trade of a token, with its enqueue sequence, is presented. -/
def present (slot : Option ℕ) (sequence : ℕ) : OrderAction :=
  .accept ⟨"event", .trade, some "A", slot, 0⟩ sequence 0

/-- Trades that come in order, but for one that is late. -/
def orderedTrades : List OrderAction := [present (some 4) 2, present none 3, present (some 4) 1, present (some 5) 4]

/-- Three trades are accepted. -/
theorem accepted_in_order_trades :
    ((run OrderLog.step ⟨emptyOrder, []⟩ orderedTrades).acceptedOf "A").map Prod.snd = [2, 3, 4] ∧
      ((run OrderLog.step ⟨emptyOrder, []⟩ orderedTrades).acceptedOf "A").Pairwise Causal :=
  ⟨by decide +kernel, accepted_in_order emptyOrder orderedTrades (by decide) (by decide +kernel)⟩

/-- **Events are accepted out of order** after an event of a higher slot that was enqueued early. -/
theorem accepted_out_of_order :
    Along OrderLog.step OrderLog.FromAccepted ⟨emptyOrder, []⟩
      [present (some 4) 1, present none 4, present (some 5) 2, present none 3] ∧
    ¬ ((run OrderLog.step ⟨emptyOrder, []⟩
      [present (some 4) 1, present none 4, present (some 5) 2, present none 3]).acceptedOf "A").Pairwise Causal := by
  decide +kernel

end SignalArcade.Market
