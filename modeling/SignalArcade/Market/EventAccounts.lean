import SignalArcade.Market.EventTally
import SignalArcade.Market.HandledOnce

/-!
# What becomes of an admitted event
-/

namespace SignalArcade.Market

open Queue (SeasonEventQueue)
open QueuedEvent List
open Runs

/-! ### The log -/

def Entry.admitted? : Entry → Option Receipt
  | .admitted r => some r
  | .settled .. | .committed _ | .stored _ | .noted _ => none

/-- The event of which something becomes. -/
def Entry.settled? : Entry → Option Receipt
  | .settled r _ => some r
  | .admitted _ | .committed _ | .stored _ | .noted _ => none

/-- The events that were admitted. -/
def admittedOf (log : List Entry) : List Receipt := log.filterMap Entry.admitted?

/-- The events of which something has become. -/
def settledOf (log : List Entry) : List Receipt := log.filterMap Entry.settled?

/-- One entry of the log is after the other. -/
def After (log : List Entry) (first later : Entry) : Prop := [later, first].Sublist log

variable {known : List String} {log entries : List Entry} {entry entry' : Entry} {r : Receipt} {outcome : Outcome}
  {eventId : String}

theorem After.mono (h : After log entry entry') : After (entries ++ log) entry entry' :=
  h.trans (sublist_append_right entries log)

theorem After.of_mem (h : entry ∈ log) (h' : entry' ∈ entries) : After (entries ++ log) entry entry' :=
  (singleton_sublist.mpr h').append (singleton_sublist.mpr h)

theorem After.now (h : entry ∈ log) : After (entry' :: log) entry entry' :=
  .of_mem h (mem_singleton_self entry')

theorem mem_admittedOf : r ∈ admittedOf log ↔ .admitted r ∈ log := by
  unfold admittedOf
  rw [mem_filterMap]
  constructor
  · rintro ⟨entry, hentry, hr⟩
    cases entry with
    | admitted r' =>
      cases hr
      exact hentry
    | _ => cases hr
  · intro h
    exact ⟨_, h, rfl⟩

theorem mem_settledOf : r ∈ settledOf log ↔ ∃ outcome, .settled r outcome ∈ log := by
  unfold settledOf
  rw [mem_filterMap]
  constructor
  · rintro ⟨entry, hentry, hr⟩
    cases entry with
    | settled r' outcome =>
      cases hr
      exact ⟨outcome, hentry⟩
    | _ => cases hr
  · rintro ⟨outcome, h⟩
    exact ⟨_, h, rfl⟩

theorem admittedOf_append (entries log : List Entry) : admittedOf (entries ++ log) = admittedOf entries ++ admittedOf log :=
  filterMap_append

theorem settledOf_append (entries log : List Entry) : settledOf (entries ++ log) = settledOf entries ++ settledOf log :=
  filterMap_append

theorem admittedOf_settled (receipts : List Receipt) (outcome : Outcome) :
    admittedOf (receipts.map (.settled · outcome)) = [] := by
  unfold admittedOf
  rw [filterMap_map]
  exact filterMap_eq_nil_iff.mpr fun _ _ => rfl

theorem settledOf_settled (receipts : List Receipt) (outcome : Outcome) :
    settledOf (receipts.map (.settled · outcome)) = receipts := by
  unfold settledOf
  rw [filterMap_map]
  exact filterMap_some

/-! ### What is in hand -/

/-- The items of the batch that nothing has become of yet. -/
def Phase.unsettled : Phase → List Receipt
  | .idle | .stopped => []
  | .inFlight batch stage => (stage.unsettled batch).map receipt

/-- What the loop over the batch works with. -/
def Stage.progress : Stage → Batch
  | .looping b | .prefetching _ b _ | .appending b _ | .handling b => b
  | .filling | .persisting _ | .closing _ => { remaining := [] }

/-- The identifier of the event at its turn. -/
def Stage.current : Stage → List String
  | .appending _ q => [q.event.eventId]
  | .filling | .persisting _ | .looping _ | .prefetching .. | .handling _ | .closing _ => []

/-- What the loop over the batch works with, if there is one. -/
def Phase.progress : Phase → Batch
  | .idle | .stopped => { remaining := [] }
  | .inFlight _ stage => stage.progress

/-- The identifier of the event at its turn, if there is one. -/
def Phase.current : Phase → List String
  | .idle | .stopped => []
  | .inFlight _ stage => stage.current

def Phase.cancelled : Phase → Bool
  | .stopped => true
  | .inFlight _ (.closing cancelled) => cancelled
  | .idle | .inFlight _ _ => false

/-- What is in hand: with a producer, in the queue, or in the batch. -/
def EventLoop.inHand (s : EventLoop) : List Receipt :=
  s.producers.map receiptOf ++ (s.queue.queue.map fun row => receiptOf row.toQueuedEvent) ++ s.phase.unsettled

/-! ### Excuses -/

/-- An event of that identifier was seen: it was there from the start, someone else has written it, or something
has become of it. -/
def Known (known : List String) (log : List Entry) (eventId : String) : Prop :=
  eventId ∈ known ∨ .stored eventId ∈ log ∨ ∃ r outcome, r.event.eventId = eventId ∧ .settled r outcome ∈ log

/-- The event is a repetition: its identifier was there from the start, someone else has written it, or another
admitted event had it before. -/
def Repeats (known : List String) (log : List Entry) (r : Receipt) : Prop :=
  r.event.eventId ∈ known ∨ After log (.stored r.event.eventId) (.settled r .repeated) ∨
    ∃ r' outcome, r' ≠ r ∧ r'.event.eventId = r.event.eventId ∧ After log (.settled r' outcome) (.settled r .repeated)

/-- After the event was admitted, a gap of its token was noted, or a source-wide one. -/
def Missed (log : List Entry) (r : Receipt) : Prop :=
  ∃ gap, (gap.mint = none ∨ gap.mint = r.event.mint) ∧ After log (.admitted r) (.noted gap)

/-- What the log says of an event of which something has become. -/
def Excused (known : List String) (log : List Entry) (r : Receipt) : Outcome → Prop
  | .handled world =>
    durableEvent r.event (world.eventPriority r.event) = true →
      After log (.committed r.event.eventId) (.settled r (.handled world))
  | .repeated => Repeats known log r
  | .retired world => world.terminalTradedEvent r.event = true
  | .expired | .shed | .failed => Missed log r
  | .cancelled | .givenUp => True

theorem Known.mono (h : Known known log eventId) : Known known (entries ++ log) eventId := by
  rcases h with h | h | ⟨r, outcome, hid, h⟩
  · exact .inl h
  · exact .inr (.inl (mem_append_right entries h))
  · exact .inr (.inr ⟨r, outcome, hid, mem_append_right entries h⟩)

theorem Missed.mono (h : Missed log r) (entries : List Entry) : Missed (entries ++ log) r := by
  obtain ⟨gap, hgap, h⟩ := h
  exact ⟨gap, hgap, h.mono⟩

theorem Excused.mono (h : Excused known log r outcome) (entries : List Entry) : Excused known (entries ++ log) r outcome := by
  cases outcome with
  | handled world =>
    intro hdurable
    exact (h hdurable).mono
  | repeated =>
    rcases h with h | h | ⟨r', outcome, hne, hid, h⟩
    · exact .inl h
    · exact .inr (.inl h.mono)
    · exact .inr (.inr ⟨r', outcome, hne, hid, h.mono⟩)
  | retired world => exact h
  | expired | shed | failed => exact Missed.mono h entries
  | cancelled | givenUp => trivial

/-! ### The accounts -/

/-- Every admitted event is in hand or settled, and not twice; what is settled has its excuse. -/
structure Accounts (known : List String) (log : List Entry) (hand : List Receipt) (eventSequence : ℕ) : Prop where
  balanced : (admittedOf log).Perm (hand ++ settledOf log)
  nodup : ((admittedOf log).map Receipt.sequence).Nodup
  numbered : ∀ r ∈ admittedOf log, r.sequence ≤ eventSequence
  excused : ∀ r outcome, .settled r outcome ∈ log → Excused known log r outcome

variable {hand hand' rest receipts : List Receipt} {eventSequence : ℕ}

namespace Accounts

section

variable (h : Accounts known log hand eventSequence)
include h

theorem perm (hperm : hand.Perm hand') :
    Accounts known log hand' eventSequence :=
  ⟨h.balanced.trans (hperm.append_right _), h.nodup, h.numbered, h.excused⟩

theorem admitted (hr : r ∈ hand) : .admitted r ∈ log :=
  mem_admittedOf.mp (h.balanced.mem_iff.mpr (mem_append_left _ hr))

theorem not_settled (hr : r ∈ hand) :
    .settled r outcome ∉ log := by
  intro hsettled
  have hnodup := h.balanced.nodup_iff.mp (Nodup.of_map _ h.nodup)
  exact disjoint_of_nodup_append hnodup hr (mem_settledOf.mpr ⟨outcome, hsettled⟩)

theorem push (entries : List Entry) (hadmitted : admittedOf entries = [])
    (hsettled : settledOf entries = []) : Accounts known (entries ++ log) hand eventSequence := by
  have hadmittedOf : admittedOf (entries ++ log) = admittedOf log := by
    rw [admittedOf_append, hadmitted, nil_append]
  refine ⟨?_, ?_, ?_, ?_⟩
  · rw [hadmittedOf, settledOf_append, hsettled]
    exact h.balanced
  · rw [hadmittedOf]
    exact h.nodup
  · rw [hadmittedOf]
    exact h.numbered
  · intro r outcome hmem
    rcases mem_append.mp hmem with hnew | hold
    · have hr : r ∈ settledOf entries := mem_settledOf.mpr ⟨outcome, hnew⟩
      rw [hsettled] at hr
      exact absurd hr not_mem_nil
    · exact (h.excused r outcome hold).mono entries

end

theorem settle (h : Accounts known log (receipts ++ rest) eventSequence) (outcome : Outcome)
    (hexcused : ∀ r ∈ receipts, Excused known (receipts.map (.settled · outcome) ++ log) r outcome) :
    Accounts known (receipts.map (.settled · outcome) ++ log) rest eventSequence := by
  have hadmittedOf : admittedOf (receipts.map (.settled · outcome) ++ log) = admittedOf log := by
    rw [admittedOf_append, admittedOf_settled, nil_append]
  refine ⟨?_, ?_, ?_, ?_⟩
  · rw [hadmittedOf, settledOf_append, settledOf_settled, ← append_assoc]
    exact h.balanced.trans (perm_append_comm.append_right _)
  · rw [hadmittedOf]
    exact h.nodup
  · rw [hadmittedOf]
    exact h.numbered
  · intro r outcome' hmem
    rcases mem_append.mp hmem with hnew | hold
    · obtain ⟨r', hr', heq⟩ := mem_map.mp hnew
      cases heq
      exact hexcused r hr'
    · exact (h.excused r outcome' hold).mono _

theorem admitsOne (h : Accounts known log hand eventSequence) (hr : r.sequence = eventSequence + 1) :
    Accounts known (.admitted r :: log) (r :: hand) (eventSequence + 1) := by
  refine ⟨h.balanced.cons r, ?_, ?_, ?_⟩
  · refine nodup_cons.mpr ⟨?_, h.nodup⟩
    intro hmem
    obtain ⟨r', hr', hsequence⟩ := mem_map.mp hmem
    have := h.numbered r' hr'
    omega
  · intro r' hr'
    rcases mem_cons.mp hr' with rfl | hr'
    · exact hr.le
    · exact (h.numbered r' hr').trans (Nat.le_succ _)
  · intro r' outcome hmem
    rcases mem_cons.mp hmem with heq | hold
    · cases heq
    · exact (h.excused r' outcome hold).mono [.admitted r]

theorem repeats (h : Accounts known log hand eventSequence) (hr : r ∈ hand)
    (hknown : Known known log r.event.eventId) : Repeats known (.settled r .repeated :: log) r := by
  rcases hknown with hknown | hstored | ⟨r', outcome, hid, hsettled⟩
  · exact .inl hknown
  · exact .inr (.inl (.now hstored))
  · refine .inr (.inr ⟨r', outcome, ?_, hid, .now hsettled⟩)
    rintro rfl
    exact h.not_settled hr hsettled

end Accounts

/-! ### The two memories -/

section
variable {m : Memories} {event : MarketEvent} {events : List MarketEvent}

theorem insertOrIgnore_stored {e : MarketEvent} (h : e ∈ (m.insertOrIgnore event).2.marketEvents) :
    e ∈ m.marketEvents ∨ e = event ∧ (m.insertOrIgnore event).1 = true := by
  unfold Memories.insertOrIgnore at h ⊢
  cases hinsert : m.marketEvents.insert? event with
  | none =>
    rw [hinsert] at h
    exact .inl h
  | some marketEvents =>
    rw [hinsert] at h
    rw [Table.mem_def, (Table.insert?_eq_some hinsert).2] at h
    rcases mem_append.mp h with h | h
    · exact .inl h
    · exact .inr ⟨mem_singleton.mp h, rfl⟩

theorem insertOrIgnore_old (h : (m.insertOrIgnore event).1 = false) : ∃ e ∈ m.marketEvents, e.eventId = event.eventId := by
  unfold Memories.insertOrIgnore at h
  cases hinsert : m.marketEvents.insert? event with
  | none =>
    unfold Table.insert? at hinsert
    split_ifs at hinsert with hkey
    obtain ⟨e, he, hid⟩ := mem_map.mp hkey
    exact ⟨e, he, hid⟩
  | some marketEvents =>
    rw [hinsert] at h
    cases h

theorem appendEvents_stored {e : MarketEvent} (h : e ∈ (m.appendEvents events).2.marketEvents) :
    e ∈ m.marketEvents ∨ e ∈ events ∧ e.eventId ∈ (m.appendEvents events).1 := by
  induction events generalizing m with
  | nil => exact .inl h
  | cons event events ih =>
    unfold Memories.appendEvents
    dsimp only
    rcases ih h with h | ⟨hmem, hid⟩
    · rcases insertOrIgnore_stored h with h | ⟨rfl, hnew⟩
      · exact .inl h
      · right
        rw [hnew]
        exact ⟨mem_cons_self, mem_cons_self⟩
    · right
      refine ⟨mem_cons_of_mem event hmem, ?_⟩
      split_ifs
      · exact mem_cons_of_mem _ hid
      · exact hid

theorem appendEvents_kept (h : event ∈ events) :
    event.eventId ∈ (m.appendEvents events).1 ∨ ∃ e ∈ m.marketEvents, e.eventId = event.eventId := by
  induction events generalizing m with
  | nil => exact absurd h not_mem_nil
  | cons event' events ih =>
    unfold Memories.appendEvents
    dsimp only
    cases hnew : (m.insertOrIgnore event').1 with
    | false =>
      rw [if_neg Bool.false_ne_true]
      rcases mem_cons.mp h with rfl | h
      · exact .inr (insertOrIgnore_old hnew)
      · rcases ih h (m := (m.insertOrIgnore event').2) with hid | ⟨e, he, hid⟩
        · exact .inl hid
        · rcases insertOrIgnore_stored he with he | ⟨-, hnew'⟩
          · exact .inr ⟨e, he, hid⟩
          · rw [hnew] at hnew'
            cases hnew'
    | true =>
      rw [if_pos rfl]
      rcases mem_cons.mp h with rfl | h
      · exact .inl mem_cons_self
      · rcases ih h (m := (m.insertOrIgnore event').2) with hid | ⟨e, he, hid⟩
        · exact .inl (mem_cons_of_mem _ hid)
        · rcases insertOrIgnore_stored he with he | ⟨rfl, -⟩
          · exact .inr ⟨e, he, hid⟩
          · left
            rw [← hid]
            exact mem_cons_self

theorem remember_subset {settings : WorkerSettings} {id : String}
    (h : id ∈ (m.rememberEphemeralEvent settings eventId).2.ephemeralEventIds) :
    id ∈ m.ephemeralEventIds ∨ id = eventId := Recent.mem_of_mem_remember h

end

/-! ### What the worker knows -/

/-- The events of a batch are settled or still to be settled, and the identifiers it works with are accounted for. -/
structure Knowledge (known : List String) (log : List Entry) (m : Memories) (batch : List QueuedEvent)
    (left : List Receipt) (durableIds inserted handledIds turn : List String) : Prop where
  ofBatch : ∀ q ∈ batch, q.receipt ∈ left ∨ q.receipt ∈ settledOf log
  ofLeft : ∀ r ∈ left, ∃ q ∈ batch, q.receipt = r
  durable : ∀ id ∈ durableIds, id ∈ inserted ∨ Known known log id
  ofInserted : ∀ id ∈ inserted, id ∈ durableIds ∧ .committed id ∈ log ∧ ∃ q ∈ batch, q.event.eventId = id
  handled : ∀ id ∈ handledIds, Known known log id ∨ id ∈ turn
  /-- The event at its turn is not one that was persisted with the batch. -/
  ofTurn : ∀ id ∈ turn, id ∉ durableIds
  stored : ∀ e ∈ m.marketEvents, Known known log e.eventId ∨ e.eventId ∈ inserted
  ephemeral : ∀ id ∈ m.ephemeralEventIds, Known known log id

variable {m m' : Memories} {batch : List QueuedEvent} {left left' : List Receipt}
  {durableIds inserted handledIds turn : List String}

theorem settledOf_mono (h : r ∈ settledOf log) : r ∈ settledOf (entries ++ log) := by
  rw [settledOf_append]
  exact mem_append_right _ h

theorem Knowledge.mono (h : Knowledge known log m batch left durableIds inserted handledIds turn) (entries : List Entry)
    (hstored : ∀ e ∈ m'.marketEvents, e ∈ m.marketEvents ∨ Known known (entries ++ log) e.eventId)
    (hephemeral : ∀ id ∈ m'.ephemeralEventIds, id ∈ m.ephemeralEventIds) :
    Knowledge known (entries ++ log) m' batch left durableIds inserted handledIds turn := by
  refine ⟨?_, h.ofLeft, ?_, ?_, ?_, h.ofTurn, ?_, ?_⟩
  · intro q hq
    exact (h.ofBatch q hq).imp_right settledOf_mono
  · intro id hid
    exact (h.durable id hid).imp_right Known.mono
  · intro id hid
    obtain ⟨hdurable, hcommitted, hbatch⟩ := h.ofInserted id hid
    exact ⟨hdurable, mem_append_right _ hcommitted, hbatch⟩
  · intro id hid
    exact (h.handled id hid).imp_left Known.mono
  · intro e he
    rcases hstored e he with he | hknown
    · exact (h.stored e he).imp_left Known.mono
    · exact .inl hknown
  · intro id hid
    exact (h.ephemeral id (hephemeral id hid)).mono

/-- What the accounts are while the worker has a batch. -/
structure EventLoop.Ready (known : List String) (s : EventLoop) (batch : List QueuedEvent) (left : List Receipt)
    (durableIds inserted handledIds turn : List String) : Prop where
  accounts : Accounts known s.log
    (s.producers.map receiptOf ++ (s.queue.queue.map fun row => receiptOf row.toQueuedEvent) ++ left) s.eventSequence
  knowledge : Knowledge known s.log s.memories batch left durableIds inserted handledIds turn
  running : ∀ r, .settled r .cancelled ∉ s.log

/-- The accounts of what was admitted are balanced. -/
structure EventLoop.Accounted (known : List String) (s : EventLoop) : Prop where
  accounts : Accounts known s.log s.inHand s.eventSequence
  knowledge : Knowledge known s.log s.memories s.phase.batch s.phase.unsettled s.phase.progress.durableIds
    s.phase.progress.inserted s.phase.progress.handledIds s.phase.current
  cancelled : ∀ r, .settled r .cancelled ∈ s.log → s.phase.cancelled = true

variable {s : EventLoop} {world : World} {b : Batch} {q : QueuedEvent} {stage : Stage}

theorem EventLoop.Accounted.ready (h : s.Accounted known) (hphase : s.phase = .inFlight batch stage)
    (hrunning : s.phase.cancelled = false) :
    s.Ready known batch ((stage.unsettled batch).map receipt) stage.progress.durableIds
      stage.progress.inserted stage.progress.handledIds stage.current := by
  have haccounts := h.accounts
  have hknowledge := h.knowledge
  unfold EventLoop.inHand at haccounts
  rw [hphase] at haccounts hknowledge
  refine ⟨haccounts, hknowledge, ?_⟩
  intro r hr
  have hcancelled := h.cancelled r hr
  rw [hrunning] at hcancelled
  cases hcancelled

namespace EventLoop.Ready

theorem goOn (h : s.Ready known batch ((stage.unsettled batch).map receipt) stage.progress.durableIds
      stage.progress.inserted stage.progress.handledIds stage.current) : (s.goOn batch stage).Accounted known :=
  ⟨h.accounts, h.knowledge, fun r hr => absurd hr (h.running r)⟩

theorem perm (h : s.Ready known batch left durableIds inserted handledIds turn)
    (hperm : left.Perm left') : s.Ready known batch left' durableIds inserted handledIds turn := by
  refine ⟨h.accounts.perm (hperm.append_left _), ?_, h.running⟩
  refine ⟨?_, ?_, h.knowledge.durable, h.knowledge.ofInserted, h.knowledge.handled, h.knowledge.ofTurn,
    h.knowledge.stored, h.knowledge.ephemeral⟩
  · intro q hq
    exact (h.knowledge.ofBatch q hq).imp_left hperm.mem_iff.mp
  · intro r hr
    exact h.knowledge.ofLeft r (hperm.mem_iff.mpr hr)

theorem admitted (h : s.Ready known batch left durableIds inserted handledIds turn)
    (hr : r ∈ left) : .admitted r ∈ s.log := h.accounts.admitted (mem_append_right _ hr)

theorem settled (h : s.Ready known batch (receipts ++ rest) durableIds inserted handledIds turn)
    (hexcused : ∀ r ∈ receipts, Excused known (receipts.map (.settled · outcome) ++ s.log) r outcome) :
    Accounts known (s.settle outcome receipts).log
      (s.producers.map receiptOf ++ (s.queue.queue.map fun row => receiptOf row.toQueuedEvent) ++ rest) s.eventSequence ∧
      Knowledge known (s.settle outcome receipts).log s.memories batch rest durableIds inserted handledIds turn := by
  have hknowledge := h.knowledge.mono (receipts.map (.settled · outcome)) (fun e (he : e ∈ s.memories.marketEvents) => .inl he)
    (fun _ hid => hid)
  refine ⟨?_, ⟨?_, ?_, hknowledge.durable, hknowledge.ofInserted, hknowledge.handled, hknowledge.ofTurn,
    hknowledge.stored, hknowledge.ephemeral⟩⟩
  · refine Accounts.settle ?_ outcome hexcused
    refine h.accounts.perm ?_
    rw [← append_assoc, ← append_assoc]
    exact perm_append_comm.append_right rest
  · intro q hq
    rcases h.knowledge.ofBatch q hq with hunsettled | hsettled
    · rcases mem_append.mp hunsettled with hnow | hrest
      · right
        unfold EventLoop.settle
        rw [settledOf_append, settledOf_settled]
        exact mem_append_left _ hnow
      · exact .inl hrest
    · exact .inr (settledOf_mono hsettled)
  · intro r hr
    exact h.knowledge.ofLeft r (mem_append_right _ hr)

theorem settle (h : s.Ready known batch (receipts ++ rest) durableIds inserted handledIds turn)
    (outcome : Outcome) (hexcused : ∀ r ∈ receipts, Excused known (receipts.map (.settled · outcome) ++ s.log) r outcome)
    (houtcome : outcome ≠ .cancelled) :
    (s.settle outcome receipts).Ready known batch rest durableIds inserted handledIds turn := by
  obtain ⟨haccounts, hknowledge⟩ := h.settled hexcused
  refine ⟨haccounts, hknowledge, ?_⟩
  intro r hr
  rcases mem_append.mp hr with hnow | hbefore
  · obtain ⟨r', -, heq⟩ := mem_map.mp hnow
    cases heq
    exact houtcome rfl
  · exact h.running r hbefore

section

variable (h : s.Ready known batch left durableIds inserted handledIds turn)
include h

/-- Entries that neither admit nor settle an event change no account. -/
theorem others (window : IntegrityWindow)
    {entries : List Entry} (hother : ∀ entry ∈ entries, entry.admitted? = none ∧ entry.settled? = none) :
    ({ s with window, log := entries ++ s.log } : EventLoop).Ready known batch left durableIds inserted handledIds
      turn := by
  have hadmitted : admittedOf entries = [] := filterMap_eq_nil_iff.mpr fun entry hentry => (hother entry hentry).1
  have hsettled : settledOf entries = [] := filterMap_eq_nil_iff.mpr fun entry hentry => (hother entry hentry).2
  refine ⟨h.accounts.push _ hadmitted hsettled, h.knowledge.mono _ (fun _ he => .inl he) (fun _ hid => hid), ?_⟩
  intro r hr
  rcases mem_append.mp hr with hnow | hbefore
  · cases (hother _ hnow).2
  · exact h.running r hbefore

theorem note (window : IntegrityWindow) (gaps : List Gap) :
    ({ s with window, log := gaps.map .noted ++ s.log } : EventLoop).Ready known batch left durableIds inserted
      handledIds turn :=
  h.others window (forall_mem_map.mpr fun _ _ => ⟨rfl, rfl⟩)

theorem push (ids : List String) :
    ({ s with log := ids.map .committed ++ s.log } : EventLoop).Ready known batch left durableIds inserted handledIds
      turn :=
  h.others s.window (forall_mem_map.mpr fun _ _ => ⟨rfl, rfl⟩)

theorem commit {events : List MarketEvent}
    (hevents : ∀ event ∈ events, ∃ q ∈ batch, q.event = event) (hturn : ∀ event ∈ events, event.eventId ∉ turn) :
    (s.commit events).Ready known batch left (durableIds ++ events.map MarketEvent.eventId)
      (inserted ++ (s.memories.appendEvents events).1) handledIds turn := by
  have hpush := h.push (s.memories.appendEvents events).1
  have hknowledge := hpush.knowledge
  refine ⟨hpush.accounts, ⟨hknowledge.ofBatch, hknowledge.ofLeft, ?_, ?_, hknowledge.handled, ?_, ?_, ?_⟩, hpush.running⟩
  · intro id hid
    rcases mem_append.mp hid with hid | hid
    · exact (hknowledge.durable id hid).imp_left (mem_append_left _)
    · obtain ⟨event, hevent, rfl⟩ := mem_map.mp hid
      rcases @appendEvents_kept s.memories _ _ hevent with hnew | ⟨e, he, hid⟩
      · exact .inl (mem_append_right _ hnew)
      · rw [← hid]
        exact ((hknowledge.stored e he).imp_right (mem_append_left _)).symm
  · intro id hid
    rcases mem_append.mp hid with hid | hid
    · obtain ⟨hdurable, hcommitted⟩ := hknowledge.ofInserted id hid
      exact ⟨mem_append_left _ hdurable, hcommitted⟩
    · obtain ⟨⟨event, hevent, rfl⟩, -⟩ := appendEvents_new hid
      obtain ⟨q, hq, rfl⟩ := hevents event hevent
      exact ⟨mem_append_right _ (mem_map_of_mem hevent), mem_append_left _ (mem_map_of_mem hid),
        q, hq, rfl⟩
  · intro id hid hdurable
    rcases mem_append.mp hdurable with hdurable | hdurable
    · exact h.knowledge.ofTurn id hid hdurable
    · obtain ⟨event, hevent, rfl⟩ := mem_map.mp hdurable
      exact hturn event hevent hid
  · intro e he
    rcases appendEvents_stored he with he | ⟨-, hnew⟩
    · exact (hknowledge.stored e he).imp_right (mem_append_left _)
    · exact .inr (mem_append_right _ hnew)
  · intro id hid
    refine hknowledge.ephemeral id ?_
    unfold EventLoop.commit at hid
    rwa [appendEvents_ephemeral] at hid

theorem forget :
    s.Ready known batch left durableIds inserted [] [] :=
  ⟨h.accounts, ⟨h.knowledge.ofBatch, h.knowledge.ofLeft, h.knowledge.durable, h.knowledge.ofInserted,
    (fun _ hid => absurd hid not_mem_nil), (fun _ hid => absurd hid not_mem_nil), h.knowledge.stored,
    h.knowledge.ephemeral⟩, h.running⟩

theorem handled_subset {handledIds' : List String} (hsub : ∀ id ∈ handledIds', id ∈ handledIds) :
    s.Ready known batch left durableIds inserted handledIds' turn :=
  ⟨h.accounts, ⟨h.knowledge.ofBatch, h.knowledge.ofLeft, h.knowledge.durable, h.knowledge.ofInserted,
    (fun id hid => h.knowledge.handled id (hsub id hid)), h.knowledge.ofTurn, h.knowledge.stored, h.knowledge.ephemeral⟩,
    h.running⟩

end

end EventLoop.Ready

theorem Knowledge.close (h : Knowledge known log m batch [] durableIds inserted handledIds turn) :
    Knowledge known log m batch [] [] [] [] [] := by
  refine ⟨h.ofBatch, h.ofLeft, ?_, ?_, ?_, ?_, ?_, h.ephemeral⟩
  · exact fun _ hid => absurd hid not_mem_nil
  · exact fun _ hid => absurd hid not_mem_nil
  · exact fun _ hid => absurd hid not_mem_nil
  · exact fun _ hid => absurd hid not_mem_nil
  · intro e he
    rcases h.stored e he with hknown | hinserted
    · exact .inl hknown
    · obtain ⟨-, -, q, hq, hid⟩ := h.ofInserted _ hinserted
      have hsettled := (h.ofBatch q hq).resolve_left not_mem_nil
      obtain ⟨outcome, hsettled⟩ := mem_settledOf.mp hsettled
      exact .inl (.inr (.inr ⟨_, outcome, hid, hsettled⟩))

namespace EventLoop.Ready

theorem close (h : s.Ready known batch [] durableIds inserted handledIds turn) :
    (s.goOn batch (.closing false)).Accounted known :=
  ⟨h.accounts, h.knowledge.close, fun r hr => absurd hr (h.running r)⟩

theorem fail (h : s.Ready known batch ((stage.unsettled batch).map receipt) durableIds inserted handledIds turn)
    (failedAt : ℤ) : (s.fail batch stage failedAt).Accounted known := by
  obtain ⟨window, gaps, hnoted, hgaps⟩ := noteFailedMints_eq s batch failedAt
  unfold EventLoop.fail
  rw [hnoted]
  have hnote := h.note window gaps
  rw [← append_nil ((stage.unsettled batch).map receipt)] at hnote
  refine (hnote.settle .failed ?_ nofun).close
  intro r hr
  obtain ⟨q, hq, rfl⟩ := h.knowledge.ofLeft r hr
  obtain ⟨gap, hgap, hconcerns⟩ := hgaps q hq
  have hmissed : Missed (gaps.map .noted ++ s.log) q.receipt :=
    ⟨gap, hconcerns, .of_mem (h.admitted hr) (mem_map_of_mem hgap)⟩
  exact hmissed.mono _

theorem cancel (h : s.Ready known batch ((stage.unsettled batch).map receipt) durableIds inserted handledIds turn) :
    (s.cancel batch stage).Accounted known := by
  rw [← append_nil ((stage.unsettled batch).map receipt)] at h
  have hexcused : ∀ r ∈ (stage.unsettled batch).map receipt,
      Excused known (((stage.unsettled batch).map receipt).map (.settled · .cancelled) ++ s.log) r .cancelled :=
    fun _ _ => trivial
  obtain ⟨haccounts, hknowledge⟩ := h.settled hexcused
  exact ⟨haccounts, hknowledge.close, fun _ _ => rfl⟩

theorem settleTurn
    (h : s.Ready known batch (q.receipt :: rest) durableIds inserted handledIds turn) (outcome : Outcome)
    (hexcused : Excused known (.settled q.receipt outcome :: s.log) q.receipt outcome) (houtcome : outcome ≠ .cancelled)
    (hturn : ∀ id ∈ turn, id = q.event.eventId) :
    (s.settle outcome [q.receipt]).Ready known batch rest durableIds inserted (handledIds.insert q.event.eventId) [] := by
  have hsettle : (s.settle outcome [q.receipt]).Ready known batch rest durableIds inserted handledIds turn := by
    have h' : s.Ready known batch ([q.receipt] ++ rest) durableIds inserted handledIds turn := h
    refine h'.settle outcome ?_ houtcome
    intro r hr
    rw [mem_singleton.mp hr]
    exact hexcused
  have hknown : Known known (s.settle outcome [q.receipt]).log q.event.eventId :=
    .inr (.inr ⟨q.receipt, outcome, rfl, mem_cons_self⟩)
  refine ⟨hsettle.accounts, ⟨hsettle.knowledge.ofBatch, hsettle.knowledge.ofLeft, hsettle.knowledge.durable,
    hsettle.knowledge.ofInserted, ?_, (fun _ hid => absurd hid not_mem_nil), hsettle.knowledge.stored,
    hsettle.knowledge.ephemeral⟩, hsettle.running⟩
  intro id hid
  left
  rcases mem_insert_iff.mp hid with rfl | hid
  · exact hknown
  · rcases hsettle.knowledge.handled id hid with hid | hid
    · exact hid
    · rw [hturn id hid]
      exact hknown

theorem remember (h : s.Ready known batch left durableIds inserted handledIds turn) {memories : Memories}
    (hstored : ∀ e ∈ memories.marketEvents, e ∈ s.memories.marketEvents ∨ Known known s.log e.eventId)
    (hephemeral : ∀ id ∈ memories.ephemeralEventIds, id ∈ s.memories.ephemeralEventIds ∨ Known known s.log id) :
    ({ s with memories } : EventLoop).Ready known batch left durableIds inserted handledIds turn := by
  refine ⟨h.accounts, ⟨h.knowledge.ofBatch, h.knowledge.ofLeft, h.knowledge.durable, h.knowledge.ofInserted,
    h.knowledge.handled, h.knowledge.ofTurn, ?_, ?_⟩, h.running⟩
  · intro e he
    rcases hstored e he with he | hknown
    · exact h.knowledge.stored e he
    · exact .inl hknown
  · intro id hid
    rcases hephemeral id hid with hid | hknown
    · exact h.knowledge.ephemeral id hid
    · exact hknown

theorem take (h : s.Ready known batch left durableIds inserted handledIds turn)
    {items : List (Queue.QueuedEvent MarketEvent)} {queue : SeasonEventQueue MarketEvent}
    (htakes : Takes s.queue items queue) :
    (s.take items queue).Ready known (batch ++ items.map dequeued)
      (left ++ (items.map dequeued).map receipt) durableIds inserted handledIds turn := by
  have hfront := congrArg (List.map receiptOf) htakes.front
  rw [map_append, map_map, map_map] at hfront
  have hreceipts : (items.map dequeued).map receipt = items.map receiptOf := by
    rw [map_map]
    rfl
  have hknowledge := h.knowledge
  refine ⟨h.accounts.perm ?_, ⟨?_, ?_, hknowledge.durable, ?_, hknowledge.handled, hknowledge.ofTurn, hknowledge.stored,
    hknowledge.ephemeral⟩, h.running⟩
  · have hrows : s.queue.queue.map (fun row => receiptOf row.toQueuedEvent) =
        items.map receiptOf ++ queue.queue.map fun row => receiptOf row.toQueuedEvent := hfront
    rw [hrows, hreceipts]
    refine perm_iff_count.mpr fun r => ?_
    dsimp only [EventLoop.take]
    simp only [count_append]
    omega
  · intro q hq
    rcases mem_append.mp hq with hq | hq
    · exact (hknowledge.ofBatch q hq).imp_left (mem_append_left _)
    · exact .inl (mem_append_right _ (mem_map_of_mem hq))
  · intro r hr
    rcases mem_append.mp hr with hr | hr
    · obtain ⟨q, hq, heq⟩ := hknowledge.ofLeft r hr
      exact ⟨q, mem_append_left _ hq, heq⟩
    · obtain ⟨q, hq, heq⟩ := mem_map.mp hr
      exact ⟨q, mem_append_right _ hq, heq⟩
  · intro id hid
    obtain ⟨hdurable, hcommitted, q, hq, heq⟩ := hknowledge.ofInserted id hid
    exact ⟨hdurable, hcommitted, q, mem_append_left _ hq, heq⟩

end EventLoop.Ready

/-! ### What the worker does -/

variable {event : MarketEvent} {settings : WorkerSettings}

theorem route_persisted (h : b.route settings world event = .persisted) : event.eventId ∈ b.durableIds := by
  unfold Batch.route at h
  split_ifs at h with _ _ _ hdurable
  exact contains_iff_mem.mp hdurable

theorem route_persist (h : b.route settings world event = .persist) : event.eventId ∉ b.durableIds := by
  unfold Batch.route at h
  split_ifs at h with _ _ _ hdurable
  exact fun hmem => hdurable (contains_iff_mem.mpr hmem)

theorem route_ephemeral
    (h : b.route settings world event = .ephemeral) : durableEvent event (world.eventPriority event) = false := by
  unfold Batch.route at h
  split_ifs at h with _ _ _ _ hdurable
  exact Bool.eq_false_iff.mpr hdurable

theorem accounted_choose
    (h : s.Ready known batch ((b.remaining ++ b.urgentBuffer).map receipt) b.durableIds b.inserted b.handledIds [])
    (world : World) : (s.choose batch world b).Accounted known := by
  unfold EventLoop.choose
  split
  · next hnext =>
    rw [next_none hnext] at h
    exact h.close
  · next q b' hnext =>
    obtain ⟨hperm, hb'⟩ := next_spec hnext
    replace h := h.perm (hperm.map receipt)
    rw [map_cons] at h
    have hdurableIds : b'.durableIds = b.durableIds := by
      rw [hb']
    have hinserted : b'.inserted = b.inserted := by
      rw [hb']
    have hhandledIds : b'.handledIds = b.handledIds := by
      rw [hb']
    rw [← hdurableIds, ← hinserted, ← hhandledIds] at h
    have hturn : ∀ id ∈ ([] : List String), id = q.event.eventId := fun _ hid => absurd hid not_mem_nil
    have hrepeats (hknown : Known known s.log q.event.eventId) :
        Excused known (.settled q.receipt .repeated :: s.log) q.receipt .repeated :=
      h.accounts.repeats (mem_append_right _ mem_cons_self) hknown
    dsimp only
    split
    · next hroute =>
      refine EventLoop.Ready.goOn ?_
      unfold EventLoop.skip
      split_ifs with hhandled hterminal
      · have hknown := (h.knowledge.handled _ (contains_iff_mem.mp hhandled)).resolve_right not_mem_nil
        exact h.settleTurn .repeated (hrepeats hknown) (by simp) hturn
      · exact h.settleTurn (.retired world) hterminal (by simp) hturn
      · have hnote : (s.noteMintGap q.event.mint world.now).Ready known batch
            (q.receipt :: (b'.remaining ++ b'.urgentBuffer).map receipt) b'.durableIds b'.inserted b'.handledIds
            [] := h.note _ [s.window.gapFor q.event.mint world.now]
        refine hnote.settleTurn .expired ?_ (by simp) hturn
        have hmissed : Missed (.noted (s.window.gapFor q.event.mint world.now) :: s.log) q.receipt :=
          ⟨_, gapFor_mint _ _ _, .now (h.admitted mem_cons_self)⟩
        exact hmissed.mono [.settled q.receipt .expired]
    · next hroute =>
      split_ifs with hmem
      · have hcommitted := (h.knowledge.ofInserted _ (contains_iff_mem.mp hmem)).2.1
        exact (h.settleTurn (.handled world) (fun _ => .now hcommitted) (by simp) hturn).goOn
      · have hnew : q.event.eventId ∉ b'.inserted := fun hin => hmem (contains_iff_mem.mpr hin)
        have hknown := (h.knowledge.durable _ (route_persisted hroute)).resolve_left hnew
        exact (h.settleTurn .repeated (hrepeats hknown) (by simp) hturn).goOn
    · next hroute =>
      have hfresh := route_persist hroute
      refine EventLoop.Ready.goOn ⟨h.accounts, ⟨h.knowledge.ofBatch, h.knowledge.ofLeft, h.knowledge.durable,
        h.knowledge.ofInserted, ?_, ?_, h.knowledge.stored, h.knowledge.ephemeral⟩, h.running⟩
      · intro id hid
        rcases mem_insert_iff.mp hid with rfl | hid
        · exact .inr mem_cons_self
        · exact .inl ((h.knowledge.handled id hid).resolve_right not_mem_nil)
      · intro id hid
        rw [mem_singleton.mp hid]
        exact hfresh
    · next hroute =>
      have hephemeral := route_ephemeral hroute
      have hremember {outcome : Outcome} (hsettled : (s.settle outcome [q.receipt]).Ready known batch
          ((b'.remaining ++ b'.urgentBuffer).map receipt) b'.durableIds b'.inserted
          (b'.handledIds.insert q.event.eventId) []) :
          ({ s.settle outcome [q.receipt] with
            memories := (s.memories.rememberEphemeralEvent s.settings q.event.eventId).2 } : EventLoop).Ready known batch
            ((b'.remaining ++ b'.urgentBuffer).map receipt) b'.durableIds b'.inserted
            (b'.handledIds.insert q.event.eventId) [] := by
        refine hsettled.remember (fun e he => .inl he) ?_
        intro id hid
        rcases remember_subset hid with hid | rfl
        · exact .inl hid
        · exact .inr (.inr (.inr ⟨q.receipt, outcome, rfl, mem_cons_self⟩))
      split_ifs with hnew
      · have hexcused : Excused known (.settled q.receipt (.handled world) :: s.log) q.receipt (.handled world) := by
          intro hdurable
          change durableEvent q.event (world.eventPriority q.event) = true at hdurable
          rw [hephemeral] at hdurable
          cases hdurable
        exact (hremember (h.settleTurn (.handled world) hexcused (by simp) hturn)).goOn
      · have hold : q.event.eventId ∈ s.memories.ephemeralEventIds := by
          simpa [Memories.rememberEphemeralEvent] using hnew
        exact (hremember (h.settleTurn .repeated (hrepeats (h.knowledge.ephemeral _ hold)) (by simp) hturn)).goOn

theorem accounted_persist {events : List MarketEvent} {next : EventLoop}
    (h : s.Ready known batch ((stage.unsettled batch).map receipt) durableIds inserted handledIds turn)
    (hevents : ∀ event ∈ events, ∃ q ∈ batch, q.event = event) (hnext : next.Accounted known) (result : Persistence) :
    (s.persist batch events stage next result).Accounted known := by
  have hcommit := h.forget.commit hevents (fun _ _ hid => absurd hid not_mem_nil)
  cases result with
  | returns => exact hnext
  | raises committed failedAt =>
    cases committed with
    | false => exact h.fail failedAt
    | true => exact hcommit.fail failedAt
  | cancelled committed =>
    cases committed with
    | false => exact h.cancel
    | true => exact hcommit.cancel

theorem ofBatch_urgentEvents {urgent : List QueuedEvent}
    (h : s.Ready known batch ((b.remaining ++ (b.urgentBuffer ++ urgent)).map receipt) durableIds inserted
      handledIds turn) (world : World) :
    ∀ event ∈ b.urgentEvents world urgent, ∃ q ∈ batch, q.event = event := by
  intro event hevent
  obtain ⟨q, hq, rfl⟩ := mem_map.mp (mem_of_mem_filter hevent)
  have hreceipt : q.receipt ∈ (b.remaining ++ (b.urgentBuffer ++ urgent)).map receipt :=
    mem_map_of_mem (mem_append_right _ (mem_append_right _ hq))
  obtain ⟨q', hq', heq⟩ := h.knowledge.ofLeft _ hreceipt
  exact ⟨q', hq', congrArg Receipt.event heq⟩

theorem accounted_prefetched {urgent : List QueuedEvent}
    (h : s.Ready known batch ((b.remaining ++ (b.urgentBuffer ++ urgent)).map receipt) b.durableIds b.inserted
      b.handledIds []) (world laterWorld : World) : (s.prefetched batch world laterWorld b urgent).Accounted known := by
  have hcommit := h.commit (ofBatch_urgentEvents h world) (fun _ _ hid => absurd hid not_mem_nil)
  exact accounted_choose hcommit laterWorld

theorem accounted_prefetch
    (h : s.Ready known batch ((b.remaining ++ b.urgentBuffer).map receipt) b.durableIds b.inserted b.handledIds [])
    (world : World) : (s.prefetch batch world b).Accounted known := by
  have htake := h.take (urgentItems_spec s world b).1
  rw [← map_append, append_assoc] at htake
  unfold EventLoop.prefetch
  dsimp only
  split_ifs
  · exact accounted_prefetched htake world world
  · exact EventLoop.Ready.goOn htake

theorem accounted_turn
    (h : s.Ready known batch ((b.remaining ++ b.urgentBuffer).map receipt) b.durableIds b.inserted b.handledIds [])
    (world : World) (revised : Bool) : (s.turn batch world revised b).Accounted known := by
  unfold EventLoop.turn
  cases revised with
  | false => exact accounted_prefetch h world
  | true =>
    have hperm : (b.remaining ++ b.urgentBuffer).Perm ((b.resort world).remaining ++ (b.resort world).urgentBuffer) := by
      unfold Batch.resort
      rw [append_nil]
      exact (perm_insertionSort _ _).symm
    have hresort : s.Ready known batch
        (((b.resort world).remaining ++ (b.resort world).urgentBuffer).map receipt) (b.resort world).durableIds
        (b.resort world).inserted (b.resort world).handledIds [] := h.perm (hperm.map _)
    exact accounted_prefetch hresort world

theorem accounted_appended
    (h : s.Ready known batch ((q :: (b.remaining ++ b.urgentBuffer)).map receipt) b.durableIds b.inserted
      b.handledIds [q.event.eventId]) (world : World) : (s.appended batch world b q).Accounted known := by
  rw [map_cons] at h
  have hpush := h.push (s.memories.appendEvents [q.event]).1
  have hturn : ∀ id ∈ [q.event.eventId], id = q.event.eventId := fun id hid => mem_singleton.mp hid
  have hwrite (outcome : Outcome)
      (hexcused : Excused known
        (.settled q.receipt outcome :: ((s.memories.appendEvents [q.event]).1.map .committed ++ s.log)) q.receipt outcome)
      (houtcome : outcome ≠ .cancelled) : ((s.commit [q.event]).settle outcome [q.receipt]).Ready known batch
        ((b.remaining ++ b.urgentBuffer).map receipt) b.durableIds b.inserted b.handledIds [] := by
    have hsettled := (hpush.settleTurn outcome hexcused houtcome hturn).handled_subset
      (fun id hid => mem_insert_of_mem hid)
    have hstored : ∀ e ∈ (s.memories.appendEvents [q.event]).2.marketEvents, e ∈ s.memories.marketEvents ∨
        Known known (.settled q.receipt outcome :: ((s.memories.appendEvents [q.event]).1.map .committed ++ s.log))
          e.eventId := by
      intro e he
      rcases appendEvents_stored he with he | ⟨he, -⟩
      · exact .inl he
      · rw [mem_singleton.mp he]
        exact .inr (.inr (.inr ⟨q.receipt, outcome, rfl, mem_cons_self⟩))
    have hephemeral : ∀ id ∈ (s.memories.appendEvents [q.event]).2.ephemeralEventIds, id ∈ s.memories.ephemeralEventIds ∨
        Known known (.settled q.receipt outcome :: ((s.memories.appendEvents [q.event]).1.map .committed ++ s.log)) id := by
      intro id hid
      rw [appendEvents_ephemeral] at hid
      exact .inl hid
    exact hsettled.remember hstored hephemeral
  unfold EventLoop.appended
  dsimp only
  split_ifs with hnew
  · have hcommitted : Entry.committed q.event.eventId ∈ (s.memories.appendEvents [q.event]).1.map .committed ++ s.log :=
      mem_append_left _ (mem_map_of_mem (contains_iff_mem.mp hnew))
    exact (hwrite (.handled world) (fun _ => .now hcommitted) nofun).goOn
  · have hold := (@appendEvents_kept s.memories q.event [q.event] (mem_singleton_self _)).resolve_left
      fun hmem => hnew (contains_iff_mem.mpr hmem)
    obtain ⟨e, he, hid⟩ := hold
    have hfresh := h.knowledge.ofTurn q.event.eventId (mem_singleton_self _)
    have hknown : Known known s.log q.event.eventId := by
      rcases h.knowledge.stored e he with hknown | hinserted
      · rwa [hid] at hknown
      · rw [hid] at hinserted
        exact absurd (h.knowledge.ofInserted _ hinserted).1 hfresh
    have hrepeats := hpush.accounts.repeats (mem_append_right _ mem_cons_self) hknown.mono
    exact (hwrite .repeated hrepeats nofun).goOn

theorem receipts_workingBatch (world : World) (batch : List QueuedEvent) :
    ((workingBatch world batch).map receipt).Perm
      ((batch.filter fun q => !world.terminalTradedEvent q.event).map receipt) := by
  refine ((perm_insertionSort _ _).map _).trans ?_
  rw [map_map]
  exact Perm.refl _

theorem ofBatch_durableEvents
    (h : s.Ready known batch ((workingBatch world batch).map receipt) durableIds inserted handledIds turn) :
    ∀ event ∈ durableEvents world batch, ∃ q ∈ batch, q.event = event := by
  intro event hevent
  obtain ⟨q, hq, rfl⟩ := mem_map.mp hevent
  obtain ⟨q', hq', heq⟩ := h.knowledge.ofLeft q.receipt (mem_map_of_mem (mem_of_mem_filter hq))
  exact ⟨q', hq', congrArg Receipt.event heq⟩

theorem accounted_persisted (h : s.Ready known batch ((workingBatch world batch).map receipt) [] [] [] []) :
    (s.persisted batch world).Accounted known := by
  have hcommit := h.commit (ofBatch_durableEvents h) (fun _ _ hid => absurd hid not_mem_nil)
  rw [← append_nil (workingBatch world batch)] at hcommit
  exact hcommit.goOn

theorem accounted_begin (h : s.Ready known batch (batch.map receipt) [] [] [] []) (world : World) :
    (s.begin batch world).Accounted known := by
  have hsplit : (batch.map receipt).Perm
      ((batch.filter fun q => world.terminalTradedEvent q.event).map receipt ++
        (workingBatch world batch).map receipt) := by
    have hfilter := (filter_append_perm (fun q => world.terminalTradedEvent q.event) batch).map receipt
    rw [map_append] at hfilter
    exact hfilter.symm.trans ((receipts_workingBatch world batch).symm.append_left _)
  have hretired := (h.perm hsplit).settle (.retired world) ?_ nofun
  · unfold EventLoop.begin
    dsimp only
    split_ifs
    · exact accounted_persisted hretired
    · exact hretired.goOn
  · intro r hr
    obtain ⟨q, hq, rfl⟩ := mem_map.mp hr
    exact (mem_filter.mp hq).2

/-! ### Producers and others -/

theorem EventLoop.Accounted.grow {s' : EventLoop} (h : s.Accounted known)
    (haccounts : Accounts known s'.log s'.inHand s'.eventSequence) (entries : List Entry) (hlog : s'.log = entries ++ s.log)
    (hphase : s'.phase = s.phase) (hmemories : s'.memories = s.memories)
    (hentries : ∀ r, .settled r .cancelled ∉ entries) : s'.Accounted known := by
  refine ⟨haccounts, ?_, ?_⟩
  · rw [hlog, hphase, hmemories]
    exact h.knowledge.mono entries (fun _ he => .inl he) (fun _ hid => hid)
  · intro r hr
    rw [hlog] at hr
    rw [hphase]
    exact h.cancelled r ((mem_append.mp hr).resolve_left (hentries r))

theorem receipts_putRow (queue : SeasonEventQueue MarketEvent) (item : Queue.QueuedEvent MarketEvent) :
    ((queue.putRow item).queue.map fun row => receiptOf row.toQueuedEvent).Perm
      (receiptOf item :: queue.queue.map fun row => receiptOf row.toQueuedEvent) :=
  (perm_orderedInsert _ _ _).map _

theorem accounted_enqueueEvent (h : s.Accounted known) (world : World) (ignored : Bool) (event : MarketEvent) :
    (s.enqueueEvent world ignored event).Accounted known := by
  unfold EventLoop.enqueueEvent
  split_ifs
  · exact h
  · dsimp only
    have hentered := @Accounts.admitsOne known s.log ⟨s.eventSequence + 1, event⟩ s.inHand s.eventSequence h.accounts rfl
    split
    · next queue hput =>
      obtain ⟨-, -, rfl⟩ := (SeasonEventQueue.putNowait_eq_ok_iff _).mp hput
      refine h.grow (hentered.perm ?_) [.admitted ⟨s.eventSequence + 1, event⟩] rfl rfl rfl ?_
      · have hrow := receipts_putRow (s.queue.admitSequence (s.eventSequence + 1))
          ⟨world.eventPriority event, s.eventSequence + 1, event⟩
        have hqueued := (hrow.append_left (s.producers.map receiptOf)).trans perm_middle
        exact (hqueued.append_right s.phase.unsettled).symm
      · intro r hr
        cases mem_singleton.mp hr
    · split_ifs
      · refine h.grow hentered [.admitted ⟨s.eventSequence + 1, event⟩] rfl rfl rfl ?_
        intro r hr
        cases mem_singleton.mp hr
      · have hnoted : Accounts known (.noted (s.window.gapFor event.mint world.now) ::
            .admitted ⟨s.eventSequence + 1, event⟩ :: s.log) ([⟨s.eventSequence + 1, event⟩] ++ s.inHand)
            (s.eventSequence + 1) := hentered.push [.noted (s.window.gapFor event.mint world.now)] rfl rfl
        have hmissed : Missed (.noted (s.window.gapFor event.mint world.now) ::
            .admitted ⟨s.eventSequence + 1, event⟩ :: s.log) ⟨s.eventSequence + 1, event⟩ :=
          ⟨_, gapFor_mint _ _ _, .now mem_cons_self⟩
        have hsettled := hnoted.settle .shed ?_
        · refine h.grow hsettled [.settled ⟨s.eventSequence + 1, event⟩ .shed,
            .noted (s.window.gapFor event.mint world.now), .admitted ⟨s.eventSequence + 1, event⟩] rfl rfl rfl ?_
          intro r hr
          simp at hr
        · intro r hr
          rw [mem_singleton.mp hr]
          exact hmissed.mono [.settled ⟨s.eventSequence + 1, event⟩ .shed]

theorem accounted_put (h : s.Accounted known) (sequence : ℕ) : (s.put sequence).Accounted known := by
  unfold EventLoop.put
  split
  · exact h
  · next queued hfind =>
    split
    · next queue hput =>
      obtain ⟨-, -, rfl⟩ := (SeasonEventQueue.putNowait_eq_ok_iff _).mp hput
      refine h.grow (h.accounts.perm ?_) [] rfl rfl rfl (fun _ hr => absurd hr not_mem_nil)
      have hrow := receipts_putRow s.queue queued
      have hproducers := (perm_cons_erase (mem_of_find?_eq_some hfind)).map receiptOf
      have hmoved := (hproducers.append_right (s.queue.queue.map fun row => receiptOf row.toQueuedEvent)).trans
        (perm_middle.symm.trans (hrow.symm.append_left ((s.producers.erase queued).map receiptOf)))
      exact hmoved.append_right s.phase.unsettled
    · exact h

theorem accounted_cancelProducer (h : s.Accounted known) (sequence : ℕ) : (s.cancelProducer sequence).Accounted known := by
  unfold EventLoop.cancelProducer
  split
  · exact h
  · next queued hfind =>
    have hproducers := (perm_cons_erase (mem_of_find?_eq_some hfind)).map receiptOf
    have hrest : s.inHand.Perm ([receiptOf queued] ++ ((s.producers.erase queued).map receiptOf ++
        (s.queue.queue.map fun row => receiptOf row.toQueuedEvent) ++ s.phase.unsettled)) := by
      unfold EventLoop.inHand
      rw [append_assoc, append_assoc]
      exact hproducers.append_right _
    have hsettled := (h.accounts.perm hrest).settle .givenUp (fun _ _ => trivial)
    refine h.grow hsettled [.settled (receiptOf queued) .givenUp] rfl rfl rfl ?_
    intro r hr
    simp at hr

theorem accounted_queue {queue : SeasonEventQueue MarketEvent} (h : s.Accounted known)
    (hperm : (queue.queue.map fun row => receiptOf row.toQueuedEvent).Perm
      (s.queue.queue.map fun row => receiptOf row.toQueuedEvent)) : ({ s with queue } : EventLoop).Accounted known := by
  refine h.grow (h.accounts.perm ?_) [] rfl rfl rfl (fun _ hr => absurd hr not_mem_nil)
  exact (hperm.symm.append_left _).append_right _

theorem receipts_unparked (queue : SeasonEventQueue MarketEvent) :
    (queue.unparked.map fun row => receiptOf row.toQueuedEvent).Perm
      (queue.queue.map fun row => receiptOf row.toQueuedEvent) := by
  refine ((perm_insertionSort _ _).map _).trans ?_
  rw [map_map]
  exact Perm.refl _

theorem receipts_promoteMint (queue : SeasonEventQueue MarketEvent) (mint : String) :
    ((queue.promoteMint MarketEvent.mint mint).1.queue.map fun row => receiptOf row.toQueuedEvent).Perm
      (queue.queue.map fun row => receiptOf row.toQueuedEvent) := by
  refine ((perm_insertionSort _ _).map _).trans ?_
  rw [map_map]
  refine Perm.of_eq (map_congr_left fun row _ => ?_)
  dsimp only [Function.comp, SeasonEventQueue.promoteRow]
  split_ifs <;> rfl

theorem accounted_memories {memories : Memories} (h : s.Accounted known) (entries : List Entry)
    (hadmitted : admittedOf entries = []) (hsettled : settledOf entries = [])
    (hstored : ∀ e ∈ memories.marketEvents, e ∈ s.memories.marketEvents ∨ Known known (entries ++ s.log) e.eventId)
    (hephemeral : memories.ephemeralEventIds = s.memories.ephemeralEventIds) :
    ({ s with memories, log := entries ++ s.log } : EventLoop).Accounted known := by
  refine ⟨h.accounts.push _ hadmitted hsettled, h.knowledge.mono entries hstored ?_, ?_⟩
  · intro id hid
    rwa [hephemeral] at hid
  · intro r hr
    rcases mem_append.mp hr with hnow | hbefore
    · have hmem : r ∈ settledOf entries := mem_settledOf.mpr ⟨_, hnow⟩
      rw [hsettled] at hmem
      exact absurd hmem not_mem_nil
    · exact h.cancelled r hbefore

theorem accounted_store (h : s.Accounted known) (event : MarketEvent) :
    (s.step (.store event)).Accounted known := by
  refine accounted_memories h [.stored event.eventId] rfl rfl ?_ (insertOrIgnore_ephemeral ..)
  intro e he
  rcases insertOrIgnore_stored he with he | ⟨rfl, -⟩
  · exact .inl he
  · exact .inr (.inr (.inl mem_cons_self))

theorem accounted_cleanup (h : s.Accounted known) (rawTradeBefore : ℤ) (limit : ℕ) :
    (s.step (.cleanup rawTradeBefore limit)).Accounted known := by
  have herase (ids : List String) (t : Table String MarketEvent MarketEvent.eventId) :
      ∀ e ∈ ids.foldl Table.erase t, e ∈ t := by
    induction ids generalizing t with
    | nil => exact fun _ he => he
    | cons id ids ih => exact fun e he => (Table.mem_erase.mp (ih _ e he)).1
  exact accounted_memories h [] rfl rfl (fun e he => .inl (herase _ _ e he)) rfl

/-! ### Every step -/

theorem accounted_finish {cancelled : Bool} (h : s.Accounted known) (ht : s.Tallied)
    (hphase : s.phase = .inFlight batch (.closing cancelled)) : (s.finish batch cancelled).Accounted known := by
  have haccounts := h.accounts
  have hknowledge := h.knowledge
  have hcancelled := h.cancelled
  unfold EventLoop.Tallied at ht
  unfold EventLoop.inHand at haccounts
  rw [hphase] at haccounts hknowledge hcancelled ht
  obtain ⟨queue', hfinish, hqueue, -⟩ := ht.finish
  rw [← hqueue] at haccounts
  have hdone : Knowledge known s.log s.memories [] [] [] [] [] [] :=
    ⟨(fun _ hq => absurd hq not_mem_nil), (fun _ hr => absurd hr not_mem_nil), hknowledge.durable,
      (fun _ hid => absurd hid not_mem_nil), hknowledge.handled, hknowledge.ofTurn, hknowledge.stored,
      hknowledge.ephemeral⟩
  unfold EventLoop.finish
  dsimp only [Phase.batch] at hfinish
  rw [hfinish]
  cases cancelled with
  | false => exact ⟨haccounts, hdone, hcancelled⟩
  | true => exact ⟨haccounts, hdone, fun _ _ => rfl⟩

theorem EventLoop.Accounted.ready_idle (h : s.Accounted known) (hphase : s.phase = .idle) :
    s.Ready known [] [] [] [] [] [] := by
  have haccounts := h.accounts
  have hknowledge := h.knowledge
  unfold EventLoop.inHand at haccounts
  rw [hphase] at haccounts hknowledge
  refine ⟨haccounts, hknowledge, ?_⟩
  intro r hr
  have hcancelled := h.cancelled r hr
  rw [hphase] at hcancelled
  cases hcancelled

theorem accounted_step {a : LoopAction} (h : s.Accounted known) (ht : s.Tallied) : (s.step a).Accounted known := by
  unfold EventLoop.step
  split
  next => exact accounted_enqueueEvent h _ _ _
  next => exact accounted_put h _
  next => exact accounted_cancelProducer h _
  next hphase =>
    split
    · exact h
    · next item queue hget => exact ((h.ready_idle hphase).take (takes_getNowait hget)).goOn
  next world batch hphase =>
    have htake := (h.ready hphase (by rw [hphase]; rfl)).take (takeItems_spec (fun _ _ _ hget => hget)
      (s.settings.eventBatchSize - batch.length) s.queue).1
    rw [← map_append] at htake
    exact accounted_begin htake world
  next result batch world hphase =>
    have hready := h.ready hphase (by rw [hphase]; rfl)
    exact accounted_persist hready (ofBatch_durableEvents hready) (accounted_persisted hready) result
  next world revised batch b hphase => exact accounted_turn (h.ready hphase (by rw [hphase]; rfl)) world revised
  next laterWorld result batch world b urgent hphase =>
    have hready := h.ready hphase (by rw [hphase]; rfl)
    exact accounted_persist hready (ofBatch_urgentEvents hready world) (accounted_prefetched hready world laterWorld) result
  next world result batch b q hphase =>
    have hready := h.ready hphase (by rw [hphase]; rfl)
    refine accounted_persist hready ?_ (accounted_appended hready world) result
    intro event hevent
    obtain ⟨q', hq', heq⟩ := hready.knowledge.ofLeft q.receipt mem_cons_self
    rw [mem_singleton.mp hevent]
    exact ⟨q', hq', congrArg Receipt.event heq⟩
  next batch b hphase =>
    have hready := h.ready hphase (by rw [hphase]; rfl)
    exact EventLoop.Ready.goOn hready
  next hphase => exact (h.ready hphase (by rw [hphase]; rfl)).fail _
  next hphase => exact accounted_finish h ht hphase
  next hphase =>
    have hready := h.ready_idle hphase
    exact ⟨hready.accounts, hready.knowledge, fun _ _ => rfl⟩
  next hphase => exact (h.ready hphase (by rw [hphase]; rfl)).cancel
  next hphase => exact (h.ready hphase (by rw [hphase]; rfl)).cancel
  next hphase => exact (h.ready hphase (by rw [hphase]; rfl)).cancel
  next batch _ hphase =>
    have haccounts := h.accounts
    have hknowledge := h.knowledge
    unfold EventLoop.inHand at haccounts
    rw [hphase] at haccounts hknowledge
    exact ⟨haccounts, hknowledge, fun _ _ => rfl⟩
  next => exact accounted_queue h (receipts_promoteMint ..)
  next =>
    unfold SeasonEventQueue.beginBoundary
    split
    · exact h
    · exact accounted_queue h (receipts_unparked _)
  next => exact accounted_queue h (receipts_unparked _)
  next => exact accounted_store h _
  next => exact accounted_cleanup h _ _
  next => exact ⟨h.accounts, h.knowledge, h.cancelled⟩
  next => exact h

/-! ### Every run -/

/-- The accounts are balanced, and the calls of the queue fit them. -/
structure EventLoop.Accountable (known : List String) (s : EventLoop) : Prop where
  /-- The calls of `task_done` have retired what was taken, one by one, but for the batch in flight. -/
  completed : s.taken.Nodup ∧ s.taken.map some = s.taskDones ++ s.phase.batch.map fun q => some q.sequence
  unfinished : s.queue.dequeuedSequences = s.phase.batch.map sequence ∧
    s.queue.dequeuedSequences.length ≤ 2 * s.settings.eventBatchSize
  /-- Admitted is what is in hand and what is settled, and nothing is there twice. -/
  once : ((admittedOf s.log).map Receipt.sequence).Nodup ∧ (admittedOf s.log).Perm (s.inHand ++ settledOf s.log)
  committed : ∀ r world, .settled r (.handled world) ∈ s.log →
    durableEvent r.event (world.eventPriority r.event) = true →
      After s.log (.committed r.event.eventId) (.settled r (.handled world))
  excused : ∀ r, .admitted r ∈ s.log → r ∉ s.inHand → (∀ world, .settled r (.handled world) ∉ s.log) →
    Repeats known s.log r ∨ (∃ world, world.terminalTradedEvent r.event = true ∧ .settled r (.retired world) ∈ s.log) ∨
      Missed s.log r ∨ .settled r .givenUp ∈ s.log ∨ .settled r .cancelled ∈ s.log ∧ s.phase.cancelled = true

/-- All of it together. -/
theorem EventLoop.Accounted.accountable (h : s.Accounted known) (ht : s.Tallied) (hw : s.phase.Within s.settings) :
    s.Accountable known := by
  refine ⟨⟨?_, ?_⟩, ⟨ht.dequeued, ?_⟩, ⟨h.accounts.nodup, h.accounts.balanced⟩, ?_, ?_⟩
  · exact (nodup_append.mp ht.nodup).1
  · rw [ht.completed, ht.dequeued, map_map]
    rfl
  · rw [ht.dequeued, length_map]
    exact hw.length_le
  · intro r world hsettled
    exact h.accounts.excused r (.handled world) hsettled
  · intro r hadmitted hnot hhandled
    have hmem := h.accounts.balanced.mem_iff.mp (mem_admittedOf.mpr hadmitted)
    obtain ⟨outcome, hsettled⟩ := mem_settledOf.mp ((mem_append.mp hmem).resolve_left hnot)
    have hexcused := h.accounts.excused r outcome hsettled
    cases outcome with
    | handled world => exact absurd hsettled (hhandled world)
    | repeated => exact .inl hexcused
    | retired world => exact .inr (.inl ⟨world, hexcused, hsettled⟩)
    | expired | shed | failed => exact .inr (.inr (.inl hexcused))
    | givenUp => exact .inr (.inr (.inr (.inl hsettled)))
    | cancelled => exact .inr (.inr (.inr (.inr ⟨hsettled, h.cancelled r hsettled⟩)))

/-- An empty queue, and a database with some events. -/
def EventLoop.start (settings : WorkerSettings) (maxsize : ℕ)
    (marketEvents : Table String MarketEvent MarketEvent.eventId) (window : IntegrityWindow) : EventLoop :=
  { settings, queue := { maxsize }, memories := { marketEvents }, window }

theorem accounted_start (settings : WorkerSettings) (maxsize : ℕ)
    (marketEvents : Table String MarketEvent MarketEvent.eventId) (window : IntegrityWindow) :
    (EventLoop.start settings maxsize marketEvents window).Accounted (marketEvents.rows.map MarketEvent.eventId) := by
  have hnone {α : Type} {p : α → Prop} : ∀ a ∈ ([] : List α), p a := fun _ ha => absurd ha not_mem_nil
  refine ⟨⟨Perm.nil, nodup_nil, hnone, ?_⟩, ⟨hnone, hnone, hnone, hnone, hnone, hnone, ?_, hnone⟩, ?_⟩
  · exact fun r outcome hmem => absurd hmem not_mem_nil
  · exact fun e he => .inl (.inl (mem_map_of_mem he))
  · exact fun r hmem => absurd hmem not_mem_nil

theorem tallied_start (settings : WorkerSettings) (maxsize : ℕ)
    (marketEvents : Table String MarketEvent MarketEvent.eventId) (window : IntegrityWindow) :
    (EventLoop.start settings maxsize marketEvents window).Tallied :=
  ⟨nodup_nil, (fun _ hn => absurd hn not_mem_nil), rfl, rfl, rfl⟩

/-- What holds between two steps. -/
structure EventLoop.Sound (known : List String) (s : EventLoop) : Prop where
  accounted : s.Accounted known
  tallied : s.Tallied
  within : s.phase.Within s.settings
  batchSize : 1 ≤ s.settings.eventBatchSize

theorem EventLoop.Sound.step (h : s.Sound known) (a : LoopAction) : (s.step a).Sound known := by
  refine ⟨accounted_step h.accounted h.tallied, tallied_step h.tallied, ?_, ?_⟩
  · rw [settings_step]
    exact within_step h.within h.batchSize
  · rw [settings_step]
    exact h.batchSize

/-- **Every admitted event is accounted for**, in every run of producers, worker and everything around them. -/
theorem every_event_accounted (settings : WorkerSettings) (hsize : 10 ≤ settings.eventBatchSize) (maxsize : ℕ)
    (marketEvents : Table String MarketEvent MarketEvent.eventId) (window : IntegrityWindow) (actions : List LoopAction) :
    (run EventLoop.step (.start settings maxsize marketEvents window) actions).Accountable
      (marketEvents.rows.map MarketEvent.eventId) := by
  have hstart : (EventLoop.start settings maxsize marketEvents window).Sound
      (marketEvents.rows.map MarketEvent.eventId) :=
    ⟨accounted_start settings maxsize marketEvents window, tallied_start settings maxsize marketEvents window, trivial,
      le_trans (by decide) hsize⟩
  have hend : (run EventLoop.step (.start settings maxsize marketEvents window) actions).Sound
      (marketEvents.rows.map MarketEvent.eventId) := run_invariant hstart fun _ a h => h.step a
  exact hend.accounted.accountable hend.tallied hend.within

/-- A trade that comes twice. -/
def twice : List LoopAction :=
  let tick : MarketEvent := ⟨"tick", .trade, some "A", none, 0⟩
  [.enqueueEvent quietWorld false tick, .enqueueEvent quietWorld false tick, .get, .fill quietWorld,
    .turn quietWorld false, .handlerReturns, .turn quietWorld false, .turn quietWorld false, .finish]

/-- A window without gaps. -/
def cleanStart : IntegrityWindow := { demoMode := false, maxGapMints := 10, lastStreamReconnects := 0 }

/-- The trade that comes twice is settled twice. -/
theorem every_event_accounted_twice :
    let s := run EventLoop.step (.start ⟨10, 100, 60⟩ 100 .empty cleanStart) twice;
    ((settledOf s.log).map Receipt.sequence = [2, 1] ∧ s.taskDones = [some 1, some 2]) ∧ s.Accountable [] :=
  ⟨by decide +kernel, every_event_accounted ⟨10, 100, 60⟩ (by decide) 100 .empty cleanStart twice⟩

end SignalArcade.Market
