import SignalArcade.Market.EventWorker

/-!
# What the event worker hands on
-/

namespace SignalArcade.Market

open Runs List

/-- The worker, with the identifiers that were handled, and those that were remembered as ephemeral, the
last ones first. -/
structure WorkerLog where
  worker : Worker
  handled : List String := []
  remembered : List String := []

def Worker.remembers (w : Worker) (turn : Turn) : Option String :=
  (w.decision turn).bind fun d =>
    if d.batch.route w.settings turn.laterWorld d.event = .ephemeral then some d.event.eventId else none

def WorkerLog.step (s : WorkerLog) (a : WorkerAction) : WorkerLog where
  worker := (s.worker.step a).2
  handled := ((s.worker.step a).1.map MarketEvent.eventId).toList ++ s.handled
  remembered :=
    match a with
    | .turn turn => (s.worker.remembers turn).toList ++ s.remembered
    | .take .. | .fail | .cleanup .. => s.remembered

/-- The database has the events that were handled before, of those that are to be persisted. -/
def WorkerLog.Persisted (s : WorkerLog) (m : Memories) (events : List MarketEvent) : Prop :=
  ∀ event ∈ events, event.eventId ∈ s.handled → m.persisted event.eventId = true

instance (s : WorkerLog) (m : Memories) (events : List MarketEvent) : Decidable (s.Persisted m events) :=
  inferInstanceAs (Decidable (∀ event ∈ events, _ → _))

/-- An identifier was remembered as ephemeral, and there was room for all that came since. -/
def WorkerLog.Remembered (s : WorkerLog) (eventId : String) : Prop :=
  eventId ∈ s.remembered ∧
    (Recent.since s.remembered eventId).dedup.length < s.worker.settings.maxEphemeralEventIds

instance (s : WorkerLog) (eventId : String) : Decidable (s.Remembered eventId) := inferInstanceAs (Decidable (_ ∧ _))

/-- The memory that is asked about an event at its turn has it, if it was handled before. -/
def WorkerLog.Known (s : WorkerLog) (d : Decision) (world : World) : Prop :=
  match d.batch.route s.worker.settings world d.event with
  | .skip | .persisted => True
  | .persist => s.Persisted d.memories [d.event]
  | .ephemeral => d.event.eventId ∈ s.handled → s.Remembered d.event.eventId

instance (s : WorkerLog) (d : Decision) (world : World) : Decidable (s.Known d world) := by
  unfold WorkerLog.Known
  split <;> infer_instance

/-- The memory that is asked about a copy of a handled event has it. -/
def WorkerLog.KnowsHandled (s : WorkerLog) : WorkerAction → Prop
  | .take world batch => s.worker.batch = none → s.Persisted s.worker.memories (durableEvents world batch)
  | .turn turn =>
    (∀ b ∈ s.worker.batch, s.Persisted s.worker.memories (s.worker.urgentEvents b turn)) ∧
      ∀ d ∈ s.worker.decision turn, s.Known d turn.laterWorld
  | .fail | .cleanup .. => True

/-! ### The memories -/

variable {m : Memories} {event : MarketEvent} {events : List MarketEvent} {eventId : String}

theorem persisted_eq_false : m.persisted eventId = false ↔ ∀ e ∈ m.marketEvents, e.eventId ≠ eventId := by
  unfold Memories.persisted
  rw [Option.isSome_eq_false_iff, Option.isNone_iff_eq_none, Table.get?_eq_none]

theorem insertOrIgnore_new (h : (m.insertOrIgnore event).1 = true) : m.persisted event.eventId = false := by
  unfold Memories.insertOrIgnore at h
  cases hinsert : m.marketEvents.insert? event with
  | none => simp [hinsert] at h
  | some marketEvents => exact persisted_eq_false.mpr (Table.insert?_eq_some hinsert).1

theorem insertOrIgnore_persisted (h : (m.insertOrIgnore event).2.persisted eventId = false) :
    m.persisted eventId = false := by
  unfold Memories.insertOrIgnore at h
  cases hinsert : m.marketEvents.insert? event with
  | none => simpa [hinsert] using h
  | some marketEvents =>
    rw [hinsert, persisted_eq_false] at h
    refine persisted_eq_false.mpr fun e he => h e ?_
    change e ∈ marketEvents.rows
    rw [(Table.insert?_eq_some hinsert).2]
    exact mem_append_left _ he

@[simp] theorem insertOrIgnore_ephemeral (m : Memories) (event : MarketEvent) :
    (m.insertOrIgnore event).2.ephemeralEventIds = m.ephemeralEventIds := by
  unfold Memories.insertOrIgnore
  split <;> rfl

theorem appendEvents_new (h : eventId ∈ (m.appendEvents events).1) :
    (∃ event ∈ events, event.eventId = eventId) ∧ m.persisted eventId = false := by
  induction events generalizing m with
  | nil => exact absurd h not_mem_nil
  | cons event events ih =>
    have hlater (h : eventId ∈ ((m.insertOrIgnore event).2.appendEvents events).1) :
        (∃ e ∈ event :: events, e.eventId = eventId) ∧ m.persisted eventId = false := by
      obtain ⟨⟨e, he, hid⟩, hnew⟩ := ih h
      exact ⟨⟨e, mem_cons_of_mem event he, hid⟩, insertOrIgnore_persisted hnew⟩
    unfold Memories.appendEvents at h
    dsimp only at h
    split_ifs at h with hnew
    · rcases mem_cons.mp h with rfl | h
      · exact ⟨⟨event, mem_cons_self, rfl⟩, insertOrIgnore_new hnew⟩
      · exact hlater h
    · exact hlater h

@[simp] theorem appendEvents_ephemeral (m : Memories) (events : List MarketEvent) :
    (m.appendEvents events).2.ephemeralEventIds = m.ephemeralEventIds := by
  induction events generalizing m with
  | nil => rfl
  | cons event events ih =>
    exact (ih (m.insertOrIgnore event).2).trans (insertOrIgnore_ephemeral m event)

theorem WorkerLog.Persisted.not_handled {s : WorkerLog} (h : s.Persisted m events)
    (hinserted : eventId ∈ (m.appendEvents events).1) : eventId ∉ s.handled := by
  obtain ⟨⟨event, hevent, rfl⟩, hnew⟩ := appendEvents_new hinserted
  intro hhandled
  rw [h event hevent hhandled] at hnew
  cases hnew

/-! ### One turn -/

/-- What holds between two actions. -/
structure WorkerLog.Once (s : WorkerLog) : Prop where
  nodup : s.handled.Nodup
  /-- What the batch in flight has inserted is not handled, but by the batch itself. -/
  inserted : ∀ b ∈ s.worker.batch, ∀ eventId ∈ b.inserted, eventId ∈ s.handled → eventId ∈ b.handledIds
  ephemeral : s.worker.memories.ephemeralEventIds.Holds s.worker.settings.maxEphemeralEventIds s.remembered

variable {s : WorkerLog} {b : Batch} {d : Decision} {turn : Turn} {world : World}

theorem next_ids {q : QueuedEvent} {b' : Batch} (h : b.next world = some (q, b')) :
    b'.inserted = b.inserted ∧ b'.handledIds = b.handledIds := by
  unfold Batch.next at h
  split at h
  · cases h
  · cases h
    exact ⟨rfl, rfl⟩
  · cases h
    exact ⟨rfl, rfl⟩
  · split_ifs at h <;> cases h <;> exact ⟨rfl, rfl⟩

theorem decision_spec (h : s.worker.decision turn = some d) (hs : s.Once) (hknows : s.KnowsHandled (.turn turn)) :
    (∀ eventId ∈ d.batch.inserted, eventId ∈ s.handled → eventId ∈ d.batch.handledIds) ∧
      d.memories.ephemeralEventIds = s.worker.memories.ephemeralEventIds := by
  unfold Worker.decision at h
  obtain ⟨b, hb, hd⟩ := Option.bind_eq_some_iff.mp h
  obtain ⟨⟨q, b'⟩, hnext, rfl⟩ := Option.map_eq_some_iff.mp hd
  obtain ⟨hinserted, hhandledIds⟩ := next_ids hnext
  have hsorted : (b.sorted turn).inserted = b.inserted ∧ (b.sorted turn).handledIds = b.handledIds := by
    unfold Batch.sorted
    split_ifs <;> exact ⟨rfl, rfl⟩
  refine ⟨fun eventId hmem hhandled => ?_, appendEvents_ephemeral _ _⟩
  rw [hhandledIds]
  rw [hinserted] at hmem
  change eventId ∈ (b.sorted turn).handledIds
  rw [hsorted.2]
  rcases mem_append.mp hmem with hbefore | hurgent
  · exact hs.inserted b hb eventId (hsorted.1 ▸ hbefore) hhandled
  · exact absurd hhandled ((hknows.1 b hb).not_handled hurgent)

theorem admit_spec (hinserted : ∀ eventId ∈ d.batch.inserted, eventId ∈ s.handled → eventId ∈ d.batch.handledIds)
    (hephemeral : d.memories.ephemeralEventIds = s.worker.memories.ephemeralEventIds) (hs : s.Once)
    (hknown : s.Known d world)
    (hadmitted : (d.memories.admitEvent s.worker.settings d.batch world d.event).1 = true) :
    d.event.eventId ∉ s.handled := by
  intro hhandled
  unfold WorkerLog.Known at hknown
  unfold Memories.admitEvent at hadmitted
  cases hroute : d.batch.route s.worker.settings world d.event with
  | skip => simp [hroute] at hadmitted
  | persisted =>
    simp only [hroute] at hadmitted
    have hmem := hinserted d.event.eventId (contains_iff_mem.mp hadmitted) hhandled
    unfold Batch.route at hroute
    rw [if_pos (contains_iff_mem.mpr hmem)] at hroute
    cases hroute
  | persist =>
    simp only [hroute] at hadmitted hknown
    have hnew := insertOrIgnore_new hadmitted
    rw [hknown d.event (mem_singleton_self _) hhandled] at hnew
    cases hnew
  | ephemeral =>
    simp only [hroute] at hadmitted hknown
    obtain ⟨hmem, hfew⟩ := hknown hhandled
    have hthere := hs.ephemeral.mem_of_few hmem hfew
    rw [← hephemeral] at hthere
    simp [Memories.rememberEphemeralEvent, hthere] at hadmitted

theorem maxEphemeralEventIds_pos (settings : WorkerSettings) : 0 < settings.maxEphemeralEventIds :=
  lt_of_lt_of_le (by decide) (le_max_left 10000 _)

theorem admit_ephemeral (settings : WorkerSettings) (d : Decision) (world : World) {history : List String}
    (h : d.memories.ephemeralEventIds.Holds settings.maxEphemeralEventIds history) :
    (d.memories.admitEvent settings d.batch world d.event).2.ephemeralEventIds.Holds settings.maxEphemeralEventIds
      ((if d.batch.route settings world d.event = .ephemeral then some d.event.eventId else none).toList ++ history) := by
  unfold Memories.admitEvent
  cases hroute : d.batch.route settings world d.event with
  | skip | persisted => exact h
  | persist =>
    rw [← insertOrIgnore_ephemeral d.memories d.event] at h
    exact h
  | ephemeral => exact h.remember (maxEphemeralEventIds_pos settings) d.event.eventId

theorem once_turn (hs : s.Once) (hknows : s.KnowsHandled (.turn turn)) : (s.step (.turn turn)).Once := by
  cases hd : s.worker.decision turn with
  | none =>
    have hstep : s.step (.turn turn) = { s with worker := { s.worker with batch := none } } := by
      simp [WorkerLog.step, Worker.step, Worker.remembers, hd]
    rw [hstep]
    exact ⟨hs.nodup, (fun b hb => by cases hb), hs.ephemeral⟩
  | some d =>
    obtain ⟨hinserted, hephemeral⟩ := decision_spec hd hs hknows
    have hnew := admit_spec hinserted hephemeral hs (hknows.2 d hd)
    have hmemory := admit_ephemeral s.worker.settings d turn.laterWorld (hephemeral ▸ hs.ephemeral)
    have hstep : s.step (.turn turn) =
        ⟨{ s.worker with
            memories := (d.memories.admitEvent s.worker.settings d.batch turn.laterWorld d.event).2
            batch := some { d.batch with handledIds := d.batch.handledIds.insert d.event.eventId } },
          (if (d.memories.admitEvent s.worker.settings d.batch turn.laterWorld d.event).1 then [d.event.eventId] else []) ++
            s.handled,
          (if d.batch.route s.worker.settings turn.laterWorld d.event = .ephemeral then some d.event.eventId
            else none).toList ++ s.remembered⟩ := by
      simp only [WorkerLog.step, Worker.step, Worker.remembers, hd, Option.bind_some]
      split_ifs <;> rfl
    rw [hstep]
    refine ⟨?_, ?_, hmemory⟩
    · dsimp only
      split_ifs with hadmitted
      · exact nodup_cons.mpr ⟨hnew hadmitted, hs.nodup⟩
      · exact hs.nodup
    · rintro b ⟨⟩ eventId hmem hhandled
      refine mem_insert_iff.mpr ?_
      rcases mem_append.mp hhandled with hnow | hbefore
      · split_ifs at hnow
        · exact .inl (mem_singleton.mp hnow)
        · exact absurd hnow not_mem_nil
      · exact .inr (hinserted eventId hmem hbefore)

/-- A step handles nothing again. -/
theorem once_step (hs : s.Once) {a : WorkerAction} (hknows : s.KnowsHandled a) : (s.step a).Once := by
  cases a with
  | turn turn => exact once_turn hs hknows
  | fail => exact ⟨hs.nodup, (fun b hb => by cases hb), hs.ephemeral⟩
  | cleanup rawTradeBefore limit => exact ⟨hs.nodup, hs.inserted, hs.ephemeral⟩
  | take world batch =>
    cases hb : s.worker.batch with
    | some b =>
      have hstep : s.step (.take world batch) = s := by simp [WorkerLog.step, Worker.step, hb]
      rwa [hstep]
    | none =>
      have hstep : s.step (.take world batch) =
          ⟨{ s.worker with
              memories := (s.worker.memories.begin world batch).1
              batch := some (s.worker.memories.begin world batch).2 }, s.handled, s.remembered⟩ := by
        simp [WorkerLog.step, Worker.step, hb]
      rw [hstep]
      refine ⟨hs.nodup, ?_, ?_⟩
      · rintro b ⟨⟩ eventId hmem hhandled
        exact absurd hhandled ((hknows hb).not_handled hmem)
      · have hephemeral := appendEvents_ephemeral s.worker.memories (durableEvents world batch)
        exact hephemeral ▸ hs.ephemeral

def WorkerLog.start (settings : WorkerSettings) (marketEvents : Table String MarketEvent MarketEvent.eventId) :
    WorkerLog := ⟨{ settings, memories := { marketEvents } }, [], []⟩

/-- **Every event is handled at most once**, in every run in which the memory that is asked about a copy of a
handled event has it. -/
theorem handled_at_most_once (settings : WorkerSettings) (marketEvents : Table String MarketEvent MarketEvent.eventId)
    (actions : List WorkerAction)
    (h : Along WorkerLog.step WorkerLog.KnowsHandled (.start settings marketEvents) actions) :
    (run WorkerLog.step (.start settings marketEvents) actions).handled.Nodup :=
  (h.invariant (I := WorkerLog.Once) ⟨nodup_nil, (fun b hb => by cases hb), Recent.holds_empty _⟩
    fun _ _ hs hknows => once_step hs hknows).nodup

instance (s : WorkerLog) : (a : WorkerAction) → Decidable (s.KnowsHandled a)
  | .take world batch =>
    inferInstanceAs (Decidable (s.worker.batch = none → s.Persisted s.worker.memories (durableEvents world batch)))
  | .turn turn => inferInstanceAs (Decidable (
      (∀ b ∈ s.worker.batch, s.Persisted s.worker.memories (s.worker.urgentEvents b turn)) ∧
        ∀ d ∈ s.worker.decision turn, s.Known d turn.laterWorld))
  | .fail | .cleanup .. => inferInstanceAs (Decidable True)

/-- Nobody waits for any trade. -/
def quietWorld : World := ⟨0, fun _ => false, fun _ _ => none, fun _ => false⟩

def heldWorld : World := { quietWorld with criticalEvent := fun _ => true }

/-- A batch of one trade is taken and worked off. -/
def workOff (world : World) (eventId : String) (sequence : ℕ) : List WorkerAction :=
  let turn := .turn { world, laterWorld := world }
  [.take world [⟨2, sequence, ⟨eventId, .trade, some "A", none, 0⟩⟩], turn, turn]

/-- A worker without events. -/
def emptyWorker : WorkerLog := .start ⟨10, 100, 60⟩ .empty

/-- Two copies of an ephemeral trade, and two of one that is kept. -/
def copies : List WorkerAction :=
  workOff quietWorld "tick" 1 ++ workOff quietWorld "tick" 2 ++ workOff heldWorld "fill" 3 ++ workOff heldWorld "fill" 4

/-- Of two copies one is handled. -/
theorem handled_at_most_once_copies :
    (run WorkerLog.step emptyWorker copies).handled = ["fill", "tick"] ∧
      (run WorkerLog.step emptyWorker copies).handled.Nodup :=
  ⟨by decide +kernel, handled_at_most_once ⟨10, 100, 60⟩ .empty copies (by decide +kernel)⟩

/-- **An event is handled twice** when its priority changes between two copies, either way. -/
theorem handled_twice :
    let ephemeralFirst := run WorkerLog.step emptyWorker (workOff quietWorld "tick" 1 ++ workOff heldWorld "tick" 2)
    let durableFirst := run WorkerLog.step emptyWorker (workOff heldWorld "tick" 1 ++ workOff quietWorld "tick" 2)
    ¬ ephemeralFirst.handled.Nodup ∧ ¬ durableFirst.handled.Nodup ∧
      ephemeralFirst.remembered.length ≤ 1 ∧ durableFirst.remembered.length ≤ 1 := by
  decide +kernel

end SignalArcade.Market
