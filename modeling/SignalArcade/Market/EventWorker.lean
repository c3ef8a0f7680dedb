import SignalArcade.Lib.Recent
import SignalArcade.Market.EventOrder
import Mathlib.Data.List.Sort

/-!
# The event worker

The loop that takes market events from the queue in batches and hands them on. An event that
is to be kept is written to the database, which ignores an identifier it has; a trade that
nobody waits for is ephemeral, and only its identifier is remembered, in a memory of bounded
size. Which of the two happens to a copy of an event depends on its priority at that time.
-/

namespace SignalArcade.Market

open Runs

/-! ### What the worker asks -/

/-- The settings of the worker. -/
structure WorkerSettings where
  eventBatchSize : ℕ
  eventQueueMax : ℕ
  staleMarketSeconds : ℤ

def WorkerSettings.maxEphemeralEventIds (settings : WorkerSettings) : ℕ := max 10000 (settings.eventQueueMax * 4)

def urgentPersistBatchSize : ℕ := 16

/-- What positions, orders, learning and the clock say at a moment. -/
structure World where
  now : ℤ
  criticalEvent : MarketEvent → Bool
  pendingEventPriority : String → ℤ → Option ℕ
  /-- The token was traded in the season, and nothing waits for it any more. -/
  traded : String → Bool

def World.eventPriority (world : World) (event : MarketEvent) : ℕ :=
  if world.criticalEvent event then 0
  else match world.pendingEventPriority (event.mint.getD "") event.receivedAt with
    | some priority => priority
    | none => if event.kind ≠ .trade then 1 else 2

def World.terminalTradedEvent (world : World) (event : MarketEvent) : Bool :=
  event.kind = .trade && world.traded (event.mint.getD "")

def World.expiredCandidateEvent (settings : WorkerSettings) (world : World) (priority : ℕ) (event : MarketEvent) : Bool :=
  if priority < 2 || event.kind ≠ .trade then false
  else settings.staleMarketSeconds * 1000000 < max 0 (world.now - event.receivedAt)

def durableEvent (event : MarketEvent) (priority : ℕ) : Bool := event.kind ≠ .trade || priority < 2

/-! ### The two memories -/

/-- Where the worker looks for an identifier. -/
structure Memories where
  marketEvents : Table String MarketEvent MarketEvent.eventId := .empty
  ephemeralEventIds : Recent String := .empty

/-- The database has an event of that identifier. -/
def Memories.persisted (m : Memories) (eventId : String) : Bool := (m.marketEvents.get? eventId).isSome

/-- `INSERT OR IGNORE`: whether it inserts. -/
def Memories.insertOrIgnore (m : Memories) (event : MarketEvent) : Bool × Memories :=
  match m.marketEvents.insert? event with
  | none => (false, m)
  | some marketEvents => (true, { m with marketEvents })

/-- `append_events`: the identifiers that are new. -/
def Memories.appendEvents (m : Memories) : List MarketEvent → List String × Memories
  | [] => ([], m)
  | event :: events =>
    let (isNew, m) := m.insertOrIgnore event
    let (inserted, m) := m.appendEvents events
    (if isNew then event.eventId :: inserted else inserted, m)

def Memories.rememberEphemeralEvent (settings : WorkerSettings) (m : Memories) (eventId : String) : Bool × Memories :=
  let (isNew, ephemeralEventIds) := m.ephemeralEventIds.remember settings.maxEphemeralEventIds eventId
  (isNew, { m with ephemeralEventIds })

/-- Raw trades age out: those received before a time are deleted, the oldest first. -/
def Memories.cleanup (m : Memories) (rawTradeBefore : ℤ) (limit : ℕ) : Memories :=
  let old := ((m.marketEvents.rows.filter fun event => event.kind = .trade && event.receivedAt < rawTradeBefore).insertionSort
    fun event event' => event.receivedAt ≤ event'.receivedAt).take limit
  { m with marketEvents := (old.map MarketEvent.eventId).foldl Table.erase m.marketEvents }

/-! ### A batch -/

/-- An event with its priority and its enqueue sequence. -/
structure QueuedEvent where
  priority : ℕ
  sequence : ℕ
  event : MarketEvent

/-- The order of a batch. -/
def QueuedEvent.before (q q' : QueuedEvent) : Prop :=
  q.priority < q'.priority ∨ q.priority = q'.priority ∧ q.sequence ≤ q'.sequence

instance : DecidableRel QueuedEvent.before := fun _ _ => inferInstanceAs (Decidable (_ ∨ _ ∧ _))

/-- What the loop over a batch works on. -/
structure Batch where
  remaining : List QueuedEvent
  urgentBuffer : List QueuedEvent := []
  urgentArrivals : ℕ := 0
  durableIds : List String := []
  /-- The identifiers this batch has inserted. -/
  inserted : List String := []
  handledIds : List String := []

/-- The batch with the priorities of now, without what has nothing to do any more. -/
def workingBatch (world : World) (batch : List QueuedEvent) : List QueuedEvent :=
  ((batch.filter fun q => !world.terminalTradedEvent q.event).map fun q =>
    { q with priority := world.eventPriority q.event }).insertionSort QueuedEvent.before

def durableEvents (world : World) (batch : List QueuedEvent) : List MarketEvent :=
  ((workingBatch world batch).filter fun q => durableEvent q.event q.priority).map QueuedEvent.event

/-- A batch is taken from the queue, and what is to be kept of it is persisted. -/
def Memories.begin (m : Memories) (world : World) (batch : List QueuedEvent) : Memories × Batch :=
  let durable := durableEvents world batch
  let (inserted, m) := m.appendEvents durable
  (m, { remaining := workingBatch world batch, durableIds := durable.map MarketEvent.eventId, inserted })

/-- The order by the priorities of now. -/
def World.before (world : World) (q q' : QueuedEvent) : Prop :=
  world.eventPriority q.event < world.eventPriority q'.event ∨
    world.eventPriority q.event = world.eventPriority q'.event ∧ q.sequence ≤ q'.sequence

instance (world : World) : DecidableRel world.before := fun _ _ => inferInstanceAs (Decidable (_ ∨ _ ∧ _))

/-- The rest of the batch is sorted again when priorities were revised. -/
def Batch.resort (b : Batch) (world : World) : Batch :=
  { b with remaining := (b.remaining ++ b.urgentBuffer).insertionSort world.before, urgentBuffer := [] }

/-- The next event of the batch is not critical. -/
def Batch.ordinary (b : Batch) (world : World) : Bool := b.remaining.head?.any fun q => 0 < world.eventPriority q.event

def Batch.urgent (settings : WorkerSettings) (b : Batch) (world : World) (arrivals : List QueuedEvent) : List QueuedEvent :=
  if b.ordinary world && b.urgentBuffer.isEmpty && b.urgentArrivals < settings.eventBatchSize then
    arrivals.take (min (if b.urgentArrivals = 0 then 1 else urgentPersistBatchSize)
      (settings.eventBatchSize - b.urgentArrivals))
  else []

/-- The events among them that are to be kept. -/
def Batch.urgentEvents (b : Batch) (world : World) (urgent : List QueuedEvent) : List MarketEvent :=
  (urgent.map QueuedEvent.event).filter fun event =>
    !b.durableIds.contains event.eventId && !b.handledIds.contains event.eventId &&
      !world.terminalTradedEvent event && durableEvent event (world.eventPriority event)

/-- Urgent arrivals are taken before the next event of the batch, and persisted. -/
def Memories.prefetch (m : Memories) (b : Batch) (world : World) (urgent : List QueuedEvent) : Memories × Batch :=
  let urgentEvents := b.urgentEvents world urgent
  let (inserted, m) := m.appendEvents urgentEvents
  (m, { b with
    urgentBuffer := b.urgentBuffer ++ urgent
    urgentArrivals := b.urgentArrivals + urgent.length
    durableIds := b.durableIds ++ urgentEvents.map MarketEvent.eventId
    inserted := b.inserted ++ inserted })

/-- The next event: an urgent one, unless the next one of the batch is critical. -/
def Batch.next (b : Batch) (world : World) : Option (QueuedEvent × Batch) :=
  match b.urgentBuffer, b.remaining with
  | [], [] => none
  | q :: urgentBuffer, [] => some (q, { b with urgentBuffer })
  | [], q :: remaining => some (q, { b with remaining })
  | q :: urgentBuffer, q' :: remaining =>
    if 0 < world.eventPriority q'.event then some (q, { b with urgentBuffer }) else some (q', { b with remaining })

/-- What becomes of an event. -/
inductive Route where
  /-- A copy was decided in this batch, nothing waits for the event any more, or it is too old. -/
  | skip
  /-- It was to be kept, and was persisted with the batch. -/
  | persisted
  /-- It is to be kept by now. -/
  | persist
  | ephemeral
  deriving DecidableEq

/-- Where an event goes, at its turn. -/
def Batch.route (settings : WorkerSettings) (b : Batch) (world : World) (event : MarketEvent) : Route :=
  if b.handledIds.contains event.eventId then .skip
  else if world.terminalTradedEvent event then .skip
  else if world.expiredCandidateEvent settings (world.eventPriority event) event then .skip
  else if b.durableIds.contains event.eventId then .persisted
  else if durableEvent event (world.eventPriority event) then .persist
  else .ephemeral

/-- Whether an event goes on to `_handle_persisted_event`. -/
def Memories.admitEvent (settings : WorkerSettings) (m : Memories) (b : Batch) (world : World) (event : MarketEvent) :
    Bool × Memories :=
  match b.route settings world event with
  | .skip => (false, m)
  | .persisted => (b.inserted.contains event.eventId, m)
  | .persist => m.insertOrIgnore event
  | .ephemeral => m.rememberEphemeralEvent settings event.eventId

/-! ### The loop -/

/-- The worker, between the turns of its loops. -/
structure Worker where
  settings : WorkerSettings
  memories : Memories := {}
  batch : Option Batch := none

/-- What a turn of the loop over the batch finds: first, and after the urgent arrivals were persisted. -/
structure Turn where
  world : World
  /-- Priorities were revised since the batch was sorted. -/
  revised : Bool := false
  /-- The queue has these for `get_nowait_before(1)`. -/
  arrivals : List QueuedEvent := []
  laterWorld : World

/-- The batch when its next event is chosen. -/
def Batch.sorted (b : Batch) (turn : Turn) : Batch := if turn.revised then b.resort turn.world else b

def Worker.urgentEvents (w : Worker) (b : Batch) (turn : Turn) : List MarketEvent :=
  let b := b.sorted turn
  b.urgentEvents turn.world (b.urgent w.settings turn.world turn.arrivals)

/-- The memories and the batch when the next event is chosen. -/
def Worker.prepared (w : Worker) (b : Batch) (turn : Turn) : Memories × Batch :=
  let b := b.sorted turn
  w.memories.prefetch b turn.world (b.urgent w.settings turn.world turn.arrivals)

/-- An event at its turn. -/
structure Decision where
  memories : Memories
  batch : Batch
  event : MarketEvent

/-- The event whose turn it is. -/
def Worker.decision (w : Worker) (turn : Turn) : Option Decision :=
  w.batch.bind fun b =>
    let (memories, b) := w.prepared b turn
    (b.next turn.laterWorld).map fun (q, batch) => { memories, batch, event := q.event }

/-- A step of the worker, or of the cleanup. -/
inductive WorkerAction where
  | take (world : World) (batch : List QueuedEvent)
  | turn (turn : Turn)
  /-- Something raises, and the batch is given up. -/
  | fail
  | cleanup (rawTradeBefore : ℤ) (limit : ℕ)

/-- One action: what reaches `_handle_persisted_event`, and the worker after it. -/
def Worker.step (w : Worker) : WorkerAction → Option MarketEvent × Worker
  | .take world batch =>
    match w.batch with
    | some _ => (none, w)
    | none =>
      let (memories, b) := w.memories.begin world batch
      (none, { w with memories, batch := some b })
  | .turn turn =>
    match w.decision turn with
    | none => (none, { w with batch := none })
    | some d =>
      let (admitted, memories) := d.memories.admitEvent w.settings d.batch turn.laterWorld d.event
      (if admitted then some d.event else none,
        { w with memories, batch := some { d.batch with handledIds := d.batch.handledIds.insert d.event.eventId } })
  | .fail => (none, { w with batch := none })
  | .cleanup rawTradeBefore limit => (none, { w with memories := w.memories.cleanup rawTradeBefore limit })

end SignalArcade.Market
