import SignalArcade.Market.EventWorker
import SignalArcade.Queue.SeasonEventQueue

/-!
# The event worker and its queue

`enqueue_event` and `_event_worker_loop` around one queue, cut at every `await`: what the worker
waits for is the stage of its batch. Between two steps anything may happen, so every step gets
the world it finds. A write may raise or be cancelled, with or without its commit.
-/

namespace SignalArcade.Market

/-! ### The log -/

/-- An admitted event, with the number it was given. -/
structure Receipt where
  sequence : ℕ
  event : MarketEvent
  deriving DecidableEq

/-- What becomes of an admitted event. -/
inductive Outcome where
  /-- It is passed to `_handle_persisted_event`, in this world. -/
  | handled (world : World)
  /-- Its identifier is known. -/
  | repeated
  /-- The token was traded, and nothing waits for it any more. -/
  | retired (world : World)
  /-- It came too late. -/
  | expired
  /-- The queue was full. -/
  | shed
  | failed
  | cancelled
  /-- Its producer was cancelled. -/
  | givenUp

/-- An entry of the log of a run. -/
inductive Entry where
  | admitted (receipt : Receipt)
  | settled (receipt : Receipt) (outcome : Outcome)
  /-- The worker has written an event of that identifier. -/
  | committed (eventId : String)
  /-- Someone else has. -/
  | stored (eventId : String)
  | noted (gap : Gap)

/-- The receipt of an item of a batch. -/
def QueuedEvent.receipt (q : QueuedEvent) : Receipt := ⟨q.sequence, q.event⟩

def receiptOf (item : Queue.QueuedEvent MarketEvent) : Receipt := ⟨item.sequence, item.event⟩

def dequeued (item : Queue.QueuedEvent MarketEvent) : QueuedEvent := ⟨item.priority, item.sequence, item.event⟩

/-! ### The state -/

/-- What the worker waits for, with a batch. -/
inductive Stage where
  /-- The short wait for more events. -/
  | filling
  /-- `append_events`, of what is to be kept of the batch. -/
  | persisting (world : World)
  | looping (b : Batch)
  /-- `append_events`, of urgent arrivals. -/
  | prefetching (world : World) (b : Batch) (urgent : List QueuedEvent)
  /-- `append_event`. -/
  | appending (b : Batch) (q : QueuedEvent)
  /-- `_handle_persisted_event`. -/
  | handling (b : Batch)
  /-- Incidents are written, before the batch is done. -/
  | closing (cancelled : Bool)

/-- Where the worker is. -/
inductive Phase where
  /-- `event_queue.get()`. -/
  | idle
  | inFlight (batch : List QueuedEvent) (stage : Stage)
  /-- It was cancelled. -/
  | stopped

/-- The queue, its producers and the worker. -/
structure EventLoop where
  settings : WorkerSettings
  eventSequence : ℕ := 0
  queue : Queue.SeasonEventQueue MarketEvent
  /-- Those that wait in `event_queue.put`. -/
  producers : List (Queue.QueuedEvent MarketEvent) := []
  memories : Memories := {}
  window : IntegrityWindow
  phase : Phase := .idle
  log : List Entry := []
  /-- The items that were dequeued, the first one first. -/
  taken : List ℕ := []
  /-- What each call of `task_done` has retired. -/
  taskDones : List (Option ℕ) := []

/-- The items of a batch that nothing has become of yet. -/
def Stage.unsettled (batch : List QueuedEvent) : Stage → List QueuedEvent
  | .filling => batch
  | .persisting world => workingBatch world batch
  | .looping b | .handling b => b.remaining ++ b.urgentBuffer
  | .prefetching _ b urgent => b.remaining ++ (b.urgentBuffer ++ urgent)
  | .appending b q => q :: (b.remaining ++ b.urgentBuffer)
  | .closing _ => []

namespace EventLoop

variable (s : EventLoop)

/-- Something becomes of these events. -/
def settle (outcome : Outcome) (receipts : List Receipt) : EventLoop :=
  { s with log := receipts.map (.settled · outcome) ++ s.log }

/-- `append_events`, with its commit. -/
def commit (events : List MarketEvent) : EventLoop :=
  { s with
    memories := (s.memories.appendEvents events).2
    log := (s.memories.appendEvents events).1.map .committed ++ s.log }

end EventLoop

/-! ### Gaps -/

/-- The gap that `_note_integrity_mint_gap` leaves. -/
def IntegrityWindow.gapFor (w : IntegrityWindow) (mint : Option String) (observedAt : ℤ) : Gap :=
  match mint.filter (· ≠ "") with
  | none => ⟨none, observedAt⟩
  | some mint => if (w.pruned observedAt).full mint then ⟨none, observedAt⟩ else ⟨some mint, observedAt⟩

theorem gapFor_mint (w : IntegrityWindow) (mint : Option String) (observedAt : ℤ) :
    (w.gapFor mint observedAt).mint = none ∨ (w.gapFor mint observedAt).mint = mint := by
  unfold IntegrityWindow.gapFor
  cases hmint : mint.filter (· ≠ "") with
  | none => exact .inl rfl
  | some mint' =>
    dsimp only
    split
    · exact .inl rfl
    · exact .inr (Option.eq_some_of_filter_eq_some hmint).symm

namespace EventLoop

variable (s : EventLoop)

/-- `_mark_integrity_stream_gap`. -/
def markStreamGap (observedAt : ℤ) : EventLoop :=
  { s with window := s.window.markStreamGap observedAt, log := .noted ⟨none, observedAt⟩ :: s.log }

/-- `_note_integrity_mint_gap`. -/
def noteMintGap (mint : Option String) (observedAt : ℤ) : EventLoop :=
  { s with
    window := s.window.noteMintGap mint observedAt
    log := .noted (s.window.gapFor mint observedAt) :: s.log }

local instance lawfulBEq_mint : LawfulBEq (Option String) := inferInstance

def noteFailedMints (batch : List QueuedEvent) (failedAt : ℤ) : EventLoop :=
  let failedMints := (batch.map fun q => q.event.mint).dedup
  if none ∈ failedMints ∨ some "" ∈ failedMints then s.markStreamGap failedAt
  else
    ((failedMints.filterMap id).insertionSort (· ≤ ·)).foldl (fun s mint => s.noteMintGap (some mint) failedAt) s

/-! ### Producers -/

/-- `enqueue_event`, until it waits: `ignored` is `_ignore_untracked_trade`. -/
def enqueueEvent (world : World) (ignored : Bool) (event : MarketEvent) : EventLoop :=
  if ignored then s
  else
    let queued : Queue.QueuedEvent MarketEvent := ⟨world.eventPriority event, s.eventSequence + 1, event⟩
    let s := { s with
      eventSequence := queued.sequence
      queue := s.queue.admitSequence queued.sequence
      log := .admitted (receiptOf queued) :: s.log }
    match s.queue.putNowait queued with
    | .ok queue => { s with queue }
    | .error _ =>
      if queued.priority = 0 then { s with producers := queued :: s.producers }
      else
        ({ s with queue := s.queue.forget queued.sequence }.noteMintGap event.mint world.now).settle .shed
          [receiptOf queued]

/-- A producer tries again. -/
def put (sequence : ℕ) : EventLoop :=
  match s.producers.find? (·.sequence = sequence) with
  | none => s
  | some queued =>
    match s.queue.putNowait queued with
    | .ok queue => { s with queue, producers := s.producers.erase queued }
    | .error _ => s

def cancelProducer (sequence : ℕ) : EventLoop :=
  match s.producers.find? (·.sequence = sequence) with
  | none => s
  | some queued =>
    { s with
      queue := s.queue.forget queued.sequence
      producers := s.producers.erase queued }.settle .givenUp [receiptOf queued]

end EventLoop

/-! ### The worker -/

/-- Up to so many items, until the queue has none. -/
def takeItems
    (get : Queue.SeasonEventQueue MarketEvent →
      Except Queue.QueueError (Queue.QueuedEvent MarketEvent × Queue.SeasonEventQueue MarketEvent)) :
    ℕ → Queue.SeasonEventQueue MarketEvent → List (Queue.QueuedEvent MarketEvent) × Queue.SeasonEventQueue MarketEvent
  | 0, queue => ([], queue)
  | n + 1, queue =>
    match get queue with
    | .error _ => ([], queue)
    | .ok (item, queue) =>
      let (items, queue) := takeItems get n queue
      (item :: items, queue)

/-- So many calls of `task_done`, and what each retires. -/
def finishTasks :
    ℕ → Queue.SeasonEventQueue MarketEvent →
      Except Queue.QueueError (List (Option ℕ) × Queue.SeasonEventQueue MarketEvent)
  | 0, queue => .ok ([], queue)
  | n + 1, queue => do
    let queue' ← queue.taskDone
    let (retired, last) ← finishTasks n queue'
    return (queue.dequeuedSequences.head? :: retired, last)

/-- How many urgent arrivals may be taken now. -/
def Batch.urgentRoom (settings : WorkerSettings) (b : Batch) (world : World) : ℕ :=
  if b.ordinary world && b.urgentBuffer.isEmpty && b.urgentArrivals < settings.eventBatchSize then
    min (if b.urgentArrivals = 0 then 1 else urgentPersistBatchSize) (settings.eventBatchSize - b.urgentArrivals)
  else 0

/-- How a write ends that the worker waits for. -/
inductive Persistence where
  | returns
  | raises (committed : Bool) (failedAt : ℤ)
  | cancelled (committed : Bool)

namespace EventLoop

variable (s : EventLoop) (batch : List QueuedEvent)

def take (items : List (Queue.QueuedEvent MarketEvent)) (queue : Queue.SeasonEventQueue MarketEvent) : EventLoop :=
  { s with queue, taken := s.taken ++ items.map (·.sequence) }

/-- The worker goes on with its batch. -/
def goOn (stage : Stage) : EventLoop := { s with phase := .inFlight batch stage }

/-- Something raises, and the rest of the batch is given up. -/
def fail (stage : Stage) (failedAt : ℤ) : EventLoop :=
  ((s.noteFailedMints batch failedAt).settle .failed ((stage.unsettled batch).map QueuedEvent.receipt)).goOn batch
    (.closing false)

def cancel (stage : Stage) : EventLoop :=
  (s.settle .cancelled ((stage.unsettled batch).map QueuedEvent.receipt)).goOn batch (.closing true)

/-- A write ends; `next` is the state when it returns. -/
def persist (events : List MarketEvent) (stage : Stage) (next : EventLoop) : Persistence → EventLoop
  | .returns => next
  | .raises committed failedAt => (if committed then s.commit events else s).fail batch stage failedAt
  | .cancelled committed => (if committed then s.commit events else s).cancel batch stage

def persisted (world : World) : EventLoop :=
  (s.commit (durableEvents world batch)).goOn batch (.looping (s.memories.begin world batch).2)

/-- The batch is full: what is to be kept of it is to be persisted. -/
def begin (world : World) : EventLoop :=
  let s := s.settle (.retired world)
    ((batch.filter fun q => world.terminalTradedEvent q.event).map QueuedEvent.receipt)
  if durableEvents world batch = [] then s.persisted batch world else s.goOn batch (.persisting world)

/-- The event goes to `_handle_persisted_event`. -/
def pass (world : World) (b : Batch) (q : QueuedEvent) : EventLoop :=
  (s.settle (.handled world) [q.receipt]).goOn batch (.handling b)

/-- The identifier is known. -/
def skipRepeated (b : Batch) (q : QueuedEvent) : EventLoop :=
  (s.settle .repeated [q.receipt]).goOn batch (.looping b)

def skip (world : World) (b : Batch) (q : QueuedEvent) : EventLoop :=
  if b.handledIds.contains q.event.eventId then s.settle .repeated [q.receipt]
  else if world.terminalTradedEvent q.event then s.settle (.retired world) [q.receipt]
  else (s.noteMintGap q.event.mint world.now).settle .expired [q.receipt]

def choose (world : World) (b : Batch) : EventLoop :=
  match b.next world with
  | none => s.goOn batch (.closing false)
  | some (q, b) =>
    let handled := { b with handledIds := b.handledIds.insert q.event.eventId }
    match b.route s.settings world q.event with
    | .skip => (s.skip world b q).goOn batch (.looping handled)
    | .persisted =>
      if b.inserted.contains q.event.eventId then s.pass batch world handled q else s.skipRepeated batch handled q
    | .persist => s.goOn batch (.appending handled q)
    | .ephemeral =>
      let (isNew, memories) := s.memories.rememberEphemeralEvent s.settings q.event.eventId
      if isNew then { s with memories }.pass batch world handled q
      else { s with memories }.skipRepeated batch handled q

/-- The urgent arrivals are persisted, and the next event is chosen. -/
def prefetched (world laterWorld : World) (b : Batch) (urgent : List QueuedEvent) : EventLoop :=
  (s.commit (b.urgentEvents world urgent)).choose batch laterWorld (s.memories.prefetch b world urgent).2

/-- The urgent arrivals that are taken now. -/
def urgentItems (world : World) (b : Batch) :
    List (Queue.QueuedEvent MarketEvent) × Queue.SeasonEventQueue MarketEvent :=
  takeItems (·.getNowaitBefore 1) (b.urgentRoom s.settings world) s.queue

/-- Urgent arrivals are taken, and what is to be kept of them is to be persisted. -/
def prefetch (world : World) (b : Batch) : EventLoop :=
  let (items, queue) := s.urgentItems world b
  let s := s.take items queue
  let batch := batch ++ items.map dequeued
  let urgent := items.map dequeued
  if b.urgentEvents world urgent = [] then s.prefetched batch world world b urgent
  else s.goOn batch (.prefetching world b urgent)

def turn (world : World) (revised : Bool) (b : Batch) : EventLoop :=
  s.prefetch batch world (if revised then b.resort world else b)

/-- `append_event` has returned. -/
def appended (world : World) (b : Batch) (q : QueuedEvent) : EventLoop :=
  let s' := s.commit [q.event]
  if (s.memories.appendEvents [q.event]).1.contains q.event.eventId then s'.pass batch world b q
  else s'.skipRepeated batch b q

/-- The batch is done. -/
def finish (cancelled : Bool) : EventLoop :=
  match finishTasks batch.length s.queue with
  | .error _ => { s with phase := .stopped }
  | .ok (retired, queue) =>
    { s with queue, taskDones := s.taskDones ++ retired, phase := if cancelled then .stopped else .idle }

end EventLoop

/-! ### Steps -/

/-- What happens. -/
inductive LoopAction where
  | enqueueEvent (world : World) (ignored : Bool) (event : MarketEvent)
  | put (sequence : ℕ)
  | cancelProducer (sequence : ℕ)
  /-- The worker gets the first item of a batch. -/
  | get
  /-- The short wait is over. -/
  | fill (world : World)
  /-- `append_events` of the batch ends. -/
  | persisted (result : Persistence)
  | turn (world : World) (revised : Bool)
  /-- `append_events` of urgent arrivals ends. -/
  | prefetched (world : World) (result : Persistence)
  /-- `append_event` ends. -/
  | appended (world : World) (result : Persistence)
  | handlerReturns
  | handlerRaises (failedAt : ℤ)
  | finish
  | cancelWorker
  /-- The queued events of a token become urgent. -/
  | promoteMint (mint : String)
  /-- A season is being drained. -/
  | beginBoundary (sequence : ℕ)
  | endBoundary
  /-- Someone else writes an event. -/
  | store (event : MarketEvent)
  | cleanup (rawTradeBefore : ℤ) (limit : ℕ)
  /-- Someone else uses the integrity window. -/
  | window (a : WindowAction)

/-- One step. A step that nobody is in a position to take changes nothing. -/
def EventLoop.step (s : EventLoop) (a : LoopAction) : EventLoop :=
  match a, s.phase with
  | .enqueueEvent world ignored event, _ => s.enqueueEvent world ignored event
  | .put sequence, _ => s.put sequence
  | .cancelProducer sequence, _ => s.cancelProducer sequence
  | .get, .idle =>
    match s.queue.getNowait with
    | .error _ => s
    | .ok (item, queue) => (s.take [item] queue).goOn [dequeued item] .filling
  | .fill world, .inFlight batch .filling =>
    let (items, queue) := takeItems (·.getNowait) (s.settings.eventBatchSize - batch.length) s.queue
    (s.take items queue).begin (batch ++ items.map dequeued) world
  | .persisted result, .inFlight batch (.persisting world) =>
    s.persist batch (durableEvents world batch) (.persisting world) (s.persisted batch world) result
  | .turn world revised, .inFlight batch (.looping b) => s.turn batch world revised b
  | .prefetched laterWorld result, .inFlight batch (.prefetching world b urgent) =>
    s.persist batch (b.urgentEvents world urgent) (.prefetching world b urgent)
      (s.prefetched batch world laterWorld b urgent) result
  | .appended world result, .inFlight batch (.appending b q) =>
    s.persist batch [q.event] (.appending b q) (s.appended batch world b q) result
  | .handlerReturns, .inFlight batch (.handling b) => s.goOn batch (.looping b)
  | .handlerRaises failedAt, .inFlight batch (.handling b) => s.fail batch (.handling b) failedAt
  | .finish, .inFlight batch (.closing cancelled) => s.finish batch cancelled
  | .cancelWorker, .idle => { s with phase := .stopped }
  | .cancelWorker, .inFlight batch .filling => s.cancel batch .filling
  | .cancelWorker, .inFlight batch (.looping b) => s.cancel batch (.looping b)
  | .cancelWorker, .inFlight batch (.handling b) => s.cancel batch (.handling b)
  | .cancelWorker, .inFlight batch (.closing _) => s.goOn batch (.closing true)
  | .promoteMint mint, _ => { s with queue := (s.queue.promoteMint MarketEvent.mint mint).1 }
  | .beginBoundary sequence, _ => { s with queue := s.queue.beginBoundary sequence }
  | .endBoundary, _ => { s with queue := s.queue.endBoundary }
  | .store event, _ =>
    { s with memories := (s.memories.insertOrIgnore event).2, log := .stored event.eventId :: s.log }
  | .cleanup rawTradeBefore limit, _ => { s with memories := s.memories.cleanup rawTradeBefore limit }
  | .window a, _ => { s with window := s.window.step a }
  | _, _ => s

end SignalArcade.Market
