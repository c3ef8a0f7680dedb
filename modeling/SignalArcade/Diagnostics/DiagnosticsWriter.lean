import SignalArcade.Diagnostics.DiagnosticsStore
import SignalArcade.Lib.Runs

/-!
# The writer of the diagnostics

`DiagnosticsWriter` takes messages of other threads and saves them in a thread of its own. Between the two there is a
queue for one message, and a flag that stops the writer. `offer` and `request_stop` exclude each other, and the end of the
thread, by a lock; the loop of the thread takes messages without it.

A step is what one of the threads does between two points at which the others can see the difference. The model also
keeps which messages were accepted and what became of them.
-/

namespace SignalArcade.Diagnostics

open Runs

/-! ### Messages -/

/-- What `json.loads` makes of the bytes. -/
inductive Reading where
  /-- It raises. -/
  | unreadable
  /-- No dictionary, or an empty one: whether it counts as true. -/
  | plain (truthy : Bool)
  | record (record : Record)
  deriving DecidableEq

/-- A message, by its size and what it reads as. -/
structure Raw where
  size : ℕ
  reading : Reading
  deriving DecidableEq

/-- An accepted message: the bytes, and the how-manieth it is. -/
structure Message where
  ticket : ℕ
  raw : Raw
  deriving DecidableEq

/-- The interval of a record. -/
def Raw.interval (raw : Raw) : Option Interval :=
  match raw.reading with
  | .record record => record.interval
  | _ => none

def maxInput : ℕ := 32768

/-- `CATEGORIES`. -/
inductive Category where
  | training | proof | storage | other
  deriving DecidableEq

def Category.ofKind : Option String → Category
  | some "training_error" => .training
  | some "training" => .training
  | some "proof" => .proof
  | some "storage" => .storage
  | _ => .other

def eventCounts (raw : Raw) (category : Category) : ℕ :=
  match raw.reading with
  | .record record => (((record.events.getD []).take 8).map Category.ofKind).count category
  | _ => 0

/-- A counter stops at `2**53 - 1`. -/
def capped (count : ℕ) : ℕ := min (2 ^ 53 - 1) count

/-! ### The state -/

/-- What becomes of a message. -/
inductive Fate where
  | saved | rejected | uncertain
  deriving DecidableEq

/-- Who has the message lock, and where he is. -/
inductive Owner where
  | offering (raw : Raw)
  | putting (raw : Raw)
  | stopping
  | emptying
  | dropping (message : Message)
  | waking
  | writer

/-- Where the thread is, with what `raw` holds for it. -/
inductive Place where
  | unstarted
  | starting
  /-- `while not self.stopping.is_set()`. -/
  | looping
  | getting
  /-- The inner loop, and the guards in it. -/
  | waiting (message : Message)
  | asking (message : Message)
  | admitted (message : Message)
  | appending (message : Message)
  | refreshing
  /-- The handler, where `append` has not returned. -/
  | checking (message : Message)
  | reporting
  /-- What is left on the way out. -/
  | closing (message : Option Message)
  | cleaning
  | silencing
  | draining
  | discarding (message : Message)
  | finished
  deriving DecidableEq

/-- The status that the writer shows. -/
inductive Status where
  | starting | recording | pausedStorage | pausedError | unavailable

def DiagnosticsStore.status (store : DiagnosticsStore) : Status := if store.paused then .pausedStorage else .recording

/-- The thread that writes, its queue of one and its store. -/
structure Writer where
  store : DiagnosticsStore
  /-- `messages`: the queue is empty, holds the sentinel, or holds a message. -/
  messages : Option (Option Message) := none
  lock : Option Owner := none
  stopping : Bool := false
  allowed : Bool := false
  rejected : ℕ := 0
  uncertain : ℕ := 0
  lostEvents : Category → ℕ := fun _ => 0
  busy : Bool := false
  status : Status := .starting
  place : Place := .unstarted
  /-- The messages for which `offer` returns `True`. -/
  accepted : List Message := []
  /-- What became of messages. -/
  fates : List (Message × Fate) := []
  /-- The messages whose interval is in the database once their append has committed it, or found it there. -/
  stored : List Message := []

namespace Writer

variable (w : Writer)

/-- `thread.is_alive()`. -/
def alive : Bool := w.place ≠ .unstarted ∧ w.place ≠ .finished

def save (message : Message) : Writer := { w with fates := w.fates ++ [(message, .saved)] }

def reject (message : Message) : Writer :=
  { w with
    rejected := capped (w.rejected + 1)
    lostEvents := fun category => capped (w.lostEvents category + eventCounts message.raw category)
    fates := w.fates ++ [(message, .rejected)] }

def doubt (message : Message) : Writer :=
  { w with uncertain := capped (w.uncertain + 1), fates := w.fates ++ [(message, .uncertain)] }

/-! ### The callers -/

/-- The next step of `offer` or `request_stop` under the lock. -/
def call : Writer :=
  match w.lock with
  | some (.offering raw) =>
    if maxInput < raw.size ∨ ¬ w.alive ∨ w.stopping then { w with lock := none }
    else { w with lock := some (.putting raw) }
  | some (.putting raw) =>
    match w.messages with
    | none =>
      let message := ⟨w.accepted.length, raw⟩
      { w with messages := some (some message), accepted := w.accepted ++ [message], lock := none }
    | some _ => { w with lock := none }
  | some .stopping => { w with stopping := true, lock := some .emptying }
  | some .emptying =>
    match w.messages with
    | some (some message) => { w with messages := none, lock := some (.dropping message) }
    | _ => { w with messages := none, lock := some .waking }
  | some (.dropping message) => { w.reject message with lock := some .waking }
  | some .waking => { w with messages := some (w.messages.getD none), lock := none }
  | _ => w

/-! ### The thread -/

/-- The `try` around `append`. -/
def attempt (weather : Weather) (message : Message) : Writer :=
  match message.raw.reading with
  | .record record =>
    if ¬ record.gauges ∨ weather.raises then { w with place := .checking message }
    else
      let (result, store) := w.store.append weather record
      let stored :=
        if record.interval.any fun interval => interval ∈ store.durable.intervals then w.stored ++ [message] else w.stored
      match result with
      | .error .late => { w with store, stored, place := .checking message }
      | .error _ => { w with store, place := .checking message }
      | .ok true => { { w with store, stored }.save message with place := .refreshing }
      | .ok false => { { w with store }.reject message with place := .refreshing }
  | _ => { w with place := .checking message }

/-- The handler finds out what became of a message whose `append` has not returned. -/
def check (weather : Weather) (message : Message) : Writer :=
  match message.raw.reading with
  | .unreadable => w.reject message
  | .plain truthy => if truthy then w.doubt message else w.reject message
  | .record record =>
    match w.store.containsInterval weather record with
    | .error _ => w.doubt message
    | .ok true => w.save message
    | .ok false => w.reject message

/-- The next step of `_run`. -/
def work (weather : Weather) : Writer :=
  match w.place with
  | .unstarted => w
  | .starting =>
    if weather.raises then { w with status := .unavailable, place := .closing none }
    else { w with status := w.store.status, place := .looping }
  | .looping => { w with place := if w.stopping then .closing none else .getting }
  | .getting =>
    match w.messages with
    | none => w
    | some none => { w with messages := none, place := .closing none }
    | some (some message) => { w with messages := none, place := .waiting message, busy := true }
  | .waiting message => { w with place := if w.stopping then .admitted message else .asking message }
  | .asking message =>
    if ¬ w.allowed then { w with place := .waiting message }
    else if weather.raises then { w with status := .unavailable, place := .closing (some message) }
    else { w with place := if weather.canWrite then .admitted message else .waiting message }
  | .admitted message => { w with place := if w.stopping then .closing (some message) else .appending message }
  | .appending message => w.attempt weather message
  | .refreshing =>
    if weather.raises then { w with place := .reporting }
    else { w with status := w.store.status, busy := false, place := .looping }
  | .checking message => { w.check weather message with place := .reporting }
  | .reporting =>
    if weather.raises then { w with status := .unavailable, busy := false, place := .closing none }
    else { w with status := .pausedError, busy := false, place := .looping }
  | .closing none =>
    { w with status := if weather.raises then .unavailable else w.status, busy := false, place := .cleaning }
  | .closing (some message) =>
    { w.reject message with status := if weather.raises then .unavailable else w.status, busy := false, place := .cleaning }
  | .cleaning => if w.lock = none then { w with lock := some .writer, place := .silencing } else w
  | .silencing => { w with stopping := true, place := .draining }
  | .draining =>
    match w.messages with
    | some (some message) => { w with messages := none, place := .discarding message }
    | _ => { w with messages := none, lock := none, place := .finished }
  | .discarding message => { w.reject message with lock := none, place := .finished }
  | .finished => w

/-! ### Steps -/

/-- A step of the writer, its callers or its stop. -/
inductive Action where
  /-- `thread.start()`. -/
  | start
  /-- `allowed` is set or cleared. -/
  | allow (allowed : Bool)
  /-- A call gets the message lock. -/
  | offer (raw : Raw)
  | requestStop
  /-- The call that has it goes on. -/
  | call
  /-- The thread goes on. -/
  | work (weather : Weather)

/-- One atomic step of any thread. -/
def step (w : Writer) : Action → Writer
  | .start => if w.place = .unstarted then { w with place := .starting } else w
  | .allow allowed => { w with allowed }
  | .offer raw => if w.lock = none then { w with lock := some (.offering raw) } else w
  | .requestStop => if w.lock = none then { w with lock := some .stopping } else w
  | .call => w.call
  | .work weather => w.work weather

end Writer

end SignalArcade.Diagnostics
