import SignalArcade.Lib.Checked
import Mathlib.Data.Prod.Lex
import Mathlib.Order.Lattice.Nat

/-!
# The season event queue

`SeasonEventQueue` of `event_queue.py`: asyncio's bounded priority queue with a
drainable boundary. While a boundary is active, what was admitted before it is
served and what arrives later is parked behind it, in the same heap.
-/

namespace SignalArcade.Queue

open Checked List

/-- What the queue's operations raise. -/
inductive QueueError where
  /-- `asyncio.QueueFull`. -/
  | queueFull
  /-- `asyncio.QueueEmpty`. -/
  | queueEmpty
  /-- `ValueError("task_done() called too many times")`. -/
  | taskDoneTooOften
  deriving DecidableEq, Repr

/-- `(priority, sequence, event)`, as producers put it and workers get it. -/
structure QueuedEvent (ε : Type) where
  /-- Smaller is more urgent. -/
  priority : ℕ
  /-- The number the producer was given. -/
  sequence : ℕ
  event : ε
  deriving DecidableEq, Repr

/-- A row of the heap: `(later, priority, sequence, event)`. -/
structure Row (ε : Type) extends QueuedEvent ε where
  /-- Parked behind the boundary. -/
  later : Bool
  deriving DecidableEq, Repr

/-- The heap's order: parked rows last, then by priority, then by sequence. -/
def Row.key {ε : Type} (r : Row ε) : ℕ ×ₗ ℕ ×ₗ ℕ := toLex (r.later.toNat, toLex (r.priority, r.sequence))

/-- The order of the heap. -/
def Row.before {ε : Type} (r s : Row ε) : Prop := r.key ≤ s.key

instance {ε : Type} : DecidableRel (Row.before (ε := ε)) := fun r s => inferInstanceAs (Decidable (r.key ≤ s.key))

/-- The `asyncio.Queue` of market events, with its ledger of sequences. -/
structure SeasonEventQueue (ε : Type) where
  /-- The capacity; `0` is unbounded. -/
  maxsize : ℕ
  /-- The last sequence of the season being drained, while it is. -/
  boundary : Option ℕ := none
  /-- `_pending_sequences`: admitted, and not yet done or forgotten. -/
  pendingSequences : Finset ℕ := ∅
  /-- `_dequeued_sequences`: taken by workers, oldest first. -/
  dequeuedSequences : List ℕ := []
  /-- `_queue`, in the heap's order. -/
  queue : List (Row ε) := []
  /-- asyncio's `_unfinished_tasks`. -/
  unfinishedTasks : ℕ := 0

namespace SeasonEventQueue

variable {ε : Type} (q : SeasonEventQueue ε)

/-- `admit`. -/
def admitSequence (sequence : ℕ) : SeasonEventQueue ε :=
  { q with pendingSequences := insert sequence q.pendingSequences }

def forget (sequence : ℕ) : SeasonEventQueue ε :=
  { q with pendingSequences := q.pendingSequences.erase sequence }

/-- The sequences in the queue. -/
def queuedSequences : List ℕ := q.queue.map (·.sequence)

/-- `qsize`: parked rows count. -/
def qsize : ℕ := q.queue.length

/-- How many rows are parked. -/
def parked : ℕ := q.queue.countP (·.later)

def full : Bool := 0 < q.maxsize ∧ q.maxsize ≤ q.qsize

/-- `empty`: nothing queued, or nothing but parked rows. -/
def empty : Bool :=
  match q.queue with
  | [] => true
  | row :: _ => row.later

/-- Whether the sequence belongs after the active boundary. -/
def isLater (sequence : ℕ) : Bool :=
  match q.boundary with
  | none => false
  | some boundary => boundary < sequence

/-- `_put`. -/
def putRow (item : QueuedEvent ε) : SeasonEventQueue ε :=
  { q with
    pendingSequences := insert item.sequence q.pendingSequences
    queue := q.queue.orderedInsert Row.before { item with later := q.isLater item.sequence }
    unfinishedTasks := q.unfinishedTasks + 1 }

/-- The sequences up to `boundary` that are admitted and neither queued nor dequeued: their
producers wait for capacity. -/
def waitingBefore (boundary : ℕ) : Finset ℕ :=
  q.pendingSequences.filter fun sequence =>
    sequence ≤ boundary ∧ sequence ∉ q.queuedSequences ∧ sequence ∉ q.dequeuedSequences

/-- `put_nowait`. A later arrival leaves the capacity owed to the waiting producers of the
boundary alone. -/
def putNowait (item : QueuedEvent ε) : Except QueueError (SeasonEventQueue ε) := do
  match q.boundary with
  | some boundary =>
    raiseIf (boundary < item.sequence ∧ 0 < q.maxsize ∧
      q.maxsize - (q.waitingBefore boundary).card ≤ q.qsize) .queueFull
  | none => pure ()
  raiseIf (q.full = true) .queueFull
  return q.putRow item

/-- `get_nowait`, with `_get`: the first row, which must not be parked. -/
def getNowait : Except QueueError (QueuedEvent ε × SeasonEventQueue ε) :=
  match q.queue with
  | [] => .error .queueEmpty
  | row :: rows => do
    raiseIf (row.later = true) .queueEmpty
    return (row.toQueuedEvent, { q with
      queue := rows
      dequeuedSequences := q.dequeuedSequences ++ [row.sequence] })

/-- `get_nowait_before`: the first row, when it is more urgent than `priority`. -/
def getNowaitBefore (priority : ℕ) : Except QueueError (QueuedEvent ε × SeasonEventQueue ε) := do
  raiseIf (q.empty = true ∨ ∃ row ∈ q.queue.head?, priority ≤ row.priority) .queueEmpty
  q.getNowait

def promoteRow (mintOf : ε → Option String) (mint : String) (row : Row ε) : Row ε :=
  if 0 < row.priority ∧ mintOf row.event = some mint then { row with priority := 0 } else row

/-- `promote_mint`: the queued events of the mint become urgent. Also how many did. -/
def promoteMint (mintOf : ε → Option String) (mint : String) : SeasonEventQueue ε × ℕ :=
  ({ q with queue := (q.queue.map (promoteRow mintOf mint)).insertionSort Row.before },
    q.queue.countP fun row => 0 < row.priority ∧ mintOf row.event = some mint)

/-- `task_done`: whichever item was finished, the oldest dequeued sequence is retired. -/
def taskDone : Except QueueError (SeasonEventQueue ε) := do
  raiseIf (q.unfinishedTasks = 0) .taskDoneTooOften
  let q := { q with unfinishedTasks := q.unfinishedTasks - 1 }
  match q.dequeuedSequences with
  | [] => return q
  | sequence :: rest => return { q with
      dequeuedSequences := rest
      pendingSequences := q.pendingSequences.erase sequence }

/-- The heap with no row parked. -/
def unparked : List (Row ε) := (q.queue.map fun row => { row with later := false }).insertionSort Row.before

/-- `begin_boundary`: up to `sequence`, or up to the last sequence admitted if that is more.
An active boundary is left alone. -/
def beginBoundary (sequence : ℕ) : SeasonEventQueue ε :=
  match q.boundary with
  | some _ => q
  | none => { q with
      boundary := some (q.pendingSequences.sup id ⊔ sequence)
      queue := q.unparked }

/-- `boundary_ready`: nothing up to the boundary is pending. -/
def boundaryReady : Bool :=
  match q.boundary with
  | none => false
  | some boundary => ∀ sequence ∈ q.pendingSequences, ¬ sequence ≤ boundary

def endBoundary : SeasonEventQueue ε := { q with boundary := none, queue := q.unparked }

/-- `discard_queued`: the queued rows are dropped, the dequeued ones stay accounted for. -/
def discardQueued : SeasonEventQueue ε :=
  { q with
    pendingSequences := q.pendingSequences \ q.queuedSequences.toFinset
    queue := []
    boundary := none
    unfinishedTasks := q.unfinishedTasks - q.queue.length }

/-! ### What each operation does to the heap -/

@[simp] theorem queuedSequences_admitSequence (n : ℕ) : (q.admitSequence n).queuedSequences = q.queuedSequences := rfl

@[simp] theorem queuedSequences_forget (n : ℕ) : (q.forget n).queuedSequences = q.queuedSequences := rfl

/-- `_put` adds its sequence. -/
theorem queuedSequences_putRow (item : QueuedEvent ε) :
    (q.putRow item).queuedSequences.Perm (item.sequence :: q.queuedSequences) :=
  (perm_orderedInsert _ _ _).map _

theorem map_sequence_unparked : (q.unparked.map (·.sequence)).Perm q.queuedSequences := by
  refine ((perm_insertionSort _ _).map _).trans ?_
  rw [map_map]
  exact Perm.refl _

theorem mem_unparked {row : Row ε} (h : row ∈ q.unparked) : row.later = false := by
  obtain ⟨r, -, rfl⟩ := mem_map.mp ((perm_insertionSort _ _).subset h)
  rfl

theorem queuedSequences_promoteMint (mintOf : ε → Option String) (mint : String) :
    (q.promoteMint mintOf mint).1.queuedSequences.Perm q.queuedSequences := by
  refine ((perm_insertionSort _ _).map _).trans ?_
  rw [map_map, queuedSequences]
  refine Perm.of_eq (map_congr_left fun row _ => ?_)
  simp only [Function.comp, promoteRow]
  split_ifs <;> rfl

theorem mem_promoteMint {mintOf : ε → Option String} {mint : String} {row : Row ε}
    (h : row ∈ (q.promoteMint mintOf mint).1.queue) :
    ∃ r ∈ q.queue, r.sequence = row.sequence ∧ r.later = row.later := by
  obtain ⟨r, hr, rfl⟩ := mem_map.mp ((perm_insertionSort _ _).subset h)
  refine ⟨r, hr, ?_⟩
  simp only [promoteRow]
  split_ifs <;> exact ⟨rfl, rfl⟩

theorem parked_le_qsize : q.parked ≤ q.qsize := countP_le_length

theorem qsize_putRow (item : QueuedEvent ε) : (q.putRow item).qsize = q.qsize + 1 :=
  (perm_orderedInsert _ _ _).length_eq

theorem parked_putRow (item : QueuedEvent ε) :
    (q.putRow item).parked = q.parked + (q.isLater item.sequence).toNat := by
  refine ((perm_orderedInsert Row.before _ _).countP_eq _).trans ?_
  rw [countP_cons]
  cases q.isLater item.sequence <;> rfl

theorem length_unparked : q.unparked.length = q.qsize :=
  (perm_insertionSort _ _).length_eq.trans (length_map _)

theorem countP_unparked : q.unparked.countP (·.later) = 0 :=
  countP_eq_zero.mpr fun row hrow => by simp [q.mem_unparked hrow]

theorem promoteMint_counts (mintOf : ε → Option String) (mint : String) :
    (q.promoteMint mintOf mint).1.qsize = q.qsize ∧ (q.promoteMint mintOf mint).1.parked = q.parked := by
  refine ⟨(perm_insertionSort _ _).length_eq.trans (length_map _), ?_⟩
  refine ((perm_insertionSort _ _).countP_eq _).trans ?_
  rw [countP_map]
  refine countP_congr fun row _ => ?_
  simp only [Function.comp, promoteRow]
  split_ifs <;> rfl

variable {item : QueuedEvent ε}

/-- What `getNowait` takes is the first row, and it is not parked. -/
theorem getNowait_ok {q q' : SeasonEventQueue ε} (h : q.getNowait = .ok (item, q')) :
    ∃ row rows, q.queue = row :: rows ∧ row.later = false ∧ item = row.toQueuedEvent ∧
      q' = { q with
        queue := rows
        dequeuedSequences := q.dequeuedSequences ++ [row.sequence] } := by
  unfold getNowait at h
  split at h
  · cases h
  · next row rows hq =>
    simp only [bind_eq_ok, raiseIf_eq_ok, pure_eq_ok, Prod.mk.injEq] at h
    obtain ⟨_, hl, rfl, rfl⟩ := h
    exact ⟨row, rows, hq, by simpa using hl, rfl, rfl⟩

/-- `getNowaitBefore` takes what `getNowait` takes. -/
theorem getNowaitBefore_ok {q q' : SeasonEventQueue ε} {p : ℕ}
    (h : q.getNowaitBefore p = .ok (item, q')) : q.getNowait = .ok (item, q') := by
  simp only [getNowaitBefore, bind_eq_ok] at h
  obtain ⟨-, -, h⟩ := h
  exact h

/-- When `putNowait` accepts an item there is room for it, and when the item is a later
arrival there is room besides for every producer the boundary waits for. -/
theorem putNowait_eq_ok_iff {q' : SeasonEventQueue ε} :
    q.putNowait item = .ok q' ↔
      (∀ b ∈ q.boundary, b < item.sequence → 0 < q.maxsize →
        q.qsize < q.maxsize - (q.waitingBefore b).card) ∧
      (0 < q.maxsize → q.qsize < q.maxsize) ∧ q' = q.putRow item := by
  unfold putNowait
  cases hb : q.boundary with
  | none =>
    simp only [bind_eq_ok, raiseIf_eq_ok, pure_eq_ok, full, decide_eq_true_eq]
    constructor
    · rintro ⟨_, h, rfl⟩
      refine ⟨fun b hb' => (by simp at hb'), fun hpos => ?_, rfl⟩
      by_contra hge
      exact h ⟨hpos, by omega⟩
    · rintro ⟨-, h, rfl⟩
      refine ⟨⟨⟩, fun ⟨hpos, hge⟩ => ?_, rfl⟩
      have := h hpos
      omega
  | some b =>
    simp only [bind_eq_ok, raiseIf_eq_ok, pure_eq_ok, full, decide_eq_true_eq]
    constructor
    · rintro ⟨_, h1, _, h2, rfl⟩
      refine ⟨fun c hc hlt hpos => ?_, fun hpos => ?_, rfl⟩
      · obtain rfl : b = c := by simpa using hc
        by_contra hge
        exact h1 ⟨hlt, hpos, by omega⟩
      · by_contra hge
        exact h2 ⟨hpos, by omega⟩
    · rintro ⟨h1, h2, rfl⟩
      refine ⟨⟨⟩, fun ⟨hlt, hpos, hge⟩ => ?_, ⟨⟩, fun ⟨hpos, hge⟩ => ?_, rfl⟩
      · have := h1 b rfl hlt hpos
        omega
      · have := h2 hpos
        omega

/-- `taskDone` retires the oldest dequeued sequence. -/
theorem taskDone_ok {q q' : SeasonEventQueue ε} (h : q.taskDone = .ok q') :
    0 < q.unfinishedTasks ∧ (q.dequeuedSequences = [] ∧
        q' = { q with unfinishedTasks := q.unfinishedTasks - 1 } ∨
      ∃ n rest, q.dequeuedSequences = n :: rest ∧ q' = { q with
        unfinishedTasks := q.unfinishedTasks - 1
        dequeuedSequences := rest
        pendingSequences := q.pendingSequences.erase n }) := by
  unfold taskDone at h
  simp only [bind_eq_ok, raiseIf_eq_ok] at h
  obtain ⟨_, hpos, h⟩ := h
  refine ⟨by omega, ?_⟩
  split at h
  · next hd =>
    rw [pure_eq_ok] at h
    exact .inl ⟨hd, h.symm⟩
  · next n rest hd =>
    rw [pure_eq_ok] at h
    exact .inr ⟨n, rest, hd, h.symm⟩

end SeasonEventQueue

end SignalArcade.Queue
