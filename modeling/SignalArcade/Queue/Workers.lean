import SignalArcade.Lib.Runs

/-!
# Joined workers

`await_worker` waits for work in a thread, which cannot be stopped: a wrapper that is cancelled, however often, waits on
until the thread exits, and raises then.
-/

namespace SignalArcade.Workers

open Runs

variable {R E : Type}

/-- How a task ends; `raised` is of an `Exception`. -/
inductive Outcome (R E : Type) where
  | returned (result : R)
  | raised (error : E)
  | cancelled

/-- The wrapper awaits the worker, keeps it after a cancellation, or has ended. -/
inductive Phase (R E : Type) where
  | awaiting
  | keeping
  | ended (outcome : Outcome R E)

/-- A caller that awaits its worker: `await_worker`. -/
structure Joined (R E : Type) where
  worker : Option (Outcome R E) := none
  phase : Phase R E := .awaiting
  /-- A cancellation is to be delivered; several are one. -/
  cancelling : Bool := false

/-- What can happen next. -/
inductive Event (R E : Type) where
  | finish (outcome : Outcome R E)
  | cancel
  /-- The event loop runs the wrapper. -/
  | wake

/-- `while not worker.done()`. -/
def Joined.keep (s : Joined R E) : Joined R E :=
  { s with
    cancelling := false
    phase := if s.worker.isSome then .ended .cancelled else .keeping }

variable (error : Option E)

/-- `except asyncio.CancelledError`, with what `on_cancel` raises. -/
def Joined.cancelled (s : Joined R E) : Joined R E :=
  match error with
  | none => s.keep
  | some error => { s with phase := .ended (.raised error) }

def Joined.wake (s : Joined R E) : Joined R E :=
  match s.phase, s.cancelling, s.worker with
  | .awaiting, true, _ | .awaiting, _, some .cancelled => s.cancelled error
  | .awaiting, _, some outcome => { s with phase := .ended outcome }
  | .keeping, true, _ | .keeping, _, some _ => s.keep
  | _, _, _ => s

/-- What each event does. -/
def Joined.step (s : Joined R E) : Event R E → Joined R E
  | .finish outcome => { s with worker := s.worker.or (some outcome) }
  | .cancel => { s with cancelling := true }
  | .wake => s.wake error

/-- How a wrapper that was cancelled ends: not before the worker, unless `on_cancel` raises. -/
def Joined.Gives (s : Joined R E) (outcome : Outcome R E) : Prop :=
  outcome = error.elim .cancelled .raised ∧ (error = none → s.worker.isSome)

/-- What holds at every step: the caller gives what the worker left. -/
structure Joined.Sound (s : Joined R E) : Prop where
  keeping : s.phase = .keeping → error = none
  ended : ∀ outcome, s.phase = .ended outcome → s.Gives error outcome ∨ s.worker = some outcome

/-- A cancellation is not forgotten. -/
structure Joined.Heard (s : Joined R E) : Prop extends s.Sound error where
  awaiting : s.phase = .awaiting → s.cancelling
  gives : ∀ outcome, s.phase = .ended outcome → s.Gives error outcome

variable {error} {s : Joined R E}

theorem Joined.Sound.step (h : s.Sound error) (event : Event R E) : (s.step error event).Sound error := by
  obtain ⟨worker, phase, cancelling⟩ := s
  obtain ⟨hkeeping, hended⟩ := h
  constructor <;> cases event <;> cases phase <;> cases error <;>
    grind [Joined.step, Joined.wake, Joined.cancelled, Joined.keep, Joined.Gives]

theorem Joined.Heard.step (h : s.Heard error) (event : Event R E) : (s.step error event).Heard error := by
  have hsound := h.toSound.step event
  obtain ⟨worker, phase, cancelling⟩ := s
  obtain ⟨⟨hkeeping, hended⟩, hawaiting, hgives⟩ := h
  refine ⟨hsound, ?_, ?_⟩ <;> cases event <;> cases phase <;> cases error <;>
    grind [Joined.step, Joined.wake, Joined.cancelled, Joined.keep, Joined.Gives]

theorem Joined.wake_ended (hworker : s.worker.isSome) : ∃ outcome, (s.wake error).phase = .ended outcome := by
  obtain ⟨_ | worker, phase, cancelling⟩ := s
  · cases hworker
  · cases worker <;> cases phase <;> cases cancelling <;> cases error <;> exact ⟨_, rfl⟩

/-- **A worker is joined.** Whenever the worker ends, and the wrapper runs and is cancelled: the wrapper ends with the
worker's outcome, or as one that is cancelled does, and so it does after any cancellation before its end. It ends as soon
as it runs after the worker. -/
theorem worker_joined (error : Option E) (events : List (Event R E)) :
    let s := run (Joined.step error) {} events
    s.Sound error ∧
      (∀ before after, events = before ++ .cancel :: after →
        (∀ outcome, (run (Joined.step error) {} before).phase ≠ .ended outcome) → s.Heard error) ∧
      (s.worker.isSome → ∃ outcome, (s.step error .wake).phase = .ended outcome) := by
  have hsound (events : List (Event R E)) : (run (Joined.step error) {} events).Sound error :=
    run_invariant ⟨nofun, nofun⟩ fun s event h => h.step event
  refine ⟨hsound events, ?_, Joined.wake_ended⟩
  rintro before after rfl hopen
  rw [run_append, run_cons]
  refine run_invariant (I := Joined.Heard error) ?_ fun s event h => h.step event
  exact ⟨(hsound before).step .cancel, fun _ => rfl, fun outcome h => absurd h (hopen outcome)⟩

end SignalArcade.Workers
