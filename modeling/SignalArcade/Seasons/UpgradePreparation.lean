import SignalArcade.Seasons.VerifiedTime
import SignalArcade.Lib.Table

/-!
# Upgrade preparation

`begin_upgrade_preparation` of the orchestrator stops the paper engine and the clock of automatic seasons, so that the
container can be replaced. What they were stands in the operation; `_run_upgrade_preparation` cancels the pending
orders, waits for what else is working, and is ready. It ends when it is cancelled, when it fails, or when the app
is started again.
-/

namespace SignalArcade.Seasons.Upgrade

open AutoNewSeason (Clock Gate GraceSeconds Tick seconds)

/-! ### The operation -/

/-- `OrderStatus`, of an order that was accepted. -/
inductive OrderStatus where
  | pending | filled | cancelled
  deriving DecidableEq

/-- An order, as far as the preparation waits for it. -/
structure PaperOrder where
  orderId : String
  status : OrderStatus
  deriving DecidableEq

/-- The states of an operation. -/
inductive OperationState where
  | running | ready | completed | cancelled | failed
  deriving DecidableEq

/-- Running, or ready. -/
def OperationState.active : OperationState → Bool
  | .running | .ready => true
  | _ => false

/-- `maintenance_operation`. -/
structure Operation where
  state : OperationState := .running
  previousRunning : Bool
  /-- `auto_season_remaining_seconds`, in microseconds. -/
  autoSeasonRemaining : Option ℤ
  cancelledPendingOrders : ℕ := 0
  deriving DecidableEq

/-- How far the calls that hold `maintenance_mutation_lock` and the task of the preparation are. -/
inductive Phase where
  | idle
  /-- The operation is written, with the time the clock had verified. -/
  | beginning (operation : Operation) (elapsed : Option ℤ)
  | queued
  | settling
  | stopped (cancelled : ℕ)
  | pausingAi
  | finishing
  /-- The preparation failed. -/
  | restoring
  | closing (result : OperationState)
  deriving DecidableEq

/-- The orchestrator, with its database. -/
structure State where
  /-- The process runs. -/
  up : Bool := true
  running : Bool
  maintenanceRequested : Bool := false
  maintenanceOperation : Option Operation := none
  /-- `ai_lab.maintenance_paused`. -/
  aiPaused : Bool := false
  phase : Phase := .idle
  /-- The clock and its settings. -/
  season : AutoNewSeason.State
  autoNewSeasonEnabled : Bool
  /-- `broker.initialized`. -/
  initialized : Bool
  /-- The setting `trading_enabled`. -/
  tradingEnabled : Bool
  /-- The setting `maintenance_operation`. -/
  storedOperation : Option Operation := none
  orders : Table String PaperOrder PaperOrder.orderId := .empty
  /-- The time the clock had verified as the operation began. -/
  began : Option ℤ := none
  /-- The time it had verified as it was restored. -/
  restored : Option (Option ℤ) := none

namespace State

variable (s : State)

/-- The pending orders, oldest first. -/
def pending : List String := (s.orders.rows.filter (·.status = .pending)).map (·.orderId)

def active : Bool := s.maintenanceOperation.any (·.state.active)

/-! ### Its parts -/

def writeClock (clock : Clock) : State :=
  { s with
    season := { s.season with
      clock := clock
      clockSavedAt := clock.lastObservedAt
      stored := { s.season.stored with clock := clock } } }

/-- `cancel_pending_orders`, of the first of them: all, unless it raises. -/
def cancelOrders (orderIds : List String) : State :=
  { s with orders := orderIds.foldl (fun orders orderId => orders.upsert ⟨orderId, .cancelled⟩) s.orders }

/-- `_update_maintenance_operation`. -/
def updateOperation (change : Operation → Operation) : State :=
  { s with
    maintenanceOperation := s.maintenanceOperation.map change
    storedOperation := s.maintenanceOperation.map change }

/-- `_restored_auto_season_eligible_since`. -/
def restoredEligibleSince (operation : Operation) (now : ℤ) : Option ℤ :=
  if s.autoNewSeasonEnabled ∧ operation.previousRunning ∧ s.initialized then
    operation.autoSeasonRemaining.map fun remaining =>
      let remaining := max 0 (min remaining (seconds s.season.graceSeconds))
      now - (seconds s.season.graceSeconds - remaining)
  else none

def restoreClock (operation : Operation) (now : ℤ) : State :=
  let eligibleSince := s.restoredEligibleSince operation now
  let s := s.writeClock ⟨eligibleSince, none, eligibleSince.map fun _ => now⟩
  { s with restored := some (s.season.elapsed now) }

def restoreAfterMaintenance (operation : Operation) (now : ℤ) : State :=
  { s.restoreClock operation now with running := operation.previousRunning && s.initialized }

/-- `resume_after_maintenance`, and the end of maintenance mode. -/
def leaveMaintenance (result : OperationState) : State :=
  { s with aiPaused := false, maintenanceRequested := false, phase := .closing result }

/-! ### The calls -/

/-- `begin_upgrade_preparation`, up to its write. -/
def beginPreparation (now : ℤ) : State :=
  if s.phase ≠ .idle ∨ s.active then s
  else
    let elapsed := s.season.elapsed now
    { s with
      phase := .beginning
        { previousRunning := s.running
          autoSeasonRemaining := elapsed.map fun elapsed => max 0 (seconds s.season.graceSeconds - elapsed) }
        elapsed }

/-- Its write, and what follows. -/
def commitPreparation (raises : Bool) : State :=
  match s.phase with
  | .beginning operation elapsed =>
    if raises then { s with phase := .idle }
    else
      { s.writeClock {} with
        storedOperation := some operation
        maintenanceOperation := some operation
        maintenanceRequested := true
        phase := .queued
        began := elapsed
        restored := none }
  | _ => s

/-- The engine is stopped, and the pending orders are cancelled, or as many as there were before one raised. -/
def stop (raisesAt : Option ℕ) : State :=
  match s.phase with
  | .settling =>
    let s := { s with running := false }
    match raisesAt with
    | none => { s.cancelOrders s.pending with phase := .stopped s.pending.length }
    | some n => { s.cancelOrders (s.pending.take n) with phase := .restoring }
  | _ => s

/-- The task goes on to the next write, unless that or something before it raises. -/
def advance (raises : Bool) : State :=
  match s.phase with
  | .queued => if raises then { s with phase := .restoring } else { s.updateOperation id with phase := .settling }
  | .stopped cancelled =>
    if raises then { s with phase := .restoring }
    else
      { s.updateOperation fun operation => { operation with cancelledPendingOrders := cancelled } with
        aiPaused := true
        phase := .pausingAi }
  | .pausingAi => if raises then { s with phase := .restoring } else { s.updateOperation id with phase := .finishing }
  | .finishing =>
    if raises then { s with phase := .restoring }
    else { s.updateOperation fun operation => { operation with state := .ready } with phase := .idle }
  | _ => s

/-- The preparation has failed: what was is restored, unless the write raises. -/
def fail (now : ℤ) (raises : Bool) : State :=
  match s.phase, s.maintenanceOperation with
  | .restoring, some operation =>
    if raises then s.leaveMaintenance .failed
    else (s.restoreAfterMaintenance operation now).leaveMaintenance .failed
  | _, _ => s

/-- `cancel_upgrade_preparation`, up to the write of the operation. -/
def cancel (now : ℤ) (raises : Bool) : State :=
  match s.phase, s.maintenanceOperation with
  | .idle, some operation =>
    if operation.state ≠ .ready ∨ raises then s
    else (s.restoreAfterMaintenance operation now).leaveMaintenance .cancelled
  | _, _ => s

def close (raises : Bool) : State :=
  match s.phase with
  | .closing result =>
    if raises then { s with phase := .idle }
    else { s.updateOperation fun operation => { operation with state := result } with phase := .idle }
  | _ => s

/-! ### The app is started -/

/-- The engine and its clock as they are read, where no result of the paper account has an impossible chronology: such an
account, which the source does not let run either, is left out. -/
def load : State :=
  { s with
    running := s.tradingEnabled && s.initialized
    tradingEnabled := s.tradingEnabled && s.initialized
    maintenanceRequested := s.storedOperation.any (·.state.active)
    maintenanceOperation := s.storedOperation
    aiPaused := false
    phase := .idle
    season := s.season.restart }

/-- The orders that a start cancels: those of an engine that does not run, and of an operation that was interrupted. -/
def orphaned : List String :=
  if ¬ s.running ∨ s.maintenanceOperation.any (·.state = .running) then s.pending else []

/-- `_reconcile_interrupted_maintenance_operation`. -/
def reconcile (now : ℤ) (cancelled : ℕ) : State :=
  match s.maintenanceOperation with
  | none => { s with maintenanceRequested := false }
  | some operation =>
    if ¬ operation.state.active then { s with maintenanceRequested := false }
    else
      let closed := { operation with
        state := .completed
        cancelledPendingOrders := operation.cancelledPendingOrders + cancelled }
      { s.restoreClock operation now with
        maintenanceOperation := some closed
        storedOperation := some closed
        maintenanceRequested := false }

/-- The app is started. It does not come up when something raises: after as many orders were cancelled. -/
def start (now : ℤ) (raisesAt : Option ℕ) : State :=
  if s.up then s
  else
    let loaded := s.load
    match raisesAt with
    | none =>
      let interrupted := if loaded.running then loaded.orphaned.length else 0
      { (loaded.cancelOrders loaded.orphaned).reconcile now interrupted with up := true }
    | some n => { loaded.cancelOrders (loaded.orphaned.take n) with up := false }

/-! ### What else happens -/

def place (orderId : String) : State :=
  if s.running ∧ s.orders.get? orderId = none then { s with orders := s.orders.upsert ⟨orderId, .pending⟩ } else s

def fill (orderId : String) : State :=
  if s.running ∧ orderId ∈ s.pending then { s with orders := s.orders.upsert ⟨orderId, .filled⟩ } else s

/-- `_auto_new_season_gate`: the clock runs for an engine that runs, and only when it is enabled. -/
def gate (found : Gate) : Gate :=
  if s.autoNewSeasonEnabled ∧ s.initialized ∧ s.running then found else .other

/-- `_perform_auto_new_season_tick`. -/
def tick (tick : Tick) : State :=
  { s with
    season := s.season.step (.tick { tick with gate := s.gate tick.gate, maintenance := s.maintenanceRequested }) }

end State

/-- What happens to an operation. -/
inductive Event where
  | begin (now : ℤ)
  | commit (raises : Bool)
  | stop (raisesAt : Option ℕ)
  | advance (raises : Bool)
  | fail (now : ℤ) (raises : Bool)
  | cancel (now : ℤ) (raises : Bool)
  | close (raises : Bool)
  | place (orderId : String)
  | fill (orderId : String)
  | tick (tick : Tick)
  /-- A sale makes the clock start again. -/
  | sold
  | crash
  | start (now : ℤ) (raisesAt : Option ℕ)

/-- A process that runs takes a step; one that does not is started. -/
def State.step (s : State) : Event → State
  | .start now raisesAt => s.start now raisesAt
  | event =>
    if ¬ s.up then s
    else match event with
      | .begin now => s.beginPreparation now
      | .commit raises => s.commitPreparation raises
      | .stop raisesAt => s.stop raisesAt
      | .advance raises => s.advance raises
      | .fail now raises => s.fail now raises
      | .cancel now raises => s.cancel now raises
      | .close raises => s.close raises
      | .place orderId => s.place orderId
      | .fill orderId => s.fill orderId
      | .tick tick => s.tick tick
      | .sold => { s with season := s.season.step .sold }
      | .crash => { s with up := false }
      | .start _ _ => s

end SignalArcade.Seasons.Upgrade
