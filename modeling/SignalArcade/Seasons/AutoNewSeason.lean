import SignalArcade.Lib.Runs
import Mathlib.Algebra.Order.Group.Int

/-!
# The clock of automatic seasons

The season tick of the orchestrator. While the gate finds the season worn out, a clock
adds up the time for which that was verified, from one tick to the next; when it reaches
the grace time, holdings that wait for evidence get five more minutes, and then the season
is rolled over. The clock is the time it would have started at without interruptions, the
time it is paused since and the time of its last tick, which is saved every thirty seconds.
-/

namespace SignalArcade.Seasons.AutoNewSeason

open Runs

def seconds (n : ℤ) : ℤ := n * 1000000

/-- `AUTO_NEW_SEASON_DATA_INTERRUPTION_RESET_SECONDS`. -/
def interruptionReset : ℤ := seconds (5 * 60)

/-- `AUTO_NEW_SEASON_MAX_CONTINUITY_GAP_SECONDS`. -/
def maxContinuityGap : ℤ := seconds 15

/-- `AUTO_NEW_SEASON_CLOCK_CHECKPOINT_SECONDS`. -/
def clockCheckpoint : ℤ := seconds 30

/-- `AUTO_NEW_SEASON_TERMINAL_RESOLUTION_SECONDS`. -/
def resolutionTime : ℤ := seconds (5 * 60)

/-- The grace time, which is clamped when it is loaded and checked when it is changed:
`AUTO_NEW_SEASON_MIN_GRACE_SECONDS` to `AUTO_NEW_SEASON_MAX_GRACE_SECONDS`. -/
abbrev GraceSeconds : Type := { n : ℤ // 60 * 60 ≤ n ∧ n ≤ 24 * 60 * 60 }

/-- What the idle clock keeps. -/
structure Clock where
  eligibleSince : Option ℤ := none
  pausedSince : Option ℤ := none
  lastObservedAt : Option ℤ := none
  deriving DecidableEq

/-- The time waiting holdings get. -/
structure TerminalResolution where
  seasonId : ℕ
  startedAt : ℤ
  deadline : ℤ

/-- The settings in the database. -/
structure Stored where
  clock : Clock := {}
  terminalResolution : Option TerminalResolution := none

/-- What the season tick works on. -/
structure State where
  seasonId : ℕ := 0
  graceSeconds : GraceSeconds
  clock : Clock := {}
  /-- `_auto_new_season_clock_saved_at`. -/
  clockSavedAt : Option ℤ := none
  terminalResolution : Option TerminalResolution := none
  stored : Stored := {}

/-! ### The clock -/

/-- `_set_auto_new_season_clock`. -/
def State.setClock (s : State) (clock : Clock) : State :=
  if s.clock = clock then s
  else { s with clock := clock, clockSavedAt := clock.lastObservedAt, stored := { s.stored with clock := clock } }

/-- `_checkpoint_auto_new_season_clock`. -/
def State.checkpoint (s : State) (now : ℤ) : State :=
  let s := { s with clock := { s.clock with lastObservedAt := some now } }
  if s.clockSavedAt.all fun savedAt => now - savedAt < 0 || clockCheckpoint ≤ now - savedAt then
    { s with
      clockSavedAt := some now
      stored := { s.stored with clock := { s.stored.clock with lastObservedAt := some now } } }
  else s

/-- `_pause_auto_new_season_clock`. -/
def State.pause (s : State) (now : ℤ) : State :=
  match s.clock.eligibleSince with
  | none => s
  | some eligibleSince =>
    let pausedSince := min (s.clock.pausedSince.getD (s.clock.lastObservedAt.getD now)) now
    if interruptionReset ≤ now - pausedSince then s.setClock {}
    else if s.clock.pausedSince = none then
      s.setClock ⟨some eligibleSince, some pausedSince, s.clock.lastObservedAt⟩
    else s

/-- A clock that was paused runs on. -/
def State.resumeFrom (s : State) (eligibleSince pausedSince now : ℤ) : State :=
  let pausedTime := max 0 (now - pausedSince)
  let resumedSince := if interruptionReset ≤ pausedTime then now else eligibleSince + pausedTime
  s.setClock ⟨some resumedSince, none, some now⟩

/-- `_resume_auto_new_season_clock`. -/
def State.resume (s : State) (now : ℤ) : State :=
  match s.clock.eligibleSince, s.clock.pausedSince, s.clock.lastObservedAt with
  | none, _, _ => s.setClock ⟨some now, none, some now⟩
  | some eligibleSince, some pausedSince, _ => s.resumeFrom eligibleSince pausedSince now
  | some eligibleSince, none, some lastObservedAt =>
    let continuityGap := now - lastObservedAt
    if continuityGap < 0 then s.setClock ⟨some (eligibleSince + continuityGap), none, some now⟩
    else if maxContinuityGap < continuityGap then s.resumeFrom eligibleSince lastObservedAt now
    else s.checkpoint now
  | some _, none, none => s.checkpoint now

/-- `_auto_new_season_elapsed_seconds`. -/
def State.elapsed (s : State) (now : ℤ) : Option ℤ :=
  s.clock.eligibleSince.map fun eligibleSince =>
    max 0 (min (seconds s.graceSeconds) (s.clock.pausedSince.getD now - eligibleSince))

/-! ### The tick -/

/-- `_auto_new_season_gate`. -/
inductive Gate where
  | eligible | waitingForData | other
  deriving DecidableEq

/-- What a call of the loop sees. -/
structure Tick where
  now : ℤ
  gate : Gate
  /-- `_maintenance_requested`. -/
  maintenance : Bool := false
  waitingForProbe : Bool := false
  /-- `_request_rollover_boundary()`. -/
  boundary : Bool := true
  /-- `broker.rollover` raises. -/
  rolloverFails : Bool := false

def State.setResolution (s : State) (resolution : Option TerminalResolution) : State :=
  { s with terminalResolution := resolution, stored := { s.stored with terminalResolution := resolution } }

/-- The resolution starts when the grace time is over. A deadline that is too far away is shortened, never
extended. -/
def State.resolve (s : State) (now : ℤ) : State :=
  match s.terminalResolution with
  | none => s.setResolution (some ⟨s.seasonId, now, now + resolutionTime⟩)
  | some resolution =>
    if now + resolutionTime < resolution.deadline then
      s.setResolution (some { resolution with deadline := now + resolutionTime })
    else s

/-- The part of the tick after the grace time: whether the season is rolled over. -/
def State.rollsOver (s : State) (tick : Tick) : Bool :=
  !(tick.waitingForProbe && s.terminalResolution.all fun resolution => tick.now < resolution.deadline) &&
    tick.boundary && !tick.rolloverFails

/-- A season follows the current one. -/
def State.rollover (s : State) : State :=
  { s with
    seasonId := s.seasonId + 1
    clock := {}
    clockSavedAt := none
    terminalResolution := none
    stored := {} }

/-- A resolution of another season is none. -/
def State.currentResolution (s : State) : State :=
  { s with terminalResolution := s.terminalResolution.filter (·.seasonId = s.seasonId) }

/-- `_perform_auto_new_season_tick`: whether the season is rolled over, and the state after it. -/
def State.tick (s : State) (tick : Tick) : Bool × State :=
  let s := s.currentResolution
  if tick.maintenance then (false, s)
  else match tick.gate with
    | .waitingForData => (false, s.pause tick.now)
    | .other =>
      let s := s.setClock {}
      (false, if s.terminalResolution.isSome then s.setResolution none else s)
    | .eligible =>
      let s := s.resume tick.now
      if (s.elapsed tick.now).getD 0 < seconds s.graceSeconds then (false, s)
      else
        let s := s.resolve tick.now
        if s.rollsOver tick then (true, s.rollover) else (false, s)

/-- What happens between the ticks as well: a restart, a sale that clears the clock, a change of the
configuration, which clears all, and a new season by other means. -/
inductive Action where
  | tick (tick : Tick)
  | restart
  | sold
  | configure (graceSeconds : GraceSeconds)
  | newSeason

/-- The process starts from the settings. -/
def State.restart (s : State) : State :=
  { s with
    clock := s.stored.clock
    clockSavedAt := s.stored.clock.lastObservedAt
    terminalResolution := s.stored.terminalResolution.filter (·.seasonId = s.seasonId) }

/-- `configure_auto_new_season`. -/
def State.configure (s : State) (graceSeconds : GraceSeconds) : State :=
  { s with graceSeconds := graceSeconds, clock := {}, clockSavedAt := none, terminalResolution := none, stored := {} }

/-- `reset_paper_state` and what follows it. -/
def State.newSeason (s : State) : State :=
  { s with seasonId := s.seasonId + 1, clock := {}, clockSavedAt := none, stored := { s.stored with clock := {} } }

def State.step (s : State) : Action → State
  | .tick tick => (s.tick tick).2
  | .restart => s.restart
  | .sold => if s.clock.eligibleSince.isSome then s.setClock {} else s
  | .configure graceSeconds => s.configure graceSeconds
  | .newSeason => s.newSeason

def State.rolls (s : State) : Action → Bool
  | .tick tick => (s.tick tick).1
  | _ => false

end SignalArcade.Seasons.AutoNewSeason
