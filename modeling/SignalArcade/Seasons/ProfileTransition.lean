import SignalArcade.Seasons.AutoNewSeason

/-!
# The recovery window of a profile transition

`_profile_transition_tick`, where the transition is to finish safely: pending exits and active holdings
are drained first, and dormant holdings get a recovery window, the grace time of automatic seasons,
before what is left is classified and the season is rolled over. Its clock is kept in the operation.
-/

namespace SignalArcade.Seasons.ProfileTransition

open AutoNewSeason (seconds interruptionReset clockCheckpoint GraceSeconds)

/-- `dormant_eligible_since`, `dormant_paused_since` and `dormant_last_observed_at`. -/
structure DormantClock where
  eligibleSince : Option ℤ := none
  pausedSince : Option ℤ := none
  lastObservedAt : Option ℤ := none

/-- `stage`, with the number that `detail` or `terminal_evidence_pending` tells. -/
inductive Stage where
  | drainingOrders
  | drainingPositions (active : ℕ)
  | waitingForData
  | waitingForDormantRecovery
  | waitingForTerminalEvidence (pending : ℕ)
  | waitingForPipeline
  | resumingAfterRestart
  | completed
  deriving DecidableEq

/-- The operation. -/
structure State where
  graceSeconds : GraceSeconds
  stage : Stage
  clock : DormantClock := {}

/-- What a call of the loop sees. -/
structure Tick where
  now : ℤ
  pending : Bool := false
  /-- How many holdings are not dormant. -/
  active : ℕ := 0
  /-- There are holdings. -/
  positions : Bool := true
  /-- `_rollover_market_data_healthy`. -/
  healthy : Bool := true
  waitingForProbe : ℕ := 0
  /-- `_request_rollover_boundary()`. -/
  boundary : Bool := true
  /-- `broker.rollover` raises. -/
  rolloverFails : Bool := false

/-- When the clock would have started, at a tick that finds dormant holdings and healthy data. -/
def DormantClock.resumedSince (c : DormantClock) (now : ℤ) : ℤ :=
  match c.eligibleSince, c.pausedSince with
  | none, _ => now
  | some eligibleSince, none => eligibleSince
  | some eligibleSince, some pausedSince =>
    let pausedTime := max 0 (now - pausedSince)
    if interruptionReset ≤ pausedTime then now else eligibleSince + pausedTime

/-- The time since it resumed. -/
def DormantClock.elapsed (c : DormantClock) (now : ℤ) : ℤ := max 0 (now - c.resumedSince now)

/-- Whether `_update_profile_transition_progress` finds nothing changed; the time of the last observation is
written once in a while only, where it is `checkpointed`. -/
def State.unchanged (s : State) (stage : Stage) (clock : DormantClock) (checkpointed : Bool) : Bool :=
  s.stage = stage && s.clock.eligibleSince = clock.eligibleSince && s.clock.pausedSince = clock.pausedSince &&
    (s.clock.lastObservedAt = clock.lastObservedAt ||
      checkpointed && (s.clock.lastObservedAt.any fun previous =>
        clock.lastObservedAt.any fun observed => observed - previous < clockCheckpoint))

/-- `_update_profile_transition_progress`. -/
def State.progress (s : State) (stage : Stage) (clock : DormantClock) (checkpointed : Bool) : State :=
  if s.unchanged stage clock checkpointed then s else { s with stage := stage, clock := clock }

/-- The end of the tick: the season is rolled over, if nothing is queued. -/
def State.close (s : State) (tick : Tick) : State :=
  if !tick.boundary then s.progress .waitingForPipeline s.clock false
  else if tick.rolloverFails then s
  else { s with stage := .completed }

/-- `_profile_transition_tick`. -/
def State.tick (s : State) (tick : Tick) : State :=
  if s.stage = .completed then s
  else if tick.pending then s.progress .drainingOrders {} false
  else if 0 < tick.active then s.progress (.drainingPositions tick.active) {} false
  else if !tick.positions then s.close tick
  else if !tick.healthy then
    s.progress .waitingForData { s.clock with pausedSince := some (s.clock.pausedSince.getD tick.now) } false
  else if s.clock.elapsed tick.now < seconds s.graceSeconds then
    s.progress .waitingForDormantRecovery ⟨some (s.clock.resumedSince tick.now), none, some tick.now⟩ true
  else if 0 < tick.waitingForProbe then s.progress (.waitingForTerminalEvidence tick.waitingForProbe) s.clock false
  else s.close tick

/-- What happens. -/
inductive Action where
  | tick (tick : Tick)
  | restart

def State.step (s : State) : Action → State
  | .tick tick => s.tick tick
  | .restart => if s.stage = .completed then s else { s with stage := .resumingAfterRestart }

def State.begin (graceSeconds : GraceSeconds) (stage : Stage) : State := ⟨graceSeconds, stage, {}⟩

/-! ### What a tick leaves -/

variable {s : State} {stage : Stage} {clock : DormantClock} {checkpointed : Bool} {tick : Tick}

theorem progress_clock : (s.progress stage clock checkpointed).clock.eligibleSince = clock.eligibleSince ∧
    (s.progress stage clock checkpointed).clock.pausedSince = clock.pausedSince := by
  unfold State.progress
  split_ifs with hsame
  · simp only [State.unchanged, Bool.and_eq_true, decide_eq_true_eq] at hsame
    exact ⟨hsame.1.1.2, hsame.1.2⟩
  · exact ⟨rfl, rfl⟩

theorem close_clock : (s.close tick).clock.eligibleSince = s.clock.eligibleSince ∧
    (s.close tick).clock.pausedSince = s.clock.pausedSince := by
  unfold State.close
  split_ifs
  · exact progress_clock
  · exact ⟨rfl, rfl⟩
  · exact ⟨rfl, rfl⟩

end SignalArcade.Seasons.ProfileTransition
