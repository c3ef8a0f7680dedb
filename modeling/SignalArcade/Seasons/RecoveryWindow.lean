import SignalArcade.Seasons.ProfileTransition

/-!
# What the recovery window of a profile transition counts

Beside the operation a run keeps when dormant holdings were last observed, and how much of the time
between such observations counts: a gap that is not negative and shorter than five minutes.
-/

namespace SignalArcade.Seasons.ProfileTransition

open AutoNewSeason (seconds interruptionReset)
open Runs

/-! ### Observed time -/

def Tick.drains (tick : Tick) : Bool := tick.pending || 0 < tick.active

def Tick.observes (tick : Tick) : Bool := !tick.drains && tick.positions && tick.healthy

/-- What counts of the time since the last observation. -/
def counted (last : Option ℤ) (now : ℤ) : ℤ :=
  match last with
  | none => 0
  | some last => if 0 ≤ now - last ∧ now - last < interruptionReset then now - last else 0

/-- The operation, and what was observed since holdings were drained. -/
structure Log where
  state : State
  lastDormant : Option ℤ := none
  /-- What counts of the time between the observations. -/
  dormantTime : ℤ := 0
  /-- A pause was still recorded after the last observation. -/
  outlived : Bool := false

/-- What counts when a tick observes dormant holdings. -/
def Log.observed (s : Log) (now : ℤ) : ℤ := s.dormantTime + counted s.lastDormant now

/-- Whether an action is a tick that observes dormant holdings in the transition. -/
def Log.observes (s : Log) : Action → Bool
  | .tick tick => s.state.stage ≠ .completed && tick.observes
  | .restart => false

/-- What was observed is summed along. -/
def Log.step (s : Log) (a : Action) : Log :=
  match a with
  | .restart => { s with state := s.state.step a }
  | .tick tick =>
    if s.state.stage = .completed then s
    else if tick.drains then { state := s.state.step a }
    else if tick.observes then
      { state := s.state.step a
        lastDormant := some tick.now
        dormantTime := s.observed tick.now
        outlived := (s.state.step a).clock.pausedSince.isSome }
    else { s with state := s.state.step a }

/-- An interruption of five minutes or more is covered by such a pause. Less than that after an observation, a pause that it
has outlived is shorter, and a later one has begun at an earlier time only where nothing had elapsed. -/
def Log.Continuous (s : Log) : Action → Prop
  | .restart => True
  | .tick tick => tick.observes = true → ∀ e ∈ s.state.clock.eligibleSince, ∀ last ∈ s.lastDormant,
    if interruptionReset ≤ tick.now - last then ∃ p ∈ s.state.clock.pausedSince, interruptionReset ≤ tick.now - p
    else last ≤ tick.now → ∀ p ∈ s.state.clock.pausedSince,
      if s.outlived then tick.now - p < interruptionReset else e < last → last ≤ p

/-- What an observation compares with the window, and what ends the transition. -/
structure Log.Lawful (s : Log) (a : Action) : Prop where
  /-- The time compared is observed time. -/
  elapsed : ∀ tick, a = .tick tick → s.observes a = true → s.state.clock.elapsed tick.now ≤ s.observed tick.now
  /-- Where there are holdings, the transition ends when so much was observed. -/
  terminal : ∀ tick, a = .tick tick → tick.positions = true → s.state.stage ≠ .completed →
    (s.step a).state.stage = .completed → tick.observes = true ∧ seconds s.state.graceSeconds ≤ s.observed tick.now

/-- What the clock has is no more than what was observed. -/
structure Log.Sound (s : Log) : Prop where
  nonneg : 0 ≤ s.dormantTime
  clock : ∀ e ∈ s.state.clock.eligibleSince, ∃ last ∈ s.lastDormant,
    match s.state.clock.pausedSince with
    | none => last - e ≤ s.dormantTime
    | some p => min last p - e ≤ s.dormantTime

variable {s : Log} {a : Action} {tick : Tick}

theorem Log.step_tick : s.step (.tick tick) =
    if s.state.stage = .completed then s
    else if tick.drains then { state := s.state.tick tick }
    else if tick.observes then
      { state := s.state.tick tick
        lastDormant := some tick.now
        dormantTime := s.observed tick.now
        outlived := (s.state.tick tick).clock.pausedSince.isSome }
    else { s with state := s.state.tick tick } := rfl

theorem counted_nonneg (last : Option ℤ) (now : ℤ) : 0 ≤ counted last now := by
  unfold counted
  split
  · exact le_rfl
  · split_ifs with h
    · exact h.1
    · exact le_rfl

theorem Log.Sound.elapsed_le (h : s.Sound) (hobserves : tick.observes = true) (hcontinuous : s.Continuous (.tick tick)) :
    s.state.clock.elapsed tick.now ≤ s.observed tick.now := by
  have hnonneg : 0 ≤ s.observed tick.now := add_nonneg h.nonneg (counted_nonneg _ _)
  apply max_le hnonneg
  unfold DormantClock.resumedSince
  cases heligible : s.state.clock.eligibleSince with
  | none => simpa using hnonneg
  | some e =>
    obtain ⟨last, hlast, hclock⟩ := h.clock e heligible
    have hcovered := hcontinuous hobserves e heligible last hlast
    rw [Option.mem_def] at hlast
    unfold Log.observed counted at hnonneg ⊢
    rw [hlast] at hnonneg ⊢
    cases hpaused : s.state.clock.pausedSince with
    | none =>
      rw [hpaused] at hclock hcovered
      dsimp only at hclock hnonneg ⊢
      split_ifs at hcovered hnonneg ⊢ <;> simp at hcovered <;> omega
    | some p =>
      rw [hpaused] at hclock hcovered
      dsimp only at hclock hnonneg ⊢
      by_cases hreset : interruptionReset ≤ max 0 (tick.now - p)
      · rw [if_pos hreset]
        simpa using hnonneg
      · rw [if_neg hreset]
        split_ifs at hcovered hnonneg ⊢ <;> simp at hcovered <;> omega

/-! ### One tick -/

variable {state : State} {since elapsed : ℤ}

theorem tick_of_not_drains (hrunning : state.stage ≠ .completed) (hdrains : tick.drains = false) :
    state.tick tick =
      if !tick.positions then state.close tick
      else if !tick.healthy then
        state.progress .waitingForData { state.clock with pausedSince := some (state.clock.pausedSince.getD tick.now) } false
      else if state.clock.elapsed tick.now < seconds state.graceSeconds then
        state.progress .waitingForDormantRecovery ⟨some (state.clock.resumedSince tick.now), none, some tick.now⟩ true
      else if 0 < tick.waitingForProbe then state.progress (.waitingForTerminalEvidence tick.waitingForProbe) state.clock false
      else state.close tick := by
  simp only [Tick.drains, Bool.or_eq_false_iff, decide_eq_false_iff_not] at hdrains
  unfold State.tick
  rw [if_neg hrunning, if_neg (by simp [hdrains.1]), if_neg hdrains.2]

theorem observes_iff : tick.observes = true ↔ tick.drains = false ∧ tick.positions = true ∧ tick.healthy = true := by
  simp [Tick.observes, and_assoc]

theorem drains_clock (hrunning : state.stage ≠ .completed) (hdrains : tick.drains = true) :
    (state.tick tick).clock.eligibleSince = none ∧ (state.tick tick).clock.pausedSince = none := by
  unfold State.tick
  rw [if_neg hrunning]
  split_ifs with hpending hactive
  · exact progress_clock
  · exact progress_clock
  all_goals simp [Tick.drains, hpending, hactive] at hdrains

theorem observes_clock (hrunning : state.stage ≠ .completed) (hobserves : tick.observes = true) :
    (state.clock.elapsed tick.now < seconds state.graceSeconds ∧
        (state.tick tick).clock.eligibleSince = some (state.clock.resumedSince tick.now) ∧
        (state.tick tick).clock.pausedSince = none ∧ (state.tick tick).stage ≠ .completed) ∨
      (seconds state.graceSeconds ≤ state.clock.elapsed tick.now ∧
        (state.tick tick).clock.eligibleSince = state.clock.eligibleSince ∧
        (state.tick tick).clock.pausedSince = state.clock.pausedSince) := by
  obtain ⟨hdrains, hpositions, hhealthy⟩ := observes_iff.mp hobserves
  rw [tick_of_not_drains hrunning hdrains, if_neg (by simp [hpositions]), if_neg (by simp [hhealthy])]
  by_cases helapsed : state.clock.elapsed tick.now < seconds state.graceSeconds
  · rw [if_pos helapsed]
    refine .inl ⟨helapsed, progress_clock.1, progress_clock.2, ?_⟩
    unfold State.progress
    split_ifs
    · exact hrunning
    · simp
  · rw [if_neg helapsed]
    refine .inr ⟨not_lt.mp helapsed, ?_⟩
    split_ifs
    · exact progress_clock
    · exact close_clock

theorem unobserved_clock (hrunning : state.stage ≠ .completed) (hdrains : tick.drains = false)
    (hobserves : tick.observes = false) :
    (state.tick tick).clock.eligibleSince = state.clock.eligibleSince ∧
      ((state.tick tick).clock.pausedSince = state.clock.pausedSince ∨
        state.clock.pausedSince = none ∧ (state.tick tick).clock.pausedSince = some tick.now) := by
  rw [tick_of_not_drains hrunning hdrains]
  by_cases hpositions : tick.positions = true
  · have hhealthy : tick.healthy = false := by
      cases hhealthy : tick.healthy with
      | false => rfl
      | true => simp [Tick.observes, hdrains, hpositions, hhealthy] at hobserves
    rw [if_neg (by simp [hpositions]), if_pos (by simp [hhealthy])]
    refine ⟨progress_clock.1, ?_⟩
    rw [progress_clock.2]
    cases state.clock.pausedSince with
    | none => exact .inr ⟨rfl, rfl⟩
    | some p => exact .inl rfl
  · rw [if_pos (by simp [hpositions])]
    exact ⟨close_clock.1, .inl close_clock.2⟩

theorem grace_pos (state : State) : 0 < seconds state.graceSeconds := by
  obtain ⟨n, hn⟩ := state.graceSeconds
  show 0 < n * 1000000
  omega

theorem elapsed_of_over {c : DormantClock} {now : ℤ} (h : 0 < c.elapsed now) :
    ∃ e ∈ c.eligibleSince, match c.pausedSince with
      | none => c.elapsed now = now - e
      | some p => c.elapsed now = min now p - e := by
  obtain ⟨eligible, paused, last⟩ := c
  unfold DormantClock.elapsed DormantClock.resumedSince at h ⊢
  cases eligible with
  | none => simp at h
  | some e =>
    refine ⟨e, rfl, ?_⟩
    cases paused with
    | none =>
      dsimp only at h ⊢
      omega
    | some p =>
      dsimp only at h ⊢
      split_ifs at h ⊢ <;> omega

/-- A step without a gap keeps the sums. -/
theorem Log.Sound.step (h : s.Sound) (hcontinuous : s.Continuous a) : (s.step a).Sound := by
  cases a with
  | restart =>
    refine ⟨h.nonneg, ?_⟩
    have hclock : (s.state.step .restart).clock = s.state.clock := by
      unfold State.step
      split_ifs <;> rfl
    show ∀ e ∈ (s.state.step .restart).clock.eligibleSince, _
    rw [Log.step, hclock]
    exact h.clock
  | tick tick =>
    rw [Log.step_tick]
    by_cases hrunning : s.state.stage = .completed
    · rw [if_pos hrunning]
      exact h
    · rw [if_neg hrunning]
      by_cases hdrains : tick.drains = true
      · rw [if_pos hdrains]
        refine ⟨le_rfl, ?_⟩
        intro e he
        rw [show (s.state.tick tick).clock.eligibleSince = none from (drains_clock hrunning hdrains).1] at he
        cases he
      · rw [if_neg hdrains]
        by_cases hobserves : tick.observes = true
        · rw [if_pos hobserves]
          have helapsed := h.elapsed_le hobserves hcontinuous
          refine ⟨add_nonneg h.nonneg (counted_nonneg _ _), ?_⟩
          dsimp only
          intro e he
          refine ⟨tick.now, rfl, ?_⟩
          rcases observes_clock hrunning hobserves with ⟨-, heligible, hpaused, -⟩ | ⟨hover, heligible, hpaused⟩
          · have he' : (s.state.tick tick).clock.eligibleSince = some e := he
            rw [heligible, Option.some_inj] at he'
            subst he'
            rw [show (s.state.tick tick).clock.pausedSince = none from hpaused]
            exact (le_max_right _ _).trans helapsed
          · have he' : (s.state.tick tick).clock.eligibleSince = some e := he
            obtain ⟨e', he'', hmatch⟩ := elapsed_of_over ((grace_pos s.state).trans_le hover)
            rw [heligible, he'', Option.some_inj] at he'
            subst he'
            rw [show (s.state.tick tick).clock.pausedSince = s.state.clock.pausedSince from hpaused]
            cases hp : s.state.clock.pausedSince with
            | none =>
              rw [hp] at hmatch
              dsimp only at hmatch ⊢
              rw [← hmatch]
              exact helapsed
            | some p =>
              rw [hp] at hmatch
              dsimp only at hmatch ⊢
              rw [← hmatch]
              exact helapsed
        · rw [if_neg hobserves]
          refine ⟨h.nonneg, ?_⟩
          obtain ⟨heligible, hpaused⟩ := unobserved_clock hrunning (by simpa using hdrains) (by simpa using hobserves)
          dsimp only
          intro e he
          rw [show (s.state.tick tick).clock.eligibleSince = _ from heligible] at he
          obtain ⟨last, hlast, hclock⟩ := h.clock e he
          refine ⟨last, hlast, ?_⟩
          rcases hpaused with hsame | ⟨hnone, hnow⟩
          · rw [show (s.state.tick tick).clock.pausedSince = _ from hsame]
            exact hclock
          · rw [show (s.state.tick tick).clock.pausedSince = _ from hnow]
            rw [hnone] at hclock
            dsimp only at hclock ⊢
            omega

/-- The sums bound what is shown. -/
theorem Log.Sound.lawful (h : s.Sound) (hcontinuous : s.Continuous a) : s.Lawful a where
  elapsed := by
    rintro tick rfl hobserves
    simp only [Log.observes, Bool.and_eq_true] at hobserves
    exact h.elapsed_le hobserves.2 hcontinuous
  terminal := by
    rintro tick rfl hpositions hrunning hcompleted
    have hstate : (s.step (.tick tick)).state = s.state.tick tick := by
      rw [Log.step_tick, if_neg hrunning]
      split_ifs <;> rfl
    rw [hstate] at hcompleted
    have hprogress : ∀ stage clock checkpointed, stage ≠ .completed →
        (s.state.progress stage clock checkpointed).stage ≠ .completed := by
      intro stage clock checkpointed hstage
      unfold State.progress
      split_ifs
      · exact hrunning
      · exact hstage
    unfold State.tick at hcompleted
    rw [if_neg hrunning] at hcompleted
    split_ifs at hcompleted with hpending hactive hnone hhealthy helapsed hprobe
    · exact absurd hcompleted (hprogress _ _ _ (by simp))
    · exact absurd hcompleted (hprogress _ _ _ (by simp))
    · simp [hpositions] at hnone
    · exact absurd hcompleted (hprogress _ _ _ (by simp))
    · exact absurd hcompleted (hprogress _ _ _ (by simp))
    · exact absurd hcompleted (hprogress _ _ _ (by simp))
    · have hobserves : tick.observes = true := by
        simp [Tick.observes, Tick.drains, hpending, hactive, hpositions] at hhealthy ⊢
        exact hhealthy
      exact ⟨hobserves, (not_lt.mp helapsed).trans (h.elapsed_le hobserves hcontinuous)⟩

/-! ### Between two observations -/

/-- An action between two observations, with which nothing is drained. -/
def Unobserved : Action → Prop
  | .restart => True
  | .tick tick => tick.drains = false ∧ tick.observes = false

/-- What is left after an observation: what it compared is still there, and a pause that it outlived takes nothing of it. -/
structure Holds (s : Log) (since elapsed : ℤ) : Prop where
  last : s.lastDormant = some since
  outlived : s.outlived = true → s.state.clock.pausedSince.isSome = true
  elapsed_le : ∃ e ∈ s.state.clock.eligibleSince, elapsed ≤ max 0 (since - e) ∧
    ∀ p ∈ s.state.clock.pausedSince, s.outlived = true → elapsed ≤ max 0 (p - e)

theorem holds_observed (hobserves : s.observes (.tick tick) = true) :
    Holds (s.step (.tick tick)) tick.now (s.state.clock.elapsed tick.now) := by
  simp only [Log.observes, Bool.and_eq_true, decide_eq_true_eq] at hobserves
  obtain ⟨hrunning, hobserves⟩ := hobserves
  have hdrains := (observes_iff.mp hobserves).1
  have hstep : s.step (.tick tick) =
      { state := s.state.tick tick
        lastDormant := some tick.now
        dormantTime := s.observed tick.now
        outlived := (s.state.tick tick).clock.pausedSince.isSome } := by
    rw [Log.step_tick, if_neg hrunning, if_neg (by simp [hdrains]), if_pos hobserves]
  rw [hstep]
  refine ⟨rfl, id, ?_⟩
  rcases observes_clock hrunning hobserves with ⟨-, heligible, hpaused, -⟩ | ⟨hover, heligible, hpaused⟩
  · refine ⟨_, heligible, le_rfl, fun p hp => ?_⟩
    dsimp only at hp
    rw [hpaused] at hp
    cases hp
  · obtain ⟨e, he, hmatch⟩ := elapsed_of_over ((grace_pos s.state).trans_le hover)
    refine ⟨e, heligible.trans he, ?_⟩
    dsimp only
    rw [hpaused]
    cases hp : s.state.clock.pausedSince with
    | none =>
      rw [hp] at hmatch
      dsimp only at hmatch
      rw [hmatch]
      exact ⟨le_max_right _ _, nofun⟩
    | some p =>
      rw [hp] at hmatch
      dsimp only at hmatch
      rw [hmatch]
      refine ⟨by omega, fun p' hp' _ => ?_⟩
      obtain rfl := Option.mem_some_iff.mp hp'
      omega

theorem step_of_completed (h : s.state.stage = .completed) : s.step a = s := by
  cases a with
  | restart =>
    unfold Log.step State.step
    rw [if_pos h]
  | tick tick => rw [Log.step_tick, if_pos h]

theorem Holds.unobserved (h : Holds s since elapsed) (ha : Unobserved a) : Holds (s.step a) since elapsed := by
  by_cases hrunning : s.state.stage = .completed
  · rw [step_of_completed hrunning]
    exact h
  cases a with
  | restart =>
    have hstep : s.step .restart = { s with state := { s.state with stage := .resumingAfterRestart } } := by
      unfold Log.step State.step
      rw [if_neg hrunning]
    rw [hstep]
    exact ⟨h.last, h.outlived, h.elapsed_le⟩
  | tick tick =>
    obtain ⟨hdrains, hobserves⟩ := ha
    have hstep : s.step (.tick tick) = { s with state := s.state.tick tick } := by
      rw [Log.step_tick, if_neg hrunning, if_neg (by simp [hdrains]), if_neg (by simp [hobserves])]
    rw [hstep]
    obtain ⟨heligible, hpaused⟩ := unobserved_clock hrunning hdrains hobserves
    obtain ⟨e, he, helapsed, houtlived⟩ := h.elapsed_le
    rcases hpaused with hsame | ⟨hnone, hnow⟩
    · refine ⟨h.last, ?_, e, heligible.trans he, helapsed, ?_⟩
      · exact fun hout => hsame ▸ h.outlived hout
      · exact fun p hp => houtlived p (hsame ▸ hp)
    · -- a pause that begins now was not there at the observation
      have hlater : s.outlived ≠ true := fun hout => by simpa [hnone] using h.outlived hout
      exact ⟨h.last, fun hout => absurd hout hlater, e, heligible.trans he, helapsed, fun _ _ hout => absurd hout hlater⟩

theorem Holds.le_elapsed (h : Holds s since elapsed) (hobserves : tick.observes = true)
    (hcontinuous : s.Continuous (.tick tick)) (hlate : since ≤ tick.now) (hnear : tick.now - since < interruptionReset) :
    elapsed ≤ s.state.clock.elapsed tick.now := by
  obtain ⟨e, he, hle, houtlived⟩ := h.elapsed_le
  have hpause := hcontinuous hobserves e he since h.last
  rw [if_neg (not_le.mpr hnear)] at hpause
  replace hpause := hpause hlate
  rw [Option.mem_def] at he
  unfold DormantClock.elapsed DormantClock.resumedSince
  rw [he]
  cases hp : s.state.clock.pausedSince with
  | none =>
    dsimp only
    omega
  | some p =>
    replace hpause := hpause p hp
    have hreset : 0 < interruptionReset := by decide
    dsimp only
    cases hout : s.outlived with
    | true =>
      rw [if_pos hout] at hpause
      have hle' := houtlived p hp hout
      rw [if_neg (by omega)]
      omega
    | false =>
      rw [if_neg (by simp [hout])] at hpause
      by_cases hsome : e < since
      · have hp' := hpause hsome
        rw [if_neg (by omega)]
        omega
      · omega

theorem Holds.run {between : List Action} (h : Holds s since elapsed)
    (hbetween : ∀ a ∈ between, Unobserved a) : Holds (run Log.step s between) since elapsed := by
  induction between generalizing s with
  | nil => exact h
  | cons a between ih =>
    exact ih (h.unobserved (hbetween a List.mem_cons_self)) fun a' ha' => hbetween a' (List.mem_cons_of_mem _ ha')

/-! ### Every run -/

def Log.begin (graceSeconds : AutoNewSeason.GraceSeconds) (stage : Stage) : Log := ⟨.begin graceSeconds stage, none, 0, false⟩

theorem begin_sound (graceSeconds : AutoNewSeason.GraceSeconds) (stage : Stage) : (Log.begin graceSeconds stage).Sound where
  nonneg := le_rfl
  clock := fun e he => by cases he

/-- The time compared does not decrease from one observation to the next one, within five minutes. -/
def Monotone (start : Log) (actions : List Action) : Prop :=
  ∀ before tick between tick' after, actions = before ++ .tick tick :: (between ++ .tick tick' :: after) →
    (run Log.step start before).observes (.tick tick) = true → (∀ a ∈ between, Unobserved a) →
    (run Log.step start (before ++ .tick tick :: between)).observes (.tick tick') = true →
    tick.now ≤ tick'.now → tick'.now - tick.now < interruptionReset →
      (run Log.step start before).state.clock.elapsed tick.now ≤
        (run Log.step start (before ++ .tick tick :: between)).state.clock.elapsed tick'.now

/-- **The recovery window counts observed time only**, in every run in which interruptions of five minutes
are covered by a pause, and pauses do not outlive an observation by so much or begin before it. -/
theorem recovery_window (graceSeconds : AutoNewSeason.GraceSeconds) (stage : Stage) (actions : List Action)
    (h : Along Log.step Log.Continuous (Log.begin graceSeconds stage) actions) :
    Along Log.step Log.Lawful (Log.begin graceSeconds stage) actions ∧ Monotone (Log.begin graceSeconds stage) actions := by
  constructor
  · exact h.derive (begin_sound graceSeconds stage) (fun _ _ hsound hc => hsound.step hc) fun _ _ hsound hc => hsound.lawful hc
  · rintro before tick between tick' after rfl hobserves hbetween hobserves' hlate hnear
    have hcontinuous : (run Log.step (Log.begin graceSeconds stage) (before ++ .tick tick :: between)).Continuous (.tick tick') := by
      have hsplit := along_iff.mp h (before ++ .tick tick :: between) (.tick tick') after
      exact hsplit (by simp)
    have hholds := (holds_observed hobserves).run hbetween
    rw [← run_cons, ← run_append] at hholds
    simp only [Log.observes, Bool.and_eq_true] at hobserves'
    exact hholds.le_elapsed hobserves'.2 hcontinuous hlate hnear

def hour : AutoNewSeason.GraceSeconds := ⟨3600, by decide⟩

/-- Two observations, with an outage of an hour between them. -/
def outage : List Action := [.tick { now := 0 }, .tick { now := seconds 3600 }]

/-- A window that is over, with a pause just before it; a holding waits for its probe. -/
def pausedAtEnd : List Action :=
  (List.range 19).map (fun n : ℕ => .tick { now := seconds (200 * n) }) ++ [.tick { now := seconds 3700, healthy := false }]

/-- The observation after the pause. -/
def waitingTick : Tick := { now := seconds 3800, waitingForProbe := 1 }

/-- A pause that begins at an earlier time than the last observation. -/
def pausedBefore : List Action :=
  (List.range 6).map (fun n : ℕ => .tick { now := seconds (200 * n) }) ++ [.tick { now := seconds 800, healthy := false }]

/-- An outage is counted as a whole, and ends the transition; a pause that is five minutes old sets back
what a tick less than five minutes before has compared, and so does one that begins before that tick. -/
theorem outage_counted :
    (run Log.step (Log.begin hour .drainingOrders) outage).state.stage = .completed ∧
      (run Log.step (Log.begin hour .drainingOrders) outage).dormantTime = 0 ∧
      (run Log.step (Log.begin ⟨3700, by decide⟩ .drainingOrders) pausedAtEnd).state.clock.elapsed (seconds 3800) = seconds 3700 ∧
      (run Log.step (Log.begin ⟨3700, by decide⟩ .drainingOrders) (pausedAtEnd ++ [.tick waitingTick])).state.clock.elapsed
        (seconds 4050) = 0 ∧
      (run Log.step (Log.begin hour .drainingOrders) (pausedBefore.take 5)).state.clock.elapsed (seconds 1000) = seconds 1000 ∧
      (run Log.step (Log.begin hour .drainingOrders) pausedBefore).state.clock.elapsed (seconds 1001) = seconds 800 := by
  refine ⟨?_, ?_, ?_, ?_, ?_, ?_⟩ <;> decide +kernel

/-- A minute and a half between two observations. -/
def brief : List Action := [.tick { now := 0 }, .restart, .tick { now := seconds 90 }]

/-- A restart between two observations. -/
theorem recovery_window_sample : Along Log.step Log.Lawful (Log.begin hour .drainingOrders) brief ∧
    Monotone (Log.begin hour .drainingOrders) brief := by
  refine recovery_window hour .drainingOrders brief ⟨?_, trivial, ?_, trivial⟩
  · intro _ e he
    cases he
  · intro _ e _ last hlast
    obtain rfl : last = 0 := (Option.some_inj.mp hlast).symm
    rw [if_neg (by decide)]
    intro _ p hp
    cases hp

end SignalArcade.Seasons.ProfileTransition
