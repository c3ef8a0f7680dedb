import SignalArcade.Seasons.AutoNewSeason

/-!
# What the clock of automatic seasons verifies
-/

namespace SignalArcade.Seasons.AutoNewSeason

open Runs Option
open Clock

variable {s : State} {now : ℤ}

/-! ### Verified time -/

/-- The time up to which the clock has verified. -/
def Clock.observedUntil (c : Clock) : Option ℤ := c.pausedSince.or c.lastObservedAt

/-- The time it has earned. -/
def Clock.verified (c : Clock) : ℤ :=
  match c.eligibleSince, c.observedUntil with
  | some eligibleSince, some observedUntil => observedUntil - eligibleSince
  | _, _ => 0

/-- Five minutes or more have passed since then. -/
def Clock.interrupted (c : Clock) (now : ℤ) : Bool :=
  c.eligibleSince.isSome && c.observedUntil.any fun observedUntil => interruptionReset ≤ now - observedUntil

/-- What an eligible tick verifies: the time since the last tick, if that is short and the clock runs. -/
def Clock.gain (c : Clock) (now : ℤ) : ℤ :=
  match c.eligibleSince, c.pausedSince, c.lastObservedAt with
  | some _, none, some lastObservedAt =>
    if 0 ≤ now - lastObservedAt ∧ now - lastObservedAt ≤ maxContinuityGap then now - lastObservedAt else 0
  | _, _, _ => 0

def Clock.afterEligible (c : Clock) (now : ℤ) (verified : ℤ) : ℤ :=
  if c.interrupted now then 0 else verified + c.gain now

/-- The state, with the time that was verified since the clock was last at zero. -/
structure Log where
  state : State
  verifiedTime : ℤ := 0

/-- The time verified when a tick comes to the question whether the season is over. -/
def Log.earned (s : Log) : Action → ℤ
  | .tick tick =>
    if tick.maintenance then s.verifiedTime
    else match tick.gate with
      | .eligible =>
        if s.state.clock.eligibleSince.isNone then 0 else s.state.clock.afterEligible tick.now s.verifiedTime
      | .waitingForData => if s.state.clock.interrupted tick.now then 0 else s.verifiedTime
      | .other => 0
  -- what was not saved is not counted
  | .restart => s.verifiedTime - (s.state.clock.verified - s.state.stored.clock.verified)
  | .sold | .configure _ | .newSeason => 0

/-- What was earned is counted along. -/
def Log.step (s : Log) (a : Action) : Log :=
  ⟨s.state.step a, if s.state.rolls a then 0 else s.earned a⟩

/-- A paused clock runs on at a time not before it was paused. -/
def Log.ResumesForward (s : Log) : Action → Prop
  | .tick tick => tick.maintenance = false → tick.gate = .eligible →
    ∀ pausedSince ∈ s.state.clock.pausedSince, pausedSince ≤ tick.now
  | _ => True

instance (s : Log) : (a : Action) → Decidable (s.ResumesForward a)
  | .tick tick => inferInstanceAs (Decidable (tick.maintenance = false → tick.gate = .eligible →
    ∀ pausedSince ∈ s.state.clock.pausedSince, pausedSince ≤ tick.now))
  | .restart | .sold | .configure _ | .newSeason => inferInstanceAs (Decidable True)

def State.ends (s : State) : Action → Bool
  | .tick tick => (!tick.maintenance && tick.gate = .other) || s.rolls (.tick tick)
  | .configure _ => true
  | .restart | .sold | .newSeason => false

/-- What one action does to the verified time, the season and the deadline. -/
structure Log.Lawful (s : Log) (a : Action) : Prop where
  eligible : ∀ tick, a = .tick tick → tick.maintenance = false → tick.gate = .eligible → s.state.rolls a = false →
    (s.step a).state.clock.verified = s.state.clock.afterEligible tick.now s.state.clock.verified
  /-- Nothing else makes the time grow above zero. -/
  others : (∀ tick, a = .tick tick → tick.maintenance = false → tick.gate ≠ .eligible) →
    (s.step a).state.clock.verified ≤ max 0 s.state.clock.verified
  /-- A tick at which the gate waits for data sets the clock back after five minutes. -/
  waiting : ∀ tick, a = .tick tick → tick.maintenance = false → tick.gate = .waitingForData →
    s.state.clock.interrupted tick.now = true → (s.step a).state.clock = {}
  other : ∀ tick, a = .tick tick → tick.maintenance = false → tick.gate = .other → (s.step a).state.clock = {}
  /-- A season is rolled over when the grace time was verified without a break. -/
  rollover : s.state.rolls a = true → seconds s.state.graceSeconds ≤ s.earned a
  /-- A deadline of the current season stays until the clock ends, and is not moved later. -/
  deadline : s.state.ends a = false → ∀ r ∈ s.state.terminalResolution, r.seasonId = s.state.seasonId →
    ∃ r' ∈ (s.step a).state.terminalResolution, r'.seasonId = r.seasonId ∧ r'.deadline ≤ r.deadline

/-! ### The settings in the database -/

/-- The settings are those of the clock, but for the time of the last tick, which may be an earlier one. -/
structure State.Synced (s : State) : Prop where
  observed : s.clock.eligibleSince.isSome = true → s.clock.lastObservedAt.isSome = true
  eligibleSince : s.stored.clock.eligibleSince = s.clock.eligibleSince
  pausedSince : s.stored.clock.pausedSince = s.clock.pausedSince
  savedAt : s.stored.clock.lastObservedAt = s.clockSavedAt
  savedAt_le : ∀ last ∈ s.clock.lastObservedAt, ∃ saved ∈ s.clockSavedAt, saved ≤ last
  resolution : ∀ r ∈ s.terminalResolution, s.stored.terminalResolution = some r

@[simp] theorem setClock_clock (s : State) (c : Clock) : (s.setClock c).clock = c := by
  unfold State.setClock
  split_ifs with h
  · exact h
  · rfl

@[simp] theorem checkpoint_clock (s : State) (now : ℤ) :
    (s.checkpoint now).clock = { s.clock with lastObservedAt := some now } := by
  unfold State.checkpoint
  dsimp only
  split_ifs <;> rfl

theorem State.Synced.setClock (h : s.Synced) {c : Clock}
    (hc : c.eligibleSince.isSome = true → c.lastObservedAt.isSome = true) : (s.setClock c).Synced := by
  unfold State.setClock
  split_ifs
  · exact h
  · exact ⟨hc, rfl, rfl, rfl, fun last hlast => ⟨last, hlast, le_rfl⟩, h.resolution⟩

theorem State.Synced.checkpoint (h : s.Synced) (now : ℤ) : (s.checkpoint now).Synced := by
  unfold State.checkpoint
  dsimp only
  split_ifs with hsave
  · refine ⟨fun _ => rfl, h.eligibleSince, h.pausedSince, rfl, fun last hlast => ⟨now, rfl, ?_⟩, h.resolution⟩
    cases hlast
    exact le_rfl
  · refine ⟨fun _ => rfl, h.eligibleSince, h.pausedSince, h.savedAt, fun last hlast => ?_, h.resolution⟩
    cases hlast
    cases hsaved : s.clockSavedAt with
    | none => simp [hsaved] at hsave
    | some saved =>
      simp only [hsaved, all_some, Bool.or_eq_true, decide_eq_true_eq, not_or, not_lt] at hsave
      exact ⟨saved, rfl, by omega⟩

theorem State.Synced.resumeFrom (h : s.Synced) (eligibleSince pausedSince now : ℤ) :
    (s.resumeFrom eligibleSince pausedSince now).Synced := h.setClock fun _ => rfl

theorem State.Synced.resume (h : s.Synced) (now : ℤ) : (s.resume now).Synced := by
  unfold State.resume
  split
  · exact h.setClock fun _ => rfl
  · exact h.resumeFrom ..
  · dsimp only
    split_ifs
    · exact h.setClock fun _ => rfl
    · exact h.resumeFrom ..
    · exact h.checkpoint now
  · exact h.checkpoint now

theorem State.Synced.pause (h : s.Synced) (now : ℤ) : (s.pause now).Synced := by
  unfold State.pause
  split
  · exact h
  · rename_i eligibleSince he
    dsimp only
    split_ifs
    · exact h.setClock fun hc => by cases hc
    · exact h.setClock fun _ => h.observed (by rw [he]; rfl)
    · exact h

/-! ### Eligible ticks -/

theorem resumeFrom_clock (s : State) (eligibleSince pausedSince now : ℤ) :
    (s.resumeFrom eligibleSince pausedSince now).clock =
      ⟨some (if interruptionReset ≤ max 0 (now - pausedSince) then now else eligibleSince + max 0 (now - pausedSince)),
        none, some now⟩ := setClock_clock ..

theorem resumeFrom_verified {pausedSince : ℤ} (hle : pausedSince ≤ now) (s : State) (eligibleSince : ℤ) :
    (s.resumeFrom eligibleSince pausedSince now).clock.verified =
      if interruptionReset ≤ now - pausedSince then 0 else pausedSince - eligibleSince := by
  have hmax : max 0 (now - pausedSince) = now - pausedSince := max_eq_right (by omega)
  rw [resumeFrom_clock, hmax]
  simp only [verified, observedUntil, none_or]
  split_ifs <;> omega

theorem resumeFrom_verified_le {pausedSince : ℤ} (hlt : now < pausedSince) (s : State) (eligibleSince : ℤ) :
    (s.resumeFrom eligibleSince pausedSince now).clock.verified ≤ pausedSince - eligibleSince := by
  have hmax : max 0 (now - pausedSince) = 0 := max_eq_left (by omega)
  rw [resumeFrom_clock, hmax]
  simp only [verified, observedUntil, none_or, interruptionReset, seconds]
  split_ifs <;> omega

theorem resume_clock (s : State) (now : ℤ) (hobserved : s.clock.eligibleSince.isSome = true →
    s.clock.lastObservedAt.isSome = true) :
    ∃ eligibleSince, (s.resume now).clock = ⟨some eligibleSince, none, some now⟩ := by
  unfold State.resume
  split
  · exact ⟨_, setClock_clock ..⟩
  · exact ⟨_, resumeFrom_clock ..⟩
  · rename_i eligibleSince last he hp hl
    dsimp only
    split_ifs
    · exact ⟨_, setClock_clock ..⟩
    · exact ⟨_, resumeFrom_clock ..⟩
    · exact ⟨eligibleSince, by rw [checkpoint_clock]; dsimp only; rw [he, hp]⟩
  · rename_i he hp hl
    rw [he, hl] at hobserved
    cases hobserved rfl

theorem resume_running {s : State} {e l : ℤ} (hclock : s.clock = ⟨some e, none, some l⟩) (now : ℤ) :
    (s.resume now).clock.verified = s.clock.afterEligible now s.clock.verified := by
  obtain ⟨_, _, clock, _, _, _⟩ := s
  obtain rfl : clock = _ := hclock
  have hreset : interruptionReset = 300000000 := rfl
  have hgap : maxContinuityGap = 15000000 := rfl
  have hafter : afterEligible ⟨some e, none, some l⟩ now (verified ⟨some e, none, some l⟩) =
      if interruptionReset ≤ now - l then 0
      else l - e + if 0 ≤ now - l ∧ now - l ≤ maxContinuityGap then now - l else 0 := by
    simp [verified, afterEligible, interrupted, gain, observedUntil]
  rw [hafter]
  simp only [State.resume]
  by_cases hback : now - l < 0
  · -- the clock is shifted with the time
    have hfresh : ¬ interruptionReset ≤ now - l := by omega
    have hno : ¬ (0 ≤ now - l ∧ now - l ≤ maxContinuityGap) := by omega
    rw [if_pos hback, setClock_clock, if_neg hfresh, if_neg hno]
    simp only [verified, observedUntil, none_or]
    omega
  · by_cases hlong : maxContinuityGap < now - l
    · have hno : ¬ (0 ≤ now - l ∧ now - l ≤ maxContinuityGap) := by omega
      rw [if_neg hback, if_pos hlong, resumeFrom_verified (by omega), if_neg hno, add_zero]
    · have hfresh : ¬ interruptionReset ≤ now - l := by omega
      have hyes : 0 ≤ now - l ∧ now - l ≤ maxContinuityGap := by omega
      rw [if_neg hback, if_neg hlong, checkpoint_clock, if_neg hfresh, if_pos hyes]
      simp only [verified, observedUntil, none_or]
      omega

/-- **An eligible tick** adds what it verifies, and less only when a paused clock resumes at an earlier
time. -/
theorem resume_verified (s : State) (now : ℤ) (hobserved : s.clock.eligibleSince.isSome = true →
    s.clock.lastObservedAt.isSome = true) :
    (s.resume now).clock.verified ≤ s.clock.afterEligible now s.clock.verified ∧
      ((∀ pausedSince ∈ s.clock.pausedSince, pausedSince ≤ now) →
        (s.resume now).clock.verified = s.clock.afterEligible now s.clock.verified) := by
  suffices (s.resume now).clock.verified = s.clock.afterEligible now s.clock.verified ∨
      ∃ pausedSince ∈ s.clock.pausedSince, now < pausedSince ∧
        (s.resume now).clock.verified ≤ s.clock.afterEligible now s.clock.verified by
    rcases this with h | ⟨pausedSince, hp, hlt, hle⟩
    · exact ⟨h.le, fun _ => h⟩
    · exact ⟨hle, fun hforward => absurd (hforward pausedSince hp) (not_le.mpr hlt)⟩
  obtain ⟨_, _, ⟨eligibleSince, pausedSince, lastObservedAt⟩, _, _, _⟩ := s
  cases eligibleSince with
  | none =>
    refine .inl ?_
    simp [State.resume, verified, afterEligible, interrupted, gain, observedUntil]
  | some e =>
    cases pausedSince with
    | some p =>
      rcases le_or_gt p now with hle | hlt
      · refine .inl ((resumeFrom_verified hle _ e).trans ?_)
        simp [verified, afterEligible, interrupted, gain, observedUntil]
      · refine .inr ⟨p, rfl, hlt, (resumeFrom_verified_le hlt _ e).trans ?_⟩
        have hfresh : ¬ interruptionReset ≤ now - p := by
          simp only [interruptionReset, seconds]
          omega
        simp [verified, afterEligible, interrupted, gain, observedUntil, hfresh]
    | none =>
      cases lastObservedAt with
      | none => cases hobserved rfl
      | some l => exact .inl (resume_running rfl now)

/-! ### Other ticks -/

/-- A tick at which the gate waits for data sets the clock back after five minutes, and adds nothing
before. -/
theorem pause_spec (s : State) (now : ℤ) (hobserved : s.clock.eligibleSince.isSome = true →
    s.clock.lastObservedAt.isSome = true) :
    if s.clock.interrupted now then (s.pause now).clock = {}
    else (s.pause now).clock.verified ≤ s.clock.verified := by
  have hreset : interruptionReset = 300000000 := rfl
  obtain ⟨_, _, ⟨eligibleSince, pausedSince, lastObservedAt⟩, _, _, _⟩ := s
  cases eligibleSince with
  | none => simp [interrupted, State.pause]
  | some e =>
    cases pausedSince with
    | some p =>
      have hiff : interruptionReset ≤ now - min p now ↔ interruptionReset ≤ now - p := by omega
      simp only [interrupted, observedUntil, State.pause, some_or, getD_some,
        isSome_some, Bool.true_and, any_some, decide_eq_true_eq, hiff]
      split_ifs with hlong hpaused
      · exact setClock_clock ..
      · cases hpaused
      · exact le_refl (verified ⟨some e, some p, lastObservedAt⟩)
    | none =>
      cases lastObservedAt with
      | none => cases hobserved rfl
      | some l =>
        have hiff : interruptionReset ≤ now - min l now ↔ interruptionReset ≤ now - l := by omega
        simp only [interrupted, observedUntil, State.pause, none_or, getD_none,
          getD_some, isSome_some, Bool.true_and, any_some, decide_eq_true_eq, hiff]
        split_ifs with hlong
        · exact setClock_clock ..
        · rw [setClock_clock]
          simp only [verified, observedUntil, some_or, none_or]
          omega

/-! ### The deadline -/

@[simp] theorem currentResolution_clock (s : State) : s.currentResolution.clock = s.clock := rfl

@[simp] theorem resolve_clock (s : State) (now : ℤ) : (s.resolve now).clock = s.clock := by
  unfold State.resolve
  split
  · rfl
  · split_ifs <;> rfl

variable {r : TerminalResolution}

theorem resolve_deadline (h : s.terminalResolution = some r) (now : ℤ) :
    ∃ r' ∈ (s.resolve now).terminalResolution, r'.seasonId = r.seasonId ∧ r'.deadline ≤ r.deadline := by
  unfold State.resolve
  rw [h]
  dsimp only
  split_ifs with hlater
  · exact ⟨_, rfl, rfl, hlater.le⟩
  · exact ⟨r, h, rfl, le_rfl⟩

/-- Only the clocks differ. -/
structure State.ClockOnly (s s' : State) : Prop where
  seasonId : s'.seasonId = s.seasonId
  graceSeconds : s'.graceSeconds = s.graceSeconds
  resolution : s'.terminalResolution = s.terminalResolution

theorem setClock_frame (s : State) (c : Clock) : s.ClockOnly (s.setClock c) := by
  unfold State.setClock
  split_ifs <;> exact ⟨rfl, rfl, rfl⟩

theorem checkpoint_frame (s : State) (now : ℤ) : s.ClockOnly (s.checkpoint now) := by
  unfold State.checkpoint
  dsimp only
  split_ifs <;> exact ⟨rfl, rfl, rfl⟩

theorem resume_frame (s : State) (now : ℤ) : s.ClockOnly (s.resume now) := by
  unfold State.resume
  split
  · exact setClock_frame ..
  · exact setClock_frame ..
  · rename_i lastObservedAt _ _ _
    dsimp only
    by_cases hback : now - lastObservedAt < 0
    · rw [if_pos hback]
      exact setClock_frame ..
    · rw [if_neg hback]
      by_cases hlong : maxContinuityGap < now - lastObservedAt
      · rw [if_pos hlong]
        exact setClock_frame ..
      · rw [if_neg hlong]
        exact checkpoint_frame ..
  · exact checkpoint_frame ..

theorem pause_frame (s : State) (now : ℤ) : s.ClockOnly (s.pause now) := by
  unfold State.pause
  split
  · exact ⟨rfl, rfl, rfl⟩
  · dsimp only
    split_ifs
    · exact setClock_frame ..
    · exact setClock_frame ..
    · exact ⟨rfl, rfl, rfl⟩

/-! ### The tick -/

/-- What a tick can do. -/
inductive Ticked (s : State) (tick : Tick) : Bool × State → Prop where
  | maintenance (h : tick.maintenance = true) : Ticked s tick (false, s.currentResolution)
  | waiting (h : tick.maintenance = false) (hgate : tick.gate = .waitingForData) :
    Ticked s tick (false, s.currentResolution.pause tick.now)
  | other (h : tick.maintenance = false) (hgate : tick.gate = .other) {s' : State}
    (hs : s' = s.currentResolution.setClock {} ∧ s'.terminalResolution = none ∨
      s' = (s.currentResolution.setClock {}).setResolution none) :
    Ticked s tick (false, s')
  | early (h : tick.maintenance = false) (hgate : tick.gate = .eligible) :
    Ticked s tick (false, s.currentResolution.resume tick.now)
  | due (h : tick.maintenance = false) (hgate : tick.gate = .eligible) :
    Ticked s tick (false, (s.currentResolution.resume tick.now).resolve tick.now)
  | rolled (h : tick.maintenance = false) (hgate : tick.gate = .eligible)
    (helapsed : seconds (s.currentResolution.resume tick.now).graceSeconds ≤
      ((s.currentResolution.resume tick.now).elapsed tick.now).getD 0) :
    Ticked s tick (true, ((s.currentResolution.resume tick.now).resolve tick.now).rollover)

theorem tick_ticked (s : State) (tick : Tick) : Ticked s tick (s.tick tick) := by
  unfold State.tick
  dsimp only
  cases hm : tick.maintenance with
  | true => exact .maintenance hm
  | false =>
    cases hgate : tick.gate with
    | waitingForData => exact .waiting hm hgate
    | other =>
      cases hr : (s.currentResolution.setClock {}).terminalResolution with
      | none => simpa [hr] using Ticked.other hm hgate (.inl ⟨rfl, hr⟩)
      | some r => simpa [hr] using Ticked.other hm hgate (.inr rfl)
    | eligible =>
      by_cases hearly : ((s.currentResolution.resume tick.now).elapsed tick.now).getD 0 <
          seconds (s.currentResolution.resume tick.now).graceSeconds
      · simpa [hearly] using Ticked.early hm hgate
      · cases hroll : ((s.currentResolution.resume tick.now).resolve tick.now).rollsOver tick with
        | false => simpa [hearly, hroll] using Ticked.due hm hgate
        | true => simpa [hearly, hroll] using Ticked.rolled hm hgate (not_lt.mp hearly)

/-! ### The settings stay those of the clock -/

theorem State.Synced.currentResolution (h : s.Synced) : s.currentResolution.Synced :=
  ⟨h.observed, h.eligibleSince, h.pausedSince, h.savedAt, h.savedAt_le, fun r hr =>
    h.resolution r (mem_filter_iff.mp hr).1⟩

theorem State.Synced.setResolution (h : s.Synced) (resolution : Option TerminalResolution) :
    (s.setResolution resolution).Synced :=
  ⟨h.observed, h.eligibleSince, h.pausedSince, h.savedAt, h.savedAt_le, fun _ hr => hr⟩

theorem State.Synced.resolve (h : s.Synced) (now : ℤ) : (s.resolve now).Synced := by
  unfold State.resolve
  split
  · exact h.setResolution _
  · split_ifs
    · exact h.setResolution _
    · exact h

theorem synced_empty (hclock : s.clock = {}) (hsaved : s.clockSavedAt = none) (hstored : s.stored.clock = {})
    (hresolution : ∀ r ∈ s.terminalResolution, s.stored.terminalResolution = some r) : s.Synced where
  observed := by simp [hclock]
  eligibleSince := by rw [hstored, hclock]
  pausedSince := by rw [hstored, hclock]
  savedAt := by rw [hstored, hsaved]
  savedAt_le := by simp [hclock]
  resolution := hresolution

theorem State.Synced.tick (h : s.Synced) (tick : Tick) : (s.tick tick).2.Synced := by
  have hcurrent := h.currentResolution
  have hresume := hcurrent.resume tick.now
  have hcleared : (s.currentResolution.setClock {}).Synced := hcurrent.setClock fun hc => by cases hc
  have hticked := tick_ticked s tick
  generalize s.tick tick = ticked at hticked ⊢
  cases hticked with
  | maintenance => exact hcurrent
  | waiting => exact hcurrent.pause tick.now
  | other _ _ hs =>
    rcases hs with ⟨rfl, -⟩ | rfl
    · exact hcleared
    · exact hcleared.setResolution none
  | early => exact hresume
  | due => exact hresume.resolve tick.now
  | rolled => exact synced_empty rfl rfl rfl fun r hr => by cases hr

theorem State.Synced.restart (h : s.Synced) : s.restart.Synced where
  observed he := by
    obtain ⟨last, hlast⟩ := isSome_iff_exists.mp (h.observed (h.eligibleSince ▸ he))
    obtain ⟨saved, hsaved, -⟩ := h.savedAt_le last hlast
    exact isSome_iff_exists.mpr ⟨saved, h.savedAt.trans hsaved⟩
  eligibleSince := rfl
  pausedSince := rfl
  savedAt := rfl
  savedAt_le last hlast := ⟨last, hlast, le_rfl⟩
  resolution r hr := (mem_filter_iff.mp hr).1

theorem State.Synced.step (h : s.Synced) (a : Action) : (s.step a).Synced := by
  cases a with
  | tick tick => exact h.tick tick
  | restart => exact h.restart
  | sold =>
    unfold State.step
    dsimp only
    split_ifs
    · exact h.setClock fun hc => by cases hc
    · exact h
  | configure graceSeconds => exact synced_empty rfl rfl rfl fun r hr => by cases hr
  | newSeason => exact synced_empty rfl rfl rfl h.resolution

/-! ### The verified time -/

@[simp] theorem verified_empty : verified {} = 0 := rfl

theorem afterEligible_mono (c : Clock) (now : ℤ) {v v' : ℤ} (h : v ≤ v') :
    c.afterEligible now v ≤ c.afterEligible now v' := by
  unfold afterEligible
  split_ifs
  · exact le_rfl
  · exact Int.add_le_add_right h _

theorem verified_eq_zero {c : Clock} (h : c.eligibleSince.isSome = false) : c.verified = 0 := by
  obtain ⟨_ | e, _, _⟩ := c
  · rfl
  · cases h

theorem State.Synced.stored_verified_le (h : s.Synced) : s.stored.clock.verified ≤ s.clock.verified := by
  unfold verified observedUntil
  rw [h.eligibleSince, h.pausedSince, h.savedAt]
  cases he : s.clock.eligibleSince with
  | none => exact le_rfl
  | some e =>
    cases hp : s.clock.pausedSince with
    | some p => exact le_rfl
    | none =>
      obtain ⟨last, hlast⟩ := isSome_iff_exists.mp (h.observed (he ▸ rfl))
      obtain ⟨saved, hsaved, hle⟩ := h.savedAt_le last hlast
      rw [hlast, mem_def.mp hsaved]
      exact Int.sub_le_sub_right hle e

/-- The clock shows no more than what was verified. -/
structure Log.Sound (s : Log) : Prop where
  synced : s.state.Synced
  verified_le : s.state.clock.verified ≤ s.verifiedTime

variable {l : Log}

theorem afterEligible_none {c : Clock} (h : c.eligibleSince = none) (now v : ℤ) : c.afterEligible now v = v := by
  simp [afterEligible, interrupted, gain, h]

variable {tick : Tick} {ticked : Bool × State}

theorem Log.Sound.resume_le (h : l.Sound) (hm : tick.maintenance = false) (hgate : tick.gate = .eligible) :
    (l.state.currentResolution.resume tick.now).clock.verified ≤ l.earned (.tick tick) := by
  have hresume := (resume_verified l.state.currentResolution tick.now h.synced.observed).1
  rw [currentResolution_clock] at hresume
  simp only [Log.earned, hm, hgate, Bool.false_eq_true, if_false]
  cases he : l.state.clock.eligibleSince with
  | none =>
    have hzero : l.state.clock.verified = 0 := verified_eq_zero (by rw [he]; rfl)
    rw [afterEligible_none he, hzero] at hresume
    exact hresume
  | some e => exact hresume.trans (afterEligible_mono _ _ h.verified_le)

theorem Ticked.verified_le (hticked : Ticked l.state tick ticked) (h : l.Sound) :
    ticked.2.clock.verified ≤ if ticked.1 then 0 else l.earned (.tick tick) := by
  cases hticked with
  | maintenance hm => simpa [Log.earned, hm] using h.verified_le
  | waiting hm hgate =>
    have hpause := pause_spec l.state.currentResolution tick.now h.synced.observed
    rw [currentResolution_clock] at hpause
    simp only [Log.earned, hm, hgate, Bool.false_eq_true, if_false]
    split_ifs at hpause ⊢ with hlong
    · rw [hpause]
      exact le_rfl
    · exact hpause.trans h.verified_le
  | other hm hgate hs =>
    rcases hs with ⟨rfl, -⟩ | rfl
    · simp [Log.earned, hm, hgate]
    · simp [Log.earned, hm, hgate, State.setResolution]
  | early hm hgate => exact h.resume_le hm hgate
  | due hm hgate => exact (congrArg verified (resolve_clock ..)).trans_le (h.resume_le hm hgate)
  | rolled => exact le_rfl

theorem Log.Sound.step (h : l.Sound) (a : Action) : (l.step a).Sound := by
  refine ⟨h.synced.step a, ?_⟩
  cases a with
  | tick tick => exact (tick_ticked l.state tick).verified_le h
  | restart =>
    have hle := h.verified_le
    change l.state.stored.clock.verified ≤ l.verifiedTime - (l.state.clock.verified - l.state.stored.clock.verified)
    omega
  | sold =>
    change (if l.state.clock.eligibleSince.isSome then l.state.setClock {} else l.state).clock.verified ≤ 0
    split_ifs with he
    · rw [setClock_clock]
      exact le_rfl
    · exact (verified_eq_zero (Bool.not_eq_true _ ▸ he)).le
  | configure | newSeason => exact le_rfl

/-! ### The law -/

theorem Ticked.rolls (hticked : Ticked s tick ticked) (hrolls : ticked.1 = true) :
    tick.maintenance = false ∧ tick.gate = .eligible ∧
      seconds s.graceSeconds ≤ ((s.currentResolution.resume tick.now).elapsed tick.now).getD 0 := by
  cases hticked with
  | rolled hm hgate helapsed =>
    rw [(resume_frame s.currentResolution tick.now).graceSeconds] at helapsed
    exact ⟨hm, hgate, helapsed⟩
  | maintenance | waiting | other | early | due => cases hrolls

theorem elapsed_le (s : State) {now e : ℤ} (hclock : s.clock = ⟨some e, none, some now⟩) :
    (s.elapsed now).getD 0 ≤ max 0 s.clock.verified := by
  unfold State.elapsed
  rw [hclock]
  simp only [map_some, getD_some, getD_none, verified, observedUntil, none_or]
  exact max_le_max le_rfl (min_le_right _ _)

theorem graceSeconds_pos (graceSeconds : GraceSeconds) : 0 < seconds graceSeconds := by
  have hmin := graceSeconds.2.1
  simp only [seconds]
  omega

theorem rollover_earned (h : l.Sound) (a : Action) (hrolls : l.state.rolls a = true) :
    seconds l.state.graceSeconds ≤ l.earned a := by
  cases a with
  | tick tick =>
    obtain ⟨hm, hgate, helapsed⟩ := (tick_ticked l.state tick).rolls hrolls
    obtain ⟨e, hclock⟩ := resume_clock l.state.currentResolution tick.now h.synced.observed
    have hverified := h.resume_le hm hgate
    have hread := elapsed_le _ hclock
    have hpos := graceSeconds_pos l.state.graceSeconds
    omega
  | restart | sold | configure | newSeason => cases hrolls

theorem Ticked.deadline (hticked : Ticked s tick ticked)
    (hends : ((!tick.maintenance && tick.gate = .other) || ticked.1) = false)
    (hr : s.terminalResolution = some r) (hseason : r.seasonId = s.seasonId) :
    ∃ r' ∈ ticked.2.terminalResolution, r'.seasonId = r.seasonId ∧ r'.deadline ≤ r.deadline := by
  have hcurrent : s.currentResolution.terminalResolution = some r := by
    simp [State.currentResolution, hr, hseason]
  have hresume : (s.currentResolution.resume tick.now).terminalResolution = some r :=
    (resume_frame s.currentResolution tick.now).resolution.trans hcurrent
  cases hticked with
  | maintenance => exact ⟨r, hcurrent, rfl, le_rfl⟩
  | waiting => exact ⟨r, (pause_frame s.currentResolution tick.now).resolution.trans hcurrent, rfl, le_rfl⟩
  | other hm hgate => simp [hm, hgate] at hends
  | early => exact ⟨r, hresume, rfl, le_rfl⟩
  | due => exact resolve_deadline hresume tick.now
  | rolled => simp at hends

theorem Ticked.others (hticked : Ticked s tick ticked) (h : s.Synced)
    (hnot : tick.maintenance = false → tick.gate ≠ .eligible) :
    ticked.2.clock.verified ≤ max 0 s.clock.verified := by
  cases hticked with
  | maintenance => exact le_max_right _ _
  | waiting =>
    have hpause := pause_spec s.currentResolution tick.now h.observed
    split_ifs at hpause
    · rw [hpause]
      exact le_max_left _ _
    · exact hpause.trans (le_max_right _ _)
  | other _ _ hs =>
    rcases hs with ⟨rfl, -⟩ | rfl
    · rw [setClock_clock]
      exact le_max_left _ _
    · exact (congrArg verified (setClock_clock ..)).trans_le (le_max_left _ _)
  | early hm hgate | due hm hgate | rolled hm hgate => exact absurd hgate (hnot hm)

theorem State.Synced.others (h : s.Synced) (a : Action)
    (hnot : ∀ tick, a = .tick tick → tick.maintenance = false → tick.gate ≠ .eligible) :
    (s.step a).clock.verified ≤ max 0 s.clock.verified := by
  cases a with
  | tick tick => exact (tick_ticked s tick).others h (hnot tick rfl)
  | restart => exact h.stored_verified_le.trans (le_max_right _ _)
  | sold =>
    change (if s.clock.eligibleSince.isSome then s.setClock {} else s).clock.verified ≤ _
    split_ifs
    · rw [setClock_clock]
      exact le_max_left _ _
    · exact le_max_right _ _
  | configure | newSeason => exact le_max_left _ _

theorem Ticked.eligible (hticked : Ticked s tick ticked) (h : s.Synced)
    (hm : tick.maintenance = false) (hgate : tick.gate = .eligible) (hrolls : ticked.1 = false)
    (hforward : ∀ pausedSince ∈ s.clock.pausedSince, pausedSince ≤ tick.now) :
    ticked.2.clock.verified = s.clock.afterEligible tick.now s.clock.verified := by
  have hresume := (resume_verified s.currentResolution tick.now h.observed).2 hforward
  cases hticked with
  | maintenance hm' => rw [hm] at hm'; cases hm'
  | waiting _ hgate' | other _ hgate' => rw [hgate] at hgate'; cases hgate'
  | early => exact hresume
  | due => exact (congrArg verified (resolve_clock ..)).trans hresume
  | rolled => cases hrolls

theorem Ticked.waits (hticked : Ticked s tick ticked) (h : s.Synced)
    (hm : tick.maintenance = false) (hgate : tick.gate = .waitingForData)
    (hinterrupted : s.clock.interrupted tick.now = true) : ticked.2.clock = {} := by
  cases hticked with
  | maintenance hm' => rw [hm] at hm'; cases hm'
  | waiting =>
    have hpause := pause_spec s.currentResolution tick.now h.observed
    rwa [currentResolution_clock, if_pos hinterrupted] at hpause
  | other _ hgate' | early _ hgate' | due _ hgate' | rolled _ hgate' => rw [hgate] at hgate'; cases hgate'

theorem Ticked.clears (hticked : Ticked s tick ticked)
    (hm : tick.maintenance = false) (hgate : tick.gate = .other) : ticked.2.clock = {} := by
  cases hticked with
  | maintenance hm' => rw [hm] at hm'; cases hm'
  | other _ _ hs => rcases hs with ⟨rfl, -⟩ | rfl <;> exact setClock_clock ..
  | waiting _ hgate' | early _ hgate' | due _ hgate' | rolled _ hgate' => rw [hgate] at hgate'; cases hgate'

theorem State.Synced.deadline (h : s.Synced) (a : Action) (hends : s.ends a = false)
    (hr : s.terminalResolution = some r) (hseason : r.seasonId = s.seasonId) :
    ∃ r' ∈ (s.step a).terminalResolution, r'.seasonId = r.seasonId ∧ r'.deadline ≤ r.deadline := by
  cases a with
  | tick tick => exact (tick_ticked s tick).deadline hends hr hseason
  | restart => exact ⟨r, by simp [State.step, State.restart, h.resolution r hr, hseason], rfl, le_rfl⟩
  | sold =>
    refine ⟨r, ?_, rfl, le_rfl⟩
    change (if s.clock.eligibleSince.isSome then s.setClock {} else s).terminalResolution = some r
    split_ifs
    · exact (setClock_frame ..).resolution.trans hr
    · exact hr
  | configure => cases hends
  | newSeason => exact ⟨r, hr, rfl, le_rfl⟩

theorem Log.Sound.lawful (h : l.Sound) {a : Action} (hforward : l.ResumesForward a) : l.Lawful a where
  eligible tick ha hm hgate hrolls := by
    subst ha
    exact (tick_ticked l.state tick).eligible h.synced hm hgate hrolls (hforward hm hgate)
  others := h.synced.others a
  waiting tick ha hm hgate hinterrupted := by
    subst ha
    exact (tick_ticked l.state tick).waits h.synced hm hgate hinterrupted
  other tick ha hm hgate := by
    subst ha
    exact (tick_ticked l.state tick).clears hm hgate
  rollover := rollover_earned h a
  deadline hends _ hr hseason := h.synced.deadline a hends hr hseason

/-- The season and the configuration a run starts with. -/
def fresh (seasonId : ℕ) (graceSeconds : GraceSeconds) : Log := ⟨{ seasonId, graceSeconds }, 0⟩

theorem fresh_sound (seasonId : ℕ) (graceSeconds : GraceSeconds) : (fresh seasonId graceSeconds).Sound :=
  ⟨synced_empty rfl rfl rfl (fun r hr => by cases hr), le_rfl⟩

/-- **The clock adds up verified time, and no other**, in every run in which a paused clock runs on at times not
before it was paused. -/
theorem verified_time (seasonId : ℕ) (graceSeconds : GraceSeconds) (actions : List Action)
    (h : Along Log.step Log.ResumesForward (fresh seasonId graceSeconds) actions) :
    Along Log.step Log.Lawful (fresh seasonId graceSeconds) actions :=
  h.derive (fresh_sound seasonId graceSeconds) (fun _ a hl _ => hl.step a) fun _ _ hl hforward => hl.lawful hforward

def tickAt (time : ℤ) (gate : Gate) : Action := .tick { now := seconds time, gate }

/-- The shortest grace time. -/
def oneHour : GraceSeconds := ⟨60 * 60, by decide⟩

/-- Ten verified seconds, a pause of five, and a restart. -/
def pausedRun : List Action :=
  [tickAt 0 .eligible, tickAt 10 .eligible, tickAt 12 .waitingForData, tickAt 15 .eligible, .restart]

/-- Ten seconds are verified, beside a pause. -/
theorem verified_time_paused :
    (run Log.step (fresh 1 oneHour) pausedRun).state.clock.verified = seconds 10 ∧
      Along Log.step Log.Lawful (fresh 1 oneHour) pausedRun :=
  ⟨by decide +kernel, verified_time 1 oneHour pausedRun (by decide +kernel)⟩

/-- **A paused clock that runs on at an earlier time loses verified time.** -/
theorem verified_time_lost :
    ¬ Along Log.step Log.Lawful (fresh 1 oneHour)
      [tickAt 0 .eligible, tickAt 10 .eligible, tickAt 12 .waitingForData, tickAt 5 .eligible] := by
  rintro ⟨-, -, -, hlawful, -⟩
  have hverified := hlawful.eligible ⟨seconds 5, .eligible, false, false, true, false⟩ rfl rfl rfl (by decide +kernel)
  revert hverified
  decide +kernel

end SignalArcade.Seasons.AutoNewSeason
