import SignalArcade.Challenger.Collection

/-!
# What a loop over the horizons writes

A trajectory `Advances` by checkpoints at horizons that had none, each together with those of its trials. Both loops
do no more than that, `observed_advances` and `expired_advances`. A trajectory that advances keeps what it had,
`Advances.kept`; an outcome is new only where one was allowed, `Advances.timely`; and the trial of the size that was
bought has the outcome of its trajectory, `Advances.sound`.
-/

namespace SignalArcade.Challenger.Collection

open List Option

open Paper (Instant)
open Market.Features (TokenState)

/-- The outcome of a checkpoint: when it was taken, the return and the value. -/
def LearningCheckpoint.outcome (checkpoint : LearningCheckpoint) : Instant × Option ℚ × Option ℤ :=
  (checkpoint.observedAt, checkpoint.netReturn, checkpoint.exitValueLamports)

variable {reason : String}

section sold

variable {state : TokenState} {now : Instant} {horizon : ℕ} {cost : ℤ} {reason reason' : String}
  {quote : Except ExitError Paper.CurveQuote}

@[simp] theorem sold_horizonSeconds : (LearningCheckpoint.sold state now horizon cost reason quote).horizonSeconds = horizon := by
  cases quote <;> rfl

@[simp] theorem sold_observedAt : (LearningCheckpoint.sold state now horizon cost reason quote).observedAt = now := by
  cases quote <;> rfl

theorem sold_outcome : (LearningCheckpoint.sold state now horizon cost reason quote).outcome =
    (LearningCheckpoint.sold state now horizon cost reason' quote).outcome := by
  cases quote <;> rfl

theorem sold_netReturn_isSome :
    (LearningCheckpoint.sold state now horizon cost reason quote).netReturn.isSome = quote.isOk := by
  cases quote <;> rfl

end sold

/-! ### Trajectories that advance -/

/-- A trajectory advances: attempts are counted, and checkpoints are written at horizons that had none. What is written
of a trial is an outcome only where an outcome of the trajectory is allowed. -/
inductive Advances (economics : Option Economics) (allowed : ℕ → Prop) : Trajectory → Trajectory → Prop where
  | attempts {row : Trajectory} (attempts : ℕ → ℕ) :
    Advances economics allowed row { row with checkpointAttempts := attempts }
  | record {row : Trajectory} (checkpoint : LearningCheckpoint) (ofTrial : ChallengerSizeTrial → LearningCheckpoint)
    (mem : checkpoint.horizonSeconds ∈ learningHorizonsSeconds)
    (fresh : row.checkpoints.get? checkpoint.horizonSeconds = none)
    (together : ∀ trial, (ofTrial trial).horizonSeconds = checkpoint.horizonSeconds ∧
      (ofTrial trial).observedAt = checkpoint.observedAt)
    (timely : checkpoint.netReturn.isSome = true → allowed checkpoint.horizonSeconds)
    (trialTimely : ∀ trial, (ofTrial trial).netReturn.isSome = true → allowed checkpoint.horizonSeconds)
    (same : ∀ trial : ChallengerSizeTrial, trial.eligibleAtEntry = true → economics.isSome = true →
      trial.economics = economics → (ofTrial trial).outcome = checkpoint.outcome) :
    Advances economics allowed row (row.record checkpoint ofTrial)
  | trans {row row' row'' : Trajectory} (first : Advances economics allowed row row')
    (second : Advances economics allowed row' row'') : Advances economics allowed row row''

variable {economics : Option Economics} {allowed : ℕ → Prop} {row row' : Trajectory}

theorem Advances.refl : Advances economics allowed row row := .attempts row.checkpointAttempts

theorem get?_record (trial : ChallengerSizeTrial) (checkpoint : LearningCheckpoint) (horizon : ℕ) :
    (trial.record checkpoint).checkpoints.get? horizon =
      (trial.checkpoints.get? horizon).or (if horizon = checkpoint.horizonSeconds then some checkpoint else none) := by
  unfold ChallengerSizeTrial.record
  by_cases hsome : (trial.checkpoints.get? checkpoint.horizonSeconds).isSome = true
  · rw [if_pos hsome]
    by_cases hh : horizon = checkpoint.horizonSeconds
    · subst hh
      obtain ⟨c, hc⟩ := isSome_iff_exists.mp hsome
      rw [hc]
      rfl
    · rw [if_neg hh, or_none]
  · rw [if_neg hsome, Table.get?_upsert]
    rw [not_isSome_iff_eq_none] at hsome
    by_cases hh : horizon = checkpoint.horizonSeconds
    · rw [if_pos hh, if_pos hh, hh, hsome, none_or]
    · rw [if_neg hh, if_neg hh, or_none]

@[simp] theorem record_economics (trial : ChallengerSizeTrial) (checkpoint : LearningCheckpoint) :
    (trial.record checkpoint).economics = trial.economics := by
  unfold ChallengerSizeTrial.record
  split_ifs <;> rfl

@[simp] theorem record_eligibleAtEntry (trial : ChallengerSizeTrial) (checkpoint : LearningCheckpoint) :
    (trial.record checkpoint).eligibleAtEntry = trial.eligibleAtEntry := by
  unfold ChallengerSizeTrial.record
  split_ifs <;> rfl

/-! ### What it had it keeps -/

/-- No checkpoint is changed or lost. -/
def KeptIn (checkpoints checkpoints' : Checkpoints) : Prop :=
  ∀ horizon checkpoint, checkpoints.get? horizon = some checkpoint → checkpoints'.get? horizon = some checkpoint

/-- The same trajectory, with the checkpoints it had. -/
structure Trajectory.Kept (row row' : Trajectory) : Prop where
  mint : row'.mint = row.mint
  enteredAt : row'.enteredAt = row.enteredAt
  checkpoints : KeptIn row.checkpoints row'.checkpoints
  trials : ∀ multiplier trial, row.sizeTrials multiplier = some trial →
    ∃ trial', row'.sizeTrials multiplier = some trial' ∧ KeptIn trial.checkpoints trial'.checkpoints

theorem Trajectory.Kept.refl (row : Trajectory) : row.Kept row where
  mint := rfl
  enteredAt := rfl
  checkpoints _ _ h := h
  trials _ trial h := ⟨trial, h, fun _ _ h => h⟩

theorem Trajectory.Kept.trans {row'' : Trajectory} (h : row.Kept row') (h' : row'.Kept row'') : row.Kept row'' where
  mint := h'.mint.trans h.mint
  enteredAt := h'.enteredAt.trans h.enteredAt
  checkpoints horizon checkpoint hc := h'.checkpoints horizon checkpoint (h.checkpoints horizon checkpoint hc)
  trials multiplier trial htrial := by
    obtain ⟨trial', htrial', hkept⟩ := h.trials multiplier trial htrial
    obtain ⟨trial'', htrial'', hkept'⟩ := h'.trials multiplier trial' htrial'
    exact ⟨trial'', htrial'', fun horizon checkpoint hc => hkept' horizon checkpoint (hkept horizon checkpoint hc)⟩

/-- **Written once**: what a trajectory had is not changed. -/
theorem Advances.kept (h : Advances economics allowed row row') : row.Kept row' := by
  induction h with
  | attempts attempts => exact ⟨rfl, rfl, fun _ _ h => h, fun _ trial h => ⟨trial, h, fun _ _ h => h⟩⟩
  | @record row checkpoint ofTrial mem fresh together timely trialTimely same =>
    refine ⟨rfl, rfl, fun horizon c hc => ?_, fun multiplier trial htrial => ?_⟩
    · show (row.checkpoints.upsert checkpoint).get? horizon = some c
      rw [Table.get?_upsert]
      split_ifs with hh
      · rw [hh, fresh] at hc
        cases hc
      · exact hc
    · refine ⟨trial.record (ofTrial trial), ?_, fun horizon c hc => ?_⟩
      · show (row.sizeTrials multiplier).map _ = _
        rw [htrial]
        rfl
      · rw [get?_record, hc]
        rfl
  | trans first second ih ih' => exact ih.trans ih'

/-! ### What is new -/

/-- An outcome that is new is one that is allowed. -/
structure Trajectory.Timely (allowed : ℕ → Prop) (row row' : Trajectory) : Prop where
  own : ∀ horizon checkpoint, row'.checkpoints.get? horizon = some checkpoint →
    row.checkpoints.get? horizon = some checkpoint ∨ (checkpoint.netReturn.isSome = true → allowed horizon)
  trials : ∀ multiplier trial', row'.sizeTrials multiplier = some trial' → ∃ trial, row.sizeTrials multiplier = some trial ∧
    ∀ horizon checkpoint, trial'.checkpoints.get? horizon = some checkpoint →
      trial.checkpoints.get? horizon = some checkpoint ∨ (checkpoint.netReturn.isSome = true → allowed horizon)

theorem Advances.timely (h : Advances economics allowed row row') : row.Timely allowed row' := by
  induction h with
  | attempts attempts => exact ⟨fun _ _ h => .inl h, fun _ trial h => ⟨trial, h, fun _ _ h => .inl h⟩⟩
  | @record row checkpoint ofTrial mem fresh together timely trialTimely same =>
    refine ⟨fun horizon c hc => ?_, fun multiplier trial' htrial' => ?_⟩
    · replace hc : (row.checkpoints.upsert checkpoint).get? horizon = some c := hc
      rw [Table.get?_upsert] at hc
      split_ifs at hc with hh
      · obtain rfl := some_inj.mp hc
        exact .inr fun hreturn => hh ▸ timely hreturn
      · exact .inl hc
    · obtain ⟨trial, htrial, rfl⟩ := map_eq_some_iff.mp htrial'
      refine ⟨trial, htrial, fun horizon c hc => ?_⟩
      rw [get?_record, or_eq_some_iff] at hc
      rcases hc with hc | ⟨-, hc⟩
      · exact .inl hc
      · rw [(together trial).1] at hc
        split_ifs at hc with hh
        obtain rfl := some_inj.mp hc
        exact .inr fun hreturn => hh ▸ trialTimely trial hreturn
  | trans first second ih ih' =>
    refine ⟨fun horizon c hc => ?_, fun multiplier trial'' htrial'' => ?_⟩
    · rcases ih'.own horizon c hc with hc | hc
      · exact ih.own horizon c hc
      · exact .inr hc
    · obtain ⟨trial', htrial', hnew'⟩ := ih'.trials multiplier trial'' htrial''
      obtain ⟨trial, htrial, hnew⟩ := ih.trials multiplier trial' htrial'
      refine ⟨trial, htrial, fun horizon c hc => ?_⟩
      rcases hnew' horizon c hc with hc | hc
      · exact hnew horizon c hc
      · exact .inr hc

/-! ### The trial of the size that was bought -/

/-- What holds of every trajectory: its checkpoints are at the horizons, each of a trial was observed with its own, and the
trial of the size that was bought has its outcomes. -/
structure Trajectory.Sound (row : Trajectory) (economics : Option Economics) : Prop where
  horizons : ∀ checkpoint ∈ row.checkpoints, checkpoint.horizonSeconds ∈ learningHorizonsSeconds
  follows : ∀ multiplier trial, row.sizeTrials multiplier = some trial → ∀ horizon checkpoint,
    trial.checkpoints.get? horizon = some checkpoint →
      ∃ own, row.checkpoints.get? horizon = some own ∧ own.observedAt = checkpoint.observedAt
  bought : ∀ trial, row.sizeTrials 1 = some trial → trial.eligibleAtEntry = true →
    economics.isSome = true ∧ trial.economics = economics ∧ ∀ horizon,
      (trial.checkpoints.get? horizon).map LearningCheckpoint.outcome =
        (row.checkpoints.get? horizon).map LearningCheckpoint.outcome

/-- No trial is ahead of its trajectory. -/
theorem Trajectory.Sound.behind (h : row.Sound economics) {multiplier : ℚ} {trial : ChallengerSizeTrial} {horizon : ℕ}
    (htrial : row.sizeTrials multiplier = some trial) (hnone : row.checkpoints.get? horizon = none) :
    trial.checkpoints.get? horizon = none := by
  by_contra hsome
  obtain ⟨checkpoint, hcheckpoint⟩ := ne_none_iff_exists'.mp hsome
  obtain ⟨own, hown, -⟩ := h.follows multiplier trial htrial horizon checkpoint hcheckpoint
  rw [hnone] at hown
  cases hown

theorem Advances.sound (h : Advances economics allowed row row') (hsound : row.Sound economics) : row'.Sound economics := by
  induction h with
  | attempts attempts => exact ⟨hsound.horizons, hsound.follows, hsound.bought⟩
  | @record row checkpoint ofTrial mem fresh together timely trialTimely same =>
    refine ⟨Table.forall_mem_upsert mem hsound.horizons, fun multiplier trial' htrial' horizon c hc => ?_,
      fun trial' htrial' heligible => ?_⟩
    · obtain ⟨trial, htrial, rfl⟩ := map_eq_some_iff.mp htrial'
      show ∃ own, (row.checkpoints.upsert checkpoint).get? horizon = some own ∧ _
      rw [get?_record, or_eq_some_iff] at hc
      rw [Table.get?_upsert]
      rcases hc with hc | ⟨-, hc⟩
      · obtain ⟨own, hown, hat⟩ := hsound.follows multiplier trial htrial horizon c hc
        rw [if_neg fun hh => by rw [hh, fresh] at hown; cases hown]
        exact ⟨own, hown, hat⟩
      · rw [(together trial).1] at hc
        split_ifs at hc ⊢
        obtain rfl := some_inj.mp hc
        exact ⟨checkpoint, rfl, (together trial).2.symm⟩
    · obtain ⟨trial, htrial, rfl⟩ := map_eq_some_iff.mp htrial'
      rw [record_eligibleAtEntry] at heligible
      obtain ⟨hsome, heconomics, houtcome⟩ := hsound.bought trial htrial heligible
      refine ⟨hsome, by rw [record_economics, heconomics], fun horizon => ?_⟩
      show _ = ((row.checkpoints.upsert checkpoint).get? horizon).map _
      rw [get?_record, Table.get?_upsert, (together trial).1]
      by_cases hh : horizon = checkpoint.horizonSeconds
      · rw [if_pos hh, if_pos hh, hh, hsound.behind htrial fresh, none_or]
        exact congrArg some (same trial heligible hsome heconomics)
      · rw [if_neg hh, if_neg hh, or_none, houtcome]
  | trans first second ih ih' => exact ih' (ih hsound)

theorem Advances.status (h : Advances economics allowed row row') : row'.status = row.status := by
  induction h with
  | attempts attempts => rfl
  | record checkpoint ofTrial mem fresh together timely trialTimely same => rfl
  | trans first second ih ih' => exact ih'.trans ih

/-! ### The loops -/

/-- The time between the horizon and the end of its grace. -/
def InWindow (enteredAt now : Instant) (horizon : ℕ) : Prop :=
  seconds horizon ≤ now - enteredAt ∧ now - enteredAt ≤ seconds (horizon + checkpointGraceSeconds)

theorem InWindow.unique {enteredAt now : Instant} {horizon horizon' : ℕ} (hmem : horizon ∈ learningHorizonsSeconds)
    (hmem' : horizon' ∈ learningHorizonsSeconds) (h : InWindow enteredAt now horizon)
    (h' : InWindow enteredAt now horizon') : horizon = horizon' := by
  obtain ⟨h1, h2⟩ := h
  obtain ⟨h1', h2'⟩ := h'
  simp only [learningHorizonsSeconds, mem_cons, not_mem_nil, or_false] at hmem hmem'
  unfold seconds checkpointGraceSeconds at *
  have h3 : (1000000 * horizon : ℤ) ≤ 1000000 * (horizon' + 90 : ℕ) := h1.trans h2'
  have h4 : (1000000 * horizon' : ℤ) ≤ 1000000 * (horizon + 90 : ℕ) := h1'.trans h2
  omega

theorem inWindow_of_age {now : Instant} {horizon : ℕ} (hpos : 0 < horizon) (h : seconds horizon ≤ row.age now)
    (h' : row.age now ≤ seconds (horizon + checkpointGraceSeconds)) : InWindow row.enteredAt now horizon := by
  have hage : row.age now = now - row.enteredAt := by
    refine max_eq_right ?_
    by_contra hneg
    have hzero : row.age now = 0 := max_eq_left (not_le.mp hneg).le
    rw [hzero, seconds] at h
    omega
  rw [hage] at h h'
  exact ⟨h, h'⟩

theorem pos_of_mem {horizon : ℕ} (h : horizon ∈ learningHorizonsSeconds) : 0 < horizon := by
  simp only [learningHorizonsSeconds, mem_cons, not_mem_nil, or_false] at h
  omega

theorem recordMissing_advances {horizon : ℕ} {now : Instant} (hmem : horizon ∈ learningHorizonsSeconds)
    (hfresh : row.checkpoints.get? horizon = none) :
    Advances economics allowed row (row.recordMissing horizon now reason) := by
  refine .record _ _ hmem hfresh (fun _ => ⟨rfl, rfl⟩) (fun h => ?_) (fun _ h => ?_) fun _ _ _ _ => rfl
  · cases h
  · cases h

section observe

variable {context : Context} {state : TokenState} {now : Instant} {cached : Bool} {pass : Pass} {horizon : ℕ}

/-- The route may be quoted. -/
def Quotable (context : Context) (state : TokenState) (now : Instant) (cached : Bool) : Prop :=
  routeMissingReason state now context.staleMarketSeconds cached = none

/-- What a horizon of `observe_market` does: it counts an attempt at most, or writes that there is no outcome, or quotes
the exit, in time and on a route that may be quoted. -/
theorem Pass.observe_cases (context : Context) (state : TokenState) (now : Instant) (cached : Bool)
    (economics : Option Economics) (pass : Pass) (hmem : horizon ∈ learningHorizonsSeconds) :
    (∃ attempts, pass.observe context state now cached economics horizon = pass.attempted attempts) ∨
    pass.row.checkpoints.get? horizon = none ∧ ∃ attempts,
      (∃ reason, pass.observe context state now cached economics horizon =
        (pass.attempted attempts).wrote horizon ((pass.attempted attempts).row.recordMissing horizon now reason)
          pass.becameAvailable) ∨
      (InWindow pass.row.enteredAt now horizon ∧ Quotable context state now cached ∧ ∃ bought, economics = some bought ∧
        pass.observe context state now cached economics horizon =
          (pass.attempted attempts).quote context state now bought horizon) := by
  unfold Pass.observe
  by_cases hskip : (pass.row.checkpoints.get? horizon).isSome = true ∨ pass.row.age now < seconds horizon
  · rw [if_pos hskip]
    exact .inl ⟨pass.row.checkpointAttempts, rfl⟩
  · rw [if_neg hskip]
    rw [not_or, not_isSome_iff_eq_none, not_lt] at hskip
    obtain ⟨hfresh, hdue⟩ := hskip
    dsimp only
    set attempts := Function.update pass.row.checkpointAttempts horizon (pass.row.checkpointAttempts horizon + 1)
    by_cases hlate : seconds (horizon + checkpointGraceSeconds) < (pass.attempted attempts).row.age now
    · rw [if_pos hlate]
      exact .inr ⟨hfresh, attempts, .inl ⟨_, rfl⟩⟩
    · have hwindow : InWindow pass.row.enteredAt now horizon :=
        inWindow_of_age (pos_of_mem hmem) hdue (not_lt.mp hlate)
      rw [if_neg hlate]
      by_cases hroute : (routeMissingReason state now context.staleMarketSeconds cached).isSome = true
      · rw [if_pos hroute]
        exact .inl ⟨attempts, rfl⟩
      · rw [if_neg hroute]
        cases economics with
        | none => exact .inr ⟨hfresh, attempts, .inl ⟨_, rfl⟩⟩
        | some bought =>
          exact .inr ⟨hfresh, attempts, .inr ⟨hwindow, not_isSome_iff_eq_none.mp hroute, bought, rfl, rfl⟩⟩

theorem Pass.quote_advances {bought : Economics} (hmem : horizon ∈ learningHorizonsSeconds)
    (hfresh : pass.row.checkpoints.get? horizon = none) (hallowed : allowed horizon) :
    Advances (some bought) allowed pass.row (pass.quote context state now bought horizon).row := by
  refine .record _ _ ?_ ?_ (fun trial => ?_) (fun _ => ?_) (fun trial _ => ?_) fun trial heligible _ hsame => ?_
  · rwa [sold_horizonSeconds]
  · rwa [sold_horizonSeconds]
  · rw [sold_horizonSeconds, sold_observedAt]
    unfold Trajectory.sizeCheckpoint
    split
    · split_ifs
      · exact ⟨sold_horizonSeconds, sold_observedAt⟩
      · exact ⟨rfl, rfl⟩
    · exact ⟨rfl, rfl⟩
  · rwa [sold_horizonSeconds]
  · rwa [sold_horizonSeconds]
  · unfold Trajectory.sizeCheckpoint
    rw [hsame]
    dsimp only
    rw [if_pos heligible]
    exact sold_outcome

theorem Pass.observe_advances (hmem : horizon ∈ learningHorizonsSeconds)
    (hallowed : InWindow pass.row.enteredAt now horizon → Quotable context state now cached → allowed horizon) :
    Advances economics allowed pass.row (pass.observe context state now cached economics horizon).row := by
  obtain ⟨attempts, h⟩ | ⟨hfresh, attempts, ⟨reason, h⟩ | ⟨hwindow, hroute, bought, rfl, h⟩⟩ :=
    Pass.observe_cases context state now cached economics pass hmem
  · rw [h]
    exact .attempts attempts
  · rw [h]
    exact .trans (.attempts attempts) (recordMissing_advances hmem hfresh)
  · rw [h]
    have hattempted : (pass.attempted attempts).row.checkpoints.get? horizon = none := hfresh
    exact .trans (.attempts attempts) (Pass.quote_advances hmem hattempted (hallowed hwindow hroute))

/-- **The loop** of `observe_market` advances the trajectory, with outcomes that are in time and from a route that may be
quoted. -/
theorem observed_advances (context : Context) (state : TokenState) (now : Instant) (cached : Bool)
    (economics : Option Economics) (row : Trajectory) : Advances economics
    (fun horizon => InWindow row.enteredAt now horizon ∧ Quotable context state now cached) row
    (row.observed context state now cached economics).row := by
  unfold Trajectory.observed
  refine foldlRecOn (motive := fun pass : Pass => Advances economics _ row pass.row) _ _ .refl fun pass h horizon hmem => ?_
  refine h.trans (Pass.observe_advances hmem fun hwindow hroute => ?_)
  rw [h.kept.enteredAt] at hwindow
  exact ⟨hwindow, hroute⟩

end observe

section expire

variable {now : Instant} {reason : String} {pass : Pass} {horizon : ℕ}

theorem Pass.expire_cases (now : Instant) (reason : String) (pass : Pass) (horizon : ℕ) : pass.expire now reason horizon = pass ∨ pass.row.checkpoints.get? horizon = none ∧
    pass.expire now reason horizon =
      pass.wrote horizon (pass.row.recordMissing horizon now reason) pass.becameAvailable := by
  unfold Pass.expire
  split_ifs with hskip
  · exact .inl rfl
  · rw [not_or, not_isSome_iff_eq_none] at hskip
    exact .inr ⟨hskip.1, rfl⟩

/-- **The loop** of `expire_checkpoints` advances the trajectory, without an outcome. -/
theorem expired_advances (now : Instant) (reason : String) (economics : Option Economics) (row : Trajectory) :
    Advances economics (fun _ => False) row (row.expired now reason).row := by
  unfold Trajectory.expired
  refine foldlRecOn (motive := fun pass : Pass => Advances economics _ row pass.row) _ _ .refl fun pass h horizon hmem => ?_
  rcases Pass.expire_cases now reason pass horizon with he | ⟨hfresh, he⟩
  · rw [he]
    exact h
  · rw [he]
    exact h.trans (recordMissing_advances hmem hfresh)

end expire

/-! ### The primary outcome -/

/-- The trajectory has an outcome at the primary horizon. -/
def Trajectory.usable (row : Trajectory) : Bool :=
  (row.checkpoints.get? primaryHorizonSeconds).any fun checkpoint => checkpoint.netReturn.isSome

theorem Trajectory.Kept.usable (h : row.Kept row') (husable : row.usable = true) : row'.usable = true := by
  unfold Trajectory.usable at *
  cases hc : row.checkpoints.get? primaryHorizonSeconds with
  | none =>
    rw [hc] at husable
    cases husable
  | some checkpoint =>
    rw [h.checkpoints _ _ hc]
    rwa [hc] at husable

theorem usable_eq_false (h : row.checkpoints.get? primaryHorizonSeconds = none) : row.usable = false := by
  rw [Trajectory.usable, h]
  rfl

theorem Trajectory.Timely.usable (h : row.Timely allowed row') (hnot : row.usable = false) (husable : row'.usable = true) :
    allowed primaryHorizonSeconds := by
  unfold Trajectory.usable at *
  cases hc : row'.checkpoints.get? primaryHorizonSeconds with
  | none =>
    rw [hc] at husable
    cases husable
  | some checkpoint =>
    rw [hc] at husable
    rcases h.own _ _ hc with hc' | hallowed
    · rw [hc'] at hnot
      exact absurd (husable.symm.trans hnot) Bool.noConfusion
    · exact hallowed husable

/-- What the loop knows of the primary outcome: it became available in time, or the trajectory has none that it had not. -/
structure Pass.Counts (row : Trajectory) (now : Instant) (pass : Pass) : Prop where
  kept : row.Kept pass.row
  available : pass.becameAvailable = true → InWindow row.enteredAt now primaryHorizonSeconds ∧
    pass.primaryChanged = true ∧ row.usable = false ∧ pass.row.usable = true
  usable : pass.row.usable = true → row.usable = true ∨ pass.becameAvailable = true

variable {context : Context} {state : TokenState} {now : Instant} {cached : Bool} {pass : Pass} {horizon : ℕ}

theorem usable_record {checkpoint : LearningCheckpoint} {ofTrial : ChallengerSizeTrial → LearningCheckpoint} :
    (row.record checkpoint ofTrial).usable =
      if primaryHorizonSeconds = checkpoint.horizonSeconds then checkpoint.netReturn.isSome else row.usable := by
  show ((row.checkpoints.upsert checkpoint).get? primaryHorizonSeconds).any _ = _
  rw [Table.get?_upsert]
  split_ifs <;> rfl

theorem Pass.Counts.attempted (h : pass.Counts row now) (attempts : ℕ → ℕ) : (pass.attempted attempts).Counts row now where
  kept := ⟨h.kept.mint, h.kept.enteredAt, h.kept.checkpoints, h.kept.trials⟩
  available := h.available
  usable := h.usable

theorem Pass.Counts.missing (h : pass.Counts row now) (hmem : horizon ∈ learningHorizonsSeconds)
    (hfresh : pass.row.checkpoints.get? horizon = none) :
    (pass.wrote horizon (pass.row.recordMissing horizon now reason) pass.becameAvailable).Counts row now := by
  have hadvances : Advances none (fun _ => True) pass.row (pass.row.recordMissing horizon now reason) :=
    recordMissing_advances hmem hfresh
  have hkept := h.kept.trans hadvances.kept
  have husable : (pass.row.recordMissing horizon now reason).usable =
      if primaryHorizonSeconds = horizon then false else pass.row.usable := usable_record
  by_cases hprimary : primaryHorizonSeconds = horizon
  · -- no outcome was there, and none is now
    subst hprimary
    rw [if_pos rfl] at husable
    have hnot : pass.becameAvailable = false := by
      rw [← Bool.not_eq_true]
      intro havailable
      have hbefore := (h.available havailable).2.2.2
      rw [usable_eq_false hfresh] at hbefore
      cases hbefore
    refine ⟨hkept, fun havailable => ?_, fun hafter => ?_⟩
    · exact absurd (hnot.symm.trans havailable) Bool.noConfusion
    · exact absurd (husable.symm.trans hafter) Bool.noConfusion
  · rw [if_neg hprimary] at husable
    refine ⟨hkept, fun havailable => ?_, fun hafter => h.usable (husable ▸ hafter)⟩
    obtain ⟨hwindow, hchanged, hbefore, hafter⟩ := h.available havailable
    refine ⟨hwindow, ?_, hbefore, husable.trans hafter⟩
    show (pass.primaryChanged || _) = true
    rw [hchanged, Bool.true_or]

theorem Pass.Counts.quote {bought : Economics} (h : pass.Counts row now) (hmem : horizon ∈ learningHorizonsSeconds)
    (hfresh : pass.row.checkpoints.get? horizon = none) (hwindow : InWindow row.enteredAt now horizon) :
    (pass.quote context state now bought horizon).Counts row now := by
  have hadvances : Advances (some bought) (fun _ => True) pass.row (pass.quote context state now bought horizon).row :=
    Pass.quote_advances hmem hfresh trivial
  have hkept := h.kept.trans hadvances.kept
  unfold Pass.quote at hkept ⊢
  dsimp only at hkept ⊢
  set exit := exitQuote state bought.tokenUnits pass.row.feeBps (pass.row.checkpointNetworkFee context)
  set after := pass.row.record
    (.sold state now horizon bought.entryCostLamports "executable_exit_quote_unavailable" exit)
    (pass.row.sizeCheckpoint context state now horizon) with hafter
  have husable : after.usable = if primaryHorizonSeconds = horizon then exit.isOk else pass.row.usable := by
    rw [hafter, usable_record, sold_horizonSeconds, sold_netReturn_isSome]
  have hmissing : primaryHorizonSeconds = horizon → pass.row.usable = false ∧ pass.becameAvailable = false := by
    rintro rfl
    refine ⟨usable_eq_false hfresh, ?_⟩
    rw [← Bool.not_eq_true]
    intro havailable
    have hbefore := (h.available havailable).2.2.2
    rw [usable_eq_false hfresh] at hbefore
    cases hbefore
  cases hexit : exit with
  | ok quote =>
    rw [hexit] at husable
    by_cases hprimary : primaryHorizonSeconds = horizon
    · rw [if_pos hprimary] at husable
      refine ⟨hkept, fun _ => ⟨hprimary ▸ hwindow, ?_, ?_, husable⟩, fun _ => .inr (decide_eq_true hprimary.symm)⟩
      · show (pass.primaryChanged || decide (horizon = primaryHorizonSeconds)) = true
        rw [decide_eq_true hprimary.symm, Bool.or_true]
      · rw [← Bool.not_eq_true]
        intro hbefore
        have husable' := h.kept.usable hbefore
        rw [(hmissing hprimary).1] at husable'
        cases husable'
    · rw [if_neg hprimary] at husable
      refine ⟨hkept, fun havailable => ?_, fun hafter => ?_⟩
      · exact absurd (of_decide_eq_true havailable).symm hprimary
      · rcases h.usable (husable ▸ hafter) with hbefore | havailable
        · exact .inl hbefore
        · -- two horizons are not due at once
          have hprimary' : primaryHorizonSeconds ∈ learningHorizonsSeconds := by decide
          exact absurd ((h.available havailable).1.unique hprimary' hmem hwindow) hprimary
  | error error =>
    rw [hexit] at husable
    by_cases hprimary : primaryHorizonSeconds = horizon
    · rw [if_pos hprimary] at husable
      refine ⟨hkept, fun havailable => ?_, fun hafter => ?_⟩
      · exact absurd ((hmissing hprimary).2.symm.trans havailable) Bool.noConfusion
      · exact absurd (husable.symm.trans hafter) Bool.noConfusion
    · rw [if_neg hprimary] at husable
      refine ⟨hkept, fun havailable => ?_, fun hafter => h.usable (husable ▸ hafter)⟩
      obtain ⟨hwindow', hchanged, hbefore, hafter'⟩ := h.available havailable
      refine ⟨hwindow', ?_, hbefore, husable.trans hafter'⟩
      show (pass.primaryChanged || _) = true
      rw [hchanged, Bool.true_or]

/-- **The primary outcome is counted** if and only if the loop has given the trajectory one. -/
theorem observed_counts (row : Trajectory) :
    ((row.observed context state now cached economics).primaryChanged &&
      (row.observed context state now cached economics).becameAvailable) = true ↔
      row.usable = false ∧ (row.observed context state now cached economics).row.usable = true := by
  have hcounts : (row.observed context state now cached economics).Counts row now := by
    unfold Trajectory.observed
    refine foldlRecOn (motive := Pass.Counts row now) _ _ ⟨.refl row, fun h => ?_, fun h => .inl h⟩
      fun pass h horizon hmem => ?_
    · cases h
    · obtain ⟨attempts, he⟩ | ⟨hfresh, attempts, ⟨reason, he⟩ | ⟨hwindow, -, bought, -, he⟩⟩ :=
        Pass.observe_cases context state now cached economics pass hmem
      · rw [he]
        exact h.attempted attempts
      · rw [he]
        exact (h.attempted attempts).missing hmem hfresh
      · rw [he]
        rw [h.kept.enteredAt] at hwindow
        exact (h.attempted attempts).quote hmem hfresh hwindow
  constructor
  · intro h
    rw [Bool.and_eq_true] at h
    obtain ⟨-, -, hbefore, hafter⟩ := hcounts.available h.2
    exact ⟨hbefore, hafter⟩
  · rintro ⟨hbefore, hafter⟩
    rcases hcounts.usable hafter with h | h
    · exact absurd (hbefore.symm.trans h) Bool.noConfusion
    · rw [h, (hcounts.available h).2.1]
      rfl

/-! ### Completion -/

/-- The trajectory is complete exactly when all horizons are there. -/
def Trajectory.Closed (row : Trajectory) : Prop :=
  row.status = .complete ↔ ∀ horizon ∈ learningHorizonsSeconds, (row.checkpoints.get? horizon).isSome = true

theorem length_eq_iff {checkpoints : Checkpoints}
    (h : ∀ checkpoint ∈ checkpoints, checkpoint.horizonSeconds ∈ learningHorizonsSeconds) :
    checkpoints.rows.length = learningHorizonsSeconds.length ↔
      ∀ horizon ∈ learningHorizonsSeconds, (checkpoints.get? horizon).isSome = true := by
  have hnodup : learningHorizonsSeconds.Nodup := by decide
  have hsubset : checkpoints.rows.map LearningCheckpoint.horizonSeconds ⊆ learningHorizonsSeconds := by
    intro horizon hmem
    obtain ⟨checkpoint, hcheckpoint, rfl⟩ := mem_map.mp hmem
    exact h checkpoint hcheckpoint
  have hperm := checkpoints.nodup.subperm hsubset
  constructor
  · intro hlength horizon hmem
    have hall := hperm.perm_of_length_le (by rw [length_map, hlength])
    obtain ⟨checkpoint, hcheckpoint, hhorizon⟩ := mem_map.mp (hall.mem_iff.mpr hmem)
    exact isSome_iff_exists.mpr ⟨checkpoint, Table.get?_eq_some.mpr ⟨hcheckpoint, hhorizon⟩⟩
  · intro hall
    have hsubset' : learningHorizonsSeconds ⊆ checkpoints.rows.map LearningCheckpoint.horizonSeconds := by
      intro horizon hmem
      obtain ⟨checkpoint, hget⟩ := isSome_iff_exists.mp (hall horizon hmem)
      obtain ⟨hcheckpoint, hhorizon⟩ := Table.get?_eq_some.mp hget
      exact mem_map.mpr ⟨checkpoint, hcheckpoint, hhorizon⟩
    have hle := hperm.length_le
    have hge := (hnodup.subperm hsubset').length_le
    rw [length_map] at hle hge
    exact le_antisymm hle hge

/-- What a call does to a trajectory. -/
structure Trajectory.Turned (economics : Option Economics) (allowed : ℕ → Prop) (row row' : Trajectory) : Prop where
  kept : row.Kept row'
  timely : row.Timely allowed row'
  sound : row.Sound economics → row'.Sound economics
  closed : row.Sound economics → row.Closed → row'.Closed

theorem Trajectory.Turned.refl (row : Trajectory) : row.Turned economics allowed row where
  kept := .refl row
  timely := (Advances.refl : Advances economics allowed row row).timely
  sound h := h
  closed _ h := h

theorem Trajectory.Timely.mono {allowed' : ℕ → Prop} (h : row.Timely allowed row')
    (hle : ∀ horizon, allowed horizon → allowed' horizon) : row.Timely allowed' row' := by
  refine ⟨fun horizon checkpoint hc => ?_, fun multiplier trial' htrial' => ?_⟩
  · exact (h.own horizon checkpoint hc).imp_right fun hallowed hreturn => hle horizon (hallowed hreturn)
  · obtain ⟨trial, htrial, hnew⟩ := h.trials multiplier trial' htrial'
    refine ⟨trial, htrial, fun horizon checkpoint hc => ?_⟩
    exact (hnew horizon checkpoint hc).imp_right fun hallowed hreturn => hle horizon (hallowed hreturn)

theorem Trajectory.Turned.mono {allowed' : ℕ → Prop} (h : row.Turned economics allowed row')
    (hle : ∀ horizon, allowed horizon → allowed' horizon) : row.Turned economics allowed' row' :=
  ⟨h.kept, h.timely.mono hle, h.sound, h.closed⟩

theorem Advances.turned (h : Advances economics allowed row row') (hpending : row.status = .pending) :
    row.Turned economics allowed row'.finish := by
  have hsame : row'.finish.checkpoints = row'.checkpoints ∧ row'.finish.sizeTrials = row'.sizeTrials ∧
      row'.finish.mint = row'.mint ∧ row'.finish.enteredAt = row'.enteredAt := by
    unfold Trajectory.finish
    split_ifs <;> exact ⟨rfl, rfl, rfl, rfl⟩
  obtain ⟨hcheckpoints, htrials, hmint, hentered⟩ := hsame
  refine ⟨⟨hmint.trans h.kept.mint, hentered.trans h.kept.enteredAt, ?_, ?_⟩, ⟨?_, ?_⟩, fun hsound => ?_, fun hsound _ => ?_⟩
  · rw [hcheckpoints]
    exact h.kept.checkpoints
  · rw [htrials]
    exact h.kept.trials
  · rw [hcheckpoints]
    exact h.timely.own
  · rw [htrials]
    exact h.timely.trials
  · have hsound' := h.sound hsound
    refine ⟨?_, ?_, ?_⟩
    · rw [hcheckpoints]
      exact hsound'.horizons
    · rw [hcheckpoints, htrials]
      exact hsound'.follows
    · rw [hcheckpoints, htrials]
      exact hsound'.bought
  · have hiff := length_eq_iff (h.sound hsound).horizons
    rw [Trajectory.Closed, hcheckpoints, ← hiff]
    unfold Trajectory.finish
    split_ifs with hlength
    · exact ⟨fun _ => hlength, fun _ => rfl⟩
    · rw [h.status, hpending]
      constructor
      · intro hstatus
        cases hstatus
      · intro hlength'
        exact absurd hlength' hlength

end SignalArcade.Challenger.Collection
