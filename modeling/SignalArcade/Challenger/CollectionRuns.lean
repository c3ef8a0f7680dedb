import SignalArcade.Challenger.Checkpoints

/-!
# Outcomes are collected once, and in time

The calls of the collection, in whatever order and at whatever times: decisions are registered, markets are observed,
what is overdue expires, and the history is pruned. Observations and episodes are followed alike, as what is enrolled
under a number: a call turns every one of them and enrols at most one of each kind, `Evolves`.
-/

namespace SignalArcade.Challenger.Collection

open Paper (Instant)
open Market.Features (TokenState)
open Runs List

/-! ### The calls -/

/-- The observation goes through the loop of `observe_market`. -/
def LearningObservation.collects (observation : LearningObservation) (state : TokenState) : Bool :=
  observation.row.mint = state.mint && observation.row.status = .pending

/-- `observe_market`, of one observation. -/
def LearningObservation.observe (context : Context) (state : TokenState) (now : Instant) (cached : Bool)
    (observation : LearningObservation) : LearningObservation :=
  if observation.collects state then
    { observation with
      row := (observation.row.observed context state now cached (some observation.economics)).row.finish }
  else observation

theorem finish_mint (row : Trajectory) : row.finish.mint = row.mint := by
  unfold Trajectory.finish
  split_ifs <;> rfl

variable {state : TokenState} {row : Trajectory} {allows : Trajectory → ℕ → Prop}

theorem LearningObservation.observe_mint {context : Context} {now : Instant} {cached : Bool}
    (observation : LearningObservation) : (observation.observe context state now cached).row.mint = observation.row.mint := by
  unfold LearningObservation.observe
  split_ifs
  · rw [finish_mint]
    exact (observed_advances context state now cached _ observation.row).kept.mint
  · rfl

theorem LearningObservation.expire_mint {now : Instant} {reason : String → String} (observation : LearningObservation) :
    (observation.expire now reason).row.mint = observation.row.mint := by
  unfold LearningObservation.expire
  split_ifs
  · rw [finish_mint]
    exact (expired_advances now _ none observation.row).kept.mint
  · rfl

namespace Collector

variable (context : Context) (s : Collector)

/-- The primary outcome of the observation of the market became available. -/
def gains (state : TokenState) (now : Instant) (cached : Bool) : Option LearningObservation :=
  (s.observations.get? state.mint).filter fun observation =>
    let pass := observation.row.observed context state now cached (some observation.economics)
    observation.collects state && (pass.primaryChanged && pass.becameAvailable)

/-- `observe_market`, with `_record_usable_outcome`. -/
def observeMarket (state : TokenState) (now : Instant) (live cached : Bool) : Collector :=
  if live then
    { s with
      observations := s.observations.map (LearningObservation.observe context state now cached)
        LearningObservation.observe_mint
      evidenceEpisodes := s.evidenceEpisodes.map (LearningEvidenceEpisode.observe context state now cached)
        LearningEvidenceEpisode.observe_episodeId
      outcomesSeen := s.outcomesSeen + (s.gains context state now cached).toList.length
      counted := s.counted ++ (s.gains context state now cached).toList.map LearningObservation.serial }
  else s

/-- The reason `expire_checkpoints` gives, of a market. -/
def expiryReason (now : Instant) (states : Option (String → Option TokenState)) (mint : String) : String :=
  match states with
  | none => "no_fresh_trade_near_horizon"
  | some states => expiredReason context now (states mint)

def expireCheckpoints (now : Instant) (states : Option (String → Option TokenState)) : Collector :=
  { s with
    observations := s.observations.map (LearningObservation.expire now (expiryReason context now states))
      LearningObservation.expire_mint
    evidenceEpisodes := s.evidenceEpisodes.map (LearningEvidenceEpisode.expire now (expiryReason context now states))
      LearningEvidenceEpisode.expire_episodeId }

/-- `_prune_complete_history`, of the mints and the episodes that the database lets go. -/
def prune (mints episodeIds : List String) : Collector :=
  { s with
    observations := s.observations.filter fun observation => observation.row.mint ∉ mints
    evidenceEpisodes := s.evidenceEpisodes.filter fun episode => episode.episodeId ∉ episodeIds }

end Collector

/-- A call, with the settings and the configuration of its time. -/
inductive Call where
  | register (context : Context) (state : TokenState) (decision : Decision)
  | observe (context : Context) (state : TokenState) (now : Instant) (live cached : Bool)
  | expire (context : Context) (now : Instant) (states : Option (String → Option TokenState))
  | prune (mints episodeIds : List String)

def Collector.step (s : Collector) : Call → Collector
  | .register context state decision => s.register context state decision
  | .observe context state now live cached => s.observeMarket context state now live cached
  | .expire context now states => s.expireCheckpoints context now states
  | .prune mints episodeIds => s.prune mints episodeIds

/-! ### What may be written -/

/-- The route is neither stale nor of the future. -/
def RouteFresh (context : Context) (state : TokenState) (now : Instant) : Prop :=
  ∀ at_ ∈ routeObservedAt state, at_ ≤ now ∧ now - at_ ≤ seconds context.staleMarketSeconds

theorem Quotable.fresh {context : Context} {now : Instant} {cached : Bool}
    (h : Quotable context state now cached) : RouteFresh context state now := by
  intro at_ hat
  rw [Option.mem_def] at hat
  unfold Quotable routeMissingReason at h
  rw [hat] at h
  dsimp only at h
  split_ifs at h with _ _ _ _ hfuture hstale
  exact ⟨not_lt.mp hfuture, not_lt.mp hstale⟩

/-- The call may write the return of the horizon. -/
def Call.Allows (row : Trajectory) (horizon : ℕ) : Call → Prop
  | .observe context state now live _ =>
    live = true ∧ row.mint = state.mint ∧ InWindow row.enteredAt now horizon ∧ RouteFresh context state now
  | _ => False

/-! ### What is enrolled -/

/-- What is enrolled: an observation, by the name of its mint, or an episode, by its own. -/
structure Enrolled where
  serial : ℕ
  name : String
  economics : Option Economics
  row : Trajectory

def LearningObservation.enrolled (observation : LearningObservation) : Enrolled :=
  ⟨observation.serial, observation.row.mint, some observation.economics, observation.row⟩

def LearningEvidenceEpisode.enrolled (episode : LearningEvidenceEpisode) : Enrolled :=
  ⟨episode.serial, episode.episodeId, episode.economics, episode.row⟩

namespace Collector

variable (s : Collector)

/-- The rows of discovery. -/
def discovery : Set Enrolled := {e | ∃ observation ∈ s.observations, observation.enrolled = e}

/-- The episodes of the Policy lane. -/
def policy : Set Enrolled := {e | ∃ episode ∈ s.evidenceEpisodes, episode.enrolled = e}

end Collector

/-- No two rows share a name. -/
def Named (rows : Set Enrolled) : Prop := ∀ e ∈ rows, ∀ e' ∈ rows, e.name = e'.name → e = e'

theorem Collector.named_discovery (s : Collector) : Named s.discovery := by
  rintro _ ⟨observation, hmem, rfl⟩ _ ⟨observation', hmem', rfl⟩ hname
  rw [s.observations.eq_of_key hmem hmem' hname]

theorem Collector.named_policy (s : Collector) : Named s.policy := by
  rintro _ ⟨episode, hmem, rfl⟩ _ ⟨episode', hmem', rfl⟩ hname
  rw [s.evidenceEpisodes.eq_of_key hmem hmem' hname]

/-- The rows were enrolled under different numbers, and each is sound and complete exactly when all horizons are there. -/
structure Population (rows : Set Enrolled) (enrolled : ℕ) : Prop where
  bound : ∀ e ∈ rows, e.serial < enrolled
  distinct : ∀ e ∈ rows, ∀ e' ∈ rows, e.serial = e'.serial → e = e'
  sound : ∀ e ∈ rows, e.row.Sound e.economics
  closed : ∀ e ∈ rows, e.row.Closed

theorem Population.of_empty {rows : Set Enrolled} {enrolled : ℕ} (h : ∀ e, e ∉ rows) : Population rows enrolled :=
  ⟨fun e he => absurd he (h e), fun e he => absurd he (h e), fun e he => absurd he (h e), fun e he => absurd he (h e)⟩

/-- What was enrolled is the same, and has the checkpoints it had. -/
structure Enrolled.Turned (allows : Trajectory → ℕ → Prop) (e e' : Enrolled) : Prop where
  serial : e'.serial = e.serial
  name : e'.name = e.name
  economics : e'.economics = e.economics
  row : e.row.Turned e.economics (allows e.row) e'.row

/-- A trajectory that was just enrolled. -/
structure Enrolled.New (enrolled : ℕ) (e : Enrolled) : Prop where
  serial : enrolled ≤ e.serial
  checkpoints : e.row.checkpoints = .empty
  sound : e.row.Sound e.economics
  closed : e.row.Closed

/-- What a call does to the rows: each is turned or let go of, and one may be enrolled. -/
structure Evolves (allows : Trajectory → ℕ → Prop) (rows : Set Enrolled) (enrolled : ℕ) (rows' : Set Enrolled)
    (enrolled' : ℕ) : Prop where
  le : enrolled ≤ enrolled'
  rows : ∃ new : Option Enrolled, (∀ e ∈ new, e.New enrolled ∧ e.serial < enrolled') ∧
    ∀ e' ∈ rows', (∃ e ∈ rows, e.Turned allows e') ∨ e' ∈ new

section evolves

variable {allows : Trajectory → ℕ → Prop} {rows rows' : Set Enrolled} {enrolled enrolled' : ℕ}

theorem Enrolled.Turned.refl (e : Enrolled) : e.Turned allows e := ⟨rfl, rfl, rfl, .refl e.row⟩

theorem LearningObservation.turned {observation : LearningObservation}
    (h : observation.row.Turned (some observation.economics) (allows observation.row) row) :
    observation.enrolled.Turned allows (LearningObservation.enrolled { observation with row := row }) :=
  ⟨rfl, h.kept.mint, rfl, h⟩

theorem LearningEvidenceEpisode.turned {episode : LearningEvidenceEpisode} {completedAt : Option Instant}
    (h : episode.row.Turned episode.economics (allows episode.row) row) :
    episode.enrolled.Turned allows
      (LearningEvidenceEpisode.enrolled { episode with row := row, completedAt := completedAt }) :=
  ⟨rfl, rfl, rfl, h⟩

theorem Evolves.of_turned (h : ∀ e' ∈ rows', ∃ e ∈ rows, e.Turned allows e') (hle : enrolled ≤ enrolled') :
    Evolves allows rows enrolled rows' enrolled' where
  le := hle
  rows := by
    refine ⟨none, fun e he => ?_, fun e' he' => .inl (h e' he')⟩
    cases he

theorem Evolves.refl (hle : enrolled ≤ enrolled') : Evolves allows rows enrolled rows enrolled' :=
  .of_turned (fun e he => ⟨e, he, .refl e⟩) hle

theorem Evolves.enrol {e : Enrolled} (hnew : e.New enrolled) (hlt : e.serial < enrolled') (h : ∀ e' ∈ rows', e' ∈ rows ∨ e' = e) :
    Evolves allows rows enrolled rows' enrolled' where
  le := hnew.serial.trans hlt.le
  rows := by
    refine ⟨some e, fun e' he' => ?_, fun e' he' => ?_⟩
    · obtain rfl := Option.some_inj.mp he'
      exact ⟨hnew, hlt⟩
    · rcases h e' he' with hold | rfl
      · exact .inl ⟨e', hold, .refl e'⟩
      · exact .inr rfl

theorem Enrolled.Turned.mono {allows' : Trajectory → ℕ → Prop} {e e' : Enrolled} (h : e.Turned allows e')
    (hle : ∀ row horizon, allows row horizon → allows' row horizon) : e.Turned allows' e' :=
  ⟨h.serial, h.name, h.economics, h.row.mono fun horizon => hle e.row horizon⟩

theorem Evolves.after {between : ℕ} (hle : enrolled ≤ between) (h : Evolves allows rows between rows' enrolled') :
    Evolves allows rows enrolled rows' enrolled' where
  le := hle.trans h.le
  rows := by
    obtain ⟨new, hnew, hmem⟩ := h.rows
    refine ⟨new, fun e he => ?_, hmem⟩
    obtain ⟨⟨hserial, hempty, hsound, hclosed⟩, hlt⟩ := hnew e he
    exact ⟨⟨hle.trans hserial, hempty, hsound, hclosed⟩, hlt⟩

section

variable (h : Evolves allows rows enrolled rows' enrolled')
include h

theorem Evolves.before {later : ℕ} (hle : enrolled' ≤ later) :
    Evolves allows rows enrolled rows' later where
  le := h.le.trans hle
  rows := by
    obtain ⟨new, hnew, hmem⟩ := h.rows
    exact ⟨new, fun e he => ⟨(hnew e he).1, (hnew e he).2.trans_le hle⟩, hmem⟩

theorem Evolves.population (hnamed : Named rows')
    (hrows : Population rows enrolled) : Population rows' enrolled' := by
  obtain ⟨new, hnew, hmem⟩ := h.rows
  refine ⟨fun e' he' => ?_, fun e₁ he₁ e₂ he₂ hserial => ?_, fun e' he' => ?_, fun e' he' => ?_⟩
  · rcases hmem e' he' with ⟨e, he, hturned⟩ | he'
    · rw [hturned.serial]
      exact (hrows.bound e he).trans_le h.le
    · exact (hnew e' he').2
  · rcases hmem e₁ he₁ with ⟨e, he, hturned⟩ | hnew₁
    · rcases hmem e₂ he₂ with ⟨e', he', hturned'⟩ | hnew₂
      · rw [hturned.serial, hturned'.serial] at hserial
        refine hnamed e₁ he₁ e₂ he₂ ?_
        rw [hturned.name, hturned'.name, hrows.distinct e he e' he' hserial]
      · have hlt := hrows.bound e he
        have hge := (hnew e₂ hnew₂).1.serial
        rw [hturned.serial] at hserial
        omega
    · rcases hmem e₂ he₂ with ⟨e', he', hturned'⟩ | hnew₂
      · have hlt := hrows.bound e' he'
        have hge := (hnew e₁ hnew₁).1.serial
        rw [hturned'.serial] at hserial
        omega
      · exact Option.mem_unique hnew₁ hnew₂
  · rcases hmem e' he' with ⟨e, he, hturned⟩ | he'
    · rw [hturned.economics]
      exact hturned.row.sound (hrows.sound e he)
    · exact (hnew e' he').1.sound
  · rcases hmem e' he' with ⟨e, he, hturned⟩ | he'
    · exact hturned.row.closed (hrows.sound e he) (hrows.closed e he)
    · exact (hnew e' he').1.closed

theorem Evolves.turned (hrows : Population rows enrolled)
    {e e' : Enrolled} (he : e ∈ rows) (he' : e' ∈ rows') (hserial : e.serial = e'.serial) : e.Turned allows e' := by
  obtain ⟨new, hnew, hmem⟩ := h.rows
  rcases hmem e' he' with ⟨e₀, he₀, hturned⟩ | he'
  · rw [hrows.distinct e he e₀ he₀ (hserial.trans hturned.serial)]
    exact hturned
  · have hlt := hrows.bound e he
    have hge := (hnew e' he').1.serial
    omega

end

/-- What was enrolled under an old number was there, with fewer checkpoints. -/
def Grows (rows : Set Enrolled) (enrolled : ℕ) (rows' : Set Enrolled) (enrolled' : ℕ) : Prop :=
  enrolled ≤ enrolled' ∧ ∀ e' ∈ rows', e'.serial < enrolled →
    ∃ e ∈ rows, e.serial = e'.serial ∧ e.row.Kept e'.row

theorem Grows.refl (rows : Set Enrolled) (enrolled : ℕ) : Grows rows enrolled rows enrolled :=
  ⟨le_rfl, fun e he _ => ⟨e, he, rfl, .refl e.row⟩⟩

theorem Grows.trans {rows'' : Set Enrolled} {enrolled'' : ℕ} (h : Grows rows enrolled rows' enrolled')
    (h' : Grows rows' enrolled' rows'' enrolled'') : Grows rows enrolled rows'' enrolled'' := by
  refine ⟨h.1.trans h'.1, fun e'' he'' hlt => ?_⟩
  obtain ⟨e', he', hserial', hkept'⟩ := h'.2 e'' he'' (hlt.trans_le h.1)
  obtain ⟨e, he, hserial, hkept⟩ := h.2 e' he' (hserial' ▸ hlt)
  exact ⟨e, he, hserial.trans hserial', hkept.trans hkept'⟩

theorem Evolves.grows (h : Evolves allows rows enrolled rows' enrolled') : Grows rows enrolled rows' enrolled' := by
  obtain ⟨new, hnew, hmem⟩ := h.rows
  refine ⟨h.le, fun e' he' hlt => ?_⟩
  rcases hmem e' he' with ⟨e, he, hturned⟩ | he'
  · exact ⟨e, he, hturned.serial.symm, hturned.row.kept⟩
  · have hge := (hnew e' he').1.serial
    omega

/-- **Written once**: what has the same number has the checkpoints it had. -/
theorem Grows.kept (h : Grows rows enrolled rows' enrolled') (hrows : Population rows enrolled) {e e' : Enrolled}
    (he : e ∈ rows) (he' : e' ∈ rows') (hserial : e.serial = e'.serial) : e.row.Kept e'.row := by
  obtain ⟨e₀, he₀, hserial₀, hkept⟩ := h.2 e' he' (hserial ▸ hrows.bound e he)
  rw [hrows.distinct e he e₀ he₀ (hserial.trans hserial₀.symm)]
  exact hkept

end evolves

/-! ### What each call does -/

theorem new_sound {riskMode : Paper.RiskMode} {sizeSol : ℚ} {feeBps networkFee : ℤ}
    {entry : Paper.CurveQuote} {economics : Economics}
    (heconomics : Economics.ofQuote? entry = some economics) (hempty : row.checkpoints = .empty)
    (htrials : row.sizeTrials = buildSizeTrials state riskMode sizeSol feeBps networkFee entry) :
    row.Sound (some economics) := by
  have hfresh : ∀ multiplier trial, row.sizeTrials multiplier = some trial → trial.checkpoints = .empty := by
    intro multiplier trial htrial
    rw [htrials, buildSizeTrials] at htrial
    split_ifs at htrial
    obtain rfl := Option.some_inj.mp htrial
    unfold sizeTrial
    dsimp only
    split <;> rfl
  refine ⟨fun checkpoint hmem => ?_, fun multiplier trial htrial horizon checkpoint hget => ?_,
    fun trial htrial heligible => ?_⟩
  · rw [hempty] at hmem
    exact absurd hmem Table.not_mem_empty
  · rw [hfresh multiplier trial htrial] at hget
    cases hget
  · refine ⟨rfl, ?_, fun horizon => ?_⟩
    · rw [htrials, buildSizeTrials] at htrial
      split_ifs at htrial
      obtain rfl := Option.some_inj.mp htrial
      unfold sizeTrial
      rw [if_pos rfl]
      simp only [Except.toOption, Option.bind_some, heconomics, Option.map_some]
    · rw [hfresh 1 trial htrial, hempty]

theorem closed_of_empty (hempty : row.checkpoints = .empty) (hpending : row.status = .pending) :
    row.Closed := by
  rw [Trajectory.Closed, hempty, hpending]
  constructor
  · intro h
    cases h
  · intro h
    have hfirst := h primaryHorizonSeconds (by decide)
    cases hfirst

namespace Collector

variable {s : Collector}

theorem evolves_enrolDiscovery (s : Collector) {economics : Economics}
    (hsound : row.Sound (some economics)) (hclosed : row.Closed) (hempty : row.checkpoints = .empty) :
    Evolves allows s.discovery s.enrolled (s.enrolDiscovery economics row).discovery (s.enrolled + 1) := by
  refine .enrol (e := ⟨s.enrolled, row.mint, some economics, row⟩) ⟨le_rfl, hempty, hsound, hclosed⟩ (Nat.lt_succ_self _) ?_
  rintro e' ⟨observation, hmem, rfl⟩
  rcases Table.mem_upsert.mp hmem with rfl | ⟨hold, -⟩
  · exact .inr rfl
  · exact .inl ⟨observation, hold, rfl⟩

theorem evolves_enrolPolicy (s : Collector) {episodeId : String} {economics : Economics}
    (hsound : row.Sound (some economics)) (hclosed : row.Closed) (hempty : row.checkpoints = .empty) :
    Evolves allows s.policy s.enrolled (s.enrolPolicy episodeId economics row).policy (s.enrolled + 1) := by
  refine .enrol (e := ⟨s.enrolled, episodeId, some economics, row⟩) ⟨le_rfl, hempty, hsound, hclosed⟩ (Nat.lt_succ_self _) ?_
  rintro e' ⟨episode, hmem, rfl⟩
  rcases Table.mem_upsert.mp hmem with rfl | ⟨hold, -⟩
  · exact .inr rfl
  · exact .inl ⟨episode, hold, rfl⟩

theorem register_cases (context : Context) (s : Collector) (state : TokenState) (decision : Decision) :
    s.register context state decision = s ∨ ∃ economics row, Trajectory.Sound row (some economics) ∧ row.Closed ∧
      row.checkpoints = .empty ∧
      (s.register context state decision = s.enrolPolicy decision.episodeId economics row ∨
        s.register context state decision = s.enrolDiscovery economics row ∨
        s.register context state decision = (s.enrolPolicy decision.episodeId economics row).enrolDiscovery economics row) := by
  unfold register
  dsimp only
  split
  · exact .inl rfl
  · next entry economics hentry =>
    obtain ⟨quote, -, hquote⟩ := Option.bind_eq_some_iff.mp hentry
    obtain ⟨economics', heconomics, hpair⟩ := Option.map_eq_some_iff.mp hquote
    obtain ⟨rfl, rfl⟩ := Prod.mk.inj hpair
    by_cases hpolicy : decision.actionable = true ∧
        ¬ (s.evidenceEpisodes.rows.any fun episode =>
          episode.lane = .policy && episode.episodeId = decision.episodeId) = true
    · by_cases hdiscovery : (s.observations.get? state.mint).isSome = true
      · rw [if_pos hpolicy, if_pos hdiscovery]
        exact .inr ⟨economics', _, new_sound heconomics rfl rfl, closed_of_empty rfl rfl, rfl, .inl rfl⟩
      · rw [if_pos hpolicy, if_neg hdiscovery]
        exact .inr ⟨economics', _, new_sound heconomics rfl rfl, closed_of_empty rfl rfl, rfl, .inr (.inr rfl)⟩
    · by_cases hdiscovery : (s.observations.get? state.mint).isSome = true
      · rw [if_neg hpolicy, if_pos hdiscovery]
        exact .inl rfl
      · rw [if_neg hpolicy, if_neg hdiscovery]
        exact .inr ⟨economics', _, new_sound heconomics rfl rfl, closed_of_empty rfl rfl, rfl, .inr (.inl rfl)⟩

theorem register_counts (context : Context) (s : Collector) (state : TokenState) (decision : Decision) :
    (s.register context state decision).outcomesSeen = s.outcomesSeen ∧
      (s.register context state decision).counted = s.counted := by
  rcases register_cases context s state decision with h | ⟨_, _, _, _, _, h | h | h⟩ <;> rw [h] <;> exact ⟨rfl, rfl⟩

end Collector

/-- The market is the row's, in time and fresh. -/
def MarketAllows (context : Context) (state : TokenState) (now : Instant) (row : Trajectory) (horizon : ℕ) : Prop :=
  row.mint = state.mint ∧ InWindow row.enteredAt now horizon ∧ RouteFresh context state now

section turned

variable {context : Context} {state : TokenState} {now : Instant} {cached : Bool} {reason : String → String}

theorem LearningObservation.turned_observe (observation : LearningObservation) :
    observation.enrolled.Turned (MarketAllows context state now)
      (observation.observe context state now cached).enrolled := by
  unfold LearningObservation.observe
  split_ifs with hcollects
  · simp only [LearningObservation.collects, Bool.and_eq_true, decide_eq_true_eq] at hcollects
    obtain ⟨hmint, hpending⟩ := hcollects
    have hadvances := observed_advances context state now cached (some observation.economics) observation.row
    have hturned := (hadvances.turned hpending).mono fun horizon h =>
      show MarketAllows context state now _ horizon from ⟨hmint, h.1, h.2.fresh⟩
    exact LearningObservation.turned hturned
  · exact .refl _

theorem LearningEvidenceEpisode.turned_observe (episode : LearningEvidenceEpisode) :
    episode.enrolled.Turned (MarketAllows context state now) (episode.observe context state now cached).enrolled := by
  unfold LearningEvidenceEpisode.observe
  split_ifs with hcollects
  · simp only [LearningEvidenceEpisode.collects, Bool.and_eq_true, decide_eq_true_eq] at hcollects
    obtain ⟨hmint, -, hpending⟩ := hcollects
    have hadvances := observed_advances context state now cached episode.economics episode.row
    have hturned := (hadvances.turned hpending).mono fun horizon h =>
      show MarketAllows context state now _ horizon from ⟨hmint, h.1, h.2.fresh⟩
    exact LearningEvidenceEpisode.turned hturned
  · exact .refl _

theorem LearningObservation.turned_expire (observation : LearningObservation) :
    observation.enrolled.Turned (fun _ _ => False) (observation.expire now reason).enrolled := by
  unfold LearningObservation.expire
  split_ifs with hpending
  · have hadvances := expired_advances now (reason observation.row.mint) (some observation.economics) observation.row
    have hturned := hadvances.turned hpending
    exact LearningObservation.turned hturned
  · exact .refl _

theorem LearningEvidenceEpisode.turned_expire (episode : LearningEvidenceEpisode) :
    episode.enrolled.Turned (fun _ _ => False) (episode.expire now reason).enrolled := by
  unfold LearningEvidenceEpisode.expire
  split_ifs with hcollects
  · simp only [LearningEvidenceEpisode.collects, Bool.and_eq_true, decide_eq_true_eq] at hcollects
    have hadvances := expired_advances now (reason episode.row.mint) episode.economics episode.row
    have hturned := hadvances.turned hcollects.2
    exact LearningEvidenceEpisode.turned hturned
  · exact .refl _

end turned

/-! ### Every call -/

namespace Collector

variable {s : Collector}

/-- **Every call** turns the rows, or lets go of them, and enrols one of each kind at most. -/
theorem step_evolves (s : Collector) (call : Call) :
    Evolves (fun row horizon => call.Allows row horizon) s.discovery s.enrolled (s.step call).discovery (s.step call).enrolled ∧
      Evolves (fun row horizon => call.Allows row horizon) s.policy s.enrolled (s.step call).policy (s.step call).enrolled := by
  cases call with
  | register context state decision =>
    show Evolves _ _ _ (s.register context state decision).discovery (s.register context state decision).enrolled ∧
      Evolves _ _ _ (s.register context state decision).policy (s.register context state decision).enrolled
    rcases register_cases context s state decision with h | ⟨economics, row, hsound, hclosed, hempty, h | h | h⟩ <;> rw [h]
    · exact ⟨.refl le_rfl, .refl le_rfl⟩
    · exact ⟨.refl (Nat.le_succ _), evolves_enrolPolicy s hsound hclosed hempty⟩
    · exact ⟨evolves_enrolDiscovery s hsound hclosed hempty, .refl (Nat.le_succ _)⟩
    · exact ⟨.after (Nat.le_succ _)
        (evolves_enrolDiscovery (s.enrolPolicy decision.episodeId economics row) hsound hclosed hempty),
        (evolves_enrolPolicy s hsound hclosed hempty).before (Nat.le_succ _)⟩
  | observe context state now live cached =>
    show Evolves _ _ _ (s.observeMarket context state now live cached).discovery
        (s.observeMarket context state now live cached).enrolled ∧
      Evolves _ _ _ (s.observeMarket context state now live cached).policy (s.observeMarket context state now live cached).enrolled
    unfold observeMarket
    cases live with
    | false => exact ⟨.refl le_rfl, .refl le_rfl⟩
    | true =>
      refine ⟨.of_turned ?_ le_rfl, .of_turned ?_ le_rfl⟩
      · rintro e' ⟨observation', hmem', rfl⟩
        obtain ⟨observation, hmem, rfl⟩ := mem_map.mp hmem'
        exact ⟨_, ⟨observation, hmem, rfl⟩, observation.turned_observe.mono fun row horizon h => ⟨rfl, h⟩⟩
      · rintro e' ⟨episode', hmem', rfl⟩
        obtain ⟨episode, hmem, rfl⟩ := mem_map.mp hmem'
        exact ⟨_, ⟨episode, hmem, rfl⟩, episode.turned_observe.mono fun row horizon h => ⟨rfl, h⟩⟩
  | expire context now states =>
    refine ⟨.of_turned ?_ le_rfl, .of_turned ?_ le_rfl⟩
    · rintro e' ⟨observation', hmem', rfl⟩
      obtain ⟨observation, hmem, rfl⟩ := mem_map.mp hmem'
      exact ⟨_, ⟨observation, hmem, rfl⟩, observation.turned_expire⟩
    · rintro e' ⟨episode', hmem', rfl⟩
      obtain ⟨episode, hmem, rfl⟩ := mem_map.mp hmem'
      exact ⟨_, ⟨episode, hmem, rfl⟩, episode.turned_expire⟩
  | prune mints episodeIds =>
    refine ⟨.of_turned ?_ le_rfl, .of_turned ?_ le_rfl⟩
    · rintro e ⟨observation, hmem, rfl⟩
      exact ⟨_, ⟨observation, (Table.mem_filter.mp hmem).1, rfl⟩, .refl _⟩
    · rintro e ⟨episode, hmem, rfl⟩
      exact ⟨_, ⟨episode, (Table.mem_filter.mp hmem).1, rfl⟩, .refl _⟩

end Collector

/-! ### The outcomes are counted -/

/-- The counter counts the observations that have a primary outcome, each once. -/
structure Collector.Counted (s : Collector) (start : ℕ) : Prop where
  seen : s.outcomesSeen = start + s.counted.length
  nodup : s.counted.Nodup
  bound : ∀ serial ∈ s.counted, serial < s.enrolled
  counted : ∀ e ∈ s.discovery, e.serial ∈ s.counted ↔ e.row.usable = true

theorem usable_finish (row : Trajectory) : row.finish.usable = row.usable := by
  unfold Trajectory.finish
  split_ifs <;> rfl

section counted

variable {s : Collector} {start : ℕ} {context : Context} {state : TokenState} {now : Instant} {cached : Bool}

theorem gains_eq_some {observation : LearningObservation} : s.gains context state now cached = some observation ↔
    observation ∈ s.observations ∧ observation.row.usable = false ∧
      (observation.observe context state now cached).row.usable = true := by
  have hobserve : ∀ observation : LearningObservation, observation.collects state = true →
      (observation.observe context state now cached).row.usable =
        (observation.row.observed context state now cached (some observation.economics)).row.usable := by
    intro observation hcollects
    rw [LearningObservation.observe, if_pos hcollects, usable_finish]
  rw [Collector.gains, Option.filter_eq_some_iff, Table.get?_eq_some]
  dsimp only
  rw [Bool.and_eq_true, observed_counts]
  constructor
  · rintro ⟨⟨hmem, -⟩, hcollects, hbefore, hafter⟩
    exact ⟨hmem, hbefore, (hobserve observation hcollects).trans hafter⟩
  · rintro ⟨hmem, hbefore, hafter⟩
    have hcollects : observation.collects state = true := by
      by_contra hnot
      rw [LearningObservation.observe, if_neg hnot, hbefore] at hafter
      cases hafter
    have hmint : observation.row.mint = state.mint := by
      simp only [LearningObservation.collects, Bool.and_eq_true, decide_eq_true_eq] at hcollects
      exact hcollects.1
    exact ⟨⟨hmem, hmint⟩, hcollects, hbefore, (hobserve observation hcollects).symm.trans hafter⟩

theorem gains_counted {serial : ℕ} (h : serial ∈ (s.gains context state now cached).toList.map LearningObservation.serial) :
    ∃ observation ∈ s.observations, observation.serial = serial ∧ observation.row.usable = false ∧
      (observation.observe context state now cached).row.usable = true := by
  obtain ⟨gained, hgained, rfl⟩ := mem_map.mp h
  obtain ⟨hmem, hbefore, hafter⟩ := gains_eq_some.mp (Option.mem_toList.mp hgained)
  exact ⟨gained, hmem, rfl, hbefore, hafter⟩

theorem Collector.Counted.of_evolves {s' : Collector} (h : s.Counted start)
    (hevolves : Evolves (fun _ _ => False) s.discovery s.enrolled s'.discovery s'.enrolled)
    (hseen : s'.outcomesSeen = s.outcomesSeen) (hcounted : s'.counted = s.counted) : s'.Counted start := by
  obtain ⟨new, hnew, hmem⟩ := hevolves.rows
  refine ⟨by rw [hseen, hcounted, h.seen], hcounted ▸ h.nodup, fun serial hserial => ?_, fun e' he' => ?_⟩
  · rw [hcounted] at hserial
    exact (h.bound serial hserial).trans_le hevolves.le
  · rw [hcounted]
    rcases hmem e' he' with ⟨e, he, hturned⟩ | he'
    · rw [hturned.serial, h.counted e he]
      constructor
      · exact hturned.row.kept.usable
      · intro hafter
        by_contra hbefore
        exact hturned.row.timely.usable (Bool.not_eq_true _ ▸ hbefore) hafter
    · have hserial : e'.serial ∉ s.counted := fun hmem => by
        have hlt := h.bound _ hmem
        have hge := (hnew e' he').1.serial
        omega
      have husable : e'.row.usable = false := usable_eq_false (by rw [(hnew e' he').1.checkpoints]; rfl)
      rw [husable]
      exact ⟨fun hmem => absurd hmem hserial, fun h => by cases h⟩

theorem Collector.Counted.observe (h : s.Counted start) (hpopulation : Population s.discovery s.enrolled) :
    (s.observeMarket context state now true cached).Counted start := by
  have hsame : ∀ observation ∈ s.observations, ∀ other ∈ s.observations, observation.serial = other.serial →
      observation = other := by
    intro observation hmem other hmem' hserial
    have henrolled := hpopulation.distinct _ ⟨observation, hmem, rfl⟩ _ ⟨other, hmem', rfl⟩ hserial
    exact s.observations.eq_of_key hmem hmem' (congrArg Enrolled.name henrolled)
  have hcounts : ∀ observation ∈ s.observations, observation.serial ∈ s.counted ↔ observation.row.usable = true :=
    fun observation hmem => h.counted _ ⟨observation, hmem, rfl⟩
  -- the observations that are counted now
  have hgained : ∀ observation ∈ s.observations,
      observation.serial ∈ (s.gains context state now cached).toList.map LearningObservation.serial ↔
        observation.row.usable = false ∧ (observation.observe context state now cached).row.usable = true := by
    intro observation hmem
    rw [mem_map]
    constructor
    · rintro ⟨gained, hgained, hserial⟩
      obtain ⟨hmem', hgain⟩ := gains_eq_some.mp (Option.mem_toList.mp hgained)
      rw [hsame observation hmem gained hmem' hserial.symm]
      exact hgain
    · intro hgain
      exact ⟨observation, Option.mem_toList.mpr (gains_eq_some.mpr ⟨hmem, hgain⟩), rfl⟩
  unfold Collector.observeMarket
  rw [if_pos rfl]
  refine ⟨?_, ?_, fun serial hserial => ?_, fun e' he' => ?_⟩
  · show s.outcomesSeen + _ = start + (s.counted ++ _).length
    rw [h.seen, length_append, length_map, add_assoc]
  · refine nodup_append.mpr ⟨h.nodup, ?_, ?_⟩
    · cases s.gains context state now cached with
      | none => exact nodup_nil
      | some gained => exact nodup_singleton _
    · rintro serial hcounted _ hserial rfl
      obtain ⟨observation, hmem, rfl, hbefore, -⟩ := gains_counted hserial
      rw [hcounts observation hmem, hbefore] at hcounted
      cases hcounted
  · rcases mem_append.mp hserial with hserial | hserial
    · exact h.bound serial hserial
    · obtain ⟨observation, hmem, rfl, -⟩ := gains_counted hserial
      exact hpopulation.bound _ ⟨observation, hmem, rfl⟩
  · obtain ⟨observation', hmem', rfl⟩ := he'
    obtain ⟨observation, hmem, rfl⟩ := mem_map.mp hmem'
    have hturned : observation.enrolled.Turned (MarketAllows context state now)
        (observation.observe context state now cached).enrolled := observation.turned_observe
    rw [hturned.serial]
    show observation.serial ∈ s.counted ++ _ ↔ (observation.observe context state now cached).row.usable = true
    rw [mem_append, hcounts observation hmem, hgained observation hmem]
    constructor
    · rintro (hbefore | ⟨-, hafter⟩)
      · exact hturned.row.kept.usable hbefore
      · exact hafter
    · intro hafter
      cases hbefore : observation.row.usable with
      | true => exact .inl rfl
      | false => exact .inr ⟨rfl, hafter⟩

/-- **Every call** keeps the count. -/
theorem Collector.Counted.step (h : s.Counted start) (hpopulation : Population s.discovery s.enrolled) (call : Call) :
    (s.step call).Counted start := by
  have hevolves := (s.step_evolves call).1
  cases call with
  | register context state decision =>
    obtain ⟨hseen, hcounted⟩ := Collector.register_counts context s state decision
    exact h.of_evolves hevolves hseen hcounted
  | observe context state now live cached =>
    cases live with
    | false => exact h
    | true => exact h.observe hpopulation
  | expire context now states => exact h.of_evolves hevolves rfl rfl
  | prune mints episodeIds => exact h.of_evolves hevolves rfl rfl

end counted

/-! ### Every run -/

/-- Nothing is enrolled yet. -/
def Collector.new (outcomesSeen : ℕ) : Collector where
  observations := .empty
  evidenceEpisodes := .empty
  outcomesSeen := outcomesSeen

/-- What every run keeps. -/
structure Collector.Sound (s : Collector) (start : ℕ) : Prop where
  discovery : Population s.discovery s.enrolled
  policy : Population s.policy s.enrolled
  counted : s.Counted start

theorem Collector.Sound.new (start : ℕ) : (Collector.new start).Sound start := by
  have hdiscovery : ∀ e, e ∉ (Collector.new start).discovery := by
    rintro e ⟨observation, hmem, -⟩
    exact Table.not_mem_empty hmem
  have hpolicy : ∀ e, e ∉ (Collector.new start).policy := by
    rintro e ⟨episode, hmem, -⟩
    exact Table.not_mem_empty hmem
  refine ⟨.of_empty hdiscovery, .of_empty hpolicy, rfl, nodup_nil, ?_, fun e he => absurd he (hdiscovery e)⟩
  exact fun serial hserial => absurd hserial not_mem_nil

theorem Collector.Sound.step {s : Collector} {start : ℕ} (h : s.Sound start) (call : Call) : (s.step call).Sound start where
  discovery := (s.step_evolves call).1.population (s.step call).named_discovery h.discovery
  policy := (s.step_evolves call).2.population (s.step call).named_policy h.policy
  counted := h.counted.step h.discovery call

theorem grows_run (s : Collector) (calls : List Call) :
    Grows s.discovery s.enrolled (run Collector.step s calls).discovery (run Collector.step s calls).enrolled ∧
      Grows s.policy s.enrolled (run Collector.step s calls).policy (run Collector.step s calls).enrolled := by
  induction calls generalizing s with
  | nil => exact ⟨.refl _ _, .refl _ _⟩
  | cons call calls ih =>
    obtain ⟨hdiscovery, hpolicy⟩ := ih (s.step call)
    exact ⟨(s.step_evolves call).1.grows.trans hdiscovery, (s.step_evolves call).2.grows.trans hpolicy⟩

/-- The outcomes that a call writes are ones that it allows. -/
def InTime (s : Collector) (call : Call) : Prop :=
  (∀ e ∈ s.discovery, ∀ e' ∈ (s.step call).discovery, e.serial = e'.serial →
    e.row.Timely (fun horizon => call.Allows e.row horizon) e'.row) ∧
  ∀ e ∈ s.policy, ∀ e' ∈ (s.step call).policy, e.serial = e'.serial →
    e.row.Timely (fun horizon => call.Allows e.row horizon) e'.row

/-- The primary outcome of the observation of this number became available by the call. -/
def Gained (s : Collector) (call : Call) (serial : ℕ) : Prop :=
  ∃ e ∈ s.discovery, ∃ e' ∈ (s.step call).discovery,
    e.serial = serial ∧ e'.serial = serial ∧ e.row.usable = false ∧ e'.row.usable = true

/-- Neither the trajectory nor a trial of it has a checkpoint. -/
def Trajectory.Blank (row : Trajectory) : Prop :=
  row.checkpoints = .empty ∧ ∀ multiplier trial, row.sizeTrials multiplier = some trial →
    ∀ horizon, trial.checkpoints.get? horizon = none

/-- Of these rows, those that were not there before are blank. -/
def BlankWhenNew (rows rows' : Set Enrolled) : Prop :=
  ∀ e' ∈ rows', (∃ e ∈ rows, e.serial = e'.serial) ∨ e'.row.Blank

/-- What a call may write: outcomes it allows, blank rows, and counts of the primary outcomes it wrote. -/
structure Lawful (s : Collector) (call : Call) : Prop where
  inTime : InTime s call
  blankDiscovery : BlankWhenNew s.discovery (s.step call).discovery
  blankPolicy : BlankWhenNew s.policy (s.step call).policy
  counts : ∀ serial, serial ∈ (s.step call).counted ↔ serial ∈ s.counted ∨ Gained s call serial

theorem Evolves.blank {rows rows' : Set Enrolled} {enrolled enrolled' : ℕ}
    (h : Evolves allows rows enrolled rows' enrolled') : BlankWhenNew rows rows' := by
  obtain ⟨new, hnew, hmem⟩ := h.rows
  intro e' he'
  rcases hmem e' he' with ⟨e, he, hturned⟩ | he'
  · exact .inl ⟨e, he, hturned.serial.symm⟩
  · obtain ⟨-, hempty, hsound, -⟩ := (hnew e' he').1
    exact .inr ⟨hempty, fun _ _ htrial _ => hsound.behind htrial (by rw [hempty]; rfl)⟩

theorem Collector.counted_step (s : Collector) (call : Call) {serial : ℕ} (h : serial ∈ (s.step call).counted) :
    serial ∈ s.counted ∨ Gained s call serial := by
  cases call with
  | register context state decision => exact .inl ((register_counts context s state decision).2 ▸ h)
  | observe context state now live cached =>
    cases live with
    | false => exact .inl h
    | true =>
      rcases mem_append.mp h with h | h
      · exact .inl h
      · obtain ⟨observation, hmem, rfl, hbefore, hafter⟩ := gains_counted h
        exact .inr ⟨_, ⟨observation, hmem, rfl⟩, _, ⟨_, mem_map.mpr ⟨observation, hmem, rfl⟩, rfl⟩, rfl,
          observation.turned_observe.serial, hbefore, hafter⟩
  | expire context now states => exact .inl h
  | prune mints episodeIds => exact .inl h

theorem Collector.counted_subset (s : Collector) (call : Call) : s.counted ⊆ (s.step call).counted := by
  cases call with
  | register context state decision =>
    intro serial h
    exact (register_counts context s state decision).2 ▸ h
  | observe context state now live cached =>
    cases live with
    | false => exact Subset.refl _
    | true => exact subset_append_left _ _
  | expire context now states => exact Subset.refl _
  | prune mints episodeIds => exact Subset.refl _

theorem Collector.Sound.inTime {s : Collector} {start : ℕ} (h : s.Sound start) (call : Call) : InTime s call := by
  constructor
  · intro e he e' he' hserial
    exact ((s.step_evolves call).1.turned h.discovery he he' hserial).row.timely
  · intro e he e' he' hserial
    exact ((s.step_evolves call).2.turned h.policy he he' hserial).row.timely

/-- **Every call** is lawful. -/
theorem Collector.Sound.lawful {s : Collector} {start : ℕ} (h : s.Sound start) (call : Call) : Lawful s call where
  inTime := h.inTime call
  blankDiscovery := (s.step_evolves call).1.blank
  blankPolicy := (s.step_evolves call).2.blank
  counts serial := by
    refine ⟨s.counted_step call, ?_⟩
    rintro (hcounted | ⟨e, -, e', he', -, rfl, -, hafter⟩)
    · exact s.counted_subset call hcounted
    · exact ((h.step call).counted.counted e' he').mpr hafter

/-- The trial of the size that was bought has the outcomes of the trajectory. -/
def Trajectory.TrialFollows (row : Trajectory) : Prop :=
  ∀ trial, row.sizeTrials 1 = some trial → trial.eligibleAtEntry = true → ∀ horizon,
    (trial.checkpoints.get? horizon).map LearningCheckpoint.outcome =
      (row.checkpoints.get? horizon).map LearningCheckpoint.outcome

theorem Population.follows {rows : Set Enrolled} {enrolled : ℕ} (h : Population rows enrolled) :
    ∀ e ∈ rows, e.row.TrialFollows ∧ e.row.Closed := fun e he =>
  ⟨fun trial htrial heligible => ((h.sound e he).bought trial htrial heligible).2.2, h.closed e he⟩

theorem Collector.Sound.run (outcomesSeen : ℕ) (calls : List Call) :
    (run Collector.step (.new outcomesSeen) calls).Sound outcomesSeen :=
  run_invariant (I := fun s => Collector.Sound s outcomesSeen) (.new outcomesSeen) fun _ call h => h.step call

/-- **The law of the collection.** In every run from an empty collection: what was enrolled keeps every checkpoint it
had, and began with none; a return is written only in the window of its horizon, on a fresh route; the trial of the size
that was bought follows its trajectory, which is complete exactly when all horizons are there; and the observations that
were counted are those with a primary outcome, each once, by the call that wrote it. -/
theorem collection_law (outcomesSeen : ℕ) (earlier later : List Call) :
    let before := run Collector.step (.new outcomesSeen) earlier;
    let s := run Collector.step (.new outcomesSeen) (earlier ++ later);
    ((∀ e ∈ before.discovery, ∀ e' ∈ s.discovery, e.serial = e'.serial → e.row.Kept e'.row) ∧
      ∀ e ∈ before.policy, ∀ e' ∈ s.policy, e.serial = e'.serial → e.row.Kept e'.row) ∧
    Along Collector.step Lawful (.new outcomesSeen) (earlier ++ later) ∧
    (∀ e ∈ s.discovery ∪ s.policy, e.row.TrialFollows ∧ e.row.Closed) ∧
    s.outcomesSeen = outcomesSeen + s.counted.length ∧ s.counted.Nodup ∧
    ∀ e ∈ s.discovery, e.serial ∈ s.counted ↔ e.row.usable = true := by
  intro before s
  have hreach := Collector.Sound.run outcomesSeen
  have hbefore : before.Sound outcomesSeen := hreach earlier
  have hs : s.Sound outcomesSeen := hreach (earlier ++ later)
  have hgrows := grows_run before later
  have hlater : run Collector.step before later = s := run_append.symm
  rw [hlater] at hgrows
  refine ⟨⟨fun e he e' he' => ?_, fun e he e' he' => ?_⟩, ?_, ?_, hs.counted.seen, hs.counted.nodup, hs.counted.counted⟩
  · exact hgrows.1.kept hbefore.discovery he he'
  · exact hgrows.2.kept hbefore.policy he he'
  · rw [along_iff]
    exact fun calls call _ _ => (hreach calls).lawful call
  · rintro e (he | he)
    · exact hs.discovery.follows e he
    · exact hs.policy.follows e he

/-! ### What the trainers read -/

/-- What a trainer reads of a checkpoint. -/
def LearningCheckpoint.evidence (checkpoint : LearningCheckpoint) : Challenger.LearningCheckpoint where
  observedAt := checkpoint.observedAt
  netReturn := checkpoint.netReturn
  exitValueLamports := checkpoint.exitValueLamports.map Int.toNat
  bounded := checkpoint.bounded

def Checkpoints.evidence (checkpoints : Checkpoints) : Challenger.Checkpoints := fun horizon =>
  (checkpoints.get? horizon).map LearningCheckpoint.evidence

def ChallengerSizeTrial.evidence (trial : ChallengerSizeTrial) : Challenger.ChallengerSizeTrial where
  entryCostLamports := trial.economics.map fun economics => economics.entryCostLamports.toNat
  eligibleAtEntry := trial.eligibleAtEntry
  checkpoints := Checkpoints.evidence trial.checkpoints

/-- An episode with the outcomes that were collected of it. -/
def Trajectory.collected (row : Trajectory) (episode : Challenger.LearningEvidenceEpisode) :
    Challenger.LearningEvidenceEpisode :=
  { episode with
    checkpoints := Checkpoints.evidence row.checkpoints
    sizeTrials := fun multiplier => (row.sizeTrials multiplier).map ChallengerSizeTrial.evidence }

theorem Trajectory.Sound.trialsFollow {economics : Option Economics} (h : row.Sound economics)
    (episode : Challenger.LearningEvidenceEpisode) : (row.collected episode).TrialsFollow := by
  intro multiplier trial' horizon checkpoint' htrial' hcheckpoint'
  obtain ⟨trial, htrial, rfl⟩ := Option.map_eq_some_iff.mp htrial'
  obtain ⟨checkpoint, hcheckpoint, rfl⟩ := Option.map_eq_some_iff.mp hcheckpoint'
  obtain ⟨own, hown, hat⟩ := h.follows multiplier trial htrial horizon checkpoint hcheckpoint
  exact ⟨own.evidence, congrArg (Option.map LearningCheckpoint.evidence) hown, hat⟩

/-- **The trials follow their episode** in every run: the writers give both the time of the call. -/
theorem collected_trialsFollow (outcomesSeen : ℕ) (calls : List Call) (episode : Challenger.LearningEvidenceEpisode) :
    ∀ e ∈ (run Collector.step (.new outcomesSeen) calls).policy, (e.row.collected episode).TrialsFollow := fun e he =>
  ((Collector.Sound.run outcomesSeen calls).policy.sound e he).trialsFollow episode

end SignalArcade.Challenger.Collection
