import SignalArcade.Lib.Debounce
import SignalArcade.Paper.Broker

/-!
# Integrity exits need persistent evidence

`_persistent_integrity_exit_reason`, over any history of an open position. The counters it keeps in the
position are those of `Debounce`: a suspicious or severe assessment is an alarm, at the time of its
evidence, a clean one clears, and an uncertain one does nothing (`warned_counter`). Whatever else happens
to the position leaves them alone, so what they count is a run of warnings (`observes_run`):
-/

namespace SignalArcade.Paper

open List

open Debounce (Signal Counter Counts alarms)

/-! ### What the counters count -/

def MarketIntegrityState.signal : MarketIntegrityState → Signal
  | .clean => .clear
  | .uncertain => .neutral
  | .suspicious | .severe => .alarm

theorem signal_alarm (state : MarketIntegrityState) : state.signal = .alarm ↔ state = .suspicious ∨ state = .severe := by
  cases state <;> decide

theorem signal_clear (state : MarketIntegrityState) : state.signal = .clear ↔ state = .clean := by
  cases state <;> decide

/-- How close to the last one a warning is left out: five seconds. -/
def warningNear : Instant := 5 * 1000000

/-- After how long the count begins anew: a minute. -/
def warningFar : Instant := 60 * 1000000

/-- The counter that the position keeps. -/
def Position.counter (position : Position) : Counter Instant :=
  ⟨position.integrityWarningSince, position.integrityLastWarningAt, position.integrityWarningCount⟩

theorem warned_counter (position : Position) (state : MarketIntegrityState) (evidenceAt now : Instant) :
    (position.warned state evidenceAt now).counter =
      Debounce.step warningNear warningFar position.counter (state.signal, evidenceAt) := by
  have hgap : ∀ p : Instant → Prop,
      (∃ g ∈ position.integrityLastWarningAt.map fun last => evidenceAt - last, p g) ↔
        ∃ l ∈ position.integrityLastWarningAt, p (evidenceAt - l) := by
    simp
  have hnear : (∀ g ∈ position.integrityLastWarningAt.map fun last => evidenceAt - last, 5 * 1000000 ≤ g) ↔
      ∀ l ∈ position.integrityLastWarningAt, warningNear ≤ evidenceAt - l := by
    simp [warningNear]
  have halarm : ∀ state : MarketIntegrityState, state.signal = .alarm →
      (position.warned state evidenceAt now).counter =
        Debounce.step warningNear warningFar position.counter (.alarm, evidenceAt) := by
    intro state hstate
    obtain rfl | rfl := (signal_alarm state).mp hstate
    all_goals
      unfold Position.warned Debounce.step
      dsimp only [Position.counter]
      simp only [hgap, hnear, show warningFar = 60 * 1000000 from rfl]
      by_cases hrestart : position.integrityWarningSince = none ∨
          ∃ l ∈ position.integrityLastWarningAt, 60 * 1000000 < evidenceAt - l
      · rw [if_pos hrestart]
        exact (if_pos hrestart).symm
      · rw [if_neg hrestart]
        refine Eq.trans ?_ (if_neg hrestart).symm
        by_cases htake : ∀ l ∈ position.integrityLastWarningAt, warningNear ≤ evidenceAt - l
        · rw [if_pos htake]
          exact (if_pos htake).symm
        · rw [if_neg htake]
          exact (if_neg htake).symm
  cases state with
  | clean => rfl
  | uncertain => rfl
  | suspicious => exact halarm .suspicious rfl
  | severe => exact halarm .severe rfl

/-! ### Samples -/

/-- What the integrity of a position is judged by, and when. -/
structure IntegritySample where
  features : FeatureSnapshot
  now : Instant

/-- The time of its evidence. -/
def IntegritySample.evidenceAt (sample : IntegritySample) : Instant :=
  ((sample.features.get? "trade_count_5m").map (·.asOf)).getD sample.features.computedAt

variable (env : Env) (version : String)

/-- What the policy says of the sample. -/
def IntegritySample.state (sample : IntegritySample) : MarketIntegrityState :=
  match learnableBaseline version with
  | none => .uncertain
  | some baseline => env.policies.assessMarketIntegrity sample.features (integrityPolicyForBaseline baseline)

/-- It is suspicious, or severe. -/
def IntegritySample.warns (sample : IntegritySample) : Bool :=
  sample.state env version = .suspicious || sample.state env version = .severe

def IntegritySample.signal (sample : IntegritySample) : Signal × Instant :=
  ((sample.state env version).signal, sample.evidenceAt)

/-- The samples a position has had since it was opened, and what became of it. Between two of them anything may happen to
it that leaves its counters alone. -/
inductive Observes : List IntegritySample → Position → Prop
  | opened {position : Position} (hcounter : position.counter = {}) : Observes [] position
  | sampled {samples : List IntegritySample} {position : Position} (features : FeatureSnapshot) (now : Instant)
      (h : Observes samples position) :
      Observes (samples ++ [⟨features, now⟩]) (persistentIntegrityExitReason env position features now).1
  | changed {samples : List IntegritySample} {position position' : Position} (h : Observes samples position)
      (hcounter : position'.counter = position.counter)
      (hversion : position'.baselineVersionAtEntry = position.baselineVersionAtEntry) : Observes samples position'

/-- Warnings up to the last sample, five seconds to a minute apart and none cleared since. -/
structure WarningRun (samples : List IntegritySample) (run : List Instant) : Prop where
  recent : ∃ earlier recent, samples = earlier ++ recent ∧ (∀ s ∈ recent, s.state env version ≠ .clean) ∧
    run.Sublist ((recent.filter (·.warns env version)).map IntegritySample.evidenceAt)
  spaced : run.IsChain fun a b => 5 * 1000000 ≤ b - a ∧ b - a ≤ 60 * 1000000
  increasing : run.Pairwise (· < ·)

variable {env} {version} {samples : List IntegritySample} {position : Position} {features : FeatureSnapshot} {now : Instant}

theorem alarms_signal (samples : List IntegritySample) :
    alarms (samples.map (·.signal env version)) =
      (samples.filter (·.warns env version)).map IntegritySample.evidenceAt := by
  unfold alarms
  rw [filter_map, map_map]
  have hsame : ((fun s : Signal × Instant => decide (s.1 = .alarm)) ∘ fun sample : IntegritySample => sample.signal env version) =
      fun sample => sample.warns env version := by
    funext sample
    simp only [Function.comp_apply, IntegritySample.signal, signal_alarm, IntegritySample.warns, Bool.decide_or]
  rw [hsame]
  rfl

theorem WarningRun.of_counts {c : Counter Instant} {run : List Instant}
    (h : Counts warningNear warningFar (samples.map (·.signal env version)) c run) : WarningRun env version samples run := by
  have hspaced : run.IsChain fun a b => 5 * 1000000 ≤ b - a ∧ b - a ≤ 60 * 1000000 := h.spaced
  refine ⟨?_, hspaced, ?_⟩
  · obtain ⟨earlier, recent, heq, hclear, hsub⟩ := h.recent
    obtain ⟨earlier, recent, rfl, rfl, rfl⟩ := map_eq_append_iff.mp heq
    refine ⟨earlier, recent, rfl, fun s hs hclean => ?_, by rwa [alarms_signal] at hsub⟩
    exact hclear _ (mem_map_of_mem hs) ((signal_clear _).mpr hclean)
  · have hlt : run.IsChain (· < ·) := hspaced.imp fun a b hab => sub_pos.mp (lt_of_lt_of_le (by decide) hab.1)
    exact isChain_iff_pairwise.mp hlt

/-! ### The counters of a position -/

theorem persistent_version (position : Position) (features : FeatureSnapshot) (now : Instant) :
    (persistentIntegrityExitReason env position features now).1.baselineVersionAtEntry = position.baselineVersionAtEntry := by
  unfold persistentIntegrityExitReason
  split
  · rfl
  · dsimp only [Position.warned]
    split
    · rfl
    · split_ifs <;> rfl
    · split_ifs <;> rfl
    · rfl

theorem persistent_counter (position : Position) (features : FeatureSnapshot) (now : Instant) :
    (persistentIntegrityExitReason env position features now).1.counter =
      Debounce.step warningNear warningFar position.counter
        ((⟨features, now⟩ : IntegritySample).signal env position.baselineVersionAtEntry) := by
  unfold persistentIntegrityExitReason IntegritySample.signal IntegritySample.state
  cases learnableBaseline position.baselineVersionAtEntry with
  | none => rfl
  | some baseline => exact warned_counter _ _ _ _

/-- **The counters are what the signals of the samples come to**, in any history of the position. -/
theorem observes_run (h : Observes env samples position) :
    position.counter = Debounce.run warningNear warningFar (samples.map (·.signal env position.baselineVersionAtEntry)) := by
  induction h with
  | opened hcounter => exact hcounter
  | sampled features now _ ih =>
    rw [persistent_counter, persistent_version, map_append, map_singleton, Debounce.run_concat, ih]
  | changed _ hcounter hversion ih => rw [hcounter, hversion, ih]

/-- A reason is given of a counter that has counted on. -/
theorem persistent_reason {reason : String} (h : (persistentIntegrityExitReason env position features now).2 = some reason) :
    ∃ first, (persistentIntegrityExitReason env position features now).1.counter.first = some first ∧
      (reason = "persistent_severe_market_integrity" ∧
          (⟨features, now⟩ : IntegritySample).state env position.baselineVersionAtEntry = .severe ∧
          2 ≤ (persistentIntegrityExitReason env position features now).1.counter.count ∧ 10 * 1000000 ≤ now - first ∨
        reason = "persistent_suspicious_market_integrity" ∧
          (⟨features, now⟩ : IntegritySample).state env position.baselineVersionAtEntry = .suspicious ∧
          3 ≤ (persistentIntegrityExitReason env position features now).1.counter.count ∧ 20 * 1000000 ≤ now - first) := by
  unfold IntegritySample.state
  unfold persistentIntegrityExitReason at h ⊢
  cases hbaseline : learnableBaseline position.baselineVersionAtEntry with
  | none =>
    rw [hbaseline] at h
    cases h
  | some baseline =>
    rw [hbaseline] at h
    dsimp only at h ⊢
    generalize env.policies.assessMarketIntegrity features (integrityPolicyForBaseline baseline) = state at h ⊢
    generalize position.warned state _ now = warned at h ⊢
    unfold Position.warningReason at h
    dsimp only [Position.counter] at h ⊢
    cases hsince : warned.integrityWarningSince with
    | none =>
      rw [hsince] at h
      simp at h
    | some first =>
      rw [hsince] at h
      refine ⟨first, rfl, ?_⟩
      split_ifs at h with hsevere hsuspicious
      · cases h
        exact .inl ⟨rfl, hsevere⟩
      · cases h
        exact .inr ⟨rfl, hsuspicious⟩

/-! ### The law -/

/-- **An integrity exit needs persistent fresh evidence.** If a sample of an open position gives the exit reason, there is a
run of warnings up to it, of evidence times five seconds to a minute apart, without a clean sample since it began: of two
warnings for a severe sample, the first ten seconds old, and of three for a suspicious one, the first twenty seconds old.
An uncertain sample leaves the counters as they were, and so does one whose evidence was warned of already. -/
theorem integrity_exit_persists (h : Observes env samples position) (features : FeatureSnapshot) (now : Instant) :
    (∀ reason, (persistentIntegrityExitReason env position features now).2 = some reason →
      ∃ warnings first, WarningRun env position.baselineVersionAtEntry (samples ++ [⟨features, now⟩]) warnings ∧
        warnings.head? = some first ∧
        (reason = "persistent_severe_market_integrity" ∧
            (⟨features, now⟩ : IntegritySample).state env position.baselineVersionAtEntry = .severe ∧
            2 ≤ warnings.length ∧ 10 * 1000000 ≤ now - first ∨
          reason = "persistent_suspicious_market_integrity" ∧
            (⟨features, now⟩ : IntegritySample).state env position.baselineVersionAtEntry = .suspicious ∧
            3 ≤ warnings.length ∧ 20 * 1000000 ≤ now - first)) ∧
    ((⟨features, now⟩ : IntegritySample).state env position.baselineVersionAtEntry = .uncertain →
      (persistentIntegrityExitReason env position features now).1.counter = position.counter) ∧
    (∀ earlier sample later, samples = earlier ++ sample :: later →
      sample.warns env position.baselineVersionAtEntry = true →
      (∀ s ∈ later, s.state env position.baselineVersionAtEntry ≠ .clean) →
      (⟨features, now⟩ : IntegritySample).evidenceAt = sample.evidenceAt →
      (⟨features, now⟩ : IntegritySample).state env position.baselineVersionAtEntry ≠ .clean →
      (persistentIntegrityExitReason env position features now).1.counter = position.counter) := by
  have hrun := observes_run h
  have hnext := observes_run (.sampled features now h)
  rw [persistent_version] at hnext
  refine ⟨fun reason hreason => ?_, fun huncertain => ?_, fun earlier sample later hsamples hwarns hclear hevidence hstate => ?_⟩
  · obtain ⟨first, hfirst, hlaw⟩ := persistent_reason hreason
    obtain ⟨warnings, hcounts⟩ := Debounce.run_spaced warningNear warningFar
      ((samples ++ [(⟨features, now⟩ : IntegritySample)]).map (·.signal env position.baselineVersionAtEntry))
    rw [← hnext] at hcounts
    rw [hcounts.count] at hlaw
    rw [hcounts.first] at hfirst
    exact ⟨warnings, first, .of_counts hcounts, hfirst, hlaw⟩
  · rw [persistent_counter, IntegritySample.signal, huncertain]
    rfl
  · rw [persistent_counter, hrun, hsamples, map_append, map_cons]
    have halarm : sample.signal env position.baselineVersionAtEntry = (.alarm, sample.evidenceAt) :=
      Prod.ext ((signal_alarm _).mpr (by simpa [IntegritySample.warns] using hwarns)) rfl
    have hlater : ∀ s ∈ later.map (·.signal env position.baselineVersionAtEntry), s.1 ≠ .clear := by
      intro s hs
      obtain ⟨sample', hsample', rfl⟩ := mem_map.mp hs
      exact mt (signal_clear _).mp (hclear sample' hsample')
    rw [halarm]
    cases hsignal : ((⟨features, now⟩ : IntegritySample).state env position.baselineVersionAtEntry).signal with
    | clear => exact absurd ((signal_clear _).mp hsignal) hstate
    | neutral =>
      rw [IntegritySample.signal, hsignal]
      rfl
    | alarm =>
      rw [IntegritySample.signal, hsignal, hevidence]
      exact Debounce.step_reread (by decide) (by decide) hlater

/-! ### A position that is younger than its evidence -/

/-- A season in which every market looks severely manipulated. -/
def severeEnv : Env :=
  { sampleEnv .sol fun _ _ => false with
    policies := { (sampleEnv .sol fun _ _ => false).policies with assessMarketIntegrity := fun _ _ => .severe } }

/-- A market of which there is evidence of a time. -/
def evidenceOf (computedAt : Instant) : FeatureSnapshot := ⟨"mint", "mint", "mint", "pump_curve", computedAt, [], 1, []⟩

/-- A position that was opened eight seconds after the first evidence. -/
def youngPosition : Position where
  positionId := 0
  mint := "mint"
  symbol := "mint"
  tokenUnits := 1
  entryCostLamports := 1
  bookValueLamports := 1
  openedAt := 8 * 1000000
  entryFillId := 0
  riskModeAtEntry := none
  baselineVersionAtEntry := "baseline-v1.5"
  exitTimingPlan := none
  venue := "pump_curve"
  curveAddress := ""
  poolAddress := ""
  poolBaseTokenAccount := ""
  poolQuoteTokenAccount := ""
  quoteMint := "SOL"

/-- The position after it was judged when it was opened. -/
def warnedPosition : Position := (persistentIntegrityExitReason severeEnv youngPosition (evidenceOf 0) (8 * 1000000)).1

theorem warnedPosition_observed : Observes severeEnv [⟨evidenceOf 0, 8 * 1000000⟩] warnedPosition :=
  .sampled (evidenceOf 0) (8 * 1000000) (.opened rfl)

theorem warnedPosition_reason :
    (persistentIntegrityExitReason severeEnv warnedPosition (evidenceOf (9 * 1000000)) (10 * 1000000)).2 =
      some "persistent_severe_market_integrity" := by
  decide +kernel

/-- Two warnings, nine seconds apart. -/
theorem warnedPosition_run : ∃ warnings first,
    WarningRun severeEnv "baseline-v1.5" [⟨evidenceOf 0, 8 * 1000000⟩, ⟨evidenceOf (9 * 1000000), 10 * 1000000⟩] warnings ∧
      warnings.head? = some first ∧ 2 ≤ warnings.length ∧ 10 * 1000000 ≤ 10 * 1000000 - first := by
  obtain ⟨warnings, first, hrun, hfirst, hlaw⟩ :=
    (integrity_exit_persists warnedPosition_observed (evidenceOf (9 * 1000000)) (10 * 1000000)).1 _ warnedPosition_reason
  rcases hlaw with ⟨-, -, hcount, hage⟩ | ⟨hreason, -⟩
  · exact ⟨warnings, first, hrun, hfirst, hcount, hage⟩
  · exact absurd hreason (by decide)

/-- **A position two seconds old is told to exit**: the first evidence against its market is older than it is. -/
theorem young_position_exits : ∃ samples position features now, Observes severeEnv samples position ∧
    (persistentIntegrityExitReason severeEnv position features now).2 = some "persistent_severe_market_integrity" ∧
    position.openedAt ≤ now ∧ now - position.openedAt = 2 * 1000000 ∧ ¬10 * 1000000 ≤ now - position.openedAt :=
  ⟨_, warnedPosition, evidenceOf (9 * 1000000), 10 * 1000000, warnedPosition_observed, warnedPosition_reason, by decide, by decide,
    by decide⟩

end SignalArcade.Paper
