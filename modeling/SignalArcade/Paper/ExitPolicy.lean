import SignalArcade.Paper.Broker

/-!
# The exit policy

`assess_exit`: what is decided of one open position. A learned hold brings the review forward and
never puts it off, so what leaves without one leaves with any (`learned_hold_leaves_earlier`): only
the last part of the policy, `review`, looks at the hold, and it looks at it once.
-/

namespace SignalArcade.Paper

/-- How texts are read as numbers, and numbers written as texts. -/
structure ExitFormats where
  /-- `float(text)`. -/
  parse : String → Option ℚ
  /-- `f"{value:.0%}"`. -/
  percent : ℚ → String
  /-- `f"{value:.1%}"`. -/
  tenths : ℚ → String
  /-- `f"{value:+.1%}"`. -/
  signedTenths : ℚ → String

/-- `POLICY_VERSION`. -/
def exitPolicyVersion : String := "adaptive-exit-v1"

def clamp (value : ℚ) : ℚ := max 0 (min 1 value)

variable (formats : ExitFormats)

def availableNumber (features : FeatureSnapshot) (key : String) : Option ℚ :=
  (features.get? key).bind fun item =>
    if item.quality ≤ 0 then none
    else match item.value with
      | .number q => some q
      | .text s => formats.parse s
      | .flag _ | .missing => none

/-! ### Support -/

/-- How much of the activity is economically meaningful, of the current Baseline. -/
def economicCredit (features : FeatureSnapshot) (baselineVersion : String) : ℚ :=
  if baselineVersion = "baseline-v1.5" then
    clamp (min ((availableNumber formats features "meaningful_volume_ratio").getD 0)
      ((availableNumber formats features "meaningful_wallet_ratio").getD 0) / (60 / 100))
  else 1

/-- `hold_support`: the score, the evidence, and how many signals are available. -/
def holdSupport (features : FeatureSnapshot) (baselineVersion : String) : ℚ × List String × ℕ :=
  let buyRatio := availableNumber formats features "buy_ratio_5m"
  let momentum := availableNumber formats features "momentum_1m"
  let wallets := availableNumber formats features "unique_wallets_5m"
  let trades := availableNumber formats features "trade_count_1m"
  let drawdown := availableNumber formats features "drawdown_5m"
  let concentration := availableNumber formats features "wallet_volume_hhi"
  let credit := economicCredit formats features baselineVersion
  let component (signal : Option ℚ) (value : ℚ → ℚ) : ℚ := (signal.map value).getD 0
  let score := clamp
    (22 / 100 * component buyRatio (fun q => clamp ((q - 35 / 100) / (35 / 100)) * credit) +
      18 / 100 * component momentum (fun q => clamp ((q + 10 / 100) / (45 / 100)) * credit) +
      14 / 100 * component wallets (fun q => clamp (q / 20) * credit) +
      12 / 100 * component trades (fun q => clamp (q / 20) * credit) +
      14 / 100 * component drawdown (fun q => 1 - clamp (q / (35 / 100))) +
      10 / 100 * component concentration (fun q => 1 - clamp ((q - 8 / 100) / (42 / 100))) +
      10 / 100 * features.dataConfidence)
  let evidence :=
    (buyRatio.map fun q => "5m buy ratio " ++ formats.percent q).toList ++
      (momentum.map fun q => "1m momentum " ++ formats.signedTenths q).toList ++
      (drawdown.map fun q => "5m drawdown " ++ formats.tenths q).toList ++
      (wallets.map fun q => toString (truncate q) ++ " unique wallets in 5m").toList ++
      (if baselineVersion = "baseline-v1.5" then ["economically meaningful activity credit " ++ formats.percent credit]
        else [])
  (score, evidence.take 5, ([buyRatio, momentum, wallets, trades, drawdown, concentration].filter Option.isSome).length)

/-! ### One position -/

/-- What the policy computes of a position before it decides. -/
structure ExitMeasures where
  softHold : ℕ
  hardHold : ℕ
  age : ℚ
  pnl : ℚ
  peakReturn : ℚ
  peakDrawdown : ℚ
  support : ℚ
  evidence : List String
  availableSignals : ℕ

/-- The review point: `max(30, min(soft_hold_seconds or limits.max_hold_seconds, limits.max_hold_seconds))`. -/
def softHold (limits : RiskLimits) (softHoldSeconds : Option ℤ) : ℕ :=
  let requested : ℤ := match softHoldSeconds with
    | none => limits.maxHoldSeconds
    | some seconds => if seconds = 0 then limits.maxHoldSeconds else seconds
  (max 30 (min requested limits.maxHoldSeconds)).toNat

def exitMeasures (position : Position) (features : FeatureSnapshot) (now : Instant) (limits : RiskLimits)
    (softHoldSeconds : Option ℤ) : ExitMeasures :=
  let cost : ℚ := position.entryCostLamports
  let peakMark : ℚ := max position.lastMarkLamports position.peakMarkLamports
  let (support, evidence, availableSignals) := holdSupport formats features position.baselineVersionAtEntry
  { softHold := softHold limits softHoldSeconds
    hardHold := limits.hardMaxHoldSeconds
    age := max 0 ((now - position.openedAt : ℤ) / 1000000)
    pnl := if position.entryCostLamports = 0 then -1 else position.unrealizedPnlLamports / cost
    peakReturn := if position.entryCostLamports = 0 then -1 else peakMark / cost - 1
    peakDrawdown := if peakMark ≤ 0 then 0 else clamp (1 - position.lastMarkLamports / peakMark)
    support := support
    evidence := evidence
    availableSignals := availableSignals }

/-- An action, why, and what is said of it. -/
structure ExitVerdict where
  action : ExitAction
  reason : String
  extra : Option String := none

/-- What the hold has no part in: the route, the guards, the hard limit and the collapse of the signals. -/
def guards (features : FeatureSnapshot) (limits : RiskLimits) (integrityReason : Option String) (m : ExitMeasures) :
    Option ExitVerdict :=
  let blockers := routeBlockers features
  let progress := availableNumber formats features "curve_progress"
  let collapseSignals : List Bool :=
    [(availableNumber formats features "buy_ratio_5m").any (· < 42 / 100),
      (availableNumber formats features "momentum_1m").any (· ≤ -10 / 100),
      (availableNumber formats features "drawdown_5m").any (18 / 100 ≤ ·),
      (availableNumber formats features "wallet_volume_hhi").any (45 / 100 ≤ ·)]
  if blockers ≠ [] then
    some
      { action := .wait
        reason := if "stale_market_data" ∈ blockers then "waiting_for_fresh_market" else "exit_route_unavailable"
        extra := some (", ".intercalate blockers) }
  else if "creator_sold_recently" ∈ features.hardFlags then some ⟨.exit, "creator_sell_exit", none⟩
  else if "mint_account_failed_safety_checks" ∈ features.hardFlags then some ⟨.exit, "mint_safety_exit", none⟩
  else if m.pnl ≤ -limits.stopLossFraction then some ⟨.exit, "stop_loss", none⟩
  else if features.venue = "pump_curve" ∧ ∃ q ∈ progress, limits.migrationGuardProgress ≤ q then
    some
      { action := .exit
        reason := "migration_route_guard"
        extra := progress.map fun q =>
          "Curve progress " ++ formats.tenths q ++ " is near the unconfirmed migration boundary" }
  else match integrityReason with
    | some reason =>
      some ⟨.exit, reason, some "Manipulation evidence persisted across time-separated checkpoints"⟩
    | none =>
      if limits.takeProfitFraction ≤ m.peakReturn ∧ limits.trailingStopFraction ≤ m.peakDrawdown then
        some ⟨.exit, "trailing_profit", none⟩
      else if (m.hardHold : ℚ) ≤ m.age then some ⟨.exit, "absolute_time_exit", none⟩
      else if 30 ≤ m.age ∧ 5 / 10 ≤ features.dataConfidence ∧ 2 ≤ collapseSignals.count true then
        some ⟨.exit, "signal_deterioration", none⟩
      else none

/-- The profit target and the review. -/
def review (limits : RiskLimits) (m : ExitMeasures) : ExitVerdict :=
  let unsupported := m.availableSignals < 4 ∨ m.support < limits.minimumHoldSupport
  if limits.takeProfitFraction ≤ m.pnl ∧ unsupported then ⟨.exit, "take_profit", none⟩
  else if (m.softHold : ℚ) ≤ m.age ∧ unsupported then ⟨.exit, "time_exit", none⟩
  else if (m.softHold : ℚ) ≤ m.age then ⟨.hold, "adaptive_extension", none⟩
  else if limits.takeProfitFraction ≤ m.peakReturn then ⟨.hold, "protecting_winner", none⟩
  else ⟨.hold, "evidence_supports_hold", none⟩

/-- What is decided. -/
def exitVerdict (features : FeatureSnapshot) (limits : RiskLimits) (integrityReason : Option String) (m : ExitMeasures) :
    ExitVerdict :=
  (guards formats features limits integrityReason m).getD (review limits m)

/-- `assess_exit`; nothing where the assessment is not valid: its hard hold has to be positive. -/
def assessExit (position : Position) (features : FeatureSnapshot) (now : Instant) (limits : RiskLimits)
    (softHoldSeconds : Option ℤ) (persistentIntegrityReason : Option String) : Option ExitAssessment :=
  let m := exitMeasures formats position features now limits softHoldSeconds
  let verdict := exitVerdict formats features limits persistentIntegrityReason m
  if m.hardHold = 0 then none
  else some
    { policyVersion := exitPolicyVersion
      evaluatedAt := now
      action := verdict.action
      reason := verdict.reason
      supportScore := m.support
      pnlFraction := max (-1) (min 10 m.pnl)
      peakReturnFraction := max (-1) (min 10 m.peakReturn)
      drawdownFromPeakFraction := m.peakDrawdown
      ageSeconds := m.age
      softHoldSeconds := m.softHold
      hardHoldSeconds := m.hardHold
      evidence := ((verdict.extra.filter (· ≠ "")).toList ++ m.evidence).take 5
      strategySeasonId := none
      strategyParticipant := none }

/-! ### A learned hold -/

variable {formats} {position : Position} {features : FeatureSnapshot} {now : Instant} {limits : RiskLimits}
  {integrityReason : Option String} {softHoldSeconds : Option ℤ}

theorem softHold_le (limits : RiskLimits) (softHoldSeconds : Option ℤ) :
    softHold limits softHoldSeconds ≤ softHold limits none := by
  have hmin : ∀ requested : ℤ, min requested limits.maxHoldSeconds ≤ min (limits.maxHoldSeconds : ℤ) limits.maxHoldSeconds := by
    intro requested
    rw [min_self]
    exact min_le_right _ _
  exact Int.toNat_le_toNat (max_le_max le_rfl (hmin _))

theorem exitMeasures_eq (position : Position) (features : FeatureSnapshot) (now : Instant) (limits : RiskLimits)
    (softHoldSeconds : Option ℤ) : exitMeasures formats position features now limits softHoldSeconds =
      { exitMeasures formats position features now limits none with softHold := softHold limits softHoldSeconds } := rfl

theorem guards_softHold (m : ExitMeasures) (hold : ℕ) :
    guards formats features limits integrityReason { m with softHold := hold } =
      guards formats features limits integrityReason m := rfl

theorem review_exit {m : ExitMeasures} {hold : ℕ} (hle : hold ≤ m.softHold) (h : (review limits m).action = .exit) :
    (review limits { m with softHold := hold }).action = .exit := by
  unfold review at h ⊢
  dsimp only at h ⊢
  by_cases hprofit : limits.takeProfitFraction ≤ m.pnl ∧
      (m.availableSignals < 4 ∨ m.support < limits.minimumHoldSupport)
  · rw [if_pos hprofit]
  · rw [if_neg hprofit] at h ⊢
    by_cases htime : (m.softHold : ℚ) ≤ m.age ∧ (m.availableSignals < 4 ∨ m.support < limits.minimumHoldSupport)
    · have hearlier : (hold : ℚ) ≤ m.age := (Nat.cast_le.mpr hle).trans htime.1
      rw [if_pos ⟨hearlier, htime.2⟩]
    · -- what is left holds
      rw [if_neg htime] at h
      split_ifs at h

theorem exitVerdict_exit {m : ExitMeasures} {hold : ℕ} (hle : hold ≤ m.softHold)
    (h : (exitVerdict formats features limits integrityReason m).action = .exit) :
    (exitVerdict formats features limits integrityReason { m with softHold := hold }).action = .exit := by
  unfold exitVerdict at h ⊢
  rw [guards_softHold]
  cases hguards : guards formats features limits integrityReason m with
  | none =>
    rw [hguards] at h
    exact review_exit hle h
  | some verdict =>
    rw [hguards] at h
    exact h

theorem guards_blocked (formats : ExitFormats) (limits : RiskLimits) (integrityReason : Option String)
    (hblocked : routeBlockers features ≠ []) (m : ExitMeasures) :
    ∃ verdict, guards formats features limits integrityReason m = some verdict ∧ verdict.action = .wait := by
  unfold guards
  dsimp only
  rw [if_pos hblocked]
  exact ⟨_, rfl, rfl⟩

theorem guards_hardHold (formats : ExitFormats) (limits : RiskLimits) (integrityReason : Option String)
    (hclear : routeBlockers features = []) {m : ExitMeasures} (hage : (m.hardHold : ℚ) ≤ m.age) :
    ∃ verdict, guards formats features limits integrityReason m = some verdict ∧ verdict.action = .exit := by
  unfold guards
  dsimp only
  rw [if_neg (not_not.mpr hclear)]
  cases integrityReason with
  | some reason =>
    split_ifs
    all_goals exact ⟨_, rfl, rfl⟩
  | none =>
    dsimp only
    split_ifs
    all_goals exact ⟨_, rfl, rfl⟩

def Position.ageSeconds (position : Position) (now : Instant) : ℚ := max 0 ((now - position.openedAt : ℤ) / 1000000)

theorem assessExit_eq_some {assessment : ExitAssessment}
    (h : assessExit formats position features now limits softHoldSeconds integrityReason = some assessment) :
    limits.hardMaxHoldSeconds ≠ 0 ∧ assessment.action =
      (exitVerdict formats features limits integrityReason
        (exitMeasures formats position features now limits softHoldSeconds)).action := by
  unfold assessExit at h
  dsimp only at h
  split_ifs at h with hhard
  cases h
  exact ⟨hhard, rfl⟩

theorem assessExit_isSome :
    (assessExit formats position features now limits softHoldSeconds integrityReason).isSome = true ↔
      0 < limits.hardMaxHoldSeconds := by
  unfold assessExit
  dsimp only
  split_ifs with hhard
  · have hzero : limits.hardMaxHoldSeconds = 0 := hhard
    simp [hzero]
  · have hne : limits.hardMaxHoldSeconds ≠ 0 := hhard
    simp [Nat.pos_of_ne_zero hne]

theorem assessExit_exit_of_none (learned : Option ℤ) {assessment : ExitAssessment}
    (h : assessExit formats position features now limits none integrityReason = some assessment)
    (hexit : assessment.action = .exit) :
    ∃ assessment', assessExit formats position features now limits learned integrityReason = some assessment' ∧
      assessment'.action = .exit := by
  obtain ⟨hhard, haction⟩ := assessExit_eq_some h
  have hsome : (assessExit formats position features now limits learned integrityReason).isSome = true :=
    assessExit_isSome.mpr (Nat.pos_of_ne_zero hhard)
  obtain ⟨assessment', h'⟩ := Option.isSome_iff_exists.mp hsome
  refine ⟨assessment', h', ?_⟩
  rw [(assessExit_eq_some h').2, exitMeasures_eq]
  rw [haction] at hexit
  exact exitVerdict_exit (softHold_le limits learned) hexit

/-- **A learned hold can only leave earlier.** Where the policy without a learned hold exits, it exits with any. With
a blocker of the route it waits, with a hold and without; with none, and at the hard hold or later, it exits. Whether
there is an assessment at all does not depend on the hold either. -/
theorem learned_hold_leaves_earlier (formats : ExitFormats) (position : Position) (features : FeatureSnapshot)
    (now : Instant) (limits : RiskLimits) (integrityReason : Option String) :
    (∀ learned assessment,
      assessExit formats position features now limits none integrityReason = some assessment → assessment.action = .exit →
        ∃ assessment', assessExit formats position features now limits learned integrityReason = some assessment' ∧
          assessment'.action = .exit) ∧
    (routeBlockers features ≠ [] → ∀ learned assessment,
      assessExit formats position features now limits learned integrityReason = some assessment → assessment.action = .wait) ∧
    (routeBlockers features = [] → limits.hardMaxHoldSeconds ≤ position.ageSeconds now → ∀ learned assessment,
      assessExit formats position features now limits learned integrityReason = some assessment → assessment.action = .exit) ∧
    ∀ learned, (assessExit formats position features now limits learned integrityReason).isSome = true ↔
      0 < limits.hardMaxHoldSeconds := by
  refine ⟨fun learned assessment h hexit => assessExit_exit_of_none learned h hexit,
    fun hblocked learned assessment h => ?_, fun hclear hage learned assessment h => ?_, fun learned => assessExit_isSome⟩
  · obtain ⟨verdict, hverdict, hwait⟩ := guards_blocked formats limits integrityReason hblocked
      (exitMeasures formats position features now limits learned)
    rw [(assessExit_eq_some h).2, exitVerdict, hverdict]
    exact hwait
  · have hage' : ((exitMeasures formats position features now limits learned).hardHold : ℚ) ≤
        (exitMeasures formats position features now limits learned).age := hage
    obtain ⟨verdict, hverdict, hexit⟩ := guards_hardHold formats limits integrityReason hclear hage'
    rw [(assessExit_eq_some h).2, exitVerdict, hverdict]
    exact hexit

end SignalArcade.Paper
