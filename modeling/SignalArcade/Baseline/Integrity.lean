import SignalArcade.Challenger.Predict
import SignalArcade.Lib.Ranks

/-!
# The integrity of a market

`assess_market_integrity` of `decision.py`. Metrics of the last five minutes are turned into risks,
each scaled by the quality of its metric; risks of one kind make the score of a category; and the
categories whose score is high enough make the state, if there is enough evidence to tell. The
numbers are exact.
-/

namespace SignalArcade.Baseline

open Paper (FeatureSnapshot Scalar MarketIntegrityState IntegrityAssessment)
open Challenger (clamp number)
open Ranks List

/-! ### Policies -/

/-- The integrity policies, but for the legacy one, which assesses nothing. -/
inductive IntegrityPolicy where
  | previous | recent | current
  deriving DecidableEq

def IntegrityPolicy.version : IntegrityPolicy → String
  | .previous => "integrity-gates-v1"
  | .recent => "integrity-gates-v2"
  | .current => "integrity-gates-v3"

def integrityMinSampleCount : ℕ := 24

def integrityMinAgeSeconds : ℚ := 30

def integrityMinCoverage : ℚ := 75 / 100

/-- The metrics of which the current policy needs every one. -/
def coreMetricNames : List String :=
  ["microtrade_count_ratio", "meaningful_volume_ratio", "meaningful_wallet_ratio", "median_trade_quote_sol",
    "price_path_efficiency", "rapid_price_reversal_ratio", "trade_density_5m"]

def IntegrityPolicy.metricNames (policy : IntegrityPolicy) : List String :=
  (if policy = .previous then [] else ["wallet_volume_hhi", "single_trade_wallet_ratio"]) ++
    ["round_trip_wallet_ratio", "round_trip_volume_ratio", "net_quote_flow_ratio", "side_alternation_ratio",
      "quantized_amount_repeat_ratio", "slot_concentration_hhi", "price_direction_consistency",
      "multi_trade_signature_ratio"] ++
    if policy = .current then coreMetricNames else []

/-! ### Metrics and risks -/

/-- A metric that may be used. -/
structure Metric where
  value : ℚ
  quality : ℚ

/-- A text counts as missing here, even one that `float` would parse. -/
def integrityMetric (features : FeatureSnapshot) (name : String) : Option Metric :=
  (features.get? name).bind fun item =>
    match item.value with
    | .number numeric =>
      if item.missingReason ≠ none ∨ item.quality < 75 / 100 then none else some ⟨clamp numeric, item.quality⟩
    | .text _ | .flag _ | .missing => none

def usableFraction (features : FeatureSnapshot) (name : String) : Option ℚ :=
  (integrityMetric features name).map Metric.value

def integrityWindowComplete (features : FeatureSnapshot) : Bool :=
  (features.get? "integrity_window_complete").any (fun item =>
    item.value = .flag true && item.missingReason = none && 75 / 100 ≤ item.quality) &&
    !(features.get? "trade_buffer_saturated").any fun saturated => saturated.value = .flag true

def currentIntegrityCoreComplete (features : FeatureSnapshot) : Bool :=
  coreMetricNames.all fun name => (integrityMetric features name).isSome

def riskAbove (metric : Option Metric) (start full : ℚ) : ℚ :=
  match metric with
  | none => 0
  | some metric => clamp ((metric.value - start) / max (full - start) (1 / 1000000)) * metric.quality

def riskBelow (metric : Option Metric) (start full : ℚ) : ℚ :=
  match metric with
  | none => 0
  | some metric => clamp ((start - metric.value) / max (start - full) (1 / 1000000)) * metric.quality

/-! ### Categories -/

/-- A signal of which others are corroborations: the mean of the `n` strongest signals, when the last of them is
strong enough, and otherwise a part of the strongest. -/
def corroborated (n : ℕ) (alone : ℚ) (signals : List ℚ) : ℚ :=
  if 35 / 100 ≤ largest signals (n - 1) then ((range n).map (largest signals)).sum / n
  else largest signals 0 * alone

/-- A kind of evidence. -/
inductive IntegrityCategory where
  | walletLoops | concentratedDispersion | lowNetFlow | tradeStructure | syntheticEconomicActivity
  | rapidPriceReversion | pricePath
  deriving DecidableEq

namespace IntegrityCategory

/-- Its key in `category_scores`. -/
def key : IntegrityCategory → String
  | walletLoops => "wallet_loops"
  | concentratedDispersion => "concentrated_dispersion"
  | lowNetFlow => "low_net_flow"
  | tradeStructure => "trade_structure"
  | syntheticEconomicActivity => "synthetic_economic_activity"
  | rapidPriceReversion => "rapid_price_reversion"
  | pricePath => "price_path"

/-- What is said of it. -/
def evidence : IntegrityCategory → String
  | walletLoops => "Repeated wallet round trips dominate participation or volume"
  | concentratedDispersion => "One-trade participation accompanies extremely concentrated traded volume"
  | lowNetFlow => "Gross trading volume produces unusually little net quote flow"
  | tradeStructure => "Trade timing, ordering, or sizing repeats in a coordinated pattern"
  | syntheticEconomicActivity => "High displayed activity is dominated by dust-sized, economically weak flow"
  | rapidPriceReversion => "The price repeatedly reverses while generating little net progress"
  | pricePath => "The observed price path is unusually one-directional"

/-- The metrics it is about, and whether a high value is a risk or a low one, with the values at which the risk
begins and is full. -/
def signals : IntegrityCategory → List (String × Bool × ℚ × ℚ)
  | walletLoops =>
    [("round_trip_wallet_ratio", true, 30 / 100, 70 / 100), ("round_trip_volume_ratio", true, 45 / 100, 85 / 100)]
  | concentratedDispersion =>
    [("wallet_volume_hhi", true, 35 / 100, 85 / 100), ("single_trade_wallet_ratio", true, 80 / 100, 98 / 100)]
  | lowNetFlow => [("net_quote_flow_ratio", false, 28 / 100, 6 / 100)]
  | tradeStructure =>
    [("side_alternation_ratio", true, 68 / 100, 92 / 100), ("quantized_amount_repeat_ratio", true, 38 / 100, 78 / 100),
      ("slot_concentration_hhi", true, 24 / 100, 62 / 100), ("multi_trade_signature_ratio", true, 12 / 100, 50 / 100)]
  | syntheticEconomicActivity =>
    [("microtrade_count_ratio", true, 65 / 100, 95 / 100), ("meaningful_volume_ratio", false, 55 / 100, 12 / 100),
      ("meaningful_wallet_ratio", false, 55 / 100, 15 / 100), ("median_trade_quote_sol", false, 20 / 1000, 3 / 1000),
      ("trade_density_5m", true, 65 / 100, 95 / 100)]
  | rapidPriceReversion =>
    [("price_path_efficiency", false, 30 / 100, 8 / 100), ("rapid_price_reversal_ratio", true, 45 / 100, 75 / 100)]
  | pricePath => [("price_direction_consistency", true, 84 / 100, 98 / 100)]

def risk (available : String → Option Metric) (signal : String × Bool × ℚ × ℚ) : ℚ :=
  match signal with
  | (name, true, start, full) => riskAbove (available name) start full
  | (name, false, start, full) => riskBelow (available name) start full

/-- What its score is, given the risks. -/
def combine : IntegrityCategory → List ℚ → ℚ
  | walletLoops, risks => largest risks 0
  | concentratedDispersion, risks => corroborated 2 (50 / 100) risks
  | lowNetFlow, risks => largest risks 0
  | tradeStructure, risks => corroborated 2 (50 / 100) risks
  | syntheticEconomicActivity, risks => corroborated 3 (35 / 100) risks
  | rapidPriceReversion, risks => corroborated 2 (35 / 100) risks
  | pricePath, risks => largest risks 0

/-- The score of a category, from the metrics there are. -/
def categoryScore (category : IntegrityCategory) (available : String → Option Metric) : ℚ :=
  category.combine (category.signals.map (risk available))

end IntegrityCategory

/-- The categories a policy knows, in the order in which they are looked at. -/
def IntegrityPolicy.categories (policy : IntegrityPolicy) : List IntegrityCategory :=
  [.walletLoops] ++ (if policy = .previous then [] else [.concentratedDispersion]) ++ [.lowNetFlow, .tradeStructure] ++
    (if policy = .current then [.syntheticEconomicActivity, .rapidPriceReversion] else []) ++ [.pricePath]

/-! ### The assessment -/

namespace IntegrityPolicy

variable (policy : IntegrityPolicy) (features : FeatureSnapshot)

/-- The metric, if the policy reads it. -/
def available (name : String) : Option Metric :=
  if name ∈ policy.metricNames then integrityMetric features name else none

def categoryScores : List (IntegrityCategory × ℚ) :=
  (policy.categories.map fun category => (category, category.categoryScore (policy.available features))).filter
    fun entry => 55 / 100 ≤ entry.2

/-- `coverage`. A metric that is missing counts as one of no quality. -/
def coverage : ℚ :=
  ((policy.metricNames.filterMap (policy.available features)).map Metric.quality).sum / policy.metricNames.length

def score : ℚ :=
  let scores := (policy.categoryScores features).map Prod.snd
  if scores.length = 0 then 0 else scores.sum / scores.length

end IntegrityPolicy

def sampleCount (features : FeatureSnapshot) : ℕ := ⌊number features "trade_count_5m" 0⌋.toNat

def ageSeconds (features : FeatureSnapshot) : ℚ := max 0 (number features "age_seconds" 0)

/-- Whether there is enough evidence. -/
def IntegrityPolicy.eligible (policy : IntegrityPolicy) (features : FeatureSnapshot) : Bool :=
  integrityMinSampleCount ≤ sampleCount features && integrityMinAgeSeconds ≤ ageSeconds features &&
    integrityMinCoverage ≤ policy.coverage features &&
    (policy ≠ .current || (integrityWindowComplete features && currentIntegrityCoreComplete features))

def IntegrityPolicy.state (policy : IntegrityPolicy) (features : FeatureSnapshot) : MarketIntegrityState :=
  let categoryCount := (policy.categoryScores features).length
  if !policy.eligible features then .uncertain
  else if 3 ≤ categoryCount ∧ 70 / 100 ≤ policy.score features then .severe
  else if 2 ≤ categoryCount ∧ 55 / 100 ≤ policy.score features then .suspicious
  else if categoryCount = 0 then .clean
  else .uncertain

def IntegrityPolicy.evidence (policy : IntegrityPolicy) (features : FeatureSnapshot) : List String :=
  let evidence := (policy.categoryScores features).map fun entry => entry.1.evidence
  if !policy.eligible features then
    (if policy = .current ∧ integrityWindowComplete features = false then
        "A complete uninterrupted five-minute event window is needed"
      else if policy = .current ∧ currentIntegrityCoreComplete features = false then
        "Complete economic-size and price-path fields are needed"
      else "More time, trades, or complete stream fields are needed") :: evidence
  else match policy.state features with
    | .severe | .suspicious => evidence
    | .clean => evidence ++ ["No corroborated manipulation pattern is present in the usable sample"]
    | .uncertain => evidence ++ ["An isolated pattern is not enough to classify the market"]

def assessMarketIntegrity (policy : IntegrityPolicy) (features : FeatureSnapshot) : IntegrityAssessment where
  policyVersion := policy.version
  state := policy.state features
  score := clamp (policy.score features)
  coverage := clamp (policy.coverage features)
  sampleCount := sampleCount features
  categoryCount := (policy.categoryScores features).length
  categories := (policy.categoryScores features).map fun entry => entry.1.key
  evidence := policy.evidence features

/-! ### Scores grow with the risks -/

theorem clamp_mono {x y : ℚ} (h : x ≤ y) : clamp x ≤ clamp y := max_le_max le_rfl (min_le_min le_rfl h)

theorem clamp_nonneg (x : ℚ) : 0 ≤ clamp x := le_max_left _ _

theorem clamp_le_one (x : ℚ) : clamp x ≤ 1 := max_le zero_le_one (min_le_left _ _)

theorem clamp_of_mem {x : ℚ} (h0 : 0 ≤ x) (h1 : x ≤ 1) : clamp x = x := by
  unfold clamp
  rw [min_eq_right h1, max_eq_right h0]

theorem alone_le_corroborated {n : ℕ} {alone : ℚ} {signals : List ℚ} (hn : 0 < n) (hlength : n ≤ signals.length)
    (hbounds : ∀ signal ∈ signals, 0 ≤ signal ∧ signal ≤ 1) (halone : alone * n ≤ 1 + (n - 1) * (35 / 100))
    (hstrong : 35 / 100 ≤ largest signals (n - 1)) :
    largest signals 0 * alone ≤ ((range n).map (largest signals)).sum / n := by
  obtain ⟨m, rfl⟩ := Nat.exists_eq_add_one_of_ne_zero hn.ne'
  have hfirst := hbounds _ (largest_mem (l := signals) (k := 0) (hn.trans_le hlength))
  have hrest : (m : ℚ) * (35 / 100) ≤ ((range m).map fun k => largest signals (k + 1)).sum := by
    have hall : ∀ x ∈ (range m).map fun k => largest signals (k + 1), 35 / 100 ≤ x := by
      intro x hx
      obtain ⟨k, hk, rfl⟩ := mem_map.mp hx
      exact hstrong.trans (largest_antitone (Nat.succ_le_of_lt (mem_range.mp hk)) (by omega))
    have hsum := card_nsmul_le_sum _ (35 / 100) hall
    simpa using hsum
  have hpos : (0 : ℚ) < ((m + 1 : ℕ) : ℚ) := by positivity
  rw [le_div_iff₀ hpos, range_succ_eq_map, map_cons, sum_cons, map_map]
  push_cast at halone ⊢
  have hgap : largest signals 0 * (alone * (m + 1)) ≤ largest signals 0 * (1 + m * (35 / 100)) := by
    refine mul_le_mul_of_nonneg_left (by linarith) hfirst.1
  have hpart : largest signals 0 * (m * (35 / 100)) ≤ m * (35 / 100) :=
    mul_le_of_le_one_left (by positivity) hfirst.2
  have hcomp : ((range m).map (largest signals ∘ Nat.succ)).sum =
      ((range m).map fun k => largest signals (k + 1)).sum := rfl
  rw [hcomp]
  linarith

theorem corroborated_mono {n : ℕ} {alone : ℚ} {signals signals' : List ℚ} (hn : 0 < n) (hlength : n ≤ signals.length)
    (hnonneg : 0 ≤ alone) (halone : alone * n ≤ 1 + (n - 1) * (35 / 100))
    (hbounds : ∀ signal ∈ signals', 0 ≤ signal ∧ signal ≤ 1) (h : Forall₂ (· ≤ ·) signals signals') :
    corroborated n alone signals ≤ corroborated n alone signals' := by
  have hlength' : n ≤ signals'.length := h.length_eq ▸ hlength
  have hrank : ∀ k < n, largest signals k ≤ largest signals' k := fun k hk => largest_mono h (hk.trans_le hlength)
  have hfirst : largest signals 0 * alone ≤ largest signals' 0 * alone := mul_le_mul_of_nonneg_right (hrank 0 hn) hnonneg
  unfold corroborated
  split_ifs with hstrong hstrong' hstrong'
  · refine div_le_div_of_nonneg_right (sum_le_sum fun k hk => ?_) (Nat.cast_nonneg n)
    exact hrank k (mem_range.mp hk)
  · exact absurd (hstrong.trans (hrank (n - 1) (by omega))) hstrong'
  · exact hfirst.trans (alone_le_corroborated hn hlength' hbounds halone hstrong')
  · exact hfirst

/-- Every metric that may be used has a quality between nothing and one. -/
def Validated (available : String → Option Metric) : Prop :=
  ∀ name metric, available name = some metric → 0 ≤ metric.quality ∧ metric.quality ≤ 1

namespace IntegrityCategory

variable {available available' : String → Option Metric} {category : IntegrityCategory}

theorem risk_bounds (h : Validated available) (signal : String × Bool × ℚ × ℚ) :
    0 ≤ risk available signal ∧ risk available signal ≤ 1 := by
  obtain ⟨name, high, start, full⟩ := signal
  have hscaled : ∀ x metric, available name = some metric → 0 ≤ clamp x * metric.quality ∧ clamp x * metric.quality ≤ 1 := by
    intro x metric hmetric
    obtain ⟨hnonneg, hle⟩ := h name metric hmetric
    exact ⟨mul_nonneg (clamp_nonneg x) hnonneg, mul_le_one₀ (clamp_le_one x) hnonneg hle⟩
  cases high with
  | true =>
    show 0 ≤ riskAbove (available name) start full ∧ riskAbove (available name) start full ≤ 1
    unfold riskAbove
    cases hmetric : available name with
    | none => exact ⟨le_rfl, zero_le_one⟩
    | some metric => exact hscaled _ metric hmetric
  | false =>
    show 0 ≤ riskBelow (available name) start full ∧ riskBelow (available name) start full ≤ 1
    unfold riskBelow
    cases hmetric : available name with
    | none => exact ⟨le_rfl, zero_le_one⟩
    | some metric => exact hscaled _ metric hmetric

theorem combine_mono {risks risks' : List ℚ} (hlength : risks.length = category.signals.length)
    (hbounds : ∀ risk ∈ risks', 0 ≤ risk ∧ risk ≤ 1) (h : Forall₂ (· ≤ ·) risks risks') :
    category.combine risks ≤ category.combine risks' := by
  cases category with
  | walletLoops | lowNetFlow | pricePath => exact largest_mono h (by rw [hlength]; decide)
  | concentratedDispersion | tradeStructure | rapidPriceReversion | syntheticEconomicActivity =>
    exact corroborated_mono (by norm_num) (by rw [hlength]; decide) (by norm_num) (by norm_num) hbounds h

theorem categoryScore_mono (hvalid : Validated available')
    (hrisk : ∀ signal ∈ category.signals, risk available signal ≤ risk available' signal) :
    category.categoryScore available ≤ category.categoryScore available' := by
  refine combine_mono (length_map _) ?_ ?_
  · intro x hx
    obtain ⟨signal, -, rfl⟩ := mem_map.mp hx
    exact risk_bounds hvalid signal
  · rw [forall₂_map_left_iff, forall₂_map_right_iff]
    exact forall₂_same.mpr hrisk

end IntegrityCategory

/-! ### The state and what is found -/

namespace IntegrityPolicy

variable {policy : IntegrityPolicy} {features : FeatureSnapshot} {category : IntegrityCategory}

/-- The category is found. -/
def Shows (policy : IntegrityPolicy) (features : FeatureSnapshot) (category : IntegrityCategory) : Prop :=
  55 / 100 ≤ category.categoryScore (policy.available features)

instance : Decidable (policy.Shows features category) :=
  inferInstanceAs (Decidable (55 / 100 ≤ category.categoryScore (policy.available features)))

theorem length_categoryScores (policy : IntegrityPolicy) (features : FeatureSnapshot) :
    (policy.categoryScores features).length = policy.categories.countP fun category => policy.Shows features category := by
  unfold categoryScores
  rw [filter_map, length_map, ← countP_eq_length_filter]
  rfl

theorem map_categoryScores (policy : IntegrityPolicy) (features : FeatureSnapshot) :
    (policy.categoryScores features).map Prod.snd =
      (policy.categories.filter fun category => policy.Shows features category).map fun category =>
        category.categoryScore (policy.available features) := by
  unfold categoryScores
  rw [filter_map, map_map]
  rfl

theorem le_score (h : (policy.categoryScores features).length ≠ 0) : 55 / 100 ≤ policy.score features := by
  unfold score
  simp only [length_map]
  rw [if_neg h]
  have hpos : (0 : ℚ) < (policy.categoryScores features).length := by exact_mod_cast Nat.pos_of_ne_zero h
  rw [le_div_iff₀ hpos]
  have hall : ∀ x ∈ (policy.categoryScores features).map Prod.snd, 55 / 100 ≤ x := by
    intro x hx
    obtain ⟨entry, hentry, rfl⟩ := mem_map.mp hx
    simpa using (mem_filter.mp hentry).2
  have hsum := card_nsmul_le_sum _ (55 / 100) hall
  rw [length_map, nsmul_eq_mul] at hsum
  linarith

theorem state_of_eligible (h : policy.eligible features = true) :
    policy.state features =
      if 3 ≤ (policy.categoryScores features).length ∧ 70 / 100 ≤ policy.score features then .severe
      else if 2 ≤ (policy.categoryScores features).length then .suspicious
      else if (policy.categoryScores features).length = 0 then .clean
      else .uncertain := by
  unfold state
  simp only [h, Bool.not_true, Bool.false_eq_true, if_false]
  have hscore : 2 ≤ (policy.categoryScores features).length → 55 / 100 ≤ policy.score features := fun hcount =>
    le_score (by omega)
  simp only [and_iff_left_of_imp hscore]

theorem state_of_not_eligible (h : policy.eligible features = false) : policy.state features = .uncertain := by
  unfold state
  simp [h]

theorem state_eq_clean_iff :
    policy.state features = .clean ↔ policy.eligible features = true ∧ (policy.categoryScores features).length = 0 := by
  cases heligible : policy.eligible features with
  | false => simp [state_of_not_eligible heligible]
  | true =>
    rw [state_of_eligible heligible]
    split_ifs with hsevere hsuspicious hclean
    · simp only [true_and]
      exact iff_of_false (by simp) (by omega)
    · simp only [true_and]
      exact iff_of_false (by simp) (by omega)
    · simp [hclean]
    · simp [hclean]

end IntegrityPolicy

end SignalArcade.Baseline
