import SignalArcade.Baseline.LostEvidence

/-!
# More evidence of manipulation

What becomes of the assessment of a market, and of the decision, when every integrity metric is at
least as risky, of the same quality.
-/

namespace SignalArcade.Baseline

open List

open Paper (FeatureSnapshot DataValue Scalar MarketIntegrityState RiskMode RiskLimits DecisionAction)
open Challenger (clamp number)
open IntegrityPolicy (current)

/-! ### Riskier snapshots -/

/-- The second value is as risky, or more. -/
def ValueRiskier (high : Bool) (value value' : Scalar) : Prop :=
  value' = value ∨ ∃ x y, value = .number x ∧ value' = .number y ∧ if high then x ≤ y else y ≤ x

/-- An item that is at least as risky. -/
structure ItemRiskier (high : Bool) (item item' : DataValue) : Prop where
  value : ValueRiskier high item.value item'.value
  quality : item'.quality = item.quality
  missingReason : item'.missingReason = item.missingReason

/-- Every integrity metric of `G` is at least as risky as in `F`, and all else is the same. -/
structure Riskier (F G : FeatureSnapshot) : Prop where
  metric : ∀ category ∈ current.categories, ∀ signal ∈ category.signals,
    Option.Rel (ItemRiskier signal.2.1) (F.get? signal.1) (G.get? signal.1)
  other : ∀ name ∉ current.metricNames, G.get? name = F.get? name
  rest : { G with values := F.values } = F

variable {F G features : FeatureSnapshot} {category : IntegrityCategory} {engine : DecisionEngine} {mode : RiskMode}
  {planned : Option ℚ} {limits : Option RiskLimits}

/-- A metric that is at least as risky: of a value on the risky side, and of the same quality. -/
def MetricRiskier (high : Bool) (metric metric' : Metric) : Prop :=
  metric'.quality = metric.quality ∧ if high then metric.value ≤ metric'.value else metric'.value ≤ metric.value

theorem integrityMetric_riskier {name : String} {high : Bool}
    (h : Option.Rel (ItemRiskier high) (F.get? name) (G.get? name)) :
    Option.Rel (MetricRiskier high) (integrityMetric F name) (integrityMetric G name) := by
  unfold integrityMetric
  generalize F.get? name = item at h ⊢
  generalize G.get? name = item' at h ⊢
  cases h with
  | none => exact .none
  | @some item item' hitem =>
    obtain ⟨hvalue, hquality, hreason⟩ := hitem
    rw [Option.bind_some, Option.bind_some, hquality, hreason]
    rcases hvalue with hsame | ⟨x, y, hx, hy, hrisk⟩
    · rw [hsame]
      cases item.value with
      | text | flag | missing => exact .none
      | number numeric =>
        dsimp only
        split_ifs
        · exact .none
        · refine .some ⟨rfl, ?_⟩
          cases high with
          | true => exact le_rfl
          | false => exact le_rfl
    · rw [hx, hy]
      dsimp only
      split_ifs
      · exact .none
      · refine .some ⟨rfl, ?_⟩
        cases high with
        | true => exact clamp_mono hrisk
        | false => exact clamp_mono hrisk

theorem riskAbove_mono {metric metric' : Option Metric} (h : Option.Rel (MetricRiskier true) metric metric')
    (hvalid : ∀ known ∈ metric, 0 ≤ known.quality) (start full : ℚ) :
    riskAbove metric start full ≤ riskAbove metric' start full := by
  cases h with
  | none => exact le_rfl
  | @some known known' hrisk =>
    obtain ⟨hquality, hvalue⟩ := hrisk
    have hscale : (0 : ℚ) ≤ max (full - start) (1 / 1000000) := le_max_of_le_right (by norm_num)
    unfold riskAbove
    dsimp only
    rw [hquality]
    refine mul_le_mul_of_nonneg_right (clamp_mono ?_) (hvalid known rfl)
    exact div_le_div_of_nonneg_right (sub_le_sub_right hvalue start) hscale

theorem riskBelow_mono {metric metric' : Option Metric} (h : Option.Rel (MetricRiskier false) metric metric')
    (hvalid : ∀ known ∈ metric, 0 ≤ known.quality) (start full : ℚ) :
    riskBelow metric start full ≤ riskBelow metric' start full := by
  cases h with
  | none => exact le_rfl
  | @some known known' hrisk =>
    obtain ⟨hquality, hvalue⟩ := hrisk
    have hscale : (0 : ℚ) ≤ max (start - full) (1 / 1000000) := le_max_of_le_right (by norm_num)
    unfold riskBelow
    dsimp only
    rw [hquality]
    refine mul_le_mul_of_nonneg_right (clamp_mono ?_) (hvalid known rfl)
    exact div_le_div_of_nonneg_right (sub_le_sub_left hvalue start) hscale

namespace Riskier

section

variable (h : Riskier F G)
include h

theorem available (hcategory : category ∈ current.categories)
    {signal : String × Bool × ℚ × ℚ} (hsignal : signal ∈ category.signals) :
    Option.Rel (MetricRiskier signal.2.1) (current.available F signal.1)
      (current.available G signal.1) := by
  unfold IntegrityPolicy.available
  split_ifs
  · exact integrityMetric_riskier (h.metric category hcategory signal hsignal)
  · exact .none

section

variable (hF : QualitiesValid F)
include hF

theorem risk_le (hcategory : category ∈ current.categories)
    {signal : String × Bool × ℚ × ℚ} (hsignal : signal ∈ category.signals) :
    IntegrityCategory.risk (current.available F) signal ≤
      IntegrityCategory.risk (current.available G) signal := by
  have havailable := h.available hcategory hsignal
  have hvalid : ∀ metric ∈ current.available F signal.1, 0 ≤ metric.quality := fun metric hmetric =>
    (hF.available .current signal.1 metric hmetric).1
  obtain ⟨name, high, start, full⟩ := signal
  cases high with
  | true => exact riskAbove_mono havailable hvalid start full
  | false => exact riskBelow_mono havailable hvalid start full

theorem categoryScore_le (hG : QualitiesValid G) (hcategory : category ∈ current.categories) :
    category.categoryScore (current.available F) ≤ category.categoryScore (current.available G) :=
  IntegrityCategory.categoryScore_mono (hG.available .current) fun _ hsignal => h.risk_le hF hcategory hsignal

theorem shows (hG : QualitiesValid G)
    (hcategory : category ∈ current.categories) (hshows : current.Shows F category) :
    current.Shows G category :=
  hshows.trans (h.categoryScore_le hF hG hcategory)

theorem length_le (hG : QualitiesValid G) :
    (current.categoryScores F).length ≤ (current.categoryScores G).length := by
  rw [IntegrityPolicy.length_categoryScores, IntegrityPolicy.length_categoryScores]
  refine countP_mono_left fun category hcategory hshows => ?_
  rw [decide_eq_true_eq] at hshows ⊢
  exact h.shows hF hG hcategory hshows

theorem score_le (hG : QualitiesValid G) (hsame : ∀ category ∈ current.categories,
      current.Shows G category → current.Shows F category) :
    current.score F ≤ current.score G := by
  have hfound : (current.categories.filter fun category => current.Shows G category) =
      current.categories.filter fun category => current.Shows F category := by
    refine filter_congr fun category hcategory => ?_
    rw [decide_eq_decide]
    exact ⟨hsame category hcategory, h.shows hF hG hcategory⟩
  unfold IntegrityPolicy.score
  rw [IntegrityPolicy.map_categoryScores, IntegrityPolicy.map_categoryScores, hfound]
  dsimp only
  rw [length_map, length_map]
  split_ifs
  · exact le_rfl
  · refine div_le_div_of_nonneg_right (sum_le_sum fun category hcategory => ?_) (Nat.cast_nonneg _)
    exact h.categoryScore_le hF hG (mem_filter.mp hcategory).1

end

theorem number_eq {key : String} (hkey : key ∉ current.metricNames) (default : ℚ) :
    number G key default = number F key default :=
  number_congr (h.other key hkey) default

theorem hhi_le : number F "wallet_volume_hhi" 1 ≤ number G "wallet_volume_hhi" 1 := by
  have hmetric := h.metric .concentratedDispersion (by decide) ("wallet_volume_hhi", true, 35 / 100, 85 / 100) mem_cons_self
  unfold number
  generalize F.get? "wallet_volume_hhi" = item at hmetric ⊢
  generalize G.get? "wallet_volume_hhi" = item' at hmetric ⊢
  cases hmetric with
  | none => exact le_rfl
  | some hitem =>
    rcases hitem.value with hsame | ⟨x, y, hx, hy, hrisk⟩
    · dsimp only
      rw [hsame]
    · dsimp only
      rw [hx, hy]
      exact hrisk

theorem baseDanger_le : baseDanger F ≤ baseDanger G := by
  unfold baseDanger
  rw [h.number_eq (by decide : "repeated_amount_ratio" ∉ _), h.number_eq (by decide : "same_slot_ratio" ∉ _),
    h.number_eq (by decide : "creator_sells_5m" ∉ _), h.number_eq (by decide : "drawdown_5m" ∉ _),
    h.number_eq (by decide : "momentum_1m" ∉ _)]
  have hhhi : clamp ((number F "wallet_volume_hhi" 1 - 8 / 100) / (42 / 100)) ≤
      clamp ((number G "wallet_volume_hhi" 1 - 8 / 100) / (42 / 100)) :=
    clamp_mono (div_le_div_of_nonneg_right (sub_le_sub_right h.hhi_le _) (by norm_num))
  refine clamp_mono ?_
  linarith

end

end Riskier

/-! ### How severe a state is -/

/-- The place of a state in the order from clean to severe. -/
def severity : MarketIntegrityState → ℕ
  | .clean => 0
  | .uncertain => 1
  | .suspicious => 2
  | .severe => 3

theorem severity_of_eligible (h : current.eligible features = true) :
    severity (current.state features) =
      if 3 ≤ (current.categoryScores features).length ∧ 70 / 100 ≤ current.score features then 3
      else min 2 (current.categoryScores features).length := by
  rw [IntegrityPolicy.state_of_eligible h]
  split_ifs with hsevere hmany hnone
  · rfl
  · exact (min_eq_left hmany).symm
  · rw [hnone]
    rfl
  · dsimp only [severity]
    omega

theorem manipulated_iff (h : current.eligible features = true) :
    manipulated (current.state features) = true ↔ 2 ≤ (current.categoryScores features).length := by
  rw [IntegrityPolicy.state_of_eligible h]
  split_ifs with hsevere hmany hnone
  · exact iff_of_true rfl (by omega)
  · exact iff_of_true rfl hmany
  · exact iff_of_false (by decide) hmany
  · exact iff_of_false (by decide) hmany

/-- When the state is no less severe. -/
theorem severity_le_iff (hF : current.eligible F = true) (hG : current.eligible G = true)
    (hlength : (current.categoryScores F).length ≤ (current.categoryScores G).length) :
    severity (current.state F) ≤ severity (current.state G) ↔
      ¬ (current.state F = .severe ∧ current.score G < 70 / 100) := by
  have hsevere : current.state F = .severe ↔
      3 ≤ (current.categoryScores F).length ∧ 70 / 100 ≤ current.score F := by
    rw [IntegrityPolicy.state_of_eligible hF]
    split_ifs with hcase <;> simp [hcase]
  rw [hsevere, severity_of_eligible hF, severity_of_eligible hG, ← not_le]
  by_cases hcase : 3 ≤ (current.categoryScores F).length ∧ 70 / 100 ≤ current.score F
  · rw [if_pos hcase]
    have hthree : 3 ≤ (current.categoryScores G).length := hcase.1.trans hlength
    by_cases hhigh : 70 / 100 ≤ current.score G
    · rw [if_pos ⟨hthree, hhigh⟩]
      exact iff_of_true le_rfl fun hlow => hlow.2 hhigh
    · rw [if_neg fun hboth : _ ∧ _ => hhigh hboth.2]
      exact iff_of_false (by omega) fun hnot => hnot ⟨hcase, hhigh⟩
  · rw [if_neg hcase]
    refine iff_of_true ?_ fun hboth => hcase hboth.1
    split_ifs <;> omega

/-! ### The danger and the action -/

theorem danger_eq (features : FeatureSnapshot) :
    danger .current features =
      if manipulated (current.state features) then
        clamp (baseDanger features + 22 / 100 * clamp (current.score features))
      else baseDanger features := rfl

theorem baseDanger_le_danger (features : FeatureSnapshot) : baseDanger features ≤ danger .current features := by
  rw [danger_eq]
  split_ifs
  · have hclamp : clamp (baseDanger features) = baseDanger features := clamp_of_mem (clamp_nonneg _) (clamp_le_one _)
    calc
      baseDanger features = clamp (baseDanger features) := hclamp.symm
      _ ≤ clamp (baseDanger features + 22 / 100 * clamp (current.score features)) := by
        refine clamp_mono (le_add_of_nonneg_right ?_)
        exact mul_nonneg (by norm_num) (clamp_nonneg _)
  · exact le_rfl

namespace Riskier

theorem danger_le (h : Riskier F G) (hF : QualitiesValid F) (hG : QualitiesValid G)
    (heligible : current.eligible F = true) (heligible' : current.eligible G = true)
    (hmean : manipulated (current.state F) = true →
      clamp (current.score F) ≤ clamp (current.score G)) :
    danger .current F ≤ danger .current G := by
  by_cases hmanipulated : manipulated (current.state F) = true
  · have hmanipulated' : manipulated (current.state G) = true := by
      rw [manipulated_iff heligible']
      exact ((manipulated_iff heligible).mp hmanipulated).trans (h.length_le hF hG)
    rw [danger_eq, danger_eq, if_pos hmanipulated, if_pos hmanipulated']
    exact clamp_mono (add_le_add h.baseDanger_le (mul_le_mul_of_nonneg_left (hmean hmanipulated) (by norm_num)))
  · rw [danger_eq, if_neg hmanipulated]
    exact h.baseDanger_le.trans (baseDanger_le_danger G)

theorem usableFraction_le (h : Riskier F G) (name : String) {start full : ℚ}
    (hcategory : category ∈ current.categories) (hsignal : (name, false, start, full) ∈ category.signals) :
    (usableFraction G name).getD 0 ≤ (usableFraction F name).getD 0 := by
  have hmetric := integrityMetric_riskier (h.metric category hcategory _ hsignal)
  unfold usableFraction
  generalize integrityMetric F name = metric at hmetric ⊢
  generalize integrityMetric G name = metric' at hmetric ⊢
  cases hmetric with
  | none => exact le_rfl
  | some hrisk => exact hrisk.2

theorem activityCredit_le (h : Riskier F G) : activityCredit G ≤ activityCredit F := by
  have hknown : IntegrityCategory.syntheticEconomicActivity ∈ current.categories := by decide
  have hvolume := h.usableFraction_le "meaningful_volume_ratio" hknown (mem_cons_of_mem _ mem_cons_self)
  have hwallets := h.usableFraction_le "meaningful_wallet_ratio" hknown
    (mem_cons_of_mem _ (mem_cons_of_mem _ mem_cons_self))
  unfold activityCredit
  have hcredit := clamp_mono (div_le_div_of_nonneg_right (min_le_min hvolume hwallets) (by norm_num : (0 : ℚ) ≤ 60 / 100))
  linarith

theorem opportunity_le (h : Riskier F G) : opportunity .current G ≤ opportunity .current F := by
  have hvelocity : (opportunitySignals .current G).velocity ≤ (opportunitySignals .current F).velocity := by
    show clamp (number G "trade_count_1m" 0 / 30) * activityCredit G ≤ clamp (number F "trade_count_1m" 0 / 30) * activityCredit F
    rw [h.number_eq (by decide)]
    exact mul_le_mul_of_nonneg_left h.activityCredit_le (clamp_nonneg _)
  have hparticipation : (opportunitySignals .current G).participation ≤ (opportunitySignals .current F).participation := by
    show clamp (number G "unique_wallets_5m" 0 / 24) * activityCredit G ≤ clamp (number F "unique_wallets_5m" 0 / 24) * activityCredit F
    rw [h.number_eq (by decide)]
    exact mul_le_mul_of_nonneg_left h.activityCredit_le (clamp_nonneg _)
  have hbalance : (opportunitySignals .current G).balance = (opportunitySignals .current F).balance := by
    dsimp only [opportunitySignals]
    rw [h.number_eq (by decide)]
  have hprogress : (opportunitySignals .current G).progress = (opportunitySignals .current F).progress := by
    dsimp only [opportunitySignals]
    rw [h.number_eq (by decide)]
  have hmomentum : (opportunitySignals .current G).momentum = (opportunitySignals .current F).momentum := by
    dsimp only [opportunitySignals]
    rw [h.number_eq (by decide)]
  unfold opportunity
  dsimp only
  rw [hbalance, hprogress, hmomentum]
  refine clamp_mono ?_
  linarith

theorem netEdge_le (h : Riskier F G) (engine : DecisionEngine) (orderSize : ℚ)
    (hdanger : danger .current F ≤ danger .current G) :
    engine.netEdge .current G orderSize ≤ engine.netEdge .current F orderSize := by
  have himpact : impact G orderSize = impact F orderSize := by
    unfold impact
    rw [h.number_eq (by decide)]
  have hcost : engine.roundTripCost G orderSize = engine.roundTripCost F orderSize := by
    unfold DecisionEngine.roundTripCost
    rw [h.number_eq (by decide)]
  have hopportunity := h.opportunity_le
  unfold DecisionEngine.netEdge
  rw [himpact, hcost]
  linarith

end Riskier

/-! ### Entries -/

theorem blocks_eq_nil {condition : Bool} {blocker : String} : blocks condition blocker = [] ↔ condition = false := by
  unfold blocks
  cases condition <;> simp

theorem actionOf_eq_enter {learning : Bool} {blockers : List String} :
    actionOf learning blockers = .enter ↔ learning = false ∧ blockers = [] := by
  unfold actionOf
  cases blockers with
  | nil => cases learning <;> simp
  | cons blocker blockers =>
    refine iff_of_false ?_ fun h => cons_ne_nil _ _ h.2
    split_ifs <;> simp_all

theorem blockers_eq_nil {limits : RiskLimits} {orderSize : ℚ} :
    engine.blockers .current features limits orderSize = [] ↔
      features.hardFlags = [] ∧ Passes features ∧ 15 ≤ number features "age_seconds" 0 ∧
        8 ≤ number features "trade_count_5m" 0 ∧ 5 ≤ number features "unique_wallets_5m" 0 ∧
        limits.minConfidence ≤ features.dataConfidence ∧ danger .current features ≤ limits.maxDanger ∧
        impact features orderSize ≤ limits.maxPriceImpact ∧
        limits.minNetEdgeIndex ≤ engine.netEdge .current features orderSize := by
  unfold DecisionEngine.blockers
  simp only [append_eq_nil_iff, blocks_eq_nil, integrityBlockers_eq_nil_iff, decide_eq_false_iff_not, not_lt, and_assoc]

namespace Riskier

theorem passes (h : Riskier F G) (hF : QualitiesValid F) (hG : QualitiesValid G)
    (heligible : current.eligible F = true) (hpasses : Passes G) : Passes F where
  eligible := heligible
  isolated := (h.length_le hF hG).trans hpasses.isolated
  moderate category hcategory := (h.categoryScore_le hF hG hcategory).trans_lt (hpasses.moderate category hcategory)

/-- Where the riskier market is entered, so is the other. -/
theorem enters (h : Riskier F G) (hF : QualitiesValid F) (hG : QualitiesValid G)
    (heligible : current.eligible F = true)
    (henter : (engine.evaluate .current G mode planned limits).action = .enter) :
    (engine.evaluate .current F mode planned limits).action = .enter := by
  have hlearning : stillLearning F = stillLearning G := by
    unfold stillLearning
    rw [h.number_eq (by decide), h.number_eq (by decide), h.number_eq (by decide)]
  have hflags : G.hardFlags = F.hardFlags := by
    have hrest := congrArg FeatureSnapshot.hardFlags h.rest
    exact hrest
  have hconfidence : G.dataConfidence = F.dataConfidence := by
    have hrest := congrArg FeatureSnapshot.dataConfidence h.rest
    exact hrest
  have himpact : ∀ orderSize, impact G orderSize = impact F orderSize := fun orderSize => by
    unfold impact
    rw [h.number_eq (by decide)]
  obtain ⟨hlearned, hnone⟩ := actionOf_eq_enter.mp henter
  obtain ⟨hclear, hpasses, hage, htrades, hwallets, hsure, hsafe, hcheap, hworth⟩ := blockers_eq_nil.mp hnone
  have hpasses' : Passes F := h.passes hF hG heligible hpasses
  -- an isolated pattern adds nothing to the danger
  have hdanger : danger .current F ≤ danger .current G := by
    refine h.danger_le hF hG heligible hpasses.eligible fun hmanipulated => ?_
    exact absurd ((manipulated_iff heligible).mp hmanipulated) (by have := hpasses'.isolated; omega)
  refine actionOf_eq_enter.mpr ⟨hlearning.trans hlearned, blockers_eq_nil.mpr ⟨hflags ▸ hclear, hpasses', ?_⟩⟩
  rw [h.number_eq (by decide)] at hage htrades hwallets
  refine ⟨hage, htrades, hwallets, hconfidence ▸ hsure, hdanger.trans hsafe, himpact _ ▸ hcheap, ?_⟩
  exact hworth.trans (h.netEdge_le engine _ hdanger)

end Riskier

/-- **A riskier market.** Let every integrity metric of `G` be at least as risky as in `F`, both with enough evidence.
No fewer categories are found in `G`, none with a lower score. The state is at least as severe unless a severe market
comes to a mean below 0.70, and the danger is at least as high unless the mean of a manipulated one falls, which takes a
category that is found in `G` only. An action other than an entry does not become one. -/
theorem riskier_market (engine : DecisionEngine) (mode : RiskMode) (planned : Option ℚ) (limits : Option RiskLimits)
    (hF : QualitiesValid F) (hG : QualitiesValid G) (h : Riskier F G)
    (heligible : current.eligible F = true) (heligible' : current.eligible G = true) :
    let assessed := assessMarketIntegrity .current F
    let assessed' := assessMarketIntegrity .current G
    let decision := engine.evaluate .current F mode planned limits
    let decision' := engine.evaluate .current G mode planned limits
    ((∀ category ∈ current.categories, category.categoryScore (current.available F) ≤
          category.categoryScore (current.available G)) ∧
        assessed.categoryCount ≤ assessed'.categoryCount) ∧
      (assessed'.score < assessed.score → ∃ category ∈ current.categories,
        current.Shows G category ∧ ¬ current.Shows F category) ∧
      (severity assessed.state ≤ severity assessed'.state ↔ ¬ (assessed.state = .severe ∧ assessed'.score < 70 / 100)) ∧
      (manipulated assessed.state = true → manipulated assessed'.state = true) ∧
      ((manipulated assessed.state = true → assessed.score ≤ assessed'.score) →
        decision.score.danger ≤ decision'.score.danger) ∧
      (decision.action ≠ .enter → decision'.action ≠ .enter) := by
  dsimp only [assessMarketIntegrity]
  refine ⟨⟨fun _ hcategory => h.categoryScore_le hF hG hcategory, h.length_le hF hG⟩, fun hfalls => ?_, ?_, fun hfound => ?_,
    h.danger_le hF hG heligible heligible', fun hother henter => hother (h.enters hF hG heligible henter)⟩
  · by_contra hnew
    refine absurd hfalls (not_lt.mpr (clamp_mono (h.score_le hF hG fun category hcategory hshows => ?_)))
    by_contra hhidden
    exact hnew ⟨category, hcategory, hshows, hhidden⟩
  · have hlow : clamp (current.score G) < 70 / 100 ↔ current.score G < 70 / 100 :=
      lt_iff_lt_of_le_iff_le (le_clamp_iff (by norm_num) (by norm_num))
    rw [hlow]
    exact severity_le_iff heligible heligible' (h.length_le hF hG)
  · rw [manipulated_iff heligible']
    exact ((manipulated_iff heligible).mp hfound).trans (h.length_le hF hG)

/-! ### A market that looks less severe -/

/-- A market with these metrics, all of the best quality. -/
def market (metrics : String → ℚ) : FeatureSnapshot :=
  { washMarket with
    values := [("trade_count_5m", observed (.number 40)), ("age_seconds", observed (.number 60)),
        ("integrity_window_complete", observed (.flag true))] ++
      current.metricNames.map fun name => (name, observed (.number (metrics name))) }

theorem lookup_map (names : List String) (f : String → DataValue) (name : String) :
    (names.map fun name => (name, f name)).lookup name = if name ∈ names then some (f name) else none := by
  induction names with
  | nil => simp
  | cons known names ih =>
    rw [map_cons, lookup_cons, ih]
    by_cases hname : name = known
    · subst hname
      simp
    · rw [beq_false_of_ne hname]
      simp [hname]

theorem get?_market (metrics : String → ℚ) (name : String) :
    (market metrics).get? name =
      (([("trade_count_5m", observed (.number 40)), ("age_seconds", observed (.number 60)),
        ("integrity_window_complete", observed (.flag true))] : List (String × DataValue)).lookup name).or
        (if name ∈ current.metricNames then some (observed (.number (metrics name))) else none) := by
  unfold market FeatureSnapshot.get?
  rw [lookup_append, lookup_map]

theorem riskier_market_of {metrics metrics' : String → ℚ}
    (h : ∀ category ∈ current.categories, ∀ signal ∈ category.signals,
      if signal.2.1 then metrics signal.1 ≤ metrics' signal.1 else metrics' signal.1 ≤ metrics signal.1) :
    Riskier (market metrics) (market metrics') where
  metric category hcategory signal hsignal := by
    have hname : ∀ category ∈ current.categories, ∀ signal ∈ category.signals,
        signal.1 ∈ current.metricNames ∧
          ([("trade_count_5m", observed (.number 40)), ("age_seconds", observed (.number 60)),
            ("integrity_window_complete", observed (.flag true))] : List (String × DataValue)).lookup signal.1 = none := by
      decide
    obtain ⟨hmetric, hnone⟩ := hname category hcategory signal hsignal
    rw [get?_market, get?_market, if_pos hmetric, if_pos hmetric, hnone]
    exact .some ⟨.inr ⟨_, _, rfl, rfl, h category hcategory signal hsignal⟩, rfl, rfl⟩
  other name hname := by
    rw [get?_market, get?_market, if_neg hname, if_neg hname]
  rest := rfl

/-- The metrics of a market that shows nothing. -/
def calmMetric : String → ℚ
  | "net_quote_flow_ratio" | "meaningful_volume_ratio" | "meaningful_wallet_ratio" | "median_trade_quote_sol"
  | "price_path_efficiency" => 9 / 10
  | _ => 1 / 10

/-- The metrics of a market of loops, at little net flow, on a price path of one direction. -/
def severeMetric : String → ℚ
  | "round_trip_wallet_ratio" => 588 / 1000
  | "net_quote_flow_ratio" => 1216 / 10000
  | "price_direction_consistency" => 9408 / 10000
  | name => calmMetric name

/-- The same, with a price that also reverses. -/
def dilutedMetric : String → ℚ
  | "price_path_efficiency" => 179 / 1000
  | "rapid_price_reversal_ratio" => 615 / 1000
  | name => severeMetric name

theorem severe_riskier_diluted : Riskier (market severeMetric) (market dilutedMetric) :=
  riskier_market_of (by decide +kernel)

/-- A severe market is not entered when it is diluted. -/
theorem diluted_not_entered : (DecisionEngine.evaluate .current (market dilutedMetric) {} .balanced none none).action ≠ .enter :=
  (riskier_market {} .balanced none none (by decide +kernel) (by decide +kernel) severe_riskier_diluted (by decide +kernel)
    (by decide +kernel)).2.2.2.2.2 (by decide +kernel)

/-- **A market looks less severe**, and less dangerous, once a fourth category is found. -/
theorem diluted :
    QualitiesValid (market severeMetric) ∧ QualitiesValid (market dilutedMetric) ∧
      Riskier (market severeMetric) (market dilutedMetric) ∧
      current.eligible (market severeMetric) = true ∧
      current.eligible (market dilutedMetric) = true ∧
      (assessMarketIntegrity .current (market severeMetric)).state = .severe ∧
      (assessMarketIntegrity .current (market dilutedMetric)).state = .suspicious ∧
      (DecisionEngine.evaluate .current (market dilutedMetric) {} .balanced none none).score.danger <
        (DecisionEngine.evaluate .current (market severeMetric) {} .balanced none none).score.danger :=
  ⟨by decide +kernel, by decide +kernel, severe_riskier_diluted, by decide +kernel, by decide +kernel, by decide +kernel,
    by decide +kernel, by decide +kernel⟩

end SignalArcade.Baseline
