import SignalArcade.Baseline.Evaluate

/-!
# Lost evidence

What becomes of the assessment of a market when some of its integrity metrics are lost: taken away,
marked missing, or of a lower quality.
-/

namespace SignalArcade.Baseline

open Paper (FeatureSnapshot DataValue MarketIntegrityState RiskMode RiskLimits)
open Challenger (clamp number)
open IntegrityPolicy (current)
open Selection List

/-! ### Blockers -/

def integrityBlockerNames : List String :=
  ["market_integrity_severe", "market_integrity_suspicious", "market_integrity_evidence_not_mature",
    "market_integrity_uncertain_high_risk"]

/-- Integrity is among the blockers. -/
def BaselineDecision.IntegrityBlocked (decision : BaselineDecision) : Prop :=
  ∃ blocker ∈ decision.blockers, blocker ∈ integrityBlockerNames

instance (decision : BaselineDecision) : Decidable decision.IntegrityBlocked :=
  inferInstanceAs (Decidable (∃ blocker ∈ decision.blockers, blocker ∈ integrityBlockerNames))

variable {F G features : FeatureSnapshot} {engine : DecisionEngine} {mode : RiskMode} {planned : Option ℚ}
  {limits : Option RiskLimits}

theorem le_clamp_iff {t x : ℚ} (hpos : 0 < t) (hle : t ≤ 1) : t ≤ clamp x ↔ t ≤ x := by
  unfold clamp
  rw [le_max_iff, le_min_iff]
  constructor
  · rintro (h | h)
    · exact absurd h (not_le.mpr hpos)
    · exact h.2
  · exact fun h => .inr ⟨hle, h⟩

theorem integrityIsMature_eq (features : FeatureSnapshot) :
    integrityIsMature features (assessMarketIntegrity .current features) = current.eligible features := by
  have hage : integrityMinAgeSeconds ≤ ageSeconds features ↔ integrityMinAgeSeconds ≤ number features "age_seconds" 0 := by
    unfold ageSeconds integrityMinAgeSeconds
    rw [le_max_iff]
    exact or_iff_right (by norm_num)
  have hcoverage : integrityMinCoverage ≤ clamp (current.coverage features) ↔
      integrityMinCoverage ≤ current.coverage features :=
    le_clamp_iff (by norm_num [integrityMinCoverage]) (by norm_num [integrityMinCoverage])
  unfold integrityIsMature IntegrityPolicy.eligible
  dsimp only [assessMarketIntegrity]
  rw [Bool.eq_iff_iff]
  simp only [Bool.and_eq_true, decide_eq_true_eq, hage, hcoverage, ne_eq, not_true_eq_false, decide_false,
    Bool.false_or, and_assoc]
  exact and_congr_left' decide_eq_true_iff

theorem score_of_length_eq_one {policy : IntegrityPolicy} (h : (policy.categoryScores features).length = 1) :
    policy.score features < 80 / 100 ↔
      ∀ category ∈ policy.categories, category.categoryScore (policy.available features) < 80 / 100 := by
  have hmap := IntegrityPolicy.map_categoryScores policy features
  have hlength : (policy.categories.filter fun category => policy.Shows features category).length = 1 := by
    have := congrArg List.length hmap
    rw [length_map, length_map, h] at this
    exact this.symm
  obtain ⟨found, hfound⟩ := length_eq_one_iff.mp hlength
  have hscore : policy.score features = found.categoryScore (policy.available features) := by
    unfold IntegrityPolicy.score
    simp only [hmap, hfound, map_cons, map_nil, length_singleton, sum_singleton]
    norm_num
  have hmem : found ∈ policy.categories :=
    (mem_filter.mp (hfound ▸ mem_singleton.mpr rfl : found ∈ policy.categories.filter _)).1
  rw [hscore]
  refine ⟨fun hlow category hcategory => ?_, fun hall => hall found hmem⟩
  by_cases hshows : policy.Shows features category
  · have hin : category ∈ policy.categories.filter fun category => policy.Shows features category :=
      mem_filter.mpr ⟨hcategory, by simpa using hshows⟩
    rw [hfound, mem_singleton] at hin
    exact hin ▸ hlow
  · exact (not_le.mp hshows).trans (by norm_num)

/-- When the integrity of a market is in nobody's way. -/
structure Passes (features : FeatureSnapshot) : Prop where
  eligible : current.eligible features = true
  isolated : (current.categoryScores features).length ≤ 1
  moderate : ∀ category ∈ current.categories,
    category.categoryScore (current.available features) < 80 / 100

/-- What it takes to pass. -/
theorem integrityBlockers_eq_nil_iff : integrityBlockers .current features = [] ↔ Passes features := by
  have hblockers : integrityBlockers .current features =
      (if current.state features = .severe then ["market_integrity_severe"] else []) ++
        (if current.state features = .suspicious then ["market_integrity_suspicious"] else []) ++
        if current.eligible features = false then ["market_integrity_evidence_not_mature"]
        else if current.state features = .uncertain ∧
            0 < (current.categoryScores features).length ∧
            uncertainIntegrityHoldScore ≤ clamp (current.score features) then
          ["market_integrity_uncertain_high_risk"]
        else [] := by
    unfold integrityBlockers integrity
    simp only [BaselineVersion.policy, Option.map_some, true_and, ne_eq, not_true_eq_false, if_false]
    rw [integrityIsMature_eq]
    simp only [Bool.not_eq_eq_eq_not, Bool.not_true]
    rfl
  rw [hblockers]
  cases heligible : current.eligible features with
  | false =>
    refine iff_of_false ?_ fun h => ?_
    · simp
    · rw [h.eligible] at heligible
      cases heligible
  | true =>
    have hstate := IntegrityPolicy.state_of_eligible heligible
    have hhold : uncertainIntegrityHoldScore ≤ clamp (current.score features) ↔
        80 / 100 ≤ current.score features :=
      le_clamp_iff (by norm_num [uncertainIntegrityHoldScore]) (by norm_num [uncertainIntegrityHoldScore])
    rcases Nat.lt_or_ge 1 (current.categoryScores features).length with hmany | hfew
    · -- two categories make a market suspicious or severe
      refine iff_of_false ?_ fun h => absurd h.isolated (by omega)
      rw [hstate]
      by_cases hsevere : 3 ≤ (current.categoryScores features).length ∧
          70 / 100 ≤ current.score features
      · simp [hsevere]
      · have htwo : 2 ≤ (current.categoryScores features).length := hmany
        simp [hsevere, htwo]
    · have hone : ¬ 3 ≤ (current.categoryScores features).length ∧
          ¬ 2 ≤ (current.categoryScores features).length := by omega
      rw [hstate]
      simp only [hone, false_and, if_false, hhold]
      rcases Nat.eq_zero_or_pos (current.categoryScores features).length with hnone | hpos
      · simp only [hnone, if_true]
        refine iff_of_true (by simp) ⟨heligible, hfew, fun category hcategory => ?_⟩
        rw [IntegrityPolicy.length_categoryScores, countP_eq_zero] at hnone
        have hhidden : ¬ current.Shows features category := by simpa using hnone category hcategory
        exact (not_le.mp hhidden).trans (by norm_num)
      · have hsingle : (current.categoryScores features).length = 1 := by omega
        have hmoderate := score_of_length_eq_one hsingle
        simp only [hsingle, one_ne_zero, if_false]
        by_cases hlow : current.score features < 80 / 100
        · rw [if_neg fun h : _ ∧ _ => absurd h.2.2 (not_le.mpr hlow)]
          exact iff_of_true (by simp) ⟨heligible, hfew, hmoderate.mp hlow⟩
        · rw [if_pos (⟨trivial, one_pos, not_lt.mp hlow⟩ : True ∧ 0 < 1 ∧ 80 / 100 ≤ current.score features)]
          exact iff_of_false (by simp) fun h => hlow (hmoderate.mpr h.moderate)

theorem mem_integrityBlockerNames {version : BaselineVersion} {blocker : String}
    (h : blocker ∈ integrityBlockers version features) : blocker ∈ integrityBlockerNames := by
  unfold integrityBlockers at h
  split at h
  · exact absurd h not_mem_nil
  · simp only [mem_append] at h
    rcases h with (h | h) | h
    · split_ifs at h
      · rw [mem_singleton.mp h]
        decide
      · exact absurd h not_mem_nil
    · split_ifs at h
      · rw [mem_singleton.mp h]
        decide
      · exact absurd h not_mem_nil
    · split_ifs at h
      · exact absurd h not_mem_nil
      · rw [mem_singleton.mp h]
        decide
      · rw [mem_singleton.mp h]
        decide
      · exact absurd h not_mem_nil

theorem not_mem_blocks {condition : Bool} {blocker name : String} (hblocker : blocker ∈ integrityBlockerNames)
    (hname : name ∉ integrityBlockerNames) : blocker ∉ blocks condition name := by
  unfold blocks
  split_ifs
  · rw [mem_singleton]
    rintro rfl
    exact hname hblocker
  · exact not_mem_nil

/-- Integrity blocks by a flag, or by a blocker. -/
theorem integrityBlocked_iff {version : BaselineVersion} :
    (engine.evaluate version features mode planned limits).IntegrityBlocked ↔
      (∃ flag ∈ features.hardFlags, flag ∈ integrityBlockerNames) ∨ integrityBlockers version features ≠ [] := by
  have hmem : ∀ blocker ∈ integrityBlockerNames,
      (blocker ∈ (engine.evaluate version features mode planned limits).blockers ↔
        blocker ∈ features.hardFlags ∨ blocker ∈ integrityBlockers version features) := by
    intro blocker hblocker
    unfold DecisionEngine.evaluate
    dsimp only
    rw [mem_firstPer_id]
    unfold DecisionEngine.blockers
    simp (disch := decide) only [mem_append, not_mem_blocks hblocker, or_false]
  constructor
  · rintro ⟨blocker, hin, hblocker⟩
    rcases (hmem blocker hblocker).mp hin with hflag | hown
    · exact .inl ⟨blocker, hflag, hblocker⟩
    · exact .inr (ne_nil_of_mem hown)
  · rintro (⟨flag, hflag, hblocker⟩ | hown)
    · exact ⟨flag, (hmem flag hblocker).mpr (.inl hflag), hblocker⟩
    · obtain ⟨blocker, hin⟩ := exists_mem_of_ne_nil _ hown
      have hblocker := mem_integrityBlockerNames hin
      exact ⟨blocker, (hmem blocker hblocker).mpr (.inr hin), hblocker⟩

/-! ### Losses -/

/-- What may become of a metric: it is gone, or has its value, with a lower quality or a reason why it is missing. -/
def Lost (item : Option DataValue) : Option DataValue → Prop
  | none => True
  | some item' => ∃ known, item = some known ∧ item'.value = known.value ∧
      (item'.missingReason = known.missingReason ∨ item'.missingReason ≠ none) ∧ item'.quality ≤ known.quality

/-- `G` is `F` after any loss of integrity metrics. -/
structure Degraded (F G : FeatureSnapshot) : Prop where
  metric : ∀ name ∈ current.metricNames, Lost (F.get? name) (G.get? name)
  other : ∀ name ∉ current.metricNames, G.get? name = F.get? name
  rest : { G with values := F.values } = F

/-- The qualities of a snapshot are those a `DataValue` may have. -/
def QualitiesValid (features : FeatureSnapshot) : Prop :=
  ∀ entry ∈ features.values, 0 ≤ entry.2.quality ∧ entry.2.quality ≤ 1

instance : Decidable (QualitiesValid features) :=
  inferInstanceAs (Decidable (∀ entry ∈ features.values, 0 ≤ entry.2.quality ∧ entry.2.quality ≤ 1))

theorem Lost.integrityMetric {name : String} (h : Lost (F.get? name) (G.get? name)) :
    integrityMetric G name = none ∨ ∃ metric metric', integrityMetric F name = some metric ∧
      integrityMetric G name = some metric' ∧ metric'.value = metric.value ∧ metric'.quality ≤ metric.quality := by
  unfold Baseline.integrityMetric
  cases hG : G.get? name with
  | none => exact .inl rfl
  | some item' =>
    rw [hG] at h
    obtain ⟨item, hF, hvalue, hreason, hquality⟩ := h
    rw [hF, Option.bind_some, Option.bind_some, hvalue]
    cases hnumber : item.value with
    | text | flag | missing => exact .inl rfl
    | number numeric =>
      dsimp only
      by_cases hunusable' : item'.missingReason ≠ none ∨ item'.quality < 75 / 100
      · exact .inl (if_pos hunusable')
      · obtain ⟨hpresent', hgood'⟩ := not_or.mp hunusable'
        have husable : ¬ (item.missingReason ≠ none ∨ item.quality < 75 / 100) := by
          rintro (hmissing | hbad)
          · exact hpresent' (hreason.elim (fun heq => heq ▸ hmissing) id)
          · exact hgood' (hquality.trans_lt hbad)
        rw [if_neg husable, if_neg hunusable']
        exact .inr ⟨_, _, rfl, rfl, rfl, hquality⟩

theorem integrityMetric_quality {name : String} {metric : Metric} (h : integrityMetric features name = some metric) :
    75 / 100 ≤ metric.quality ∧ ∃ item, features.get? name = some item ∧ item.quality = metric.quality := by
  obtain ⟨item, hitem, hmetric⟩ := Option.bind_eq_some_iff.mp h
  cases hvalue : item.value with
  | text | flag | missing =>
    rw [hvalue] at hmetric
    cases hmetric
  | number numeric =>
    rw [hvalue] at hmetric
    dsimp only at hmetric
    split_ifs at hmetric with hunusable
    cases hmetric
    exact ⟨not_lt.mp (not_or.mp hunusable).2, item, hitem, rfl⟩

theorem available_eq_some {policy : IntegrityPolicy} {name : String} {metric : Metric} :
    policy.available features name = some metric ↔ name ∈ policy.metricNames ∧ integrityMetric features name = some metric := by
  unfold IntegrityPolicy.available
  split_ifs with hname <;> simp [hname]

theorem QualitiesValid.available (h : QualitiesValid features) (policy : IntegrityPolicy) :
    Validated (policy.available features) := by
  intro name metric hmetric
  obtain ⟨hgood, item, hitem, hquality⟩ := integrityMetric_quality (available_eq_some.mp hmetric).2
  obtain ⟨before, after, hvalues, -⟩ := lookup_eq_some_iff.mp hitem
  have hbounds := h (name, item) (hvalues ▸ mem_append_right _ mem_cons_self)
  exact hquality ▸ hbounds

/-! ### What a loss does -/

theorem number_congr {key : String} (h : G.get? key = F.get? key) (default : ℚ) : number G key default = number F key default := by
  unfold number
  rw [h]

namespace Degraded

variable {category : IntegrityCategory}

theorem available (h : Degraded F G) (name : String) :
    current.available G name = none ∨ ∃ metric metric',
      current.available F name = some metric ∧ current.available G name = some metric' ∧
        metric'.value = metric.value ∧ metric'.quality ≤ metric.quality := by
  unfold IntegrityPolicy.available
  split_ifs with hname
  · exact (h.metric name hname).integrityMetric
  · exact .inl rfl

theorem risk_le (h : Degraded F G) (hF : QualitiesValid F) (signal : String × Bool × ℚ × ℚ) :
    IntegrityCategory.risk (current.available G) signal ≤
      IntegrityCategory.risk (current.available F) signal := by
  have hnonneg := (IntegrityCategory.risk_bounds (hF.available .current) signal).1
  obtain ⟨name, high, start, full⟩ := signal
  rcases h.available name with hgone | ⟨metric, metric', hmetric, hmetric', hvalue, hquality⟩
  · have hzero : IntegrityCategory.risk (current.available G) (name, high, start, full) = 0 := by
      cases high with
      | true => simp only [IntegrityCategory.risk, hgone, riskAbove]
      | false => simp only [IntegrityCategory.risk, hgone, riskBelow]
    rw [hzero]
    exact hnonneg
  · cases high with
    | true =>
      simp only [IntegrityCategory.risk, hmetric, hmetric', riskAbove, hvalue]
      exact mul_le_mul_of_nonneg_left hquality (clamp_nonneg _)
    | false =>
      simp only [IntegrityCategory.risk, hmetric, hmetric', riskBelow, hvalue]
      exact mul_le_mul_of_nonneg_left hquality (clamp_nonneg _)

theorem categoryScore_le (h : Degraded F G) (hF : QualitiesValid F) (category : IntegrityCategory) :
    category.categoryScore (current.available G) ≤ category.categoryScore (current.available F) :=
  IntegrityCategory.categoryScore_mono (hF.available .current) fun signal _ => h.risk_le hF signal

theorem categoryScore_eq (hintact : ∀ signal ∈ category.signals, G.get? signal.1 = F.get? signal.1) :
    category.categoryScore (current.available G) = category.categoryScore (current.available F) := by
  unfold IntegrityCategory.categoryScore
  congr 1
  apply map_congr_left
  rintro ⟨name, high, start, full⟩ hsignal
  have havailable : current.available G name = current.available F name := by
    unfold IntegrityPolicy.available integrityMetric
    rw [hintact _ hsignal]
  cases high with
  | true => simp only [IntegrityCategory.risk, havailable]
  | false => simp only [IntegrityCategory.risk, havailable]

theorem coverage_eq (policy : IntegrityPolicy) (features : FeatureSnapshot) :
    policy.coverage features =
      (policy.metricNames.map fun name => ((policy.available features name).map Metric.quality).getD 0).sum /
        policy.metricNames.length := by
  have hsum : ∀ names : List String, ((names.filterMap (policy.available features)).map Metric.quality).sum =
      (names.map fun name => ((policy.available features name).map Metric.quality).getD 0).sum := by
    intro names
    induction names with
    | nil => rfl
    | cons name names ih =>
      rw [map_cons, sum_cons, ← ih]
      cases hmetric : policy.available features name with
      | none => rw [filterMap_cons_none hmetric]; exact (zero_add _).symm
      | some metric => rw [filterMap_cons_some hmetric]; rfl
  unfold IntegrityPolicy.coverage
  rw [hsum]

theorem coverage_le (h : Degraded F G) (hF : QualitiesValid F) :
    current.coverage G ≤ current.coverage F := by
  rw [coverage_eq, coverage_eq]
  refine div_le_div_of_nonneg_right (sum_le_sum fun name _ => ?_) (Nat.cast_nonneg _)
  rcases h.available name with hgone | ⟨metric, metric', hmetric, hmetric', -, hquality⟩
  · rw [hgone]
    cases hmetric : current.available F name with
    | none => exact le_rfl
    | some metric => exact (hF.available .current name metric hmetric).1
  · rw [hmetric, hmetric']
    exact hquality

/-- What is enough with less is enough with more. -/
theorem eligible (h : Degraded F G) (hF : QualitiesValid F) (hG : current.eligible G = true) :
    current.eligible F = true := by
  have hsample : sampleCount G = sampleCount F := by
    unfold sampleCount
    rw [number_congr (h.other _ (by decide))]
  have hage : ageSeconds G = ageSeconds F := by
    unfold ageSeconds
    rw [number_congr (h.other _ (by decide))]
  have hwindow : integrityWindowComplete G = integrityWindowComplete F := by
    unfold integrityWindowComplete
    rw [h.other _ (by decide), h.other _ (by decide)]
  have hcore : currentIntegrityCoreComplete G = true → currentIntegrityCoreComplete F = true := by
    unfold currentIntegrityCoreComplete
    simp only [all_eq_true]
    intro hall name hname
    have hcurrent : name ∈ current.metricNames := mem_append_right _ hname
    rcases (h.metric name hcurrent).integrityMetric with hgone | ⟨metric, -, hmetric, -⟩
    · have hsome := hall name hname
      rw [hgone] at hsome
      cases hsome
    · rw [hmetric]
      rfl
  unfold IntegrityPolicy.eligible at hG ⊢
  simp only [hsample, hage, hwindow, ne_eq, not_true_eq_false, decide_false, Bool.false_or, Bool.and_eq_true,
    decide_eq_true_eq] at hG ⊢
  obtain ⟨⟨hmany, hcovered⟩, hcomplete, hmetrics⟩ := hG
  exact ⟨⟨hmany, hcovered.trans (h.coverage_le hF)⟩, hcomplete, hcore hmetrics⟩

end Degraded

/-- A category that is found, and of which nothing is lost. -/
structure Keeps (F G : FeatureSnapshot) (category : IntegrityCategory) : Prop where
  known : category ∈ current.categories
  shown : current.Shows F category
  intact : ∀ signal ∈ category.signals, G.get? signal.1 = F.get? signal.1

theorem Keeps.shows {category : IntegrityCategory} (h : Keeps F G category) : current.Shows G category := by
  unfold IntegrityPolicy.Shows
  rw [Degraded.categoryScore_eq h.intact]
  exact h.shown

theorem le_length_categoryScores (features : FeatureSnapshot) {found : List IntegrityCategory} (hnodup : found.Nodup)
    (h : ∀ category ∈ found, category ∈ current.categories ∧ current.Shows features category) :
    found.length ≤ (current.categoryScores features).length := by
  rw [IntegrityPolicy.length_categoryScores, countP_eq_length_filter]
  refine (hnodup.subperm fun category hcategory => ?_).length_le
  exact mem_filter.mpr ⟨(h category hcategory).1, by simpa using (h category hcategory).2⟩

/-- **Losing evidence.** Let `G` be `F` after a loss of integrity metrics, under the current policy. No category has a
higher score in `G`, and where there is not enough evidence in `F`, `G` is uncertain and blocked. Where `F` is not
clean, `G` is clean exactly when there is still enough evidence and every category is below the bound. Where the
integrity of `F` blocks an entry, that of `G` does, unless there is still enough evidence, with at most one category
left, of a moderate score. -/
theorem lost_evidence (engine : DecisionEngine) (mode : RiskMode) (planned : Option ℚ) (limits : Option RiskLimits)
    (hF : QualitiesValid F) (h : Degraded F G) :
    (∀ category : IntegrityCategory, category.categoryScore (current.available G) ≤
        category.categoryScore (current.available F)) ∧
      (current.eligible F = false →
        (assessMarketIntegrity .current G).state = .uncertain ∧
          (engine.evaluate .current G mode planned limits).IntegrityBlocked) ∧
      ((assessMarketIntegrity .current F).state ≠ .clean →
        ((assessMarketIntegrity .current G).state = .clean ↔ current.eligible G = true ∧
            ∀ category ∈ current.categories,
              category.categoryScore (current.available G) < 55 / 100) ∧
          ((∃ category, Keeps F G category) → (assessMarketIntegrity .current G).state ≠ .clean)) ∧
      ((engine.evaluate .current F mode planned limits).IntegrityBlocked →
        ((engine.evaluate .current G mode planned limits).IntegrityBlocked ∨ Passes G) ∧
          ((∃ category category', category ≠ category' ∧ Keeps F G category ∧ Keeps F G category') →
            (engine.evaluate .current G mode planned limits).IntegrityBlocked)) := by
  refine ⟨h.categoryScore_le hF, fun himmature => ?_, fun _ => ⟨?_, ?_⟩, fun _ => ⟨?_, ?_⟩⟩
  · have hG : current.eligible G = false := by
      rw [← Bool.not_eq_true]
      exact fun heligible => Bool.false_ne_true (himmature.symm.trans (h.eligible hF heligible))
    refine ⟨IntegrityPolicy.state_of_not_eligible hG, integrityBlocked_iff.mpr (.inr fun hnil => ?_)⟩
    exact Bool.false_ne_true (hG.symm.trans (integrityBlockers_eq_nil_iff.mp hnil).eligible)
  · show current.state G = .clean ↔ _
    rw [IntegrityPolicy.state_eq_clean_iff, IntegrityPolicy.length_categoryScores, countP_eq_zero]
    exact and_congr_right fun _ => forall₂_congr fun _ _ => (not_congr decide_eq_true_iff).trans not_le
  · rintro ⟨category, hkeeps⟩ hclean
    have hnone := (IntegrityPolicy.state_eq_clean_iff.mp hclean).2
    have hone := le_length_categoryScores G (nodup_singleton category) fun found hfound => by
      rw [mem_singleton.mp hfound]
      exact ⟨hkeeps.known, hkeeps.shows⟩
    rw [hnone] at hone
    exact absurd hone (by simp)
  · by_cases hnil : integrityBlockers .current G = []
    · exact .inr (integrityBlockers_eq_nil_iff.mp hnil)
    · exact .inl (integrityBlocked_iff.mpr (.inr hnil))
  · rintro ⟨category, category', hne, hkeeps, hkeeps'⟩
    refine integrityBlocked_iff.mpr (.inr fun hnil => ?_)
    have hnodup : [category, category'].Nodup := by simpa using hne
    have htwo := le_length_categoryScores G hnodup fun found hfound => by
      rcases mem_pair.mp hfound with rfl | rfl
      · exact ⟨hkeeps.known, hkeeps.shows⟩
      · exact ⟨hkeeps'.known, hkeeps'.shows⟩
    exact absurd (htwo.trans (integrityBlockers_eq_nil_iff.mp hnil).isolated) (by simp)

/-! ### A market that looks clean -/

/-- The snapshot without these metrics. -/
def without (features : FeatureSnapshot) (lost : List String) : FeatureSnapshot :=
  { features with values := features.values.filter fun entry => entry.1 ∉ lost }

theorem get?_without (features : FeatureSnapshot) (lost : List String) (name : String) :
    (without features lost).get? name = if name ∈ lost then none else features.get? name := by
  unfold without FeatureSnapshot.get?
  dsimp only
  induction features.values with
  | nil => simp
  | cons entry values ih =>
    obtain ⟨key, item⟩ := entry
    rw [filter_cons]
    by_cases hlost : key ∈ lost
    · rw [if_neg (by simpa using hlost), ih, lookup_cons]
      by_cases hname : name = key
      · subst hname
        rw [if_pos hlost, if_pos hlost]
      · rw [beq_false_of_ne hname]
    · rw [if_pos (by simpa using hlost), lookup_cons, lookup_cons, ih]
      by_cases hname : name = key
      · subst hname
        simp only [beq_self_eq_true, if_neg hlost]
      · rw [beq_false_of_ne hname]

theorem degraded_without {lost : List String} (h : lost ⊆ current.metricNames) :
    Degraded features (without features lost) where
  metric name _ := by
    rw [get?_without]
    split_ifs
    · trivial
    · cases hitem : features.get? name with
      | none => trivial
      | some item => exact ⟨item, rfl, rfl, .inl rfl, le_rfl⟩
  other name hname := by
    rw [get?_without, if_neg fun hlost => hname (h hlost)]
  rest := rfl

/-- A value of the best quality. -/
def observed (value : Paper.Scalar) : DataValue where
  value := value
  unit := ""
  asOf := 0
  sources := []
  freshnessSeconds := 0
  quality := 1
  missingReason := none

/-- A market of wallets that trade in loops, at little net flow. -/
def washMarket : FeatureSnapshot where
  mint := "mint"
  symbol := "S"
  name := "N"
  venue := "pump"
  computedAt := 0
  values := ([("trade_count_5m", .number 40), ("age_seconds", .number 60), ("integrity_window_complete", .flag true),
    ("wallet_volume_hhi", .number (1 / 10)), ("single_trade_wallet_ratio", .number (1 / 10)),
    ("round_trip_wallet_ratio", .number (7 / 10)), ("round_trip_volume_ratio", .number (1 / 10)),
    ("net_quote_flow_ratio", .number (1 / 20)), ("side_alternation_ratio", .number (1 / 10)),
    ("quantized_amount_repeat_ratio", .number (1 / 10)), ("slot_concentration_hhi", .number (1 / 10)),
    ("price_direction_consistency", .number (1 / 10)), ("multi_trade_signature_ratio", .number 0),
    ("microtrade_count_ratio", .number (1 / 10)), ("meaningful_volume_ratio", .number (9 / 10)),
    ("meaningful_wallet_ratio", .number (9 / 10)), ("median_trade_quote_sol", .number (1 / 2)),
    ("price_path_efficiency", .number (9 / 10)), ("rapid_price_reversal_ratio", .number (1 / 10)),
    ("trade_density_5m", .number (1 / 10))] : List (String × Paper.Scalar)).map fun entry => (entry.1, observed entry.2)
  dataConfidence := 1
  hardFlags := []

/-- A market of wash trades that loses a metric. -/
theorem wash_not_clean : (assessMarketIntegrity .current (without washMarket ["net_quote_flow_ratio"])).state ≠ .clean := by
  have hlost := lost_evidence {} .balanced none none (F := washMarket) (G := without washMarket ["net_quote_flow_ratio"])
    (by decide +kernel) (degraded_without (by decide))
  refine (hlost.2.2.1 (by decide +kernel)).2 ⟨.walletLoops, by decide, by decide +kernel, fun signal hsignal => ?_⟩
  rw [get?_without, if_neg]
  revert signal
  decide

/-- The market without the metrics of what it shows. -/
def blindMarket : FeatureSnapshot := without washMarket ["round_trip_wallet_ratio", "net_quote_flow_ratio"]

/-- **A market looks clean** that was suspicious, and blocked, before two of its metrics were lost. -/
theorem looks_clean :
    QualitiesValid washMarket ∧ Degraded washMarket blindMarket ∧
      (assessMarketIntegrity .current washMarket).state = .suspicious ∧
      (assessMarketIntegrity .current blindMarket).state = .clean ∧
      (DecisionEngine.evaluate .current washMarket {} .balanced none none).IntegrityBlocked ∧
      ¬ (DecisionEngine.evaluate .current blindMarket {} .balanced none none).IntegrityBlocked :=
  ⟨by decide +kernel, degraded_without (by decide), by decide +kernel, by decide +kernel, by decide +kernel, by decide +kernel⟩

end SignalArcade.Baseline
