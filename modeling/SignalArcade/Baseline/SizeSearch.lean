import SignalArcade.Baseline.Severity
import SignalArcade.Lib.Bisection
import SignalArcade.Paper.SizePlanning

/-!
# The size of an entry

`_evaluate_baseline_with_size` of the orchestrator: the size that is planned for a market is given up for a smaller one
where its cost alone stands in the way. Neither impact nor edge orders the sizes: a small order pays more for the network.
Sizes are exact rationals; the source halves and adds floats.
-/

namespace SignalArcade.Baseline

open Paper (Env Arithmetic Broker World FeatureSnapshot Instant RiskMode SizingAssessment ScoredDecision)
open Paper (planEntrySize sizingPolicyVersion riskLimits entryStrategyReceiptBlocker)
open Bisection Selection

variable (arith : Arithmetic) (env : Env) (engine : DecisionEngine) (version : BaselineVersion) (mode : RiskMode)
variable (features : FeatureSnapshot) (sizing : SizingAssessment) (referenceSizeSol : ℚ)

/-- A decision with its sizing. -/
structure SizedDecision extends BaselineDecision where
  sizingAssessment : Option SizingAssessment

/-- A decision as the broker reads it; the identity is drawn. -/
def SizedDecision.scored (decision : SizedDecision) (decisionId : String) (createdAt : Instant) : ScoredDecision :=
  { decision with
    decisionId, createdAt
    mint := features.mint
    symbol := features.symbol
    modelVersion := [decision.modelVersion.text]
    plannedOrderSizeSol := decision.plannedOrderSizeSol
    challengerSizing := none
    score := { decision.score with }
    featureSnapshot := features }

/-- `evaluate`. -/
def evaluateSize (sizeSol : ℚ) : BaselineDecision :=
  engine.evaluate version features mode (some sizeSol) (some (riskLimits env (some mode)))

def sizeSensitive : List String := ["estimated_price_impact_above_limit", "heuristic_net_edge_below_minimum"]

/-- What stands in the way of the candidate alone. -/
def newBlockers (reference candidate : BaselineDecision) : List String :=
  candidate.blockers.filter (· ∉ reference.blockers)

variable (evaluate : ℚ → BaselineDecision)

/-- The size that is selected and its decision, of the size that is planned. -/
def searchSize (planned : ℚ) : Search ℚ BaselineDecision :=
  let reference := evaluate referenceSizeSol
  let candidate := evaluate planned
  if referenceSizeSol < planned ∧ reference.action = .enter ∧ candidate.action ≠ .enter ∧
      newBlockers reference candidate ≠ [] ∧ newBlockers reference candidate ⊆ sizeSensitive then
    (step evaluate fun decision => decision.action = .enter)^[6] ⟨referenceSizeSol, planned, reference⟩
  else ⟨planned, planned, candidate⟩

/-- The decision of the search, with its size. -/
def sized : SizedDecision :=
  let search := searchSize referenceSizeSol evaluate sizing.selectedSizeSol
  let constraints := sizing.constraints ++
    blocks (search.low < sizing.selectedSizeSol ∧ "cost_aware_edge_cap" ∉ sizing.constraints) "cost_aware_edge_cap"
  let fraction := sizing.accountAllocationFraction * search.low / max sizing.selectedSizeSol (1 / 1000000)
  { search.candidate with
    plannedOrderSizeSol := search.low
    sizingAssessment := some
      { sizing with
        selectedSizeSol := search.low
        accountAllocationFraction := max 0 (min 1 fraction)
        constraints } }

def evaluateBaselineWithSize (policy decisionId : String) (createdAt : Instant) (price : Option ℚ) : Broker SizedDecision :=
  let evaluate := evaluateSize env engine version mode features
  let reference : SizedDecision := ⟨evaluate referenceSizeSol, none⟩
  if policy ≠ sizingPolicyVersion then return reference
  else do
    let sizing ← planEntrySize arith env (reference.scored features decisionId createdAt) price
    return sized sizing referenceSizeSol evaluate

/-! ### Only the cost depends on the size -/

variable {arith env engine version mode features sizing referenceSizeSol evaluate} {planned : ℚ} {decisionId : String}
  {createdAt : Instant} {price : Option ℚ} {w w' : World}

/-- Where the reference enters, nothing but its cost stands in the way of another size. -/
def CostAlone (evaluate : ℚ → BaselineDecision) (referenceSizeSol planned : ℚ) : Prop :=
  (evaluate referenceSizeSol).action = .enter → (evaluate planned).action ≠ .enter →
    newBlockers (evaluate referenceSizeSol) (evaluate planned) ≠ [] ∧
      newBlockers (evaluate referenceSizeSol) (evaluate planned) ⊆ sizeSensitive

theorem costAlone_evaluateSize : CostAlone (evaluateSize env engine version mode features) referenceSizeSol planned := by
  intro henter hrefused
  obtain ⟨hlearning, hnone⟩ := actionOf_eq_enter.mp henter
  have hsome := mt (fun h => actionOf_eq_enter.mpr ⟨hlearning, h⟩) hrefused
  have hempty : (evaluateSize env engine version mode features referenceSizeSol).blockers = [] :=
    congrArg (firstPer id) hnone
  unfold newBlockers
  rw [List.filter_eq_self.mpr (by simp [hempty])]
  obtain ⟨blocker, hblocker⟩ := List.exists_mem_of_ne_nil _ hsome
  refine ⟨List.ne_nil_of_mem (mem_firstPer_id.mpr hblocker), fun blocker hmem => ?_⟩
  replace hmem := mem_firstPer_id.mp hmem
  unfold DecisionEngine.blockers at hnone hmem
  simp only [List.append_eq_nil_iff] at hnone
  -- what the two sizes share blocks neither
  simp only [hnone, List.nil_append] at hmem
  simp only [blocks, sizeSensitive] at hmem ⊢
  split_ifs at hmem <;> simp_all

/-! ### The decision is true of its size -/

/-- What a decision says of its size, where another was planned. -/
structure TrueToSize (referenceSizeSol : ℚ) (evaluate : ℚ → BaselineDecision) (planned : ℚ) (decision : SizedDecision) :
    Prop where
  evaluated : decision.toBaselineDecision =
    { evaluate decision.plannedOrderSizeSol with plannedOrderSizeSol := decision.plannedOrderSizeSol }
  assessed : decision.sizingAssessment.map (·.selectedSizeSol) = some decision.plannedOrderSizeSol
  least : min planned referenceSizeSol ≤ decision.plannedOrderSizeSol
  most : decision.plannedOrderSizeSol ≤ planned
  enters : (evaluate referenceSizeSol).action = .enter → referenceSizeSol ≤ planned → decision.action = .enter
  /-- No more is given up than a part of the way to a size that is refused. -/
  trimmed : decision.plannedOrderSizeSol < planned → ∃ refused ≤ planned, (evaluate refused).action ≠ .enter ∧
    refused - decision.plannedOrderSizeSol = (planned - referenceSizeSol) / 2 ^ 6

theorem sized_trueToSize (halone : CostAlone evaluate referenceSizeSol sizing.selectedSizeSol) :
    TrueToSize referenceSizeSol evaluate sizing.selectedSizeSol (sized sizing referenceSizeSol evaluate) := by
  unfold sized searchSize
  dsimp only
  split_ifs with hsearch
  · obtain ⟨hlt, henter, hrefused, -⟩ := hsearch
    have hbetween : Between evaluate (fun decision => decision.action = .enter) _ _ 6 _ :=
      between_iterate hlt henter hrefused 6
    exact ⟨by rw [hbetween.candidate], rfl, (min_le_right _ _).trans hbetween.low_le,
      (hbetween.lt hlt).le.trans hbetween.le_high, fun _ _ => hbetween.accepted,
      fun _ => ⟨_, hbetween.le_high, hbetween.refused, hbetween.width⟩⟩
  · refine ⟨rfl, rfl, min_le_left _ _, le_rfl, fun henter hle => ?_, fun hlt => absurd hlt (lt_irrefl _)⟩
    by_contra hrefused
    have hne : referenceSizeSol ≠ sizing.selectedSizeSol := fun h => hrefused (h ▸ henter)
    exact hsearch ⟨hle.lt_of_ne hne, henter, hrefused, halone henter hrefused⟩

theorem planEntrySize_policyVersion {decision : ScoredDecision}
    (hplan : planEntrySize arith env decision price w = .ok sizing w') : sizing.policyVersion = sizingPolicyVersion := by
  simp only [planEntrySize, bind, EStateM.bind] at hplan
  repeat' split at hplan
  all_goals first | cases hplan; rfl | cases hplan

theorem receipts_accepted {decision : SizedDecision} (hversion : decision.modelVersion = version)
    (hintegrity : decision.integrityAssessment = integrity version features)
    (hsizing : decision.sizingAssessment = some sizing) (hpolicy : sizing.policyVersion = sizingPolicyVersion)
    (hsize : sizing.selectedSizeSol = decision.plannedOrderSizeSol) :
    entryStrategyReceiptBlocker (decision.scored features decisionId createdAt).toDecision = none := by
  unfold entryStrategyReceiptBlocker SizedDecision.scored Paper.Decision.baselineVersion
  simp only [hversion, hintegrity, hsizing, List.headD_cons]
  cases version
  case legacy => rfl
  all_goals
    simp [Paper.legacyBaselineVersion, Paper.learnableBaseline, BaselineVersion.text, integrity, BaselineVersion.policy,
      Paper.integrityPolicyForBaseline, assessMarketIntegrity, IntegrityPolicy.version, Paper.supportedSize, hpolicy, hsize]

/-- **A decision is true of its size**, whatever the search makes of the size that is planned, and the broker's check of
its receipts accepts it; where the plan fails, so does the evaluation. -/
theorem entry_trueToSize (referenceSizeSol : ℚ) (decisionId : String) (createdAt : Instant) (price : Option ℚ) (w : World) :
    let evaluate := evaluateSize env engine version mode features
    let reference : SizedDecision := ⟨evaluate referenceSizeSol, none⟩
    let evaluation := evaluateBaselineWithSize arith env engine version mode features referenceSizeSol sizingPolicyVersion
      decisionId createdAt price
    Prog.Wp (planEntrySize arith env (reference.scored features decisionId createdAt) price)
      (fun sizing w' => ∃ decision, evaluation w = .ok decision w' ∧
        TrueToSize referenceSizeSol evaluate sizing.selectedSizeSol decision ∧
        entryStrategyReceiptBlocker (decision.scored features decisionId createdAt).toDecision = none)
      (fun error w' => evaluation w = .error error w') w := by
  intro evaluate reference evaluation
  unfold Prog.Wp
  cases hplan : planEntrySize arith env (reference.scored features decisionId createdAt) price w with
  | ok sizing w' =>
    have htrue : TrueToSize referenceSizeSol evaluate sizing.selectedSizeSol (sized sizing referenceSizeSol evaluate) :=
      sized_trueToSize costAlone_evaluateSize
    have hpolicy := planEntrySize_policyVersion hplan
    refine ⟨_, ?_, htrue, receipts_accepted (congrArg BaselineDecision.modelVersion htrue.evaluated)
      (congrArg BaselineDecision.integrityAssessment htrue.evaluated) rfl hpolicy rfl⟩
    simp only [reference, evaluate] at hplan
    simp [evaluation, evaluateBaselineWithSize, bind, EStateM.bind, hplan, pure, EStateM.pure, evaluate]
  | error error w' =>
    simp only [reference, evaluate] at hplan
    simp [evaluation, evaluateBaselineWithSize, bind, EStateM.bind, hplan]

end SignalArcade.Baseline
