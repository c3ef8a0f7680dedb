import SignalArcade.Challenger.Evidence

/-!
# The numbers of the spectator

`champion_impact.py` compares, for the dashboard, what the Champions made of an episode with what was made without them. It
has its own account of vetoes, multipliers and horizons, which agrees with the governed one, `participationValues`.
-/

namespace SignalArcade.Challenger

open Paper (Instant)
open LearningEvidenceEpisode Option

/-! ### The source -/

/-- What a checkpoint says of itself. -/
structure PointNotes where
  horizonSeconds : ℕ
  /-- There is a `missing_reason`. -/
  missing : Bool

/-- What a trial says of itself. -/
structure TrialNotes where
  multiplier : ℚ
  /-- There is an `entry_missing_reason`. -/
  missing : Bool
  checkpoints : ℕ → PointNotes

/-- An episode, with what its outcomes say of themselves. -/
structure ImpactRow extends LearningEvidenceEpisode where
  pointNotes : ℕ → PointNotes
  trialNotes : ℚ → TrialNotes

/-- Whom a comparison is about. -/
inductive Subject where
  | team
  | skill (skill : ChallengerSkill)
  deriving DecidableEq

/-- What `_values` returns. -/
structure Comparison where
  reference : Option ℚ
  supported : Option ℚ
  required : Finset ℕ
  reached : Bool

def Comparison.unavailable (required : Finset ℕ) : Comparison := ⟨none, none, required, true⟩

/-- `HORIZONS`. -/
def impactHorizons : Finset ℕ := {60, 300, 600, 900, 1200}

/-- `_multiplier`. -/
def impactMultiplier (receipt : ChallengerEvaluationReceipt) : Option ℚ :=
  if !receipt.inDistribution then some 1
  else if receipt.parameters.boundsPolicy ≠ some "sizing-authority-v1" then none
  else receipt.parameters.boundedMultiplier.finite?.filter (· ∈ [1 / 2, 1, 3 / 2, (2 : ℚ)])

namespace ImpactRow

variable (row : ImpactRow) (subject : Subject) (versions : SkillVersions) (normalHold : ℕ) (now : Instant)

def receipt (skill : ChallengerSkill) : Option ChallengerEvaluationReceipt :=
  (versions skill).bind fun version => (row.challengerEvaluations version).filter fun receipt =>
    receipt.artifactVersion = version && receipt.skill = skill && receipt.evaluatedAt = row.createdAt &&
      receipt.baselineActionable

/-- A checkpoint that is of this horizon, of its time, and has an outcome. -/
def sound (notes : PointNotes) (horizon : ℕ) (point : LearningCheckpoint) : Bool :=
  notes.horizonSeconds = horizon && row.entryAt + 1000000 * horizon ≤ point.observedAt && point.observedAt ≤ now && !notes.missing

/-- `_return`. -/
def outcome (horizon : ℕ) : Option ℚ :=
  ((row.checkpoints horizon).filter (row.sound now (row.pointNotes horizon) horizon)).bind fun point => point.netReturn

def size (multiplier : ℚ) (horizon : ℕ) : Option ℚ := do
  let trial ← row.sizeTrials multiplier
  let baseline ← row.sizeTrials 1
  let cost ← trial.entryCostLamports
  let baselineCost ← baseline.entryCostLamports
  if trial.eligibleAtEntry ∧ baseline.eligibleAtEntry ∧ cost ≠ 0 ∧ baselineCost ≠ 0 ∧
      (row.trialNotes multiplier).multiplier = multiplier ∧ (row.trialNotes 1).multiplier = 1 ∧
      (row.trialNotes multiplier).missing = false ∧ (row.trialNotes 1).missing = false then
    let point ← (trial.checkpoints horizon).filter (row.sound now ((row.trialNotes multiplier).checkpoints horizon) horizon)
    let exitValue ← point.exitValueLamports
    some (((exitValue : ℚ) - cost) / baselineCost)
  else none

/-- What a veto ends the comparison with. One of the team counts once; who is downstream did not get to change the case. -/
def vetoEnd (baseline : Option ℚ) (required : Finset ℕ) : Comparison :=
  if subject = .team then ⟨baseline, some 0, required, true⟩ else ⟨none, none, required, false⟩

/-- A round of the loop over the vetoes, if it ends the comparison. -/
def vetoRound (baseline : Option ℚ) (required : Finset ℕ) (skill : ChallengerSkill) : Option Comparison :=
  if versions skill = none then none
  else match row.receipt versions skill with
    | none => some (.unavailable required)
    | some receipt =>
      let veto : Bool := receipt.inDistribution && receipt.proposedAction = .veto
      if receipt.proposedAction ≠ .support ∧ receipt.proposedAction ≠ .veto then some (.unavailable required)
      else if subject = .skill skill then some ⟨baseline, if veto then some 0 else baseline, required, true⟩
      else if veto then some (vetoEnd subject baseline required)
      else none

/-- The end of a comparison, at the multiplier and the horizon that were chosen. -/
def sized (baseline : Option ℚ) (multiplier : ℚ) (horizon : ℕ) (required : Finset ℕ) : Comparison :=
  if (versions .sizing).isSome then
    ⟨row.size now (if subject = .skill .exit then multiplier else 1) normalHold, row.size now multiplier horizon, required, true⟩
  else ⟨baseline, row.outcome now horizon, required, true⟩

/-- What follows the vetoes. -/
def downstream (baseline : Option ℚ) (horizon : ℕ) : Comparison :=
  match if (versions .sizing).isSome then (row.receipt versions .sizing).bind impactMultiplier else some 1 with
  | none => .unavailable {horizon}
  | some multiplier =>
    if subject = .skill .sizing then ⟨row.size now 1 300, row.size now multiplier 300, {horizon}, true⟩
    else if (subject = .team ∨ subject = .skill .exit) ∧ (versions .exit).isSome then
      match row.receipt versions .exit with
      | none => .unavailable (insert horizon (impactHorizons.filter (· ≤ normalHold)))
      | some receipt =>
        match if receipt.inDistribution then receipt.proposedAction.horizon? else some normalHold with
        | none => .unavailable {horizon}
        | some chosen =>
          if chosen ∉ impactHorizons ∨ normalHold < chosen then .unavailable {horizon}
          else row.sized subject versions normalHold now baseline multiplier chosen {chosen, horizon}
    else row.sized subject versions normalHold now baseline multiplier horizon {horizon}

/-- `_values`. -/
def values : Comparison :=
  let horizon := if subject = .team ∨ subject = .skill .exit then normalHold else 300
  let baseline := row.outcome now horizon
  ((row.vetoRound subject versions baseline {horizon} .entry).or
    (row.vetoRound subject versions baseline {horizon} .manipulation)).getD
      (row.downstream subject versions normalHold now baseline horizon)

end ImpactRow

/-! ### What is compared -/

section values

variable {row : ImpactRow} {subject : Subject} {versions : SkillVersions} {normalHold horizon : ℕ} {now : Instant} {skill : ChallengerSkill}
  {receipt : ChallengerEvaluationReceipt} {baseline : Option ℚ} {required : Finset ℕ} {multiplier x y : ℚ}

theorem receipt_eq_some : row.receipt versions skill = some receipt ↔ ∃ version, versions skill = some version ∧
    row.challengerEvaluations version = some receipt ∧ receipt.artifactVersion = version ∧ receipt.skill = skill ∧
      receipt.evaluatedAt = row.createdAt ∧ receipt.baselineActionable = true := by
  simp [ImpactRow.receipt, bind_eq_some_iff, filter_eq_some_iff, and_assoc]

theorem netReturn_of_outcome (h : row.outcome now horizon = some x) : row.netReturn (some horizon) = some x := by
  obtain ⟨point, hpoint, hreturn⟩ := bind_eq_some_iff.mp h
  exact bind_eq_some_iff.mpr ⟨point, (filter_eq_some_iff.mp hpoint).1, hreturn⟩

theorem sizeTrialValue_of_size (h : row.size now multiplier horizon = some x) : row.sizeTrialValue multiplier horizon = some x := by
  simp only [ImpactRow.size, bind_eq_bind, bind_eq_some_iff] at h
  obtain ⟨trial, htrial, base, hbase, cost, hcost, baseCost, hbaseCost, h⟩ := h
  split_ifs at h with hsound
  obtain ⟨point, hpoint, h⟩ := bind_eq_some_iff.mp h
  obtain ⟨exitValue, hexit, hvalue⟩ := bind_eq_some_iff.mp h
  obtain ⟨heligible, -, -, hpaid, -⟩ := hsound
  simp only [sizeTrialValue, bind_eq_bind, htrial, hbase, bind_some, heligible, if_true,
    hcost, hbaseCost, if_neg hpaid, (filter_eq_some_iff.mp hpoint).1, hexit]
  exact hvalue

/-- A receipt with which a case goes on. -/
def ChallengerEvaluationReceipt.LetsThrough (receipt : ChallengerEvaluationReceipt) : Prop :=
  if receipt.skill = .sizing then receipt.boundedSizingMultiplier.isSome = true
  else (receipt.proposedAction = .support ∨ receipt.proposedAction = .veto) ∧ receipt.vetoApplies = false

/-- A skill lets the case through, if there is one. -/
def Passes (row : ImpactRow) (versions : SkillVersions) (skill : ChallengerSkill) : Prop :=
  (versions skill).isSome → ∃ receipt, row.receipt versions skill = some receipt ∧ receipt.LetsThrough

/-- What a skill that may veto makes of the return. -/
def vetoed (receipt : ChallengerEvaluationReceipt) (outcome : ℚ) : ℚ := if receipt.vetoApplies then 0 else outcome

theorem vetoApplies_eq (hskill : receipt.skill = .entry ∨ receipt.skill = .manipulation) :
    receipt.vetoApplies = (receipt.inDistribution && decide (receipt.proposedAction = .veto)) := by
  unfold ChallengerEvaluationReceipt.vetoApplies
  rcases hskill with hskill | hskill <;> rw [hskill] <;> simp

/-- A round that does not end the comparison is of another skill, and lets the case through. -/
theorem passes_of_vetoRound (hveto : skill = .entry ∨ skill = .manipulation)
    (h : row.vetoRound subject versions baseline required skill = none) :
    (subject = .skill skill → versions skill = none) ∧ Passes row versions skill := by
  unfold ImpactRow.vetoRound at h
  by_cases hskill : versions skill = none
  · exact ⟨fun _ => hskill, fun hsome => absurd hskill (isSome_iff_ne_none.mp hsome)⟩
  rw [if_neg hskill] at h
  cases hreceipt : row.receipt versions skill with
  | none =>
    rw [hreceipt] at h
    cases h
  | some receipt =>
    rw [hreceipt] at h
    dsimp only at h
    split_ifs at h with hproposal hsubject hvetoes
    obtain ⟨-, -, -, -, hreceiptSkill, -⟩ := receipt_eq_some.mp hreceipt
    refine ⟨fun hsame => absurd hsame hsubject, fun _ => ⟨receipt, hreceipt, ?_⟩⟩
    unfold ChallengerEvaluationReceipt.LetsThrough
    rw [if_neg (by rw [hreceiptSkill]; rcases hveto with rfl | rfl <;> decide),
      vetoApplies_eq (hreceiptSkill ▸ hveto)]
    exact ⟨by tauto, Bool.eq_false_iff.mpr hvetoes⟩

/-- A round that ends the comparison of a skill with two numbers is its own. -/
theorem vetoRound_eq_some {subject' : ChallengerSkill} {c : Comparison} (hveto : skill = .entry ∨ skill = .manipulation)
    (h : row.vetoRound (.skill subject') versions baseline required skill = some c) (hx : c.reference = some x)
    (hy : c.supported = some y) :
    subject' = skill ∧ baseline = some x ∧ ∃ receipt, row.receipt versions skill = some receipt ∧
      (receipt.proposedAction = .support ∨ receipt.proposedAction = .veto) ∧ y = vetoed receipt x := by
  unfold ImpactRow.vetoRound at h
  by_cases hskill : versions skill = none
  · rw [if_pos hskill] at h
    cases h
  rw [if_neg hskill] at h
  cases hreceipt : row.receipt versions skill with
  | none =>
    rw [hreceipt] at h
    cases h
    cases hx
  | some receipt =>
    rw [hreceipt] at h
    dsimp only at h
    obtain ⟨-, -, -, -, hreceiptSkill, -⟩ := receipt_eq_some.mp hreceipt
    by_cases hproposal : receipt.proposedAction ≠ .support ∧ receipt.proposedAction ≠ .veto
    · rw [if_pos hproposal] at h
      cases h
      cases hx
    rw [if_neg hproposal] at h
    by_cases hsubject : Subject.skill subject' = .skill skill
    · rw [if_pos hsubject] at h
      cases h
      refine ⟨Subject.skill.inj hsubject, hx, receipt, rfl, by tauto, ?_⟩
      unfold vetoed
      rw [vetoApplies_eq (hreceiptSkill ▸ hveto)]
      dsimp only at hx hy
      rw [hx] at hy
      split_ifs at hy ⊢ <;> exact (some_inj.mp hy).symm
    · rw [if_neg hsubject] at h
      split_ifs at h
      cases h
      cases hx

/-- What follows the vetoes: the sizing skill lets the case through, and the numbers are of its multiplier. -/
theorem downstream_sizing (hskill : (versions .sizing).isSome)
    (hx : (row.downstream (.skill .sizing) versions normalHold now baseline horizon).reference = some x)
    (hy : (row.downstream (.skill .sizing) versions normalHold now baseline horizon).supported = some y) :
    ∃ receipt multiplier, row.receipt versions .sizing = some receipt ∧ receipt.boundedSizingMultiplier = some multiplier ∧
      row.size now 1 300 = some x ∧ row.size now multiplier 300 = some y := by
  unfold ImpactRow.downstream at hx hy
  rw [if_pos hskill] at hx hy
  cases hchosen : (row.receipt versions .sizing).bind impactMultiplier with
  | none =>
    rw [hchosen] at hx
    cases hx
  | some multiplier =>
    rw [hchosen] at hx hy
    obtain ⟨receipt, hreceipt, hmultiplier⟩ := bind_eq_some_iff.mp hchosen
    exact ⟨receipt, multiplier, hreceipt, hmultiplier, hx, hy⟩

theorem passes_of_multiplier {multiplier : ℚ} (hreceipt : row.receipt versions .sizing = some receipt)
    (hmultiplier : receipt.boundedSizingMultiplier = some multiplier) : Passes row versions .sizing := by
  intro _
  obtain ⟨-, -, -, -, hskill, -⟩ := receipt_eq_some.mp hreceipt
  refine ⟨receipt, hreceipt, ?_⟩
  unfold ChallengerEvaluationReceipt.LetsThrough
  rw [if_pos hskill, hmultiplier]
  rfl

/-- The numbers at two horizons: of the size the sizing skill gave, or the returns where there is no such skill. -/
def Numbers (row : ImpactRow) (versions : SkillVersions) (now : Instant) (normalHold chosen : ℕ) (x y : ℚ) : Prop :=
  (versions .sizing = none ∧ row.outcome now normalHold = some x ∧ row.outcome now chosen = some y) ∨
    ∃ sizing multiplier, row.receipt versions .sizing = some sizing ∧ sizing.boundedSizingMultiplier = some multiplier ∧
      row.size now multiplier normalHold = some x ∧ row.size now multiplier chosen = some y

theorem Numbers.passes {chosen : ℕ} (h : Numbers row versions now normalHold chosen x y) : Passes row versions .sizing := by
  rcases h with ⟨hnone, -⟩ | ⟨sizing, multiplier, hsizing, hmultiplier, -⟩
  · intro hsome
    rw [hnone] at hsome
    cases hsome
  · exact passes_of_multiplier hsizing hmultiplier

/-- What follows the vetoes, for the exit skill. -/
theorem downstream_exit (hskill : (versions .exit).isSome)
    (hx : (row.downstream (.skill .exit) versions normalHold now (row.outcome now normalHold) normalHold).reference = some x)
    (hy : (row.downstream (.skill .exit) versions normalHold now (row.outcome now normalHold) normalHold).supported = some y) :
    ∃ receipt chosen, row.receipt versions .exit = some receipt ∧
      (if receipt.inDistribution then receipt.proposedAction.horizon? else some normalHold) = some chosen ∧
      Numbers row versions now normalHold chosen x y := by
  unfold ImpactRow.downstream at hx hy
  cases hmultiplier : if (versions .sizing).isSome then (row.receipt versions .sizing).bind impactMultiplier else some 1 with
  | none =>
    rw [hmultiplier] at hx
    cases hx
  | some multiplier =>
    rw [hmultiplier] at hx hy
    dsimp only at hx hy
    rw [if_neg (by decide), if_pos ⟨.inr rfl, hskill⟩] at hx hy
    cases hreceipt : row.receipt versions .exit with
    | none =>
      rw [hreceipt] at hx
      cases hx
    | some receipt =>
      rw [hreceipt] at hx hy
      dsimp only at hx hy
      cases hchosen : if receipt.inDistribution then receipt.proposedAction.horizon? else some normalHold with
      | none =>
        rw [hchosen] at hx
        cases hx
      | some chosen =>
        rw [hchosen] at hx hy
        dsimp only at hx hy
        split_ifs at hx hy with hallowed
        · cases hx
        refine ⟨receipt, chosen, rfl, hchosen, ?_⟩
        unfold ImpactRow.sized at hx hy
        cases hsizing : versions .sizing with
        | none =>
          rw [if_neg (by rw [hsizing]; decide)] at hx hy
          exact .inl ⟨hsizing, hx, hy⟩
        | some version =>
          have hsome : (versions .sizing).isSome := by rw [hsizing]; rfl
          rw [if_pos hsome] at hx hy hmultiplier
          obtain ⟨sizing, hsizing, hbounded⟩ := bind_eq_some_iff.mp hmultiplier
          exact .inr ⟨sizing, multiplier, hsizing, hbounded, by simpa using hx, hy⟩

theorem participation_veto (hreceipt : row.receipt versions skill = some receipt) (hskill : skill = .entry ∨ skill = .manipulation)
    (hproposal : receipt.proposedAction = .support ∨ receipt.proposedAction = .veto) (hreturn : row.outcome now 300 = some x) :
    row.participationValues receipt = (some (vetoed receipt x), some x) := by
  obtain ⟨-, -, -, -, rfl, hevaluated, hactionable⟩ := receipt_eq_some.mp hreceipt
  have hnet : row.netReturn (some primaryHorizonSeconds) = some x := netReturn_of_outcome hreturn
  unfold participationValues vetoed tournamentPolicyValue
  rcases hskill with hskill | hskill <;> cases hin : receipt.inDistribution <;>
    simp [hskill, hin, hevaluated, hactionable, hproposal, hnet, skillBaselineValue,
      ChallengerEvaluationReceipt.vetoApplies]

theorem participation_sizing (hreceipt : row.receipt versions .sizing = some receipt)
    (hmultiplier : receipt.boundedSizingMultiplier = some multiplier) (hreference : row.size now 1 300 = some x)
    (hsupported : row.size now multiplier 300 = some y) : row.participationValues receipt = (some y, some x) := by
  obtain ⟨-, -, -, -, hskill, hevaluated, hactionable⟩ := receipt_eq_some.mp hreceipt
  have hx : row.sizeTrialValue 1 primaryHorizonSeconds = some x := sizeTrialValue_of_size hreference
  have hy : row.sizeTrialValue multiplier primaryHorizonSeconds = some y := sizeTrialValue_of_size hsupported
  unfold participationValues
  cases hin : receipt.inDistribution with
  | false =>
    have hone : multiplier = 1 := by simpa [ChallengerEvaluationReceipt.boundedSizingMultiplier, hin, eq_comm] using hmultiplier
    rw [hone, hx] at hy
    simp [hskill, hevaluated, hactionable, hx, hy, skillBaselineValue]
  | true => simp [hskill, hevaluated, hactionable, hx, hy, hmultiplier, skillBaselineValue]

theorem participation_exit {chosen : ℕ} (hreceipt : row.receipt row.activeSkillVersions .exit = some receipt)
    (hchosen : (if receipt.inDistribution then receipt.proposedAction.horizon? else some (maxHoldSeconds row.riskMode)) = some chosen)
    (hnumbers : Numbers row row.activeSkillVersions now (maxHoldSeconds row.riskMode) chosen x y) :
    row.participationValues receipt = (some y, some x) := by
  obtain ⟨-, -, -, -, hskill, hevaluated, hactionable⟩ := receipt_eq_some.mp hreceipt
  have hexit : receipt.inDistribution = false → chosen = maxHoldSeconds row.riskMode := by
    intro hin
    simpa [hin, eq_comm] using hchosen
  unfold participationValues tournamentPolicyValue
  rcases hnumbers with ⟨hnone, hreference, hsupported⟩ | ⟨sizing, multiplier, hsizing, hmultiplier, hreference, hsupported⟩
  · have hx := netReturn_of_outcome hreference
    have hy := netReturn_of_outcome hsupported
    cases hin : receipt.inDistribution with
    | false =>
      rw [hexit hin, hx] at hy
      simp [hskill, hevaluated, hactionable, hnone, hx, hy, skillBaselineValue]
    | true =>
      rw [hin, if_pos rfl] at hchosen
      simp [hskill, hevaluated, hactionable, hnone, hx, hy, hchosen, skillBaselineValue]
  · obtain ⟨version, hversion, hfrozen, -, hsizingSkill, hsizingAt, -⟩ := receipt_eq_some.mp hsizing
    have hx := sizeTrialValue_of_size hreference
    have hy := sizeTrialValue_of_size hsupported
    cases hin : receipt.inDistribution with
    | false =>
      rw [hexit hin, hx] at hy
      simp [hskill, hevaluated, hactionable, hversion, hfrozen, hsizingSkill, hsizingAt, hmultiplier, hx, hy]
    | true =>
      rw [hin, if_pos rfl] at hchosen
      obtain ⟨n, hn, -⟩ := bind_eq_some_iff.mp hchosen
      simp [hskill, hevaluated, hactionable, hversion, hfrozen, hsizingSkill, hsizingAt, hmultiplier, hx, hy, hchosen, hn]

end values

/-- **The numbers of the spectator are the governed ones**: where a comparison of a skill, under the versions that were active
and the longest hold of the mode, has both numbers, they differ as those of its frozen receipt do; and every skill
upstream has a receipt that let the case through. -/
theorem impact_is_governed (row : ImpactRow) (skill : ChallengerSkill) (version : String) (now : Instant)
    (hversion : row.activeSkillVersions skill = some version) {x y : ℚ}
    (hx : (row.values (.skill skill) row.activeSkillVersions (maxHoldSeconds row.riskMode) now).reference = some x)
    (hy : (row.values (.skill skill) row.activeSkillVersions (maxHoldSeconds row.riskMode) now).supported = some y) :
    (∃ receipt, row.challengerEvaluations version = some receipt ∧ row.participationDelta receipt = some (y - x)) ∧
      ∀ upstream : ChallengerSkill, upstream.index < skill.index → Passes row row.activeSkillVersions upstream := by
  have hfrozen {receipt : ChallengerEvaluationReceipt} (hreceipt : row.receipt row.activeSkillVersions skill = some receipt)
      (hvalues : row.participationValues receipt = (some y, some x)) :
      ∃ receipt, row.challengerEvaluations version = some receipt ∧ row.participationDelta receipt = some (y - x) := by
    obtain ⟨version', hversion', hreceipt, -⟩ := receipt_eq_some.mp hreceipt
    obtain rfl := some_inj.mp (hversion.symm.trans hversion')
    refine ⟨receipt, hreceipt, ?_⟩
    unfold participationDelta
    rw [hvalues]
  have hsome : (row.activeSkillVersions skill).isSome := by
    rw [hversion]
    rfl
  unfold ImpactRow.values at hx hy
  dsimp only at hx hy
  set horizon := if Subject.skill skill = .team ∨ Subject.skill skill = .skill .exit then maxHoldSeconds row.riskMode else 300
    with hhorizon
  cases hentry : row.vetoRound (.skill skill) row.activeSkillVersions (row.outcome now horizon) {horizon} .entry with
  | some c =>
    rw [hentry] at hx hy
    obtain ⟨rfl, hreturn, receipt, hreceipt, hproposal, rfl⟩ := vetoRound_eq_some (.inl rfl) hentry hx hy
    exact ⟨hfrozen hreceipt (participation_veto hreceipt (.inl rfl) hproposal hreturn),
      fun upstream hlt => absurd hlt (Nat.not_lt_zero _)⟩
  | none =>
    obtain ⟨hnotEntry, hpassEntry⟩ := passes_of_vetoRound (.inl rfl) hentry
    rw [hentry, none_or] at hx hy
    cases hmanipulation : row.vetoRound (.skill skill) row.activeSkillVersions (row.outcome now horizon) {horizon} .manipulation with
    | some c =>
      rw [hmanipulation] at hx hy
      obtain ⟨rfl, hreturn, receipt, hreceipt, hproposal, rfl⟩ := vetoRound_eq_some (.inr rfl) hmanipulation hx hy
      refine ⟨hfrozen hreceipt (participation_veto hreceipt (.inr rfl) hproposal hreturn), fun upstream hlt => ?_⟩
      cases upstream <;> first | exact hpassEntry | exact absurd hlt (by decide)
    | none =>
      obtain ⟨hnotManipulation, hpassManipulation⟩ := passes_of_vetoRound (.inr rfl) hmanipulation
      rw [hmanipulation] at hx hy
      cases skill with
      | entry => exact absurd (hnotEntry rfl) (isSome_iff_ne_none.mp hsome)
      | manipulation => exact absurd (hnotManipulation rfl) (isSome_iff_ne_none.mp hsome)
      | sizing =>
        obtain ⟨receipt, multiplier, hreceipt, hmultiplier, hreference, hsupported⟩ := downstream_sizing hsome hx hy
        refine ⟨hfrozen hreceipt (participation_sizing hreceipt hmultiplier hreference hsupported), fun upstream hlt => ?_⟩
        cases upstream <;> first | exact hpassEntry | exact hpassManipulation | exact absurd hlt (by decide)
      | exit =>
        obtain ⟨receipt, chosen, hreceipt, hchosen, hnumbers⟩ := downstream_exit hsome hx hy
        refine ⟨hfrozen hreceipt (participation_exit hreceipt hchosen hnumbers), fun upstream hlt => ?_⟩
        cases upstream with
        | entry => exact hpassEntry
        | manipulation => exact hpassManipulation
        | sizing => exact hnumbers.passes
        | exit => exact absurd hlt (lt_irrefl _)

def sampleImpactRow : ImpactRow where
  episodeId := "episode"
  mint := "mint"
  createdAt := 0
  entryAt := 0
  riskMode := .balanced
  configurationFingerprint := none
  baselineVersion := "baseline"
  baselineAction := .enter
  activeSkillVersions := SkillVersions.empty.set .entry "entry"
  challengerEvaluations _ := some {
    artifactVersion := "entry", skill := .entry, evaluatedAt := 0, inDistribution := true, proposedAction := .veto
    baselineActionable := true }
  checkpoints _ := some ⟨300000000, some (-1), none, by norm_num⟩
  pointNotes horizon := ⟨horizon, false⟩
  trialNotes multiplier := ⟨multiplier, false, fun horizon => ⟨horizon, false⟩⟩

/-- A row whose sizing Champion kept the size. After a minute the order was worth half as much again. -/
def sizedImpactRow : ImpactRow :=
  let point (horizon : ℕ) : LearningCheckpoint :=
    ⟨1000000 * horizon, some 0, some (if horizon = 60 then 3 else 2), zeroReturn_bounded⟩
  { sampleImpactRow with
    activeSkillVersions := SkillVersions.empty.set .sizing "sizing"
    challengerEvaluations := fun version => some {
      artifactVersion := version, skill := if version = "sizing" then .sizing else .exit, evaluatedAt := 0
      inDistribution := version ≠ "sizing", proposedAction := .number 60, baselineActionable := true }
    sizeTrials := fun _ => some ⟨some 2, true, fun horizon => some (point horizon)⟩
    checkpoints := fun horizon => some (point horizon) }

/-- Under versions that were not active with it, a row is compared without the sizing that its receipt is valued at. -/
theorem impact_of_other_versions :
    let comparison := sizedImpactRow.values (.skill .exit) (SkillVersions.empty.set .exit "exit")
      (maxHoldSeconds sizedImpactRow.riskMode) (1000000 * maxHoldSeconds sizedImpactRow.riskMode)
    comparison.reference = some 0 ∧ comparison.supported = some 0 ∧
      (sizedImpactRow.challengerEvaluations "exit").map sizedImpactRow.participationValues =
        some (some (1 / 2), some 0) := by
  decide +kernel

/-- A veto of a case that lost everything. -/
theorem impact_is_governed_sample :
    (∃ receipt, sampleImpactRow.challengerEvaluations "entry" = some receipt ∧
      sampleImpactRow.participationDelta receipt = some (0 - -1)) ∧
      ∀ upstream : ChallengerSkill, upstream.index < ChallengerSkill.entry.index →
        Passes sampleImpactRow sampleImpactRow.activeSkillVersions upstream :=
  impact_is_governed sampleImpactRow .entry "entry" 300000000 rfl (x := -1) (y := 0) rfl rfl

end SignalArcade.Challenger
