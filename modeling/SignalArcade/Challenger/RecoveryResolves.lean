import SignalArcade.Challenger.Recovery

/-!
# A recovery trial resolves

An evaluation begins with a validation of the rows, and refuses a trial with a `delta` outside
of −11 and 11. Between two checkpoint returns there is no more than 11, so what it writes for
most skills passes. The returns of size trials are not bounded: they are fractions of what the
trial at the size of the Baseline cost. `WithinReach` is what they have to keep to, in floats.
-/

namespace SignalArcade.Challenger

open Option

open Paper (Instant RiskMode)
open Binary64 (rounded double?)
open LearningEngine (floatDelta)

/-! ### What is compared -/

namespace LearningEvidenceEpisode

variable (episode : LearningEvidenceEpisode) (receipt : ChallengerEvaluationReceipt)

/-- The size trials whose returns a receipt compares, if it compares such: each its multiplier and its horizon. A Champion
that names no size, or no horizon, has none. -/
def comparedTrials : Option (Option (ℚ × ℕ) × Option (ℚ × ℕ)) :=
  if !receipt.baselineActionable || receipt.evaluatedAt ≠ episode.createdAt then none
  else match receipt.skill with
    | .sizing =>
      some (receipt.boundedSizingMultiplier.map fun selected => (selected, primaryHorizonSeconds),
        some (1, primaryHorizonSeconds))
    | .exit => do
      let sizingVersion ← episode.activeSkillVersions .sizing
      let sizing ← episode.challengerEvaluations sizingVersion
      if sizing.skill ≠ .sizing ∨ sizing.evaluatedAt ≠ episode.createdAt then none
      else
        let multiplier ← sizing.boundedSizingMultiplier
        let baseline := some (multiplier, maxHoldSeconds episode.riskMode)
        if !receipt.inDistribution then some (baseline, baseline)
        else
          let _ ← receipt.proposedAction.int?
          some (receipt.proposedAction.horizon?.map fun horizon => (multiplier, horizon), baseline)
    | _ => none

/-- What a trial gained, as a fraction of what the one of the Baseline's size cost. -/
def trialReturn (trial : Option (ℚ × ℕ)) : Option ℚ := trial.bind fun trial => episode.sizeTrialValue trial.1 trial.2

/-- The returns compared are not too large for floats, and as floats no further than 11 apart. -/
structure Near (x y : Option ℚ) : Prop where
  finite : ∀ r, r ∈ x ∨ r ∈ y → |rounded r| < 2 ^ 1024
  near : ∀ r ∈ x, ∀ r' ∈ y, |rounded (rounded r - rounded r')| ≤ 11

/-- The trials a receipt compares have returns that are near. -/
def WithinReach : Prop :=
  ∀ trials ∈ episode.comparedTrials receipt, Near (episode.trialReturn trials.1) (episode.trialReturn trials.2)

variable {episode receipt}

theorem netReturn_bounded {horizon : Option ℕ} {r : ℚ} (h : episode.netReturn horizon = some r) : -1 ≤ r ∧ r ≤ 10 := by
  obtain ⟨checkpoint, -, hr⟩ := bind_eq_some_iff.mp h
  exact checkpoint.bounded r hr

theorem tournamentPolicyValue_bounded {r : ℚ} (hsizing : receipt.skill ≠ .sizing)
    (h : episode.tournamentPolicyValue receipt = some r) : -1 ≤ r ∧ r ≤ 10 := by
  unfold tournamentPolicyValue at h
  split at h
  · next hskill => exact absurd hskill hsizing
  · exact netReturn_bounded h
  · obtain ⟨outcome, houtcome, h⟩ := bind_eq_some_iff.mp h
    split_ifs at h
    · cases h
      norm_num
    · cases h
      exact netReturn_bounded houtcome

theorem skillBaselineValue_bounded {skill : ChallengerSkill} {r : ℚ} (hsizing : skill ≠ .sizing)
    (h : episode.skillBaselineValue skill = some r) : -1 ≤ r ∧ r ≤ 10 := by
  cases skill with
  | sizing => exact absurd rfl hsizing
  | entry => exact netReturn_bounded h
  | manipulation => exact netReturn_bounded h
  | exit => exact netReturn_bounded h

/-- **A receipt compares size trials, or returns within the bounds of checkpoints.** -/
theorem participationValues_cases (episode : LearningEvidenceEpisode) (receipt : ChallengerEvaluationReceipt) :
    (∃ trials, episode.comparedTrials receipt = some trials ∧
        episode.participationValues receipt = (episode.trialReturn trials.1, episode.trialReturn trials.2)) ∨
      (episode.comparedTrials receipt = none ∧ ∀ r, r ∈ (episode.participationValues receipt).1 ∨
        r ∈ (episode.participationValues receipt).2 → -1 ≤ r ∧ r ≤ 10) := by
  have hnone : ∀ r, r ∈ (none : Option ℚ) ∨ r ∈ (none : Option ℚ) → -1 ≤ r ∧ r ≤ 10 := by simp
  have hreturns (hsizing : receipt.skill ≠ .sizing) (r : ℚ) (hr : r ∈ episode.tournamentPolicyValue receipt ∨
      r ∈ episode.skillBaselineValue receipt.skill) : -1 ≤ r ∧ r ≤ 10 :=
    hr.elim (tournamentPolicyValue_bounded hsizing) (skillBaselineValue_bounded hsizing)
  unfold comparedTrials participationValues
  by_cases hoff : (!receipt.baselineActionable || decide (receipt.evaluatedAt ≠ episode.createdAt)) = true
  · rw [if_pos hoff, if_pos hoff]
    exact .inr ⟨rfl, hnone⟩
  rw [if_neg hoff, if_neg hoff]
  cases hskill : receipt.skill with
  | entry =>
    rw [hskill] at hreturns
    refine .inr ⟨rfl, fun r hr => hreturns (by decide) r ?_⟩
    cases hin : receipt.inDistribution <;> simp [hin] at hr ⊢ <;> tauto
  | manipulation =>
    rw [hskill] at hreturns
    refine .inr ⟨rfl, fun r hr => hreturns (by decide) r ?_⟩
    cases hin : receipt.inDistribution <;> simp [hin] at hr ⊢ <;> tauto
  | sizing =>
    refine .inl ⟨_, rfl, ?_⟩
    cases hin : receipt.inDistribution with
    | false => simp [trialReturn, skillBaselineValue, ChallengerEvaluationReceipt.boundedSizingMultiplier, hin]
    | true => cases hbounded : receipt.boundedSizingMultiplier <;> simp [trialReturn, skillBaselineValue]
  | exit =>
    rw [hskill] at hreturns
    cases hversion : episode.activeSkillVersions .sizing with
    | none =>
      refine .inr ⟨rfl, fun r hr => hreturns (by decide) r ?_⟩
      cases hin : receipt.inDistribution <;> simp [hin] at hr ⊢ <;> tauto
    | some version =>
      cases hsizing : episode.challengerEvaluations version with
      | none => exact .inr ⟨by simp [hsizing], by simp [hsizing]⟩
      | some sizing =>
        by_cases hother : sizing.skill ≠ .sizing ∨ sizing.evaluatedAt ≠ episode.createdAt
        · exact .inr ⟨by simp [hsizing, hother], by simp [hsizing, hother]⟩
        cases hbounded : sizing.boundedSizingMultiplier with
        | none => exact .inr ⟨by simp [hsizing, hbounded], by simp [hsizing, hother, hbounded]⟩
        | some multiplier =>
          cases hin : receipt.inDistribution with
          | false =>
            refine .inl ⟨(some (multiplier, maxHoldSeconds episode.riskMode), some (multiplier, maxHoldSeconds episode.riskMode)),
              ?_, ?_⟩ <;>
              simp [trialReturn, hsizing, hother, hbounded]
          | true =>
            cases hint : receipt.proposedAction.int? with
            | none => exact .inr ⟨by simp, by simp [hsizing, hother, hbounded]⟩
            | some n =>
              refine .inl ⟨(receipt.proposedAction.horizon?.map fun horizon => (multiplier, horizon),
                some (multiplier, maxHoldSeconds episode.riskMode)), ?_, ?_⟩
              · simp [hsizing, hother, hbounded]
              · cases receipt.proposedAction.horizon? <;> simp [trialReturn, hsizing, hother, hbounded]

theorem rounded_bounded {r : ℚ} {m n : ℤ} (hlow : m ≤ r) (hhigh : r ≤ n) (hm : -11 ≤ m) (hn : n ≤ 11) :
    m ≤ rounded r ∧ rounded r ≤ n := by
  have hm' : (-11 : ℚ) ≤ m := by exact_mod_cast hm
  have hn' : (n : ℚ) ≤ 11 := by exact_mod_cast hn
  have hsmall : |r| < 2 ^ 53 := (abs_le.mpr ⟨hm'.trans hlow, hhigh.trans hn'⟩).trans_lt (by norm_num)
  exact ⟨Binary64.le_rounded hsmall hlow, Binary64.rounded_le hsmall hhigh⟩

/-- **What the comparison of two returns comes to passes the validation exactly when they are near.** -/
theorem floatDelta_accepted_iff (x y : Option ℚ) :
    (∃ delta, floatDelta (x, y) = some delta ∧ ∀ d ∈ delta, -11 ≤ d ∧ d ≤ 11) ↔ Near x y := by
  have hdouble (v : Option ℚ) (delta : Option ℚ) : v.mapM double? = some delta ↔
      (∀ r ∈ v, |rounded r| < 2 ^ 1024) ∧ v.map rounded = delta := by
    cases v with
    | none => simp
    | some r => simp [double?]
  constructor
  · rintro ⟨delta, hdelta, haccepted⟩
    simp only [floatDelta, bind_eq_bind, bind_eq_some_iff, hdouble] at hdelta
    obtain ⟨_, ⟨hx, rfl⟩, _, ⟨hy, rfl⟩, hdelta⟩ := hdelta
    refine ⟨fun r hr => hr.elim (hx r) (hy r), ?_⟩
    rintro r rfl r' rfl
    cases hdelta
    exact abs_le.mpr (haccepted _ rfl)
  · rintro ⟨hfinite, hnear⟩
    refine ⟨(x.map rounded).bind fun r => (y.map rounded).map fun r' => rounded (r - r'), ?_, ?_⟩
    · simp only [floatDelta, bind_eq_bind, bind_eq_some_iff, hdouble]
      exact ⟨_, ⟨fun r hr => hfinite r (.inl hr), rfl⟩, _, ⟨fun r hr => hfinite r (.inr hr), rfl⟩, rfl⟩
    · intro d hd
      cases x <;> cases y <;> cases hd
      exact abs_le.mp (hnear _ rfl _ rfl)

/-- The gains 59 and 26 of trials whose Baseline cost 3 lie eleven of its costs apart, as floats a little more. -/
example : ¬Near (some (59 / 3)) (some (26 / 3)) := by
  rintro ⟨-, hnear⟩
  exact absurd (hnear _ rfl _ rfl) (by decide +kernel)

theorem near_of_bounded {x y : Option ℚ} (h : ∀ r, r ∈ x ∨ r ∈ y → -1 ≤ r ∧ r ≤ 10) : Near x y := by
  have hrounded (r : ℚ) (hr : r ∈ x ∨ r ∈ y) : ((-1 : ℤ) : ℚ) ≤ rounded r ∧ rounded r ≤ (10 : ℤ) :=
    rounded_bounded (by exact_mod_cast (h r hr).1) (by exact_mod_cast (h r hr).2) (by decide) (by decide)
  constructor
  · intro r hr
    obtain ⟨hlow, hhigh⟩ := hrounded r hr
    have hlarge : (10 : ℚ) < 2 ^ 1024 := lt_of_lt_of_le (by norm_num) (pow_le_pow_right₀ one_le_two (show 4 ≤ 1024 by decide))
    push_cast at hlow hhigh
    exact (abs_le.mpr ⟨by linarith, hhigh⟩).trans_lt hlarge
  · intro r hr r' hr'
    obtain ⟨hlow, hhigh⟩ := hrounded r (.inl hr)
    obtain ⟨hlow', hhigh'⟩ := hrounded r' (.inr hr')
    push_cast at hlow hhigh hlow' hhigh'
    have hdelta := rounded_bounded (m := -11) (n := 11) (r := rounded r - rounded r')
      (by push_cast; linarith) (by push_cast; linarith) le_rfl le_rfl
    exact abs_le.mpr (by exact_mod_cast hdelta)

/-- **What a receipt comes to passes the validation exactly when its trials are within reach.** -/
theorem participation_accepted_iff :
    (∃ delta, floatDelta (episode.participationValues receipt) = some delta ∧ ∀ d ∈ delta, -11 ≤ d ∧ d ≤ 11) ↔
      episode.WithinReach receipt := by
  unfold WithinReach
  rcases participationValues_cases episode receipt with ⟨trials, hcompared, hvalues⟩ | ⟨hcompared, hbounded⟩
  · rw [hvalues, floatDelta_accepted_iff]
    simp [hcompared]
  · refine iff_of_true ((floatDelta_accepted_iff _ _).mpr (near_of_bounded hbounded)) ?_
    simp [hcompared]

end LearningEvidenceEpisode

/-! ### The trial -/

namespace LearningEngine

/-- A trial as enrolment leaves it: of the Champion that is suspended, open, in the composition in
which it began, complete, with rows of different episodes that were created after the suspension.
All deadlines have passed. -/
structure CompleteTrial (engine : LearningEngine) (now : Instant) (artifact : ChallengerSkillArtifact)
    (state : ChallengerSkillState) (recovery : Recovery) : Prop where
  champion : engine.recoveringChampion state = some artifact
  trial : state.activationProof.recovery = some recovery
  opened : recoveryOpen state recovery = true
  collecting : recovery.status = .collecting
  composition : engine.compositionHolds state recovery = true
  length : recovery.rows.length = activeHealthWindow
  ids : (recovery.rows.map RecoveryRow.id).Nodup
  times : ∀ row ∈ recovery.rows,
    max artifact.createdAt (state.suspendedAt.getD artifact.createdAt) < row.createdAt ∧ row.createdAt < row.deadline
  past : ∀ row ∈ recovery.rows, row.deadline < now

/-- An evaluation closes the trial, with rows that the next evaluation accepts. -/
def Resolves (engine : LearningEngine) (now : Instant) (artifact : ChallengerSkillArtifact)
    (state : ChallengerSkillState) : Prop :=
  ∃ recovery, (engine.skillRecoveryProof now state).state.activationProof.recovery = some recovery ∧
    (recovery.status = .passed ∨ recovery.status = .failed) ∧
    ∀ row ∈ recovery.rows, rowAccepted (max artifact.createdAt (state.suspendedAt.getD artifact.createdAt)) row = true

/-- What is kept of a row that was filled in is within the bounds; of one that is still to be
filled in, the episode is the one that was enrolled, and its trials are within reach. -/
def RowWithinReach (engine : LearningEngine) (artifact : ChallengerSkillArtifact) (skill : ChallengerSkill)
    (row : RecoveryRow) : Prop :=
  match row.delta with
  | some (some delta) => -11 ≤ delta ∧ delta ≤ 11
  | some none => True
  | none =>
    ∀ episode ∈ engine.evidenceEpisodes.get? row.id, engine.episodeDiffers artifact row episode = false ∧
      ∀ receipt ∈ recoveryReceipt artifact skill episode, recoveryResolved artifact skill episode = true →
        episode.WithinReach receipt

variable {engine : LearningEngine} {now since : Instant} {artifact : ChallengerSkillArtifact}
  {state : ChallengerSkillState} {recovery : Recovery} {skill : ChallengerSkill} {row : RecoveryRow}

theorem rowAccepted_iff (hcreated : since < row.createdAt) (hdeadline : row.createdAt < row.deadline) :
    rowAccepted since row = true ↔ ∀ d, row.delta = some (some d) → -11 ≤ d ∧ d ≤ 11 := by
  simp only [rowAccepted, hcreated, hdeadline, decide_true, Bool.true_and]
  cases row.delta with
  | none => simp
  | some delta =>
    cases delta with
    | none => simp
    | some d => simp

/-- A row within reach, by what it is filled with. -/
theorem rowWithinReach_iff (hpast : row.deadline < now) :
    RowWithinReach engine artifact skill row ↔
      ∃ row', engine.fillRow artifact skill now row = some row' ∧ ∀ d, row'.delta = some (some d) → -11 ≤ d ∧ d ≤ 11 := by
  unfold RowWithinReach
  cases hdelta : row.delta with
  | some delta =>
    rw [fillRow_of_observed (by simp [hdelta])]
    cases delta with
    | none => simp [hdelta]
    | some d => simp [hdelta]
  | none =>
    rw [fillRow_of_past (by simp [hdelta]) hpast]
    cases hepisode : engine.evidenceEpisodes.get? row.id with
    | none => simp [recoveryDelta]
    | some episode =>
      cases hdiffers : engine.episodeDiffers artifact row episode with
      | true => simp [hdiffers]
      | false =>
        have hdeltas (delta : Option (Option ℚ)) :
            (∃ row', (delta.map fun delta => { row with delta := some delta }) = some row' ∧
              ∀ d, row'.delta = some (some d) → -11 ≤ d ∧ d ≤ 11) ↔
            ∃ delta', delta = some delta' ∧ ∀ d ∈ delta', -11 ≤ d ∧ d ≤ 11 := by
          cases delta <;> simp
        simp only [mem_some_iff, forall_eq', any_some, hdiffers, Bool.false_eq_true, if_false, true_and, hdeltas,
          recoveryDelta]
        cases hreceipt : recoveryReceipt artifact skill episode with
        | none => simp [hreceipt]
        | some receipt =>
          cases hresolved : recoveryResolved artifact skill episode with
          | false => simp [hreceipt, hresolved]
          | true => simpa [hreceipt, hresolved] using LearningEvidenceEpisode.participation_accepted_iff.symm

theorem fillRow_delta_isSome {row' : RecoveryRow} (hpast : row.deadline < now)
    (h : engine.fillRow artifact skill now row = some row') : row'.delta.isSome := by
  cases hdelta : row.delta.isSome with
  | true =>
    rw [fillRow_of_observed hdelta] at h
    cases h
    exact hdelta
  | false =>
    rw [fillRow_of_past hdelta hpast] at h
    split_ifs at h
    obtain ⟨delta, -, rfl⟩ := map_eq_some_iff.mp h
    rfl

theorem rowsAccepted_iff (h : CompleteTrial engine now artifact state recovery) :
    rowsAccepted artifact state recovery.rows = true ↔
      ∀ row ∈ recovery.rows, ∀ d, row.delta = some (some d) → -11 ≤ d ∧ d ≤ 11 := by
  have hne : recovery.rows ≠ [] := by
    intro hnil
    have hlength := h.length
    rw [hnil] at hlength
    cases hlength
  simp only [rowsAccepted, hne, h.length, h.ids, ne_eq, not_false_eq_true, decide_true, le_refl, Bool.true_and,
    List.all_eq_true]
  exact forall₂_congr fun row hrow => rowAccepted_iff (h.times row hrow).1 (h.times row hrow).2

theorem skillRecoveryProof_of_complete (h : CompleteTrial engine now artifact state recovery) :
    engine.skillRecoveryProof now state =
      if !rowsAccepted artifact state recovery.rows then ⟨none, state, false⟩
      else
        let filled := engine.fillRows artifact state.skill now recovery.rows
        if !filled.2 then ⟨none, withRecovery state { recovery with rows := filled.1 }, false⟩
        else
          let proof := engine.recoveryProof artifact state recovery filled.1
          let closed := closeRecovery recovery filled.1 proof
          ⟨some proof, withRecovery state closed, closed ≠ recovery⟩ := by
  simp only [skillRecoveryProof, h.champion, h.trial, h.opened, h.composition, Bool.not_true, Bool.false_eq_true, if_false]

theorem closeRecovery_status (engine : LearningEngine) (artifact : ChallengerSkillArtifact)
    (state : ChallengerSkillState) (recovery : Recovery) {rows : List RecoveryRow}
    (hlength : rows.length = activeHealthWindow) (hfilled : ∀ row ∈ rows, row.delta.isSome) :
    (closeRecovery recovery rows (engine.recoveryProof artifact state recovery rows)).status = .passed ∨
      (closeRecovery recovery rows (engine.recoveryProof artifact state recovery rows)).status = .failed := by
  have hcomplete : (engine.recoveryProof artifact state recovery rows).evidence.observedCount = activeHealthWindow := by
    show (rows.filter fun row => row.delta.isSome).length = activeHealthWindow
    rw [List.filter_eq_self.mpr hfilled, hlength]
  simp only [closeRecovery, hcomplete, decide_true, if_true]
  split
  · exact .inl rfl
  · exact .inr rfl

/-- **A complete trial is closed by an evaluation after its deadlines, with rows the next one
accepts, exactly when every row is within reach.** -/
theorem recovery_trial_resolves_iff (h : CompleteTrial engine now artifact state recovery) :
    Resolves engine now artifact state ↔ ∀ row ∈ recovery.rows, RowWithinReach engine artifact state.skill row := by
  constructor
  · rintro ⟨recovery', hrecovery', hstatus, haccepted⟩ row hrow
    rw [skillRecoveryProof_of_complete h] at hrecovery'
    have hopen : recovery'.status ≠ .collecting := by
      rcases hstatus with hstatus | hstatus <;> rw [hstatus] <;> decide
    by_cases hvalid : rowsAccepted artifact state recovery.rows = true
    case neg =>
      rw [Bool.not_eq_true] at hvalid
      simp only [hvalid, Bool.not_false, if_true, h.trial, some_inj] at hrecovery'
      exact absurd (hrecovery' ▸ h.collecting) hopen
    by_cases hfilled : (engine.fillRows artifact state.skill now recovery.rows).2 = true
    case neg =>
      rw [Bool.not_eq_true] at hfilled
      simp only [hvalid, hfilled, Bool.not_true, Bool.not_false, Bool.false_eq_true, if_false, if_true, withRecovery,
        some_inj] at hrecovery'
      exact absurd (hrecovery' ▸ h.collecting) hopen
    simp only [hvalid, hfilled, Bool.not_true, Bool.false_eq_true, if_false, withRecovery, some_inj] at hrecovery'
    rw [rowWithinReach_iff (h.past row hrow)]
    obtain ⟨row', hrow', hfill⟩ := exists_right_of_forall₂ (fillRows_complete hfilled) hrow
    have hsame := fillRow_filled hfill
    have hmem : row' ∈ recovery'.rows := by
      rw [← hrecovery']
      exact hrow'
    refine ⟨row', hfill, (rowAccepted_iff ?_ ?_).mp (haccepted row' hmem)⟩
    · rw [hsame.createdAt]
      exact (h.times row hrow).1
    · rw [hsame.createdAt, hsame.deadline]
      exact (h.times row hrow).2
  · intro hreach
    have hfill := fun row hrow => (rowWithinReach_iff (h.past row hrow)).mp (hreach row hrow)
    have hvalid : rowsAccepted artifact state recovery.rows = true := by
      rw [rowsAccepted_iff h]
      intro row hrow d hd
      obtain ⟨row', hrow', hbounds⟩ := hfill row hrow
      rw [fillRow_of_observed (by simp [hd])] at hrow'
      cases hrow'
      exact hbounds d hd
    have hfilled : (engine.fillRows artifact state.skill now recovery.rows).2 = true := by
      refine fillRows_of_forall fun row hrow => ?_
      obtain ⟨row', hrow', -⟩ := hfill row hrow
      simp [hrow']
    have hrows := fillRows_complete hfilled
    have hlength : (engine.fillRows artifact state.skill now recovery.rows).1.length = activeHealthWindow := by
      rw [← hrows.length_eq, h.length]
    have hsome : ∀ row' ∈ (engine.fillRows artifact state.skill now recovery.rows).1, row'.delta.isSome := by
      intro row' hrow'
      obtain ⟨row, hrow, hfillRow⟩ := exists_left_of_forall₂ hrows hrow'
      exact fillRow_delta_isSome (h.past row hrow) hfillRow
    refine ⟨_, ?_, closeRecovery_status engine artifact state recovery hlength hsome, ?_⟩
    · rw [skillRecoveryProof_of_complete h]
      simp only [hvalid, hfilled, Bool.not_true, Bool.false_eq_true, if_false, withRecovery]
    · intro row' hrow'
      obtain ⟨row, hrow, hfillRow⟩ := exists_left_of_forall₂ hrows hrow'
      obtain ⟨row'', hrow'', hbounds⟩ := hfill row hrow
      rw [hfillRow] at hrow''
      cases hrow''
      have hsame := fillRow_filled hfillRow
      refine (rowAccepted_iff ?_ ?_).mpr hbounds
      · rw [hsame.createdAt]
        exact (h.times row hrow).1
      · rw [hsame.createdAt, hsame.deadline]
        exact (h.times row hrow).2

/-! ### A trial that does not -/

/-- A Champion of the sizing skill. -/
def doublingArtifact : ChallengerSkillArtifact where
  version := "doubling"
  skill := .sizing
  createdAt := 0
  riskMode := .balanced
  configurationFingerprint := "configuration"
  baselineVersion := "baseline-v1.5"
  featureSchemaVersion := featureSchemaVersion
  qualified := true

/-- An order that doubled the size was worth `exitValue` in the end; one of the Baseline's size
would have been worth what it cost. -/
def doubledEpisode (exitValue : ℕ) : LearningEvidenceEpisode where
  episodeId := "e0"
  mint := "mint"
  createdAt := 1
  entryAt := 1
  qualificationEligible := true
  seasonId := some "season"
  riskMode := .balanced
  configurationFingerprint := some "configuration"
  baselineVersion := "baseline-v1.5"
  baselineAction := .enter
  baselineActionable := true
  challengerEvaluations version :=
    if version = "doubling" then
      some
        { artifactVersion := "doubling"
          skill := .sizing
          evaluatedAt := 1
          inDistribution := true
          proposedAction := .number 2
          baselineActionable := true
          parameters := { boundsPolicy := some "sizing-authority-v1", boundedMultiplier := .float 2 } }
    else none
  sizeTrials multiplier :=
    if multiplier = 2 then
      some ⟨some 2, true, fun _ => some { observedAt := 2, netReturn := none, exitValueLamports := some exitValue, bounded := noReturn_bounded }⟩
    else if multiplier = 1 then
      some ⟨some 1, true, fun _ => some { observedAt := 2, netReturn := some 0, exitValueLamports := some 1, bounded := zeroReturn_bounded }⟩
    else none
  checkpoints _ := some { observedAt := 2, netReturn := some 0, exitValueLamports := some 1, bounded := zeroReturn_bounded }

/-- Its trial: the episode, and others that were pruned since. -/
def doublingTrial : Recovery where
  coverage := {}
  policy := recoveryPolicy
  artifactVersion := "doubling"
  suspendedAt := some 0
  reason := some .degraded
  dependencies := .empty
  dependencyEpochs := fun _ => none
  startedAt := 1
  status := .collecting
  rows := (List.range activeHealthWindow).map fun n => { id := "e" ++ toString n, createdAt := 1, deadline := 3 }

/-- The state of the suspended Champion. -/
def doublingState : ChallengerSkillState where
  cohortKey := ⟨.balanced, "configuration", "baseline-v1.5", featureSchemaVersion⟩
  skill := .sizing
  championVersion := some "doubling"
  suspendedVersion := some "doubling"
  suspensionReason := some .degraded
  suspendedAt := some 0
  activationProof := { recovery := some doublingTrial }

def doublingEngine (exitValue : ℕ) : LearningEngine where
  runtime := ⟨fun _ => none, fun _ => "", fun _ => 0⟩
  coveragePolicy := {}
  currentRiskMode := .balanced
  configurationFingerprint := some "configuration"
  baselineVersion := "baseline-v1.5"
  mode := .active
  consentGranted := true
  autoParticipation := true
  skillArtifacts := Table.ofRows [doublingArtifact]
  skillStates := Table.ofRows [doublingState]
  activeSkillVersions := .empty
  evidenceEpisodes := Table.ofRows [doubledEpisode exitValue]
  policyIdentities key := if key = (doubledEpisode exitValue).policyIdentityKey then some (some 1, "e0") else none

/-- The state after an evaluation. -/
def doublingStateAt (exitValue : ℕ) (now : Instant) : ChallengerSkillState :=
  ((doublingEngine exitValue).skillRecoveryProof now doublingState).state

theorem doubling_complete {exitValue : ℕ}
    (hchampion : (doublingEngine exitValue).recoveringChampion doublingState = some doublingArtifact)
    (hcomposition : (doublingEngine exitValue).compositionHolds doublingState doublingTrial = true) :
    CompleteTrial (doublingEngine exitValue) 4 doublingArtifact doublingState doublingTrial where
  champion := hchampion
  trial := rfl
  opened := by decide +kernel
  collecting := rfl
  composition := hcomposition
  length := by decide +kernel
  ids := by decide +kernel
  times := by decide +kernel
  past := by decide +kernel

/-- An exit worth two hundred times the order of the Baseline is written to the row, and refused by
every evaluation after it: the trial stays open for good. -/
theorem doubling_trial_wedged :
    CompleteTrial (doublingEngine 200) 4 doublingArtifact doublingState doublingTrial ∧
      ¬ Resolves (doublingEngine 200) 4 doublingArtifact doublingState ∧
      ((doublingStateAt 200 2).activationProof.recovery.map fun recovery => (recovery.rows.take 2).map fun row => row.delta) =
        some [some (some 198), none] ∧
      (((doublingEngine 200).skillRecoveryProof 4 (doublingStateAt 200 2)).state.activationProof.recovery.map
        fun recovery => recovery.status) = some .collecting := by
  refine ⟨doubling_complete (by decide +kernel) (by decide +kernel), ?_, by decide +kernel, by decide +kernel⟩
  rintro ⟨recovery, hrecovery, -, haccepted⟩
  have hrefused : ((doublingStateAt 200 4).activationProof.recovery.all fun recovery =>
      recovery.rows.all (rowAccepted (max doublingArtifact.createdAt (doublingState.suspendedAt.getD doublingArtifact.createdAt)))) =
        false := by decide +kernel
  rw [doublingStateAt, hrecovery, all_some] at hrefused
  exact absurd (List.all_eq_true.mpr haccepted) (by simp [hrefused])

/-- An exit worth twice the order is within reach. -/
theorem doubling_trial_resolves :
    Resolves (doublingEngine 4) 4 doublingArtifact doublingState ↔
      ∀ row ∈ doublingTrial.rows, RowWithinReach (doublingEngine 4) doublingArtifact .sizing row :=
  recovery_trial_resolves_iff (doubling_complete (by decide +kernel) (by decide +kernel))

end LearningEngine

end SignalArcade.Challenger
