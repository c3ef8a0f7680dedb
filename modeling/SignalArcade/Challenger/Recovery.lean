import SignalArcade.Challenger.Engine
import SignalArcade.Lib.Binary64

/-!
# Recovery of a suspended Champion

`_recovery_allowed`, `_enroll_skill_recovery` and `_skill_recovery_proof` of `learning.py`. A
Champion that was suspended for its health may recover by one trial: the first
`activeHealthWindow` episodes after the suspension are enrolled before their outcomes exist,
each is filled in once its outcome is known or its deadline has passed, and the complete
trial passes or fails.
-/

namespace SignalArcade.Challenger

open Paper (Instant RiskMode)
open MeanBounds

def seconds (n : ℕ) : ℤ := 1000000 * n

/-- `"fixed-shadow-60-v1"`. -/
def recoveryPolicy : String := "fixed-shadow-60-v1"

namespace LearningEngine

variable (engine : LearningEngine)

/-- `_recovery_allowed`, of a state whose Champion is this artifact. -/
def recoveryAllowedFor (state : ChallengerSkillState) (artifact : ChallengerSkillArtifact) : Bool :=
  state.suspendedVersion.isSome && state.suspendedVersion = state.championVersion && state.suspendedAt.isSome &&
    (state.suspensionReason = some .degraded || state.suspensionReason = some .unverifiable) &&
    engine.autoParticipation && engine.consentGranted && engine.mode ≠ .off && !engine.demoMode &&
    engine.skillEligible artifact && engine.supportCoverageMinimum artifact state ≠ ⊤ && artifact.skill = state.skill &&
    artifact.riskMode = engine.currentRiskMode &&
    some artifact.configurationFingerprint = engine.configurationFingerprint &&
    artifact.baselineVersion = engine.baselineVersion && artifact.featureSchemaVersion = featureSchemaVersion &&
    engine.exitAvailable artifact && engine.loadable artifact && artifact.version ∉ engine.disabledModelVersions

/-- The Champion of a state, where `_recovery_allowed` holds. -/
def recoveringChampion (state : ChallengerSkillState) : Option ChallengerSkillArtifact :=
  (engine.artifact? state.championVersion).filter fun artifact => engine.recoveryAllowedFor state artifact

def upstreamSkillsSupported (episode : LearningEvidenceEpisode) (skill : ChallengerSkill) : Bool :=
  (ChallengerSkill.order.filter fun k => k.index < skill.index).all fun upstream =>
    match episode.activeSkillVersions upstream with
    | none => true
    | some version =>
      match episode.challengerEvaluations version with
      | none => false
      | some receipt =>
        !((upstream = .entry || upstream = .manipulation) && receipt.inDistribution && receipt.proposedAction = .veto)

/-! ### Enrolment -/

/-- After what an episode has to be created: the artifact, the suspension, and every join upstream. -/
def recoverySince (artifact : ChallengerSkillArtifact) (state : ChallengerSkillState) : Instant :=
  ((ChallengerSkill.order.filter fun k => (engine.recoveryDependencies state.skill k).isSome).filterMap fun k =>
      (engine.currentSkillState k).bind fun upstream => upstream.joinedAt).foldl max
    (max artifact.createdAt (state.suspendedAt.getD artifact.createdAt))

/-- The trial of a suspension, before the first row. -/
def newRecovery (artifact : ChallengerSkillArtifact) (state : ChallengerSkillState) (startedAt now : Instant) : Recovery where
  coverage := engine.coverageReceipt artifact (engine.supportCoverageMinimum artifact state) false now
  policy := recoveryPolicy
  artifactVersion := artifact.version
  suspendedAt := state.suspendedAt
  reason := state.suspensionReason
  dependencies := engine.recoveryDependencies state.skill
  dependencyEpochs := engine.recoveryDependencyEpochs state.skill
  startedAt := startedAt
  status := .collecting
  rows := []

def recoveryRow (episode : LearningEvidenceEpisode) (skill : ChallengerSkill) : RecoveryRow where
  id := episode.episodeId
  createdAt := episode.createdAt
  deadline :=
    let horizon := if skill = .exit then maxHoldSeconds episode.riskMode else primaryHorizonSeconds
    episode.createdAt + seconds (horizon + checkpointGraceSeconds)

/-- Whether the episode belongs to the trial of this artifact. -/
def enrollable (episode : LearningEvidenceEpisode) (state : ChallengerSkillState) (artifact : ChallengerSkillArtifact) :
    Bool :=
  engine.recoverySince artifact state < episode.createdAt && episode.riskMode = artifact.riskMode &&
    episode.configurationFingerprint = some artifact.configurationFingerprint &&
    episode.baselineVersion = artifact.baselineVersion &&
    episode.activeSkillVersions.notDownstream state.skill = engine.recoveryDependencies state.skill &&
    upstreamSkillsSupported episode state.skill

/-- A round of the loop of `_enroll_skill_recovery`: the state that is saved, if the episode is
enrolled. -/
def enrollState (episode : LearningEvidenceEpisode) (now : Instant) (state : ChallengerSkillState) :
    Option ChallengerSkillState := do
  let artifact ← engine.recoveringChampion state
  if engine.enrollable episode state artifact then
    let recovery := state.activationProof.recovery.getD (engine.newRecovery artifact state episode.createdAt now)
    if recovery.status ≠ .collecting ∨ recovery.dependencies ≠ engine.recoveryDependencies state.skill then none
    else if activeHealthWindow ≤ recovery.rows.length then none
    else if recovery.rows.any fun row => row.id = episode.episodeId then none
    else
      let recovery := { recovery with rows := recovery.rows ++ [recoveryRow episode state.skill] }
      some { state with activationProof := { state.activationProof with recovery := some recovery } }
  else none

/-- What an episode must be to be enrolled anywhere. -/
def recoveryCandidate (episode : LearningEvidenceEpisode) : Bool :=
  (ChallengerSkill.order.any fun skill =>
      (engine.currentSkillState skill).any fun state => state.suspendedVersion.isSome) &&
    episode.qualificationEligible && !episode.synthetic &&
    learningHorizonsSeconds.all (fun horizon => (episode.checkpoints horizon).isNone) &&
    episode.sourceMode = "solana_mainnet" && episode.seasonId.isSome &&
    episode.featureSchemaVersion = featureSchemaVersion && featuresComplete episode.features &&
    (engine.policyIdentities episode.policyIdentityKey).any episode.matchesPolicyIdentity

/-! ### Evaluation -/

/-- What an evaluation of the trial comes to. -/
structure RecoveryOutcome where
  /-- The proof; `{"ready": False}` is none, and so is an error. -/
  proof : Option Proof
  state : ChallengerSkillState
  /-- Whether the state was saved. -/
  saved : Bool

/-- `proof.get("ready")`. -/
def RecoveryOutcome.ready (outcome : RecoveryOutcome) : Bool := outcome.proof.any fun proof => proof.evidence.ready

/-- Whether a row passes the validation with which an evaluation begins. -/
def rowAccepted (since : Instant) (row : RecoveryRow) : Bool :=
  since < row.createdAt && row.createdAt < row.deadline &&
    match row.delta with
    | some (some delta) => -11 ≤ delta && delta ≤ 11
    | _ => true

/-- Whether the episode that is kept under the id of a row is another one than was enrolled. -/
def episodeDiffers (artifact : ChallengerSkillArtifact) (row : RecoveryRow) (episode : LearningEvidenceEpisode) : Bool :=
  episode.createdAt ≠ row.createdAt || episode.riskMode ≠ artifact.riskMode ||
    episode.configurationFingerprint ≠ some artifact.configurationFingerprint ||
    episode.baselineVersion ≠ artifact.baselineVersion || episode.featureSchemaVersion ≠ artifact.featureSchemaVersion ||
    !episode.qualificationEligible || episode.synthetic || episode.lane ≠ .policy ||
    !episode.matchesPolicyIdentity ((engine.policyIdentities episode.policyIdentityKey).getD (none, ""))

def recoveryReceipt (artifact : ChallengerSkillArtifact) (skill : ChallengerSkill) (episode : LearningEvidenceEpisode) :
    Option ChallengerEvaluationReceipt :=
  (episode.challengerEvaluations artifact.version).filter fun receipt =>
    receipt.artifactVersion = artifact.version && receipt.skill = skill

/-- Whether the outcome of an episode is known. -/
def recoveryResolved (artifact : ChallengerSkillArtifact) (skill : ChallengerSkill) (episode : LearningEvidenceEpisode) :
    Bool :=
  match recoveryReceipt artifact skill episode with
  | some receipt => episode.receiptOutcomeResolved receipt
  | none =>
    (if skill = .exit then artifact.exitResolutionHorizons else [some primaryHorizonSeconds]).all fun horizon =>
      (episode.checkpoint horizon).isSome

/-- `actual - baseline` in floats; nothing, where one of the two is too large for a float. -/
def floatDelta (values : Option ℚ × Option ℚ) : Option (Option ℚ) := do
  let actual ← values.1.mapM Binary64.double?
  let baseline ← values.2.mapM Binary64.double?
  some (actual.bind fun x => baseline.map fun y => Binary64.rounded (x - y))

/-- The `delta` of a row, once it is due; nothing, where `_participation_values` raises. -/
def recoveryDelta (artifact : ChallengerSkillArtifact) (skill : ChallengerSkill)
    (episode : Option LearningEvidenceEpisode) : Option (Option ℚ) :=
  (do
    let episode ← episode
    let receipt ← recoveryReceipt artifact skill episode
    if recoveryResolved artifact skill episode then some (floatDelta (episode.participationValues receipt)) else none).getD
    (some none)

/-- A round of the loop over the rows; nothing, where it returns `empty`, or an error leaves it. -/
def fillRow (artifact : ChallengerSkillArtifact) (skill : ChallengerSkill) (now : Instant) (row : RecoveryRow) :
    Option RecoveryRow :=
  if row.delta.isSome then some row
  else
    let episode := engine.evidenceEpisodes.get? row.id
    if episode.any (engine.episodeDiffers artifact row) then none
    else if !(episode.any (recoveryResolved artifact skill)) && now ≤ row.deadline then some row
    else (recoveryDelta artifact skill episode).map fun delta => { row with delta := some delta }

/-- The loop over the rows: what they are when it ends, and whether it came to the last one. -/
def fillRows (artifact : ChallengerSkillArtifact) (skill : ChallengerSkill) (now : Instant) :
    List RecoveryRow → List RecoveryRow × Bool
  | [] => ([], true)
  | row :: rows =>
    match engine.fillRow artifact skill now row with
    | none => (row :: rows, false)
    | some row' =>
      let rest := fillRows artifact skill now rows
      (row' :: rest.1, rest.2)

/-- The proof of a trial with these rows. -/
def recoveryProof (artifact : ChallengerSkillArtifact) (state : ChallengerSkillState) (recovery : Recovery)
    (rows : List RecoveryRow) : Proof :=
  let deltas := rows.filterMap fun row => row.delta.join
  let observed := (rows.filter fun row => row.delta.isSome).length
  let availability : ℚ := if observed = 0 then 0 else deltas.length / observed
  let lower := interval zScore deltas
  let harm := (deltas.filter (· < 0)).length
  let harmFraction : ℚ := if deltas = [] then 0 else harm / deltas.length
  let complete : Bool := observed = activeHealthWindow
  let minimumCoverage := max (engine.supportCoverageMinimum artifact state) (savedMinimum recovery.coverage)
  let usable : Bool := tournamentMinimumCommonOutcomes ≤ deltas.length
  let covered : Bool := minimumCoverage ≤ (availability : WithTop ℚ)
  let advantage : Bool := lower.any fun i => i.lowerAbove 0
  let harmless : Bool := deltas ≠ [] && harmFraction ≤ sizingMaximumHarmFraction
  { coverage := recovery.coverage
    evidence :=
      { minimumAvailabilityFraction := minimumCoverage
        ready := complete && usable && covered && advantage && harmless
        observedCount := observed
        usableCount := deltas.length
        availabilityFraction := availability
        meanUplift := if deltas = [] then none else some (mean deltas)
        upliftLowerBound := lower
        harmCount := harm
        harmFraction := harmFraction
        failedChecks :=
          if complete then
            some ((if usable then [] else ["usable_outcomes"]) ++ (if covered then [] else ["coverage"]) ++
              (if advantage then [] else ["advantage"]) ++ (if harmless then [] else ["harm"]))
          else none } }

/-- `recovery.update(proof)`, and the status of a complete trial. -/
def closeRecovery (recovery : Recovery) (rows : List RecoveryRow) (proof : Proof) : Recovery :=
  let complete : Bool := proof.evidence.observedCount = activeHealthWindow
  { recovery with
    rows := rows
    proof := some proof.evidence
    ready := some proof.evidence.ready
    status := if complete then (if proof.evidence.ready then .passed else .failed) else recovery.status }

/-- The checks with which an evaluation begins, before the composition is compared. -/
def recoveryOpen (state : ChallengerSkillState) (recovery : Recovery) : Bool :=
  recovery.policy = recoveryPolicy && savedMinimum recovery.coverage ≠ ⊤ &&
    some recovery.artifactVersion = state.championVersion && recovery.suspendedAt = state.suspendedAt &&
    (recovery.status = .collecting || recovery.status = .passed)

/-- Whether the composition is the one that was recorded. -/
def compositionHolds (state : ChallengerSkillState) (recovery : Recovery) : Bool :=
  recovery.dependencies = engine.recoveryDependencies state.skill &&
    recovery.dependencyEpochs = engine.recoveryDependencyEpochs state.skill

def rowsAccepted (artifact : ChallengerSkillArtifact) (state : ChallengerSkillState) (rows : List RecoveryRow) : Bool :=
  rows ≠ [] && rows.length ≤ activeHealthWindow && (rows.map RecoveryRow.id).Nodup &&
    rows.all (rowAccepted (max artifact.createdAt (state.suspendedAt.getD artifact.createdAt)))

/-- The state with its trial replaced. -/
def withRecovery (state : ChallengerSkillState) (recovery : Recovery) : ChallengerSkillState :=
  { state with activationProof := { state.activationProof with recovery := some recovery } }

/-- How the trial of a suspended skill stands. -/
def skillRecoveryProof (now : Instant) (state : ChallengerSkillState) : RecoveryOutcome :=
  match engine.recoveringChampion state, state.activationProof.recovery with
  | some artifact, some recovery =>
    if !recoveryOpen state recovery then ⟨none, state, false⟩
    else if !engine.compositionHolds state recovery then
      ⟨none, withRecovery state { recovery with status := .contextChanged }, true⟩
    else if !rowsAccepted artifact state recovery.rows then ⟨none, state, false⟩
    else
      let filled := engine.fillRows artifact state.skill now recovery.rows
      -- the rows are changed where they stand: what was filled stays, though nothing is saved
      if !filled.2 then ⟨none, withRecovery state { recovery with rows := filled.1 }, false⟩
      else
        let proof := engine.recoveryProof artifact state recovery filled.1
        let closed := closeRecovery recovery filled.1 proof
        ⟨some proof, withRecovery state closed, closed ≠ recovery⟩
  | _, _ => ⟨none, state, false⟩

end LearningEngine

/-! ### What the loop over the rows does -/

theorem exists_right_of_forall₂ {α β : Type} {r : α → β → Prop} {as : List α} {bs : List β}
    (h : List.Forall₂ r as bs) {a : α} (ha : a ∈ as) : ∃ b ∈ bs, r a b := by
  induction h with
  | nil => cases ha
  | cons hr _ ih =>
    rcases List.mem_cons.mp ha with rfl | ha
    · exact ⟨_, List.mem_cons_self, hr⟩
    · obtain ⟨b, hb, hab⟩ := ih ha
      exact ⟨b, List.mem_cons_of_mem _ hb, hab⟩

theorem exists_left_of_forall₂ {α β : Type} {r : α → β → Prop} {as : List α} {bs : List β}
    (h : List.Forall₂ r as bs) {b : β} (hb : b ∈ bs) : ∃ a ∈ as, r a b :=
  exists_right_of_forall₂ h.flip hb

/-- The row of the same episode, whose outcome stays what it is once it is there. -/
structure RecoveryRow.Filled (row row' : RecoveryRow) : Prop where
  id : row'.id = row.id
  createdAt : row'.createdAt = row.createdAt
  deadline : row'.deadline = row.deadline
  delta : row.delta.isSome → row'.delta = row.delta

theorem RecoveryRow.Filled.refl (row : RecoveryRow) : row.Filled row := ⟨rfl, rfl, rfl, fun _ => rfl⟩

theorem RecoveryRow.Filled.trans {row row' row'' : RecoveryRow} (h : row.Filled row') (h' : row'.Filled row'') :
    row.Filled row'' where
  id := h'.id.trans h.id
  createdAt := h'.createdAt.trans h.createdAt
  deadline := h'.deadline.trans h.deadline
  delta := by
    intro hdelta
    have hrow' := h.delta hdelta
    rw [← hrow'] at hdelta
    exact (h'.delta hdelta).trans hrow'

namespace LearningEngine

variable {engine : LearningEngine} {artifact : ChallengerSkillArtifact} {skill : ChallengerSkill} {now : Instant}
  {row row' : RecoveryRow} {rows : List RecoveryRow}

theorem fillRow_of_observed (h : row.delta.isSome) : engine.fillRow artifact skill now row = some row := by
  simp only [fillRow, h, if_true]

theorem fillRow_filled (h : engine.fillRow artifact skill now row = some row') : row.Filled row' := by
  simp only [fillRow] at h
  split_ifs at h with hdelta hdiffers hwait
  · cases h
    exact .refl row
  · cases h
    exact .refl row
  · obtain ⟨delta, -, rfl⟩ := Option.map_eq_some_iff.mp h
    exact ⟨rfl, rfl, rfl, fun hsome => absurd hsome hdelta⟩

theorem fillRow_of_past (hdelta : row.delta.isSome = false) (hpast : row.deadline < now) :
    engine.fillRow artifact skill now row =
      if (engine.evidenceEpisodes.get? row.id).any (engine.episodeDiffers artifact row) then none
      else (recoveryDelta artifact skill (engine.evidenceEpisodes.get? row.id)).map fun delta =>
        { row with delta := some delta } := by
  simp only [fillRow, hdelta, Bool.false_eq_true, if_false, decide_eq_false (not_le.mpr hpast), Bool.and_false]

/-- **Whether or not the loop comes to its end**, the rows are those of the same episodes, and what
was filled in before stays. -/
theorem fillRows_filled (rows : List RecoveryRow) :
    List.Forall₂ RecoveryRow.Filled rows (engine.fillRows artifact skill now rows).1 := by
  induction rows with
  | nil => exact .nil
  | cons row rows ih =>
    simp only [fillRows]
    cases hrow : engine.fillRow artifact skill now row with
    | none => exact .cons (.refl row) (List.forall₂_same.mpr fun r _ => .refl r)
    | some row' => exact .cons (fillRow_filled hrow) ih

theorem fillRows_complete (h : (engine.fillRows artifact skill now rows).2 = true) :
    List.Forall₂ (fun row row' => engine.fillRow artifact skill now row = some row') rows
      (engine.fillRows artifact skill now rows).1 := by
  induction rows with
  | nil => exact .nil
  | cons row rows ih =>
    simp only [fillRows] at h ⊢
    cases hrow : engine.fillRow artifact skill now row with
    | none =>
      rw [hrow] at h
      cases h
    | some row' =>
      rw [hrow] at h
      exact .cons hrow (ih h)

theorem fillRows_of_forall (h : ∀ row ∈ rows, (engine.fillRow artifact skill now row).isSome) :
    (engine.fillRows artifact skill now rows).2 = true := by
  induction rows with
  | nil => rfl
  | cons row rows ih =>
    obtain ⟨row', hrow⟩ := Option.isSome_iff_exists.mp (h row List.mem_cons_self)
    simp only [fillRows, hrow]
    exact ih fun r hr => h r (List.mem_cons_of_mem row hr)

end LearningEngine

end SignalArcade.Challenger
