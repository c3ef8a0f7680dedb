import SignalArcade.Challenger.Policy
import SignalArcade.Challenger.Recovery

/-!
# Activation

How a Champion gets authority and how it is taken away, in `learning.py`: the proof that it adds
something beside the skills upstream of it, `_activate_skill` with the receipt it leaves in the
state, the check of the receipt, `_suspend_skill`, and what `_restore_active_skill_versions` makes
of the map after a restart.
-/

namespace SignalArcade.Challenger

open Paper (Instant RiskMode DecisionAction)
open MeanBounds

/-! ### Policies of receipts -/

/-- `"coach-join-v2"`. -/
def coachJoinPolicy : String := "coach-join-v2"

/-- `"coach-independent-v2"`. -/
def coachIndependentPolicy : String := "coach-independent-v2"

/-- `exit_context.ACTIVATION_POLICY`. -/
def contextActivationPolicy : String := "independent-exit-context-v2"

/-- `"independent-v1"`. -/
def independentPolicy : String := "independent-v1"

def ChallengerSkillArtifact.activationPolicy (artifact : ChallengerSkillArtifact) : String :=
  if artifact.isCoach then coachIndependentPolicy
  else if artifact.isContextual then contextActivationPolicy
  else independentPolicy

def isClose (x y : ℚ) : Bool := |x - y| ≤ 1 / 1000000000 * max |x| |y|

namespace LearningEngine

variable (engine : LearningEngine)

/-! ### The check of a receipt -/

/-- The numbers of a receipt. -/
def evidenceHolds (artifact : ChallengerSkillArtifact) (coverage : CoverageRecord) (evidence : ProofEvidence) : Bool :=
  evidence.ready && tournamentMinimumCommonOutcomes ≤ evidence.usableCount &&
    evidence.usableCount ≤ evidence.observedCount &&
    max (engine.coverageMinimum artifact) (savedMinimum coverage) ≤ (evidence.availabilityFraction : WithTop ℚ) &&
    evidence.availabilityFraction ≤ 1 &&
    isClose evidence.availabilityFraction (evidence.usableCount / evidence.observedCount) &&
    evidence.upliftLowerBound.any (fun i => i.lowerAbove 0) && 0 ≤ evidence.harmFraction &&
    evidence.harmFraction ≤ sizingMaximumHarmFraction

/-- Whether the saved proof grants the artifact. -/
def validActivationProof (state : ChallengerSkillState) (artifact : ChallengerSkillArtifact)
    (dependencies : SkillVersions) : Bool :=
  let proof := state.activationProof
  proof.policy = some artifact.activationPolicy && state.activeVersion = some artifact.version &&
    proof.artifactVersion = some artifact.version && proof.dependencies = some dependencies &&
    state.activeDependencies = dependencies && state.joinedAt.isSome && savedMinimum proof.coverage ≠ ⊤ &&
    if artifact.skill = .entry ∧ artifact.isCoach = false then
      dependencies = .empty && engine.skillEligible artifact
    else proof.evidence.any (engine.evidenceHolds artifact proof.coverage)

/-! ### Proof beside the skills upstream -/

/-- `independent`, of an artifact. -/
def independent (artifact : ChallengerSkillArtifact) : Bool :=
  engine.autoParticipation || artifact.isCoach || artifact.isContextual

/-- Since when the context of a Coach crown lasts, if it is that of the artifact. -/
def coachJoinedSince (artifact : ChallengerSkillArtifact) (dependencies : SkillVersions) : Option Instant := do
  let state ← engine.currentSkillState artifact.skill
  let proof := state.activationProof
  if proof.policy = some coachJoinPolicy ∧ proof.artifactVersion = some artifact.version ∧
      proof.dependencies = some dependencies then proof.startedAt else none

/-- `started_at` of the proof in the state of the skill. -/
def joinStartedAt (artifact : ChallengerSkillArtifact) : Option Instant :=
  (engine.currentSkillState artifact.skill).bind fun state => state.activationProof.startedAt

/-- After what the episodes of a join proof have to be created. -/
def joinSince (artifact : ChallengerSkillArtifact) (independent : Bool) (dependencies : SkillVersions) : Instant :=
  let started :=
    if artifact.isCoach then max artifact.createdAt ((engine.joinStartedAt artifact).getD artifact.createdAt)
    else artifact.createdAt
  if independent then
    ((ChallengerSkill.order.filter fun k => (dependencies k).isSome).filterMap fun k =>
      (engine.currentSkillState k).bind fun state => state.joinedAt).foldl max started
  else started

/-- Whether an episode is one of the join proof. -/
def joinObserved (artifact : ChallengerSkillArtifact) (independent : Bool) (dependencies : SkillVersions)
    (episode : LearningEvidenceEpisode) : Bool :=
  engine.joinSince artifact independent dependencies < episode.createdAt && episode.riskMode = artifact.riskMode &&
    episode.configurationFingerprint = some artifact.configurationFingerprint &&
    episode.baselineVersion = artifact.baselineVersion && episode.baselineAction = .enter &&
    episode.baselineActionable &&
    (episode.challengerEvaluations artifact.version).any (fun receipt =>
      (!artifact.isContextual || receipt.parameters.championVersionAtEvaluation = some artifact.version) &&
        episode.receiptOutcomeResolved receipt) &&
    ChallengerSkill.order.all (fun k => (dependencies k).all fun version => episode.activeSkillVersions k = some version) &&
    (!independent || episode.activeSkillVersions.notDownstream artifact.skill = dependencies) &&
    upstreamSkillsSupported episode artifact.skill

/-- By how much the artifact did better in an episode, for a proof. -/
def joinDelta (artifact : ChallengerSkillArtifact) (independent : Bool) (episode : LearningEvidenceEpisode) :
    Option ℚ := do
  let receipt ← episode.challengerEvaluations artifact.version
  if independent then episode.participationDelta receipt
  else
    let candidate ← episode.tournamentPolicyValue receipt
    let baseline ← episode.skillBaselineValue artifact.skill
    some (candidate - baseline)

def joinEpisodes (artifact : ChallengerSkillArtifact) (independent : Bool) (dependencies : SkillVersions) :
    List LearningEvidenceEpisode :=
  let observed :=
    (engine.policyEvidence artifact.contract none).filter (engine.joinObserved artifact independent dependencies)
  if independent then observed.rtake activeHealthWindow else observed

def joinProof (minimum : WithTop ℚ) (contextValid : Bool) (outcomes : List (Option ℚ)) : ProofEvidence :=
  let deltas := outcomes.filterMap id
  let availability : ℚ := if outcomes = [] then 0 else deltas.length / outcomes.length
  let lower := interval zScore deltas
  let harm := (deltas.filter (· < 0)).length
  let harmFraction : ℚ := if deltas = [] then 0 else harm / deltas.length
  { minimumAvailabilityFraction := minimum
    ready := contextValid && tournamentMinimumCommonOutcomes ≤ deltas.length && minimum ≤ (availability : WithTop ℚ) &&
      lower.any (fun i => i.lowerAbove 0) && harmFraction ≤ sizingMaximumHarmFraction
    observedCount := outcomes.length
    usableCount := deltas.length
    availabilityFraction := availability
    meanUplift := if deltas = [] then none else some (mean deltas)
    upliftLowerBound := lower
    harmCount := harm
    harmFraction := harmFraction }

def skillJoinEvidence (artifact : ChallengerSkillArtifact) (independent : Bool) (now : Instant) : Proof :=
  let independent := independent || artifact.isCoach || artifact.isContextual
  let dependencies :=
    if independent then engine.activeSkillVersions.upstream artifact.skill else engine.activeSkillVersions
  let contextValid := !artifact.isCoach || (engine.coachJoinedSince artifact dependencies).isSome
  { coverage := engine.coverageReceipt artifact 0 false now
    evidence := joinProof (engine.coverageMinimum artifact) contextValid
      ((engine.joinEpisodes artifact independent dependencies).map (joinDelta artifact independent)) }

/-! ### Activation -/

def skillActivationCandidate (recovering : Bool) (now : Instant) : Option ChallengerSkillArtifact := do
  let state ← engine.currentSkillState .entry
  let artifact ← engine.artifact? state.championVersion
  if engine.skillEligible artifact && engine.loadable artifact &&
      (state.suspendedVersion ≠ some artifact.version || recovering) &&
      engine.entryCoverageReady (engine.coverageMinimum artifact) &&
      (!artifact.isCoach || recovering || (engine.skillJoinEvidence artifact true now).evidence.ready) then
    some artifact
  else none

def setState (state : ChallengerSkillState) : LearningEngine :=
  { engine with skillStates := engine.skillStates.upsert state }

def evaluateRecovery (skill : ChallengerSkill) (now : Instant) : LearningEngine × Option Proof :=
  match engine.currentSkillState skill with
  | none => (engine, none)
  | some state =>
    let outcome := engine.skillRecoveryProof now state
    (engine.setState outcome.state, outcome.proof.filter fun proof => proof.evidence.ready)

/-- Whether the Champion of a state may be activated, with the proof of its recovery if it has one. -/
def activatable (state : ChallengerSkillState) (artifact : ChallengerSkillArtifact) (recovering : Bool)
    (recoveryProof : Option Proof) : Bool :=
  state.championVersion = some artifact.version && engine.skillEligible artifact && engine.exitAvailable artifact &&
    engine.loadable artifact && (state.suspendedVersion ≠ some artifact.version || recoveryProof.isSome) &&
    (!recovering || recoveryProof.isSome)

/-- The proof that an activation is recorded with: none is asked of some, and where one is asked for
and not found, the activation raises. -/
def activationProof (artifact : ChallengerSkillArtifact) (recovering : Bool) (recoveryProof : Option Proof)
    (now : Instant) : Option (Option Proof) :=
  if !engine.independent artifact then some recoveryProof
  else if artifact.skill = .entry ∧ engine.skillActivationCandidate recovering now ≠ some artifact then none
  else if recovering = false ∧ (artifact.skill ≠ .entry ∨ artifact.isCoach = true) then
    let join := engine.skillJoinEvidence artifact true now
    if join.evidence.ready then some (some join) else none
  else some recoveryProof

def activationReceipt (state : ChallengerSkillState) (artifact : ChallengerSkillArtifact) (recovering : Bool)
    (proof : Option Proof) (dependencies : SkillVersions) (now : Instant) : ActivationProof :=
  let coverage := engine.coverageReceipt artifact 0 false now
  if engine.independent artifact then
    { coverage := coverage.override ((proof.map fun p => p.coverage).getD {})
      policy := some artifact.activationPolicy
      artifactVersion := some artifact.version
      dependencies := some dependencies
      evidence := proof.map fun p => p.evidence
      recovery :=
        if recovering then
          state.activationProof.recovery.map fun recovery =>
            { recovery with status := .restored, restoredAt := some now }
        else none }
  else if engine.coveragePolicy.revision ≠ 0 then { coverage := coverage, artifactVersion := some artifact.version }
  else {}

def activatedState (state : ChallengerSkillState) (artifact : ChallengerSkillArtifact) (recovering : Bool)
    (proof : Option Proof) (now : Instant) : ChallengerSkillState :=
  let dependencies := engine.activeSkillVersions.upstream artifact.skill
  { state with
    suspendedVersion := if recovering then none else state.suspendedVersion
    activeVersion := some artifact.version
    activeDependencies := dependencies
    activationProof := engine.activationReceipt state artifact recovering proof dependencies now
    joinedAt := some now }

/-- The state of an active skill downstream, when one upstream of it changes. -/
def deactivated (state : ChallengerSkillState) (result : TournamentResult) (dependency : ChallengerSkill) :
    ChallengerSkillState :=
  { state with
    activeVersion := none
    activeDependencies := .empty
    lastTournament := { state.lastTournament with result := some result, dependency := some dependency } }

def deactivateSkills (result : TournamentResult) (dependency : ChallengerSkill) (skills : List ChallengerSkill) :
    LearningEngine :=
  skills.foldl (fun engine skill =>
    match engine.currentSkillState skill, engine.activeSkillVersions skill with
    | some state, some _ => engine.setState (deactivated state result dependency)
    | _, _ => engine) engine

def downstream (skill : ChallengerSkill) : List ChallengerSkill :=
  ChallengerSkill.order.filter fun k => skill.index < k.index

/-- `_activate_skill`; nothing, if it refuses. -/
def activateSkill (artifact : ChallengerSkillArtifact) (recovering grantConsent : Bool) (reason : TournamentResult)
    (now : Instant) : Option LearningEngine := do
  let (engine, recoveryProof) := if recovering then engine.evaluateRecovery artifact.skill now else (engine, none)
  let state ← engine.currentSkillState artifact.skill
  if engine.activatable state artifact recovering recoveryProof then
    let proof ← engine.activationProof artifact recovering recoveryProof now
    let published := (engine.deactivateSkills reason artifact.skill (downstream artifact.skill)).setState
      (engine.activatedState state artifact recovering proof now)
    some { published with
      activeSkillVersions := (engine.activeSkillVersions.upstream artifact.skill).set artifact.skill artifact.version
      mode := .active
      activeModel := none
      consentGranted := engine.consentGranted || grantConsent }
  else none

/-! ### Suspension -/

def suspendedState (state : ChallengerSkillState) (version : String) (reason : SuspensionReason) (now : Instant) :
    ChallengerSkillState :=
  { state with
    activeVersion := none
    activeDependencies := .empty
    suspendedVersion := some version
    suspensionReason := some reason
    suspendedAt := some now
    activationProof := { state.activationProof with recovery := none } }

def suspendSkill (skill : ChallengerSkill) (reason : SuspensionReason) (now : Instant) : LearningEngine :=
  let deactivated := engine.deactivateSkills .dependencyDeactivated skill (downstream skill)
  let suspended :=
    match engine.currentSkillState skill, engine.activeSkillVersions skill with
    | some state, some version => deactivated.setState (suspendedState state version reason now)
    | _, _ => deactivated
  let versions := engine.activeSkillVersions.upstream skill
  { suspended with
    activeSkillVersions := versions
    mode :=
      if engine.autoParticipation then (if versions.nonempty then .active else .shadow)
      else if (versions .entry).isNone then .shadow else engine.mode
    activeModel := none }

/-! ### After a restart -/

/-- Whether an active skill is restored, beside those upstream of it that are. -/
def restorable (restored : SkillVersions) (skill : ChallengerSkill) (version : String) : Bool :=
  match engine.artifact? (some version), engine.currentSkillState skill with
  | some artifact, some state =>
    engine.skillEligible artifact && engine.supportCoverageMinimum artifact state ≠ ⊤ && engine.exitAvailable artifact &&
      artifact.skill = skill && state.championVersion = some artifact.version && engine.loadable artifact &&
      state.activeVersion = some artifact.version && state.suspendedVersion ≠ some artifact.version &&
      ChallengerSkill.order.all (fun k => (state.activeDependencies k).all fun v => restored k = some v) &&
      (!engine.independent artifact || engine.validActivationProof state artifact restored)
  | _, _ => false

/-- The loop of the restoration; after the first skill that is not restored, none is. -/
def restoredVersions : List ChallengerSkill → SkillVersions → SkillVersions
  | [], restored => restored
  | skill :: skills, restored =>
    match engine.activeSkillVersions skill with
    | none => restoredVersions skills restored
    | some version =>
      if engine.restorable restored skill version then restoredVersions skills (restored.set skill version)
      else restored

/-- What the map is after a restart. -/
def restoredMap : SkillVersions :=
  if engine.mode ≠ .active then .empty
  else
    let restored := engine.restoredVersions ChallengerSkill.order .empty
    if engine.autoParticipation = false ∧ restored .entry = none then .empty else restored

def unrestored (restored : SkillVersions) (state : ChallengerSkillState) : ChallengerSkillState :=
  if state.activeVersion.isSome ∧ restored state.skill ≠ state.activeVersion then
    { state with activeVersion := none, activeDependencies := .empty }
  else state

theorem unrestored_key (restored : SkillVersions) (state : ChallengerSkillState) :
    (unrestored restored state).key = state.key := by
  unfold unrestored
  split_ifs <;> rfl

/-- What is active after a restart. -/
def restoreActiveSkillVersions : LearningEngine :=
  if engine.mode ≠ .active then { engine with activeSkillVersions := .empty }
  else
    { engine with
      activeSkillVersions := engine.restoredMap
      skillStates := engine.skillStates.map (unrestored engine.restoredMap) (unrestored_key _) }

end LearningEngine

end SignalArcade.Challenger
