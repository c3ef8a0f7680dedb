import SignalArcade.Challenger.PolicyLedger
import SignalArcade.Lib.Memos

/-!
# The selection of proof is reused

`_policy_evidence` selects its episodes anew each time it is asked, but within `_policy_selection_scope` it keeps what
it has selected of each contract. What changes the evidence or its identities clears that first,
`_invalidate_policy_selection`; a checkpoint does not, for what is kept are the episodes themselves, and their outcomes
are read when they are needed.
-/

namespace SignalArcade.Challenger

open Paper (Instant)
open Runs Selection

/-- The learning engine with its database, and what the scopes of the thread have selected. -/
structure PolicySelection where
  ledger : PolicyLedger
  memos : Memos Contract (List LearningEvidenceEpisode) := {}

namespace PolicySelection

variable (s : PolicySelection)

/-- `_policy_selection_scope`, when it is entered. -/
def enterScope (reuse checkpointPass : Bool) : PolicySelection :=
  { s with memos := s.memos.enter reuse checkpointPass }

/-- `_policy_selection_scope`, when it is left. -/
def leaveScope : PolicySelection :=
  { s with memos := s.memos.leave }

/-- `_invalidate_policy_selection`. -/
def invalidate : PolicySelection :=
  { s with memos := s.memos.clear }

/-- `_policy_evidence`, what it returns. -/
def policyEvidence (contract : Contract) (notBefore : Option Instant) : List LearningEvidenceEpisode :=
  ((s.memos.get s.ledger.engine.selectPolicyEvidence contract).filter fun episode =>
    notBefore.all fun start => start ≤ episode.entryAt).rtake modelWindowObservations

/-- `_policy_evidence`, what it keeps. -/
def evaluate (contract : Contract) : PolicySelection :=
  { s with memos := s.memos.keep s.ledger.engine.selectPolicyEvidence contract }

end PolicySelection

/-- Whether an action invalidates what was selected, before it changes anything. -/
def PolicyLedger.invalidates (hash : TrajectoryMaterial → String) (s : PolicyLedger) : LedgerAction → Bool
  | .register enrolment =>
    s.engine.mode ≠ .off &&
      (s.enters hash enrolment || !(s.engine.observations.get? enrolment.observation.mint).isSome)
  | .commit episode =>
    !decide (episode.lane ≠ .execution ∨ (s.engine.evidenceEpisodes.get? episode.episodeId).any fun existing =>
      existing.lane ≠ episode.lane ∨ existing.mint ≠ episode.mint)
  | .prune _ _ => true
  | .checkpoint _ _ _ | .reconfigure _ _ _ _ | .restart => false

/-- What happens within and without scopes. -/
inductive SelectionAction where
  | enterScope (reuse checkpointPass : Bool)
  | leaveScope
  /-- `_policy_evidence` is asked. -/
  | evaluate (contract : Contract)
  | evidence (action : LedgerAction)

def PolicySelection.change (hash : TrajectoryMaterial → String) (s : PolicySelection) (action : LedgerAction) :
    PolicySelection :=
  let s := if s.ledger.invalidates hash action then s.invalidate else s
  let ledger := s.ledger.step hash action
  match action with
  | .checkpoint episodeId checkpoints sizeTrials =>
    ⟨ledger, s.memos.map (List.map (resolve episodeId checkpoints sizeTrials))⟩
  | .restart => ⟨ledger, {}⟩
  | _ => ⟨ledger, s.memos⟩

def PolicySelection.step (hash : TrajectoryMaterial → String) (s : PolicySelection) : SelectionAction → PolicySelection
  | .enterScope reuse checkpointPass => s.enterScope reuse checkpointPass
  | .leaveScope => s.leaveScope
  | .evaluate contract => s.evaluate contract
  | .evidence action => s.change hash action

/-! ### What a change leaves of the selection -/

section resolve

variable {episodeId : String} {checkpoints : Checkpoints} {sizeTrials : ℚ → Option ChallengerSizeTrial}
  {episode : LearningEvidenceEpisode}

theorem resolve_mint : (resolve episodeId checkpoints sizeTrials episode).mint = episode.mint := by
  unfold resolve
  split_ifs <;> rfl

theorem resolve_proves {contract : Contract} :
    (resolve episodeId checkpoints sizeTrials episode).proves contract = episode.proves contract := by
  unfold resolve
  split_ifs <;> rfl

theorem resolve_matchesPolicyIdentity {identity : Identity} :
    (resolve episodeId checkpoints sizeTrials episode).matchesPolicyIdentity identity =
      episode.matchesPolicyIdentity identity := by
  unfold resolve
  split_ifs <;> rfl

theorem selectPolicyEvidence_checkpoint (s : PolicyLedger) (contract : Contract) :
    (s.checkpoint episodeId checkpoints sizeTrials).engine.selectPolicyEvidence contract =
      (s.engine.selectPolicyEvidence contract).map (resolve episodeId checkpoints sizeTrials) := by
  have heligible : (fun episode : LearningEvidenceEpisode => episode.proves contract) ∘
      resolve episodeId checkpoints sizeTrials = fun episode => episode.proves contract :=
    funext fun episode => resolve_proves
  have hmatches : (fun episode : LearningEvidenceEpisode =>
        (s.engine.policyIdentities episode.policyIdentityKey).all episode.matchesPolicyIdentity) ∘
      resolve episodeId checkpoints sizeTrials =
      fun episode => (s.engine.policyIdentities episode.policyIdentityKey).all episode.matchesPolicyIdentity := by
    funext episode
    rw [Function.comp_apply, resolve_policyIdentityKey]
    cases s.engine.policyIdentities episode.policyIdentityKey with
    | none => rfl
    | some identity => exact resolve_matchesPolicyIdentity
  have hbefore : ∀ a b : LearningEvidenceEpisode, entersBefore a b ↔
      entersBefore (resolve episodeId checkpoints sizeTrials a) (resolve episodeId checkpoints sizeTrials b) := by
    intro a b
    simp only [entersBefore, resolve_entryAt, resolve_episodeId]
  have hsorted : ∀ episodes : List LearningEvidenceEpisode,
      (episodes.insertionSort entersBefore).map (resolve episodeId checkpoints sizeTrials) =
        (episodes.map (resolve episodeId checkpoints sizeTrials)).insertionSort entersBefore :=
    fun episodes => List.map_insertionSort _ _ _ episodes fun a _ b _ => hbefore a b
  unfold LearningEngine.selectPolicyEvidence
  dsimp only [PolicyLedger.checkpoint, Table.map]
  rw [map_rtake, ← firstPer_map fun episode => resolve_mint, List.filter_map, heligible, ← hsorted, List.filter_map,
    hmatches]

end resolve

theorem selectPolicyEvidence_step {hash : TrajectoryMaterial → String} {s : PolicyLedger} {action : LedgerAction}
    (h : s.invalidates hash action = false) (hcheckpoint : ∀ episodeId checkpoints sizeTrials,
      action ≠ .checkpoint episodeId checkpoints sizeTrials) (hrestart : action ≠ .restart) :
    (s.step hash action).engine.selectPolicyEvidence = s.engine.selectPolicyEvidence := by
  cases action with
  | register enrolment =>
    have hsame : s.register hash enrolment = s := by
      unfold PolicyLedger.register
      by_cases hoff : s.engine.mode = .off
      · exact if_pos hoff
      · simp only [PolicyLedger.invalidates, hoff, ne_eq, not_false_eq_true, decide_true, Bool.true_and,
          Bool.or_eq_false_iff, Bool.not_eq_false'] at h
        dsimp only
        rw [if_neg hoff, if_pos h.2, h.1]
        rfl
    exact congrArg _ (congrArg _ hsame)
  | checkpoint episodeId checkpoints sizeTrials => exact absurd rfl (hcheckpoint episodeId checkpoints sizeTrials)
  | commit episode =>
    have hsame : s.commit episode = s := by
      rw [PolicyLedger.invalidates, Bool.not_eq_false', decide_eq_true_eq] at h
      exact if_pos h
    exact congrArg _ (congrArg _ hsame)
  | prune mints episodeIds => cases h
  | reconfigure riskMode configurationFingerprint baselineVersion mode => rfl
  | restart => exact absurd rfl hrestart

/-! ### As if it were selected afresh -/

/-- What is kept is what would be selected. -/
def PolicySelection.Valid (s : PolicySelection) : Prop := s.memos.Agrees s.ledger.engine.selectPolicyEvidence

variable {s : PolicySelection}

theorem PolicySelection.Valid.change (h : s.Valid) (hash : TrajectoryMaterial → String) (action : LedgerAction) :
    (s.change hash action).Valid := by
  unfold PolicySelection.change
  cases hinvalidates : s.ledger.invalidates hash action with
  | true =>
    have hclear : ∀ ledger : PolicyLedger, s.memos.clear.Agrees ledger.engine.selectPolicyEvidence :=
      fun ledger => Memos.Agrees.clear h
    cases action with
    | checkpoint episodeId checkpoints sizeTrials => cases hinvalidates
    | restart => cases hinvalidates
    | reconfigure riskMode configurationFingerprint baselineVersion mode => cases hinvalidates
    | register enrolment => exact hclear _
    | commit episode => exact hclear _
    | prune mints episodeIds => exact hclear _
  | false =>
    have hsame := selectPolicyEvidence_step hinvalidates
    cases action with
    | checkpoint episodeId checkpoints sizeTrials =>
      exact Memos.Agrees.map h fun contract => selectPolicyEvidence_checkpoint s.ledger contract
    | restart => exact Memos.agrees_new
    | reconfigure riskMode configurationFingerprint baselineVersion mode => exact h
    | register enrolment =>
      show s.memos.Agrees (s.ledger.step hash (.register enrolment)).engine.selectPolicyEvidence
      rw [hsame (by simp) (by simp)]
      exact h
    | commit episode =>
      show s.memos.Agrees (s.ledger.step hash (.commit episode)).engine.selectPolicyEvidence
      rw [hsame (by simp) (by simp)]
      exact h
    | prune mints episodeIds => cases hinvalidates

/-- **Every action** keeps what is kept valid. -/
theorem PolicySelection.Valid.step (h : s.Valid) (hash : TrajectoryMaterial → String) (action : SelectionAction) :
    (s.step hash action).Valid := by
  cases action with
  | enterScope reuse checkpointPass => exact Memos.Agrees.enter h reuse checkpointPass
  | leaveScope => exact Memos.Agrees.leave h
  | evaluate contract => exact Memos.Agrees.keep h contract
  | evidence action => exact h.change hash action

theorem PolicySelection.Valid.policyEvidence (h : s.Valid) (contract : Contract) (notBefore : Option Instant) :
    s.policyEvidence contract notBefore = s.ledger.engine.policyEvidence contract notBefore := by
  unfold PolicySelection.policyEvidence LearningEngine.policyEvidence
  rw [Memos.Agrees.get_eq h]

/-- **The reuse is invisible**: within whatever scopes it is asked, and whatever was changed since they were entered,
`_policy_evidence` returns what it would select afresh of the evidence that is held. -/
theorem evidence_as_fresh (hash : TrajectoryMaterial → String) (ledger : PolicyLedger) (actions : List SelectionAction)
    (contract : Contract) (notBefore : Option Instant) :
    let s := run (PolicySelection.step hash) { ledger := ledger } actions;
    s.policyEvidence contract notBefore = s.ledger.engine.policyEvidence contract notBefore := by
  intro s
  have hvalid : s.Valid :=
    run_invariant (I := PolicySelection.Valid) Memos.agrees_new fun _ action h => h.step hash action
  exact hvalid.policyEvidence contract notBefore

end SignalArcade.Challenger
