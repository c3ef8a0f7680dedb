import SignalArcade.Challenger.CoachSeed
import SignalArcade.Challenger.PolicyLedger

/-!
# The forward study of a hypothesis

What `coach.py` makes of a hypothesis and of the episodes after its cutoff. An episode that fits
the contract of the hypothesis, holds the reservation of its identity and is one the hypothesis
speaks of is enrolled; an enrolment is resolved once its outcome is known, or can no longer become
known; and only the enrolments before the first that is not resolved count.
-/

namespace SignalArcade.Study

open Paper (Instant RiskMode)
open Challenger (LearningEvidenceEpisode LearningCheckpoint PolicyIdentityKey PolicyIdentities CoachExperimentKind
  CoachExperimentState CoachOperator CoachRule SkillVersions Features seconds primaryHorizonSeconds
  checkpointGraceSeconds maxHoldSeconds learnableBaselineVersions featureSchemaVersion)
open MeanBounds (Interval)

/-! ### Hypotheses -/

/-- How far a hypothesis is on its way to the Arena. -/
inductive ContributionState where
  | researchOnly | ready | waitingForChampion | handedOff | stale
  deriving DecidableEq

/-- The evidence a hypothesis is about. -/
inductive EvidenceContract where
  | discovery | policy
  deriving DecidableEq

/-- An enrolled entry, and its value once it is resolved. -/
structure CoachForwardEvidence where
  episodeId : String
  identity : PolicyIdentityKey
  entryAt : Instant
  seasonId : String
  resolved : Bool := false
  value : Option ℚ := none
  deriving DecidableEq

/-- `collection_counts`. What was never counted is zero. -/
structure CollectionCounts where
  scanned : ℕ := 0
  contextExcluded : ℕ := 0
  identityExcluded : ℕ := 0
  conditionExcluded : ℕ := 0
  missingEnrolled : ℕ := 0
  changedEnrolled : ℕ := 0
  enrolled : Option ℕ := none
  pending : Option ℕ := none
  deriving DecidableEq

/-- A place in the order of episodes: a time and an identifier. -/
abbrev Position : Type := Instant ×ₗ String

/-- What a hypothesis has enrolled, and how far it has read. -/
structure ForwardCollection where
  forwardEnrollments : List CoachForwardEvidence := []
  forwardCursor : Option Position := none
  collectionCounts : CollectionCounts := {}
  deriving DecidableEq

/-- What is made of it. -/
structure ForwardEvidence where
  state : CoachExperimentState := .testing
  forwardObservedCount : ℕ := 0
  forwardUsableCount : ℕ := 0
  forwardAvailabilityFraction : ℚ := 0
  forwardSeasonCount : ℕ := 0
  /-- `forward_mean_uplift`, with its bounds. -/
  forwardUplift : Option Interval := none
  forwardObservationIds : List String := []
  forwardValues : List ℚ := []
  forwardSeasonCounts : List (String × ℕ) := []
  resolvedAt : Option Instant := none
  resolutionReason : Option String := none
  contributionState : ContributionState := .researchOnly
  deriving DecidableEq

/-- What is fixed of a hypothesis when it is proposed. -/
structure Terms where
  hypothesisId : String
  evidenceContract : EvidenceContract := .policy
  createdAt : Instant
  cutoffAt : Instant
  kind : CoachExperimentKind
  riskMode : RiskMode
  configurationFingerprint : String
  baselineVersion : String
  featureSchemaVersion : String
  dependencyVersions : SkillVersions
  featureName : Option String := none
  operator : Option CoachOperator := none
  threshold : Option ℚ := none
  conditions : List CoachRule := []
  holdSeconds : Option ℕ := none
  baselineHoldSeconds : Option ℕ := none
  sizeMultiplier : Option ℚ := none
  minimumForwardSamples : ℕ := 60
  minimumAvailabilityFraction : ℚ := 7 / 10
  deriving DecidableEq

/-- A hypothesis: its terms, and what it has learned. -/
structure CoachHypothesis extends Terms where
  updatedAt : Instant
  lastEvaluatedAt : Option Instant := none
  collection : ForwardCollection := {}
  evidence : ForwardEvidence := {}
  contributedArtifactVersion : Option String := none
  deriving DecidableEq

/-! ### Constants -/

def rejectionSamples : ℕ := 120

/-- `COACH_MINIMUM_FORWARD_SEASONS`. -/
def minimumForwardSeasons : ℕ := 2

/-- `COACH_MINIMUM_UPLIFT`. -/
def minimumUplift : ℚ := 1 / 100

/-- `COACH_Z_SCORE`. -/
def zScore : ℚ := 196 / 100

def minimumSamplesPerSeason : ℕ := 10

/-- `COACH_MAXIMUM_FORWARD_OBSERVED`. -/
def maximumForwardObserved : ℕ := 180

/-- `COACH_MAXIMUM_FORWARD_DAYS`. -/
def maximumForwardDays : ℕ := 90

/-! ### What a hypothesis says of an episode -/

def skillForKind : CoachExperimentKind → ChallengerSkill
  | .entryVeto => .entry
  | .manipulationVeto => .manipulation
  | .sizingMultiplier => .sizing
  | .earlierReview => .exit

def conditionMatches (features : Features) (rule : CoachRule) : Bool :=
  (features rule.1).any fun value =>
    match rule.2.1 with
    | .le => value ≤ rule.2.2
    | .ge => rule.2.2 ≤ value

namespace Terms

variable (terms : Terms)

/-- The skill, which follows from the kind. -/
def skill : ChallengerSkill := skillForKind terms.kind

def baselineHorizon : ℕ := terms.baselineHoldSeconds.getD (maxHoldSeconds terms.riskMode)

/-- Whether the features are those the hypothesis speaks of: by its conditions, or by the one of an older record. -/
def matchesFeatures (features : Features) : Bool :=
  if terms.conditions ≠ [] then terms.conditions.all (conditionMatches features)
  else match terms.featureName, terms.operator, terms.threshold with
    | some feature, some operator, some threshold => conditionMatches features (feature, operator, threshold)
    | _, _, _ => false

/-- The difference of two values that are both known. -/
def uplift (selected baseline : Option ℚ) : Option ℚ := do
  let selected ← selected
  let baseline ← baseline
  some (selected - baseline)

/-- `_hypothesis_observation_value`: whether the outcome is known, whether the hypothesis speaks of the episode, and
what it would have gained. -/
def hypothesisObservationValue (episode : LearningEvidenceEpisode) : Bool × Bool × Option ℚ :=
  if episode.baselineAction ≠ .enter ∨ episode.baselineActionable = false then (false, false, none)
  else match terms.skill with
    | .entry | .manipulation =>
      if !terms.matchesFeatures episode.features then (false, false, none)
      else match episode.checkpoints primaryHorizonSeconds with
        | none => (false, true, none)
        | some checkpoint => (true, true, checkpoint.netReturn.map fun netReturn => -netReturn)
    | .sizing =>
      match terms.sizeMultiplier with
      | none => (false, false, none)
      | some multiplier =>
        match episode.sizeTrials multiplier, episode.sizeTrials 1 with
        | some trial, some baselineTrial =>
          if (trial.checkpoints primaryHorizonSeconds).isNone || (baselineTrial.checkpoints primaryHorizonSeconds).isNone
          then (false, true, none)
          else (true, true, uplift (episode.sizeTrialValue multiplier primaryHorizonSeconds)
            (episode.sizeTrialValue 1 primaryHorizonSeconds))
        | _, _ => (true, true, none)
    | .exit =>
      match terms.holdSeconds with
      | none => (false, false, none)
      | some selected =>
        match episode.checkpoints selected, episode.checkpoints terms.baselineHorizon with
        | some selectedCheckpoint, some baselineCheckpoint =>
          (true, true, uplift selectedCheckpoint.netReturn baselineCheckpoint.netReturn)
        | _, _ => (false, true, none)

/-- Whether the hypothesis speaks of the episode. -/
def relevant (episode : LearningEvidenceEpisode) : Bool := (terms.hypothesisObservationValue episode).2.1

def coachPolicyContract (episode : LearningEvidenceEpisode) : Bool :=
  (episode.policyIdentity.any fun identity => identity.1.isSome && identity.2 ≠ "") &&
    terms.cutoffAt < episode.createdAt && terms.cutoffAt < episode.entryAt && episode.createdAt = episode.entryAt &&
    episode.riskMode = terms.riskMode &&
    episode.configurationFingerprint = some terms.configurationFingerprint &&
    episode.baselineVersion = terms.baselineVersion &&
    episode.featureSchemaVersion = terms.featureSchemaVersion &&
    episode.activeSkillVersions = terms.dependencyVersions

/-- How long after the entry the outcome may become known. -/
def horizon : ℕ :=
  if terms.skill = .exit then max (terms.holdSeconds.getD primaryHorizonSeconds) terms.baselineHorizon
  else primaryHorizonSeconds

/-- The horizons whose checkpoints decide. -/
def horizons : List ℕ :=
  if terms.skill = .exit then terms.holdSeconds.toList ++ [terms.baselineHorizon] else [primaryHorizonSeconds]

def relevantCheckpoints (episode : LearningEvidenceEpisode) : List LearningCheckpoint :=
  if terms.skill = .sizing then
    (1 :: terms.sizeMultiplier.toList).flatMap fun multiplier =>
      match episode.sizeTrials multiplier with
      | none => []
      | some trial => terms.horizons.filterMap trial.checkpoints
  else terms.horizons.filterMap episode.checkpoints

/-- A checkpoint that decides lies in the future. -/
def future (episode : LearningEvidenceEpisode) (now : Instant) : Bool :=
  (terms.relevantCheckpoints episode).any fun checkpoint => now < checkpoint.observedAt

end Terms

/-! ### Enrolment -/

/-- Where an episode stands in the order. -/
def position (episode : LearningEvidenceEpisode) : Position := toLex (episode.createdAt, episode.episodeId)

/-- The order in which episodes are gone through. -/
def notAfter (episode episode' : LearningEvidenceEpisode) : Prop := position episode ≤ position episode'

instance : DecidableRel notAfter := fun episode episode' => inferInstanceAs (Decidable (position episode ≤ position episode'))

instance : Std.Total notAfter := ⟨fun episode episode' => le_total (position episode) (position episode')⟩

instance : IsTrans LearningEvidenceEpisode notAfter := ⟨fun _ _ _ h h' => le_trans h h'⟩

def enrolment (episode : LearningEvidenceEpisode) : CoachForwardEvidence where
  episodeId := episode.episodeId
  identity := episode.policyIdentityKey
  entryAt := episode.entryAt
  seasonId := episode.seasonId.getD ""

def holdsReservation (identities : PolicyIdentities) (key : PolicyIdentityKey) (episode : LearningEvidenceEpisode) : Bool :=
  episode.matchesPolicyIdentity ((identities key).getD (none, ""))

/-- `coach_policy_page`, what it returns. -/
structure PolicyPage where
  episodes : List LearningEvidenceEpisode
  identities : PolicyIdentities
  cursor : Position
  gap : Bool

/-- What the loops of `_evaluate_policy_hypothesis` carry: the enrolments and the counts. -/
abbrev Collected := List CoachForwardEvidence × CollectionCounts

/-- One episode of a page. -/
def Terms.enrol (terms : Terms) (identities : PolicyIdentities) (after : Position) (collected : Collected)
    (episode : LearningEvidenceEpisode) : Collected :=
  let (enrolled, counts) := collected
  if position episode ≤ after ∨ maximumForwardObserved ≤ enrolled.length then collected
  else
    let counts := { counts with scanned := counts.scanned + 1 }
    if !terms.coachPolicyContract episode then
      (enrolled, { counts with contextExcluded := counts.contextExcluded + 1 })
    else if !holdsReservation identities episode.policyIdentityKey episode ||
        decide (episode.policyIdentityKey ∈ enrolled.map CoachForwardEvidence.identity) then
      (enrolled, { counts with identityExcluded := counts.identityExcluded + 1 })
    else if !terms.relevant episode then
      (enrolled, { counts with conditionExcluded := counts.conditionExcluded + 1 })
    else (enrolled ++ [enrolment episode], counts)

/-! ### Resolution -/

namespace PolicyPage

variable (page : PolicyPage)

/-- `by_id.get`. -/
def episode? (episodeId : String) : Option LearningEvidenceEpisode :=
  page.episodes.find? fun episode => episode.episodeId = episodeId

/-- Whether the episode is still the one that was enrolled. -/
def unchanged (terms : Terms) (item : CoachForwardEvidence) (episode : LearningEvidenceEpisode) : Bool :=
  terms.coachPolicyContract episode && episode.policyIdentityKey = item.identity &&
    episode.matchesPolicyIdentity (some item.entryAt, item.episodeId) &&
    holdsReservation page.identities item.identity episode

/-- An enrolment whose episode is gone. -/
def missing (item : CoachForwardEvidence) : Bool := !item.resolved && (page.episode? item.episodeId).isNone

/-- An enrolment whose episode has changed. -/
def changed (terms : Terms) (item : CoachForwardEvidence) : Bool :=
  !item.resolved && (page.episode? item.episodeId).any fun episode => !page.unchanged terms item episode

/-- An enrolment is looked at again. -/
def settle (terms : Terms) (now : Instant) (item : CoachForwardEvidence) : CoachForwardEvidence :=
  if item.resolved then item
  else match page.episode? item.episodeId with
    | none => { item with resolved := true }
    | some episode =>
      if !page.unchanged terms item episode then { item with resolved := true }
      else
        let (resolved, relevant, value) := terms.hypothesisObservationValue episode
        let future := terms.future episode now
        let resolved := resolved && !future
        if resolved = true ∨ item.entryAt + seconds (terms.horizon + checkpointGraceSeconds) < now then
          { item with resolved := true, value := if resolved && relevant then value else none }
        else item

end PolicyPage

/-! ### Evidence -/

/-- The enrolments before the first that is not resolved. -/
def resolvedPrefix (enrolled : List CoachForwardEvidence) : List CoachForwardEvidence :=
  enrolled.takeWhile fun item => item.resolved

/-- The values that are known among the resolved enrolments. -/
def usableValues (enrolled : List CoachForwardEvidence) : List ℚ :=
  (resolvedPrefix enrolled).filterMap CoachForwardEvidence.value

/-- The seasons of these values. -/
def usableSeasons (enrolled : List CoachForwardEvidence) : List String :=
  ((resolvedPrefix enrolled).filter fun item => item.value.isSome).map CoachForwardEvidence.seasonId

/-- `_mean_bounds`, of values that there are: those of one value are `1` away from it. -/
def meanBounds : List ℚ → Option Interval
  | [value] => some ⟨value, 1⟩
  | values => MeanBounds.interval zScore values

/-- What `_finish_forward_evidence` concludes: the state and the reason. -/
def Terms.conclude (terms : Terms) (observed usable seasons : ℕ) (uplift : Option Interval) (now : Instant) :
    CoachExperimentState × Option String :=
  let availability : ℚ := if observed = 0 then 0 else usable / observed
  if terms.minimumForwardSamples ≤ usable ∧ terms.minimumAvailabilityFraction ≤ availability ∧
      minimumForwardSeasons ≤ seasons ∧ uplift.any (·.lowerAbove minimumUplift) then
    (.promising, some "forward_proof_supported")
  else if rejectionSamples ≤ usable ∧ uplift.any (·.upperAtMost 0) then
    (.notSupported, some "forward_evidence_not_supported")
  else if maximumForwardObserved ≤ observed then (.inconclusive, some "maximum_forward_evidence_reached")
  else if seconds (maximumForwardDays * 86400) ≤ now - terms.createdAt then
    (.inconclusive, some "forward_study_expired")
  else (.testing, none)

namespace CoachHypothesis

variable (hypothesis : CoachHypothesis)

/-- A promising hypothesis of the present schema and of a Baseline that can be learned from may be contributed. -/
def contributionAfter (state : CoachExperimentState) : ContributionState :=
  if state = .promising ∧ hypothesis.baselineVersion ∈ learnableBaselineVersions ∧
      hypothesis.featureSchemaVersion = Challenger.featureSchemaVersion ∧
      hypothesis.evidence.contributionState = .researchOnly then .ready
  else hypothesis.evidence.contributionState

/-- The evidence of `_finish_forward_evidence`. -/
def finished (observationIds : List String) (values : List ℚ) (seasonCounts : List (String × ℕ)) (now : Instant) :
    ForwardEvidence :=
  let observed := observationIds.length
  let usable := values.length
  let uplift := meanBounds values
  let meaningfulSeasons := seasonCounts.countP fun season => minimumSamplesPerSeason ≤ season.2
  let (state, reason) := hypothesis.conclude observed usable meaningfulSeasons uplift now
  { state
    forwardObservedCount := observed
    forwardUsableCount := usable
    forwardAvailabilityFraction := if observed = 0 then 0 else usable / observed
    forwardSeasonCount := meaningfulSeasons
    forwardUplift := uplift
    forwardObservationIds := observationIds
    forwardValues := values
    forwardSeasonCounts := seasonCounts
    resolvedAt := if state = .testing then none else some now
    resolutionReason := reason
    contributionState := hypothesis.contributionAfter state }

/-- `_finish_forward_evidence`. A hypothesis whose evidence has not changed is left alone. -/
def finishForwardEvidence (observationIds : List String) (values : List ℚ) (seasonCounts : List (String × ℕ))
    (now : Instant) : CoachHypothesis :=
  let evidence := hypothesis.finished observationIds values seasonCounts now
  if hypothesis.evidence = evidence then hypothesis
  else { hypothesis with updatedAt := now, lastEvaluatedAt := some now, evidence }

/-- Where the next page starts: above all episodes of the cutoff at first. -/
def after : Position := hypothesis.collection.forwardCursor.getD (toLex (hypothesis.cutoffAt, "\uffff"))

/-- The enrolments and the counts once a page was gone through, before anything is resolved. -/
def enrolPage (page : PolicyPage) : Collected :=
  (page.episodes.insertionSort notAfter).foldl (hypothesis.enrol page.identities hypothesis.after)
    (hypothesis.collection.forwardEnrollments, hypothesis.collection.collectionCounts)

/-- The enrolments and the counts after a page. -/
def collected (page : PolicyPage) (now : Instant) : Collected :=
  let (enrolled, counts) := hypothesis.enrolPage page
  let settled := enrolled.map (page.settle hypothesis.toTerms now)
  (settled,
    { counts with
      missingEnrolled := counts.missingEnrolled + enrolled.countP page.missing
      changedEnrolled := counts.changedEnrolled + enrolled.countP (page.changed hypothesis.toTerms)
      enrolled := some settled.length
      pending := some (settled.countP fun item => !item.resolved) })

/-- A hypothesis that is given up. -/
def inconclusive (now : Instant) (reason : String) : CoachHypothesis :=
  { hypothesis with
    updatedAt := now
    evidence := { hypothesis.evidence with
      state := .inconclusive
      resolvedAt := some now
      resolutionReason := some reason } }

def evaluatePolicyHypothesis (page : PolicyPage) (now : Instant) : CoachHypothesis :=
  if hypothesis.evidence.state ≠ .testing then hypothesis
  else if page.gap = true ∧ hypothesis.collection.forwardEnrollments.length < maximumForwardObserved then
    hypothesis.inconclusive now "policy_history_gap"
  else
    let (enrolled, counts) := hypothesis.collected page now
    let updated := hypothesis.finishForwardEvidence ((resolvedPrefix enrolled).map CoachForwardEvidence.episodeId)
      (usableValues enrolled) (Selection.tally (usableSeasons enrolled)) now
    let collection : ForwardCollection := ⟨enrolled, some page.cursor, counts⟩
    if updated.collection = collection then updated else { updated with updatedAt := now, collection }

end CoachHypothesis

end SignalArcade.Study
