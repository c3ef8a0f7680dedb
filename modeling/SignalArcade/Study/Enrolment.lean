import SignalArcade.Study.Hypothesis
import SignalArcade.Challenger.PolicySelection
import SignalArcade.Lib.Paging

/-!
# The enrolments of a study

A hypothesis is tested by pages of policy evidence: `coach_policy_page` reads the episodes above
the cursor and those of the pending enrolments, and `_evaluate_policy_hypothesis` goes through
them. Between two evaluations episodes are inserted, in the order of their times, and the outcomes
of any are written.
-/

namespace SignalArcade.Study

open Paper (Instant)
open CoachForwardEvidence List
open Challenger (primaryHorizonSeconds LearningEvidenceEpisode LearningEvidenceLane ChallengerSizeTrial Checkpoints PolicyIdentities
  PolicyIdentityKey resolve resolve_episodeId resolve_policyIdentityKey resolve_entryAt resolve_matchesPolicyIdentity)
open Runs Selection

/-! ### What does not depend on outcomes -/

section resolve

variable {episodeId : String} {checkpoints : Checkpoints} {sizeTrials : ℚ → Option ChallengerSizeTrial}
  {episode : LearningEvidenceEpisode}

theorem resolve_lane : (resolve episodeId checkpoints sizeTrials episode).lane = episode.lane := by
  unfold resolve
  split_ifs <;> rfl

theorem resolve_position : position (resolve episodeId checkpoints sizeTrials episode) = position episode := by
  unfold resolve
  split_ifs <;> rfl

theorem resolve_enrolment : enrolment (resolve episodeId checkpoints sizeTrials episode) = enrolment episode := by
  unfold resolve
  split_ifs <;> rfl

theorem resolve_coachPolicyContract {terms : Terms} :
    terms.coachPolicyContract (resolve episodeId checkpoints sizeTrials episode) = terms.coachPolicyContract episode := by
  unfold resolve
  split_ifs <;> rfl

theorem relevant_eq {terms : Terms} : terms.relevant episode =
    (decide (episode.baselineAction = .enter) && episode.baselineActionable && match terms.skill with
      | .entry | .manipulation => terms.matchesFeatures episode.features
      | .sizing => terms.sizeMultiplier.isSome
      | .exit => terms.holdSeconds.isSome) := by
  unfold Terms.relevant Terms.hypothesisObservationValue
  by_cases henter : episode.baselineAction = .enter
  · by_cases hactionable : episode.baselineActionable = true
    · rw [if_neg (by simp [henter, hactionable]), henter, hactionable]
      cases terms.skill with
      | entry => cases terms.matchesFeatures episode.features <;> cases episode.checkpoints primaryHorizonSeconds <;> rfl
      | manipulation =>
        cases terms.matchesFeatures episode.features <;> cases episode.checkpoints primaryHorizonSeconds <;> rfl
      | sizing =>
        cases terms.sizeMultiplier with
        | none => rfl
        | some multiplier =>
          dsimp only
          split
          · split_ifs <;> rfl
          · rfl
      | exit =>
        cases terms.holdSeconds with
        | none => rfl
        | some selected =>
          dsimp only
          split <;> rfl
    · simp [hactionable]
  · simp [henter]

theorem resolve_relevant {terms : Terms} :
    terms.relevant (resolve episodeId checkpoints sizeTrials episode) = terms.relevant episode := by
  rw [relevant_eq, relevant_eq]
  unfold resolve
  split_ifs <;> rfl

theorem filter_lane_resolve (rows : List LearningEvidenceEpisode) :
    (rows.map (resolve episodeId checkpoints sizeTrials)).filter (fun row => row.lane = .policy) =
      (rows.filter fun row => row.lane = .policy).map (resolve episodeId checkpoints sizeTrials) := by
  rw [filter_map]
  congr 1
  apply filter_congr
  intro row _
  rw [Function.comp_apply, resolve_lane]

end resolve

/-! ### The store -/

/-- What the pages are read from. -/
structure PolicyStore where
  /-- `learning_evidence_episodes`, in the order of their insertion. -/
  rows : List LearningEvidenceEpisode
  /-- `coach_policy_pruned_through`. -/
  prunedThrough : Option Position := none
  /-- No two rows have the same identifier. -/
  distinct : (rows.map LearningEvidenceEpisode.episodeId).Nodup
  increasing : (rows.filter fun row => row.lane = .policy).Pairwise fun row row' => position row < position row'

namespace PolicyStore

variable (store : PolicyStore)

/-- The rows that pages are made of. -/
def policyRows : List LearningEvidenceEpisode := store.rows.filter fun row => row.lane = .policy

/-- The row of an identifier. -/
def get? (episodeId : String) : Option LearningEvidenceEpisode :=
  store.rows.find? fun row => row.episodeId = episodeId

/-- An episode is new, and above those of its lane. -/
def Accepts (episode : LearningEvidenceEpisode) : Prop :=
  episode.episodeId ∉ store.rows.map LearningEvidenceEpisode.episodeId ∧
    (episode.lane = .policy → ∀ row ∈ store.policyRows, position row < position episode)

instance (episode : LearningEvidenceEpisode) : Decidable (store.Accepts episode) :=
  inferInstanceAs (Decidable (_ ∧ _))

/-- A row is inserted, in the order of its lane. -/
def insert (episode : LearningEvidenceEpisode) : PolicyStore :=
  if h : store.Accepts episode then
    { store with
      rows := store.rows ++ [episode]
      distinct := by
        rw [map_append, nodup_append]
        refine ⟨store.distinct, nodup_singleton _, ?_⟩
        rintro a ha b hb rfl
        exact h.1 (mem_singleton.mp hb ▸ ha)
      increasing := by
        rw [filter_append]
        by_cases hlane : episode.lane = .policy
        · rw [pairwise_append]
          refine ⟨store.increasing, by simp [hlane], fun row hrow row' hrow' => ?_⟩
          rw [mem_singleton.mp (mem_of_mem_filter hrow')]
          exact h.2 hlane row hrow
        · simpa [hlane] using store.increasing }
  else store

def writeOutcomes (episodeId : String) (checkpoints : Checkpoints) (sizeTrials : ℚ → Option ChallengerSizeTrial) :
    PolicyStore where
  rows := store.rows.map (resolve episodeId checkpoints sizeTrials)
  prunedThrough := store.prunedThrough
  distinct := by
    have hids : store.rows.map (LearningEvidenceEpisode.episodeId ∘ resolve episodeId checkpoints sizeTrials) =
        store.rows.map LearningEvidenceEpisode.episodeId := map_congr_left fun row _ => resolve_episodeId
    rw [map_map, hids]
    exact store.distinct
  increasing := by
    rw [filter_lane_resolve, pairwise_map]
    refine store.increasing.imp fun hlt => ?_
    rw [resolve_position, resolve_position]
    exact hlt

/-- `coach_policy_page`. It raises when the limit is out of its bounds. -/
def coachPolicyPage (reserved : PolicyIdentities) (hypothesis : CoachHypothesis) (limit : ℕ) : Option PolicyPage :=
  if 1 ≤ limit ∧ limit ≤ 64 then
    let after := hypothesis.after
    let enrolled := hypothesis.collection.forwardEnrollments
    let pending := (enrolled.filter fun item => !item.resolved).map episodeId
    let rows := Paging.page (store.policyRows.map position) after (if enrolled.length < maximumForwardObserved then limit else 0)
    let ids := firstPer id (rows.map (fun place => (ofLex place).2) ++ pending)
    let episodes := ids.filterMap store.get?
    some
      { episodes
        identities := fun key => if key ∈ episodes.map LearningEvidenceEpisode.policyIdentityKey then reserved key else none
        cursor := Paging.next rows after
        gap := store.prunedThrough.any fun prunedThrough => after < prunedThrough }
  else none

end PolicyStore

/-! ### Runs -/

/-- A hypothesis, and the store that it is tested on. -/
structure Tested where
  store : PolicyStore
  hypothesis : CoachHypothesis

/-- What happens to the store, and the hypothesis. -/
inductive Action where
  | insert (episode : LearningEvidenceEpisode)
  | writeOutcomes (episodeId : String) (checkpoints : Checkpoints) (sizeTrials : ℚ → Option ChallengerSizeTrial)
  /-- A page is read, and gone through at a time of the clock. -/
  | evaluate (limit : ℕ) (now : Instant)

/-- One action. What raises changes nothing. -/
def Tested.step (reserved : PolicyIdentities) (s : Tested) : Action → Tested
  | .insert episode => { s with store := s.store.insert episode }
  | .writeOutcomes episodeId checkpoints sizeTrials =>
    { s with store := s.store.writeOutcomes episodeId checkpoints sizeTrials }
  | .evaluate limit now =>
    match s.store.coachPolicyPage reserved s.hypothesis limit with
    | none => s
    | some page => { s with hypothesis := s.hypothesis.evaluatePolicyHypothesis page now }

def Terms.proposed (terms : Terms) (updatedAt : Instant) : CoachHypothesis := { terms with updatedAt := updatedAt }

/-! ### What the enrolments are to be -/

/-- An enrolment as it was made. -/
def CoachForwardEvidence.opened (item : CoachForwardEvidence) : CoachForwardEvidence :=
  { item with resolved := false, value := none }

/-- An episode that is to be enrolled, unless its identity is there already: it is after the cutoff and fits the
contract, holds the reservation of its identity, and is one the hypothesis speaks of. -/
def Terms.admits (terms : Terms) (reserved : PolicyIdentities) (episode : LearningEvidenceEpisode) : Bool :=
  terms.coachPolicyContract episode && holdsReservation reserved episode.policyIdentityKey episode && terms.relevant episode

/-- The enrolments of some rows: of each identity the first, and no more than the maximum. -/
def Terms.enrolments (terms : Terms) (reserved : PolicyIdentities) (rows : List LearningEvidenceEpisode) :
    List CoachForwardEvidence :=
  ((firstPer LearningEvidenceEpisode.policyIdentityKey (rows.filter (terms.admits reserved))).map enrolment).take
    maximumForwardObserved

/-- What makes a hypothesis promising, of its enrolments. -/
structure Supported (terms : Terms) (enrolled : List CoachForwardEvidence) : Prop where
  samples : terms.minimumForwardSamples ≤ (usableValues enrolled).length
  available : terms.minimumAvailabilityFraction ≤ ((usableValues enrolled).length : ℚ) / (resolvedPrefix enrolled).length
  seasons : minimumForwardSeasons ≤ ((usableSeasons enrolled).toFinset.filter fun season =>
    minimumSamplesPerSeason ≤ (usableSeasons enrolled).count season).card
  uplift : ∃ bounds, meanBounds (usableValues enrolled) = some bounds ∧ (minimumUplift : ℝ) < bounds.lower

/-- What holds of a study in every state of a run. -/
structure Tested.Sound (reserved : PolicyIdentities) (s : Tested) : Prop where
  /-- The enrolments are a prefix of those of the store. -/
  enrolled : s.hypothesis.collection.forwardEnrollments.map opened <+:
    s.hypothesis.enrolments reserved s.store.policyRows
  /-- Once the cursor has passed the last row they are all of them. -/
  complete : (∀ row ∈ s.store.policyRows, position row ≤ s.hypothesis.after) →
    s.hypothesis.collection.forwardEnrollments.map opened =
      s.hypothesis.enrolments reserved s.store.policyRows
  unresolved : ∀ item ∈ s.hypothesis.collection.forwardEnrollments, item.resolved = false → item.value = none
  /-- What counts is the longest resolved prefix. -/
  observed : s.hypothesis.evidence.forwardObservationIds =
    (resolvedPrefix s.hypothesis.collection.forwardEnrollments).map episodeId
  values : s.hypothesis.evidence.forwardValues = usableValues s.hypothesis.collection.forwardEnrollments
  /-- Nothing is promising unless this prefix proves it. -/
  promising : s.hypothesis.evidence.state = .promising →
    Supported s.hypothesis.toTerms s.hypothesis.collection.forwardEnrollments

/-- What a run keeps of a study. -/
structure Tested.Keeps (s t : Tested) : Prop where
  terms : t.hypothesis.toTerms = s.hypothesis.toTerms
  /-- An enrolment stays in its place, and once it is resolved it stays as it is. -/
  enrolled : ∀ (i : ℕ) item, s.hypothesis.collection.forwardEnrollments[i]? = some item →
    ∃ item' : CoachForwardEvidence, t.hypothesis.collection.forwardEnrollments[i]? = some item' ∧ item'.opened = item.opened ∧
      (item.resolved = true → item' = item)
  /-- What counts only grows at its end. -/
  observed : s.hypothesis.evidence.forwardObservationIds <+: t.hypothesis.evidence.forwardObservationIds

/-! ### Resolution -/

variable {terms : Terms} {page : PolicyPage} {now : Instant} {item : CoachForwardEvidence}
  {enrolled : List CoachForwardEvidence} {reserved : PolicyIdentities} {rows : List LearningEvidenceEpisode}
  {episode : LearningEvidenceEpisode} {hypothesis : CoachHypothesis}

theorem settle_of_resolved (h : item.resolved = true) : page.settle terms now item = item := if_pos h

theorem settle_opened : (page.settle terms now item).opened = item.opened := by
  unfold PolicyPage.settle
  split_ifs
  · rfl
  · split
    · rfl
    · dsimp only
      split_ifs <;> rfl

theorem settle_value (h : item.resolved = false → item.value = none)
    (hresolved : (page.settle terms now item).resolved = false) : (page.settle terms now item).value = none := by
  by_cases hitem : item.resolved = true
  · rw [settle_of_resolved hitem] at hresolved ⊢
    exact h hresolved
  · unfold PolicyPage.settle at hresolved ⊢
    rw [if_neg hitem] at hresolved ⊢
    split at hresolved
    · cases hresolved
    · dsimp only at hresolved ⊢
      split_ifs at hresolved ⊢
      · exact h hresolved

theorem resolvedPrefix_grows {f : CoachForwardEvidence → CoachForwardEvidence}
    (hf : ∀ item : CoachForwardEvidence, item.resolved = true → f item = item) (enrolled new : List CoachForwardEvidence) :
    resolvedPrefix enrolled <+: resolvedPrefix ((enrolled ++ new).map f) := by
  unfold resolvedPrefix
  induction enrolled with
  | nil => exact nil_prefix
  | cons item enrolled ih =>
    rw [cons_append, map_cons]
    by_cases hitem : item.resolved = true
    · rw [takeWhile_cons_of_pos hitem, hf item hitem, takeWhile_cons_of_pos hitem]
      exact (prefix_cons_inj item).mpr ih
    · rw [takeWhile_cons_of_neg hitem]
      exact nil_prefix

/-! ### Enrolment -/

/-- What is enrolled stays, and what comes after it is not resolved. -/
def Extends (enrolled enrolled' : List CoachForwardEvidence) : Prop :=
  ∃ new, enrolled' = enrolled ++ new ∧ ∀ item ∈ new, item.resolved = false ∧ item.value = none

theorem Extends.refl (enrolled : List CoachForwardEvidence) : Extends enrolled enrolled :=
  ⟨[], (append_nil _).symm, fun _ h => absurd h not_mem_nil⟩

theorem Extends.trans {a b c : List CoachForwardEvidence} (h : Extends a b) (h' : Extends b c) : Extends a c := by
  obtain ⟨new, rfl, hnew⟩ := h
  obtain ⟨new', rfl, hnew'⟩ := h'
  refine ⟨new ++ new', append_assoc _ _ _, fun item hitem => ?_⟩
  rcases mem_append.mp hitem with hmem | hmem
  · exact hnew item hmem
  · exact hnew' item hmem

theorem enrol_extends (identities : PolicyIdentities) (after : Position) (collected : Collected)
    (episode : LearningEvidenceEpisode) : Extends collected.1 (terms.enrol identities after collected episode).1 := by
  unfold Terms.enrol
  dsimp only
  split_ifs
  · exact .refl _
  · exact .refl _
  · exact .refl _
  · exact .refl _
  · exact ⟨[enrolment episode], rfl, fun item hitem => by
      rw [mem_singleton.mp hitem]
      exact ⟨rfl, rfl⟩⟩

theorem enrolPage_extends (hypothesis : CoachHypothesis) (page : PolicyPage) :
    Extends hypothesis.collection.forwardEnrollments (hypothesis.enrolPage page).1 := by
  unfold CoachHypothesis.enrolPage
  refine foldlRecOn (motive := fun collected : Collected =>
    Extends hypothesis.collection.forwardEnrollments collected.1) _ _ (.refl _) fun collected h episode _ => ?_
  exact h.trans (enrol_extends _ _ _ _)

theorem enrolments_prefix_append (terms : Terms) (reserved : PolicyIdentities) (rows rows' : List LearningEvidenceEpisode) :
    terms.enrolments reserved rows <+: terms.enrolments reserved (rows ++ rows') := by
  unfold Terms.enrolments
  rw [filter_append]
  exact ((firstPer_prefix_append _ _ _).map _).take _

theorem enrolments_concat_of_not_admits (h : terms.admits reserved episode = false) :
    terms.enrolments reserved (rows ++ [episode]) = terms.enrolments reserved rows := by
  unfold Terms.enrolments
  rw [filter_append, filter_singleton, h, cond_false, append_nil]

theorem map_identity_enrolment (rows : List LearningEvidenceEpisode) :
    (rows.map enrolment).map identity = rows.map LearningEvidenceEpisode.policyIdentityKey := by
  rw [map_map]
  rfl

theorem enrolments_concat (hadmits : terms.admits reserved episode = true) :
    terms.enrolments reserved (rows ++ [episode]) =
      if maximumForwardObserved ≤ (terms.enrolments reserved rows).length ∨
        episode.policyIdentityKey ∈ (terms.enrolments reserved rows).map identity then
        terms.enrolments reserved rows
      else terms.enrolments reserved rows ++ [enrolment episode] := by
  unfold Terms.enrolments
  rw [filter_append, filter_singleton, hadmits, cond_true, firstPer_concat]
  by_cases hfull : maximumForwardObserved ≤
      (firstPer LearningEvidenceEpisode.policyIdentityKey (rows.filter (terms.admits reserved))).length
  · have hlength : maximumForwardObserved ≤ (((firstPer LearningEvidenceEpisode.policyIdentityKey
        (rows.filter (terms.admits reserved))).map enrolment).take maximumForwardObserved).length := by
      rw [length_take, length_map]
      exact le_min le_rfl hfull
    rw [if_pos (Or.inl hlength : _ ∨ episode.policyIdentityKey ∈ _)]
    split_ifs
    · rfl
    · rw [map_append, take_append_of_le_length (by rwa [length_map])]
  · -- all of them are enrolled, so their identities are those of the rows
    have hall : ((firstPer LearningEvidenceEpisode.policyIdentityKey (rows.filter (terms.admits reserved))).map
        enrolment).take maximumForwardObserved =
        (firstPer LearningEvidenceEpisode.policyIdentityKey (rows.filter (terms.admits reserved))).map enrolment :=
      take_of_length_le (by rw [length_map]; omega)
    rw [hall, map_identity_enrolment, length_map]
    by_cases hknown : episode.policyIdentityKey ∈
        (rows.filter (terms.admits reserved)).map LearningEvidenceEpisode.policyIdentityKey
    · rw [if_pos hknown, hall, if_pos (.inr (mem_map_firstPer.mpr hknown))]
    · rw [if_neg hknown, if_neg (not_or.mpr ⟨hfull, mt mem_map_firstPer.mp hknown⟩), map_append]
      exact take_of_length_le (by rw [length_append, length_map, length_map, length_singleton]; omega)

theorem enrol_opened {identities : PolicyIdentities} {after : Position} {collected : Collected}
    (h : collected.1.map opened = terms.enrolments reserved rows) (hafter : after < position episode)
    (hreserved : identities episode.policyIdentityKey = reserved episode.policyIdentityKey) :
    (terms.enrol identities after collected episode).1.map opened =
      terms.enrolments reserved (rows ++ [episode]) := by
  obtain ⟨enrolled, counts⟩ := collected
  have hlength : enrolled.length = (terms.enrolments reserved rows).length := by
    rw [← h, length_map]
  have hidentities : enrolled.map identity =
      (terms.enrolments reserved rows).map identity := by
    rw [← h, map_map]
    rfl
  have hholds : holdsReservation identities episode.policyIdentityKey episode =
      holdsReservation reserved episode.policyIdentityKey episode := by
    unfold holdsReservation
    rw [hreserved]
  unfold Terms.enrol
  dsimp only
  cases hadmits : terms.admits reserved episode with
  | false =>
    rw [enrolments_concat_of_not_admits hadmits, ← h]
    split_ifs with hskip hcontract hidentity hrelevant
    · rfl
    · rfl
    · rfl
    · rfl
    · -- it would have been admitted
      rw [hholds] at hidentity
      simp only [Bool.not_eq_true', Bool.or_eq_true, decide_eq_true_eq, not_or, Bool.not_eq_false] at *
      simp [Terms.admits, hcontract, hidentity.1, hrelevant] at hadmits
  | true =>
    rw [enrolments_concat hadmits, ← hlength, ← hidentities]
    simp only [Terms.admits, Bool.and_eq_true] at hadmits
    by_cases hfull : maximumForwardObserved ≤ enrolled.length
    · rw [if_pos (.inr hfull), if_pos (.inl hfull)]
      exact h
    · rw [if_neg (not_or.mpr ⟨not_le.mpr hafter, hfull⟩), hholds]
      by_cases hknown : episode.policyIdentityKey ∈ enrolled.map identity
      · simp [hadmits, hfull, hknown, h]
      · simp [hadmits, hfull, hknown, h]
        rfl

theorem foldl_enrol_opened {identities : PolicyIdentities} {after : Position} {collected : Collected}
    (h : collected.1.map opened = terms.enrolments reserved rows)
    {episodes : List LearningEvidenceEpisode} (hafter : ∀ episode ∈ episodes, after < position episode)
    (hreserved : ∀ episode ∈ episodes, identities episode.policyIdentityKey = reserved episode.policyIdentityKey) :
    (episodes.foldl (terms.enrol identities after) collected).1.map opened =
      terms.enrolments reserved (rows ++ episodes) := by
  induction episodes generalizing collected rows with
  | nil => rw [append_nil, foldl_nil, h]
  | cons episode episodes ih =>
    rw [forall_mem_cons] at hafter hreserved
    rw [foldl_cons, append_cons]
    exact ih (enrol_opened h hafter.1 hreserved.1) hafter.2 hreserved.2

theorem foldl_enrol_filter (identities : PolicyIdentities) (after : Position) (collected : Collected)
    (episodes : List LearningEvidenceEpisode) : episodes.foldl (terms.enrol identities after) collected =
      (episodes.filter fun episode => after < position episode).foldl (terms.enrol identities after) collected := by
  induction episodes generalizing collected with
  | nil => rfl
  | cons episode episodes ih =>
    by_cases hafter : after < position episode
    · rw [filter_cons_of_pos (by simpa using hafter), foldl_cons, foldl_cons, ih]
    · have hskip : terms.enrol identities after collected episode = collected := by
        unfold Terms.enrol
        dsimp only
        rw [if_pos (.inl (not_lt.mp hafter))]
      rw [filter_cons_of_neg (by simpa using hafter), foldl_cons, hskip, ih]

/-! ### Pages -/

variable {store : PolicyStore} {limit : ℕ}

theorem get?_eq_some {episodeId : String} : store.get? episodeId = some episode ↔
    episode ∈ store.rows ∧ episode.episodeId = episodeId := by
  unfold PolicyStore.get?
  constructor
  · intro h
    exact ⟨mem_of_find?_eq_some h, by simpa using List.find?_some h⟩
  · rintro ⟨hmem, rfl⟩
    cases hfound : store.rows.find? fun row => row.episodeId = episode.episodeId with
    | none => simpa using List.find?_eq_none.mp hfound episode hmem
    | some row =>
      have hid : row.episodeId = episode.episodeId := by simpa using List.find?_some hfound
      exact congrArg some (inj_on_of_nodup_map store.distinct (mem_of_find?_eq_some hfound) hmem hid)

theorem nodup_filterMap_get? {ids : List String} (h : ids.Nodup) :
    ((ids.filterMap store.get?).map LearningEvidenceEpisode.episodeId).Nodup := by
  have hids : (ids.filterMap store.get?).map LearningEvidenceEpisode.episodeId =
      ids.filter fun episodeId => (store.get? episodeId).isSome := by
    clear h
    induction ids with
    | nil => rfl
    | cons episodeId ids ih =>
      cases hfound : store.get? episodeId with
      | none => simp [hfound, ih]
      | some row => simp [hfound, ih, (get?_eq_some.mp hfound).2]
  rw [hids]
  exact h.filter _

theorem mem_filterMap_get? {ids : List String} :
    episode ∈ ids.filterMap store.get? ↔ episode ∈ store.rows ∧ episode.episodeId ∈ ids := by
  rw [mem_filterMap]
  constructor
  · rintro ⟨episodeId, hmem, hfound⟩
    obtain ⟨hrow, rfl⟩ := get?_eq_some.mp hfound
    exact ⟨hrow, hmem⟩
  · rintro ⟨hrow, hmem⟩
    exact ⟨episode.episodeId, hmem, get?_eq_some.mpr ⟨hrow, rfl⟩⟩

theorem pairwise_policyRows (store : PolicyStore) :
    store.policyRows.Pairwise fun row row' => position row < position row' :=
  store.increasing

theorem mem_rows_of_policyRows (h : episode ∈ store.policyRows) : episode ∈ store.rows := mem_of_mem_filter h

theorem pairwise_insertionSort_position {episodes : List LearningEvidenceEpisode}
    (h : (episodes.map LearningEvidenceEpisode.episodeId).Nodup) :
    (episodes.insertionSort notAfter).Pairwise fun a b => position a < position b := by
  have hids : ((episodes.insertionSort notAfter).map LearningEvidenceEpisode.episodeId).Nodup :=
    ((perm_insertionSort notAfter episodes).map _).nodup_iff.mpr h
  refine ((pairwise_insertionSort notAfter episodes).and (pairwise_map.mp hids)).imp ?_
  rintro a b ⟨hle, hne⟩
  refine lt_of_le_of_ne hle fun heq => hne ?_
  exact congrArg (fun place : Position => (ofLex place).2) heq

theorem eq_of_mem_iff {l l' : List LearningEvidenceEpisode} (h : l.Pairwise fun a b => position a < position b)
    (h' : l'.Pairwise fun a b => position a < position b) (hmem : ∀ a, a ∈ l ↔ a ∈ l') : l = l' := by
  have : Std.Antisymm fun a b : LearningEvidenceEpisode => position a < position b :=
    ⟨fun a b hab hba => absurd hab hba.asymm⟩
  have : Std.Irrefl fun a b : LearningEvidenceEpisode => position a < position b := ⟨fun a => lt_irrefl _⟩
  exact h.eq_of_mem_iff h' hmem

/-- What a page of a store is, for a hypothesis whose enrolments are all below its cursor. -/
structure PolicyPage.Of (page : PolicyPage) (store : PolicyStore) (reserved : PolicyIdentities)
    (hypothesis : CoachHypothesis) : Prop where
  /-- The cursor does not move backwards, and stands at a row once it has moved. -/
  le_cursor : hypothesis.after ≤ page.cursor
  cursor : page.cursor = hypothesis.after ∨ ∃ row ∈ store.policyRows, position row = page.cursor
  /-- Above the old cursor it holds the rows up to the new one, in their order. -/
  fresh : (page.episodes.insertionSort notAfter).filter (fun episode => hypothesis.after < position episode) =
    store.policyRows.filter fun row => hypothesis.after < position row ∧ position row ≤ page.cursor
  identities : ∀ episode ∈ page.episodes, page.identities episode.policyIdentityKey = reserved episode.policyIdentityKey

theorem coachPolicyPage_of (hpage : store.coachPolicyPage reserved hypothesis limit = some page)
    (hpending : ∀ item ∈ hypothesis.collection.forwardEnrollments,
      ∃ row ∈ store.policyRows, row.episodeId = item.episodeId ∧ position row ≤ hypothesis.after) :
    page.Of store reserved hypothesis := by
  unfold PolicyStore.coachPolicyPage at hpage
  split_ifs at hpage
  cases hpage
  constructor
  · exact Paging.le_next _ _ _
  · dsimp only
    rcases Paging.next_mem_or (Paging.page (store.policyRows.map position) hypothesis.after
      (if hypothesis.collection.forwardEnrollments.length < maximumForwardObserved then limit else 0)) hypothesis.after
      with hmem | hsame
    · have hmem' := (mem_insertionSort (· ≤ ·)).mp (mem_of_mem_take hmem)
      obtain ⟨row, hrow, hposition⟩ := mem_map.mp (mem_of_mem_filter hmem')
      exact .inr ⟨row, hrow, hposition⟩
    · exact .inl hsame
  · have hnodup : (firstPer id ((Paging.page (store.policyRows.map position) hypothesis.after
        (if hypothesis.collection.forwardEnrollments.length < maximumForwardObserved then limit else 0)).map
          (fun place => (ofLex place).2) ++ (hypothesis.collection.forwardEnrollments.filter fun item =>
            !item.resolved).map episodeId)).Nodup := by
      simpa using nodup_map_firstPer id _
    refine eq_of_mem_iff ((pairwise_insertionSort_position (nodup_filterMap_get? hnodup)).sublist filter_sublist)
      ((pairwise_policyRows store).sublist filter_sublist) fun episode => ?_
    rw [mem_filter, mem_insertionSort, mem_filterMap_get?, mem_firstPer_id, mem_append, mem_filter,
      decide_eq_true_eq, decide_eq_true_eq]
    constructor
    · rintro ⟨⟨hrow, hfresh | hpend⟩, hafter⟩
      · obtain ⟨place, hplace, hid⟩ := mem_map.mp hfresh
        have hmem := (mem_insertionSort (· ≤ ·)).mp (mem_of_mem_take hplace)
        obtain ⟨row, hpolicy, rfl⟩ := mem_map.mp (mem_of_mem_filter hmem)
        obtain rfl : row = episode := inj_on_of_nodup_map store.distinct (mem_rows_of_policyRows hpolicy) hrow hid
        exact ⟨hpolicy, hafter, Paging.le_next_of_mem hplace⟩
      · -- what is pending lies below the cursor
        obtain ⟨item, hitem, hid⟩ := mem_map.mp hpend
        obtain ⟨row, hpolicy, hrowid, hle⟩ := hpending item (mem_of_mem_filter hitem)
        obtain rfl : row = episode :=
          inj_on_of_nodup_map store.distinct (mem_rows_of_policyRows hpolicy) hrow (hrowid.trans hid)
        exact absurd hafter (not_lt.mpr hle)
    · rintro ⟨hpolicy, hafter, hle⟩
      refine ⟨⟨mem_rows_of_policyRows hpolicy, .inl ?_⟩, hafter⟩
      exact mem_map.mpr ⟨position episode,
        Paging.mem_page_of_le_next (mem_map_of_mem hpolicy) hafter hle, rfl⟩
  · intro episode hepisode
    dsimp only at hepisode ⊢
    rw [if_pos (mem_map_of_mem hepisode)]

/-! ### Evaluations -/

theorem finishForwardEvidence_evidence (hypothesis : CoachHypothesis) (observationIds : List String) (values : List ℚ)
    (seasonCounts : List (String × ℕ)) (now : Instant) :
    (hypothesis.finishForwardEvidence observationIds values seasonCounts now).evidence =
      hypothesis.finished observationIds values seasonCounts now := by
  unfold CoachHypothesis.finishForwardEvidence
  dsimp only
  split_ifs with hsame
  · exact hsame
  · rfl

theorem finishForwardEvidence_frame (hypothesis : CoachHypothesis) (observationIds : List String) (values : List ℚ)
    (seasonCounts : List (String × ℕ)) (now : Instant) :
    (hypothesis.finishForwardEvidence observationIds values seasonCounts now).toTerms = hypothesis.toTerms ∧
      (hypothesis.finishForwardEvidence observationIds values seasonCounts now).contributedArtifactVersion =
        hypothesis.contributedArtifactVersion := by
  unfold CoachHypothesis.finishForwardEvidence
  dsimp only
  split_ifs <;> exact ⟨rfl, rfl⟩

/-- The evidence an evaluation leaves of some enrolments. -/
def CoachHypothesis.evidenceOf (hypothesis : CoachHypothesis) (enrolled : List CoachForwardEvidence) (now : Instant) :
    ForwardEvidence :=
  hypothesis.finished ((resolvedPrefix enrolled).map episodeId) (usableValues enrolled)
    (tally (usableSeasons enrolled)) now

/-- A page was gone through. -/
structure CoachHypothesis.Evaluated (hypothesis : CoachHypothesis) (page : PolicyPage) (now : Instant)
    (updated : CoachHypothesis) : Prop where
  testing : hypothesis.evidence.state = .testing
  terms : updated.toTerms = hypothesis.toTerms
  enrolled : updated.collection.forwardEnrollments =
    (hypothesis.enrolPage page).1.map (page.settle hypothesis.toTerms now)
  cursor : updated.collection.forwardCursor = some page.cursor
  evidence : updated.evidence = hypothesis.evidenceOf updated.collection.forwardEnrollments now

/-- **An evaluation** does nothing, or gives the hypothesis up for a gap, or goes through the page. -/
theorem evaluatePolicyHypothesis_cases (hypothesis : CoachHypothesis) (page : PolicyPage) (now : Instant) :
    hypothesis.evaluatePolicyHypothesis page now = hypothesis ∨
      (hypothesis.evidence.state = .testing ∧
        hypothesis.evaluatePolicyHypothesis page now = hypothesis.inconclusive now "policy_history_gap") ∨
      hypothesis.Evaluated page now (hypothesis.evaluatePolicyHypothesis page now) := by
  unfold CoachHypothesis.evaluatePolicyHypothesis
  by_cases htesting : hypothesis.evidence.state = .testing
  · rw [if_neg (not_not.mpr htesting)]
    split_ifs with hgap
    · exact .inr (.inl ⟨htesting, rfl⟩)
    · refine .inr (.inr ?_)
      have hevidence := finishForwardEvidence_evidence hypothesis
        ((resolvedPrefix (hypothesis.collected page now).1).map episodeId)
        (usableValues (hypothesis.collected page now).1) (tally (usableSeasons (hypothesis.collected page now).1)) now
      have hframe := finishForwardEvidence_frame hypothesis
        ((resolvedPrefix (hypothesis.collected page now).1).map episodeId)
        (usableValues (hypothesis.collected page now).1) (tally (usableSeasons (hypothesis.collected page now).1)) now
      dsimp only
      split_ifs with hsame
      · have henrolled := congrArg ForwardCollection.forwardEnrollments hsame
        refine ⟨htesting, hframe.1, henrolled, congrArg ForwardCollection.forwardCursor hsame, ?_⟩
        rw [henrolled]
        exact hevidence
      · exact ⟨htesting, hframe.1, rfl, rfl, hevidence⟩
  · rw [if_pos htesting]
    exact .inl rfl

theorem meanBounds_square_nonneg {values : List ℚ} {bounds : MeanBounds.Interval} (h : meanBounds values = some bounds) :
    0 ≤ bounds.square := by
  unfold meanBounds at h
  split at h
  · cases h
    exact zero_le_one
  · exact MeanBounds.interval_square_nonneg h

theorem availability_eq (observed usable : ℕ) :
    (if observed = 0 then 0 else (usable : ℚ) / observed) = (usable : ℚ) / observed := by
  split_ifs with h
  · rw [h, Nat.cast_zero, div_zero]
  · rfl

theorem supported_of_promising (h : (hypothesis.evidenceOf enrolled now).state = .promising) :
    Supported hypothesis.toTerms enrolled := by
  have hconclude : (hypothesis.conclude ((resolvedPrefix enrolled).map episodeId).length
      (usableValues enrolled).length ((tally (usableSeasons enrolled)).countP fun season =>
        minimumSamplesPerSeason ≤ season.2) (meanBounds (usableValues enrolled)) now).1 = .promising := h
  unfold Terms.conclude at hconclude
  dsimp only at hconclude
  rw [availability_eq, length_map, countP_tally] at hconclude
  split_ifs at hconclude with hproved
  obtain ⟨hsamples, havailable, hseasons, huplift⟩ := hproved
  refine ⟨hsamples, havailable, hseasons, ?_⟩
  cases hbounds : meanBounds (usableValues enrolled) with
  | none => simp [hbounds] at huplift
  | some bounds =>
    rw [hbounds, Option.any_some, MeanBounds.Interval.lowerAbove_iff (meanBounds_square_nonneg hbounds)] at huplift
    exact ⟨bounds, rfl, huplift⟩

/-! ### What every action keeps -/

/-- What holds of a study in every state of a run, said of the cursor. -/
structure Tested.Inv (reserved : PolicyIdentities) (s : Tested) : Prop where
  /-- The enrolments are those that the rows up to the cursor determine. -/
  enrolled : s.hypothesis.collection.forwardEnrollments.map opened =
    s.hypothesis.enrolments reserved (s.store.policyRows.filter fun row => position row ≤ s.hypothesis.after)
  /-- The cursor stands where it started, or at a row. -/
  cursor : s.hypothesis.after = toLex (s.hypothesis.cutoffAt, "\uffff") ∨
    ∃ row ∈ s.store.policyRows, position row = s.hypothesis.after
  unresolved : ∀ item ∈ s.hypothesis.collection.forwardEnrollments, item.resolved = false → item.value = none
  observed : s.hypothesis.evidence.forwardObservationIds =
    (resolvedPrefix s.hypothesis.collection.forwardEnrollments).map episodeId
  values : s.hypothesis.evidence.forwardValues = usableValues s.hypothesis.collection.forwardEnrollments
  promising : s.hypothesis.evidence.state = .promising →
    Supported s.hypothesis.toTerms s.hypothesis.collection.forwardEnrollments

variable {s t u : Tested} {action : Action}

theorem Tested.Inv.sound (h : s.Inv reserved) : s.Sound reserved where
  enrolled := by
    rw [h.enrolled]
    obtain ⟨later, hlater⟩ := Paging.filter_le_isInitial (pairwise_policyRows s.store) s.hypothesis.after
    have hprefix := enrolments_prefix_append s.hypothesis.toTerms reserved
      (s.store.policyRows.filter fun row => position row ≤ s.hypothesis.after) later
    rwa [hlater] at hprefix
  complete := by
    intro hpassed
    rw [h.enrolled, filter_eq_self.mpr fun row hrow => decide_eq_true (hpassed row hrow)]
  unresolved := h.unresolved
  observed := h.observed
  values := h.values
  promising := h.promising

theorem mem_enrolments (h : item ∈ terms.enrolments reserved rows) :
    ∃ row ∈ rows, terms.admits reserved row = true ∧ enrolment row = item := by
  obtain ⟨row, hrow, rfl⟩ := mem_map.mp (mem_of_mem_take h)
  obtain ⟨hmem, hadmits⟩ := mem_filter.mp ((firstPer_sublist _ _).subset hrow)
  exact ⟨row, hmem, hadmits, rfl⟩

theorem Tested.Inv.row (h : s.Inv reserved) (hitem : item ∈ s.hypothesis.collection.forwardEnrollments) :
    ∃ row ∈ s.store.policyRows, row.episodeId = item.episodeId ∧ position row ≤ s.hypothesis.after := by
  have hopened : item.opened ∈ s.hypothesis.collection.forwardEnrollments.map opened :=
    mem_map_of_mem hitem
  rw [h.enrolled] at hopened
  obtain ⟨row, hrow, -, henrolment⟩ := mem_enrolments hopened
  obtain ⟨hpolicy, hle⟩ := mem_filter.mp hrow
  exact ⟨row, hpolicy, congrArg episodeId henrolment, of_decide_eq_true hle⟩

theorem not_admits_of_le_cutoff (h : position episode ≤ toLex (terms.cutoffAt, "\uffff")) :
    terms.admits reserved episode = false := by
  have hcreated : ¬ terms.cutoffAt < episode.createdAt := by
    rcases Prod.Lex.le_iff.mp h with hlt | ⟨heq, -⟩
    · exact not_lt.mpr (le_of_lt hlt)
    · exact not_lt.mpr heq.le
  simp [Terms.admits, Terms.coachPolicyContract, hcreated]

theorem policyRows_insert (store : PolicyStore) (episode : LearningEvidenceEpisode) :
    (store.insert episode).policyRows = store.policyRows ∨
      ((store.insert episode).policyRows = store.policyRows ++ [episode] ∧
        ∀ row ∈ store.policyRows, position row < position episode) := by
  unfold PolicyStore.insert PolicyStore.policyRows
  split_ifs with haccepts
  · dsimp only
    rw [filter_append]
    by_cases hlane : episode.lane = .policy
    · refine .inr ⟨by simp [hlane], haccepts.2 hlane⟩
    · exact .inl (by simp [hlane])
  · exact .inl rfl

theorem Tested.Inv.insert (h : s.Inv reserved) (episode : LearningEvidenceEpisode) :
    (s.step reserved (.insert episode)).Inv reserved := by
  rcases policyRows_insert s.store episode with hsame | ⟨hrows, habove⟩
  · refine ⟨?_, ?_, h.unresolved, h.observed, h.values, h.promising⟩
    · simp only [Tested.step, hsame]
      exact h.enrolled
    · simp only [Tested.step, hsame]
      exact h.cursor
  · refine ⟨?_, ?_, h.unresolved, h.observed, h.values, h.promising⟩
    · show s.hypothesis.collection.forwardEnrollments.map opened = s.hypothesis.enrolments reserved
        ((s.store.insert episode).policyRows.filter fun row => position row ≤ s.hypothesis.after)
      rw [hrows, filter_append]
      by_cases hle : position episode ≤ s.hypothesis.after
      · -- below the cursor only before a row is read, and then it is not after the cutoff
        have hstart : s.hypothesis.after = toLex (s.hypothesis.cutoffAt, "\uffff") := by
          rcases h.cursor with hstart | ⟨row, hrow, hposition⟩
          · exact hstart
          · exact absurd (hposition ▸ habove row hrow) (not_lt.mpr hle)
        rw [filter_singleton, decide_eq_true hle, cond_true,
          enrolments_concat_of_not_admits (not_admits_of_le_cutoff (hstart ▸ hle))]
        exact h.enrolled
      · rw [filter_singleton, decide_eq_false hle, cond_false, append_nil]
        exact h.enrolled
    · rcases h.cursor with hstart | ⟨row, hrow, hposition⟩
      · exact .inl hstart
      · refine .inr ⟨row, ?_, hposition⟩
        simp only [Tested.step, hrows]
        exact mem_append_left _ hrow

section resolve

variable {episodeId : String} {checkpoints : Checkpoints} {sizeTrials : ℚ → Option ChallengerSizeTrial}

theorem resolve_admits : terms.admits reserved (resolve episodeId checkpoints sizeTrials episode) =
    terms.admits reserved episode := by
  unfold Terms.admits holdsReservation
  rw [resolve_coachPolicyContract, resolve_policyIdentityKey, resolve_matchesPolicyIdentity, resolve_relevant]

theorem enrolments_map_resolve (terms : Terms) (reserved : PolicyIdentities) (rows : List LearningEvidenceEpisode) :
    terms.enrolments reserved (rows.map (resolve episodeId checkpoints sizeTrials)) = terms.enrolments reserved rows := by
  have hadmits : terms.admits reserved ∘ resolve episodeId checkpoints sizeTrials = terms.admits reserved :=
    funext fun episode => resolve_admits
  have henrolment : enrolment ∘ resolve episodeId checkpoints sizeTrials = enrolment :=
    funext fun episode => resolve_enrolment
  unfold Terms.enrolments
  rw [filter_map, hadmits, firstPer_map fun episode => resolve_policyIdentityKey, map_map, henrolment]

theorem policyRows_writeOutcomes (store : PolicyStore) :
    (store.writeOutcomes episodeId checkpoints sizeTrials).policyRows =
      store.policyRows.map (resolve episodeId checkpoints sizeTrials) :=
  filter_lane_resolve store.rows

theorem Tested.Inv.writeOutcomes (h : s.Inv reserved) :
    (s.step reserved (.writeOutcomes episodeId checkpoints sizeTrials)).Inv reserved := by
  refine ⟨?_, ?_, h.unresolved, h.observed, h.values, h.promising⟩
  · have hposition : (fun row => decide (position row ≤ s.hypothesis.after)) ∘ resolve episodeId checkpoints sizeTrials =
        fun row => decide (position row ≤ s.hypothesis.after) := by
      funext row
      rw [Function.comp_apply, resolve_position]
    show s.hypothesis.collection.forwardEnrollments.map opened = s.hypothesis.enrolments reserved
      ((s.store.writeOutcomes episodeId checkpoints sizeTrials).policyRows.filter fun row =>
        position row ≤ s.hypothesis.after)
    rw [policyRows_writeOutcomes, filter_map, hposition, enrolments_map_resolve]
    exact h.enrolled
  · rcases h.cursor with hstart | ⟨row, hrow, hposition⟩
    · exact .inl hstart
    · refine .inr ⟨resolve episodeId checkpoints sizeTrials row, ?_, resolve_position.trans hposition⟩
      show _ ∈ (s.store.writeOutcomes episodeId checkpoints sizeTrials).policyRows
      rw [policyRows_writeOutcomes]
      exact mem_map_of_mem hrow

end resolve

theorem Tested.Inv.enrolPage (h : s.Inv reserved) (hpage : page.Of s.store reserved s.hypothesis) :
    (s.hypothesis.enrolPage page).1.map opened =
      s.hypothesis.enrolments reserved (s.store.policyRows.filter fun row => position row ≤ page.cursor) := by
  unfold CoachHypothesis.enrolPage
  rw [foldl_enrol_filter, hpage.fresh, ← Paging.filter_le_append_between (pairwise_policyRows s.store) hpage.le_cursor]
  refine foldl_enrol_opened h.enrolled ?_ ?_
  · intro episode hmem
    have hbetween := of_mem_filter hmem
    exact (of_decide_eq_true hbetween).1
  · intro episode hmem
    rw [← hpage.fresh] at hmem
    exact hpage.identities episode ((mem_insertionSort notAfter).mp (mem_of_mem_filter hmem))

theorem Tested.Inv.evaluated (h : s.Inv reserved) (hpage : page.Of s.store reserved s.hypothesis)
    {updated : CoachHypothesis} (hupdated : s.hypothesis.Evaluated page now updated) :
    (Tested.mk s.store updated).Inv reserved := by
  have hafter : updated.after = page.cursor := by
    unfold CoachHypothesis.after
    rw [hupdated.cursor, Option.getD_some]
  obtain ⟨new, hextends, hnew⟩ := enrolPage_extends s.hypothesis page
  constructor
  · dsimp only
    have hopened : opened ∘ page.settle s.hypothesis.toTerms now = opened :=
      funext fun item => settle_opened
    rw [hafter, hupdated.terms, ← h.enrolPage hpage, hupdated.enrolled, map_map, hopened]
  · dsimp only
    have hcutoff : updated.cutoffAt = s.hypothesis.cutoffAt := congrArg Terms.cutoffAt hupdated.terms
    rw [hafter, hcutoff]
    rcases hpage.cursor with hsame | hrow
    · rw [hsame]
      exact h.cursor
    · exact .inr hrow
  · intro item hitem
    dsimp only at hitem
    rw [hupdated.enrolled, hextends] at hitem
    obtain ⟨item, hmem, rfl⟩ := mem_map.mp hitem
    refine settle_value ?_
    rcases mem_append.mp hmem with hold | hfresh
    · exact h.unresolved item hold
    · exact fun _ => (hnew item hfresh).2
  · dsimp only
    rw [hupdated.evidence]
    rfl
  · dsimp only
    rw [hupdated.evidence]
    rfl
  · intro hpromising
    dsimp only at hpromising ⊢
    rw [hupdated.evidence] at hpromising
    rw [hupdated.terms]
    exact supported_of_promising hpromising

/-- **Every action** keeps the invariant. -/
theorem Tested.Inv.step (h : s.Inv reserved) (action : Action) : (s.step reserved action).Inv reserved := by
  cases action with
  | insert episode => exact h.insert episode
  | writeOutcomes episodeId checkpoints sizeTrials => exact h.writeOutcomes
  | evaluate limit now =>
    unfold Tested.step
    dsimp only
    cases hpage : s.store.coachPolicyPage reserved s.hypothesis limit with
    | none => exact h
    | some page =>
      have hof := coachPolicyPage_of hpage fun item hitem => h.row hitem
      rcases evaluatePolicyHypothesis_cases s.hypothesis page now with hsame | ⟨-, hgap⟩ | hupdated
      · dsimp only
        rw [hsame]
        exact h
      · dsimp only
        rw [hgap]
        refine ⟨h.enrolled, h.cursor, h.unresolved, h.observed, h.values, fun hpromising => ?_⟩
        cases hpromising
      · exact h.evaluated hof hupdated

/-! ### Runs of a study -/

theorem Tested.Keeps.of_same (hterms : t.hypothesis.toTerms = s.hypothesis.toTerms)
    (hcollection : t.hypothesis.collection = s.hypothesis.collection)
    (hobserved : t.hypothesis.evidence.forwardObservationIds = s.hypothesis.evidence.forwardObservationIds) :
    s.Keeps t := by
  refine ⟨hterms, fun i item hitem => ⟨item, ?_, rfl, fun _ => rfl⟩, ?_⟩
  · rw [hcollection]
    exact hitem
  · rw [hobserved]

theorem Tested.Keeps.refl (s : Tested) : s.Keeps s := .of_same rfl rfl rfl

theorem Tested.Keeps.trans (h : s.Keeps t) (h' : t.Keeps u) : s.Keeps u := by
  refine ⟨h'.terms.trans h.terms, fun i item hitem => ?_, h.observed.trans h'.observed⟩
  obtain ⟨item', hitem', hopened, hresolved⟩ := h.enrolled i item hitem
  obtain ⟨item'', hitem'', hopened', hresolved'⟩ := h'.enrolled i item' hitem'
  refine ⟨item'', hitem'', hopened'.trans hopened, fun hset => ?_⟩
  obtain rfl := hresolved hset
  exact hresolved' hset

theorem Tested.Inv.keeps_evaluated (h : s.Inv reserved) {updated : CoachHypothesis}
    (hupdated : s.hypothesis.Evaluated page now updated) : s.Keeps ⟨s.store, updated⟩ := by
  obtain ⟨new, hextends, -⟩ := enrolPage_extends s.hypothesis page
  have henrolled := hupdated.enrolled
  rw [hextends] at henrolled
  refine ⟨hupdated.terms, fun i item hitem => ?_, ?_⟩
  · refine ⟨page.settle s.hypothesis.toTerms now item, ?_, settle_opened, settle_of_resolved⟩
    have hlt : i < s.hypothesis.collection.forwardEnrollments.length := (List.getElem?_eq_some_iff.mp hitem).1
    show updated.collection.forwardEnrollments[i]? = _
    rw [henrolled, List.getElem?_map, List.getElem?_append_left hlt, hitem]
    rfl
  · show s.hypothesis.evidence.forwardObservationIds <+: updated.evidence.forwardObservationIds
    rw [h.observed, hupdated.evidence]
    show _ <+: (resolvedPrefix updated.collection.forwardEnrollments).map episodeId
    rw [henrolled]
    exact (resolvedPrefix_grows (fun item => settle_of_resolved) _ new).map _

theorem Tested.Inv.keeps_step (h : s.Inv reserved) (action : Action) : s.Keeps (s.step reserved action) := by
  cases action with
  | insert episode => exact .of_same rfl rfl rfl
  | writeOutcomes episodeId checkpoints sizeTrials => exact .of_same rfl rfl rfl
  | evaluate limit now =>
    unfold Tested.step
    dsimp only
    cases hpage : s.store.coachPolicyPage reserved s.hypothesis limit with
    | none => exact .refl s
    | some page =>
      rcases evaluatePolicyHypothesis_cases s.hypothesis page now with hsame | ⟨-, hgap⟩ | hupdated
      · dsimp only
        rw [hsame]
        exact .refl s
      · dsimp only
        rw [hgap]
        exact .of_same rfl rfl rfl
      · exact h.keeps_evaluated hupdated

theorem Tested.Inv.run (h : s.Inv reserved) (actions : List Action) :
    (run (Tested.step reserved) s actions).Inv reserved ∧ s.Keeps (run (Tested.step reserved) s actions) :=
  run_invariant (I := fun t => t.Inv reserved ∧ s.Keeps t) ⟨h, .refl s⟩ fun _ action ht =>
    ⟨ht.1.step action, ht.2.trans (ht.1.keeps_step action)⟩

end SignalArcade.Study
