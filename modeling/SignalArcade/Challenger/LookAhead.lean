import SignalArcade.Challenger.Training

/-!
# No look-ahead

What a trainer learns from was observed by the start of its validation, and what it is proved on
was entered no earlier: `training_no_look_ahead`. A market that Discovery learns from proves
nothing on the Policy lane. In two runs, `SameUntil` compares stores that differ in outcomes
observed later: on the same split the parameters are the same.
-/

namespace SignalArcade.Challenger

open Paper (Instant RiskMode DecisionAction)
open LearningEngine List
open Selection

/-- The trials of the episodes are together with them. -/
def LearningEngine.TrialsFollow (engine : LearningEngine) : Prop :=
  ∀ episode ∈ engine.evidenceEpisodes, episode.TrialsFollow

/-! ### What is known by a time -/

def Checkpoints.until (time : Instant) (checkpoints : Checkpoints) : Checkpoints := fun horizon =>
  (checkpoints horizon).filter fun checkpoint => checkpoint.observedAt ≤ time

def LearningObservation.until (time : Instant) (observation : LearningObservation) : LearningObservation :=
  { observation with
    checkpoints := observation.checkpoints.until time
    sizeTrials := fun multiplier => (observation.sizeTrials multiplier).map fun trial =>
      { trial with checkpoints := trial.checkpoints.until time } }

/-- An episode without what was observed after a time. -/
def LearningEvidenceEpisode.until (time : Instant) (episode : LearningEvidenceEpisode) : LearningEvidenceEpisode :=
  { episode with
    checkpoints := episode.checkpoints.until time
    sizeTrials := fun multiplier => (episode.sizeTrials multiplier).map fun trial =>
      { trial with checkpoints := trial.checkpoints.until time } }

/-- Two stores that differ only in outcomes observed after a time. -/
structure SameUntil (time : Instant) (engine engine' : LearningEngine) : Prop where
  observations : ∀ mint, (engine.observations.get? mint).map (LearningObservation.until time) =
    (engine'.observations.get? mint).map (LearningObservation.until time)
  episodes : ∀ id, (engine.evidenceEpisodes.get? id).map (LearningEvidenceEpisode.until time) =
    (engine'.evidenceEpisodes.get? id).map (LearningEvidenceEpisode.until time)

variable {time : Instant} {target : Option (RiskMode × Option String)}

theorem SameUntil.observation {engine engine' : LearningEngine} (h : SameUntil time engine engine')
    {observation observation' : LearningObservation} (hmem : observation ∈ engine.observations)
    (hmem' : observation' ∈ engine'.observations) (hmint : observation.mint = observation'.mint) :
    observation.until time = observation'.until time := by
  have hsame := h.observations observation.mint
  rw [Table.get?_eq_some.mpr ⟨hmem, rfl⟩, Table.get?_eq_some.mpr ⟨hmem', hmint.symm⟩, Option.map_some,
    Option.map_some, Option.some_inj] at hsame
  exact hsame

theorem SameUntil.episode {engine engine' : LearningEngine} (h : SameUntil time engine engine')
    {episode episode' : LearningEvidenceEpisode} (hmem : episode ∈ engine.evidenceEpisodes)
    (hmem' : episode' ∈ engine'.evidenceEpisodes) (hid : episode.episodeId = episode'.episodeId) :
    episode.until time = episode'.until time := by
  have hsame := h.episodes episode.episodeId
  rw [Table.get?_eq_some.mpr ⟨hmem, rfl⟩, Table.get?_eq_some.mpr ⟨hmem', hid.symm⟩, Option.map_some,
    Option.map_some, Option.some_inj] at hsame
  exact hsame

theorem map_eq_of_map_eq {α κ ν : Type} {key : α → κ} {view : α → ν} {l l' : List α} (hkeys : l.map key = l'.map key)
    (h : ∀ a ∈ l, ∀ b ∈ l', key a = key b → view a = view b) : l.map view = l'.map view := by
  induction l generalizing l' with
  | nil =>
    rw [map_nil, eq_comm, map_eq_nil_iff] at hkeys
    rw [hkeys]
  | cons a l ih =>
    cases l' with
    | nil => cases hkeys
    | cons b l' =>
      rw [map_cons, map_cons, List.cons.injEq] at hkeys
      rw [map_cons, map_cons, h a mem_cons_self b mem_cons_self hkeys.1, ih hkeys.2]
      exact fun a ha b hb => h a (mem_cons_of_mem _ ha) b (mem_cons_of_mem _ hb)

/-! ### Splits of Discovery -/

section

variable {Row Parameters : Type} {rows : List Row} {row : Row}

theorem rawTrainingRows_subset (rows : List Row) : rawTrainingRows rows ⊆ rows := (take_sublist _ _).subset

theorem validationRows_sublist (rows : List Row) : (validationRows rows).Sublist rows := rtake_sublist _ _

theorem head_le_of_pairwise (time : Row → Instant) {first : Row} (hsorted : rows.Pairwise fun a b => time a ≤ time b)
    (hfirst : rows.head? = some first) (hrow : row ∈ rows) : time first ≤ time row := by
  cases rows with
  | nil => cases hrow
  | cons a rows =>
    rw [List.head?_cons, Option.some_inj] at hfirst
    subst hfirst
    rcases mem_cons.mp hrow with rfl | hrow
    · exact le_refl _
    · exact rel_of_pairwise_cons hsorted hrow

end

namespace LearningEngine

variable {engine engine' : LearningEngine} {fitting : Fitting} {Parameters : Type} {row : DiscoveryRow}
  {observation : LearningObservation} {time : Instant}

theorem usableRow_eq_some (h : usableRow observation = some row) :
    row.1 = observation ∧ ∃ checkpoint, observation.checkpoints primaryHorizonSeconds = some checkpoint ∧
      checkpoint.netReturn = some row.2 := by
  obtain ⟨checkpoint, hcheckpoint, h⟩ := Option.bind_eq_some_iff.mp h
  obtain ⟨outcome, houtcome, rfl⟩ := Option.map_eq_some_iff.mp h
  exact ⟨rfl, checkpoint, hcheckpoint, houtcome⟩

/-- Rows of discovery, of which those learned from were observed before the validation. -/
structure DiscoverySplit (engine : LearningEngine) (trained : Trained DiscoveryRow Parameters) : Prop where
  /-- Each row is a usable observation of the contract, whose market proves nothing. -/
  rows : ∀ row ∈ trained.rawTraining ++ trained.validation, row.1 ∈ engine.observations ∧ usableRow row.1 = some row ∧
    engine.learnable row.1 = true ∧
    (⟨row.1.riskMode, row.1.configurationFingerprint, row.1.baselineVersion⟩ : Contract) = trained.contract
  training : trained.training = trained.rawTraining.filter fun row =>
    row.1.checkpoints.observedBy trained.validationStart primaryHorizonSeconds
  first : trained.validation.head?.map (fun row => row.1.createdAt) = some trained.validationStart
  entered : ∀ row ∈ trained.validation, trained.validationStart ≤ row.1.createdAt
  policy : trained.policy = engine.policyEvidence trained.contract (some trained.validationStart)

def fittedRows (trained : Trained DiscoveryRow Parameters) : List (Features × ℚ) :=
  trained.training.map fun row => (row.1.features, row.2)

variable {entry : Trained DiscoveryRow Parts} {trained : Trained DiscoveryRow Parameters}

theorem trainEntry_split (h : engine.trainEntry fitting target = some entry) :
    DiscoverySplit engine entry ∧ fitting.fit featureNames (fittedRows entry) = some entry.parameters := by
  simp only [trainEntry, Option.bind_eq_bind, Option.bind_eq_some_iff] at h
  obtain ⟨last, -, h⟩ := h
  generalize target.getD (last.1.riskMode, last.1.configurationFingerprint) = wanted at h
  obtain ⟨riskMode, configurationFingerprint⟩ := wanted
  dsimp only at h
  split_ifs at h with hfew
  generalize hrows : (engine.resolvedObservations riskMode configurationFingerprint).filterMap usableRow = rows at h
  simp only [Option.bind_eq_some_iff] at h
  obtain ⟨first, hfirst, h⟩ := h
  split_ifs at h with hsmall hbaseline
  case neg => simp at h
  simp only [Option.bind_eq_some_iff] at h
  obtain ⟨parts, hparts, h⟩ := h
  cases h
  -- the rows are in the order in which the observations were made
  have hsorted : rows.Pairwise fun a b => a.1.createdAt ≤ b.1.createdAt := by
    have htotal : Std.Total fun first second : LearningObservation => first.createdAt ≤ second.createdAt :=
      ⟨fun a b => le_total a.createdAt b.createdAt⟩
    have htrans : IsTrans LearningObservation fun first second => first.createdAt ≤ second.createdAt :=
      ⟨fun _ _ _ => le_trans⟩
    have hresolved : (engine.resolvedObservations riskMode configurationFingerprint).Pairwise fun a b =>
        a.createdAt ≤ b.createdAt :=
      (pairwise_insertionSort _ _).sublist ((rtake_sublist _ _).trans filter_sublist)
    rw [← hrows]
    refine hresolved.filterMap usableRow fun a b hab row hrow row' hrow' => ?_
    rw [(usableRow_eq_some hrow).1, (usableRow_eq_some hrow').1]
    exact hab
  have hmem : ∀ row ∈ rows, row.1 ∈ engine.observations ∧ usableRow row.1 = some row ∧ engine.learnable row.1 = true ∧
      row.1.riskMode = riskMode ∧ row.1.configurationFingerprint = configurationFingerprint := by
    intro row hrow
    rw [← hrows, mem_filterMap] at hrow
    obtain ⟨observation, hobservation, hrow⟩ := hrow
    rw [(usableRow_eq_some hrow).1]
    have hkept := (rtake_sublist _ _).subset hobservation
    rw [mem_filter] at hkept
    obtain ⟨hstored, hkept⟩ := hkept
    simp only [Bool.and_eq_true, decide_eq_true_eq] at hkept
    exact ⟨(mem_insertionSort _).mp hstored, hrow, hkept.1.2, hkept.1.1.1, hkept.1.1.2⟩
  refine ⟨?_, hparts⟩
  constructor
  case rows =>
    intro row hrow
    have hrow' : row ∈ rows := by
      rcases mem_append.mp hrow with hrow | hrow
      · exact rawTrainingRows_subset rows hrow
      · exact (validationRows_sublist rows).subset hrow
    obtain ⟨hstored, husable, hlearnable, hriskMode, hconfiguration⟩ := hmem row hrow'
    have hversion := all_eq_true.mp hbaseline row hrow'
    rw [decide_eq_true_eq] at hversion
    exact ⟨hstored, husable, hlearnable, by rw [hriskMode, hconfiguration, hversion]⟩
  case training => rfl
  case first =>
    show (validationRows rows).head?.map _ = _
    rw [hfirst, Option.map_some]
  case entered =>
    intro row hrow
    exact head_le_of_pairwise (fun row : DiscoveryRow => row.1.createdAt) (hsorted.sublist (validationRows_sublist rows)) hfirst hrow
  case policy => dsimp only

theorem DiscoverySplit.start (h : DiscoverySplit engine trained)
    (hrow : trained.validation.head? = some row) : row.1.createdAt = trained.validationStart := by
  have hfirst := h.first
  rw [hrow, Option.map_some, Option.some_inj] at hfirst
  exact hfirst

theorem trainNonlinearEntry_split {trained : Trained DiscoveryRow (String × Parts)}
    (hentry : DiscoverySplit engine entry) (h : engine.trainNonlinearEntry fitting entry = some trained) :
    DiscoverySplit engine trained ∧
      (fitting.fitXgboost ((fittedRows trained).map fun row => featureNames.map fun name => (row.1 name).getD 0)
        ((fittedRows trained).map Prod.snd) = some trained.parameters.1) ∧
      trained.parameters.2 = { entry.parameters with coefficients := replicate (featureNames.length + 1) 0 } := by
  simp only [trainNonlinearEntry, Option.bind_eq_bind, Option.bind_eq_some_iff] at h
  obtain ⟨first, hfirst, h⟩ := h
  split_ifs at h
  simp only [Option.bind_eq_some_iff] at h
  obtain ⟨payload, hpayload, h⟩ := h
  cases h
  refine ⟨⟨hentry.rows, hentry.training, hentry.first, hentry.entered, ?_⟩, ?_, rfl⟩
  · rw [← hentry.start hfirst]
  · simp only [fittedRows, map_map]
    exact hpayload

theorem trainNonlinearEntry_copies {trained : Trained DiscoveryRow (String × Parts)}
    (h : engine.trainNonlinearEntry fitting entry = some trained) :
    trained.contract = entry.contract ∧ trained.validationStart = entry.validationStart ∧
      trained.rawTraining = entry.rawTraining := by
  simp only [trainNonlinearEntry, Option.bind_eq_bind, Option.bind_eq_some_iff] at h
  obtain ⟨first, -, h⟩ := h
  split_ifs at h
  simp only [Option.bind_eq_some_iff] at h
  obtain ⟨payload, -, h⟩ := h
  cases h
  exact ⟨rfl, rfl, rfl⟩

theorem trainManipulation_split {entry trained : Trained DiscoveryRow Parts} (hentry : DiscoverySplit engine entry)
    (h : engine.trainManipulation fitting entry = some trained) :
    DiscoverySplit engine trained ∧ fitting.fit manipulationFeatureNames (fittedRows trained) = some trained.parameters := by
  simp only [trainManipulation, Option.bind_eq_bind, Option.bind_eq_some_iff] at h
  obtain ⟨first, hfirst, h⟩ := h
  split_ifs at h
  simp only [Option.bind_eq_some_iff] at h
  obtain ⟨parts, hparts, h⟩ := h
  cases h
  refine ⟨⟨hentry.rows, hentry.training, hentry.first, hentry.entered, ?_⟩, hparts⟩
  rw [← hentry.start hfirst]

theorem DiscoverySplit.disjoint (h : DiscoverySplit engine trained)
    (hrow : row ∈ trained.rawTraining ++ trained.validation) {episode : LearningEvidenceEpisode}
    (hepisode : episode ∈ engine.evidenceEpisodes) (hproves : episode.proves trained.contract = true) :
    row.1.mint ≠ episode.mint := by
  intro hmint
  obtain ⟨-, -, hlearnable, hcontract⟩ := h.rows row hrow
  rw [← hcontract] at hproves
  simp only [LearningEvidenceEpisode.proves, Bool.and_eq_true, decide_eq_true_eq] at hproves
  obtain ⟨⟨⟨⟨⟨⟨⟨⟨hqualifying, -⟩, hriskMode⟩, hconfiguration⟩, hbaseline⟩, hschema⟩, -⟩, -⟩, -⟩ := hproves
  simp only [learnable, Bool.and_eq_true, decide_eq_true_eq, Bool.not_eq_true'] at hlearnable
  obtain ⟨⟨⟨⟨-, hschema'⟩, -⟩, -⟩, htwin⟩ := hlearnable
  simp only [observationHasPolicyTwin, Bool.or_eq_false_iff, any_eq_false] at htwin
  refine htwin.2 episode hepisode ?_
  simp only [Bool.and_eq_true, decide_eq_true_eq]
  exact ⟨⟨⟨⟨⟨hmint.symm, hqualifying⟩, hriskMode⟩, hconfiguration⟩, hbaseline⟩, hschema.trans hschema'.symm⟩

def learnedBy (time : Instant) (observation : LearningObservation) : Option (Features × ℚ) :=
  (observation.checkpoints.until time primaryHorizonSeconds).bind fun checkpoint =>
    checkpoint.netReturn.map fun outcome => (observation.features, outcome)

theorem DiscoverySplit.fittedRows_eq (h : DiscoverySplit engine trained) :
    fittedRows trained = (trained.rawTraining.map fun row => row.1.until trained.validationStart).filterMap
      (learnedBy trained.validationStart) := by
  have hrows : ∀ row ∈ trained.rawTraining, usableRow row.1 = some row :=
    fun row hrow => (h.rows row (mem_append_left _ hrow)).2.1
  rw [fittedRows, h.training]
  generalize trained.validationStart = start
  generalize trained.rawTraining = raw at hrows
  induction raw with
  | nil => rfl
  | cons row raw ih =>
    have htail := ih fun r hr => hrows r (mem_cons_of_mem _ hr)
    obtain ⟨-, checkpoint, hcheckpoint, houtcome⟩ := usableRow_eq_some (hrows row mem_cons_self)
    have hlearned : learnedBy start (row.1.until start) =
        if row.1.checkpoints.observedBy start primaryHorizonSeconds = true then some (row.1.features, row.2) else none := by
      simp only [learnedBy, LearningObservation.until, Checkpoints.until, Checkpoints.observedBy, hcheckpoint,
        Option.any_some, decide_eq_true_eq]
      by_cases hby : checkpoint.observedAt ≤ start
      · simp [Option.filter, hby, houtcome]
      · simp [Option.filter, hby]
    rw [map_cons, filterMap_cons, hlearned]
    by_cases hby : row.1.checkpoints.observedBy start primaryHorizonSeconds = true
    · simp only [filter_cons, hby, if_true, map_cons, htail]
    · simp only [filter_cons, hby, if_false, htail, Bool.false_eq_true]

end LearningEngine

/-! ### Splits of the Policy lane -/

theorem Checkpoints.observedBy_until (checkpoints : Checkpoints) (time : Instant) (horizon : ℕ) :
    (checkpoints.until time).observedBy time horizon = checkpoints.observedBy time horizon := by
  unfold Checkpoints.observedBy Checkpoints.until
  cases checkpoints horizon with
  | none => rfl
  | some checkpoint =>
    by_cases hby : checkpoint.observedAt ≤ time <;> simp [Option.filter, hby]

theorem Checkpoints.until_of_observedBy {checkpoints : Checkpoints} {horizon : ℕ}
    (h : checkpoints.observedBy time horizon = true) : checkpoints.until time horizon = checkpoints horizon := by
  obtain ⟨checkpoint, hcheckpoint, hby⟩ := (Option.any_eq_true _ _).mp h
  simp [Checkpoints.until, hcheckpoint, Option.filter, hby]

variable {episode : LearningEvidenceEpisode}

theorem LearningEvidenceEpisode.netReturn_until {horizon : ℕ}
    (h : episode.checkpoints.observedBy time horizon = true) :
    (episode.until time).netReturn (some horizon) = episode.netReturn (some horizon) := by
  show ((episode.checkpoints.until time) horizon).bind _ = (episode.checkpoints horizon).bind _
  rw [Checkpoints.until_of_observedBy h]

theorem LearningEvidenceEpisode.TrialsFollow.observed (hfollow : episode.TrialsFollow)
    {horizon : ℕ} (h : episode.checkpoints.observedBy time horizon = true) {multiplier : ℚ}
    {trial : ChallengerSizeTrial} {checkpoint : LearningCheckpoint} (htrial : episode.sizeTrials multiplier = some trial)
    (hcheckpoint : trial.checkpoints horizon = some checkpoint) : checkpoint.observedAt ≤ time := by
  obtain ⟨own, hown, hsame⟩ := hfollow multiplier trial horizon checkpoint htrial hcheckpoint
  rw [Checkpoints.observedBy, hown, Option.any_some, decide_eq_true_eq, hsame] at h
  exact h

theorem LearningEvidenceEpisode.bestSizeMultiplier_until
    (hfollow : episode.TrialsFollow) (h : episode.checkpoints.observedBy time primaryHorizonSeconds = true) :
    (episode.until time).bestSizeMultiplier = episode.bestSizeMultiplier := by
  have hvalue : ∀ multiplier, (episode.until time).sizeTrialValue multiplier primaryHorizonSeconds =
      episode.sizeTrialValue multiplier primaryHorizonSeconds := by
    intro multiplier
    simp only [LearningEvidenceEpisode.sizeTrialValue, LearningEvidenceEpisode.until]
    cases htrial : episode.sizeTrials multiplier with
    | none => rfl
    | some trial =>
      have hkept : trial.checkpoints.until time primaryHorizonSeconds = trial.checkpoints primaryHorizonSeconds := by
        cases hcheckpoint : trial.checkpoints primaryHorizonSeconds with
        | none => simp [Checkpoints.until, hcheckpoint]
        | some checkpoint =>
          have hby := hfollow.observed h htrial hcheckpoint
          simp [Checkpoints.until, hcheckpoint, Option.filter, hby]
      cases episode.sizeTrials 1 with
      | none => rfl
      | some baseline => simp [hkept]
  simp only [LearningEvidenceEpisode.bestSizeMultiplier, hvalue]

theorem firstMax_congr {α : Type} {key key' : α → ℚ × ℚ} {l : List α} (h : ∀ a ∈ l, key a = key' a) :
    firstMax key l = firstMax key' l := by
  cases l with
  | nil => rfl
  | cons a l =>
    refine congrArg some ?_
    have hrest : ∀ (l : List α) (best : α), key best = key' best → (∀ b ∈ l, key b = key' b) →
        l.foldl (fun best b => if keyAbove (key b) (key best) then b else best) best =
          l.foldl (fun best b => if keyAbove (key' b) (key' best) then b else best) best := by
      intro l
      induction l with
      | nil => exact fun _ _ _ => rfl
      | cons b l ih =>
        intro best hbest hl
        have hb := hl b mem_cons_self
        rw [foldl_cons, foldl_cons, hb, hbest]
        apply ih
        · split_ifs
          · exact hb
          · exact hbest
        · exact fun c hc => hl c (mem_cons_of_mem _ hc)
    exact hrest l a (h a mem_cons_self) fun b hb => h b (mem_cons_of_mem _ hb)

theorem mapM_congr {α β : Type} {f g : α → Option β} {l : List α} (h : ∀ a ∈ l, f a = g a) : l.mapM f = l.mapM g := by
  induction l with
  | nil => rfl
  | cons a l ih =>
    rw [mapM_cons, mapM_cons, h a mem_cons_self, ih fun b hb => h b (mem_cons_of_mem _ hb)]

namespace LearningEngine

variable {engine engine' : LearningEngine} {fitting : Fitting} {Parameters : Type} {contract : Contract}
  {episode : LearningEvidenceEpisode}

theorem pairwise_policyEvidence (engine : LearningEngine) (contract : Contract) (notBefore : Option Instant) :
    (engine.policyEvidence contract notBefore).Pairwise fun a b => a.entryAt ≤ b.entryAt := by
  have htotal : Std.Total entersBefore := by
    constructor
    intro a b
    rcases lt_trichotomy a.entryAt b.entryAt with hlt | heq | hgt
    · exact .inl (.inl hlt)
    · rcases le_total a.episodeId b.episodeId with hle | hle
      · exact .inl (.inr ⟨heq, hle⟩)
      · exact .inr (.inr ⟨heq.symm, hle⟩)
    · exact .inr (.inl hgt)
  have htrans : IsTrans LearningEvidenceEpisode entersBefore := by
    constructor
    rintro a b c (hab | ⟨hab, hid⟩) (hbc | ⟨hbc, hid'⟩)
    · exact .inl (hab.trans hbc)
    · exact .inl (hbc ▸ hab)
    · exact .inl (hab ▸ hbc)
    · exact .inr ⟨hab.trans hbc, hid.trans hid'⟩
  have hsorted := (pairwise_insertionSort entersBefore
    (engine.evidenceEpisodes.rows.filter fun episode => episode.proves contract)).sublist
      ((((rtake_sublist _ _).trans filter_sublist).trans (selectPolicyEvidence_sublist engine contract)) :
        (engine.policyEvidence contract notBefore).Sublist _)
  refine hsorted.imp ?_
  rintro a b (hlt | ⟨heq, -⟩)
  · exact hlt.le
  · exact heq.le

/-- Episodes, of which those learned from were observed before the validation. -/
structure PolicySplit (engine : LearningEngine) (horizons : List ℕ) (trained : Trained LearningEvidenceEpisode Parameters) :
    Prop where
  rows : ∀ episode ∈ trained.rawTraining ++ trained.validation,
    episode ∈ engine.evidenceEpisodes ∧ episode.proves trained.contract = true
  training : ∀ episode ∈ trained.training, episode ∈ trained.rawTraining ∧
    ∀ horizon ∈ horizons, episode.checkpoints.observedBy trained.validationStart horizon = true
  entered : ∀ episode ∈ trained.validation, trained.validationStart ≤ episode.entryAt
  policy : trained.policy = trained.validation

theorem split_of_sublist {evidence : List LearningEvidenceEpisode} {first : LearningEvidenceEpisode}
    (hsub : evidence.Sublist (engine.policyEvidence contract none)) (hfirst : (validationRows evidence).head? = some first) :
    (∀ episode ∈ rawTrainingRows evidence ++ validationRows evidence,
        episode ∈ engine.evidenceEpisodes ∧ episode.proves contract = true) ∧
      ∀ episode ∈ validationRows evidence, first.entryAt ≤ episode.entryAt := by
  constructor
  · intro episode hepisode
    have hmem : episode ∈ evidence := by
      rcases mem_append.mp hepisode with h | h
      · exact rawTrainingRows_subset evidence h
      · exact (validationRows_sublist evidence).subset h
    obtain ⟨hstored, hproves, -⟩ := mem_policyEvidence (hsub.subset hmem)
    exact ⟨hstored, hproves⟩
  · intro episode hepisode
    exact head_le_of_pairwise (fun e : LearningEvidenceEpisode => e.entryAt)
      ((pairwise_policyEvidence engine contract none).sublist ((validationRows_sublist evidence).trans hsub)) hfirst hepisode

def sizingRows (start : Instant) (raw : List LearningEvidenceEpisode) : List (Features × ℚ) :=
  (raw.filter fun episode => episode.checkpoints.observedBy start primaryHorizonSeconds).filterMap fun episode =>
    episode.bestSizeMultiplier.map fun target => (episode.features, target)

theorem trainSizing_split {trained : Trained LearningEvidenceEpisode Parts}
    (h : engine.trainSizing fitting contract = some trained) :
    PolicySplit engine [primaryHorizonSeconds] trained ∧ trained.contract = contract ∧
      fitting.fit sizingFeatureNames (sizingRows trained.validationStart trained.rawTraining) = some trained.parameters := by
  simp only [trainSizing, Option.bind_eq_bind] at h
  split_ifs at h
  simp only [Option.bind_eq_some_iff] at h
  obtain ⟨first, hfirst, parts, hparts, h⟩ := h
  split_ifs at h
  cases h
  obtain ⟨hrows, hentered⟩ := split_of_sublist (Sublist.refl _) hfirst
  simp only [map_filterMap, Option.map_map] at hparts
  refine ⟨⟨hrows, ?_, hentered, rfl⟩, rfl, hparts⟩
  intro episode hepisode
  obtain ⟨row, hrow, rfl⟩ := mem_map.mp hepisode
  obtain ⟨episode, hkept, htarget⟩ := mem_filterMap.mp hrow
  obtain ⟨target, -, rfl⟩ := Option.map_eq_some_iff.mp htarget
  obtain ⟨hraw, hby⟩ := mem_filter.mp hkept
  refine ⟨hraw, fun horizon hhorizon => ?_⟩
  rw [mem_singleton.mp hhorizon]
  exact hby

/-- The episodes the Exit trainers learn from, of those before the validation. -/
def exitRows (riskMode : RiskMode) (start : Instant) (raw : List LearningEvidenceEpisode) : List LearningEvidenceEpisode :=
  raw.filter fun episode => (exitCandidates riskMode).all fun horizon => episode.checkpoints.observedBy start horizon

def selectedHorizon (riskMode : RiskMode) (training : List LearningEvidenceEpisode) : Option ℕ :=
  firstMax (fun horizon => (meanHorizonUtility training horizon, if horizon = maxHoldSeconds riskMode then 1 else 0))
    (exitCandidates riskMode)

theorem trainExit_split {trained : Trained LearningEvidenceEpisode ℕ} (h : engine.trainExit contract = some trained) :
    PolicySplit engine (exitCandidates contract.riskMode) trained ∧ trained.contract = contract ∧
      trained.training = exitRows contract.riskMode trained.validationStart trained.rawTraining ∧
      selectedHorizon contract.riskMode trained.training = some trained.parameters := by
  simp only [trainExit, Option.bind_eq_bind] at h
  split_ifs at h
  simp only [Option.bind_eq_some_iff] at h
  obtain ⟨first, hfirst, h⟩ := h
  split_ifs at h
  simp only [Option.bind_eq_some_iff] at h
  obtain ⟨selected, hselected, h⟩ := h
  cases h
  obtain ⟨hrows, hentered⟩ := split_of_sublist ((rtake_sublist _ _).trans filter_sublist) hfirst
  refine ⟨⟨hrows, ?_, hentered, rfl⟩, rfl, rfl, hselected⟩
  intro episode hepisode
  obtain ⟨hraw, hby⟩ := mem_filter.mp hepisode
  exact ⟨hraw, all_eq_true.mp hby⟩

def exitContextModels (fitting : Fitting) (riskMode : RiskMode) (training : List LearningEvidenceEpisode) :
    Option (List (ℕ × Parts)) :=
  (exitCandidates riskMode).mapM fun horizon =>
    if (exitContextRows training horizon).length < minimumFitSamples then none
    else (fitting.fit exitContextFeatures (exitContextRows training horizon)).map fun parts => (horizon, parts)

theorem trainExitContext_split {reference : Trained LearningEvidenceEpisode ℕ}
    {trained : Trained LearningEvidenceEpisode (List (ℕ × Parts))}
    (hreference : PolicySplit engine (exitCandidates reference.contract.riskMode) reference)
    (h : trainExitContext fitting reference = some trained) :
    PolicySplit engine (exitCandidates reference.contract.riskMode) trained ∧
      (trained.contract = reference.contract ∧ trained.validationStart = reference.validationStart ∧
        trained.rawTraining = reference.rawTraining ∧ trained.training = reference.training) ∧
      exitContextModels fitting reference.contract.riskMode trained.training = some trained.parameters := by
  simp only [trainExitContext, Option.bind_eq_bind, Option.bind_eq_some_iff] at h
  obtain ⟨models, hmodels, h⟩ := h
  cases h
  exact ⟨⟨hreference.rows, hreference.training, hreference.entered, hreference.policy⟩, ⟨rfl, rfl, rfl, rfl⟩, hmodels⟩

/-! ### What the parameters depend on -/

theorem sizingRows_until {start : Instant} {raw : List LearningEvidenceEpisode} (hfollow : ∀ episode ∈ raw, episode.TrialsFollow) :
    sizingRows start (raw.map (LearningEvidenceEpisode.until start)) = sizingRows start raw := by
  unfold sizingRows
  induction raw with
  | nil => rfl
  | cons episode raw ih =>
    have htail := ih fun e he => hfollow e (mem_cons_of_mem _ he)
    have hsame : (episode.until start).checkpoints.observedBy start primaryHorizonSeconds =
        episode.checkpoints.observedBy start primaryHorizonSeconds := Checkpoints.observedBy_until ..
    simp only [map_cons, filter_cons, hsame]
    by_cases hby : episode.checkpoints.observedBy start primaryHorizonSeconds = true
    · have hbest := LearningEvidenceEpisode.bestSizeMultiplier_until (hfollow episode mem_cons_self) hby
      have hfeatures : (episode.until start).features = episode.features := rfl
      simp only [hby, if_true, filterMap_cons, hbest, hfeatures, htail]
    · simp only [hby, if_false, htail, Bool.false_eq_true]

theorem exitRows_until (riskMode : RiskMode) (start : Instant) (raw : List LearningEvidenceEpisode) :
    exitRows riskMode start (raw.map (LearningEvidenceEpisode.until start)) =
      (exitRows riskMode start raw).map (LearningEvidenceEpisode.until start) := by
  unfold exitRows
  rw [filter_map]
  refine congrArg (List.map _) (filter_congr fun episode _ => ?_)
  show ((exitCandidates riskMode).all fun horizon => (episode.checkpoints.until start).observedBy start horizon) = _
  simp only [Checkpoints.observedBy_until]

section

variable {riskMode : RiskMode} {start : Instant} {training : List LearningEvidenceEpisode}

theorem selectedHorizon_until (h : ∀ episode ∈ training, ∀ horizon ∈ exitCandidates riskMode,
      episode.checkpoints.observedBy start horizon = true) :
    selectedHorizon riskMode (training.map (LearningEvidenceEpisode.until start)) = selectedHorizon riskMode training := by
  refine firstMax_congr fun horizon hhorizon => ?_
  have hutility : meanHorizonUtility (training.map (LearningEvidenceEpisode.until start)) horizon =
      meanHorizonUtility training horizon := by
    have hvalues : (training.map (LearningEvidenceEpisode.until start)).map (fun e => e.checkpointUtility horizon) =
        training.map fun e => e.checkpointUtility horizon := by
      rw [map_map]
      refine map_congr_left fun episode hepisode => ?_
      show ((episode.until start).netReturn (some horizon)).getD (-1) = _
      rw [LearningEvidenceEpisode.netReturn_until (h episode hepisode horizon hhorizon)]
      rfl
    simp only [meanHorizonUtility, map_eq_nil_iff, hvalues]
  rw [hutility]

theorem exitContextModels_until (h : ∀ episode ∈ training, ∀ horizon ∈ exitCandidates riskMode,
      episode.checkpoints.observedBy start horizon = true) :
    exitContextModels fitting riskMode (training.map (LearningEvidenceEpisode.until start)) =
      exitContextModels fitting riskMode training := by
  refine mapM_congr fun horizon hhorizon => ?_
  have hrows : exitContextRows (training.map (LearningEvidenceEpisode.until start)) horizon =
      exitContextRows training horizon := by
    unfold exitContextRows
    rw [filterMap_map]
    refine filterMap_congr fun episode hepisode => ?_
    show (if exitContextFeatures.all fun name => (episode.features name).isSome then
        ((episode.until start).netReturn (some horizon)).map fun value => (episode.features, value) else none) = _
    rw [LearningEvidenceEpisode.netReturn_until (h episode hepisode horizon hhorizon)]
  rw [hrows]

end

/-! ### No look-ahead -/

/-- A trainer of Discovery does not look ahead: what it fits was observed by the start of the
validation, what validates and proves was entered from then on, and no market does both. -/
structure DiscoverySeparated (engine : LearningEngine) (trained : Trained DiscoveryRow Parameters) : Prop where
  observed : ∀ row ∈ trained.training, ∃ checkpoint, row.1.checkpoints primaryHorizonSeconds = some checkpoint ∧
    checkpoint.netReturn = some row.2 ∧ checkpoint.observedAt ≤ trained.validationStart
  entered : (∀ row ∈ trained.validation, trained.validationStart ≤ row.1.createdAt) ∧
    ∀ episode ∈ trained.policy, trained.validationStart ≤ episode.entryAt
  policy : ∀ episode ∈ trained.policy, episode ∈ engine.evidenceEpisodes ∧ episode.proves trained.contract = true
  disjoint : ∀ row ∈ trained.training ++ trained.validation, ∀ episode ∈ engine.evidenceEpisodes,
    episode.proves trained.contract = true →
      row.1.mint ≠ episode.mint ∧ row.1.policyIdentityKey ≠ episode.policyIdentityKey

/-- A trainer of the Policy lane does not look ahead, to the outcomes at these horizons. -/
structure PolicySeparated (engine : LearningEngine) (contract : Contract) (horizons : List ℕ)
    (trained : Trained LearningEvidenceEpisode Parameters) : Prop where
  observed : ∀ episode ∈ trained.training, ∀ horizon ∈ horizons,
    (∃ checkpoint, episode.checkpoints horizon = some checkpoint ∧ checkpoint.observedAt ≤ trained.validationStart) ∧
      ∀ multiplier trial checkpoint, episode.sizeTrials multiplier = some trial →
        trial.checkpoints horizon = some checkpoint → checkpoint.observedAt ≤ trained.validationStart
  entered : ∀ episode ∈ trained.validation ++ trained.policy, trained.validationStart ≤ episode.entryAt
  policy : trained.contract = contract ∧
    ∀ episode ∈ trained.policy, episode ∈ engine.evidenceEpisodes ∧ episode.proves contract = true

theorem DiscoverySplit.separated {trained : Trained DiscoveryRow Parameters} (h : DiscoverySplit engine trained) :
    DiscoverySeparated engine trained where
  observed := by
    intro row hrow
    rw [h.training, mem_filter] at hrow
    obtain ⟨hraw, hby⟩ := hrow
    obtain ⟨-, checkpoint, hcheckpoint, houtcome⟩ := usableRow_eq_some (h.rows row (mem_append_left _ hraw)).2.1
    refine ⟨checkpoint, hcheckpoint, houtcome, ?_⟩
    rw [Checkpoints.observedBy, hcheckpoint, Option.any_some, decide_eq_true_eq] at hby
    exact hby
  entered := by
    refine ⟨h.entered, fun episode hepisode => ?_⟩
    rw [h.policy] at hepisode
    exact (mem_policyEvidence hepisode).2.2 _ rfl
  policy := by
    intro episode hepisode
    rw [h.policy] at hepisode
    obtain ⟨hstored, hproves, -⟩ := mem_policyEvidence hepisode
    exact ⟨hstored, hproves⟩
  disjoint := by
    intro row hrow episode hstored hproves
    have hrow' : row ∈ trained.rawTraining ++ trained.validation := by
      rcases mem_append.mp hrow with hrow | hrow
      · rw [h.training] at hrow
        exact mem_append_left _ (mem_filter.mp hrow).1
      · exact mem_append_right _ hrow
    have hmint := h.disjoint hrow' hstored hproves
    exact ⟨hmint, fun hkey => hmint (congrArg PolicyIdentityKey.mint hkey)⟩

theorem PolicySplit.separated {horizons : List ℕ} {trained : Trained LearningEvidenceEpisode Parameters}
    (h : PolicySplit engine horizons trained) (hcontract : trained.contract = contract) (hfollow : engine.TrialsFollow) :
    PolicySeparated engine contract horizons trained where
  observed := by
    intro episode hepisode horizon hhorizon
    obtain ⟨hraw, hby⟩ := h.training episode hepisode
    have hby' := hby horizon hhorizon
    obtain ⟨checkpoint, hcheckpoint, hle⟩ := (Option.any_eq_true _ _).mp hby'
    refine ⟨⟨checkpoint, hcheckpoint, of_decide_eq_true hle⟩, fun multiplier trial found htrial hfound => ?_⟩
    exact (hfollow episode (h.rows episode (mem_append_left _ hraw)).1).observed hby' htrial hfound
  entered := by
    intro episode hepisode
    rw [h.policy] at hepisode
    exact h.entered episode ((mem_append.mp hepisode).elim id id)
  policy := by
    refine ⟨hcontract, fun episode hepisode => ?_⟩
    rw [h.policy] at hepisode
    rw [← hcontract]
    exact h.rows episode (mem_append_right _ hepisode)

/-- Every trainer keeps what it learns from apart from its validation. -/
structure NoLookAhead (engine : LearningEngine) (trained : Retraining) : Prop where
  entry : DiscoverySeparated engine trained.entry
  nonlinear : ∀ t ∈ trained.nonlinear, DiscoverySeparated engine t
  manipulation : ∀ t ∈ trained.manipulation, DiscoverySeparated engine t
  sizing : ∀ t ∈ trained.sizing, PolicySeparated engine trained.entry.contract [primaryHorizonSeconds] t
  exit : ∀ t ∈ trained.exit,
    PolicySeparated engine trained.entry.contract (exitCandidates trained.entry.contract.riskMode) t
  exitContext : ∀ t ∈ trained.exitContext,
    PolicySeparated engine trained.entry.contract (exitCandidates trained.entry.contract.riskMode) t

/-- What was trained on the same split of stores that differ only in outcomes observed after the start
of the validation has the same parameters. -/
def SameParameters {Row κ : Type} (key : Row → κ) (engine engine' : LearningEngine) (trained trained' : Trained Row Parameters) :
    Prop :=
  SameUntil trained.validationStart engine engine' → trained.contract = trained'.contract →
    trained.validationStart = trained'.validationStart → trained.rawTraining.map key = trained'.rawTraining.map key →
      trained.parameters = trained'.parameters

/-- All trainers fit the same parameters in both engines. -/
structure Indistinguishable (engine engine' : LearningEngine) (trained trained' : Retraining) : Prop where
  entry : SameParameters (fun row : DiscoveryRow => row.1.mint) engine engine' trained.entry trained'.entry
  nonlinear : ∀ t ∈ trained.nonlinear, ∀ t' ∈ trained'.nonlinear,
    SameParameters (fun row : DiscoveryRow => row.1.mint) engine engine' t t'
  manipulation : ∀ t ∈ trained.manipulation, ∀ t' ∈ trained'.manipulation,
    SameParameters (fun row : DiscoveryRow => row.1.mint) engine engine' t t'
  sizing : ∀ t ∈ trained.sizing, ∀ t' ∈ trained'.sizing,
    SameParameters LearningEvidenceEpisode.episodeId engine engine' t t'
  exit : ∀ t ∈ trained.exit, ∀ t' ∈ trained'.exit,
    SameParameters LearningEvidenceEpisode.episodeId engine engine' t t'
  exitContext : ∀ t ∈ trained.exitContext, ∀ t' ∈ trained'.exitContext,
    SameParameters LearningEvidenceEpisode.episodeId engine engine' t t'

theorem DiscoverySplit.fittedRows_same {trained trained' : Trained DiscoveryRow Parameters}
    (h : DiscoverySplit engine trained) (h' : DiscoverySplit engine' trained')
    (hsame : SameUntil trained.validationStart engine engine') (hstart : trained.validationStart = trained'.validationStart)
    (hids : (trained.rawTraining.map fun row => row.1.mint) = trained'.rawTraining.map fun row => row.1.mint) :
    fittedRows trained = fittedRows trained' := by
  rw [h.fittedRows_eq, h'.fittedRows_eq, ← hstart]
  refine congrArg (List.filterMap _) (map_eq_of_map_eq hids fun row hrow row' hrow' hmint => ?_)
  exact hsame.observation (h.rows row (mem_append_left _ hrow)).1 (h'.rows row' (mem_append_left _ hrow')).1 hmint

theorem PolicySplit.rawTraining_same {horizons : List ℕ} {trained trained' : Trained LearningEvidenceEpisode Parameters}
    (h : PolicySplit engine horizons trained) (h' : PolicySplit engine' horizons trained')
    (hsame : SameUntil trained.validationStart engine engine')
    (hids : trained.rawTraining.map LearningEvidenceEpisode.episodeId =
      trained'.rawTraining.map LearningEvidenceEpisode.episodeId) :
    trained.rawTraining.map (LearningEvidenceEpisode.until trained.validationStart) =
      trained'.rawTraining.map (LearningEvidenceEpisode.until trained.validationStart) := by
  refine map_eq_of_map_eq hids fun episode hepisode episode' hepisode' hid => ?_
  exact hsame.episode (h.rows episode (mem_append_left _ hepisode)).1
    (h'.rows episode' (mem_append_left _ hepisode')).1 hid

theorem trainExit_training_same {contract' : Contract} {trained trained' : Trained LearningEvidenceEpisode ℕ}
    (h : engine.trainExit contract = some trained) (h' : engine'.trainExit contract' = some trained')
    (hsame : SameUntil trained.validationStart engine engine') (hcontract : contract = contract')
    (hstart : trained.validationStart = trained'.validationStart)
    (hids : trained.rawTraining.map LearningEvidenceEpisode.episodeId =
      trained'.rawTraining.map LearningEvidenceEpisode.episodeId) :
    trained.training.map (LearningEvidenceEpisode.until trained.validationStart) =
      trained'.training.map (LearningEvidenceEpisode.until trained.validationStart) := by
  subst hcontract
  obtain ⟨hof, -, htraining, -⟩ := trainExit_split h
  obtain ⟨hof', -, htraining', -⟩ := trainExit_split h'
  rw [htraining, htraining', ← hstart, ← exitRows_until, ← exitRows_until, hof.rawTraining_same hof' hsame hids]

theorem retrainIfReady_spec {trained : Retraining} (h : engine.retrainIfReady fitting target = some trained) :
    engine.trainEntry fitting target = some trained.entry ∧
      (∀ t ∈ trained.nonlinear, engine.trainNonlinearEntry fitting trained.entry = some t) ∧
      (∀ t ∈ trained.manipulation, engine.trainManipulation fitting trained.entry = some t) ∧
      (∀ t ∈ trained.sizing, engine.trainSizing fitting trained.entry.contract = some t) ∧
      (∀ t ∈ trained.exit, engine.trainExit trained.entry.contract = some t) ∧
      ∀ t ∈ trained.exitContext, ∃ reference, engine.trainExit trained.entry.contract = some reference ∧
        trainExitContext fitting reference = some t := by
  obtain ⟨entry, hentry, h⟩ := Option.map_eq_some_iff.mp h
  split_ifs at h
  · subst h
    exact ⟨hentry, fun _ ht => ht, fun _ ht => ht, fun _ ht => ht, fun _ ht => ht,
      fun _ ht => Option.bind_eq_some_iff.mp ht⟩
  · subst h
    refine ⟨hentry, ?_, ?_, ?_, ?_, ?_⟩ <;>
    · intro t ht
      cases ht

/-- All trainers at once. -/
theorem noLookAhead_of_retrain {trained : Retraining}
    (hfollow : engine.TrialsFollow) (h : engine.retrainIfReady fitting target = some trained) :
    NoLookAhead engine trained := by
  obtain ⟨hentry, hnonlinear, hmanipulation, hsizing, hexit, hcontext⟩ := retrainIfReady_spec h
  obtain ⟨hsplit, -⟩ := trainEntry_split hentry
  constructor
  case entry => exact hsplit.separated
  case nonlinear => exact fun t ht => (trainNonlinearEntry_split hsplit (hnonlinear t ht)).1.separated
  case manipulation => exact fun t ht => (trainManipulation_split hsplit (hmanipulation t ht)).1.separated
  case sizing =>
    intro t ht
    obtain ⟨hpolicy, hcontract, -⟩ := trainSizing_split (hsizing t ht)
    exact hpolicy.separated hcontract hfollow
  case exit =>
    intro t ht
    obtain ⟨hpolicy, hcontract, -⟩ := trainExit_split (hexit t ht)
    exact hpolicy.separated hcontract hfollow
  case exitContext =>
    intro t ht
    obtain ⟨reference, hreference, ht⟩ := hcontext t ht
    obtain ⟨hpolicy, hcontract, -⟩ := trainExit_split hreference
    rw [← hcontract] at hpolicy
    obtain ⟨hpolicy', ⟨hcontract', -⟩, -⟩ := trainExitContext_split hpolicy ht
    rw [hcontract] at hpolicy' hcontract'
    exact hpolicy'.separated hcontract' hfollow

/-- All trainers at once. -/
theorem indistinguishable_of_retrain {target target' : Option (RiskMode × Option String)} {trained trained' : Retraining}
    (hfollow : engine.TrialsFollow) (hfollow' : engine'.TrialsFollow)
    (h : engine.retrainIfReady fitting target = some trained)
    (h' : engine'.retrainIfReady fitting target' = some trained') : Indistinguishable engine engine' trained trained' := by
  obtain ⟨hentry, hnonlinear, hmanipulation, hsizing, hexit, hcontext⟩ := retrainIfReady_spec h
  obtain ⟨hentry', hnonlinear', hmanipulation', hsizing', hexit', hcontext'⟩ := retrainIfReady_spec h'
  obtain ⟨hsplit, hfit⟩ := trainEntry_split hentry
  obtain ⟨hsplit', hfit'⟩ := trainEntry_split hentry'
  have hlinear : SameParameters (fun row : DiscoveryRow => row.1.mint) engine engine' trained.entry trained'.entry := by
    intro hsame _ hstart hids
    rw [hsplit.fittedRows_same hsplit' hsame hstart hids, hfit', Option.some_inj] at hfit
    exact hfit.symm
  constructor
  case entry => exact hlinear
  case nonlinear =>
    intro t ht t' ht' hsame hcontract hstart hids
    obtain ⟨hof, hpayload, hsupport⟩ := trainNonlinearEntry_split hsplit (hnonlinear t ht)
    obtain ⟨hof', hpayload', hsupport'⟩ := trainNonlinearEntry_split hsplit' (hnonlinear' t' ht')
    obtain ⟨hcontract₁, hstart₁, hraw₁⟩ := trainNonlinearEntry_copies (hnonlinear t ht)
    obtain ⟨hcontract₂, hstart₂, hraw₂⟩ := trainNonlinearEntry_copies (hnonlinear' t' ht')
    rw [hof.fittedRows_same hof' hsame hstart hids, hpayload', Option.some_inj] at hpayload
    have hparts : trained.entry.parameters = trained'.entry.parameters := by
      apply hlinear
      · rw [← hstart₁]
        exact hsame
      · rw [← hcontract₁, ← hcontract₂, hcontract]
      · rw [← hstart₁, ← hstart₂, hstart]
      · rw [← hraw₁, ← hraw₂, hids]
    exact Prod.ext hpayload.symm (by rw [hsupport, hsupport', hparts])
  case manipulation =>
    intro t ht t' ht' hsame _ hstart hids
    obtain ⟨hof, hparts⟩ := trainManipulation_split hsplit (hmanipulation t ht)
    obtain ⟨hof', hparts'⟩ := trainManipulation_split hsplit' (hmanipulation' t' ht')
    rw [hof.fittedRows_same hof' hsame hstart hids, hparts', Option.some_inj] at hparts
    exact hparts.symm
  case sizing =>
    intro t ht t' ht' hsame _ hstart hids
    obtain ⟨hof, -, hparts⟩ := trainSizing_split (hsizing t ht)
    obtain ⟨hof', -, hparts'⟩ := trainSizing_split (hsizing' t' ht')
    have hraw := hof.rawTraining_same hof' hsame hids
    have hknown : ∀ episode ∈ t.rawTraining, episode.TrialsFollow :=
      fun episode hepisode => hfollow episode (hof.rows episode (mem_append_left _ hepisode)).1
    have hknown' : ∀ episode ∈ t'.rawTraining, episode.TrialsFollow :=
      fun episode hepisode => hfollow' episode (hof'.rows episode (mem_append_left _ hepisode)).1
    rw [← sizingRows_until hknown, hraw, hstart, sizingRows_until hknown', hparts', Option.some_inj] at hparts
    exact hparts.symm
  case exit =>
    intro t ht t' ht' hsame hcontract hstart hids
    obtain ⟨hof, hcontract₁, -, hselected⟩ := trainExit_split (hexit t ht)
    obtain ⟨hof', hcontract₂, -, hselected'⟩ := trainExit_split (hexit' t' ht')
    rw [hcontract₁, hcontract₂] at hcontract
    have htraining := trainExit_training_same (hexit t ht) (hexit' t' ht') hsame hcontract hstart hids
    have hknown := fun episode hepisode => (hof.training episode hepisode).2
    have hknown' := fun episode hepisode => (hof'.training episode hepisode).2
    rw [← hcontract, ← hstart] at hknown'
    rw [← selectedHorizon_until hknown, htraining, selectedHorizon_until hknown', hcontract, hselected',
      Option.some_inj] at hselected
    exact hselected.symm
  case exitContext =>
    intro t ht t' ht' hsame hcontract hstart hids
    obtain ⟨reference, hreference, ht⟩ := hcontext t ht
    obtain ⟨reference', hreference', ht'⟩ := hcontext' t' ht'
    obtain ⟨hof, hcontract₁, -, -⟩ := trainExit_split hreference
    obtain ⟨hof', hcontract₂, -, -⟩ := trainExit_split hreference'
    rw [← hcontract₁] at hof
    rw [← hcontract₂] at hof'
    obtain ⟨-, ⟨hcontract₃, hstart₁, hraw₁, htraining₁⟩, hmodels⟩ := trainExitContext_split hof ht
    obtain ⟨-, ⟨hcontract₄, hstart₂, hraw₂, htraining₂⟩, hmodels'⟩ := trainExitContext_split hof' ht'
    rw [hcontract₃, hcontract₄] at hcontract
    rw [hstart₁] at hsame
    rw [hstart₁, hstart₂] at hstart
    rw [hraw₁, hraw₂] at hids
    have htraining := trainExit_training_same hreference hreference' hsame
      (by rw [← hcontract₁, ← hcontract₂, hcontract]) hstart hids
    have hknown := fun episode hepisode => (hof.training episode hepisode).2
    have hknown' := fun episode hepisode => (hof'.training episode hepisode).2
    rw [← hcontract, ← hstart] at hknown'
    rw [htraining₁, ← exitContextModels_until hknown, htraining, exitContextModels_until hknown', hcontract, ← htraining₂,
      hmodels', Option.some_inj] at hmodels
    exact hmodels.symm

/-- **No look-ahead in training**: of any store no trainer looks ahead, and stores that differ only in
outcomes observed after the start of the validation give the same parameters for the same split. -/
theorem training_no_look_ahead {target : Option (RiskMode × Option String)} {trained : Retraining}
    (hfollow : engine.TrialsFollow) (h : engine.retrainIfReady fitting target = some trained) :
    NoLookAhead engine trained ∧
      ∀ (engine' : LearningEngine) target' trained', engine'.TrialsFollow →
        engine'.retrainIfReady fitting target' = some trained' → Indistinguishable engine engine' trained trained' :=
  ⟨noLookAhead_of_retrain hfollow h, fun _ _ _ hfollow' h' => indistinguishable_of_retrain hfollow hfollow' h h'⟩

end LearningEngine

/-! ### A training -/

/-- An observation whose outcome is known. -/
def learnedObservation (n : ℕ) : LearningObservation where
  mint := "d" ++ toString n
  createdAt := n
  riskMode := .balanced
  configurationFingerprint := some "configuration"
  baselineVersion := "baseline-v1.5"
  baselineAction := .pass
  features _ := some 0
  checkpoints _ := some { observedAt := n, netReturn := some 0, exitValueLamports := some 1, bounded := zeroReturn_bounded }

/-- An episode whose outcome is known. -/
def learnedEpisode (n : ℕ) : LearningEvidenceEpisode where
  episodeId := "p" ++ toString n
  mint := "p" ++ toString n
  createdAt := n
  entryAt := n
  qualificationEligible := true
  seasonId := some "season"
  riskMode := .balanced
  configurationFingerprint := some "configuration"
  baselineVersion := "baseline-v1.5"
  baselineAction := .enter
  baselineActionable := true
  features _ := some 0
  sizeTrials _ :=
    some
      { entryCostLamports := some 1
        eligibleAtEntry := true
        checkpoints := fun _ => some { observedAt := n, netReturn := some 0, exitValueLamports := some 1, bounded := zeroReturn_bounded } }
  checkpoints _ := some { observedAt := n, netReturn := some 0, exitValueLamports := some 1, bounded := zeroReturn_bounded }

/-- An engine with enough of both. -/
def learnedEngine : LearningEngine where
  runtime := ⟨fun _ => none, fun _ => "", fun _ => 0⟩
  coveragePolicy := {}
  currentRiskMode := .balanced
  configurationFingerprint := some "configuration"
  baselineVersion := "baseline-v1.5"
  mode := .active
  consentGranted := true
  autoParticipation := true
  skillArtifacts := .empty
  skillStates := .empty
  activeSkillVersions := .empty
  observations := Table.ofRows ((range minimumTrainingSamples).map learnedObservation)
  evidenceEpisodes := Table.ofRows ((range minimumTrainingSamples).map learnedEpisode)

/-- A fit that finds nothing but zeros. -/
def zeroFitting : Fitting := ⟨fun names _ => some ⟨names.map fun _ => 0, names.map fun _ => 1, [0]⟩, fun _ _ => some ""⟩

theorem repr_injective : Function.Injective Nat.repr := by
  intro n m h
  have hdigits : Nat.toDigits 10 n = Nat.toDigits 10 m := by rw [← Nat.toList_repr, ← Nat.toList_repr, h]
  rw [← Nat.ofDigitChars_ten_toDigits  (n := n), hdigits, Nat.ofDigitChars_ten_toDigits]

theorem mint_ne (n m : ℕ) : (learnedEpisode n).mint ≠ (learnedObservation m).mint := by
  intro h
  have hdata := congrArg String.toList h
  simp only [learnedEpisode, learnedObservation, String.toList_append] at hdata
  cases hdata

theorem learnedObservation_mint_injective : Function.Injective fun n => (learnedObservation n).mint :=
  fun _ _ h => repr_injective ((String.append_right_inj _).mp h)

theorem learnedEpisode_mint_injective : Function.Injective fun n => (learnedEpisode n).mint :=
  fun _ _ h => repr_injective ((String.append_right_inj _).mp h)

theorem learned_observations :
    learnedEngine.observations.rows = (range minimumTrainingSamples).map learnedObservation := by
  refine Table.rows_ofRows ?_
  rw [map_map]
  exact nodup_range.map learnedObservation_mint_injective

theorem learned_episodes :
    learnedEngine.evidenceEpisodes.rows = (range minimumTrainingSamples).map learnedEpisode := by
  refine Table.rows_ofRows ?_
  rw [map_map]
  exact nodup_range.map learnedEpisode_mint_injective

theorem learned_twinless (n : ℕ) : learnedEngine.observationHasPolicyTwin (learnedObservation n) = false := by
  unfold observationHasPolicyTwin
  rw [learned_episodes, Bool.or_eq_false_iff, any_eq_false]
  refine ⟨rfl, fun episode hepisode => ?_⟩
  obtain ⟨m, -, rfl⟩ := mem_map.mp hepisode
  simp only [mint_ne, decide_false, Bool.false_and]
  exact Bool.false_ne_true

theorem learned_learnable (n : ℕ) : learnedEngine.learnable (learnedObservation n) = true := by
  unfold learnable
  rw [learned_twinless]
  exact (rfl : (featuresComplete fun _ => some (0 : ℚ)) = true)

theorem learned_sorted : byCreation ((range minimumTrainingSamples).map learnedObservation) =
    (range minimumTrainingSamples).map learnedObservation := by
  refine Pairwise.insertionSort_eq (pairwise_map.mpr ?_)
  exact pairwise_lt_range.imp fun h => Int.ofNat_le.mpr h.le

theorem learned_trainingRows : learnedEngine.trainingRows =
    (range minimumTrainingSamples).filterMap fun n => usableRow (learnedObservation n) := by
  unfold trainingRows
  rw [learned_observations, learned_sorted, filter_eq_self.mpr, filterMap_map]
  · rfl
  · rintro observation h
    obtain ⟨n, -, rfl⟩ := mem_map.mp h
    exact learned_learnable n

theorem learned_resolved : learnedEngine.resolvedObservations .balanced (some "configuration") =
    (range minimumTrainingSamples).map learnedObservation := by
  unfold resolvedObservations
  rw [learned_observations, learned_sorted, filter_eq_self.mpr]
  · rfl
  · rintro observation h
    obtain ⟨n, -, rfl⟩ := mem_map.mp h
    rw [learned_learnable]
    rfl

theorem learned_evidence :
    learnedEngine.selectPolicyEvidence ⟨.balanced, some "configuration", "baseline-v1.5"⟩ =
      (range minimumTrainingSamples).map learnedEpisode := by
  have hsorted : ((range minimumTrainingSamples).map learnedEpisode).Pairwise entersBefore :=
    pairwise_map.mpr (pairwise_lt_range.imp fun h => .inl (Int.ofNat_lt.mpr h))
  unfold selectPolicyEvidence
  dsimp only
  rw [learned_episodes, filter_eq_self.mpr, filter_eq_self.mpr, Pairwise.insertionSort_eq hsorted]
  · rw [firstPer_eq_self]
    · rfl
    · rw [map_map]
      exact nodup_range.map learnedEpisode_mint_injective
  · rintro episode h
    obtain ⟨n, -, rfl⟩ := mem_map.mp h
    rfl
  · intro episode h
    rfl

theorem learned_last : learnedEngine.trainingRows.getLast? = some (learnedObservation 79, 0) := by
  rw [learned_trainingRows]
  rfl

theorem learned_entry : ((learnedEngine.trainEntry zeroFitting none).any fun entry =>
    decide (entry.contract = ⟨.balanced, some "configuration", "baseline-v1.5"⟩) && !entry.training.isEmpty &&
      entry.validation.head?.isSome) = true := by
  unfold trainEntry
  rw [learned_last, Option.bind_eq_bind, Option.bind_some]
  dsimp only [Option.getD_none, learnedObservation]
  rw [learned_resolved]
  decide +kernel

theorem learned_sizing :
    (learnedEngine.trainSizing zeroFitting ⟨.balanced, some "configuration", "baseline-v1.5"⟩).isSome = true := by
  unfold trainSizing policyEvidence
  rw [learned_evidence]
  decide +kernel

theorem learned_exit :
    ((learnedEngine.trainExit ⟨.balanced, some "configuration", "baseline-v1.5"⟩).any fun reference =>
      (trainExitContext zeroFitting reference).isSome) = true := by
  unfold trainExit policyEvidence
  rw [learned_evidence]
  decide +kernel

/-- What the trainers come to, all but the nonlinear one, does not look ahead. -/
theorem learned_no_look_ahead : ∃ trained, learnedEngine.retrainIfReady zeroFitting none = some trained ∧
    (trained.manipulation.isSome ∧ trained.sizing.isSome ∧ trained.exit.isSome ∧ trained.exitContext.isSome) ∧
    LearningEngine.NoLookAhead learnedEngine trained := by
  obtain ⟨entry, hentry, hfacts⟩ := (Option.any_eq_true _ _).mp learned_entry
  obtain ⟨reference, hreference, hcontext⟩ := (Option.any_eq_true _ _).mp learned_exit
  simp only [Bool.and_eq_true, decide_eq_true_eq, Bool.not_eq_true'] at hfacts
  obtain ⟨⟨hcontract, hlearned⟩, hvalidation⟩ := hfacts
  obtain ⟨first, hfirst⟩ := Option.isSome_iff_exists.mp hvalidation
  have hmanipulation : (learnedEngine.trainManipulation zeroFitting entry).isSome = true := by
    unfold trainManipulation
    rw [hfirst, Option.bind_eq_bind, Option.bind_some, hcontract, hlearned]
    rfl
  have hfollow : learnedEngine.TrialsFollow := by
    intro episode hepisode
    rw [Table.mem_def, learned_episodes, mem_map] at hepisode
    obtain ⟨n, -, rfl⟩ := hepisode
    rintro multiplier trial horizon checkpoint htrial hcheckpoint
    cases htrial
    cases hcheckpoint
    exact ⟨_, rfl, rfl⟩
  have htrained : learnedEngine.retrainIfReady zeroFitting none =
      some
        { entry := entry
          nonlinear := learnedEngine.trainNonlinearEntry zeroFitting entry
          manipulation := learnedEngine.trainManipulation zeroFitting entry
          sizing := learnedEngine.trainSizing zeroFitting entry.contract
          exit := learnedEngine.trainExit entry.contract
          exitContext := (learnedEngine.trainExit entry.contract).bind (trainExitContext zeroFitting) } := by
    unfold retrainIfReady
    rw [hentry, Option.map_some, if_pos]
    exact hcontract
  refine ⟨_, htrained, ⟨hmanipulation, ?_, ?_, ?_⟩, (training_no_look_ahead hfollow htrained).1⟩
  · show (learnedEngine.trainSizing zeroFitting entry.contract).isSome = true
    rw [hcontract]
    exact learned_sizing
  · show (learnedEngine.trainExit entry.contract).isSome = true
    rw [hcontract, hreference]
    rfl
  · show ((learnedEngine.trainExit entry.contract).bind (trainExitContext zeroFitting)).isSome = true
    rw [hcontract, hreference, Option.bind_some]
    exact hcontext

end SignalArcade.Challenger
