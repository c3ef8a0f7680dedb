import SignalArcade.Challenger.Policy
import SignalArcade.Lib.Runs

/-!
# The ledger of policy identities

A market proves once for each identity: by the earliest of its episodes that may prove something. Which one that is
stands in a table of the database, `learning_policy_identities`, which outlives the episodes: they are pruned, and
read again after a restart. The learning engine keeps the identities of what it holds.
-/

namespace SignalArcade.Challenger

open Paper (Instant RiskMode DecisionAction)
open LearningEvidenceEpisode List
open Runs

/-! ### Identities -/

/-- An identity of the ledger: when its first episode was entered, and which one it is. -/
abbrev Identity := Option Instant × String

/-- What is asked of a qualifying episode for it to be the proof of its identity. -/
def LearningEvidenceEpisode.eligible (episode : LearningEvidenceEpisode) : Bool :=
  episode.seasonId.isSome && episode.baselineAction = .enter && episode.baselineActionable &&
    featuresComplete episode.features

def LearningEvidenceEpisode.policyIdentity (episode : LearningEvidenceEpisode) : Option Identity :=
  if episode.qualifying then
    some (if episode.eligible then (some episode.entryAt, episode.episodeId) else (none, ""))
  else none

/-- `min`, of the times and the names of two episodes. -/
def earlier (current incoming : Instant × String) : Instant × String :=
  if incoming.1 < current.1 ∨ incoming.1 = current.1 ∧ incoming.2 < current.2 then incoming else current

/-- What stands for an identity once another episode of it is remembered. -/
def selectIdentity (current : Option Identity) (incoming : Identity) : Identity :=
  match current with
  | none => incoming
  | some current =>
    if current.2 = "" ∧ incoming.2 ≠ "" then incoming
    else
      match current.1, incoming.1 with
      | some since, some entryAt =>
        if incoming.2 ≠ "" then
          let earliest := earlier (since, current.2) (entryAt, incoming.2)
          (some earliest.1, earliest.2)
        else current
      | _, _ => current

/-- `remember_policy_identities`, of one episode. -/
def remember (reserved : PolicyIdentities) (episode : LearningEvidenceEpisode) : PolicyIdentities :=
  match episode.policyIdentity with
  | none => reserved
  | some incoming =>
    Function.update reserved episode.policyIdentityKey
      (some (selectIdentity (reserved episode.policyIdentityKey) incoming))

/-- The identities in memory, once one was read from the database. -/
def refresh (identities reserved : PolicyIdentities) (key : PolicyIdentityKey) : PolicyIdentities :=
  Function.update identities key ((reserved key).or (identities key))

/-- An identity that is not in memory is read from the database. -/
def load (identities reserved : PolicyIdentities) (key : PolicyIdentityKey) : PolicyIdentities :=
  if (identities key).isSome then identities else refresh identities reserved key

/-! ### Registration -/

/-- What `_evidence_trajectory_key` digests. -/
structure TrajectoryMaterial where
  lane : LearningEvidenceLane
  season : String
  mint : String
  riskMode : RiskMode
  configurationFingerprint : String
  baselineVersion : String
  featureSchemaVersion : String

/-- A decision that is registered: what Discovery records of it, and whether Policy may act on it. -/
structure Enrolment where
  observation : LearningObservation
  evaluationActionable : Bool

/-- What identifies the trajectory of a decision in the Policy lane. -/
def Enrolment.material (enrolment : Enrolment) : TrajectoryMaterial where
  lane := .policy
  season := (enrolment.observation.seasonId.filter (· ≠ "")).getD "unseasoned"
  mint := enrolment.observation.mint
  riskMode := enrolment.observation.riskMode
  configurationFingerprint := enrolment.observation.configurationFingerprint.getD ""
  baselineVersion := enrolment.observation.baselineVersion
  featureSchemaVersion := Challenger.featureSchemaVersion

def Enrolment.episode (hash : TrajectoryMaterial → String) (enrolment : Enrolment) : LearningEvidenceEpisode where
  episodeId := "policy-" ++ hash enrolment.material
  mint := enrolment.observation.mint
  createdAt := enrolment.observation.createdAt
  entryAt := enrolment.observation.createdAt
  qualificationEligible := true
  seasonId := enrolment.observation.seasonId
  riskMode := enrolment.observation.riskMode
  configurationFingerprint := enrolment.observation.configurationFingerprint
  baselineVersion := enrolment.observation.baselineVersion
  baselineAction := enrolment.observation.baselineAction
  baselineActionable := true
  features := enrolment.observation.features
  activeSkillVersions := enrolment.observation.activeSkillVersions
  challengerEvaluations := enrolment.observation.challengerEvaluations
  sizeTrials := enrolment.observation.sizeTrials

/-- The learning engine, beside its database. -/
structure PolicyLedger where
  engine : LearningEngine
  /-- `learning_evidence_episodes`. -/
  stored : EvidenceEpisodes := .empty
  storedObservations : LearningObservations := .empty
  /-- `learning_policy_identities`. -/
  reserved : PolicyIdentities := fun _ => none
  registered : List LearningEvidenceEpisode := []

/-- The episode as it is enrolled: one that was entered again, after the original was pruned, does not qualify. -/
def enrolled (identities : PolicyIdentities) (episode : LearningEvidenceEpisode) : LearningEvidenceEpisode :=
  if (identities episode.policyIdentityKey).any fun reserved =>
      reserved.2 = episode.episodeId ∧ ¬ episode.matchesPolicyIdentity reserved then
    { episode with qualificationEligible := false }
  else episode

def PolicyLedger.enrolPolicy (s : PolicyLedger) (episode : LearningEvidenceEpisode) : PolicyLedger :=
  let loaded := load s.engine.policyIdentities s.reserved episode.policyIdentityKey
  let episode := enrolled loaded episode
  let reserved := remember s.reserved episode
  { s with
    engine := { s.engine with
      evidenceEpisodes := s.engine.evidenceEpisodes.upsert episode
      policyIdentities :=
        if episode.policyIdentity.isSome then refresh loaded reserved episode.policyIdentityKey else loaded }
    stored := s.stored.upsert episode
    reserved := reserved
    registered := s.registered ++ [episode] }

/-- A decision is recorded in Discovery. -/
def PolicyLedger.enrolDiscovery (s : PolicyLedger) (observation : LearningObservation) : PolicyLedger :=
  { s with
    engine := { s.engine with
      policyIdentities := load s.engine.policyIdentities s.reserved observation.policyIdentityKey
      observations := s.engine.observations.upsert observation }
    storedObservations := s.storedObservations.upsert observation }

/-- A decision is one of the Policy lane: no episode of its trajectory is there. -/
def PolicyLedger.enters (hash : TrajectoryMaterial → String) (s : PolicyLedger) (enrolment : Enrolment) : Bool :=
  enrolment.observation.baselineAction = .enter && enrolment.evaluationActionable &&
    !s.engine.evidenceEpisodes.rows.any fun episode =>
      episode.lane = .policy && episode.episodeId = (enrolment.episode hash).episodeId

/-- `register`, of a decision whose entry can be quoted. -/
def PolicyLedger.register (hash : TrajectoryMaterial → String) (s : PolicyLedger) (enrolment : Enrolment) :
    PolicyLedger :=
  if s.engine.mode = .off then s
  else
    let discoveryExists := (s.engine.observations.get? enrolment.observation.mint).isSome
    let s := if s.enters hash enrolment then s.enrolPolicy (enrolment.episode hash) else s
    if discoveryExists then s else s.enrolDiscovery enrolment.observation

/-! ### Later -/

/-- The outcomes of an episode are written. -/
def resolve (episodeId : String) (checkpoints : Checkpoints) (sizeTrials : ℚ → Option ChallengerSizeTrial)
    (episode : LearningEvidenceEpisode) : LearningEvidenceEpisode :=
  if episode.episodeId = episodeId then { episode with checkpoints := checkpoints, sizeTrials := sizeTrials } else episode

@[simp] theorem resolve_episodeId {episodeId : String} {checkpoints : Checkpoints}
    {sizeTrials : ℚ → Option ChallengerSizeTrial} {episode : LearningEvidenceEpisode} :
    (resolve episodeId checkpoints sizeTrials episode).episodeId = episode.episodeId := by
  unfold resolve
  split_ifs <;> rfl

def PolicyLedger.checkpoint (s : PolicyLedger) (episodeId : String) (checkpoints : Checkpoints)
    (sizeTrials : ℚ → Option ChallengerSizeTrial) : PolicyLedger :=
  { s with
    engine := { s.engine with
      evidenceEpisodes := s.engine.evidenceEpisodes.map (resolve episodeId checkpoints sizeTrials) fun _ => resolve_episodeId }
    stored := s.stored.map (resolve episodeId checkpoints sizeTrials) fun _ => resolve_episodeId }

/-- `remember_committed_evidence`, of an episode the broker has committed to the Execution lane. -/
def PolicyLedger.commit (s : PolicyLedger) (episode : LearningEvidenceEpisode) : PolicyLedger :=
  if episode.lane ≠ .execution ∨ (s.engine.evidenceEpisodes.get? episode.episodeId).any (fun existing =>
      existing.lane ≠ episode.lane ∨ existing.mint ≠ episode.mint) then s
  else { s with
    engine := { s.engine with evidenceEpisodes := s.engine.evidenceEpisodes.upsert episode }
    stored := s.stored.upsert episode }

/-- A key of what is left in memory. -/
def retainedKey (engine : LearningEngine) (key : PolicyIdentityKey) : Bool :=
  (engine.observations.rows.any fun observation => observation.policyIdentityKey = key) ||
    engine.evidenceEpisodes.rows.any fun episode => episode.policyIdentityKey = key

/-- `_prune_complete_history`, of the mints and the episodes that the database lets go. -/
def PolicyLedger.prune (s : PolicyLedger) (mints episodeIds : List String) : PolicyLedger :=
  let removed := mints ≠ [] ∨ s.engine.evidenceEpisodes.rows.any fun episode => episode.episodeId ∈ episodeIds
  let engine := { s.engine with
    observations := s.engine.observations.filter fun observation => observation.mint ∉ mints
    evidenceEpisodes := s.engine.evidenceEpisodes.filter fun episode => episode.episodeId ∉ episodeIds }
  { s with
    engine := { engine with
      policyIdentities := fun key =>
        if removed ∧ ¬ retainedKey engine key then none else engine.policyIdentities key }
    stored := s.stored.filter fun episode => episode.episodeId ∉ episodeIds
    storedObservations := s.storedObservations.filter fun observation => observation.mint ∉ mints }

/-- The engine is made again from its database. -/
def PolicyLedger.restart (s : PolicyLedger) : PolicyLedger :=
  let reserved := s.stored.rows.foldl remember s.reserved
  let engine := { s.engine with evidenceEpisodes := s.stored, observations := s.storedObservations }
  { s with
    engine := { engine with policyIdentities := fun key => if retainedKey engine key then reserved key else none }
    reserved := reserved }

/-- Something happens to the evidence. -/
inductive LedgerAction where
  | register (enrolment : Enrolment)
  | checkpoint (episodeId : String) (checkpoints : Checkpoints) (sizeTrials : ℚ → Option ChallengerSizeTrial)
  | commit (episode : LearningEvidenceEpisode)
  | prune (mints episodeIds : List String)
  /-- A season or a setting changes what is registered from now on. -/
  | reconfigure (riskMode : RiskMode) (configurationFingerprint : Option String) (baselineVersion : String)
    (mode : LearningMode)
  | restart

def PolicyLedger.step (hash : TrajectoryMaterial → String) (s : PolicyLedger) : LedgerAction → PolicyLedger
  | .register enrolment => s.register hash enrolment
  | .checkpoint episodeId checkpoints sizeTrials => s.checkpoint episodeId checkpoints sizeTrials
  | .commit episode => s.commit episode
  | .prune mints episodeIds => s.prune mints episodeIds
  | .reconfigure riskMode configurationFingerprint baselineVersion mode =>
    { s with
      engine := { s.engine with
        currentRiskMode := riskMode
        configurationFingerprint := configurationFingerprint
        baselineVersion := baselineVersion
        mode := mode } }
  | .restart => s.restart

/-! ### What the ledger reserves -/

/-- The episode counts as the proof of the identity. -/
structure LearningEvidenceEpisode.ProvesIdentity (episode : LearningEvidenceEpisode) (key : PolicyIdentityKey) : Prop where
  key : episode.policyIdentityKey = key
  qualifying : episode.qualifying = true
  eligible : episode.eligible = true

/-- What is reserved for an identity is the earliest of the episodes that may be its proof. -/
structure Reserves (registered : List LearningEvidenceEpisode) (key : PolicyIdentityKey) (identity : Option Identity) :
    Prop where
  bound : ∀ r ∈ registered, r.ProvesIdentity key → ∃ since name, identity = some (some since, name) ∧
    (since < r.entryAt ∨ since = r.entryAt ∧ name ≤ r.episodeId)
  attained : ∀ since name, identity = some (some since, name) →
    ∃ r ∈ registered, r.ProvesIdentity key ∧ r.entryAt = since ∧ r.episodeId = name
  shape : ∀ name, identity = some (none, name) → name = ""

/-- An episode that is held was registered as it was entered, where it may be a proof. -/
def Known (registered : List LearningEvidenceEpisode) (episode : LearningEvidenceEpisode) : Prop :=
  episode.qualifying = true → episode.eligible = true → ∃ r ∈ registered,
    r.ProvesIdentity episode.policyIdentityKey ∧ r.entryAt = episode.entryAt ∧ r.episodeId = episode.episodeId

variable {registered : List LearningEvidenceEpisode} {key : PolicyIdentityKey} {current : Option Identity}
  {episode : LearningEvidenceEpisode} {reserved identities : PolicyIdentities}

theorem Reserves.append (h : Reserves registered key current) (hnot : ¬ episode.ProvesIdentity key) :
    Reserves (registered ++ [episode]) key current := by
  refine ⟨fun r hr hproves => ?_, fun since name he => ?_, h.shape⟩
  · rcases mem_append.mp hr with hr | hr
    · exact h.bound r hr hproves
    · rw [mem_singleton.mp hr] at hproves
      exact absurd hproves hnot
  · obtain ⟨r, hr, hrest⟩ := h.attained since name he
    exact ⟨r, mem_append_left _ hr, hrest⟩

theorem Reserves.of_known (h : Reserves (registered ++ [episode]) key current) (hknown : Known registered episode) :
    Reserves registered key current := by
  refine ⟨fun r hr hproves => h.bound r (mem_append_left _ hr) hproves, fun since name he => ?_, h.shape⟩
  obtain ⟨r, hr, hproves, hat, hname⟩ := h.attained since name he
  rcases mem_append.mp hr with hr | hr
  · exact ⟨r, hr, hproves, hat, hname⟩
  · obtain rfl := mem_singleton.mp hr
    obtain ⟨r', hr', hproves', hat', hname'⟩ := hknown hproves.qualifying hproves.eligible
    exact ⟨r', hr', hproves.key ▸ hproves', hat'.trans hat, hname'.trans hname⟩

theorem earlier_le (a b : Instant × String) :
    ((earlier a b).1 < a.1 ∨ (earlier a b).1 = a.1 ∧ (earlier a b).2 ≤ a.2) ∧
      ((earlier a b).1 < b.1 ∨ (earlier a b).1 = b.1 ∧ (earlier a b).2 ≤ b.2) := by
  unfold earlier
  split_ifs with h
  · refine ⟨?_, .inr ⟨rfl, le_rfl⟩⟩
    rcases h with h | ⟨h, hname⟩
    · exact .inl h
    · exact .inr ⟨h, hname.le⟩
  · rw [not_or, not_and] at h
    refine ⟨.inr ⟨rfl, le_rfl⟩, ?_⟩
    rcases (not_lt.mp h.1).lt_or_eq with hlt | heq
    · exact .inl hlt
    · exact .inr ⟨heq, not_lt.mp (h.2 heq.symm)⟩

theorem earlier_eq (a b : Instant × String) : earlier a b = a ∨ earlier a b = b := by
  unfold earlier
  split_ifs
  · exact .inr rfl
  · exact .inl rfl

theorem lex_trans {a b c : Instant} {x y z : String} (h : a < b ∨ a = b ∧ x ≤ y) (h' : b < c ∨ b = c ∧ y ≤ z) :
    a < c ∨ a = c ∧ x ≤ z := by
  rcases h with h | ⟨rfl, h⟩
  · rcases h' with h' | ⟨rfl, -⟩
    · exact .inl (h.trans h')
    · exact .inl h
  · rcases h' with h' | ⟨rfl, h'⟩
    · exact .inl h'
    · exact .inr ⟨rfl, h.trans h'⟩

theorem Reserves.select (h : Reserves registered key current) (hnames : ∀ r ∈ registered, r.episodeId ≠ "")
    (hname : episode.episodeId ≠ "") (hproves : episode.ProvesIdentity key) :
    Reserves (registered ++ [episode]) key (some (selectIdentity current (some episode.entryAt, episode.episodeId))) := by
  have hmem : episode ∈ registered ++ [episode] := by simp
  by_cases hsome : ∃ since name, current = some (some since, name)
  · obtain ⟨since, name, rfl⟩ := hsome
    obtain ⟨r, hr, hrproves, hrat, hrname⟩ := h.attained since name rfl
    have hname' : name ≠ "" := hrname ▸ hnames r hr
    have hselect : selectIdentity (some (some since, name)) (some episode.entryAt, episode.episodeId) =
        (some (earlier (since, name) (episode.entryAt, episode.episodeId)).1,
          (earlier (since, name) (episode.entryAt, episode.episodeId)).2) := by
      simp [selectIdentity, hname', hname]
    obtain ⟨hle, hle'⟩ := earlier_le (since, name) (episode.entryAt, episode.episodeId)
    rw [hselect]
    refine ⟨fun r' hr' hproves' => ⟨_, _, rfl, ?_⟩, fun since' name' he => ?_, fun _ he => ?_⟩
    · rcases mem_append.mp hr' with hr' | hr'
      · obtain ⟨since', name', he, hbound⟩ := h.bound r' hr' hproves'
        simp only [Option.some.injEq, Prod.mk.injEq] at he
        obtain ⟨rfl, rfl⟩ := he
        exact lex_trans hle hbound
      · rw [mem_singleton.mp hr']
        exact hle'
    · simp only [Option.some.injEq, Prod.mk.injEq] at he
      obtain ⟨rfl, rfl⟩ := he
      rcases earlier_eq (since, name) (episode.entryAt, episode.episodeId) with he | he
      · rw [he]
        exact ⟨r, mem_append_left _ hr, hrproves, hrat, hrname⟩
      · rw [he]
        exact ⟨episode, hmem, hproves, rfl, rfl⟩
    · simp at he
  · -- nothing was a proof so far
    have hnone : ∀ r ∈ registered, ¬ r.ProvesIdentity key := by
      intro r hr hrproves
      obtain ⟨since, name, he, -⟩ := h.bound r hr hrproves
      exact hsome ⟨since, name, he⟩
    have hselect : selectIdentity current (some episode.entryAt, episode.episodeId) =
        (some episode.entryAt, episode.episodeId) := by
      cases current with
      | none => rfl
      | some current =>
        obtain ⟨since, name⟩ := current
        cases since with
        | none => simp [selectIdentity, h.shape name rfl, hname]
        | some since => exact absurd ⟨since, name, rfl⟩ hsome
    rw [hselect]
    refine ⟨fun r hr hrproves => ⟨_, _, rfl, ?_⟩, fun since name he => ?_, fun _ he => ?_⟩
    · rcases mem_append.mp hr with hr | hr
      · exact absurd hrproves (hnone r hr)
      · rw [mem_singleton.mp hr]
        exact .inr ⟨rfl, le_rfl⟩
    · simp only [Option.some.injEq, Prod.mk.injEq] at he
      obtain ⟨rfl, rfl⟩ := he
      exact ⟨episode, hmem, hproves, rfl, rfl⟩
    · simp at he

theorem Reserves.select_empty (h : Reserves registered key current) :
    Reserves registered key (some (selectIdentity current (none, ""))) := by
  cases current with
  | none =>
    refine ⟨fun r hr hproves => ?_, fun since name he => ?_, fun name he => ?_⟩
    · obtain ⟨since, name, he, -⟩ := h.bound r hr hproves
      cases he
    · simp [selectIdentity] at he
    · simpa [selectIdentity] using he.symm
  | some current =>
    have hselect : selectIdentity (some current) (none, "") = current := by
      simp [selectIdentity]
    rw [hselect]
    exact h

/-- **What is remembered** is the earliest of what was registered. -/
theorem remember_reserves (h : ∀ key, Reserves registered key (reserved key))
    (hnames : ∀ r ∈ registered, r.episodeId ≠ "")
    (hname : episode.ProvesIdentity episode.policyIdentityKey → episode.episodeId ≠ "") (key : PolicyIdentityKey) :
    Reserves (registered ++ [episode]) key (remember reserved episode key) := by
  unfold remember
  cases hidentity : episode.policyIdentity with
  | none =>
    refine (h key).append fun hproves => ?_
    simp [policyIdentity, hproves.qualifying] at hidentity
  | some incoming =>
    have hqualifying : episode.qualifying = true := by
      by_contra hnot
      simp [policyIdentity, hnot] at hidentity
    rw [policyIdentity, if_pos hqualifying, Option.some.injEq] at hidentity
    dsimp only
    by_cases hkey : key = episode.policyIdentityKey
    · subst hkey
      rw [Function.update_self, ← hidentity]
      by_cases heligible : episode.eligible = true
      · rw [if_pos heligible]
        have hproves : episode.ProvesIdentity episode.policyIdentityKey := ⟨rfl, hqualifying, heligible⟩
        exact (h _).select hnames (hname hproves) hproves
      · rw [if_neg heligible]
        exact (h _).select_empty.append fun hproves => heligible hproves.eligible
    · rw [Function.update_of_ne hkey]
      exact (h key).append fun hproves => hkey hproves.key.symm

/-! ### The invariant -/

/-- What every run keeps of the ledger and the memory. -/
structure PolicyLedger.Sound (s : PolicyLedger) : Prop where
  names : ∀ r ∈ s.registered, r.episodeId ≠ ""
  reserves : ∀ key, Reserves s.registered key (s.reserved key)
  identities : ∀ key, s.engine.policyIdentities key = none ∨ s.engine.policyIdentities key = s.reserved key
  held : ∀ episode ∈ s.engine.evidenceEpisodes, Known s.registered episode
  stored : ∀ episode ∈ s.stored, Known s.registered episode
  /-- No episode that qualifies is held without the identity it may be the proof of. -/
  remembered : ∀ episode ∈ s.engine.evidenceEpisodes, episode.qualifying = true →
    (s.engine.policyIdentities episode.policyIdentityKey).isSome = true

theorem Known.append (h : Known registered episode) (r : LearningEvidenceEpisode) : Known (registered ++ [r]) episode := by
  intro hqualifying heligible
  obtain ⟨r', hr', hrest⟩ := h hqualifying heligible
  exact ⟨r', mem_append_left _ hr', hrest⟩

theorem known_of_mem (h : episode ∈ registered) : Known registered episode := fun hqualifying heligible =>
  ⟨episode, h, ⟨rfl, hqualifying, heligible⟩, rfl, rfl⟩

theorem refresh_cases (h : ∀ key, identities key = none ∨ identities key = reserved key) (key' key : PolicyIdentityKey) :
    refresh identities reserved key' key = none ∨ refresh identities reserved key' key = reserved key := by
  unfold refresh
  by_cases hkey : key = key'
  · subst hkey
    rw [Function.update_self]
    cases hreserved : reserved key with
    | none =>
      have hnone := h key
      rw [hreserved] at hnone
      simpa using hnone
    | some identity => exact .inr rfl
  · rw [Function.update_of_ne hkey]
    exact h key

theorem load_cases (h : ∀ key, identities key = none ∨ identities key = reserved key) (key' key : PolicyIdentityKey) :
    load identities reserved key' key = none ∨ load identities reserved key' key = reserved key := by
  unfold load
  split_ifs
  · exact h key
  · exact refresh_cases h key' key

theorem refresh_isSome {key' : PolicyIdentityKey} (h : (identities key).isSome = true) :
    (refresh identities reserved key' key).isSome = true := by
  unfold refresh
  by_cases hkey : key = key'
  · subst hkey
    rw [Function.update_self, Option.isSome_or, h, Bool.or_true]
  · rwa [Function.update_of_ne hkey]

theorem load_isSome {key' : PolicyIdentityKey} (h : (identities key).isSome = true) :
    (load identities reserved key' key).isSome = true := by
  unfold load
  split_ifs
  · exact h
  · exact refresh_isSome h

theorem remember_isSome (h : (reserved key).isSome = true ∨ episode.policyIdentityKey = key ∧ episode.qualifying = true) :
    (remember reserved episode key).isSome = true := by
  unfold remember policyIdentity
  by_cases hqualifying : episode.qualifying = true
  · rw [if_pos hqualifying]
    dsimp only
    by_cases hkey : key = episode.policyIdentityKey
    · subst hkey
      rw [Function.update_self]
      rfl
    · rw [Function.update_of_ne hkey]
      rcases h with h | ⟨h, -⟩
      · exact h
      · exact absurd h.symm hkey
  · rw [if_neg hqualifying]
    rcases h with h | ⟨-, h⟩
    · exact h
    · exact absurd h hqualifying

theorem remember_of_ne (h : key ≠ episode.policyIdentityKey) : remember reserved episode key = reserved key := by
  unfold remember
  cases episode.policyIdentity with
  | none => rfl
  | some incoming => exact Function.update_of_ne h _ _

theorem remember_of_not_qualifying (h : episode.policyIdentity.isSome = false) : remember reserved episode = reserved := by
  have hnone : episode.policyIdentity = none := by simpa using h
  unfold remember
  rw [hnone]

theorem qualifying_iff : episode.policyIdentity.isSome = true ↔ episode.qualifying = true := by
  unfold policyIdentity
  split_ifs with h <;> simp [h]

variable {s : PolicyLedger}

theorem PolicyLedger.Sound.enrolPolicy (h : s.Sound) (hname : episode.episodeId ≠ "") : (s.enrolPolicy episode).Sound := by
  have hname' : ∀ identities, (enrolled identities episode).episodeId ≠ "" := by
    intro identities
    unfold enrolled
    split_ifs <;> exact hname
  unfold PolicyLedger.enrolPolicy
  dsimp only
  set loaded := load s.engine.policyIdentities s.reserved episode.policyIdentityKey with hloaded
  set e := enrolled loaded episode with he
  have hcases : ∀ key, loaded key = none ∨ loaded key = s.reserved key :=
    load_cases h.identities episode.policyIdentityKey
  have hkey : e.policyIdentityKey = episode.policyIdentityKey := by
    rw [he]
    unfold enrolled
    split_ifs <;> rfl
  have hmem : e ∈ s.registered ++ [e] := by simp
  constructor
  · intro r hr
    rcases mem_append.mp hr with hr | hr
    · exact h.names r hr
    · rw [mem_singleton.mp hr]
      exact hname' _
  · exact remember_reserves h.reserves h.names fun _ => hname' _
  · intro key
    dsimp only
    split_ifs with hidentity
    · unfold refresh
      by_cases hkey' : key = e.policyIdentityKey
      · right
        subst hkey'
        have hsome : (remember s.reserved e e.policyIdentityKey).isSome = true :=
          remember_isSome (.inr ⟨rfl, qualifying_iff.mp hidentity⟩)
        obtain ⟨identity, hidentity⟩ := Option.isSome_iff_exists.mp hsome
        rw [Function.update_self, hidentity]
        rfl
      · rw [Function.update_of_ne hkey', remember_of_ne hkey']
        exact hcases key
    · rw [remember_of_not_qualifying (by simpa using hidentity)]
      exact hcases key
  · exact Table.forall_mem_upsert (known_of_mem hmem) fun episode' hepisode' => (h.held episode' hepisode').append e
  · exact Table.forall_mem_upsert (known_of_mem hmem) fun episode' hepisode' => (h.stored episode' hepisode').append e
  · intro episode' hepisode' hqualifying
    dsimp only
    rcases Table.mem_upsert.mp hepisode' with rfl | ⟨hepisode', -⟩
    · rw [if_pos (qualifying_iff.mpr hqualifying)]
      unfold refresh
      rw [Function.update_self, Option.isSome_or, remember_isSome (.inr ⟨rfl, hqualifying⟩), Bool.true_or]
    · have hsome : (loaded episode'.policyIdentityKey).isSome = true :=
        load_isSome (h.remembered episode' hepisode' hqualifying)
      split_ifs
      · exact refresh_isSome hsome
      · exact hsome

theorem PolicyLedger.Sound.enrolDiscovery (h : s.Sound) (observation : LearningObservation) :
    (s.enrolDiscovery observation).Sound where
  names := h.names
  reserves := h.reserves
  identities := load_cases h.identities observation.policyIdentityKey
  held := h.held
  stored := h.stored
  remembered episode hepisode hqualifying := load_isSome (h.remembered episode hepisode hqualifying)

theorem Enrolment.episodeId_ne_empty (hash : TrajectoryMaterial → String) (enrolment : Enrolment) :
    (enrolment.episode hash).episodeId ≠ "" := by
  intro h
  have hlength := congrArg String.length h
  rw [Enrolment.episode, String.length_append] at hlength
  simp at hlength

theorem PolicyLedger.Sound.register (h : s.Sound) (hash : TrajectoryMaterial → String) (enrolment : Enrolment) :
    (s.register hash enrolment).Sound := by
  have hpolicy : (if s.enters hash enrolment then s.enrolPolicy (enrolment.episode hash) else s).Sound := by
    split_ifs
    · exact h.enrolPolicy (enrolment.episodeId_ne_empty hash)
    · exact h
  unfold PolicyLedger.register
  dsimp only
  by_cases hoff : s.engine.mode = .off
  · rw [if_pos hoff]
    exact h
  · rw [if_neg hoff]
    by_cases hexists : (s.engine.observations.get? enrolment.observation.mint).isSome = true
    · rw [if_pos hexists]
      exact hpolicy
    · rw [if_neg hexists]
      exact hpolicy.enrolDiscovery _

section resolve

variable {episodeId : String} {checkpoints : Checkpoints} {sizeTrials : ℚ → Option ChallengerSizeTrial}

@[simp] theorem resolve_qualifying : (resolve episodeId checkpoints sizeTrials episode).qualifying = episode.qualifying := by
  unfold resolve
  split_ifs <;> rfl

@[simp] theorem resolve_eligible : (resolve episodeId checkpoints sizeTrials episode).eligible = episode.eligible := by
  unfold resolve
  split_ifs <;> rfl

@[simp] theorem resolve_policyIdentityKey :
    (resolve episodeId checkpoints sizeTrials episode).policyIdentityKey = episode.policyIdentityKey := by
  unfold resolve
  split_ifs <;> rfl

@[simp] theorem resolve_entryAt : (resolve episodeId checkpoints sizeTrials episode).entryAt = episode.entryAt := by
  unfold resolve
  split_ifs <;> rfl

theorem Known.resolve (h : Known registered episode) : Known registered (resolve episodeId checkpoints sizeTrials episode) := by
  intro hqualifying heligible
  rw [resolve_qualifying] at hqualifying
  rw [resolve_eligible] at heligible
  rw [resolve_policyIdentityKey, resolve_entryAt, resolve_episodeId]
  exact h hqualifying heligible

theorem PolicyLedger.Sound.checkpoint (h : s.Sound) : (s.checkpoint episodeId checkpoints sizeTrials).Sound where
  names := h.names
  reserves := h.reserves
  identities := h.identities
  held episode hepisode := by
    obtain ⟨before, hbefore, rfl⟩ := mem_map.mp hepisode
    exact (h.held before hbefore).resolve
  stored episode hepisode := by
    obtain ⟨before, hbefore, rfl⟩ := mem_map.mp hepisode
    exact (h.stored before hbefore).resolve
  remembered episode hepisode hqualifying := by
    obtain ⟨before, hbefore, rfl⟩ := mem_map.mp hepisode
    rw [resolve_qualifying] at hqualifying
    rw [resolve_policyIdentityKey]
    exact h.remembered before hbefore hqualifying

end resolve

theorem PolicyLedger.Sound.commit (h : s.Sound) (episode : LearningEvidenceEpisode) : (s.commit episode).Sound := by
  unfold PolicyLedger.commit
  split_ifs with hguard
  · exact h
  · rw [not_or, not_not] at hguard
    have hnot : episode.qualifying = false := by
      simp [qualifying, hguard.1]
    have hknown : Known s.registered episode := fun hqualifying => by
      rw [hnot] at hqualifying
      cases hqualifying
    constructor
    · exact h.names
    · exact h.reserves
    · exact h.identities
    · exact Table.forall_mem_upsert hknown h.held
    · exact Table.forall_mem_upsert hknown h.stored
    · refine Table.forall_mem_upsert (fun hqualifying => ?_) h.remembered
      rw [hnot] at hqualifying
      cases hqualifying

theorem retainedKey_of_mem {engine : LearningEngine} (h : episode ∈ engine.evidenceEpisodes) :
    retainedKey engine episode.policyIdentityKey = true := by
  rw [retainedKey, Bool.or_eq_true]
  right
  exact any_eq_true.mpr ⟨episode, h, decide_eq_true rfl⟩

theorem PolicyLedger.Sound.prune (h : s.Sound) (mints episodeIds : List String) : (s.prune mints episodeIds).Sound := by
  unfold PolicyLedger.prune
  dsimp only
  constructor
  · exact h.names
  · exact h.reserves
  · intro key
    dsimp only
    split_ifs
    · exact .inl rfl
    · exact h.identities key
  · intro episode hepisode
    exact h.held episode (Table.mem_filter.mp hepisode).1
  · intro episode hepisode
    exact h.stored episode (Table.mem_filter.mp hepisode).1
  · intro episode hepisode hqualifying
    dsimp only
    rw [if_neg fun hpruned => hpruned.2 (retainedKey_of_mem hepisode)]
    exact h.remembered episode (Table.mem_filter.mp hepisode).1 hqualifying

theorem foldl_remember_reserves {episodes : List LearningEvidenceEpisode} (h : ∀ key, Reserves registered key (reserved key))
    (hnames : ∀ r ∈ registered, r.episodeId ≠ "") (hknown : ∀ episode ∈ episodes, Known registered episode)
    (key : PolicyIdentityKey) : Reserves registered key (episodes.foldl remember reserved key) := by
  induction episodes generalizing reserved with
  | nil => exact h key
  | cons episode episodes ih =>
    rw [forall_mem_cons] at hknown
    refine ih (fun key => ?_) hknown.2
    refine Reserves.of_known (remember_reserves h hnames (fun hproves => ?_) key) hknown.1
    obtain ⟨r, hr, -, -, hname⟩ := hknown.1 hproves.qualifying hproves.eligible
    exact hname ▸ hnames r hr

theorem foldl_remember_isSome {episodes : List LearningEvidenceEpisode} (h : (reserved key).isSome = true ∨
      ∃ episode ∈ episodes, episode.policyIdentityKey = key ∧ episode.qualifying = true) :
    (episodes.foldl remember reserved key).isSome = true := by
  induction episodes generalizing reserved with
  | nil =>
    rcases h with h | ⟨episode, hmem, -⟩
    · exact h
    · cases hmem
  | cons episode episodes ih =>
    apply ih
    rcases h with h | ⟨episode', hmem, hepisode'⟩
    · exact .inl (remember_isSome (.inl h))
    · rcases mem_cons.mp hmem with rfl | hmem
      · exact .inl (remember_isSome (.inr hepisode'))
      · exact .inr ⟨episode', hmem, hepisode'⟩

theorem PolicyLedger.Sound.restart (h : s.Sound) : s.restart.Sound := by
  unfold PolicyLedger.restart
  dsimp only
  constructor
  · exact h.names
  · exact foldl_remember_reserves h.reserves h.names h.stored
  · intro key
    dsimp only
    split_ifs
    · exact .inr rfl
    · exact .inl rfl
  · exact h.stored
  · exact h.stored
  · intro episode hepisode hqualifying
    dsimp only
    split_ifs with hretained
    · exact foldl_remember_isSome (.inr ⟨episode, hepisode, rfl, hqualifying⟩)
    · exact absurd (retainedKey_of_mem hepisode) hretained

/-- **Every action** keeps the ledger sound. -/
theorem PolicyLedger.Sound.step (hash : TrajectoryMaterial → String) (h : s.Sound) (action : LedgerAction) :
    (s.step hash action).Sound := by
  cases action with
  | register enrolment => exact h.register hash enrolment
  | checkpoint episodeId checkpoints sizeTrials => exact h.checkpoint
  | commit episode => exact h.commit episode
  | prune mints episodeIds => exact h.prune mints episodeIds
  | reconfigure riskMode configurationFingerprint baselineVersion mode =>
    exact ⟨h.names, h.reserves, h.identities, h.held, h.stored, h.remembered⟩
  | restart => exact h.restart

/-! ### One proof -/

def PolicyLedger.new (engine : LearningEngine) : PolicyLedger where
  engine := { engine with evidenceEpisodes := .empty, observations := .empty, policyIdentities := fun _ => none }

theorem PolicyLedger.Sound.new (engine : LearningEngine) : (PolicyLedger.new engine).Sound where
  names _ hr := absurd hr not_mem_nil
  reserves _ := by
    refine ⟨fun r hr => absurd hr not_mem_nil, fun since name he => ?_, fun name he => ?_⟩ <;> cases he
  identities _ := .inl rfl
  held _ hepisode := absurd hepisode Table.not_mem_empty
  stored _ hepisode := absurd hepisode Table.not_mem_empty
  remembered _ hepisode := absurd hepisode Table.not_mem_empty

/-- The episodes that count for the key. -/
def PolicyLedger.countable (s : PolicyLedger) (key : PolicyIdentityKey) : List LearningEvidenceEpisode :=
  s.engine.evidenceEpisodes.rows.filter fun episode =>
    episode.policyIdentityKey = key && episode.qualifying && episode.eligible &&
      (s.engine.policyIdentities key).all episode.matchesPolicyIdentity

/-- The episode is, of those registered that may be the proof of the identity, the earliest. -/
def LearningEvidenceEpisode.IsFirst (episode : LearningEvidenceEpisode) (registered : List LearningEvidenceEpisode)
    (key : PolicyIdentityKey) : Prop :=
  (∃ r ∈ registered, r.ProvesIdentity key ∧ r.entryAt = episode.entryAt ∧ r.episodeId = episode.episodeId) ∧
    ∀ r ∈ registered, r.ProvesIdentity key → entersBefore episode r

theorem PolicyLedger.Sound.isFirst (h : s.Sound) (hcountable : episode ∈ s.countable key) :
    episode.IsFirst s.registered key := by
  rw [PolicyLedger.countable, mem_filter] at hcountable
  obtain ⟨hmem, hcond⟩ := hcountable
  simp only [Bool.and_eq_true, decide_eq_true_eq] at hcond
  obtain ⟨⟨⟨rfl, hqualifying⟩, heligible⟩, hmatches⟩ := hcond
  obtain ⟨r, hr, hproves, hat, hname⟩ := h.held episode hmem hqualifying heligible
  refine ⟨⟨r, hr, hproves, hat, hname⟩, fun r' hr' hproves' => ?_⟩
  obtain ⟨since, name, hreserved, hbound⟩ := (h.reserves _).bound r' hr' hproves'
  have hidentity : s.engine.policyIdentities episode.policyIdentityKey = some (some since, name) := by
    rcases h.identities episode.policyIdentityKey with hnone | hsome
    · have hremembered := h.remembered episode hmem hqualifying
      rw [hnone] at hremembered
      cases hremembered
    · rw [hsome, hreserved]
  rw [hidentity, Option.all_some] at hmatches
  simp only [matchesPolicyIdentity, Bool.and_eq_true, decide_eq_true_eq, Option.some.injEq] at hmatches
  obtain ⟨rfl, rfl⟩ := hmatches
  exact hbound

/-- At most one episode counts for a key. -/
theorem PolicyLedger.Sound.countable_cases (h : s.Sound) (key : PolicyIdentityKey) :
    s.countable key = [] ∨ ∃ episode, s.countable key = [episode] := by
  rcases hcountable : s.countable key with _ | ⟨first, _ | ⟨second, rest⟩⟩
  · exact .inl rfl
  · exact .inr ⟨first, rfl⟩
  · have hfirst : first ∈ s.countable key := by simp [hcountable]
    have hsecond : second ∈ s.countable key := by simp [hcountable]
    obtain ⟨⟨r, hr, hproves, hat, hname⟩, hle⟩ := h.isFirst hfirst
    obtain ⟨⟨r', hr', hproves', hat', hname'⟩, hle'⟩ := h.isFirst hsecond
    have hbefore : entersBefore first second := by
      have hb := hle r' hr' hproves'
      rwa [entersBefore, hat', hname'] at hb
    have hafter : entersBefore second first := by
      have hb := hle' r hr hproves
      rwa [entersBefore, hat, hname] at hb
    have hsame : first.episodeId = second.episodeId := by
      rcases hbefore with hlt | ⟨heq, hle⟩
      · rcases hafter with hlt' | ⟨heq', -⟩
        · exact absurd (hlt.trans hlt') (lt_irrefl _)
        · exact absurd (heq' ▸ hlt) (lt_irrefl _)
      · rcases hafter with hlt' | ⟨-, hle'⟩
        · exact absurd (heq ▸ hlt') (lt_irrefl _)
        · exact le_antisymm hle hle'
    have hnodup : ((s.countable key).map episodeId).Nodup :=
      s.engine.evidenceEpisodes.nodup.sublist (filter_sublist.map _)
    rw [hcountable, map_cons, map_cons, nodup_cons] at hnodup
    exact absurd (by rw [hsame]; exact mem_cons_self) hnodup.1

/-- What `_policy_evidence` counts may be counted. -/
theorem mem_countable_of_policyEvidence {contract : Contract} {notBefore : Option Instant}
    (h : episode ∈ s.engine.policyEvidence contract notBefore) : episode ∈ s.countable episode.policyIdentityKey := by
  obtain ⟨hmem, hproves, -⟩ := LearningEngine.mem_policyEvidence h
  have hselected := (Selection.firstPer_sublist _ _).subset ((Selection.rtake_sublist _ _).subset
    (mem_filter.mp ((Selection.rtake_sublist _ _).subset h)).1)
  have hmatches := (mem_filter.mp hselected).2
  rw [PolicyLedger.countable, mem_filter]
  refine ⟨hmem, ?_⟩
  simp only [proves, Bool.and_eq_true, decide_eq_true_eq] at hproves
  obtain ⟨⟨⟨⟨⟨⟨⟨⟨hqualifying, hseason⟩, -⟩, -⟩, -⟩, -⟩, haction⟩, hactionable⟩, hfeatures⟩ := hproves
  simp only [Bool.and_eq_true, decide_eq_true_eq, eligible]
  exact ⟨⟨⟨trivial, hqualifying⟩, ⟨⟨hseason, haction⟩, hactionable⟩, hfeatures⟩, hmatches⟩

/-- **An identity is proved once**, by the earliest of its episodes that was ever registered, whatever was pruned
since and however often the engine was made again. -/
theorem one_proof (hash : TrajectoryMaterial → String) (engine : LearningEngine) (actions : List LedgerAction)
    (key : PolicyIdentityKey) :
    let s := run (PolicyLedger.step hash) (.new engine) actions;
    (∀ contract notBefore, ∀ episode ∈ s.engine.policyEvidence contract notBefore,
      episode ∈ s.countable episode.policyIdentityKey) ∧
    (s.countable key = [] ∨ ∃ episode, s.countable key = [episode] ∧ episode.IsFirst s.registered key) := by
  intro s
  have hsound : s.Sound := run_invariant (.new engine) fun _ action h => h.step hash action
  refine ⟨fun contract notBefore episode => mem_countable_of_policyEvidence, ?_⟩
  rcases hsound.countable_cases key with hempty | ⟨episode, hone⟩
  · exact .inl hempty
  · exact .inr ⟨episode, hone, hsound.isFirst (by simp [hone])⟩

end SignalArcade.Challenger
