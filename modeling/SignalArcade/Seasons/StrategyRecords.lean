import SignalArcade.Seasons.SeasonStrategy

/-!
# What a season's record keeps
-/

namespace SignalArcade.Seasons

open Runs List

variable {readers : DatetimeReaders} {r : StrategyRecord} {valid : List Identity} {unattributed baselineUse : Bool}
  {at' : String}

/-! ### Facts -/

/-- What the record says of the participants as a whole. -/
inductive Fact where
  | skill (skill : ChallengerSkill)
  | ai
  | champion

def Identity.shows (p : Identity) : Fact → Bool
  | .skill skill => p.skill = some skill
  | .ai => p.kind = .aiCritic
  | .champion => p.kind = .champion

/-- The record says that it was used. -/
def StrategyRecord.observes (r : StrategyRecord) : Fact → Bool
  | .skill skill => skill ∈ r.skillsObserved
  | .ai => r.aiObserved
  | .champion => r.championObserved

theorem extended_skills (r : StrategyRecord) (valid : List Identity) (unattributed baselineUse : Bool) (at' : String) :
    (r.extended valid unattributed baselineUse at').skillsObserved =
      ChallengerSkill.sorted fun skill => skill ∈ r.skillsObserved || valid.any (·.skill = some skill) := rfl

theorem extended_observes (r : StrategyRecord) (valid : List Identity) (unattributed baselineUse : Bool) (at' : String)
    (fact : Fact) :
    (r.extended valid unattributed baselineUse at').observes fact = (r.observes fact || valid.any (·.shows fact)) := by
  cases fact with
  | skill skill =>
    rw [Bool.eq_iff_iff]
    simp [StrategyRecord.observes, StrategyRecord.extended, Identity.shows]
  | ai => rfl
  | champion => rfl

/-! ### What a use adds -/

variable {p : Identity} {started : ℤ}

theorem mem_known : p ∈ r.known ↔ ∃ q ∈ r.participants, q.toIdentity = p := by
  simp [StrategyRecord.known]

theorem mem_additions : p ∈ r.additions valid ↔ p ∈ valid ∧ p ∉ r.known := by
  have hunique : p ∈ (Table.ofRows valid : Table Identity Identity id).rows ↔ p ∈ valid := by
    refine ⟨Table.mem_of_mem_ofRows, fun hp => ?_⟩
    obtain ⟨q, hq⟩ : ∃ q, (Table.ofRows valid : Table Identity Identity id).get? (id p) = some q :=
      Table.exists_get?_ofRows hp
    obtain ⟨hmem, rfl⟩ := Table.get?_eq_some.mp hq
    exact hmem
  rw [StrategyRecord.additions, mem_filter, hunique, decide_eq_true_eq]

theorem nodup_additions (r : StrategyRecord) (valid : List Identity) : (r.additions valid).Nodup := by
  refine Nodup.filter _ ?_
  simpa using (Table.ofRows valid : Table Identity Identity id).nodup

/-! ### What a record keeps -/

/-- The rules between the fields of a record. -/
structure StrategyRecord.Kept (r : StrategyRecord) : Prop where
  schema : r.schemaVersion = 1
  sorted : r.skillsObserved = ChallengerSkill.sorted (· ∈ r.skillsObserved)
  valid : ∀ p ∈ r.participants, p.toIdentity.valid = true
  nodup : (r.participants.map Participant.toIdentity).Nodup
  length_le : r.participants.length ≤ maxParticipants
  limited : r.detailsLimited = true → r.participants.length = maxParticipants
  shown : ∀ p ∈ r.participants, ∀ fact, p.shows fact = true → r.observes fact = true
  observed : r.detailsLimited = false → ∀ fact, r.observes fact = true → ∃ p ∈ r.participants, p.shows fact = true
  baseline : r.baselineObserved = r.firstBaselineAt.isSome

theorem Kept.new (startedAt : String) (complete : Bool) : (newStrategyRecord startedAt complete).Kept where
  schema := rfl
  sorted := rfl
  valid := by simp [newStrategyRecord]
  nodup := nodup_nil
  length_le := Nat.zero_le _
  limited := by simp [newStrategyRecord]
  shown := by simp [newStrategyRecord]
  observed := fun _ fact => by cases fact <;> simp [newStrategyRecord, StrategyRecord.observes]
  baseline := rfl

namespace StrategyRecord.Kept

section

variable (h : r.Kept)
include h

theorem card_known : r.known.card = r.participants.length := by
  rw [StrategyRecord.known, toFinset_card_of_nodup h.nodup, length_map]

theorem extended_participants :
    (r.extended valid unattributed baselineUse at').participants = r.participants ++
      ((r.additions valid).take (maxParticipants - r.participants.length)).map fun p => ⟨p, at'⟩ := by
  rw [StrategyRecord.extended, h.card_known]

theorem extended_limited :
    (r.extended valid unattributed baselineUse at').detailsLimited =
      (r.detailsLimited || maxParticipants < r.participants.length + (r.additions valid).length) := by
  rw [StrategyRecord.extended, h.card_known]

theorem mem_extended (hunlimited : (r.extended valid unattributed baselineUse at').detailsLimited = false)
    {p : Identity} (hp : p ∈ valid) : ∃ q ∈ (r.extended valid unattributed baselineUse at').participants,
      q.toIdentity = p := by
  rw [h.extended_limited, Bool.or_eq_false_iff, decide_eq_false_iff_not, not_lt] at hunlimited
  rw [h.extended_participants, take_of_length_le (by omega)]
  by_cases hknown : p ∈ r.known
  · obtain ⟨q, hq, hqp⟩ := mem_known.mp hknown
    exact ⟨q, mem_append_left _ hq, hqp⟩
  · exact ⟨⟨p, at'⟩, mem_append_right _ (mem_map_of_mem (mem_additions.mpr ⟨hp, hknown⟩)), rfl⟩

theorem of_mem_extended {q : Participant} (hq : q ∈ (r.extended valid unattributed baselineUse at').participants) :
    q ∈ r.participants ∨ (q.toIdentity ∈ valid ∧ q.toIdentity ∉ r.known ∧ r.known.card < maxParticipants) ∧
      q.firstUsedAt = at' := by
  rw [h.extended_participants] at hq
  rcases mem_append.mp hq with hq | hq
  · exact .inl hq
  · obtain ⟨p, hp, rfl⟩ := mem_map.mp hq
    obtain ⟨hvalid, hnew⟩ := mem_additions.mp (mem_of_mem_take hp)
    refine .inr ⟨⟨hvalid, hnew, ?_⟩, rfl⟩
    have hroom : 0 < (List.take _ _).length := length_pos_of_mem hp
    rw [length_take] at hroom
    rw [h.card_known]
    omega

theorem extended (hvalid : ∀ p ∈ valid, p.valid = true) :
    (r.extended valid unattributed baselineUse at').Kept where
  schema := h.schema
  sorted := by
    rw [extended_skills]
    exact congrArg ChallengerSkill.sorted (funext fun skill => by rw [Bool.eq_iff_iff]; simp)
  valid q hq := by
    rcases h.of_mem_extended hq with hq | ⟨⟨hq, -⟩, -⟩
    · exact h.valid q hq
    · exact hvalid _ hq
  nodup := by
    rw [h.extended_participants, map_append, map_map]
    have hadded : ((r.additions valid).take (maxParticipants - r.participants.length)).map
        (Participant.toIdentity ∘ fun p => ⟨p, at'⟩) =
        (r.additions valid).take (maxParticipants - r.participants.length) := map_id _
    rw [hadded]
    refine nodup_append.mpr ⟨h.nodup, (nodup_additions r valid).sublist (take_sublist ..), ?_⟩
    rintro p hp q hq rfl
    exact (mem_additions.mp (mem_of_mem_take hq)).2 (mem_toFinset.mpr hp)
  length_le := by
    have := h.length_le
    rw [h.extended_participants, length_append, length_map, length_take]
    omega
  limited hlimited := by
    have hle := h.length_le
    rw [h.extended_limited, Bool.or_eq_true, decide_eq_true_eq] at hlimited
    rw [h.extended_participants, length_append, length_map, length_take]
    rcases hlimited with hlimited | hlimited
    · have := h.limited hlimited
      omega
    · omega
  shown q hq fact hshows := by
    rw [extended_observes, Bool.or_eq_true]
    rcases h.of_mem_extended hq with hq | ⟨⟨hq, -⟩, -⟩
    · exact .inl (h.shown q hq fact hshows)
    · exact .inr (any_eq_true.mpr ⟨_, hq, hshows⟩)
  observed hunlimited fact hobserved := by
    rw [extended_observes, Bool.or_eq_true] at hobserved
    rcases hobserved with hobserved | hobserved
    · have hlimited : r.detailsLimited = false := by
        rw [h.extended_limited, Bool.or_eq_false_iff] at hunlimited
        exact hunlimited.1
      obtain ⟨p, hp, hshows⟩ := h.observed hlimited fact hobserved
      exact ⟨p, by rw [h.extended_participants]; exact mem_append_left _ hp, hshows⟩
    · obtain ⟨p, hp, hshows⟩ := any_eq_true.mp hobserved
      obtain ⟨q, hq, rfl⟩ := h.mem_extended hunlimited hp
      exact ⟨q, hq, hshows⟩
  baseline := by
    have hb := h.baseline
    cases hfirst : r.firstBaselineAt <;> cases baselineUse <;> simp_all [StrategyRecord.extended]

theorem use_eq_extended (participants : List RawParticipant) (at' : String) :
    r.use readers participants at' = r.extended (validParticipants readers participants at')
      (participants.any fun p => (strategyParticipant readers p at').isNone) participants.isEmpty at' := by
  unfold StrategyRecord.use
  dsimp only
  split_ifs with hsame
  · obtain ⟨hparticipants, hskills, hai, hchampion, hbaseline, hlimited, hunattributed⟩ := hsame
    have hfirst : r.firstBaselineAt = r.firstBaselineAt.or (if participants.isEmpty then some at' else none) := by
      have hb := h.baseline
      cases hfirst : r.firstBaselineAt with
      | some t => rfl
      | none =>
        -- the baseline was not used before, so it is not now
        rw [hfirst, Option.isSome_none] at hb
        have hused : participants.isEmpty = false := by simpa [StrategyRecord.extended, hb] using hbaseline
        rw [hused]
        rfl
    exact StrategyRecord.ext rfl rfl rfl hbaseline.symm hfirst hskills.symm hai.symm hchampion.symm
      hunattributed.symm hparticipants.symm hlimited.symm
  · rfl

theorem extended_extended (hvalid : ∀ p ∈ valid, p.valid = true) :
    (r.extended valid unattributed baselineUse at').extended valid unattributed baselineUse at' =
      r.extended valid unattributed baselineUse at' := by
  have h' : (r.extended valid unattributed baselineUse at').Kept := h.extended hvalid
  generalize hr' : r.extended valid unattributed baselineUse at' = r' at h'
  have hobserves (fact : Fact) (hf : valid.any (·.shows fact) = true) : r'.observes fact = true := by
    rw [← hr', extended_observes, hf, Bool.or_true]
  -- there is no room for more, or all are known
  have hfull : r'.detailsLimited = true ∨ r'.additions valid = [] := by
    cases hlimited : r'.detailsLimited with
    | true => exact .inl rfl
    | false =>
      refine .inr (eq_nil_iff_forall_not_mem.mpr fun p hp => ?_)
      obtain ⟨hmem, hunknown⟩ := mem_additions.mp hp
      have hunlimited : (r.extended valid unattributed baselineUse at').detailsLimited = false := hr' ▸ hlimited
      obtain ⟨q, hq, hqp⟩ := h.mem_extended hunlimited hmem
      exact hunknown (mem_known.mpr ⟨q, hr' ▸ hq, hqp⟩)
  refine StrategyRecord.ext rfl rfl rfl ?_ ?_ ?_ ?_ ?_ ?_ ?_ ?_
  · simp [← hr', StrategyRecord.extended]
  · simp [← hr', StrategyRecord.extended, Option.or_assoc]
  · rw [extended_skills, h'.sorted]
    refine congrArg ChallengerSkill.sorted (funext fun skill => ?_)
    rw [← h'.sorted, Bool.or_eq_left_iff_imp]
    exact hobserves (.skill skill)
  · exact Bool.or_eq_left_iff_imp.mpr (hobserves .ai)
  · exact Bool.or_eq_left_iff_imp.mpr (hobserves .champion)
  · simp [← hr', StrategyRecord.extended]
  · rw [h'.extended_participants]
    rcases hfull with hlimited | hknown
    · simp [h'.limited hlimited]
    · simp [hknown]
  · rw [h'.extended_limited]
    have := h'.length_le
    rcases hfull with hlimited | hknown
    · simp [hlimited]
    · simp [hknown, this]

end

end StrategyRecord.Kept

/-! ### Runs of uses -/

/-- A call of `record_strategy_use`. -/
structure Use where
  participants : List RawParticipant
  at' : String

/-- A use is recorded. -/
def step (readers : DatetimeReaders) (r : StrategyRecord) (u : Use) : StrategyRecord :=
  recordStrategyUse readers r u.participants u.at'

theorem of_mem_validParticipants {participants : List RawParticipant}
    (h : p ∈ validParticipants readers participants at') :
    p.valid = true ∧ ∃ t, readers.awareDatetime at' = some t := by
  obtain ⟨raw, -, hraw⟩ := mem_filterMap.mp h
  obtain ⟨⟨q, t⟩, hq, rfl⟩ := Option.map_eq_some_iff.mp hraw
  simp only [strategyParticipant, Option.bind_eq_bind, Option.bind_eq_some_iff] at hq
  obtain ⟨_, -, kind, -, _, -, skill, -, version, -, t', ht', hq⟩ := hq
  split_ifs at hq with hvalid
  cases hq
  exact ⟨hvalid, _, ht'⟩

theorem step_cases (readers : DatetimeReaders) (h : r.Kept) (u : Use) :
    step readers r u = r ∨ readers.notBefore u.at' r.trackingStartedAt = true ∧
      step readers r u = r.extended (validParticipants readers u.participants u.at')
        (u.participants.any fun p => (strategyParticipant readers p u.at').isNone) u.participants.isEmpty u.at' := by
  unfold step recordStrategyUse
  split_ifs with hbefore
  · exact .inr ⟨hbefore, h.use_eq_extended u.participants u.at'⟩
  · exact .inl rfl

theorem StrategyRecord.Kept.step (h : r.Kept) (u : Use) : (step readers r u).Kept := by
  rcases step_cases readers h u with hstep | ⟨-, hstep⟩
  · rw [hstep]
    exact h
  · rw [hstep]
    exact h.extended fun p hp => (of_mem_validParticipants hp).1

/-- What a use leaves of the record: the participants and all that was observed. Used again it changes
nothing. -/
structure Grows (readers : DatetimeReaders) (r : StrategyRecord) (u : Use) : Prop where
  participants : r.participants <+: (step readers r u).participants
  observes : ∀ fact, r.observes fact = true → (step readers r u).observes fact = true
  baseline : r.baselineObserved = true → (step readers r u).baselineObserved = true
  again : step readers (step readers r u) u = step readers r u

/-- A use is recorded once. -/
theorem StrategyRecord.Kept.grows (h : r.Kept) (u : Use) : Grows readers r u := by
  have hagain : Seasons.step readers (Seasons.step readers r u) u = Seasons.step readers r u := by
    rcases step_cases readers h u with hstep | ⟨hbefore, hstep⟩
    · rw [hstep, hstep]
    · have hvalid : ∀ p ∈ validParticipants readers u.participants u.at', p.valid = true :=
        fun p hp => (of_mem_validParticipants hp).1
      rcases step_cases readers (h.step u) u with hstep' | ⟨-, hstep'⟩
      · exact hstep'
      · rw [hstep', hstep]
        exact h.extended_extended hvalid
  rcases step_cases readers h u with hstep | ⟨-, hstep⟩
  · refine ⟨?_, ?_, ?_, hagain⟩
    · rw [hstep]
    · rw [hstep]
      exact fun _ hf => hf
    · rw [hstep]
      exact id
  · refine ⟨?_, fun fact hf => ?_, fun hb => ?_, hagain⟩
    · rw [hstep, h.extended_participants]
      exact prefix_append ..
    · rw [hstep, extended_observes, hf, Bool.true_or]
    · rw [hstep, StrategyRecord.extended, hb, Bool.true_or]

/-! ### Times that are read -/

/-- The times of the record can be read, and none is before its start. -/
structure StrategyRecord.Timed (readers : DatetimeReaders) (started : ℤ) (r : StrategyRecord) : Prop where
  start : readers.awareDatetime r.trackingStartedAt = some started
  participants : ∀ p ∈ r.participants, ∃ t, readers.awareDatetime p.firstUsedAt = some t ∧ started ≤ t
  baseline : ∀ at' ∈ r.firstBaselineAt, ∃ t, readers.awareDatetime at' = some t ∧ started ≤ t

/-- A use stores its time: as the first one without participants, or with one that is new. -/
def Stores (readers : DatetimeReaders) (r : StrategyRecord) (u : Use) : Prop :=
  u.participants = [] ∧ r.firstBaselineAt = none ∨
    ∃ p ∈ validParticipants readers u.participants u.at', p ∉ r.known ∧ r.known.card < maxParticipants

/-- A time that is stored is read, and where `fromisoformat` reads the start without a time zone, as one not before it. -/
def Storable (readers : DatetimeReaders) (r : StrategyRecord) (u : Use) : Prop :=
  readers.notBefore u.at' r.trackingStartedAt = true → Stores readers r u → ∃ t, readers.awareDatetime u.at' = some t ∧
    ∀ d ∈ readers.fromisoformat r.trackingStartedAt, d.aware = false →
      ∀ started ∈ readers.awareDatetime r.trackingStartedAt, started ≤ t

theorem Storable.stored {u : Use} (hu : Storable readers r u) (hstores : Stores readers r u)
    (h : readers.notBefore u.at' r.trackingStartedAt = true)
    (hstarted : readers.awareDatetime r.trackingStartedAt = some started) :
    ∃ t, readers.awareDatetime u.at' = some t ∧ started ≤ t := by
  obtain ⟨t, ht, hnaive⟩ := hu h hstores
  refine ⟨t, ht, ?_⟩
  unfold DatetimeReaders.notBefore at h
  split at h
  · rename_i d d' hd hd'
    cases haware' : d'.aware with
    | false => exact hnaive d' hd' haware' started hstarted
    | true =>
      unfold Datetime.lt? at h
      split_ifs at h with haware
      · rw [← readers.agree hd (haware.trans haware') ht, ← readers.agree hd' haware' hstarted]
        simpa using h
      · cases h
  · cases h

theorem StrategyRecord.Timed.step (h : r.Timed readers started) (hkept : r.Kept) {u : Use}
    (hu : Storable readers r u) : (step readers r u).Timed readers started := by
  rcases step_cases readers hkept u with hstep | ⟨hbefore, hstep⟩
  · rw [hstep]
    exact h
  · rw [hstep]
    refine ⟨h.start, fun p hp => ?_, fun at' hat => ?_⟩
    · rcases hkept.of_mem_extended hp with hp | ⟨⟨hp, hnew, hroom⟩, hat⟩
      · exact h.participants p hp
      · rw [hat]
        exact hu.stored (.inr ⟨_, hp, hnew, hroom⟩) hbefore h.start
    · rw [StrategyRecord.extended, Option.mem_def, Option.or_eq_some_iff] at hat
      rcases hat with hat | ⟨hnone, hat⟩
      · exact h.baseline at' hat
      · split_ifs at hat with hempty
        cases hat
        exact hu.stored (.inl ⟨isEmpty_iff.mp hempty, hnone⟩) hbefore h.start

/-! ### The reader -/

theorem strategyParticipant_raw {t : ℤ} (hvalid : p.valid = true)
    (ht : readers.awareDatetime at' = some t) : strategyParticipant readers p.raw at' = some (p, t) := by
  simp [strategyParticipant, Identity.raw, ht, hvalid]

theorem read_participants {participants : List Participant} (hvalid : ∀ p ∈ participants, p.toIdentity.valid = true)
    (htimes : ∀ p ∈ participants, ∃ t, readers.awareDatetime p.firstUsedAt = some t ∧ started ≤ t) :
    ∃ read, participants.mapM (fun p => strategyParticipant readers p.toIdentity.raw p.firstUsedAt) = some read ∧
      read.map Prod.fst = participants.map Participant.toIdentity ∧ ∀ q ∈ read, started ≤ q.2 := by
  induction participants with
  | nil => exact ⟨[], rfl, rfl, by simp⟩
  | cons p participants ih =>
    rw [forall_mem_cons] at hvalid htimes
    obtain ⟨t, ht, hle⟩ := htimes.1
    obtain ⟨read, hread, hmap, htimes'⟩ := ih hvalid.2 htimes.2
    refine ⟨(p.toIdentity, t) :: read, ?_, ?_, ?_⟩
    · rw [mapM_cons, strategyParticipant_raw hvalid.1 ht, hread]
      rfl
    · rw [map_cons, map_cons, hmap]
    · exact forall_mem_cons.mpr ⟨hle, htimes'⟩

theorem StrategyRecord.Kept.consistentHistory (h : r.Kept) {first : Option ℤ}
    {read : List (Identity × ℤ)} (hmap : read.map Prod.fst = r.participants.map Participant.toIdentity)
    (htimes : ∀ q ∈ read, started ≤ q.2) (hsome : first.isSome = r.firstBaselineAt.isSome)
    (hfirst : ∀ t ∈ first, started ≤ t) :
    SeasonStrategyRecord.consistentHistory
      { trackingStartedAt := started, completeFromStart := r.completeFromStart,
        baselineObserved := r.baselineObserved, firstBaselineAt := first, skillsObserved := r.skillsObserved,
        aiObserved := r.aiObserved, championObserved := r.championObserved, unattributedUse := r.unattributedUse,
        participants := read, detailsLimited := r.detailsLimited } = true := by
  have hlength : read.length = r.participants.length := by
    simpa using congrArg List.length hmap
  have hcard : (read.map Prod.fst).toFinset.card = read.length := by
    rw [hmap, toFinset_card_of_nodup h.nodup, length_map, hlength]
  have hskills : r.skillsObserved.toFinset.card = r.skillsObserved.length := by
    refine toFinset_card_of_nodup ?_
    rw [h.sorted]
    exact ChallengerSkill.nodup_sorted _
  -- what is shown by the participants is observed, and without a limit the other way round
  have hshown (fact : Fact) (hf : ∃ q ∈ read, q.1.shows fact = true) : r.observes fact = true := by
    obtain ⟨q, hq, hshows⟩ := hf
    have hmem := mem_map_of_mem (f := Prod.fst) hq
    rw [hmap] at hmem
    obtain ⟨p, hp, he⟩ := mem_map.mp hmem
    exact h.shown p hp fact (he ▸ hshows)
  have hobserved (hlimited : r.detailsLimited = false) (fact : Fact) (hf : r.observes fact = true) :
      ∃ q ∈ read, q.1.shows fact = true := by
    obtain ⟨p, hp, hshows⟩ := h.observed hlimited fact hf
    have hmem := mem_map_of_mem (f := Participant.toIdentity) hp
    rw [← hmap] at hmem
    obtain ⟨q, hq, he⟩ := mem_map.mp hmem
    exact ⟨q, hq, he ▸ hshows⟩
  have hskill (skill : ChallengerSkill) :
      skill ∈ (read.filterMap (·.1.skill)).toFinset ↔ ∃ q ∈ read, q.1.shows (.skill skill) = true := by
    simp [Identity.shows]
  have hai : read.any (·.1.kind = .aiCritic) = true ↔ ∃ q ∈ read, q.1.shows .ai = true := any_eq_true
  have hchampion : read.any (·.1.kind = .champion) = true ↔ ∃ q ∈ read, q.1.shows .champion = true :=
    any_eq_true
  unfold SeasonStrategyRecord.consistentHistory
  dsimp only
  rw [if_neg]
  · cases hlimited : r.detailsLimited with
    | true =>
      rw [if_pos rfl, decide_eq_true_eq]
      refine ⟨hlength.trans (h.limited hlimited), fun skill hs => ?_, fun ha => ?_, fun hc => ?_⟩
      · simpa [StrategyRecord.observes] using hshown (.skill skill) ((hskill skill).mp hs)
      · exact hshown .ai (hai.mp ha)
      · exact hshown .champion (hchampion.mp hc)
    | false =>
      rw [if_neg Bool.false_ne_true, decide_eq_true_eq]
      have hiff (fact : Fact) : (∃ q ∈ read, q.1.shows fact = true) ↔ r.observes fact = true :=
        ⟨hshown fact, hobserved hlimited fact⟩
      refine ⟨Finset.ext fun skill => ?_, ?_, ?_⟩
      · rw [hskill, hiff]
        simp [StrategyRecord.observes]
      · exact Bool.eq_iff_iff.mpr (hai.trans (hiff .ai))
      · exact Bool.eq_iff_iff.mpr (hchampion.trans (hiff .champion))
  · rintro (hne | hne | hne | ⟨q, hq, hlt⟩ | ⟨t, ht, hlt⟩)
    · exact hne hcard
    · exact hne hskills
    · exact hne (h.baseline.trans hsome.symm)
    · exact absurd hlt (not_lt.mpr (htimes q hq))
    · exact absurd hlt (not_lt.mpr (hfirst t ht))

theorem readStrategyRecord_isSome (hkept : r.Kept) (htimed : r.Timed readers started) :
    (readStrategyRecord readers r).isSome = true := by
  obtain ⟨read, hread, hmap, htimes⟩ := read_participants hkept.valid htimed.participants
  obtain ⟨first, hfirst, hsome, hfirstle⟩ : ∃ first, readers.awareDatetime? r.firstBaselineAt = some first ∧
      first.isSome = r.firstBaselineAt.isSome ∧ ∀ t ∈ first, started ≤ t := by
    cases hf : r.firstBaselineAt with
    | none => exact ⟨none, rfl, rfl, by simp⟩
    | some at' =>
      obtain ⟨t, ht, hle⟩ := htimed.baseline at' hf
      exact ⟨some t, by simp [DatetimeReaders.awareDatetime?, ht], rfl, by simpa using hle⟩
  have hconsistent := hkept.consistentHistory hmap htimes hsome hfirstle
  have hskills : r.skillsObserved.length ≤ 4 := by
    rw [hkept.sorted]
    exact ChallengerSkill.length_sorted_le _
  unfold readStrategyRecord
  simp only [Option.bind_eq_bind, htimed.start, hfirst, hread, Option.bind_some]
  rw [if_pos ⟨hkept.schema, hskills, hkept.length_le, hconsistent⟩]
  rfl

/-- **A season's record stays readable and only grows.** Whatever uses are recorded in a record with
a start that is read: what one leaves is kept, and the reader accepts the record as long as it reads the times
that are stored, none of them as one before the start. -/
theorem strategy_record (readers : DatetimeReaders) {startedAt : String} {started : ℤ}
    (hstarted : readers.awareDatetime startedAt = some started) (complete : Bool) (uses : List Use)
    (hstorable : Along (step readers) (Storable readers) (newStrategyRecord startedAt complete) uses) :
    (readStrategyRecord readers (run (step readers) (newStrategyRecord startedAt complete) uses)).isSome = true ∧
      Along (step readers) (Grows readers) (newStrategyRecord startedAt complete) uses := by
  have hnew : (newStrategyRecord startedAt complete).Kept ∧ (newStrategyRecord startedAt complete).Timed readers started :=
    ⟨Kept.new startedAt complete, hstarted, by simp [newStrategyRecord], by simp [newStrategyRecord]⟩
  constructor
  · obtain ⟨hkept, htimed⟩ := hstorable.invariant (I := fun r => r.Kept ∧ r.Timed readers started) hnew
      fun r u h hu => ⟨h.1.step u, h.2.step h.1 hu⟩
    exact readStrategyRecord_isSome hkept htimed
  · exact hstorable.derive (I := StrategyRecord.Kept) hnew.1 (fun r u h _ => h.step u) fun r u h _ => h.grows u

/-- Noon of a day in September, and the same time in the basic format, which only `fromisoformat` reads. -/
def noonReaders : DatetimeReaders where
  fromisoformat s :=
    if s = "2026-09-08T12:00:00+00:00" ∨ s = "20260908T120000+00:00" then some ⟨true, 1788868800000000⟩ else none
  awareDatetime s := if s = "2026-09-08T12:00:00+00:00" then some 1788868800000000 else none
  agree hd _ ht := by
    split_ifs at hd ht
    cases hd
    cases ht
    rfl
  fromisoformat_empty := by decide

/-- A Champion is used, then nobody. -/
def noonUses : List Use :=
  [⟨[⟨some "champion", some "entry", some "entry-1"⟩, ⟨some "champion", none, none⟩], "2026-09-08T12:00:00+00:00"⟩,
    ⟨[], "2026-09-08T12:00:00+00:00"⟩]

/-- The record of a noon can be read. -/
theorem strategy_record_noon :
    (readStrategyRecord noonReaders
      (run (step noonReaders) (newStrategyRecord "2026-09-08T12:00:00+00:00" true) noonUses)).isSome = true ∧
      Along (step noonReaders) (Grows noonReaders) (newStrategyRecord "2026-09-08T12:00:00+00:00" true) noonUses :=
  strategy_record noonReaders (show noonReaders.awareDatetime _ = some 1788868800000000 by decide) true noonUses
    (along_cons.mpr ⟨fun _ _ => ⟨1788868800000000, by decide, by rintro _ ⟨⟩ ⟨⟩⟩,
      along_cons.mpr ⟨fun _ _ => ⟨1788868800000000, by decide, by rintro _ ⟨⟩ ⟨⟩⟩, along_nil⟩⟩)

/-- **A baseline can make the record unreadable.** It is used first at a time that only `fromisoformat`
reads. -/
theorem unreadable_baseline :
    (readStrategyRecord noonReaders (newStrategyRecord "2026-09-08T12:00:00+00:00" true)).isSome = true ∧
      readStrategyRecord noonReaders
        (step noonReaders (newStrategyRecord "2026-09-08T12:00:00+00:00" true) ⟨[], "20260908T120000+00:00"⟩) =
        none := by
  decide +kernel

end SignalArcade.Seasons
