import SignalArcade.Challenger.RecoveryResolves
import SignalArcade.Challenger.TournamentLaws

/-!
# Runs of the tournaments

Every order of registrations, starts, rounds and hypotheses of the Coach, with anything that is not a
state of a skill changing in between: artifacts come and go, the cohort, the policies and the evidence
change, and so does who is active. Beside the engine a run keeps the milestones of each state, of
which the state itself keeps only the last ones.
-/

namespace SignalArcade.Challenger

open Paper (Instant)
open Runs Selection List

/-- A call of the engine. -/
inductive TournamentAction where
  | register (artifact : ChallengerSkillArtifact) (cohortKey : CohortKey) (payload deferTournament : Bool) (now : Instant)
  /-- `_start_next_skill_tournament` of a state, which is then saved. -/
  | start (key : SkillKey) (now : Instant)
  | advance (now : Instant)
  | seed (hypothesis : CoachHypothesis) (now : Instant)
  /-- All but the states of the skills becomes what it is there. -/
  | elsewhere (world : LearningEngine)

/-- The engine, and the milestones of each of its states. -/
structure TournamentWorld where
  engine : LearningEngine
  milestones : SkillKey → List Milestone

namespace LearningEngine

def stateAt (engine : LearningEngine) (key : SkillKey) : ChallengerSkillState :=
  (engine.skillStates.get? key).getD { cohortKey := key.1, skill := key.2 }

/-- What an action makes of the engine; one that raises leaves it. -/
def act (engine : LearningEngine) : TournamentAction → LearningEngine
  | .register artifact cohortKey payload deferTournament now =>
    (engine.registerSkillArtifact artifact cohortKey payload deferTournament now).getD engine
  | .start key now =>
    match engine.skillStates.get? key with
    | none => engine
    | some state => engine.saveState (engine.startNextSkillTournament now state)
  | .advance now => engine.advanceEntryTournaments now
  | .seed hypothesis now => ((engine.seedCoachCandidate hypothesis now).map fun result => result.2.2).getD engine
  | .elsewhere world => { world with skillStates := engine.skillStates }

/-- The battle that a round decides, of the state under `key`. -/
def roundMilestones (engine : LearningEngine) (round key : SkillKey) : List Milestone :=
  if round = key ∧ engine.currentCohortKey = some key.1 then engine.battle (engine.stateAt key) else []

/-- The battles that the loop decides, of the state under `key`. -/
def loopMilestones (now : Instant) (key : SkillKey) : LearningEngine → List SkillKey → List Milestone
  | _, [] => []
  | engine, round :: rounds =>
    engine.roundMilestones round key ++
      match engine.advanceSkill now round with
      | (engine, true) => loopMilestones now key engine rounds
      | (_, false) => []

/-- The milestones that an action adds to the state under `key`. -/
def newMilestones (engine : LearningEngine) (key : SkillKey) : TournamentAction → List Milestone
  | .advance now => engine.loopMilestones now key (engine.skillStates.rows.map ChallengerSkillState.key)
  | action => firstCrown (engine.stateAt key).championVersion ((engine.act action).stateAt key).championVersion

end LearningEngine

namespace TournamentWorld

def step (world : TournamentWorld) (action : TournamentAction) : TournamentWorld where
  engine := world.engine.act action
  milestones := fun key => world.milestones key ++ world.engine.newMilestones key action

/-- Before there is any state. -/
def initial (engine : LearningEngine) : TournamentWorld where
  engine := { engine with skillStates := .empty }
  milestones := fun _ => []

end TournamentWorld

/-! ### What a state keeps -/

/-- What the laws are about. -/
def contest (state : ChallengerSkillState) :
    Option String × List String × Option String × List String × List ChampionEvent :=
  (state.testingVersion, state.pendingVersions, state.championVersion, state.rejectedVersions, state.championJourney)

/-- The state is orderly, and its journey is the end of the milestones. -/
structure Tracked (milestones : List Milestone) (state : ChallengerSkillState) : Prop where
  orderly : Orderly state
  journey : Journey milestones state
  length : state.championJourney.length ≤ recentChampionEventsInMemory

section

variable {state state' : ChallengerSkillState} {milestones : List Milestone} {engine engine' : LearningEngine}
  {key : SkillKey} {now : Instant}

theorem Tracked.congr (h : Tracked milestones state) (hsame : contest state' = contest state) : Tracked milestones state' := by
  simp only [contest, Prod.mk.injEq] at hsame
  obtain ⟨htesting, hpending, hchampion, hrejected, hjourney⟩ := hsame
  exact ⟨h.orderly.sublist (hpending ▸ Sublist.refl _) htesting hchampion hrejected, h.journey.congr hchampion hjourney,
    hjourney ▸ h.length⟩

theorem tracked_acknowledged (horderly : Orderly state) (h : Journey milestones state) : Tracked milestones state.acknowledged where
  orderly := horderly.sublist (Sublist.refl _) rfl rfl rfl
  journey := by
    refine ⟨h.linked, h.champion, fun hnodup => ?_⟩
    obtain ⟨n, hn, hjourney⟩ := h.recent hnodup
    refine ⟨recentChampionEventsInMemory, le_refl _, ?_⟩
    show (state.championJourney.rtake _).map _ = _
    rw [map_rtake, hjourney, rtake_rtake, min_eq_left hn]
  length := length_rtake_le _ _

theorem Tracked.recent (h : Tracked milestones state) (hnodup : milestones.Nodup) :
    state.championJourney.map ChampionEvent.milestone = milestones.rtake recentChampionEventsInMemory := by
  obtain ⟨n, hn, hjourney⟩ := h.journey.recent hnodup
  have hlength : (milestones.rtake n).length ≤ recentChampionEventsInMemory := by
    rw [← hjourney, length_map]
    exact h.length
  rw [hjourney, ← min_eq_left hn, ← rtake_rtake, rtake_of_length_le hlength]

end

/-! ### What an operation writes -/

namespace LearningEngine

variable {engine engine' : LearningEngine} {state state' : ChallengerSkillState} {artifact : ChallengerSkillArtifact}
  {milestones : List Milestone} {key round : SkillKey} {now : Instant}

theorem stateAt_of_get? (h : engine.skillStates.get? key = some state) : engine.stateAt key = state := by
  rw [stateAt, h]
  rfl

theorem stateAt_key (engine : LearningEngine) (key : SkillKey) : (engine.stateAt key).key = key := by
  unfold stateAt
  cases hstate : engine.skillStates.get? key with
  | none => rfl
  | some state => exact (Table.get?_eq_some.mp hstate).2

theorem stateAt_congr (h : engine'.skillStates = engine.skillStates) (key : SkillKey) : engine'.stateAt key = engine.stateAt key := by
  rw [stateAt, h]
  rfl

theorem stateAt_upsert (h : engine'.skillStates = engine.skillStates.upsert state) (key : SkillKey) :
    engine'.stateAt key = if key = state.key then state else engine.stateAt key := by
  rw [stateAt, h, Table.get?_upsert]
  split_ifs <;> rfl

theorem contest_stateAt (h : SameAt key contest engine engine') : contest (engine'.stateAt key) = contest (engine.stateAt key) := by
  unfold stateAt
  have hsame : (engine'.skillStates.get? key).map contest = (engine.skillStates.get? key).map contest := h
  cases hstate : engine.skillStates.get? key with
  | none =>
    rw [hstate, Option.map_none, Option.map_eq_none_iff] at hsame
    rw [hsame]
  | some state =>
    rw [hstate, Option.map_some, Option.map_eq_some_iff] at hsame
    obtain ⟨state', hstate', heq⟩ := hsame
    rw [hstate']
    exact heq

theorem startNext_key : (engine.startNextSkillTournament now state).key = state.key := by
  have hstarts := startNext_starts engine now state
  generalize engine.startNextSkillTournament now state = state' at hstarts ⊢
  cases hstarts with
  | busy | unavailable | idle | begins => rfl
  | crowns selected =>
    rw [crownFirst, appendChampionEvent_frame]
    rfl
  | crownsAndBegins selected candidate =>
    rw [crownFirst, appendChampionEvent_frame]
    rfl

theorem registeredState_key {deferTournament : Bool} :
    (engine.registeredState artifact deferTournament now state).key = state.key := by
  unfold registeredState
  dsimp only
  split_ifs
  · rfl
  · rw [startNext_key]
    rfl
  · rfl

theorem withRejected_key (candidate : String) (state : ChallengerSkillState) : (withRejected candidate state).key = state.key := by
  obtain ⟨rejected, hframe⟩ := withRejected_frame candidate state
  rw [hframe]
  rfl

theorem advanceJudged_key {policy : CoveragePolicy} {candidate champion : String} :
    (engine.advanceJudged policy candidate champion now state).key = state.key := by
  unfold advanceJudged
  generalize engine.judged policy candidate champion state = judgement
  obtain ⟨record, found⟩ := judgement
  cases found with
  | collecting => rfl
  | promoted =>
    dsimp only
    rw [startNext_key, crownCandidate, appendChampionEvent_frame]
    rfl
  | inconclusive | defended =>
    dsimp only
    rw [startNext_key, settleTournament]
    refine Eq.trans (withRejected_key _ _) ?_
    rw [appendChampionEvent_frame]
    rfl

theorem advanceUnavailable_key {candidate : String} : (engine.advanceUnavailable candidate now state).key = state.key := by
  unfold advanceUnavailable
  generalize (if (engine.judgeableChampion state).isNone then state.championVersion else some candidate) = suspended
  dsimp only [suspendUnavailable]
  split_ifs
  · exact startNext_key
  · exact startNext_key
  · rfl
  · rfl

theorem advanceState_key : (engine.advanceState now state).state.key = state.key := by
  unfold advanceState
  split
  · rfl
  · split
    · split_ifs
      · dsimp only [advanceStale]
        rw [startNext_key]
        exact withRejected_key _ _
      · split
        · rfl
        · dsimp only
          exact advanceJudged_key
    · dsimp only
      exact advanceUnavailable_key

theorem promoteActiveSkill_sameAt {previous : String} :
    SameAt key contest engine (engine.promoteActiveSkill artifact previous now).1 := by
  unfold promoteActiveSkill
  split_ifs
  · exact .refl _ _ _
  · exact suspendSkill_sameAt (fun _ => rfl) fun _ _ _ _ _ => rfl
  · cases hactivated : engine.activateSkill artifact false false .dependencyPromoted now with
    | none => exact .refl _ _ _
    | some engine' => exact activateSkill_sameAt (fun _ _ => rfl) (fun _ => rfl) (fun _ _ _ _ => rfl) hactivated

/-! ### Every operation -/

/-- The laws, of every state of an engine. -/
def Lawful (engine : LearningEngine) (milestones : SkillKey → List Milestone) : Prop :=
  ∀ key, Tracked (milestones key) (engine.stateAt key)

theorem tracked_default (key : SkillKey) : Tracked [] { cohortKey := key.1, skill := key.2 } where
  orderly :=
    { testing := fun candidate h => by cases h
      nodup := nodup_nil
      length := Nat.zero_le _
      waits := fun version h => by cases h
      unrejected := fun candidate h => by cases h }
  journey := ⟨linked_nil, rfl, fun _ => ⟨_, le_refl _, rfl⟩⟩
  length := Nat.zero_le _

theorem Lawful.saved {milestones : SkillKey → List Milestone} (h : engine.Lawful milestones)
    (hstates : engine'.skillStates = engine.skillStates.upsert state'.acknowledged) (horderly : Orderly state')
    (hjourney : Journey (milestones state'.key ++
      firstCrown (engine.stateAt state'.key).championVersion state'.championVersion) state') :
    engine'.Lawful fun key => milestones key ++
      firstCrown (engine.stateAt key).championVersion (engine'.stateAt key).championVersion := by
  intro key
  dsimp only
  have hat : engine'.stateAt key = if key = state'.key then state'.acknowledged else engine.stateAt key :=
    stateAt_upsert hstates key
  by_cases hkey : key = state'.key
  · subst hkey
    rw [if_pos rfl] at hat
    rw [hat]
    exact tracked_acknowledged horderly hjourney
  · rw [if_neg hkey] at hat
    rw [hat, firstCrown_self, append_nil]
    exact h key

theorem Lawful.kept {milestones : SkillKey → List Milestone} (h : engine.Lawful milestones)
    (hstates : engine'.skillStates = engine.skillStates) :
    engine'.Lawful fun key => milestones key ++
      firstCrown (engine.stateAt key).championVersion (engine'.stateAt key).championVersion := by
  intro key
  dsimp only
  rw [stateAt_congr hstates, firstCrown_self, append_nil]
  exact h key

theorem registerSkillArtifact_lawful {milestones : SkillKey → List Milestone} {cohortKey : CohortKey}
    {payload deferTournament : Bool} (h : engine.Lawful milestones)
    (hregistered : engine.registerSkillArtifact artifact cohortKey payload deferTournament now = some engine') :
    engine'.Lawful fun key => milestones key ++
      firstCrown (engine.stateAt key).championVersion (engine'.stateAt key).championVersion := by
  unfold registerSkillArtifact at hregistered
  dsimp only at hregistered
  split_ifs at hregistered
  generalize engine.withCoverageRequirement artifact = required at hregistered
  cases hregistered
  have hkey : (engine.stateAt (cohortKey, required.skill)).key = (cohortKey, required.skill) := stateAt_key _ _
  refine h.saved rfl ?_ ?_
  · refine registeredState_orderly (h (cohortKey, required.skill)).orderly ?_ deferTournament
    rw [Table.get?_upsert, if_pos rfl]
  · rw [registeredState_key]
    refine Eq.subst (motive := fun key => Journey (milestones key ++ firstCrown (engine.stateAt key).championVersion _) _)
      hkey.symm ?_
    exact registeredState_journey (h (cohortKey, required.skill)).journey deferTournament

theorem seedCoachCandidate_lawful {milestones : SkillKey → List Milestone} {hypothesis : CoachHypothesis}
    {result : Option String × String × LearningEngine} (h : engine.Lawful milestones)
    (hseeded : engine.seedCoachCandidate hypothesis now = some result) :
    result.2.2.Lawful fun key => milestones key ++
      firstCrown (engine.stateAt key).championVersion (result.2.2.stateAt key).championVersion := by
  unfold seedCoachCandidate at hseeded
  split at hseeded
  · cases hseeded
    exact h.kept rfl
  · split at hseeded
    · cases hseeded
      exact h.kept rfl
    · split at hseeded
      · cases hseeded
        exact h.kept rfl
      · split at hseeded
        · cases hseeded
          exact h.kept rfl
        · obtain ⟨engine', hregistered, rfl⟩ := Option.map_eq_some_iff.mp hseeded
          exact registerSkillArtifact_lawful h hregistered

theorem advanceSkill_cases (engine : LearningEngine) (now : Instant) (round : SkillKey) :
    (engine.advanceSkill now round = (engine, true) ∧ ∀ state, engine.skillStates.get? round = some state →
      engine.currentCohortKey = some round.1 → (engine.advanceState now state).saved = false) ∨
    ∃ state, engine.skillStates.get? round = some state ∧ engine.currentCohortKey = some round.1 ∧
      (engine.advanceState now state).saved = true ∧
      engine.advanceSkill now round = match (engine.advanceState now state).promoted with
        | none => (engine.saveState (engine.advanceState now state).state, true)
        | some (candidate, previous) =>
          (engine.saveState (engine.advanceState now state).state).promoteActiveSkill candidate previous now := by
  unfold advanceSkill
  cases hstate : engine.skillStates.get? round with
  | none => exact .inl ⟨rfl, fun state h => by cases h⟩
  | some state =>
    dsimp only
    by_cases hcohort : engine.currentCohortKey = some round.1
    · rw [if_neg (not_not.mpr hcohort)]
      by_cases hsaved : (engine.advanceState now state).saved = true
      · rw [if_pos hsaved]
        exact .inr ⟨state, rfl, hcohort, hsaved, rfl⟩
      · rw [if_neg hsaved]
        refine .inl ⟨rfl, ?_⟩
        intro state' hstate' _
        cases hstate'
        simpa using hsaved
    · rw [if_pos hcohort]
      exact .inl ⟨rfl, fun _ _ hcurrent => absurd hcurrent hcohort⟩

theorem battle_of_unsaved (h : (engine.advanceState now state).saved = false) : engine.battle state = [] := by
  unfold advanceState at h
  unfold battle
  cases hcandidate : state.testingVersion with
  | none => rfl
  | some candidateVersion =>
    rw [hcandidate] at h
    dsimp only at h ⊢
    cases hc : engine.availableCandidate candidateVersion with
    | none => rfl
    | some candidate =>
      cases hchampion : engine.judgeableChampion state with
      | none => rfl
      | some champion =>
        rw [hc, hchampion] at h
        dsimp only at h ⊢
        split_ifs at h ⊢
        cases hpolicy : readPolicy state.lastTournament.coverage with
        | none => rfl
        | some policy =>
          rw [hpolicy] at h
          cases h

theorem advanceSkill_lawful (h : Tracked milestones (engine.stateAt key)) :
    Tracked (milestones ++ engine.roundMilestones round key) ((engine.advanceSkill now round).1.stateAt key) := by
  unfold roundMilestones
  rcases advanceSkill_cases engine now round with ⟨hsame, hunsaved⟩ | ⟨state, hstate, hcohort, -, hround⟩
  · rw [hsame]
    have hnothing : round = key ∧ engine.currentCohortKey = some key.1 → engine.battle (engine.stateAt key) = [] := by
      rintro ⟨rfl, hcohort⟩
      cases hstate : engine.skillStates.get? round with
      | none =>
        rw [stateAt, hstate]
        rfl
      | some state =>
        rw [stateAt_of_get? hstate]
        exact battle_of_unsaved (hunsaved state hstate hcohort)
    split_ifs with hmine
    · rw [hnothing hmine, append_nil]
      exact h
    · rw [append_nil]
      exact h
  · have hkey : state.key = round := (Table.get?_eq_some.mp hstate).2
    have hwritten : SameAt key contest (engine.saveState (engine.advanceState now state).state) (engine.advanceSkill now round).1 := by
      rw [hround]
      cases (engine.advanceState now state).promoted with
      | none => exact .refl _ _ _
      | some promoted => exact promoteActiveSkill_sameAt
    refine Tracked.congr ?_ (contest_stateAt hwritten)
    have hat : (engine.saveState (engine.advanceState now state).state).stateAt key =
        if key = (engine.advanceState now state).state.key then (engine.advanceState now state).state.acknowledged
        else engine.stateAt key := by
      rw [saveState, setState, stateAt_upsert rfl]
      rfl
    rw [hat, advanceState_key, hkey]
    by_cases hmine : key = round
    · subst hmine
      rw [stateAt_of_get? hstate] at h
      rw [if_pos rfl, if_pos ⟨rfl, hcohort⟩, stateAt_of_get? hstate]
      exact tracked_acknowledged (advanceState_orderly h.orderly) (advanceState_journey h.orderly h.journey)
    · rw [if_neg hmine, if_neg fun hboth => hmine hboth.1.symm, append_nil]
      exact h

theorem advanceSkills_lawful (h : Tracked milestones (engine.stateAt key)) (rounds : List SkillKey) :
    Tracked (milestones ++ engine.loopMilestones now key rounds) ((engine.advanceSkills now rounds).stateAt key) := by
  induction rounds generalizing engine milestones with
  | nil =>
    rw [loopMilestones, append_nil]
    exact h
  | cons round rounds ih =>
    have hround := @advanceSkill_lawful engine milestones key round now h
    rw [loopMilestones, advanceSkills]
    generalize engine.advanceSkill now round = result at hround ⊢
    obtain ⟨engine', returned⟩ := result
    rw [← append_assoc]
    cases returned with
    | false =>
      rw [append_nil]
      exact hround
    | true => exact ih hround

end LearningEngine

/-! ### Every run -/

namespace TournamentWorld

variable {world : TournamentWorld} {engine : LearningEngine} {actions : List TournamentAction}

theorem step_lawful (h : world.engine.Lawful world.milestones) (action : TournamentAction) :
    (world.step action).engine.Lawful (world.step action).milestones := by
  have hsaved : ∀ engine', world.engine.act action = engine' → (engine'.Lawful fun key => world.milestones key ++
      LearningEngine.firstCrown (world.engine.stateAt key).championVersion (engine'.stateAt key).championVersion) →
      (world.engine.act action).Lawful fun key => world.milestones key ++
        LearningEngine.firstCrown (world.engine.stateAt key).championVersion
          ((world.engine.act action).stateAt key).championVersion := by
    rintro engine' rfl hlawful
    exact hlawful
  cases action with
  | register artifact cohortKey payload deferTournament now =>
    cases hregistered : world.engine.registerSkillArtifact artifact cohortKey payload deferTournament now with
    | none => exact hsaved world.engine (by rw [LearningEngine.act, hregistered]; rfl) (h.kept rfl)
    | some engine' =>
      exact hsaved engine' (by rw [LearningEngine.act, hregistered]; rfl)
        (LearningEngine.registerSkillArtifact_lawful h hregistered)
  | start key now =>
    cases hstate : world.engine.skillStates.get? key with
    | none => exact hsaved world.engine (by rw [LearningEngine.act, hstate]) (h.kept rfl)
    | some state =>
      refine hsaved _ (by rw [LearningEngine.act, hstate]) ?_
      have hkey : state.key = key := (Table.get?_eq_some.mp hstate).2
      have htracked := h key
      rw [LearningEngine.stateAt_of_get? hstate] at htracked
      refine h.saved rfl (LearningEngine.startNext_orderly htracked.orderly) ?_
      rw [LearningEngine.startNext_key, hkey, LearningEngine.stateAt_of_get? hstate]
      exact LearningEngine.startNext_journey htracked.journey
  | advance now => exact fun key => LearningEngine.advanceSkills_lawful (h key) _
  | seed hypothesis now =>
    cases hseeded : world.engine.seedCoachCandidate hypothesis now with
    | none => exact hsaved world.engine (by rw [LearningEngine.act, hseeded]; rfl) (h.kept rfl)
    | some result =>
      exact hsaved result.2.2 (by rw [LearningEngine.act, hseeded]; rfl) (LearningEngine.seedCoachCandidate_lawful h hseeded)
  | elsewhere other => exact h.kept rfl

theorem run_lawful (engine : LearningEngine) (actions : List TournamentAction) :
    (run step (initial engine) actions).engine.Lawful (run step (initial engine) actions).milestones := by
  have hstart : (initial engine).engine.Lawful (initial engine).milestones := fun key => LearningEngine.tracked_default key
  exact run_invariant (I := fun world : TournamentWorld => world.engine.Lawful world.milestones) hstart fun world action h => step_lawful h action

end TournamentWorld

/-- **The tournament state machine.** In every state that registrations, starts, rounds and hypotheses
of the Coach reach, in whatever order: a candidate that tests is not the Champion, and there is one; who
waits does so once, at most `maxPendingChallengers` do, and none of them tests, is Champion or was
rejected; the milestones, one for the first Champion and one for each decided battle, are linked up to
the Champion there is; and the journey is the last hundred of them, if none was repeated. -/
theorem tournament_laws (engine : LearningEngine) (actions : List TournamentAction) (state : ChallengerSkillState)
    (h : state ∈ (run TournamentWorld.step (TournamentWorld.initial engine) actions).engine.skillStates) :
    Orderly state ∧
      let milestones := (run TournamentWorld.step (TournamentWorld.initial engine) actions).milestones state.key
      Linked milestones ∧ state.championVersion = milestones.getLast?.map Milestone.championVersion ∧
        (milestones.Nodup →
          state.championJourney.map ChampionEvent.milestone = milestones.rtake recentChampionEventsInMemory) := by
  have htracked := TournamentWorld.run_lawful engine actions state.key
  rw [LearningEngine.stateAt_of_get? (Table.get?_eq_some.mpr ⟨h, rfl⟩)] at htracked
  exact ⟨htracked.orderly, htracked.journey.linked, htracked.journey.champion, htracked.recent⟩

/-! ### What the memory does not keep -/

open LearningEngine

/-- The versions of a sequence of artifacts. -/
def guardVersion (n : ℕ) : String := String.ofList (replicate (n + 1) 'g')

theorem guardVersion_inj {m n : ℕ} (h : guardVersion m = guardVersion n) : m = n := by
  simpa [guardVersion] using congrArg String.length h

/-- One guard after the other. -/
def guard (n : ℕ) : ChallengerSkillArtifact := { doublingArtifact with version := guardVersion n, skill := .manipulation }

/-- An entry that lost half of what it cost. An artifact that `objects` vetoed it, any other supported it. -/
def lostEpisode (objects : String → Bool) (n : ℕ) : LearningEvidenceEpisode :=
  { doubledEpisode 1 with
    episodeId := "e" ++ toString n
    mint := "mint" ++ toString n
    createdAt := n
    entryAt := n
    features := fun _ => some 0
    challengerEvaluations := fun version => some {
      artifactVersion := version
      skill := .manipulation
      evaluatedAt := n
      inDistribution := true
      proposedAction := if objects version then .veto else .support }
    sizeTrials := fun _ => none
    checkpoints := fun _ => some {
      observedAt := n
      netReturn := some (-1 / 2)
      exitValueLamports := none
      bounded := by norm_num } }

/-- The engine with the outcomes of a tournament. -/
def guardWorld (objects : String → Bool) (artifacts : SkillArtifacts) (states : SkillStates) : LearningEngine :=
  { doublingEngine 4 with
    skillArtifacts := artifacts
    skillStates := states
    evidenceEpisodes := Table.ofRows ((range tournamentMinimumCommonOutcomes).map (lostEpisode objects))
    policyIdentities := fun _ => none }

/-- The engine with these artifacts and states. -/
abbrev guardEngine (artifacts : SkillArtifacts) (states : SkillStates) : LearningEngine :=
  guardWorld (fun _ => false) artifacts states

def guardCohort : CohortKey := ⟨.balanced, "configuration", "baseline-v1.5", featureSchemaVersion⟩

/-- The key of their state. -/
abbrev guardKey : SkillKey := (guardCohort, .manipulation)

/-- One artifact is registered, and its tournament is judged. -/
def guardRound (n : ℕ) : List TournamentAction := [.register (guard n) guardCohort false false 0, .advance 0]

section

variable (artifacts : SkillArtifacts) (states : SkillStates)

theorem guard_eligible (n : ℕ) : (guardEngine artifacts states).skillEligible (guard n) = true := by
  have hzero : (guardEngine .empty .empty).skillEligible (guard 0) = true := by decide +kernel
  exact hzero

theorem guard_coverageReceipt (n : ℕ) : (guardEngine artifacts states).coverageReceipt (guard n) 0 true 0 = {} := by
  rfl
theorem guard_withCoverageRequirement (n : ℕ) : (guardEngine artifacts states).withCoverageRequirement (guard n) = guard n := by
  rfl

theorem guard_redundant (n : ℕ) (state : ChallengerSkillState) : (guardEngine artifacts states).redundantExitCandidate state (guard n) = false := by
  simp [redundantExitCandidate, guard]

theorem guard_evidence_length : ((guardEngine .empty .empty).policyEvidence
    ⟨.balanced, some "configuration", "baseline-v1.5"⟩ none).length = tournamentMinimumCommonOutcomes := by decide +kernel

theorem guard_evidence {contract : Contract} {episode : LearningEvidenceEpisode}
    (h : episode ∈ (guardEngine artifacts states).policyEvidence contract none) : ∃ n, episode = lostEpisode (fun _ => false) n := by
  obtain ⟨n, -, rfl⟩ := mem_map.mp (Table.mem_of_mem_ofRows (mem_policyEvidence h).1)
  exact ⟨n, rfl⟩

theorem guard_resolved (state : ChallengerSkillState) (c ch : String) (n : ℕ) (h : state.cohortKey = guardCohort) :
    tournamentResolved state {} c ch (lostEpisode (fun _ => false) n) = true := by
  simp [tournamentResolved, h, lostEpisode, doubledEpisode, guardCohort, LearningEvidenceEpisode.receiptOutcomeResolved]

theorem guard_paired (c ch : String) (n : ℕ) :
    pairedOutcome? c ch (lostEpisode (fun _ => false) n) = some ⟨-1 / 2, -1 / 2, false, false⟩ := by
  rfl

theorem guard_verdict : verdict (savedMinimum {}) tournamentMinimumCommonOutcomes
    (replicate tournamentMinimumCommonOutcomes ⟨-1 / 2, -1 / 2, false, false⟩) = .defended := by decide +kernel

theorem guard_judged (state : ChallengerSkillState) (c ch : String) (h : state.cohortKey = guardCohort)
    (hc : state.lastTournament.coverage = {}) : ((guardEngine artifacts states).judged {} c ch state).2 = .defended := by
  have hevidence : ((guardEngine artifacts states).policyEvidence
    ⟨.balanced, some "configuration", "baseline-v1.5"⟩ none).length = tournamentMinimumCommonOutcomes := guard_evidence_length
  have hepisodes : (guardEngine artifacts states).tournamentEpisodes state {} c ch =
      (guardEngine artifacts states).policyEvidence ⟨.balanced, some "configuration", "baseline-v1.5"⟩ none := by
    unfold tournamentEpisodes
    rw [h]
    apply filter_eq_self.mpr
    intro episode hepisode
    obtain ⟨n, rfl⟩ := guard_evidence artifacts states hepisode
    exact guard_resolved state c ch n h
  have hmem : ∀ episode ∈ (guardEngine artifacts states).policyEvidence
      ⟨.balanced, some "configuration", "baseline-v1.5"⟩ none, ∃ n, episode = lostEpisode (fun _ => false) n :=
    fun episode hepisode => guard_evidence artifacts states hepisode
  have husable : ((guardEngine artifacts states).policyEvidence ⟨.balanced, some "configuration", "baseline-v1.5"⟩
      none).filterMap (pairedOutcome? c ch) =
        replicate tournamentMinimumCommonOutcomes ⟨-1 / 2, -1 / 2, false, false⟩ := by
    generalize (guardEngine artifacts states).policyEvidence ⟨.balanced, some "configuration", "baseline-v1.5"⟩
      none = evidence at hevidence hmem
    rw [← hevidence]
    clear hevidence
    induction evidence with
    | nil => rfl
    | cons episode evidence ih =>
      obtain ⟨n, rfl⟩ := hmem episode mem_cons_self
      rw [filterMap_cons_some (guard_paired c ch n), ih fun e he => hmem e (mem_cons_of_mem _ he)]
      rfl
  unfold judged
  dsimp only
  rw [hepisodes, husable, hevidence, hc]
  exact guard_verdict


variable {artifacts states} {engine : LearningEngine} {state : ChallengerSkillState} {n : ℕ}

theorem guard_starts (hartifact : ∀ k ≤ n, artifacts.get? (guardVersion k) = some (guard k)) (hn : 0 < n)
    (htesting : state.testingVersion = none) (hpending : state.pendingVersions = [guardVersion n])
    (hchampion : state.championVersion = some (guardVersion 0)) (hskill : state.skill = .manipulation)
    (hrejected : guardVersion n ∉ state.rejectedVersions) :
    (guardEngine artifacts states).startNextSkillTournament 0 state =
      (guardEngine artifacts states).beginTournament (guard n) 0 state := by
  have hget : (guardEngine artifacts states).skillArtifacts.get? (guardVersion n) = some (guard n) :=
    hartifact n le_rfl
  have hjudgeable : (guardEngine artifacts states).judgeableChampion state = some (guard 0) := by
    have hzero : artifacts.get? (guardVersion 0) = some (guard 0) := hartifact 0 (Nat.zero_le _)
    simp only [judgeableChampion, hchampion, artifact?, guardWorld, Option.bind_some, hzero]
    rfl
  have hclean : (guardEngine artifacts states).withoutRedundant state = state := by
    have hkept : state.pendingVersions.filter (fun version =>
        !((guardEngine artifacts states).skillArtifacts.get? version).any
          ((guardEngine artifacts states).redundantExitCandidate state)) = state.pendingVersions := by
      rw [hpending, filter_singleton, hget, Option.any_some, guard_redundant]
      rfl
    rw [withoutRedundant, hkept]
  have hwaiting : (guardEngine artifacts states).waiting state = [guard n] := by
    have hne : guardVersion 0 ≠ guardVersion n := fun he => hn.ne (guardVersion_inj he)
    have hload : (guardEngine artifacts states).loadable (guard n) = true := rfl
    have hversion : (guard n).version = guardVersion n := rfl
    unfold waiting
    rw [hpending, filterMap_cons_some hget, filterMap_nil, filter_singleton, guard_eligible, hload, hchampion, hskill]
    simp [hversion, hrejected, hne]
  have hpreferred : (guardEngine artifacts states).preferredPending state = some (guard n) := by
    unfold preferredPending
    rw [hwaiting]
    rfl
  unfold startNextSkillTournament
  rw [htesting, hjudgeable]
  dsimp only
  rw [hclean, hpreferred, hchampion]
  rfl

/-- The state in which the `n`-th of them tests. -/
structure Testing (n : ℕ) (artifacts : SkillArtifacts) (state : ChallengerSkillState) : Prop where
  known : ∀ k ≤ n, artifacts.get? (guardVersion k) = some (guard k)
  key : state.key = guardKey
  testing : state.testingVersion = some (guardVersion n)
  pending : state.pendingVersions = []
  champion : state.championVersion = some (guardVersion 0)
  rejected : ∀ version ∈ state.rejectedVersions, ∃ k < n, version = guardVersion k
  coverage : state.lastTournament.coverage = {}

/-- The state in which nobody waits. -/
structure Quiet (n : ℕ) (state : ChallengerSkillState) : Prop where
  key : state.key = guardKey
  testing : state.testingVersion = none
  pending : state.pendingVersions = []
  champion : state.championVersion = some (guardVersion 0)
  rejected : ∀ version ∈ state.rejectedVersions, ∃ k < n, version = guardVersion k

theorem guard_idle (h : Quiet n state) :
    Quiet n ((guardEngine artifacts states).startNextSkillTournament 0 state) := by
  have hstarts := startNext_starts (guardEngine artifacts states) 0 state
  have hclean : ((guardEngine artifacts states).withoutRedundant state).pendingVersions = [] := by
    rw [withoutRedundant, h.pending, filter_nil]
  generalize (guardEngine artifacts states).startNextSkillTournament 0 state = state' at hstarts ⊢
  cases hstarts with
  | busy => exact h
  | unavailable => exact ⟨h.key, h.testing, h.pending, h.champion, h.rejected⟩
  | idle => exact ⟨h.key, h.testing, hclean, h.champion, h.rejected⟩
  | begins candidate _ _ hwaits => simp [hclean] at hwaits
  | crowns selected _ hnone => simp [h.champion] at hnone
  | crownsAndBegins selected candidate _ hnone => simp [h.champion] at hnone

theorem readPolicy_empty : readPolicy {} = some {} := rfl

theorem guard_defends (states : SkillStates) (h : Testing n artifacts state) :
    (guardEngine artifacts states).advanceState 0 state =
        { state := (guardEngine artifacts states).advanceJudged {} (guardVersion n) (guardVersion 0) 0 state
          saved := true } ∧
      Quiet (n + 1) ((guardEngine artifacts states).advanceJudged {} (guardVersion n) (guardVersion 0) 0 state) ∧
      (guardEngine artifacts states).battle state =
        [⟨.defended, guardVersion n, some (guardVersion 0), guardVersion 0⟩] := by
  have hcohort : state.cohortKey = guardCohort := congrArg Prod.fst h.key
  have hcandidate : (guardEngine artifacts states).availableCandidate (guardVersion n) = some (guard n) := by
    have hget : artifacts.get? (guardVersion n) = some (guard n) := h.known n le_rfl
    simp only [availableCandidate, guardWorld, hget]
    rfl
  have hzero : artifacts.get? (guardVersion 0) = some (guard 0) := h.known 0 (Nat.zero_le _)
  have hchampion : (guardEngine artifacts states).judgeableChampion state = some (guard 0) := by
    simp only [judgeableChampion, h.champion, artifact?, guardWorld, Option.bind_some, hzero]
    rfl
  have hjudged := guard_judged artifacts states state (guardVersion n) (guardVersion 0) hcohort h.coverage
  have hcoach : ¬ ((guard n).isCoach = true ∧ (guard n).dependencyVersions ≠
      (guardEngine artifacts states).activeSkillVersions) := by
    rintro ⟨hcoach, -⟩
    simp [guard, doublingArtifact, ChallengerSkillArtifact.isCoach] at hcoach
  have hversion : (guard 0).version = guardVersion 0 := rfl
  refine ⟨?_, ?_, ?_⟩
  · unfold advanceState
    rw [h.testing]
    dsimp only
    rw [hcandidate, hchampion, h.coverage]
    dsimp only [readPolicy_empty]
    rw [if_neg hcoach, hversion, hjudged]
    rfl
  · unfold advanceJudged
    generalize (guardEngine artifacts states).judged {} (guardVersion n) (guardVersion 0) state = judgement at hjudged
    obtain ⟨record, found⟩ := judgement
    dsimp only at hjudged ⊢
    subst hjudged
    dsimp only
    apply guard_idle
    rw [settleTournament, appendChampionEvent_frame]
    generalize hkept : ({ state with commonForwardCount := _, lastTournament := _, championJourney := _ } : ChallengerSkillState) =
      kept
    have hrejected := fun version => @mem_withRejected kept version (guardVersion n)
    obtain ⟨rejected, hframe⟩ := withRejected_frame (guardVersion n) kept
    rw [hframe] at hrejected ⊢
    subst hkept
    refine ⟨h.key, rfl, h.pending, h.champion, ?_⟩
    intro version hversion
    rcases hrejected version hversion with hold | rfl
    · obtain ⟨k, hk, rfl⟩ := h.rejected version hold
      exact ⟨k, hk.trans n.lt_succ_self, rfl⟩
    · exact ⟨n, n.lt_succ_self, rfl⟩
  · unfold battle
    rw [h.testing]
    dsimp only
    rw [hcandidate, hchampion, h.coverage]
    dsimp only [readPolicy_empty]
    rw [if_neg hcoach, hversion, hjudged]
    rfl

/-- After `n` artifacts were registered and judged. -/
structure Guarded (n : ℕ) (engine : LearningEngine) (state : ChallengerSkillState) : Prop where
  rest : engine = guardEngine engine.skillArtifacts engine.skillStates
  known : ∀ k, engine.skillArtifacts.get? (guardVersion k) = if k < n then some (guard k) else none
  rows : engine.skillStates.rows = [state]
  quiet : Quiet n state

theorem guard_registers (states : SkillStates) (hartifact : ∀ k ≤ n, artifacts.get? (guardVersion k) = some (guard k)) (hn : 0 < n) (h : Quiet n state) :
    Testing n artifacts ((guardEngine artifacts states).registeredState (guard n) false 0 state) := by
  have hskill : state.skill = .manipulation := congrArg Prod.snd h.key
  have hother : guardVersion 0 ≠ guardVersion n := fun he => hn.ne (guardVersion_inj he)
  have hfresh : guardVersion n ∉ state.rejectedVersions := by
    intro hmem
    obtain ⟨k, hk, he⟩ := h.rejected _ hmem
    exact hk.ne (guardVersion_inj he).symm
  have hversion : (guard n).version = guardVersion n := rfl
  let queued : ChallengerSkillState :=
    { state with
      latestCandidateVersion := some (guardVersion n)
      testingVersion := none
      pendingVersions := [guardVersion n]
      championVersion := some (guardVersion 0) }
  have hqueued : (guardEngine artifacts states).enqueue (guard n)
      { state with latestCandidateVersion := some (guardVersion n) } = queued := by
    unfold enqueue
    simp only [hversion, h.testing, h.champion, h.pending, filter_nil, Option.some_inj, hother, hfresh, decide_false,
      reduceCtorEq, Bool.or_self, Bool.false_eq_true, if_false, nil_append]
    rfl
  have hregistered : (guardEngine artifacts states).registeredState (guard n) false 0 state =
      (guardEngine artifacts states).beginTournament (guard n) 0 queued := by
    have hstarts : (guardEngine artifacts states).startNextSkillTournament 0 queued =
        (guardEngine artifacts states).beginTournament (guard n) 0 queued :=
      guard_starts hartifact hn rfl rfl rfl hskill hfresh
    rw [← hstarts]
    unfold registeredState
    dsimp only
    rw [guard_eligible, guard_redundant, hversion, hqueued]
    rfl
  rw [hregistered]
  constructor
  case known => exact hartifact
  case key => exact h.key
  case testing => rfl
  case pending =>
    show [guardVersion n].filter (· ≠ (guard n).version) = []
    simp [hversion]
  case champion => rfl
  case rejected => exact h.rejected
  case coverage =>
    have hcoach : ((guardEngine artifacts states).artifact? queued.championVersion).any
        ChallengerSkillArtifact.isCoach = false := by
      rw [show queued.championVersion = some (guardVersion 0) from rfl, artifact?, Option.bind_some,
        show (guardEngine artifacts states).skillArtifacts.get? (guardVersion 0) = some (guard 0) from
          hartifact 0 (Nat.zero_le _)]
      rfl
    unfold beginTournament
    dsimp only
    rw [hcoach]
    exact guard_coverageReceipt artifacts states n

theorem rows_upsert_single {r : ChallengerSkillState} (hrows : states.rows = [state]) (hkey : r.key = state.key) :
    (states.upsert r).rows = [r] := by
  show Table.upsertRows ChallengerSkillState.key r states.rows = [r]
  rw [hrows, Table.upsertRows, if_pos hkey.symm]

theorem guard_round (h : Guarded n engine state) (hn : 0 < n) :
    ∃ state', Guarded (n + 1) (run act engine (guardRound n)) state' ∧
      engine.newMilestones guardKey (.register (guard n) guardCohort false false 0) = [] ∧
      (engine.act (.register (guard n) guardCohort false false 0)).newMilestones guardKey (.advance 0) =
        [⟨.defended, guardVersion n, some (guardVersion 0), guardVersion 0⟩] := by
  obtain ⟨hrest, hknown, hrows, hquiet⟩ := h
  generalize engine.skillArtifacts = artifacts at hrest hknown
  generalize engine.skillStates = states at hrest hrows
  subst hrest
  have hget : states.get? guardKey = some state :=
    Table.get?_eq_some.mpr ⟨by rw [Table.mem_def, hrows]; exact mem_singleton_self _, hquiet.key⟩
  have hversion : (guard n).version = guardVersion n := rfl
  have hnew : ∀ k, (artifacts.upsert (guard n)).get? (guardVersion k) = if k < n + 1 then some (guard k) else none := by
    intro k
    rw [Table.get?_upsert, hversion, hknown]
    rcases lt_trichotomy k n with hlt | rfl | hgt
    · rw [if_neg fun he => hlt.ne (guardVersion_inj he), if_pos hlt, if_pos (by omega)]
    · rw [if_pos rfl, if_pos (by omega)]
    · rw [if_neg fun he => hgt.ne' (guardVersion_inj he), if_neg (by omega), if_neg (by omega)]
  have htesting := guard_registers states (fun k hk => by rw [hnew, if_pos (by omega)]) hn hquiet
  -- what is registered
  have hact : (guardEngine artifacts states).act (.register (guard n) guardCohort false false 0) =
      guardEngine (artifacts.upsert (guard n)) (states.upsert
        ((guardEngine (artifacts.upsert (guard n)) states).registeredState (guard n) false 0 state).acknowledged) := by
    have hfresh : (guardEngine artifacts states).skillArtifacts.get? (guardVersion n) = none := by
      rw [show (guardEngine artifacts states).skillArtifacts.get? (guardVersion n) = _ from hknown n,
        if_neg (lt_irrefl n)]
    have hstate : (guardEngine artifacts states).skillStates.get? (guardCohort, (guard n).skill) = some state := hget
    unfold act registerSkillArtifact
    dsimp only
    rw [guard_withCoverageRequirement, hversion, hfresh, hstate]
    rfl
  generalize (guardEngine (artifacts.upsert (guard n)) states).registeredState (guard n) false 0 state = state₁
    at htesting hact
  have htesting₁ : Testing n (artifacts.upsert (guard n)) state₁.acknowledged :=
    ⟨htesting.known, htesting.key, htesting.testing, htesting.pending, htesting.champion, htesting.rejected, htesting.coverage⟩
  have hrows₁ : (states.upsert state₁.acknowledged).rows = [state₁.acknowledged] :=
    rows_upsert_single hrows (htesting₁.key.trans hquiet.key.symm)
  have hget₁ : (states.upsert state₁.acknowledged).get? guardKey = some state₁.acknowledged :=
    Table.get?_eq_some.mpr ⟨by rw [Table.mem_def, hrows₁]; exact mem_singleton_self _, htesting₁.key⟩
  generalize state₁.acknowledged = state₁ at hact htesting₁ hrows₁ hget₁
  generalize states.upsert state₁ = states₁ at hact hrows₁ hget₁
  -- what is judged
  obtain ⟨hadvance, hquiet₂, hbattle⟩ := guard_defends states₁ htesting₁
  generalize (guardEngine (artifacts.upsert (guard n)) states₁).advanceJudged {} (guardVersion n) (guardVersion 0) 0
    state₁ = state₂ at hadvance hquiet₂
  have hround : (guardEngine (artifacts.upsert (guard n)) states₁).act (.advance 0) =
      guardEngine (artifacts.upsert (guard n)) (states₁.upsert state₂.acknowledged) := by
    have hround : (guardEngine (artifacts.upsert (guard n)) states₁).advanceSkill 0 guardKey =
        (guardEngine (artifacts.upsert (guard n)) (states₁.upsert state₂.acknowledged), true) := by
      unfold advanceSkill
      rw [show (guardEngine (artifacts.upsert (guard n)) states₁).skillStates.get? guardKey = some state₁ from hget₁]
      dsimp only
      rw [hadvance]
      rfl
    show (guardEngine (artifacts.upsert (guard n)) states₁).advanceSkills 0
      (states₁.rows.map ChallengerSkillState.key) = _
    rw [hrows₁, map_singleton, htesting₁.key, advanceSkills, hround]
    rfl
  refine ⟨state₂.acknowledged, ?_, ?_, ?_⟩
  · rw [show run act (guardEngine artifacts states) (guardRound n) =
      ((guardEngine artifacts states).act (.register (guard n) guardCohort false false 0)).act (.advance 0)
      from rfl, hact, hround]
    exact ⟨rfl, hnew, rows_upsert_single hrows₁ (hquiet₂.key.trans htesting₁.key.symm),
      hquiet₂.key, hquiet₂.testing, hquiet₂.pending, hquiet₂.champion, hquiet₂.rejected⟩
  · show firstCrown _ (stateAt (act _ _) _).championVersion = []
    have hbefore : (guardEngine artifacts states).stateAt guardKey = state :=
      stateAt_of_get? hget
    have hafter : (guardEngine (artifacts.upsert (guard n)) states₁).stateAt guardKey = state₁ :=
      stateAt_of_get? hget₁
    rw [hact, hbefore, hafter, htesting₁.champion, hquiet.champion]
    rfl
  · rw [hact]
    show loopMilestones 0 guardKey _ (states₁.rows.map ChallengerSkillState.key) = _
    have hat : (guardEngine (artifacts.upsert (guard n)) states₁).stateAt guardKey = state₁ :=
      stateAt_of_get? hget₁
    rw [hrows₁, map_singleton, htesting₁.key, loopMilestones, roundMilestones,
      if_pos ⟨rfl, rfl⟩, hat, hbattle]
    split <;> rfl

end

/-- The first artifact, and then `n` that are registered and judged one after the other. -/
def guardActions : ℕ → List TournamentAction
  | 0 => [.register (guard 0) guardCohort false false 0]
  | n + 1 => guardActions n ++ guardRound (n + 1)

def guardMilestones : ℕ → List Milestone
  | 0 => [⟨.firstChampion, guardVersion 0, none, guardVersion 0⟩]
  | n + 1 => guardMilestones n ++ [⟨.defended, guardVersion (n + 1), some (guardVersion 0), guardVersion 0⟩]

theorem mem_guardMilestones {n : ℕ} {m : Milestone} (h : m ∈ guardMilestones n) : ∃ k ≤ n, m.candidateVersion = guardVersion k := by
  induction n with
  | zero =>
    rw [guardMilestones, mem_singleton] at h
    exact ⟨0, le_rfl, by rw [h]⟩
  | succ n ih =>
    rw [guardMilestones, mem_append, mem_singleton] at h
    rcases h with h | rfl
    · obtain ⟨k, hk, he⟩ := ih h
      exact ⟨k, hk.trans n.le_succ, he⟩
    · exact ⟨n + 1, le_rfl, rfl⟩

theorem guardMilestones_nodup (n : ℕ) : (guardMilestones n).Nodup := by
  induction n with
  | zero => exact nodup_singleton _
  | succ n ih =>
    refine nodup_append.mpr ⟨ih, nodup_singleton _, ?_⟩
    intro m hm m' hm' he
    obtain ⟨k, hk, hversion⟩ := mem_guardMilestones hm
    rw [he, mem_singleton.mp hm'] at hversion
    have hsame := guardVersion_inj hversion
    omega

/-- As many defences as rounds. -/
theorem guard_run (n : ℕ) :
    ∃ state, Guarded (n + 1)
        (run TournamentWorld.step (TournamentWorld.initial (guardEngine .empty .empty)) (guardActions n)).engine state ∧
      (run TournamentWorld.step (TournamentWorld.initial (guardEngine .empty .empty)) (guardActions n)).milestones
        guardKey = guardMilestones n := by
  induction n with
  | zero =>
    refine ⟨_, ⟨rfl, ?_, rfl, ?_, ?_, ?_, ?_, ?_⟩, ?_⟩
    case refine_1 =>
      intro k
      show ((Table.empty : SkillArtifacts).upsert (guard 0)).get? (guardVersion k) = _
      rw [Table.get?_upsert]
      by_cases hk : k = 0
      · rw [hk, if_pos Nat.one_pos]
        exact if_pos rfl
      · rw [if_neg fun h : k < 1 => hk (by omega)]
        exact if_neg fun he => hk (guardVersion_inj he)
    all_goals decide +kernel
  | succ n ih =>
    obtain ⟨state, hguarded, hmilestones⟩ := ih
    obtain ⟨state', hguarded', hregistered, hadvanced⟩ := guard_round hguarded n.succ_pos
    rw [guardActions, run_append]
    generalize run TournamentWorld.step _ (guardActions n) = world at hguarded' hregistered hadvanced hmilestones ⊢
    refine ⟨state', hguarded', ?_⟩
    show (world.milestones guardKey ++
        world.engine.newMilestones guardKey (.register (guard (n + 1)) guardCohort false false 0)) ++
      (world.engine.act (.register (guard (n + 1)) guardCohort false false 0)).newMilestones guardKey (.advance 0) = _
    rw [hregistered, hadvanced, hmilestones, append_nil]
    rfl

/-- The first two artifacts win against each other in turn, as the outcomes change. -/
def rematchActions : List TournamentAction :=
  let world (favourite : ℕ) : LearningEngine := guardWorld (· = guardVersion favourite) (Table.ofRows [guard 0, guard 1]) .empty
  guardActions 0 ++
    [.elsewhere (world 1)] ++ guardRound 1 ++ [.elsewhere (world 0)] ++ guardRound 0 ++ [.elsewhere (world 1)] ++ guardRound 1

def guardStateAfter (actions : List TournamentAction) : ChallengerSkillState :=
  (run TournamentWorld.step (TournamentWorld.initial (guardEngine .empty .empty)) actions).engine.stateAt guardKey

/-- After a hundred battles the journey that is in memory does not begin with the first Champion; and a
promotion that was there before is not told again. -/
theorem journey_forgets :
    (guardStateAfter (guardActions 100)).championJourney.head?.map ChampionEvent.kind = some .defended ∧
      (guardStateAfter rematchActions).championVersion = some (guardVersion 1) ∧
      (guardStateAfter rematchActions).championJourney.getLast?.map ChampionEvent.championVersion = some (guardVersion 0) := by
  refine ⟨?_, ?_, ?_⟩
  · obtain ⟨state, -, hmilestones⟩ := guard_run 100
    have htracked := TournamentWorld.run_lawful (guardEngine .empty .empty) (guardActions 100) guardKey
    rw [hmilestones] at htracked
    have hrecent := congrArg (fun milestones => milestones.head?.map Milestone.kind) (htracked.recent (guardMilestones_nodup 100))
    rw [List.head?_map, Option.map_map] at hrecent
    exact hrecent.trans (by decide +kernel)
  · decide +kernel
  · decide +kernel

/-- After a guard has tested. -/
theorem tournament_laws_sample : Orderly (guardStateAfter (guardActions 1)) := by
  have hmem : guardStateAfter (guardActions 1) ∈ (run TournamentWorld.step
      (TournamentWorld.initial (guardEngine .empty .empty)) (guardActions 1)).engine.skillStates.rows := by decide +kernel
  exact (tournament_laws _ _ _ hmem).1

end SignalArcade.Challenger
