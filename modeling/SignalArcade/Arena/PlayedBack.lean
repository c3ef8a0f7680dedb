import SignalArcade.Arena.DecidedBattles
import SignalArcade.Arena.RecordedReplays
import SignalArcade.Challenger.TournamentRuns
import Mathlib.Data.Rat.Sqrt

/-!
# Decided battles play back

What is kept of a replay through rounds, saves and loads is what the browser checks of it, and the round that
decides a battle leaves its own statistics in the last point.
-/

namespace SignalArcade.Arena

open Challenger (LearningEngine ChallengerSkillArtifact CoverageRecord CoveragePolicy ChampionEvent ChampionEventKind
  Milestone TournamentRecord SkillKey CohortKey Verdict Orderly readPolicy savedMinimum guardEngine guardKey)
open MeanBounds Runs List

variable {library : Library} {key : SkillKey} {clock now : ℕ} {replay : Replay} {p : Point} {fighter : Fighter}
  {engine : LearningEngine} {state : Challenger.ChallengerSkillState} {record : TournamentRecord}
  {event : ChampionEvent}

/-! ### What a call of the recorder adds -/

/-- A point is an old one, or it is the evidence at this time, after the latest one. -/
theorem mem_recorded {evidence? : Option Evidence} (h : p ∈ (replay.recorded thin evidence? now).points) :
    p ∈ replay.points ∨ ∃ evidence ∈ evidence?, p.toEvidence = evidence ∧ p.time = now ∧
      (p.sequence = 0 ∨ ∃ latest ∈ replay.points, latest.time < now ∧ p.sequence = latest.sequence + 1) := by
  have hthin (replay : Replay) : ∀ p ∈ (thin replay).points, p ∈ replay.points := by
    obtain ⟨points, sampled, hthin, hpoints, -⟩ := thin_spec replay
    rw [hthin]
    exact fun p hp => hpoints.sublist.subset hp
  unfold Replay.recorded at h
  cases evidence? with
  | none => exact Or.inl h
  | some evidence =>
    simp only [Option.bind_some] at h
    unfold Replay.observe at h
    cases hlatest : replay.points.getLast? with
    | none =>
      rw [hlatest] at h
      rcases mem_append.mp (hthin _ p h) with hp | hp
      · exact Or.inl hp
      · obtain rfl := mem_singleton.mp hp
        exact Or.inr ⟨evidence, rfl, rfl, rfl, Or.inl rfl⟩
    | some latest =>
      rw [hlatest] at h
      dsimp only at h
      split_ifs at h with hsame hclock
      · exact Or.inl h
      · exact Or.inl h
      · rcases mem_append.mp (hthin _ p h) with hp | hp
        · exact Or.inl hp
        · obtain rfl := mem_singleton.mp hp
          exact Or.inr ⟨evidence, rfl, rfl, rfl,
            Or.inr ⟨latest, mem_of_getLast? hlatest, not_le.mp hclock, rfl⟩⟩

/-- While the clock goes on, the last point is the evidence that was presented. -/
theorem last_recorded {evidence : Evidence} (hsame : evidence.same evidence = true)
    (hbefore : ∀ p ∈ replay.points, p.time < now) :
    ∃ latest ∈ (replay.recorded thin (some evidence) now).points.getLast?, latest.toEvidence.same evidence = true := by
  obtain ⟨latest, hlatest, hanswers | ⟨hmem, hclock, -⟩⟩ := answered_recorded hsame replay now
  · exact ⟨latest, hlatest, hanswers⟩
  · exact absurd hclock (not_le.mpr (hbefore latest hmem))

/-- Whose battle a replay is of is not changed by a call. -/
theorem recorded_frame (replay : Replay) (evidence? : Option Evidence) (now : ℕ) :
    ∃ points sampled incomplete, replay.recorded thin evidence? now = { replay with points, sampled, incomplete } := by
  unfold Replay.recorded
  cases evidence? with
  | none => exact ⟨_, _, _, rfl⟩
  | some evidence =>
    simp only [Option.bind_some]
    unfold Replay.observe
    cases replay.points.getLast? with
    | none =>
      obtain ⟨points, sampled, hthin, -⟩ := thin_spec { replay with points := replay.points ++ [⟨evidence, now, 0⟩] }
      exact ⟨points, sampled, _, hthin⟩
    | some latest =>
      dsimp only
      split_ifs
      · exact ⟨_, _, _, rfl⟩
      · exact ⟨_, _, _, rfl⟩
      · obtain ⟨points, sampled, hthin, -⟩ :=
          thin_spec { replay with points := replay.points ++ [⟨evidence, now, latest.sequence + 1⟩] }
        exact ⟨points, sampled, _, hthin⟩

/-! ### What is kept of a replay -/

/-- A replay of a skill, with no point later than the clock. The points are counted up no faster than the clock goes. -/
structure Replay.Kept (library : Library) (key : SkillKey) (clock : ℕ) (replay : Replay) : Prop where
  sound : replay.Sound
  cohortKey : replay.cohortKey = library.cohortKey key.1
  skill : replay.skill = key.2
  past : ∀ p ∈ replay.points, p.time ≤ clock
  sequence : ∀ p ∈ replay.points, p.sequence ≤ p.time
  observed : ∀ p ∈ replay.points, p.observed ≤ maxSafeInteger

theorem Replay.Kept.mono {clock' : ℕ} (h : replay.Kept library key clock) (hclock : clock ≤ clock') :
    replay.Kept library key clock' :=
  ⟨h.sound, h.cohortKey, h.skill, fun p hp => (h.past p hp).trans hclock, h.sequence, h.observed⟩

/-- A fighter of a skill, whose replay is kept. -/
structure Fighter.Kept (library : Library) (key : SkillKey) (clock : ℕ) (fighter : Fighter) : Prop where
  ofKey : fighter.state.key = key
  orderly : Orderly fighter.state
  replay : ∀ replay ∈ fighter.recording.battleReplay, replay.Kept library key clock

theorem Fighter.Kept.mono {clock' : ℕ} (h : fighter.Kept library key clock) (hclock : clock ≤ clock') :
    fighter.Kept library key clock' :=
  ⟨h.ofKey, h.orderly, fun replay hreplay => (h.replay replay hreplay).mono hclock⟩

/-- A round may change the state and leave the replay. -/
theorem Fighter.Kept.governed (h : fighter.Kept library key clock)
    (hkey : state.key = key) (horderly : Orderly state) : ({ fighter with state } : Fighter).Kept library key clock :=
  ⟨hkey, horderly, h.replay⟩

/-- The battle of the state can be recorded. -/
def Fighter.Fair (library : Library) (fighter : Fighter) : Prop :=
  FairBattle (fighter.recorder library).toContest Fighter.minimumSamples
    (Fighter.minimumCoverage fighter.state.lastTournament.coverage)

theorem evidence?_observed {skill : ChallengerSkill} {evidence : Evidence}
    (h : (tournamentOf library skill record).evidence? = some evidence) :
    evidence.observed = record.commonObservedCount := by
  simp only [Tournament.evidence?, tournamentOf, Option.getD_some] at h
  obtain ⟨-, h⟩ := Option.ite_none_right_eq_some.mp h
  obtain rfl := Option.some.inj h
  rfl

theorem Fighter.Kept.recordReplay (clock : ℕ) {fighter : Fighter} (h : fighter.Kept library key clock)
    (hcohort : validKey (some (library.cohortKey key.1)) = true) (hfair : fighter.Fair library) (hclock : clock ≤ now)
    (hbefore : ∀ replay ∈ fighter.recording.battleReplay, ∀ p ∈ replay.points, p.time < now)
    (hcount : (fighter.state.lastTournament.commonObservedCount : ℤ) ≤ maxSafeInteger) :
    (fighter.recordReplay library now).Kept library key now := by
  refine ⟨h.ofKey, h.orderly, ?_⟩
  obtain rfl := h.ofKey
  cases hbattles : (fighter.recorder library).battles with
  | false =>
    intro replay hreplay
    simp only [Fighter.recordReplay, Fighter.recorded, Arena.recordReplay, recordWith_idle hbattles] at hreplay
    exact (h.replay replay hreplay).mono hclock
  | true =>
    obtain ⟨dirty, hrecord⟩ := recordWith_spec thin Fighter.minimumSamples
      (Fighter.minimumCoverage fighter.state.lastTournament.coverage) now hbattles
    intro replay hreplay
    simp only [Fighter.recordReplay, Fighter.recorded, Arena.recordReplay, hrecord] at hreplay
    obtain rfl := Option.some.inj hreplay
    have hcases := recording_cases (fighter.recorder library) Fighter.minimumSamples
      (Fighter.minimumCoverage fighter.state.lastTournament.coverage)
    have hkey : validKey (some (fighter.recorder library).cohortKey) = true := hcohort
    obtain ⟨hsound, hpair⟩ := recording_sound hkey hfair hbattles
      fun replay hreplay => (h.replay replay hreplay).sound
    generalize (fighter.recorder library).recording Fighter.minimumSamples
      (Fighter.minimumCoverage fighter.state.lastTournament.coverage) = recording at hcases hsound hpair ⊢
    have hkept : recording.cohortKey = library.cohortKey fighter.state.key.1 ∧ recording.skill = fighter.state.key.2 ∧
        ∀ p ∈ recording.points, p.time < now ∧ p.sequence ≤ p.time ∧ p.observed ≤ maxSafeInteger := by
      rcases hcases with ⟨incomplete, rfl⟩ | ⟨hcurrent, -, -⟩
      · exact ⟨rfl, rfl, fun p hp => absurd hp not_mem_nil⟩
      · have hkept := h.replay recording hcurrent
        exact ⟨hkept.cohortKey, hkept.skill, fun p hp => ⟨hbefore recording hcurrent p hp, hkept.sequence p hp,
          hkept.observed p hp⟩⟩
    have hpoints : ∀ p ∈ (recording.recorded thin (fighter.recorder library).lastTournament.evidence? now).points,
        p.time ≤ now ∧ p.sequence ≤ p.time ∧ p.observed ≤ maxSafeInteger := by
      intro p hp
      rcases mem_recorded hp with hp | ⟨evidence, hevidence, hsame, htime, hsequence⟩
      · obtain ⟨htime, hrest⟩ := hkept.2.2 p hp
        exact ⟨htime.le, hrest⟩
      · refine ⟨htime.le, ?_, ?_⟩
        · rcases hsequence with hzero | ⟨latest, hlatest, hearlier, hnext⟩
          · omega
          · have hbound := (hkept.2.2 latest hlatest).2.1
            omega
        · rw [hsame, evidence?_observed hevidence]
          exact hcount
    obtain ⟨points, sampled, incomplete, hframe⟩ :=
      recorded_frame recording (fighter.recorder library).lastTournament.evidence? now
    refine ⟨hsound.recorded hpair _ now, ?_, ?_, fun p hp => (hpoints p hp).1, fun p hp => (hpoints p hp).2.1,
      fun p hp => (hpoints p hp).2.2⟩
    · rw [hframe]
      exact hkept.1
    · rw [hframe]
      exact hkept.2.1

/-! ### Starting a battle -/

/-- The engine's versions are within the bounds of the validator, and its requirement can be read. -/
structure Fits (engine : LearningEngine) : Prop where
  policy : engine.coveragePolicy.Valid
  versions : ∀ artifact ∈ engine.skillArtifacts, 1 ≤ artifact.version.length ∧ artifact.version.length ≤ 180

theorem percentages_mem {percent : ℕ} (h : percent ∈ Challenger.percentages) : 55 ≤ percent ∧ percent ≤ 70 := by
  simp only [Challenger.percentages, mem_cons, not_mem_nil, or_false] at h
  omega

theorem minimumCoverage_mem {record : CoverageRecord} {policy : CoveragePolicy} (h : readPolicy record = some policy) :
    0 < Fighter.minimumCoverage record ∧ Fighter.minimumCoverage record ≤ 1 := by
  obtain ⟨hlow, hhigh⟩ := percentages_mem (Challenger.readPolicy_valid h).percent
  have hlow : (55 : ℚ) ≤ policy.percent := by exact_mod_cast hlow
  have hhigh : (policy.percent : ℚ) ≤ 70 := by exact_mod_cast hhigh
  have hminimum : Fighter.minimumCoverage record = policy.percent / 100 := by
    rw [Fighter.minimumCoverage, savedMinimum, h]
    rfl
  rw [hminimum]
  constructor <;> linarith

/-- The requirement of a new battle can be read. -/
theorem readPolicy_coverageReceipt (hvalid : engine.coveragePolicy.Valid) (artifact : ChallengerSkillArtifact)
    (floor : ℚ) (hfloor : floor = 70 / 100 ∨ floor = 0) (now : Paper.Instant) :
    ∃ policy, readPolicy (engine.coverageReceipt artifact floor true now) = some policy := by
  have hfraction : engine.coveragePolicy.fraction = engine.coveragePolicy.percent / 100 := rfl
  obtain ⟨hlow, hhigh⟩ := percentages_mem hvalid.percent
  have hlow : (55 : ℚ) ≤ engine.coveragePolicy.percent := by exact_mod_cast hlow
  have hhigh : (engine.coveragePolicy.percent : ℚ) ≤ 70 := by exact_mod_cast hhigh
  -- of the requirements 70, 0 and that of the policy, the largest one is 70 or that of the policy
  have hmaximum : ∃ percent : ℕ, percent ∈ Challenger.percentages ∧ (engine.coveragePolicy = {} → percent = 70) ∧
      max (max (floor : WithTop ℚ) ((engine.coveragePolicy.fraction : ℚ) : WithTop ℚ))
        (if artifact.isCoach then ((70 / 100 : ℚ) : WithTop ℚ) else if true = true then 0 else artifact.artifactMinimum) =
          ((percent / 100 : ℚ) : WithTop ℚ) := by
    have hcoach : (if artifact.isCoach then ((70 / 100 : ℚ) : WithTop ℚ) else
        if true = true then 0 else artifact.artifactMinimum) =
          ((if artifact.isCoach then 70 / 100 else 0 : ℚ) : WithTop ℚ) := by
      cases artifact.isCoach <;> rfl
    rw [hcoach, ← WithTop.coe_max, ← WithTop.coe_max, hfraction]
    by_cases hseventy : floor = 70 / 100 ∨ artifact.isCoach = true
    · refine ⟨70, by decide, fun _ => rfl, congrArg _ ?_⟩
      rcases hseventy with rfl | hcoach
      · rw [max_eq_left (a := (70 / 100 : ℚ)) (by linarith)]
        split_ifs <;> norm_num
      · rw [if_pos hcoach, max_eq_right]
        · norm_num
        · rcases hfloor with rfl | rfl
          · exact max_le (by norm_num) (by linarith)
          · exact max_le (by norm_num) (by linarith)
    · simp only [not_or, Bool.not_eq_true] at hseventy
      obtain rfl := hfloor.resolve_left hseventy.1
      refine ⟨engine.coveragePolicy.percent, hvalid.percent, fun hdefault => by rw [hdefault], congrArg _ ?_⟩
      have hpos : (0 : ℚ) ≤ engine.coveragePolicy.percent / 100 := by positivity
      rw [hseventy.2, if_neg Bool.false_ne_true, max_eq_right hpos, max_eq_left hpos]
  obtain ⟨percent, hpercent, hdefault, hmaximum⟩ := hmaximum
  have hrecorded : CoveragePolicy.Valid
      { percent
        revision := engine.coveragePolicy.revision
        effectiveAt := if engine.coveragePolicy.revision ≠ 0 then some now else engine.coveragePolicy.effectiveAt } := by
    refine ⟨hpercent, fun hrevision => ?_, fun hrevision => ?_⟩
    · have hpolicy := hvalid.legacy hrevision
      rw [hpolicy, hdefault hpolicy]
      rfl
    · rw [if_pos hrevision]
      rfl
  rw [LearningEngine.coverageReceipt, hmaximum]
  simp only [true_and, LearningEngine.percentOf_percent]
  exact ⟨_, Challenger.readPolicy_metadata hrecorded⟩

/-! ### The states of the rounds -/

namespace Fighter

variable {candidate selected : ChallengerSkillArtifact} {event : ChampionEvent}

theorem appendChampionEvent_state (event : ChampionEvent) :
    (fighter.appendChampionEvent library event).state = fighter.state.appendChampionEvent event := by
  unfold appendChampionEvent Challenger.ChallengerSkillState.appendChampionEvent
  split_ifs <;> rfl

theorem crownFirst_state (library : Library) (fighter : Fighter) (selected : ChallengerSkillArtifact) :
    (fighter.crownFirst library selected).state = LearningEngine.crownFirst selected fighter.state :=
  appendChampionEvent_state _

/-- The first Champion has no battle to freeze. -/
theorem crownFirst_recording (library : Library) (fighter : Fighter) (selected : ChallengerSkillArtifact) :
    (fighter.crownFirst library selected).recording = fighter.recording := by
  unfold crownFirst appendChampionEvent
  split_ifs
  · rfl
  · rfl
  · exact absurd rfl ‹_›

theorem startNext_state (library : Library) (engine : LearningEngine) (now : ℕ) (fighter : Fighter) :
    (fighter.startNextSkillTournament library engine now).state = engine.startNextSkillTournament now fighter.state := by
  unfold startNextSkillTournament LearningEngine.startNextSkillTournament
  split_ifs
  · rfl
  · rfl
  · dsimp only
    cases engine.preferredPending (engine.withoutRedundant fighter.state) with
    | none => rfl
    | some selected =>
      dsimp only
      split_ifs
      · rfl
      · have hcrowned := crownFirst_state library { fighter with
          state := engine.withoutRedundant fighter.state } selected
        rw [hcrowned]
        cases engine.preferredPending (LearningEngine.crownFirst selected (engine.withoutRedundant fighter.state)) with
        | none => exact hcrowned
        | some candidate => exact congrArg (engine.beginTournament candidate now) hcrowned

theorem settle_state (library : Library) (fighter : Fighter) (candidateVersion : String) (event : ChampionEvent) :
    (fighter.settle library candidateVersion event).state =
      LearningEngine.settleTournament candidateVersion event fighter.state :=
  congrArg (fun state : Challenger.ChallengerSkillState =>
    { LearningEngine.withRejected candidateVersion state with testingVersion := none }) (appendChampionEvent_state event)

theorem advanceUnavailable_state (library : Library) (engine : LearningEngine) (now : ℕ) (fighter : Fighter)
    (candidateVersion : String) :
    (fighter.advanceUnavailable library engine candidateVersion now).state =
      engine.advanceUnavailable candidateVersion now fighter.state := by
  unfold advanceUnavailable LearningEngine.advanceUnavailable
  dsimp only
  split_ifs <;> first | rfl | exact startNext_state ..

/-- **A round does the same to fighters that agree in their states**, whatever is recorded of them, and when. -/
theorem advance_state (library library' : Library) (engine : LearningEngine) (readings : Readings) (recorded : ℕ)
    (state : Challenger.ChallengerSkillState) (recording recording' : Recording) :
    (advance library engine readings ⟨state, recording⟩).state =
      (advance library' engine { readings with recorded } ⟨state, recording'⟩).state := by
  have hunavailable (candidateVersion : String) :
      (advanceUnavailable library engine candidateVersion readings.started ⟨state, recording⟩).state =
        (advanceUnavailable library' engine candidateVersion readings.started ⟨state, recording'⟩).state := by
    rw [advanceUnavailable_state, advanceUnavailable_state]
  unfold advance
  dsimp only
  cases state.testingVersion with
  | none => rfl
  | some candidateVersion =>
    dsimp only
    cases engine.availableCandidate candidateVersion with
    | none => cases engine.judgeableChampion state <;> exact hunavailable _
    | some candidate =>
      cases engine.judgeableChampion state with
      | none => exact hunavailable _
      | some champion =>
        dsimp only
        split_ifs
        · rw [advanceStale, advanceStale, startNext_state, startNext_state]
        · cases readPolicy state.lastTournament.coverage with
          | none => rfl
          | some policy =>
            dsimp only [advanceJudged]
            cases (engine.judged policy candidateVersion champion.version state).2 with
            | collecting => rfl
            | promoted =>
              dsimp only
              rw [startNext_state, startNext_state, appendChampionEvent_state, appendChampionEvent_state]
              rfl
            | inconclusive =>
              dsimp only
              rw [startNext_state, startNext_state, settle_state, settle_state]
              rfl
            | defended =>
              dsimp only
              rw [startNext_state, startNext_state, settle_state, settle_state]
              rfl

end Fighter

/-! ### Rounds keep the replay -/

section

variable {candidate : ChallengerSkillArtifact} (hcohort : validKey (some (library.cohortKey key.1)) = true)
  (hfits : Fits engine) {candidateVersion : String}

theorem preferredPending_known
    (h : engine.preferredPending state = some candidate) : candidate ∈ engine.skillArtifacts := by
  obtain ⟨version, -, hget⟩ := mem_filterMap.mp (mem_filter.mp (LearningEngine.preferredPending_mem h)).1
  exact (Table.get?_eq_some.mp hget).1

theorem judgeableChampion_known {champion : ChallengerSkillArtifact}
    (h : engine.judgeableChampion state = some champion) :
    champion ∈ engine.skillArtifacts ∧ state.championVersion = some champion.version := by
  obtain ⟨hartifact, -⟩ := Option.filter_eq_some_iff.mp h
  obtain ⟨version, hversion, hget⟩ := Option.bind_eq_some_iff.mp hartifact
  obtain ⟨hmem, rfl⟩ := Table.get?_eq_some.mp hget
  exact ⟨hmem, hversion⟩

include hcohort hfits

section

variable (h : fighter.Kept library key clock)
include h

theorem Fighter.Kept.beginTournament (hcandidate : candidate ∈ engine.skillArtifacts)
    (hchampion : ∀ version ∈ fighter.state.championVersion, version.length ≤ 180)
    (horderly : Orderly (engine.beginTournament candidate now fighter.state)) (hclock : clock ≤ now) :
    (fighter.beginTournament library engine candidate now).Kept library key now := by
  have hfair : Fighter.Fair library { fighter with state := engine.beginTournament candidate now fighter.state } := by
    constructor
    case distinct =>
      obtain ⟨champion, hversion, hne⟩ := horderly.testing candidate.version rfl
      intro hsame
      have hsame : some candidate.version = some champion := hsame.trans hversion
      exact hne (Option.some.inj hsame).symm
    case testing_le =>
      rintro version ⟨⟩
      exact (hfits.versions candidate hcandidate).2
    case champion_le => exact hchampion
    case minimum_mem => decide
    case coverage_mem =>
      obtain ⟨policy, hpolicy⟩ := readPolicy_coverageReceipt hfits.policy candidate
        (if (engine.artifact? fighter.state.championVersion).any ChallengerSkillArtifact.isCoach then 70 / 100 else 0)
        (by split_ifs <;> simp) now
      exact minimumCoverage_mem hpolicy
  obtain rfl := h.ofKey
  refine Fighter.Kept.recordReplay clock ⟨rfl, horderly, ?_⟩ hcohort hfair hclock ?_
    (show ((0 : ℕ) : ℤ) ≤ maxSafeInteger by decide)
  · rintro replay ⟨⟩
    refine ⟨freshReplay_sound ?_ hfair false, rfl, rfl, fun p hp => absurd hp not_mem_nil,
      fun p hp => absurd hp not_mem_nil, fun p hp => absurd hp not_mem_nil⟩
    exact hcohort
  · rintro replay ⟨⟩ p hp
    exact absurd hp not_mem_nil

theorem Fighter.Kept.startNext (hclock : clock ≤ now) :
    (fighter.startNextSkillTournament library engine now).Kept library key now := by
  have horderly : Orderly (fighter.startNextSkillTournament library engine now).state := by
    rw [Fighter.startNext_state]
    exact LearningEngine.startNext_orderly h.orderly
  have hclean : Fighter.Kept library key clock { fighter with state := engine.withoutRedundant fighter.state } :=
    h.governed h.ofKey (LearningEngine.withoutRedundant_orderly h.orderly)
  unfold Fighter.startNextSkillTournament at horderly ⊢
  split_ifs at horderly ⊢ with htesting hunavailable
  · exact h.mono hclock
  · exact Fighter.Kept.mono ⟨h.ofKey, horderly, h.replay⟩ hclock
  · dsimp only at horderly ⊢
    cases hselected : engine.preferredPending (engine.withoutRedundant fighter.state) with
    | none => exact hclean.mono hclock
    | some selected =>
      rw [hselected] at horderly
      dsimp only at horderly ⊢
      split_ifs at horderly ⊢ with hchampion
      · refine hclean.beginTournament hcohort hfits (preferredPending_known hselected) ?_ horderly hclock
        -- the Champion is one of the engine's artifacts, or it could not be judged
        intro version hversion
        cases hjudgeable : engine.judgeableChampion fighter.state with
        | none =>
          rw [hjudgeable] at hunavailable
          exact absurd ⟨hchampion, rfl⟩ hunavailable
        | some champion =>
          obtain ⟨hknown, hsame⟩ := judgeableChampion_known hjudgeable
          obtain rfl := Option.some.inj (hsame.symm.trans hversion)
          exact (hfits.versions champion hknown).2
      · have hstate := Fighter.crownFirst_state library
          { fighter with state := engine.withoutRedundant fighter.state } selected
        have hcrown : Orderly (LearningEngine.crownFirst selected (engine.withoutRedundant fighter.state)) := by
          refine LearningEngine.crownFirst_orderly hclean.orderly ?_
          have hnone : ¬ fighter.state.testingVersion.isSome = true := htesting
          show fighter.state.testingVersion = none
          simpa using hnone
        have hcrowned : (Fighter.crownFirst library selected
            { fighter with state := engine.withoutRedundant fighter.state }).Kept library key clock := by
          refine ⟨?_, hstate ▸ hcrown, ?_⟩
          · rw [hstate, LearningEngine.crownFirst, Challenger.appendChampionEvent_frame]
            exact h.ofKey
          · rw [Fighter.crownFirst_recording]
            exact h.replay
        cases hcandidate : engine.preferredPending (Fighter.crownFirst library selected
            { fighter with state := engine.withoutRedundant fighter.state }).state with
        | none => exact hcrowned.mono hclock
        | some candidate =>
          rw [hcandidate] at horderly
          refine hcrowned.beginTournament hcohort hfits (preferredPending_known hcandidate) ?_ horderly hclock
          intro version hversion
          rw [hstate, (LearningEngine.crownFirst_frame selected _).2.1] at hversion
          obtain rfl := Option.some.inj hversion
          exact (hfits.versions selected (preferredPending_known hselected)).2

theorem Fighter.Kept.advanceUnavailable
    (htesting : fighter.state.testingVersion = some candidateVersion) (hclock : clock ≤ now) :
    (fighter.advanceUnavailable library engine candidateVersion now).Kept library key now := by
  have horderly : Orderly (fighter.advanceUnavailable library engine candidateVersion now).state := by
    rw [Fighter.advanceUnavailable_state]
    exact LearningEngine.advanceUnavailable_orderly h.orderly htesting
  unfold Fighter.advanceUnavailable at horderly ⊢
  generalize (if (engine.judgeableChampion fighter.state).isNone then fighter.state.championVersion
    else some candidateVersion) = suspended at horderly ⊢
  dsimp only [LearningEngine.suspendUnavailable] at horderly ⊢
  by_cases hgone : (engine.availableCandidate candidateVersion).isNone = true
  · rw [if_pos hgone]
    refine Fighter.Kept.startNext hcohort hfits ⟨h.ofKey, h.orderly.released htesting rfl rfl (.inl rfl) ?_, h.replay⟩ hclock
    intro version hversion
    dsimp only at hversion
    have hmem := Challenger.mem_of_mem_rtake hversion
    split_ifs at hmem
    · exact Or.inl hmem
    · simpa using hmem
  · rw [if_neg hgone] at horderly ⊢
    split_ifs at horderly ⊢
    · exact Fighter.Kept.mono ⟨h.ofKey, horderly, h.replay⟩ hclock
    · exact Fighter.Kept.mono ⟨h.ofKey, horderly, h.replay⟩ hclock

theorem Fighter.Kept.advanceStale {candidateVersion championVersion : String}
    (htesting : fighter.state.testingVersion = some candidateVersion) (hclock : clock ≤ now) :
    (fighter.advanceStale library engine candidateVersion championVersion now).Kept library key now := by
  have hrejected := fun version => @LearningEngine.mem_withRejected fighter.state version candidateVersion
  obtain ⟨rejected, hframe⟩ := LearningEngine.withRejected_frame candidateVersion fighter.state
  unfold Fighter.advanceStale
  rw [hframe] at hrejected ⊢
  exact Fighter.Kept.startNext hcohort hfits ⟨h.ofKey, h.orderly.released htesting rfl rfl (.inl rfl) hrejected, h.replay⟩
    hclock

end

omit hcohort hfits in
theorem Fighter.appendChampionEvent_replay (event : ChampionEvent) :
    (fighter.appendChampionEvent library event).recording.battleReplay = fighter.recording.battleReplay := by
  have hfreeze (eventId : String) :
      (fighter.freezeReplay library eventId).recording.battleReplay = fighter.recording.battleReplay := by
    unfold Fighter.freezeReplay Arena.freezeReplay
    split
    · rfl
    · split_ifs <;> rfl
  unfold Fighter.appendChampionEvent
  split_ifs
  · rfl
  · rfl
  · exact hfreeze _

/-- A judged round records its statistics. -/
theorem Fighter.Kept.judged {policy : CoveragePolicy}
    {candidate champion : ChallengerSkillArtifact} {recorded : ℕ} (h : fighter.Kept library key clock)
    (htesting : fighter.state.testingVersion = some candidate.version) (hcandidate : candidate ∈ engine.skillArtifacts)
    (hchampion : engine.judgeableChampion fighter.state = some champion) (hpolicy : readPolicy record.coverage = some policy)
    (hclock : clock < recorded) (hcount : (record.commonObservedCount : ℤ) ≤ maxSafeInteger) :
    (Fighter.recordReplay library recorded
      { fighter with
        state := { fighter.state with commonForwardCount := record.commonUsableCount, lastTournament := record } }).Kept
      library key recorded := by
  obtain ⟨hknown, hversion⟩ := judgeableChampion_known hchampion
  refine Fighter.Kept.recordReplay clock
    ⟨h.ofKey, h.orderly.sublist (Sublist.refl _) rfl rfl rfl, h.replay⟩ hcohort ?_ hclock.le
    (fun replay hreplay p hp => ((h.replay replay hreplay).past p hp).trans_lt hclock) hcount
  constructor
  case distinct =>
    obtain ⟨other, hother, hne⟩ := h.orderly.testing candidate.version htesting
    intro hsame
    have hsame : fighter.state.testingVersion = fighter.state.championVersion := hsame
    rw [htesting, hother] at hsame
    exact hne (Option.some.inj hsame).symm
  case testing_le =>
    intro version hmem
    have hmem : fighter.state.testingVersion = some version := hmem
    obtain rfl := Option.some.inj (htesting.symm.trans hmem)
    exact (hfits.versions candidate hcandidate).2
  case champion_le =>
    intro version hmem
    have hmem : fighter.state.championVersion = some version := hmem
    obtain rfl := Option.some.inj (hversion.symm.trans hmem)
    exact (hfits.versions champion hknown).2
  case minimum_mem => decide
  case coverage_mem => exact minimumCoverage_mem hpolicy

omit hcohort hfits in
theorem Fighter.Kept.crowned (h : fighter.Kept library key clock)
    (htesting : fighter.state.testingVersion = some candidateVersion) (event : ChampionEvent) :
    (Fighter.appendChampionEvent library event
      { fighter with
        state := { fighter.state with championVersion := some candidateVersion, testingVersion := none } }).Kept
      library key clock := by
  have hstate : (Fighter.appendChampionEvent library event
      { fighter with
        state := { fighter.state with championVersion := some candidateVersion, testingVersion := none } }).state =
        LearningEngine.crownCandidate candidateVersion event fighter.state :=
    Fighter.appendChampionEvent_state event
  refine ⟨?_, ?_, ?_⟩
  · rw [hstate, LearningEngine.crownCandidate, Challenger.appendChampionEvent_frame]
    exact h.ofKey
  · rw [hstate]
    exact LearningEngine.crownCandidate_orderly h.orderly htesting event
  · rw [Fighter.appendChampionEvent_replay]
    exact h.replay

omit hcohort hfits in
theorem Fighter.settle_replay (candidateVersion : String) (event : ChampionEvent) :
    (fighter.settle library candidateVersion event).recording.battleReplay = fighter.recording.battleReplay :=
  Fighter.appendChampionEvent_replay event

omit hcohort hfits in
theorem Fighter.Kept.settled (h : fighter.Kept library key clock)
    (htesting : fighter.state.testingVersion = some candidateVersion) (event : ChampionEvent) :
    (fighter.settle library candidateVersion event).Kept library key clock := by
  have hstate := Fighter.settle_state library fighter candidateVersion event
  refine ⟨?_, ?_, ?_⟩
  · obtain ⟨rejected, hframe⟩ :=
      LearningEngine.withRejected_frame candidateVersion (fighter.state.appendChampionEvent event)
    rw [hstate, LearningEngine.settleTournament, hframe, Challenger.appendChampionEvent_frame]
    exact h.ofKey
  · rw [hstate]
    exact LearningEngine.settleTournament_orderly h.orderly htesting event
  · rw [Fighter.settle_replay]
    exact h.replay

/-- The readings of a round, one after the other. -/
structure Fighter.Readings.After (clock : ℕ) (readings : Fighter.Readings) : Prop where
  recorded : clock < readings.recorded
  decided : readings.recorded ≤ readings.decided
  started : readings.decided ≤ readings.started

theorem Fighter.Kept.advance {readings : Fighter.Readings} (h : fighter.Kept library key clock)
    (hreadings : readings.After clock)
    (hcount : ∀ judgement ∈ Fighter.judges? engine fighter.state,
      (judgement.2.2.1.commonObservedCount : ℤ) ≤ maxSafeInteger) :
    (fighter.advance library engine readings).Kept library key readings.started := by
  have hdecided := hreadings.decided.trans hreadings.started
  have hclock := hreadings.recorded.le.trans hdecided
  unfold Fighter.judges? at hcount
  unfold Fighter.advance
  cases htesting : fighter.state.testingVersion with
  | none => exact h.mono hclock
  | some candidateVersion =>
    rw [htesting] at hcount
    have hunavailable := h.advanceUnavailable hcohort hfits htesting hclock
    dsimp only at hcount ⊢
    cases hcandidate : engine.availableCandidate candidateVersion with
    | none => cases engine.judgeableChampion fighter.state <;> exact hunavailable
    | some candidate =>
      cases hchampion : engine.judgeableChampion fighter.state with
      | none => exact hunavailable
      | some champion =>
        rw [hcandidate, hchampion] at hcount
        dsimp only at hcount ⊢
        split_ifs at hcount ⊢
        · exact h.advanceStale hcohort hfits htesting hclock
        · cases hpolicy : readPolicy fighter.state.lastTournament.coverage with
          | none => exact h.mono hclock
          | some policy =>
            obtain ⟨hknown, rfl⟩ := Table.get?_eq_some.mp (Option.filter_eq_some_iff.mp hcandidate).1
            rw [hpolicy] at hcount
            have hcount := hcount _ rfl
            dsimp only [Fighter.advanceJudged] at hcount ⊢
            have hcoverage : (engine.judged policy candidate.version champion.version fighter.state).1.coverage =
                fighter.state.lastTournament.coverage := rfl
            generalize engine.judged policy candidate.version champion.version fighter.state = judgement at hcount hcoverage ⊢
            obtain ⟨record, found⟩ := judgement
            dsimp only at hcount hcoverage ⊢
            have hjudged := h.judged hcohort hfits htesting hknown hchampion (hcoverage ▸ hpolicy) hreadings.recorded hcount
            cases found with
            | collecting => exact hjudged.mono hdecided
            | promoted => exact (hjudged.crowned htesting _).startNext hcohort hfits hdecided
            | inconclusive => exact (hjudged.settled htesting _).startNext hcohort hfits hdecided
            | defended => exact (hjudged.settled htesting _).startNext hcohort hfits hdecided

end

/-! ### Turns -/

/-- A turn whose readings follow the clock, with an engine within the bounds. -/
def Corner.Fair (corner : Corner) : Turn → Prop
  | .advance engine readings => Fits engine ∧ readings.After corner.clock ∧
      ∀ judgement ∈ Fighter.judges? engine corner.fighter.state,
        (judgement.2.2.1.commonObservedCount : ℤ) ≤ maxSafeInteger
  | .start engine now => Fits engine ∧ corner.clock ≤ now
  | .register engine artifact _ now =>
      Fits engine ∧ engine.skillArtifacts.get? artifact.version = some artifact ∧ corner.clock ≤ now
  | .govern state => Orderly state ∧ state.key = corner.fighter.state.key
  | .save .. => True
  | .load _ => True

/-- A fighter and what is saved of it are kept. -/
structure Corner.Kept (library : Library) (key : SkillKey) (corner : Corner) : Prop where
  fighter : corner.fighter.Kept library key corner.clock
  savedKey : corner.saved.key = key
  savedOrderly : Orderly corner.saved
  activeRow : ∀ replay ∈ corner.activeRow, replay.Kept library key corner.clock

theorem Fighter.Kept.register {artifact : ChallengerSkillArtifact} (h : fighter.Kept library key clock)
    (hcohort : validKey (some (library.cohortKey key.1)) = true) (hfits : Fits engine)
    (hknown : engine.skillArtifacts.get? artifact.version = some artifact) (deferTournament : Bool) (hclock : clock ≤ now) :
    (fighter.register library engine artifact deferTournament now).Kept library key now := by
  have hlatest : Orderly { fighter.state with latestCandidateVersion := some artifact.version } :=
    h.orderly.sublist (Sublist.refl _) rfl rfl rfl
  have henqueued := LearningEngine.enqueue_orderly hlatest hknown
  unfold Fighter.register
  dsimp only
  split_ifs
  · exact Fighter.Kept.mono ⟨h.ofKey, henqueued, h.replay⟩ hclock
  · exact Fighter.Kept.startNext hcohort hfits ⟨h.ofKey, henqueued, h.replay⟩ hclock
  · exact Fighter.Kept.mono ⟨h.ofKey, hlatest, h.replay⟩ hclock

theorem Corner.Kept.save {corner : Corner} (h : corner.Kept library key) (updatedAt : ℕ) (publication : Bool) :
    (corner.save library updatedAt publication).Kept library key := by
  unfold Corner.save
  split_ifs
  · exact ⟨h.fighter, h.savedKey, h.savedOrderly, h.activeRow⟩
  · refine ⟨⟨h.fighter.ofKey, h.fighter.orderly.sublist (Sublist.refl _) rfl rfl rfl, h.fighter.replay⟩, h.fighter.ofKey,
      h.fighter.orderly.sublist (Sublist.refl _) rfl rfl rfl, fun replay hreplay => ?_⟩
    dsimp only at hreplay
    split_ifs at hreplay
    · cases hfits : corner.fighter.recording.battleReplay.filter library.fits with
      | none =>
        rw [hfits] at hreplay
        exact h.activeRow replay hreplay
      | some found =>
        rw [hfits] at hreplay
        cases hreplay
        exact h.fighter.replay replay (Option.filter_eq_some_iff.mp hfits).1
    · exact h.activeRow replay hreplay

theorem Corner.Kept.load {corner : Corner} (h : corner.Kept library key) (championJourney : List ChampionEvent) :
    (corner.load championJourney).Kept library key where
  fighter := by
    refine ⟨h.savedKey, h.savedOrderly.sublist (Sublist.refl _) rfl rfl rfl, fun replay hreplay => ?_⟩
    simp only [Corner.load] at hreplay
    cases hfound : corner.activeRow.filter fun replay => validReplay replay with
    | none =>
      rw [hfound] at hreplay
      cases hreplay
    | some found =>
      rw [hfound] at hreplay
      obtain rfl := Option.some.inj hreplay
      have hrow := h.activeRow found (Option.filter_eq_some_iff.mp hfound).1
      obtain ⟨hversion, hcohort, hsamples, hcoverage, hpair, hlength, hpoints⟩ := hrow.sound
      exact ⟨⟨hversion, hcohort, hsamples, hcoverage, hpair, hlength, hpoints⟩, hrow.cohortKey, hrow.skill, hrow.past,
        hrow.sequence, hrow.observed⟩
  savedKey := h.savedKey
  savedOrderly := h.savedOrderly
  activeRow := h.activeRow

theorem Corner.Kept.turn {corner : Corner} (h : corner.Kept library key)
    (hcohort : validKey (some (library.cohortKey key.1)) = true) {next : Turn} (hfair : corner.Fair next) :
    (turn library corner next).Kept library key := by
  have hlater {fighter : Fighter} {now : ℕ} (hfighter : fighter.Kept library key now) (hclock : corner.clock ≤ now) :
      Corner.Kept library key { corner with fighter, clock := now } :=
    ⟨hfighter, h.savedKey, h.savedOrderly, fun replay hreplay => (h.activeRow replay hreplay).mono hclock⟩
  cases next with
  | advance engine readings =>
    obtain ⟨hfits, hreadings, hcount⟩ := hfair
    exact hlater (h.fighter.advance hcohort hfits hreadings hcount)
      (hreadings.recorded.le.trans (hreadings.decided.trans hreadings.started))
  | start engine now => exact hlater (h.fighter.startNext hcohort hfair.1 hfair.2) hfair.2
  | register engine artifact deferTournament now =>
    exact hlater (h.fighter.register hcohort hfair.1 hfair.2.1 deferTournament hfair.2.2) hfair.2.2
  | govern state =>
    exact ⟨⟨hfair.2.trans h.fighter.ofKey, hfair.1, h.fighter.replay⟩, h.savedKey, h.savedOrderly, h.activeRow⟩
  | save updatedAt publication => exact h.save updatedAt publication
  | load championJourney => exact h.load championJourney

theorem orderly_default (key : SkillKey) : Orderly { cohortKey := key.1, skill := key.2 } where
  testing := by simp
  nodup := nodup_nil
  length := Nat.zero_le _
  waits := by simp
  unrejected := by simp

theorem Corner.kept_initial (library : Library) (key : SkillKey) : (Corner.initial key).Kept library key :=
  ⟨⟨rfl, orderly_default key, fun _ hreplay => absurd hreplay (Option.not_mem_none _)⟩, rfl, orderly_default key,
    fun _ hreplay => absurd hreplay (Option.not_mem_none _)⟩

theorem Corner.kept_run {turns : List Turn} (hcohort : validKey (some (library.cohortKey key.1)) = true)
    (hfair : Along (turn library) Corner.Fair (Corner.initial key) turns) :
    (run (turn library) (Corner.initial key) turns).Kept library key :=
  hfair.invariant (I := Corner.Kept library key) (Corner.kept_initial library key) fun _ _ h ha => h.turn hcohort ha

/-- The state of the fighter, and what is saved of it, but for the times of the updates. -/
def Corner.states (corner : Corner) : Challenger.ChallengerSkillState × Challenger.ChallengerSkillState :=
  (corner.fighter.state, corner.saved)

/-- The turn, where the recorder reads the clock at another time. -/
def Turn.recordedAt (recorded : ℕ) : Turn → Turn
  | .advance engine readings => .advance engine { readings with recorded }
  | next => next

/-- A save that is skipped would have saved what is saved. -/
theorem save_states (library : Library) (corner : Corner) (updatedAt : ℕ) (publication : Bool) :
    (corner.save library updatedAt publication).states =
      (corner.fighter.state.acknowledged, corner.fighter.state.acknowledged) := by
  unfold Corner.save
  split_ifs with hskips
  · simp only [Corner.skips, Bool.and_eq_true, decide_eq_true_eq] at hskips
    rw [hskips.1.1.2, corner.acknowledged]
    exact congrArg (·, corner.saved) hskips.1.1.2
  · rfl

theorem states_turn (library library' : Library) {corner corner' : Corner} (h : corner.states = corner'.states)
    (next : Turn) (recorded : ℕ) :
    (turn library corner next).states = (turn library' corner' (next.recordedAt recorded)).states := by
  obtain ⟨hstate, hsaved⟩ := Prod.mk.injEq .. ▸ h
  have hstart (engine : LearningEngine) (now : ℕ) (state : Challenger.ChallengerSkillState) (recording recording' : Recording) :
      (Fighter.startNextSkillTournament library engine now ⟨state, recording⟩).state =
        (Fighter.startNextSkillTournament library' engine now ⟨state, recording'⟩).state := by
    rw [Fighter.startNext_state, Fighter.startNext_state]
  obtain ⟨⟨state, recording⟩, saved⟩ := corner
  obtain ⟨⟨state', recording'⟩, saved'⟩ := corner'
  dsimp only at hstate hsaved
  subst hstate hsaved
  cases next with
  | advance engine readings => exact congrArg (·, saved) (Fighter.advance_state ..)
  | start engine now => exact congrArg (·, saved) (hstart engine now state ..)
  | register engine artifact deferTournament now =>
    refine congrArg (·, saved) ?_
    dsimp only [turn, Turn.recordedAt, Fighter.register]
    split_ifs
    · rfl
    · exact hstart ..
    · rfl
  | govern state => rfl
  | save updatedAt publication =>
    dsimp only [turn, Turn.recordedAt]
    rw [save_states, save_states]
  | load championJourney => rfl

/-- **Recording is invisible.** Whatever is recorded, by whichever library, clock and rows, and whichever saves are skipped
for it: a run leaves a fighter in the same state, and the same is saved of it, but for the times of the updates. -/
theorem recording_invisible (library library' : Library) (turns : List (Turn × ℕ)) (corner : Corner) (recording : Recording)
    (activeRow : Option Replay) (eventRows : FrozenReplays) (updatedAt savedAt : ℕ) (remembered : Bool) :
    (run (turn library) corner (turns.map Prod.fst)).states =
      (run (turn library')
        { corner with
          fighter := ⟨corner.fighter.state, recording⟩, activeRow, eventRows, updatedAt, savedAt, remembered }
        (turns.map fun next => next.1.recordedAt next.2)).states := by
  suffices hrun : ∀ corner corner' : Corner, corner.states = corner'.states →
      (run (turn library) corner (turns.map Prod.fst)).states =
        (run (turn library') corner' (turns.map fun next => next.1.recordedAt next.2)).states from hrun _ _ rfl
  induction turns with
  | nil => exact fun _ _ h => h
  | cons next turns ih => exact fun _ _ h => ih _ _ (states_turn library library' h next.1 next.2)

/-! ### The deciding round -/

/-- A point says what an event says. -/
structure Point.Tells (p : Point) (event : BrowserEvent) : Prop where
  observed : p.observed = event.commonObservedCount
  usable : p.usable = event.commonUsableCount
  coverage : p.coverage = event.availabilityFraction
  mean : p.mean.same event.meanUplift = true
  lower : p.lower.same event.upliftLowerBound = true

/-- What a round writes of its counts. -/
structure Counted (record : TournamentRecord) : Prop where
  usable_le : record.commonUsableCount ≤ record.commonObservedCount
  availability : record.availabilityFraction =
    if record.commonObservedCount = 0 then 0 else (record.commonUsableCount : ℚ) / record.commonObservedCount

theorem counted_judged (engine : LearningEngine) (policy : CoveragePolicy) (candidate champion : String)
    (state : Challenger.ChallengerSkillState) : Counted (engine.judged policy candidate champion state).1 := by
  unfold LearningEngine.judged
  dsimp only
  generalize engine.tournamentEpisodes state policy candidate champion = resolved
  constructor
  · dsimp only
    exact length_filterMap_le _ _
  · rfl

/-- What a replay shows of a round. -/
def Library.evidence (library : Library) (record : TournamentRecord) : Evidence :=
  ⟨record.commonObservedCount, record.commonUsableCount, record.availabilityFraction,
    .ofOption (record.uplift.map Interval.centre), .ofOption (record.uplift.map library.lower),
    .ofOption (record.uplift.map library.upper)⟩

/-- The statistics of a round can be recorded. -/
theorem evidence?_of_counted (hwidth : ∀ x, 0 ≤ library.halfWidth x) (skill : ChallengerSkill)
    (h : Counted record) : (tournamentOf library skill record).evidence? = some (library.evidence record) := by
  have hrecordable (x : Option ℚ) : (Statistic.ofOption x).recordable = true := by
    cases x <;> rfl
  have hordered : ordered (.ofOption (record.uplift.map library.lower)) (.ofOption (record.uplift.map Interval.centre))
      (.ofOption (record.uplift.map library.upper)) = true := by
    cases record.uplift with
    | none => rfl
    | some i =>
      have hpos := hwidth i.square
      simp only [ordered, Option.map_some, Statistic.ofOption, Statistic.number?, Library.lower, Library.upper,
        Bool.and_eq_true, decide_eq_true_eq]
      constructor <;> linarith
  have hcoverage : coverageOf record.commonUsableCount record.commonObservedCount = record.availabilityFraction := by
    rw [h.availability, coverageOf]
    simp
  have hle : (record.commonUsableCount : ℤ) ≤ record.commonObservedCount := by exact_mod_cast h.usable_le
  simp only [Tournament.evidence?, tournamentOf, Option.getD_some, hcoverage]
  rw [if_pos ⟨by omega, hle, hrecordable _, hrecordable _, hrecordable _, hordered⟩]
  rfl

namespace Fighter

theorem recordReplay_pending (fighter : Fighter) :
    (fighter.recordReplay library now).recording.pendingBattleReplays = fighter.recording.pendingBattleReplays := by
  show (recordWith thin (fighter.recorder library) _ _ now).pendingBattleReplays = _
  cases hbattles : (fighter.recorder library).battles with
  | false =>
    rw [recordWith_idle hbattles]
    rfl
  | true =>
    obtain ⟨dirty, hrecord⟩ := recordWith_spec thin minimumSamples
      (minimumCoverage fighter.state.lastTournament.coverage) now hbattles
    rw [hrecord]
    rfl

theorem startNext_pending (fighter : Fighter) :
    (fighter.startNextSkillTournament library engine now).recording.pendingBattleReplays =
      fighter.recording.pendingBattleReplays := by
  have hbegin (fighter : Fighter) (candidate : ChallengerSkillArtifact) :
      (fighter.beginTournament library engine candidate now).recording.pendingBattleReplays =
        fighter.recording.pendingBattleReplays := recordReplay_pending _
  unfold startNextSkillTournament
  split_ifs
  · rfl
  · rfl
  · dsimp only
    cases engine.preferredPending (engine.withoutRedundant fighter.state) with
    | none => rfl
    | some selected =>
      dsimp only
      split_ifs
      · exact hbegin _ selected
      · have hcrowned := crownFirst_recording library
          { fighter with state := engine.withoutRedundant fighter.state } selected
        split
        · rw [hcrowned]
        · rw [hbegin, hcrowned]

/-- The last point of the replay is what the round found. -/
theorem recordReplay_last (now : ℕ) {evidence : Evidence} (hbattles : (fighter.recorder library).battles = true)
    (hevidence : (fighter.recorder library).lastTournament.evidence? = some evidence)
    (hbefore : ∀ replay ∈ fighter.recording.battleReplay, ∀ p ∈ replay.points, p.time < now) :
    ∃ replay, (fighter.recordReplay library now).recording.battleReplay = some replay ∧
      replay.candidateVersion = fighter.state.testingVersion ∧ replay.championVersion = fighter.state.championVersion ∧
      ∃ latest ∈ replay.points.getLast?, latest.toEvidence.same evidence = true := by
  obtain ⟨dirty, hrecord⟩ := recordWith_spec thin minimumSamples
    (minimumCoverage fighter.state.lastTournament.coverage) now hbattles
  have hcases := recording_cases (fighter.recorder library) minimumSamples
    (minimumCoverage fighter.state.lastTournament.coverage)
  simp only [recordReplay, recorded, Arena.recordReplay, hrecord, hevidence]
  generalize (fighter.recorder library).recording minimumSamples
    (minimumCoverage fighter.state.lastTournament.coverage) = recording at hcases ⊢
  have hrecording : recording.candidateVersion = fighter.state.testingVersion ∧
      recording.championVersion = fighter.state.championVersion ∧ ∀ p ∈ recording.points, p.time < now := by
    rcases hcases with ⟨incomplete, rfl⟩ | ⟨hcurrent, hcandidate, hchampion⟩
    · exact ⟨rfl, rfl, fun p hp => absurd hp not_mem_nil⟩
    · exact ⟨hcandidate, hchampion, hbefore recording hcurrent⟩
  have hlast := last_recorded (evidence?_same hevidence) hrecording.2.2
  obtain ⟨points, sampled, incomplete, hframe⟩ := recorded_frame recording (some evidence) now
  refine ⟨_, rfl, ?_, ?_, hlast⟩
  · rw [hframe]
    exact hrecording.1
  · rw [hframe]
    exact hrecording.2.1

/-- A new event freezes the replay. -/
theorem frozen_appendChampionEvent (library : Library) (fighter : Fighter) (hkind : event.kind ≠ .firstChampion)
    (hnew : ∀ known ∈ fighter.state.championJourney, known.milestone ≠ event.milestone)
    (hreplay : fighter.recording.battleReplay = some replay) (hpoints : replay.points ≠ []) :
    (fighter.appendChampionEvent library event).recording.pendingBattleReplays.get?
        (library.eventId fighter.state.key event.milestone) =
      some (library.eventId fighter.state.key event.milestone, replay) ∧
      event ∈ (fighter.appendChampionEvent library event).state.championJourney := by
  have hunknown : ¬ (fighter.state.championJourney.any fun known => known.milestone = event.milestone) = true := by
    simpa using hnew
  unfold appendChampionEvent
  rw [if_neg hunknown, if_neg hkind]
  constructor
  · simp only [freezeReplay, recorded, Arena.freezeReplay, recorder, hreplay, if_neg hpoints]
    rw [Table.get?_upsert, if_pos rfl]
  · simp

theorem tells_of_same {kind : ChampionEventKind} {candidate previous champion : String}
    {now : Paper.Instant} (h : p.toEvidence.same (library.evidence record) = true) :
    p.Tells (browserEvent library key (LearningEngine.championEvent kind candidate previous champion record now)) := by
  unfold Library.evidence at h
  simp only [Evidence.same, Bool.and_eq_true, decide_eq_true_eq] at h
  obtain ⟨⟨⟨⟨⟨hobserved, husable⟩, hcoverage⟩, hmean⟩, hlower⟩, -⟩ := h
  exact ⟨hobserved, husable, hcoverage, hmean, hlower⟩

/-- A replay is frozen for an event of the journey, and its last point tells what the event tells. -/
structure Freezes (library : Library) (key : SkillKey) (clock : ℕ) (event : ChampionEvent) (frozen : Replay)
    (fighter : Fighter) : Prop where
  pending : fighter.recording.pendingBattleReplays.get? (library.eventId key event.milestone) =
    some (library.eventId key event.milestone, frozen)
  journey : event ∈ fighter.state.championJourney
  kept : frozen.Kept library key clock
  candidate : frozen.candidateVersion = some event.candidateVersion
  champion : frozen.championVersion = event.previousChampionVersion
  kind : event.kind ≠ .firstChampion
  last : ∃ latest ∈ frozen.points.getLast?, latest.Tells (browserEvent library key event)

/-- The next tournament leaves the journey of a Champion alone, and what is frozen. -/
theorem Freezes.startNext {frozen : Replay} (h : Freezes library key clock event frozen fighter)
    (engine : LearningEngine) (now : ℕ) (hchampion : fighter.state.championVersion.isSome) :
    Freezes library key clock event frozen (fighter.startNextSkillTournament library engine now) := by
  refine { h with pending := ?_, journey := ?_ }
  · rw [startNext_pending]
    exact h.pending
  · rw [startNext_state, (LearningEngine.startNext_of_champion hchampion).2]
    exact h.journey

/-- So does the rejection of the candidate. -/
theorem Freezes.settle {frozen : Replay}
    (h : Freezes library key clock event frozen (fighter.appendChampionEvent library event)) (candidateVersion : String) :
    Freezes library key clock event frozen (fighter.settle library candidateVersion event) := by
  obtain ⟨rejected, hframe⟩ :=
    LearningEngine.withRejected_frame candidateVersion (fighter.appendChampionEvent library event).state
  refine { h with journey := ?_ }
  unfold Fighter.settle
  dsimp only
  rw [hframe]
  exact h.journey

/-- The replay of a battle ends with what a round found. -/
structure Shows (library : Library) (key : SkillKey) (clock : ℕ) (candidate champion : String) (record : TournamentRecord)
    (replay : Replay) (recording : Recording) : Prop where
  battleReplay : recording.battleReplay = some replay
  kept : replay.Kept library key clock
  candidate : replay.candidateVersion = some candidate
  champion : replay.championVersion = some champion
  last : ∃ latest ∈ replay.points.getLast?, latest.toEvidence.same (library.evidence record) = true

section verdict

variable {candidate champion : String} {record : TournamentRecord}

/-- A new event of the round freezes its replay. -/
theorem Shows.freezes (h : Shows library fighter.state.key clock candidate champion record replay fighter.recording)
    {kind : ChampionEventKind} (hkind : kind ≠ .firstChampion) (next : String) (now : ℕ)
    (hnew : ∀ known ∈ fighter.state.championJourney,
      known.milestone ≠ (LearningEngine.championEvent kind candidate champion next record now).milestone) :
    Freezes library fighter.state.key clock (LearningEngine.championEvent kind candidate champion next record now) replay
      (fighter.appendChampionEvent library (LearningEngine.championEvent kind candidate champion next record now)) := by
  obtain ⟨latest, hlatest, hsame⟩ := h.last
  have hpoints : replay.points ≠ [] := by
    intro hnone
    rw [hnone] at hlatest
    cases hlatest
  obtain ⟨hpending, hjourney⟩ := frozen_appendChampionEvent library fighter hkind hnew h.battleReplay hpoints
  exact ⟨hpending, hjourney, h.kept, h.candidate, h.champion, hkind, latest, hlatest, tells_of_same hsame⟩

/-- A battle that is lost or undecided. -/
theorem Shows.settled (h : Shows library key clock candidate champion record replay fighter.recording)
    {kind : ChampionEventKind} (hkind : kind ≠ .firstChampion) (engine : LearningEngine) (now started : ℕ)
    (hkey : fighter.state.key = key) (hchampion : fighter.state.championVersion.isSome)
    (hnew : ∀ known ∈ fighter.state.championJourney,
      known.milestone ≠ (LearningEngine.championEvent kind candidate champion champion record now).milestone) :
    Freezes library key clock (LearningEngine.championEvent kind candidate champion champion record now) replay
      (startNextSkillTournament library engine started (fighter.settle library candidate
        (LearningEngine.championEvent kind candidate champion champion record now))) := by
  obtain rfl := hkey
  refine ((h.freezes hkind champion now hnew).settle candidate).startNext engine started ?_
  rw [settle_state]
  exact LearningEngine.settleTournament_isSome candidate _ hchampion

/-- A battle that is won. -/
theorem Shows.promoted (h : Shows library key clock candidate champion record replay fighter.recording)
    (engine : LearningEngine) (now started : ℕ) (hkey : fighter.state.key = key)
    (hchampion : fighter.state.championVersion.isSome)
    (hnew : ∀ known ∈ fighter.state.championJourney,
      known.milestone ≠ (LearningEngine.championEvent .promoted candidate champion candidate record now).milestone) :
    Freezes library key clock (LearningEngine.championEvent .promoted candidate champion candidate record now) replay
      (startNextSkillTournament library engine started (appendChampionEvent library
        (LearningEngine.championEvent .promoted candidate champion candidate record now) fighter)) := by
  obtain rfl := hkey
  refine (h.freezes (by rintro ⟨⟩) candidate now hnew).startNext engine started ?_
  rw [appendChampionEvent_state, Challenger.appendChampionEvent_frame]
  exact hchampion

end verdict

/-- A round judges a contest of artifacts, by the requirement with which it was started. -/
theorem judges?_eq_some {candidateVersion championVersion : String} {verdict : Verdict}
    (h : judges? engine state = some (candidateVersion, championVersion, record, verdict)) :
    ∃ candidate champion policy, candidate.version = candidateVersion ∧ champion.version = championVersion ∧
      state.testingVersion = some candidateVersion ∧ candidate ∈ engine.skillArtifacts ∧
      engine.availableCandidate candidateVersion = some candidate ∧ engine.judgeableChampion state = some champion ∧
      ¬ (candidate.isCoach ∧ candidate.dependencyVersions ≠ engine.activeSkillVersions) ∧
      readPolicy state.lastTournament.coverage = some policy ∧
      engine.judged policy candidateVersion championVersion state = (record, verdict) := by
  unfold judges? at h
  split at h
  · cases h
  next testing htesting =>
    split at h
    next candidate champion hcandidate hchampion =>
      split_ifs at h with hstale
      obtain ⟨policy, hpolicy, hjudged⟩ := Option.map_eq_some_iff.mp h
      obtain ⟨hknown, hversion⟩ := Table.get?_eq_some.mp (Option.filter_eq_some_iff.mp hcandidate).1
      cases hjudged
      exact ⟨candidate, champion, policy, hversion, rfl, htesting, hknown, hcandidate, hchampion, hstale, hpolicy, rfl⟩
    · cases h

/-- A decided battle is judged, and its round goes on by the verdict. -/
theorem decides?_eq_some (h : decides? engine now state = some event) :
    ∃ candidate champion record verdict, judges? engine state = some (candidate, champion, record, verdict) ∧
      (verdict = .promoted ∧ event = LearningEngine.championEvent .promoted candidate champion candidate record now ∨
        verdict = .inconclusive ∧
          event = LearningEngine.championEvent .inconclusive candidate champion champion record now ∨
        verdict = .defended ∧ event = LearningEngine.championEvent .defended candidate champion champion record now) := by
  unfold decides? at h
  split at h
  next hjudges => exact ⟨_, _, _, _, hjudges, Or.inl ⟨rfl, (Option.some.inj h).symm⟩⟩
  next hjudges => exact ⟨_, _, _, _, hjudges, Or.inr (Or.inl ⟨rfl, (Option.some.inj h).symm⟩)⟩
  next hjudges => exact ⟨_, _, _, _, hjudges, Or.inr (Or.inr ⟨rfl, (Option.some.inj h).symm⟩)⟩
  · cases h

/-- The replay of a judged round shows what it found. -/
theorem shows_judged {candidate champion : ChallengerSkillArtifact} {policy : CoveragePolicy}
    {recorded : ℕ} (h : fighter.Kept library key clock) (hcohort : validKey (some (library.cohortKey key.1)) = true)
    (hfits : Fits engine) (hwidth : ∀ x, 0 ≤ library.halfWidth x)
    (htesting : fighter.state.testingVersion = some candidate.version) (hcandidate : candidate ∈ engine.skillArtifacts)
    (hchampion : engine.judgeableChampion fighter.state = some champion)
    (hpolicy : readPolicy fighter.state.lastTournament.coverage = some policy)
    (hrecord : (engine.judged policy candidate.version champion.version fighter.state).1 = record)
    (hclock : clock < recorded) (hcount : (record.commonObservedCount : ℤ) ≤ maxSafeInteger) :
    ∃ replay, Shows library key recorded candidate.version champion.version record replay
      (recordReplay library recorded { fighter with
        state := { fighter.state with
          commonForwardCount := record.commonUsableCount, lastTournament := record } }).recording := by
  obtain ⟨hknown, hversion⟩ := judgeableChampion_known hchampion
  have hcounted : Counted record := hrecord ▸ counted_judged engine policy candidate.version champion.version fighter.state
  have hcoverage : record.coverage = fighter.state.lastTournament.coverage := by
    rw [← hrecord]
    rfl
  have hcontest : record.candidateVersion = some candidate.version ∧ record.championVersion = some champion.version := by
    rw [← hrecord]
    exact ⟨rfl, rfl⟩
  have hpresent {artifact : ChallengerSkillArtifact} (hartifact : artifact ∈ engine.skillArtifacts) :
      present (some artifact.version) = true := by
    have hlength := (hfits.versions artifact hartifact).1
    have hne : artifact.version ≠ "" := by
      intro hempty
      rw [hempty] at hlength
      cases hlength
    simpa [present] using hne
  have hbattles : (recorder library { fighter with
      state := { fighter.state with
        commonForwardCount := record.commonUsableCount, lastTournament := record } }).battles = true := by
    simp only [Contest.battles, recorder, tournamentOf, htesting, hversion, hcontest.1, hcontest.2, hpresent hcandidate,
      hpresent hknown, decide_true, Bool.and_self]
  obtain ⟨replay, hreplay, hcandidateVersion, hchampionVersion, hlast⟩ :=
    recordReplay_last recorded hbattles (evidence?_of_counted hwidth _ hcounted)
      fun replay hreplay p hp => ((h.replay replay hreplay).past p hp).trans_lt hclock
  have hjudged := h.judged hcohort hfits htesting hcandidate hchampion (hcoverage ▸ hpolicy) hclock hcount
  exact ⟨replay, hreplay, hjudged.replay replay hreplay, hcandidateVersion.trans htesting, hchampionVersion.trans hversion,
    hlast⟩

/-- **The round that decides a battle** freezes its replay. -/
theorem advance_decides {readings : Readings} (h : fighter.Kept library key clock)
    (hcohort : validKey (some (library.cohortKey key.1)) = true) (hfits : Fits engine)
    (hwidth : ∀ x, 0 ≤ library.halfWidth x) (hreadings : readings.After clock)
    (hcount : ∀ judgement ∈ judges? engine fighter.state, (judgement.2.2.1.commonObservedCount : ℤ) ≤ maxSafeInteger)
    (hevent : decides? engine readings.decided fighter.state = some event)
    (hnew : ∀ known ∈ fighter.state.championJourney, known.milestone ≠ event.milestone) :
    event.occurredAt = readings.decided ∧
      ∃ frozen, Freezes library key readings.recorded event frozen (fighter.advance library engine readings) := by
  obtain rfl := h.ofKey
  obtain ⟨candidateVersion, championVersion, record, verdict, hjudges, hverdict⟩ := decides?_eq_some hevent
  obtain ⟨candidate, champion, policy, rfl, rfl, htesting, hknown, hcandidate, hchampion, hstale, hpolicy, hjudged⟩ :=
    judges?_eq_some hjudges
  have hrecord : (engine.judged policy candidate.version champion.version fighter.state).1 = record := by rw [hjudged]
  obtain ⟨replay, hshows⟩ := shows_judged h hcohort hfits hwidth htesting hknown hchampion hpolicy hrecord
    hreadings.recorded (hcount _ hjudges)
  have hversion : fighter.state.championVersion.isSome := by
    rw [(judgeableChampion_known hchampion).2]
    rfl
  unfold advance
  rw [htesting]
  dsimp only
  rw [hcandidate, hchampion]
  dsimp only
  rw [if_neg hstale, hpolicy]
  dsimp only [advanceJudged]
  rw [hjudged]
  rcases hverdict with ⟨rfl, rfl⟩ | ⟨rfl, rfl⟩ | ⟨rfl, rfl⟩
  · refine ⟨rfl, replay, Shows.promoted ?_ engine readings.decided readings.started rfl rfl hnew⟩
    exact hshows
  · exact ⟨rfl, replay, hshows.settled (by rintro ⟨⟩) engine readings.decided readings.started rfl hversion hnew⟩
  · exact ⟨rfl, replay, hshows.settled (by rintro ⟨⟩) engine readings.decided readings.started rfl hversion hnew⟩

end Fighter

/-! ### What the browser accepts -/

theorem guard_bind {α : Type} {P : Prop} [Decidable P] (h : P) (f : Unit → Option α) : (guard P >>= f) = f () := by
  simp [guard, h]

theorem found_bind {α β : Type} {found : Option α} {a : α} (h : found = some a) (f : α → Option β) :
    (found >>= f) = f a := by
  simp [h]

theorem timelineEnd_of_kept (time : Option ℤ) (sequence : ℤ) {points : List Point}
    (hpoints : ∀ p ∈ points, time.all (· < (p.time : ℤ)) ∧ sequence < p.sequence ∧ p.valid = true ∧ p.sequence ≤ p.time ∧
      p.observed ≤ maxSafeInteger ∧ (p.time : ℤ) ≤ maxSafeInteger)
    (hpairwise : points.Pairwise Point.Before) :
    ∃ last, timelineEnd time sequence points = some last ∧ (last = time ∨ ∃ p ∈ points, last = some (p.time : ℤ)) := by
  induction points generalizing time sequence with
  | nil => exact ⟨time, rfl, Or.inl rfl⟩
  | cons p points ih =>
    obtain ⟨htime, hsequence, hvalid, hcounted, hobserved, hsafe⟩ := hpoints p mem_cons_self
    obtain ⟨hbefore, hpairwise⟩ := pairwise_cons.mp hpairwise
    have hinstant : instant? p.time = some (p.time : ℤ) := if_pos (by rw [abs_of_nonneg (by omega)]; exact hsafe)
    simp only [Point.valid, Bool.and_eq_true, decide_eq_true_eq] at hvalid
    obtain ⟨⟨⟨⟨⟨⟨husable, hle⟩, hcoverage⟩, hmean⟩, hlower⟩, hupper⟩, hordered⟩ := hvalid
    have hcount (n : ℤ) (hpos : 0 ≤ n) (hbound : n ≤ maxSafeInteger) : count n = true := by
      simpa [count] using ⟨hbound, hpos⟩
    obtain ⟨last, hlast, hwhich⟩ := ih (some (p.time : ℤ)) p.sequence (fun q hq => by
      obtain ⟨-, -, hrest⟩ := hpoints q (mem_cons_of_mem _ hq)
      obtain ⟨hlater, hnext⟩ := hbefore q hq
      exact ⟨by simpa using hlater, by exact_mod_cast hnext, hrest⟩) hpairwise
    refine ⟨last, ?_, ?_⟩
    · rw [timelineEnd, guard_bind ⟨hcount _ (by omega) (by omega), hsequence⟩, found_bind hinstant, guard_bind htime,
        guard_bind ⟨hcount _ husable (hle.trans hobserved), hcount _ (husable.trans hle) hobserved, hle, hcoverage⟩,
        guard_bind ⟨hmean, hlower, hupper⟩, guard_bind hordered]
      exact hlast
    · rcases hwhich with rfl | ⟨q, hq, rfl⟩
      · exact Or.inr ⟨p, mem_cons_self, rfl⟩
      · exact Or.inr ⟨q, mem_cons_of_mem _ hq, rfl⟩

/-- A kept replay of an event is accepted, if it has two points and the clock is one that JavaScript can tell exactly. -/
theorem validateReplay_of_kept (h : replay.Kept library key clock)
    (hcandidate : replay.candidateVersion = some event.candidateVersion)
    (hchampion : replay.championVersion = event.previousChampionVersion) (hkind : event.kind ≠ .firstChampion)
    (hlast : ∃ latest ∈ replay.points.getLast?, latest.Tells (browserEvent library key event))
    (hclock : clock ≤ event.occurredAt) (hsafe : event.occurredAt ≤ maxSafeInteger) (hlength : 2 ≤ replay.points.length) :
    validateReplay ⟨library.eventId key event.milestone, library.cohortKey key.1, some replay⟩ (browserEvent library key event)
      (library.cohortKey key.1) = some replay := by
  obtain ⟨latest, hlatest, htells⟩ := hlast
  obtain ⟨hall, hpairwise⟩ := validPoints_iff.mp h.sound.points
  have hbound : (clock : ℤ) ≤ maxSafeInteger := hclock.trans hsafe
  have hpos : (0 : ℤ) ≤ event.occurredAt := (Int.natCast_nonneg clock).trans hclock
  have hpair := h.sound.pair (by
    intro hnone
    rw [hnone] at hlength
    cases hlength)
  obtain ⟨last, htimeline, hend⟩ := timelineEnd_of_kept none (-1)
    (fun p hp => ⟨rfl, (hall p hp).2.1, (hall p hp).2.2, h.sequence p hp, h.observed p hp, by
      have hpast : (p.time : ℤ) ≤ clock := by exact_mod_cast h.past p hp
      omega⟩) hpairwise
  have hpast : last.all (· ≤ event.occurredAt) = true := by
    rcases hend with rfl | ⟨p, hp, rfl⟩
    · rfl
    · have hpast : (p.time : ℤ) ≤ clock := by exact_mod_cast h.past p hp
      simpa using hpast.trans hclock
  have hoccurred : instant? (browserEvent library key event).occurredAt = some event.occurredAt :=
    if_pos ((abs_of_nonneg hpos).trans_le hsafe)
  have hsamples := h.sound.minimumSamples
  have hcounted : count replay.minimumSamples = true := by
    have hbound : replay.minimumSamples ≤ maxSafeInteger := hsamples.2.trans (by decide)
    simpa [count] using ⟨hbound, by omega⟩
  rw [validateReplay, guard_bind ⟨rfl, rfl, hkind⟩, found_bind rfl,
    guard_bind ⟨h.sound.version, h.cohortKey, h.skill, hcandidate, hchampion, hpair.2.2⟩,
    guard_bind ⟨hcounted, hsamples.1, hsamples.2, h.sound.minimumCoverage.1, h.sound.minimumCoverage.2⟩,
    guard_bind ⟨hlength, h.sound.length_le⟩, found_bind htimeline, found_bind hlatest, found_bind hoccurred,
    guard_bind hpast, guard_bind ⟨htells.observed, htells.usable, htells.coverage, htells.mean, htells.lower⟩]
  rfl

/-- **A decided battle plays back.** Whatever happened to a fighter, with readings of the clock that follow each other:
the round that decides its battle for a new event freezes a replay, whose last point is that round's, and which the browser
accepts for the event and its cohort once it has two points, as long as JavaScript can tell the time exactly. -/
theorem decided_battle_plays_back (library : Library) (key : SkillKey) (turns : List Turn) (engine : LearningEngine)
    (readings : Fighter.Readings) (event : ChampionEvent)
    (hcohort : validKey (some (library.cohortKey key.1)) = true) (hwidth : ∀ x, 0 ≤ library.halfWidth x)
    (hfair : Along (turn library) Corner.Fair (Corner.initial key) (turns ++ [.advance engine readings]))
    (hevent : Fighter.decides? engine readings.decided
      (run (turn library) (Corner.initial key) turns).fighter.state = some event)
    (hnew : ∀ known ∈ (run (turn library) (Corner.initial key) turns).fighter.state.championJourney,
      known.milestone ≠ event.milestone)
    (hclock : (readings.decided : ℤ) ≤ maxSafeInteger) :
    ∃ frozen,
      (run (turn library) (Corner.initial key) (turns ++ [.advance engine readings])).fighter.recording.pendingBattleReplays.get?
          (library.eventId key event.milestone) = some (library.eventId key event.milestone, frozen) ∧
        event ∈ (run (turn library) (Corner.initial key)
          (turns ++ [.advance engine readings])).fighter.state.championJourney ∧
        validReplay frozen = true ∧
        (∃ latest ∈ frozen.points.getLast?, latest.Tells (browserEvent library key event) ∧
          (latest.time : ℤ) ≤ event.occurredAt) ∧
        (2 ≤ frozen.points.length →
          validateReplay ⟨library.eventId key event.milestone, library.cohortKey key.1, some frozen⟩
            (browserEvent library key event) (library.cohortKey key.1) = some frozen) := by
  obtain ⟨hturns, ⟨hfits, hreadings, hcount⟩, -⟩ := along_append.mp hfair
  have hkept := Corner.kept_run hcohort hturns
  obtain ⟨hoccurred, frozen, hfreezes⟩ :=
    Fighter.advance_decides hkept.fighter hcohort hfits hwidth hreadings hcount hevent hnew
  have hdecided : (readings.recorded : ℤ) ≤ event.occurredAt := by
    rw [hoccurred]
    exact_mod_cast hreadings.decided
  obtain ⟨latest, hlatest, htells⟩ := hfreezes.last
  have hpoints : frozen.points ≠ [] := by
    intro hnone
    rw [hnone] at hlatest
    cases hlatest
  have hpast : (latest.time : ℤ) ≤ readings.recorded := by
    exact_mod_cast hfreezes.kept.past latest (mem_of_getLast? hlatest)
  rw [run_append]
  exact ⟨frozen, hfreezes.pending, hfreezes.journey, validReplay_iff.mpr ⟨hfreezes.kept.sound, hpoints⟩,
    ⟨latest, hlatest, htells, hpast.trans hdecided⟩,
    validateReplay_of_kept hfreezes.kept hfreezes.candidate hfreezes.champion hfreezes.kind hfreezes.last hdecided
      (hoccurred ▸ hclock)⟩

/-! ### A battle of two guards -/

def digests : Library where
  halfWidth := Rat.sqrt
  cohortKey key := key.configurationFingerprint
  eventId _ milestone := milestone.championVersion ++ "/" ++ milestone.candidateVersion
  fits _ := true

def guards : LearningEngine := guardEngine (.ofRows [Challenger.guard 0, Challenger.guard 1]) .empty

/-- The first guard is Champion at once, and the second one begins to test. -/
def twoGuards : List Turn := [.register guards (Challenger.guard 0) false 0, .register guards (Challenger.guard 1) false 1]

def guardState : Challenger.ChallengerSkillState := (run (turn digests) (Corner.initial guardKey) twoGuards).fighter.state

/-- The event of the round that decides, if it is recorded at this time. -/
def guardEvent (now : ℕ) : Option ChampionEvent := Fighter.decides? guards now guardState

/-- The replay that is frozen for the event. -/
def guardReplay (readings : Fighter.Readings) : Option (String × Replay) :=
  (run (turn digests) (Corner.initial guardKey) (twoGuards ++ [.advance guards readings])).fighter.recording.pendingBattleReplays.get?
    "g/gg"

theorem guards_fit : Fits guards where
  policy := by decide +kernel
  versions := by
    have hversions : ∀ artifact ∈ guards.skillArtifacts.rows,
        1 ≤ artifact.version.length ∧ artifact.version.length ≤ 180 := by decide +kernel
    exact hversions

theorem guards_fair {readings : Fighter.Readings} (h : readings.After 1) :
    Along (turn digests) Corner.Fair (Corner.initial guardKey) (twoGuards ++ [.advance guards readings]) := by
  refine ⟨⟨guards_fit, by decide +kernel, by decide⟩, ⟨guards_fit, by decide +kernel, by decide⟩,
    ⟨guards_fit, h, fun judgement hjudgement => ?_⟩, along_nil⟩
  have hcount : (Fighter.judges? guards guardState).all
      (fun judgement => (judgement.2.2.1.commonObservedCount : ℤ) ≤ maxSafeInteger) = true := by decide +kernel
  have hjudgement : Fighter.judges? guards guardState = some judgement := hjudgement
  rw [hjudgement] at hcount
  simpa using hcount

/-- A battle that is decided a microsecond after it begins. -/
theorem decided_battle_of_guards : ∃ event frozen, guardEvent 2 = some event ∧ guardReplay ⟨2, 2, 2⟩ = some ("g/gg", frozen) ∧
    validateReplay ⟨"g/gg", "configuration", some frozen⟩ (browserEvent digests guardKey event) "configuration" =
      some frozen := by
  have hdecides : (guardEvent 2).isSome = true := by decide +kernel
  obtain ⟨event, hevent⟩ := Option.isSome_iff_exists.mp hdecides
  have hid : (guardEvent 2).map (fun event => digests.eventId guardKey event.milestone) = some "g/gg" := by decide +kernel
  rw [hevent] at hid
  have hid : digests.eventId guardKey event.milestone = "g/gg" := Option.some.inj hid
  have hjourney : (guardEvent 2).all (fun event =>
      guardState.championJourney.all fun known => known.milestone ≠ event.milestone) = true := by decide +kernel
  obtain ⟨frozen, hfrozen, -, -, -, haccepted⟩ := decided_battle_plays_back digests guardKey twoGuards guards ⟨2, 2, 2⟩
    event (by decide +kernel) (fun x => Rat.sqrt_nonneg x)
    (guards_fair ⟨by decide, by decide, by decide⟩) hevent (by
      rw [hevent] at hjourney
      have hnew : ∀ known ∈ guardState.championJourney, known.milestone ≠ event.milestone := by simpa using hjourney
      exact hnew) (by decide)
  rw [hid] at hfrozen haccepted
  have hlength : (guardReplay ⟨2, 2, 2⟩).map (fun frozen => frozen.2.points.length) = some 2 := by decide +kernel
  have hreplay : guardReplay ⟨2, 2, 2⟩ = some ("g/gg", frozen) := hfrozen
  rw [hreplay] at hlength
  exact ⟨event, frozen, hevent, hreplay, haccepted (Option.some.inj hlength).ge⟩

/-- **A battle that is decided later than JavaScript can count** microseconds, in the year 2255, does not play back. -/
theorem decided_battle_not_played_back :
    Along (turn digests) Corner.Fair (Corner.initial guardKey) (twoGuards ++ [.advance guards ⟨2, 2 ^ 53, 2 ^ 53⟩]) ∧
      ∃ event frozen, guardEvent (2 ^ 53) = some event ∧ (∀ known ∈ guardState.championJourney, known.milestone ≠ event.milestone) ∧
        guardReplay ⟨2, 2 ^ 53, 2 ^ 53⟩ = some ("g/gg", frozen) ∧ frozen.points.length = 2 ∧
        validateReplay ⟨"g/gg", "configuration", some frozen⟩ (browserEvent digests guardKey event) "configuration" = none := by
  refine ⟨guards_fair ⟨by decide, by decide, by decide⟩, ?_⟩
  have hdecides : (guardEvent (2 ^ 53)).isSome = true := by decide +kernel
  have hfrozen : (guardReplay ⟨2, 2 ^ 53, 2 ^ 53⟩).isSome = true := by decide +kernel
  have hfails : (guardEvent (2 ^ 53)).all (fun event => (guardReplay ⟨2, 2 ^ 53, 2 ^ 53⟩).all fun frozen =>
      (guardState.championJourney.all fun known => known.milestone ≠ event.milestone) && (frozen.1 = "g/gg" &&
        (frozen.2.points.length = 2 &&
          (validateReplay ⟨"g/gg", "configuration", some frozen.2⟩ (browserEvent digests guardKey event)
            "configuration").isNone))) = true := by decide +kernel
  obtain ⟨event, hevent⟩ := Option.isSome_iff_exists.mp hdecides
  obtain ⟨⟨id, frozen⟩, hreplay⟩ := Option.isSome_iff_exists.mp hfrozen
  rw [hevent, hreplay, Option.all_some, Option.all_some, Bool.and_eq_true, Bool.and_eq_true, Bool.and_eq_true] at hfails
  obtain ⟨hnew, hid, hlength, hrefused⟩ := hfails
  have hid : id = "g/gg" := of_decide_eq_true hid
  subst hid
  have hnew : ∀ known ∈ guardState.championJourney, known.milestone ≠ event.milestone := by simpa using hnew
  exact ⟨event, frozen, hevent, hnew, hreplay, of_decide_eq_true hlength, Option.isNone_iff_eq_none.mp hrefused⟩

end SignalArcade.Arena
