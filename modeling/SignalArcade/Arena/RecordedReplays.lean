import SignalArcade.Arena.BattleReplay
import Mathlib.Tactic.Positivity

/-!
# What a recorded replay is
-/

namespace SignalArcade.Arena

open Runs List Option

variable {shrink : Replay → Replay} {state full : ChallengerSkillState} {minimum : ℤ} {coverage : ℚ} {now : ℕ}
  {evidence : Evidence} {replay kept complete : Replay}

/-! ### A call of the recorder -/

/-- The replay that a call of `record_replay` records to. -/
def ChallengerSkillState.recording (state : ChallengerSkillState) (minimum : ℤ) (coverage : ℚ) : Replay :=
  ((state.rescored minimum coverage).joined minimum coverage).2

theorem recording_eq (state : ChallengerSkillState) (minimum : ℤ) (coverage : ℚ) :
    state.recording minimum coverage = match state.battleReplay with
      | none => { state.freshReplay minimum coverage with incomplete := true }
      | some replay =>
        if replay.actionScoring = state.lastTournament.actionScoring then
          if replay.candidateVersion = state.testingVersion ∧ replay.championVersion = state.championVersion then
            replay
          else { state.freshReplay minimum coverage with incomplete := true }
        else { state.freshReplay minimum coverage with incomplete := !replay.points.isEmpty || replay.incomplete } := by
  unfold ChallengerSkillState.recording ChallengerSkillState.rescored
  cases hreplay : state.battleReplay with
  | none => simp [ChallengerSkillState.joined, hreplay]
  | some replay =>
    dsimp only
    split_ifs with hscoring hpair
    · simp [ChallengerSkillState.joined, hreplay, hpair]
    · simp [ChallengerSkillState.joined, hreplay, hpair]
    · simp [ChallengerSkillState.joined, ChallengerSkillState.withReplay, ChallengerSkillState.freshReplay]

theorem recording_cases (state : ChallengerSkillState) (minimum : ℤ) (coverage : ℚ) :
    (∃ incomplete, state.recording minimum coverage = { state.freshReplay minimum coverage with incomplete }) ∨
      state.battleReplay = some (state.recording minimum coverage) ∧
        (state.recording minimum coverage).candidateVersion = state.testingVersion ∧
        (state.recording minimum coverage).championVersion = state.championVersion := by
  rw [recording_eq]
  cases state.battleReplay with
  | none => exact .inl ⟨_, rfl⟩
  | some replay =>
    dsimp only
    split_ifs with hscoring hpair
    · exact .inr ⟨rfl, hpair⟩
    · exact .inl ⟨_, rfl⟩
    · exact .inl ⟨_, rfl⟩

def Replay.recorded (shrink : Replay → Replay) (replay : Replay) (evidence : Option Evidence) (now : ℕ) : Replay :=
  (evidence.bind fun evidence => replay.observe shrink evidence now).getD replay

theorem joined_eq (state : ChallengerSkillState) (minimum : ℤ) (coverage : ℚ) :
    ∃ dirty, ((state.rescored minimum coverage).joined minimum coverage).1 =
      { state with battleReplay := some (state.recording minimum coverage), battleReplayDirty := dirty } := by
  have hrescored : ∃ replay dirty, state.rescored minimum coverage =
      { state with battleReplay := replay, battleReplayDirty := dirty } := by
    unfold ChallengerSkillState.rescored
    split
    · exact ⟨_, _, rfl⟩
    · split_ifs
      · exact ⟨_, _, rfl⟩
      · exact ⟨_, _, rfl⟩
  obtain ⟨replay, dirty, hrescored⟩ := hrescored
  unfold ChallengerSkillState.recording
  rw [hrescored]
  unfold ChallengerSkillState.joined
  cases replay with
  | none => exact ⟨_, rfl⟩
  | some replay =>
    dsimp only
    split_ifs <;> exact ⟨_, rfl⟩

/-- A call of `record_replay` for the pair that battles. -/
theorem recordWith_spec (shrink : Replay → Replay) (minimum : ℤ) (coverage : ℚ) (now : ℕ)
    (hbattles : state.battles = true) :
    ∃ dirty, recordWith shrink state minimum coverage now = { state with
      battleReplay := some ((state.recording minimum coverage).recorded shrink state.lastTournament.evidence? now)
      battleReplayDirty := dirty } := by
  obtain ⟨dirty, hjoined⟩ := joined_eq state minimum coverage
  have hpair : (state.rescored minimum coverage).joined minimum coverage =
      (_, state.recording minimum coverage) := Prod.ext hjoined rfl
  unfold recordWith Replay.recorded
  rw [if_pos hbattles, hpair]
  dsimp only
  cases state.lastTournament.evidence? with
  | none => exact ⟨dirty, rfl⟩
  | some evidence =>
    dsimp only [bind_some]
    cases (state.recording minimum coverage).observe shrink evidence now with
    | none => exact ⟨dirty, rfl⟩
    | some replay => exact ⟨true, rfl⟩

/-- A call of `record_replay` for another pair does nothing. -/
theorem recordWith_idle (h : state.battles = false) :
    recordWith shrink state minimum coverage now = state := by
  unfold recordWith
  rw [h]
  rfl

/-! ### Thinning -/

/-- What `thin` leaves of a replay. -/
theorem thin_spec (replay : Replay) :
    ∃ points sampled, thin replay = { replay with points, sampled } ∧ Thinned points replay.points ∧
      (replay.points.length ≤ maxReplayPoints + 1 → points.length ≤ maxReplayPoints) := by
  unfold thin
  split_ifs with hmany
  · rw [maxReplayPoints] at hmany
    have hne : List.range' 1 (replay.points.length - 2) ≠ [] := by
      rw [Ne, List.range'_eq_nil_iff]
      omega
    cases hindex : (List.range' 1 (replay.points.length - 2)).argmin (importance replay.points) with
    | none => exact absurd (argmin_eq_none.mp hindex) hne
    | some index =>
      -- the index is neither the first nor the last
      have hmem := mem_range'_1.mp (argmin_mem hindex)
      refine ⟨_, true, rfl, (Thinned.refl _).eraseIdx (by omega) (by omega), fun hlength => ?_⟩
      rw [length_eraseIdx_of_lt (by omega)]
      omega
  · exact ⟨_, _, rfl, .refl _, fun _ => not_lt.mp hmany⟩

/-! ### The recorder that forgets nothing -/

/-- A replay and the one that forgets nothing: the same battle, and what is kept of its points. -/
structure Replay.Follows (kept complete : Replay) : Prop where
  same : { kept with points := complete.points, sampled := complete.sampled } = complete
  thinned : Thinned kept.points complete.points

theorem Replay.Follows.refl (replay : Replay) : replay.Follows replay := ⟨rfl, .refl _⟩

theorem Replay.Follows.observe (h : kept.Follows complete) (evidence : Evidence) (now : ℕ) :
    Option.Rel Replay.Follows (kept.observe thin evidence now) (complete.observe id evidence now) := by
  obtain ⟨hsame, hthinned⟩ := h
  have happend (p : Point) : (thin { kept with points := kept.points ++ [p] }).Follows
      { complete with points := complete.points ++ [p] } := by
    obtain ⟨points, sampled, hthin, hpoints, -⟩ := thin_spec { kept with points := kept.points ++ [p] }
    rw [hthin]
    refine ⟨?_, hpoints.trans (hthinned.append p)⟩
    rw [← hsame]
  unfold Replay.observe
  rw [← hthinned.getLast_eq]
  cases kept.points.getLast? with
  | none => exact .some (happend _)
  | some latest =>
    dsimp only
    split_ifs
    · exact .none
    · exact .some ⟨by rw [← hsame], hthinned⟩
    · exact .some (happend _)

theorem Replay.Follows.recorded (h : kept.Follows complete) (evidence : Option Evidence) (now : ℕ) :
    (kept.recorded thin evidence now).Follows (complete.recorded id evidence now) := by
  unfold Replay.recorded
  cases evidence with
  | none => exact h
  | some evidence =>
    simp only [bind_some]
    have hobserve := h.observe evidence now
    generalize kept.observe thin evidence now = o, complete.observe id evidence now = o' at hobserve
    cases hobserve with
    | none => exact h
    | some hfollows => exact hfollows

/-- The state with a thinned replay goes along with one that keeps all points. -/
structure ChallengerSkillState.Follows (state full : ChallengerSkillState) : Prop where
  contest : state.toContest = full.toContest
  cohortKey : state.cohortKey = full.cohortKey
  skill : state.skill = full.skill
  replay : Option.Rel Replay.Follows state.battleReplay full.battleReplay
  pending : ∀ eventId, Option.Rel (fun frozen frozen' => frozen.2.Follows frozen'.2)
    (state.pendingBattleReplays.get? eventId) (full.pendingBattleReplays.get? eventId)

namespace ChallengerSkillState.Follows

theorem refl (state : ChallengerSkillState) : state.Follows state := by
  have hrel {α : Type} {r : α → α → Prop} (hr : ∀ a, r a a) (o : Option α) : Option.Rel r o o := by
    cases o with
    | none => exact .none
    | some a => exact .some (hr a)
  exact ⟨rfl, rfl, rfl, hrel Replay.Follows.refl _, fun _ => hrel (fun frozen => .refl frozen.2) _⟩

theorem freshReplay (h : state.Follows full) (minimum : ℤ) (coverage : ℚ) :
    state.freshReplay minimum coverage = full.freshReplay minimum coverage := by
  unfold ChallengerSkillState.freshReplay
  rw [h.contest, h.cohortKey, h.skill]

theorem recording (h : state.Follows full) (minimum : ℤ) (coverage : ℚ) :
    (state.recording minimum coverage).Follows (full.recording minimum coverage) := by
  have hreplay := h.replay
  rw [recording_eq, recording_eq, h.contest, h.freshReplay]
  generalize state.battleReplay = o, full.battleReplay = o' at hreplay
  cases hreplay with
  | none => exact .refl _
  | @some kept complete hfollows =>
    obtain ⟨hsame, hthinned⟩ := hfollows
    have hscoring : kept.actionScoring = complete.actionScoring := by rw [← hsame]
    have hcandidate : kept.candidateVersion = complete.candidateVersion := by rw [← hsame]
    have hchampion : kept.championVersion = complete.championVersion := by rw [← hsame]
    have hincomplete : kept.incomplete = complete.incomplete := by rw [← hsame]
    have hempty : kept.points.isEmpty = complete.points.isEmpty := by
      rw [Bool.eq_iff_iff, List.isEmpty_iff, List.isEmpty_iff, hthinned.eq_nil_iff]
    dsimp only
    rw [hscoring, hcandidate, hchampion, hempty, hincomplete]
    split_ifs
    · exact ⟨hsame, hthinned⟩
    · exact .refl _
    · exact .refl _

theorem step (h : state.Follows full) (a : Action) :
    (step state a).Follows (fullStep full a) := by
  cases a with
  | tournament contest => exact ⟨rfl, h.cohortKey, h.skill, h.replay, h.pending⟩
  | start minimum coverage =>
    have hfresh : (state.freshReplay minimum coverage).Follows (full.freshReplay minimum coverage) :=
      h.freshReplay minimum coverage ▸ .refl _
    exact ⟨h.contest, h.cohortKey, h.skill, .some hfresh, h.pending⟩
  | record minimum coverage now =>
    change (recordWith thin state minimum coverage now).Follows (recordWith id full minimum coverage now)
    cases hbattles : state.battles with
    | false =>
      rw [recordWith_idle hbattles, recordWith_idle (h.contest ▸ hbattles)]
      exact h
    | true =>
      obtain ⟨dirty, hs⟩ := recordWith_spec thin minimum coverage now hbattles
      obtain ⟨dirty', hf⟩ := recordWith_spec id minimum coverage now (h.contest ▸ hbattles)
      rw [hs, hf]
      refine ⟨h.contest, h.cohortKey, h.skill, .some ?_, h.pending⟩
      rw [h.contest]
      exact (h.recording minimum coverage).recorded _ now
  | freeze eventId =>
    change (freezeReplay state eventId).Follows (freezeReplay full eventId)
    have hreplay := h.replay
    unfold freezeReplay
    generalize hs : state.battleReplay = o, hf : full.battleReplay = o' at hreplay
    cases hreplay with
    | none => exact h
    | @some kept complete hfollows =>
      dsimp only
      by_cases hempty : kept.points = []
      · rw [if_pos hempty, if_pos (hfollows.thinned.eq_nil_iff.mp hempty)]
        exact h
      · rw [if_neg hempty, if_neg fun he => hempty (hfollows.thinned.eq_nil_iff.mpr he)]
        refine ⟨h.contest, h.cohortKey, h.skill, .some hfollows, fun k => ?_⟩
        rw [Table.get?_upsert, Table.get?_upsert]
        split_ifs
        · exact .some hfollows
        · exact h.pending k

end ChallengerSkillState.Follows

theorem run_follows (start : ChallengerSkillState) (actions : List Action) :
    (run step start actions).Follows (run fullStep start actions) := by
  suffices ∀ state full, ChallengerSkillState.Follows state full →
      (run step state actions).Follows (run fullStep full actions) from this start start (.refl start)
  induction actions with
  | nil => exact fun _ _ h => h
  | cons a actions ih => exact fun _ _ h => ih _ _ (h.step a)

/-! ### Validity -/

/-- One point is before another one, by the clock and by the sequence. -/
def Point.Before (p q : Point) : Prop := p.time < q.time ∧ p.sequence < q.sequence

theorem Point.Before.trans {p q r : Point} (h : p.Before q) (h' : q.Before r) : p.Before r :=
  ⟨h.1.trans h'.1, h.2.trans h'.2⟩

theorem validPoints_iff {previousTime previousSequence : ℤ} {points : List Point} :
    validPoints previousTime previousSequence points = true ↔
      (∀ p ∈ points, previousTime < p.time ∧ previousSequence < p.sequence ∧ p.valid = true) ∧
        points.Pairwise Point.Before := by
  induction points generalizing previousTime previousSequence with
  | nil => simp [validPoints]
  | cons p points ih =>
    simp only [validPoints, Bool.and_eq_true, decide_eq_true_eq, ih, pairwise_cons, forall_mem_cons]
    constructor
    · rintro ⟨⟨⟨htime, hsequence⟩, hvalid⟩, hpoints, hpairwise⟩
      refine ⟨⟨⟨htime, hsequence, hvalid⟩, fun q hq => ?_⟩, fun q hq => ?_, hpairwise⟩
      · obtain ⟨ht, hs, hv⟩ := hpoints q hq
        exact ⟨htime.trans ht, hsequence.trans hs, hv⟩
      · obtain ⟨ht, hs, -⟩ := hpoints q hq
        exact ⟨by exact_mod_cast ht, by exact_mod_cast hs⟩
    · rintro ⟨⟨⟨htime, hsequence, hvalid⟩, hpoints⟩, hbefore, hpairwise⟩
      refine ⟨⟨⟨htime, hsequence⟩, hvalid⟩, fun q hq => ?_, hpairwise⟩
      obtain ⟨ht, hs⟩ := hbefore q hq
      exact ⟨by exact_mod_cast ht, by exact_mod_cast hs, (hpoints q hq).2.2⟩

theorem evidence?_valid {stats : Tournament} (h : stats.evidence? = some evidence) (time sequence : ℕ) :
    Point.valid ⟨evidence, time, sequence⟩ = true := by
  unfold Tournament.evidence? at h
  split at h
  · split_ifs at h with hvalid
    cases h
    obtain ⟨hnonneg, hle, hmean, hlower, hupper, hordered⟩ := hvalid
    simp [Point.valid, hnonneg, hle, hmean, hlower, hupper, hordered]
  · cases h

/-- Two versions a battle can be between. -/
def ValidPair (candidate champion : Option String) : Prop :=
  validKey candidate = true ∧ validKey champion = true ∧ candidate ≠ champion

/-- What the recorder keeps of a replay. It is the validator's business who battles only once there is a
point. -/
structure Replay.Sound (replay : Replay) : Prop where
  version : replay.version = replayVersion
  cohortKey : validKey (some replay.cohortKey) = true
  minimumSamples : 1 ≤ replay.minimumSamples ∧ replay.minimumSamples ≤ 10000
  minimumCoverage : 0 < replay.minimumCoverage ∧ replay.minimumCoverage ≤ 1
  pair : replay.points ≠ [] → ValidPair replay.candidateVersion replay.championVersion
  length_le : replay.points.length ≤ maxReplayPoints
  points : validPoints datetimeMin (-1) replay.points = true

theorem validReplay_iff : validReplay replay = true ↔ replay.Sound ∧ replay.points ≠ [] := by
  simp only [validReplay, Bool.and_eq_true, decide_eq_true_eq, ne_eq]
  constructor
  · rintro ⟨⟨⟨⟨⟨⟨⟨⟨⟨⟨⟨hversion, hcohort⟩, hcandidate⟩, hchampion⟩, hdistinct⟩, hmin⟩, hmin'⟩, hcov⟩, hcov'⟩, hone⟩,
      hlength⟩, hpoints⟩
    refine ⟨⟨hversion, hcohort, ⟨hmin, hmin'⟩, ⟨hcov, hcov'⟩, fun _ => ⟨hcandidate, hchampion, ?_⟩, hlength, hpoints⟩,
      ne_nil_of_length_pos hone⟩
    simpa using hdistinct
  · rintro ⟨h, hne⟩
    obtain ⟨hcandidate, hchampion, hdistinct⟩ := h.pair hne
    refine ⟨⟨⟨⟨⟨⟨⟨⟨⟨⟨⟨h.version, h.cohortKey⟩, hcandidate⟩, hchampion⟩, ?_⟩, h.minimumSamples.1⟩, h.minimumSamples.2⟩,
      h.minimumCoverage.1⟩, h.minimumCoverage.2⟩, length_pos_of_ne_nil hne⟩, h.length_le⟩, h.points⟩
    simpa using hdistinct

theorem freshReplay_sound (hkey : validKey (some state.cohortKey) = true)
    (hfair : FairBattle state.toContest minimum coverage) (incomplete : Bool) :
    Replay.Sound { state.freshReplay minimum coverage with incomplete } where
  version := rfl
  cohortKey := hkey
  minimumSamples := hfair.minimum_mem
  minimumCoverage := hfair.coverage_mem
  pair h := absurd rfl h
  length_le := Nat.zero_le _
  points := rfl

theorem FairBattle.validPair (h : FairBattle state.toContest minimum coverage) (hbattles : state.battles = true) :
    ValidPair state.testingVersion state.championVersion := by
  have hkey {version : Option String} (hpresent : present version = true) (hle : ∀ v ∈ version, v.length ≤ 180) :
      validKey version = true := by
    cases version with
    | none => cases hpresent
    | some v =>
      have hne : v ≠ "" := by simpa [present] using hpresent
      have hpos : 1 ≤ v.length := Nat.one_le_iff_ne_zero.mpr fun he => hne (String.length_eq_zero_iff.mp he)
      simpa [validKey] using ⟨hpos, hle v rfl⟩
  simp only [Contest.battles, Bool.and_eq_true] at hbattles
  exact ⟨hkey hbattles.1.1.1 h.testing_le, hkey hbattles.1.1.2 h.champion_le, h.distinct⟩

theorem recording_sound (hkey : validKey (some state.cohortKey) = true)
    (hfair : FairBattle state.toContest minimum coverage) (hbattles : state.battles = true)
    (hsound : ∀ replay ∈ state.battleReplay, replay.Sound) :
    (state.recording minimum coverage).Sound ∧
      ValidPair (state.recording minimum coverage).candidateVersion
        (state.recording minimum coverage).championVersion := by
  have hpair := hfair.validPair hbattles
  rcases recording_cases state minimum coverage with ⟨incomplete, hfresh⟩ | ⟨hcurrent, hcandidate, hchampion⟩
  · rw [hfresh]
    exact ⟨freshReplay_sound hkey hfair incomplete, hpair⟩
  · rw [hcandidate, hchampion]
    exact ⟨hsound _ hcurrent, hpair⟩

theorem Replay.Sound.append (h : replay.Sound) (hpair : ValidPair replay.candidateVersion replay.championVersion)
    {p : Point} (hvalid : p.valid = true) (hlater : ∀ latest ∈ replay.points.getLast?, latest.Before p) :
    (thin { replay with points := replay.points ++ [p] }).Sound := by
  obtain ⟨points, sampled, hthin, hpoints, hlength⟩ := thin_spec { replay with points := replay.points ++ [p] }
  rw [hthin]
  refine ⟨h.version, h.cohortKey, h.minimumSamples, h.minimumCoverage, fun _ => hpair, hlength ?_, ?_⟩
  · rw [length_append]
    exact Nat.succ_le_succ h.length_le
  · obtain ⟨hall, hpairwise⟩ := validPoints_iff.mp h.points
    refine validPoints_iff.mpr ⟨fun q hq => ?_, Pairwise.sublist hpoints.sublist ?_⟩
    · rcases mem_append.mp (hpoints.sublist.subset hq) with hq | hq
      · exact hall q hq
      · rw [mem_singleton.mp hq]
        exact ⟨by simp only [datetimeMin]; omega, by omega, hvalid⟩
    · refine pairwise_append.mpr ⟨hpairwise, pairwise_singleton _ _, fun q hq r hr => ?_⟩
      rw [mem_singleton.mp hr]
      -- every point is the latest one or before it
      cases hlatest : replay.points.getLast? with
      | none => simp [getLast?_eq_none_iff.mp hlatest] at hq
      | some latest =>
        obtain ⟨earlier, hearlier⟩ := getLast?_eq_some_iff.mp hlatest
        rw [hearlier] at hq hpairwise
        have hlast := hlater latest hlatest
        rcases mem_append.mp hq with hq | hq
        · exact ((pairwise_append.mp hpairwise).2.2 q hq latest (mem_singleton_self _)).trans hlast
        · rw [mem_singleton.mp hq]
          exact hlast

theorem Replay.Sound.recorded (h : replay.Sound) (hpair : ValidPair replay.candidateVersion replay.championVersion)
    (stats : Tournament) (now : ℕ) : (replay.recorded thin stats.evidence? now).Sound := by
  unfold Replay.recorded
  cases hevidence : stats.evidence? with
  | none => exact h
  | some evidence =>
    have hvalid := evidence?_valid hevidence now
    simp only [bind_some]
    unfold Replay.observe
    cases hlatest : replay.points.getLast? with
    | none => exact h.append hpair (hvalid 0) (by simp [hlatest])
    | some latest =>
      dsimp only
      split_ifs with hsame hclock
      · exact h
      · exact ⟨h.version, h.cohortKey, h.minimumSamples, h.minimumCoverage, fun _ => hpair, h.length_le, h.points⟩
      · refine h.append hpair (hvalid _) fun p hp => ?_
        rw [hlatest] at hp
        cases hp
        exact ⟨not_le.mp hclock, Nat.lt_succ_self _⟩

/-- Every replay of a skill is sound, and those of finished battles have a point. -/
structure ChallengerSkillState.Sound (state : ChallengerSkillState) : Prop where
  cohortKey : validKey (some state.cohortKey) = true
  replay : ∀ replay ∈ state.battleReplay, replay.Sound
  pending : ∀ frozen ∈ state.pendingBattleReplays, validReplay frozen.2 = true

/-- A fair action keeps the replays valid. -/
theorem ChallengerSkillState.Sound.step (h : state.Sound) {a : Action} (hfair : Fair state a) : (step state a).Sound := by
  cases a with
  | tournament contest => exact ⟨h.cohortKey, h.replay, h.pending⟩
  | start minimum coverage =>
    refine ⟨h.cohortKey, fun replay hr => ?_, h.pending⟩
    cases hr
    exact freshReplay_sound h.cohortKey hfair false
  | record minimum coverage now =>
    change (recordWith thin state minimum coverage now).Sound
    cases hbattles : state.battles with
    | false =>
      rw [recordWith_idle hbattles]
      exact h
    | true =>
      obtain ⟨dirty, hs⟩ := recordWith_spec thin minimum coverage now hbattles
      obtain ⟨hsound, hpair⟩ := recording_sound h.cohortKey hfair hbattles h.replay
      rw [hs]
      refine ⟨h.cohortKey, fun replay hr => ?_, h.pending⟩
      cases hr
      exact hsound.recorded hpair _ now
  | freeze eventId =>
    change (freezeReplay state eventId).Sound
    unfold freezeReplay
    split
    · exact h
    · rename_i replay hreplay
      split_ifs with hempty
      · exact h
      · exact ⟨h.cohortKey, h.replay, Table.forall_mem_upsert (validReplay_iff.mpr ⟨h.replay _ hreplay, hempty⟩)
          h.pending⟩

/-! ### What was presented -/

/-- What the points say, and when. -/
def Replay.stamps (replay : Replay) : List (Evidence × ℕ) := replay.points.map fun p => (p.toEvidence, p.time)

/-- Every point is evidence of the past, in its order. -/
structure ChallengerSkillState.Heard (state : ChallengerSkillState) (past : List (Evidence × ℕ)) : Prop where
  replay : ∀ replay ∈ state.battleReplay, replay.stamps.Sublist past
  pending : ∀ frozen ∈ state.pendingBattleReplays, frozen.2.stamps.Sublist past

variable {past : List (Evidence × ℕ)}

theorem ChallengerSkillState.Heard.append (h : state.Heard past)
    (later : List (Evidence × ℕ)) : state.Heard (past ++ later) :=
  ⟨fun r hr => (h.replay r hr).trans (sublist_append_left ..),
    fun frozen hf => (h.pending frozen hf).trans (sublist_append_left ..)⟩

theorem recorded_stamps (h : replay.stamps.Sublist past) (evidence : Option Evidence)
    (now : ℕ) : (replay.recorded id evidence now).stamps.Sublist (past ++ (evidence.map (·, now)).toList) := by
  unfold Replay.recorded
  cases evidence with
  | none => simpa using h
  | some evidence =>
    have hadd (sequence : ℕ) : Replay.stamps { replay with points := replay.points ++ [⟨evidence, now, sequence⟩] }
        |>.Sublist (past ++ [(evidence, now)]) := by
      rw [Replay.stamps, map_append]
      exact h.append_right _
    simp only [bind_some, map_some, toList_some]
    unfold Replay.observe
    cases replay.points.getLast? with
    | none => exact hadd 0
    | some latest =>
      dsimp only
      split_ifs
      · exact h.trans (sublist_append_left ..)
      · exact h.trans (sublist_append_left ..)
      · exact hadd _

theorem ChallengerSkillState.Heard.step (h : state.Heard past) (a : Action) :
    (fullStep state a).Heard (past ++ state.toContest.presents a) := by
  cases a with
  | tournament contest => exact ⟨(h.append _).replay, (h.append _).pending⟩
  | start minimum coverage =>
    refine ⟨fun replay hr => ?_, fun frozen hf => (h.append _).pending frozen hf⟩
    cases hr
    exact nil_sublist _
  | record minimum coverage now =>
    change (recordWith id state minimum coverage now).Heard _
    rw [Contest.presents]
    cases hbattles : state.battles with
    | false =>
      rw [recordWith_idle hbattles]
      exact h.append _
    | true =>
      obtain ⟨dirty, hs⟩ := recordWith_spec id minimum coverage now hbattles
      rw [hs, if_pos rfl]
      refine ⟨fun replay hr => ?_, fun frozen hf => (h.append _).pending frozen hf⟩
      cases hr
      refine recorded_stamps ?_ _ now
      rcases recording_cases state minimum coverage with ⟨incomplete, hfresh⟩ | ⟨hcurrent, -⟩
      · rw [hfresh]
        exact nil_sublist _
      · exact h.replay _ hcurrent
  | freeze eventId =>
    change (freezeReplay state eventId).Heard _
    unfold freezeReplay
    split
    · exact h.append _
    · rename_i replay hreplay
      split_ifs
      · exact h.append _
      · exact ⟨(h.append _).replay, Table.forall_mem_upsert (P := fun frozen : String × Replay => frozen.2.stamps.Sublist _)
          ((h.append _).replay _ hreplay) (h.append _).pending⟩

theorem fullStep_toContest (state : ChallengerSkillState) (a : Action) :
    (fullStep state a).toContest = state.toContest.after a := by
  cases a with
  | tournament contest => rfl
  | start minimum coverage => rfl
  | record minimum coverage now =>
    change (recordWith id state minimum coverage now).toContest = state.toContest
    cases hbattles : state.battles with
    | false => rw [recordWith_idle hbattles]
    | true =>
      obtain ⟨dirty, hs⟩ := recordWith_spec id minimum coverage now hbattles
      rw [hs]
  | freeze eventId =>
    change (freezeReplay state eventId).toContest = state.toContest
    unfold freezeReplay
    split
    · rfl
    · split_ifs <;> rfl

theorem run_heard {actions : List Action} (h : state.Heard past) :
    (run fullStep state actions).Heard (past ++ presented state.toContest actions) := by
  induction actions generalizing state past with
  | nil => simpa [presented] using h
  | cons a actions ih =>
    rw [presented, ← append_assoc, ← fullStep_toContest]
    exact ih (h.step a)

/-! ### What is not recorded -/

/-- After a call the latest point is the evidence presented, unless the clock was not later than the latest point: then
the replay is marked partial. -/
def Answers (state : ChallengerSkillState) (a : Action) : Prop :=
  ∀ p ∈ state.toContest.presents a, ∃ replay ∈ (step state a).battleReplay, ∃ latest ∈ replay.points.getLast?,
    latest.toEvidence.same p.1 = true ∨ p.2 ≤ latest.time ∧ replay.incomplete = true

theorem evidence?_same {stats : Tournament} (h : stats.evidence? = some evidence) :
    evidence.same evidence = true := by
  have hsame {v : Statistic} (hv : v.recordable = true) : v.same v = true := by
    cases v <;> simp_all [Statistic.recordable, Statistic.same, Statistic.number?, Statistic.finiteNumber]
  unfold Tournament.evidence? at h
  split at h
  · split_ifs at h with hvalid
    cases h
    simp [Evidence.same, hsame hvalid.2.2.1, hsame hvalid.2.2.2.1, hsame hvalid.2.2.2.2.1]
  · cases h

/-- After a call the latest point is the evidence that was presented, or one that the clock has not passed. -/
theorem answered_recorded {evidence : Evidence} (hevidence : evidence.same evidence = true) (replay : Replay) (now : ℕ) :
    ∃ latest ∈ (replay.recorded thin (some evidence) now).points.getLast?, latest.toEvidence.same evidence = true ∨
      latest ∈ replay.points ∧ now ≤ latest.time ∧ (replay.recorded thin (some evidence) now).incomplete = true := by
  -- thinning keeps the point that is appended
  have hadd (sequence : ℕ) : ∃ latest ∈ (thin { replay with
      points := replay.points ++ [⟨evidence, now, sequence⟩] }).points.getLast?,
      latest.toEvidence.same evidence = true := by
    obtain ⟨points, sampled, hthin, hpoints, -⟩ :=
      thin_spec { replay with points := replay.points ++ [⟨evidence, now, sequence⟩] }
    rw [hthin, hpoints.getLast_eq, getLast?_concat]
    exact ⟨_, rfl, hevidence⟩
  simp only [Replay.recorded, Replay.observe, bind_some]
  cases hlatest : replay.points.getLast? with
  | none =>
    obtain ⟨added, hadded, hsame⟩ := hadd 0
    exact ⟨added, hadded, .inl hsame⟩
  | some latest =>
    dsimp only
    split_ifs with hsame hclock
    · exact ⟨latest, hlatest, .inl hsame⟩
    · exact ⟨latest, hlatest, .inr ⟨mem_of_getLast? hlatest, hclock, rfl⟩⟩
    · obtain ⟨added, hadded, hsame'⟩ := hadd (latest.sequence + 1)
      exact ⟨added, hadded, .inl hsame'⟩

theorem answers (state : ChallengerSkillState) (a : Action) : Answers state a := by
  cases a with
  | record minimum coverage now =>
    rintro ⟨evidence, time⟩ hp
    rw [Contest.presents] at hp
    split_ifs at hp with hbattles
    · obtain ⟨evidence', hevidence, he⟩ := map_eq_some_iff.mp (mem_toList.mp hp)
      cases he
      obtain ⟨dirty, hs⟩ := recordWith_spec thin minimum coverage now hbattles
      change ∃ replay ∈ (recordWith thin state minimum coverage now).battleReplay, _
      rw [hs, hevidence]
      refine ⟨_, rfl, ?_⟩
      obtain ⟨latest, hlatest, hanswers⟩ :=
        answered_recorded (evidence?_same hevidence) (state.recording minimum coverage) now
      exact ⟨latest, hlatest, hanswers.imp_right And.right⟩
    · cases hp
  | tournament contest => exact fun _ hp => absurd hp not_mem_nil
  | start minimum coverage => exact fun _ hp => absurd hp not_mem_nil
  | freeze eventId => exact fun _ hp => absurd hp not_mem_nil

/-! ### Whole runs -/

/-- What a replay is to the one that forgets nothing and to the evidence presented. -/
structure Replay.Records (replay complete : Replay) (evidence : List (Evidence × ℕ)) : Prop where
  valid : replay.points ≠ [] → validReplay replay = true
  length_le : replay.points.length ≤ maxReplayPoints
  increasing : replay.points.Pairwise Point.Before
  thinned : Thinned replay.points complete.points
  presented : complete.stamps.Sublist evidence

/-- **A recorded replay is valid and faithful.** From any state a skill is loaded in, whatever happens
in fair battles: each replay passes the validator once it has a point, holds at most 32 points with
increasing times, and keeps the first and the last of those there would be without that bound, which are
evidence that was presented. After a call the latest point is the evidence, unless the clock was not later. -/
theorem recorded_replay (start : ChallengerSkillState) (actions : List Action)
    (hkey : validKey (some start.cohortKey) = true)
    (hloaded : ∀ replay ∈ start.battleReplay, validReplay replay = true)
    (hpending : start.pendingBattleReplays = .empty) (hfair : Along step Fair start actions) :
    let past := (start.battleReplay.map Replay.stamps).getD []
    let state := run step start actions
    let full := run fullStep start actions
    (∀ replay ∈ state.battleReplay, ∃ complete ∈ full.battleReplay,
      replay.Records complete (past ++ presented start.toContest actions)) ∧
    (∀ eventId, ∀ frozen ∈ state.pendingBattleReplays.get? eventId, frozen.2.points ≠ [] ∧
      ∃ complete ∈ full.pendingBattleReplays.get? eventId,
        frozen.2.Records complete.2 (past ++ presented start.toContest actions)) ∧
    Along step Answers start actions := by
  intro past state full
  have hsound : state.Sound := by
    refine hfair.invariant (I := ChallengerSkillState.Sound) ?_ fun _ _ h ha => h.step ha
    exact ⟨hkey, fun r hr => (validReplay_iff.mp (hloaded r hr)).1, by simp [hpending]⟩
  have hfollows : state.Follows full := run_follows start actions
  have hheard : full.Heard (past ++ presented start.toContest actions) := by
    refine run_heard ⟨fun r hr => ?_, by simp [hpending]⟩
    rw [mem_def] at hr
    simp [past, hr]
  have hrecords {replay complete : Replay} (hs : replay.Sound) (hf : replay.Follows complete)
      (hh : complete.stamps.Sublist (past ++ presented start.toContest actions)) :
      replay.Records complete (past ++ presented start.toContest actions) :=
    ⟨fun hne => validReplay_iff.mpr ⟨hs, hne⟩, hs.length_le, (validPoints_iff.mp hs.points).2, hf.thinned, hh⟩
  refine ⟨fun replay hr => ?_, fun eventId frozen hr => ?_, ?_⟩
  · have hrel := hfollows.replay
    rw [mem_def] at hr
    rw [hr] at hrel
    cases hc : full.battleReplay with
    | none => rw [hc] at hrel; cases hrel
    | some complete =>
      rw [hc] at hrel
      cases hrel with
      | some hf => exact ⟨complete, rfl, hrecords (hsound.replay replay hr) hf (hheard.replay complete hc)⟩
  · have hrel := hfollows.pending eventId
    rw [mem_def] at hr
    rw [hr] at hrel
    obtain ⟨hs, hne⟩ := validReplay_iff.mp (hsound.pending frozen (Table.get?_eq_some.mp hr).1)
    cases hc : full.pendingBattleReplays.get? eventId with
    | none => rw [hc] at hrel; cases hrel
    | some complete =>
      rw [hc] at hrel
      cases hrel with
      | some hf =>
        exact ⟨hne, complete, rfl, hrecords hs hf (hheard.pending complete (Table.get?_eq_some.mp hc).1)⟩
  · exact hfair.derive (I := fun _ => True) trivial (fun _ _ _ _ => trivial) fun s a _ _ => answers s a

/-- A tournament between two versions that has seen so many outcomes. -/
def tied (observed : ℤ) : Contest where
  testingVersion := some "entry-2"
  championVersion := some "entry-1"
  lastTournament :=
    { candidateVersion := some "entry-2", championVersion := some "entry-1", actionScoring := none,
      observed := some (.int observed), usable := some (.int observed), meanUplift := .none,
      upliftLowerBound := .none, upliftUpperBound := .none }

def entrySkill : ChallengerSkillState where
  toContest := tied 1
  cohortKey := "cohort"
  skill := .entry

def twoRecords (first second : ℕ) : List Action :=
  [.start 30 (7 / 10), .record 30 (7 / 10) first, .tournament (tied 2), .record 30 (7 / 10) second]

/-- Two records of an entry skill. -/
theorem recorded_replay_entry :
    let state := run step entrySkill (twoRecords 5 6)
    let full := run fullStep entrySkill (twoRecords 5 6)
    (∀ replay ∈ state.battleReplay, ∃ complete ∈ full.battleReplay,
      replay.Records complete ([] ++ presented (tied 1) (twoRecords 5 6))) ∧
    (∀ eventId, ∀ frozen ∈ state.pendingBattleReplays.get? eventId, frozen.2.points ≠ [] ∧
      ∃ complete ∈ full.pendingBattleReplays.get? eventId,
        frozen.2.Records complete.2 ([] ++ presented (tied 1) (twoRecords 5 6))) ∧
    Along step Answers entrySkill (twoRecords 5 6) :=
  recorded_replay entrySkill (twoRecords 5 6) (by decide) (by simp [entrySkill]) rfl (by decide +kernel)

/-- **Evidence is skipped** when the clock stands still: the latest point is then not the latest evidence. -/
theorem skipped_evidence : Along step Fair entrySkill (twoRecords 5 5) ∧
    ∃ replay ∈ (run step entrySkill (twoRecords 5 5)).battleReplay,
      replay.stamps.getLast? ≠ (presented entrySkill.toContest (twoRecords 5 5)).getLast? := by
  decide +kernel

end SignalArcade.Arena
