import SignalArcade.Challenger.CoachSeed
import SignalArcade.Challenger.Frames
import SignalArcade.Lib.Runs

/-!
# The laws of the tournaments

In which order artifacts become candidate, Champion and rejected, whatever is registered, started,
judged and seeded, and whatever happens around it. `Orderly` is about who waits and who tests;
`Journey` is about the events that a state has kept, beside the milestones there were. Both are kept
by every operation on a state; a change of authority in between leaves `contest` alone.
-/

namespace SignalArcade.Challenger

open Paper (Instant)
open Runs Selection List Option

/-! ### The laws -/

/-- Who waits, who tests, and who is Champion. -/
structure Orderly (state : ChallengerSkillState) : Prop where
  /-- A candidate tests against a Champion, which is another one. -/
  testing : ∀ candidate, state.testingVersion = some candidate →
    ∃ champion, state.championVersion = some champion ∧ champion ≠ candidate
  nodup : state.pendingVersions.Nodup
  length : state.pendingVersions.length ≤ maxPendingChallengers
  waits : ∀ version ∈ state.pendingVersions, state.testingVersion ≠ some version ∧
    state.championVersion ≠ some version ∧ version ∉ state.rejectedVersions
  unrejected : ∀ candidate, state.testingVersion = some candidate → candidate ∉ state.rejectedVersions

/-- One milestone follows the other: the first Champion is first, and each Champion is the one that the
next milestone is about. -/
structure Linked (milestones : List Milestone) : Prop where
  first : ∀ m ∈ milestones.head?, m.kind = .firstChampion ∧ m.previousChampionVersion = none
  once : ∀ m ∈ milestones.tail, m.kind ≠ .firstChampion
  chain : milestones.IsChain fun m m' => m'.previousChampionVersion = some m.championVersion

/-- The Champion of a state is that of the last milestone, and the events it has kept are those of the
last milestones, unless one of them was repeated. -/
structure Journey (milestones : List Milestone) (state : ChallengerSkillState) : Prop where
  linked : Linked milestones
  champion : state.championVersion = milestones.getLast?.map Milestone.championVersion
  recent : milestones.Nodup → ∃ n, recentChampionEventsInMemory ≤ n ∧
    state.championJourney.map ChampionEvent.milestone = milestones.rtake n

def Verdict.milestones (candidate champion : String) : Verdict → List Milestone
  | .promoted => [⟨.promoted, candidate, some champion, candidate⟩]
  | .inconclusive => [⟨.inconclusive, candidate, some champion, champion⟩]
  | .defended => [⟨.defended, candidate, some champion, champion⟩]
  | .collecting => []

theorem linked_nil : Linked [] where
  first := by simp
  once := by simp
  chain := .nil

theorem Linked.first_of_nil {m : Milestone} (hkind : m.kind = .firstChampion) (hprevious : m.previousChampionVersion = none) :
    Linked [m] where
  first := by
    rintro found hfound
    cases hfound
    exact ⟨hkind, hprevious⟩
  once := by simp
  chain := .singleton m

theorem Linked.snoc {milestones : List Milestone} {last m : Milestone} (h : Linked milestones)
    (hlast : milestones.getLast? = some last) (hkind : m.kind ≠ .firstChampion)
    (hprevious : m.previousChampionVersion = some last.championVersion) : Linked (milestones ++ [m]) := by
  obtain ⟨first, rest, rfl⟩ : ∃ first rest, milestones = first :: rest := by
    cases milestones with
    | nil => cases hlast
    | cons first rest => exact ⟨first, rest, rfl⟩
  constructor
  case first => exact fun found hfound => h.first found hfound
  case once =>
    intro found hfound
    rcases mem_append.mp (show found ∈ rest ++ [m] from hfound) with hfound | hfound
    · exact h.once found hfound
    · rw [mem_singleton.mp hfound]
      exact hkind
  case chain =>
    rw [isChain_append]
    refine ⟨h.chain, .singleton m, ?_⟩
    intro found hfound next hnext
    rw [mem_def, hlast] at hfound
    cases hfound
    cases hnext
    exact hprevious

section

variable {state state' : ChallengerSkillState} {candidate : String} {milestones : List Milestone} {n : ℕ}

theorem mem_of_mem_rtake {α : Type} {l : List α} {a : α} (h : a ∈ l.rtake n) : a ∈ l := (rtake_sublist l n).subset h

theorem Orderly.sublist (h : Orderly state) (hpending : state'.pendingVersions.Sublist state.pendingVersions)
    (htesting : state'.testingVersion = state.testingVersion) (hchampion : state'.championVersion = state.championVersion)
    (hrejected : state'.rejectedVersions = state.rejectedVersions) : Orderly state' where
  testing := by
    rw [htesting, hchampion]
    exact h.testing
  nodup := h.nodup.sublist hpending
  length := hpending.length_le.trans h.length
  waits := by
    rw [htesting, hchampion, hrejected]
    exact fun version hversion => h.waits version (hpending.subset hversion)
  unrejected := by
    rw [htesting, hrejected]
    exact h.unrejected

theorem Orderly.released (h : Orderly state) (hcandidate : state.testingVersion = some candidate)
    (htesting : state'.testingVersion = none) (hpending : state'.pendingVersions = state.pendingVersions)
    (hchampion : state'.championVersion = state.championVersion ∨ state'.championVersion = some candidate)
    (hrejected : ∀ version ∈ state'.rejectedVersions, version ∈ state.rejectedVersions ∨ version = candidate) :
    Orderly state' where
  testing := by
    rw [htesting]
    simp
  nodup := hpending ▸ h.nodup
  length := hpending ▸ h.length
  waits := by
    intro version hversion
    rw [hpending] at hversion
    obtain ⟨hother, hnot, hfresh⟩ := h.waits version hversion
    rw [hcandidate] at hother
    refine ⟨by simp [htesting], ?_, ?_⟩
    · rcases hchampion with hsame | hnew
      · rw [hsame]
        exact hnot
      · rw [hnew]
        exact hother
    · intro hmem
      rcases hrejected version hmem with hmem | rfl
      · exact hfresh hmem
      · exact hother rfl
  unrejected := by
    rw [htesting]
    simp

theorem Orderly.started (h : Orderly state) (hwaits : candidate ∈ state.pendingVersions)
    (hchampion : state.championVersion.isSome) (htesting : state'.testingVersion = some candidate)
    (hpending : state'.pendingVersions = state.pendingVersions.filter (· ≠ candidate))
    (hsame : state'.championVersion = state.championVersion) (hrejected : state'.rejectedVersions = state.rejectedVersions) :
    Orderly state' where
  testing := by
    intro found hfound
    rw [htesting, some_inj] at hfound
    subst hfound
    obtain ⟨champion, hchampion⟩ := isSome_iff_exists.mp hchampion
    rw [hsame, hchampion]
    refine ⟨champion, rfl, ?_⟩
    rintro rfl
    exact (h.waits champion hwaits).2.1 hchampion
  nodup := by
    rw [hpending]
    exact h.nodup.filter _
  length := by
    rw [hpending]
    exact (length_filter_le _ _).trans h.length
  waits := by
    intro version hversion
    rw [hpending, mem_filter] at hversion
    obtain ⟨-, hnot, hfresh⟩ := h.waits version hversion.1
    refine ⟨?_, hsame ▸ hnot, hrejected ▸ hfresh⟩
    intro hself
    rw [htesting, some_inj] at hself
    exact of_decide_eq_true hversion.2 hself.symm
  unrejected := by
    intro found hfound
    rw [htesting, some_inj] at hfound
    subst hfound
    rw [hrejected]
    exact (h.waits candidate hwaits).2.2

theorem recent_append {events : List ChampionEvent} {event : ChampionEvent}
    (h : milestones.Nodup → ∃ n, recentChampionEventsInMemory ≤ n ∧ events.map ChampionEvent.milestone = milestones.rtake n)
    (hnodup : (milestones ++ [event.milestone]).Nodup) :
    ∃ n, recentChampionEventsInMemory ≤ n ∧
      (if events.any fun known => known.milestone = event.milestone then events else events ++ [event]).map
        ChampionEvent.milestone = (milestones ++ [event.milestone]).rtake n := by
  obtain ⟨hfirst, -, hfresh⟩ := nodup_append.mp hnodup
  obtain ⟨n, hn, hevents⟩ := h hfirst
  refine ⟨n + 1, hn.trans n.le_succ, ?_⟩
  rw [if_neg, map_append, hevents, rtake_concat_succ]
  · rfl
  · intro hknown
    obtain ⟨known, hmem, heq⟩ := any_eq_true.mp hknown
    have hmilestone : event.milestone ∈ milestones := by
      apply mem_of_mem_rtake (n := n)
      rw [← hevents, ← of_decide_eq_true heq]
      exact mem_map_of_mem hmem
    exact hfresh _ hmilestone _ (mem_singleton_self _) rfl

theorem appendChampionEvent_frame (state : ChallengerSkillState) (event : ChampionEvent) :
    state.appendChampionEvent event = { state with
      championJourney :=
        if state.championJourney.any fun known => known.milestone = event.milestone then state.championJourney
        else state.championJourney ++ [event] } := by
  unfold ChallengerSkillState.appendChampionEvent
  split_ifs <;> rfl

theorem Journey.congr (h : Journey milestones state) (hchampion : state'.championVersion = state.championVersion)
    (hjourney : state'.championJourney = state.championJourney) : Journey milestones state' where
  linked := h.linked
  champion := hchampion.trans h.champion
  recent := hjourney ▸ h.recent

theorem Journey.nil_of_none (h : Journey milestones state) (hnone : state.championVersion = none) : milestones = [] := by
  have hlast := h.champion
  rw [hnone, eq_comm, map_eq_none_iff] at hlast
  exact getLast?_eq_none_iff.mp hlast

theorem Journey.snoc (event : ChampionEvent) (h : Journey milestones state) (hlinked : Linked (milestones ++ [event.milestone]))
    (hchampion : state'.championVersion = some event.championVersion)
    (hjourney : state'.championJourney =
      if state.championJourney.any fun known => known.milestone = event.milestone then state.championJourney
      else state.championJourney ++ [event]) : Journey (milestones ++ [event.milestone]) state' where
  linked := hlinked
  champion := by
    rw [hchampion, getLast?_append]
    rfl
  recent := by
    rw [hjourney]
    exact recent_append h.recent

theorem Journey.linked_snoc {champion : String} {m : Milestone} (h : Journey milestones state)
    (hchampion : state.championVersion = some champion) (hkind : m.kind ≠ .firstChampion)
    (hprevious : m.previousChampionVersion = some champion) : Linked (milestones ++ [m]) := by
  have hlast := h.champion
  rw [hchampion, eq_comm, map_eq_some_iff] at hlast
  obtain ⟨last, hlast, rfl⟩ := hlast
  exact h.linked.snoc hlast hkind hprevious

end

/-! ### The operations on a state -/

namespace LearningEngine

variable {engine : LearningEngine} {state : ChallengerSkillState} {artifact : ChallengerSkillArtifact} {now : Instant}
  {milestones : List Milestone} {candidate : String}

theorem mem_waiting (h : artifact ∈ engine.waiting state) : artifact.version ∈ state.pendingVersions := by
  obtain ⟨version, hversion, hartifact⟩ := mem_filterMap.mp (mem_of_mem_filter h)
  rw [(Table.get?_eq_some.mp hartifact).2]
  exact hversion

theorem preferredPending_mem (h : engine.preferredPending state = some artifact) : artifact ∈ engine.waiting state := by
  obtain ⟨oldest, holdest, hartifact⟩ := map_eq_some_iff.mp h
  have hmem : oldest ∈ engine.waiting state := best_mem holdest
  split_ifs at hartifact
  · exact hartifact ▸ hmem
  · dsimp only at hartifact
    split at hartifact
    · next linear nonlinear hlinear hnonlinear =>
      have hl : linear ∈ engine.waiting state := mem_of_mem_filter (mem_of_mem_filter (best_mem hlinear))
      have hn : nonlinear ∈ engine.waiting state := mem_of_mem_filter (mem_of_mem_filter (best_mem hnonlinear))
      split_ifs at hartifact
      · exact hartifact ▸ hmem
      · exact hartifact ▸ hn
      · exact hartifact ▸ hl
    · exact hartifact ▸ hmem

theorem withoutRedundant_orderly (h : Orderly state) : Orderly (engine.withoutRedundant state) :=
  h.sublist filter_sublist rfl rfl rfl

theorem crownFirst_orderly (h : Orderly state) (hnone : state.testingVersion = none) :
    Orderly (crownFirst artifact state) := by
  unfold crownFirst
  rw [appendChampionEvent_frame]
  constructor
  case testing =>
    intro candidate hcandidate
    rw [show _ = state.testingVersion from rfl, hnone] at hcandidate
    cases hcandidate
  case nodup => exact h.nodup.filter _
  case length => exact (length_filter_le _ _).trans h.length
  case waits =>
    intro version hversion
    obtain ⟨hmem, hother⟩ := mem_filter.mp hversion
    refine ⟨(h.waits version hmem).1, ?_, (h.waits version hmem).2.2⟩
    intro hself
    exact of_decide_eq_true hother (some_inj.mp hself).symm
  case unrejected =>
    intro candidate hcandidate
    rw [show _ = state.testingVersion from rfl, hnone] at hcandidate
    cases hcandidate

/-- What `_start_next_skill_tournament` may do. -/
inductive Starts (engine : LearningEngine) (now : Instant) (state : ChallengerSkillState) : ChallengerSkillState → Prop where
  /-- A tournament is going on. -/
  | busy (h : state.testingVersion.isSome) : Starts engine now state state
  | unavailable (hnone : state.testingVersion = none) (hchampion : state.championVersion.isSome)
      (hgone : engine.judgeableChampion state = none) :
      Starts engine now state (suspendUnavailable state.championVersion now state)
  /-- Nobody waits. -/
  | idle (hnone : state.testingVersion = none) : Starts engine now state (engine.withoutRedundant state)
  | begins (candidate : ChallengerSkillArtifact) (hnone : state.testingVersion = none) (hchampion : state.championVersion.isSome)
      (hwaits : candidate.version ∈ (engine.withoutRedundant state).pendingVersions) :
      Starts engine now state (engine.beginTournament candidate now (engine.withoutRedundant state))
  | crowns (selected : ChallengerSkillArtifact) (hnone : state.testingVersion = none) (hchampion : state.championVersion = none)
      (hwaits : selected.version ∈ (engine.withoutRedundant state).pendingVersions) :
      Starts engine now state (crownFirst selected (engine.withoutRedundant state))
  | crownsAndBegins (selected candidate : ChallengerSkillArtifact) (hnone : state.testingVersion = none)
      (hchampion : state.championVersion = none)
      (hselected : selected.version ∈ (engine.withoutRedundant state).pendingVersions)
      (hwaits : candidate.version ∈ (crownFirst selected (engine.withoutRedundant state)).pendingVersions) :
      Starts engine now state (engine.beginTournament candidate now (crownFirst selected (engine.withoutRedundant state)))

theorem startNext_starts (engine : LearningEngine) (now : Instant) (state : ChallengerSkillState) :
    Starts engine now state (engine.startNextSkillTournament now state) := by
  unfold startNextSkillTournament
  split_ifs with htesting hunavailable
  · exact .busy htesting
  · exact .unavailable (by simpa using htesting) hunavailable.1 (isNone_iff_eq_none.mp hunavailable.2)
  · have hnone : state.testingVersion = none := by simpa using htesting
    dsimp only
    split
    · exact .idle hnone
    · next selected hselected =>
      have hwaits := mem_waiting (preferredPending_mem hselected)
      split_ifs with hchampion
      · exact .begins selected hnone hchampion hwaits
      · have hchampion' : state.championVersion = none := by
          have hnothing : ¬ state.championVersion.isSome = true := hchampion
          simpa using hnothing
        split
        · exact .crowns selected hnone hchampion' hwaits
        · next candidate hcandidate =>
          exact .crownsAndBegins selected candidate hnone hchampion' hwaits (mem_waiting (preferredPending_mem hcandidate))

theorem crownFirst_frame (selected : ChallengerSkillArtifact) (state : ChallengerSkillState) :
    (crownFirst selected state).testingVersion = state.testingVersion ∧
      (crownFirst selected state).championVersion = some selected.version ∧
      (crownFirst selected state).suspendedVersion = state.suspendedVersion ∧
      (crownFirst selected state).suspensionReason = state.suspensionReason ∧
      (crownFirst selected state).suspendedAt = state.suspendedAt := by
  unfold crownFirst
  rw [appendChampionEvent_frame]
  exact ⟨rfl, rfl, rfl, rfl, rfl⟩

theorem startNext_orderly (h : Orderly state) : Orderly (engine.startNextSkillTournament now state) := by
  have hclean : Orderly (engine.withoutRedundant state) := withoutRedundant_orderly h
  have hstarts := startNext_starts engine now state
  generalize engine.startNextSkillTournament now state = state' at hstarts ⊢
  cases hstarts with
  | busy => exact h
  | unavailable => exact h.sublist (Sublist.refl _) rfl rfl rfl
  | idle => exact hclean
  | begins candidate _ hchampion hwaits => exact hclean.started hwaits hchampion rfl rfl rfl rfl
  | crowns selected hnone _ _ => exact crownFirst_orderly hclean hnone
  | crownsAndBegins selected candidate hnone _ hselected hwaits =>
    obtain ⟨-, hchampion, -⟩ := crownFirst_frame selected (engine.withoutRedundant state)
    exact (crownFirst_orderly hclean hnone).started hwaits (by simp [hchampion]) rfl rfl rfl rfl

theorem enqueue_orderly (h : Orderly state) (hknown : engine.skillArtifacts.get? artifact.version = some artifact) :
    Orderly (engine.enqueue artifact state) := by
  -- the version itself makes room for the artifact
  have hself : ∀ version ∈ state.pendingVersions.filter (fun version => !engine.superseded artifact version &&
      state.testingVersion ≠ some version && state.championVersion ≠ some version), version ≠ artifact.version := by
    rintro version hversion rfl
    have hkept := (mem_filter.mp hversion).2
    simp [superseded, hknown] at hkept
  have hsub := filter_sublist (p := fun version => !engine.superseded artifact version &&
      state.testingVersion ≠ some version && state.championVersion ≠ some version) (l := state.pendingVersions)
  unfold enqueue
  dsimp only
  split_ifs with hseen
  · exact h.sublist ((rtake_sublist _ _).trans hsub) rfl rfl rfl
  · simp only [Bool.or_eq_true, decide_eq_true_eq, not_or] at hseen
    constructor
    case testing => exact h.testing
    case nodup =>
      refine Nodup.sublist (rtake_sublist _ _) (nodup_append.mpr ⟨h.nodup.sublist hsub, nodup_singleton _, ?_⟩)
      intro version hversion other hother heq
      rw [mem_singleton.mp hother] at heq
      exact hself version hversion heq
    case length => exact length_rtake_le _ _
    case waits =>
      intro version hversion
      rcases mem_append.mp (mem_of_mem_rtake hversion) with hmem | hmem
      · exact h.waits version (hsub.subset hmem)
      · rw [mem_singleton.mp hmem]
        exact ⟨hseen.1.1, hseen.1.2, hseen.2⟩
    case unrejected => exact h.unrejected

theorem registeredState_orderly (h : Orderly state) (hknown : engine.skillArtifacts.get? artifact.version = some artifact)
    (deferTournament : Bool) : Orderly (engine.registeredState artifact deferTournament now state) := by
  have hlatest : Orderly { state with latestCandidateVersion := some artifact.version } :=
    h.sublist (Sublist.refl _) rfl rfl rfl
  unfold registeredState
  dsimp only
  split_ifs
  · exact enqueue_orderly hlatest hknown
  · exact startNext_orderly (enqueue_orderly hlatest hknown)
  · exact hlatest

theorem mem_withRejected {version candidate : String} (h : version ∈ (withRejected candidate state).rejectedVersions) :
    version ∈ state.rejectedVersions ∨ version = candidate := by
  unfold withRejected at h
  split_ifs at h
  · exact .inl h
  · dsimp only at h
    rcases mem_append.mp (mem_of_mem_rtake h) with hmem | hmem
    · exact .inl hmem
    · exact .inr (mem_singleton.mp hmem)

theorem withRejected_frame (candidate : String) (state : ChallengerSkillState) :
    ∃ rejected, withRejected candidate state = { state with rejectedVersions := rejected } := by
  unfold withRejected
  split_ifs <;> exact ⟨_, rfl⟩

theorem advanceUnavailable_orderly (h : Orderly state) (hcandidate : state.testingVersion = some candidate) :
    Orderly (engine.advanceUnavailable candidate now state) := by
  unfold advanceUnavailable
  generalize (if (engine.judgeableChampion state).isNone then state.championVersion else some candidate) = suspended
  dsimp only [suspendUnavailable]
  by_cases hgone : (engine.availableCandidate candidate).isNone = true
  · rw [if_pos hgone]
    apply startNext_orderly
    refine h.released hcandidate rfl rfl (.inl rfl) ?_
    intro version hversion
    dsimp only at hversion
    have hmem := mem_of_mem_rtake hversion
    split_ifs at hmem
    · exact .inl hmem
    · simpa using hmem
  · rw [if_neg hgone]
    have hwaits : candidate ∉ state.pendingVersions := fun hmem => (h.waits candidate hmem).1 hcandidate
    rw [if_neg hwaits]
    constructor
    case testing =>
      intro found hfound
      cases hfound
    case nodup =>
      refine Nodup.sublist (rtake_sublist _ _) (nodup_append.mpr ⟨h.nodup, nodup_singleton _, ?_⟩)
      intro version hversion other hother heq
      rw [mem_singleton.mp hother] at heq
      exact hwaits (heq ▸ hversion)
    case length => exact length_rtake_le _ _
    case waits =>
      intro version hversion
      obtain ⟨champion, hchampion, hne⟩ := h.testing candidate hcandidate
      dsimp only at hversion ⊢
      constructor
      · intro hself
        cases hself
      · rcases mem_append.mp (mem_of_mem_rtake hversion) with hmem | hmem
        · exact (h.waits version hmem).2
        · rw [mem_singleton.mp hmem]
          refine ⟨?_, h.unrejected candidate hcandidate⟩
          intro hself
          exact hne (some_inj.mp (hchampion.symm.trans hself))
    case unrejected =>
      intro found hfound
      cases hfound

variable {candidate champion : String}

theorem advanceStale_orderly (h : Orderly state) (hcandidate : state.testingVersion = some candidate) :
    Orderly (engine.advanceStale candidate champion now state) := by
  have hrejected := fun version => @mem_withRejected state version candidate
  obtain ⟨rejected, hframe⟩ := withRejected_frame candidate state
  unfold advanceStale
  rw [hframe] at hrejected ⊢
  exact startNext_orderly (h.released hcandidate rfl rfl (.inl rfl) hrejected)

theorem crownCandidate_orderly (h : Orderly state) (hcandidate : state.testingVersion = some candidate)
    (event : ChampionEvent) : Orderly (crownCandidate candidate event state) := by
  unfold crownCandidate
  rw [appendChampionEvent_frame]
  exact h.released hcandidate rfl rfl (.inr rfl) fun version hversion => .inl hversion

theorem settleTournament_orderly (h : Orderly state) (hcandidate : state.testingVersion = some candidate)
    (event : ChampionEvent) : Orderly (settleTournament candidate event state) := by
  unfold settleTournament
  rw [appendChampionEvent_frame]
  generalize hkept : ({ state with championJourney := _ } : ChallengerSkillState) = kept
  have hsame : kept.pendingVersions = state.pendingVersions ∧ kept.championVersion = state.championVersion ∧
      kept.rejectedVersions = state.rejectedVersions := by
    subst hkept
    exact ⟨rfl, rfl, rfl⟩
  have hrejected := fun version => @mem_withRejected kept version candidate
  obtain ⟨rejected, hframe⟩ := withRejected_frame candidate kept
  rw [hframe] at hrejected ⊢
  refine h.released hcandidate rfl hsame.1 (.inl hsame.2.1) fun version hversion => ?_
  rw [← hsame.2.2]
  exact hrejected version hversion

theorem advanceJudged_orderly {policy : CoveragePolicy} (h : Orderly state)
    (hcandidate : state.testingVersion = some candidate) :
    Orderly (engine.advanceJudged policy candidate champion now state) := by
  unfold advanceJudged
  generalize engine.judged policy candidate champion state = judgement
  obtain ⟨record, found⟩ := judgement
  dsimp only
  have hrecorded : Orderly { state with commonForwardCount := record.commonUsableCount, lastTournament := record } :=
    h.sublist (Sublist.refl _) rfl rfl rfl
  cases found with
  | collecting => exact hrecorded
  | promoted => exact startNext_orderly (crownCandidate_orderly hrecorded hcandidate _)
  | inconclusive => exact startNext_orderly (settleTournament_orderly hrecorded hcandidate _)
  | defended => exact startNext_orderly (settleTournament_orderly hrecorded hcandidate _)

/-- **A round keeps the order** of who waits, tests, and is Champion. -/
theorem advanceState_orderly (h : Orderly state) : Orderly (engine.advanceState now state).state := by
  unfold advanceState
  split
  · exact h
  · next candidate hcandidate =>
    split
    · split_ifs
      · exact advanceStale_orderly h hcandidate
      · split
        · exact h
        · dsimp only
          exact advanceJudged_orderly h hcandidate
    · exact advanceUnavailable_orderly h hcandidate

/-! ### The journey -/

/-- The milestone of a first Champion: there was none before. -/
def firstCrown : Option String → Option String → List Milestone
  | none, some version => [⟨.firstChampion, version, none, version⟩]
  | _, _ => []

def battle (engine : LearningEngine) (state : ChallengerSkillState) : List Milestone :=
  match state.testingVersion with
  | none => []
  | some candidateVersion =>
    match engine.availableCandidate candidateVersion, engine.judgeableChampion state with
    | some candidate, some champion =>
      if candidate.isCoach ∧ candidate.dependencyVersions ≠ engine.activeSkillVersions then []
      else match readPolicy state.lastTournament.coverage with
        | none => []
        | some policy =>
          (engine.judged policy candidateVersion champion.version state).2.milestones candidateVersion champion.version
    | _, _ => []

theorem startNext_of_champion (h : state.championVersion.isSome) :
    (engine.startNextSkillTournament now state).championVersion = state.championVersion ∧
      (engine.startNextSkillTournament now state).championJourney = state.championJourney := by
  have hstarts := startNext_starts engine now state
  generalize engine.startNextSkillTournament now state = state' at hstarts ⊢
  cases hstarts with
  | busy | unavailable | idle | begins => exact ⟨rfl, rfl⟩
  | crowns selected _ hnone => simp [hnone] at h
  | crownsAndBegins selected candidate _ hnone => simp [hnone] at h

theorem firstCrown_self (champion : Option String) : firstCrown champion champion = [] := by
  cases champion <;> rfl

theorem crownFirst_journey {selected : ChallengerSkillArtifact} (h : Journey milestones state) (hnone : state.championVersion = none) :
    Journey (milestones ++ firstCrown state.championVersion (some selected.version)) (crownFirst selected state) := by
  obtain rfl := h.nil_of_none hnone
  rw [hnone]
  let event : ChampionEvent :=
    { kind := .firstChampion
      candidateVersion := selected.version
      previousChampionVersion := none
      championVersion := selected.version
      occurredAt := selected.createdAt }
  refine Journey.snoc event h (.first_of_nil rfl rfl) ?_ ?_ <;> rw [crownFirst, appendChampionEvent_frame]

theorem startNext_journey (h : Journey milestones state) :
    Journey (milestones ++ firstCrown state.championVersion (engine.startNextSkillTournament now state).championVersion)
      (engine.startNextSkillTournament now state) := by
  have hclean : Journey milestones (engine.withoutRedundant state) := h.congr rfl rfl
  have hstarts := startNext_starts engine now state
  generalize engine.startNextSkillTournament now state = state' at hstarts ⊢
  cases hstarts with
  | busy =>
    rw [firstCrown_self, append_nil]
    exact h
  | unavailable =>
    have hsame : (suspendUnavailable state.championVersion now state).championVersion = state.championVersion := rfl
    rw [hsame, firstCrown_self, append_nil]
    exact h.congr rfl rfl
  | idle =>
    have hsame : (engine.withoutRedundant state).championVersion = state.championVersion := rfl
    rw [hsame, firstCrown_self, append_nil]
    exact hclean
  | begins candidate =>
    have hsame : (engine.beginTournament candidate now (engine.withoutRedundant state)).championVersion =
      state.championVersion := rfl
    rw [hsame, firstCrown_self, append_nil]
    exact h.congr rfl rfl
  | crowns selected _ hnone =>
    rw [(crownFirst_frame selected _).2.1]
    exact crownFirst_journey hclean hnone
  | crownsAndBegins selected candidate _ hnone =>
    rw [show (engine.beginTournament candidate now _).championVersion = some selected.version from
      (crownFirst_frame selected (engine.withoutRedundant state)).2.1]
    exact (crownFirst_journey hclean hnone).congr rfl rfl

theorem registeredState_journey (h : Journey milestones state) (deferTournament : Bool) :
    Journey (milestones ++ firstCrown state.championVersion
        (engine.registeredState artifact deferTournament now state).championVersion)
      (engine.registeredState artifact deferTournament now state) := by
  have hqueued : Journey milestones (engine.enqueue artifact { state with latestCandidateVersion := some artifact.version }) :=
    h.congr rfl rfl
  unfold registeredState
  dsimp only
  split_ifs
  · have hsame : (engine.enqueue artifact { state with latestCandidateVersion := some artifact.version }).championVersion =
      state.championVersion := rfl
    rw [hsame, firstCrown_self, append_nil]
    exact hqueued
  · exact startNext_journey hqueued
  · rw [firstCrown_self, append_nil]
    exact h.congr rfl rfl

theorem settleTournament_journey {champion : String} (candidate : String) (event : ChampionEvent) (h : Journey milestones state)
    (hchampion : state.championVersion = some champion) (hkind : event.kind ≠ .firstChampion)
    (hprevious : event.previousChampionVersion = some champion) (hevent : event.championVersion = champion) :
    Journey (milestones ++ [event.milestone]) (settleTournament candidate event state) := by
  apply Journey.snoc event h (h.linked_snoc hchampion hkind hprevious)
  · rw [hevent, ← hchampion, settleTournament, appendChampionEvent_frame]
    unfold withRejected
    split_ifs <;> rfl
  · rw [settleTournament, appendChampionEvent_frame]
    unfold withRejected
    split_ifs <;> rfl

theorem crownCandidate_journey (event : ChampionEvent) (h : Journey milestones state)
    (hchampion : state.championVersion = some champion) (hkind : event.kind ≠ .firstChampion)
    (hprevious : event.previousChampionVersion = some champion) (hevent : event.championVersion = candidate) :
    Journey (milestones ++ [event.milestone]) (crownCandidate candidate event state) := by
  apply Journey.snoc event h (h.linked_snoc hchampion hkind hprevious)
  · rw [hevent, crownCandidate, appendChampionEvent_frame]
  · rw [crownCandidate, appendChampionEvent_frame]

theorem crownCandidate_isSome (candidate : String) (event : ChampionEvent) (state : ChallengerSkillState) :
    (crownCandidate candidate event state).championVersion.isSome := by
  rw [crownCandidate, appendChampionEvent_frame]
  rfl

theorem settleTournament_isSome (candidate : String) (event : ChampionEvent) (h : state.championVersion.isSome) :
    (settleTournament candidate event state).championVersion.isSome := by
  rw [settleTournament, appendChampionEvent_frame]
  unfold withRejected
  split_ifs <;> exact h

section

variable (h : Journey milestones state)
include h

section

variable (hchampion : state.championVersion.isSome)
include hchampion

theorem startNext_journey_of_champion :
    Journey milestones (engine.startNextSkillTournament now state) :=
  h.congr (startNext_of_champion hchampion).1 (startNext_of_champion hchampion).2

theorem advanceUnavailable_journey :
    Journey milestones (engine.advanceUnavailable candidate now state) := by
  unfold advanceUnavailable
  generalize (if (engine.judgeableChampion state).isNone then state.championVersion else some candidate) = suspended
  dsimp only [suspendUnavailable]
  split_ifs
  · exact startNext_journey_of_champion (h.congr rfl rfl) hchampion
  · exact startNext_journey_of_champion (h.congr rfl rfl) hchampion
  · exact h.congr rfl rfl
  · exact h.congr rfl rfl

theorem advanceStale_journey :
    Journey milestones (engine.advanceStale candidate champion now state) := by
  obtain ⟨rejected, hframe⟩ := withRejected_frame candidate state
  unfold advanceStale
  rw [hframe]
  exact startNext_journey_of_champion (h.congr rfl rfl) hchampion

end

theorem advanceJudged_journey {policy : CoveragePolicy} (hchampion : state.championVersion = some champion) :
    Journey (milestones ++ Verdict.milestones candidate champion (engine.judged policy candidate champion state).2)
      (engine.advanceJudged policy candidate champion now state) := by
  unfold advanceJudged
  generalize engine.judged policy candidate champion state = judgement
  obtain ⟨record, found⟩ := judgement
  dsimp only
  have hrecorded : Journey milestones { state with commonForwardCount := record.commonUsableCount, lastTournament := record } :=
    h.congr rfl rfl
  generalize hafter : ({ state with commonForwardCount := record.commonUsableCount, lastTournament := record } :
    ChallengerSkillState) = after at hrecorded ⊢
  have hkept : after.championVersion = some champion := by
    rw [← hafter]
    exact hchampion
  cases found with
  | collecting =>
    rw [show Verdict.milestones candidate champion .collecting = [] from rfl, append_nil]
    exact hrecorded
  | promoted =>
    have hcrowned := crownCandidate_journey (championEvent .promoted candidate champion candidate record now)
      hrecorded hkept (by simp [championEvent]) rfl rfl
    exact startNext_journey_of_champion hcrowned (crownCandidate_isSome candidate _ after)
  | inconclusive =>
    have hsettled := settleTournament_journey candidate
      (championEvent .inconclusive candidate champion champion record now) hrecorded hkept (by simp [championEvent]) rfl rfl
    exact startNext_journey_of_champion hsettled (settleTournament_isSome candidate _ (by simp [hkept]))
  | defended =>
    have hsettled := settleTournament_journey candidate
      (championEvent .defended candidate champion champion record now) hrecorded hkept (by simp [championEvent]) rfl rfl
    exact startNext_journey_of_champion hsettled (settleTournament_isSome candidate _ (by simp [hkept]))

end

/-- **A round adds the milestone of the battle it decides**, and nothing else. -/
theorem advanceState_journey (horderly : Orderly state) (h : Journey milestones state) :
    Journey (milestones ++ engine.battle state) (engine.advanceState now state).state := by
  unfold advanceState battle
  cases hcandidate : state.testingVersion with
  | none => simpa using h
  | some candidateVersion =>
    obtain ⟨version, hversion, -⟩ := horderly.testing candidateVersion hcandidate
    have hsome : state.championVersion.isSome := by simp [hversion]
    have hgone : Journey (milestones ++ []) (engine.advanceUnavailable candidateVersion now state) := by
      rw [append_nil]
      exact advanceUnavailable_journey h hsome
    dsimp only
    cases hchampion : engine.judgeableChampion state with
    | none => cases engine.availableCandidate candidateVersion <;> exact hgone
    | some champion =>
      have hmatch : state.championVersion = some champion.version :=
        (artifact?_eq_some.mp (filter_eq_some_iff.mp hchampion).1).2
      cases engine.availableCandidate candidateVersion with
      | none => exact hgone
      | some candidate =>
        dsimp only
        split_ifs
        · rw [append_nil]
          exact advanceStale_journey h hsome
        · cases readPolicy state.lastTournament.coverage with
          | none =>
            rw [append_nil]
            exact h
          | some policy =>
            dsimp only
            exact advanceJudged_journey h hmatch

end LearningEngine

end SignalArcade.Challenger
