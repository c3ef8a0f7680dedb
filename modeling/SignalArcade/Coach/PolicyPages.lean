import SignalArcade.Lib.Paging
import SignalArcade.Lib.Runs
import SignalArcade.Lib.Table
import Mathlib.Data.Prod.Lex
import Mathlib.Data.String.Basic

/-!
# The pages of policy evidence

The journal of learning evidence, the pruning that bounds it, and the pages the coach
reads from it for a hypothesis. A page holds the policy episodes above a cursor, in the
order of their times and then their identifiers; the next page starts at its last one.
Pruning remembers the highest position it removed, and a page reports a gap when that is
above its cursor.
-/

namespace SignalArcade.Coach

open Runs List

/-- Evidence of the policy, or of what was executed. -/
inductive LearningEvidenceLane where
  | policy | execution
  deriving DecidableEq

/-- The status of an episode. -/
inductive LearningEvidenceStatus where
  | pending | complete | unavailable | cancelled
  deriving DecidableEq

/-- An episode whose outcome is known. -/
def LearningEvidenceStatus.terminal : LearningEvidenceStatus → Bool
  | .pending => false
  | .complete | .unavailable | .cancelled => true

/-- A place in the order of episodes: a time and an identifier. -/
abbrev Position : Type := String ×ₗ String

/-- An episode, as far as the pages read it. -/
structure LearningEvidenceEpisode where
  episodeId : String
  idempotencyKey : String
  lane : LearningEvidenceLane
  status : LearningEvidenceStatus := .pending
  trajectoryKey : String
  createdAt : String
  /-- `_policy_identity_key`, a digest of the rest. -/
  policyIdentityKey : String
  deriving DecidableEq

/-- A row of `learning_evidence_episodes`. -/
structure EpisodeRow where
  /-- What was inserted first: the columns that stay. -/
  inserted : LearningEvidenceEpisode
  /-- What was saved last, `record_json` and the status. -/
  record : LearningEvidenceEpisode
  same : record.episodeId = inserted.episodeId
  deriving DecidableEq

namespace EpisodeRow

def episodeId (row : EpisodeRow) : String := row.inserted.episodeId

def lane (row : EpisodeRow) : LearningEvidenceLane := row.inserted.lane

def createdAt (row : EpisodeRow) : String := row.inserted.createdAt

def status (row : EpisodeRow) : LearningEvidenceStatus := row.record.status

/-- Where the row stands in the order of the pages. -/
def position (row : EpisodeRow) : Position := toLex (row.createdAt, row.episodeId)

end EpisodeRow

/-- The setting `coach_policy_pruned_through`: a position, or a time as it was saved once. -/
inductive PrunedThrough where
  | position (createdAt episodeId : String)
  | time (createdAt : String)

/-- An identifier above all others. -/
def lastIdentifier : String := "\uffff"

/-- The position the setting stands for. -/
def PrunedThrough.toPosition : PrunedThrough → Position
  | .position createdAt episodeId => toLex (createdAt, episodeId)
  | .time createdAt => toLex (createdAt, lastIdentifier)

/-- The tables and settings that the pages are read from. -/
structure Journal where
  /-- `learning_evidence_episodes`. -/
  episodes : Table String EpisodeRow EpisodeRow.episodeId := .empty
  /-- `coach_policy_pruned_through`. -/
  prunedThrough : Option PrunedThrough := none

/-! ### Saving -/

/-- The row has a key of the episode, its own or another's. -/
def EpisodeRow.hasKeyOf (row : EpisodeRow) (episode : LearningEvidenceEpisode) : Bool :=
  row.inserted.idempotencyKey = episode.idempotencyKey ||
    (row.lane = episode.lane && row.inserted.trajectoryKey = episode.trajectoryKey)

/-- The row after a save: only its record changes. -/
def Journal.savedRow (j : Journal) (episode : LearningEvidenceEpisode) : EpisodeRow :=
  match h : j.episodes.get? episode.episodeId with
  | none => ⟨episode, episode, rfl⟩
  | some row => ⟨row.inserted, episode, (Table.get?_eq_some.mp h).2.symm⟩

/-- `save_learning_evidence_episode`. It looks at one row with a key of the episode, here the first that was inserted, and
raises when that row is another's. -/
def Journal.saveLearningEvidenceEpisode (j : Journal) (episode : LearningEvidenceEpisode) : Option Journal :=
  if (j.episodes.rows.find? (·.hasKeyOf episode)).any (·.episodeId ≠ episode.episodeId) then none
  else some { j with episodes := j.episodes.upsert (j.savedRow episode) }

/-! ### Pruning -/

/-- The terminal episodes of a lane that are too many, newest first. -/
def Journal.overflow (j : Journal) (lane : LearningEvidenceLane) (maxComplete : ℕ) : List EpisodeRow :=
  ((j.episodes.rows.filter fun row => row.lane = lane && row.status.terminal).reverse.insertionSort
    fun row row' => row'.createdAt ≤ row.createdAt).drop maxComplete

/-- The highest of some positions and the one that is saved. -/
def Journal.watermark (j : Journal) (removed : List Position) : Option Position :=
  (removed ++ (j.prunedThrough.map PrunedThrough.toPosition).toList).max?

/-- The rows of a lane that are too many are deleted. -/
def Journal.pruneLane (j : Journal) (lane : LearningEvidenceLane) (maxComplete : ℕ) : List String × Journal :=
  let rows := j.overflow lane maxComplete
  let ids := rows.map EpisodeRow.episodeId
  let prunedThrough :=
    if lane = .policy ∧ rows ≠ [] then
      (j.watermark (rows.map EpisodeRow.position)).map fun p => .position (ofLex p).1 (ofLex p).2
    else j.prunedThrough
  (ids, ⟨ids.foldl Table.erase j.episodes, prunedThrough⟩)

/-- `prune_learning_evidence`: the removed identifiers, and the journal. -/
def Journal.pruneLearningEvidence (j : Journal) (maxCompletePerLane : ℕ) : Option (List String × Journal) :=
  if maxCompletePerLane < 1 then none
  else
    let policy := j.pruneLane .policy maxCompletePerLane
    let execution := policy.2.pruneLane .execution maxCompletePerLane
    some (policy.1 ++ execution.1, execution.2)

/-! ### Pages -/

/-- An entry that is enrolled already. -/
structure CoachForwardEvidence where
  episodeId : String
  resolved : Bool := false

/-- What a page needs of a `CoachHypothesis`. -/
structure CoachHypothesis where
  cutoffAt : String
  forwardCursor : Option Position := none
  forwardEnrollments : List CoachForwardEvidence := []

/-- `COACH_MAXIMUM_FORWARD_OBSERVED`. -/
def maximumForwardObserved : ℕ := 180

/-- Where the next page starts: above all episodes of the cutoff time at first. -/
def CoachHypothesis.after (hypothesis : CoachHypothesis) : Position :=
  hypothesis.forwardCursor.getD (toLex (hypothesis.cutoffAt, lastIdentifier))

/-- The enrollments that wait for their outcome. -/
def CoachHypothesis.pending (hypothesis : CoachHypothesis) : List String :=
  (hypothesis.forwardEnrollments.filter fun enrollment => !enrollment.resolved).map CoachForwardEvidence.episodeId

/-- No more than so many episodes are enrolled. -/
def CoachHypothesis.pageLimit (hypothesis : CoachHypothesis) (limit : ℕ) : ℕ :=
  if hypothesis.forwardEnrollments.length < maximumForwardObserved then limit else 0

/-- `pruned_through`. -/
def Journal.pruned (j : Journal) : Position := (j.prunedThrough.map PrunedThrough.toPosition).getD (toLex ("", ""))

def Journal.policyPositions (j : Journal) : List Position :=
  (j.episodes.rows.filter fun row => row.lane = .policy).map EpisodeRow.position

/-- A page of episodes, and where the next one begins. -/
structure Page where
  episodes : List LearningEvidenceEpisode
  identities : List (String × String × String)
  cursor : Position
  gap : Bool

/-- `coach_policy_page`, with what `learning_policy_identities` holds. -/
def Journal.coachPolicyPage (j : Journal) (identities : String → Option (String × String))
    (hypothesis : CoachHypothesis) (limit : ℕ) : Option Page :=
  if 1 ≤ limit ∧ limit ≤ 64 then
    let after := hypothesis.after
    let rows := Paging.page j.policyPositions after (hypothesis.pageLimit limit)
    let ids := (rows.map (fun position => (ofLex position).2) ++ hypothesis.pending).eraseDups
    let episodes := (ids.filterMap j.episodes.get?).map EpisodeRow.record
    let keys := (episodes.map LearningEvidenceEpisode.policyIdentityKey).eraseDups.insertionSort (· ≤ ·)
    some
      { episodes
        identities := keys.filterMap fun key => (identities key).map (key, ·)
        cursor := Paging.next rows after
        gap := after < j.pruned }
  else none

/-! ### Readers -/

/-- A page that was read, and where it started. -/
structure Read where
  after : Position
  page : Page

/-- The page holds a position above its start as new evidence. -/
def Read.Scans (read : Read) (position : Position) : Prop :=
  read.after < position ∧ position ≤ read.page.cursor ∧
    (ofLex position).2 ∈ read.page.episodes.map LearningEvidenceEpisode.episodeId

instance (read : Read) (position : Position) : Decidable (read.Scans position) :=
  inferInstanceAs (Decidable (_ ∧ _ ∧ _))

/-- The journal, a hypothesis, and the pages read for it. -/
structure Reader where
  journal : Journal
  hypothesis : CoachHypothesis
  reads : List Read := []

/-- What happens to the journal, and the reader. -/
inductive Action where
  | save (episode : LearningEvidenceEpisode)
  | prune (maxCompletePerLane : ℕ)
  | page (forwardEnrollments : List CoachForwardEvidence) (identities : String → Option (String × String)) (limit : ℕ)

/-- A page was read: the next one starts at its cursor. -/
def Reader.afterPage (s : Reader) (forwardEnrollments : List CoachForwardEvidence) (page : Page) : Reader :=
  { s with
    hypothesis := { s.hypothesis with forwardEnrollments, forwardCursor := some page.cursor }
    reads := s.reads ++ [⟨s.hypothesis.after, page⟩] }

/-- One action. What raises changes nothing. -/
def Reader.step (s : Reader) : Action → Reader
  | .save episode =>
    { s with journal := (s.journal.saveLearningEvidenceEpisode episode).getD s.journal }
  | .prune maxCompletePerLane =>
    { s with journal := ((s.journal.pruneLearningEvidence maxCompletePerLane).map Prod.snd).getD s.journal }
  | .page forwardEnrollments identities limit =>
    match s.journal.coachPolicyPage identities { s.hypothesis with forwardEnrollments } limit with
    | none => s
    | some page => s.afterPage forwardEnrollments page

/-- A hypothesis is tested from now on. -/
def Reader.start (journal : Journal) (cutoffAt : String) : Reader := ⟨journal, { cutoffAt }, []⟩

/-- How many pages held a position as new evidence. -/
def Reader.timesScanned (s : Reader) (position : Position) : ℕ := s.reads.countP (·.Scans position)

/-- How often an episode was returned. -/
def Reader.timesReturned (s : Reader) (episodeId : String) : ℕ :=
  s.reads.countP fun read => episodeId ∈ read.page.episodes.map LearningEvidenceEpisode.episodeId

/-- A page has reported a gap. -/
def Reader.gapReported (s : Reader) : Bool := s.reads.any (·.page.gap)

/-- What a run from `s` to `t` does to the policy episodes above the cursor. -/
structure Reader.LosesNothing (s t : Reader) : Prop where
  /-- The watermark does not move backwards. -/
  watermark : s.journal.pruned ≤ t.journal.pruned
  /-- What the cursor has passed was scanned by exactly one page, or a page has reported a gap. -/
  passed : ∀ row ∈ s.journal.episodes, row.lane = .policy → s.hypothesis.after < row.position →
    row.position ≤ t.hypothesis.after → t.timesScanned row.position = 1 ∨ t.gapReported = true
  /-- What it has not passed is still there, or any page from now on reports a gap. -/
  ahead : ∀ row ∈ s.journal.episodes, row.lane = .policy → s.hypothesis.after < row.position →
    t.hypothesis.after < row.position → t.timesScanned row.position = 0 ∧
      ((∃ row' ∈ t.journal.episodes, row'.lane = .policy ∧ row'.position = row.position) ∨
        ∀ forwardEnrollments identities limit, ∀ page ∈
          t.journal.coachPolicyPage identities { t.hypothesis with forwardEnrollments } limit, page.gap = true)
  /-- Later pages scan later positions. -/
  ordered : t.reads.Pairwise fun read read' => ∀ p p', read.Scans p → read'.Scans p' → p < p'

/-! ### What happens to the journal -/

theorem bot_le_position (p : Position) : toLex ("", "") ≤ p := by
  have hmin (s : String) : "" ≤ s := by
    rw [← not_lt, String.lt_iff_toList_lt]
    exact not_lt_nil _
  rw [Prod.Lex.le_iff]
  rcases (hmin (ofLex p).1).lt_or_eq with hlt | heq
  · exact .inl hlt
  · exact .inr ⟨heq, hmin _⟩

/-- The policy episodes stay, or the watermark covers them. -/
structure Journal.Keeps (j j' : Journal) : Prop where
  pruned : j.pruned ≤ j'.pruned
  episodes : ∀ row ∈ j.episodes, row.lane = .policy →
    (∃ row' ∈ j'.episodes, row'.lane = .policy ∧ row'.position = row.position) ∨ row.position ≤ j'.pruned

variable {j j' j'' : Journal} {row : EpisodeRow}

theorem Journal.Keeps.refl (j : Journal) : j.Keeps j := ⟨le_rfl, fun row hrow hlane => .inl ⟨row, hrow, hlane, rfl⟩⟩

theorem Journal.Keeps.trans (h : j.Keeps j') (h' : j'.Keeps j'') : j.Keeps j'' := by
  refine ⟨h.pruned.trans h'.pruned, fun row hrow hlane => ?_⟩
  rcases h.episodes row hrow hlane with ⟨row', hrow', hlane', hposition⟩ | hle
  · rw [← hposition]
    exact h'.episodes row' hrow' hlane'
  · exact .inr (hle.trans h'.pruned)

theorem savedRow_episodeId (j : Journal) (episode : LearningEvidenceEpisode) :
    (j.savedRow episode).episodeId = episode.episodeId := by
  unfold Journal.savedRow
  split
  · rfl
  · rename_i row h
    exact (Table.get?_eq_some.mp h).2

theorem savedRow_inserted {episode : LearningEvidenceEpisode} (hrow : row ∈ j.episodes)
    (hid : row.episodeId = episode.episodeId) : (j.savedRow episode).inserted = row.inserted := by
  unfold Journal.savedRow
  split
  · rename_i h
    exact absurd hid (Table.get?_eq_none.mp h row hrow)
  · rename_i row' h
    obtain ⟨hrow', hid'⟩ := Table.get?_eq_some.mp h
    obtain rfl : row' = row := Table.eq_of_key hrow' hrow (hid'.trans hid.symm)
    rfl

theorem save_keeps {episode : LearningEvidenceEpisode} (h : j.saveLearningEvidenceEpisode episode = some j') : j.Keeps j' := by
  unfold Journal.saveLearningEvidenceEpisode at h
  split_ifs at h
  cases h
  refine ⟨le_rfl, fun row hrow hlane => .inl ?_⟩
  by_cases hid : row.episodeId = episode.episodeId
  · have hinserted := savedRow_inserted hrow hid
    refine ⟨j.savedRow episode, Table.mem_upsert.mpr (.inl rfl), ?_, ?_⟩
    · exact (congrArg LearningEvidenceEpisode.lane hinserted).trans hlane
    · exact congrArg (fun inserted => (toLex (inserted.createdAt, inserted.episodeId) : Position)) hinserted
  · exact ⟨row, Table.mem_upsert.mpr (.inr ⟨hrow, fun heq => hid (heq.trans (savedRow_episodeId j episode))⟩), hlane, rfl⟩

theorem mem_foldl_erase {t : Table String EpisodeRow EpisodeRow.episodeId} {ids : List String} :
    row ∈ ids.foldl Table.erase t ↔ row ∈ t ∧ row.episodeId ∉ ids := by
  induction ids generalizing t with
  | nil => simp
  | cons id ids ih => simp [ih, and_assoc]

theorem overflow_mem {lane : LearningEvidenceLane} {maxComplete : ℕ}
    (h : row ∈ j.overflow lane maxComplete) : row ∈ j.episodes ∧ row.lane = lane := by
  have hmem := (mem_insertionSort _).mp (mem_of_mem_drop h)
  obtain ⟨hrow, hkept⟩ := mem_filter.mp (mem_reverse.mp hmem)
  simp only [Bool.and_eq_true, decide_eq_true_eq] at hkept
  exact ⟨hrow, hkept.1⟩

theorem le_watermark {removed : List Position} {p w : Position} (h : j.watermark removed = some w)
    (hp : p ∈ removed ∨ p = j.pruned) : p ≤ w := by
  have hle := (List.max?_eq_some_iff.mp h).2
  rcases hp with hp | rfl
  · exact hle p (mem_append_left _ hp)
  · unfold Journal.pruned
    cases hthrough : j.prunedThrough with
    | none => exact bot_le_position w
    | some through => exact hle _ (mem_append_right _ (by simp [hthrough]))

theorem pruneLane_pruned (j : Journal) (lane : LearningEvidenceLane) (maxComplete : ℕ) :
    j.pruned ≤ (j.pruneLane lane maxComplete).2.pruned ∧
      (lane = .policy → ∀ row ∈ j.overflow lane maxComplete,
        row.position ≤ (j.pruneLane lane maxComplete).2.pruned) := by
  by_cases hremoved : lane = .policy ∧ j.overflow lane maxComplete ≠ []
  · obtain ⟨first, hfirst⟩ := exists_mem_of_ne_nil _ hremoved.2
    obtain ⟨w, hw⟩ := Option.isSome_iff_exists.mp (isSome_max?_of_mem
      (mem_append_left (j.prunedThrough.map PrunedThrough.toPosition).toList
        (mem_map_of_mem (f := EpisodeRow.position) hfirst)))
    have hpruned : (j.pruneLane lane maxComplete).2.pruned = w := by
      simp only [Journal.pruneLane, if_pos hremoved, Journal.pruned, Journal.watermark, hw]
      rfl
    rw [hpruned]
    exact ⟨le_watermark hw (.inr rfl), fun _ row hrow => le_watermark hw (.inl (mem_map_of_mem hrow))⟩
  · have hpruned : (j.pruneLane lane maxComplete).2.pruned = j.pruned := by
      simp only [Journal.pruneLane, if_neg hremoved, Journal.pruned]
    refine ⟨hpruned.ge, fun hlane row hrow => ?_⟩
    exact absurd ⟨hlane, ne_nil_of_mem hrow⟩ hremoved

theorem pruneLane_keeps (j : Journal) (lane : LearningEvidenceLane) (maxComplete : ℕ) :
    j.Keeps (j.pruneLane lane maxComplete).2 := by
  obtain ⟨hpruned, hcovered⟩ := pruneLane_pruned j lane maxComplete
  refine ⟨hpruned, fun row hrow hlane => ?_⟩
  by_cases hid : row.episodeId ∈ (j.overflow lane maxComplete).map EpisodeRow.episodeId
  · obtain ⟨row', hrow', hsame⟩ := mem_map.mp hid
    obtain ⟨hmem, hlane'⟩ := overflow_mem hrow'
    obtain rfl : row' = row := Table.eq_of_key hmem hrow hsame
    exact .inr (hcovered (hlane'.symm.trans hlane) row' hrow')
  · exact .inl ⟨row, mem_foldl_erase.mpr ⟨hrow, hid⟩, hlane, rfl⟩

theorem prune_keeps {removed : List String} {maxCompletePerLane : ℕ}
    (h : j.pruneLearningEvidence maxCompletePerLane = some (removed, j')) : j.Keeps j' := by
  unfold Journal.pruneLearningEvidence at h
  split_ifs at h
  cases h
  exact (pruneLane_keeps j .policy maxCompletePerLane).trans (pruneLane_keeps _ .execution maxCompletePerLane)

/-! ### What a page holds -/

section Page

variable {identities : String → Option (String × String)} {hypothesis : CoachHypothesis} {limit : ℕ} {page : Page}

section

variable (h : j.coachPolicyPage identities hypothesis limit = some page)
include h

theorem page_gap (hlt : hypothesis.after < j.pruned) :
    page.gap = true := by
  unfold Journal.coachPolicyPage at h
  split_ifs at h
  cases h
  exact decide_eq_true hlt

theorem page_after_le :
    hypothesis.after ≤ page.cursor := by
  unfold Journal.coachPolicyPage at h
  split_ifs at h
  cases h
  exact Paging.le_next ..

theorem page_holds (hrow : row ∈ j.episodes) (hlane : row.lane = .policy) (hafter : hypothesis.after < row.position)
    (hle : row.position ≤ page.cursor) :
    row.episodeId ∈ page.episodes.map LearningEvidenceEpisode.episodeId := by
  unfold Journal.coachPolicyPage at h
  split_ifs at h
  cases h
  have hpositions : row.position ∈ j.policyPositions :=
    mem_map_of_mem (mem_filter.mpr ⟨hrow, decide_eq_true hlane⟩)
  have hpage := Paging.mem_page_of_le_next hpositions hafter hle
  rw [map_map]
  refine mem_map.mpr ⟨row, mem_filterMap.mpr ⟨row.episodeId, ?_, ?_⟩, row.same⟩
  · exact mem_eraseDups.mpr (mem_append_left _ (mem_map_of_mem hpage))
  · exact Table.get?_eq_some.mpr ⟨hrow, rfl⟩

end

end Page

/-! ### What happens to a reader -/

/-- The pages are read one after the other. -/
structure Reader.Sequential (s : Reader) : Prop where
  ordered : s.reads.Pairwise fun read read' => read.page.cursor ≤ read'.after
  before : ∀ read ∈ s.reads, read.page.cursor ≤ s.hypothesis.after

/-- What an action does. -/
inductive Stepped (s : Reader) : Reader → Prop where
  | journal (j : Journal) (keeps : s.journal.Keeps j) : Stepped s { s with journal := j }
  | page (forwardEnrollments : List CoachForwardEvidence) (identities : String → Option (String × String))
    (limit : ℕ) (page : Page)
    (read : s.journal.coachPolicyPage identities { s.hypothesis with forwardEnrollments } limit = some page) :
    Stepped s (s.afterPage forwardEnrollments page)
  | raises : Stepped s s

theorem step_stepped (s : Reader) (a : Action) : Stepped s (s.step a) := by
  cases a with
  | save episode =>
    refine .journal _ ?_
    cases h : s.journal.saveLearningEvidenceEpisode episode with
    | none => exact .refl _
    | some j => exact save_keeps h
  | prune maxCompletePerLane =>
    refine .journal _ ?_
    cases h : s.journal.pruneLearningEvidence maxCompletePerLane with
    | none => exact .refl _
    | some pruned => exact prune_keeps h
  | page forwardEnrollments identities limit =>
    unfold Reader.step
    dsimp only
    split
    · exact .raises
    · rename_i page h
      exact .page forwardEnrollments identities limit page h

variable {s s' t : Reader}

theorem Stepped.after_le (hstep : Stepped s s') : s.hypothesis.after ≤ s'.hypothesis.after := by
  cases hstep with
  | journal | raises => exact le_rfl
  | page forwardEnrollments identities limit page read =>
    have hle := page_after_le read
    exact hle

theorem Reader.Sequential.step (h : s.Sequential) (hstep : Stepped s s') : s'.Sequential := by
  have hafter := hstep.after_le
  cases hstep with
  | journal => exact ⟨h.ordered, h.before⟩
  | raises => exact h
  | page forwardEnrollments identities limit page read =>
    refine ⟨pairwise_append.mpr ⟨h.ordered, pairwise_singleton _ _, fun r hr r' hr' => ?_⟩,
      fun r hr => ?_⟩
    · rw [mem_singleton.mp hr']
      exact h.before r hr
    · rcases mem_append.mp hr with hr | hr
      · exact (h.before r hr).trans hafter
      · rw [mem_singleton.mp hr]
        exact le_rfl

/-- What happens to an episode that was above the cursor: it is passed in order, or it is still ahead. -/
structure Reader.Tracks (p : Position) (s : Reader) : Prop where
  passed : p ≤ s.hypothesis.after → s.timesScanned p = 1 ∨ s.gapReported = true
  ahead : s.hypothesis.after < p → s.timesScanned p = 0 ∧
    ((∃ row ∈ s.journal.episodes, row.lane = .policy ∧ row.position = p) ∨ p ≤ s.journal.pruned)

variable {p : Position}

theorem Reader.Sequential.timesScanned_eq_zero (h : s.Sequential) (hafter : s.hypothesis.after < p) :
    s.timesScanned p = 0 := by
  refine countP_eq_zero.mpr fun read hread hscans => ?_
  obtain ⟨-, hle, -⟩ := of_decide_eq_true hscans
  exact absurd (hle.trans (h.before read hread)) (not_le.mpr hafter)

theorem timesScanned_afterPage (s : Reader) (forwardEnrollments : List CoachForwardEvidence) (page : Page)
    (p : Position) : (s.afterPage forwardEnrollments page).timesScanned p =
      s.timesScanned p + if Read.Scans ⟨s.hypothesis.after, page⟩ p then 1 else 0 := by
  simp [Reader.timesScanned, Reader.afterPage, countP_append, countP_singleton]

theorem gapReported_afterPage (s : Reader) (forwardEnrollments : List CoachForwardEvidence) (page : Page) :
    (s.afterPage forwardEnrollments page).gapReported = (s.gapReported || page.gap) := by
  simp [Reader.gapReported, Reader.afterPage]

/-- The cursor stays behind what is not read. -/
theorem Reader.Tracks.step (h : s.Tracks p) (hstep : Stepped s s') : s'.Tracks p := by
  have hcursor := hstep.after_le
  cases hstep with
  | raises => exact h
  | journal j keeps =>
    refine ⟨h.passed, fun hafter => ⟨(h.ahead hafter).1, ?_⟩⟩
    rcases (h.ahead hafter).2 with ⟨row, hrow, hlane, rfl⟩ | hle
    · exact keeps.episodes row hrow hlane
    · exact .inr (hle.trans keeps.pruned)
  | page forwardEnrollments identities limit page read =>
    constructor
    · -- the cursor has passed the episode
      intro hle
      rw [timesScanned_afterPage, gapReported_afterPage]
      rcases le_or_gt p s.hypothesis.after with hpassed | hahead
      · rw [if_neg fun hscans => absurd hscans.1 (not_lt.mpr hpassed), Nat.add_zero]
        exact (h.passed hpassed).imp_right fun hgap => by rw [hgap, Bool.true_or]
      · obtain ⟨hzero, ⟨row, hrow, hlane, rfl⟩ | hpruned⟩ := h.ahead hahead
        · exact .inl (by rw [hzero, if_pos ⟨hahead, hle, page_holds read hrow hlane hahead hle⟩])
        · exact .inr (by rw [page_gap read (hahead.trans_le hpruned), Bool.or_true])
    · -- it has not
      intro hlt
      obtain ⟨hzero, hkept⟩ := h.ahead (hcursor.trans_lt hlt)
      rw [timesScanned_afterPage, hzero, if_neg fun hscans => absurd hscans.2.1 (not_le.mpr hlt)]
      exact ⟨rfl, hkept⟩

theorem Stepped.pruned (hstep : Stepped s s') : s.journal.pruned ≤ s'.journal.pruned := by
  cases hstep with
  | journal j keeps => exact keeps.pruned
  | page | raises => exact le_rfl

theorem timesScanned_of_passed (hle : p ≤ s.hypothesis.after) (later : List Action) :
    (run Reader.step s later).timesScanned p = s.timesScanned p := by
  refine (run_invariant (I := fun t : Reader => p ≤ t.hypothesis.after ∧ t.timesScanned p = s.timesScanned p)
    ⟨hle, rfl⟩ fun t a h => ?_).2
  obtain ⟨hpassed, hsame⟩ := h
  have hstep := step_stepped t a
  refine ⟨hpassed.trans hstep.after_le, ?_⟩
  generalize t.step a = t' at hstep ⊢
  cases hstep with
  | journal | raises => exact hsame
  | page forwardEnrollments identities limit page read =>
    rw [timesScanned_afterPage, if_neg fun hscans => absurd hscans.1 (not_lt.mpr hpassed), Nat.add_zero, hsame]

/-- **No episode is passed over in silence** that is above the cursor at some time of a run: it is scanned by
exactly one page or some page reports a gap, once the cursor has passed it. -/
theorem pages_lose_nothing (journal : Journal) (cutoffAt : String) (actions later : List Action) :
    (run Reader.step (Reader.start journal cutoffAt) actions).LosesNothing
      (run Reader.step (Reader.start journal cutoffAt) (actions ++ later)) := by
  have hstart : (Reader.start journal cutoffAt).Sequential :=
    ⟨Pairwise.nil, fun _ hread => absurd hread not_mem_nil⟩
  have hsequential (actions : List Action) :
      (run Reader.step (Reader.start journal cutoffAt) actions).Sequential :=
    run_invariant hstart fun s a hs => hs.step (step_stepped s a)
  have hs := hsequential actions
  have ht := hsequential (actions ++ later)
  rw [run_append] at ht ⊢
  generalize run Reader.step (Reader.start journal cutoffAt) actions = s at hs ht ⊢
  have htracks : ∀ row ∈ s.journal.episodes, row.lane = .policy → s.hypothesis.after < row.position →
      (run Reader.step s later).Tracks row.position := fun row hrow hlane hafter =>
    run_invariant (I := Reader.Tracks row.position)
      ⟨fun hle => absurd hafter (not_lt.mpr hle), fun _ =>
        ⟨hs.timesScanned_eq_zero hafter, .inl ⟨row, hrow, hlane, rfl⟩⟩⟩
      fun s a h => h.step (step_stepped s a)
  constructor
  · exact run_invariant (I := fun t : Reader => s.journal.pruned ≤ t.journal.pruned) le_rfl
      fun t a hle => hle.trans (step_stepped t a).pruned
  · exact fun row hrow hlane hafter => (htracks row hrow hlane hafter).passed
  · intro row hrow hlane hafter hahead
    obtain ⟨hzero, hkept⟩ := (htracks row hrow hlane hafter).ahead hahead
    exact ⟨hzero, hkept.imp_right fun hle _ _ _ page hpage => page_gap hpage (hahead.trans_le hle)⟩
  · refine ht.ordered.imp fun hle p p' hscans hscans' => ?_
    exact (hscans.2.1.trans hle).trans_lt hscans'.1

def policyEpisode (episodeId createdAt : String) : LearningEvidenceEpisode :=
  ⟨episodeId, episodeId, .policy, .pending, episodeId, createdAt, "contract"⟩

/-- An episode is saved and read, and then one of an earlier time. -/
def lateRun : List Action :=
  [.save (policyEpisode "first" "12:02"), .page [] (fun _ => none) 64,
    .save (policyEpisode "late" "12:01"), .page [⟨"first", false⟩] (fun _ => none) 64]

/-- **An episode below the cursor is never scanned**, and no gap is reported; one whose outcome is awaited is
returned again. -/
theorem late_episode_skipped :
    let t := run Reader.step (Reader.start {} "12:00") lateRun
    t.timesReturned "first" = 2 ∧ t.timesReturned "late" = 0 ∧ t.gapReported = false ∧
      (∃ row ∈ t.journal.episodes, row.lane = .policy ∧ row.position = toLex ("12:01", "late")) ∧
      ∀ later, (run Reader.step t later).timesScanned (toLex ("12:01", "late")) = 0 := by
  refine ⟨by decide +kernel, by decide +kernel, by decide +kernel, ?_, fun later => ?_⟩
  · exact ⟨⟨policyEpisode "late" "12:01", policyEpisode "late" "12:01", rfl⟩,
      Table.mem_def.mpr (by decide +kernel), rfl, rfl⟩
  · exact (timesScanned_of_passed (by decide +kernel) later).trans (by decide +kernel)

end SignalArcade.Coach
