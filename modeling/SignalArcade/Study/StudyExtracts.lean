import SignalArcade.Study.ActivityDataset
import Mathlib.Tactic.Linarith

/-!
# Extracts are the cohorts of their studies

The days around the period and the second around `julianday` keep every member, so the rows that are read afterwards
decide, and the dataset that is returned is accepted.
-/

namespace SignalArcade.ActivityDataset

open Checked Clocks List

variable {readers : Readers} {snapshot : Snapshot} {study : StudyWindow} {asOf : Clock} {row : EvidenceRow}
  {fault : Place → Option DatasetError} {metadata : List (ℤ ×ₗ String)}

/-! ### Texts of clocks -/

/-- The date of a day, in microseconds from 1970 on. -/
def midnight (date : Date) : ℤ := (date.toordinal - epoch) * oneDay

/-- A text of a clock: it begins with the date, and midnight at its end counts to it. -/
structure IsoInstant (readers : Readers) (text : List Char) : Prop where
  reads : ∃ date rest wall utcoffset, text = Date.isoformat date ++ rest ∧
    readers.fromisoformat text = some (.aware wall utcoffset) ∧
    midnight date ≤ wall ∧ wall ≤ midnight date + oneDay ∧ -oneDay < utcoffset ∧ utcoffset < oneDay

/-- A day number of an instant, up to a margin in microseconds. The day that 1970 begins in has the number 2440587.5. -/
def Accurate (margin : ℚ) (day : ℚ) (instant : ℤ) : Prop :=
  |day * 86400000000 - (instant + 210866760000000000)| ≤ margin

/-- `julianday` of the texts of a table, and of the two clocks that a study is read with. -/
structure JuliandayWithin (margin : ℚ) (readers : Readers) (snapshot : Snapshot) (study : StudyWindow) : Prop where
  rows : ∀ row ∈ snapshot.episodes, ∀ wall utcoffset day,
    readers.fromisoformat row.createdAt = some (.aware wall utcoffset) → readers.julianday row.createdAt = some day →
      Accurate margin day (wall - utcoffset)
  parameters : ∀ instant clock, instant = study.start.instant - second ∨ instant = study.finish.instant + second →
    Clock.utc? instant = some clock → ∃ day, readers.julianday clock.isoformat = some day ∧ Accurate margin day instant

theorem append_lt_of_length {s t : List Char} (h : s.length = t.length) (rest : List Char) :
    s ++ rest < t ↔ s < t := by
  have happend := append_lt_append h rest []
  simpa using happend

/-! ### Members -/

/-- The instant of a row. -/
def instantOf (readers : Readers) (row : EvidenceRow) : Option ℤ :=
  (readers.fromisoformat row.createdAt).bind Reading.instant?

/-- What a row is sorted by. -/
def placeOf (readers : Readers) (row : EvidenceRow) : ℤ ×ₗ String :=
  toLex ((instantOf readers row).getD 0, row.episodeId)

/-- An instant of the period of a study, that is not after the observation. -/
def During (study : StudyWindow) (asOf : Clock) (instant : ℤ) : Prop :=
  study.start.instant ≤ instant ∧ instant < study.finish.instant ∧ instant ≤ asOf.instant

instance (study : StudyWindow) (asOf : Clock) (instant : ℤ) : Decidable (During study asOf instant) :=
  inferInstanceAs (Decidable (_ ∧ _))

/-- The declared cohort: policy episodes of the period. -/
def Member (readers : Readers) (study : StudyWindow) (asOf : Clock) (row : EvidenceRow) : Prop :=
  row.lane = "policy" ∧ ∃ instant ∈ instantOf readers row, During study asOf instant

theorem envelope_spec {envelope : Envelope} (h : ActivityDataset.envelope study = .ok envelope) :
    ∃ lower upper from' until' : Clock,
      envelope = ⟨lower.date.isoformat, upper.date.isoformat, from'.isoformat, until'.isoformat⟩ ∧
      Clock.utc? (study.start.instant - oneDay) = some lower ∧
      Clock.utc? (study.finish.instant + 2 * oneDay) = some upper ∧
      Clock.utc? (study.start.instant - second) = some from' ∧
      Clock.utc? (study.finish.instant + second) = some until' := by
  have horOverflow : ∀ {clock? : Option Clock} {clock : Clock}, orOverflow clock? = .ok clock → clock? = some clock := by
    intro clock? clock hok
    cases clock? with
    | none => cases hok
    | some found => rw [Except.ok.inj hok]
  unfold ActivityDataset.envelope at h
  obtain ⟨-, -, h⟩ := bind_eq_ok.mp h
  obtain ⟨-, -, h⟩ := bind_eq_ok.mp h
  obtain ⟨lower, hlower, h⟩ := bind_eq_ok.mp h
  obtain ⟨upper, hupper, h⟩ := bind_eq_ok.mp h
  obtain ⟨from', hfrom, h⟩ := bind_eq_ok.mp h
  obtain ⟨until', huntil, h⟩ := bind_eq_ok.mp h
  exact ⟨lower, upper, from', until', (Except.ok.inj h).symm, horOverflow hlower, horOverflow hupper, horOverflow hfrom,
    horOverflow huntil⟩

/-- **The envelope keeps every member.** The local date of a clock is at most a day from the UTC one, and the
day numbers of two texts are at most a second off. -/
theorem selects_of_member {envelope : Envelope} (henvelope : ActivityDataset.envelope study = .ok envelope)
    (hiso : IsoInstant readers row.createdAt) (hjulianday : JuliandayWithin 500000 readers snapshot study)
    (hrow : row ∈ snapshot.episodes) (hmember : Member readers study asOf row) : envelope.selects readers row := by
  obtain ⟨lower, upper, from', until', rfl, hlower, hupper, hfrom, huntil⟩ := envelope_spec henvelope
  obtain ⟨hlane, instant, hinstant, hstart, hfinish, -⟩ := hmember
  obtain ⟨date, rest, wall, utcoffset, htext, hreads, hmidnight, hnext, hoffset, hoffset'⟩ := hiso.reads
  obtain rfl : wall - utcoffset = instant := by
    rw [instantOf, hreads] at hinstant
    exact Option.some.inj hinstant
  have hday : oneDay = 86400000000 := by decide
  have hbelow : ¬ row.createdAt < lower.date.isoformat := by
    have horder := date.follows_isoformat lower.date
    rw [htext, append_lt_of_length horder.length, horder.lt]
    have hordinal := (Clock.utc_spec hlower).2.2
    unfold midnight at hmidnight hnext
    rw [hday] at hmidnight hnext hordinal hoffset hoffset'
    omega
  have habove : row.createdAt < upper.date.isoformat := by
    have horder := date.follows_isoformat upper.date
    rw [htext, append_lt_of_length horder.length, horder.lt]
    have hordinal := (Clock.utc_spec hupper).2.2
    unfold midnight at hmidnight hnext
    rw [hday] at hmidnight hnext hordinal hoffset hoffset'
    omega
  have hbetween : readers.julianday row.createdAt = none ∨ between (readers.julianday row.createdAt)
      (readers.julianday from'.isoformat) (readers.julianday until'.isoformat) := by
    cases hrowDay : readers.julianday row.createdAt with
    | none => exact Or.inl rfl
    | some day =>
      obtain ⟨fromDay, hfromDay, hfromAccurate⟩ := hjulianday.parameters _ from' (Or.inl rfl) hfrom
      obtain ⟨untilDay, huntilDay, huntilAccurate⟩ := hjulianday.parameters _ until' (Or.inr rfl) huntil
      have haccurate := hjulianday.rows row hrow wall utcoffset day hreads hrowDay
      unfold Accurate at haccurate hfromAccurate huntilAccurate
      have hsecond : second = 1000000 := by decide
      rw [hsecond] at hfromAccurate huntilAccurate
      rw [hfromDay, huntilDay]
      have hstart' : (study.start.instant : ℚ) ≤ wall - utcoffset := by exact_mod_cast hstart
      have hfinish' : ((wall - utcoffset : ℤ) : ℚ) ≤ study.finish.instant := by exact_mod_cast hfinish.le
      push_cast at haccurate hfromAccurate huntilAccurate hfinish'
      rw [abs_le] at haccurate hfromAccurate huntilAccurate
      refine Or.inr ?_
      simp only [between, Bool.decide_and, Bool.and_eq_true, decide_eq_true_eq]
      constructor <;> linarith [haccurate.1, haccurate.2, hfromAccurate.1, hfromAccurate.2, huntilAccurate.1,
        huntilAccurate.2]
  simp [Envelope.selects, hlane, hbelow, habove, hbetween]

/-! ### The loops -/

instance (readers : Readers) (study : StudyWindow) (asOf : Clock) (row : EvidenceRow) :
    Decidable (∃ instant ∈ instantOf readers row, During study asOf instant) :=
  match h : instantOf readers row with
  | none => isFalse (by simp)
  | some instant => decidable_of_iff (During study asOf instant) (by simp)

theorem awareClock_eq_ok {text : List Char} {wall utcoffset : ℤ}
    (h : awareClock readers text = .ok (wall, utcoffset)) : readers.fromisoformat text = some (.aware wall utcoffset) := by
  unfold awareClock at h
  split at h
  · cases h
  · cases h
  next hreads =>
    cases h
    exact hreads

/-- A scan that returns has kept the rows of the period, and none was left unread. -/
theorem scan_spec {rows : List EvidenceRow} {scanned : ℕ}
    (h : scan readers study asOf fault scanned rows = .ok metadata) :
    (rows ≠ [] → scanned + rows.length ≤ maxRows) ∧
      metadata = (rows.filter fun row => ∃ instant ∈ instantOf readers row, During study asOf instant).map
        (placeOf readers) := by
  induction rows generalizing scanned metadata with
  | nil =>
    cases h
    simp
  | cons row rows ih =>
    rw [scan] at h
    obtain ⟨-, -, h⟩ := bind_eq_ok.mp h
    obtain ⟨_, hbudget, h⟩ := bind_eq_ok.mp h
    obtain ⟨⟨wall, utcoffset⟩, hclock, h⟩ := bind_eq_ok.mp h
    obtain ⟨rest, hrest, h⟩ := bind_eq_ok.mp h
    have hbudget := raiseIf_eq_ok.mp hbudget
    obtain ⟨hlength, hfilter⟩ := ih hrest
    have hinstant : instantOf readers row = some (wall - utcoffset) := by
      rw [instantOf, awareClock_eq_ok hclock]
      rfl
    constructor
    · intro _
      rcases rows with _ | ⟨next, rows⟩
      · simpa using hbudget
      · have hlength := hlength (by simp)
        simp only [length_cons] at hlength ⊢
        omega
    · obtain rfl := pure_eq_ok.mp h
      by_cases hduring : During study asOf (wall - utcoffset)
      · have hkept : ∃ instant ∈ instantOf readers row, During study asOf instant := ⟨_, hinstant, hduring⟩
        rw [filter_cons_of_pos (by simpa using hkept), map_cons, hfilter, placeOf, hinstant]
        exact if_pos hduring
      · have hleft : ¬ ∃ instant ∈ instantOf readers row, During study asOf instant := by simpa [hinstant] using hduring
        rw [filter_cons_of_neg (by simpa using hleft), hfilter]
        exact if_neg hduring

/-- A parent as its row says. -/
def ParentOf (place : ℤ ×ₗ String) (parent : Episode) : Prop :=
  parent.episodeId = (ofLex place).2 ∧ parent.lane = "policy" ∧
    parent.createdAt.instant? = some (ofLex place).1 ∧ parent.entryAt.instant? = some (ofLex place).1

/-- What the loop over some metadata adds: the rows of the parents and the parents that are read from them, receipts and
companions of these only, and as many bytes as counted. -/
structure Adds (readers : Readers) (snapshot : Snapshot) (metadata : List (ℤ ×ₗ String)) (before after : Collected)
    (rows : List EvidenceRow) (parents : List Episode) : Prop where
  found : Forall₂ (fun place row => snapshot.episodes.get? (ofLex place).2 = some row) metadata rows
  reads : readParents readers (rows.map EvidenceRow.recordJson) = .ok parents
  parentOf : Forall₂ ParentOf metadata parents
  payloads : after.parents = before.parents ++ rows.map EvidenceRow.recordJson
  bytes : after.byteCount = before.byteCount + ((rows.map EvidenceRow.recordJson).map String.utf8ByteSize).sum
  identities : ∀ receipt ∈ after.identities, receipt ∈ before.identities ∨
    ∃ parent ∈ parents, readers.stableDigest parent.identity = receipt.identityKey
  companions : ∀ companion ∈ after.companions, companion ∈ before.companions ∨
    ∃ parent ∈ parents, parent.episodeId = companion.parentId

theorem parentId_companion {episodeId : String} {found : CompanionRow}
    (h : companion snapshot episodeId = some found) : found.parentId = episodeId := by
  unfold companion at h
  obtain ⟨companions, hcompanions, h⟩ := Option.bind_eq_some_iff.mp h
  obtain ⟨row, hrow, h⟩ := Option.bind_eq_some_iff.mp h
  obtain ⟨-, hid⟩ := Table.get?_eq_some.mp hrow
  split at h <;> cases h <;> exact hid

theorem elim_eq_ok {α : Type} {found : Option α} {error : DatasetError} {a : α}
    (h : found.elim (.error error) Except.ok = .ok a) : found = some a := by
  cases found with
  | none => cases h
  | some found => rw [Except.ok.inj h]

theorem collect_spec {budget : ℕ} {instant : ℤ} {episodeId : String} {collected after : Collected}
    (h : collect readers snapshot budget instant episodeId collected = .ok after) :
    ∃ row parent, Adds readers snapshot [toLex (instant, episodeId)] collected after [row] [parent] := by
  unfold collect at h
  obtain ⟨row, hrow, h⟩ := bind_eq_ok.mp h
  obtain ⟨-, -, h⟩ := bind_eq_ok.mp h
  obtain ⟨parent, hparent, h⟩ := bind_eq_ok.mp h
  obtain ⟨_, hagrees, h⟩ := bind_eq_ok.mp h
  have hagrees := raiseIf_eq_ok.mp hagrees
  simp only [not_or, not_not] at hagrees
  have hrow := elim_eq_ok hrow
  have hparent := elim_eq_ok hparent
  obtain rfl := pure_eq_ok.mp h
  refine ⟨row, parent, .cons hrow .nil, ?_, .cons hagrees .nil, rfl, by simp, fun receipt hreceipt => ?_,
    fun found hfound => ?_⟩
  · rw [map_singleton, readParents, hparent]
    rfl
  · cases hget : snapshot.identities.get? (readers.stableDigest parent.identity) with
    | none =>
      rw [hget] at hreceipt
      exact Or.inl hreceipt
    | some new =>
      rw [hget] at hreceipt
      rcases Table.mem_upsert.mp hreceipt with rfl | ⟨hreceipt, -⟩
      · exact Or.inr ⟨parent, mem_singleton_self _, (Table.get?_eq_some.mp hget).2.symm⟩
      · exact Or.inl hreceipt
  · cases hget : companion snapshot episodeId with
    | none =>
      rw [hget] at hfound
      exact Or.inl hfound
    | some new =>
      rw [hget] at hfound
      rcases Table.mem_upsert.mp hfound with rfl | ⟨hfound, -⟩
      · exact Or.inr ⟨parent, mem_singleton_self _, hagrees.1.trans (parentId_companion hget).symm⟩
      · exact Or.inl hfound

theorem readParents_append {payloads payloads' : List String} {parents parents' : List Episode}
    (h : readParents readers payloads = .ok parents) (h' : readParents readers payloads' = .ok parents') :
    readParents readers (payloads ++ payloads') = .ok (parents ++ parents') := by
  induction payloads generalizing parents with
  | nil =>
    cases h
    exact h'
  | cons payload payloads ih =>
    rw [readParents] at h
    obtain ⟨parent, hparent, h⟩ := bind_eq_ok.mp h
    obtain ⟨rest, hrest, h⟩ := bind_eq_ok.mp h
    obtain rfl := pure_eq_ok.mp h
    rw [cons_append, readParents, hparent, ih hrest]
    rfl

theorem Adds.trans {metadata metadata' : List (ℤ ×ₗ String)} {before between after : Collected}
    {rows rows' : List EvidenceRow} {parents parents' : List Episode}
    (h : Adds readers snapshot metadata before between rows parents)
    (h' : Adds readers snapshot metadata' between after rows' parents') :
    Adds readers snapshot (metadata ++ metadata') before after (rows ++ rows') (parents ++ parents') where
  found := rel_append h.found h'.found
  reads := by
    rw [map_append]
    exact readParents_append h.reads h'.reads
  parentOf := rel_append h.parentOf h'.parentOf
  payloads := by rw [h'.payloads, h.payloads, map_append, append_assoc]
  bytes := by
    rw [h'.bytes, h.bytes, map_append, map_append, sum_append]
    omega
  identities receipt hreceipt := by
    rcases h'.identities receipt hreceipt with hreceipt | ⟨parent, hparent, hkey⟩
    · rcases h.identities receipt hreceipt with hreceipt | ⟨parent, hparent, hkey⟩
      · exact Or.inl hreceipt
      · exact Or.inr ⟨parent, mem_append_left _ hparent, hkey⟩
    · exact Or.inr ⟨parent, mem_append_right _ hparent, hkey⟩
  companions found hfound := by
    rcases h'.companions found hfound with hfound | ⟨parent, hparent, hid⟩
    · rcases h.companions found hfound with hfound | ⟨parent, hparent, hid⟩
      · exact Or.inl hfound
      · exact Or.inr ⟨parent, mem_append_left _ hparent, hid⟩
    · exact Or.inr ⟨parent, mem_append_right _ hparent, hid⟩

theorem collectAll_spec {budget index : ℕ} {collected after : Collected}
    (h : collectAll readers snapshot budget fault index metadata collected = .ok after) :
    ∃ rows parents, Adds readers snapshot metadata collected after rows parents := by
  induction metadata generalizing index collected with
  | nil =>
    cases h
    exact ⟨[], [], .nil, rfl, .nil, by simp, by simp, fun _ h => Or.inl h, fun _ h => Or.inl h⟩
  | cons place metadata ih =>
    rw [collectAll] at h
    obtain ⟨-, -, h⟩ := bind_eq_ok.mp h
    obtain ⟨between, hcollect, h⟩ := bind_eq_ok.mp h
    obtain ⟨row, parent, hadds⟩ := collect_spec hcollect
    obtain ⟨rows, parents, hadds'⟩ := ih h
    exact ⟨[row] ++ rows, [parent] ++ parents, hadds.trans hadds'⟩

/-! ### The cohort -/

/-- The rows that are read for the sorted metadata are the rows that it was taken from. -/
theorem found_spec {rows members : List EvidenceRow} (hmembers : ∀ row ∈ members, row ∈ snapshot.episodes)
    (hmetadata : ∀ place, place ∈ metadata ↔ place ∈ members.map (placeOf readers))
    (hfound : Forall₂ (fun place row => snapshot.episodes.get? (ofLex place).2 = some row) metadata rows) :
    rows.map (placeOf readers) = metadata ∧ ∀ row, row ∈ rows ↔ row ∈ members := by
  have hmember : ∀ place row, place ∈ metadata → snapshot.episodes.get? (ofLex place).2 = some row →
      placeOf readers row = place ∧ row ∈ members := by
    intro place row hplace hget
    obtain ⟨hrow, hid⟩ := Table.get?_eq_some.mp hget
    obtain ⟨row', hrow', rfl⟩ := mem_map.mp ((hmetadata place).mp hplace)
    obtain rfl := snapshot.episodes.eq_of_key hrow (hmembers row' hrow') hid
    exact ⟨rfl, hrow'⟩
  have hplaces : rows.map (placeOf readers) = metadata ∧ ∀ row ∈ rows, row ∈ members := by
    clear hmetadata
    induction hfound with
    | nil => simp
    | @cons place row metadata rows hget hfound ih =>
      obtain ⟨hplaces, hrows⟩ := ih fun place row hplace => hmember place row (mem_cons_of_mem _ hplace)
      obtain ⟨hplace, hrow⟩ := hmember place row mem_cons_self hget
      exact ⟨by rw [map_cons, hplaces, hplace], forall_mem_cons.mpr ⟨hrow, hrows⟩⟩
  refine ⟨hplaces.1, fun row => ⟨hplaces.2 row, fun hrow => ?_⟩⟩
  have hplace : placeOf readers row ∈ rows.map (placeOf readers) := by
    rw [hplaces.1, hmetadata]
    exact mem_map_of_mem hrow
  obtain ⟨row', hrow', hsame⟩ := mem_map.mp hplace
  have hid : row'.episodeId = row.episodeId := congrArg (fun place => (ofLex place).2) hsame
  rwa [← snapshot.episodes.eq_of_key (hmembers row' (hplaces.2 row' hrow')) (hmembers row hrow) hid]

/-- The rows that pass the `WHERE` are all scanned, and what is left of them are the members. -/
theorem metadata_spec {envelope : Envelope} {cursor : List EvidenceRow → List EvidenceRow}
    {rows : List EvidenceRow} (hcursor : ∀ rows, (cursor rows).Perm rows)
    (hiso : ∀ row ∈ snapshot.episodes, IsoInstant readers row.createdAt)
    (hjulianday : JuliandayWithin 500000 readers snapshot study)
    (henvelope : ActivityDataset.envelope study = .ok envelope)
    (hrows : rows = (cursor (snapshot.episodes.rows.filter (envelope.selects readers))).take (maxRows + 1))
    (hscan : scan readers study asOf fault 0 rows = .ok metadata) :
    (∃ members : List EvidenceRow,
      (∀ row, row ∈ members ↔ row ∈ snapshot.episodes ∧ Member readers study asOf row) ∧
        metadata = members.map (placeOf readers)) ∧
      (metadata.map fun place => (ofLex place).2).Nodup ∧ metadata.length ≤ rows.length := by
  obtain ⟨hbudget, hmetadata⟩ := scan_spec hscan
  have hselected := hcursor (snapshot.episodes.rows.filter (envelope.selects readers))
  have hall : rows = cursor (snapshot.episodes.rows.filter (envelope.selects readers)) := by
    rw [hrows]
    apply take_of_length_le
    by_contra hmore
    have htaken : rows.length = maxRows + 1 := by
      rw [hrows, length_take]
      omega
    have hbudget := hbudget (by
      rintro rfl
      cases htaken)
    omega
  refine ⟨⟨_, fun row => ?_, hmetadata⟩, ?_, ?_⟩
  · rw [mem_filter, hall, hselected.mem_iff, mem_filter]
    constructor
    · rintro ⟨⟨hrow, hselects⟩, hduring⟩
      simp only [Envelope.selects, decide_eq_true_eq] at hselects hduring
      exact ⟨hrow, hselects.1, hduring⟩
    · rintro ⟨hrow, hmember⟩
      exact ⟨⟨hrow, selects_of_member henvelope (hiso row hrow) hjulianday hrow hmember⟩, by simpa using hmember.2⟩
  · rw [hmetadata, map_map]
    refine Nodup.sublist (filter_sublist.map _) ?_
    rw [hall, ((hselected.map _).nodup_iff)]
    exact Nodup.sublist (filter_sublist.map _) snapshot.episodes.nodup
  · rw [hmetadata, length_map]
    exact length_filter_le _ _

/-- Places of different rows, sorted, are in strict order. -/
theorem pairwise_lt_insertionSort (hids : (metadata.map fun place => (ofLex place).2).Nodup) :
    (metadata.insertionSort (· ≤ ·)).Pairwise (· < ·) := by
  have hsorted := pairwise_insertionSort (· ≤ ·) metadata
  have hdistinct := (perm_insertionSort (· ≤ ·) metadata).nodup_iff.mpr (Nodup.of_map _ hids)
  exact (hsorted.and hdistinct).imp fun hplaces => lt_of_le_of_ne hplaces.1 hplaces.2

/-! ### Acceptance -/

/-- The watermark of the retention, if it can be read, is not in the last two days of the calendar. -/
def WatermarkInRange (readers : Readers) (prunedThrough : Option String) : Prop :=
  ∀ text ∈ prunedThrough, ∀ clock episodeId wall utcoffset,
    watermark? (readers.jsonLoads text) = some (clock, episodeId) →
      readers.fromisoformat clock.toList = some (.aware wall utcoffset) → wall + 2 * oneDay ≤ lastWall

theorem exists_retentionIssues (study : StudyWindow) {prunedThrough : Option String}
    (hrange : WatermarkInRange readers prunedThrough) :
    ∃ issues, retentionIssues readers study prunedThrough = .ok issues := by
  cases prunedThrough with
  | none => exact ⟨_, rfl⟩
  | some text =>
    simp only [retentionIssues]
    split
    · exact ⟨_, rfl⟩
    next clock episodeId hwatermark =>
      split
      · exact ⟨_, rfl⟩
      next wall utcoffset hclock =>
        have hwall := hrange text rfl clock episodeId wall utcoffset hwatermark (awareClock_eq_ok hclock)
        exact ⟨_, bind_eq_ok.mpr ⟨(), raiseIf_eq_ok.mpr (not_lt.mpr hwall), rfl⟩⟩

/-- A parent of a place of the period is in the scope. -/
theorem not_outOfScope {place : ℤ ×ₗ String} {parent : Episode} (hparent : ParentOf place parent)
    (hduring : During study asOf (ofLex place).1) :
    ¬ outOfScope study (.aware asOf.wall asOf.utcoffset) parent := by
  obtain ⟨-, hlane, hcreated, hentry⟩ := hparent
  obtain ⟨hstart, hfinish, hasOf⟩ := hduring
  have hnow : (Reading.aware asOf.wall asOf.utcoffset).instant? = some asOf.instant := rfl
  simp only [outOfScope, hentry, hcreated, hlane, hnow, decide_eq_true_eq]
  rintro (hclock | hpolicy | hperiod | ⟨now, hlatest, hlater⟩)
  · exact hclock rfl
  · exact hpolicy rfl
  · exact hperiod ⟨hstart, hfinish⟩
  · cases hlatest
    exact absurd hasOf (not_le.mpr hlater)

theorem exists_of_mem_forall₂ {α β : Type} {R : α → β → Prop} {as : List α} {bs : List β} {b : β}
    (h : Forall₂ R as bs) (hb : b ∈ bs) : ∃ a ∈ as, R a b := by
  induction h with
  | nil => cases hb
  | cons hab _ ih =>
    rcases mem_cons.mp hb with rfl | hb
    · exact ⟨_, mem_cons_self, hab⟩
    · obtain ⟨a, ha, hab⟩ := ih hb
      exact ⟨a, mem_cons_of_mem _ ha, hab⟩

/-- What the loop adds to nothing is accepted, as far as the watermark can be. -/
theorem exists_validateDataset {collected : Collected} {rows : List EvidenceRow}
    {parents : List Episode} {data : StudyDataset} (hadds : Adds readers snapshot metadata {} collected rows parents)
    (hduring : ∀ place ∈ metadata, During study asOf (ofLex place).1)
    (hids : (metadata.map fun place => (ofLex place).2).Nodup) (hspec : data.specSha256 = specDigest readers study)
    (hasOf : data.asOf = .aware asOf.wall asOf.utcoffset) (hparents : data.parents = collected.parents)
    (hidentities : data.identities = collected.identities) (hcompanions : data.companions = collected.companions)
    (hbytes : data.parentBytes = collected.byteCount) (hcount : data.parents.length ≤ data.metadataRowsRead)
    (hrange : WatermarkInRange readers data.prunedThrough) :
    ∃ accepted, validateDataset readers data study = .ok accepted := by
  obtain ⟨retention, hretention⟩ := exists_retentionIssues study hrange
  have hpayloads : data.parents = rows.map EvidenceRow.recordJson := by rw [hparents, hadds.payloads]; rfl
  have hreads : readParents readers data.parents = .ok parents := by rw [hpayloads, hadds.reads]
  have hsum : data.parentBytes = (data.parents.map String.utf8ByteSize).sum := by
    rw [hpayloads, hbytes, hadds.bytes]
    exact Nat.zero_add _
  have hparentIds : parents.map Episode.episodeId = metadata.map fun place => (ofLex place).2 := by
    have hparentOf := hadds.parentOf
    clear hadds hduring hids hreads
    induction hparentOf with
    | nil => rfl
    | cons hparent _ ih => rw [map_cons, map_cons, ih, hparent.1]
  have hdistinct : distinct parents := by
    unfold distinct
    rw [hparentIds]
    exact hids
  have hrelated : ∀ found ∈ data.companions.rows, found.parentId ∈ parents.map Episode.episodeId := by
    intro found hfound
    rw [hcompanions] at hfound
    rcases hadds.companions found hfound with hnone | ⟨parent, hparent, hid⟩
    · cases hnone
    · exact mem_map.mpr ⟨parent, hparent, hid⟩
  have hkeys : ∀ receipt ∈ data.identities.rows,
      receipt.identityKey ∈ (parents.map fun row => readers.stableDigest row.identity).dedup := by
    intro receipt hreceipt
    rw [hidentities] at hreceipt
    rcases hadds.identities receipt hreceipt with hnone | ⟨parent, hparent, hkey⟩
    · cases hnone
    · exact mem_dedup.mpr (mem_map.mpr ⟨parent, hparent, hkey⟩)
  have hscope : ∀ parent ∈ parents, ¬ outOfScope study data.asOf parent := by
    intro parent hparent
    obtain ⟨place, hplace, hof⟩ := exists_of_mem_forall₂ hadds.parentOf hparent
    rw [hasOf]
    exact not_outOfScope hof (hduring place hplace)
  refine ⟨_, bind_eq_ok.mpr ⟨(), raiseIf_eq_ok.mpr (by simp [hspec, hasOf, Reading.instant?]),
    bind_eq_ok.mpr ⟨(), raiseIf_eq_ok.mpr (not_not.mpr hsum),
      bind_eq_ok.mpr ⟨(), raiseIf_eq_ok.mpr (not_lt.mpr hcount),
        bind_eq_ok.mpr ⟨parents, hreads, bind_eq_ok.mpr ⟨(), raiseIf_eq_ok.mpr ?_,
          bind_eq_ok.mpr ⟨(), raiseIf_eq_ok.mpr ?_, bind_eq_ok.mpr ⟨retention, hretention, rfl⟩⟩⟩⟩⟩⟩⟩⟩
  · rintro (hrepeated | ⟨found, hfound, hid⟩ | ⟨receipt, hreceipt, hkey⟩)
    · exact hrepeated hdistinct
    · exact hid (hrelated found hfound)
    · exact hkey (hkeys receipt hreceipt)
  · rintro ⟨parent, hparent, hout⟩
    exact hscope parent hparent hout

/-- **An extract is the declared cohort, and it is accepted.** A `julianday` that is within half a second makes up, with
that of the bound, the second that the statement has to spare. -/
theorem extract_exact (readers : Readers) (snapshot : Snapshot) (study : StudyWindow) (budget : ℕ) (asOf : Clock)
    (cursor : List EvidenceRow → List EvidenceRow) (fault : Place → Option DatasetError) (data : StudyDataset)
    (hcursor : ∀ rows, (cursor rows).Perm rows)
    (hiso : ∀ row ∈ snapshot.episodes, IsoInstant readers row.createdAt)
    (hjulianday : JuliandayWithin 500000 readers snapshot study)
    (h : extractStudy readers snapshot study budget asOf cursor fault = .ok data) :
    (∃ members : List EvidenceRow,
      (∀ row, row ∈ members ↔ row ∈ snapshot.episodes ∧ Member readers study asOf row) ∧
        members.Pairwise (fun row row' => placeOf readers row < placeOf readers row') ∧
        data.parents = members.map EvidenceRow.recordJson) ∧
      (WatermarkInRange readers snapshot.prunedThrough →
        ∃ accepted, validateDataset readers data study = .ok accepted) := by
  unfold extractStudy at h
  obtain ⟨_, -, h⟩ := bind_eq_ok.mp h
  obtain ⟨_, -, h⟩ := bind_eq_ok.mp h
  obtain ⟨envelope, henvelope, h⟩ := bind_eq_ok.mp h
  obtain ⟨metadata, hscan, h⟩ := bind_eq_ok.mp h
  obtain ⟨collected, hcollect, h⟩ := bind_eq_ok.mp h
  obtain ⟨_, -, h⟩ := bind_eq_ok.mp h
  obtain rfl := pure_eq_ok.mp h
  obtain ⟨⟨members, hmembers, hmetadata⟩, hids, hlength⟩ := metadata_spec hcursor hiso hjulianday henvelope rfl hscan
  obtain ⟨rows, parents, hadds⟩ := collectAll_spec hcollect
  have hperm := perm_insertionSort (· ≤ ·) metadata
  obtain ⟨hplaces, hrows⟩ := found_spec (fun row hrow => ((hmembers row).mp hrow).1)
    (fun place => by rw [hperm.mem_iff, hmetadata]) hadds.found
  refine ⟨⟨rows, fun row => (hrows row).trans (hmembers row), ?_, hadds.payloads⟩, fun hrange => ?_⟩
  · have hsorted := pairwise_lt_insertionSort hids
    rwa [← hplaces, pairwise_map] at hsorted
  · refine exists_validateDataset hadds ?_ ?_ rfl rfl rfl rfl rfl rfl ?_ hrange
    · intro place hplace
      rw [hperm.mem_iff, hmetadata] at hplace
      obtain ⟨row, hrow, rfl⟩ := mem_map.mp hplace
      obtain ⟨-, instant, hinstant, hduring⟩ := ((hmembers row).mp hrow).2
      rw [placeOf, hinstant]
      exact hduring
    · rwa [(hperm.map _).nodup_iff]
    · have hcount : collected.parents.length = metadata.length := by
        rw [hadds.payloads, ← hperm.length_eq, ← hplaces]
        simp
      exact hcount.trans_le hlength

/-! ### An extract of a day -/

/-- A text that is read as a date and a time of day, with an offset, and with an error of its `julianday`, all of them in
microseconds. -/
structure ClockText where
  text : String
  date : Date
  timeOfDay : ℤ
  utcoffset : ℤ
  /-- None where `julianday` is `NULL`. -/
  error : Option ℚ
  deriving DecidableEq

def ClockText.wall (clock : ClockText) : ℤ := midnight clock.date + clock.timeOfDay

/-- The watermark of an episode `a`. -/
def watermarkOf (clock : ClockText) : String := "[\"" ++ clock.text ++ "\",\"a\"]"

/-- Readers of the texts of some clocks, and of some payloads. -/
def readersOf (clocks : List ClockText) (payloads : List (String × Episode)) : Readers where
  fromisoformat text := (clocks.find? fun clock => clock.text.toList = text).map fun clock =>
    .aware clock.wall clock.utcoffset
  julianday text := (clocks.find? fun clock => clock.text.toList = text).bind fun clock => clock.error.map fun error =>
    ((clock.wall - clock.utcoffset : ℤ) + 210866760000000000 + error) / 86400000000
  modelValidateJson payload := payloads.lookup payload
  jsonLoads text := (clocks.find? fun clock => watermarkOf clock = text).map fun clock =>
    .list [.text clock.text, .text "a"]
  sha256 text := text
  stableDigest identity := identity.mint

def july (day : ℕ) (h : Date.Valid 2026 7 day) : Date := .ofValid 2026 7 day h

/-- The eighth of July. -/
def theEighth : StudyWindow where
  start := Clock.aheadOfUtc (july 8 (by decide)) 0 0 0
  finish := Clock.aheadOfUtc (july 9 (by decide)) 0 0 0
  dump := "\x7b\x7d"

/-- The bounds that `julianday` is compared with, with their errors. -/
def boundsOf (early late : ℚ) : List ClockText :=
  [⟨"2026-07-07T23:59:59+00:00", july 7 (by decide), oneDay - second, 0, some early⟩,
    ⟨"2026-07-09T00:00:01+00:00", july 9 (by decide), second, 0, some late⟩]

def identityOf (mint : String) : Identity where
  mint
  riskMode := "normal"
  configurationFingerprint := none
  baselineVersion := "1"
  featureSchemaVersion := "1"

/-- A policy episode of a clock, and its payload. -/
def payloadOf (clock : ClockText) : String × Episode :=
  (clock.text,
    { episodeId := clock.text
      lane := "policy"
      createdAt := .aware clock.wall clock.utcoffset
      entryAt := .aware clock.wall clock.utcoffset
      identity := identityOf clock.text })

def rowOf (clock : ClockText) : EvidenceRow where
  episodeId := clock.text
  lane := "policy"
  createdAt := clock.text.toList
  recordJson := clock.text

/-- The journal with the policy episodes of some clocks. -/
def journalOf (clocks : List ClockText) (prunedThrough : Option String) : Snapshot where
  userVersion := 16
  prunedThrough
  episodes := .ofRows (clocks.map rowOf)
  identities := .empty
  companions := none

/-- The extract of the eighth of July, as it is seen two days later. -/
def theExtract (bounds clocks : List ClockText) (prunedThrough : Option String) : Except DatasetError StudyDataset :=
  extractStudy (readersOf (bounds ++ clocks) (clocks.map payloadOf)) (journalOf clocks prunedThrough) theEighth 1000000
    (Clock.aheadOfUtc (july 10 (by decide)) 0 0 0) id fun _ => none

theorem accurate_readersOf {margin error : ℚ} {wall utcoffset : ℤ} (h : |error| ≤ margin) :
    Accurate margin (((wall - utcoffset : ℤ) + 210866760000000000 + error) / 86400000000) (wall - utcoffset) := by
  unfold Accurate
  have hdifference : ((wall - utcoffset : ℤ) + 210866760000000000 + error) / 86400000000 * 86400000000 -
      (((wall - utcoffset : ℤ) : ℚ) + 210866760000000000) = error := by ring
  rwa [hdifference]

/-- Two hours that begin the day before and end the day after, by their own clocks. -/
def eveningAndMorning : List ClockText :=
  [⟨"2026-07-09T00:30:00+01:00", july 9 (by decide), 30 * 60 * second, oneHour, some 0⟩,
    ⟨"2026-07-07T23:30:00-01:00", july 7 (by decide), oneDay - 30 * 60 * second, -oneHour, none⟩]

/-- Clocks far enough from the bounds are told apart. -/
theorem julianday_readersOf {margin : ℚ} {clocks : List ClockText} {payloads : List (String × Episode)}
    {bound bound' : Clock} (herror : ∀ clock ∈ clocks, ∀ error ∈ clock.error, |error| ≤ margin)
    (hbound : Clock.utc? (study.start.instant - second) = some bound)
    (hbound' : Clock.utc? (study.finish.instant + second) = some bound')
    (hreads : ((readersOf clocks payloads).julianday bound.isoformat).isSome ∧
      (readersOf clocks payloads).fromisoformat bound.isoformat = some (.aware bound.wall 0))
    (hreads' : ((readersOf clocks payloads).julianday bound'.isoformat).isSome ∧
      (readersOf clocks payloads).fromisoformat bound'.isoformat = some (.aware bound'.wall 0)) :
    JuliandayWithin margin (readersOf clocks payloads) snapshot study := by
  have haccurate : ∀ text wall utcoffset day, (readersOf clocks payloads).fromisoformat text = some (.aware wall utcoffset) →
      (readersOf clocks payloads).julianday text = some day → Accurate margin day (wall - utcoffset) := by
    intro text wall utcoffset day hclock hday
    obtain ⟨clock, hfind, hclock⟩ := Option.map_eq_some_iff.mp hclock
    simp only [readersOf, hfind, Option.bind_some] at hday
    obtain ⟨error, herrorOf, rfl⟩ := Option.map_eq_some_iff.mp hday
    cases hclock
    exact accurate_readersOf (herror clock (mem_of_find?_eq_some hfind) error herrorOf)
  have hparameter : ∀ {instant : ℤ} {bound clock : Clock}, Clock.utc? instant = some bound →
      ((readersOf clocks payloads).julianday bound.isoformat).isSome ∧
        (readersOf clocks payloads).fromisoformat bound.isoformat = some (.aware bound.wall 0) →
      Clock.utc? instant = some clock → ∃ day, (readersOf clocks payloads).julianday clock.isoformat = some day ∧
        Accurate margin day instant := by
    intro instant bound clock hbound hreads hclock
    obtain rfl := Option.some.inj (hbound.symm.trans hclock)
    obtain ⟨day, hday⟩ := Option.isSome_iff_exists.mp hreads.1
    obtain ⟨hutc, hinstant, -⟩ := Clock.utc_spec hbound
    refine ⟨day, hday, ?_⟩
    have hday := haccurate _ _ _ day hreads.2 hday
    rwa [← hutc, show bound.wall - bound.utcoffset = instant from hinstant] at hday
  constructor
  · intro row _ wall utcoffset day hclock hday
    exact haccurate _ wall utcoffset day hclock hday
  · rintro instant clock (rfl | rfl) hclock
    · exact hparameter hbound hreads hclock
    · exact hparameter hbound' hreads' hclock

/-- A clock of the list is read as it is written, if no other one has its text. -/
theorem isoInstant_readersOf {clocks : List ClockText} {payloads : List (String × Episode)} {clock : ClockText}
    {rest : List Char} (hfind : (clocks.find? fun clock' => clock'.text.toList = clock.text.toList) = some clock)
    (htext : clock.text.toList = clock.date.isoformat ++ rest)
    (htime : 0 ≤ clock.timeOfDay ∧ clock.timeOfDay ≤ oneDay)
    (hoffset : -oneDay < clock.utcoffset ∧ clock.utcoffset < oneDay) :
    IsoInstant (readersOf clocks payloads) clock.text.toList := by
  refine ⟨clock.date, rest, clock.wall, clock.utcoffset, htext, ?_, ?_, ?_, hoffset.1, hoffset.2⟩
  · simp only [readersOf, hfind]
    rfl
  · unfold ClockText.wall
    omega
  · unfold ClockText.wall
    omega

/-- The bound a second before the eighth, and the one a second after it. -/
def dayBefore : Clock := .inUtc (july 7 (by decide)) 23 59 59

def dayAfter : Clock := .inUtc (july 9 (by decide)) 0 0 1

theorem utc_bounds : Clock.utc? (theEighth.start.instant - second) = some dayBefore ∧
    Clock.utc? (theEighth.finish.instant + second) = some dayAfter := by
  decide +kernel

/-- The two episodes, where the bounds are half a second off. -/
theorem extract_exact_eighth :
    ∃ data, theExtract (boundsOf 500000 (-500000)) eveningAndMorning none = .ok data ∧
      (∃ members : List EvidenceRow,
        (∀ row, row ∈ members ↔ row ∈ (journalOf eveningAndMorning none).episodes ∧
          Member (readersOf (boundsOf 500000 (-500000) ++ eveningAndMorning) (eveningAndMorning.map payloadOf)) theEighth
            (Clock.aheadOfUtc (july 10 (by decide)) 0 0 0) row) ∧
          data.parents = members.map EvidenceRow.recordJson) ∧
      ∃ accepted, validateDataset
        (readersOf (boundsOf 500000 (-500000) ++ eveningAndMorning) (eveningAndMorning.map payloadOf)) data theEighth =
          .ok accepted := by
  have hreturns : (theExtract (boundsOf 500000 (-500000)) eveningAndMorning none).isOk := by decide +kernel
  obtain ⟨data, hdata⟩ : ∃ data, theExtract (boundsOf 500000 (-500000)) eveningAndMorning none = .ok data := by
    cases hextract : theExtract (boundsOf 500000 (-500000)) eveningAndMorning none with
    | error e =>
      rw [hextract] at hreturns
      cases hreturns
    | ok data => exact ⟨data, rfl⟩
  have htexts : ∀ clock ∈ eveningAndMorning,
      IsoInstant (readersOf (boundsOf 500000 (-500000) ++ eveningAndMorning) (eveningAndMorning.map payloadOf))
        clock.text.toList := by
    refine forall_mem_cons.mpr ⟨?_, forall_mem_cons.mpr ⟨?_, fun clock hclock => absurd hclock not_mem_nil⟩⟩
    · exact isoInstant_readersOf (by decide +kernel) (show _ = _ ++ "T00:30:00+01:00".toList by decide +kernel) (by decide)
        (by decide)
    · exact isoInstant_readersOf (by decide +kernel) (show _ = _ ++ "T23:30:00-01:00".toList by decide +kernel) (by decide)
        (by decide)
  obtain ⟨⟨members, hmembers, -, hparents⟩, haccepted⟩ := extract_exact
    (readersOf (boundsOf 500000 (-500000) ++ eveningAndMorning) (eveningAndMorning.map payloadOf))
    (journalOf eveningAndMorning none) theEighth 1000000 (Clock.aheadOfUtc (july 10 (by decide)) 0 0 0) id (fun _ => none)
    data (fun rows => .refl rows)
    (fun row hrow => by
      obtain ⟨clock, hclock, rfl⟩ := mem_map.mp (Table.mem_of_mem_ofRows hrow)
      exact htexts clock hclock)
    (julianday_readersOf (by decide +kernel) utc_bounds.1 utc_bounds.2 (by decide +kernel) (by decide +kernel)) hdata
  exact ⟨data, hdata, ⟨members, hmembers, hparents⟩, haccepted (by rintro text ⟨⟩)⟩

/-! ### Where it is not the cohort -/

/-- The beginning of the eighth, a second too early by its `julianday`. -/
def midnightEarly : ClockText := ⟨"2026-07-08T00:00:00+00:00", july 8 (by decide), 0, 0, some (-1000000)⟩

/-- Noon of the eighth in the basic format, which `julianday` does not read. -/
def noonBasic : ClockText := ⟨"20260708T120000+0000", july 8 (by decide), 12 * oneHour, 0, none⟩

def lastDay : ClockText := ⟨"9999-12-31T00:00:00+00:00", ⟨9999, 12, 31, by decide, by decide, by decide⟩, 0, 0, some 0⟩

/-- A `julianday` that is a second off loses a member at the beginning of its period, the order of the texts loses
one that is written in the basic format, and a watermark of the last day of 9999 is not survived. -/
theorem extract_not_exact :
    (JuliandayWithin 1000000 (readersOf (boundsOf 1000000 1000000 ++ [midnightEarly]) []) (journalOf [midnightEarly] none)
        theEighth ∧
      IsoInstant (readersOf (boundsOf 1000000 1000000 ++ [midnightEarly]) []) (rowOf midnightEarly).createdAt ∧
      Member (readersOf (boundsOf 1000000 1000000 ++ [midnightEarly]) []) theEighth
        (Clock.aheadOfUtc (july 10 (by decide)) 0 0 0) (rowOf midnightEarly) ∧
      (theExtract (boundsOf 1000000 1000000) [midnightEarly] none).toOption.map StudyDataset.parents = some []) ∧
      (Member (readersOf (boundsOf 0 0 ++ [noonBasic]) []) theEighth (Clock.aheadOfUtc (july 10 (by decide)) 0 0 0)
        (rowOf noonBasic) ∧
        (theExtract (boundsOf 0 0) [noonBasic] none).toOption.map StudyDataset.parents = some []) ∧
      (theExtract (boundsOf 0 0) [lastDay] (some (watermarkOf lastDay))).isOk ∧
      ((theExtract (boundsOf 0 0) [lastDay] (some (watermarkOf lastDay))).bind fun data =>
        (validateDataset (readersOf (boundsOf 0 0 ++ [lastDay]) []) data theEighth).map Prod.snd) =
          .error .dateOutOfRange := by
  refine ⟨⟨julianday_readersOf (by decide +kernel) utc_bounds.1 utc_bounds.2 (by decide +kernel) (by decide +kernel),
    isoInstant_readersOf (by decide +kernel) (show _ = _ ++ "T00:00:00+00:00".toList by decide +kernel) (by decide)
      (by decide), ⟨rfl, _, rfl, by decide +kernel⟩, by decide +kernel⟩,
    ⟨⟨rfl, _, rfl, by decide +kernel⟩, by decide +kernel⟩, by decide +kernel, by decide +kernel⟩

end SignalArcade.ActivityDataset
