import SignalArcade.Challenger.Tournament
import SignalArcade.Lib.Slices

/-!
# The journal of Champion events

`_insert_champion_events` writes what is new of a list of milestones into the journal of its cohort and skill, and
numbers the champions: the generation begins with the first one and grows with each promotion. A skill's state keeps
the milestones that are not saved yet and the last hundred of those that are, and hands them all over at each save.
-/

namespace SignalArcade.ChampionJournal

open Paper (Instant)
open Challenger (ChampionEvent ChampionEventKind recentChampionEventsInMemory)
open Checked Slices List

/-! ### The journal -/

/-- `ChallengerChampionEvent`. -/
structure Event where
  eventId : String
  skill : ChallengerSkill
  milestone : ChampionEvent
  deriving DecidableEq

def Event.key (event : Event) : Instant ×ₗ String := toLex (event.milestone.occurredAt, event.eventId)

/-- A row of `challenger_champion_events`. -/
structure Row where
  eventId : String
  cohortKey : String
  skill : ChallengerSkill
  occurredAt : Instant
  kind : ChampionEventKind
  championVersion : String
  generation : Option ℕ
  record : Event

/-- `challenger_champion_events`. -/
abbrev Journal := Table String Row Row.eventId

/-- Events that wait to be saved. -/
abbrev Pending := Table String Event Event.eventId

/-- Which journey a call is about. -/
structure Journey where
  cohort : String
  skill : ChallengerSkill

/-- What is raised for an event whose id stands for other data. -/
def differentData : String := "Champion event identity already contains different data"

variable (journey : Journey)

/-- Whether a row holds other data than an event does. -/
def Journey.differs (event : Event) (row : Row) : Bool :=
  (row.cohortKey, row.skill, row.record) ≠ (journey.cohort, journey.skill, event)

/-- The body of the loop over a chunk, of whose ids `previous` reads the rows. -/
def Journey.collect (previous : String → Option Row) (pending : Pending) (event : Event) : Except String Pending := do
  raiseIf ((previous event.eventId).any (journey.differs event)) differentData
  raiseIf ((pending.get? event.eventId).any (· ≠ event)) differentData
  return if (previous event.eventId).isNone then pending.upsert event else pending

def existing (journal : Journal) (chunk : List Event) (eventId : String) : Option Row :=
  (journal.rows.filter fun row => row.eventId ∈ chunk.map Event.eventId).find? (·.eventId = eventId)

/-- `COALESCE(MAX(generation), 0)`. -/
def Journey.generation (journal : Journal) : ℕ :=
  ((journal.rows.filter fun row => row.cohortKey = journey.cohort ∧ row.skill = journey.skill).map
    fun row => row.generation.getD 0).foldr max 0

def nextGeneration (generation : ℕ) (kind : ChampionEventKind) : ℕ :=
  if kind = .firstChampion ∧ generation = 0 then 1
  else if kind = .promoted then max 1 (generation + 1)
  else generation

/-- The row of an event. -/
def Journey.row (generation : ℕ) (event : Event) : Row where
  eventId := event.eventId
  cohortKey := journey.cohort
  skill := journey.skill
  occurredAt := event.milestone.occurredAt
  kind := event.milestone.kind
  championVersion := event.milestone.championVersion
  generation := if generation = 0 then none else some generation
  record := event

/-- The body of the loop over what is pending. -/
def Journey.insert (written : ℕ × Journal) (event : Event) : Except String (ℕ × Journal) := do
  raiseIf (event.skill ≠ journey.skill) "Champion event skill does not match its cohort"
  let generation := nextGeneration written.1 event.milestone.kind
  raiseIf (written.2.get? event.eventId).isSome "UNIQUE constraint failed: challenger_champion_events.event_id"
  return (generation, written.2.upsert (journey.row generation event))

/-- `sorted(pending.values(), …)`. -/
def chronological (pending : Pending) : List Event := pending.rows.insertionSort fun a b => a.key ≤ b.key

/-- Inserts the new ones and counts on. -/
def Journey.insertChampionEvents (journal : Journal) (events : List Event) : Except String Journal := do
  if events = [] then
    return journal
  let pending ← (slices 100 events).foldlM
    (fun pending chunk => chunk.foldlM (journey.collect (existing journal chunk)) pending) Table.empty
  if pending.rows = [] then
    return journal
  let written ← (chronological pending).foldlM journey.insert (journey.generation journal, journal)
  return written.2

/-- `_acknowledge_skill_state`, of the milestones in memory and those of the copy that was saved. -/
def acknowledge (championJourney saved : List Event) : List Event :=
  if championJourney = saved then championJourney.rtake recentChampionEventsInMemory else championJourney

/-! ### What is written -/

def Journey.advance (written : ℕ × Journal) (event : Event) : ℕ × Journal :=
  (nextGeneration written.1 event.milestone.kind,
    written.2.upsert (journey.row (nextGeneration written.1 event.milestone.kind) event))

/-- The generation and the journal after some new events. -/
def Journey.written (journal : Journal) (events : List Event) : ℕ × Journal :=
  events.foldl journey.advance (journey.generation journal, journal)

variable {journey} {journal : Journal} {events : List Event} {event : Event} {generation : ℕ}

theorem le_nextGeneration (generation : ℕ) (kind : ChampionEventKind) : generation ≤ nextGeneration generation kind := by
  unfold nextGeneration
  split_ifs with hfirst hpromoted
  · omega
  · exact (Nat.le_succ _).trans (le_max_right _ _)
  · exact le_rfl

theorem nextGeneration_promoted (generation : ℕ) : nextGeneration generation .promoted = generation + 1 := by
  simp [nextGeneration]

theorem nextGeneration_of_ne {kind : ChampionEventKind} (hkind : kind ≠ .promoted) (hcrowned : 0 < generation) :
    nextGeneration generation kind = generation := by
  rw [nextGeneration, if_neg (fun h => hcrowned.ne' h.2), if_neg hkind]

@[simp] theorem Journey.written_nil (journal : Journal) : journey.written journal [] = (journey.generation journal, journal) := rfl

theorem Journey.written_append (journal : Journal) (events later : List Event) :
    journey.written journal (events ++ later) = later.foldl journey.advance (journey.written journal events) :=
  foldl_append ..

theorem Journey.written_concat (journal : Journal) (events : List Event) (event : Event) :
    journey.written journal (events ++ [event]) = journey.advance (journey.written journal events) event :=
  journey.written_append journal events [event]

theorem foldr_max_concat (l : List ℕ) (n : ℕ) : (l ++ [n]).foldr max 0 = max (l.foldr max 0) n := by
  induction l with
  | nil => simp
  | cons m l ih => rw [cons_append, foldr_cons, foldr_cons, ih, max_assoc]

theorem Journey.generation_upsert (hfresh : journal.get? event.eventId = none) (hnext : journey.generation journal ≤ generation) :
    journey.generation (journal.upsert (journey.row generation event)) = generation := by
  have hrows : (journal.upsert (journey.row generation event)).rows = journal.rows ++ [journey.row generation event] :=
    Table.rows_upsert_fresh (Table.get?_eq_none.mp hfresh)
  have hnumber : (journey.row generation event).generation.getD 0 = generation := by
    dsimp only [Journey.row]
    split_ifs with hzero
    · exact hzero.symm
    · rfl
  have hjourney : [journey.row generation event].filter (fun row => row.cohortKey = journey.cohort ∧ row.skill = journey.skill) =
      [journey.row generation event] := by simp [Journey.row]
  rw [Journey.generation, hrows, filter_append, hjourney, map_append, map_singleton, foldr_max_concat, hnumber]
  exact max_eq_right hnext

theorem Journey.get?_advance {written : ℕ × Journal} {eventId : String} (h : eventId ∉ events.map Event.eventId) :
    (events.foldl journey.advance written).2.get? eventId = written.2.get? eventId := by
  induction events generalizing written with
  | nil => rfl
  | cons event events ih =>
    rw [map_cons, mem_cons, not_or] at h
    rw [foldl_cons, ih h.2, Journey.advance, Table.get?_upsert]
    exact if_neg h.1

theorem Journey.get?_written {older newer : List Event} (hnodup : ((older ++ event :: newer).map Event.eventId).Nodup) :
    (journey.written journal (older ++ event :: newer)).2.get? event.eventId =
      some (journey.row (journey.written journal (older ++ [event])).1 event) := by
  have hnewer : event.eventId ∉ newer.map Event.eventId := by
    rw [map_append, map_cons] at hnodup
    exact (nodup_cons.mp (nodup_append.mp hnodup).2.1).1
  have hsplit : older ++ event :: newer = (older ++ [event]) ++ newer := by simp
  rw [hsplit, Journey.written_append, Journey.get?_advance hnewer, Journey.written_concat, Journey.advance,
    Table.get?_upsert]
  exact if_pos rfl

theorem Journey.generation_written (hfresh : ∀ event ∈ events, journal.get? event.eventId = none)
    (hnodup : (events.map Event.eventId).Nodup) :
    journey.generation (journey.written journal events).2 = (journey.written journal events).1 := by
  induction events using reverseRecOn with
  | nil => rfl
  | append_singleton events event ih =>
    rw [map_append, map_singleton, ← concat_eq_append, nodup_concat] at hnodup
    have hnew : (journey.written journal events).2.get? event.eventId = none := by
      rw [Journey.written, Journey.get?_advance hnodup.1]
      exact hfresh event (by simp)
    rw [Journey.written_concat, Journey.advance]
    refine Journey.generation_upsert hnew ?_
    rw [ih (fun event' hmem => hfresh event' (mem_append_left _ hmem)) hnodup.2]
    exact le_nextGeneration _ _

/-! ### One call -/

theorem Journey.foldlM_insert {written : ℕ × Journal} (hskill : ∀ event ∈ events, event.skill = journey.skill)
    (hfresh : ∀ event ∈ events, written.2.get? event.eventId = none) (hnodup : (events.map Event.eventId).Nodup) :
    events.foldlM journey.insert written = .ok (events.foldl journey.advance written) := by
  induction events generalizing written with
  | nil => rfl
  | cons event events ih =>
    rw [map_cons, nodup_cons] at hnodup
    have hinsert : journey.insert written event = .ok (journey.advance written event) := by
      have hother : ¬ event.skill ≠ journey.skill := not_not.mpr (hskill event mem_cons_self)
      have hunique : ¬ (written.2.get? event.eventId).isSome := by simp [hfresh event mem_cons_self]
      simp only [Journey.insert, raiseIf_of_not hother, raiseIf_of_not hunique]
      rfl
    rw [foldlM_cons, hinsert]
    refine ih (fun event' hmem => hskill event' (mem_cons_of_mem _ hmem)) (fun event' hmem => ?_) hnodup.2
    have hne : event'.eventId ≠ event.eventId := fun h => hnodup.1 (h ▸ mem_map_of_mem hmem)
    rw [Journey.advance, Table.get?_upsert, if_neg]
    · exact hfresh event' (mem_cons_of_mem _ hmem)
    · exact hne

theorem existing_eq (hmem : event ∈ events) : existing journal events event.eventId = journal.get? event.eventId := by
  rw [existing, List.find?_filter, Table.get?]
  refine congrArg (List.find? · journal.rows) (funext fun row => ?_)
  by_cases hrow : row.eventId = event.eventId
  · simp [hrow, mem_map_of_mem hmem]
  · simp [hrow]

/-- What is handed over agrees with the journal and with itself. -/
structure Journey.Agrees (journey : Journey) (journal : Journal) (events : List Event) : Prop where
  stored : ∀ event ∈ events, ∀ row, journal.get? event.eventId = some row → journey.differs event row = false
  same : ∀ event ∈ events, ∀ event' ∈ events, event.eventId = event'.eventId → event = event'

theorem Journey.foldlM_collect {all : List Event} {pending : Pending} (hagrees : journey.Agrees journal all)
    (hpending : ∀ event ∈ pending, event ∈ all) (hevents : ∀ event ∈ events, event ∈ all) :
    ∃ pending', events.foldlM (journey.collect journal.get?) pending = .ok pending' ∧
      ∀ event, event ∈ pending' ↔ event ∈ pending ∨ event ∈ events ∧ journal.get? event.eventId = none := by
  induction events generalizing pending with
  | nil => exact ⟨pending, rfl, by simp⟩
  | cons event events ih =>
    have hall : event ∈ all := hevents event mem_cons_self
    have hstored : ¬ (journal.get? event.eventId).any (journey.differs event) := by
      cases hrow : journal.get? event.eventId with
      | none => simp
      | some row => simp [hagrees.stored event hall row hrow]
    have hsame : ¬ (pending.get? event.eventId).any (· ≠ event) := by
      cases hget : pending.get? event.eventId with
      | none => simp
      | some other =>
        obtain ⟨hother, hid⟩ := Table.get?_eq_some.mp hget
        simp [hagrees.same other (hpending other hother) event hall hid]
    have hcollect : journey.collect journal.get? pending event =
        .ok (if (journal.get? event.eventId).isNone then pending.upsert event else pending) := by
      simp only [Journey.collect, raiseIf_of_not hstored, raiseIf_of_not hsame]
      rfl
    rw [foldlM_cons, hcollect]
    have hrest : ∀ event' ∈ events, event' ∈ all := fun event' hmem => hevents event' (mem_cons_of_mem _ hmem)
    cases hnew : journal.get? event.eventId with
    | some row =>
      obtain ⟨pending', hpending', hmem⟩ := ih hpending hrest
      refine ⟨pending', hpending', fun event' => ?_⟩
      rw [hmem, mem_cons]
      constructor
      · rintro (hp | ⟨hm, hn⟩)
        · exact .inl hp
        · exact .inr ⟨.inr hm, hn⟩
      · rintro (hp | ⟨rfl | hm, hn⟩)
        · exact .inl hp
        · exact absurd hn (by simp [hnew])
        · exact .inr ⟨hm, hn⟩
    | none =>
      have hupsert : ∀ event' ∈ pending.upsert event, event' ∈ all := Table.forall_mem_upsert hall hpending
      obtain ⟨pending', hpending', hmem⟩ := ih hupsert hrest
      refine ⟨pending', hpending', fun event' => ?_⟩
      rw [hmem, mem_cons, Table.mem_upsert]
      constructor
      · rintro ((rfl | ⟨hp, -⟩) | ⟨hm, hn⟩)
        · exact .inr ⟨.inl rfl, hnew⟩
        · exact .inl hp
        · exact .inr ⟨.inr hm, hn⟩
      · rintro (hp | ⟨rfl | hm, hn⟩)
        · by_cases hid : event'.eventId = event.eventId
          · exact .inl (.inl (hagrees.same event' (hpending event' hp) event hall hid))
          · exact .inl (.inr ⟨hp, hid⟩)
        · exact .inl (.inl rfl)
        · exact .inr ⟨hm, hn⟩

instance : Std.Total fun a b : Event => a.key ≤ b.key := ⟨fun a b => le_total a.key b.key⟩

instance : IsTrans Event fun a b => a.key ≤ b.key := ⟨fun _ _ _ => le_trans⟩

theorem Journey.foldlM_chunk (chunk : List Event) (pending : Pending) :
    chunk.foldlM (journey.collect (existing journal chunk)) pending = chunk.foldlM (journey.collect journal.get?) pending := by
  have hread : ∀ (events : List Event) (pending : Pending), (∀ event ∈ events, event ∈ chunk) →
      events.foldlM (journey.collect (existing journal chunk)) pending = events.foldlM (journey.collect journal.get?) pending := by
    intro events
    induction events with
    | nil => exact fun _ _ => rfl
    | cons event events ih =>
      intro pending hchunk
      have hbody : journey.collect (existing journal chunk) pending event = journey.collect journal.get? pending event := by
        simp only [Journey.collect, existing_eq (hchunk event mem_cons_self)]
      rw [foldlM_cons, foldlM_cons, hbody]
      exact bind_congr fun pending => ih pending fun event' hmem => hchunk event' (mem_cons_of_mem _ hmem)
  exact hread chunk pending fun _ hmem => hmem

/-- **One call** writes what is new of the events, in their order. -/
theorem Journey.insertChampionEvents_eq {new : List Event} (hagrees : journey.Agrees journal events)
    (hnew : ∀ event, event ∈ new ↔ event ∈ events ∧ journal.get? event.eventId = none)
    (hsorted : new.Pairwise (·.key < ·.key)) (hnodup : (new.map Event.eventId).Nodup)
    (hskill : ∀ event ∈ new, event.skill = journey.skill) :
    journey.insertChampionEvents journal events = .ok (journey.written journal new).2 := by
  by_cases hnil : events = []
  · obtain rfl : new = [] := eq_nil_iff_forall_not_mem.mpr fun event hmem => by
      simpa [hnil] using ((hnew event).mp hmem).1
    rw [Journey.insertChampionEvents, if_pos hnil]
    rfl
  · have hempty : ∀ event ∈ (Table.empty : Pending), event ∈ events := fun event h => absurd h Table.not_mem_empty
    obtain ⟨pending, hpending, hmem⟩ := Journey.foldlM_collect hagrees hempty fun _ h => h
    have hmem' : ∀ event, event ∈ pending.rows ↔ event ∈ new := by
      intro event
      rw [hnew, ← Table.mem_def, hmem]
      simp
    have hcollect : (slices 100 events).foldlM
        (fun pending chunk => chunk.foldlM (journey.collect (existing journal chunk)) pending) Table.empty = .ok pending := by
      simp only [Journey.foldlM_chunk]
      rw [foldlM_slices (show 0 < 100 by decide), hpending]
    have hperm : pending.rows.Perm new := (perm_ext_iff_of_nodup pending.nodup.of_map hnodup.of_map).mpr hmem'
    have hsort : chronological pending = new := by
      refine Perm.eq_of_pairwise (fun a b ha hb hab hba => ?_) (pairwise_insertionSort _ _)
        (hsorted.imp le_of_lt) ((perm_insertionSort _ _).trans hperm)
      have hid : a.eventId = b.eventId := congrArg (fun key => (ofLex key).2) (le_antisymm hab hba)
      exact inj_on_of_nodup_map hnodup (hperm.subset ((perm_insertionSort _ _).subset ha)) hb hid
    have hwrite : new.foldlM journey.insert (journey.generation journal, journal) =
        .ok (new.foldl journey.advance (journey.generation journal, journal)) :=
      Journey.foldlM_insert hskill (fun event hmem => ((hnew event).mp hmem).2) hnodup
    simp only [Journey.insertChampionEvents, hnil, if_false, hcollect]
    by_cases hnone : pending.rows = []
    · obtain rfl : new = [] := by
        rw [hnone] at hperm
        exact hperm.nil_eq.symm
      simp [hnone, bind, Except.bind, pure, Except.pure]
    · simp [hnone, hsort, hwrite, Journey.written, bind, Except.bind, pure, Except.pure]

/-! ### Any batches -/

/-- Calls that hand over the events in their order: each holds some of the first ones, and all of those that none of the
calls before it held. -/
def Successive (events : List Event) : ℕ → List (List Event) → Prop
  | n, [] => events.length ≤ n
  | n, call :: calls => ∃ m, n ≤ m ∧ (∀ event ∈ call, event ∈ events.take m) ∧
      (∀ event ∈ events.take m, event ∈ events.take n ∨ event ∈ call) ∧ Successive events m calls

/-- The events of a journey, in the order of their times and ids. -/
structure Journey.Chronological (journey : Journey) (events : List Event) : Prop where
  sorted : events.Pairwise (·.key < ·.key)
  nodup : (events.map Event.eventId).Nodup
  skill : ∀ event ∈ events, event.skill = journey.skill

theorem Journey.Chronological.sublist {some : List Event} (h : journey.Chronological events) (hsub : some.Sublist events) :
    journey.Chronological some where
  sorted := h.sorted.sublist hsub
  nodup := h.nodup.sublist (hsub.map _)
  skill event hmem := h.skill event (hsub.subset hmem)

/-- The journal once the first events are written. -/
def Journey.upTo (journey : Journey) (journal : Journal) (events : List Event) (n : ℕ) : Journal :=
  (journey.written journal (events.take n)).2

section

variable (h : journey.Chronological events) (hfresh : ∀ event ∈ events, journal.get? event.eventId = none)
include h hfresh

theorem Journey.get?_upTo (n : ℕ) (hmem : event ∈ events) :
    (event ∈ events.take n → ∃ generation,
      (journey.upTo journal events n).get? event.eventId = some (journey.row generation event)) ∧
    (event ∉ events.take n → (journey.upTo journal events n).get? event.eventId = none) := by
  constructor
  · intro hfirst
    obtain ⟨older, newer, hsplit⟩ := append_of_mem hfirst
    have hnodup := (h.sublist (take_sublist n events)).nodup
    rw [hsplit] at hnodup
    rw [Journey.upTo, hsplit]
    exact ⟨_, Journey.get?_written hnodup⟩
  · intro hlater
    have hnot : event.eventId ∉ (events.take n).map Event.eventId := by
      intro hid
      obtain ⟨event', hmem', heq⟩ := mem_map.mp hid
      exact hlater (inj_on_of_nodup_map h.nodup (mem_of_mem_take hmem') hmem heq ▸ hmem')
    rw [Journey.upTo, Journey.written, Journey.get?_advance hnot]
    exact hfresh event hmem

theorem Journey.written_upTo {n m : ℕ} (hnm : n ≤ m) :
    (journey.written (journey.upTo journal events n) ((events.take m).drop n)).2 = journey.upTo journal events m := by
  have hfirst := h.sublist (take_sublist n events)
  have hgeneration : journey.generation (journey.upTo journal events n) = (journey.written journal (events.take n)).1 :=
    Journey.generation_written (fun event hmem => hfresh event (mem_of_mem_take hmem)) hfirst.nodup
  have hsplit : events.take m = events.take n ++ (events.take m).drop n := by
    conv_lhs => rw [← take_append_drop n (events.take m), take_take, min_eq_left hnm]
  conv_rhs => rw [Journey.upTo, hsplit, Journey.written_append]
  rw [Journey.written, hgeneration]
  rfl

/-- **One call** of successive ones writes what comes next. -/
theorem Journey.insert_upTo
    {n m : ℕ} (hnm : n ≤ m) {call : List Event} (hcall : ∀ event ∈ call, event ∈ events.take m)
    (hnext : ∀ event ∈ events.take m, event ∈ events.take n ∨ event ∈ call) :
    journey.insertChampionEvents (journey.upTo journal events n) call = .ok (journey.upTo journal events m) := by
  have hnodup : (events.take m).Nodup := (h.sublist (take_sublist m events)).nodup.of_map
  have hsplit : events.take m = events.take n ++ (events.take m).drop n := by
    conv_lhs => rw [← take_append_drop n (events.take m), take_take, min_eq_left hnm]
  have hlater : ∀ event, event ∈ (events.take m).drop n ↔ event ∈ events.take m ∧ event ∉ events.take n := by
    intro event
    rw [hsplit] at hnodup
    constructor
    · intro hmem
      exact ⟨mem_of_mem_drop hmem, fun hfirst => (nodup_append.mp hnodup).2.2 event hfirst event hmem rfl⟩
    · rintro ⟨hmem, hnot⟩
      rw [hsplit, mem_append] at hmem
      exact hmem.resolve_left hnot
  have hrest := h.sublist ((drop_sublist n _).trans (take_sublist m events))
  have hagrees : journey.Agrees (journey.upTo journal events n) call := by
    constructor
    · intro event hmem row hrow
      have hin : event ∈ events := mem_of_mem_take (hcall event hmem)
      by_cases hfirst : event ∈ events.take n
      · obtain ⟨generation, hget⟩ := (Journey.get?_upTo h hfresh n hin).1 hfirst
        rw [hget] at hrow
        cases hrow
        simp [Journey.differs, Journey.row]
      · rw [(Journey.get?_upTo h hfresh n hin).2 hfirst] at hrow
        cases hrow
    · intro event hmem event' hmem' hid
      exact inj_on_of_nodup_map h.nodup (mem_of_mem_take (hcall event hmem))
        (mem_of_mem_take (hcall event' hmem')) hid
  rw [← Journey.written_upTo h hfresh hnm]
  refine Journey.insertChampionEvents_eq hagrees (fun event => ?_) hrest.sorted hrest.nodup hrest.skill
  rw [hlater]
  constructor
  · rintro ⟨hmem, hnot⟩
    exact ⟨(hnext event hmem).resolve_left hnot, (Journey.get?_upTo h hfresh n (mem_of_mem_take hmem)).2 hnot⟩
  · rintro ⟨hmem, hnone⟩
    refine ⟨hcall event hmem, fun hfirst => ?_⟩
    obtain ⟨generation, hget⟩ := (Journey.get?_upTo h hfresh n (mem_of_mem_take (hcall event hmem))).1 hfirst
    rw [hget] at hnone
    cases hnone

theorem Journey.foldlM_upTo {calls : List (List Event)} {n : ℕ} (hcalls : Successive events n calls) :
    calls.foldlM journey.insertChampionEvents (journey.upTo journal events n) =
      .ok (journey.upTo journal events events.length) := by
  induction calls generalizing n with
  | nil =>
    rw [foldlM_nil, Journey.upTo, Journey.upTo, take_of_length_le hcalls, take_length]
    rfl
  | cons call calls ih =>
    obtain ⟨m, hnm, hcall, hnext, hrest⟩ := hcalls
    rw [foldlM_cons, Journey.insert_upTo h hfresh hnm hcall hnext]
    exact ih hrest

end

def Row.number (row : Row) : ℕ := row.generation.getD 0

theorem Journey.number_row (generation : ℕ) (event : Event) : (journey.row generation event).number = generation := by
  dsimp only [Row.number, Journey.row]
  split_ifs with hzero
  · exact hzero.symm
  · rfl

/-- **Any batches**: events of a journey that are told in the order of their times and ids, split into successive calls that
may overlap and repeat each other, leave the journal that one call with all of them leaves. Each has a row there; the
generation grows by one with a promotion, and stays with any other event once there is a Champion. Handing over events
that are stored changes nothing, as are the milestones kept in memory after a save; with later ones they add those. -/
theorem numbered_in_any_batches (journey : Journey) (journal : Journal) (events : List Event)
    (h : journey.Chronological events) (hfresh : ∀ event ∈ events, journal.get? event.eventId = none) :
    ∃ bulk, journey.insertChampionEvents journal events = .ok bulk ∧
      (∀ calls, Successive events 0 calls → calls.foldlM journey.insertChampionEvents journal = .ok bulk) ∧
      (∀ stored : List Event, (∀ event ∈ stored, event ∈ events) → journey.insertChampionEvents bulk stored = .ok bulk) ∧
      (∀ older newer, events = older ++ newer → ∃ saved, journey.insertChampionEvents journal older = .ok saved ∧
        journey.insertChampionEvents saved (acknowledge older older) = .ok saved ∧
        journey.insertChampionEvents saved (acknowledge older older ++ newer) = .ok bulk) ∧
      (∀ event ∈ events, ∃ generation, bulk.get? event.eventId = some (journey.row generation event)) ∧
      ∀ older event next newer, events = older ++ event :: next :: newer → ∃ row row',
        bulk.get? event.eventId = some row ∧ bulk.get? next.eventId = some row' ∧ row.number ≤ row'.number ∧
        (next.milestone.kind = .promoted → row'.number = row.number + 1) ∧
        (next.milestone.kind ≠ .promoted → 0 < row.number → row'.number = row.number) := by
  have hbulk : ∀ event ∈ events, event ∈ events.take events.length := by simp
  refine ⟨journey.upTo journal events events.length, ?_, fun calls hcalls => Journey.foldlM_upTo h hfresh hcalls,
    fun stored hstored => ?_, fun older newer hsplit => ?_, fun event hmem => ?_, fun older event next newer hsplit => ?_⟩
  · exact Journey.insert_upTo h hfresh (Nat.zero_le _) hbulk fun event hmem => .inr (mem_of_mem_take hmem)
  · exact Journey.insert_upTo h hfresh le_rfl (fun event hmem => hbulk event (hstored event hmem)) fun event hmem => .inl hmem
  · have hfirst : events.take older.length = older := by rw [hsplit, take_left]
    have hkept : ∀ event ∈ acknowledge older older, event ∈ older := by
      intro event hmem
      rw [acknowledge, if_pos rfl] at hmem
      exact (Selection.rtake_sublist older _).subset hmem
    refine ⟨journey.upTo journal events older.length, ?_, ?_, ?_⟩
    · refine Journey.insert_upTo h hfresh (Nat.zero_le _) (fun event hmem => by rwa [hfirst]) fun event hmem => .inr ?_
      rwa [hfirst] at hmem
    · refine Journey.insert_upTo h hfresh le_rfl (fun event hmem => ?_) fun event hmem => .inl hmem
      rw [hfirst]
      exact hkept event hmem
    · refine Journey.insert_upTo h hfresh (by simp [hsplit]) (fun event hmem => hbulk event ?_) fun event hmem => ?_
      · rw [hsplit, mem_append]
        exact (mem_append.mp hmem).imp_left (hkept event)
      · rw [hfirst]
        rw [take_length, hsplit, mem_append] at hmem
        exact hmem.imp_right (mem_append_right _)
  · exact (Journey.get?_upTo h hfresh events.length hmem).1 (hbulk event hmem)
  · have hwritten : journey.upTo journal events events.length = (journey.written journal events).2 := by
      rw [Journey.upTo, take_length]
    have hnodup := h.nodup
    rw [hwritten, hsplit]
    rw [hsplit] at hnodup
    have hevent : (journey.written journal (older ++ event :: next :: newer)).2.get? event.eventId =
        some (journey.row (journey.written journal (older ++ [event])).1 event) := Journey.get?_written hnodup
    have hsplit' : older ++ event :: next :: newer = (older ++ [event]) ++ next :: newer := by simp
    rw [hsplit'] at hnodup
    have hnext : (journey.written journal ((older ++ [event]) ++ next :: newer)).2.get? next.eventId =
        some (journey.row (journey.written journal ((older ++ [event]) ++ [next])).1 next) := Journey.get?_written hnodup
    rw [← hsplit', Journey.written_concat] at hnext
    refine ⟨_, _, hevent, hnext, ?_⟩
    rw [Journey.number_row, Journey.number_row]
    refine ⟨le_nextGeneration _ _, fun hpromoted => ?_, fun hother hcrowned => nextGeneration_of_ne hother hcrowned⟩
    dsimp only [Journey.advance]
    rw [hpromoted, nextGeneration_promoted]

/-- The first Champion and its first defence, which the code sorts the other way round where they are of one instant. -/
def crowned : Event := ⟨"b", .entry, ⟨.firstChampion, "v1", none, "v1", 7, 0, 0, 0, none⟩⟩

def defended : Event := ⟨"a", .entry, ⟨.defended, "v2", some "v1", "v1", 7, 0, 0, 0, none⟩⟩

/-- They are in the order of their times. One call leaves the defence without a generation, two calls give it one. And
where an id stands for two events, one call stores none of them and the first of two calls stores the first. -/
theorem tied_milestones_numbered_apart :
    [crowned, defended].Pairwise (·.milestone.occurredAt ≤ ·.milestone.occurredAt) ∧
    ((Journey.insertChampionEvents ⟨"cohort", .entry⟩ Table.empty [crowned, defended]).toOption.bind
        fun journal => (journal.get? "a").map Row.generation) = some none ∧
    (([[crowned], [defended]].foldlM (Journey.insertChampionEvents ⟨"cohort", .entry⟩) Table.empty).toOption.bind
        fun journal => (journal.get? "a").map Row.generation) = some (some 1) ∧
    (Journey.insertChampionEvents ⟨"cohort", .entry⟩ Table.empty [crowned, { defended with eventId := "b" }]).isOk = false ∧
    (Journey.insertChampionEvents ⟨"cohort", .entry⟩ Table.empty [crowned]).isOk := by
  decide +kernel

def promoted : Event := ⟨"c", .entry, ⟨.promoted, "v2", some "v1", "v2", 8, 0, 0, 0, none⟩⟩

/-- A Champion and its successor, told at once and in calls that overlap: the generation grows by one. -/
theorem numbered_in_any_batches_sample : ∃ bulk,
    Journey.insertChampionEvents ⟨"cohort", .entry⟩ Table.empty [crowned, promoted] = .ok bulk ∧
    [[crowned], [crowned, promoted]].foldlM (Journey.insertChampionEvents ⟨"cohort", .entry⟩) Table.empty = .ok bulk ∧
    Journey.insertChampionEvents ⟨"cohort", .entry⟩ bulk [promoted] = .ok bulk ∧
    ∃ row row', bulk.get? "b" = some row ∧ bulk.get? "c" = some row' ∧ row'.number = row.number + 1 := by
  obtain ⟨bulk, hbulk, hcalls, hstored, -, -, hnumbers⟩ :=
    numbered_in_any_batches ⟨"cohort", .entry⟩ Table.empty [crowned, promoted]
      ⟨by decide +kernel, by decide +kernel, by decide +kernel⟩ (by decide +kernel)
  obtain ⟨row, row', hrow, hrow', -, hpromoted, -⟩ := hnumbers [] crowned promoted [] rfl
  refine ⟨bulk, hbulk, hcalls _ ?_, hstored _ (by simp), row, row', hrow, hrow', hpromoted rfl⟩
  exact ⟨1, by decide, by simp, by simp, 2, by decide, by simp, by simp, le_rfl⟩

end SignalArcade.ChampionJournal
