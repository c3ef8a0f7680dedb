import SignalArcade.Lib.Slices
import SignalArcade.Lib.Transaction
import SignalArcade.Paper.Models

/-!
# The appends of market events

`append_events` writes a batch of market events in one transaction and returns the ids that are new. A short batch is
written row by row, and a row is new when its statement says that it changed one row. A batch of 32 or more is written
64 rows a statement, and the new ones are those whose ids the statement returns, in whatever order it likes.
-/

namespace SignalArcade.EventAppends

open Prog Slices Transaction List
open Paper (Instant EventKind)

/-! ### Events and rows -/

/-- An event with its payload, as `append_events` stores it. -/
structure MarketEvent (π : Type) where
  eventId : String
  source : String
  kind : EventKind
  mint : Option String := none
  signature : Option String := none
  slot : Option ℕ := none
  blockTime : Option Instant := none
  receivedAt : Instant
  schemaVersion : ℤ := 1
  payload : π

/-- A row of `market_events`. -/
structure EventRow where
  eventId : String
  source : String
  kind : String
  mint : Option String
  signature : Option String
  slot : Option ℕ
  blockTime : Option String
  receivedAt : String
  schemaVersion : ℤ
  payloadJson : String

/-- The table `market_events`. -/
abbrev EventTable := Table String EventRow (·.eventId)

/-- Why a row cannot be written. -/
inductive RowError where
  /-- `json.dumps` objects to the payload. -/
  | notSerializable
  /-- SQLite objects to a value. -/
  | notBindable

/-- What the rows are made with. -/
structure Codec (π : Type) where
  isoformat : Instant → String
  dumps : π → Except RowError String
  bindable : EventRow → Bool

/-- What SQLite leaves open: the order of the rows of `RETURNING`. -/
structure Returning where
  fetchall : List String → List String
  perm : ∀ ids, (fetchall ids).Perm ids

section Definitions

variable {π : Type} (codec : Codec π) (returning : Returning)

/-- `event.kind.value`. -/
def kindValue : EventKind → String
  | .create => "create"
  | .trade => "trade"
  | .complete => "complete"
  | .migrate => "migrate"
  | .market => "market"
  | .health => "health"

/-- The row of an event whose payload has the text `payloadJson`. -/
def Codec.row (event : MarketEvent π) (payloadJson : String) : EventRow where
  eventId := event.eventId
  source := event.source
  kind := kindValue event.kind
  mint := event.mint
  signature := event.signature
  slot := event.slot
  blockTime := event.blockTime.map codec.isoformat
  receivedAt := codec.isoformat event.receivedAt
  schemaVersion := event.schemaVersion
  payloadJson := payloadJson

def Codec.values (event : MarketEvent π) : Except RowError EventRow :=
  (codec.dumps event.payload).map (codec.row event)

/-- The values of a row are bound. -/
def Codec.bind (row : EventRow) : Except RowError Unit := if codec.bindable row then .ok () else .error .notBindable

/-! ### Statements -/

/-- `INSERT OR IGNORE` of a row: the number of rows that changed, and the table. -/
def insertOrIgnore (row : EventRow) (events : EventTable) : ℕ × EventTable :=
  match events.insert? row with
  | some events => (1, events)
  | none => (0, events)

/-- `INSERT OR IGNORE` of several rows: the ids of those inserted, and the table. -/
def insertReturning : List EventRow → EventTable → List String × EventTable
  | [], events => ([], events)
  | row :: rows, events =>
    let one := insertOrIgnore row events
    let rest := insertReturning rows one.2
    (if one.1 = 1 then row.eventId :: rest.1 else rest.1, rest.2)

/-- The statement for one row, and its `rowcount`. -/
def executeInsert (row : EventRow) : Session RowError EventTable ℕ := do
  check (codec.bind row)
  change fun events => .ok (insertOrIgnore row events)

/-- The statement for several rows, and what is fetched of it. -/
def executeInsertReturning (rows : List EventRow) : Session RowError EventTable (List String) := do
  forM rows fun row => check (codec.bind row)
  let ids ← change fun events => .ok (insertReturning rows events)
  return returning.fetchall ids

/-! ### Appends -/

/-- One round of the loop over a short batch. -/
def appendRow (inserted : Finset String) (event : MarketEvent π) : Session RowError EventTable (Finset String) := do
  let values ← check (codec.values event)
  let rowcount ← executeInsert codec values
  return if rowcount = 1 then insert event.eventId inserted else inserted

/-- One round of the loop over a long batch. -/
def appendSlice (inserted : Finset String) (slice : List (MarketEvent π)) :
    Session RowError EventTable (Finset String) := do
  let values ← check (slice.mapM codec.values)
  let fetched ← executeInsertReturning codec returning values
  return inserted ∪ fetched.toFinset

def appendEventsBulk (events : List (MarketEvent π)) : Session RowError EventTable (Finset String) :=
  withConnection ((slices 64 events).foldlM (appendSlice codec returning) ∅)

/-- From 32 events on in bulk. -/
def appendEvents (events : List (MarketEvent π)) : Session RowError EventTable (Finset String) :=
  if 32 ≤ events.length then appendEventsBulk codec returning events
  else withConnection (events.foldlM (appendRow codec) ∅)

def appendEvent (event : MarketEvent π) : Session RowError EventTable Bool := do
  let inserted ← appendEvents codec returning [event]
  return event.eventId ∈ inserted

/-- The events are appended one by one, and the ids of the new ones are gathered. -/
def appendEach (events : List (MarketEvent π)) : Session RowError EventTable (Finset String) :=
  events.foldlM (fun inserted event => do
    let new ← appendEvent codec returning event
    return if new then insert event.eventId inserted else inserted) ∅

end Definitions

/-! ### What an append comes to -/

section Appends

variable {π : Type} {codec : Codec π} {returning : Returning}

def Codec.written (codec : Codec π) (event : MarketEvent π) : EventRow :=
  (codec.values event).toOption.getD (codec.row event "")

/-- The row of an event can be written. -/
def Codec.Fits (codec : Codec π) (event : MarketEvent π) : Prop :=
  codec.values event = .ok (codec.written event) ∧ codec.bind (codec.written event) = .ok ()

variable {event : MarketEvent π}

theorem Codec.values_eq {row : EventRow} (h : codec.values event = .ok row) :
    row = codec.written event := by
  rw [written, h]
  rfl

theorem Codec.eventId_written (event : MarketEvent π) : (codec.written event).eventId = event.eventId := by
  unfold written values
  cases codec.dumps event.payload <;> rfl

variable {slice : List (MarketEvent π)} {inserted inserted' : Finset String}

theorem Codec.mapM_values {rows : List EventRow} :
    slice.mapM codec.values = .ok rows ↔
      (∀ event ∈ slice, codec.values event = .ok (codec.written event)) ∧ rows = slice.map codec.written := by
  induction slice generalizing rows with
  | nil => simp [pure, Except.pure, eq_comm]
  | cons event slice ih =>
    rw [mapM_cons]
    cases hvalues : codec.values event with
    | error e => simp [Bind.bind, Except.bind, hvalues]
    | ok row =>
      obtain rfl := values_eq hvalues
      cases hrest : slice.mapM codec.values with
      | error e =>
        have hnot : ¬ ∀ event ∈ slice, codec.values event = .ok (codec.written event) := by
          intro hall
          rw [ih.mpr ⟨hall, rfl⟩] at hrest
          cases hrest
        simp [Bind.bind, Except.bind, hnot]
      | ok rest =>
        obtain ⟨hall, rfl⟩ := ih.mp hrest
        have hcons : ∀ e ∈ event :: slice, codec.values e = .ok (codec.written e) :=
          forall_mem_cons.mpr ⟨hvalues, hall⟩
        simp only [Bind.bind, Except.bind, pure, Except.pure, Except.ok.injEq, map_cons]
        exact ⟨fun h => ⟨hcons, h.symm⟩, fun h => h.2.symm⟩

/-- A row is appended, to the new ids and to the table. -/
def addRow (state : Finset String × EventTable) (row : EventRow) : Finset String × EventTable :=
  ((if (insertOrIgnore row state.2).1 = 1 then insert row.eventId state.1 else state.1), (insertOrIgnore row state.2).2)

theorem foldl_addRow (rows : List EventRow) (inserted : Finset String) (events : EventTable) :
    rows.foldl addRow (inserted, events) =
      (inserted ∪ (insertReturning rows events).1.toFinset, (insertReturning rows events).2) := by
  induction rows generalizing inserted events with
  | nil => simp [insertReturning]
  | cons row rows ih =>
    rw [foldl_cons, addRow, ih, insertReturning]
    by_cases hnew : (insertOrIgnore row events).1 = 1 <;> simp [hnew]

theorem toFinset_fetchall (ids : List String) : (returning.fetchall ids).toFinset = ids.toFinset :=
  toFinset_eq_of_perm _ _ (returning.perm ids)

/-- The rows of events that were appended, and that they can be written. -/
def Appended (codec : Codec π) (events : EventTable) (done : List (MarketEvent π)) (inserted : Finset String)
    (events' : EventTable) : Prop :=
  (∀ event ∈ done, codec.Fits event) ∧ (inserted, events') = (done.map codec.written).foldl addRow (∅, events)

theorem Appended.nil (events : EventTable) : Appended codec events [] ∅ events := ⟨by simp, rfl⟩

theorem Appended.append {events events₁ events' : EventTable} {done next : List (MarketEvent π)}
    (h : Appended codec events done inserted events₁)
    (hfits : ∀ event ∈ next, codec.Fits event)
    (hnext : (inserted', events') = (next.map codec.written).foldl addRow (inserted, events₁)) :
    Appended codec events (done ++ next) inserted' events' := by
  refine ⟨forall_mem_append.mpr ⟨h.1, hfits⟩, ?_⟩
  rw [map_append, foldl_append, ← h.2, hnext]

theorem returns_appendRow {events events' : EventTable}
    (h : Returns (appendRow codec inserted event) events inserted' events') :
    codec.Fits event ∧ (inserted', events') = addRow (inserted, events) (codec.written event) := by
  obtain ⟨row, hvalues, h⟩ := h.of_check_bind
  obtain rfl := Codec.values_eq hvalues
  obtain ⟨rowcount, events₁, hexecute, h⟩ := h.of_bind
  obtain ⟨_, hbind, hchange⟩ := hexecute.of_check_bind
  have hinsert := hchange.of_change
  simp only [Except.ok.injEq] at hinsert
  obtain ⟨rfl, rfl⟩ := h.of_pure
  refine ⟨⟨hvalues, hbind⟩, ?_⟩
  rw [addRow, hinsert, Codec.eventId_written]

theorem returns_appendSlice {events events' : EventTable}
    (h : Returns (appendSlice codec returning inserted slice) events inserted' events') :
    (∀ event ∈ slice, codec.Fits event) ∧
      (inserted', events') = (slice.map codec.written).foldl addRow (inserted, events) := by
  obtain ⟨rows, hmapM, h⟩ := h.of_check_bind
  obtain ⟨hvalues, rfl⟩ := Codec.mapM_values.mp hmapM
  obtain ⟨fetched, events₁, hexecute, h⟩ := h.of_bind
  obtain ⟨rfl, rfl⟩ := h.of_pure
  obtain ⟨_, events₂, hloop, hexecute⟩ := hexecute.of_bind
  obtain ⟨hbind, rfl⟩ := Returns.of_forM
    (I := fun done d => (∀ row ∈ done, codec.bind row = .ok ()) ∧ events = d)
    (fun done row d d' _ hI hrow => by
      obtain ⟨hbind, rfl⟩ := hrow.of_check
      exact ⟨forall_mem_append.mpr ⟨hI.1, by simpa using hbind⟩, hI.2⟩)
    ⟨by simp, rfl⟩ hloop
  obtain ⟨ids, events₃, hchange, hfetch⟩ := hexecute.of_bind
  obtain ⟨rfl, rfl⟩ := hfetch.of_pure
  have hinsert := hchange.of_change
  simp only [Except.ok.injEq] at hinsert
  refine ⟨fun event hevent => ⟨hvalues event hevent, hbind _ (mem_map_of_mem hevent)⟩, ?_⟩
  rw [foldl_addRow, hinsert, toFinset_fetchall]

/-! ### Failures -/

theorem keeps_appendRow (inserted : Finset String) (event : MarketEvent π) :
    Keeps false (appendRow codec inserted event) :=
  (Keeps.check _).bind fun _ => ((Keeps.check _).bind fun _ => Keeps.change _).bind fun _ => Keeps.pure _

theorem keeps_appendSlice (inserted : Finset String) (slice : List (MarketEvent π)) :
    Keeps false (appendSlice codec returning inserted slice) :=
  (Keeps.check _).bind fun _ =>
    ((Keeps.forM (fun _ => Keeps.check _) _).bind fun _ => (Keeps.change _).bind fun _ => Keeps.pure _).bind
      fun _ => Keeps.pure _

theorem appendEvents_wp (batch : List (MarketEvent π)) (events : EventTable) (faults : List Bool) :
    Wp (appendEvents codec returning batch) (fun inserted c => Appended codec events batch inserted c.data ∧ c.saved = none)
      (fun _ c => c.data = events ∧ c.saved = none) ⟨events, none, faults⟩ := by
  unfold appendEvents
  rw [wp_ite]
  constructor
  · intro _
    refine (withConnection_wp (Keeps.foldlM keeps_appendSlice _ _) rfl).mono (fun inserted c h => ⟨?_, h.2⟩) fun _ _ h => h
    have hslices := Returns.of_foldlM (I := fun done inserted d => Appended codec events done.flatten inserted d)
      (fun done slice inserted d inserted' d' hI hslice => by
        obtain ⟨hfits, hnext⟩ := returns_appendSlice hslice
        simpa using hI.append hfits hnext)
      (Appended.nil events) h.1
    rwa [flatten_slices (by decide)] at hslices
  · intro _
    refine (withConnection_wp (Keeps.foldlM keeps_appendRow _ _) rfl).mono (fun inserted c h => ⟨?_, h.2⟩) fun _ _ h => h
    refine Returns.of_foldlM (I := fun done inserted d => Appended codec events done inserted d)
      (fun done event inserted d inserted' d' hI hrow => ?_) (Appended.nil events) h.1
    obtain ⟨hfits, hnext⟩ := returns_appendRow hrow
    exact hI.append (by simpa using hfits) hnext

/-! ### Without a failure -/

theorem succeeds_appendRow (h : codec.Fits event) (inserted : Finset String) (events : EventTable) :
    Succeeds (appendRow codec inserted event) events (addRow (inserted, events) (codec.written event)).1
      (addRow (inserted, events) (codec.written event)).2 := by
  refine (Succeeds.check h.1).bind (((Succeeds.check h.2).bind (Succeeds.change rfl)).bind ?_)
  rw [addRow, Codec.eventId_written]
  exact Succeeds.pure _

theorem succeeds_executeInsertReturning {rows : List EventRow} (h : ∀ row ∈ rows, codec.bind row = .ok ())
    (events : EventTable) :
    Succeeds (executeInsertReturning codec returning rows) events (returning.fetchall (insertReturning rows events).1)
      (insertReturning rows events).2 := by
  refine (Succeeds.forM_check h).bind ?_
  have hchange : Succeeds (change fun events => .ok (insertReturning rows events) : Session RowError EventTable _) events
      (insertReturning rows events).1 (insertReturning rows events).2 := Succeeds.change rfl
  exact hchange.bind (Succeeds.pure _)

theorem succeeds_appendSlice (h : ∀ event ∈ slice, codec.Fits event)
    (inserted : Finset String) (events : EventTable) :
    Succeeds (appendSlice codec returning inserted slice) events
      ((slice.map codec.written).foldl addRow (inserted, events)).1
      ((slice.map codec.written).foldl addRow (inserted, events)).2 := by
  have hmapM : slice.mapM codec.values = .ok (slice.map codec.written) :=
    Codec.mapM_values.mpr ⟨fun event hevent => (h event hevent).1, rfl⟩
  have hbind : ∀ row ∈ slice.map codec.written, codec.bind row = .ok () := by
    intro row hrow
    obtain ⟨event, hevent, rfl⟩ := mem_map.mp hrow
    exact (h event hevent).2
  rw [foldl_addRow]
  refine (Succeeds.check hmapM).bind ((succeeds_executeInsertReturning hbind events).bind ?_)
  rw [toFinset_fetchall]
  exact Succeeds.pure _

/-- Both ways leave the same rows. -/
theorem appendEvents_succeeds {batch : List (MarketEvent π)} (h : ∀ event ∈ batch, codec.Fits event)
    (events : EventTable) (saved : Option EventTable) :
    appendEvents codec returning batch ⟨events, saved, []⟩ =
      .ok ((batch.map codec.written).foldl addRow (∅, events)).1
        ⟨((batch.map codec.written).foldl addRow (∅, events)).2, none, []⟩ := by
  unfold appendEvents
  split
  · refine Succeeds.withConnection ?_ saved
    have hslices : Succeeds ((slices 64 batch).foldlM (appendSlice codec returning) ∅) events
        ((slices 64 batch).foldl (fun state slice => (slice.map codec.written).foldl addRow state) (∅, events)).1
        ((slices 64 batch).foldl (fun state slice => (slice.map codec.written).foldl addRow state) (∅, events)).2 :=
      Succeeds.foldlM (fun slice hslice => succeeds_appendSlice fun event hevent =>
        h event ((mem_slices (by decide)).mp ⟨slice, hslice, hevent⟩)) ∅ events
    have hflatten : (slices 64 batch).foldl (fun state slice => (slice.map codec.written).foldl addRow state) (∅, events) =
        (batch.map codec.written).foldl addRow (∅, events) := by
      simp only [foldl_map]
      exact foldl_slices (by decide) (fun state event => addRow state (codec.written event)) _ batch
    rwa [hflatten] at hslices
  · refine Succeeds.withConnection ?_ saved
    rw [foldl_map]
    exact Succeeds.foldlM (fun event hevent => succeeds_appendRow (h event hevent)) ∅ events

/-! ### One by one -/

theorem succeeds_appendEvent (h : codec.Fits event) (events : EventTable) :
    Succeeds (appendEvent codec returning event) events
      (decide ((insertOrIgnore (codec.written event) events).1 = 1)) (insertOrIgnore (codec.written event) events).2 := by
  have hone : Succeeds (appendEvents codec returning [event]) events (addRow (∅, events) (codec.written event)).1
      (insertOrIgnore (codec.written event) events).2 :=
    fun saved => ⟨none, appendEvents_succeeds (by simpa using h) events saved⟩
  refine hone.bind ?_
  have hnew : decide (event.eventId ∈ (addRow (∅, events) (codec.written event)).1) =
      decide ((insertOrIgnore (codec.written event) events).1 = 1) := by
    rw [addRow, Codec.eventId_written]
    split <;> simp [*]
  rw [hnew]
  exact Succeeds.pure _

theorem succeeds_appendEach {batch : List (MarketEvent π)} (h : ∀ event ∈ batch, codec.Fits event) (events : EventTable) :
    Succeeds (appendEach codec returning batch) events ((batch.map codec.written).foldl addRow (∅, events)).1
      ((batch.map codec.written).foldl addRow (∅, events)).2 := by
  rw [foldl_map]
  refine Succeeds.foldlM (fun event hevent inserted events => ?_) ∅ events
  refine (succeeds_appendEvent (h event hevent) events).bind ?_
  rw [addRow, Codec.eventId_written]
  simp only [decide_eq_true_eq]
  exact Succeeds.pure _

/-- **A batch is appended like its events one by one.** A batch that comes through returns the set of new ids, and leaves
the table, that its events return and leave one by one in their order, each in a transaction of its own. One that
raises, because of a failing statement or a row that cannot be written, leaves the table as it was. -/
theorem append_events_each (codec : Codec π) (returning : Returning) (batch : List (MarketEvent π)) (events : EventTable)
    (faults : List Bool) :
    Wp (appendEvents codec returning batch)
        (fun inserted c => c.saved = none ∧ (∀ event ∈ batch, codec.Fits event) ∧
          ∃ each, appendEach codec returning batch ⟨events, none, []⟩ = .ok inserted each ∧ each.data = c.data)
        (fun _ c => c.saved = none ∧ c.data = events) ⟨events, none, faults⟩ ∧
      ((∀ event ∈ batch, codec.Fits event) →
        ∃ inserted c, appendEvents codec returning batch ⟨events, none, []⟩ = .ok inserted c) := by
  constructor
  · refine (appendEvents_wp batch events faults).mono (fun inserted c h => ?_) fun _ _ h => ⟨h.2, h.1⟩
    obtain ⟨⟨hfits, hrows⟩, hsaved⟩ := h
    have hall : Succeeds (appendEach codec returning batch) events ((batch.map codec.written).foldl addRow (∅, events)).1
        ((batch.map codec.written).foldl addRow (∅, events)).2 := succeeds_appendEach hfits events
    obtain ⟨saved, heach⟩ := hall none
    rw [← hrows] at heach
    exact ⟨hsaved, hfits, _, heach, rfl⟩
  · intro hfits
    exact ⟨_, _, appendEvents_succeeds hfits events none⟩

end Appends

end SignalArcade.EventAppends
