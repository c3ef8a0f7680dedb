import SignalArcade.Lib.ClockTexts
import SignalArcade.Lib.Runs
import Mathlib.Data.List.Nodup
import Mathlib.Data.String.Basic

/-!
# Operational incidents

The table `operational_incidents` keeps what went wrong. An incident of `record_incident` stays open until
`resolve_incidents` is called for its scope, and further calls of the same scope and title count into its row. The rows
of `record_transient_incident` are resolved from the start, and one is written again as long as each episode follows the
one before it within `coalesce_seconds`.
-/

namespace SignalArcade.Incidents

open Clocks Runs List

/-! ### Rows -/

/-- A row of `operational_incidents`. -/
structure OperationalIncident (V : Type) where
  incidentId : String
  scope : String
  severity : String
  title : String
  detail : String
  firstSeenAt : Clock
  lastSeenAt : Clock
  occurrences : ℕ
  resolvedAt : Option Clock
  metadata : List (String × V)

/-- `text[:count]`. -/
def upTo (count : ℕ) (text : String) : String := String.ofList (text.toList.take count)

theorem upTo_eq {count : ℕ} {text : String} (h : text.length ≤ count) : upTo count text = text := by
  rw [upTo, take_of_length_le (by rwa [String.length_toList]), String.ofList_toList]

/-- `metadata or otherwise`. -/
def metadataOr {V : Type} (metadata : Option (List (String × V))) (otherwise : List (String × V)) : List (String × V) :=
  match metadata with
  | none => otherwise
  | some [] => otherwise
  | some given => given

/-- `ORDER BY last_seen_at DESC LIMIT 1`, where the texts are compared. Which row comes first of several with
the greatest text is left to SQLite. -/
structure LastSeen (V : Type) where
  fetchone : List (OperationalIncident V) → Option (OperationalIncident V)
  fetchone_eq_none : ∀ {rows}, fetchone rows = none → rows = []
  fetchone_mem : ∀ {rows row}, fetchone rows = some row → row ∈ rows
  fetchone_last : ∀ {rows row other}, fetchone rows = some row → other ∈ rows →
    ¬ row.lastSeenAt.isoformat < other.lastSeenAt.isoformat

/-- The first of the rows with the greatest text. -/
def LastSeen.fetchFirst {V : Type} : List (OperationalIncident V) → Option (OperationalIncident V)
  | [] => none
  | row :: rows =>
    match fetchFirst rows with
    | none => some row
    | some other => if row.lastSeenAt.isoformat < other.lastSeenAt.isoformat then some other else some row

theorem LastSeen.fetchFirst_eq_none {V : Type} {rows : List (OperationalIncident V)} (h : fetchFirst rows = none) :
    rows = [] := by
  cases rows with
  | nil => rfl
  | cons row rows =>
    rw [fetchFirst] at h
    split at h
    · cases h
    · split at h <;> cases h

theorem LastSeen.fetchFirst_spec {V : Type} {rows : List (OperationalIncident V)} {row : OperationalIncident V}
    (h : fetchFirst rows = some row) :
    row ∈ rows ∧ ∀ other ∈ rows, ¬ row.lastSeenAt.isoformat < other.lastSeenAt.isoformat := by
  induction rows generalizing row with
  | nil => cases h
  | cons first rows ih =>
    rw [fetchFirst] at h
    split at h
    next hnone =>
      cases h
      obtain rfl := fetchFirst_eq_none hnone
      simp
    next found hfound =>
      obtain ⟨hmem, hlast⟩ := ih hfound
      split at h
      next hlt =>
        cases h
        refine ⟨mem_cons_of_mem _ hmem, forall_mem_cons.mpr ⟨lt_asymm hlt, hlast⟩⟩
      next hge =>
        cases h
        refine ⟨mem_cons_self, forall_mem_cons.mpr ⟨lt_irrefl _, fun other hother hlt => ?_⟩⟩
        exact hlast other hother ((not_lt.mp hge).trans_lt hlt)

/-- The first of several rows that were seen last. -/
def LastSeen.first {V : Type} : LastSeen V where
  fetchone := fetchFirst
  fetchone_eq_none := fetchFirst_eq_none
  fetchone_mem h := (fetchFirst_spec h).1
  fetchone_last h hmem := (fetchFirst_spec h).2 _ hmem

/-- What a call raises. -/
inductive IncidentError where
  /-- `ValueError`. -/
  | negativeCoalesceSeconds
  /-- `OverflowError`: the cutoff is before the year 1. -/
  | dateOutOfRange
  /-- `IntegrityError`: the id is taken. -/
  | idTaken

variable {V : Type}

/-- The rows, one for each id. -/
abbrev IncidentTable (V : Type) := List (OperationalIncident V)

/-- `INSERT INTO operational_incidents`. -/
def insert (incident : OperationalIncident V) (rows : IncidentTable V) :
    Except IncidentError (OperationalIncident V × IncidentTable V) :=
  if ∃ row ∈ rows, row.incidentId = incident.incidentId then .error .idTaken else .ok (incident, rows ++ [incident])

/-- `UPDATE operational_incidents ... WHERE incident_id=?`. -/
def update (incident : OperationalIncident V) (rows : IncidentTable V) : IncidentTable V :=
  rows.map fun row => if row.incidentId = incident.incidentId then incident else row

/-! ### The operations -/

/-- What the caller tells of an incident, and the id that `uuid4` makes for a new row. -/
structure Report (V : Type) where
  newId : String
  scope : String
  severity : String
  title : String
  detail : String
  metadata : Option (List (String × V))
  observedAt : Clock

variable (lastSeen : LastSeen V)

/-- The scope and the title as they are stored. -/
def Report.key (report : Report V) : String × String := (upTo 80 report.scope, upTo 160 report.title)

def openRow (report : Report V) (rows : IncidentTable V) : Option (OperationalIncident V) :=
  lastSeen.fetchone <|
    rows.filter fun row => row.scope = report.scope ∧ row.title = report.title ∧ row.resolvedAt.isNone

def recordIncident (report : Report V) (rows : IncidentTable V) :
    Except IncidentError (OperationalIncident V × IncidentTable V) :=
  match openRow lastSeen report rows with
  | none =>
    insert
      { incidentId := report.newId
        scope := upTo 80 report.scope
        severity := upTo 20 report.severity
        title := upTo 160 report.title
        detail := upTo 500 report.detail
        firstSeenAt := report.observedAt
        lastSeenAt := report.observedAt
        occurrences := 1
        resolvedAt := none
        metadata := metadataOr report.metadata [] } rows
  | some previous =>
    let incident :=
      { previous with
        severity := upTo 20 report.severity
        detail := upTo 500 report.detail
        lastSeenAt := report.observedAt
        occurrences := previous.occurrences + 1
        metadata := metadataOr report.metadata previous.metadata }
    .ok (incident, update incident rows)

def resolvedRow (key : String × String) (rows : IncidentTable V) : Option (OperationalIncident V) :=
  lastSeen.fetchone <| rows.filter fun row => row.scope = key.1 ∧ row.title = key.2 ∧ row.resolvedAt.isSome

def transientIncident (report : Report V) : OperationalIncident V where
  incidentId := report.newId
  scope := upTo 80 report.scope
  severity := upTo 20 report.severity
  title := upTo 160 report.title
  detail := upTo 500 report.detail
  firstSeenAt := report.observedAt
  lastSeenAt := report.observedAt
  occurrences := 1
  resolvedAt := some report.observedAt
  metadata := metadataOr report.metadata []

def recordTransientIncident (report : Report V) (coalesceSeconds : ℤ) (rows : IncidentTable V) :
    Except IncidentError (OperationalIncident V × IncidentTable V) :=
  if coalesceSeconds < 0 then .error .negativeCoalesceSeconds
  else if report.observedAt.wall - coalesceSeconds * second < firstWall then .error .dateOutOfRange
  else
    match resolvedRow lastSeen report.key rows with
    | none => insert (transientIncident report) rows
    | some previous =>
      if report.observedAt.instant - coalesceSeconds * second ≤ previous.lastSeenAt.instant then
        let incident :=
          { previous with
            severity := upTo 20 report.severity
            detail := upTo 500 report.detail
            lastSeenAt := report.observedAt
            occurrences := previous.occurrences + 1
            resolvedAt := some report.observedAt
            metadata := metadataOr report.metadata previous.metadata }
        .ok (incident, update incident rows)
      else
        insert (transientIncident report) rows

/-- A row as `resolve_incidents` leaves it. -/
def resolvedBy (scope : String) (resolvedAt : Clock) (row : OperationalIncident V) : OperationalIncident V :=
  if row.scope = scope ∧ row.resolvedAt.isNone then { row with resolvedAt := some resolvedAt } else row

/-- `resolve_incidents`, which returns how many it resolved. -/
def resolveIncidents (scope : String) (resolvedAt : Clock) (rows : IncidentTable V) : ℕ × IncidentTable V :=
  ((rows.filter fun row => row.scope = scope ∧ row.resolvedAt.isNone).length, rows.map (resolvedBy scope resolvedAt))

/-! ### Calls and what they were told -/

/-- A call that changes the incidents. -/
inductive Call (V : Type) where
  | record (report : Report V)
  | transient (report : Report V) (coalesceSeconds : ℤ)
  | resolve (scope : String) (resolvedAt : Clock)

/-- What a call of the two that record was told, and the row that it returned. -/
inductive Entry where
  | recorded (scope title : String) (incidentId : String)
  | episode (key : String × String) (observedAt : Clock) (coalesceSeconds : ℤ) (incidentId : String)

def Entry.incidentId : Entry → String
  | .recorded _ _ incidentId => incidentId
  | .episode _ _ _ incidentId => incidentId

/-- The table, and all that was recorded since it was empty. -/
structure World (V : Type) where
  rows : IncidentTable V := []
  log : List Entry := []

/-- A call that raises leaves the table as it was. -/
def World.attempt (world : World V) (entry : String → Entry)
    (result : Except IncidentError (OperationalIncident V × IncidentTable V)) : World V :=
  match result with
  | .ok (incident, rows) => { rows, log := world.log ++ [entry incident.incidentId] }
  | .error _ => world

def World.step (world : World V) : Call V → World V
  | .record report =>
    world.attempt (.recorded report.scope report.title) (recordIncident lastSeen report world.rows)
  | .transient report coalesceSeconds =>
    world.attempt (.episode report.key report.observedAt coalesceSeconds)
      (recordTransientIncident lastSeen report coalesceSeconds world.rows)
  | .resolve scope resolvedAt => { world with rows := (resolveIncidents scope resolvedAt world.rows).2 }

/-- The world after some calls on an empty table. -/
def World.after (calls : List (Call V)) : World V := run (World.step lastSeen) {} calls

/-- An ordinary incident is stored under a scope and a title exactly when it is looked up by them. -/
def Call.Fits (key : String × String) : Call V → Prop
  | .record report => report.key = key ↔ (report.scope, report.title) = key
  | _ => True

theorem Call.fits_of_length {report : Report V} (hscope : report.scope.length ≤ 80) (htitle : report.title.length ≤ 160)
    (key : String × String) : (Call.record report).Fits key := by
  have hkey : report.key = (report.scope, report.title) := Prod.ext (upTo_eq hscope) (upTo_eq htitle)
  rw [Call.Fits, hkey]

/-- The scope and the title that a row is stored under. -/
def OperationalIncident.key (row : OperationalIncident V) : String × String := (row.scope, row.title)

/-- The open rows of a scope and a title. -/
def openRows (key : String × String) (rows : IncidentTable V) : IncidentTable V :=
  rows.filter fun row => row.key = key ∧ row.resolvedAt.isNone

/-- Whether `record_incident` was told of a scope and a title. -/
def Entry.records (key : String × String) : Entry → Bool
  | .recorded scope title _ => (scope, title) = key
  | .episode .. => false

/-- How often `record_incident` was told of a scope and a title since a row was opened. -/
def recordsSince (incidentId : String) (key : String × String) (log : List Entry) : ℕ :=
  (log.dropWhile fun entry => entry.incidentId ≠ incidentId).countP (Entry.records key)

/-- A report of a transient incident, as far as its row depends on it. -/
structure Episode where
  observedAt : Clock
  coalesceSeconds : ℤ
  incidentId : String

/-- The transient episodes of a scope and a title, from the first on. -/
def episodes (key : String × String) (log : List Entry) : List Episode :=
  log.filterMap fun
    | .recorded .. => none
    | .episode key' observedAt coalesceSeconds incidentId =>
      if key' = key then some { observedAt, coalesceSeconds, incidentId } else none

/-- An episode follows another one soon enough. -/
def Episode.Follows (previous next : Episode) : Prop :=
  next.observedAt.instant - previous.observedAt.instant ≤ next.coalesceSeconds * second

instance (previous next : Episode) : Decidable (previous.Follows next) := inferInstanceAs (Decidable (_ ≤ _))

/-- Episodes at non-decreasing instants, whose clocks are ordered by their texts too. -/
def InOrder (episodes : List Episode) : Prop :=
  episodes.Pairwise fun previous next =>
    previous.observedAt.instant ≤ next.observedAt.instant ∧
      (previous.observedAt.instant < next.observedAt.instant →
        previous.observedAt.isoformat < next.observedAt.isoformat)

/-! ### What a call does to the rows -/

variable {rows rows' : IncidentTable V} {incident row : OperationalIncident V} {lastSeen} {key : String × String}

/-- An incident is written: in a new row, or over the row that it continues. -/
inductive Written (rows : IncidentTable V) (incident : OperationalIncident V) : IncidentTable V → Prop where
  | inserted (fresh : ∀ row ∈ rows, row.incidentId ≠ incident.incidentId) : Written rows incident (rows ++ [incident])
  | updated (previous : OperationalIncident V) (mem : previous ∈ rows) (id : incident.incidentId = previous.incidentId)
    (scope : incident.scope = previous.scope) (title : incident.title = previous.title) :
    Written rows incident (update incident rows)

theorem mem_update : row ∈ update incident rows ↔
    (row = incident ∧ ∃ row ∈ rows, row.incidentId = incident.incidentId) ∨
      row ∈ rows ∧ row.incidentId ≠ incident.incidentId := by
  unfold update
  grind

theorem insert_eq_ok {result : OperationalIncident V × IncidentTable V} (h : insert incident rows = .ok result) :
    result = (incident, rows ++ [incident]) ∧ ∀ row ∈ rows, row.incidentId ≠ incident.incidentId := by
  unfold insert at h
  split at h
  · cases h
  next hfresh => exact ⟨by cases h; rfl, by simpa using hfresh⟩

/-- The other rows stay as they are. -/
theorem Written.mem (h : Written rows incident rows') :
    row ∈ rows' ↔ row = incident ∨ row ∈ rows ∧ row.incidentId ≠ incident.incidentId := by
  cases h with
  | inserted fresh =>
    rw [mem_append, mem_singleton]
    grind
  | updated previous mem id =>
    rw [mem_update]
    grind

theorem mem_openRows :
    row ∈ openRows key rows ↔ row ∈ rows ∧ row.key = key ∧ row.resolvedAt = none := by
  simp [openRows]

theorem filter_eq_openRows (scope title : String) (rows : IncidentTable V) :
    (rows.filter fun row => row.scope = scope ∧ row.title = title ∧ row.resolvedAt.isNone) =
      openRows (scope, title) rows := by
  simp [openRows, OperationalIncident.key, and_assoc]

/-- The row of an incident that is recorded is the first one of its scope and title that is open, or a new one. -/
theorem recordIncident_spec {report : Report V} (h : recordIncident lastSeen report rows = .ok (incident, rows')) :
    Written rows incident rows' ∧ incident.resolvedAt = none ∧
      (openRows (report.scope, report.title) rows = [] ∧ (∀ row ∈ rows, row.incidentId ≠ incident.incidentId) ∧
          incident.key = report.key ∧ incident.occurrences = 1 ∨
        ∃ previous ∈ openRows (report.scope, report.title) rows, incident.incidentId = previous.incidentId ∧
          incident.key = (report.scope, report.title) ∧ incident.occurrences = previous.occurrences + 1) := by
  unfold recordIncident at h
  split at h
  next hnone =>
    obtain ⟨hresult, hfresh⟩ := insert_eq_ok h
    obtain ⟨rfl, rfl⟩ := Prod.mk.inj hresult
    rw [openRow, filter_eq_openRows] at hnone
    exact ⟨.inserted hfresh, rfl, Or.inl ⟨lastSeen.fetchone_eq_none hnone, hfresh, rfl, rfl⟩⟩
  next previous hprevious =>
    rw [openRow, filter_eq_openRows] at hprevious
    have hmem := lastSeen.fetchone_mem hprevious
    obtain ⟨hrow, hkey, hopen⟩ := mem_openRows.mp hmem
    cases h
    exact ⟨.updated previous hrow rfl rfl rfl, hopen, Or.inr ⟨previous, hmem, rfl, hkey, rfl⟩⟩

theorem mem_resolvedRow (h : row ∈ resolvedRow lastSeen key rows) :
    row ∈ rows ∧ row.key = key := by
  have hrow := mem_filter.mp (lastSeen.fetchone_mem h)
  simp only [Bool.decide_and, Bool.and_eq_true, decide_eq_true_eq] at hrow
  exact ⟨hrow.1, Prod.ext hrow.2.1 hrow.2.2.1⟩

theorem mem_filter_resolvedRow (hrow : row ∈ rows) (hkey : row.key = key) (hresolved : row.resolvedAt ≠ none) :
    row ∈ rows.filter fun row => row.scope = key.1 ∧ row.title = key.2 ∧ row.resolvedAt.isSome := by
  subst hkey
  simp [hrow, OperationalIncident.key, Option.isSome_iff_ne_none.mpr hresolved]

/-- No resolved row of its scope and title has a greater text than the row that is found. -/
theorem fetched_last {other : OperationalIncident V}
    (h : row ∈ resolvedRow lastSeen key rows) (hother : other ∈ rows) (hkey : other.key = key)
    (hresolved : other.resolvedAt ≠ none) : ¬ row.lastSeenAt.isoformat < other.lastSeenAt.isoformat :=
  lastSeen.fetchone_last h (mem_filter_resolvedRow hother hkey hresolved)

theorem exists_mem_resolvedRow (hrow : row ∈ rows) (hkey : row.key = key)
    (hresolved : row.resolvedAt ≠ none) : ∃ found, found ∈ resolvedRow lastSeen key rows := by
  cases hfound : resolvedRow lastSeen key rows with
  | some found => exact ⟨found, rfl⟩
  | none =>
    have hmem := mem_filter_resolvedRow hrow hkey hresolved
    rw [lastSeen.fetchone_eq_none hfound] at hmem
    cases hmem

/-- The row of a transient incident is the one of its kind that was seen last, if that is not too long ago, or a
new one. -/
theorem recordTransientIncident_spec {report : Report V} {coalesceSeconds : ℤ}
    (h : recordTransientIncident lastSeen report coalesceSeconds rows = .ok (incident, rows')) :
    Written rows incident rows' ∧ incident.resolvedAt.isSome ∧ incident.key = report.key ∧
      incident.lastSeenAt = report.observedAt ∧ 0 ≤ coalesceSeconds ∧
      ((∀ previous ∈ resolvedRow lastSeen report.key rows,
          coalesceSeconds * second < report.observedAt.instant - previous.lastSeenAt.instant) ∧
        (∀ row ∈ rows, row.incidentId ≠ incident.incidentId) ∨
      ∃ previous ∈ resolvedRow lastSeen report.key rows, incident.incidentId = previous.incidentId ∧
        report.observedAt.instant - previous.lastSeenAt.instant ≤ coalesceSeconds * second) := by
  unfold recordTransientIncident at h
  split at h
  · cases h
  next hsign =>
  split at h
  · cases h
  split at h
  next hnone =>
    obtain ⟨hresult, hfresh⟩ := insert_eq_ok h
    obtain ⟨rfl, rfl⟩ := Prod.mk.inj hresult
    exact ⟨.inserted hfresh, rfl, rfl, rfl, not_lt.mp hsign, Or.inl ⟨by simp [hnone], hfresh⟩⟩
  next previous hprevious =>
    obtain ⟨hmem, hkey⟩ := mem_resolvedRow hprevious
    split at h
    next hsoon =>
      cases h
      exact ⟨.updated previous hmem rfl rfl rfl, rfl, hkey, rfl, not_lt.mp hsign,
        Or.inr ⟨previous, hprevious, rfl, by omega⟩⟩
    next hlate =>
      obtain ⟨hresult, hfresh⟩ := insert_eq_ok h
      obtain ⟨rfl, rfl⟩ := Prod.mk.inj hresult
      refine ⟨.inserted hfresh, rfl, rfl, rfl, not_lt.mp hsign, Or.inl ⟨fun other hother => ?_, hfresh⟩⟩
      obtain rfl := Option.some.inj (hprevious.symm.trans hother)
      omega

end SignalArcade.Incidents
