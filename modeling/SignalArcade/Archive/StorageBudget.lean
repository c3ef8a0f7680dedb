import SignalArcade.Archive.RetentionQuery

/-!
# The storage budget

A pass of `enforce_storage_budget` deletes chunks of old trades and of old decisions in turn, until the live pages of
the database are inside its budget, or as many rows are gone as a pass may remove, or it is told to stop. Other
workers write between the chunks.
-/

namespace SignalArcade.StorageBudget

open Checked

/-! ### The store -/

/-- The two tables. -/
structure Store where
  events : Table String MarketEvent rawTrades.identifier
  decisions : Table String Decision nonEntryDecisions.identifier

/-- `INSERT OR IGNORE`. -/
def insertOrIgnore {ρ κ : Type} [DecidableEq κ] {key : ρ → κ} (table : Table κ ρ key) (row : ρ) : Table κ ρ key :=
  if (table.get? (key row)).isSome then table else table.upsert row

/-- What others insert. -/
structure Arrivals where
  events : List MarketEvent := []
  decisions : List Decision := []

/-- The rows are inserted that are new. -/
def Store.arrive (store : Store) (arrivals : Arrivals) : Store where
  events := arrivals.events.foldl insertOrIgnore store.events
  decisions := arrivals.decisions.foldl insertOrIgnore store.decisions

/-! ### A pass -/

/-- The arguments of the pass, with the defaults of the source. -/
structure Arguments where
  maxDatabaseBytes : ℤ
  preserveRecentEvents : ℤ := 20000
  preserveRecentNonEntryDecisions : ℤ := 5000
  maxRowsPerPass : ℤ := 250000
  maxRowsPerChunk : ℤ := 1000
  maxDurationSeconds : ℚ := 2
  categoryOffset : ℤ := 0

/-- `_page_usage`. -/
structure Usage where
  liveBytes : ℕ
  reclaimableBytes : ℕ

/-- What happens around one run of the loop's body. -/
structure Turn where
  /-- `stop_requested()`, or the deadline is over. -/
  stopped : Bool := false
  /-- What `capacity()` returns. -/
  capacity : Option Usage := none
  arrivals : Arrivals := {}
  /-- The transaction of the delete is neither interrupted nor locked out. -/
  committed : Bool := true

/-- What happens around a pass. -/
structure Outside where
  first : Option Usage
  turns : List Turn
  last : Option Usage

/-- The variables of the loop. -/
structure Pass where
  store : Store
  usage : Usage
  removedEvents : ℕ := 0
  removedDecisions : ℕ := 0
  removableEvents : Bool := true
  removableDecisions : Bool := true
  chunks : ℕ := 0
  eventTurn : Bool
  capacityDeferred : Bool := false

/-- What a pass returns. -/
structure Report where
  rawTrades : ℕ
  nonEntryDecisions : ℕ
  usage : Option Usage
  capacityDeferred : Option Bool
  workRemaining : Bool

def Arguments.target (arguments : Arguments) : ℤ := ⌊(arguments.maxDatabaseBytes : ℚ) * (9 / 10)⌋

def Arguments.chunkSize (arguments : Arguments) : ℕ := (min arguments.maxRowsPerChunk arguments.maxRowsPerPass).toNat

def Pass.remaining (p : Pass) (arguments : Arguments) : ℕ :=
  arguments.maxRowsPerPass.toNat - p.removedEvents - p.removedDecisions

/-- The capacity is read again after every fifth chunk. Whether the pass goes on, and the pass. -/
def Pass.refresh (p : Pass) (arguments : Arguments) (turn : Turn) : Bool × Pass :=
  if p.chunks ≠ 0 ∧ p.chunks % 5 = 0 then
    match turn.capacity with
    | none => (false, { p with capacityDeferred := true })
    | some usage => (arguments.target < usage.liveBytes, { p with usage })
  else (true, p)

/-- A chunk of trades. -/
def Pass.deleteEvents (p : Pass) (arguments : Arguments) : Pass :=
  let limit := min arguments.chunkSize (p.remaining arguments)
  let events := rawTrades.delete p.store.events arguments.preserveRecentEvents.toNat limit
  let removed := p.store.events.rows.length - events.rows.length
  { p with
    store := { p.store with events }
    removedEvents := p.removedEvents + removed
    removableEvents := if removed < limit then false else p.removableEvents
    chunks := p.chunks + 1
    eventTurn := false }

def Pass.deleteDecisions (p : Pass) (arguments : Arguments) : Pass :=
  let limit := min arguments.chunkSize (p.remaining arguments)
  let decisions := nonEntryDecisions.delete p.store.decisions arguments.preserveRecentNonEntryDecisions.toNat limit
  let removed := p.store.decisions.rows.length - decisions.rows.length
  { p with
    store := { p.store with decisions }
    removedDecisions := p.removedDecisions + removed
    removableDecisions := if removed < limit then false else p.removableDecisions
    chunks := p.chunks + 1
    eventTurn := true }

def Pass.chunk (p : Pass) (arguments : Arguments) (turn : Turn) : Bool × Pass :=
  let p := { p with store := p.store.arrive turn.arrivals }
  if p.removableEvents && (p.eventTurn || !p.removableDecisions) then
    if turn.committed then (true, p.deleteEvents arguments) else (false, p)
  else if p.removableDecisions then
    if turn.committed then (true, p.deleteDecisions arguments) else (false, p)
  else (false, p)

def Pass.loop (arguments : Arguments) : List Turn → Pass → Pass
  | [], p => p
  | turn :: turns, p =>
    if ¬ p.removedEvents + p.removedDecisions < arguments.maxRowsPerPass ∨ turn.stopped then p
    else
      match p.refresh arguments turn with
      | (false, p) => p
      | (true, p) =>
        match p.chunk arguments turn with
        | (false, p) => p
        | (true, p) => p.loop arguments turns

def Store.enforceStorageBudget (store : Store) (arguments : Arguments) (outside : Outside) :
    Except String (Report × Store) := do
  raiseIf (arguments.maxDatabaseBytes < 1) "max database bytes must be positive"
  raiseIf (arguments.maxRowsPerPass < 1) "max rows per pass must be positive"
  raiseIf (arguments.maxRowsPerChunk < 1) "max rows per chunk must be positive"
  raiseIf (arguments.maxDurationSeconds ≤ 0) "max duration seconds must be positive"
  raiseIf (arguments.preserveRecentEvents < 0 ∨ arguments.preserveRecentNonEntryDecisions < 0)
    "preserved row counts cannot be negative"
  raiseIf (arguments.categoryOffset < 0) "category offset must be a nonnegative integer"
  match outside.first with
  | none => return (⟨0, 0, none, some true, true⟩, store)
  | some usage =>
    if usage.liveBytes ≤ arguments.target then
      return (⟨0, 0, some usage, none, false⟩, store)
    let p := Pass.loop arguments outside.turns { store, usage, eventTurn := arguments.categoryOffset % 2 = 0 }
    let usage := outside.last.getD p.usage
    let capacityDeferred := p.capacityDeferred || outside.last.isNone
    let workRemaining := capacityDeferred ||
      (arguments.target < usage.liveBytes && (p.removableEvents || p.removableDecisions))
    return (⟨p.removedEvents, p.removedDecisions, some usage, some capacityDeferred, workRemaining⟩, p.store)

/-- What happens to the store. -/
inductive Event where
  /-- A pass. One that raises leaves the store. -/
  | pass (arguments : Arguments) (outside : Outside)
  /-- Others insert rows. -/
  | arrive (arrivals : Arrivals)

/-- A pass that raises leaves the store. -/
def Store.step (store : Store) : Event → Store
  | .pass arguments outside =>
    match store.enforceStorageBudget arguments outside with
    | .ok (_, store') => store'
    | .error _ => store
  | .arrive arrivals => store.arrive arrivals

/-! ### What stays -/

section Persists

variable {ρ τ ι : Type} [LinearOrder τ] [LinearOrder ι] {c : Category ρ τ ι} {kept preserved limit : ℕ}
variable {table table' table'' : Table ι ρ c.identifier}

/-- What is gone is a row of the category with so many newer ones that are there, and where so many were above a bound,
so many are. -/
structure Persists (c : Category ρ τ ι) (kept : ℕ) (table table' : Table ι ρ c.identifier) : Prop where
  gone : ∀ row ∈ table, row ∈ table' ∨ c.predicate row ∧ kept ≤ (c.matching table'.rows).countP (c.key row < c.key ·)
  above : ∀ bound, kept ≤ (c.matching table.rows).countP (bound < c.key ·) →
    kept ≤ (c.matching table'.rows).countP (bound < c.key ·)

theorem Persists.refl (table : Table ι ρ c.identifier) : Persists c kept table table where
  gone _ hrow := .inl hrow
  above _ h := h

theorem Persists.trans (h : Persists c kept table table') (h' : Persists c kept table' table'') :
    Persists c kept table table'' where
  gone row hrow := by
    rcases h.gone row hrow with hrow' | ⟨hpredicate, hnewer⟩
    · exact h'.gone row hrow'
    · exact .inr ⟨hpredicate, h'.above _ hnewer⟩
  above bound hmany := h'.above bound (h.above bound hmany)

theorem Persists.delete (hkept : kept ≤ preserved) (table : Table ι ρ c.identifier) (limit : ℕ) :
    Persists c kept table (c.delete table preserved limit) where
  gone row hrow := by
    by_cases hstays : row ∈ c.delete table preserved limit
    · exact .inl hstays
    · rw [Category.mem_delete, not_and, not_not] at hstays
      obtain ⟨hpredicate, hnewer, -⟩ := hstays hrow
      exact .inr ⟨hpredicate, Category.delete_keeps hkept _ (hkept.trans hnewer)⟩
  above bound := Category.delete_keeps hkept bound

theorem Persists.insertOrIgnore (table : Table ι ρ c.identifier) (row : ρ) :
    Persists c kept table (insertOrIgnore table row) := by
  unfold StorageBudget.insertOrIgnore
  split_ifs with hthere
  · exact .refl table
  · have hfresh : ∀ row' ∈ table, c.identifier row' ≠ c.identifier row := by
      rw [← Table.get?_eq_none]
      simpa using hthere
    have hrows := Table.rows_upsert_fresh hfresh
    constructor
    · intro row' hrow'
      rw [Table.mem_def, hrows]
      exact .inl (List.mem_append_left _ hrow')
    · intro bound hmany
      rw [hrows, Category.matching, List.filter_append, List.countP_append]
      exact hmany.trans (Nat.le_add_right _ _)

theorem Persists.arrive (rows : List ρ) (table : Table ι ρ c.identifier) :
    Persists c kept table (rows.foldl StorageBudget.insertOrIgnore table) := by
  induction rows generalizing table with
  | nil => exact .refl table
  | cons row rows ih => exact (Persists.insertOrIgnore table row).trans (ih _)

end Persists

/-- Both categories keep their newest rows. -/
structure Store.Keeps (keptEvents keptDecisions : ℕ) (store store' : Store) : Prop where
  events : Persists rawTrades keptEvents store.events store'.events
  decisions : Persists nonEntryDecisions keptDecisions store.decisions store'.decisions

variable {keptEvents keptDecisions : ℕ} {store store' store'' : Store} {arguments : Arguments}

theorem Store.Keeps.refl (store : Store) : store.Keeps keptEvents keptDecisions store := ⟨.refl _, .refl _⟩

theorem Store.Keeps.trans (h : store.Keeps keptEvents keptDecisions store') (h' : store'.Keeps keptEvents keptDecisions store'') :
    store.Keeps keptEvents keptDecisions store'' := ⟨h.events.trans h'.events, h.decisions.trans h'.decisions⟩

theorem Store.keeps_arrive (store : Store) (arrivals : Arrivals) :
    store.Keeps keptEvents keptDecisions (store.arrive arrivals) :=
  ⟨Persists.arrive arrivals.events _, Persists.arrive arrivals.decisions _⟩

theorem Pass.keeps_chunk (hevents : keptEvents ≤ arguments.preserveRecentEvents.toNat)
    (hdecisions : keptDecisions ≤ arguments.preserveRecentNonEntryDecisions.toNat) (p : Pass) (turn : Turn) :
    p.store.Keeps keptEvents keptDecisions (p.chunk arguments turn).2.store := by
  have harrive : p.store.Keeps keptEvents keptDecisions (p.store.arrive turn.arrivals) := p.store.keeps_arrive turn.arrivals
  unfold Pass.chunk
  dsimp only
  split_ifs
  · exact harrive.trans ⟨.delete hevents _ _, .refl _⟩
  · exact harrive
  · exact harrive.trans ⟨.refl _, .delete hdecisions _ _⟩
  · exact harrive
  · exact harrive

theorem Pass.refresh_store (p : Pass) (turn : Turn) : (p.refresh arguments turn).2.store = p.store := by
  unfold Pass.refresh
  split_ifs
  · cases turn.capacity with
    | none => rfl
    | some usage => rfl
  · rfl

theorem Pass.keeps_loop (hevents : keptEvents ≤ arguments.preserveRecentEvents.toNat)
    (hdecisions : keptDecisions ≤ arguments.preserveRecentNonEntryDecisions.toNat) (turns : List Turn) (p : Pass) :
    p.store.Keeps keptEvents keptDecisions (p.loop arguments turns).store := by
  induction turns generalizing p with
  | nil => exact .refl _
  | cons turn turns ih =>
    unfold Pass.loop
    split_ifs with hends
    · exact .refl _
    · have hstore : (p.refresh arguments turn).2.store = p.store := p.refresh_store turn
      rcases hrefresh : p.refresh arguments turn with ⟨goesOn, p₁⟩
      rw [hrefresh] at hstore
      cases goesOn with
      | false => exact hstore ▸ .refl _
      | true =>
        have hchunk := p₁.keeps_chunk hevents hdecisions turn
        rw [show p₁.store = p.store from hstore] at hchunk
        dsimp only
        rcases hturn : p₁.chunk arguments turn with ⟨goesOn, p₂⟩
        rw [hturn] at hchunk
        cases goesOn with
        | false => exact hchunk
        | true => exact hchunk.trans (ih p₂)

/-- A pass keeps the newest. -/
theorem Store.keeps_step {event : Event} (hkept : ∀ arguments outside, event = .pass arguments outside →
      keptEvents ≤ arguments.preserveRecentEvents.toNat ∧
        keptDecisions ≤ arguments.preserveRecentNonEntryDecisions.toNat) (store : Store) :
    store.Keeps keptEvents keptDecisions (store.step event) := by
  cases event with
  | arrive arrivals => exact store.keeps_arrive arrivals
  | pass arguments outside =>
    obtain ⟨hevents, hdecisions⟩ := hkept arguments outside rfl
    dsimp only [Store.step]
    cases hpass : store.enforceStorageBudget arguments outside with
    | error message => exact .refl _
    | ok result =>
      obtain ⟨report, store'⟩ := result
      simp only [Store.enforceStorageBudget, bind_eq_ok] at hpass
      obtain ⟨-, -, -, -, -, -, -, -, -, -, -, -, hpass⟩ := hpass
      cases hfirst : outside.first with
      | none =>
        rw [hfirst] at hpass
        cases hpass
        exact .refl _
      | some usage =>
        rw [hfirst] at hpass
        dsimp only at hpass
        split_ifs at hpass
        · cases hpass
          exact .refl _
        · cases hpass
          exact Pass.keeps_loop hevents hdecisions outside.turns
            { store, usage, eventTurn := arguments.categoryOffset % 2 = 0 }

/-! ### The budget -/

/-- What a delete does: it removes the smallest rows of the category with as many newer rows as are kept, all that there
are up to its limit, and its comparison is the plain one with the row that the newest end with. -/
structure Exact {ρ τ ι : Type} [LinearOrder τ] [LinearOrder ι] (c : Category ρ τ ι) (table : Table ι ρ c.identifier)
    (preserved limit : ℕ) : Prop where
  mem : ∀ row, row ∈ c.delete table preserved limit ↔ row ∈ table ∧
    ¬ (c.predicate row ∧ preserved ≤ (c.matching table.rows).countP (c.key row < c.key ·) ∧
      (c.matching table.rows).countP (c.key · < c.key row) < limit)
  count : table.rows.length - (c.delete table preserved limit).rows.length =
    min limit ((c.matching table.rows).length - preserved)
  plain : 0 < preserved → ∀ row, c.isOld table.rows preserved row = c.isBelow table.rows preserved row
  below : 0 < preserved → ∀ row, c.isBelow table.rows preserved row ↔
    preserved ≤ (c.matching table.rows).countP (c.key row < c.key ·)

theorem delete_exact {ρ τ ι : Type} [LinearOrder τ] [LinearOrder ι] {c : Category ρ τ ι} (table : Table ι ρ c.identifier)
    (preserved limit : ℕ) : Exact c table preserved limit where
  mem _ := Category.mem_delete
  count := Category.length_delete
  plain hpreserved := Category.isOld_eq_isBelow table.nodup hpreserved
  below hpreserved := Category.isBelow_iff hpreserved

/-- **The budget keeps the newest rows.** Each delete removes exactly the smallest rows below the boundary, and whatever
passes are made with others inserting, a row that is gone is a trade or a decision that is no ENTER, and has as many newer
ones of its category in the store as each pass keeps. -/
theorem budget_keeps_newest :
    (∀ table preserved limit, Exact rawTrades table preserved limit) ∧
    (∀ table preserved limit, Exact nonEntryDecisions table preserved limit) ∧
    ∀ (keptEvents keptDecisions : ℕ) (store : Store) (events : List Event),
      (∀ arguments outside, .pass arguments outside ∈ events → keptEvents ≤ arguments.preserveRecentEvents.toNat ∧
        keptDecisions ≤ arguments.preserveRecentNonEntryDecisions.toNat) →
      store.Keeps keptEvents keptDecisions (events.foldl Store.step store) := by
  refine ⟨delete_exact, delete_exact, fun keptEvents keptDecisions store events hkept => ?_⟩
  induction events generalizing store with
  | nil => exact .refl store
  | cons event events ih =>
    have hstep : store.Keeps keptEvents keptDecisions (store.step event) :=
      store.keeps_step fun arguments outside h => hkept arguments outside (h ▸ List.mem_cons_self)
    exact hstep.trans (ih _ fun arguments outside h => hkept arguments outside (List.mem_cons_of_mem _ h))

end SignalArcade.StorageBudget
