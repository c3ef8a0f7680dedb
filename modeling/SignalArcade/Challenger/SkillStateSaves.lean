import SignalArcade.Challenger.ChampionJournal
import SignalArcade.Lib.Transaction
import SignalArcade.Lib.Runs

/-!
# The saves of skill states

`save_challenger_skill_state` writes a state with its champion events, its replays and its pending versions, and skips
that for a state whose content is the one it wrote last, which it remembers as a signature. Inside of a
`training_publication` nothing is skipped or remembered, and the acknowledgement of a state waits for the commit.

The states are objects, of which there may be copies, and whoever holds one may change it between two calls. Digests are
taken for what they are digests of.
-/

namespace SignalArcade.SkillStateSaves

open Paper (Instant)
open Challenger (recentChampionEventsInMemory)
open ChampionJournal (Event Journal Journey Pending existing chronological)
open Checked Prog Slices Transaction List

/-! ### States and rows -/

/-- The key of a state: its cohort and its skill. -/
structure Key where
  cohort : String
  skill : ChallengerSkill
  deriving DecidableEq

/-- A `ChallengerSkillState`. The fields that no save looks at are of the type `φ`, the replays of the type `ρ`. -/
structure SkillState (φ ρ : Type) where
  key : Key
  fields : φ
  pendingVersions : List String
  championJourney : List Event
  updatedAt : Instant
  battleReplay : Option ρ := none
  battleReplayDirty : Bool := false
  pendingBattleReplays : Table String (String × ρ) Prod.fst := .empty

/-- A row of `challenger_skill_states`. -/
structure StateRow (φ : Type) where
  key : Key
  updatedAt : Instant
  fields : φ

/-- The value of a setting: a list of versions, or another one. -/
inductive SettingValue where
  | versions (versions : List String)
  | other (json : String)

/-- A row of `settings`. -/
structure Setting where
  name : String
  value : SettingValue
  updatedAt : Instant

/-- A row of `champion_battle_replays`. -/
structure ReplayRow where
  replayKey : String
  cohort : String
  record : String

/-- The tables that the saves write. -/
structure Tables (φ : Type) where
  states : Table Key (StateRow φ) StateRow.key
  settings : Table String Setting Setting.name
  events : Journal
  replays : Table String ReplayRow ReplayRow.replayKey

def maxReplayBytes : ℕ := 32768

/-- `_challenger_pending_setting_key`. -/
def pendingSettingKey (key : Key) : String :=
  "challenger_pending_versions_v1:" ++ key.cohort ++ ":" ++ key.skill.value

def Key.journey (key : Key) : Journey := ⟨key.cohort, key.skill⟩

/-- `_skill_state_signature`: all of the content but `updated_at`. -/
structure Signature (φ : Type) where
  key : Key
  fields : φ
  pendingVersions : List String
  championJourney : List Event
  deriving DecidableEq

variable {φ ρ : Type}

def SkillState.signature (state : SkillState φ ρ) : Signature φ :=
  ⟨state.key, state.fields, state.pendingVersions, state.championJourney⟩

/-- What the saves ask of replays: `json.dumps`, which raises at a number that is not finite. -/
structure Codec (ρ : Type) where
  dumps : ρ → Except String String

/-! ### What a save writes -/

def insertChampionEvents (journey : Journey) (events : List Event) : Session String (Tables φ) Unit := do
  if events = [] then
    return ()
  let pending ← (slices 100 events).foldlM
    (fun (pending : Pending) chunk => do
      let previous ← query fun tables => existing tables.events chunk
      check (chunk.foldlM (journey.collect previous) pending)) Table.empty
  if pending.rows = [] then
    return ()
  let generation ← query fun tables => journey.generation tables.events
  let _ ← (chronological pending).foldlM
    (fun generation event => change fun tables => do
      let written ← journey.insert (generation, tables.events) event
      return (written.1, { tables with events := written.2 })) generation

/-- The replay of a battle that is going on. -/
def writeActiveReplay (codec : Codec ρ) (state : SkillState φ ρ) : Session String (Tables φ) Unit :=
  match state.battleReplayDirty, state.battleReplay with
  | true, some replay => do
    let json ← check (codec.dumps replay)
    if json.utf8ByteSize ≤ maxReplayBytes then
      let row : ReplayRow := ⟨"active:" ++ state.key.cohort ++ ":" ++ state.key.skill.value, state.key.cohort, json⟩
      change fun tables => .ok ((), { tables with replays := tables.replays.upsert row })
  | _, _ => return ()

/-- A replay that was frozen for an event. -/
def writeEventReplay (codec : Codec ρ) (cohort : String) (entry : String × ρ) : Session String (Tables φ) Unit := do
  let json ← check (codec.dumps entry.2)
  if json.utf8ByteSize ≤ maxReplayBytes then
    let row : ReplayRow := ⟨"event:" ++ entry.1, cohort, json⟩
    change fun tables => .ok ((), { tables with replays := (tables.replays.insert? row).getD tables.replays })

def upsertSettings (items : List (String × SettingValue)) (now : Instant) : Session String (Tables φ) Unit :=
  forM items fun item => change fun tables =>
    .ok ((), { tables with settings := tables.settings.upsert ⟨item.1, item.2, now⟩ })

/-- The statements of `_persist_challenger_skill_state`. -/
def write (codec : Codec ρ) (state : SkillState φ ρ) : Session String (Tables φ) Unit := do
  insertChampionEvents state.key.journey state.championJourney
  writeActiveReplay codec state
  forM state.pendingBattleReplays.rows (writeEventReplay codec state.key.cohort)
  change fun tables => .ok ((), { tables with states := tables.states.upsert ⟨state.key, state.updatedAt, state.fields⟩ })
  upsertSettings [(pendingSettingKey state.key, .versions state.pendingVersions)] state.updatedAt

/-- `_acknowledge_skill_state`, of a state and the copy of it that was saved. -/
def acknowledge [DecidableEq ρ] (state saved : SkillState φ ρ) : SkillState φ ρ :=
  { state with
    battleReplayDirty := if state.battleReplay = saved.battleReplay then false else state.battleReplayDirty
    pendingBattleReplays := saved.pendingBattleReplays.rows.foldl
      (fun pending entry => if pending.get? entry.1 = some entry then pending.erase entry.1 else pending)
      state.pendingBattleReplays
    championJourney := ChampionJournal.acknowledge state.championJourney saved.championJourney }

/-! ### The saver -/

/-- What was saved last under a key. -/
structure Saved (φ : Type) where
  key : Key
  signature : Signature φ
  updatedAt : Instant

/-- An object that waits for the commit, and the copy of it that was saved. -/
structure Ack (φ ρ : Type) where
  address : ℕ
  saved : SkillState φ ρ

/-- The database, as the saves use it, and the state objects there are. -/
structure Saver (φ ρ : Type) where
  objects : ℕ → SkillState φ ρ
  connection : Connection (Tables φ)
  trainingPublicationActive : Bool := false
  savedSkillStates : Table Key (Saved φ) Saved.key := .empty
  publicationSkillAcks : Table ℕ (Ack φ ρ) Ack.address := .empty

/-- What is done, and whether it returns. -/
abbrev Outcome (φ ρ : Type) := Bool × Saver φ ρ

namespace Saver

variable [DecidableEq φ] [DecidableEq ρ] (codec : Codec ρ) (s : Saver φ ρ)

def setObject (address : ℕ) (state : SkillState φ ρ) : Saver φ ρ :=
  { s with objects := Function.update s.objects address state }

/-- `_persist_challenger_skill_state`. -/
def persist (address : ℕ) : Outcome φ ρ :=
  let state := s.objects address
  if s.trainingPublicationActive then
    match write codec state s.connection with
    | .ok () connection =>
      (true, { s with connection, publicationSkillAcks := s.publicationSkillAcks.upsert ⟨address, state⟩ })
    | .error _ connection => (false, { s with connection })
  else
    match withConnection (write codec state) s.connection with
    | .ok () connection => (true, { s with connection }.setObject address (acknowledge state state))
    | .error _ connection => (false, { s with connection })

/-- The first entry of a dictionary is dropped when there are more than 256. -/
def bounded (saved : Table Key (Saved φ) Saved.key) : Table Key (Saved φ) Saved.key :=
  match saved.rows with
  | [] => saved
  | first :: _ => if 256 < saved.rows.length then saved.erase first.key else saved

def remember (address : ℕ) : Saver φ ρ :=
  let state := s.objects address
  { s with savedSkillStates := bounded (s.savedSkillStates.upsert ⟨state.key, state.signature, state.updatedAt⟩) }

/-- What a save is skipped for. -/
def previous (address : ℕ) : Option (Saved φ) :=
  let state := s.objects address
  if s.trainingPublicationActive ∨ s.connection.saved.isSome ∨ state.battleReplayDirty ∨
      state.pendingBattleReplays.rows ≠ [] then none
  else (s.savedSkillStates.get? state.key).filter fun previous => previous.signature = state.signature

/-- `save_challenger_skill_state`. -/
def save (address : ℕ) : Outcome φ ρ :=
  match s.previous address with
  | some previous => (true, s.setObject address { s.objects address with updatedAt := previous.updatedAt })
  | none =>
    let (returned, s) := s.persist codec address
    if returned ∧ ¬ s.trainingPublicationActive then (true, s.remember address) else (returned, s)

/-! ### Publications -/

/-- The end of `training_publication`, however it comes about. -/
def closed : Saver φ ρ :=
  { s with trainingPublicationActive := false, savedSkillStates := .empty, publicationSkillAcks := .empty }

/-- `training_publication` up to its `yield`. -/
def enter : Outcome φ ρ :=
  if s.trainingPublicationActive ∨ s.connection.saved.isSome then (false, s)
  else
    match (ensureBegun : Session String (Tables φ) Unit) s.connection with
    | .ok () connection =>
      (true, { s with
        connection, trainingPublicationActive := true, savedSkillStates := .empty, publicationSkillAcks := .empty })
    | .error _ connection => (false, { s with connection := connection.rolledBack }.closed)

/-- The objects are acknowledged that were saved in the publication. -/
def acknowledged : Saver φ ρ :=
  s.publicationSkillAcks.rows.foldl
    (fun s ack => s.setObject ack.address (acknowledge (s.objects ack.address) ack.saved)) s

/-- The rest of `training_publication`, where its block has come to its end or has raised. -/
def leave (raised : Bool) : Outcome φ ρ :=
  if raised then (false, { s with connection := s.connection.rolledBack }.closed)
  else
    match (commit : Session String (Tables φ) Unit) s.connection with
    | .ok () connection => (true, { s with connection }.acknowledged.closed)
    | .error _ connection => (false, { s with connection := connection.rolledBack }.closed)

/-- The saves of a loop, up to the first that raises. -/
def saveAll : List ℕ → Saver φ ρ → Outcome φ ρ
  | [], s => (true, s)
  | address :: addresses, s =>
    let (returned, s) := s.save codec address
    if returned then saveAll addresses s else (false, s)

/-- Settings are written in a publication. -/
def writeSettings (items : List (String × SettingValue)) (now : Instant) : Outcome φ ρ :=
  match (upsertSettings items now : Session String (Tables φ) Unit) s.connection with
  | .ok () connection => (true, { s with connection })
  | .error _ connection => (false, { s with connection })

/-- `save_challenger_authority`, with the settings it writes. -/
def saveAuthority (addresses : List ℕ) (items : List (String × SettingValue)) (now : Instant) : Outcome φ ρ :=
  let (entered, s) := s.enter
  if ¬ entered then (false, s)
  else
    let (returned, s) := saveAll codec addresses s
    let (returned, s) := if returned then s.writeSettings items now else (false, s)
    s.leave (¬ returned)

/-! ### Steps -/

/-- A step of those who change and save states. -/
inductive Action (φ ρ : Type) where
  /-- Somebody changes an object, or makes a copy. -/
  | assign (address : ℕ) (state : SkillState φ ρ)
  | save (address : ℕ)
  /-- A publication begins, writes something else, and ends. -/
  | enter
  | writeSettings (items : List (String × SettingValue)) (now : Instant)
  | leave (raised : Bool)
  | saveAuthority (addresses : List ℕ) (items : List (String × SettingValue)) (now : Instant)
  /-- Which of the statements to come fail. -/
  | weather (faults : List Bool)

def step (s : Saver φ ρ) : Action φ ρ → Saver φ ρ
  | .assign address state => s.setObject address state
  | .save address => (s.save codec address).2
  | .enter => s.enter.2
  | .writeSettings items now => if s.trainingPublicationActive then (s.writeSettings items now).2 else s
  | .leave raised => if s.trainingPublicationActive then (s.leave raised).2 else s
  | .saveAuthority addresses items now => (s.saveAuthority codec addresses items now).2
  | .weather faults => { s with connection := { s.connection with faults } }

end Saver

/-! ### The journal after a save -/

/-- The event stands in the journal as it is. -/
def Holds (journey : Journey) (journal : Journal) (event : Event) : Prop :=
  ∃ row, journal.get? event.eventId = some row ∧ journey.differs event row = false

/-- No row of the journal is changed. -/
def Grows (journal journal' : Journal) : Prop := ∀ id row, journal.get? id = some row → journal'.get? id = some row

variable {journey : Journey} {journal journal' : Journal} {event : Event} {events : List Event} {pending pending' : Pending}
  {generation generation' : ℕ}

theorem Grows.refl (journal : Journal) : Grows journal journal := fun _ _ h => h

theorem Grows.trans {journal'' : Journal} (h : Grows journal journal') (h' : Grows journal' journal'') :
    Grows journal journal'' := fun id row hrow => h' id row (h id row hrow)

theorem Holds.grows (h : Holds journey journal event) (hgrows : Grows journal journal') : Holds journey journal' event := by
  obtain ⟨row, hrow, hsame⟩ := h
  exact ⟨row, hgrows _ _ hrow, hsame⟩

theorem collect_eq_ok (h : journey.collect journal.get? pending event = .ok pending') :
    (∀ other ∈ pending, other ∈ pending') ∧ (Holds journey journal event ∨ event ∈ pending') := by
  simp only [Journey.collect, bind_eq_ok, pure_eq_ok, raiseIf_eq_ok] at h
  obtain ⟨-, hstored, -, hsame, rfl⟩ := h
  cases hrow : journal.get? event.eventId with
  | some row =>
    simp only [Option.isNone_some, Bool.false_eq_true, if_false]
    refine ⟨fun _ => id, .inl ⟨row, hrow, ?_⟩⟩
    simpa [hrow] using hstored
  | none =>
    simp only [Option.isNone_none, if_true]
    refine ⟨fun other hother => Table.mem_upsert.mpr ?_, .inr (Table.mem_upsert.mpr (.inl rfl))⟩
    by_cases hid : other.eventId = event.eventId
    · have hget : pending.get? event.eventId = some other := Table.get?_eq_some.mpr ⟨hother, hid⟩
      exact .inl (by simpa [hget] using hsame)
    · exact .inr ⟨hother, hid⟩

theorem foldlM_collect_eq_ok (h : events.foldlM (journey.collect journal.get?) pending = .ok pending') :
    (∀ other ∈ pending, other ∈ pending') ∧ ∀ event ∈ events, Holds journey journal event ∨ event ∈ pending' := by
  induction events generalizing pending with
  | nil =>
    obtain rfl := pure_eq_ok.mp h
    exact ⟨fun _ => id, by simp⟩
  | cons event events ih =>
    rw [foldlM_cons, bind_eq_ok] at h
    obtain ⟨pending₁, hcollect, h⟩ := h
    obtain ⟨hkept, hevent⟩ := collect_eq_ok hcollect
    obtain ⟨hkept', hevents⟩ := ih h
    refine ⟨fun other hother => hkept' other (hkept other hother), ?_⟩
    rintro other (_ | ⟨_, hother⟩)
    · exact hevent.imp_right (hkept' event)
    · exact hevents other hother

theorem insert_eq_ok (h : journey.insert (generation, journal) event = .ok (generation', journal')) :
    Grows journal journal' ∧ Holds journey journal' event := by
  simp only [Journey.insert, bind_eq_ok, pure_eq_ok, raiseIf_eq_ok, Prod.mk.injEq] at h
  obtain ⟨-, hskill, -, hfresh, rfl, rfl⟩ := h
  have hnone : journal.get? event.eventId = none := by simpa using hfresh
  constructor
  · intro id row hrow
    rw [Table.get?_upsert, if_neg]
    · exact hrow
    · rintro rfl
      exact absurd (hnone.symm.trans hrow) (by simp)
  · refine ⟨journey.row (ChampionJournal.nextGeneration generation event.milestone.kind) event, ?_, ?_⟩
    · rw [Table.get?_upsert]
      exact if_pos rfl
    · simp [Journey.differs, Journey.row]

/-! ### The statements of a save -/

variable {codec : Codec ρ} {state : SkillState φ ρ} {d d' : Tables φ}

/-- What a save has done where it returns. -/
structure Wrote (state : SkillState φ ρ) (d d' : Tables φ) : Prop where
  states : d'.states = d.states.upsert ⟨state.key, state.updatedAt, state.fields⟩
  settings : d'.settings = d.settings.upsert
    ⟨pendingSettingKey state.key, .versions state.pendingVersions, state.updatedAt⟩
  grows : Grows d.events d'.events
  holds : ∀ event ∈ state.championJourney, Holds state.key.journey d'.events event

/-- Only the journal is written. -/
def OnlyEvents (d d' : Tables φ) : Prop := ∃ events, d' = { d with events }

/-- Only the replays are. -/
def OnlyReplays (d d' : Tables φ) : Prop := ∃ replays, d' = { d with replays }

/-- What the loop over the chunks has collected. -/
theorem collect_returns (h : Returns ((slices 100 events).foldlM (fun (pending : Pending) chunk => (do
      let previous ← query fun tables => existing tables.events chunk
      check (chunk.foldlM (journey.collect previous) pending) : Session String (Tables φ) Pending)) Table.empty) d pending d') :
    d' = d ∧ events.foldlM (journey.collect d.events.get?) Table.empty = .ok pending := by
  have hchunks : d' = d ∧ (slices 100 events).foldlM
      (fun pending chunk => chunk.foldlM (journey.collect (existing d.events chunk)) pending) Table.empty = .ok pending := by
    refine Returns.of_foldlM (I := fun done pending d' => d' = d ∧ done.foldlM
      (fun pending chunk => chunk.foldlM (journey.collect (existing d.events chunk)) pending) Table.empty = .ok pending)
      ?_ ⟨rfl, rfl⟩ h
    rintro done chunk pending d₁ pending₁ d₂ ⟨rfl, hdone⟩ hchunk
    obtain ⟨hcollect, rfl⟩ := hchunk.of_query_bind.of_check
    refine ⟨rfl, ?_⟩
    rw [foldlM_append, hdone]
    simp [bind, Except.bind, pure, Except.pure, hcollect]
  simp only [Journey.foldlM_chunk] at hchunks
  rwa [foldlM_slices (show 0 < 100 by decide)] at hchunks

theorem insertChampionEvents_returns (h : Returns (insertChampionEvents journey events) d () d') :
    OnlyEvents d d' ∧ Grows d.events d'.events ∧ ∀ event ∈ events, Holds journey d'.events event := by
  unfold insertChampionEvents at h
  split_ifs at h with hnil
  · obtain ⟨-, rfl⟩ := h.of_pure
    exact ⟨⟨d.events, rfl⟩, Grows.refl _, by simp [hnil]⟩
  obtain ⟨pending, d₁, hchunks, hrest⟩ := h.of_bind
  obtain ⟨rfl, hcollect⟩ := collect_returns hchunks
  have hevents := (foldlM_collect_eq_ok hcollect).2
  split_ifs at hrest with hnone
  · obtain ⟨-, rfl⟩ := hrest.of_pure
    refine ⟨⟨d₁.events, rfl⟩, Grows.refl _, fun event hevent => (hevents event hevent).resolve_right fun hpending => ?_⟩
    simp [Table.mem_def, hnone] at hpending
  · obtain ⟨_, d₂, hinsert, hlast⟩ := hrest.of_query_bind.of_bind
    obtain ⟨-, rfl⟩ := hlast.of_pure
    have hinserted : OnlyEvents d₁ d₂ ∧ Grows d₁.events d₂.events ∧
        ∀ event ∈ chronological pending, Holds journey d₂.events event := by
      refine Returns.of_foldlM (I := fun done _ d₂ => OnlyEvents d₁ d₂ ∧ Grows d₁.events d₂.events ∧
        ∀ event ∈ done, Holds journey d₂.events event) ?_ ⟨⟨d₁.events, rfl⟩, Grows.refl _, by simp⟩ hinsert
      rintro done event generation d₃ generation' d₄ ⟨⟨_, rfl⟩, hgrows, hdone⟩ hchange
      have hrow := hchange.of_change
      simp only [bind_eq_ok, pure_eq_ok, Prod.mk.injEq] at hrow
      obtain ⟨written, hwritten, -, rfl⟩ := hrow
      obtain ⟨hgrows', hholds⟩ := insert_eq_ok (show _ = Except.ok (written.1, written.2) from hwritten)
      refine ⟨⟨_, rfl⟩, hgrows.trans hgrows', fun other hother => ?_⟩
      rcases mem_append.mp hother with hother | hother
      · exact (hdone other hother).grows hgrows'
      · obtain rfl := mem_singleton.mp hother
        exact hholds
    obtain ⟨honly, hgrows, hholds⟩ := hinserted
    refine ⟨honly, hgrows, fun event hevent => ?_⟩
    rcases hevents event hevent with hstored | hpending
    · exact hstored.grows hgrows
    · exact hholds event ((perm_insertionSort _ _).mem_iff.mpr hpending)

theorem writeActiveReplay_returns (h : Returns (writeActiveReplay codec state) d () d') : OnlyReplays d d' := by
  unfold writeActiveReplay at h
  split at h
  · obtain ⟨json, -, h⟩ := h.of_check_bind
    split_ifs at h
    · cases h.of_change
      exact ⟨_, rfl⟩
    · obtain ⟨-, rfl⟩ := h.of_pure
      exact ⟨_, rfl⟩
  · obtain ⟨-, rfl⟩ := h.of_pure
    exact ⟨_, rfl⟩

theorem writeEventReplay_returns {cohort : String} {entry : String × ρ}
    (h : Returns (writeEventReplay codec cohort entry) d () d') : OnlyReplays d d' := by
  unfold writeEventReplay at h
  obtain ⟨json, -, h⟩ := h.of_check_bind
  split_ifs at h
  · cases h.of_change
    exact ⟨_, rfl⟩
  · obtain ⟨-, rfl⟩ := h.of_pure
    exact ⟨_, rfl⟩

theorem wrote (h : Returns (write codec state) d () d') : Wrote state d d' := by
  unfold write at h
  obtain ⟨_, d₁, hevents, h⟩ := h.of_bind
  obtain ⟨⟨events, rfl⟩, hgrows, hholds⟩ := insertChampionEvents_returns hevents
  obtain ⟨_, d₂, hactive, h⟩ := h.of_bind
  obtain ⟨replays, rfl⟩ := writeActiveReplay_returns hactive
  obtain ⟨_, d₃, hpending, h⟩ := h.of_bind
  have hreplays : OnlyReplays { d with events, replays } d₃ := by
    refine Returns.of_forM (I := fun _ d₃ => OnlyReplays { d with events, replays } d₃) ?_ ⟨replays, rfl⟩ hpending
    rintro done entry d₄ d₅ _ ⟨_, rfl⟩ hentry
    obtain ⟨_, rfl⟩ := writeEventReplay_returns hentry
    exact ⟨_, rfl⟩
  obtain ⟨replays, rfl⟩ := hreplays
  obtain ⟨_, d₄, hstates, hsettings⟩ := h.of_bind
  cases hstates.of_change
  obtain rfl := Returns.of_forM_change hsettings
  exact ⟨rfl, rfl, hgrows, hholds⟩

theorem steady_write (codec : Codec ρ) (state : SkillState φ ρ) : Steady (write codec state) := by
  have hevents : Steady (insertChampionEvents (φ := φ) state.key.journey state.championJourney) := by
    unfold insertChampionEvents
    refine .ite (.pure ()) (.bind (.foldlM (fun _ _ => (Steady.query _).bind fun _ => .check _) _ _) fun pending => ?_)
    exact .ite (.pure ()) ((Steady.query _).bind fun _ => (Steady.foldlM (fun _ _ => .change _) _ _).bind fun _ => .pure ())
  have hactive : Steady (writeActiveReplay codec state) := by
    unfold writeActiveReplay
    split
    · exact (Steady.check _).bind fun _ => .ite (.change _) (.pure ())
    · exact .pure ()
  have hevent : ∀ entry, Steady (writeEventReplay (φ := φ) codec state.key.cohort entry) := fun entry =>
    (Steady.check _).bind fun _ => .ite (.change _) (.pure ())
  exact hevents.bind fun _ => hactive.bind fun _ => (Steady.forM hevent _).bind fun _ =>
    (Steady.change _).bind fun _ => .forM (fun _ => .change _) _

theorem keeps_write (codec : Codec ρ) (state : SkillState φ ρ) : Keeps false (write codec state) := by
  have hevents : Keeps false (insertChampionEvents (φ := φ) state.key.journey state.championJourney) := by
    unfold insertChampionEvents
    refine .ite (fun _ => .pure ()) fun _ =>
      .bind (.foldlM (fun _ _ => (Keeps.query _).bind fun _ => .check _) _ _) fun pending => ?_
    exact .ite (fun _ => .pure ()) fun _ =>
      (Keeps.query _).bind fun _ => (Keeps.foldlM (fun _ _ => .change _) _ _).bind fun _ => .pure ()
  have hactive : Keeps false (writeActiveReplay codec state) := by
    unfold writeActiveReplay
    split
    · exact (Keeps.check _).bind fun _ => .ite (fun _ => .change _) fun _ => .pure ()
    · exact .pure ()
  have hevent : ∀ entry, Keeps false (writeEventReplay (φ := φ) codec state.key.cohort entry) := fun entry =>
    (Keeps.check _).bind fun _ => .ite (fun _ => .change _) fun _ => .pure ()
  exact hevents.bind fun _ => hactive.bind fun _ => (Keeps.forM hevent _).bind fun _ =>
    (Keeps.change _).bind fun _ => .forM (fun _ => .change _) _

/-! ### Writing what is stored -/

/-- The last letters of the skills tell them apart. -/
theorem skill_eq_of_getLast? {skill skill' : ChallengerSkill}
    (h : skill.value.toList.getLast? = skill'.value.toList.getLast?) : skill = skill' := by
  revert h
  cases skill <;> cases skill' <;> decide

theorem getLast?_toList_append (a : String) (skill : ChallengerSkill) :
    (a ++ skill.value).toList.getLast? = skill.value.toList.getLast? := by
  have hvalue : skill.value.toList ≠ [] := by cases skill <;> decide
  rw [String.toList_append, getLast?_append_of_ne_nil _ hvalue]

theorem append_cancel {a b c d e : String} (h : a ++ c ++ b ++ e = a ++ d ++ b ++ e) : c = d := by
  have hlist := congrArg String.toList h
  simp only [String.toList_append] at hlist
  exact String.toList_inj.mp (append_cancel_left (append_cancel_right (append_cancel_right hlist)))

theorem pendingSettingKey_injective : Function.Injective pendingSettingKey := by
  rintro ⟨cohort, skill⟩ ⟨cohort', skill'⟩ h
  unfold pendingSettingKey at h
  dsimp only at h
  obtain rfl : skill = skill' := skill_eq_of_getLast? <| by
    rw [← getLast?_toList_append, h, getLast?_toList_append]
  rw [append_cancel h]

theorem foldlM_collect_holds (h : ∀ event ∈ events, Holds journey journal event) :
    events.foldlM (journey.collect (existing journal events)) Table.empty = .ok Table.empty := by
  rw [Journey.foldlM_chunk]
  induction events with
  | nil => rfl
  | cons event events ih =>
    obtain ⟨row, hrow, hsame⟩ := h event mem_cons_self
    have hcollect : journey.collect journal.get? Table.empty event = .ok Table.empty := by
      simp only [Journey.collect, bind_eq_ok, pure_eq_ok, raiseIf_eq_ok]
      exact ⟨⟨⟩, by simp [hrow, hsame], ⟨⟩, by simp [Table.get?, Table.empty], by simp [hrow]⟩
    rw [foldlM_cons, hcollect]
    exact ih fun event' hevent => h event' (mem_cons_of_mem _ hevent)

/-- Events that stand in the journal are not written again. -/
theorem insertChampionEvents_again (h : ∀ event ∈ events, Holds journey d.events event) :
    Succeeds (insertChampionEvents journey events) d () d := by
  unfold insertChampionEvents
  split_ifs with hnil
  · exact .pure ()
  have hchunks : ∀ chunks : List (List Event), (∀ chunk ∈ chunks, ∀ event ∈ chunk, event ∈ events) →
      Succeeds (chunks.foldlM (fun (pending : Pending) chunk => (do
        let previous ← query fun tables => existing tables.events chunk
        check (chunk.foldlM (journey.collect previous) pending) : Session String (Tables φ) Pending)) Table.empty)
        d Table.empty d := by
    intro chunks
    induction chunks with
    | nil => exact fun _ => .pure _
    | cons chunk chunks ih =>
      intro hmem
      rw [foldlM_cons]
      have hcollect : chunk.foldlM (journey.collect (existing d.events chunk)) Table.empty = .ok Table.empty :=
        foldlM_collect_holds fun event hevent => h event (hmem chunk mem_cons_self event hevent)
      have hchunk : Succeeds (do
          let previous ← query fun tables : Tables φ => existing tables.events chunk
          check (chunk.foldlM (journey.collect previous) Table.empty) : Session String (Tables φ) Pending) d Table.empty d :=
        (Succeeds.query _).bind (Succeeds.check hcollect)
      exact hchunk.bind (ih fun chunk' hmem' => hmem chunk' (mem_cons_of_mem _ hmem'))
  refine (hchunks _ fun chunk hchunk event hevent => ?_).bind ?_
  · exact (mem_slices (show 0 < 100 by decide)).mp ⟨chunk, hchunk, hevent⟩
  · rw [if_pos (show (Table.empty : Pending).rows = [] from rfl)]
    exact .pure ()

/-- What is remembered of a key stands in the tables. -/
structure Settled (saved : Saved φ) (d : Tables φ) : Prop where
  key : saved.signature.key = saved.key
  state : d.states.get? saved.key = some ⟨saved.key, saved.updatedAt, saved.signature.fields⟩
  pending : d.settings.get? (pendingSettingKey saved.key) =
    some ⟨pendingSettingKey saved.key, .versions saved.signature.pendingVersions, saved.updatedAt⟩
  events : ∀ event ∈ saved.signature.championJourney, Holds saved.key.journey d.events event

/-- **Writing a state once more whose content is remembered, at the time it was written, changes nothing.** -/
theorem Settled.write_again (codec : Codec ρ) {saved : Saved φ} (h : Settled saved d) (hsignature : saved.signature = state.signature)
    (hdirty : state.battleReplayDirty = false) (hreplays : state.pendingBattleReplays.rows = []) :
    Succeeds (write codec { state with updatedAt := saved.updatedAt }) d () d := by
  obtain ⟨hkey, hstate, hpending, hevents⟩ := h
  obtain ⟨key, signature, updatedAt⟩ := saved
  dsimp only at hsignature
  subst hsignature
  obtain rfl : state.key = key := hkey
  have hactive : Succeeds (writeActiveReplay codec { state with updatedAt }) d () d := by
    simp only [writeActiveReplay, hdirty]
    exact .pure ()
  have hevent : Succeeds (forM state.pendingBattleReplays.rows (writeEventReplay codec state.key.cohort)) d () d := by
    simp only [hreplays]
    exact .pure ()
  have hrow : d.states.upsert ⟨state.key, updatedAt, state.fields⟩ = d.states := Table.upsert_of_get? hstate
  have hsetting : d.settings.upsert ⟨pendingSettingKey state.key, .versions state.pendingVersions, updatedAt⟩ = d.settings :=
    Table.upsert_of_get? hpending
  have hstates : Succeeds (change fun tables : Tables φ =>
      (.ok ((), { tables with states := tables.states.upsert ⟨state.key, updatedAt, state.fields⟩ }) : Except String _)) d () d :=
    .change (by rw [hrow])
  have hsettings : Succeeds (upsertSettings [(pendingSettingKey state.key, .versions state.pendingVersions)] updatedAt) d () d := by
    simp only [upsertSettings, forM_cons]
    exact Succeeds.bind (.change (by rw [hsetting])) (.pure ())
  exact (insertChampionEvents_again hevents).bind (hactive.bind (hevent.bind (hstates.bind hsettings)))

/-- What is remembered of another key stays in the tables when a state is written. -/
theorem Settled.wrote {saved : Saved φ} (h : Settled saved d) (hwrote : Wrote state d d') (hkey : saved.key ≠ state.key) :
    Settled saved d' := by
  refine ⟨h.key, ?_, ?_, fun event hevent => (h.events event hevent).grows hwrote.grows⟩
  · rw [hwrote.states, Table.get?_upsert, if_neg hkey]
    exact h.state
  · have hname : pendingSettingKey saved.key ≠ pendingSettingKey state.key := fun he => hkey (pendingSettingKey_injective he)
    rw [hwrote.settings, Table.get?_upsert, if_neg hname]
    exact h.pending

/-- What is remembered of a state that was just written stands in the tables, whether its journey was trimmed or not. -/
theorem Wrote.settled {saved : SkillState φ ρ} (h : Wrote state d d') (hkey : saved.key = state.key)
    (hfields : saved.fields = state.fields) (hpending : saved.pendingVersions = state.pendingVersions)
    (hupdated : saved.updatedAt = state.updatedAt) (hjourney : ∀ event ∈ saved.championJourney, event ∈ state.championJourney) :
    Settled ⟨saved.key, saved.signature, saved.updatedAt⟩ d' := by
  refine ⟨rfl, ?_, ?_, fun event hevent => ?_⟩
  · rw [h.states, Table.get?_upsert]
    simp [SkillState.signature, hkey, hfields, hupdated]
  · rw [h.settings, Table.get?_upsert]
    simp [SkillState.signature, hkey, hpending, hupdated]
  · rw [show (⟨saved.key, saved.signature, saved.updatedAt⟩ : Saved φ).key.journey = state.key.journey by rw [hkey]]
    exact h.holds event (hjourney event hevent)

/-! ### The invariant -/

namespace Saver

variable [DecidableEq φ] [DecidableEq ρ] {codec : Codec ρ} {s s' : Saver φ ρ} {address : ℕ} {a : Action φ ρ}

/-- What is remembered is stored. Nothing is remembered while a publication is going on, and only then a transaction is
open. -/
structure Sound (s : Saver φ ρ) : Prop where
  settled : ∀ saved ∈ s.savedSkillStates, Settled saved s.connection.data
  active : s.trainingPublicationActive = true → s.savedSkillStates.rows = []
  idle : s.trainingPublicationActive = false → s.connection.saved = none

omit [DecidableEq φ] [DecidableEq ρ] in
theorem Sound.congr (hs : s.Sound) (hsaved : s'.savedSkillStates = s.savedSkillStates)
    (hdata : s'.connection.data = s.connection.data) (hopen : s'.connection.saved = s.connection.saved)
    (hactive : s'.trainingPublicationActive = s.trainingPublicationActive) : s'.Sound := by
  refine ⟨?_, ?_, ?_⟩
  · rw [hsaved, hdata]
    exact hs.settled
  · rw [hsaved, hactive]
    exact hs.active
  · rw [hopen, hactive]
    exact hs.idle

omit [DecidableEq φ] [DecidableEq ρ] in
/-- Nothing is remembered, and no transaction is open. -/
theorem sound_closed (hopen : s.connection.saved = none) : s.closed.Sound :=
  ⟨fun _ h => absurd h Table.not_mem_empty, by simp [closed], fun _ => hopen⟩

omit [DecidableEq φ] in
/-- **Outside of a publication a save that writes returns with everything written, or raises with nothing written.** -/
theorem persist_idle (codec : Codec ρ) (address : ℕ) (hactive : s.trainingPublicationActive = false) (hopen : s.connection.saved = none) :
    (∃ connection, (s.persist codec address) = (true, { s with connection }.setObject address
        (acknowledge (s.objects address) (s.objects address))) ∧ connection.saved = none ∧
      Returns (write codec (s.objects address)) s.connection.data () connection.data) ∨
    ∃ connection, s.persist codec address = (false, { s with connection }) ∧ connection.saved = none ∧
      connection.data = s.connection.data := by
  have hblock := withConnection_wp (keeps_write codec (s.objects address)) hopen
  unfold persist
  simp only [hactive, Bool.false_eq_true, if_false]
  unfold Wp at hblock
  split at hblock
  · rename_i connection hrun
    rw [hrun]
    exact .inl ⟨connection, rfl, hblock.2, hblock.1⟩
  · rename_i connection hrun
    rw [hrun]
    exact .inr ⟨connection, rfl, hblock.2, hblock.1⟩

omit [DecidableEq φ] in
/-- In a publication nothing is remembered, and no object changes. -/
theorem persist_active (codec : Codec ρ) (address : ℕ) (hactive : s.trainingPublicationActive = true) :
    (s.persist codec address).2.trainingPublicationActive = true ∧
      (s.persist codec address).2.savedSkillStates = s.savedSkillStates := by
  unfold persist
  simp only [hactive, if_true]
  split
  · exact ⟨rfl, rfl⟩
  · exact ⟨rfl, rfl⟩

omit [DecidableEq φ] in
theorem mem_bounded {saved : Table Key (Saved φ) Saved.key} {entry : Saved φ} (h : entry ∈ bounded saved) : entry ∈ saved := by
  unfold bounded at h
  split at h
  · exact h
  · split_ifs at h
    · exact (Table.mem_erase.mp h).1
    · exact h

omit [DecidableEq ρ] in
/-- What a skipped save has found. -/
theorem previous_eq_some {saved : Saved φ} (h : s.previous address = some saved) :
    s.trainingPublicationActive = false ∧ (s.objects address).battleReplayDirty = false ∧
      (s.objects address).pendingBattleReplays.rows = [] ∧ saved ∈ s.savedSkillStates ∧
      saved.signature = (s.objects address).signature := by
  unfold previous at h
  dsimp only at h
  split_ifs at h with hskip
  simp only [not_or, Bool.not_eq_true, ne_eq, not_not] at hskip
  obtain ⟨hget, hsignature⟩ := Option.filter_eq_some_iff.mp h
  exact ⟨hskip.1, hskip.2.2.1, hskip.2.2.2, (Table.get?_eq_some.mp hget).1, by simpa using hsignature⟩

/-! ### The law -/

/-- What a save that returns leaves. An unconditional save of the state, of the time the object has then, would have left
the same tables. Of the object only that time, the replays acknowledged and the length of its journey have changed. -/
structure Invisible (codec : Codec ρ) (s s' : Saver φ ρ) (address : ℕ) : Prop where
  tables : Succeeds (write codec { s.objects address with updatedAt := (s'.objects address).updatedAt }) s.connection.data ()
    s'.connection.data
  others : ∀ other ≠ address, s'.objects other = s.objects other
  state : ∃ updatedAt battleReplayDirty pendingBattleReplays championJourney, s'.objects address =
    { s.objects address with updatedAt, battleReplayDirty, pendingBattleReplays, championJourney }
  journey : (s'.objects address).championJourney = (s.objects address).championJourney ∨
    (s'.objects address).championJourney = (s.objects address).championJourney.rtake recentChampionEventsInMemory ∧
      ∀ event ∈ (s.objects address).championJourney, Holds (s.objects address).key.journey s'.connection.data.events event
  dirty : (s'.objects address).battleReplayDirty = true → (s.objects address).battleReplayDirty = true
  replays : ∀ entry ∈ (s'.objects address).pendingBattleReplays, entry ∈ (s.objects address).pendingBattleReplays

/-- What is promised of an action. -/
def Lawful (codec : Codec ρ) (s : Saver φ ρ) : Action φ ρ → Prop
  | .save address => s.trainingPublicationActive = false → (s.save codec address).1 = true →
      Invisible codec s (s.save codec address).2 address
  | _ => True

omit [DecidableEq φ] in
theorem acknowledge_journey (state : SkillState φ ρ) :
    (acknowledge state state).championJourney = state.championJourney.rtake recentChampionEventsInMemory := by
  simp [acknowledge, ChampionJournal.acknowledge]

omit [DecidableEq φ] in
theorem mem_acknowledge_replays {state saved : SkillState φ ρ} {entry : String × ρ}
    (h : entry ∈ (acknowledge state saved).pendingBattleReplays) : entry ∈ state.pendingBattleReplays := by
  have hfold : ∀ (rows : List (String × ρ)) (pending : Table String (String × ρ) Prod.fst),
      entry ∈ rows.foldl (fun pending entry => if pending.get? entry.1 = some entry then pending.erase entry.1 else pending)
        pending → entry ∈ pending := by
    intro rows
    induction rows with
    | nil => exact fun _ h => h
    | cons row rows ih =>
      intro pending h
      have hrest := ih _ h
      dsimp only at hrest
      split_ifs at hrest
      · exact (Table.mem_erase.mp hrest).1
      · exact hrest
  exact hfold _ _ h

omit [DecidableEq φ] in
theorem invisible_persist {connection : Connection (Tables φ)}
    (hwrites : Returns (write codec (s.objects address)) s.connection.data () connection.data)
    (hconnection : s'.connection = connection)
    (hobjects : s'.objects = Function.update s.objects address (acknowledge (s.objects address) (s.objects address))) :
    Invisible codec s s' address := by
  have hobject : s'.objects address = acknowledge (s.objects address) (s.objects address) := by simp [hobjects]
  refine ⟨?_, fun other hne => by simp [hobjects, hne], ⟨(s.objects address).updatedAt, _, _, _, hobject⟩, .inr ⟨?_, ?_⟩,
    fun h => ?_, fun entry h => ?_⟩
  · rw [hobject, hconnection]
    exact steady_write codec _ _ _ _ hwrites
  · rw [hobject, acknowledge_journey]
  · rw [hconnection]
    exact (wrote hwrites).holds
  · simp [hobject, acknowledge] at h
  · rw [hobject] at h
    exact mem_acknowledge_replays h

/-- **A save outside of a publication.** -/
theorem Sound.save_idle (hs : s.Sound) (hactive : s.trainingPublicationActive = false) :
    (s.save codec address).2.Sound ∧ ((s.save codec address).1 = true → Invisible codec s (s.save codec address).2 address) := by
  have hopen := hs.idle hactive
  cases hprevious : s.previous address with
  | some saved =>
    obtain ⟨-, hdirty, hreplays, hmem, hsignature⟩ := previous_eq_some hprevious
    have hsave : s.save codec address =
        (true, s.setObject address { s.objects address with updatedAt := saved.updatedAt }) := by
      simp only [save, hprevious]
    rw [hsave]
    refine ⟨hs.congr rfl rfl rfl rfl, fun _ => ⟨?_, fun other hne => by simp [setObject, hne], ?_, ?_, ?_, ?_⟩⟩
    · have hagain := (hs.settled saved hmem).write_again codec hsignature hdirty hreplays
      simpa [setObject] using hagain
    · exact ⟨saved.updatedAt, (s.objects address).battleReplayDirty, (s.objects address).pendingBattleReplays,
        (s.objects address).championJourney, by simp [setObject]⟩
    · exact .inl (by simp [setObject])
    · simp [setObject]
    · simp [setObject]
  | none =>
    rcases persist_idle codec address hactive hopen with
      ⟨connection, hpersist, hclosed, hwrites⟩ | ⟨connection, hpersist, hclosed, hdata⟩
    · have hsave : s.save codec address = (true, ({ s with connection }.setObject address
          (acknowledge (s.objects address) (s.objects address))).remember address) := by
        simp [save, hprevious, hpersist, setObject, hactive]
      rw [hsave]
      refine ⟨⟨fun saved hsaved => ?_, fun h => ?_, fun _ => hclosed⟩, fun _ => invisible_persist hwrites rfl rfl⟩
      · have hwrote := wrote hwrites
        rcases Table.mem_upsert.mp (mem_bounded hsaved) with rfl | ⟨hold, hkey⟩
        · simp only [setObject, Function.update_self]
          refine hwrote.settled rfl rfl rfl rfl fun event hevent => ?_
          rw [acknowledge_journey] at hevent
          exact (Selection.rtake_sublist _ _).subset hevent
        · refine (hs.settled saved hold).wrote hwrote ?_
          simpa [setObject, acknowledge] using hkey
      · exact absurd (hactive.symm.trans h) (by simp)
    · have hsave : s.save codec address = (false, { s with connection }) := by
        simp [save, hprevious, hpersist]
      rw [hsave]
      refine ⟨⟨fun saved hsaved => ?_, hs.active, fun _ => hclosed⟩, by simp⟩
      simp only [hdata]
      exact hs.settled saved hsaved

/-! ### Publications remember nothing -/

/-- A publication is going on, and nothing is remembered. -/
def Publishing (s : Saver φ ρ) : Prop := s.trainingPublicationActive = true ∧ s.savedSkillStates.rows = []

omit [DecidableEq φ] [DecidableEq ρ] in
theorem Publishing.sound (hp : s.Publishing) : s.Sound :=
  ⟨fun saved h => absurd h (by simp [Table.mem_def, hp.2]), fun _ => hp.2, by simp [hp.1]⟩

omit [DecidableEq φ] [DecidableEq ρ] in
theorem Sound.publishing (hs : s.Sound) (hactive : s.trainingPublicationActive = true) : s.Publishing :=
  ⟨hactive, hs.active hactive⟩

theorem Publishing.save (hp : s.Publishing) : (s.save codec address).2.Publishing := by
  have hprevious : s.previous address = none := by simp [previous, hp.1]
  obtain ⟨hactive, hsaved⟩ := persist_active codec address hp.1
  simp only [Saver.save, hprevious, hactive, not_true, and_false, if_false]
  exact ⟨hactive, by rw [hsaved, hp.2]⟩

omit [DecidableEq φ] [DecidableEq ρ] in
theorem Publishing.writeSettings (hp : s.Publishing) (items : List (String × SettingValue)) (now : Instant) :
    (s.writeSettings items now).2.Publishing := by
  unfold Saver.writeSettings
  split <;> exact hp

omit [DecidableEq φ] in
theorem acknowledged_connection (s : Saver φ ρ) : s.acknowledged.connection = s.connection := by
  have hfold : ∀ (rows : List (Ack φ ρ)) (s : Saver φ ρ), (rows.foldl (fun s ack =>
      s.setObject ack.address (acknowledge (s.objects ack.address) ack.saved)) s).connection = s.connection := by
    intro rows
    induction rows with
    | nil => exact fun _ => rfl
    | cons row rows ih => exact fun s => ih _
  exact hfold _ _

omit [DecidableEq φ] in
theorem commit_closes {connection connection' : Connection (Tables φ)} {u : Unit}
    (h : (commit : Session String (Tables φ) Unit) connection = .ok u connection') : connection'.saved = none := by
  have hwp : Wp (commit : Session String (Tables φ) Unit) (fun _ c => c.saved = none) (fun _ _ => True) connection := by
    unfold commit
    refine wp_bind.mpr (wp_get.mpr (wp_ite.mpr ⟨fun _ => ?_, fun hclosed => ?_⟩))
    · exact wp_bind.mpr (statement_wp (fun _ => rfl) fun _ => trivial)
    · simpa using hclosed
  simpa [Wp, h] using hwp

omit [DecidableEq φ] in
theorem sound_leave (s : Saver φ ρ) (raised : Bool) : (s.leave raised).2.Sound := by
  unfold leave
  split_ifs
  · exact sound_closed rfl
  · split
    · rename_i connection hcommit
      refine sound_closed ?_
      rw [acknowledged_connection]
      exact commit_closes hcommit
    · exact sound_closed rfl

omit [DecidableEq φ] [DecidableEq ρ] in
/-- A publication that is entered begins with nothing remembered. -/
theorem Sound.enter (hs : s.Sound) : s.enter.2.Sound ∧ (s.enter.1 = true → s.enter.2.Publishing) := by
  unfold Saver.enter
  split_ifs
  · exact ⟨hs, by simp⟩
  · split
    · have hp : Publishing { s with
          connection := ‹_›, trainingPublicationActive := true, savedSkillStates := .empty, publicationSkillAcks := .empty } :=
        ⟨rfl, rfl⟩
      exact ⟨hp.sound, fun _ => hp⟩
    · exact ⟨sound_closed rfl, by simp⟩

theorem Sound.saveAuthority (hs : s.Sound) (addresses : List ℕ) (items : List (String × SettingValue)) (now : Instant) :
    (s.saveAuthority codec addresses items now).2.Sound := by
  obtain ⟨hentered, -⟩ := hs.enter
  unfold Saver.saveAuthority
  dsimp only
  split_ifs
  · exact sound_leave _ _
  · exact sound_leave _ _
  · exact hentered

/-! ### Runs -/

/-- A step keeps what the skips rest on. -/
theorem Sound.step (hs : s.Sound) (a : Action φ ρ) : (s.step codec a).Sound := by
  cases a with
  | assign address state => exact hs.congr rfl rfl rfl rfl
  | save address =>
    cases hactive : s.trainingPublicationActive with
    | true => exact (hs.publishing hactive).save.sound
    | false => exact (hs.save_idle hactive).1
  | enter => exact hs.enter.1
  | writeSettings items now =>
    simp only [Saver.step]
    split_ifs with hactive
    · exact ((hs.publishing hactive).writeSettings items now).sound
    · exact hs
  | leave raised =>
    simp only [Saver.step]
    split_ifs
    · exact sound_leave s raised
    · exact hs
  | saveAuthority addresses items now => exact hs.saveAuthority addresses items now
  | weather faults => exact hs.congr rfl rfl rfl rfl

/-- Before anything is saved. -/
def start (objects : ℕ → SkillState φ ρ) (tables : Tables φ) : Saver φ ρ where
  objects := objects
  connection := ⟨tables, none, []⟩

end Saver

end SignalArcade.SkillStateSaves
