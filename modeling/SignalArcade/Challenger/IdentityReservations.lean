import SignalArcade.Lib.Slices
import SignalArcade.Paper.Models
import Mathlib.Data.List.Sort
import Mathlib.Data.Prod.Lex
import Mathlib.Data.String.Basic

/-!
# Reservations of policy identities

`remember_policy_identities` keeps, in the table `learning_policy_identities`, one row for each policy identity: the
time and the name of the earliest episode that was told of it. What it is told are batches of texts: a
key, a clock and the id of an episode, where the clock may be unreadable, or of any time zone, and an empty
id reserves the identity for no episode.
-/

namespace SignalArcade.Reservations

open Paper (Instant)
open Checked Slices List

/-! ### Clocks -/

/-- A text in the place of a clock. -/
inductive IsoText where
  /-- `fromisoformat` raises `ValueError`. -/
  | unreadable (text : String)
  /-- A date and a time of day without a UTC offset. -/
  | naive (wall : ℤ) (spelling : ℕ)
  /-- A date and a time of day with one, both in microseconds. -/
  | aware (wall offset : ℤ) (spelling : ℕ)
  deriving DecidableEq

/-- `OverflowError`: a date of no year from 1 to 9999. -/
inductive Overflow where
  | dateOutOfRange

/-- Midnight of the first day of the year 1, in microseconds from 1970 on. -/
def datetimeMin : ℤ := -62135596800 * 1000000

/-- The last microsecond of the year 9999. -/
def datetimeMax : ℤ := 253402300799999999

/-- A whole day, which the offset of a `timezone` has to stay below. -/
def oneDay : ℤ := 24 * 60 * 60 * 1000000

/-- Whether a time is one of a `datetime`. -/
def InRange (wall : ℤ) : Prop := datetimeMin ≤ wall ∧ wall ≤ datetimeMax

instance (wall : ℤ) : Decidable (InRange wall) := inferInstanceAs (Decidable (_ ∧ _))

/-- The UTC time of a text, if it is a `datetime` with an offset. `astimezone` raises where that is no `datetime`. -/
def instant : IsoText → Except Overflow (Option Instant)
  | .unreadable _ => return none
  | .naive _ _ => return none
  | .aware wall offset _ => do
      if ¬ (InRange wall ∧ -oneDay < offset ∧ offset < oneDay) then
        return none
      raiseIf (¬ InRange (wall - offset)) .dateOutOfRange
      return some (wall - offset)

/-- `isoformat`, of a UTC time. -/
def isoformat (time : Instant) : IsoText := .aware time 0 0

theorem instant_isoformat {time : Instant} (h : InRange time) : instant (isoformat time) = .ok (some time) := by
  have hread : InRange time ∧ -oneDay < (0 : ℤ) ∧ (0 : ℤ) < oneDay := ⟨h, by decide, by decide⟩
  simp [instant, isoformat, hread, raiseIf, bind, Except.bind, pure, Except.pure]

/-- The instants that are read are those of a `datetime`. -/
theorem inRange_of_instant {clock : IsoText} {time : Instant} (h : instant clock = .ok (some time)) : InRange time := by
  cases clock with
  | unreadable text => cases h
  | naive wall spelling => cases h
  | aware wall offset spelling =>
    dsimp only [instant] at h
    by_cases hread : InRange wall ∧ -oneDay < offset ∧ offset < oneDay
    · rw [if_neg (not_not.mpr hread)] at h
      obtain ⟨u, hraise, htime⟩ := bind_eq_ok.mp h
      obtain rfl : wall - offset = time := by simpa [pure, Except.pure] using htime
      exact not_not.mp (raiseIf_eq_ok.mp hraise)
    · rw [if_pos hread] at h
      cases h

/-! ### The ledger -/

/-- A row of `learning_policy_identities`: the first episode of a key. -/
structure Identity where
  key : String
  clock : IsoText
  episodeId : String

/-- A row of `learning_policy_identities`. -/
structure Row where
  identityKey : String
  firstEntryAt : IsoText
  firstEpisodeId : String
  deriving DecidableEq

/-- `learning_policy_identities`, and a dictionary of what is read from it. -/
abbrev Ledger := Table String Row Row.identityKey

/-- The reservation that is told. -/
def Identity.incoming (identity : Identity) : Option Instant → Row
  | some incomingAt => ⟨identity.key, isoformat incomingAt, identity.episodeId⟩
  | none => ⟨identity.key, .unreadable "", ""⟩

/-- Which reservation stands, where one did. -/
def Identity.select (identity : Identity) (incomingAt : Option Instant) : Option Row → Except Overflow Row
  | none => return identity.incoming incomingAt
  | some current => do
      if current.firstEpisodeId = "" ∧ identity.episodeId ≠ "" then
        return identity.incoming incomingAt
      match incomingAt with
      | none => return current
      | some incomingAt => do
          if identity.episodeId = "" then
            return current
          -- An ambiguous existing reservation is not replaced.
          match ← instant current.firstEntryAt with
          | none => return current
          | some currentAt =>
              let earliest := min (toLex (currentAt, current.firstEpisodeId)) (toLex (incomingAt, identity.episodeId))
              return ⟨identity.key, isoformat (ofLex earliest).1, (ofLex earliest).2⟩

/-- `existing` and `updates`. -/
structure Progress where
  existing : Ledger
  updates : Ledger

/-- The body of the loop over the identities. -/
def Progress.remember (p : Progress) (identity : Identity) : Except Overflow Progress := do
  let current := p.existing.get? identity.key
  let incomingAt ← instant identity.clock
  if identity.episodeId ≠ "" ∧ incomingAt = none then
    return p
  let selected ← identity.select incomingAt current
  if some selected = current then
    return p
  return ⟨p.existing.upsert selected, p.updates.upsert selected⟩

def Ledger.read (ledger : Ledger) (keys : List String) : Ledger :=
  (slices 400 keys).foldl
    (fun existing batch => (ledger.rows.filter (·.identityKey ∈ batch)).foldl Table.upsert existing) Table.empty

/-- `remember_policy_identities`. -/
def Ledger.remember (ledger : Ledger) (identities : List Identity) : Except Overflow Ledger := do
  if identities = [] then
    return ledger
  let keys := (identities.map (·.key)).dedup.insertionSort (· ≤ ·)
  let p ← identities.foldlM Progress.remember ⟨ledger.read keys, Table.empty⟩
  return p.updates.rows.foldl Table.upsert ledger

/-- What the table holds after a call, which rolls back where it raises. -/
def Ledger.attempt (ledger : Ledger) (identities : List Identity) : Ledger :=
  match ledger.remember identities with
  | .ok ledger' => ledger'
  | .error _ => ledger

/-- What the table holds after some calls. -/
def Ledger.attempts (ledger : Ledger) (calls : List (List Identity)) : Ledger := calls.foldl Ledger.attempt ledger

/-! ### What was told -/

/-- The episodes that were told of a key with a clock that can be read, by instant and id. -/
def episodes (told : List Identity) (key : String) : Set (Instant ×ₗ String) :=
  {e | ∃ identity ∈ told, identity.key = key ∧ identity.episodeId ≠ "" ∧
    instant identity.clock = .ok (some (ofLex e).1) ∧ identity.episodeId = (ofLex e).2}

/-- The first reservation without an episode. -/
def firstEmpty (told : List Identity) (key : String) : Option Identity :=
  told.find? fun identity => identity.key = key ∧ identity.episodeId = ""

/-- The clock as it is written back. -/
def keptClock (clock : IsoText) : IsoText :=
  match instant clock with
  | .ok (some time) => isoformat time
  | _ => .unreadable ""

/-- The row of a key is the reservation of the least episode, or an empty one. -/
def Stands (told : List Identity) (key : String) : Option Row → Prop
  | none => episodes told key = ∅ ∧ firstEmpty told key = none
  | some row => row.identityKey = key ∧
      ((∃ least, IsLeast (episodes told key) least ∧ row.firstEntryAt = isoformat (ofLex least).1 ∧
          row.firstEpisodeId = (ofLex least).2) ∨
        episodes told key = ∅ ∧ row.firstEpisodeId = "" ∧
          ∃ identity, firstEmpty told key = some identity ∧ row.firstEntryAt = keptClock identity.clock)

variable {told : List Identity} {identity : Identity} {key : String}

theorem episodes_append_of_not
    (h : ¬ (identity.key = key ∧ identity.episodeId ≠ "" ∧ instant identity.clock ≠ .ok none)) :
    episodes (told ++ [identity]) key = episodes told key := by
  ext e
  constructor
  · rintro ⟨identity', hmem, hkey, hid, hat, he⟩
    rcases mem_append.mp hmem with hmem | hmem
    · exact ⟨identity', hmem, hkey, hid, hat, he⟩
    · obtain rfl := mem_singleton.mp hmem
      exact absurd ⟨hkey, hid, by simp [hat]⟩ h
  · rintro ⟨identity', hmem, rest⟩
    exact ⟨identity', mem_append_left _ hmem, rest⟩

theorem episodes_append {incomingAt : Instant} (hid : identity.episodeId ≠ "")
    (hat : instant identity.clock = .ok (some incomingAt)) :
    episodes (told ++ [identity]) identity.key =
      insert (toLex (incomingAt, identity.episodeId)) (episodes told identity.key) := by
  ext e
  constructor
  · rintro ⟨identity', hmem, hkey, hid', hat', he⟩
    rcases mem_append.mp hmem with hmem | hmem
    · exact .inr ⟨identity', hmem, hkey, hid', hat', he⟩
    · obtain rfl := mem_singleton.mp hmem
      have htime : incomingAt = (ofLex e).1 := by simpa using hat.symm.trans hat'
      exact .inl (ofLex.injective (Prod.ext htime.symm he.symm))
  · rintro (rfl | ⟨identity', hmem, rest⟩)
    · exact ⟨identity, by simp, rfl, hid, hat, rfl⟩
    · exact ⟨identity', mem_append_left _ hmem, rest⟩

theorem firstEmpty_append_of_not (h : ¬ (identity.key = key ∧ identity.episodeId = "")) :
    firstEmpty (told ++ [identity]) key = firstEmpty told key := by
  simp [firstEmpty, List.find?_append, h]

theorem firstEmpty_append_of_some {first : Identity} (h : firstEmpty told key = some first) :
    firstEmpty (told ++ [identity]) key = some first := by
  unfold firstEmpty at h ⊢
  rw [List.find?_append, h]
  rfl

theorem firstEmpty_append (h : firstEmpty told identity.key = none) (hid : identity.episodeId = "") :
    firstEmpty (told ++ [identity]) identity.key = some identity := by
  unfold firstEmpty at h ⊢
  rw [List.find?_append, h]
  simp [hid]

/-! ### One identity -/

theorem Stands.other {row : Option Row} (h : Stands told key row) (hkey : identity.key ≠ key) :
    Stands (told ++ [identity]) key row := by
  have hepisodes : episodes (told ++ [identity]) key = episodes told key :=
    episodes_append_of_not fun hcond => hkey hcond.1
  have hempty : firstEmpty (told ++ [identity]) key = firstEmpty told key :=
    firstEmpty_append_of_not fun hcond => hkey hcond.1
  cases row with
  | none => exact ⟨hepisodes.trans h.1, hempty.trans h.2⟩
  | some row =>
    obtain ⟨hrow, hwhich⟩ := h
    refine ⟨hrow, ?_⟩
    rw [hepisodes, hempty]
    exact hwhich

theorem Stands.unreadable {row : Option Row} (h : Stands told key row) (hid : identity.episodeId ≠ "")
    (hat : instant identity.clock = .ok none) : Stands (told ++ [identity]) key row := by
  have hepisodes : episodes (told ++ [identity]) key = episodes told key :=
    episodes_append_of_not fun hcond => hcond.2.2 hat
  have hempty : firstEmpty (told ++ [identity]) key = firstEmpty told key :=
    firstEmpty_append_of_not fun hcond => hid hcond.2
  cases row with
  | none => exact ⟨hepisodes.trans h.1, hempty.trans h.2⟩
  | some row =>
    obtain ⟨hrow, hwhich⟩ := h
    refine ⟨hrow, ?_⟩
    rw [hepisodes, hempty]
    exact hwhich

theorem Stands.again {row : Row} (h : Stands told key (some row)) (hid : identity.episodeId = "") :
    Stands (told ++ [identity]) key (some row) := by
  have hepisodes : episodes (told ++ [identity]) key = episodes told key :=
    episodes_append_of_not fun hcond => hcond.2.1 hid
  obtain ⟨hrow, hleast | ⟨hnone, hempty, first, hfirst, hclock⟩⟩ := h
  · refine ⟨hrow, .inl ?_⟩
    rw [hepisodes]
    exact hleast
  · exact ⟨hrow, .inr ⟨hepisodes.trans hnone, hempty, first, firstEmpty_append_of_some hfirst, hclock⟩⟩

theorem stands_first {incomingAt : Instant} (hnone : episodes told identity.key = ∅) (hid : identity.episodeId ≠ "")
    (hat : instant identity.clock = .ok (some incomingAt)) :
    Stands (told ++ [identity]) identity.key (some (identity.incoming (some incomingAt))) := by
  refine ⟨rfl, .inl ⟨toLex (incomingAt, identity.episodeId), ?_, rfl, rfl⟩⟩
  rw [episodes_append hid hat, hnone]
  simp

variable {incomingAt : Option Instant} {keys : List String} {ledger : Ledger} {identities : List Identity}

theorem stands_empty (h : Stands told identity.key none) (hid : identity.episodeId = "")
    (hat : instant identity.clock = .ok incomingAt) :
    Stands (told ++ [identity]) identity.key (some (identity.incoming incomingAt)) := by
  have hepisodes : episodes (told ++ [identity]) identity.key = ∅ :=
    (episodes_append_of_not fun hcond => hcond.2.1 hid).trans h.1
  have hfirst := firstEmpty_append h.2 hid
  cases incomingAt with
  | none => exact ⟨rfl, .inr ⟨hepisodes, rfl, identity, hfirst, by simp [Identity.incoming, keptClock, hat]⟩⟩
  | some incomingAt => exact ⟨rfl, .inr ⟨hepisodes, hid, identity, hfirst, by simp [Identity.incoming, keptClock, hat]⟩⟩

theorem Stands.least {row : Row} (h : Stands told key (some row)) (hid : row.firstEpisodeId ≠ "") :
    ∃ least, IsLeast (episodes told key) least ∧ row = ⟨key, isoformat (ofLex least).1, (ofLex least).2⟩ ∧
      instant row.firstEntryAt = .ok (some (ofLex least).1) := by
  obtain ⟨hrow, ⟨least, hleast, hclock, hepisode⟩ | ⟨-, hempty, -⟩⟩ := h
  · obtain ⟨identity, -, -, -, hat, -⟩ := hleast.1
    refine ⟨least, hleast, ?_, ?_⟩
    · cases row
      cases hrow
      cases hclock
      cases hepisode
      rfl
    · rw [hclock]
      exact instant_isoformat (inRange_of_instant hat)
  · exact absurd hempty hid

theorem Stands.none_told {row : Row} (h : Stands told key (some row)) (hid : row.firstEpisodeId = "") :
    episodes told key = ∅ := by
  obtain ⟨-, ⟨least, hleast, -, hepisode⟩ | ⟨hnone, -⟩⟩ := h
  · obtain ⟨identity, -, -, hne, -, heq⟩ := hleast.1
    exact absurd (heq.trans (hepisode.symm.trans hid)) hne
  · exact hnone

/-- **One identity**: what is selected is the least of the episodes once this one is among them. -/
theorem select_stands {current : Option Row} (h : Stands told identity.key current)
    (hat : instant identity.clock = .ok incomingAt) (hvalid : ¬ (identity.episodeId ≠ "" ∧ incomingAt = none)) :
    ∃ selected, identity.select incomingAt current = .ok selected ∧
      Stands (told ++ [identity]) identity.key (some selected) := by
  cases current with
  | none =>
    refine ⟨identity.incoming incomingAt, rfl, ?_⟩
    by_cases hid : identity.episodeId = ""
    · exact stands_empty h hid hat
    · obtain ⟨time, rfl⟩ := Option.ne_none_iff_exists'.mp fun hnone => hvalid ⟨hid, hnone⟩
      exact stands_first h.1 hid hat
  | some current =>
    by_cases hempty : current.firstEpisodeId = "" ∧ identity.episodeId ≠ ""
    · obtain ⟨time, rfl⟩ := Option.ne_none_iff_exists'.mp fun hnone => hvalid ⟨hempty.2, hnone⟩
      exact ⟨identity.incoming (some time), if_pos hempty, stands_first (h.none_told hempty.1) hempty.2 hat⟩
    · by_cases hid : identity.episodeId = ""
      · refine ⟨current, ?_, h.again hid⟩
        cases incomingAt with
        | none => simp [Identity.select, hid, pure, Except.pure]
        | some time => simp [Identity.select, hid, pure, Except.pure]
      · obtain ⟨time, rfl⟩ := Option.ne_none_iff_exists'.mp fun hnone => hvalid ⟨hid, hnone⟩
        have hepisode : current.firstEpisodeId ≠ "" := fun hnone => hempty ⟨hnone, hid⟩
        obtain ⟨least, hleast, hrow, hclock⟩ := h.least hepisode
        have hmin := hleast.insert (toLex (time, identity.episodeId))
        rw [min_comm, ← episodes_append hid hat] at hmin
        refine ⟨⟨identity.key, isoformat (ofLex (min least (toLex (time, identity.episodeId)))).1,
          (ofLex (min least (toLex (time, identity.episodeId)))).2⟩, ?_, rfl, .inl ⟨_, hmin, rfl, rfl⟩⟩
        have hcurrent : toLex ((ofLex least).1, current.firstEpisodeId) = least := by
          rw [hrow]
          rfl
        simp [Identity.select, hepisode, hid, hclock, hcurrent, bind, Except.bind, pure, Except.pure]

/-! ### One call -/

theorem get?_foldl_upsert {source : Ledger} {rows : List Row} (hrows : ∀ row ∈ rows, row ∈ source) (ledger : Ledger)
    (key : String) : (rows.foldl Table.upsert ledger).get? key =
      if key ∈ rows.map Row.identityKey then source.get? key else ledger.get? key := by
  induction rows generalizing ledger with
  | nil => simp
  | cons row rows ih =>
    rw [foldl_cons, ih (fun r hr => hrows r (mem_cons_of_mem _ hr)), Table.get?_upsert, map_cons]
    by_cases hmem : key ∈ rows.map Row.identityKey
    · rw [if_pos hmem, if_pos (mem_cons_of_mem _ hmem)]
    · by_cases hkey : key = row.identityKey
      · rw [if_neg hmem, if_pos hkey, if_pos (by rw [hkey]; exact mem_cons_self)]
        exact (Table.get?_eq_some.mpr ⟨hrows row mem_cons_self, hkey.symm⟩).symm
      · rw [if_neg hmem, if_neg hkey, if_neg (by simp [hkey, hmem])]

theorem get?_read (hkey : key ∈ keys) :
    (ledger.read keys).get? key = ledger.get? key := by
  have hread : ledger.read keys =
      ((slices 400 keys).flatMap fun batch => ledger.rows.filter (·.identityKey ∈ batch)).foldl Table.upsert
        Table.empty := by
    rw [foldl_flatMap]
    rfl
  rw [hread, @get?_foldl_upsert ledger]
  · split_ifs with hmem
    · rfl
    · have hnone : ledger.get? key = none := by
        rw [Table.get?_eq_none]
        rintro row hrow rfl
        obtain ⟨slice, hslice, hin⟩ := (mem_slices (show 0 < 400 by decide)).mpr hkey
        exact hmem (mem_map_of_mem (mem_flatMap.mpr ⟨slice, hslice, mem_filter.mpr ⟨hrow, by simpa⟩⟩))
      rw [hnone, Table.get?_eq_none]
      exact fun row hrow => absurd hrow Table.not_mem_empty
  · intro row hrow
    obtain ⟨slice, -, hin⟩ := mem_flatMap.mp hrow
    exact (mem_filter.mp hin).1

/-- What the table will hold. -/
def Progress.row (p : Progress) (ledger : Ledger) (key : String) : Option Row := (p.updates.get? key).or (ledger.get? key)

theorem get?_written (p : Progress) (ledger : Ledger) (key : String) :
    (p.updates.rows.foldl Table.upsert ledger).get? key = p.row ledger key := by
  rw [@get?_foldl_upsert p.updates _ (fun row hrow => hrow), Progress.row]
  split_ifs with hmem
  · obtain ⟨row, hrow, hkey⟩ := mem_map.mp hmem
    rw [Table.get?_eq_some.mpr ⟨hrow, hkey⟩]
    rfl
  · have hnone : p.updates.get? key = none :=
      Table.get?_eq_none.mpr fun row hrow hkey => hmem (mem_map.mpr ⟨row, hrow, hkey⟩)
    rw [hnone]
    rfl

/-- The dictionary of a call knows what the table will hold, of the keys of the call. -/
def Progress.Knows (p : Progress) (ledger : Ledger) (keys : List String) : Prop :=
  ∀ key ∈ keys, p.existing.get? key = p.row ledger key

variable {p : Progress} {told' : List Identity}

theorem Progress.Knows.upsert (h : p.Knows ledger keys) (row : Row) :
    Progress.Knows ⟨p.existing.upsert row, p.updates.upsert row⟩ ledger keys := by
  intro key hkey
  dsimp only [Progress.row]
  rw [Table.get?_upsert, Table.get?_upsert]
  by_cases hrow : key = row.identityKey
  · rw [if_pos hrow, if_pos hrow]
    rfl
  · rw [if_neg hrow, if_neg hrow]
    exact h key hkey

theorem Progress.row_upsert (p : Progress) (ledger : Ledger) (row : Row) (key : String) :
    Progress.row ⟨p.existing.upsert row, p.updates.upsert row⟩ ledger key =
      if key = row.identityKey then some row else p.row ledger key := by
  dsimp only [Progress.row]
  rw [Table.get?_upsert]
  split_ifs with hkey <;> rfl

/-- **One step of the loop.** -/
theorem Progress.remember_stands (hknows : p.Knows ledger keys)
    (hstands : ∀ key, Stands told key (p.row ledger key)) (hkey : identity.key ∈ keys)
    (hat : instant identity.clock = .ok incomingAt) :
    ∃ p', p.remember identity = .ok p' ∧ p'.Knows ledger keys ∧
      ∀ key, Stands (told ++ [identity]) key (p'.row ledger key) := by
  by_cases hvalid : identity.episodeId ≠ "" ∧ incomingAt = none
  · refine ⟨p, ?_, hknows, fun key => ?_⟩
    · simp [Progress.remember, hat, hvalid, bind, Except.bind, pure, Except.pure]
    · by_cases hother : identity.key = key
      · exact (hstands key).unreadable hvalid.1 (hvalid.2 ▸ hat)
      · exact (hstands key).other hother
  · obtain ⟨selected, hselect, hselected⟩ := select_stands (hstands identity.key) hat hvalid
    have hrow : selected.identityKey = identity.key := hselected.1
    rw [← hknows identity.key hkey] at hselect
    by_cases hsame : some selected = p.existing.get? identity.key
    · refine ⟨p, ?_, hknows, fun key => ?_⟩
      · simp [Progress.remember, hat, hvalid, hselect, hsame, bind, Except.bind, pure, Except.pure]
      · by_cases hother : identity.key = key
        · rw [← hother, ← hknows identity.key hkey, ← hsame]
          exact hselected
        · exact (hstands key).other hother
    · refine ⟨⟨p.existing.upsert selected, p.updates.upsert selected⟩, ?_, hknows.upsert selected, fun key => ?_⟩
      · simp [Progress.remember, hat, hvalid, hselect, hsame, bind, Except.bind, pure, Except.pure]
      · rw [Progress.row_upsert, hrow]
        split_ifs with hother
        · rw [hother]
          exact hselected
        · exact (hstands key).other (Ne.symm hother)

theorem Progress.foldlM_remember_stands
    (hknows : p.Knows ledger keys) (hstands : ∀ key, Stands told key (p.row ledger key))
    (hkeys : ∀ identity ∈ identities, identity.key ∈ keys)
    (hat : ∀ identity ∈ identities, ∃ incomingAt, instant identity.clock = .ok incomingAt) :
    ∃ p', identities.foldlM Progress.remember p = .ok p' ∧
      ∀ key, Stands (told ++ identities) key (p'.row ledger key) := by
  induction identities generalizing told p with
  | nil => exact ⟨p, rfl, by simpa using hstands⟩
  | cons identity identities ih =>
    obtain ⟨incomingAt, hclock⟩ := hat identity mem_cons_self
    obtain ⟨p', hp', hknows', hstands'⟩ := p.remember_stands hknows hstands (hkeys identity mem_cons_self) hclock
    obtain ⟨p'', hp'', hstands''⟩ := ih hknows' hstands' (fun i hi => hkeys i (mem_cons_of_mem _ hi))
      (fun i hi => hat i (mem_cons_of_mem _ hi))
    refine ⟨p'', ?_, by simpa using hstands''⟩
    rw [foldlM_cons, hp']
    exact hp''

/-- **One call** keeps the reservations, where none of its clocks is out of range. -/
theorem Ledger.remember_stands (h : ∀ key, Stands told key (ledger.get? key))
    (hat : ∀ identity ∈ identities, ∃ incomingAt, instant identity.clock = .ok incomingAt) :
    ∃ ledger', ledger.remember identities = .ok ledger' ∧ ∀ key, Stands (told ++ identities) key (ledger'.get? key) := by
  by_cases hnil : identities = []
  · exact ⟨ledger, by simp [Ledger.remember, hnil, pure, Except.pure], by simpa [hnil] using h⟩
  · have hkeys : ∀ identity ∈ identities, identity.key ∈ (identities.map (·.key)).dedup.insertionSort (· ≤ ·) := by
      intro identity hmem
      rw [mem_insertionSort, mem_dedup]
      exact mem_map_of_mem hmem
    generalize hsorted : (identities.map (·.key)).dedup.insertionSort (· ≤ ·) = keys at hkeys
    have hknows : Progress.Knows ⟨ledger.read keys, Table.empty⟩ ledger keys := by
      intro key hkey
      rw [get?_read hkey]
      rfl
    obtain ⟨p', hp', hstands⟩ := Progress.foldlM_remember_stands hknows h hkeys hat
    refine ⟨p'.updates.rows.foldl Table.upsert ledger, ?_, fun key => ?_⟩
    · simp [Ledger.remember, hnil, hsorted, hp', bind, Except.bind, pure, Except.pure]
    · rw [get?_written]
      exact hstands key

theorem Progress.clocks_of_foldlM {p p' : Progress} (h : identities.foldlM Progress.remember p = .ok p') :
    ∀ identity ∈ identities, ∃ incomingAt, instant identity.clock = .ok incomingAt := by
  induction identities generalizing p with
  | nil => simp
  | cons identity identities ih =>
    rw [foldlM_cons] at h
    obtain ⟨p₁, hp₁, hrest⟩ := bind_eq_ok.mp h
    obtain ⟨incomingAt, hat, -⟩ := bind_eq_ok.mp hp₁
    intro identity' hmem
    rcases mem_cons.mp hmem with rfl | hmem
    · exact ⟨incomingAt, hat⟩
    · exact ih hrest identity' hmem

theorem Ledger.clocks_of_remember {ledger ledger' : Ledger} (h : ledger.remember identities = .ok ledger') :
    ∀ identity ∈ identities, ∃ incomingAt, instant identity.clock = .ok incomingAt := by
  by_cases hnil : identities = []
  · simp [hnil]
  · simp only [Ledger.remember, hnil, if_false] at h
    obtain ⟨p, hp, -⟩ := bind_eq_ok.mp h
    exact Progress.clocks_of_foldlM hp

/-! ### Calls -/

/-- Whether no clock of a call is out of range. -/
def accepts (identities : List Identity) : Bool := identities.all fun identity => (instant identity.clock).isOk

/-- What was told by the calls that return. -/
def accepted (calls : List (List Identity)) : List Identity := (calls.filter accepts).flatten

theorem accepts_iff :
    accepts identities ↔ ∀ identity ∈ identities, ∃ incomingAt, instant identity.clock = .ok incomingAt := by
  rw [accepts, all_eq_true]
  refine forall₂_congr fun identity _ => ?_
  cases instant identity.clock with
  | ok incomingAt => simp [Except.isOk, Except.toBool]
  | error e => simp [Except.isOk, Except.toBool]

theorem Ledger.attempt_stands (h : ∀ key, Stands told key (ledger.get? key)) (identities : List Identity) :
    ∀ key, Stands (told ++ accepted [identities]) key ((ledger.attempt identities).get? key) := by
  by_cases haccepts : accepts identities
  · obtain ⟨ledger', hledger', hstands⟩ := Ledger.remember_stands h (accepts_iff.mp haccepts)
    simpa [Ledger.attempt, hledger', accepted, haccepts] using hstands
  · cases hledger : ledger.remember identities with
    | ok ledger' => exact absurd (accepts_iff.mpr (Ledger.clocks_of_remember hledger)) haccepts
    | error e => simpa [Ledger.attempt, hledger, accepted, haccepts] using h

theorem Ledger.attempts_stands (h : ∀ key, Stands told key (ledger.get? key))
    (calls : List (List Identity)) : ∀ key, Stands (told ++ accepted calls) key ((ledger.attempts calls).get? key) := by
  induction calls generalizing told ledger with
  | nil => simpa [accepted, Ledger.attempts] using h
  | cons identities calls ih =>
    have hrest := ih (Ledger.attempt_stands h identities)
    have happend : accepted [identities] ++ accepted calls = accepted (identities :: calls) := by
      rw [accepted, accepted, accepted, ← flatten_append, ← filter_append]
      rfl
    rw [append_assoc, happend] at hrest
    exact hrest

theorem stands_attempts (calls : List (List Identity)) (key : String) :
    Stands (accepted calls) key ((Ledger.attempts Table.empty calls).get? key) := by
  have hempty : ∀ key, Stands [] key ((Table.empty : Ledger).get? key) := by
    intro key
    have hnone : (Table.empty : Ledger).get? key = none := rfl
    rw [hnone]
    exact ⟨Set.eq_empty_of_forall_notMem (by rintro e ⟨identity, hmem, -⟩; cases hmem), rfl⟩
  simpa using Ledger.attempts_stands hempty calls key

/-! ### Equal clocks and unreadable ones -/

theorem Ledger.remember_map {respell : Identity → Identity} (hkey : ∀ identity, (respell identity).key = identity.key)
    (hid : ∀ identity, (respell identity).episodeId = identity.episodeId)
    (hat : ∀ identity, instant (respell identity).clock = instant identity.clock) (ledger : Ledger)
    (identities : List Identity) : ledger.remember (identities.map respell) = ledger.remember identities := by
  have hincoming : ∀ identity, (respell identity).incoming = identity.incoming := by
    intro identity
    funext incomingAt
    cases incomingAt with
    | none => simp [Identity.incoming, hkey]
    | some time => simp [Identity.incoming, hkey, hid]
  have hselect : ∀ identity, (respell identity).select = identity.select := by
    intro identity
    funext incomingAt current
    cases current with
    | none => simp [Identity.select, hincoming]
    | some current => simp [Identity.select, hincoming, hkey, hid]
  have hbody : (fun p identity => Progress.remember p (respell identity)) = Progress.remember := by
    funext p identity
    simp [Progress.remember, hkey, hid, hat, hselect]
  have hkeys : (identities.map respell).map (·.key) = identities.map (·.key) := by
    rw [map_map]
    exact map_congr_left fun identity _ => hkey identity
  simp only [Ledger.remember, foldlM_map, hbody, hkeys, map_eq_nil_iff]

theorem key_of_select {current : Option Row} {selected : Row}
    (hcurrent : ∀ row, current = some row → row.identityKey = identity.key)
    (h : identity.select incomingAt current = .ok selected) : selected.identityKey = identity.key := by
  have hincoming : (identity.incoming incomingAt).identityKey = identity.key := by
    cases incomingAt with
    | none => rfl
    | some time => rfl
  cases current with
  | none =>
    cases h
    exact hincoming
  | some current =>
    dsimp only [Identity.select] at h
    by_cases hempty : current.firstEpisodeId = "" ∧ identity.episodeId ≠ ""
    · rw [if_pos hempty] at h
      cases h
      exact hincoming
    · rw [if_neg hempty] at h
      cases incomingAt with
      | none =>
        cases h
        exact hcurrent _ rfl
      | some time =>
        by_cases hid : identity.episodeId = ""
        · simp only [hid, if_true] at h
          cases h
          exact hcurrent _ rfl
        · simp only [hid, if_false] at h
          obtain ⟨currentAt, -, hselected⟩ := bind_eq_ok.mp h
          cases currentAt with
          | none =>
            cases hselected
            exact hcurrent _ rfl
          | some time =>
            cases hselected
            rfl

theorem Progress.remember_other {p p' : Progress} (h : p.remember identity = .ok p') (hkey : identity.key ≠ key)
    (ledger : Ledger) : p'.existing.get? key = p.existing.get? key ∧ p'.row ledger key = p.row ledger key := by
  obtain ⟨incomingAt, -, hbody⟩ := bind_eq_ok.mp h
  split_ifs at hbody with hvalid
  · cases hbody
    exact ⟨rfl, rfl⟩
  · obtain ⟨selected, hselect, hwrite⟩ := bind_eq_ok.mp hbody
    split_ifs at hwrite with hsame
    · cases hwrite
      exact ⟨rfl, rfl⟩
    · cases hwrite
      have hselected := key_of_select (fun r hr => (Table.get?_eq_some.mp hr).2) hselect
      rw [Progress.row_upsert, Table.get?_upsert, hselected, if_neg (Ne.symm hkey), if_neg (Ne.symm hkey)]
      exact ⟨rfl, rfl⟩

theorem Progress.remember_unreadable {row : Row} (hid : row.firstEpisodeId ≠ "")
    (hexisting : p.existing.get? identity.key = some row) (hat : instant identity.clock = .ok none) :
    p.remember identity = .ok p := by
  by_cases hempty : identity.episodeId = ""
  · have hstays : identity.select none (some row) = .ok row := by simp [Identity.select, hid, pure, Except.pure]
    simp [Progress.remember, hat, hempty, hexisting, hstays, bind, Except.bind, pure, Except.pure]
  · simp [Progress.remember, hat, hempty, bind, Except.bind, pure, Except.pure]

theorem Progress.foldlM_unreadable {p p' : Progress} {row : Row}
    (hid : row.firstEpisodeId ≠ "") (hexisting : key ∈ identities.map (·.key) → p.existing.get? key = some row)
    (hrow : p.row ledger key = some row)
    (hat : ∀ identity ∈ identities, identity.key = key → instant identity.clock = .ok none)
    (h : identities.foldlM Progress.remember p = .ok p') : p'.row ledger key = some row := by
  induction identities generalizing p with
  | nil =>
    cases h
    exact hrow
  | cons identity identities ih =>
    rw [foldlM_cons] at h
    obtain ⟨p₁, hp₁, hrest⟩ := bind_eq_ok.mp h
    have hat' := fun i hi => hat i (mem_cons_of_mem identity hi)
    by_cases hkey : identity.key = key
    · have hstored : p.existing.get? key = some row := hexisting (by simp [hkey])
      have hsame := Progress.remember_unreadable hid (hkey ▸ hstored) (hat identity mem_cons_self hkey)
      obtain rfl : p = p₁ := by simpa [hsame] using hp₁
      exact ih (fun _ => hstored) hrow hat' hrest
    · obtain ⟨hexisting₁, hrow₁⟩ := Progress.remember_other hp₁ hkey ledger
      refine ih (fun hmem => ?_) (hrow₁.trans hrow) hat' hrest
      exact hexisting₁.trans (hexisting (mem_cons_of_mem _ hmem))

theorem Ledger.attempt_unreadable {row : Row} (hrow : ledger.get? key = some row) (hid : row.firstEpisodeId ≠ "")
    (hat : ∀ identity ∈ identities, identity.key = key → instant identity.clock = .ok none) :
    (ledger.attempt identities).get? key = some row := by
  cases hledger : ledger.remember identities with
  | error e => simpa [Ledger.attempt, hledger] using hrow
  | ok ledger' =>
    simp only [Ledger.attempt, hledger]
    by_cases hnil : identities = []
    · obtain rfl : ledger = ledger' := by simpa [Ledger.remember, hnil, pure, Except.pure] using hledger
      exact hrow
    · simp only [Ledger.remember, hnil, if_false] at hledger
      obtain ⟨p, hp, hwrite⟩ := bind_eq_ok.mp hledger
      cases hwrite
      rw [get?_written]
      have hstart : ∀ keys, Progress.row ⟨ledger.read keys, Table.empty⟩ ledger key = some row := fun _ => hrow
      refine Progress.foldlM_unreadable hid (fun hkey => (get?_read ?_).trans hrow) (hstart _) hat hp
      rwa [mem_insertionSort, mem_dedup]

/-! ### The ledger of the earliest -/

theorem Stands.of_nonempty {row : Option Row} (h : Stands told key row) (hne : (episodes told key).Nonempty) :
    ∃ least, IsLeast (episodes told key) least ∧ row = some ⟨key, isoformat (ofLex least).1, (ofLex least).2⟩ := by
  cases row with
  | none => exact absurd h.1 hne.ne_empty
  | some row =>
    have hid : row.firstEpisodeId ≠ "" := fun hempty => hne.ne_empty (h.none_told hempty)
    obtain ⟨least, hleast, hrow, -⟩ := h.least hid
    exact ⟨least, hleast, congrArg some hrow⟩

theorem Stands.of_empty {row : Option Row} (h : Stands told key row) (hnone : episodes told key = ∅) :
    row = (firstEmpty told key).map fun identity => ⟨key, keptClock identity.clock, ""⟩ := by
  cases row with
  | none =>
    rw [h.2]
    rfl
  | some row =>
    obtain ⟨hkey, ⟨least, hleast, -⟩ | ⟨-, hid, first, hfirst, hclock⟩⟩ := h
    · exact absurd hnone (Set.Nonempty.ne_empty ⟨least, hleast.1⟩)
    · rw [hfirst, Option.map_some, ← hkey, ← hclock, ← hid]

theorem episodes_perm (h : told'.Perm told) (key : String) :
    episodes told' key = episodes told key := by
  ext e
  constructor
  · rintro ⟨identity, hmem, rest⟩
    exact ⟨identity, h.mem_iff.mp hmem, rest⟩
  · rintro ⟨identity, hmem, rest⟩
    exact ⟨identity, h.mem_iff.mpr hmem, rest⟩

theorem firstEmpty_perm (h : told'.Perm told) (key : String) :
    (firstEmpty told' key).isSome = (firstEmpty told key).isSome := by
  rw [Bool.eq_iff_iff, firstEmpty, firstEmpty, List.find?_isSome, List.find?_isSome]
  constructor
  · rintro ⟨identity, hmem, hcond⟩
    exact ⟨identity, h.mem_iff.mp hmem, hcond⟩
  · rintro ⟨identity, hmem, hcond⟩
    exact ⟨identity, h.mem_iff.mpr hmem, hcond⟩

/-- The order of the calls does not matter. -/
theorem Stands.perm {row row' : Option Row} (h : Stands told key row) (h' : Stands told' key row')
    (hperm : told'.Perm told) :
    row'.map Row.firstEpisodeId = row.map Row.firstEpisodeId ∧ ((episodes told key).Nonempty → row' = row) := by
  have hepisodes := episodes_perm hperm key
  rcases (episodes told key).eq_empty_or_nonempty with hnone | hne
  · have hsome := firstEmpty_perm hperm key
    rw [h.of_empty hnone, h'.of_empty (hepisodes.trans hnone)]
    refine ⟨?_, fun hne => absurd hnone hne.ne_empty⟩
    cases hfirst : firstEmpty told key with
    | none =>
      have hfirst' : firstEmpty told' key = none := by
        rw [hfirst] at hsome
        simpa using hsome
      rw [hfirst']
    | some first =>
      obtain ⟨first', hfirst'⟩ := Option.isSome_iff_exists.mp (hsome.trans (by rw [hfirst]; rfl))
      rw [hfirst']
      rfl
  · obtain ⟨least, hleast, hrow⟩ := h.of_nonempty hne
    obtain ⟨least', hleast', hrow'⟩ := h'.of_nonempty (hepisodes ▸ hne)
    obtain rfl := (hepisodes ▸ hleast').unique hleast
    rw [hrow, hrow']
    exact ⟨rfl, fun _ => rfl⟩

/-- **The ledger of the earliest**, whatever is told in whatever batches and order: the row of a key is that of the
least of its episodes by instant and id, and while there is none an empty reservation, with the clock of the first
one that was told. The same told in another order leaves the same row, but for the clock of an empty
reservation. Clocks of one instant are told alike; one that cannot be read displaces no stored episode. -/
theorem remembered_earliest (calls : List (List Identity)) (key : String) :
    ((episodes (accepted calls) key).Nonempty → ∃ least, IsLeast (episodes (accepted calls) key) least ∧
      (Ledger.attempts Table.empty calls).get? key = some ⟨key, isoformat (ofLex least).1, (ofLex least).2⟩) ∧
    (episodes (accepted calls) key = ∅ → (Ledger.attempts Table.empty calls).get? key =
      (firstEmpty (accepted calls) key).map fun identity => ⟨key, keptClock identity.clock, ""⟩) ∧
    (∀ calls' : List (List Identity), (accepted calls').Perm (accepted calls) →
      ((Ledger.attempts Table.empty calls').get? key).map Row.firstEpisodeId =
          ((Ledger.attempts Table.empty calls).get? key).map Row.firstEpisodeId ∧
        ((episodes (accepted calls) key).Nonempty →
          (Ledger.attempts Table.empty calls').get? key = (Ledger.attempts Table.empty calls).get? key)) ∧
    (∀ respell : Identity → Identity, (∀ identity, (respell identity).key = identity.key ∧
        (respell identity).episodeId = identity.episodeId ∧
        instant (respell identity).clock = instant identity.clock) →
      Ledger.attempts Table.empty (calls.map (List.map respell)) = Ledger.attempts Table.empty calls) ∧
    (∀ (ledger : Ledger) (row : Row) (identities : List Identity), ledger.get? key = some row → row.firstEpisodeId ≠ "" →
      (∀ identity ∈ identities, identity.key = key → instant identity.clock = .ok none) →
      (ledger.attempt identities).get? key = some row) := by
  have hstands := stands_attempts calls key
  refine ⟨hstands.of_nonempty, hstands.of_empty, fun calls' hperm => ?_, fun respell hsame => ?_,
    fun ledger row identities hrow hid hat => Ledger.attempt_unreadable hrow hid hat⟩
  · exact hstands.perm (stands_attempts calls' key) hperm
  · have hattempt : ∀ (ledger : Ledger) (identities : List Identity),
        ledger.attempt (identities.map respell) = ledger.attempt identities := by
      intro ledger identities
      rw [Ledger.attempt, Ledger.remember_map (fun i => (hsame i).1) (fun i => (hsame i).2.1) (fun i => (hsame i).2.2)]
      rfl
    simp only [Ledger.attempts, foldl_map, hattempt]

/-- A clock of the year 1 whose UTC time is of the year 0. -/
def beforeTime : IsoText := .aware datetimeMin (60 * 60 * 1000000) 0

/-- **What is left of the order.** Empty reservations with and without a clock leave different rows in different orders,
and a clock that is out of range takes the rest of its call with it. -/
theorem empty_reservations_ordered :
    (Ledger.attempts Table.empty [[⟨"k", isoformat 5, ""⟩], [⟨"k", .unreadable "", ""⟩]]).get? "k" ≠
      (Ledger.attempts Table.empty [[⟨"k", .unreadable "", ""⟩], [⟨"k", isoformat 5, ""⟩]]).get? "k" ∧
    (Ledger.attempts Table.empty [[⟨"k", beforeTime, "e"⟩, ⟨"k", isoformat 5, "e"⟩]]).get? "k" ≠
      (Ledger.attempts Table.empty [[⟨"k", beforeTime, "e"⟩], [⟨"k", isoformat 5, "e"⟩]]).get? "k" := by
  decide +kernel

end SignalArcade.Reservations
