import SignalArcade.Diagnostics.OperationalIncidents
import SignalArcade.Lib.Sessions
import Mathlib.Data.List.TakeWhile

/-!
# Incidents over a run of calls

What holds after any calls on an empty table: the log of the calls has the ids of the rows, the open row of a scope and
a title counts the calls since it was opened, and the transient row that was seen last is the one of the last episode.
-/

namespace SignalArcade.Incidents

open Clocks Runs Sessions List

variable {V : Type} {lastSeen : LastSeen V} {world : World V} {rows rows' : IncidentTable V}
  {incident row : OperationalIncident V} {entry : Entry} {log : List Entry}

/-! ### The ids of the rows -/

/-- The rows are those that the log names, one for each id. -/
structure Coherent (rows : IncidentTable V) (log : List Entry) : Prop where
  nodup : (rows.map OperationalIncident.incidentId).Nodup
  logged : ∀ row ∈ rows, ∃ entry ∈ log, entry.incidentId = row.incidentId
  stored : ∀ entry ∈ log, ∃ row ∈ rows, row.incidentId = entry.incidentId

theorem Coherent.inj (h : Coherent rows log) {other : OperationalIncident V} (hrow : row ∈ rows) (hother : other ∈ rows)
    (hid : row.incidentId = other.incidentId) : row = other :=
  inj_on_of_nodup_map h.nodup hrow hother hid

theorem Written.nodup (h : Written rows incident rows') (hnodup : (rows.map OperationalIncident.incidentId).Nodup) :
    (rows'.map OperationalIncident.incidentId).Nodup := by
  cases h with
  | inserted fresh =>
    rw [map_append, nodup_append]
    refine ⟨hnodup, nodup_singleton _, ?_⟩
    rintro id hid other hother rfl
    obtain ⟨row, hrow, rfl⟩ := mem_map.mp hid
    exact fresh row hrow (by simpa using hother)
  | updated previous mem id =>
    have hids : (update incident rows).map OperationalIncident.incidentId =
        rows.map OperationalIncident.incidentId := by
      rw [update, map_map]
      refine map_congr_left fun row _ => ?_
      grind
    rwa [hids]

theorem Coherent.written (h : Coherent rows log) (hwritten : Written rows incident rows')
    (hentry : entry.incidentId = incident.incidentId) : Coherent rows' (log ++ [entry]) where
  nodup := hwritten.nodup h.nodup
  logged row hrow := by
    rcases hwritten.mem.mp hrow with rfl | ⟨hrow, -⟩
    · exact ⟨entry, by simp, hentry⟩
    · obtain ⟨entry', hmem, hid⟩ := h.logged row hrow
      exact ⟨entry', mem_append_left _ hmem, hid⟩
  stored entry' hmem := by
    rcases mem_append.mp hmem with hmem | hmem
    · obtain ⟨row, hrow, hid⟩ := h.stored entry' hmem
      by_cases hsame : row.incidentId = incident.incidentId
      · exact ⟨incident, hwritten.mem.mpr (Or.inl rfl), hsame.symm.trans hid⟩
      · exact ⟨row, hwritten.mem.mpr (Or.inr ⟨hrow, hsame⟩), hid⟩
    · obtain rfl := mem_singleton.mp hmem
      exact ⟨incident, hwritten.mem.mpr (Or.inl rfl), hentry.symm⟩

section resolvedBy

variable (scope : String) (resolvedAt : Clock) (row : OperationalIncident V)

@[simp] theorem resolvedBy_incidentId : (resolvedBy scope resolvedAt row).incidentId = row.incidentId := by
  unfold resolvedBy
  split <;> rfl

@[simp] theorem resolvedBy_key : (resolvedBy scope resolvedAt row).key = row.key := by
  unfold resolvedBy
  split <;> rfl

@[simp] theorem resolvedBy_lastSeenAt : (resolvedBy scope resolvedAt row).lastSeenAt = row.lastSeenAt := by
  unfold resolvedBy
  split <;> rfl

@[simp] theorem resolvedBy_occurrences : (resolvedBy scope resolvedAt row).occurrences = row.occurrences := by
  unfold resolvedBy
  split <;> rfl

variable {scope resolvedAt row}

/-- A row is open afterwards if it was, and if its scope is another one. -/
theorem resolvedBy_open : (resolvedBy scope resolvedAt row).resolvedAt = none ↔
    row.resolvedAt = none ∧ row.scope ≠ scope := by
  unfold resolvedBy
  grind

end resolvedBy

theorem mem_resolveIncidents {scope : String} {resolvedAt : Clock} :
    row ∈ (resolveIncidents scope resolvedAt rows).2 ↔ ∃ row' ∈ rows, resolvedBy scope resolvedAt row' = row :=
  mem_map

theorem Coherent.resolved (h : Coherent rows log) (scope : String) (resolvedAt : Clock) :
    Coherent (resolveIncidents scope resolvedAt rows).2 log where
  nodup := by
    rw [resolveIncidents, map_map]
    simpa [Function.comp_def] using h.nodup
  logged row hrow := by
    obtain ⟨old, hold, rfl⟩ := mem_resolveIncidents.mp hrow
    simpa using h.logged old hold
  stored entry hentry := by
    obtain ⟨old, hold, hid⟩ := h.stored entry hentry
    exact ⟨_, mem_resolveIncidents.mpr ⟨old, hold, rfl⟩, by simpa using hid⟩

/-! ### Open incidents -/

theorem recordsSince_append {incidentId : String} (key : String × String)
    (h : ∃ entry ∈ log, entry.incidentId = incidentId) (entry : Entry) :
    recordsSince incidentId key (log ++ [entry]) =
      recordsSince incidentId key log + [entry].countP (Entry.records key) := by
  obtain ⟨found, hmem, hid⟩ := h
  have hdrop : (log.dropWhile fun entry => entry.incidentId ≠ incidentId) ≠ [] := by
    intro hnil
    have hnone := dropWhile_eq_nil_iff.mp hnil found hmem
    simp [hid] at hnone
  rw [recordsSince, recordsSince, dropWhile_append, if_neg (by simpa using hdrop), countP_append]

theorem recordsSince_new {incidentId : String} (key : String × String)
    (h : ∀ entry ∈ log, entry.incidentId ≠ incidentId) (hentry : entry.incidentId = incidentId) :
    recordsSince incidentId key (log ++ [entry]) = [entry].countP (Entry.records key) := by
  have hdrop : (log.dropWhile fun entry => entry.incidentId ≠ incidentId) = [] :=
    dropWhile_eq_nil_iff.mpr fun entry hmem => by simpa using h entry hmem
  rw [recordsSince, dropWhile_append, hdrop]
  simp [hentry]

variable {key : String × String} {report : Report V}

/-- A scope and a title have one open row at most, and it counts the calls since it was opened. -/
structure Counted (key : String × String) (rows : IncidentTable V) (log : List Entry) : Prop where
  unique : ∀ row ∈ openRows key rows, ∀ row' ∈ openRows key rows, row = row'
  counted : ∀ row ∈ openRows key rows, row.occurrences = recordsSince row.incidentId key log
  named : ∀ incidentId, .recorded key.1 key.2 incidentId ∈ log → ∀ row ∈ rows, row.incidentId = incidentId → row.key = key

theorem Written.mem_openRows (h : Written rows incident rows') : row ∈ openRows key rows' ↔
    row = incident ∧ incident.key = key ∧ incident.resolvedAt = none ∨
      row ∈ openRows key rows ∧ row.incidentId ≠ incident.incidentId := by
  rw [Incidents.mem_openRows, Incidents.mem_openRows, h.mem]
  constructor
  · rintro ⟨rfl | ⟨hrow, hne⟩, hkey, hopen⟩
    · exact .inl ⟨rfl, hkey, hopen⟩
    · exact .inr ⟨⟨hrow, hkey, hopen⟩, hne⟩
  · rintro (⟨rfl, hkey, hopen⟩ | ⟨⟨hrow, hkey, hopen⟩, hne⟩)
    · exact ⟨.inl rfl, hkey, hopen⟩
    · exact ⟨.inr ⟨hrow, hne⟩, hkey, hopen⟩

/-- What is written over a row has its scope and title. -/
theorem Written.key_eq (h : Written rows incident rows') (hcoherent : Coherent rows log) (hrow : row ∈ rows)
    (hid : row.incidentId = incident.incidentId) : incident.key = row.key := by
  cases h with
  | inserted fresh => exact absurd hid (fresh row hrow)
  | updated previous mem id scope title =>
    obtain rfl := hcoherent.inj hrow mem (hid.trans id)
    exact Prod.ext scope title

section

variable (h : Counted key rows log)
include h

/-- The rows stay named when an incident is written, if the new entry names it too. -/
theorem Counted.named_written (hcoherent : Coherent rows log) (hwritten : Written rows incident rows')
    (hentry : ∀ incidentId, entry = .recorded key.1 key.2 incidentId →
      incidentId = incident.incidentId ∧ incident.key = key) :
    ∀ incidentId, .recorded key.1 key.2 incidentId ∈ log ++ [entry] →
      ∀ row ∈ rows', row.incidentId = incidentId → row.key = key := by
  intro incidentId hmem row hrow hid
  rcases mem_append.mp hmem with hmem | hmem
  · rcases hwritten.mem.mp hrow with rfl | ⟨hrow, -⟩
    · obtain ⟨old, hold, hid'⟩ := hcoherent.stored _ hmem
      rw [hwritten.key_eq hcoherent hold (hid'.trans hid.symm)]
      exact h.named incidentId hmem old hold hid'
    · exact h.named incidentId hmem row hrow hid
  · obtain ⟨hid', hkey⟩ := hentry incidentId (mem_singleton.mp hmem).symm
    rcases hwritten.mem.mp hrow with rfl | ⟨-, hne⟩
    · exact hkey
    · exact absurd (hid.trans hid') hne

theorem Counted.record (hcoherent : Coherent rows log)
    (hfits : (Call.record report).Fits key) (hrecord : recordIncident lastSeen report rows = .ok (incident, rows')) :
    Counted key rows' (log ++ [.recorded report.scope report.title incident.incidentId]) := by
  obtain ⟨hwritten, hopen, hcase⟩ := recordIncident_spec hrecord
  have hincident : incident.key = key ↔ (report.scope, report.title) = key := by
    rcases hcase with ⟨-, -, hnew, -⟩ | ⟨previous, -, -, hold, -⟩
    · rw [hnew]
      exact hfits
    · rw [hold]
  -- No other row of this scope and title is open.
  have hother : (report.scope, report.title) = key → ∀ row ∈ openRows key rows, row.incidentId = incident.incidentId := by
    rintro rfl row hrow
    rcases hcase with ⟨hnone, -⟩ | ⟨previous, hprevious, hid, -, -⟩
    · rw [hnone] at hrow
      cases hrow
    · rw [h.unique row hrow previous hprevious, hid]
  refine ⟨fun row hrow row' hrow' => ?_, fun row hrow => ?_, h.named_written hcoherent hwritten fun incidentId heq => ?_⟩
  · rcases hwritten.mem_openRows.mp hrow with ⟨rfl, hkey, -⟩ | ⟨hrow, hne⟩ <;>
      rcases hwritten.mem_openRows.mp hrow' with ⟨rfl, hkey', -⟩ | ⟨hrow', hne'⟩
    · rfl
    · exact absurd (hother (hincident.mp hkey) row' hrow') hne'
    · exact absurd (hother (hincident.mp hkey') row hrow) hne
    · exact h.unique row hrow row' hrow'
  · rcases hwritten.mem_openRows.mp hrow with ⟨rfl, hkey, -⟩ | ⟨hrow, hne⟩
    · obtain rfl := hincident.mp hkey
      rcases hcase with ⟨-, hfresh, -, hone⟩ | ⟨previous, hprevious, hid, -, hcount⟩
      · have hlog : ∀ entry ∈ log, entry.incidentId ≠ row.incidentId := by
          intro entry hentry heq
          obtain ⟨old, hold, hid⟩ := hcoherent.stored entry hentry
          exact hfresh old hold (hid.trans heq)
        rw [recordsSince_new _ hlog rfl, hone]
        simp [Entry.records]
      · have hlogged := hcoherent.logged previous (mem_openRows.mp hprevious).1
        rw [hcount, h.counted previous hprevious, hid, recordsSince_append _ hlogged]
        simp [Entry.records]
    · have hkey : (report.scope, report.title) ≠ key := fun hreport => hne (hother hreport row hrow)
      rw [recordsSince_append _ (hcoherent.logged row (mem_openRows.mp hrow).1), h.counted row hrow]
      simpa [Entry.records] using hkey
  · obtain ⟨hscope, htitle, rfl⟩ := Entry.recorded.inj heq
    exact ⟨rfl, hincident.mpr (Prod.ext hscope htitle)⟩

/-- What is written about a transient incident is no open row. -/
theorem Counted.transient {coalesceSeconds : ℤ} (hcoherent : Coherent rows log)
    (hrecord : recordTransientIncident lastSeen report coalesceSeconds rows = .ok (incident, rows')) :
    Counted key rows' (log ++ [.episode report.key report.observedAt coalesceSeconds incident.incidentId]) := by
  obtain ⟨hwritten, hresolved, -⟩ := recordTransientIncident_spec hrecord
  have hold : ∀ row ∈ openRows key rows', row ∈ openRows key rows := by
    intro row hrow
    rcases hwritten.mem_openRows.mp hrow with ⟨-, -, hopen⟩ | ⟨hrow, -⟩
    · exact absurd hopen (Option.isSome_iff_ne_none.mp hresolved)
    · exact hrow
  refine ⟨fun row hrow row' hrow' => h.unique row (hold row hrow) row' (hold row' hrow'), fun row hrow => ?_,
    h.named_written hcoherent hwritten (by rintro _ ⟨⟩)⟩
  rw [recordsSince_append _ (hcoherent.logged row (mem_openRows.mp (hold row hrow)).1), h.counted row (hold row hrow)]
  simp [Entry.records]

theorem Counted.resolved (scope : String) (resolvedAt : Clock) :
    Counted key (resolveIncidents scope resolvedAt rows).2 log := by
  have hold : ∀ row ∈ openRows key (resolveIncidents scope resolvedAt rows).2,
      ∃ old ∈ openRows key rows, resolvedBy scope resolvedAt old = row := by
    intro row hrow
    obtain ⟨hmem, hkey, hopen⟩ := mem_openRows.mp hrow
    obtain ⟨old, hold, rfl⟩ := mem_resolveIncidents.mp hmem
    rw [resolvedBy_key] at hkey
    exact ⟨old, mem_openRows.mpr ⟨hold, hkey, (resolvedBy_open.mp hopen).1⟩, rfl⟩
  refine ⟨fun row hrow row' hrow' => ?_, fun row hrow => ?_, fun incidentId hmem row hrow hid => ?_⟩
  · obtain ⟨old, hmem, rfl⟩ := hold row hrow
    obtain ⟨old', hmem', rfl⟩ := hold row' hrow'
    rw [h.unique old hmem old' hmem']
  · obtain ⟨old, hmem, rfl⟩ := hold row hrow
    simpa using h.counted old hmem
  · obtain ⟨old, hmem', rfl⟩ := mem_resolveIncidents.mp hrow
    simpa using h.named incidentId hmem old hmem' (by simpa using hid)

end

/-! ### Transient episodes -/

/-- Whether an ordinary incident was recorded whose row is stored under a scope and a title. -/
def Entry.opens (key : String × String) : Entry → Prop
  | .recorded scope title _ => (upTo 80 scope, upTo 160 title) = key
  | .episode .. => False

theorem episodes_append (key : String × String) (log : List Entry) (entry : Entry) :
    episodes key (log ++ [entry]) = episodes key log ++ episodes key [entry] := filterMap_append

theorem episodes_recorded (key : String × String) (scope title incidentId : String) :
    episodes key [.recorded scope title incidentId] = [] := rfl

theorem episodes_episode (key : String × String) (observedAt : Clock) (coalesceSeconds : ℤ) (incidentId : String) :
    episodes key [.episode key observedAt coalesceSeconds incidentId] =
      [{ observedAt, coalesceSeconds, incidentId }] := by
  simp [episodes]

theorem episodes_other {key' : String × String} (h : key' ≠ key) (observedAt : Clock) (coalesceSeconds : ℤ)
    (incidentId : String) : episodes key [.episode key' observedAt coalesceSeconds incidentId] = [] := by
  simp [episodes, h]

/-- The rows of a scope and a title that has transient episodes only: each was last seen at one of them, and the
one of the last episode later than the others. -/
structure Followed (key : String × String) (rows : IncidentTable V) (log : List Entry) : Prop where
  resolved : ∀ row ∈ rows, row.key = key → row.resolvedAt ≠ none
  seen : ∀ row ∈ rows, row.key = key → ∃ last ∈ (episodes key log).getLast?,
    row.incidentId = last.incidentId ∧ row.lastSeenAt = last.observedAt ∨
      row.incidentId ≠ last.incidentId ∧ ∃ episode ∈ episodes key log, row.lastSeenAt = episode.observedAt ∧
        episode.observedAt.instant < last.observedAt.instant
  kept : ∀ last ∈ (episodes key log).getLast?, ∃ row ∈ rows, row.key = key ∧ row.incidentId = last.incidentId
  joined : Joined Episode.Follows Episode.incidentId (episodes key log)

theorem InOrder.of_append {before after : List Episode} (h : InOrder (before ++ after)) : InOrder before :=
  (pairwise_append.mp h).1

/-- An episode before another one is no later, and has the smaller text if it is earlier. -/
theorem InOrder.concat {before : List Episode} {episode last : Episode} (h : InOrder (before ++ [last]))
    (hmem : episode ∈ before) : episode.observedAt.instant ≤ last.observedAt.instant ∧
      (episode.observedAt.instant < last.observedAt.instant →
        episode.observedAt.isoformat < last.observedAt.isoformat) :=
  (pairwise_append.mp h).2.2 episode hmem last (mem_singleton_self last)

theorem Followed.unique_last {eps : List Episode} {last last' : Episode} (h : last ∈ eps.getLast?)
    (h' : last' ∈ eps.getLast?) : last = last' := Option.some.inj (h.symm.trans h')

/-- The row that is found is the one of the last episode. -/
theorem Followed.fetched (h : Followed key rows log) (horder : InOrder (episodes key log))
    (hrow : row ∈ resolvedRow lastSeen key rows) : ∃ last ∈ (episodes key log).getLast?,
      row.incidentId = last.incidentId ∧ row.lastSeenAt = last.observedAt := by
  obtain ⟨hmem, hkey⟩ := mem_resolvedRow hrow
  obtain ⟨last, hlast, ⟨hid, hseen⟩ | ⟨-, episode, hepisode, hseen, hearlier⟩⟩ := h.seen row hmem hkey
  · exact ⟨last, hlast, hid, hseen⟩
  · -- The row of the last episode has a greater text.
    obtain ⟨other, hother, hotherkey, hid⟩ := h.kept last hlast
    obtain ⟨last', hlast', hseen'⟩ := h.seen other hother hotherkey
    obtain rfl := Followed.unique_last hlast hlast'
    obtain ⟨-, hotherseen⟩ := hseen'.resolve_right fun hne => hne.1 hid
    obtain ⟨before, hsplit⟩ := getLast?_eq_some_iff.mp hlast
    rw [hsplit] at hepisode horder
    have hbefore : episode ∈ before := by
      rcases mem_append.mp hepisode with hbefore | hsame
      · exact hbefore
      · obtain rfl := mem_singleton.mp hsame
        exact absurd hearlier (lt_irrefl _)
    have htext := (horder.concat hbefore).2 hearlier
    rw [← hseen, ← hotherseen] at htext
    exact absurd htext (fetched_last hrow hother hotherkey (h.resolved other hother hotherkey))

/-- A row is found once there was an episode. -/
theorem Followed.exists_fetched (lastSeen : LastSeen V) (h : Followed key rows log) {last : Episode}
    (hlast : last ∈ (episodes key log).getLast?) : ∃ row, row ∈ resolvedRow lastSeen key rows := by
  obtain ⟨row, hrow, hkey, -⟩ := h.kept last hlast
  exact exists_mem_resolvedRow hrow hkey (h.resolved row hrow hkey)

/-- What is written about other incidents leaves the rows of a scope and a title as they are. -/
theorem Followed.other (h : Followed key rows log) (hcoherent : Coherent rows log)
    (hwritten : Written rows incident rows') (hkey : incident.key ≠ key) (hentry : episodes key [entry] = []) :
    Followed key rows' (log ++ [entry]) := by
  have heps : episodes key (log ++ [entry]) = episodes key log := by
    rw [episodes_append, hentry, append_nil]
  have hold : ∀ row ∈ rows', row.key = key → row ∈ rows := by
    intro row hrow hrowkey
    rcases hwritten.mem.mp hrow with rfl | ⟨hrow, -⟩
    · exact absurd hrowkey hkey
    · exact hrow
  refine ⟨fun row hrow hrowkey => h.resolved row (hold row hrow hrowkey) hrowkey, ?_, ?_, by rw [heps]; exact h.joined⟩
  · intro row hrow hrowkey
    rw [heps]
    exact h.seen row (hold row hrow hrowkey) hrowkey
  · intro last hlast
    rw [heps] at hlast
    obtain ⟨row, hrow, hrowkey, hid⟩ := h.kept last hlast
    have hne : row.incidentId ≠ incident.incidentId := by
      intro hsame
      exact hkey ((hwritten.key_eq hcoherent hrow hsame).trans hrowkey)
    exact ⟨row, hwritten.mem.mpr (Or.inr ⟨hrow, hne⟩), hrowkey, hid⟩

theorem Followed.record (h : Followed key rows log) (hcoherent : Coherent rows log)
    (hkey : report.key ≠ key) (hrecord : recordIncident lastSeen report rows = .ok (incident, rows')) :
    Followed key rows' (log ++ [.recorded report.scope report.title incident.incidentId]) := by
  obtain ⟨hwritten, -, hcase⟩ := recordIncident_spec hrecord
  refine h.other hcoherent hwritten ?_ (episodes_recorded ..)
  rcases hcase with ⟨-, -, hnew, -⟩ | ⟨previous, hprevious, -, hsame, -⟩
  · rwa [hnew]
  · intro heq
    obtain ⟨hmem, hprevkey, hopen⟩ := mem_openRows.mp hprevious
    exact h.resolved previous hmem (hprevkey.trans (hsame.symm.trans heq)) hopen

theorem Coherent.stored_episode (h : Coherent rows log) {episode : Episode} (hmem : episode ∈ episodes key log) :
    ∃ row ∈ rows, row.incidentId = episode.incidentId := by
  obtain ⟨entry, hentry, hepisode⟩ := mem_filterMap.mp hmem
  obtain ⟨row, hrow, hid⟩ := h.stored entry hentry
  refine ⟨row, hrow, hid.trans ?_⟩
  cases entry with
  | recorded scope title incidentId => cases hepisode
  | episode key' observedAt coalesceSeconds incidentId =>
    dsimp only at hepisode
    split at hepisode
    · cases hepisode
      rfl
    · cases hepisode

theorem Followed.transient {coalesceSeconds : ℤ} (h : Followed report.key rows log) (hcoherent : Coherent rows log)
    (horder : InOrder (episodes report.key log ++ [⟨report.observedAt, coalesceSeconds, incident.incidentId⟩]))
    (hrecord : recordTransientIncident lastSeen report coalesceSeconds rows = .ok (incident, rows')) :
    Followed report.key rows'
      (log ++ [.episode report.key report.observedAt coalesceSeconds incident.incidentId]) := by
  obtain ⟨hwritten, hresolved, -, hseenAt, hsign, hcase⟩ := recordTransientIncident_spec hrecord
  have heps : episodes report.key (log ++ [.episode report.key report.observedAt coalesceSeconds incident.incidentId]) =
      episodes report.key log ++ [⟨report.observedAt, coalesceSeconds, incident.incidentId⟩] := by
    rw [episodes_append, episodes_episode]
  -- The episode shares the row of the last one, soon after it, or has a new row.
  have hlast : ∀ last ∈ (episodes report.key log).getLast?,
      last.observedAt.instant + coalesceSeconds * second < report.observedAt.instant ∧
          (∀ row ∈ rows, row.incidentId ≠ incident.incidentId) ∨
        report.observedAt.instant ≤ last.observedAt.instant + coalesceSeconds * second ∧
          incident.incidentId = last.incidentId := by
    intro last hlast
    rcases hcase with ⟨hlate, hfresh⟩ | ⟨previous, hprevious, hid, hsoon⟩
    · obtain ⟨previous, hprevious⟩ := h.exists_fetched lastSeen hlast
      obtain ⟨last', hlast', -, hseen⟩ := h.fetched horder.of_append hprevious
      obtain rfl := Followed.unique_last hlast hlast'
      have hgap := hlate previous hprevious
      rw [hseen] at hgap
      exact Or.inl ⟨by omega, hfresh⟩
    · obtain ⟨last', hlast', hid', hseen⟩ := h.fetched horder.of_append hprevious
      obtain rfl := Followed.unique_last hlast hlast'
      rw [hseen] at hsoon
      exact Or.inr ⟨by omega, hid.trans hid'⟩
  have hsecond : 0 ≤ coalesceSeconds * second := by
    rw [second]
    omega
  refine ⟨?_, ?_, ?_, ?_⟩
  · intro row hrow hkey
    rcases hwritten.mem.mp hrow with rfl | ⟨hrow, -⟩
    · exact Option.isSome_iff_ne_none.mp hresolved
    · exact h.resolved row hrow hkey
  · intro row hrow hkey
    rw [heps]
    refine ⟨_, getLast?_concat, ?_⟩
    rcases hwritten.mem.mp hrow with rfl | ⟨hrow, hne⟩
    · exact Or.inl ⟨rfl, hseenAt⟩
    refine Or.inr ⟨hne, ?_⟩
    obtain ⟨last, hmem, ⟨hid, hseen⟩ | ⟨-, episode, hepisode, hseen, hearlier⟩⟩ := h.seen row hrow hkey
    · rcases hlast last hmem with ⟨hlate, -⟩ | ⟨-, hsame⟩
      · refine ⟨last, mem_append_left _ (mem_of_getLast? hmem), hseen, ?_⟩
        dsimp only
        omega
      · exact absurd (hid.trans hsame.symm) hne
    · have hle := (horder.concat (mem_of_getLast? hmem)).1
      exact ⟨episode, mem_append_left _ hepisode, hseen, hearlier.trans_le hle⟩
  · intro last hmem
    rw [heps, getLast?_concat] at hmem
    obtain rfl := Option.some.inj hmem
    exact ⟨incident, hwritten.mem.mpr (Or.inl rfl), (recordTransientIncident_spec hrecord).2.2.1, rfl⟩
  · rw [heps]
    refine h.joined.concat (fun last hmem hnear => ?_) (fun last hmem hfar other hother => ?_)
    · rcases hlast last hmem with ⟨hlate, -⟩ | ⟨-, hsame⟩
      · unfold Episode.Follows at hnear
        dsimp only at hnear
        omega
      · exact hsame
    · rcases hlast last hmem with ⟨-, hfresh⟩ | ⟨hsoon, -⟩
      · obtain ⟨row, hrow, hid⟩ := hcoherent.stored_episode hother
        exact hid ▸ hfresh row hrow
      · unfold Episode.Follows at hfar
        dsimp only at hfar
        omega

theorem Followed.resolveIncidents (h : Followed key rows log) (scope : String) (resolvedAt : Clock) :
    Followed key (resolveIncidents scope resolvedAt rows).2 log where
  resolved row hrow hkey := by
    obtain ⟨old, hold, rfl⟩ := mem_resolveIncidents.mp hrow
    rw [resolvedBy_key] at hkey
    exact fun hopen => h.resolved old hold hkey (resolvedBy_open.mp hopen).1
  seen row hrow hkey := by
    obtain ⟨old, hold, rfl⟩ := mem_resolveIncidents.mp hrow
    simpa using h.seen old hold (by simpa using hkey)
  kept last hlast := by
    obtain ⟨old, hold, hkey, hid⟩ := h.kept last hlast
    exact ⟨_, mem_resolveIncidents.mpr ⟨old, hold, rfl⟩, by simpa using hkey, by simpa using hid⟩
  joined := h.joined

/-! ### Runs -/

variable {calls : List (Call V)} {call : Call V}

/-- **What a call does**: it raises, or writes an incident and logs it, or resolves a scope. -/
theorem World.step_cases (lastSeen : LastSeen V) (world : World V) (call : Call V) :
    world.step lastSeen call = world ∨
    (∃ report incident rows, call = .record report ∧ recordIncident lastSeen report world.rows = .ok (incident, rows) ∧
      world.step lastSeen call = ⟨rows, world.log ++ [.recorded report.scope report.title incident.incidentId]⟩) ∨
    (∃ report coalesceSeconds incident rows, call = .transient report coalesceSeconds ∧
      recordTransientIncident lastSeen report coalesceSeconds world.rows = .ok (incident, rows) ∧
      world.step lastSeen call =
        ⟨rows, world.log ++ [.episode report.key report.observedAt coalesceSeconds incident.incidentId]⟩) ∨
    ∃ scope resolvedAt, call = .resolve scope resolvedAt ∧
      world.step lastSeen call = ⟨(resolveIncidents scope resolvedAt world.rows).2, world.log⟩ := by
  cases call with
  | record report =>
    cases hresult : recordIncident lastSeen report world.rows with
    | error error => exact .inl (by rw [step, hresult, attempt])
    | ok result => exact .inr (.inl ⟨report, _, _, rfl, hresult, by rw [step, hresult, attempt]⟩)
  | transient report coalesceSeconds =>
    cases hresult : recordTransientIncident lastSeen report coalesceSeconds world.rows with
    | error error => exact .inl (by rw [step, hresult, attempt])
    | ok result => exact .inr (.inr (.inl ⟨report, _, _, _, rfl, hresult, by rw [step, hresult, attempt]⟩))
  | resolve scope resolvedAt => exact .inr (.inr (.inr ⟨scope, resolvedAt, rfl, rfl⟩))

theorem World.coherent_step (h : Coherent world.rows world.log) (call : Call V) :
    Coherent (world.step lastSeen call).rows (world.step lastSeen call).log := by
  rcases world.step_cases lastSeen call with hsame | ⟨report, incident, rows, rfl, hok, hstep⟩ |
    ⟨report, coalesceSeconds, incident, rows, rfl, hok, hstep⟩ | ⟨scope, resolvedAt, rfl, hstep⟩
  · rwa [hsame]
  · rw [hstep]
    exact h.written (recordIncident_spec hok).1 rfl
  · rw [hstep]
    exact h.written (recordTransientIncident_spec hok).1 rfl
  · exact h.resolved scope resolvedAt

theorem World.counted_step (h : Counted key world.rows world.log) (hcoherent : Coherent world.rows world.log)
    (hfits : call.Fits key) : Counted key (world.step lastSeen call).rows (world.step lastSeen call).log := by
  rcases world.step_cases lastSeen call with hsame | ⟨report, incident, rows, rfl, hok, hstep⟩ |
    ⟨report, coalesceSeconds, incident, rows, rfl, hok, hstep⟩ | ⟨scope, resolvedAt, rfl, hstep⟩
  · rwa [hsame]
  · rw [hstep]
    exact h.record hcoherent hfits hok
  · rw [hstep]
    exact h.transient hcoherent hok
  · exact h.resolved scope resolvedAt

/-- A scope and a title that is followed, if its log allows it. -/
def World.Follows (key : String × String) (world : World V) : Prop :=
  (∀ entry ∈ world.log, ¬ entry.opens key) → InOrder (episodes key world.log) → Followed key world.rows world.log

theorem World.follows_step (h : world.Follows key) (hcoherent : Coherent world.rows world.log) (call : Call V) :
    (world.step lastSeen call).Follows key := by
  rcases world.step_cases lastSeen call with hsame | ⟨report, incident, rows, rfl, hok, hstep⟩ |
    ⟨report, coalesceSeconds, incident, rows, rfl, hok, hstep⟩ | ⟨scope, resolvedAt, rfl, hstep⟩
  · rwa [hsame]
  · rw [hstep]
    intro hopens horder
    rw [episodes_append, episodes_recorded, append_nil] at horder
    have hfollowed := h (fun entry hentry => hopens entry (mem_append_left _ hentry)) horder
    have hkey : ¬ Entry.opens key (.recorded report.scope report.title incident.incidentId) :=
      hopens _ (mem_append_right _ (mem_singleton_self _))
    exact hfollowed.record hcoherent hkey hok
  · rw [hstep]
    intro hopens horder
    dsimp only at hopens horder ⊢
    rw [episodes_append] at horder
    have hfollowed := h (fun entry hentry => hopens entry (mem_append_left _ hentry)) horder.of_append
    by_cases hkey : report.key = key
    · subst hkey
      rw [episodes_episode] at horder
      exact hfollowed.transient hcoherent horder hok
    · obtain ⟨hwritten, -, hincident, -⟩ := recordTransientIncident_spec hok
      exact hfollowed.other hcoherent hwritten (hincident ▸ hkey) (episodes_other hkey ..)
  · intro hopens horder
    exact (h hopens horder).resolveIncidents scope resolvedAt

theorem World.coherent_after (lastSeen : LastSeen V) (calls : List (Call V)) :
    Coherent (World.after lastSeen calls).rows (World.after lastSeen calls).log :=
  run_invariant (I := fun world : World V => Coherent world.rows world.log) ⟨nodup_nil, by simp, by simp⟩
    fun _ call h => World.coherent_step h call

theorem World.counted_after (lastSeen : LastSeen V) (hfits : ∀ call ∈ calls, call.Fits key) :
    Counted key (World.after lastSeen calls).rows (World.after lastSeen calls).log := by
  have halong : Along (World.step lastSeen) (fun _ call => call.Fits key) ({} : World V) calls :=
    along_iff.mpr fun before call after hcalls => hfits call (by simp [hcalls])
  refine (halong.invariant
    (I := fun world : World V => Coherent world.rows world.log ∧ Counted key world.rows world.log) ?_ ?_).2
  · exact ⟨⟨nodup_nil, by simp, by simp⟩, ⟨by simp [openRows], by simp [openRows], by simp⟩⟩
  · exact fun world call h hcall => ⟨World.coherent_step h.1 call, World.counted_step h.2 h.1 hcall⟩

theorem World.follows_after (key : String × String) (calls : List (Call V)) :
    (World.after lastSeen calls).Follows key := by
  refine (run_invariant
    (I := fun world : World V => Coherent world.rows world.log ∧ world.Follows key) ?_ ?_).2
  · exact ⟨⟨nodup_nil, by simp, by simp⟩, fun _ _ => ⟨by simp, by simp, by simp [episodes], Joined.nil⟩⟩
  · exact fun world call h => ⟨World.coherent_step h.1 call, World.follows_step h.2 h.1 call⟩

/-- Clocks of one offset are ordered by their texts. -/
theorem InOrder.of_utcoffset {eps : List Episode} {offset : ℤ}
    (h : ∀ episode ∈ eps, episode.observedAt.utcoffset = offset)
    (horder : eps.Pairwise fun previous next => previous.observedAt.instant ≤ next.observedAt.instant) :
    InOrder eps := by
  refine horder.imp_of_mem fun {previous next} hprevious hnext hle => ⟨hle, fun hlt => ?_⟩
  exact (Clock.isoformat_lt_iff ((h previous hprevious).trans (h next hnext).symm)).mpr hlt

/-- One row at most of a scope and a title is open. -/
theorem length_openRows_le (hcoherent : Coherent rows log) (hcounted : Counted key rows log) :
    (openRows key rows).length ≤ 1 := by
  have hnodup : (openRows key rows).Nodup := hcoherent.nodup.of_map.filter _
  have hsame := hcounted.unique
  rcases hopenRows : openRows key rows with _ | ⟨row, _ | ⟨row', others⟩⟩
  · simp
  · simp
  · rw [hopenRows] at hsame hnodup
    obtain rfl := hsame row (by simp) row' (by simp)
    simp at hnodup

/-- **Incidents coalesce and are resolved.** -/
theorem incidents_coalesce (lastSeen : LastSeen V) (calls : List (Call V)) (key : String × String) :
    ((∀ call ∈ calls, call.Fits key) →
      (openRows key (World.after lastSeen calls).rows).length ≤ 1 ∧
      (∀ row ∈ openRows key (World.after lastSeen calls).rows,
        row.occurrences = recordsSince row.incidentId key (World.after lastSeen calls).log) ∧
      ∀ incidentId resolvedAt, .recorded key.1 key.2 incidentId ∈ (World.after lastSeen calls).log →
        ∀ row ∈ (resolveIncidents key.1 resolvedAt (World.after lastSeen calls).rows).2,
          row.incidentId = incidentId → row.resolvedAt ≠ none) ∧
    ((∀ entry ∈ (World.after lastSeen calls).log, ¬ entry.opens key) →
      InOrder (episodes key (World.after lastSeen calls).log) →
        Joined Episode.Follows Episode.incidentId (episodes key (World.after lastSeen calls).log)) := by
  refine ⟨fun hfits => ?_, fun hopens horder => (World.follows_after key calls hopens horder).joined⟩
  have hcounted := World.counted_after lastSeen hfits
  refine ⟨length_openRows_le (World.coherent_after lastSeen calls) hcounted, hcounted.counted, ?_⟩
  intro incidentId resolvedAt hentry row hrow hid hopen
  obtain ⟨old, hold, rfl⟩ := mem_resolveIncidents.mp hrow
  have hkey := hcounted.named incidentId hentry old hold (by simpa using hid)
  exact (resolvedBy_open.mp hopen).2 (congrArg Prod.fst hkey)

/-- A time of the first of January 2026, some hours ahead of UTC. -/
def newYear : Fin 24 → Fin 60 → Fin 24 → Clock :=
  Clock.aheadOfUtc (.ofValid 2026 1 1 (by decide))

def reportAt (newId scope title : String) (observedAt : Clock) : Report Unit where
  newId
  scope
  severity := "info"
  title
  detail := ""
  metadata := none
  observedAt

/-- Two reports of one scope and title, and a transient episode of another one in between. -/
def streamCalls : List (Call Unit) :=
  [.record (reportAt "a" "stream" "Stream lost" (newYear 0 0 0)),
    .transient (reportAt "b" "queue" "Burst" (newYear 0 1 2)) 3600,
    .record (reportAt "c" "stream" "Stream lost" (newYear 0 2 5))]

/-- The two reports have one row, which counts both. -/
theorem incidents_coalesce_stream :
    (openRows ("stream", "Stream lost") (World.after .first streamCalls).rows).map OperationalIncident.occurrences = [2] ∧
      ∀ row ∈ openRows ("stream", "Stream lost") (World.after .first streamCalls).rows,
        row.occurrences = recordsSince row.incidentId ("stream", "Stream lost") (World.after .first streamCalls).log := by
  refine ⟨by decide +kernel, ((incidents_coalesce .first streamCalls _).1 fun call hcall => ?_).2.1⟩
  simp only [streamCalls, mem_cons, not_mem_nil, or_false] at hcall
  rcases hcall with rfl | rfl | rfl
  · exact Call.fits_of_length (by decide) (by decide) _
  · trivial
  · exact Call.fits_of_length (by decide) (by decide) _

/-! ### Where they do not coalesce -/

/-- The transient rows of some calls on an empty table, as the episodes came. -/
def sharedRows (calls : List (Call Unit)) (key : String × String) : List String :=
  (episodes key (World.after .first calls).log).map Episode.incidentId

/-- A text of that many letters and one more. -/
def long (count : ℕ) (more : String) : String := String.ofList (replicate count 'x') ++ more

/-- Three transient episodes 40 minutes apart share a row, the first and the last of which are 80 minutes apart;
so do the first and the last of three whose scopes differ in the last of 81 characters only. An ordinary
incident with the scope and title of two episodes comes between them, and a clock of another offset
hides the row of the last episode. A title of 161 characters is open twice, and a scope of 81 is not resolved. -/
theorem incidents_not_coalesced :
    ¬ Episode.Follows ⟨newYear 0 0 0, 3600, "a"⟩ ⟨newYear 1 20 0, 3600, "a"⟩ ∧
    sharedRows [.transient (reportAt "a" "s" "t" (newYear 0 0 0)) 3600,
      .transient (reportAt "b" "s" "t" (newYear 0 40 0)) 3600,
      .transient (reportAt "c" "s" "t" (newYear 1 20 0)) 3600] ("s", "t") = ["a", "a", "a"] ∧
    sharedRows [.transient (reportAt "a" (long 80 "y") "t" (newYear 0 0 0)) 3600,
      .transient (reportAt "b" (long 80 "z") "t" (newYear 0 40 0)) 3600,
      .transient (reportAt "c" (long 80 "y") "t" (newYear 1 20 0)) 3600] (long 80 "", "t") = ["a", "a", "a"] ∧
    sharedRows [.transient (reportAt "a" "s" "t" (newYear 0 0 0)) 3600, .record (reportAt "b" "s" "t" (newYear 0 10 0)),
      .resolve "s" (newYear 0 20 0), .transient (reportAt "c" "s" "t" (newYear 0 30 0)) 3600] ("s", "t") = ["a", "b"] ∧
    sharedRows [.transient (reportAt "a" "s" "t" (newYear 10 0 5)) 3600,
      .transient (reportAt "b" "s" "t" (newYear 8 0 0)) 3600,
      .transient (reportAt "c" "s" "t" (newYear 8 10 0)) 3600] ("s", "t") = ["a", "b", "c"] ∧
    (openRows ("s", long 160 "") (World.after .first [.record (reportAt "a" "s" (long 160 "y") (newYear 0 0 0)),
      .record (reportAt "b" "s" (long 160 "y") (newYear 0 10 0))]).rows).length = 2 ∧
    (openRows (long 80 "", "t") (World.after .first [.record (reportAt "a" (long 80 "y") "t" (newYear 0 0 0)),
      .resolve (long 80 "y") (newYear 0 10 0)]).rows).length = 1 := by
  decide +kernel

end SignalArcade.Incidents
