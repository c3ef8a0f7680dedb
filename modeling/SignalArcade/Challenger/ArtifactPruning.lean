import SignalArcade.Arena.Skill
import SignalArcade.Lib.Checked
import SignalArcade.Lib.Table
import SignalArcade.Lib.Worklist
import Mathlib.Data.List.Sort
import Mathlib.Data.String.Basic

/-!
# Pruning of the skill artifacts

`prune_challenger_artifacts` bounds the artifacts of the database. It keeps those that a stored state names or that wait
in its sidecar, those it is told to preserve, and whatever these depend on; then the newest ones until the bound is
reached. What it removes goes into the archive first, and its payload goes with it.
-/

namespace SignalArcade.ArtifactPruning

open Checked Worklist List

/-! ### The store -/

/-- `ChallengerSkillState`, as far as the pruning reads it. -/
structure SkillState where
  cohortKey : String
  skill : ChallengerSkill
  latestCandidateVersion : Option String
  championVersion : Option String
  testingVersion : Option String
  activeVersion : Option String
  suspendedVersion : Option String

/-- What stands in a pending sidecar. -/
inductive Pending where
  | version (version : String)
  /-- What is no text. -/
  | other

/-- A pending sidecar, a row of `settings`. -/
structure Sidecar where
  key : String
  value : List Pending

/-- `ChallengerSkillArtifact`. Its other fields are in `record`. -/
structure Artifact where
  version : String
  createdAt : String
  dependencyVersions : List (String × String)
  parameters : String
  record : String

/-- A row of `statistical_model_artifacts`. -/
structure Payload where
  version : String
  payload : String

/-- A row of `challenger_artifact_archive`, without the parameters. -/
structure Archived where
  version : String
  archivedAt : String
  createdAt : String
  dependencyVersions : List (String × String)
  record : String

/-- The tables that `prune` reads and writes. -/
structure Store where
  states : List SkillState
  settings : Table String Sidecar Sidecar.key
  artifacts : Table String Artifact Artifact.version
  payloads : Table String Payload Payload.version
  archive : Table String Archived Archived.version

/-! ### What has authority -/

/-- `_challenger_pending_setting_key`. -/
def SkillState.pendingSettingKey (state : SkillState) : String :=
  "challenger_pending_versions_v1:" ++ state.cohortKey ++ ":" ++ state.skill.value

/-- The versions that a state names. An empty one is none. -/
def SkillState.versions (state : SkillState) : List String :=
  [state.latestCandidateVersion, state.championVersion, state.testingVersion, state.activeVersion,
    state.suspendedVersion].reduceOption.filter (· ≠ "")

def Store.pendingVersions (store : Store) (state : SkillState) : List String :=
  match store.settings.get? state.pendingSettingKey with
  | none => []
  | some sidecar => sidecar.value.filterMap fun
    | .version version => some version
    | .other => none

/-- `protected`, before the dependencies. -/
def Store.roots (store : Store) (preserveVersions : List String) : List String :=
  preserveVersions ++ store.states.flatMap fun state => state.versions ++ store.pendingVersions state

/-- An artifact leads to what it depends on. -/
def Store.dependencies (store : Store) : Graph String where
  nodes := store.artifacts.rows.map Artifact.version
  next version := match store.artifacts.get? version with
    | none => []
    | some artifact => artifact.dependencyVersions.map Prod.snd
  mem_nodes version h := by
    cases hget : store.artifacts.get? version with
    | none => simp [hget] at h
    | some artifact =>
      obtain ⟨hmem, rfl⟩ := Table.get?_eq_some.mp hget
      exact mem_map_of_mem hmem

/-- `protected`. -/
def Store.protectedVersions (store : Store) (preserveVersions : List String) : List String :=
  store.dependencies.close ⟨store.roots preserveVersions, store.roots preserveVersions⟩

/-! ### The pruning -/

/-- The newest versions are kept too, until there are enough. -/
def fill (maxArtifacts : ℕ) : List String → List String → List String
  | [], keep => keep
  | version :: versions, keep =>
    if maxArtifacts ≤ keep.length then keep else fill maxArtifacts versions (keep.insert version)

/-- `keep`, of the versions from the newest on. -/
def Store.keep (store : Store) (maxArtifacts : ℕ) (preserveVersions versions : List String) : List String :=
  fill maxArtifacts versions (versions.filter (· ∈ store.protectedVersions preserveVersions))

/-- The row of the archive. -/
def Artifact.archived (artifact : Artifact) (archivedAt : String) : Archived where
  version := artifact.version
  archivedAt := archivedAt
  createdAt := artifact.createdAt
  dependencyVersions := artifact.dependencyVersions
  record := artifact.record

/-- `INSERT OR IGNORE INTO challenger_artifact_archive`. -/
def Store.archiveVersion (store : Store) (now : String) (archive : Table String Archived Archived.version)
    (version : String) : Table String Archived Archived.version :=
  match store.artifacts.get? version with
  | none => archive
  | some artifact => if (archive.get? version).isSome then archive else archive.upsert (artifact.archived now)

/-- Versions are archived and removed, with their payloads. -/
def Store.remove (store : Store) (now : String) (removed : List String) : Store :=
  { store with
    archive := removed.foldl (store.archiveVersion now) store.archive
    artifacts := removed.foldl Table.erase store.artifacts
    payloads := removed.foldl Table.erase store.payloads }

/-- `prune_challenger_artifacts`, where `ordered` are the artifacts as `ORDER BY created_at DESC` reads them. -/
def Store.pruneChallengerArtifacts (store : Store) (maxArtifacts : ℤ) (preserveVersions : List String) (now : String)
    (ordered : List Artifact) : Except String (List String × Store) := do
  raiseIf (maxArtifacts < 1) "max_artifacts must be positive"
  let versions := ordered.map Artifact.version
  let keep := store.keep maxArtifacts.toNat preserveVersions versions
  let removed := versions.filter (· ∉ keep)
  return (removed, store.remove now removed)

/-- What `ORDER BY created_at DESC` may read. -/
structure Store.Reads (store : Store) (ordered : List Artifact) : Prop where
  perm : ordered.Perm store.artifacts.rows
  newest : ordered.Pairwise (·.createdAt ≥ ·.createdAt)

/-! ### What is kept -/

variable {store : Store} {maxArtifacts : ℕ} {preserveVersions versions keep : List String} {version : String}

theorem fill_spec (hnodup : keep.Nodup) (versions : List String) :
    (fill maxArtifacts versions keep).Nodup ∧ (fill maxArtifacts versions keep).length ≤ max maxArtifacts keep.length ∧
      ∃ n, ∀ version, version ∈ fill maxArtifacts versions keep ↔ version ∈ keep ∨ version ∈ versions.take n := by
  induction versions generalizing keep with
  | nil => exact ⟨hnodup, le_max_right _ _, 0, by simp [fill]⟩
  | cons first versions ih =>
    unfold fill
    split_ifs with hfull
    · exact ⟨hnodup, le_max_right _ _, 0, by simp⟩
    · obtain ⟨hnodup', hlength, n, hmem⟩ := ih (hnodup.insert (a := first))
      refine ⟨hnodup', ?_, n + 1, fun version => ?_⟩
      · have hinsert : (keep.insert first).length ≤ keep.length + 1 := by
          rw [length_insert]
          split_ifs
          · exact Nat.le_succ _
          · exact le_rfl
        omega
      · rw [hmem, mem_insert_iff, take_succ_cons, mem_cons]
        tauto

theorem mem_foldl_erase {ρ : Type} {key : ρ → String} {table : Table String ρ key} {removed : List String} {row : ρ} :
    row ∈ removed.foldl Table.erase table ↔ row ∈ table ∧ key row ∉ removed := by
  induction removed generalizing table with
  | nil => simp
  | cons version removed ih =>
    rw [foldl_cons, ih, Table.mem_erase, mem_cons, not_or, and_assoc]

variable {archive : Table String Archived Archived.version}

theorem Store.mem_archiveVersion {now : String} {row : Archived}
    (h : row ∈ archive) : row ∈ store.archiveVersion now archive version := by
  unfold Store.archiveVersion
  cases hget : store.artifacts.get? version with
  | none => exact h
  | some artifact =>
    obtain ⟨-, hversion⟩ := Table.get?_eq_some.mp hget
    dsimp only
    split_ifs with hthere
    · exact h
    · have hfresh : archive.get? version = none := by simpa using hthere
      refine Table.mem_upsert.mpr (.inr ⟨h, fun hkey => ?_⟩)
      exact Table.get?_eq_none.mp hfresh row h (hkey.trans hversion)

theorem Store.of_mem_archiveVersion {now : String} {row : Archived}
    (h : row ∈ store.archiveVersion now archive version) :
    row ∈ archive ∨ ∃ artifact ∈ store.artifacts, row = artifact.archived now := by
  unfold Store.archiveVersion at h
  cases hget : store.artifacts.get? version with
  | none =>
    rw [hget] at h
    exact .inl h
  | some artifact =>
    rw [hget] at h
    dsimp only at h
    split_ifs at h with hthere
    · exact .inl h
    · rcases Table.mem_upsert.mp h with rfl | ⟨hrow, -⟩
      · exact .inr ⟨artifact, (Table.get?_eq_some.mp hget).1, rfl⟩
      · exact .inl hrow

theorem Store.mem_foldl_archive {now : String} {removed : List String} :
    (∀ row ∈ archive, row ∈ removed.foldl (store.archiveVersion now) archive) ∧
    ∀ artifact ∈ store.artifacts, artifact.version ∈ removed →
      ∃ row ∈ removed.foldl (store.archiveVersion now) archive, row.version = artifact.version ∧
        (row ∈ archive ∨ row = artifact.archived now) := by
  induction removed generalizing archive with
  | nil => exact ⟨fun _ h => h, fun _ _ h => absurd h not_mem_nil⟩
  | cons version removed ih =>
    obtain ⟨hstays, harchived⟩ := @ih (store.archiveVersion now archive version)
    refine ⟨fun row h => hstays row (Store.mem_archiveVersion h), fun artifact hartifact hremoved => ?_⟩
    have hget : store.artifacts.get? artifact.version = some artifact := Table.get?_eq_some.mpr ⟨hartifact, rfl⟩
    rcases mem_cons.mp hremoved with rfl | hlater
    · -- this one is archived now, unless its version was
      cases hthere : archive.get? artifact.version with
      | some row =>
        obtain ⟨hrow, hversion⟩ := Table.get?_eq_some.mp hthere
        exact ⟨row, hstays row (Store.mem_archiveVersion hrow), hversion, .inl hrow⟩
      | none =>
        refine ⟨artifact.archived now, hstays _ ?_, rfl, .inr rfl⟩
        rw [Store.archiveVersion, hget]
        simp [hthere]
    · obtain ⟨row, hrow, hversion, hwhich⟩ := harchived artifact hartifact hlater
      refine ⟨row, hrow, hversion, ?_⟩
      rcases hwhich with hwas | hnow
      · refine (Store.of_mem_archiveVersion hwas).imp_right ?_
        rintro ⟨artifact', hartifact', rfl⟩
        rw [store.artifacts.eq_of_key hartifact' hartifact hversion]
      · exact .inr hnow

theorem Store.mem_protectedVersions : version ∈ store.protectedVersions preserveVersions ↔
    store.dependencies.Reachable (store.roots preserveVersions) version := Graph.mem_close _ _ _

theorem Store.keep_spec (versions : List String) (hnodup : versions.Nodup) :
    (store.keep maxArtifacts preserveVersions versions).length ≤
        max maxArtifacts (versions.filter (· ∈ store.protectedVersions preserveVersions)).length ∧
      ∃ n, ∀ version, version ∈ store.keep maxArtifacts preserveVersions versions ↔
        (version ∈ versions ∧ version ∈ store.protectedVersions preserveVersions) ∨ version ∈ versions.take n := by
  have hfilter : (versions.filter (· ∈ store.protectedVersions preserveVersions)).Nodup := hnodup.filter _
  obtain ⟨-, hlength, n, hmem⟩ := @fill_spec maxArtifacts _ hfilter versions
  refine ⟨hlength, n, fun version => ?_⟩
  rw [Store.keep, hmem, mem_filter, decide_eq_true_eq]

/-- **Pruning keeps the closures of authority.** It raises for a bound below one. Otherwise no artifact that is
reachable from a version with authority is removed, with its payload; what is removed is archived, without its payload,
and nothing else is touched; what is left is within the bound or the closure, and an artifact that is kept beyond the
closure is not older than one that is removed. -/
theorem prune_keeps_closures (store : Store) (maxArtifacts : ℤ) (preserveVersions : List String) (now : String)
    (ordered : List Artifact) (hreads : store.Reads ordered) :
    (maxArtifacts < 1 → store.pruneChallengerArtifacts maxArtifacts preserveVersions now ordered =
      .error "max_artifacts must be positive") ∧
    (1 ≤ maxArtifacts → ∃ removed store', store.pruneChallengerArtifacts maxArtifacts preserveVersions now ordered =
        .ok (removed, store') ∧
      (∀ artifact, artifact ∈ store'.artifacts ↔ artifact ∈ store.artifacts ∧ artifact.version ∉ removed) ∧
      (∀ version ∈ removed, ¬ store.dependencies.Reachable (store.roots preserveVersions) version ∧
        ∃ artifact ∈ store.artifacts, artifact.version = version ∧ ∃ row ∈ store'.archive, row.version = version ∧
          (row ∈ store.archive ∨ row = artifact.archived now)) ∧
      (∀ payload, payload ∈ store'.payloads ↔ payload ∈ store.payloads ∧ payload.version ∉ removed) ∧
      (∀ row ∈ store.archive, row ∈ store'.archive) ∧
      store'.states = store.states ∧ store'.settings = store.settings ∧
      (store'.artifacts.rows.length : ℤ) ≤ max maxArtifacts
        (store.artifacts.rows.filter (·.version ∈ store.protectedVersions preserveVersions)).length ∧
      ∀ kept ∈ store'.artifacts, ¬ store.dependencies.Reachable (store.roots preserveVersions) kept.version →
        ∀ gone ∈ store.artifacts, gone.version ∈ removed → gone.createdAt ≤ kept.createdAt) := by
  refine ⟨fun hbound => ?_, fun hbound => ?_⟩
  · rw [Store.pruneChallengerArtifacts, raiseIf, if_pos hbound]
    rfl
  have hversions : (ordered.map Artifact.version).Nodup :=
    (hreads.perm.map Artifact.version).nodup_iff.mpr store.artifacts.nodup
  have hmemVersions : ∀ artifact ∈ store.artifacts, artifact.version ∈ ordered.map Artifact.version := fun artifact h =>
    mem_map_of_mem (hreads.perm.mem_iff.mpr h)
  obtain ⟨hlength, n, hkeep⟩ := @Store.keep_spec store maxArtifacts.toNat preserveVersions _ hversions
  have hprune : store.pruneChallengerArtifacts maxArtifacts preserveVersions now ordered =
      .ok ((ordered.map Artifact.version).filter
          (· ∉ store.keep maxArtifacts.toNat preserveVersions (ordered.map Artifact.version)),
        store.remove now ((ordered.map Artifact.version).filter
          (· ∉ store.keep maxArtifacts.toNat preserveVersions (ordered.map Artifact.version)))) := by
    simp only [Store.pruneChallengerArtifacts, raiseIf_of_not (not_lt.mpr hbound)]
    rfl
  generalize store.keep maxArtifacts.toNat preserveVersions (ordered.map Artifact.version) = keep at hlength hkeep hprune
  have hremoved : ∀ version, version ∈ (ordered.map Artifact.version).filter (· ∉ keep) ↔
      version ∈ ordered.map Artifact.version ∧ version ∉ keep := by
    intro version
    rw [mem_filter, decide_eq_true_eq]
  generalize (ordered.map Artifact.version).filter (· ∉ keep) = removed at hremoved hprune
  have hartifacts : ∀ artifact, artifact ∈ (store.remove now removed).artifacts ↔
      artifact ∈ store.artifacts ∧ artifact.version ∉ removed := fun artifact => mem_foldl_erase
  refine ⟨removed, store.remove now removed, hprune, hartifacts, fun version hversion => ?_, fun payload => mem_foldl_erase,
    Store.mem_foldl_archive.1, rfl, rfl, ?_, fun kept hin hfree gone hgone hout => ?_⟩
  · obtain ⟨hread, hnot⟩ := (hremoved version).mp hversion
    obtain ⟨artifact, hartifact, rfl⟩ := mem_map.mp hread
    have hstored : artifact ∈ store.artifacts := hreads.perm.mem_iff.mp hartifact
    refine ⟨fun hreachable => hnot ((hkeep _).mpr (.inl ⟨hread, Store.mem_protectedVersions.mpr hreachable⟩)), artifact,
      hstored, rfl, ?_⟩
    exact Store.mem_foldl_archive.2 artifact hstored hversion
  · -- what is left is kept, and what is protected is what is protected of what was read
    have hsub : (store.remove now removed).artifacts.rows.map Artifact.version ⊆ keep := by
      intro version hversion
      obtain ⟨artifact, hartifact, rfl⟩ := mem_map.mp hversion
      obtain ⟨hstored, hnot⟩ := (hartifacts artifact).mp hartifact
      by_contra hgone
      exact hnot ((hremoved _).mpr ⟨hmemVersions artifact hstored, hgone⟩)
    have hleft := (store.remove now removed).artifacts.nodup.length_le_of_subset hsub
    have hprotected : ((ordered.map Artifact.version).filter (· ∈ store.protectedVersions preserveVersions)).length =
        (store.artifacts.rows.filter (·.version ∈ store.protectedVersions preserveVersions)).length := by
      rw [filter_map, length_map]
      exact (hreads.perm.filter _).length_eq
    rw [length_map] at hleft
    rw [hprotected] at hlength
    omega
  · obtain ⟨hstored, hstays⟩ := (hartifacts kept).mp hin
    have hkept : kept.version ∈ keep := by
      by_contra hnot
      exact hstays ((hremoved _).mpr ⟨hmemVersions kept hstored, hnot⟩)
    -- the one that is kept is among the first that were read, and the one that is gone is not
    have hfirst : kept.version ∈ (ordered.map Artifact.version).take n :=
      ((hkeep _).mp hkept).resolve_left fun hprotected => hfree (Store.mem_protectedVersions.mp hprotected.2)
    have hlast : gone.version ∉ (ordered.map Artifact.version).take n :=
      fun htake => ((hremoved _).mp hout).2 ((hkeep _).mpr (.inr htake))
    rw [← map_take] at hfirst hlast
    obtain ⟨kept', hkept', hversion⟩ := mem_map.mp hfirst
    obtain rfl := store.artifacts.eq_of_key (hreads.perm.mem_iff.mp (mem_of_mem_take hkept')) hstored hversion
    have hgone' : gone ∈ ordered.drop n := by
      have hread := hreads.perm.mem_iff.mpr hgone
      rw [← take_append_drop n ordered, mem_append] at hread
      exact hread.resolve_left fun htake => hlast (mem_map_of_mem htake)
    have hnewest := hreads.newest
    rw [← take_append_drop n ordered, pairwise_append] at hnewest
    exact hnewest.2.2 kept' hkept' gone hgone'

def sample : Store where
  states := [⟨"cohort", .entry, none, some "a", none, none, none⟩]
  settings := Table.empty
  artifacts :=
    ⟨[⟨"a", "1", [("entry", "b")], "", ""⟩, ⟨"b", "2", [("exit", "a"), ("sizing", "x")], "", ""⟩, ⟨"c", "3", [], "", ""⟩],
      by decide⟩
  payloads := ⟨[⟨"c", "trees"⟩], by decide⟩
  archive := Table.empty

/-- A pass that keeps one artifact. -/
theorem prune_keeps_closures_sample : ∃ removed store',
    sample.pruneChallengerArtifacts 1 [] "now" sample.artifacts.rows.reverse = .ok (removed, store') ∧
      ∀ artifact, artifact ∈ store'.artifacts ↔ artifact ∈ sample.artifacts ∧ artifact.version ∉ removed := by
  obtain ⟨removed, store', hprune, hmem, -⟩ := (prune_keeps_closures sample 1 [] "now" sample.artifacts.rows.reverse
    ⟨reverse_perm _, by decide +kernel⟩).2 le_rfl
  exact ⟨removed, store', hprune, hmem⟩

end SignalArcade.ArtifactPruning
