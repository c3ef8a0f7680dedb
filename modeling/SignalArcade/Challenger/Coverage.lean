import SignalArcade.Paper.Models

/-!
# Coverage requirements

`coverage_policy.py`: how many of the outcomes of a Challenger skill have to be usable. The
requirement in force is a `CoveragePolicy`. It is copied, as four entries of a dictionary, to
whatever is started under it: an artifact, a tournament, a recovery trial, an activation.
-/

namespace SignalArcade.Challenger

open Paper (Instant)

/-- A value of a dictionary. A text is a `time` when it is the ISO form of an instant with its
timezone. -/
inductive Value where
  | none
  | flag (b : Bool)
  | int (n : ℤ)
  | float (x : ℚ)
  /-- Infinite, or not a number. -/
  | nonfinite
  | text (s : String)
  | time (t : Instant)
  deriving DecidableEq

/-- `isinstance(value, int | float) and not isinstance(value, bool) and math.isfinite(value)`,
and the number it is. -/
def Value.finite? : Value → Option ℚ
  | .int n => some n
  | .float x => some x
  | _ => Option.none

/-- A dictionary, by its items in the order of their keys. -/
abbrev Dict := List (String × Value)

/-- `dict.get(key)`. -/
def Dict.get (d : Dict) (key : String) : Value := (d.lookup key).getD .none

/-! ### The requirement -/

/-- The requirements that can be set. -/
def percentages : List ℕ := [70, 65, 60, 55]

def policyVersion : String := "skill-coverage-v1"

/-- The requirement of coverage, with its revision. -/
structure CoveragePolicy where
  percent : ℕ := 70
  revision : ℕ := 0
  effectiveAt : Option Instant := none
  deriving DecidableEq

/-- The entries of `POLICY_KEYS` that a dictionary has. -/
structure CoverageRecord where
  /-- `coverage_policy_version`. -/
  version : Option Value := none
  /-- `coverage_minimum_percent`. -/
  minimumPercent : Option Value := none
  /-- `coverage_revision`. -/
  revision : Option Value := none
  /-- `coverage_effective_at`. -/
  effectiveAt : Option Value := none
  deriving DecidableEq

/-- `{**first, **second}`. -/
def CoverageRecord.override (first second : CoverageRecord) : CoverageRecord where
  version := second.version <|> first.version
  minimumPercent := second.minimumPercent <|> first.minimumPercent
  revision := second.revision <|> first.revision
  effectiveAt := second.effectiveAt <|> first.effectiveAt

namespace CoveragePolicy

/-- The requirement, as a fraction. -/
def fraction (policy : CoveragePolicy) : ℚ := policy.percent / 100

/-- `policy.record()`. -/
def record (policy : CoveragePolicy) : CoverageRecord where
  version := some (.text policyVersion)
  minimumPercent := some (.int policy.percent)
  revision := some (.int policy.revision)
  effectiveAt := some (policy.effectiveAt.elim .none .time)

/-- `policy.metadata()`. -/
def metadata (policy : CoveragePolicy) : CoverageRecord :=
  if policy.revision ≠ 0 then policy.record else {}

/-- `policy.fresh(validation_start)`. -/
def fresh (policy : CoveragePolicy) (validationStart : Option Instant) : Bool :=
  match policy.effectiveAt, validationStart with
  | none, _ => true
  | some _, none => false
  | some effective, some start => effective ≤ start

/-- What a requirement is that can be read back: one of the percentages, the default before the
first change, and with the time of the change from then on. -/
structure Valid (policy : CoveragePolicy) : Prop where
  percent : policy.percent ∈ percentages
  legacy : policy.revision = 0 → policy = {}
  effective : policy.revision ≠ 0 → policy.effectiveAt.isSome

instance (policy : CoveragePolicy) : Decidable policy.Valid :=
  decidable_of_iff (policy.percent ∈ percentages ∧ (policy.revision = 0 → policy = {}) ∧
      (policy.revision ≠ 0 → policy.effectiveAt.isSome))
    ⟨fun ⟨h₁, h₂, h₃⟩ => ⟨h₁, h₂, h₃⟩, fun ⟨h₁, h₂, h₃⟩ => ⟨h₁, h₂, h₃⟩⟩

end CoveragePolicy

/-! ### Reading it -/

/-- `POLICY_KEYS.intersection(record)` is empty. -/
def CoverageRecord.absent (record : CoverageRecord) : Bool :=
  record.version.isNone && record.minimumPercent.isNone && record.revision.isNone && record.effectiveAt.isNone

/-- `read_policy`; nothing where it raises. -/
def readPolicy (record : CoverageRecord) : Option CoveragePolicy :=
  if record.absent then some {}
  else match record.version, record.minimumPercent, record.revision, record.effectiveAt with
    | some (.text version), some (.int percent), some (.int revision), some effective =>
      if version ≠ policyVersion then none
      else if percent < 0 ∨ percent.toNat ∉ percentages then none
      else if revision < 0 then none
      else if revision = 0 then
        if percent ≠ 70 ∨ effective ≠ .none then none else some {}
      else match effective with
        | .time t => some { percent := percent.toNat, revision := revision.toNat, effectiveAt := some t }
        | _ => none
    | _, _, _, _ => none

/-- `saved_minimum`: a requirement that cannot be read is never met. -/
def savedMinimum (record : CoverageRecord) : WithTop ℚ :=
  match readPolicy record with
  | some policy => (policy.fraction : ℚ)
  | none => ⊤

variable {policy : CoveragePolicy}

theorem readPolicy_valid {record : CoverageRecord} (h : readPolicy record = some policy) : policy.Valid := by
  have hdefault : ({} : CoveragePolicy).Valid := by decide
  unfold readPolicy at h
  split at h
  · cases h
    exact hdefault
  · split at h
    · next version percent revision effective _ _ _ _ =>
      split_ifs at h with hversion hpercent hneg hrevision hlegacy
      · cases h
        exact hdefault
      · push Not at hpercent
        cases effective with
        | time t =>
          cases h
          refine ⟨hpercent.2, fun hzero => absurd hzero ?_, fun _ => rfl⟩
          show revision.toNat ≠ 0
          omega
        | _ => cases h
    · cases h

/-- **A requirement is read back as it was recorded.** -/
theorem readPolicy_record (h : policy.Valid) : readPolicy policy.record = some policy := by
  have hpercent : ¬ ((policy.percent : ℤ) < 0 ∨ ((policy.percent : ℤ).toNat ∉ percentages)) := by
    simp [h.percent]
  by_cases hrevision : policy.revision = 0
  · rw [h.legacy hrevision]
    decide
  · obtain ⟨t, ht⟩ := Option.isSome_iff_exists.mp (h.effective hrevision)
    have hpos : ¬ ((policy.revision : ℤ) = 0) := by exact_mod_cast hrevision
    simp only [readPolicy, CoverageRecord.absent, CoveragePolicy.record, ht, Option.isNone_some, Bool.and_false,
      Option.elim_some, Bool.false_eq_true, if_false, ne_eq, not_true_eq_false, if_neg hpercent, if_neg hpos]
    rw [if_neg (by omega)]
    simp only [Int.toNat_natCast, Option.some_inj]
    cases policy
    cases ht
    rfl

theorem readPolicy_metadata (h : policy.Valid) : readPolicy policy.metadata = some policy := by
  unfold CoveragePolicy.metadata
  split
  · exact readPolicy_record h
  · next hrevision =>
    rw [h.legacy (by simpa using hrevision)]
    rfl

@[simp] theorem savedMinimum_metadata (h : policy.Valid) :
    savedMinimum policy.metadata = (policy.fraction : ℚ) := by
  rw [savedMinimum, readPolicy_metadata h]

theorem savedMinimum_finite {record : CoverageRecord} (h : savedMinimum record ≠ ⊤) :
    ∃ policy : CoveragePolicy, policy.Valid ∧ readPolicy record = some policy ∧
      savedMinimum record = (policy.fraction : ℚ) := by
  unfold savedMinimum at h ⊢
  split at h
  · next policy hread => exact ⟨policy, readPolicy_valid hread, hread, rfl⟩
  · exact absurd rfl h

end SignalArcade.Challenger
