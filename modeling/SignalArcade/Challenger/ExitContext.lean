import SignalArcade.Challenger.Assess
import SignalArcade.Challenger.Training

/-!
# Contextual Exit policies

`exit_context.py`: a policy that selects, from the features at the entry, after how many seconds a
normal hold is reviewed. For each horizon up to the longest hold of the mode it has a linear model of
the return; the best prediction is selected, if it is better than that of the longest hold by a
margin. A plan is what was selected for one entry, with what it was selected by.
-/

namespace SignalArcade.Challenger

open List

open Paper (Instant RiskMode)
/-! ### The policy -/

/-- `HORIZONS`. -/
def contextHorizons : List ℕ := [60, 300, 600, 900, 1200]

def minimumPredictedEdge : ℚ := 1 / 100

def supportZ : ℚ := 6

/-- The linear model of a horizon. -/
structure ContextModel where
  horizon : ℕ
  parts : Parts

/-- `ContextPolicy`. -/
structure ContextRidge where
  baseline : ℕ
  /-- By their horizons, in order. -/
  models : List ContextModel

/-- A horizon, with its predicted return. -/
abbrev Predicted := ℕ × ℚ

def Predicted.key (predicted : Predicted) : ℚ × ℚ := (predicted.2, predicted.1)

namespace ContextModel

variable (model : ContextModel) (features : List ℚ)

/-- The features as the model sees them. -/
def row : List ℚ := (features.zip (model.parts.means.zip model.parts.scales)).map fun (x, mean, scale) => (x - mean) / scale

/-- Whether the features are within its support. -/
def supports : Bool := (model.row features).all fun x => |x| ≤ supportZ

def predict : Predicted :=
  (model.horizon, max (-1) (min 3 (model.parts.coefficients.headD 0 +
    (((model.row features).zip model.parts.coefficients.tail).map fun (x, weight) => x * weight).sum)))

end ContextModel

/-- `select`: the horizon, and whether the features are within the support. -/
def ContextRidge.select (policy : ContextRidge) : ContextPolicy := fun features =>
  match exitContextFeatures.mapM features with
  | none => (policy.baseline, false)
  | some row =>
    if !policy.models.all fun model => model.supports row then (policy.baseline, false)
    else
      let predictions := policy.models.map fun model => model.predict row
      match firstMax Predicted.key predictions with
      | none => (policy.baseline, false)
      | some selected =>
        if selected.2 < ((predictions.lookup policy.baseline).getD 0) + minimumPredictedEdge then (policy.baseline, true)
        else (selected.1, true)

/-! ### Its text -/

/-- What the text of the parameters says, when it is an object of the two entries: the models by their horizons, and
their vectors, when they are lists of finite numbers. -/
structure ContextData where
  baselineHorizonSeconds : ℤ
  models : List ContextModel

/-- What reads the text of the parameters. -/
structure ContextCodec where
  /-- `json.loads`. -/
  decode : String → Option ContextData
  /-- `hashlib.sha256`. -/
  digest : String → String

namespace ContextCodec

variable (codec : ContextCodec)

/-- `_decode`. -/
def decodePolicy (payload : String) (baseline : ℕ) : Option ContextRidge := do
  let data ← codec.decode payload
  let horizons := contextHorizons.filter (· ≤ baseline)
  let width := exitContextFeatures.length
  if data.baselineHorizonSeconds = baseline ∧ data.models.map ContextModel.horizon = horizons ∧
      data.models.all (fun model => model.parts.means.length = width && model.parts.scales.length = width &&
        model.parts.coefficients.length = width + 1 && model.parts.scales.all (1 / 100 ≤ ·)) then
    some ⟨baseline, data.models⟩
  else none

/-- The policy, if all that is saved of it agrees. -/
def loadPolicy (artifact : ChallengerSkillArtifact) : Option ContextPolicy :=
  if artifact.skill ≠ .exit ∨ artifact.schemaVersion ≠ challengerSkillSchemaVersion ∨
      artifact.recipeVersion ≠ "exit-context-v1" ∨ artifact.implementationVersion ≠ "entry-context-exit-ridge-v1" ∨
      artifact.modelFamily ≠ .linear ∨ artifact.payloadFormat ≠ "inline" ∨ artifact.featureNames ≠ exitContextFeatures then none
  else if 24000 < artifact.parameters.contextPayload.length ∨
      artifact.payloadDigest ≠ some (codec.digest artifact.parameters.contextPayload) then none
  else (codec.decodePolicy artifact.parameters.contextPayload (maxHoldSeconds artifact.riskMode)).map ContextRidge.select

end ContextCodec

/-! ### What is selected -/

variable {policy : ContextRidge} {features : Features} {codec : ContextCodec} {artifact : ChallengerSkillArtifact}
  {loaded : ContextPolicy}

theorem firstMax_mem {α : Type} {key : α → ℚ × ℚ} {l : List α} {a : α} (h : firstMax key l = some a) : a ∈ l := by
  cases l with
  | nil => cases h
  | cons first l =>
    rw [firstMax, Option.some_inj] at h
    subst h
    suffices ∀ (l : List α) (best : α), l.foldl (fun best b => if keyAbove (key b) (key best) then b else best) best ∈ best :: l from
      this l first
    intro l
    induction l with
    | nil => simp
    | cons b l ih =>
      intro best
      rw [foldl_cons]
      split_ifs
      · exact mem_cons_of_mem _ (ih b)
      · rcases mem_cons.mp (ih best) with hbest | hl
        · rw [hbest]
          exact mem_cons_self
        · exact mem_cons_of_mem _ (mem_cons_of_mem _ hl)

theorem select_mem (policy : ContextRidge) (features : Features) :
    (policy.select features).1 = policy.baseline ∨ (policy.select features).1 ∈ policy.models.map ContextModel.horizon := by
  unfold ContextRidge.select
  split
  · exact .inl rfl
  · next row hrow =>
    dsimp only
    split_ifs
    · exact .inl rfl
    · split
      · exact .inl rfl
      · next selected hselected =>
        split_ifs
        · exact .inl rfl
        · obtain ⟨model, hmodel, hpredict⟩ := mem_map.mp (firstMax_mem hselected)
          refine .inr (mem_map.mpr ⟨model, hmodel, ?_⟩)
          rw [← hpredict]
          rfl

theorem features_of_supported (h : (policy.select features).2 = true) : ∀ name ∈ exitContextFeatures, (features name).isSome := by
  unfold ContextRidge.select at h
  split at h
  · cases h
  · next row hrow =>
    have hall : ∀ (names : List String) (row : List ℚ), names.mapM features = some row → ∀ name ∈ names, (features name).isSome := by
      intro names
      induction names with
      | nil => simp
      | cons first names ih =>
        intro row hrow name hname
        simp only [mapM_cons, Option.bind_eq_bind, Option.bind_eq_some_iff] at hrow
        obtain ⟨value, hvalue, rest, hrest, -⟩ := hrow
        rcases mem_cons.mp hname with rfl | hname
        · rw [hvalue]
          rfl
        · exact ih rest hrest name hname
    exact hall _ row hrow

section

variable (h : codec.loadPolicy artifact = some loaded)
include h

theorem select_le (features : Features) :
    (loaded features).1 ∈ contextHorizons ∧ (loaded features).1 ≤ maxHoldSeconds artifact.riskMode := by
  unfold ContextCodec.loadPolicy at h
  split_ifs at h
  obtain ⟨policy, hpolicy, rfl⟩ := Option.map_eq_some_iff.mp h
  simp only [ContextCodec.decodePolicy, Option.bind_eq_bind, Option.bind_eq_some_iff] at hpolicy
  obtain ⟨data, -, hdata⟩ := hpolicy
  split_ifs at hdata with hchecked
  obtain ⟨-, hhorizons, -⟩ := hchecked
  cases hdata
  have hlongest : maxHoldSeconds artifact.riskMode ∈ contextHorizons := by
    cases artifact.riskMode <;> decide
  rcases select_mem ⟨maxHoldSeconds artifact.riskMode, data.models⟩ features with hbaseline | hmodel
  · rw [hbaseline]
    exact ⟨hlongest, le_rfl⟩
  · have hfiltered := hmodel
    rw [show (⟨maxHoldSeconds artifact.riskMode, data.models⟩ : ContextRidge).models = data.models from rfl, hhorizons] at hfiltered
    obtain ⟨hmem, hle⟩ := mem_filter.mp hfiltered
    exact ⟨hmem, by simpa using hle⟩

theorem not_coach_of_loaded : artifact.isCoach = false := by
  unfold ContextCodec.loadPolicy at h
  split_ifs at h with hcontract
  push Not at hcontract
  unfold ChallengerSkillArtifact.isCoach
  rw [hcontract.2.1]
  decide

theorem features_of_loaded (hsupported : (loaded features).2 = true) :
    ∀ name ∈ exitContextFeatures, (features name).isSome := by
  unfold ContextCodec.loadPolicy at h
  split_ifs at h
  obtain ⟨policy, -, rfl⟩ := Option.map_eq_some_iff.mp h
  exact features_of_supported hsupported

end

end SignalArcade.Challenger
