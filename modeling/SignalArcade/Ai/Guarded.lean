import SignalArcade.Ai.Qualification
import SignalArcade.Challenger.Confined
import SignalArcade.Lib.Runs

/-!
# The guarded veto

`AiDecisionLab` of `ai_lab.py`: in Guarded mode a critic may make a pass of an entry, when its model is
qualified. The qualification is remembered, and forgotten when an assessment was saved or the models
changed. A guarded call asks for the qualification, for the model, for its answer, and saves the
assessment; at each of these the event loop, or a worker thread, may do something else.
-/

namespace SignalArcade.Ai

open List

open Paper (Instant DecisionAction)
open Challenger (Decision)

/-! ### The laboratory -/

/-- An entry of `installed_models`. -/
structure InstalledModel where
  name : String
  digest : String
  deriving DecidableEq

/-- What is remembered of a qualification: `qualification_cache`, and the epoch in which the assessments were read. -/
structure Remembered where
  contract : Contract
  since : Instant
  result : Qualification
  epoch : ℕ

/-- What a qualification is computed for: to look, to keep Guarded mode, or to enable it. -/
inductive Purpose where
  | look | keep | enable

/-- A qualification that is being computed. -/
structure Computation where
  purpose : Purpose
  found : Remembered

/-- A veto, with the mode and the configuration as it was applied. -/
structure Veto where
  assessment : AiCriticAssessment
  mode : AiDecisionMode
  configurationFingerprint : String

/-- How far a guarded call is. -/
inductive Phase where
  | qualifying (found : Remembered)
  | preparing
  | selecting (mode : AiDecisionMode)
  | asking (mode : AiDecisionMode) (modelName modelDigest : String)
  | saving (assessment : AiCriticAssessment)
  | saved (assessment : AiCriticAssessment)
  | returned (decision : Decision) (veto : Option Veto)

/-- A call of `assess_guarded`, with the assessments that were durable as it began. -/
structure Call where
  decisionId : String
  decision : Decision
  durable : Assessments
  phase : Phase

/-- `AiDecisionLab`, with the database and what it is given. -/
structure AiDecisionLab where
  mode : AiDecisionMode
  maintenancePaused : Bool := false
  ollamaModel : String
  installedModels : List InstalledModel
  configurationFingerprint : String
  durable : Assessments
  qualificationCache : Option Remembered := none
  computations : List Computation := []
  unannounced : ℕ := 0
  epoch : ℕ := 0
  now : Instant
  call : Option Call := none

def installedByName (installed : List InstalledModel) (name : String) : Option InstalledModel :=
  installed.find? fun item => item.name = name || (!name.toList.contains ':' && item.name = name ++ ":latest")

/-- Whether a call has not returned. -/
def Phase.inProgress : Phase → Bool
  | .returned _ _ => false
  | _ => true

/-- What a call is computing. -/
def Phase.reading : Phase → Option Remembered
  | .qualifying found => some found
  | _ => none

def vetoed (decision : Decision) : Decision :=
  { decision with
    action := .pass
    blockers := decision.blockers ++ ["qualified_ai_critic_veto"]
    reasons := decision.reasons ++ ["The qualified local AI critic preserved cash using cited saved evidence"]
    modelVersion := decision.modelVersion ++ [promptVersion] }

namespace AiDecisionLab

variable (lab : AiDecisionLab)

/-- The digest of the selected model. -/
def digest : String := ((installedByName lab.installedModels lab.ollamaModel).map InstalledModel.digest).getD ""

/-- The contract a qualification is asked for in. -/
def contract : Contract := ⟨lab.ollamaModel, lab.digest, lab.configurationFingerprint⟩

/-- Whether a guarded call is in progress. -/
def inProgress : Bool := lab.call.any fun call => call.phase.inProgress

/-- What `qualification` remembers, for thirty seconds. -/
def served : Option Qualification :=
  lab.qualificationCache.bind fun found =>
    if found.contract = lab.contract ∧ lab.now - found.since < 30000000 then some found.result else none

/-- What `qualification` reads. -/
def compute : Remembered := ⟨lab.contract, lab.now, qualify lab.contract lab.durable, lab.epoch⟩

/-- The qualification is forgotten. -/
def forget : AiDecisionLab := { lab with qualificationCache := none, epoch := lab.epoch + 1 }

def act (purpose : Purpose) (result : Qualification) : AiDecisionLab :=
  match purpose with
  | .look => lab
  | .keep => if lab.mode = .guarded ∧ result.qualified = false then { lab with mode := .shadow } else lab
  | .enable => if result.qualified then { lab with mode := .guarded } else lab

/-- `qualification()`, up to where it has read. -/
def ask (purpose : Purpose) : AiDecisionLab :=
  match lab.served with
  | some result => lab.act purpose result
  | none => { lab with computations := lab.computations ++ [⟨purpose, lab.compute⟩] }

/-- `qualification()`, from where it has read. -/
def finish (i : ℕ) : AiDecisionLab :=
  match lab.computations[i]? with
  | none => lab
  | some computation =>
    { lab with qualificationCache := some computation.found, computations := lab.computations.eraseIdx i }.act
      computation.purpose computation.found.result

/-- `set_mode`; Guarded mode is asked for by a qualification. -/
def setMode (mode : AiDecisionMode) : AiDecisionLab := if mode = .guarded then lab else { lab with mode := mode }

/-- `select_installed_model`; it raises where the model is not installed. -/
def selectInstalledModel (name : String) : AiDecisionLab :=
  if (installedByName lab.installedModels name).isNone then lab
  else
    { lab with ollamaModel := name, mode := if lab.mode = AiDecisionMode.guarded then AiDecisionMode.shadow else lab.mode }.forget

/-- `refresh_models`, from where the models are known; Guarded mode is kept by a qualification. -/
def refresh (models : List InstalledModel) : AiDecisionLab :=
  let lab' := { lab with installedModels := models }
  if (∀ item ∈ models, item ∈ lab.installedModels) ∧ ∀ item ∈ lab.installedModels, item ∈ models then lab' else lab'.forget

def commit (assessment : AiCriticAssessment) : AiDecisionLab :=
  { lab with durable := lab.durable.upsert assessment, unannounced := lab.unannounced + 1 }

/-- The qualification of before an assessment is forgotten. -/
def announce : AiDecisionLab :=
  if lab.unannounced = 0 then lab else { lab with unannounced := lab.unannounced - 1 }.forget

/-! ### A guarded call -/

def proceed (call : Call) (phase : Phase) : AiDecisionLab := { lab with call := some { call with phase := phase } }

def settle (call : Call) (result : Qualification) : AiDecisionLab :=
  if result.qualified then lab.proceed call .preparing
  else { lab with mode := .shadow }.proceed call (.returned call.decision none)

/-- `assess_guarded`, up to where the qualification is known or has been read. Entries are assessed one after the
other. -/
def assessGuarded (decisionId : String) (decision : Decision) : AiDecisionLab :=
  let call : Call := ⟨decisionId, decision, lab.durable, .preparing⟩
  if lab.inProgress then lab
  else if lab.maintenancePaused ∨ lab.mode ≠ .guarded ∨ decision.action ≠ .enter then
    lab.proceed call (.returned decision none)
  else
    match lab.served with
    | some result => lab.settle call result
    | none => lab.proceed call (.qualifying lab.compute)

/-- `assess_guarded` where it goes on by itself: after the qualification was read; where the entry is quoted or not; after
`_selected_model`; after the answer; as the assessment is saved; and after that. -/
inductive Continued where
  | qualified
  | prepared (quoted : Bool)
  | selected
  | answered (timeoutMs : ℕ) (answer : Option (Option CriticPayload × ℕ))
  | stored
  | applied

/-- A call in progress goes on. -/
def resume (call : Call) : Continued → Phase → AiDecisionLab
  | .qualified, .qualifying found => { lab with qualificationCache := some found }.settle call found.result
  | .prepared true, .preparing => lab.proceed call (.selecting lab.mode)
  | .prepared false, .preparing => lab.proceed call (.returned call.decision none)
  | .selected, .selecting mode =>
    if (installedByName lab.installedModels lab.ollamaModel).isNone then lab.proceed call (.returned call.decision none)
    else lab.proceed call (.asking mode lab.ollamaModel lab.digest)
  | .answered timeoutMs answer, .asking mode modelName modelDigest =>
    lab.proceed call
      (.saving (critique call.decisionId call.decision mode modelName modelDigest lab.now timeoutMs answer))
  | .stored, .saving assessment => (lab.commit assessment).proceed call (.saved assessment)
  | .applied, .saved assessment =>
    if assessment.valid && assessment.vetoes then
      lab.proceed call (.returned (vetoed call.decision) (some ⟨assessment, lab.mode, lab.configurationFingerprint⟩))
    else lab.proceed call (.returned call.decision none)
  | _, _ => lab

/-- The call goes on, if it is where it is said to be. -/
def continueCall (continued : Continued) : AiDecisionLab :=
  match lab.call with
  | none => lab
  | some call => lab.resume call continued call.phase

/-! ### Runs -/

/-- A segment of what runs. -/
inductive Event where
  | passes (microseconds : ℕ)
  | asked (purpose : Purpose)
  | computed (i : ℕ)
  | setMode (mode : AiDecisionMode)
  | paused (maintenance : Bool)
  | selectModel (name : String)
  /-- `http.ollama_model = …` of `configure_providers`. -/
  | pointed (name : String)
  | refreshed (models : List InstalledModel)
  /-- The end of `remove_installed_model`. -/
  | removed
  | configured (fingerprint : String)
  | committed (assessment : AiCriticAssessment)
  | announced
  | assess (decisionId : String) (decision : Decision)
  | continued (continued : Continued)

/-- Whether it is one of a guarded call. -/
def Event.ofCall : Event → Bool
  | .assess _ _ => true
  | .continued _ => true
  | _ => false

/-- What runs. -/
def step (lab : AiDecisionLab) : Event → AiDecisionLab
  | .passes microseconds => { lab with now := lab.now + microseconds }
  | .asked purpose => lab.ask purpose
  | .computed i => lab.finish i
  | .setMode mode => lab.setMode mode
  | .paused maintenance => { lab with maintenancePaused := maintenance }
  | .selectModel name => lab.selectInstalledModel name
  | .pointed name => { lab with ollamaModel := name }
  | .refreshed models => lab.refresh models
  | .removed => lab.forget
  | .configured fingerprint => { lab with configurationFingerprint := fingerprint }
  | .committed assessment => lab.commit assessment
  | .announced => lab.announce
  | .assess decisionId decision => lab.assessGuarded decisionId decision
  | .continued continued => lab.continueCall continued

/-- Before anything was asked. -/
structure Initial (lab : AiDecisionLab) : Prop where
  cache : lab.qualificationCache = none
  computations : lab.computations = []
  call : lab.call = none

def remembers (lab : AiDecisionLab) : Event → Option Remembered
  | .computed i => lab.computations[i]?.map Computation.found
  | .continued .qualified => lab.call.bind fun call => call.phase.reading
  | _ => none

def Event.asks : Event → Bool
  | .asked _ => true
  | .assess _ _ => true
  | _ => false

/-- That nothing comes between: what else runs leaves a guarded call its mode, its model and the configuration; what is
remembered was not forgotten since it was read; and what is served knows every assessment. -/
structure Undisturbed (lab : AiDecisionLab) (event : Event) : Prop where
  call : lab.inProgress = true → event.ofCall = false →
    (lab.step event).mode = lab.mode ∧ (lab.step event).contract = lab.contract
  remembered : ∀ found ∈ lab.remembers event, found.epoch = lab.epoch
  served : event.asks = true → lab.served.isSome → lab.unannounced = 0

/-! ### What is remembered -/

/-- What is being computed, also by the call. -/
def readings (lab : AiDecisionLab) : List Remembered :=
  lab.computations.map Computation.found ++ (lab.call.bind fun call => call.phase.reading).toList

/-- It is what a qualification by all that is durable finds, unless something is unannounced. -/
def Fresh (lab : AiDecisionLab) (found : Remembered) : Prop :=
  found.result = qualify found.contract lab.durable ∨ 0 < lab.unannounced

/-- The invariant of what is remembered. -/
structure Told (lab : AiDecisionLab) : Prop where
  cache : ∀ found ∈ lab.qualificationCache, found.epoch = lab.epoch ∧ lab.Fresh found
  readings : ∀ found ∈ lab.readings, found.epoch ≤ lab.epoch ∧ (found.epoch = lab.epoch → lab.Fresh found)

variable {lab lab' : AiDecisionLab} {call : Call} {event : Event} {result : Qualification}

theorem served_eq (h : lab.Told) (hserved : lab.served = some result) (hunannounced : lab.unannounced = 0) :
    result = qualify lab.contract lab.durable := by
  unfold served at hserved
  obtain ⟨found, hfound, hresult⟩ := Option.bind_eq_some_iff.mp hserved
  split_ifs at hresult with hcurrent
  obtain ⟨-, hfresh⟩ := h.cache found hfound
  rcases hfresh with hfresh | hpositive
  · rw [← Option.some_inj.mp hresult, hfresh, hcurrent.1]
  · omega

theorem Told.of_same (h : lab.Told) (hdurable : lab'.durable = lab.durable) (hunannounced : lab'.unannounced = lab.unannounced)
    (hepoch : lab'.epoch = lab.epoch)
    (hcache : ∀ found ∈ lab'.qualificationCache, found ∈ lab.qualificationCache ∨ found ∈ lab.readings ∧ found.epoch = lab.epoch)
    (hreadings : ∀ found ∈ lab'.readings, found ∈ lab.readings ∨ found = lab.compute) : lab'.Told := by
  have hfresh : ∀ found, lab.Fresh found → lab'.Fresh found := by
    intro found hfound
    unfold Fresh
    rw [hdurable, hunannounced]
    exact hfound
  constructor
  · intro found hfound
    rw [hepoch]
    rcases hcache found hfound with hold | ⟨hread, hsame⟩
    · exact ⟨(h.cache found hold).1, hfresh found (h.cache found hold).2⟩
    · exact ⟨hsame, hfresh found ((h.readings found hread).2 hsame)⟩
  · intro found hfound
    rw [hepoch]
    rcases hreadings found hfound with hold | rfl
    · exact ⟨(h.readings found hold).1, fun hsame => hfresh found ((h.readings found hold).2 hsame)⟩
    · exact ⟨le_rfl, fun _ => hfresh _ (.inl rfl)⟩

theorem Told.forget (h : lab.Told) (hcache : lab'.qualificationCache = none) (hepoch : lab'.epoch = lab.epoch + 1)
    (hreadings : lab'.readings = lab.readings) : lab'.Told := by
  constructor
  · intro found hfound
    rw [hcache] at hfound
    cases hfound
  · intro found hfound
    rw [hreadings] at hfound
    obtain ⟨hle, -⟩ := h.readings found hfound
    rw [hepoch]
    exact ⟨by omega, fun hsame => by omega⟩

theorem Told.commit (h : lab.Told) (hcache : lab'.qualificationCache = lab.qualificationCache) (hepoch : lab'.epoch = lab.epoch)
    (hunannounced : lab'.unannounced = lab.unannounced + 1) (hreadings : ∀ found ∈ lab'.readings, found ∈ lab.readings) :
    lab'.Told := by
  have hfresh : ∀ found, lab'.Fresh found := fun found => .inr (by omega)
  constructor
  · intro found hfound
    rw [hcache] at hfound
    rw [hepoch]
    exact ⟨(h.cache found hfound).1, hfresh found⟩
  · intro found hfound
    rw [hepoch]
    exact ⟨(h.readings found (hreadings found hfound)).1, fun _ => hfresh found⟩

theorem readings_proceed (lab : AiDecisionLab) (call : Call) (phase : Phase) (hphase : phase.reading = none) :
    (lab.proceed call phase).readings = lab.computations.map Computation.found := by
  unfold readings proceed
  dsimp only [Option.bind_some]
  rw [hphase]
  exact append_nil _

theorem act_frame (lab : AiDecisionLab) (purpose : Purpose) (result : Qualification) :
    ∃ mode, lab.act purpose result = { lab with mode := mode } := by
  unfold act
  cases purpose with
  | look => exact ⟨lab.mode, rfl⟩
  | keep =>
    dsimp only
    split_ifs
    · exact ⟨_, rfl⟩
    · exact ⟨lab.mode, rfl⟩
  | enable =>
    dsimp only
    split_ifs
    · exact ⟨_, rfl⟩
    · exact ⟨lab.mode, rfl⟩

theorem act_call (lab : AiDecisionLab) (purpose : Purpose) (result : Qualification) :
    (lab.act purpose result).call = lab.call := by
  obtain ⟨mode, hact⟩ := act_frame lab purpose result
  rw [hact]

theorem computations_subset (found : Remembered) (h : found ∈ lab.computations.map Computation.found) : found ∈ lab.readings :=
  mem_append_left _ h

section

variable (h : lab.Told)
include h

theorem Told.proceed (mode : AiDecisionMode) (call : Call) (phase : Phase) (hphase : phase.reading = none) :
    ({ lab with mode := mode }.proceed call phase).Told := by
  refine h.of_same rfl rfl rfl (fun found hfound => .inl hfound) fun found hfound => ?_
  rw [readings_proceed _ _ _ hphase] at hfound
  exact .inl (computations_subset found hfound)

theorem Told.act (purpose : Purpose) (result : Qualification) : (lab.act purpose result).Told := by
  obtain ⟨mode, hact⟩ := act_frame lab purpose result
  rw [hact]
  exact h.of_same rfl rfl rfl (fun found hfound => .inl hfound) fun found hfound => .inl hfound

theorem Told.settle (call : Call) (result : Qualification) : (lab.settle call result).Told := by
  unfold AiDecisionLab.settle
  split_ifs
  · exact h.proceed lab.mode call _ rfl
  · exact h.proceed .shadow call _ rfl

theorem Told.ask (purpose : Purpose) : (lab.ask purpose).Told := by
  unfold AiDecisionLab.ask
  cases lab.served with
  | some result => exact h.act purpose result
  | none =>
    refine h.of_same rfl rfl rfl (fun found hfound => .inl hfound) fun found hfound => ?_
    simp only [AiDecisionLab.readings, map_append, mem_append, map_cons, map_nil, mem_singleton] at hfound ⊢
    tauto

theorem Told.finish (i : ℕ) (hremembered : ∀ found ∈ lab.remembers (.computed i), found.epoch = lab.epoch) :
    (lab.finish i).Told := by
  unfold AiDecisionLab.finish
  cases hcomputation : lab.computations[i]? with
  | none => exact h
  | some computation =>
    have hepoch : computation.found.epoch = lab.epoch := by
      refine hremembered _ ?_
      simp [AiDecisionLab.remembers, hcomputation]
    have hmem : computation ∈ lab.computations := mem_of_getElem? hcomputation
    have hstored : ({ lab with
        qualificationCache := some computation.found
        computations := lab.computations.eraseIdx i } : AiDecisionLab).Told := ?_
    · exact hstored.act _ _
    refine h.of_same rfl rfl rfl ?_ ?_
    · intro found hfound
      obtain rfl : computation.found = found := Option.some_inj.mp hfound
      exact .inr ⟨computations_subset _ (mem_map_of_mem hmem), hepoch⟩
    · intro found hfound
      rcases mem_append.mp hfound with hcomputed | hcall
      · obtain ⟨other, hother, rfl⟩ := mem_map.mp hcomputed
        exact .inl (computations_subset _ (mem_map_of_mem (mem_of_mem_eraseIdx hother)))
      · exact .inl (mem_append_right _ hcall)

theorem Told.resume (call : Call) (hcall : lab.call = some call) (continued : Continued)
    (hremembered : ∀ found ∈ lab.remembers (.continued continued), found.epoch = lab.epoch) :
    (lab.resume call continued call.phase).Told := by
  unfold AiDecisionLab.resume
  split
  · next found hphase =>
    have hepoch : found.epoch = lab.epoch := by
      refine hremembered found ?_
      simp [AiDecisionLab.remembers, hcall, hphase, Phase.reading]
    have hstored : ({ lab with qualificationCache := some found } : AiDecisionLab).Told := ?_
    · exact hstored.settle call _
    refine h.of_same rfl rfl rfl (fun found' hfound => ?_) fun found hfound => .inl hfound
    obtain rfl : found = found' := Option.some_inj.mp hfound
    refine .inr ⟨mem_append_right _ ?_, hepoch⟩
    simp [hcall, hphase, Phase.reading]
  · exact h.proceed lab.mode call _ rfl
  · exact h.proceed lab.mode call _ rfl
  · split_ifs
    · exact h.proceed lab.mode call _ rfl
    · exact h.proceed lab.mode call _ rfl
  · exact h.proceed lab.mode call _ rfl
  · refine h.commit rfl rfl rfl fun found hfound => ?_
    rw [readings_proceed _ _ _ rfl] at hfound
    exact computations_subset found hfound
  · split_ifs
    · exact h.proceed lab.mode call _ rfl
    · exact h.proceed lab.mode call _ rfl
  · exact h

theorem Told.assess (decisionId : String) (decision : Decision) : (lab.assessGuarded decisionId decision).Told := by
  unfold assessGuarded
  dsimp only
  split_ifs
  · exact h
  · exact h.proceed lab.mode _ _ rfl
  · cases lab.served with
    | some result => exact h.settle _ _
    | none =>
      refine h.of_same rfl rfl rfl (fun found hfound => .inl hfound) fun found hfound => ?_
      rcases mem_append.mp hfound with hcomputed | hcompute
      · exact .inl (computations_subset found hcomputed)
      · exact .inr (by simpa [AiDecisionLab.proceed, Phase.reading, eq_comm] using hcompute)

theorem told_step (hundisturbed : lab.Undisturbed event) : (lab.step event).Told := by
  have hsame : ∀ lab' : AiDecisionLab, lab'.durable = lab.durable → lab'.unannounced = lab.unannounced → lab'.epoch = lab.epoch →
      lab'.qualificationCache = lab.qualificationCache → lab'.readings = lab.readings → lab'.Told := by
    intro lab' hdurable hunannounced hepoch hcache hreadings
    refine h.of_same hdurable hunannounced hepoch (fun found hfound => .inl ?_) fun found hfound => .inl ?_
    · rw [← hcache]
      exact hfound
    · rw [← hreadings]
      exact hfound
  cases event with
  | passes microseconds => exact hsame _ rfl rfl rfl rfl rfl
  | asked purpose => exact h.ask purpose
  | computed i => exact h.finish i hundisturbed.remembered
  | setMode mode =>
    simp only [step, setMode]
    split_ifs
    · exact h
    · exact hsame _ rfl rfl rfl rfl rfl
  | paused maintenance => exact hsame _ rfl rfl rfl rfl rfl
  | selectModel name =>
    simp only [step, selectInstalledModel]
    by_cases hinstalled : (installedByName lab.installedModels name).isNone = true
    · rw [if_pos hinstalled]
      exact h
    · rw [if_neg hinstalled]
      exact h.forget rfl rfl rfl
  | pointed name => exact hsame _ rfl rfl rfl rfl rfl
  | refreshed models =>
    simp only [step, refresh]
    split_ifs
    · exact hsame _ rfl rfl rfl rfl rfl
    · exact h.forget rfl rfl rfl
  | removed => exact h.forget rfl rfl rfl
  | configured fingerprint => exact hsame _ rfl rfl rfl rfl rfl
  | committed assessment => exact h.commit rfl rfl rfl fun found hfound => hfound
  | announced =>
    simp only [step, announce]
    split_ifs
    · exact h
    · exact h.forget rfl rfl rfl
  | assess decisionId decision => exact h.assess decisionId decision
  | continued continued =>
    simp only [step, continueCall]
    cases hcall : lab.call with
    | none => exact h
    | some call => exact h.resume call hcall continued hundisturbed.remembered

end

/-! ### What a call has made sure of -/

/-- The veto of a call: a valid answer of high confidence that cites what was supplied, in Guarded mode, by a model that
all that was durable before the call qualifies for the configuration in force. -/
structure Lawful (call : Call) (veto : Veto) : Prop where
  valid : veto.assessment.valid = true
  vetoes : veto.assessment.vetoes = true
  cites : ∀ ref ∈ veto.assessment.evidenceRefs, ref ∈ suppliedEvidence call.decision
  mode : veto.mode = .guarded
  qualified :
    (qualify ⟨veto.assessment.modelName, veto.assessment.modelDigest, veto.configurationFingerprint⟩ call.durable).qualified = true

/-- What a call may return. -/
structure Sound (call : Call) (decision : Decision) (veto : Option Veto) : Prop where
  notEnter : call.decision.action ≠ .enter → decision = call.decision
  size : decision.plannedOrderSizeSol = call.decision.plannedOrderSizeSol
  veto : decision.action ≠ call.decision.action → decision.action = .pass ∧ ∃ v, veto = some v ∧ Lawful call v

/-- Guarded mode, an entry, and a model that is qualified. -/
structure Authorised (lab : AiDecisionLab) (call : Call) : Prop where
  mode : lab.mode = .guarded
  enter : call.decision.action = .enter
  qualified : (qualify lab.contract call.durable).qualified = true

/-- An assessment of the selected model. -/
structure Assessed (lab : AiDecisionLab) (call : Call) (assessment : AiCriticAssessment) : Prop extends
    lab.Authorised call where
  modelName : assessment.modelName = lab.contract.modelName
  modelDigest : assessment.modelDigest = lab.contract.modelDigest
  cites : assessment.valid = true → ∀ ref ∈ assessment.evidenceRefs, ref ∈ suppliedEvidence call.decision

/-- What holds of the call in hand. -/
def OnCall (lab : AiDecisionLab) (call : Call) : Phase → Prop
  | .qualifying found =>
    lab.mode = .guarded ∧ call.decision.action = .enter ∧ found.result = qualify lab.contract call.durable
  | .preparing => lab.Authorised call
  | .selecting _ => lab.Authorised call
  | .asking _ modelName modelDigest =>
    lab.Authorised call ∧ modelName = lab.contract.modelName ∧ modelDigest = lab.contract.modelDigest
  | .saving assessment => lab.Assessed call assessment
  | .saved assessment => lab.Assessed call assessment
  | .returned decision veto => Sound call decision veto

theorem Sound.same (call : Call) : Sound call call.decision none where
  notEnter _ := rfl
  size := rfl
  veto h := absurd rfl h

theorem onCall_phase {phase phase' : Phase} : lab.OnCall { call with phase := phase' } phase ↔ lab.OnCall call phase := by
  cases phase with
  | qualifying found => exact Iff.rfl
  | preparing => exact ⟨fun h => ⟨h.mode, h.enter, h.qualified⟩, fun h => ⟨h.mode, h.enter, h.qualified⟩⟩
  | selecting mode => exact ⟨fun h => ⟨h.mode, h.enter, h.qualified⟩, fun h => ⟨h.mode, h.enter, h.qualified⟩⟩
  | asking mode modelName modelDigest =>
    exact ⟨fun h => ⟨⟨h.1.mode, h.1.enter, h.1.qualified⟩, h.2⟩, fun h => ⟨⟨h.1.mode, h.1.enter, h.1.qualified⟩, h.2⟩⟩
  | saving assessment =>
    exact ⟨fun h => ⟨⟨h.mode, h.enter, h.qualified⟩, h.modelName, h.modelDigest, h.cites⟩,
      fun h => ⟨⟨h.mode, h.enter, h.qualified⟩, h.modelName, h.modelDigest, h.cites⟩⟩
  | saved assessment =>
    exact ⟨fun h => ⟨⟨h.mode, h.enter, h.qualified⟩, h.modelName, h.modelDigest, h.cites⟩,
      fun h => ⟨⟨h.mode, h.enter, h.qualified⟩, h.modelName, h.modelDigest, h.cites⟩⟩
  | returned decision veto =>
    have hlawful : ∀ v, Lawful { call with phase := phase' } v ↔ Lawful call v := fun v =>
      ⟨fun h => ⟨h.valid, h.vetoes, h.cites, h.mode, h.qualified⟩, fun h => ⟨h.valid, h.vetoes, h.cites, h.mode, h.qualified⟩⟩
    constructor
    · intro h
      refine ⟨h.notEnter, h.size, fun hne => ⟨(h.veto hne).1, ?_⟩⟩
      obtain ⟨-, v, hv, hok⟩ := h.veto hne
      exact ⟨v, hv, (hlawful v).mp hok⟩
    · intro h
      refine ⟨h.notEnter, h.size, fun hne => ⟨(h.veto hne).1, ?_⟩⟩
      obtain ⟨-, v, hv, hok⟩ := h.veto hne
      exact ⟨v, hv, (hlawful v).mpr hok⟩

theorem onCall_congr {phase : Phase} (h : lab.OnCall call phase)
    (hsame : phase.inProgress = true → lab'.mode = lab.mode ∧ lab'.contract = lab.contract) : lab'.OnCall call phase := by
  have hauthorised : phase.inProgress = true → lab.Authorised call → lab'.Authorised call := by
    intro hprogress hold
    obtain ⟨hmode, hcontract⟩ := hsame hprogress
    exact ⟨hmode.trans hold.mode, hold.enter, by rw [hcontract]; exact hold.qualified⟩
  have hassessed : phase.inProgress = true → ∀ assessment, lab.Assessed call assessment → lab'.Assessed call assessment := by
    intro hprogress assessment hold
    obtain ⟨-, hcontract⟩ := hsame hprogress
    exact ⟨hauthorised hprogress hold.toAuthorised, by rw [hcontract]; exact hold.modelName,
      by rw [hcontract]; exact hold.modelDigest, hold.cites⟩
  cases phase with
  | qualifying found =>
    obtain ⟨hmode, hcontract⟩ := hsame rfl
    exact ⟨hmode.trans h.1, h.2.1, by rw [hcontract]; exact h.2.2⟩
  | preparing => exact hauthorised rfl h
  | selecting mode => exact hauthorised rfl h
  | asking mode modelName modelDigest =>
    obtain ⟨-, hcontract⟩ := hsame rfl
    exact ⟨hauthorised rfl h.1, by rw [hcontract]; exact h.2.1, by rw [hcontract]; exact h.2.2⟩
  | saving assessment => exact hassessed rfl assessment h
  | saved assessment => exact hassessed rfl assessment h
  | returned decision veto => exact h

/-- The invariant of the laboratory. -/
structure Law (lab : AiDecisionLab) : Prop where
  told : lab.Told
  call : ∀ call ∈ lab.call, lab.OnCall call call.phase

theorem onCall_proceed {phase : Phase} (h : lab.OnCall call phase) :
    ∀ call' ∈ (lab.proceed call phase).call, (lab.proceed call phase).OnCall call' call'.phase := by
  intro call' hcall
  obtain rfl : ({ call with phase := phase } : Call) = call' := Option.some_inj.mp hcall
  exact onCall_congr (onCall_phase.mpr h) fun _ => ⟨rfl, rfl⟩

theorem onCall_settle (hmode : lab.mode = .guarded) (henter : call.decision.action = .enter)
    (hresult : result = qualify lab.contract call.durable) :
    ∀ call' ∈ (lab.settle call result).call, (lab.settle call result).OnCall call' call'.phase := by
  unfold settle
  split_ifs with hqualified
  · refine onCall_proceed ?_
    rw [hresult] at hqualified
    exact ⟨hmode, henter, hqualified⟩
  · exact onCall_proceed (Sound.same call)

theorem onCall_assess (htold : lab.Told) (hcall : ∀ call ∈ lab.call, lab.OnCall call call.phase) (decisionId : String)
    (decision : Decision) (hserved : lab.served.isSome → lab.unannounced = 0) :
    ∀ call' ∈ (lab.assessGuarded decisionId decision).call, (lab.assessGuarded decisionId decision).OnCall call' call'.phase := by
  unfold assessGuarded
  dsimp only
  split_ifs with hprogress hidle
  · exact hcall
  · exact onCall_proceed (Sound.same _)
  · push Not at hidle
    obtain ⟨-, hmode, henter⟩ := hidle
    cases hremembered : lab.served with
    | some result =>
      rw [hremembered] at hserved
      exact onCall_settle hmode henter (served_eq htold hremembered (hserved rfl))
    | none => exact onCall_proceed ⟨hmode, henter, rfl⟩

theorem onCall_resume (h : lab.OnCall call call.phase) (hcall : lab.call = some call) (continued : Continued) :
    ∀ call' ∈ (lab.resume call continued call.phase).call,
      (lab.resume call continued call.phase).OnCall call' call'.phase := by
  unfold resume
  split
  · next found hphase =>
    rw [hphase] at h
    exact onCall_settle h.1 h.2.1 h.2.2
  · next hphase =>
    rw [hphase] at h
    exact onCall_proceed h
  · exact onCall_proceed (Sound.same call)
  · next mode hphase =>
    rw [hphase] at h
    split_ifs
    · exact onCall_proceed (Sound.same call)
    · exact onCall_proceed ⟨h, rfl, rfl⟩
  · next timeoutMs answer mode modelName modelDigest hphase =>
    rw [hphase] at h
    obtain ⟨hauthorised, hname, hdigest⟩ := h
    obtain ⟨hname', hdigest'⟩ :=
      critique_model call.decisionId call.decision mode modelName modelDigest lab.now timeoutMs answer
    exact onCall_proceed ⟨hauthorised, hname'.trans hname, hdigest'.trans hdigest, critique_cites⟩
  · next assessment hphase =>
    rw [hphase] at h
    have hsaved : lab.OnCall call (.saved assessment) := h
    exact onCall_proceed (onCall_congr hsaved fun _ => ⟨rfl, rfl⟩)
  · next assessment hphase =>
    rw [hphase] at h
    split_ifs with hveto
    · refine onCall_proceed ⟨fun hne => absurd h.enter hne, rfl, fun _ => ⟨rfl, _, rfl, ?_⟩⟩
      rw [Bool.and_eq_true] at hveto
      refine ⟨hveto.1, hveto.2, h.cites hveto.1, h.mode, ?_⟩
      show (qualify ⟨assessment.modelName, assessment.modelDigest, lab.contract.configurationFingerprint⟩ call.durable).qualified = true
      rw [h.modelName, h.modelDigest]
      exact h.qualified
    · exact onCall_proceed (Sound.same call)
  · intro call' hcall'
    obtain rfl : call = call' := Option.some_inj.mp (hcall.symm.trans hcall')
    exact h

theorem step_call (lab : AiDecisionLab) (event : Event) (h : event.ofCall = false) : (lab.step event).call = lab.call := by
  cases event with
  | passes microseconds => rfl
  | asked purpose =>
    simp only [step, ask]
    cases lab.served with
    | some result => exact act_call lab purpose result
    | none => rfl
  | computed i =>
    simp only [step, finish]
    cases lab.computations[i]? with
    | none => rfl
    | some computation => exact act_call _ computation.purpose computation.found.result
  | setMode mode =>
    simp only [step, setMode]
    split_ifs <;> rfl
  | paused maintenance => rfl
  | selectModel name =>
    simp only [step, selectInstalledModel]
    by_cases hinstalled : (installedByName lab.installedModels name).isNone = true
    · rw [if_pos hinstalled]
    · rw [if_neg hinstalled]
      rfl
  | pointed name => rfl
  | refreshed models =>
    simp only [step, refresh]
    split_ifs <;> rfl
  | removed => rfl
  | configured fingerprint => rfl
  | committed assessment => rfl
  | announced =>
    simp only [step, announce]
    split_ifs <;> rfl
  | assess decisionId decision => cases h
  | continued continued => cases h

/-- An undisturbed event keeps the law. -/
theorem law_step (h : lab.Law) (hundisturbed : lab.Undisturbed event) : (lab.step event).Law := by
  refine ⟨told_step h.told hundisturbed, ?_⟩
  cases hcalled : event.ofCall with
  | false =>
    intro call hcall
    rw [step_call lab event hcalled] at hcall
    refine onCall_congr (h.call call hcall) fun hprogress => hundisturbed.call ?_ hcalled
    rw [inProgress, hcall]
    exact hprogress
  | true =>
    cases event with
    | assess decisionId decision => exact onCall_assess h.told h.call decisionId decision (hundisturbed.served rfl)
    | continued continued =>
      simp only [step, continueCall]
      cases hcall : lab.call with
      | none =>
        intro call hnone
        rw [hcall] at hnone
        cases hnone
      | some call => exact onCall_resume (h.call call hcall) hcall continued
    | passes microseconds => cases hcalled
    | asked purpose => cases hcalled
    | computed i => cases hcalled
    | setMode mode => cases hcalled
    | paused maintenance => cases hcalled
    | selectModel name => cases hcalled
    | pointed name => cases hcalled
    | refreshed models => cases hcalled
    | removed => cases hcalled
    | configured fingerprint => cases hcalled
    | committed assessment => cases hcalled
    | announced => cases hcalled

theorem Law.initial (h : lab.Initial) : lab.Law := by
  refine ⟨⟨?_, ?_⟩, ?_⟩
  · intro found hfound
    rw [h.cache] at hfound
    cases hfound
  · intro found hfound
    rw [readings, h.computations, h.call] at hfound
    cases hfound
  · intro call hcall
    rw [h.call] at hcall
    cases hcall

/-- In an undisturbed run, what is remembered was read since the last time it was forgotten, and what a guarded call
returns is sound: its veto is lawful, and nothing else is changed. -/
theorem guarded_veto_law {start : AiDecisionLab} {events : List Event} (hstart : start.Initial)
    (hundisturbed : Runs.Along step Undisturbed start events) :
    let lab := Runs.run step start events;
    (∀ found ∈ lab.qualificationCache, found.epoch = lab.epoch) ∧
      ∀ call ∈ lab.call, ∀ decision veto, call.phase = .returned decision veto → Sound call decision veto := by
  intro lab
  have hlaw : lab.Law := Runs.Along.invariant hundisturbed (Law.initial hstart) fun _ _ hlaw hcalm => law_step hlaw hcalm
  refine ⟨fun found hfound => (hlaw.told.cache found hfound).1, fun call hcall decision veto hphase => ?_⟩
  have hcalled := hlaw.call call hcall
  rw [hphase] at hcalled
  exact hcalled

/-! ### A qualified model -/

instance (lab : AiDecisionLab) (event : Event) : Decidable (lab.Undisturbed event) :=
  decidable_of_iff
    ((lab.inProgress = true → event.ofCall = false → (lab.step event).mode = lab.mode ∧ (lab.step event).contract = lab.contract) ∧
      ((lab.remembers event).all fun found => found.epoch = lab.epoch) = true ∧
        (event.asks = true → lab.served.isSome → lab.unannounced = 0))
    ⟨fun h => ⟨h.1, fun found hfound => by
        have hall := h.2.1
        rw [hfound] at hall
        simpa using hall, h.2.2⟩,
      fun h => ⟨h.call, by
        cases hfound : lab.remembers event with
        | none => rfl
        | some found => simpa using h.remembered found hfound, h.served⟩⟩

/-- A resolved veto of the model, each with an identifier of its own. -/
def provedVeto (n : ℕ) : AiCriticAssessment where
  assessmentId := String.ofList (replicate n 'a')
  createdAt := n
  mode := .shadow
  applied := false
  modelName := "qwen3.5:2b"
  modelDigest := "324d162be6ca"
  promptVersion := promptVersion
  schemaVersion := schemaVersion
  latencyMs := 1000
  valid := true
  verdict := some .veto
  confidence := some .high
  evidenceRefs := ["danger"]
  counterfactualUplift := some (1 / 10)
  resolvedAt := some n
  configurationFingerprint := some "configuration"

/-- As many as are asked for. -/
def provedVetoes : Assessments where
  rows := (range minimumResolvedAssessments).map provedVeto
  nodup := by
    rw [map_map]
    refine Nodup.map (fun m n h => ?_) nodup_range
    simpa [provedVeto] using congrArg String.length h

/-- Guarded mode with the model they are of. -/
def guardedLab : AiDecisionLab where
  mode := .guarded
  ollamaModel := "qwen3.5:2b"
  installedModels := [⟨"qwen3.5:2b", "324d162be6ca"⟩]
  configurationFingerprint := "configuration"
  durable := provedVetoes
  now := 1000000

def vetoAnswer : Continued := .answered 2500 (some (some ⟨.veto, .high, ["danger"], ["liquidity"]⟩, 900))

/-- The call that has returned a veto. -/
def vetoOf (lab : AiDecisionLab) : Option (Call × Decision × Veto) :=
  lab.call.bind fun call =>
    match call.phase with
    | .returned decision (some veto) => some (call, decision, veto)
    | _ => none

theorem vetoOf_eq_some {call : Call} {decision : Decision} {veto : Veto} (h : vetoOf lab = some (call, decision, veto)) :
    lab.call = some call ∧ call.phase = .returned decision (some veto) := by
  obtain ⟨found, hfound, hveto⟩ := Option.bind_eq_some_iff.mp h
  split at hveto
  · next hphase =>
    cases hveto
    exact ⟨hfound, hphase⟩
  · cases hveto

/-- A call that vetoes, undisturbed. -/
def vetoEvents : List Event :=
  [.assess "decision" Challenger.cleanEntry, .continued .qualified, .continued (.prepared true), .continued .selected,
    .continued vetoAnswer, .continued .stored, .announced, .continued .applied]

/-- An entry that the critic vetoes. -/
theorem guarded_veto : ∃ call decision veto, vetoOf (Runs.run step guardedLab vetoEvents) = some (call, decision, veto) ∧
    decision.action = .pass ∧ Lawful call veto := by
  -- both at once: the qualification is computed one time
  obtain ⟨hundisturbed, hactions⟩ : Runs.Along step Undisturbed guardedLab vetoEvents ∧
      (vetoOf (Runs.run step guardedLab vetoEvents)).map (fun found => (found.1.decision.action, found.2.1.action)) =
        some (.enter, .pass) := by decide +kernel
  obtain ⟨⟨call, decision, veto⟩, hveto, haction⟩ := Option.map_eq_some_iff.mp hactions
  obtain ⟨hbefore, hafter⟩ := Prod.mk.injEq .. ▸ haction
  obtain ⟨hcall, hphase⟩ := vetoOf_eq_some hveto
  obtain ⟨-, hlaw⟩ := guarded_veto_law ⟨rfl, rfl, rfl⟩ hundisturbed
  have hchanged : decision.action ≠ call.decision.action := by
    rw [hbefore, hafter]
    decide
  obtain ⟨-, v, hv, hlawful⟩ := (hlaw call hcall decision (some veto) hphase).veto hchanged
  obtain rfl : veto = v := Option.some_inj.mp hv
  exact ⟨call, decision, veto, hveto, hafter, hlawful⟩

/-- When the models are refreshed during the call, as `_selected_model` does after a minute, a digest that is new is not
qualified, and Guarded mode is left; the call goes on with the new digest, and its veto is applied in Shadow mode. And
a qualification that was read before an assessment was saved is served after it was forgotten. -/
theorem veto_after_demotion :
    (vetoOf (Runs.run step guardedLab
        [.assess "decision" Challenger.cleanEntry, .continued .qualified, .continued (.prepared true),
          .refreshed [⟨"qwen3.5:2b", "8b1c9f8a2d44"⟩], .asked .keep, .computed 0, .continued .selected, .continued vetoAnswer,
          .continued .stored, .announced, .continued .applied])).map
      (fun (call, decision, veto) => (call.decision.action, decision.action, veto.mode,
        (qualify ⟨veto.assessment.modelName, veto.assessment.modelDigest, veto.configurationFingerprint⟩ call.durable).qualified)) =
      some (.enter, .pass, .shadow, false) ∧
    (let lab := Runs.run step guardedLab [.asked .look, .committed (provedVeto minimumResolvedAssessments), .announced, .computed 0];
      lab.served.isSome ∧ (lab.qualificationCache.any fun found => found.epoch < lab.epoch) = true) := by
  constructor <;> decide +kernel

end AiDecisionLab

end SignalArcade.Ai
