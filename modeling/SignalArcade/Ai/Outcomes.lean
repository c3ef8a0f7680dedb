import SignalArcade.Ai.Qualification
import SignalArcade.Challenger.Collection
import SignalArcade.Paper.Broker

/-!
# The outcomes of the assessments

`AiDecisionLab` of `ai_lab.py`, as far as the outcomes go: an entry is enqueued for the worker, which waits for a slot, asks
the model and saves the assessment; in Guarded mode an entry is assessed at once. A saved assessment is registered in
`pending_outcomes`, and resolved by the market that is seen when its outcome is due, or by the clock after that.
-/

namespace SignalArcade.Ai.Outcomes

open Paper (Instant DecisionAction CurveQuote quoteBuy riskLimitsTable truncate lamportsPerSol)
open Challenger (seconds)
open Challenger.Collection (Context ExitError exitQuote feeRate routeMissingReason)
open Market.Features (TokenState ReserveAudit)

/-! ### Assessments -/

/-- `Decision`, with its identifier. -/
structure Entry extends Challenger.Decision where
  decisionId : String

/-- What `_prepare_outcome` returns. -/
structure Outcome where
  tokenUnits : ℤ
  checkpointNetworkFeeLamports : ℤ
  entryCostLamports : ℤ
  feeBps : ℤ
  outcomeDueAt : Instant

def primaryOutcomeSeconds : ℕ := 300

/-- How long after it is due an outcome may be measured. -/
def outcomeGraceSeconds : ℕ := 90

def prepareOutcome (context : Context) (decision : Entry) (state : TokenState) : Option Outcome :=
  let sizeSol := (decision.plannedOrderSizeSol.filter fun size => size ≠ 0).getD (riskLimitsTable decision.riskMode).orderSizeSol
  let feeBps := feeRate state context.pumpFeeBps
  let networkFee := context.networkFeeLamports + context.priorityFeeLamports
  match quoteBuy state.virtualTokenReserves state.virtualQuoteReserves state.realTokenReserves
    (max 1 (truncate (sizeSol * lamportsPerSol))) feeBps networkFee with
  | .error _ => none
  | .ok entry => some ⟨entry.tokenUnits, networkFee, entry.walletSolLamports, feeBps, decision.createdAt + seconds primaryOutcomeSeconds⟩

/-- `AiCriticAssessment`, with what its outcome is measured by. -/
structure Assessment extends AiCriticAssessment where
  decisionId : String
  mint : String
  tokenUnits : Option ℤ
  entryCostLamports : Option ℤ
  feeBps : Option ℤ
  checkpointNetworkFeeLamports : Option ℤ
  outcomeDueAt : Option Instant
  outcomeNetReturn : Option ℚ := none
  outcomeRouteSnapshot : Option ReserveAudit := none
  outcomeMissingReason : Option String := none

namespace Assessment

/-- `assessment_id`. -/
def key (assessment : Assessment) : String × String := (assessment.decisionId, assessment.modelDigest)

/-- There is no outcome. -/
def missing (assessment : Assessment) (now : Instant) (reason : String) : Assessment :=
  { assessment with outcomeMissingReason := some reason, resolvedAt := some now }

def measured (assessment : Assessment) (state : TokenState) (now : Instant) (entryCostLamports : ℤ) (exit : CurveQuote) :
    Assessment :=
  let outcomeReturn : ℚ := max (-1) (min 10 ((exit.walletSolLamports - entryCostLamports : ℤ) / entryCostLamports))
  { assessment with
    outcomeNetReturn := some outcomeReturn
    outcomeRouteSnapshot := state.reserveAudit
    counterfactualUplift :=
      if assessment.valid ∧ assessment.verdict.isSome then some (if assessment.vetoes then -outcomeReturn else 0) else none
    resolvedAt := some now }

def checkpointNetworkFee (assessment : Assessment) : Except ExitError ℤ :=
  match assessment.checkpointNetworkFeeLamports with
  | none => .error .feeContext
  | some fee => .ok fee

/-- The outcome at a market that is seen in time. -/
def quoted (context : Context) (state : TokenState) (now : Instant) (assessment : Assessment) : Option Assessment :=
  match assessment.tokenUnits, assessment.entryCostLamports, assessment.feeBps with
  | some tokenUnits, some entryCostLamports, some feeBps =>
    if (routeMissingReason state now context.staleMarketSeconds true).isSome then none
    else
      match exitQuote state tokenUnits feeBps assessment.checkpointNetworkFee with
      | .ok exit => some (assessment.measured state now entryCostLamports exit)
      | .error _ => some (assessment.missing now "executable_exit_quote_unavailable")
  | _, _, _ => some (assessment.missing now "legacy_outcome_seed_missing")

/-- A round of `observe_market`: what is saved of an assessment, if it is resolved. -/
def observed (context : Context) (state : TokenState) (now : Instant) (assessment : Assessment) : Option Assessment :=
  match assessment.outcomeDueAt with
  | none => none
  | some due =>
    if now < due then none
    else if due + seconds outcomeGraceSeconds < now then some (assessment.missing now "no_fresh_trade_near_horizon")
    else assessment.quoted context state now

/-- A round of `expire_outcomes`. -/
def expired (now : Instant) (assessment : Assessment) : Option Assessment :=
  match assessment.outcomeDueAt with
  | none => none
  | some due =>
    if now ≤ due + seconds outcomeGraceSeconds then none
    else some (assessment.missing now "no_fresh_trade_near_horizon")

end Assessment

/-- The saved assessments. -/
abbrev Durable := Table (String × String) Assessment Assessment.key

/-- The rows of `unresolved_ai_assessments`. -/
def unresolved (durable : Durable) : List Assessment := durable.rows.filter fun assessment => assessment.resolvedAt = none

def unresolvedAiAssessments (durable : Durable) (limit : ℕ) : List Assessment :=
  ((unresolved durable).insertionSort fun a b => a.createdAt ≤ b.createdAt).take limit

/-! ### Pending outcomes -/

/-- The entry of a mint in `pending_outcomes`. -/
structure PendingMint where
  mint : String
  items : List Assessment

/-- The pending assessments, by mint. -/
abbrev PendingOutcomes := Table String PendingMint PendingMint.mint

namespace PendingOutcomes

/-- `pending_outcomes.get(mint, [])`. -/
def items (pending : PendingOutcomes) (mint : String) : List Assessment :=
  ((pending.get? mint).map PendingMint.items).getD []

/-- `pending_outcomes.setdefault(mint, []).append(assessment)`. -/
def append (pending : PendingOutcomes) (assessment : Assessment) : PendingOutcomes :=
  pending.upsert ⟨assessment.mint, items pending assessment.mint ++ [assessment]⟩

/-- `_track_pending`. -/
def track (pending : PendingOutcomes) (assessment : Assessment) : PendingOutcomes :=
  if assessment.resolvedAt = none ∧ assessment.outcomeDueAt.isSome ∧
      ∀ item ∈ items pending assessment.mint, item.key ≠ assessment.key then
    append pending assessment
  else pending

/-- `_untrack_pending`. -/
def untrack (pending : PendingOutcomes) (assessment : Assessment) : PendingOutcomes :=
  match (items pending assessment.mint).filter fun item => item.key ≠ assessment.key with
  | [] => pending.erase assessment.mint
  | item :: remaining => pending.upsert ⟨assessment.mint, item :: remaining⟩

/-- `pending_outcomes`, of the assessments that are loaded. -/
def load (assessments : List Assessment) : PendingOutcomes := assessments.foldl append .empty

variable (pending : PendingOutcomes) (assessment : Assessment) (mint : String)

@[simp] theorem items_empty : items .empty mint = [] := rfl

theorem items_upsert (entry : PendingMint) :
    items (pending.upsert entry) mint = if mint = entry.mint then entry.items else items pending mint := by
  unfold items
  rw [Table.get?_upsert]
  split_ifs <;> rfl

theorem items_append :
    items (append pending assessment) mint =
      if mint = assessment.mint then items pending mint ++ [assessment] else items pending mint := by
  unfold append
  rw [items_upsert]
  split_ifs with h
  · rw [h]
  · rfl

theorem items_untrack :
    items (untrack pending assessment) mint =
      if mint = assessment.mint then (items pending mint).filter fun item => item.key ≠ assessment.key
      else items pending mint := by
  unfold untrack
  split
  · next hnone =>
    unfold items
    rw [Table.get?_erase]
    split_ifs with h
    · rw [h]
      exact hnone.symm
    · rfl
  · next item remaining hsome =>
    rw [items_upsert]
    split_ifs with h
    · rw [h]
      exact hsome.symm
    · rfl

theorem items_load (assessments : List Assessment) :
    items (load assessments) mint = assessments.filter fun assessment => assessment.mint = mint := by
  suffices ∀ pending, items (assessments.foldl append pending) mint =
      items pending mint ++ assessments.filter fun assessment => assessment.mint = mint by
    simpa [load] using this .empty
  induction assessments with
  | nil => simp
  | cons assessment assessments ih =>
    intro pending
    rw [List.foldl_cons, ih, items_append]
    by_cases h : assessment.mint = mint
    · simp [h]
    · simp [h, Ne.symm h]

end PendingOutcomes

/-! ### The laboratory -/

/-- Who assesses: the worker, or a guarded call. -/
inductive Lane where
  | shadow | guarded
  deriving DecidableEq

def Lane.applied : Lane → Bool
  | .shadow => false
  | .guarded => true

/-- How far an assessment is: in `_wait_for_shadow_slot`, in `_assess`, before the database commits, before it is
registered; or the worker is about to release the mint. -/
inductive Stage where
  | waiting
  | assessing (mode : AiDecisionMode)
  | saving (assessment : Assessment)
  | registering (assessment : Assessment)
  | releasing

/-- What is enqueued. -/
structure Job where
  decision : Entry
  outcome : Outcome

/-- What is assessed. -/
structure Task extends Job where
  stage : Stage

/-- A pass over the outcomes, of a market or of the clock: what it has still to save, and what it has saved but not yet taken
out. -/
structure Pass where
  now : Instant
  market : Option TokenState
  updates : List Assessment
  saved : Option Assessment := none

/-- A resolved assessment, with what resolved it. -/
structure Resolution where
  assessment : Assessment
  now : Instant
  market : Option TokenState

/-- `AiDecisionLab`, with the database; `resolutions` is kept to speak of them. -/
structure Lab where
  mode : AiDecisionMode
  maintenancePaused : Bool := false
  queue : List Job := []
  queuedMints : List String := []
  task : Lane → Option Task := fun _ => none
  pendingOutcomes : PendingOutcomes := .empty
  pass : Option Pass := none
  durable : Durable := .empty
  resolutions : List Resolution := []

def shadowQueueCapacity : ℕ := 8

def maxShadowQueueAgeSeconds : ℕ := 60

namespace Lab

variable (context : Context) (lab : Lab)

def hasPendingOutcome (mint : String) : Bool := !(lab.pendingOutcomes.items mint).isEmpty

def hasDueOutcome (mint : String) (now : Instant) : Bool :=
  let assessments := lab.pendingOutcomes.items mint
  if assessments.isEmpty then false
  else if mint ∈ lab.queuedMints then true
  else assessments.any fun item => item.outcomeDueAt.any fun due => due ≤ now

def discardQueuedShadow : Lab :=
  { lab with
    queue := []
    queuedMints := lab.queuedMints.filter fun mint => mint ∉ lab.queue.map fun job => job.decision.mint }

/-- `set_mode`, of a model that is qualified or not. -/
def setMode (mode : AiDecisionMode) (qualified : Bool) : Lab :=
  if mode = .guarded ∧ qualified = false then lab
  else if mode = .shadow then { lab with mode := mode }
  else { lab with mode := mode }.discardQueuedShadow

/-- Guarded mode is left for a model that is not qualified. -/
def demote : Lab := if lab.mode = .guarded then { lab with mode := .shadow } else lab

/-- The end of `select_installed_model`. -/
def selectInstalledModel : Lab := lab.discardQueuedShadow.demote

def enqueueShadow (decision : Entry) (state : TokenState) : Lab :=
  if lab.maintenancePaused ∨ lab.mode ≠ .shadow ∨ decision.action ≠ .enter then lab
  else if decision.mint ∈ lab.queuedMints ∨ lab.hasPendingOutcome decision.mint then lab
  else
    match prepareOutcome context decision state with
    | none => lab
    | some outcome =>
      if lab.queue.length < shadowQueueCapacity then
        { lab with
          queue := lab.queue ++ [⟨decision, outcome⟩]
          queuedMints := decision.mint :: lab.queuedMints }
      else lab

/-- `assess_guarded`, up to the model. -/
def assessGuarded (decision : Entry) (state : TokenState) (qualified : Bool) : Lab :=
  if lab.maintenancePaused ∨ lab.mode ≠ .guarded ∨ decision.action ≠ .enter ∨ (lab.task .guarded).isSome then lab
  else if qualified = false then { lab with mode := .shadow }
  else
    match prepareOutcome context decision state with
    | none => lab
    | some outcome => { lab with task := Function.update lab.task .guarded (some ⟨⟨decision, outcome⟩, .assessing lab.mode⟩) }

/-! ### An assessment -/

def proceed (lane : Lane) (task : Task) (stage : Stage) : Lab :=
  { lab with task := Function.update lab.task lane (some { task with stage := stage }) }

/-- The assessment is over: the guarded call returns, the worker comes to release the mint. -/
def finish (lane : Lane) (task : Task) : Lab :=
  match lane with
  | .shadow => lab.proceed .shadow task .releasing
  | .guarded => { lab with task := Function.update lab.task .guarded none }

/-- The worker takes a job. -/
def take : Lab :=
  match lab.queue, lab.task .shadow with
  | job :: queue, none =>
    { lab with
      queue := queue
      task := Function.update lab.task .shadow (some ⟨job, .waiting⟩) }
  | _, _ => lab

/-- A round of `_wait_for_shadow_slot`. -/
def waitForShadowSlot (now : Instant) (canRun : Bool) : Lab :=
  match lab.task .shadow with
  | some ⟨job, .waiting⟩ =>
    if lab.maintenancePaused ∨ lab.mode ≠ .shadow ∨ seconds maxShadowQueueAgeSeconds < now - job.decision.createdAt then
      lab.finish .shadow ⟨job, .waiting⟩
    else if canRun then lab.proceed .shadow ⟨job, .waiting⟩ (.assessing lab.mode)
    else lab
  | _ => lab

/-- What a model answered: its name and its digest, when, how long it could take, and what it said in time. -/
structure Answer where
  modelName : String
  modelDigest : String
  now : Instant
  timeoutMs : ℕ
  payload : Option (Option CriticPayload × ℕ)

/-- The assessment that `_assess` makes. -/
def assessmentOf (lane : Lane) (job : Job) (mode : AiDecisionMode) (answer : Answer) : Assessment where
  toAiCriticAssessment :=
    { critique job.decision.decisionId job.decision.toDecision mode answer.modelName answer.modelDigest answer.now
        answer.timeoutMs answer.payload with
      applied := lane.applied }
  decisionId := job.decision.decisionId
  mint := job.decision.mint
  tokenUnits := some job.outcome.tokenUnits
  entryCostLamports := some job.outcome.entryCostLamports
  feeBps := some job.outcome.feeBps
  checkpointNetworkFeeLamports := some job.outcome.checkpointNetworkFeeLamports
  outcomeDueAt := some job.outcome.outcomeDueAt

/-- `_assess` returns: there is an answer, or there is no model. -/
def infer (lane : Lane) (answer : Option Answer) : Lab :=
  match lab.task lane with
  | some ⟨job, .assessing mode⟩ =>
    match answer with
    | none => lab.finish lane ⟨job, .assessing mode⟩
    | some answer => lab.proceed lane ⟨job, .assessing mode⟩ (.saving (assessmentOf lane job mode answer))
  | _ => lab

/-- The database saves the assessment, or raises. -/
def commit (lane : Lane) (done : Bool) : Lab :=
  match lab.task lane with
  | some ⟨job, .saving assessment⟩ =>
    if done then
      { lab with durable := lab.durable.upsert assessment }.proceed lane ⟨job, .saving assessment⟩ (.registering assessment)
    else lab.finish lane ⟨job, .saving assessment⟩
  | _ => lab

def register (lane : Lane) : Lab :=
  match lab.task lane with
  | some ⟨job, .registering assessment⟩ =>
    { lab with pendingOutcomes := lab.pendingOutcomes.track assessment }.finish lane ⟨job, .registering assessment⟩
  | _ => lab

/-- The task is cancelled, or raises: a save goes on by itself. -/
def cancel (lane : Lane) : Lab :=
  match lab.task lane with
  | some ⟨job, .waiting⟩ => lab.finish lane ⟨job, .waiting⟩
  | some ⟨job, .assessing mode⟩ => lab.finish lane ⟨job, .assessing mode⟩
  | _ => lab

/-- The worker releases the mint. -/
def release : Lab :=
  match lab.task .shadow with
  | some ⟨job, .releasing⟩ =>
    { lab with
      task := Function.update lab.task .shadow none
      queuedMints := lab.queuedMints.filter fun mint => mint ≠ job.decision.mint }
  | _ => lab

/-! ### A pass over the outcomes -/

/-- A pass begins, where there is none and there is something to save. -/
def beginPass (now : Instant) (market : Option TokenState) (updates : List Assessment) : Lab :=
  match lab.pass, updates with
  | none, update :: updates => { lab with pass := some { now := now, market := market, updates := update :: updates } }
  | _, _ => lab

/-- A pass over the assessments of the mint. -/
def observeMarket (state : TokenState) (now : Instant) : Lab :=
  lab.beginPass now (some state) ((lab.pendingOutcomes.items state.mint).filterMap (Assessment.observed context state now))

def expireOutcomes (now : Instant) : Lab :=
  lab.beginPass now none ((lab.pendingOutcomes.rows.flatMap PendingMint.items).filterMap (Assessment.expired now))

/-- The next outcome is saved; where the database raises, the pass is over. -/
def saveOutcome (done : Bool) : Lab :=
  match lab.pass with
  | some ⟨now, market, update :: updates, none⟩ =>
    if done then
      { lab with
        durable := lab.durable.upsert update
        pass := some ⟨now, market, updates, some update⟩
        resolutions := lab.resolutions ++ [⟨update, now, market⟩] }
    else { lab with pass := none }
  | _ => lab

/-- What was saved is taken out of the pending outcomes. -/
def untrackOutcome : Lab :=
  match lab.pass with
  | some ⟨now, market, updates, some saved⟩ =>
    { lab with
      pendingOutcomes := lab.pendingOutcomes.untrack saved
      pass := if updates.isEmpty then none else some ⟨now, market, updates, none⟩ }
  | _ => lab

/-- How many unresolved assessments are loaded. -/
def loadLimit : ℕ := 5000

/-- The process starts again. -/
def restart : Lab where
  mode := lab.mode
  pendingOutcomes := .load (unresolvedAiAssessments lab.durable loadLimit)
  durable := lab.durable
  resolutions := lab.resolutions

/-! ### Runs -/

/-- A segment of what runs. -/
inductive Event where
  | setMode (mode : AiDecisionMode) (qualified : Bool)
  | demoted
  | selectedModel
  | removedModel
  /-- `pause_for_maintenance`. -/
  | paused
  | resumed
  | enqueued (decision : Entry) (state : TokenState)
  | assessGuarded (decision : Entry) (state : TokenState) (qualified : Bool)
  | taken
  | waited (now : Instant) (canRun : Bool)
  | inferred (lane : Lane) (answer : Option Answer)
  | committed (lane : Lane) (done : Bool)
  | registered (lane : Lane)
  | cancelled (lane : Lane)
  | released
  | observed (state : TokenState) (now : Instant)
  | expired (now : Instant)
  | savedOutcome (done : Bool)
  | untracked
  | restarted

/-- What runs. -/
def step (lab : Lab) : Event → Lab
  | .setMode mode qualified => lab.setMode mode qualified
  | .demoted => lab.demote
  | .selectedModel => lab.selectInstalledModel
  | .removedModel => { lab with mode := .off }
  | .paused => { lab with maintenancePaused := true }.discardQueuedShadow
  | .resumed => { lab with maintenancePaused := false }
  | .enqueued decision state => lab.enqueueShadow context decision state
  | .assessGuarded decision state qualified => lab.assessGuarded context decision state qualified
  | .taken => lab.take
  | .waited now canRun => lab.waitForShadowSlot now canRun
  | .inferred lane answer => lab.infer lane answer
  | .committed lane done => lab.commit lane done
  | .registered lane => lab.register lane
  | .cancelled lane => lab.cancel lane
  | .released => lab.release
  | .observed state now => lab.observeMarket context state now
  | .expired now => lab.expireOutcomes now
  | .savedOutcome done => lab.saveOutcome done
  | .untracked => lab.untrackOutcome
  | .restarted => lab.restart

end Lab

end SignalArcade.Ai.Outcomes
