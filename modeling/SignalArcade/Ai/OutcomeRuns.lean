import SignalArcade.Ai.Outcomes
import SignalArcade.Challenger.Confined

/-!
# Every assessment gets one outcome

A queue, the mints that are queued, the pending outcomes, the saves in flight and the rows of the database speak of the
same assessments. `Law` says how they agree, between any two segments.
-/

namespace SignalArcade.Ai.Outcomes

open List Option

open Paper (Instant)
open Challenger (seconds)
open Challenger.Collection (Context routeMissingReason)
open Market.Features (TokenState)

/-! ### What an outcome may say -/

/-- The outcome is of its time: a return is measured in the window, at a market of the mint whose route is fresh. -/
def Timely (context : Context) (now : Instant) (market : Option TokenState) (assessment : Assessment) : Prop :=
  assessment.outcomeNetReturn ≠ none → ∃ due ∈ assessment.outcomeDueAt, due ≤ now ∧ now ≤ due + seconds outcomeGraceSeconds ∧
    ∃ state ∈ market, state.mint = assessment.mint ∧ routeMissingReason state now context.staleMarketSeconds true = none

/-- The update resolves the assessment now, and in time. -/
structure Resolves (context : Context) (now : Instant) (market : Option TokenState) (assessment update : Assessment) : Prop where
  key : update.key = assessment.key
  mint : update.mint = assessment.mint
  resolvedAt : update.resolvedAt = some now
  timely : assessment.outcomeNetReturn = none → Timely context now market update

variable {context : Context} {now : Instant} {market : Option TokenState} {assessment update : Assessment} {state : TokenState}

theorem resolves_missing (reason : String) : Resolves context now market assessment (assessment.missing now reason) :=
  ⟨rfl, rfl, rfl, fun hnone hsome => absurd hnone hsome⟩

/-- **A round of `observe_market` resolves an assessment, or leaves it.** -/
theorem resolves_observed (hmint : assessment.mint = state.mint) (h : assessment.observed context state now = some update) :
    Resolves context now (some state) assessment update := by
  unfold Assessment.observed at h
  cases hdue : assessment.outcomeDueAt with
  | none => simp [hdue] at h
  | some due =>
    simp only [hdue] at h
    split_ifs at h with hearly hlate
    · obtain rfl := some_inj.mp h
      exact resolves_missing _
    · unfold Assessment.quoted at h
      split at h
      · split_ifs at h with hroute
        split at h
        · obtain rfl := some_inj.mp h
          refine ⟨rfl, rfl, rfl, fun _ _ => ⟨due, hdue, not_lt.mp hearly, not_lt.mp hlate, state, rfl, hmint.symm, ?_⟩⟩
          simpa using hroute
        · obtain rfl := some_inj.mp h
          exact resolves_missing _
      · obtain rfl := some_inj.mp h
        exact resolves_missing _

theorem resolves_expired (h : assessment.expired now = some update) : Resolves context now none assessment update := by
  unfold Assessment.expired at h
  cases hdue : assessment.outcomeDueAt with
  | none => simp [hdue] at h
  | some due =>
    simp only [hdue] at h
    split_ifs at h with hearly
    obtain rfl := some_inj.mp h
    exact resolves_missing _

namespace Lab

/-! ### What is promised -/

/-- A decision that is queued or assessed. -/
def Holds (lab : Lab) (decisionId : String) : Prop :=
  (∃ job ∈ lab.queue, job.decision.decisionId = decisionId) ∨
    ∃ lane task, lab.task lane = some task ∧ task.decision.decisionId = decisionId

/-- What the callers see to. -/
def Promised (lab : Lab) : Event → Prop
  | .enqueued decision _ => ¬ lab.Holds decision.decisionId ∧
      ∀ assessment ∈ lab.durable, assessment.decisionId = decision.decisionId →
        assessment.mint = decision.mint ∧ assessment.resolvedAt = none
  | .assessGuarded decision _ _ => ¬ lab.Holds decision.decisionId ∧
      ∀ assessment ∈ lab.durable, assessment.decisionId ≠ decision.decisionId
  | .restarted => (unresolved lab.durable).length ≤ loadLimit
  | _ => True

/-! ### The law -/

/-- The assessment is not yet saved. -/
def early : Stage → Bool
  | .waiting => true
  | .assessing _ => true
  | .saving _ => true
  | .registering _ => false
  | .releasing => false

/-- The decision of a task whose assessment is not yet saved. -/
def taskAhead (task : Task) : Option String := if early task.stage then some task.decision.decisionId else none

/-- The decisions whose assessments are not yet saved. -/
def ahead (lab : Lab) : List String :=
  (lab.queue.map fun job => job.decision.decisionId) ++
    (((lab.task .shadow).bind taskAhead).toList ++ ((lab.task .guarded).bind taskAhead).toList)

/-- The mints that are queued, or assessed by the worker. -/
def busyMints (lab : Lab) : List String :=
  (lab.queue.map fun job => job.decision.mint) ++ ((lab.task .shadow).map fun task => task.decision.mint).toList

/-- An assessment as `_assess` made it. -/
structure MadeOf (lane : Lane) (job : Job) (assessment : Assessment) : Prop where
  decisionId : assessment.decisionId = job.decision.decisionId
  mint : assessment.mint = job.decision.mint
  applied : assessment.applied = lane.applied
  unresolved : assessment.resolvedAt = none
  due : assessment.outcomeDueAt.isSome
  unmeasured : assessment.outcomeNetReturn = none

/-- An assessment is saved, but not yet registered. -/
def Registering (lab : Lab) (assessment : Assessment) : Prop :=
  ∃ lane job, lab.task lane = some ⟨job, .registering assessment⟩

/-- The outcome of an assessment is saved, but it is not yet taken out. -/
def Untracking (lab : Lab) (assessment : Assessment) : Prop :=
  ∃ pass ∈ lab.pass, ∃ saved ∈ pass.saved, saved.key = assessment.key ∧ saved.mint = assessment.mint

/-- The assessment awaits its outcome among those of the mint. -/
structure Pending (lab : Lab) (mint : String) (assessment : Assessment) : Prop where
  mint : assessment.mint = mint
  unresolved : assessment.resolvedAt = none
  due : assessment.outcomeDueAt.isSome
  unmeasured : assessment.outcomeNetReturn = none
  known : assessment ∈ lab.durable ∨ lab.Untracking assessment

variable {mint : String} {updates : List Assessment} {assessment : Assessment}

theorem Pending.of_known {lab lab' : Lab} (h : lab.Pending mint assessment)
    (hknown : assessment ∈ lab'.durable ∨ lab'.Untracking assessment) : lab'.Pending mint assessment :=
  ⟨h.mint, h.unresolved, h.due, h.unmeasured, hknown⟩

/-- Nothing that is to be saved is saved already, and nothing is to be saved twice. -/
structure Saves (lab : Lab) : Prop where
  nodup : lab.ahead.Nodup
  new : ∀ decisionId ∈ lab.ahead, ∀ assessment ∈ lab.durable, assessment.decisionId ≠ decisionId
  made : ∀ lane job assessment, lab.task lane = some ⟨job, .saving assessment⟩ → MadeOf lane job assessment

/-- What is saved is pending from its registration until it is resolved. -/
structure Tracks (lab : Lab) : Prop where
  registering : ∀ lane job assessment, lab.task lane = some ⟨job, .registering assessment⟩ →
    MadeOf lane job assessment ∧ assessment ∈ lab.durable ∧
      ∀ item ∈ lab.pendingOutcomes.items assessment.mint, item.key ≠ assessment.key
  tracked : ∀ assessment ∈ lab.durable, assessment.resolvedAt = none →
    assessment ∈ lab.pendingOutcomes.items assessment.mint ∨ lab.Registering assessment
  pending : ∀ mint, ∀ assessment ∈ lab.pendingOutcomes.items mint, lab.Pending mint assessment
  keys : ∀ mint, ((lab.pendingOutcomes.items mint).map Assessment.key).Nodup

/-- A pass resolves what is pending. -/
structure Passes (context : Context) (lab : Lab) (pass : Pass) : Prop where
  nodup : (pass.updates.map Assessment.key).Nodup
  updates : ∀ update ∈ pass.updates, ∃ assessment ∈ lab.pendingOutcomes.items update.mint,
    assessment ∈ lab.durable ∧ Resolves context pass.now pass.market assessment update
  saved : ∀ saved ∈ pass.saved, saved ∈ lab.durable ∧ saved.resolvedAt ≠ none ∧
    ∀ update ∈ pass.updates, update.key ≠ saved.key

/-- There is one assessment of the worker for a mint. -/
structure OneEach (lab : Lab) : Prop where
  mints : ∀ mint, mint ∈ lab.queuedMints ↔ mint ∈ lab.busyMints
  nodup : lab.busyMints.Nodup
  quiet : ∀ assessment ∈ lab.durable, assessment.resolvedAt = none → assessment.applied = false →
    assessment.mint ∈ lab.busyMints → ∃ task, lab.task .shadow = some task ∧
      task.decision.decisionId = assessment.decisionId ∧ task.decision.mint = assessment.mint
  one : ∀ a ∈ lab.durable, ∀ b ∈ lab.durable, a.resolvedAt = none → b.resolvedAt = none → a.applied = false →
    b.applied = false → a.mint = b.mint → a = b

/-- What is resolved was resolved once. -/
structure Settled (context : Context) (lab : Lab) : Prop where
  nodup : (lab.resolutions.map fun resolution => resolution.assessment.key).Nodup
  resolved : ∀ resolution ∈ lab.resolutions, resolution.assessment ∈ lab.durable ∧
    resolution.assessment.resolvedAt = some resolution.now ∧
    Timely context resolution.now resolution.market resolution.assessment
  resolution : ∀ assessment ∈ lab.durable, assessment.resolvedAt ≠ none →
    ∃ resolution ∈ lab.resolutions, resolution.assessment = assessment

/-- **How the queue, the saves, the pending outcomes and the rows agree.** -/
structure Law (context : Context) (lab : Lab) : Prop where
  saves : lab.Saves
  tracks : lab.Tracks
  passes : ∀ pass ∈ lab.pass, lab.Passes context pass
  oneEach : lab.OneEach
  settled : lab.Settled context

variable {lab lab' : Lab} {lane : Lane} {job : Job} {stage stage' : Stage} {market : Option TokenState}

/-! ### Where nothing is saved -/

/-- The rows, the pending outcomes and the pass are the same, and so is what is being registered. -/
structure Same (lab lab' : Lab) : Prop where
  durable : lab'.durable = lab.durable
  pendingOutcomes : lab'.pendingOutcomes = lab.pendingOutcomes
  pass : lab'.pass = lab.pass
  resolutions : lab'.resolutions = lab.resolutions
  registering : ∀ lane job assessment,
    lab'.task lane = some ⟨job, .registering assessment⟩ ↔ lab.task lane = some ⟨job, .registering assessment⟩

theorem Same.tracks (h : lab.Same lab') (htracks : lab.Tracks) : lab'.Tracks := by
  have huntracking : ∀ assessment, lab.Untracking assessment → lab'.Untracking assessment := by
    intro assessment huntracking
    unfold Untracking
    rw [h.pass]
    exact huntracking
  constructor
  · intro lane job assessment htask
    rw [h.durable, h.pendingOutcomes]
    exact htracks.registering lane job assessment ((h.registering lane job assessment).mp htask)
  · intro assessment hmem hunresolved
    rw [h.durable] at hmem
    rw [h.pendingOutcomes]
    refine (htracks.tracked assessment hmem hunresolved).imp_right ?_
    rintro ⟨lane, job, htask⟩
    exact ⟨lane, job, (h.registering lane job assessment).mpr htask⟩
  · intro mint assessment hmem
    rw [h.pendingOutcomes] at hmem
    have hpending := htracks.pending mint assessment hmem
    refine hpending.of_known ?_
    rw [h.durable]
    exact hpending.known.imp_right (huntracking assessment)
  · intro mint
    rw [h.pendingOutcomes]
    exact htracks.keys mint

theorem Same.passes (h : lab.Same lab') (hpasses : ∀ pass ∈ lab.pass, lab.Passes context pass) :
    ∀ pass ∈ lab'.pass, lab'.Passes context pass := by
  intro pass hpass
  rw [h.pass] at hpass
  obtain ⟨hnodup, hupdates, hsaved⟩ := hpasses pass hpass
  rw [← h.durable] at hupdates hsaved
  rw [← h.pendingOutcomes] at hupdates
  exact ⟨hnodup, hupdates, hsaved⟩

theorem Same.settled (h : lab.Same lab') (hsettled : lab.Settled context) : lab'.Settled context := by
  obtain ⟨hnodup, hresolved, hresolution⟩ := hsettled
  rw [← h.resolutions] at hnodup hresolved hresolution
  rw [← h.durable] at hresolved hresolution
  exact ⟨hnodup, hresolved, hresolution⟩

theorem Saves.of_sublist (h : lab.Saves) (hsub : lab'.ahead.Sublist lab.ahead) (hdurable : lab'.durable = lab.durable)
    (hmade : ∀ lane job assessment, lab'.task lane = some ⟨job, .saving assessment⟩ → MadeOf lane job assessment) :
    lab'.Saves := by
  refine ⟨h.nodup.sublist hsub, ?_, hmade⟩
  intro decisionId hmem assessment hassessment
  rw [hdurable] at hassessment
  exact h.new decisionId (hsub.subset hmem) assessment hassessment

theorem busyMints_congr (hqueue : lab'.queue = lab.queue)
    (hjob : (lab'.task .shadow).map Task.toJob = (lab.task .shadow).map Task.toJob) : lab'.busyMints = lab.busyMints := by
  have hmap := congrArg (Option.map fun job : Job => job.decision.mint) hjob
  simp only [Option.map_map] at hmap
  unfold busyMints
  rw [hqueue]
  exact congrArg (fun mint : Option String => (lab.queue.map fun job => job.decision.mint) ++ mint.toList) hmap

theorem OneEach.of_same (h : lab.OneEach) (hdurable : lab'.durable = lab.durable)
    (hmints : lab'.queuedMints = lab.queuedMints) (hqueue : lab'.queue = lab.queue)
    (hjob : (lab'.task .shadow).map Task.toJob = (lab.task .shadow).map Task.toJob) : lab'.OneEach := by
  have hbusy := busyMints_congr hqueue hjob
  constructor
  · intro mint
    rw [hmints, hbusy]
    exact h.mints mint
  · rw [hbusy]
    exact h.nodup
  · intro assessment hmem hunresolved happlied hmint
    rw [hdurable] at hmem
    rw [hbusy] at hmint
    obtain ⟨task, htask, hdecision⟩ := h.quiet assessment hmem hunresolved happlied hmint
    rw [htask, map_some, map_eq_some_iff] at hjob
    obtain ⟨task', htask', hjob⟩ := hjob
    exact ⟨task', htask', by rw [hjob]; exact hdecision⟩
  · rw [hdurable]
    exact h.one

theorem Law.of_same (h : lab.Law context) (hsame : lab.Same lab') (hsub : lab'.ahead.Sublist lab.ahead)
    (hmade : ∀ lane job assessment, lab'.task lane = some ⟨job, .saving assessment⟩ → MadeOf lane job assessment)
    (hone : lab'.OneEach) : lab'.Law context :=
  ⟨h.saves.of_sublist hsub hsame.durable hmade, hsame.tracks h.tracks, hsame.passes h.passes, hone, hsame.settled h.settled⟩

theorem Law.setting (h : lab.Law context) (mode : AiDecisionMode) (paused : Bool) :
    Law context { lab with mode := mode, maintenancePaused := paused } :=
  h.of_same ⟨rfl, rfl, rfl, rfl, fun _ _ _ => Iff.rfl⟩ (Sublist.refl _) h.saves.made (h.oneEach.of_same rfl rfl rfl rfl)

theorem Law.discard (h : lab.Law context) : lab.discardQueuedShadow.Law context := by
  refine h.of_same ⟨rfl, rfl, rfl, rfl, fun _ _ _ => Iff.rfl⟩ (sublist_append_right _ _) h.saves.made ?_
  have hnodup := h.oneEach.nodup
  unfold busyMints at hnodup
  rw [nodup_append] at hnodup
  have hbusy : ∀ mint, mint ∈ lab.discardQueuedShadow.busyMints ↔
      mint ∈ lab.busyMints ∧ mint ∉ lab.queue.map fun job => job.decision.mint := by
    intro mint
    show mint ∈ ((lab.task .shadow).map fun task => task.decision.mint).toList ↔ _
    unfold busyMints
    rw [mem_append]
    constructor
    · intro htask
      exact ⟨.inr htask, fun hqueue => hnodup.2.2 _ hqueue _ htask rfl⟩
    · rintro ⟨hqueue | htask, hnot⟩
      · exact absurd hqueue hnot
      · exact htask
  constructor
  · intro mint
    rw [hbusy, ← h.oneEach.mints]
    simp [discardQueuedShadow]
  · exact hnodup.2.1
  · intro assessment hmem hunresolved happlied hmint
    exact h.oneEach.quiet assessment hmem hunresolved happlied ((hbusy _).mp hmint).1
  · exact h.oneEach.one

/-! ### The stages of a task -/

theorem task_update (lane : Lane) (task : Option Task) (lane' : Lane) :
    Function.update lab.task lane task lane' = if lane' = lane then task else lab.task lane' := by
  rw [Function.update_apply]

theorem ahead_update_sublist {task : Option Task}
    (h : (task.bind taskAhead).toList.Sublist ((lab.task lane).bind taskAhead).toList) :
    Lab.ahead { lab with task := Function.update lab.task lane task } |>.Sublist lab.ahead := by
  cases lane with
  | shadow => exact (Sublist.refl _).append (h.append (Sublist.refl _))
  | guarded => exact (Sublist.refl _).append ((Sublist.refl _).append h)

theorem Law.retask {task : Option Task} (h : lab.Law context) (htask : lab.task lane = some ⟨job, stage⟩)
    (hearly : early stage = true) (hjob : task.map Task.toJob = some job ∨ lane = .guarded ∧ task = none)
    (hto : ∀ job' assessment, task ≠ some ⟨job', .registering assessment⟩)
    (hmade : ∀ job' assessment, task = some ⟨job', .saving assessment⟩ → MadeOf lane job' assessment) :
    Law context { lab with task := Function.update lab.task lane task } := by
  have hfrom : ∀ job' assessment, lab.task lane ≠ some ⟨job', .registering assessment⟩ := by
    intro job' assessment hregistering
    rw [htask] at hregistering
    cases hregistering
    cases hearly
  refine h.of_same ⟨rfl, rfl, rfl, rfl, ?_⟩ (ahead_update_sublist ?_) ?_ (h.oneEach.of_same rfl rfl rfl ?_)
  · intro lane' job' assessment
    show Function.update lab.task lane task lane' = _ ↔ _
    rw [task_update]
    split_ifs with hlane
    · subst hlane
      exact ⟨fun hregistering => absurd hregistering (hto _ _), fun hregistering => absurd hregistering (hfrom _ _)⟩
    · exact Iff.rfl
  · have hahead : ((lab.task lane).bind taskAhead).toList = [job.decision.decisionId] := by
      rw [htask]
      simp [taskAhead, hearly]
    rw [hahead]
    cases task with
    | none => exact nil_sublist _
    | some task =>
      rcases hjob with hjob | ⟨-, hnone⟩
      · obtain rfl : task.toJob = job := some_inj.mp hjob
        show (taskAhead task).toList.Sublist _
        unfold taskAhead
        split_ifs
        · exact Sublist.refl _
        · exact nil_sublist _
      · cases hnone
  · intro lane' job' assessment hsaving
    replace hsaving : Function.update lab.task lane task lane' = _ := hsaving
    rw [task_update] at hsaving
    split_ifs at hsaving with hlane
    · subst hlane
      exact hmade _ _ hsaving
    · exact h.saves.made _ _ _ hsaving
  · show (Function.update lab.task lane task .shadow).map Task.toJob = _
    rw [task_update]
    split_ifs with hlane
    · subst hlane
      rw [htask]
      rcases hjob with hjob | ⟨hguarded, -⟩
      · exact hjob
      · cases hguarded
    · rfl

theorem Law.proceed (h : lab.Law context) (htask : lab.task lane = some ⟨job, stage⟩) (hearly : early stage = true)
    (hto : ∀ assessment, stage' ≠ .registering assessment)
    (hmade : ∀ assessment, stage' = .saving assessment → MadeOf lane job assessment) :
    (lab.proceed lane ⟨job, stage⟩ stage').Law context := by
  refine h.retask htask hearly (.inl rfl) ?_ ?_
  · rintro job' assessment hregistering
    cases hregistering
    exact hto assessment rfl
  · rintro job' assessment hsaving
    cases hsaving
    exact hmade assessment rfl

theorem Law.finish (h : lab.Law context) (htask : lab.task lane = some ⟨job, stage⟩) (hearly : early stage = true) :
    (lab.finish lane ⟨job, stage⟩).Law context := by
  cases lane with
  | shadow =>
    exact h.proceed htask hearly (by simp) (by simp)
  | guarded =>
    exact h.retask htask hearly (.inr ⟨rfl, rfl⟩) (by simp) (by simp)

theorem critique_unresolved (decisionId : String) (decision : Challenger.Decision) (mode : AiDecisionMode)
    (modelName modelDigest : String) (now : Instant) (timeoutMs : ℕ) (answer : Option (Option CriticPayload × ℕ)) :
    (critique decisionId decision mode modelName modelDigest now timeoutMs answer).resolvedAt = none := by
  unfold critique
  cases answer with
  | none => rfl
  | some answer =>
    dsimp only
    split <;> rfl

theorem madeOf_assessmentOf (lane : Lane) (job : Job) (mode : AiDecisionMode) (answer : Answer) :
    MadeOf lane job (assessmentOf lane job mode answer) :=
  ⟨rfl, rfl, rfl, critique_unresolved _ _ _ _ _ _ _ _, rfl, rfl⟩

theorem Law.wait (h : lab.Law context) (now : Instant) (canRun : Bool) : (lab.waitForShadowSlot now canRun).Law context := by
  unfold waitForShadowSlot
  split
  · next job htask =>
    split_ifs
    · exact h.finish htask rfl
    · exact h.proceed htask rfl (by simp) (by simp)
    · exact h
  · exact h

theorem Law.infer (h : lab.Law context) (lane : Lane) (answer : Option Answer) : (lab.infer lane answer).Law context := by
  unfold Lab.infer
  split
  · next job mode htask =>
    cases answer with
    | none => exact h.finish htask rfl
    | some answer =>
      refine h.proceed htask rfl (by simp) fun assessment hsaving => ?_
      cases hsaving
      exact madeOf_assessmentOf lane job mode answer
  · exact h

theorem Law.cancel (h : lab.Law context) (lane : Lane) : (lab.cancel lane).Law context := by
  unfold Lab.cancel
  split
  · next job htask => exact h.finish htask rfl
  · next job mode htask => exact h.finish htask rfl
  · exact h

/-! ### New work -/

theorem not_mem_ahead {decisionId : String} (h : ¬ lab.Holds decisionId) : decisionId ∉ lab.ahead := by
  intro hmem
  have htask : ∀ lane, decisionId ∈ ((lab.task lane).bind taskAhead).toList → lab.Holds decisionId := by
    intro lane hahead
    rw [mem_toList, bind_eq_some_iff] at hahead
    obtain ⟨task, htask, hahead⟩ := hahead
    unfold taskAhead at hahead
    split_ifs at hahead
    exact .inr ⟨lane, task, htask, some_inj.mp hahead⟩
  rcases mem_append.mp hmem with hqueue | hmem
  · obtain ⟨job, hjob, hdecision⟩ := mem_map.mp hqueue
    exact h (.inl ⟨job, hjob, hdecision⟩)
  · rcases mem_append.mp hmem with hshadow | hguarded
    · exact h (htask .shadow hshadow)
    · exact h (htask .guarded hguarded)

theorem Saves.cons (h : lab.Saves) {decisionId : String} (hnot : decisionId ∉ lab.ahead)
    (hnew : ∀ assessment ∈ lab.durable, assessment.decisionId ≠ decisionId)
    (hperm : lab'.ahead.Perm (decisionId :: lab.ahead)) (hdurable : lab'.durable = lab.durable)
    (hmade : ∀ lane job assessment, lab'.task lane = some ⟨job, .saving assessment⟩ → MadeOf lane job assessment) :
    lab'.Saves := by
  refine ⟨hperm.nodup_iff.mpr (nodup_cons.mpr ⟨hnot, h.nodup⟩), ?_, hmade⟩
  rw [hdurable]
  intro decisionId' hmem
  rcases mem_cons.mp (hperm.mem_iff.mp hmem) with rfl | hmem
  · exact hnew
  · exact h.new decisionId' hmem

theorem Law.new_of_quiet (h : lab.Law context) {decision : Entry} (hholds : ¬ lab.Holds decision.decisionId)
    (hdurable : ∀ assessment ∈ lab.durable, assessment.decisionId = decision.decisionId →
      assessment.mint = decision.mint ∧ assessment.resolvedAt = none)
    (hpending : lab.hasPendingOutcome decision.mint = false) :
    ∀ assessment ∈ lab.durable, assessment.decisionId ≠ decision.decisionId := by
  intro assessment hmem heq
  obtain ⟨hmint, hunresolved⟩ := hdurable assessment hmem heq
  rcases h.tracks.tracked assessment hmem hunresolved with hitem | ⟨lane, job, htask⟩
  · rw [hmint] at hitem
    unfold hasPendingOutcome at hpending
    rw [Bool.not_eq_false', List.isEmpty_iff] at hpending
    rw [hpending] at hitem
    cases hitem
  · have hmade := (h.tracks.registering lane job assessment htask).1
    exact hholds (.inr ⟨lane, _, htask, hmade.decisionId.symm.trans heq⟩)

theorem Law.quiet (h : lab.Law context) (hqueued : mint ∉ lab.queuedMints)
    (hpending : lab.hasPendingOutcome mint = false) (hmem : assessment ∈ lab.durable)
    (hunresolved : assessment.resolvedAt = none) (happlied : assessment.applied = false) : assessment.mint ≠ mint := by
  rintro rfl
  rcases h.tracks.tracked assessment hmem hunresolved with hitem | ⟨lane, job, htask⟩
  · unfold hasPendingOutcome at hpending
    rw [Bool.not_eq_false', List.isEmpty_iff] at hpending
    rw [hpending] at hitem
    cases hitem
  · have hmade := (h.tracks.registering lane job assessment htask).1
    cases lane with
    | guarded =>
      rw [hmade.applied] at happlied
      cases happlied
    | shadow =>
      refine hqueued ((h.oneEach.mints _).mpr (mem_append_right _ ?_))
      rw [htask, hmade.mint]
      exact mem_singleton.mpr rfl

theorem Law.append (h : lab.Law context) (hnot : job.decision.decisionId ∉ lab.ahead)
    (hnew : ∀ assessment ∈ lab.durable, assessment.decisionId ≠ job.decision.decisionId)
    (hqueued : job.decision.mint ∉ lab.queuedMints) (hpending : lab.hasPendingOutcome job.decision.mint = false)
    (hlab : lab' = { lab with
      queue := lab.queue ++ [job]
      queuedMints := job.decision.mint :: lab.queuedMints }) : lab'.Law context := by
  subst hlab
  set lab' : Lab :=
    { lab with
      queue := lab.queue ++ [job]
      queuedMints := job.decision.mint :: lab.queuedMints } with hlab'
  have hmint : job.decision.mint ∉ lab.busyMints := fun hbusy => hqueued ((h.oneEach.mints _).mpr hbusy)
  have hsame : lab.Same lab' := ⟨rfl, rfl, rfl, rfl, fun _ _ _ => Iff.rfl⟩
  have hahead : lab'.ahead.Perm (job.decision.decisionId :: lab.ahead) := by
    simp only [ahead, hlab', map_append, map_cons, map_nil, append_assoc]
    exact perm_middle
  have hbusy : lab'.busyMints.Perm (job.decision.mint :: lab.busyMints) := by
    simp only [busyMints, hlab', map_append, map_cons, map_nil, append_assoc]
    exact perm_middle
  refine ⟨h.saves.cons hnot hnew hahead rfl h.saves.made, hsame.tracks h.tracks, hsame.passes h.passes, ⟨?_, ?_, ?_, ?_⟩,
    hsame.settled h.settled⟩
  · intro mint
    show mint ∈ job.decision.mint :: lab.queuedMints ↔ _
    rw [hbusy.mem_iff, mem_cons, mem_cons, h.oneEach.mints]
  · exact hbusy.nodup_iff.mpr (nodup_cons.mpr ⟨hmint, h.oneEach.nodup⟩)
  · intro assessment hmem hunresolved happlied hbusymint
    rcases mem_cons.mp (hbusy.mem_iff.mp hbusymint) with hnewMint | hold
    · exact absurd hnewMint (h.quiet hqueued hpending hmem hunresolved happlied)
    · exact h.oneEach.quiet assessment hmem hunresolved happlied hold
  · exact h.oneEach.one

theorem Law.enqueue (h : lab.Law context) (decision : Entry) (state : TokenState)
    (hpromised : lab.Promised (.enqueued decision state)) : (lab.enqueueShadow context decision state).Law context := by
  obtain ⟨hholds, hdurable⟩ := hpromised
  unfold enqueueShadow
  split
  · exact h
  · split
    · exact h
    · next hbusy =>
      obtain ⟨hqueued, hpending⟩ := not_or.mp hbusy
      rw [Bool.not_eq_true] at hpending
      split
      · exact h
      · next outcome _ =>
        split
        · exact h.append (not_mem_ahead hholds) (h.new_of_quiet hholds hdurable hpending) hqueued hpending rfl
        · exact h

theorem Same.begin (hfree : lab.task lane = none) (hto : ∀ assessment, stage ≠ .registering assessment) (queue : List Job) :
    lab.Same { lab with
      queue := queue
      task := Function.update lab.task lane (some ⟨job, stage⟩) } := by
  refine ⟨rfl, rfl, rfl, rfl, ?_⟩
  intro lane' job' assessment
  show Function.update lab.task lane (some ⟨job, stage⟩) lane' = _ ↔ _
  rw [task_update]
  split_ifs with hlane
  · subst hlane
    rw [hfree]
    constructor
    · intro hregistering
      cases hregistering
      exact absurd rfl (hto assessment)
    · intro hregistering
      cases hregistering
  · exact Iff.rfl

theorem Saves.begin (h : lab.Saves) (hto : ∀ assessment, stage ≠ .saving assessment) {lane' : Lane} {job' : Job}
    (hsaving : Function.update lab.task lane (some ⟨job, stage⟩) lane' = some ⟨job', .saving assessment⟩) :
    MadeOf lane' job' assessment := by
  rw [task_update] at hsaving
  split_ifs at hsaving with hlane
  · cases hsaving
    exact absurd rfl (hto assessment)
  · exact h.made _ _ _ hsaving

theorem Law.beginGuarded (h : lab.Law context) (hfree : lab.task .guarded = none) (mode : AiDecisionMode)
    (hnot : job.decision.decisionId ∉ lab.ahead)
    (hnew : ∀ assessment ∈ lab.durable, assessment.decisionId ≠ job.decision.decisionId) :
    Law context { lab with task := Function.update lab.task .guarded (some ⟨job, .assessing mode⟩) } := by
  have hsame : lab.Same { lab with task := Function.update lab.task .guarded (some ⟨job, .assessing mode⟩) } :=
    .begin hfree (by simp) lab.queue
  refine ⟨h.saves.cons hnot hnew ?_ rfl ?_, hsame.tracks h.tracks, hsame.passes h.passes,
    h.oneEach.of_same rfl rfl rfl rfl, hsame.settled h.settled⟩
  · unfold ahead
    rw [hfree, ← append_assoc, ← append_assoc]
    exact (perm_append_singleton _ _).trans (by simp)
  · intro lane job' assessment hsaving
    exact h.saves.begin (by simp) hsaving

theorem Law.assessGuarded (h : lab.Law context) (decision : Entry) (state : TokenState) (qualified : Bool)
    (hpromised : lab.Promised (.assessGuarded decision state qualified)) :
    (lab.assessGuarded context decision state qualified).Law context := by
  obtain ⟨hholds, hnew⟩ := hpromised
  unfold Lab.assessGuarded
  split
  · exact h
  · next hoff =>
    have hfree : lab.task .guarded = none := by
      by_contra hbusy
      exact hoff (.inr (.inr (.inr (isSome_iff_ne_none.mpr hbusy))))
    split
    · exact h.setting _ lab.maintenancePaused
    · split
      · exact h
      · exact h.beginGuarded hfree lab.mode (not_mem_ahead hholds) hnew

theorem Law.take (h : lab.Law context) : lab.take.Law context := by
  unfold Lab.take
  split
  · next job queue hqueue hfree =>
    set lab' : Lab :=
      { lab with
        queue := queue
        task := Function.update lab.task .shadow (some ⟨job, .waiting⟩) } with hlab'
    have hsame : lab.Same lab' := .begin hfree (by simp) queue
    have hahead : lab'.ahead.Perm lab.ahead := by
      unfold ahead
      rw [hqueue, hfree]
      exact perm_middle
    have hbusy : lab'.busyMints.Perm lab.busyMints := by
      unfold busyMints
      rw [hqueue, hfree]
      show (queue.map (fun job => job.decision.mint) ++ [job.decision.mint]).Perm
        (job.decision.mint :: queue.map (fun job => job.decision.mint) ++ [])
      rw [append_nil]
      exact perm_append_singleton _ _
    refine ⟨⟨hahead.nodup_iff.mpr h.saves.nodup, ?_, ?_⟩, hsame.tracks h.tracks, hsame.passes h.passes, ⟨?_, ?_, ?_, ?_⟩,
      hsame.settled h.settled⟩
    · intro decisionId hmem
      exact h.saves.new decisionId (hahead.mem_iff.mp hmem)
    · intro lane job' assessment hsaving
      exact h.saves.begin (by simp) hsaving
    · intro mint
      rw [hbusy.mem_iff]
      exact h.oneEach.mints mint
    · exact hbusy.nodup_iff.mpr h.oneEach.nodup
    · intro assessment hmem hunresolved happlied hmint
      obtain ⟨task, htask, -⟩ := h.oneEach.quiet assessment hmem hunresolved happlied (hbusy.mem_iff.mp hmint)
      rw [hfree] at htask
      cases htask
    · exact h.oneEach.one
  · exact h

theorem Law.release (h : lab.Law context) : lab.release.Law context := by
  unfold Lab.release
  split
  · next job htask =>
    set lab' : Lab :=
      { lab with
        task := Function.update lab.task .shadow none
        queuedMints := lab.queuedMints.filter fun mint => mint ≠ job.decision.mint } with hlab'
    have htasks : ∀ lane, lab'.task lane = if lane = .shadow then none else lab.task lane := task_update .shadow none
    have hsame : lab.Same lab' := by
      refine ⟨rfl, rfl, rfl, rfl, ?_⟩
      intro lane job' assessment
      rw [htasks]
      split_ifs with hlane
      · subst hlane
        rw [htask]
        simp
      · exact Iff.rfl
    have hbusy : lab.busyMints = (lab.queue.map fun job => job.decision.mint) ++ [job.decision.mint] := by
      unfold busyMints
      rw [htask]
      rfl
    have hbusy' : lab'.busyMints = lab.queue.map fun job => job.decision.mint := by
      unfold busyMints
      rw [htasks, if_pos rfl]
      exact append_nil _
    have hnodup := h.oneEach.nodup
    rw [hbusy, nodup_append] at hnodup
    have hother : ∀ mint ∈ lab.queue.map fun job => job.decision.mint, mint ≠ job.decision.mint :=
      fun mint hmint => hnodup.2.2 mint hmint _ (mem_singleton.mpr rfl)
    refine h.of_same hsame ?_ ?_ ⟨?_, ?_, ?_, ?_⟩
    · apply ahead_update_sublist
      exact nil_sublist _
    · intro lane job' assessment hsaving
      rw [htasks] at hsaving
      split_ifs at hsaving with hlane
      exact h.saves.made _ _ _ hsaving
    · intro mint
      rw [hbusy']
      show mint ∈ lab.queuedMints.filter (fun mint => mint ≠ job.decision.mint) ↔ _
      rw [mem_filter, h.oneEach.mints, hbusy, mem_append, mem_singleton, decide_eq_true_eq]
      constructor
      · rintro ⟨hqueue | heq, hne⟩
        · exact hqueue
        · exact absurd heq hne
      · intro hqueue
        exact ⟨.inl hqueue, hother mint hqueue⟩
    · rw [hbusy']
      exact hnodup.1
    · intro assessment hmem hunresolved happlied hmint
      rw [hbusy'] at hmint
      obtain ⟨task, htask', -, hsame⟩ := h.oneEach.quiet assessment hmem hunresolved happlied
        (by rw [hbusy]; exact mem_append_left _ hmint)
      rw [htask] at htask'
      cases htask'
      exact absurd hsame.symm (hother _ hmint)
    · exact h.oneEach.one
  · exact h

/-! ### A save -/

theorem ahead_saving (htask : lab.task lane = some ⟨job, .saving assessment⟩) (durable : Durable) :
    lab.ahead.Perm (job.decision.decisionId ::
      ({ lab with durable := durable }.proceed lane ⟨job, .saving assessment⟩ (.registering assessment)).ahead) := by
  have hsaving : ((lab.task lane).bind taskAhead).toList = [job.decision.decisionId] := by
    rw [htask]
    rfl
  cases lane with
  | shadow =>
    show (lab.queue.map _ ++ (((lab.task .shadow).bind taskAhead).toList ++ _)).Perm _
    rw [hsaving]
    exact perm_middle
  | guarded =>
    show (lab.queue.map _ ++ (_ ++ ((lab.task .guarded).bind taskAhead).toList)).Perm _
    rw [hsaving, ← append_assoc]
    refine (perm_append_singleton _ _).trans (.cons _ ?_)
    rw [← append_nil (List.map _ _ ++ _), append_assoc]
    exact .refl _

theorem Saves.fresh (h : lab.Saves) (htask : lab.task lane = some ⟨job, .saving assessment⟩) {row : Assessment}
    (hrow : row ∈ lab.durable) : row.decisionId ≠ job.decision.decisionId :=
  h.new _ ((ahead_saving htask lab.durable).mem_iff.mpr (.head _)) row hrow

theorem Pending.row (h : lab.Pending mint assessment)
    (hsaved : ∀ pass ∈ lab.pass, ∀ saved ∈ pass.saved, saved ∈ lab.durable) :
    ∃ row ∈ lab.durable, row.key = assessment.key := by
  rcases h.known with hrow | ⟨pass, hpass, saved, hmem, hkey, -⟩
  · exact ⟨assessment, hrow, rfl⟩
  · exact ⟨saved, hsaved pass hpass saved hmem, hkey⟩

theorem OneEach.commits (h : lab.OneEach) (htask : lab.task lane = some ⟨job, .saving assessment⟩)
    (hmade : MadeOf lane job assessment) (hfresh : ∀ row ∈ lab.durable, row.decisionId ≠ assessment.decisionId)
    (hrows : ∀ row, row ∈ lab'.durable ↔ row = assessment ∨ row ∈ lab.durable)
    (hmints : lab'.queuedMints = lab.queuedMints) (hqueue : lab'.queue = lab.queue)
    (hjob : (lab'.task .shadow).map Task.toJob = (lab.task .shadow).map Task.toJob) : lab'.OneEach := by
  have hbusy := busyMints_congr hqueue hjob
  -- of the guarded lane, it is applied
  have hshadow : assessment.applied = false → lab.task .shadow = some ⟨job, .saving assessment⟩ := by
    intro happlied
    cases lane with
    | shadow => exact htask
    | guarded =>
      rw [hmade.applied] at happlied
      cases happlied
  have halone : ∀ row ∈ lab.durable, row.resolvedAt = none → row.applied = false → assessment.applied = false →
      row.mint ≠ assessment.mint := by
    intro row hrow hunresolved happlied hnew hmint
    have hmine : row.mint ∈ lab.busyMints := by
      rw [hmint, hmade.mint]
      unfold busyMints
      rw [hshadow hnew]
      exact mem_append_right _ (.head _)
    obtain ⟨task, htask', hdecision, -⟩ := h.quiet row hrow hunresolved happlied hmine
    rw [hshadow hnew] at htask'
    cases htask'
    exact hfresh row hrow (hdecision.symm.trans hmade.decisionId.symm)
  constructor
  · intro mint
    rw [hmints, hbusy]
    exact h.mints mint
  · rw [hbusy]
    exact h.nodup
  · intro row hrow hunresolved happlied hmint
    rw [hbusy] at hmint
    obtain ⟨task, htask', hdecision, hsame⟩ : ∃ task, lab.task .shadow = some task ∧
        task.decision.decisionId = row.decisionId ∧ task.decision.mint = row.mint := by
      rcases (hrows row).mp hrow with rfl | hrow
      · exact ⟨_, hshadow happlied, hmade.decisionId.symm, hmade.mint.symm⟩
      · exact h.quiet row hrow hunresolved happlied hmint
    rw [htask', map_some, map_eq_some_iff] at hjob
    obtain ⟨task', htask'', hjob⟩ := hjob
    exact ⟨task', htask'', by rw [hjob]; exact hdecision, by rw [hjob]; exact hsame⟩
  · intro a ha b hb hunresolveda hunresolvedb happlieda happliedb hmint
    rcases (hrows a).mp ha with rfl | ha
    · rcases (hrows b).mp hb with rfl | hb
      · rfl
      · exact absurd hmint.symm (halone b hb hunresolvedb happliedb happlieda)
    · rcases (hrows b).mp hb with rfl | hb
      · exact absurd hmint (halone a ha hunresolveda happlieda happliedb)
      · exact h.one a ha b hb hunresolveda hunresolvedb happlieda happliedb hmint

/-- **The database commits an assessment.** -/
theorem Law.commits (h : lab.Law context) (htask : lab.task lane = some ⟨job, .saving assessment⟩) :
    ({ lab with durable := lab.durable.upsert assessment }.proceed lane ⟨job, .saving assessment⟩
      (.registering assessment)).Law context := by
  set lab' := { lab with durable := lab.durable.upsert assessment }.proceed lane ⟨job, .saving assessment⟩
    (.registering assessment) with hlab'
  have hmade := h.saves.made lane job assessment htask
  have hfresh : ∀ row ∈ lab.durable, row.decisionId ≠ assessment.decisionId := by
    intro row hrow
    rw [hmade.decisionId]
    exact h.saves.fresh htask hrow
  have hkey : ∀ row ∈ lab.durable, row.key ≠ assessment.key :=
    fun row hrow hkey => hfresh row hrow (congrArg Prod.fst hkey)
  have hrows : ∀ row, row ∈ lab'.durable ↔ row = assessment ∨ row ∈ lab.durable := by
    intro row
    show row ∈ lab.durable.upsert assessment ↔ _
    rw [Table.mem_upsert]
    exact or_congr_right ⟨And.left, fun hrow => ⟨hrow, hkey row hrow⟩⟩
  have htasks : ∀ lane', lab'.task lane' = if lane' = lane then some ⟨job, .registering assessment⟩ else lab.task lane' :=
    task_update lane _
  have hahead : lab.ahead.Perm (job.decision.decisionId :: lab'.ahead) := ahead_saving htask _
  have hnodup := hahead.nodup_iff.mp h.saves.nodup
  refine ⟨⟨(nodup_cons.mp hnodup).2, ?_, ?_⟩, ⟨?_, ?_, ?_, h.tracks.keys⟩, ?_,
    h.oneEach.commits htask hmade hfresh hrows rfl rfl ?_, ⟨h.settled.nodup, ?_, ?_⟩⟩
  · intro decisionId hmem row hrow
    rcases (hrows row).mp hrow with rfl | hrow
    · rintro rfl
      rw [hmade.decisionId] at hmem
      exact (nodup_cons.mp hnodup).1 hmem
    · exact h.saves.new decisionId (hahead.mem_iff.mpr (.tail _ hmem)) row hrow
  · intro lane' job' assessment' hsaving
    rw [htasks] at hsaving
    split_ifs at hsaving with hlane
    · cases hsaving
    · exact h.saves.made _ _ _ hsaving
  · intro lane' job' assessment' hregistering
    rw [htasks] at hregistering
    rw [hrows]
    split_ifs at hregistering with hlane
    · cases hregistering
      subst hlane
      refine ⟨hmade, .inl rfl, ?_⟩
      intro item hitem
      obtain ⟨row, hrow, hsame⟩ := (h.tracks.pending _ item hitem).row fun pass hpass saved hsaved =>
        ((h.passes pass hpass).saved saved hsaved).1
      rw [← hsame]
      exact hkey row hrow
    · obtain ⟨hmade', hrow, hitems⟩ := h.tracks.registering _ _ _ hregistering
      exact ⟨hmade', .inr hrow, hitems⟩
  · intro row hrow hunresolved
    rcases (hrows row).mp hrow with rfl | hrow
    · exact .inr ⟨lane, job, by rw [htasks, if_pos rfl]⟩
    · refine (h.tracks.tracked row hrow hunresolved).imp_right ?_
      rintro ⟨lane', job', hregistering⟩
      refine ⟨lane', job', ?_⟩
      rw [htasks, if_neg]
      · exact hregistering
      · rintro rfl
        rw [htask] at hregistering
        cases hregistering
  · intro mint item hitem
    have hpending := h.tracks.pending mint item hitem
    exact hpending.of_known (hpending.known.imp_left fun hrow => (hrows item).mpr (.inr hrow))
  · intro pass hpass
    obtain ⟨hkeys, hupdates, hsaved⟩ := h.passes pass hpass
    refine ⟨hkeys, ?_, ?_⟩
    · intro update hupdate
      obtain ⟨row, hitem, hrow, hresolves⟩ := hupdates update hupdate
      exact ⟨row, hitem, (hrows row).mpr (.inr hrow), hresolves⟩
    · intro saved hmem
      obtain ⟨hrow, hrest⟩ := hsaved saved hmem
      exact ⟨(hrows saved).mpr (.inr hrow), hrest⟩
  · rw [htasks]
    split_ifs with hlane
    · subst hlane
      rw [htask]
      rfl
    · rfl
  · intro resolution hresolution
    obtain ⟨hrow, hrest⟩ := h.settled.resolved resolution hresolution
    exact ⟨(hrows _).mpr (.inr hrow), hrest⟩
  · intro row hrow hresolved
    rcases (hrows row).mp hrow with rfl | hrow
    · exact absurd hmade.unresolved hresolved
    · exact h.settled.resolution row hrow hresolved

/-- What is left of a task that is over. -/
def finishedTask (lane : Lane) (job : Job) : Option Task :=
  match lane with
  | .shadow => some ⟨job, .releasing⟩
  | .guarded => none

theorem finishedTask_stage {job' : Job} (h : finishedTask lane job = some ⟨job', stage⟩) : stage = .releasing := by
  cases lane with
  | shadow =>
    cases h
    rfl
  | guarded => cases h

theorem finish_eq (lab : Lab) (lane : Lane) (job : Job) (stage : Stage) :
    lab.finish lane ⟨job, stage⟩ = { lab with task := Function.update lab.task lane (finishedTask lane job) } := by
  cases lane <;> rfl

theorem finishedTask_ahead (lane : Lane) (job : Job) : (finishedTask lane job).bind taskAhead = none := by
  cases lane <;> rfl

/-- **A saved assessment is registered.** -/
theorem Law.register (h : lab.Law context) (lane : Lane) : (lab.register lane).Law context := by
  unfold Lab.register
  split
  · next job assessment htask =>
    obtain ⟨hmade, hrow, hkeys⟩ := h.tracks.registering lane job assessment htask
    rw [finish_eq]
    set lab' : Lab :=
      { lab with
        pendingOutcomes := lab.pendingOutcomes.track assessment
        task := Function.update lab.task lane (finishedTask lane job) } with hlab'
    have htasks : ∀ lane', lab'.task lane' = if lane' = lane then finishedTask lane job else lab.task lane' := task_update lane _
    have hitems : ∀ mint, lab'.pendingOutcomes.items mint =
        if mint = assessment.mint then lab.pendingOutcomes.items mint ++ [assessment] else lab.pendingOutcomes.items mint := by
      intro mint
      have htrack : lab.pendingOutcomes.track assessment = lab.pendingOutcomes.append assessment :=
        if_pos ⟨hmade.unresolved, hmade.due, hkeys⟩
      show (lab.pendingOutcomes.track assessment).items mint = _
      rw [htrack, PendingOutcomes.items_append]
    have hmem : ∀ mint item, item ∈ lab'.pendingOutcomes.items mint ↔
        item ∈ lab.pendingOutcomes.items mint ∨ mint = assessment.mint ∧ item = assessment := by
      intro mint item
      rw [hitems]
      split_ifs with hmint <;> simp [hmint]
    refine ⟨h.saves.of_sublist (ahead_update_sublist ?_) rfl ?_, ⟨?_, ?_, ?_, ?_⟩, ?_, h.oneEach.of_same rfl rfl rfl ?_,
      ⟨h.settled.nodup, h.settled.resolved, h.settled.resolution⟩⟩
    · rw [finishedTask_ahead]
      exact nil_sublist _
    · intro lane' job' assessment' hsaving
      rw [htasks] at hsaving
      split_ifs at hsaving with hlane
      · cases finishedTask_stage hsaving
      · exact h.saves.made _ _ _ hsaving
    · intro lane' job' assessment' hregistering
      rw [htasks] at hregistering
      split_ifs at hregistering with hlane
      · cases finishedTask_stage hregistering
      · obtain ⟨hmade', hrow', hkeys'⟩ := h.tracks.registering _ _ _ hregistering
        refine ⟨hmade', hrow', ?_⟩
        intro item hitem
        rcases (hmem _ item).mp hitem with hitem | ⟨-, rfl⟩
        · exact hkeys' item hitem
        · intro hkey
          -- the two lanes do not save the same
          obtain rfl := lab.durable.eq_of_key hrow hrow' hkey
          have happlied := hmade.applied.symm.trans hmade'.applied
          cases lane <;> cases lane' <;> first | exact hlane rfl | cases happlied
    · intro row hrow' hunresolved
      rcases h.tracks.tracked row hrow' hunresolved with hitem | ⟨lane', job', hregistering⟩
      · exact .inl ((hmem _ row).mpr (.inl hitem))
      · by_cases hlane : lane' = lane
        · subst hlane
          rw [htask] at hregistering
          cases hregistering
          exact .inl ((hmem _ _).mpr (.inr ⟨rfl, rfl⟩))
        · exact .inr ⟨lane', job', by rw [htasks, if_neg hlane]; exact hregistering⟩
    · intro mint item hitem
      rcases (hmem mint item).mp hitem with hitem | ⟨rfl, rfl⟩
      · have hpending := h.tracks.pending mint item hitem
        exact hpending.of_known hpending.known
      · exact ⟨rfl, hmade.unresolved, hmade.due, hmade.unmeasured, .inl hrow⟩
    · intro mint
      rw [hitems]
      split_ifs with hmint
      · subst hmint
        rw [map_append, nodup_append]
        refine ⟨h.tracks.keys _, nodup_singleton _, ?_⟩
        intro key hkey key' hkey'
        obtain ⟨item, hitem, rfl⟩ := mem_map.mp hkey
        rw [mem_singleton.mp hkey']
        exact hkeys item hitem
      · exact h.tracks.keys mint
    · intro pass hpass
      obtain ⟨hnodup, hupdates, hsaved⟩ := h.passes pass hpass
      refine ⟨hnodup, ?_, hsaved⟩
      intro update hupdate
      obtain ⟨row, hitem, hrest⟩ := hupdates update hupdate
      exact ⟨row, (hmem _ row).mpr (.inl hitem), hrest⟩
    · rw [htasks]
      split_ifs with hlane
      · subst hlane
        rw [htask]
        rfl
      · rfl
  · exact h

theorem Law.commit (h : lab.Law context) (lane : Lane) (done : Bool) : (lab.commit lane done).Law context := by
  unfold Lab.commit
  split
  · next job assessment htask =>
    split
    · exact h.commits htask
    · exact h.finish htask rfl
  · exact h

/-! ### Passes -/

theorem Tracks.row_of_idle (h : lab.Tracks) (hidle : lab.pass = none) {item : Assessment}
    (hitem : item ∈ lab.pendingOutcomes.items mint) : item ∈ lab.durable := by
  rcases (h.pending mint item hitem).known with hrow | ⟨pass, hpass, -⟩
  · exact hrow
  · rw [hidle] at hpass
    cases hpass

theorem Law.beginPass (h : lab.Law context) {now : Instant} (hkeys : (updates.map Assessment.key).Nodup)
    (hupdates : ∀ update ∈ updates, ∃ item ∈ lab.pendingOutcomes.items update.mint,
      Resolves context now market item update) : (lab.beginPass now market updates).Law context := by
  unfold Lab.beginPass
  split
  · next update updates hidle =>
    set lab' : Lab := { lab with pass := some { now := now, market := market, updates := update :: updates } } with hlab'
    refine ⟨⟨h.saves.nodup, h.saves.new, h.saves.made⟩,
      ⟨h.tracks.registering, h.tracks.tracked, ?_, h.tracks.keys⟩, ?_, h.oneEach.of_same rfl rfl rfl rfl,
      ⟨h.settled.nodup, h.settled.resolved, h.settled.resolution⟩⟩
    · intro mint item hitem
      exact (h.tracks.pending mint item hitem).of_known (.inl (h.tracks.row_of_idle hidle hitem))
    · intro pass hpass
      obtain rfl := some_inj.mp hpass
      refine ⟨hkeys, ?_, ?_⟩
      · intro update' hupdate
        obtain ⟨item, hitem, hresolves⟩ := hupdates update' hupdate
        exact ⟨item, hitem, h.tracks.row_of_idle hidle hitem, hresolves⟩
      · intro saved hsaved
        cases hsaved
  · exact h

theorem nodup_filterMap {resolve : Assessment → Option Assessment} {items : List Assessment}
    (hkey : ∀ item ∈ items, ∀ update, resolve item = some update → update.key = item.key)
    (h : (items.map Assessment.key).Nodup) :
    ((items.filterMap resolve).map Assessment.key).Nodup := by
  induction items with
  | nil => exact nodup_nil
  | cons item items ih =>
    rw [map_cons, nodup_cons] at h
    obtain ⟨hitem, hitems⟩ := forall_mem_cons.mp hkey
    cases hresolve : resolve item with
    | none =>
      rw [filterMap_cons_none hresolve]
      exact ih hitems h.2
    | some update =>
      rw [filterMap_cons_some hresolve, map_cons, nodup_cons]
      refine ⟨?_, ih hitems h.2⟩
      intro hmem
      obtain ⟨other, hother, hsame⟩ := mem_map.mp hmem
      obtain ⟨item', hitem', hresolve'⟩ := mem_filterMap.mp hother
      apply h.1
      rw [← hitem update hresolve, ← hsame, hitems item' hitem' other hresolve']
      exact mem_map_of_mem hitem'

theorem Law.observe (h : lab.Law context) (state : TokenState) (now : Instant) :
    (lab.observeMarket context state now).Law context := by
  have hmints : ∀ item ∈ lab.pendingOutcomes.items state.mint, item.mint = state.mint := fun item hitem =>
    (h.tracks.pending _ item hitem).mint
  apply h.beginPass
  · exact nodup_filterMap (fun item hitem update hresolve => (resolves_observed (hmints item hitem) hresolve).key)
      (h.tracks.keys _)
  · intro update hupdate
    obtain ⟨item, hitem, hresolve⟩ := mem_filterMap.mp hupdate
    have hresolves := resolves_observed (hmints item hitem) hresolve
    have hmint := hresolves.mint.trans (hmints item hitem)
    exact ⟨item, by rw [hmint]; exact hitem, hresolves⟩

theorem items_of_row {row : PendingMint} (hrow : row ∈ lab.pendingOutcomes) :
    lab.pendingOutcomes.items row.mint = row.items := by
  unfold PendingOutcomes.items
  rw [Table.get?_eq_some.mpr ⟨hrow, rfl⟩]
  rfl

theorem Law.pending_nodup (h : lab.Law context) (hidle : lab.pass = none) :
    ((lab.pendingOutcomes.rows.flatMap PendingMint.items).map Assessment.key).Nodup := by
  rw [map_flatMap, nodup_flatMap]
  constructor
  · intro row hrow
    rw [← items_of_row hrow]
    exact h.tracks.keys row.mint
  · have hmints := lab.pendingOutcomes.nodup
    rw [Nodup, pairwise_map] at hmints
    refine hmints.imp_of_mem ?_
    intro row row' hrow hrow' hne key hkey hkey'
    obtain ⟨item, hitem, rfl⟩ := mem_map.mp hkey
    obtain ⟨item', hitem', hsame⟩ := mem_map.mp hkey'
    rw [← items_of_row hrow] at hitem
    rw [← items_of_row hrow'] at hitem'
    obtain rfl := lab.durable.eq_of_key (h.tracks.row_of_idle hidle hitem') (h.tracks.row_of_idle hidle hitem) hsame
    exact hne ((h.tracks.pending _ _ hitem).mint.symm.trans (h.tracks.pending _ _ hitem').mint)

theorem Law.expire (h : lab.Law context) (now : Instant) : (lab.expireOutcomes now).Law context := by
  by_cases hidle : lab.pass = none
  · apply h.beginPass
    · refine nodup_filterMap (fun item _ update hresolve => ?_) (h.pending_nodup hidle)
      have hresolves : Resolves context now none item update := resolves_expired hresolve
      exact hresolves.key
    · intro update hupdate
      obtain ⟨item, hitem, hresolve⟩ := mem_filterMap.mp hupdate
      obtain ⟨row, hrow, hitem⟩ := mem_flatMap.mp hitem
      rw [← items_of_row hrow] at hitem
      have hresolves : Resolves context now none item update := resolves_expired hresolve
      have hmint := hresolves.mint.trans (h.tracks.pending _ item hitem).mint
      exact ⟨item, by rw [hmint]; exact hitem, hresolves⟩
  · unfold Lab.expireOutcomes Lab.beginPass
    split
    · next hnone _ => exact absurd hnone hidle
    · exact h

theorem OneEach.of_fewer (h : lab.OneEach) (hmints : lab'.queuedMints = lab.queuedMints) (hqueue : lab'.queue = lab.queue)
    (htask : lab'.task = lab.task)
    (hrows : ∀ row ∈ lab'.durable, row.resolvedAt = none → row ∈ lab.durable) : lab'.OneEach := by
  have hbusy : lab'.busyMints = lab.busyMints := busyMints_congr hqueue (by rw [htask])
  constructor
  · intro mint
    rw [hmints, hbusy]
    exact h.mints mint
  · rw [hbusy]
    exact h.nodup
  · intro row hrow hunresolved happlied hmint
    rw [hbusy] at hmint
    rw [htask]
    exact h.quiet row (hrows row hrow hunresolved) hunresolved happlied hmint
  · intro a ha b hb hunresolveda hunresolvedb
    exact h.one a (hrows a ha hunresolveda) b (hrows b hb hunresolvedb) hunresolveda hunresolvedb

/-- **An outcome is saved**: of an assessment that is pending, and has none. -/
theorem Law.saves_outcome (h : lab.Law context) {now : Instant} {update : Assessment}
    (hpass : lab.pass = some ⟨now, market, update :: updates, none⟩) :
    Law context { lab with
      durable := lab.durable.upsert update
      pass := some ⟨now, market, updates, some update⟩
      resolutions := lab.resolutions ++ [⟨update, now, market⟩] } := by
  set lab' : Lab :=
    { lab with
      durable := lab.durable.upsert update
      pass := some ⟨now, market, updates, some update⟩
      resolutions := lab.resolutions ++ [⟨update, now, market⟩] } with hlab'
  obtain ⟨hnodup, hupdates, -⟩ := h.passes _ hpass
  rw [map_cons, nodup_cons] at hnodup
  obtain ⟨item, hitem, hrow, hresolves⟩ := hupdates update (.head _)
  have hpending := h.tracks.pending _ item hitem
  have hresolved : update.resolvedAt ≠ none := by
    rw [hresolves.resolvedAt]
    exact some_ne_none now
  have hrows : ∀ row, row ∈ lab'.durable ↔ row = update ∨ row ∈ lab.durable ∧ row.key ≠ update.key :=
    fun row => Table.mem_upsert
  have hunresolved : ∀ row ∈ lab'.durable, row.resolvedAt = none → row ∈ lab.durable := by
    intro row hmem hnone
    rcases (hrows row).mp hmem with rfl | hmem
    · exact absurd hnone hresolved
    · exact hmem.1
  have hidle : ∀ assessment, ¬ lab.Untracking assessment := by
    rintro assessment ⟨pass, hmem, saved, hsaved, -⟩
    rw [hpass] at hmem
    cases hmem
    cases hsaved
  -- no row of another key goes
  have hkept : ∀ row ∈ lab.durable, row.key ≠ update.key → row ∈ lab'.durable :=
    fun row hmem hne => (hrows row).mpr (.inr ⟨hmem, hne⟩)
  have hsame : ∀ row ∈ lab.durable, row.key = update.key → row = item :=
    fun row hmem hkey => lab.durable.eq_of_key hmem hrow (hkey.trans hresolves.key)
  refine ⟨⟨h.saves.nodup, ?_, h.saves.made⟩, ⟨?_, ?_, ?_, h.tracks.keys⟩, ?_, h.oneEach.of_fewer rfl rfl rfl hunresolved,
    ⟨?_, ?_, ?_⟩⟩
  · intro decisionId hmem row hrow'
    rcases (hrows row).mp hrow' with rfl | hold
    · have hdecision : row.decisionId = item.decisionId := congrArg Prod.fst hresolves.key
      rw [hdecision]
      exact h.saves.new decisionId hmem item hrow
    · exact h.saves.new decisionId hmem row hold.1
  · intro lane job assessment hregistering
    obtain ⟨hmade, hmem, hkeys⟩ := h.tracks.registering lane job assessment hregistering
    refine ⟨hmade, hkept assessment hmem ?_, hkeys⟩
    intro hkey
    obtain rfl := hsame assessment hmem hkey
    rw [← hpending.mint] at hitem
    exact hkeys _ hitem rfl
  · intro row hmem hnone
    exact h.tracks.tracked row (hunresolved row hmem hnone) hnone
  · intro mint other hother
    have hpending' := h.tracks.pending mint other hother
    refine hpending'.of_known ?_
    have hmem := hpending'.known.resolve_right (hidle other)
    by_cases hkey : other.key = update.key
    · obtain rfl := hsame other hmem hkey
      exact .inr ⟨_, rfl, update, rfl, hresolves.key, hresolves.mint⟩
    · exact .inl (hkept other hmem hkey)
  · intro pass hmem
    obtain rfl := some_inj.mp hmem
    refine ⟨hnodup.2, ?_, ?_⟩
    · intro update' hupdate
      obtain ⟨item', hitem', hrow', hresolves'⟩ := hupdates update' (.tail _ hupdate)
      refine ⟨item', hitem', hkept item' hrow' ?_, hresolves'⟩
      rw [← hresolves'.key]
      intro hkey
      exact hnodup.1 (hkey ▸ mem_map_of_mem hupdate)
    · intro saved hsaved
      obtain rfl := some_inj.mp hsaved
      refine ⟨(hrows _).mpr (.inl rfl), hresolved, ?_⟩
      intro update' hupdate hkey
      exact hnodup.1 (hkey ▸ mem_map_of_mem hupdate)
  · show ((lab.resolutions ++ [_]).map _).Nodup
    rw [map_append, nodup_append]
    refine ⟨h.settled.nodup, nodup_singleton _, ?_⟩
    intro key hkey key' hkey'
    obtain ⟨resolution, hresolution, rfl⟩ := mem_map.mp hkey
    rw [mem_singleton.mp hkey']
    intro hsamekey
    obtain ⟨hmem, hat, -⟩ := h.settled.resolved resolution hresolution
    have hitem' := hsame _ hmem hsamekey
    rw [hitem', hpending.unresolved] at hat
    cases hat
  · intro resolution hresolution
    rcases mem_append.mp hresolution with hold | hnew
    · obtain ⟨hmem, hat, htimely⟩ := h.settled.resolved resolution hold
      refine ⟨hkept _ hmem ?_, hat, htimely⟩
      intro hkey
      rw [hsame _ hmem hkey, hpending.unresolved] at hat
      cases hat
    · obtain rfl := mem_singleton.mp hnew
      exact ⟨(hrows _).mpr (.inl rfl), hresolves.resolvedAt, hresolves.timely hpending.unmeasured⟩
  · intro row hmem hsettled
    rcases (hrows row).mp hmem with rfl | hold
    · exact ⟨_, mem_append_right _ (.head _), rfl⟩
    · obtain ⟨resolution, hresolution, heq⟩ := h.settled.resolution row hold.1 hsettled
      exact ⟨resolution, mem_append_left _ hresolution, heq⟩

theorem Law.saveOutcome (h : lab.Law context) (done : Bool) : (lab.saveOutcome done).Law context := by
  unfold Lab.saveOutcome
  split
  · next now market update updates hpass =>
    split
    · exact h.saves_outcome hpass
    · refine ⟨⟨h.saves.nodup, h.saves.new, h.saves.made⟩, ⟨h.tracks.registering, h.tracks.tracked, ?_, h.tracks.keys⟩, ?_,
        h.oneEach.of_same rfl rfl rfl rfl, ⟨h.settled.nodup, h.settled.resolved, h.settled.resolution⟩⟩
      · intro mint item hitem
        have hpending := h.tracks.pending mint item hitem
        refine hpending.of_known (hpending.known.imp_right ?_)
        rintro ⟨pass, hmem, saved, hsaved, -⟩
        rw [hpass] at hmem
        cases hmem
        cases hsaved
      · intro pass hmem
        cases hmem
  · exact h

/-- **What was saved is taken out**, and nothing else. -/
theorem Law.untrack (h : lab.Law context) : lab.untrackOutcome.Law context := by
  unfold untrackOutcome
  split
  · next now market updates saved hpass =>
    obtain ⟨hnodup, hupdates, hsaved⟩ := h.passes _ hpass
    obtain ⟨hrow, hresolved, hothers⟩ := hsaved saved rfl
    set lab' : Lab :=
      { lab with
        pendingOutcomes := lab.pendingOutcomes.untrack saved
        pass := if updates.isEmpty then none else some ⟨now, market, updates, none⟩ } with hlab'
    have hitems : ∀ mint, lab'.pendingOutcomes.items mint =
        if mint = saved.mint then (lab.pendingOutcomes.items mint).filter fun item => item.key ≠ saved.key
        else lab.pendingOutcomes.items mint := PendingOutcomes.items_untrack _ _
    have hsub : ∀ mint, (lab'.pendingOutcomes.items mint).Sublist (lab.pendingOutcomes.items mint) := by
      intro mint
      rw [hitems]
      split_ifs
      · exact filter_sublist
      · exact Sublist.refl _
    have hkept : ∀ mint, ∀ item ∈ lab.pendingOutcomes.items mint, item.key ≠ saved.key →
        item ∈ lab'.pendingOutcomes.items mint := by
      intro mint item hitem hne
      rw [hitems]
      split_ifs
      · exact mem_filter.mpr ⟨hitem, decide_eq_true hne⟩
      · exact hitem
    refine ⟨⟨h.saves.nodup, h.saves.new, h.saves.made⟩, ⟨?_, ?_, ?_, ?_⟩, ?_, h.oneEach.of_same rfl rfl rfl rfl,
      ⟨h.settled.nodup, h.settled.resolved, h.settled.resolution⟩⟩
    · intro lane job assessment hregistering
      obtain ⟨hmade, hmem, hkeys⟩ := h.tracks.registering lane job assessment hregistering
      exact ⟨hmade, hmem, fun item hitem => hkeys item ((hsub _).subset hitem)⟩
    · intro row hmem hnone
      refine (h.tracks.tracked row hmem hnone).imp_left fun hitem => hkept _ row hitem ?_
      intro hkey
      rw [lab.durable.eq_of_key hmem hrow hkey] at hnone
      exact hresolved hnone
    · intro mint item hitem
      have hpending := h.tracks.pending mint item ((hsub mint).subset hitem)
      refine hpending.of_known (.inl ?_)
      rcases hpending.known with hmem | ⟨pass, hmem, saved', hsaved', hkey, hmint⟩
      · exact hmem
      · rw [hpass] at hmem
        cases hmem
        cases hsaved'
        rw [hitems, if_pos (hpending.mint.symm.trans hmint.symm), mem_filter] at hitem
        exact absurd hkey.symm (of_decide_eq_true hitem.2)
    · intro mint
      exact (h.tracks.keys mint).sublist ((hsub mint).map _)
    · intro pass hmem
      have hmem : (if updates.isEmpty then none else some (⟨now, market, updates, none⟩ : Pass)) = some pass := hmem
      split_ifs at hmem
      obtain rfl := some_inj.mp hmem
      refine ⟨hnodup, ?_, ?_⟩
      · intro update hupdate
        obtain ⟨item, hitem, hmem', hresolves⟩ := hupdates update hupdate
        refine ⟨item, hkept _ item hitem ?_, hmem', hresolves⟩
        rw [← hresolves.key]
        exact hothers update hupdate
      · intro saved' hsaved'
        cases hsaved'
  · exact h

/-! ### Restarts -/

theorem mem_loaded (hroom : (unresolved lab.durable).length ≤ loadLimit) (assessment : Assessment) :
    assessment ∈ unresolvedAiAssessments lab.durable loadLimit ↔
      assessment ∈ lab.durable ∧ assessment.resolvedAt = none := by
  unfold unresolvedAiAssessments
  rw [take_of_length_le (by rw [length_insertionSort]; exact hroom), mem_insertionSort, unresolved,
    mem_filter, decide_eq_true_eq]
  exact Iff.rfl

theorem Law.restart (h : lab.Law context) (hroom : (unresolved lab.durable).length ≤ loadLimit) :
    lab.restart.Law context := by
  have hitems : ∀ mint, lab.restart.pendingOutcomes.items mint =
      (unresolvedAiAssessments lab.durable loadLimit).filter fun assessment => assessment.mint = mint :=
    fun mint => PendingOutcomes.items_load mint _
  have hmem : ∀ mint item, item ∈ lab.restart.pendingOutcomes.items mint ↔
      (item ∈ lab.durable ∧ item.resolvedAt = none) ∧ item.mint = mint := by
    intro mint item
    rw [hitems, mem_filter, mem_loaded hroom, decide_eq_true_eq]
  refine ⟨⟨nodup_nil, ?_, ?_⟩, ⟨?_, ?_, ?_, ?_⟩, ?_, ⟨?_, nodup_nil, ?_, h.oneEach.one⟩,
    ⟨h.settled.nodup, h.settled.resolved, h.settled.resolution⟩⟩
  · intro decisionId hahead
    cases hahead
  · intro lane job assessment hsaving
    cases hsaving
  · intro lane job assessment hregistering
    cases hregistering
  · intro row hrow hnone
    exact .inl ((hmem _ row).mpr ⟨⟨hrow, hnone⟩, rfl⟩)
  · intro mint item hitem
    obtain ⟨⟨hrow, hnone⟩, hmint⟩ := (hmem mint item).mp hitem
    rcases h.tracks.tracked item hrow hnone with hpending | ⟨lane, job, hregistering⟩
    · have hpending := h.tracks.pending _ item hpending
      exact ⟨hmint, hnone, hpending.due, hpending.unmeasured, .inl hrow⟩
    · have hmade := (h.tracks.registering lane job item hregistering).1
      exact ⟨hmint, hnone, hmade.due, hmade.unmeasured, .inl hrow⟩
  · intro mint
    rw [hitems]
    have hrows : ((unresolved lab.durable).map Assessment.key).Nodup := lab.durable.nodup.sublist (filter_sublist.map _)
    have hsorted : (((unresolved lab.durable).insertionSort fun a b => a.createdAt ≤ b.createdAt).map Assessment.key).Nodup :=
      ((perm_insertionSort _ _).map _).nodup_iff.mpr hrows
    exact hsorted.sublist ((filter_sublist.trans (take_sublist _ _)).map _)
  · intro pass hpass
    cases hpass
  · intro mint
    exact Iff.rfl
  · intro row _ _ _ hbusy
    cases hbusy

/-! ### Runs -/

/-- An event keeps the law. -/
theorem law_step (h : lab.Law context) (event : Event) (hpromised : lab.Promised event) : (step context lab event).Law context := by
  cases event with
  | setMode mode qualified =>
    show (lab.setMode mode qualified).Law context
    unfold Lab.setMode
    split_ifs
    · exact h
    · exact h.setting mode lab.maintenancePaused
    · exact (h.setting mode lab.maintenancePaused).discard
  | demoted =>
    show lab.demote.Law context
    unfold demote
    split_ifs
    · exact h.setting .shadow lab.maintenancePaused
    · exact h
  | selectedModel =>
    show lab.discardQueuedShadow.demote.Law context
    unfold demote
    split_ifs
    · exact h.discard.setting .shadow lab.maintenancePaused
    · exact h.discard
  | removedModel => exact h.setting .off lab.maintenancePaused
  | paused => exact (h.setting lab.mode true).discard
  | resumed => exact h.setting lab.mode false
  | enqueued decision state => exact h.enqueue decision state hpromised
  | assessGuarded decision state qualified => exact h.assessGuarded decision state qualified hpromised
  | taken => exact h.take
  | waited now canRun => exact h.wait now canRun
  | inferred lane answer => exact h.infer lane answer
  | committed lane done => exact h.commit lane done
  | registered lane => exact h.register lane
  | cancelled lane => exact h.cancel lane
  | released => exact h.release
  | observed state now => exact h.observe state now
  | expired now => exact h.expire now
  | savedOutcome done => exact h.saveOutcome done
  | untracked => exact h.untrack
  | restarted => exact h.restart hpromised

/-- The lab that starts with no rows. -/
def start (mode : AiDecisionMode) : Lab where
  mode := mode

theorem law_start (mode : AiDecisionMode) : (start mode).Law context := by
  have hrows : ∀ row, row ∉ (start mode).durable := fun _ => Table.not_mem_empty
  have htask : ∀ lane task, (start mode).task lane ≠ some task := fun _ _ h => by cases h
  refine ⟨⟨nodup_nil, fun id hid => absurd hid not_mem_nil, fun lane _ _ h => absurd h (htask lane _)⟩,
    ⟨fun lane _ _ h => absurd h (htask lane _), fun row h => absurd h (hrows row), fun _ item h => absurd h not_mem_nil,
      fun _ => nodup_nil⟩, fun pass h => absurd h (not_mem_none _),
    ⟨fun _ => Iff.rfl, nodup_nil, fun row h => absurd h (hrows row), fun row h => absurd h (hrows row)⟩,
    ⟨nodup_nil, fun _ h => absurd h not_mem_nil, fun row h => absurd h (hrows row)⟩⟩

theorem finish_resolutions (lab : Lab) (lane : Lane) (task : Task) : (lab.finish lane task).resolutions = lab.resolutions := by
  cases lane <;> rfl

theorem beginPass_resolutions (lab : Lab) (now : Instant) (market : Option TokenState) (updates : List Assessment) :
    (lab.beginPass now market updates).resolutions = lab.resolutions := by
  unfold Lab.beginPass
  split <;> rfl

theorem step_resolutions (lab : Lab) (event : Event) : lab.resolutions <+: (step context lab event).resolutions := by
  cases event with
  | savedOutcome done =>
    simp only [step, Lab.saveOutcome]
    split
    · split
      · exact prefix_append _ _
      · exact prefix_refl _
    · exact prefix_refl _
  | setMode mode qualified =>
    simp only [step, Lab.setMode]
    split_ifs <;> exact prefix_refl _
  | demoted =>
    simp only [step, demote]
    split_ifs <;> exact prefix_refl _
  | selectedModel =>
    simp only [step, selectInstalledModel, demote]
    split_ifs <;> exact prefix_refl _
  | removedModel => exact prefix_refl _
  | paused => exact prefix_refl _
  | resumed => exact prefix_refl _
  | enqueued decision state =>
    simp only [step, enqueueShadow]
    split_ifs
    · exact prefix_refl _
    · exact prefix_refl _
    · split <;> exact prefix_refl _
    · split <;> exact prefix_refl _
  | assessGuarded decision state qualified =>
    simp only [step, Lab.assessGuarded]
    split_ifs
    · exact prefix_refl _
    · exact prefix_refl _
    · split <;> exact prefix_refl _
  | taken =>
    simp only [step, Lab.take]
    split <;> exact prefix_refl _
  | waited now canRun =>
    simp only [step, waitForShadowSlot]
    split
    · split_ifs <;> exact prefix_refl _
    · exact prefix_refl _
  | inferred lane answer =>
    simp only [step, Lab.infer]
    split
    · split
      · rw [finish_resolutions]
      · exact prefix_refl _
    · exact prefix_refl _
  | committed lane done =>
    simp only [step, Lab.commit]
    split
    · split
      · exact prefix_refl _
      · rw [finish_resolutions]
    · exact prefix_refl _
  | registered lane =>
    simp only [step, Lab.register]
    split
    · rw [finish_resolutions]
    · exact prefix_refl _
  | cancelled lane =>
    simp only [step, Lab.cancel]
    split
    · rw [finish_resolutions]
    · rw [finish_resolutions]
    · exact prefix_refl _
  | released =>
    simp only [step, Lab.release]
    split <;> exact prefix_refl _
  | observed state now =>
    simp only [step, Lab.observeMarket, beginPass_resolutions]
    exact prefix_refl _
  | expired now =>
    simp only [step, Lab.expireOutcomes, beginPass_resolutions]
    exact prefix_refl _
  | untracked =>
    simp only [step, untrackOutcome]
    split <;> exact prefix_refl _
  | restarted => exact prefix_refl _

theorem run_resolutions (lab : Lab) (events : List Event) :
    lab.resolutions <+: (Runs.run (step context) lab events).resolutions := by
  induction events generalizing lab with
  | nil => exact prefix_refl _
  | cons event events ih => exact (step_resolutions lab event).trans (ih _)

/-! ### What is not due -/

/-- **Where nothing is due, a market that is seen changes nothing.** -/
theorem observeMarket_not_due (lab : Lab) (state : TokenState) (now : Instant)
    (h : lab.hasDueOutcome state.mint now = false) : lab.observeMarket context state now = lab := by
  have hnothing : (lab.pendingOutcomes.items state.mint).filterMap (Assessment.observed context state now) = [] := by
    rw [filterMap_eq_nil_iff]
    intro item hitem
    dsimp only [hasDueOutcome] at h
    have hsome : (lab.pendingOutcomes.items state.mint).isEmpty = false := by
      rw [isEmpty_eq_false_iff]
      exact ne_nil_of_mem hitem
    rw [hsome, if_neg (by decide)] at h
    split_ifs at h
    have hdue := any_eq_false.mp h item hitem
    unfold Assessment.observed
    cases hat : item.outcomeDueAt with
    | none => rfl
    | some due =>
      rw [hat] at hdue
      dsimp only
      rw [if_pos]
      simpa using hdue
  unfold Lab.observeMarket
  rw [hnothing]
  unfold Lab.beginPass
  split
  · next hnone => cases hnone
  · rfl

/-! ### A pass that is left alone -/

/-- So many outcomes are saved and taken out. -/
def rounds (n : ℕ) : List Event := (replicate n [Event.savedOutcome true, Event.untracked]).flatten

theorem rounds_durable {now : Instant} (hnodup : (updates.map Assessment.key).Nodup) {row : Assessment}
    (hrow : row ∈ updates ∨ row ∈ lab.durable ∧ ∀ update ∈ updates, row.key ≠ update.key)
    (hpass : lab.pass = if updates.isEmpty then none else some ⟨now, market, updates, none⟩) :
    row ∈ (Runs.run (step context) lab (rounds updates.length)).durable := by
  induction updates generalizing lab with
  | nil =>
    rcases hrow with hnone | ⟨hrow, -⟩
    · cases hnone
    · exact hrow
  | cons update updates ih =>
    rw [map_cons, nodup_cons] at hnodup
    have hpass : lab.pass = some ⟨now, market, update :: updates, none⟩ := hpass
    set lab' : Lab :=
      { lab with
        durable := lab.durable.upsert update
        pass := if updates.isEmpty then none else some ⟨now, market, updates, none⟩
        resolutions := lab.resolutions ++ [⟨update, now, market⟩]
        pendingOutcomes := lab.pendingOutcomes.untrack update } with hlab'
    have hround : (step context (step context lab (.savedOutcome true)) .untracked) = lab' := by
      simp only [step, Lab.saveOutcome, hpass, if_true, untrackOutcome, hlab']
    show row ∈ (Runs.run (step context) (step context (step context lab (.savedOutcome true)) .untracked)
      (rounds updates.length)).durable
    rw [hround]
    refine ih hnodup.2 ?_ rfl
    rcases hrow with hmem | ⟨hrow, hne⟩
    · rcases mem_cons.mp hmem with rfl | hmem
      · refine .inr ⟨Table.mem_upsert.mpr (.inl rfl), ?_⟩
        intro update' hupdate hkey
        exact hnodup.1 (hkey ▸ mem_map_of_mem hupdate)
      · exact .inl hmem
    · exact .inr ⟨Table.mem_upsert.mpr (.inr ⟨hrow, hne update (.head _)⟩), fun update' hupdate => hne update' (.tail _ hupdate)⟩

/-- **The clock settles what is overdue.** -/
theorem Law.settles (h : lab.Law context) (hidle : lab.pass = none)
    (hpending : assessment ∈ lab.pendingOutcomes.items mint) {due now : Instant} (hdue : assessment.outcomeDueAt = some due)
    (hover : due + seconds outcomeGraceSeconds < now) :
    ∃ n, ∃ row ∈ (Runs.run (step context) lab (.expired now :: rounds n)).durable,
      row.key = assessment.key ∧ row.resolvedAt = some now := by
  set updates := (lab.pendingOutcomes.rows.flatMap PendingMint.items).filterMap (Assessment.expired now) with hupdates
  have hexpired : assessment.expired now = some (assessment.missing now "no_fresh_trade_near_horizon") := by
    unfold Assessment.expired
    rw [hdue]
    exact if_neg (not_le.mpr hover)
  have hmem : assessment.missing now "no_fresh_trade_near_horizon" ∈ updates := by
    refine mem_filterMap.mpr ⟨assessment, mem_flatMap.mpr ?_, hexpired⟩
    unfold PendingOutcomes.items at hpending
    cases hrow : lab.pendingOutcomes.get? mint with
    | none =>
      rw [hrow] at hpending
      cases hpending
    | some row =>
      rw [hrow] at hpending
      exact ⟨row, (Table.get?_eq_some.mp hrow).1, hpending⟩
  have hnodup : (updates.map Assessment.key).Nodup := by
    refine nodup_filterMap (fun item _ update hresolve => ?_) (h.pending_nodup hidle)
    have hresolves : Resolves context now none item update := resolves_expired hresolve
    exact hresolves.key
  have hbegun : step context lab (.expired now) = { lab with
      pass := if updates.isEmpty then none else some ⟨now, none, updates, none⟩ } := by
    simp only [step, Lab.expireOutcomes, ← hupdates, Lab.beginPass, hidle]
    cases hlist : updates with
    | nil =>
      rw [hlist] at hmem
      cases hmem
    | cons update updates => rfl
  refine ⟨updates.length, assessment.missing now "no_fresh_trade_near_horizon", ?_, rfl, rfl⟩
  rw [Runs.run_cons, hbegun]
  exact rounds_durable hnodup (.inl hmem) rfl

/-- **Every assessment that is saved gets exactly one outcome.** In every run: what is saved and unresolved is pending, unless
it is just being registered; what is resolved was resolved once, in time, and stays as it is; of a mint the worker has one
assessment at a time; where nothing is due, a market that is seen changes nothing; and the clock settles what is overdue. -/
theorem one_outcome (context : Context) (mode : AiDecisionMode) (events later : List Event)
    (hpromised : Runs.Along (step context) Promised (start mode) (events ++ later)) :
    let lab := Runs.run (step context) (start mode) events;
    let end_ := Runs.run (step context) (start mode) (events ++ later);
    (∀ assessment ∈ lab.durable, assessment.resolvedAt = none →
      assessment ∈ lab.pendingOutcomes.items assessment.mint ∨ lab.Registering assessment) ∧
    (∀ assessment ∈ lab.durable, assessment.resolvedAt ≠ none →
      ∃ resolution ∈ lab.resolutions, resolution.assessment = assessment) ∧
    (lab.resolutions.map fun resolution => resolution.assessment.key).Nodup ∧
    (∀ resolution ∈ lab.resolutions, resolution ∈ end_.resolutions ∧ resolution.assessment ∈ end_.durable ∧
      resolution.assessment.resolvedAt = some resolution.now ∧
      Timely context resolution.now resolution.market resolution.assessment) ∧
    lab.busyMints.Nodup ∧
    (∀ a ∈ lab.durable, a.resolvedAt = none → a.applied = false →
      (∀ b ∈ lab.durable, b.resolvedAt = none → b.applied = false → a.mint = b.mint → a = b) ∧
      (a.mint ∈ lab.busyMints → ∃ task, lab.task .shadow = some task ∧ task.decision.decisionId = a.decisionId)) ∧
    (∀ state now, lab.hasDueOutcome state.mint now = false → lab.observeMarket context state now = lab) ∧
    (lab.pass = none → ∀ mint, ∀ assessment ∈ lab.pendingOutcomes.items mint, ∀ due ∈ assessment.outcomeDueAt, ∀ now,
      due + seconds outcomeGraceSeconds < now →
        ∃ n, ∃ row ∈ (Runs.run (step context) lab (.expired now :: rounds n)).durable,
          row.key = assessment.key ∧ row.resolvedAt = some now) := by
  intro lab end_
  have hkeeps : ∀ lab event, Law context lab → lab.Promised event → (step context lab event).Law context :=
    fun _ event h hpromised => law_step h event hpromised
  have hlaw : lab.Law context := (Runs.along_append.mp hpromised).1.invariant (law_start mode) hkeeps
  have hend : end_.Law context := hpromised.invariant (law_start mode) hkeeps
  have hprefix : lab.resolutions <+: end_.resolutions := by
    show _ <+: (Runs.run (step context) (start mode) (events ++ later)).resolutions
    rw [Runs.run_append]
    exact run_resolutions lab later
  refine ⟨hlaw.tracks.tracked, hlaw.settled.resolution, hlaw.settled.nodup, ?_, hlaw.oneEach.nodup, ?_, ?_, ?_⟩
  · intro resolution hresolution
    have hmem := hprefix.subset hresolution
    exact ⟨hmem, hend.settled.resolved resolution hmem⟩
  · intro a ha hnone happlied
    refine ⟨fun b hb hnone' happlied' hmint => hlaw.oneEach.one a ha b hb hnone hnone' happlied happlied' hmint, ?_⟩
    intro hbusy
    obtain ⟨task, htask, hdecision, -⟩ := hlaw.oneEach.quiet a ha hnone happlied hbusy
    exact ⟨task, htask, hdecision⟩
  · exact fun state now hnone => observeMarket_not_due lab state now hnone
  · intro hidle mint assessment hpending due hdue now hover
    exact hlaw.settles hidle hpending hdue hover

/-! ### A small run -/

def sampleContext : Context where
  staleMarketSeconds := 30
  networkFeeLamports := 5000
  priorityFeeLamports := 25000
  pumpFeeBps := 125
  configurationFingerprint := some "configuration"

def sampleEntry : Entry where
  toDecision := Challenger.cleanEntry
  decisionId := "decision"

def sampleMarket : TokenState where
  mint := "mint"
  virtualTokenReserves := 1000000000000000
  virtualQuoteReserves := 30000000000
  realTokenReserves := 800000000000000
  feeBps := 100
  lastReserveAt := some 300000001

def sampleEvents : List Event :=
  [.enqueued sampleEntry sampleMarket, .taken, .waited 2 true,
    .inferred .shadow (some ⟨"qwen3.5:2b", "324d162be6ca", 3, 28000, some (some ⟨.veto, .high, ["danger"], ["liquidity"]⟩, 900)⟩),
    .setMode .off true, .committed .shadow true, .registered .shadow, .released, .observed sampleMarket 300000001,
    .savedOutcome true, .untracked]

/-- A veto of shadow mode, and its one outcome. -/
theorem one_outcome_sample :
    let lab := Runs.run (step sampleContext) (start .shadow) sampleEvents;
    (lab.resolutions.map fun resolution => (resolution.assessment.resolvedAt, resolution.assessment.outcomeNetReturn.isSome)) =
        [(some 300000001, true)] ∧
      (lab.resolutions.map fun resolution => resolution.assessment.key).Nodup := by
  intro lab
  refine ⟨by decide +kernel, (one_outcome sampleContext .shadow sampleEvents [.restarted] ?_).2.2.1⟩
  refine ⟨⟨?_, ?_⟩, trivial, trivial, trivial, trivial, trivial, trivial, trivial, trivial, trivial, trivial, ?_, trivial⟩
  · rintro (⟨job, hjob, -⟩ | ⟨lane, task, htask, -⟩)
    · cases hjob
    · cases htask
  · intro assessment hassessment
    cases hassessment
  · show (unresolved (Runs.run (step sampleContext) (start .shadow) sampleEvents).durable).length ≤ loadLimit
    decide +kernel

end Lab

end SignalArcade.Ai.Outcomes
