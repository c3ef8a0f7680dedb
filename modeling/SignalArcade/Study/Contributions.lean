import SignalArcade.Study.Enrolment

/-!
# The contributions of the Coach

The Coach keeps its latest hypotheses in memory, beside the database. Three calls change them: the
refresh evaluates what is being tested, `ready_contribution` selects what may be contributed, and
`mark_contribution` writes down what became of it. A call writes a hypothesis into the database
only in place of the record it started from, and then into memory.
-/

namespace SignalArcade.Study

open Paper (Instant RiskMode)
open Challenger (SkillVersions)
open Runs Selection

/-! ### Calls -/

/-- What a swap is for. -/
inductive Caller where
  /-- `_refresh_hypotheses`, with what it has still to evaluate. -/
  | refresh (now : Instant) (rest : List CoachHypothesis) (cursor : Option Position)
  | once
  deriving DecidableEq

/-- How far a thread has come in its call. -/
inductive Call where
  | idle
  /-- `_refresh_hypotheses` has read the memory. -/
  | refreshWork (now : Instant) (pending : List CoachHypothesis)
  | refreshing (now : Instant) (rest : List CoachHypothesis) (cursor : Option Position)
  /-- `save_coach_hypothesis_if_current` is next. -/
  | swap (caller : Caller) (expected updated : CoachHypothesis) (contributionCursor : Option String)
  /-- `coach_hypothesis` is next, for the swap has failed. -/
  | reread (caller : Caller) (expected : CoachHypothesis)
  /-- `_remember_hypothesis` is next. -/
  | remember (caller : Caller) (updated : CoachHypothesis) (expected : Option CoachHypothesis)
  deriving DecidableEq

/-- What comes after a swap. -/
def Caller.next : Caller → Call
  | .refresh now rest cursor => .refreshing now rest cursor
  | .once => .idle

/-- The context that contributions are selected for. -/
structure Context where
  riskMode : RiskMode
  configurationFingerprint : String
  baselineVersion : String
  featureSchemaVersion : String
  dependencyVersions : SkillVersions

/-- The Coach, its database and the threads that call it. -/
structure Coach where
  /-- `coach_hypotheses`. -/
  durable : Table String CoachHypothesis fun hypothesis => hypothesis.hypothesisId
  /-- `coach_contribution_cursor`. -/
  contributionCursor : String := ""
  /-- `self.hypotheses`. -/
  hypotheses : List CoachHypothesis
  /-- `self._work_cursor`. -/
  workCursor : Option Position := none
  threads : ℕ → Call := fun _ => .idle

/-- A step of the Coach or of the learner. -/
inductive Step where
  /-- `_refresh_hypotheses` reads the memory. -/
  | refresh (now : Instant)
  | workPage
  /-- The next hypothesis is evaluated, with a page of its evidence if that can be read. -/
  | evaluate (page : Option PolicyPage)
  /-- `AdvisoryReadDeferred` is raised. -/
  | defer
  | swap
  | reread
  | remember
  /-- `ready_contribution` reads the database. -/
  | ready (context : Context)
  /-- `mark_contribution` reads the memory. -/
  | mark (hypothesisId : String) (state : ContributionState) (artifactVersion : Option String) (now : Instant)

/-! ### What the steps do -/

/-- The place of a hypothesis in the order of the work pages. -/
def CoachHypothesis.place (hypothesis : CoachHypothesis) : Position := toLex (hypothesis.createdAt, hypothesis.hypothesisId)

def CoachHypothesis.refreshed (hypothesis : CoachHypothesis) (page : Option PolicyPage) (now : Instant) : CoachHypothesis :=
  if hypothesis.evidence.state ≠ .testing then hypothesis
  else match hypothesis.evidenceContract, page with
    | .discovery, _ => hypothesis.inconclusive now "evidence_contract_changed"
    | .policy, some page => hypothesis.evaluatePolicyHypothesis page now
    | .policy, none => hypothesis.inconclusive now "policy_evidence_unreadable"

def CoachHypothesis.marked (hypothesis : CoachHypothesis) (state : ContributionState) (artifactVersion : Option String)
    (now : Instant) : CoachHypothesis :=
  { hypothesis with
    updatedAt := now
    evidence := { hypothesis.evidence with contributionState := state }
    contributedArtifactVersion := artifactVersion }

/-- `_remember_hypothesis`, what is in memory after it. -/
def remembered (hypotheses : List CoachHypothesis) (updated : CoachHypothesis) (expected : Option CoachHypothesis) :
    List CoachHypothesis :=
  let current := hypotheses.find? fun item => item.hypothesisId = updated.hypothesisId
  if expected.any fun expected => current.any fun current => current ≠ expected then hypotheses
  else (updated :: hypotheses.filter fun item => item.hypothesisId ≠ updated.hypothesisId).take 100

/-- Whether a hypothesis waits to be contributed. -/
def ContributionState.pending : ContributionState → Bool
  | .ready | .waitingForChampion => true
  | .researchOnly | .handedOff | .stale => false

def ContributionState.final : ContributionState → Bool
  | .handedOff | .stale => true
  | .researchOnly | .ready | .waitingForChampion => false

def Context.fits (context : Context) (hypothesis : CoachHypothesis) : Bool :=
  hypothesis.riskMode = context.riskMode && hypothesis.configurationFingerprint = context.configurationFingerprint &&
    hypothesis.baselineVersion = context.baselineVersion &&
    hypothesis.featureSchemaVersion = context.featureSchemaVersion &&
    hypothesis.dependencyVersions = context.dependencyVersions

namespace Coach

variable (s : Coach)

def copy (hypothesisId : String) : Option CoachHypothesis :=
  s.hypotheses.find? fun item => item.hypothesisId = hypothesisId

/-- A thread has come further. -/
def goes (thread : ℕ) (call : Call) : Coach := { s with threads := Function.update s.threads thread call }

/-- `coach_work_page`, of 25 hypotheses. -/
def workPage : List CoachHypothesis × Option Position :=
  let rows := ((s.durable.rows.filter fun row =>
    row.evidence.state = .testing && s.workCursor.all fun after => after < row.place).insertionSort fun row row' =>
      row.place ≤ row'.place).take 25
  (rows, if rows.length = 25 then rows.getLast?.map CoachHypothesis.place else none)

/-- The order in which contributions are selected: new ones first, and those that wait in turns. -/
def contributionKey (hypothesis : CoachHypothesis) : Bool ×ₗ Bool ×ₗ String :=
  toLex (decide (hypothesis.evidence.contributionState ≠ .ready),
    toLex (!decide (s.contributionCursor < hypothesis.hypothesisId), hypothesis.hypothesisId))

/-- The first of `coach_context_hypotheses`. -/
def candidate (context : Context) : Option CoachHypothesis :=
  best (fun row row' => s.contributionKey row < s.contributionKey row') (s.durable.rows.filter fun row =>
    row.evidence.state = .promising && row.evidence.contributionState.pending && context.fits row)

/-- `mark_contribution`, until it writes. -/
def mark (thread : ℕ) (hypothesisId : String) (state : ContributionState) (artifactVersion : Option String)
    (now : Instant) : Coach :=
  match s.copy hypothesisId with
  | none => s
  | some hypothesis =>
    if state = .researchOnly ∨ state = .ready ∨ hypothesis.evidence.state ≠ .promising ∨
        hypothesis.evidence.contributionState.final = true then s
    else s.goes thread (.swap .once hypothesis (hypothesis.marked state artifactVersion now)
      (if state = .waitingForChampion then some hypothesisId else none))

/-- `save_coach_hypothesis_if_current`. -/
def swap (thread : ℕ) (caller : Caller) (expected updated : CoachHypothesis) (contributionCursor : Option String) : Coach :=
  if s.durable.get? expected.hypothesisId = some expected then
    ({ s with
      durable := s.durable.upsert updated
      contributionCursor := contributionCursor.getD s.contributionCursor }).goes thread
        (.remember caller updated (some expected))
  else s.goes thread (.reread caller expected)

/-- One step of a thread. A step that is not its next one does nothing. -/
def step (s : Coach) : ℕ × Step → Coach
  | (thread, step) =>
    match s.threads thread, step with
    | .idle, .refresh now => s.goes thread (.refreshWork now s.hypotheses)
    | .refreshWork now pending, .workPage =>
      s.goes thread (.refreshing now (firstPer (fun item => item.hypothesisId) (pending ++ s.workPage.1)) s.workPage.2)
    | .refreshing _ [] cursor, .evaluate _ => ({ s with workCursor := cursor }).goes thread .idle
    | .refreshing now (hypothesis :: rest) cursor, .evaluate page =>
      let updated := hypothesis.refreshed page now
      s.goes thread (if updated = hypothesis then .refreshing now rest cursor
        else .swap (.refresh now rest cursor) hypothesis updated none)
    | .refreshing _ _ _, .defer => s.goes thread .idle
    | .swap caller expected updated contributionCursor, .swap => s.swap thread caller expected updated contributionCursor
    | .reread caller expected, .reread =>
      s.goes thread (match s.durable.get? expected.hypothesisId with
        | none => caller.next
        | some current => .remember caller current (some expected))
    | .remember caller updated expected, .remember =>
      ({ s with hypotheses := remembered s.hypotheses updated expected }).goes thread caller.next
    | .idle, .ready context =>
      match s.candidate context with
      | none => s
      | some selected => s.goes thread (.remember .once selected none)
    | .idle, .mark hypothesisId state artifactVersion now => s.mark thread hypothesisId state artifactVersion now
    | _, _ => s

end Coach

/-! ### Moving forward -/

/-- How far a contribution has come. -/
def ContributionState.rank : ContributionState → ℕ
  | .researchOnly => 0
  | .ready => 1
  | .waitingForChampion => 2
  | .handedOff => 3
  | .stale => 4

/-- A contribution comes further, unless it is decided. -/
def ContributionState.Forward (state state' : ContributionState) : Prop :=
  state' = state ∨ (state.final = false ∧ state.rank < state'.rank)

/-- A later record of a hypothesis: its contribution has only come further, and what was decided of it stays. -/
structure CoachHypothesis.Forward (h h' : CoachHypothesis) : Prop where
  terms : h'.toTerms = h.toTerms
  contribution : h.evidence.contributionState.Forward h'.evidence.contributionState
  decided : h.evidence.state ≠ .testing → h'.evidence.state = h.evidence.state ∧
    h'.collection.forwardEnrollments = h.collection.forwardEnrollments

variable {hypothesis h h' h'' expected updated : CoachHypothesis} {state : ContributionState}

theorem ContributionState.Forward.trans {a b c : ContributionState} (hab : a.Forward b) (hbc : b.Forward c) :
    a.Forward c := by
  rcases hab with rfl | ⟨hopen, hlt⟩
  · exact hbc
  · rcases hbc with rfl | ⟨-, hlt'⟩
    · exact .inr ⟨hopen, hlt⟩
    · exact .inr ⟨hopen, hlt.trans hlt'⟩

theorem ContributionState.Forward.handedOff {a b : ContributionState} (h : a.Forward b) (ha : a = .handedOff) :
    b = .handedOff := by
  rcases h with rfl | ⟨hopen, -⟩
  · exact ha
  · rw [ha] at hopen
    cases hopen

theorem CoachHypothesis.Forward.refl (h : CoachHypothesis) : h.Forward h := ⟨rfl, .inl rfl, fun _ => ⟨rfl, rfl⟩⟩

theorem CoachHypothesis.Forward.trans (hh : h.Forward h') (hh' : h'.Forward h'') : h.Forward h'' := by
  refine ⟨hh'.terms.trans hh.terms, hh.contribution.trans hh'.contribution, fun hdecided => ?_⟩
  obtain ⟨hstate, henrolled⟩ := hh.decided hdecided
  obtain ⟨hstate', henrolled'⟩ := hh'.decided (hstate ▸ hdecided)
  exact ⟨hstate'.trans hstate, henrolled'.trans henrolled⟩

theorem contributionAfter_forward (hypothesis : CoachHypothesis) (state : Challenger.CoachExperimentState) :
    hypothesis.evidence.contributionState.Forward (hypothesis.contributionAfter state) := by
  unfold CoachHypothesis.contributionAfter
  split_ifs with hready
  · rw [hready.2.2.2]
    exact .inr ⟨rfl, by decide⟩
  · exact .inl rfl

theorem evaluatePolicyHypothesis_forward (page : PolicyPage) (now : Instant) :
    hypothesis.Forward (hypothesis.evaluatePolicyHypothesis page now) := by
  rcases evaluatePolicyHypothesis_cases hypothesis page now with hsame | ⟨htesting, hgap⟩ | hevaluated
  · rw [hsame]
    exact .refl hypothesis
  · rw [hgap]
    exact ⟨rfl, .inl rfl, fun hdecided => absurd htesting hdecided⟩
  · refine ⟨hevaluated.terms, ?_, fun hdecided => absurd hevaluated.testing hdecided⟩
    rw [hevaluated.evidence]
    exact contributionAfter_forward hypothesis _

theorem refreshed_forward (page : Option PolicyPage) (now : Instant) : hypothesis.Forward (hypothesis.refreshed page now) := by
  unfold CoachHypothesis.refreshed
  split_ifs with htesting
  · exact .refl hypothesis
  · have hgiven : ∀ reason, hypothesis.Forward (hypothesis.inconclusive now reason) := fun reason =>
      ⟨rfl, .inl rfl, fun hdecided => absurd hdecided htesting⟩
    split
    · exact hgiven _
    · exact evaluatePolicyHypothesis_forward _ _
    · exact hgiven _

theorem marked_forward (hopen : hypothesis.evidence.contributionState.final = false) (hnew : state ≠ .researchOnly)
    (hready : state ≠ .ready) (artifactVersion : Option String) (now : Instant) :
    hypothesis.Forward (hypothesis.marked state artifactVersion now) := by
  refine ⟨rfl, ?_, fun _ => ⟨rfl, rfl⟩⟩
  show hypothesis.evidence.contributionState.Forward state
  unfold ContributionState.Forward
  generalize hypothesis.evidence.contributionState = current at hopen ⊢
  cases current <;> cases state <;> simp_all [ContributionState.final, ContributionState.rank]

/-! ### What a step does -/

namespace Coach

variable {s t : Coach} {thread : ℕ} {next : Step} {expected updated : CoachHypothesis}

/-- What a thread is to write is a later record of what it has read. -/
def Sound (s : Coach) : Prop :=
  ∀ thread caller expected updated cursor, s.threads thread = .swap caller expected updated cursor →
    expected.Forward updated

/-- A thread comes further, and the database stays as it is. -/
structure Moves (s t : Coach) (thread : ℕ) : Prop where
  durable : t.durable = s.durable
  others : ∀ other, other ≠ thread → t.threads other = s.threads other
  /-- A record that it is to write is a later one. -/
  swap : ∀ caller expected updated cursor, t.threads thread = .swap caller expected updated cursor →
    s.threads thread = .swap caller expected updated cursor ∨ expected.Forward updated

/-- A thread writes a record in place of the one it has read. -/
structure Writes (s t : Coach) (thread : ℕ) (caller : Caller) (expected updated : CoachHypothesis) : Prop where
  durable : t.durable = s.durable.upsert updated
  current : s.durable.get? expected.hypothesisId = some expected
  others : ∀ other, other ≠ thread → t.threads other = s.threads other
  call : t.threads thread = .remember caller updated (some expected)

theorem Moves.refl (s : Coach) (thread : ℕ) : s.Moves s thread := ⟨rfl, fun _ _ => rfl, fun _ _ _ _ h => .inl h⟩

theorem moves_goes {call : Call} (hdurable : t.durable = s.durable) (hthreads : t.threads = s.threads)
    (hcall : ∀ caller expected updated cursor, call = .swap caller expected updated cursor → expected.Forward updated) :
    s.Moves (t.goes thread call) thread := by
  refine ⟨hdurable, fun other hother => ?_, fun caller expected updated cursor hswap => ?_⟩
  · exact (Function.update_of_ne hother _ _).trans (congrFun hthreads other)
  · have hself : (t.goes thread call).threads thread = call := Function.update_self _ _ _
    exact .inr (hcall caller expected updated cursor (hself.symm.trans hswap))

/-- **Every step** leaves the database alone, or swaps a record. -/
theorem step_cases (s : Coach) (thread : ℕ) (next : Step) :
    s.Moves (s.step (thread, next)) thread ∨
      ∃ caller expected updated cursor, s.threads thread = .swap caller expected updated cursor ∧
        s.Writes (s.step (thread, next)) thread caller expected updated := by
  unfold step
  dsimp only
  split
  · exact .inl (moves_goes rfl rfl fun _ _ _ _ h => by cases h)
  · exact .inl (moves_goes rfl rfl fun _ _ _ _ h => by cases h)
  · exact .inl (moves_goes rfl rfl fun _ _ _ _ h => by cases h)
  · refine .inl (moves_goes rfl rfl fun _ _ _ _ h => ?_)
    split_ifs at h
    cases h
    exact refreshed_forward _ _
  · exact .inl (moves_goes rfl rfl fun _ _ _ _ h => by cases h)
  · next caller expected updated cursor hcall =>
    unfold Coach.swap
    by_cases hcurrent : s.durable.get? expected.hypothesisId = some expected
    · rw [if_pos hcurrent]
      refine .inr ⟨caller, expected, updated, cursor, hcall, ?_⟩
      exact ⟨rfl, hcurrent, fun other hother => Function.update_of_ne hother _ _, Function.update_self _ _ _⟩
    · rw [if_neg hcurrent]
      exact .inl (moves_goes rfl rfl fun _ _ _ _ h => by cases h)
  · next caller expected hcall =>
    refine .inl (moves_goes rfl rfl fun _ _ _ _ h => ?_)
    split at h
    · cases caller <;> cases h
    · cases h
  · next caller updated expected hcall =>
    exact .inl (moves_goes rfl rfl fun _ _ _ _ h => by cases caller <;> cases h)
  · split
    · exact .inl (.refl s thread)
    · exact .inl (moves_goes rfl rfl fun _ _ _ _ h => by cases h)
  · next hypothesisId state artifactVersion now hcall =>
    unfold Coach.mark
    split
    · exact .inl (.refl s thread)
    · next hypothesis hcopy =>
      by_cases hguard : state = .researchOnly ∨ state = .ready ∨ hypothesis.evidence.state ≠ .promising ∨
          hypothesis.evidence.contributionState.final = true
      · rw [if_pos hguard]
        exact .inl (.refl s thread)
      · rw [if_neg hguard]
        refine .inl (moves_goes rfl rfl fun _ _ _ _ h => ?_)
        cases h
        simp only [not_or, Bool.not_eq_true] at hguard
        exact marked_forward hguard.2.2.2 hguard.1 hguard.2.1 artifactVersion now
  · exact .inl (.refl s thread)

/-- What is durable only moves forward. -/
def Later (s t : Coach) : Prop :=
  ∀ hypothesisId hypothesis, s.durable.get? hypothesisId = some hypothesis →
    ∃ later, t.durable.get? hypothesisId = some later ∧ hypothesis.Forward later

theorem Later.refl (s : Coach) : s.Later s := fun _ hypothesis h => ⟨hypothesis, h, .refl hypothesis⟩

theorem Later.trans {u : Coach} (h : s.Later t) (h' : t.Later u) : s.Later u := by
  intro hypothesisId hypothesis hfound
  obtain ⟨later, hlater, hforward⟩ := h hypothesisId hypothesis hfound
  obtain ⟨last, hlast, hforward'⟩ := h' hypothesisId later hlater
  exact ⟨last, hlast, hforward.trans hforward'⟩

theorem Writes.later {caller : Caller}
    (h : s.Writes t thread caller expected updated) (hforward : expected.Forward updated) : s.Later t := by
  intro hypothesisId hypothesis hfound
  have hid : updated.hypothesisId = expected.hypothesisId := congrArg Terms.hypothesisId hforward.terms
  rw [h.durable, Table.get?_upsert]
  split_ifs with hkey
  · have hsame : some hypothesis = some expected := by
      rw [← hfound, hkey, hid, h.current]
    cases hsame
    exact ⟨updated, rfl, hforward⟩
  · exact ⟨hypothesis, hfound, .refl hypothesis⟩

theorem Sound.step (h : s.Sound) (action : ℕ × Step) : (s.step action).Sound ∧ s.Later (s.step action) := by
  obtain ⟨thread, next⟩ := action
  rcases step_cases s thread next with hmoves | ⟨caller, expected, updated, cursor, hcall, hwrites⟩
  · constructor
    · intro other caller expected updated cursor hswap
      by_cases hother : other = thread
      · subst hother
        rcases hmoves.swap caller expected updated cursor hswap with hold | hforward
        · exact h other caller expected updated cursor hold
        · exact hforward
      · rw [hmoves.others other hother] at hswap
        exact h other caller expected updated cursor hswap
    · intro hypothesisId hypothesis hfound
      rw [hmoves.durable]
      exact ⟨hypothesis, hfound, .refl hypothesis⟩
  · constructor
    · intro other caller' expected' updated' cursor' hswap
      by_cases hother : other = thread
      · subst hother
        rw [hwrites.call] at hswap
        cases hswap
      · rw [hwrites.others other hother] at hswap
        exact h other caller' expected' updated' cursor' hswap
    · exact hwrites.later (h thread caller expected updated cursor hcall)

theorem Sound.later (h : s.Sound) (actions : List (ℕ × Step)) :
    (run Coach.step s actions).Sound ∧ s.Later (run Coach.step s actions) :=
  run_invariant (I := fun t => t.Sound ∧ s.Later t) ⟨h, .refl s⟩ fun _ action ht =>
    ⟨(ht.1.step action).1, ht.2.trans (ht.1.step action).2⟩

/-! ### Handoffs -/

/-- The hypothesis is saved as handed off. -/
def HandedOff (s : Coach) (hypothesisId : String) : Prop :=
  ∃ hypothesis, s.durable.get? hypothesisId = some hypothesis ∧ hypothesis.evidence.contributionState = .handedOff

/-- A call that has read the memory is still to write. -/
def Swapping (s : Coach) (thread : ℕ) : Prop :=
  ∃ caller expected updated cursor, s.threads thread = .swap caller expected updated cursor

/-- When the thread comes to write, a record is the durable one. -/
def CurrentAtSwap (s : Coach) (thread : ℕ) (later : List (ℕ × Step)) (hypothesisId : String)
    (expected : Option CoachHypothesis) : Prop :=
  ∀ before, before ++ [(thread, .swap)] <+: later → (run Coach.step s before).Swapping thread →
    (run Coach.step s before).durable.get? hypothesisId = expected

variable {hypothesisId : String}

theorem HandedOff.later (h : s.HandedOff hypothesisId) (hlater : s.Later t) :
    t.HandedOff hypothesisId := by
  obtain ⟨hypothesis, hfound, hhandedOff⟩ := h
  obtain ⟨later, hlater', hforward⟩ := hlater hypothesisId hypothesis hfound
  exact ⟨later, hlater', hforward.contribution.handedOff hhandedOff⟩

theorem threads_step_of_ne (s : Coach) (thread other : ℕ) (next : Step) (hne : thread ≠ other) :
    (s.step (other, next)).threads thread = s.threads thread := by
  rcases step_cases s other next with hmoves | ⟨caller, expected, updated, cursor, -, hwrites⟩
  · exact hmoves.others thread hne
  · exact hwrites.others thread hne

theorem step_of_swapping {caller : Caller} {cursor : Option String} (next : Step)
    (hcall : s.threads thread = .swap caller expected updated cursor) :
    s.step (thread, next) = s ∨
      (next = .swap ∧ s.step (thread, next) = s.swap thread caller expected updated cursor) := by
  unfold step
  cases next with
  | swap => exact .inr ⟨rfl, by simp only [hcall]⟩
  | _ => exact .inl (by simp only [hcall])

theorem handedOff_of_swapping {caller : Caller} {cursor : Option String} {later : List (ℕ × Step)} (h : s.Sound)
    (hcall : s.threads thread = .swap caller expected updated cursor) (hid : expected.hypothesisId = hypothesisId)
    (hupdated : updated.evidence.contributionState = .handedOff)
    (hcurrent : s.CurrentAtSwap thread later hypothesisId (some expected))
    (hreturned : (run Coach.step s later).threads thread = .idle) : (run Coach.step s later).HandedOff hypothesisId := by
  induction later generalizing s with
  | nil =>
    rw [run_nil, hcall] at hreturned
    cases hreturned
  | cons action later ih =>
    rw [run_cons] at hreturned ⊢
    have hcurrent' : (s.step action).CurrentAtSwap thread later hypothesisId (some expected) :=
      fun before hbefore => hcurrent (action :: before) ((List.prefix_cons_inj action).mpr hbefore)
    obtain ⟨other, next⟩ := action
    by_cases hother : thread = other
    · subst hother
      rcases step_of_swapping next hcall with hsame | ⟨rfl, hswap⟩
      · rw [hsame] at hreturned hcurrent' ⊢
        exact ih h hcall hcurrent' hreturned
      · have hdurable : s.durable.get? hypothesisId = some expected :=
          hcurrent [] ⟨later, rfl⟩ ⟨caller, expected, updated, cursor, hcall⟩
        have hkey : updated.hypothesisId = hypothesisId :=
          (congrArg Terms.hypothesisId (h thread caller expected updated cursor hcall).terms).trans hid
        have hwritten : (s.step (thread, .swap)).HandedOff hypothesisId := by
          refine ⟨updated, ?_, hupdated⟩
          rw [hswap]
          unfold Coach.swap
          rw [hid, if_pos hdurable]
          show (s.durable.upsert updated).get? hypothesisId = some updated
          rw [Table.get?_upsert, if_pos hkey.symm]
        exact hwritten.later ((h.step (thread, .swap)).1.later later).2
    · exact ih (h.step (other, next)).1 ((threads_step_of_ne s thread other next hother).trans hcall) hcurrent' hreturned

/-- What holds of a handoff that a thread begins in a state. -/
def Hands (s : Coach) (thread : ℕ) (hypothesisId : String) (artifactVersion : Option String) (now : Instant)
    (later : List (ℕ × Step)) : Prop :=
  let began := s.step (thread, .mark hypothesisId .handedOff artifactVersion now)
  s.durable.get? hypothesisId = s.copy hypothesisId →
    began.CurrentAtSwap thread later hypothesisId (s.copy hypothesisId) →
    (run Coach.step began later).threads thread = .idle → (run Coach.step began later).HandedOff hypothesisId

/-- What a promising hypothesis is marked as. -/
theorem Sound.hands (h : s.Sound) (hidle : s.threads thread = .idle) {hypothesis : CoachHypothesis}
    (hfound : s.durable.get? hypothesisId = some hypothesis) (hpromising : hypothesis.evidence.state = .promising)
    (hstale : hypothesis.evidence.contributionState ≠ .stale) (artifactVersion : Option String) (now : Instant)
    (later : List (ℕ × Step)) : s.Hands thread hypothesisId artifactVersion now later := by
  unfold Hands
  intro began hcopy hcurrent hreturned
  have hbegan : began = s.mark thread hypothesisId .handedOff artifactVersion now := by
    show s.step (thread, .mark hypothesisId .handedOff artifactVersion now) = _
    unfold Coach.step
    simp only [hidle]
  rw [hfound] at hcopy
  rw [← hcopy] at hcurrent
  have hlater := (h.step (thread, .mark hypothesisId .handedOff artifactVersion now))
  cases hfinal : hypothesis.evidence.contributionState.final with
  | true =>
    -- it is handed off already
    have hhanded : hypothesis.evidence.contributionState = .handedOff := by
      revert hfinal hstale
      cases hypothesis.evidence.contributionState <;> simp [ContributionState.final]
    have hdone : s.HandedOff hypothesisId := ⟨hypothesis, hfound, hhanded⟩
    exact (hdone.later hlater.2).later (hlater.1.later later).2
  | false =>
    have hcall : began.threads thread =
        .swap .once hypothesis (hypothesis.marked .handedOff artifactVersion now) none := by
      rw [hbegan]
      unfold Coach.mark
      rw [← hcopy]
      simp [hpromising, hfinal, goes]
    exact handedOff_of_swapping hlater.1 hcall (Table.get?_eq_some.mp hfound).2 rfl hcurrent hreturned

end Coach

/-- **No update of the Coach is lost.** In every interleaving of refreshes, selections and marks, a durable hypothesis
only moves forward, and once it is not tested any more its state and its enrolments stay as they are. Where what a
handoff reads of the memory is the durable record, then and when it writes, it is durable when its call returns. -/
theorem contribution_law (durable : Table String CoachHypothesis fun hypothesis => hypothesis.hypothesisId)
    (contributionCursor : String) (hypotheses : List CoachHypothesis) (workCursor : Option Position)
    (actions : List (ℕ × Step)) :
    let s := run Coach.step { durable, contributionCursor, hypotheses, workCursor } actions;
    (∀ later, s.Later (run Coach.step s later)) ∧
      ∀ thread hypothesisId hypothesis artifactVersion now later, s.threads thread = .idle →
        s.durable.get? hypothesisId = some hypothesis → hypothesis.evidence.state = .promising →
        hypothesis.evidence.contributionState ≠ .stale → s.Hands thread hypothesisId artifactVersion now later := by
  intro s
  have hstart : Coach.Sound { durable, contributionCursor, hypotheses, workCursor } :=
    fun _ _ _ _ _ hcall => by cases hcall
  have hsound : s.Sound := (hstart.later actions).1
  refine ⟨fun later => (hsound.later later).2, ?_⟩
  intro thread hypothesisId hypothesis artifactVersion now later hidle hfound hpromising hstale
  exact hsound.hands hidle hfound hpromising hstale artifactVersion now later

/-! ### A handoff that is lost -/

def readyHypothesis : CoachHypothesis where
  hypothesisId := "hypothesis"
  createdAt := 0
  cutoffAt := 0
  kind := .entryVeto
  riskMode := .balanced
  configurationFingerprint := "configuration"
  baselineVersion := "baseline-v1.5"
  featureSchemaVersion := Challenger.featureSchemaVersion
  dependencyVersions := .empty
  updatedAt := 0
  evidence := { state := .promising, contributionState := .ready }

/-- The steps of a handoff after its read of the memory. -/
def promptHandoff : List (ℕ × Step) := [(1, .swap), (1, .remember)]

/-- A handoff of a hypothesis whose copy in memory is the durable record. -/
theorem handoff_kept :
    (run Coach.step (Coach.step ⟨Table.empty.upsert readyHypothesis, "", [readyHypothesis], none, fun _ => .idle⟩
      (1, .mark "hypothesis" .handedOff (some "artifact") 2)) promptHandoff).HandedOff "hypothesis" := by
  refine (contribution_law (Table.empty.upsert readyHypothesis) "" [readyHypothesis] none []).2 1 "hypothesis"
    readyHypothesis (some "artifact") 2 promptHandoff rfl (by decide +kernel) rfl (by decide) (by decide +kernel) ?_
    (by decide +kernel)
  intro before hbefore _
  cases before with
  | nil => decide +kernel
  | cons action before =>
    -- the call swaps once
    obtain ⟨-, hrest⟩ := List.cons_prefix_cons.mp hbefore
    cases before with
    | nil => simp at hrest
    | cons action before => simpa using hrest.length_le

def readyContext : Context := ⟨.balanced, "configuration", "baseline-v1.5", Challenger.featureSchemaVersion, .empty⟩

def readyCoach : Coach where
  durable := Table.empty.upsert readyHypothesis
  hypotheses := [readyHypothesis]

/-- A thread selects the hypothesis; another finds that it has to wait; and only then the first remembers it. -/
def lateSelection : List (ℕ × Step) :=
  [(1, .ready readyContext), (2, .mark "hypothesis" .waitingForChampion none 1), (2, .swap), (2, .remember), (1, .remember)]

/-- The first thread hands it off. -/
def handoff : List (ℕ × Step) := [(1, .mark "hypothesis" .handedOff (some "artifact") 2), (1, .swap), (1, .reread), (1, .remember)]

/-- **A handoff is lost** when what it reads of the memory is older than the durable record: that is promising and not
stale throughout the call, and still waits when the call returns. -/
theorem handoff_lost :
    let s := run Coach.step readyCoach lateSelection;
    let t := run Coach.step s handoff;
    s.threads 1 = .idle ∧ t.threads 1 = .idle ∧
      (∀ before, before <+: handoff → ∃ hypothesis, (run Coach.step s before).durable.get? "hypothesis" = some hypothesis ∧
        hypothesis.evidence.state = .promising ∧ hypothesis.evidence.contributionState = .waitingForChampion) ∧
      ¬ t.HandedOff "hypothesis" := by
  have hwaits : ∀ n ≤ 4, (run Coach.step (run Coach.step readyCoach lateSelection) (handoff.take n)).durable.get?
      "hypothesis" = some (readyHypothesis.marked .waitingForChampion none 1) := by
    decide +kernel
  refine ⟨by decide +kernel, by decide +kernel, fun before hbefore => ?_, ?_⟩
  · have hlength : before.length ≤ 4 := hbefore.length_le
    rw [List.prefix_iff_eq_take.mp hbefore]
    exact ⟨_, hwaits before.length hlength, rfl, rfl⟩
  · rintro ⟨hypothesis, hfound, hhanded⟩
    have hlast := hwaits 4 le_rfl
    rw [show handoff.take 4 = handoff from rfl, hfound] at hlast
    cases hlast
    cases hhanded

end SignalArcade.Study
