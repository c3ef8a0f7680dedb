import SignalArcade.Market.ReserveProof

/-!
# The order of reserve snapshots

A refresh of a curve or a pool, or a snapshot of the watchdog, is accepted or rejected as a whole, and an
accepted one is of a later slot than the reserves known before.
-/

namespace SignalArcade.Market.Features

open Runs Checked
open Features.TokenState

variable {s : TokenState}

/-! ### What is read -/

/-- The reserves of a curve. -/
structure Reserves where
  virtualToken : ℤ
  virtualQuote : ℤ
  realToken : ℤ
  realQuote : Option ℤ
  deriving DecidableEq

def TokenState.reserves (s : TokenState) : Reserves :=
  ⟨s.virtualTokenReserves, s.virtualQuoteReserves, s.realTokenReserves, s.realQuoteReserves⟩

def RouteReading.reserves (reading : RouteReading) : Reserves :=
  ⟨reading.virtualTokenReserves, reading.virtualQuoteReserves, reading.realTokenReserves, some reading.realQuoteReserves⟩

/-- The slot a write that reads accounts has read them at. -/
def Action.slot? : Action → Option ℤ
  | .refreshCurve _ _ slot _ _ => some slot
  | .refreshPool read => some read.slot
  | .watchdog _ result _ _ => some result.slot
  | .event _ | .confirmRoute .. => none

/-- The reserves an accepted write has read, all of them at its slot. A curve may be read without its real quote,
and the one known before stays. -/
def TokenState.Installs (s s' : TokenState) : Action → Prop
  | .refreshCurve _ values _ _ _ => s'.reserves = ⟨number values ["virtual_token_reserves"], curveVirtualQuote values,
      number values ["real_token_reserves"], (curveRealQuote? values).or s.realQuoteReserves⟩
  | .refreshPool read =>
    s'.reserves = ⟨read.baseAmount, max 1 (read.quoteAmount + read.virtualQuoteReserves), read.baseAmount, some read.quoteAmount⟩
  | .watchdog original result _ _ => ∃ accounts globalValues reading, result.accounts = some accounts ∧
      accounts.globalValues = .ok globalValues ∧ readRoute original accounts globalValues = .ok reading ∧
      s'.reserves = reading.reserves
  | .event _ | .confirmRoute .. => True

/-- The time of the state's reserves is not after the observation of a snapshot. It is not when the snapshot was made
from the state as it is. -/
def TokenState.Current (s : TokenState) : Action → Prop
  | .watchdog original _ _ observedAt =>
    s.lastReserveAt = original.lastReserveAt ∨ ∀ known ∈ s.lastReserveAt, known ≤ observedAt
  | _ => True

/-- What a write that reads accounts does. -/
structure TokenState.Orderly (s : TokenState) (a : Action) : Prop where
  later : ∀ slot ∈ a.slot?, (s.write a).1 = true → (s.step a).lastReserveSlot = slot ∧ s.lastSlot ≤ slot ∧
    s.lastReserveSlot ≤ slot ∧ (0 < s.lastReserveSlot → s.lastReserveSlot < slot)
  time : ∀ slot ∈ a.slot?, (s.write a).1 = true → s.Current a →
    ∀ known ∈ s.lastReserveAt, ∃ now ∈ (s.step a).lastReserveAt, known ≤ now
  installs : ∀ slot ∈ a.slot?, (s.write a).1 = true → s.Installs (s.step a) a
  rejected : (s.write a).1 = false → s.step a = s

theorem le_latest (at_ : ℤ) {seen : Option ℤ} {known : ℤ} (h : known ∈ seen) : known ≤ latest at_ seen := by
  rw [Option.mem_def] at h
  rw [h]
  exact le_max_right _ _

theorem orderly_of_rejected {a : Action} (hwrite : s.write a = (false, s)) : s.Orderly a := by
  have hnot : (s.write a).1 ≠ true := by simp [hwrite]
  exact ⟨fun _ _ haccepted => absurd haccepted hnot, fun _ _ haccepted => absurd haccepted hnot,
    fun _ _ haccepted => absurd haccepted hnot, fun _ => congrArg Prod.snd hwrite⟩

theorem orderly_of_accepted {a : Action} {s' : TokenState} (hwrite : s.write a = (true, s'))
    (hlater : ∀ slot ∈ a.slot?, s'.lastReserveSlot = slot ∧ s.lastSlot ≤ slot ∧
      s.lastReserveSlot ≤ slot ∧ (0 < s.lastReserveSlot → s.lastReserveSlot < slot))
    (htime : s.Current a → ∀ known ∈ s.lastReserveAt, ∃ now ∈ s'.lastReserveAt, known ≤ now)
    (hinstalls : s.Installs s' a) : s.Orderly a := by
  have hstep : s.step a = s' := congrArg Prod.snd hwrite
  refine ⟨fun slot hslot _ => ?_, fun _ _ _ => ?_, fun _ _ _ => ?_, fun hrejected => ?_⟩
  · rw [hstep]
    exact hlater slot hslot
  · rw [hstep]
    exact htime
  · rw [hstep]
    exact hinstalls
  · rw [hwrite] at hrejected
    cases hrejected

/-! ### Refreshes -/

theorem not_outdated {slot : ℤ} (h : ¬ s.outdated slot = true) :
    s.lastSlot ≤ slot ∧ s.lastReserveSlot ≤ slot ∧ (0 < s.lastReserveSlot → s.lastReserveSlot < slot) := by
  have hslot : s.outdated slot = false := by simpa using h
  have hmax := hslot
  unfold outdated at hmax
  rw [decide_eq_false_iff_not, not_or, not_lt] at hmax
  exact ⟨(le_max_left _ _).trans hmax.1, (le_max_right _ _).trans hmax.1, slot_of_not_outdated hslot⟩

theorem orderly_refreshCurve (curveAddress : String) (values : Payload) (slot at_ : ℤ) (observationId : String) :
    s.Orderly (.refreshCurve curveAddress values slot at_ observationId) := by
  by_cases htakes : s.takesCurve curveAddress values slot observationId = true
  · obtain ⟨-, -, -, -, hslot, -⟩ := of_decide_eq_true htakes
    refine orderly_of_accepted (if_pos htakes) ?_ ?_ ?_
    · intro slot' hslot'
      obtain rfl := Option.some.inj hslot'
      exact ⟨rfl, not_outdated hslot⟩
    · intro _ known hknown
      exact ⟨_, rfl, le_latest at_ hknown⟩
    · rfl
  · exact orderly_of_rejected (if_neg htakes)

theorem orderly_refreshPool (read : PoolRead) : s.Orderly (.refreshPool read) := by
  by_cases htakes : s.takesPool read = true
  · obtain ⟨-, -, -, -, -, -, hslot, -⟩ := of_decide_eq_true htakes
    refine orderly_of_accepted (if_pos htakes) ?_ ?_ ?_
    · intro slot' hslot'
      obtain rfl := Option.some.inj hslot'
      exact ⟨rfl, not_outdated hslot⟩
    · intro _ known hknown
      exact ⟨_, rfl, le_latest read.at_ hknown⟩
    · rfl
  · exact orderly_of_rejected (if_neg htakes)

/-! ### Snapshots -/

theorem validatedLearningState_reads {original snapshot : TokenState} {result : RpcResult} {requestedAt observedAt : ℤ}
    {allowEmpty : Bool} (h : validatedLearningState original result requestedAt observedAt allowEmpty = .ok snapshot) :
    snapshot.lastReserveSlot = result.slot ∧ snapshot.lastReserveAt = some observedAt ∧
      (∀ known ∈ original.lastReserveAt, known ≤ observedAt) ∧
      ∃ accounts globalValues reading, result.accounts = some accounts ∧ accounts.globalValues = .ok globalValues ∧
        readRoute original accounts globalValues = .ok reading ∧ snapshot.reserves = reading.reserves := by
  simp only [validatedLearningState, bind_eq_ok, raiseIf_eq_ok, pure_eq_ok] at h
  obtain ⟨_, htime, accounts, haccounts, _, -, mintSupply, -, _, -, feeConfig, -, globalValues, hglobal, reading, hreading,
    _, -, _, -, schedule, -, _, -, rfl⟩ := h
  refine ⟨rfl, rfl, ?_, accounts, globalValues, reading, ?_, hglobal, hreading, rfl⟩
  · intro known hknown
    rw [Option.mem_def] at hknown
    simp only [not_or, seenAfter, hknown, Option.any_some, Bool.or_eq_true, decide_eq_true_eq] at htime
    exact not_lt.mp htime.2.2.2.2
  · unfold RpcResult.required at haccounts
    split at haccounts
    · cases haccounts
    · rename_i hsome
      cases haccounts
      exact hsome

theorem orderly_watchdog (original : TokenState) (result : RpcResult) (requestedAt observedAt : ℤ) :
    s.Orderly (.watchdog original result requestedAt observedAt) := by
  cases hsnapshot : validatedLearningState original result requestedAt observedAt true with
  | error e =>
    apply orderly_of_rejected
    simp only [write, watchdog, hsnapshot]
  | ok snapshot =>
    have hwrite : s.write (.watchdog original result requestedAt observedAt) =
        s.applyValidatedWatchdogSnapshot snapshot := by
      simp only [write, watchdog, hsnapshot]
    obtain ⟨hslot, hat, hcopy, hread⟩ := validatedLearningState_reads hsnapshot
    by_cases htakes : s.takesSnapshot snapshot = true
    · obtain ⟨-, -, -, -, -, -, hevents, hreserves, -⟩ := of_decide_eq_true htakes
      refine orderly_of_accepted (hwrite.trans (if_pos htakes)) ?_ ?_ ?_
      · intro slot' hslot'
        obtain rfl := Option.some.inj hslot'
        rw [hslot] at hevents hreserves
        exact ⟨hslot, hevents, hreserves.le, fun _ => hreserves⟩
      · intro hcurrent known hknown
        refine ⟨observedAt, hat, ?_⟩
        rcases hcurrent with hcurrent | hcurrent
        · exact hcopy known (hcurrent ▸ hknown)
        · exact hcurrent known hknown
      · exact hread
    · exact orderly_of_rejected (hwrite.trans (if_neg htakes))

/-- **One write.** -/
theorem orderly (s : TokenState) (a : Action) : s.Orderly a := by
  cases a with
  | event event =>
    exact ⟨fun _ h => absurd h (by simp [Action.slot?]), fun _ h => absurd h (by simp [Action.slot?]),
      fun _ h => absurd h (by simp [Action.slot?]), fun h => absurd h (by simp [write])⟩
  | confirmRoute poolAddress quoteMint baseAccount quoteAccount =>
    refine ⟨fun _ h => absurd h (by simp [Action.slot?]), fun _ h => absurd h (by simp [Action.slot?]),
      fun _ h => absurd h (by simp [Action.slot?]), fun h => ?_⟩
    unfold step
    simp only [write, confirmPumpswapRoute] at h ⊢
    split_ifs at h ⊢
    rfl
  | refreshCurve curveAddress values slot at_ observationId => exact orderly_refreshCurve _ _ _ _ _
  | refreshPool read => exact orderly_refreshPool read
  | watchdog original result requestedAt observedAt => exact orderly_watchdog _ _ _ _

/-! ### Runs -/

/-- The slot of the events and that of the reserves. -/
def TokenState.slots (s : TokenState) : ℤ × ℤ := (s.lastSlot, s.lastReserveSlot)

variable {event : MarketEvent}

theorem takePool_slots : (s.takePool event).slots = s.slots := by
  unfold takePool
  split
  · rfl
  · split_ifs <;> rfl

theorem takeFees_slots : (s.takeFees event).slots = s.slots := by
  unfold takeFees
  split_ifs <;> rfl

theorem takePoolReserves_slots : (s.takePoolReserves event).slots = s.slots := rfl

theorem takeCurveReserves_slots : (s.takeCurveReserves event).slots = s.slots := rfl

theorem takeRealTokens_slots : (s.takeRealTokens event).slots = s.slots := rfl

theorem takeInitial_slots : s.takeInitial.slots = s.slots := by
  unfold takeInitial
  split_ifs <;> rfl

theorem le_stamp_slots {effectiveAt : ℤ} : s.slots ≤ (s.stamp event effectiveAt).slots := by
  unfold stamp
  split_ifs
  · exact ⟨le_rfl, le_max_left _ _⟩
  · exact le_rfl

theorem le_takeRoute_slots {effectiveAt : ℤ} : s.slots ≤ (s.takeRoute event effectiveAt).slots := by
  unfold takeRoute
  split_ifs
  · refine le_trans (le_of_eq ?_) le_stamp_slots
    rw [takeInitial_slots, takeRealTokens_slots, takeFees_slots, takePoolReserves_slots, takePool_slots]
  · exact takeInitial_slots.symm.le
  · refine le_trans (le_of_eq ?_) le_stamp_slots
    rw [takeInitial_slots, takeRealTokens_slots, takeCurveReserves_slots, takeFees_slots]

theorem takeKind_slots : (s.takeKind event).slots = s.slots := rfl

theorem le_applyEvent_slots : s.slots ≤ (s.applyEvent event).slots := by
  have hobserve : s.slots ≤ (s.observe event).slots := ⟨le_max_left _ _, le_rfl⟩
  unfold applyEvent apply
  dsimp only
  split_ifs
  · exact le_rfl
  · exact hobserve
  · exact (hobserve.trans takeKind_slots.ge).trans le_takeRoute_slots

/-- No slot goes back. -/
theorem le_step_slots (s : TokenState) (a : Action) : s.slots ≤ (s.step a).slots := by
  have horderly := orderly s a
  by_cases haccepted : (s.write a).1 = true
  · cases a with
    | event event => exact le_applyEvent_slots
    | confirmRoute poolAddress quoteMint baseAccount quoteAccount =>
      unfold step write confirmPumpswapRoute
      dsimp only
      split_ifs <;> exact le_rfl
    | refreshCurve curveAddress values slot at_ observationId =>
      have hlastSlot : (s.step (.refreshCurve curveAddress values slot at_ observationId)).lastSlot = s.lastSlot := by
        unfold step write refreshPumpCurve
        dsimp only
        split_ifs <;> rfl
      obtain ⟨hslot, -, hle, -⟩ := horderly.later slot rfl haccepted
      exact ⟨hlastSlot.symm.le, hle.trans hslot.symm.le⟩
    | refreshPool read =>
      have hlastSlot : (s.step (.refreshPool read)).lastSlot = s.lastSlot := by
        unfold step write refreshPumpswapReserves
        dsimp only
        split_ifs <;> rfl
      obtain ⟨hslot, -, hle, -⟩ := horderly.later read.slot rfl haccepted
      exact ⟨hlastSlot.symm.le, hle.trans hslot.symm.le⟩
    | watchdog original result requestedAt observedAt =>
      have hlastSlot : (s.step (.watchdog original result requestedAt observedAt)).lastSlot = s.lastSlot := by
        unfold step write watchdog applyValidatedWatchdogSnapshot
        dsimp only
        split
        · rfl
        · split_ifs <;> rfl
      obtain ⟨hslot, -, hle, -⟩ := horderly.later result.slot rfl haccepted
      exact ⟨hlastSlot.symm.le, hle.trans hslot.symm.le⟩
  · rw [horderly.rejected (by simpa using haccepted)]

/-- **Reserve snapshots are in order**, in every run of a token, and slots never decrease. -/
theorem snapshots_in_order (start : TokenState) (actions : List Action) :
    Along step TokenState.Orderly start actions ∧
      start.lastSlot ≤ (run step start actions).lastSlot ∧
      start.lastReserveSlot ≤ (run step start actions).lastReserveSlot := by
  constructor
  · exact along_iff.mpr fun before a _ _ => orderly _ a
  · exact run_invariant (I := fun s => start.slots ≤ s.slots) le_rfl fun s a hs => hs.trans (le_step_slots s a)

/-! ### A copy that is outdated -/

/-- An event at slot 5 that brings reserves, three seconds in. -/
def reservesLater : Action :=
  .event { eventId := "e", source := "pump", kind := .trade, slot := some 5, receivedAt := 3000000
           payload := [("virtual_token_reserves", .int 9), ("virtual_sol_reserves", .int 9),
             ("real_sol_reserves", .int 4)] }

/-- **A snapshot of an outdated copy moves the time of the reserves back**: the event came after the observation. A
curve that is read without its real quote keeps that of an earlier slot. -/
theorem copy_outdated :
    (let s := step sampleCurve reservesLater;
      s.lastReserveAt = some 3000000 ∧ (s.write sampleSnapshot).1 = true ∧
        (s.step sampleSnapshot).lastReserveAt = some 1000000) ∧
    (let s := step sampleCurve reservesLater;
      (s.write sampleRefresh).1 = true ∧ (s.step sampleRefresh).reserves = ⟨7, 7, 0, some 4⟩) := by
  decide +kernel

end SignalArcade.Market.Features
