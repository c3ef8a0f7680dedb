import SignalArcade.Market.ReserveRefresh

/-!
# What is recorded with the reserves of a token

The fee rate, its components and the proof of a token are written together by a snapshot of the watchdog, and an
event that brings reserves drops the components and the proof. An event without reserves drops nothing, and
neither does a refresh of a curve or a pool.
-/

namespace SignalArcade.Market.Features

open Paper Runs Checked

variable {s s' : TokenState} {event : MarketEvent}

/-! ### What describes a state -/

namespace TokenState

/-- What is attached to the reserves of a state is about them. -/
structure Described (s : TokenState) : Prop where
  components : ∀ parts ∈ s.reserveFeeComponents, (∀ part ∈ parts, 0 ≤ part ∧ part ≤ 10000) ∧ parts.sum = s.feeBps ∧
    (s.reserveLpFeeBps = 0 ∨ s.reserveLpFeeBps ∈ parts)
  /-- A sale into the reserves is never refused for its fee components. -/
  quoted : ∀ tokenUnits networkFee, quoteSell s.virtualTokenReserves s.virtualQuoteReserves tokenUnits s.feeBps networkFee
    s.realQuoteReserves s.reserveFeeComponents s.reserveLpFeeBps ≠ .error .feeComponentsInconsistent
  audit : ∀ audit ∈ s.reserveAudit, audit.slot = s.lastReserveSlot ∧
    audit.virtualTokenReserves = s.virtualTokenReserves ∧ audit.virtualQuoteReserves = s.virtualQuoteReserves ∧
    audit.realQuoteReserves = s.realQuoteReserves ∧ audit.feeComponentsBps = s.reserveFeeComponents

/-- An event whose payload is taken over. -/
def routes (s : TokenState) (event : MarketEvent) : Bool := ¬ s.routeRegression event ∧ ¬ event.createRaises

/-- What an event without reserves says of them is what is known already. -/
def Restates (s : TokenState) (event : MarketEvent) : Prop :=
  if event.isAmm then ∀ quote ∈ event.poolQuote?, s.realQuoteReserves = some quote
  else numberOr event.payload virtualTokenKeys s.virtualTokenReserves = s.virtualTokenReserves ∧
    numberOr event.payload (virtualSolKeys ++ virtualQuoteKeys) s.virtualQuoteReserves = s.virtualQuoteReserves ∧
    ∀ quote ∈ event.realQuote?, s.realQuoteReserves = some quote

/-- The branches are not taken that leave behind what describes other reserves. -/
def Keeps (s : TokenState) : Action → Prop
  | .event event => s.routes event = true → event.reserveObserved = false →
    (s.reserveFeeComponents.isSome = true → event.feeObserved = true → event.observedFeeBps = s.feeBps) ∧
      (s.reserveAudit.isSome = true → s.Restates event)
  | .refreshCurve curveAddress values slot _ observationId =>
    s.reserveAudit.isSome = true → s.takesCurve curveAddress values slot observationId = false
  | .refreshPool read => s.reserveAudit.isSome = true → s.takesPool read = false
  | .confirmRoute .. | .watchdog .. => True

/-- What every write keeps. -/
structure Sound (s : TokenState) : Prop where
  lp : s.reserveFeeComponents = none → s.reserveLpFeeBps = 0
  slot : s.reserveAudit.isSome = true → 0 < s.lastReserveSlot

def proof (s : TokenState) : Option ReserveAudit × Option (List ℤ) × ℤ :=
  (s.reserveAudit, s.reserveFeeComponents, s.reserveLpFeeBps)

/-- What the proof is about. -/
def proved (s : TokenState) : ℤ × ℤ × ℤ × Option ℤ :=
  (s.lastReserveSlot, s.virtualTokenReserves, s.virtualQuoteReserves, s.realQuoteReserves)

end TokenState

/-! ### Described states -/

theorem described_of (hlp : s.reserveFeeComponents = none → s.reserveLpFeeBps = 0)
    (hcomponents : ∀ parts ∈ s.reserveFeeComponents, (∀ part ∈ parts, 0 ≤ part ∧ part ≤ 10000) ∧ parts.sum = s.feeBps ∧
      (s.reserveLpFeeBps = 0 ∨ s.reserveLpFeeBps ∈ parts))
    (haudit : ∀ audit ∈ s.reserveAudit, audit.slot = s.lastReserveSlot ∧
      audit.virtualTokenReserves = s.virtualTokenReserves ∧ audit.virtualQuoteReserves = s.virtualQuoteReserves ∧
      audit.realQuoteReserves = s.realQuoteReserves ∧ audit.feeComponentsBps = s.reserveFeeComponents) :
    s.Described := by
  refine ⟨hcomponents, fun tokenUnits networkFee hquote => ?_, haudit⟩
  have hinconsistent := quoteSell_inconsistent hquote
  unfold componentsConsistent at hinconsistent
  cases hparts : s.reserveFeeComponents with
  | none =>
    rw [hparts] at hinconsistent
    simp [hlp hparts] at hinconsistent
  | some parts =>
    obtain ⟨hrange, hsum, hlp'⟩ := hcomponents parts hparts
    rw [hparts] at hinconsistent
    dsimp only at hinconsistent
    rw [decide_eq_false_iff_not] at hinconsistent
    exact hinconsistent ⟨by simpa using hrange, hsum, hlp'⟩

theorem described_of_dropped (hproof : s.proof = (none, none, 0)) : s.Described := by
  obtain ⟨haudit, hparts, hlp⟩ : s.reserveAudit = none ∧ s.reserveFeeComponents = none ∧ s.reserveLpFeeBps = 0 := by
    simpa [TokenState.proof] using hproof
  apply described_of
  · exact fun _ => hlp
  · simp [hparts]
  · simp [haudit]

theorem TokenState.Described.keeps_iff (h : s.Described) (hsound : s.Sound) (hproof : s'.proof = s.proof) :
    s'.Described ↔ (s.reserveFeeComponents.isSome = true → s'.feeBps = s.feeBps) ∧
      (s.reserveAudit.isSome = true → s'.proved = s.proved) := by
  obtain ⟨haudit, hparts, hlp⟩ : s'.reserveAudit = s.reserveAudit ∧ s'.reserveFeeComponents = s.reserveFeeComponents ∧
      s'.reserveLpFeeBps = s.reserveLpFeeBps := by
    simpa [TokenState.proof] using hproof
  constructor
  · intro h'
    constructor
    · intro hsome
      obtain ⟨parts, hmem⟩ := Option.isSome_iff_exists.mp hsome
      obtain ⟨-, hsum, -⟩ := h.components parts hmem
      obtain ⟨-, hsum', -⟩ := h'.components parts (hparts.trans hmem)
      exact hsum'.symm.trans hsum
    · intro hsome
      obtain ⟨audit, hmem⟩ := Option.isSome_iff_exists.mp hsome
      obtain ⟨hslot, htoken, hquote, hreal, -⟩ := h.audit audit hmem
      obtain ⟨hslot', htoken', hquote', hreal', -⟩ := h'.audit audit (haudit.trans hmem)
      unfold TokenState.proved
      rw [← hslot, ← htoken, ← hquote, ← hreal, hslot', htoken', hquote', hreal']
  · rintro ⟨hfee, hproved⟩
    apply described_of
    · rw [hparts, hlp]
      exact hsound.lp
    · rw [hparts, hlp]
      intro parts hmem
      rw [hfee (Option.isSome_iff_exists.mpr ⟨parts, hmem⟩)]
      exact h.components parts hmem
    · rw [haudit, hparts]
      intro audit hmem
      have he := hproved (Option.isSome_iff_exists.mpr ⟨audit, hmem⟩)
      simp only [TokenState.proved, Prod.mk.injEq] at he
      obtain ⟨hslot, htoken, hquote, hreal⟩ := he
      rw [hslot, htoken, hquote, hreal]
      exact h.audit audit hmem

/-! ### Events -/

theorem exists_number_pos {payload : Payload} {keys : List String} (h : 0 < number payload keys) :
    ∃ key ∈ keys, 0 < number payload [key] := by
  induction keys with
  | nil => exact absurd h (by simp [number, numberOr, value])
  | cons key keys ih =>
    have hrest : ∀ hvalue : value payload (key :: keys) = value payload keys, ∃ key' ∈ key :: keys,
        0 < number payload [key'] := by
      intro hvalue
      obtain ⟨key', hmem, hpos⟩ := ih (by unfold number numberOr at h ⊢; rwa [hvalue] at h)
      exact ⟨key', List.mem_cons_of_mem _ hmem, hpos⟩
    cases hlookup : payload.lookup key with
    | none => exact hrest (by simp [value, hlookup])
    | some v =>
      by_cases hv : v = .null
      · exact hrest (by simp [value, hlookup, hv])
      · refine ⟨key, List.mem_cons_self, ?_⟩
        have hone : value payload [key] = value payload (key :: keys) := by
          unfold value
          rw [hlookup]
          cases v with
          | null => exact absurd rfl hv
          | _ => rfl
        unfold number numberOr at h ⊢
        rwa [hone]

theorem number_nonpos {keys : List String} (h : event.reserveObserved = false)
    (hkeys : ∀ key ∈ keys, key ∈ virtualTokenKeys ++ virtualSolKeys ++ virtualQuoteKeys ++ poolBaseKeys ++ poolQuoteKeys) :
    number event.payload keys ≤ 0 := by
  by_contra hpos
  obtain ⟨key, hmem, hpos⟩ := exists_number_pos (not_le.mp hpos)
  unfold MarketEvent.reserveObserved at h
  rw [List.any_eq_false] at h
  exact h key (hkeys key hmem) (by simpa using hpos)

theorem poolBase_nonpos (h : event.reserveObserved = false) : number event.payload poolBaseKeys ≤ 0 :=
  number_nonpos h fun key hkey => by simp [hkey]

theorem poolQuote_nonpos (h : event.reserveObserved = false) : number event.payload poolQuoteKeys ≤ 0 :=
  number_nonpos h fun key hkey => by simp [hkey]

@[simp] theorem takePool_proof : (s.takePool event).proof = s.proof := by
  unfold TokenState.takePool
  split
  · rfl
  · split_ifs <;> rfl

@[simp] theorem takePool_proved : (s.takePool event).proved = s.proved := by
  unfold TokenState.takePool
  split
  · rfl
  · split_ifs <;> rfl

@[simp] theorem takePool_feeBps : (s.takePool event).feeBps = s.feeBps := by
  unfold TokenState.takePool
  split
  · rfl
  · split_ifs <;> rfl

@[simp] theorem takePoolReserves_proof : (s.takePoolReserves event).proof = s.proof := rfl

@[simp] theorem takePoolReserves_feeBps : (s.takePoolReserves event).feeBps = s.feeBps := rfl

theorem takePoolReserves_proved (h : event.reserveObserved = false) : (s.takePoolReserves event).proved =
    (s.lastReserveSlot, s.virtualTokenReserves, s.virtualQuoteReserves, event.poolQuote?.or s.realQuoteReserves) := by
  unfold TokenState.takePoolReserves TokenState.proved
  dsimp only
  rw [if_neg (poolBase_nonpos h).not_gt, if_neg (poolQuote_nonpos h).not_gt]

@[simp] theorem takeFees_proof : (s.takeFees event).proof = s.proof := by
  unfold TokenState.takeFees
  split_ifs <;> rfl

@[simp] theorem takeFees_proved : (s.takeFees event).proved = s.proved := by
  unfold TokenState.takeFees
  split_ifs <;> rfl

theorem takeFees_feeBps : (s.takeFees event).feeBps = if event.feeObserved then event.observedFeeBps else s.feeBps := by
  unfold TokenState.takeFees
  split_ifs <;> rfl

@[simp] theorem takeCurveReserves_proof : (s.takeCurveReserves event).proof = s.proof := rfl

@[simp] theorem takeCurveReserves_feeBps : (s.takeCurveReserves event).feeBps = s.feeBps := rfl

@[simp] theorem takeRealTokens_proof : (s.takeRealTokens event).proof = s.proof := rfl

@[simp] theorem takeRealTokens_proved : (s.takeRealTokens event).proved = s.proved := rfl

@[simp] theorem takeRealTokens_feeBps : (s.takeRealTokens event).feeBps = s.feeBps := rfl

@[simp] theorem takeInitial_proof : s.takeInitial.proof = s.proof := by
  unfold TokenState.takeInitial
  split_ifs <;> rfl

@[simp] theorem takeInitial_proved : s.takeInitial.proved = s.proved := by
  unfold TokenState.takeInitial
  split_ifs <;> rfl

@[simp] theorem takeInitial_feeBps : s.takeInitial.feeBps = s.feeBps := by
  unfold TokenState.takeInitial
  split_ifs <;> rfl

variable {effectiveAt : ℤ}

@[simp] theorem stamp_proof : (s.stamp event effectiveAt).proof = s.proof := by
  unfold TokenState.stamp
  split_ifs <;> rfl

theorem stamp_unobserved (h : event.reserveObserved = false) : s.stamp event effectiveAt = s := by
  unfold TokenState.stamp
  rw [if_neg (by simp [h])]

/-- What a proof would be about after an event without reserves. -/
def TokenState.restated (s : TokenState) (event : MarketEvent) : ℤ × ℤ × ℤ × Option ℤ :=
  if event.isAmm then
    (s.lastReserveSlot, s.virtualTokenReserves, s.virtualQuoteReserves, event.poolQuote?.or s.realQuoteReserves)
  else
    (s.lastReserveSlot, numberOr event.payload virtualTokenKeys s.virtualTokenReserves,
      numberOr event.payload (virtualSolKeys ++ virtualQuoteKeys) s.virtualQuoteReserves,
      event.realQuote?.or s.realQuoteReserves)

theorem or_eq_right_iff {x y : Option ℤ} : x.or y = y ↔ ∀ a ∈ x, y = some a := by
  cases x with
  | none => simp
  | some a => simp [eq_comm]

theorem restates_iff : s.Restates event ↔ s.restated event = s.proved := by
  unfold TokenState.Restates TokenState.restated TokenState.proved
  split_ifs <;> simp [or_eq_right_iff]

theorem takeRoute_proof : (s.takeRoute event effectiveAt).proof = s.proof := by
  unfold TokenState.takeRoute
  split_ifs <;> simp

theorem apply_of_not_routes (h : s.routes event = false) :
    (s.apply event).proof = (s.observe event).proof ∧ (s.apply event).proved = s.proved ∧
      (s.apply event).feeBps = s.feeBps := by
  unfold TokenState.routes at h
  unfold TokenState.apply
  dsimp only
  split_ifs with hraises
  · exact ⟨rfl, rfl, rfl⟩
  · have hregression : s.routeRegression event = true := by
      by_contra hnot
      rw [decide_eq_false_iff_not] at h
      exact h ⟨hnot, hraises⟩
    have hamm : ¬ event.isAmm = true := by
      rw [TokenState.routeRegression, decide_eq_true_eq] at hregression
      exact hregression.2.2
    have hroute : ((s.observe event).takeKind event).takeRoute event (s.effectiveAt event) =
        ((s.observe event).takeKind event).takeInitial := by
      have hregression' : ((s.observe event).takeKind event).routeRegression event = true := hregression
      unfold TokenState.takeRoute
      rw [if_neg hamm, if_pos hregression']
    rw [hroute, takeInitial_proof, takeInitial_proved, takeInitial_feeBps]
    exact ⟨rfl, rfl, rfl⟩

theorem apply_of_routes (hroutes : s.routes event = true) (hobserved : event.reserveObserved = false) :
    (s.apply event).proved = s.restated event ∧
      (s.apply event).feeBps = if event.feeObserved then event.observedFeeBps else s.feeBps := by
  obtain ⟨hregression, hraises⟩ := of_decide_eq_true hroutes
  have happly : s.apply event = ((s.observe event).takeKind event).takeRoute event (s.effectiveAt event) := by
    unfold TokenState.apply
    rw [if_neg hraises]
  have hregression' : ¬ ((s.observe event).takeKind event).routeRegression event = true := hregression
  rw [happly]
  unfold TokenState.takeRoute TokenState.restated
  by_cases hamm : event.isAmm = true
  · rw [if_pos hamm, if_pos hamm, stamp_unobserved hobserved, takeInitial_proved, takeRealTokens_proved, takeFees_proved,
      takePoolReserves_proved hobserved, takeInitial_feeBps, takeRealTokens_feeBps, takeFees_feeBps,
      takePoolReserves_feeBps, takePool_feeBps]
    have hpool : (((s.observe event).takeKind event).takePool event).proved = _ := takePool_proved
    simp only [TokenState.proved, Prod.mk.injEq] at hpool
    obtain ⟨hslot, htoken, hquote, hreal⟩ := hpool
    rw [hslot, htoken, hquote, hreal]
    exact ⟨rfl, rfl⟩
  · rw [if_neg hamm, if_neg hregression', if_neg hamm, stamp_unobserved hobserved, takeInitial_proved,
      takeRealTokens_proved, takeInitial_feeBps, takeRealTokens_feeBps, takeCurveReserves_feeBps, takeFees_feeBps]
    have hfees : (((s.observe event).takeKind event).takeFees event).proved = _ := takeFees_proved
    simp only [TokenState.proved, Prod.mk.injEq] at hfees
    obtain ⟨hslot, htoken, hquote, hreal⟩ := hfees
    unfold TokenState.takeCurveReserves TokenState.proved
    dsimp only
    rw [hslot, htoken, hquote, hreal]
    exact ⟨rfl, rfl⟩

theorem apply_proof : (s.apply event).proof = if event.reserveObserved then (none, none, 0) else s.proof := by
  have hobserve : (s.observe event).proof = if event.reserveObserved then (none, none, 0) else s.proof := by
    unfold TokenState.observe TokenState.proof
    dsimp only
    split_ifs <;> rfl
  unfold TokenState.apply
  dsimp only
  rw [← hobserve]
  split_ifs
  · rfl
  · rw [takeRoute_proof]
    rfl

theorem described_applyEvent_iff (h : s.Described) (hsound : s.Sound) :
    (s.applyEvent event).Described ↔ s.Keeps (.event event) := by
  unfold TokenState.applyEvent TokenState.Keeps
  by_cases hskip : event.kind = .trade ∧ s.routeRegression event = true
  · rw [if_pos hskip]
    refine ⟨fun _ hroutes => absurd hskip.2 (of_decide_eq_true hroutes).1, fun _ => h⟩
  · rw [if_neg hskip]
    by_cases hobserved : event.reserveObserved = true
    · refine ⟨fun _ _ hnot => ?_, fun _ => described_of_dropped (by rw [apply_proof, if_pos hobserved])⟩
      rw [hobserved] at hnot
      cases hnot
    · have hproof : (s.apply event).proof = s.proof := by rw [apply_proof, if_neg hobserved]
      rw [Bool.not_eq_true] at hobserved
      rw [h.keeps_iff hsound hproof]
      by_cases hroutes : s.routes event = true
      · obtain ⟨hproved, hfee⟩ := apply_of_routes hroutes hobserved
        rw [hproved, hfee, ← restates_iff]
        constructor
        · rintro ⟨hfees, hrestates⟩ - -
          exact ⟨fun hsome hfee => by simpa [hfee] using hfees hsome, hrestates⟩
        · intro hkeeps
          obtain ⟨hfees, hrestates⟩ := hkeeps hroutes hobserved
          refine ⟨fun hsome => ?_, hrestates⟩
          split_ifs with hfee
          · exact hfees hsome hfee
          · rfl
      · obtain ⟨-, hproved, hfee⟩ := apply_of_not_routes (by simpa using hroutes)
        exact ⟨fun _ hnot => absurd hnot hroutes, fun _ => ⟨fun _ => hfee, fun _ => hproved⟩⟩

/-! ### Snapshots and refreshes -/

theorem withProof_described {original : TokenState} {reading : RouteReading} {components : List ℤ}
    {globalValues : GlobalValues} {mintSupply slot requestedAt observedAt : ℤ}
    (hcomponents : ¬ (components.any (· < 0) = true ∨ 10000 ≤ components.sum)) (hne : components ≠ [])
    (hslot : 0 < slot) :
    (original.withProof reading components globalValues mintSupply slot requestedAt observedAt).Described ∧
      (original.withProof reading components globalValues mintSupply slot requestedAt observedAt).Sound := by
  set snapshot := original.withProof reading components globalValues mintSupply slot requestedAt observedAt
  rw [not_or, Bool.not_eq_true, List.any_eq_false] at hcomponents
  obtain ⟨hnonneg, hsum⟩ := hcomponents
  have hpart : ∀ part ∈ components, 0 ≤ part ∧ part ≤ 10000 := by
    intro part hmem
    have hle : part ≤ components.sum := List.single_le_sum (fun x hx => by simpa using hnonneg x hx) part hmem
    exact ⟨by simpa using hnonneg part hmem, by omega⟩
  have hlp : snapshot.reserveFeeComponents = none → snapshot.reserveLpFeeBps = 0 := by
    intro hnone
    by_cases hempty : reading.empty = true
    · exact if_pos hempty
    · exact absurd ((if_neg hempty).symm.trans hnone) (by simp)
  refine ⟨described_of hlp ?_ ?_, hlp, fun _ => hslot⟩
  · intro parts hparts
    by_cases hempty : reading.empty = true
    · exact absurd ((if_pos hempty).symm.trans hparts) (by simp)
    · have hsome : some components = some parts := (if_neg hempty).symm.trans hparts
      obtain rfl := Option.some.inj hsome
      have hfee : snapshot.feeBps = components.sum := if_neg hempty
      have hlpFee : snapshot.reserveLpFeeBps = components.headD 0 := if_neg hempty
      refine ⟨hpart, hfee.symm, .inr ?_⟩
      rw [hlpFee]
      cases components with
      | nil => exact absurd rfl hne
      | cons part parts => exact List.mem_cons_self
  · intro audit haudit
    obtain rfl := Option.some.inj haudit
    exact ⟨rfl, rfl, rfl, rfl, rfl⟩

theorem validatedLearningState_ok {original snapshot : TokenState} {result : RpcResult} {requestedAt observedAt : ℤ}
    {allowEmpty : Bool} (h : validatedLearningState original result requestedAt observedAt allowEmpty = .ok snapshot) :
    snapshot.Described ∧ snapshot.Sound := by
  simp only [validatedLearningState, bind_eq_ok, raiseIf_eq_ok, pure_eq_ok] at h
  obtain ⟨_, hslot, accounts, -, _, -, mintSupply, -, _, -, feeConfig, -, globalValues, -, reading, -, _, -, _, -,
    schedule, -, _, hcomponents, rfl⟩ := h
  rw [not_or] at hslot
  exact withProof_described hcomponents (by simp [RouteReading.components]) (not_le.mp hslot.1)

theorem applyValidatedWatchdogSnapshot_described {snapshot : TokenState} (h : s.Described) (hsound : s.Sound)
    (hsnapshot : snapshot.Described) (hsnapshot' : snapshot.Sound) :
    (s.applyValidatedWatchdogSnapshot snapshot).2.Described ∧ (s.applyValidatedWatchdogSnapshot snapshot).2.Sound := by
  unfold TokenState.applyValidatedWatchdogSnapshot
  split_ifs
  · exact ⟨⟨hsnapshot.components, hsnapshot.quoted, hsnapshot.audit⟩, hsnapshot'.lp, hsnapshot'.slot⟩
  · exact ⟨h, hsound⟩

theorem slot_of_not_outdated {slot : ℤ} (h : s.outdated slot = false) (hknown : 0 < s.lastReserveSlot) :
    s.lastReserveSlot < slot := by
  unfold TokenState.outdated at h
  rw [decide_eq_false_iff_not, not_or, not_and] at h
  exact not_le.mp (h.2 hknown)

theorem TokenState.Described.moves_iff (h : s.Described) (hsound : s.Sound) (hproof : s'.proof = s.proof)
    (hfee : s'.feeBps = s.feeBps) (hslot : 0 < s.lastReserveSlot → s.lastReserveSlot < s'.lastReserveSlot) :
    s'.Described ↔ s.reserveAudit.isSome = false := by
  rw [h.keeps_iff hsound hproof, ← Bool.not_eq_true]
  constructor
  · rintro ⟨-, hproved⟩ hsome
    have hsame : s'.lastReserveSlot = s.lastReserveSlot := congrArg Prod.fst (hproved hsome)
    have hlt := hslot (hsound.slot hsome)
    omega
  · intro hnone
    exact ⟨fun _ => hfee, fun hsome => absurd hsome hnone⟩

theorem described_refreshPumpCurve_iff {curveAddress observationId : String} {values : Payload} {slot at_ : ℤ}
    (h : s.Described) (hsound : s.Sound) :
    (s.refreshPumpCurve curveAddress values slot at_ observationId).2.Described ↔
      (s.reserveAudit.isSome = true → s.takesCurve curveAddress values slot observationId = false) := by
  unfold TokenState.refreshPumpCurve
  by_cases htakes : s.takesCurve curveAddress values slot observationId = true
  · have houtdated : s.outdated slot = false := by
      obtain ⟨-, -, -, -, hslot, -⟩ := of_decide_eq_true htakes
      simpa using hslot
    rw [if_pos htakes, htakes]
    refine Iff.trans (h.moves_iff hsound ?_ ?_ ?_) ?_
    · rfl
    · rfl
    · exact slot_of_not_outdated houtdated
    · simp
  · rw [if_neg htakes]
    exact ⟨fun _ _ => by simpa using htakes, fun _ => h⟩

theorem described_refreshPumpswapReserves_iff {read : PoolRead} (h : s.Described) (hsound : s.Sound) :
    (s.refreshPumpswapReserves read).2.Described ↔ (s.reserveAudit.isSome = true → s.takesPool read = false) := by
  unfold TokenState.refreshPumpswapReserves
  by_cases htakes : s.takesPool read = true
  · have houtdated : s.outdated read.slot = false := by
      obtain ⟨-, -, -, -, -, -, hslot, -⟩ := of_decide_eq_true htakes
      simpa using hslot
    rw [if_pos htakes, htakes]
    refine Iff.trans (h.moves_iff hsound ?_ ?_ ?_) ?_
    · rfl
    · rfl
    · exact slot_of_not_outdated houtdated
    · simp
  · rw [if_neg htakes]
    exact ⟨fun _ _ => by simpa using htakes, fun _ => h⟩

theorem described_watchdog {original : TokenState} {result : RpcResult} {requestedAt observedAt : ℤ} (h : s.Described)
    (hsound : s.Sound) :
    (s.watchdog original result requestedAt observedAt).2.Described ∧
      (s.watchdog original result requestedAt observedAt).2.Sound := by
  unfold TokenState.watchdog
  split
  · exact ⟨h, hsound⟩
  · rename_i snapshot hsnapshot
    obtain ⟨hdescribed, hsound'⟩ := validatedLearningState_ok hsnapshot
    exact applyValidatedWatchdogSnapshot_described h hsound hdescribed hsound'

/-! ### Runs -/

theorem confirmPumpswapRoute_frame (poolAddress quoteMint baseAccount quoteAccount : String) :
    let s' := (s.confirmPumpswapRoute poolAddress quoteMint baseAccount quoteAccount).2
    s'.proof = s.proof ∧ s'.proved = s.proved ∧ s'.feeBps = s.feeBps := by
  unfold TokenState.confirmPumpswapRoute
  split_ifs <;> exact ⟨rfl, rfl, rfl⟩

/-- **One write** leaves a state described exactly when it keeps what is attached. -/
theorem described_step_iff (h : s.Described) (hsound : s.Sound) (a : Action) : (s.step a).Described ↔ s.Keeps a := by
  cases a with
  | event event => exact described_applyEvent_iff h hsound
  | confirmRoute poolAddress quoteMint baseAccount quoteAccount =>
    obtain ⟨hproof, hproved, hfee⟩ := confirmPumpswapRoute_frame (s := s) poolAddress quoteMint baseAccount quoteAccount
    exact ⟨fun _ => trivial, fun _ => (h.keeps_iff hsound hproof).mpr ⟨fun _ => hfee, fun _ => hproved⟩⟩
  | refreshCurve curveAddress values slot at_ observationId => exact described_refreshPumpCurve_iff h hsound
  | refreshPool read => exact described_refreshPumpswapReserves_iff h hsound
  | watchdog original result requestedAt observedAt =>
    exact ⟨fun _ => trivial, fun _ => (described_watchdog h hsound).1⟩

theorem TokenState.Sound.of_proof (h : s.Sound) (hproof : s'.proof = s.proof)
    (hslot : 0 < s.lastReserveSlot → s.lastReserveSlot ≤ s'.lastReserveSlot) : s'.Sound := by
  obtain ⟨haudit, hparts, hlp⟩ : s'.reserveAudit = s.reserveAudit ∧ s'.reserveFeeComponents = s.reserveFeeComponents ∧
      s'.reserveLpFeeBps = s.reserveLpFeeBps := by
    simpa [TokenState.proof] using hproof
  constructor
  · rw [hparts, hlp]
    exact h.lp
  · rw [haudit]
    intro hsome
    have hpos := h.slot hsome
    exact hpos.trans_le (hslot hpos)

theorem TokenState.Sound.applyEvent (h : s.Sound) : (s.applyEvent event).Sound := by
  unfold TokenState.applyEvent
  split_ifs
  · exact h
  · have hproof : (s.apply event).proof = _ := apply_proof
    by_cases hobserved : event.reserveObserved = true
    · rw [if_pos hobserved] at hproof
      obtain ⟨haudit, -, hlp⟩ : (s.apply event).reserveAudit = none ∧ (s.apply event).reserveFeeComponents = none ∧
          (s.apply event).reserveLpFeeBps = 0 := by
        simpa [TokenState.proof] using hproof
      exact ⟨fun _ => hlp, fun hsome => by simp [haudit] at hsome⟩
    · rw [if_neg hobserved] at hproof
      refine h.of_proof hproof fun _ => le_of_eq ?_
      by_cases hroutes : s.routes event = true
      · have hproved := (apply_of_routes hroutes (by simpa using hobserved)).1
        unfold TokenState.restated at hproved
        split_ifs at hproved <;> exact (congrArg Prod.fst hproved).symm
      · exact (congrArg Prod.fst (apply_of_not_routes (by simpa using hroutes)).2.1).symm

theorem TokenState.Sound.step (h : s.Sound) (hdescribed : s.Described) (a : Action) : (s.step a).Sound := by
  cases a with
  | event event => exact h.applyEvent
  | confirmRoute poolAddress quoteMint baseAccount quoteAccount =>
    obtain ⟨hproof, hproved, -⟩ := confirmPumpswapRoute_frame (s := s) poolAddress quoteMint baseAccount quoteAccount
    exact h.of_proof hproof fun _ => (congrArg Prod.fst hproved).symm.le
  | refreshCurve curveAddress values slot at_ observationId =>
    unfold TokenState.step TokenState.write TokenState.refreshPumpCurve
    dsimp only
    split_ifs with htakes
    · obtain ⟨-, -, -, -, hslot, -⟩ := of_decide_eq_true htakes
      refine h.of_proof ?_ ?_
      · rfl
      · exact fun hknown => (slot_of_not_outdated (by simpa using hslot) hknown).le
    · exact h
  | refreshPool read =>
    unfold TokenState.step TokenState.write TokenState.refreshPumpswapReserves
    dsimp only
    by_cases htakes : s.takesPool read = true
    · obtain ⟨-, -, -, -, -, -, hslot, -⟩ := of_decide_eq_true htakes
      rw [if_pos htakes]
      refine h.of_proof ?_ ?_
      · rfl
      · exact fun hknown => (slot_of_not_outdated (by simpa using hslot) hknown).le
    · rw [if_neg htakes]
      exact h
  | watchdog original result requestedAt observedAt => exact (described_watchdog hdescribed h).2

/-- A token nothing has been seen of, on the route of a position or on no route yet. -/
def TokenState.unseen (mint venue curveAddress poolAddress baseAccount quoteAccount quoteMint : String) : TokenState where
  mint := mint
  venue := venue
  curveAddress := curveAddress
  poolAddress := poolAddress
  poolBaseTokenAccount := baseAccount
  poolQuoteTokenAccount := quoteAccount
  quoteMint := quoteMint

/-- **Components and proof describe the state they are attached to** all along a run exactly when every write
keeps what is attached. -/
theorem described_iff (mint venue curveAddress poolAddress baseAccount quoteAccount quoteMint : String)
    (actions : List Action) :
    Along TokenState.step (fun s a => (s.step a).Described)
        (.unseen mint venue curveAddress poolAddress baseAccount quoteAccount quoteMint) actions ↔
      Along TokenState.step TokenState.Keeps
        (.unseen mint venue curveAddress poolAddress baseAccount quoteAccount quoteMint) actions := by
  have hstart : (TokenState.unseen mint venue curveAddress poolAddress baseAccount quoteAccount quoteMint).Described ∧
      (TokenState.unseen mint venue curveAddress poolAddress baseAccount quoteAccount quoteMint).Sound :=
    ⟨described_of_dropped rfl, fun _ => rfl, fun hsome => absurd hsome (by simp [TokenState.unseen])⟩
  constructor
  · intro h
    refine h.derive (I := fun s => s.Described ∧ s.Sound) hstart (fun s a hs hstep => ⟨hstep, hs.2.step hs.1 a⟩) fun s a hs hstep => ?_
    exact (described_step_iff hs.1 hs.2 a).mp hstep
  · intro h
    refine h.derive (I := fun s => s.Described ∧ s.Sound) hstart (fun s a hs hkeeps => ?_) fun s a hs hkeeps => ?_
    · exact ⟨(described_step_iff hs.1 hs.2 a).mpr hkeeps, hs.2.step hs.1 a⟩
    · exact (described_step_iff hs.1 hs.2 a).mpr hkeeps

/-! ### A rate alone -/

def sampleAccounts : Accounts where
  addresses := .ok ()
  mintSupply := .ok 1000000000000000
  feeConfig := .ok ⟨none, some [⟨0, ⟨0, 95, 5⟩⟩]⟩
  globalValues := .ok ⟨false, 0⟩
  curve := .ok ⟨false, some wrappedSolMint, false, false, 1000000, 1000000, 800000, 1000000, "creator", 0⟩
  pool := .error .missingAccountOrWrongOwner
  baseVault := .error .missingAccountOrWrongOwner
  quoteVault := .error .missingAccountOrWrongOwner

def sampleCurve : TokenState := .unseen "M" "pump_curve" "C" "" "" "" wrappedSolMint

def sampleSnapshot : Action := .watchdog sampleCurve ⟨10, some sampleAccounts⟩ 0 1000000

/-- An event that brings a rate of 50 bps, and no reserves. -/
def rateAlone : Action :=
  .event { eventId := "e", source := "pump", kind := .trade, slot := some 11, receivedAt := 2000000
           payload := [("fee_basis_points", .int 50)] }

def realQuoteAlone : Action :=
  .event { eventId := "e", source := "pump", kind := .trade, slot := some 11, receivedAt := 2000000
           payload := [("real_sol_reserves", .int 5)] }

def sampleRefresh : Action :=
  .refreshCurve "C" [("virtual_token_reserves", .int 7), ("virtual_quote_reserves", .int 7)] 12 3000000 "o"

/-- **A rate alone is not consistent with the components**: a sale cannot be quoted. A real quote alone, and a
refresh, leave the proof of other reserves. -/
theorem rate_alone :
    (let s := run TokenState.step sampleCurve [sampleSnapshot, rateAlone];
      s.reserveFeeComponents = some [0, 95, 5] ∧ s.feeBps = 50 ∧
        quoteSell s.virtualTokenReserves s.virtualQuoteReserves 1000 s.feeBps 5000 s.realQuoteReserves
          s.reserveFeeComponents s.reserveLpFeeBps = .error .feeComponentsInconsistent) ∧
    (let s := run TokenState.step sampleCurve [sampleSnapshot, realQuoteAlone];
      s.reserveAudit.map (·.realQuoteReserves) = some (some 1000000) ∧ s.realQuoteReserves = some 5) ∧
    (let s := run TokenState.step sampleCurve [sampleSnapshot, sampleRefresh];
      s.reserveAudit.map (·.slot) = some 10 ∧ s.lastReserveSlot = 12) ∧
    ¬ Along TokenState.step (fun s a => (s.step a).Described) sampleCurve [sampleSnapshot, rateAlone] := by
  refine ⟨by decide +kernel, by decide +kernel, by decide +kernel, fun h => ?_⟩
  have hparts : (run TokenState.step sampleCurve [sampleSnapshot, rateAlone]).reserveFeeComponents = some [0, 95, 5] := by
    decide +kernel
  have hfee : (run TokenState.step sampleCurve [sampleSnapshot, rateAlone]).feeBps = 50 := by
    decide +kernel
  obtain ⟨-, hsum, -⟩ := h.2.1.components _ hparts
  have hwrong : [(0 : ℤ), 95, 5].sum = 50 := hsum.trans hfee
  exact absurd hwrong (by decide)

end SignalArcade.Market.Features
