import SignalArcade.Paper.Broker

/-!
# What is left of a season

A season ends with a summary of it and, for every position still open, a record of what
became of the position: written off, which asks for the evidence of a route that was
probed and found unavailable, or unknown. `_validate_unresolved_inventory` is the gate
before anything is archived: it turns away records that are not one for each open
position, or that say more than their evidence does.
-/

namespace SignalArcade.Archive

open Paper Checked List

/-- Whole seconds, in microseconds. -/
def seconds (n : ℕ) : ℤ := 1000000 * n

def terminalProbePolicy : String := "validated-route-probes-v2"

/-- `TERMINAL_PROBE_MAX_AGE_SECONDS`. -/
def terminalProbeMaxAge : ℤ := seconds 180

/-! ### Records -/

/-- What is read of the `probe` of a terminal evidence. -/
structure Probe where
  /-- `verified` is `True`. -/
  verified : Bool
  outcome : Option String
  consecutive : Option ℤ
  firstSlot : Option ℤ
  slot : Option ℤ
  firstObservedAt : Option Instant
  observedAt : Option Instant

/-- What is read of a `terminal_evidence`. -/
structure TerminalEvidence where
  policy : Option String := none
  /-- `global_market_healthy` is `True`. -/
  globalMarketHealthy : Bool := false
  probe : Option Probe := none

/-- A record of `unresolved_position_records`. -/
structure UnresolvedPosition where
  positionId : ℕ
  /-- `none` where it is empty. -/
  entryFillId : Option ℕ
  mint : String
  symbol : String
  tokenUnits : ℤ
  entryCostMinor : ℤ
  bookValueMinor : ℤ
  lastKnownMarkMinor : ℤ
  lastMarkedAt : Option Instant
  marketStatus : PositionMarketStatus
  markBlockers : List String
  quoteCurrency : QuoteCurrency
  quoteDecimals : ℕ
  retirementReason : String
  retiredAt : Instant
  wasExecuted : Bool
  terminalDisposition : String
  terminalEvidence : TerminalEvidence

/-- `position.get("terminal_disposition") or "unknown"`. -/
def UnresolvedPosition.disposition (position : UnresolvedPosition) : String :=
  if position.terminalDisposition = "" then "unknown" else position.terminalDisposition

/-- The summary of a season, as far as the archive checks it. -/
structure SeasonSummary where
  endingEquityMinor : ℤ
  lastKnownEndingEquityMinor : ℤ
  peakEquityMinor : ℤ
  realizedPnlMinor : ℤ
  netPnlMinor : ℤ
  totalFeesMinor : ℤ
  closedTrades : ℤ
  wins : ℤ
  losses : ℤ
  breakEven : ℤ
  endingDrawdownFraction : ℚ
  openPositions : ℤ
  meaningfulActivity : Bool
  executionAuditIssueCount : ℤ

/-! ### The records of open positions -/

/-- What is decided on a position that stays open. -/
structure Disposition where
  terminalDisposition : Option String
  terminalEvidence : Option TerminalEvidence

def unresolvedPosition (env : Env) (now : Instant) (reason : String) (disposition : Option Disposition)
    (position : Position) : UnresolvedPosition where
  positionId := position.positionId
  entryFillId := some position.entryFillId
  mint := position.mint
  symbol := position.symbol
  tokenUnits := position.tokenUnits
  entryCostMinor := position.entryCostLamports
  bookValueMinor := position.bookValueLamports
  lastKnownMarkMinor := position.lastMarkLamports
  lastMarkedAt := position.lastMarkedAt
  marketStatus := position.marketStatus
  markBlockers := position.markBlockers
  quoteCurrency := env.quoteCurrency
  quoteDecimals := env.quoteDecimals
  retirementReason := reason
  retiredAt := now
  wasExecuted := false
  terminalDisposition := (disposition.bind (·.terminalDisposition)).getD "unknown"
  terminalEvidence := (disposition.bind (·.terminalEvidence)).getD {}

/-! ### The evidence of a write-off -/

/-- `valid_terminal_probe`, of the probe. -/
def Probe.valid (probe : Probe) (now : Instant) : Bool :=
  match probe.firstObservedAt, probe.observedAt, probe.firstSlot, probe.slot with
  | some first, some last, some firstSlot, some lastSlot =>
    probe.verified ∧ probe.outcome = some "unavailable" ∧ (∃ n ∈ probe.consecutive, 2 ≤ n) ∧
      (0 < firstSlot ∧ firstSlot < lastSlot) ∧ 0 < last - first ∧ 0 ≤ now - last ∧
      now - first ≤ terminalProbeMaxAge
  | _, _, _, _ => false

def validTerminalProbe (evidence : TerminalEvidence) (now : Instant) : Bool :=
  match evidence.probe with
  | some probe =>
    evidence.policy = some terminalProbePolicy ∧ evidence.globalMarketHealthy ∧ probe.valid now
  | none => false

/-- What the gate reads of a probe by itself. -/
structure Readings where
  confirmations : ℤ
  slot : ℤ
  /-- How long the evidence was gathered, and how old it is. -/
  evidenceTime : ℤ
  evidenceAge : ℤ

/-- The readings of a probe. They are as bad as can be when one of them fails. -/
def Probe.readings (probe : Probe) (boundaryAt : Instant) : Readings :=
  match probe.firstObservedAt, probe.observedAt with
  | some first, some last => ⟨probe.consecutive.getD 0, probe.slot.getD 0, last - first, boundaryAt - last⟩
  | _, _ => ⟨0, 0, -seconds 1, -seconds 1⟩

def validWriteOff (evidence : TerminalEvidence) (boundaryAt : Instant) : Bool :=
  match evidence.probe with
  | some probe =>
    let readings := probe.readings boundaryAt
    validTerminalProbe evidence boundaryAt ∧ evidence.globalMarketHealthy ∧
      probe.outcome = some "unavailable" ∧ 2 ≤ readings.confirmations ∧ 0 < readings.slot ∧
      (0 < readings.evidenceTime ∧ readings.evidenceTime ≤ seconds 180) ∧
      (0 ≤ readings.evidenceAge ∧ readings.evidenceAge ≤ seconds 180)
  | none => false

/-! ### The gate -/

/-- Why an inventory is turned away. -/
inductive InventoryError where
  | countNegative
  | countDiffers
  | idsRequired
  | notUnique
  | recordedAsExecuted
  | dispositionInvalid
  | routeUnconfirmed

/-- The checks of one record, with the identifiers and mints of those before it. -/
def validateUnresolvedPosition (boundaryAt : Instant) (positionIds : List ℕ) (mints : List String)
    (position : UnresolvedPosition) : Except InventoryError Unit := do
  raiseIf (position.mint = "") .idsRequired
  raiseIf (position.positionId ∈ positionIds ∨ position.mint ∈ mints) .notUnique
  raiseIf position.wasExecuted .recordedAsExecuted
  raiseIf (position.disposition ≠ "write_off" ∧ position.disposition ≠ "unknown") .dispositionInvalid
  raiseIf (position.disposition = "write_off" ∧ ¬ validWriteOff position.terminalEvidence boundaryAt)
    .routeUnconfirmed

/-- The checks of the records, one after the other. -/
def validateUnresolvedPositions (boundaryAt : Instant) :
    List ℕ → List String → List UnresolvedPosition → Except InventoryError Unit
  | _, _, [] => .ok ()
  | positionIds, mints, position :: positions => do
    validateUnresolvedPosition boundaryAt positionIds mints position
    validateUnresolvedPositions boundaryAt (position.positionId :: positionIds) (position.mint :: mints) positions

def validateUnresolvedInventory (summary : SeasonSummary) (positions : List UnresolvedPosition)
    (recordedAt : Instant) : Except InventoryError Unit := do
  raiseIf (summary.openPositions < 0) .countNegative
  raiseIf (summary.openPositions ≠ positions.length) .countDiffers
  validateUnresolvedPositions recordedAt [] [] positions

/-! ### What passes -/

/-- A record that says no more than its evidence does. -/
structure UnresolvedPosition.Honest (boundaryAt : Instant) (position : UnresolvedPosition) : Prop where
  mint : position.mint ≠ ""
  not_executed : position.wasExecuted = false
  disposition : position.disposition = "write_off" ∨ position.disposition = "unknown"
  confirmed : position.disposition = "write_off" → validWriteOff position.terminalEvidence boundaryAt = true

variable {position : UnresolvedPosition} {positions : List UnresolvedPosition} {summary : SeasonSummary}
  {boundaryAt recordedAt : Instant} {mints : List String} {positionIds : List ℕ}

theorem validateUnresolvedPosition_accepts
    (h : position.Honest boundaryAt) (hid : position.positionId ∉ positionIds) (hmint : position.mint ∉ mints) :
    validateUnresolvedPosition boundaryAt positionIds mints position = .ok () := by
  simp only [validateUnresolvedPosition, bind_eq_ok, raiseIf_eq_ok, not_or, not_and, not_not]
  refine ⟨⟨⟩, h.mint, ⟨⟩, ⟨hid, hmint⟩, ⟨⟩, ?_, ⟨⟩, or_iff_not_imp_left.mp h.disposition, h.confirmed⟩
  simp [h.not_executed]

theorem validateUnresolvedPositions_accepts
    (h : ∀ position ∈ positions, position.Honest boundaryAt ∧ position.positionId ∉ positionIds ∧
      position.mint ∉ mints)
    (hids : (positions.map (·.positionId)).Nodup) (hmints : (positions.map (·.mint)).Nodup) :
    validateUnresolvedPositions boundaryAt positionIds mints positions = .ok () := by
  induction positions generalizing positionIds mints with
  | nil => rfl
  | cons position positions ih =>
    rw [map_cons, nodup_cons] at hids hmints
    rw [forall_mem_cons] at h
    obtain ⟨⟨hhonest, hid, hmint⟩, hall⟩ := h
    rw [validateUnresolvedPositions, bind_eq_ok]
    refine ⟨(), validateUnresolvedPosition_accepts hhonest hid hmint, ih (fun p hp => ?_) hids.2 hmints.2⟩
    obtain ⟨hhonest', hid', hmint'⟩ := hall p hp
    refine ⟨hhonest', ?_, ?_⟩
    · rw [mem_cons, not_or]
      exact ⟨fun he => hids.1 (mem_map.mpr ⟨p, hp, he⟩), hid'⟩
    · rw [mem_cons, not_or]
      exact ⟨fun he => hmints.1 (mem_map.mpr ⟨p, hp, he⟩), hmint'⟩

/-- **What the gate lets pass.** -/
structure Inventory (summary : SeasonSummary) (positions : List UnresolvedPosition) (recordedAt : Instant) :
    Prop where
  count : summary.openPositions = positions.length
  honest : ∀ position ∈ positions, position.Honest recordedAt
  ids : (positions.map (·.positionId)).Nodup
  mints : (positions.map (·.mint)).Nodup

theorem Inventory.accepted (h : Inventory summary positions recordedAt) :
    validateUnresolvedInventory summary positions recordedAt = .ok () := by
  simp only [validateUnresolvedInventory, bind_eq_ok, raiseIf_eq_ok, not_not]
  refine ⟨⟨⟩, ?_, ⟨⟩, h.count, validateUnresolvedPositions_accepts (fun p hp => ⟨h.honest p hp, ?_, ?_⟩) h.ids h.mints⟩
  · rw [h.count]
    omega
  · exact not_mem_nil
  · exact not_mem_nil

end SignalArcade.Archive
