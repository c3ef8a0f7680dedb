import SignalArcade.Archive.Inventory
import SignalArcade.Lib.Runs

/-!
# The probes of a route that is gone

The position watchdog reads the accounts of the routes of open positions, and records for every mint
what it found last: the route is available, unavailable, or was not verified. Findings that agree make a
sequence; two of them, at a later slot and time, are what a write-off stands on when a season ends.
-/

namespace SignalArcade.Archive.TerminalProbes

open Paper Runs List

/-! ### Findings -/

/-- What is known of a route. -/
inductive Outcome where
  | unknown | available | unavailable
  deriving DecidableEq

def Outcome.value : Outcome → String
  | .unknown => "unknown"
  | .available => "available"
  | .unavailable => "unavailable"

/-- What a batch of the watchdog finds out about the route of a position. -/
structure Finding where
  mint : String
  /-- `none` where it is not verified. -/
  available : Option Bool
  observedAt : Instant
  slot : ℤ
  marketStatus : PositionMarketStatus
  blockers : List String
  /-- The identity in the proof of the route, `none` where there is no proof. -/
  routeIdentity : Option String
  positionId : Option ℕ
  deriving DecidableEq

def Finding.outcome (f : Finding) : Outcome :=
  match f.available with
  | none => .unknown
  | some true => .available
  | some false => .unavailable

/-! ### Probes -/

/-- What is kept of the findings of a mint. -/
structure RouteProbe where
  mint : String
  outcome : Outcome
  verified : Bool
  consecutive : ℕ
  firstObservedAt : Instant
  observedAt : Instant
  slot : ℤ
  firstSlot : ℤ
  marketStatus : PositionMarketStatus
  blockers : List String
  positionId : Option ℕ
  routeIdentity : Option String
  deriving DecidableEq

/-- The last probe of each route, by mint. -/
abbrev RouteProbes := Table String RouteProbe (·.mint)

variable {probe previous : RouteProbe} {f : Finding} {log : List Finding}

def RouteProbe.sameOutcome (previous : RouteProbe) (f : Finding) : Bool :=
  previous.outcome = f.outcome ∧ previous.positionId = f.positionId ∧ previous.routeIdentity = f.routeIdentity

def RouteProbe.duplicateOrReordered (previous : RouteProbe) (f : Finding) : Bool :=
  previous.sameOutcome f ∧ (f.observedAt ≤ previous.observedAt ∨ f.slot ≤ previous.slot)

def RouteProbe.continuesFreshSequence (previous : RouteProbe) (f : Finding) : Bool :=
  previous.sameOutcome f ∧ previous.observedAt < f.observedAt ∧ previous.slot < f.slot ∧
    f.observedAt - previous.observedAt ≤ terminalProbeMaxAge ∧
    f.observedAt - previous.firstObservedAt ≤ terminalProbeMaxAge

def Finding.first (f : Finding) : RouteProbe where
  mint := f.mint
  outcome := f.outcome
  verified := f.available.isSome
  consecutive := if f.available = none then 0 else 1
  firstObservedAt := f.observedAt
  observedAt := f.observedAt
  slot := max 0 f.slot
  firstSlot := f.slot
  marketStatus := f.marketStatus
  blockers := f.blockers.take 12
  positionId := f.positionId
  routeIdentity := f.routeIdentity

def RouteProbe.next (previous : RouteProbe) (f : Finding) : RouteProbe :=
  let duplicate := previous.duplicateOrReordered f
  let continues := previous.continuesFreshSequence f
  { f.first with
    consecutive :=
      if f.available = none then 0
      else if duplicate then previous.consecutive
      else if continues then previous.consecutive + 1
      else 1
    firstObservedAt := if continues || duplicate then previous.firstObservedAt else f.observedAt
    observedAt := if duplicate then previous.observedAt else f.observedAt
    slot := max (max previous.slot 0) f.slot
    firstSlot := if continues || duplicate then previous.firstSlot else f.slot }

def recordPositionRouteProbe (probes : RouteProbes) (f : Finding) : RouteProbes :=
  probes.upsert (match probes.get? f.mint with
    | none => f.first
    | some previous => previous.next f)

/-- `_prune_position_route_probes`. A probe without an identity stays with the mint. -/
def prunePositionRouteProbes (positions : Positions) (probes : RouteProbes) : RouteProbes :=
  probes.filter fun probe => (positions.get? probe.mint).any fun position =>
    probe.positionId = none ∨ probe.positionId = some position.positionId

/-! ### What is decided at the end of a season -/

def RouteProbe.evidence (probe : RouteProbe) : Probe where
  verified := probe.verified
  outcome := some probe.outcome.value
  consecutive := some probe.consecutive
  firstSlot := some probe.firstSlot
  slot := some probe.slot
  firstObservedAt := some probe.firstObservedAt
  observedAt := some probe.observedAt

/-- The empty dictionary, where there is no probe. -/
def noProbe : Probe := ⟨false, none, none, none, none, none, none⟩

def confirmedUnavailable (healthy : Bool) (probe : Option RouteProbe) (position : Position) (now : Instant) : Bool :=
  match probe with
  | none => false
  | some probe =>
    healthy ∧ validTerminalProbe ⟨some terminalProbePolicy, healthy, some probe.evidence⟩ now ∧
      position.marketStatus ≠ .active ∧ probe.outcome = .unavailable ∧ 2 ≤ probe.consecutive ∧
      (probe.observedAt ≤ now ∧ max 0 (now - probe.observedAt) ≤ terminalProbeMaxAge) ∧
      (probe.firstObservedAt ≤ now ∧ max 0 (now - probe.firstObservedAt) ≤ terminalProbeMaxAge)

def terminalPositionDisposition (healthy : Bool) (now : Instant) (probe : Option RouteProbe) (position : Position) :
    Disposition :=
  if confirmedUnavailable healthy probe position now then
    ⟨some "write_off", some ⟨some terminalProbePolicy, true, probe.map (·.evidence)⟩⟩
  else ⟨some "unknown", some ⟨none, healthy, some ((probe.map (·.evidence)).getD noProbe)⟩⟩

/-- `_terminal_position_dispositions`: what is decided on the mints, and those whose evidence is pending. -/
def terminalPositionDispositions (positions : Positions) (probes : RouteProbes) (healthy : Bool) (now : Instant) :
    (String → Option Disposition) × List String :=
  (fun mint => (positions.get? mint).map (terminalPositionDisposition healthy now (probes.get? mint)),
    (positions.rows.filter fun position =>
      ¬ confirmedUnavailable healthy (probes.get? position.mint) position now ∧
        position.marketStatus ≠ .active).map (·.mint))

/-! ### The watchdog and the seasons -/

/-- The positions and their probes, and what was found. -/
structure Watch where
  positions : Positions := .empty
  /-- The mints bought in the season. A mint is not bought again. -/
  tradedMints : List String := []
  probes : RouteProbes := .empty
  /-- A heartbeat has passed in this season. No season ends before it. -/
  due : Bool := false
  /-- The identifiers drawn so far. -/
  ids : ℕ := 0
  /-- The findings that were recorded, oldest first. -/
  log : List Finding := []

/-- A target of the watchdog, and what its accounts say. -/
structure Target where
  mint : String
  positionId : Option ℕ
  /-- The snapshot of the accounts was applied. -/
  refreshed : Bool
  available : Option Bool
  blockers : List String
  routeIdentity : Option String

def Target.finding (target : Target) (position : Position) (slot : ℤ) (now : Instant) : Finding where
  mint := position.mint
  available := if target.refreshed then target.available else none
  observedAt := now
  slot := slot
  marketStatus := position.marketStatus
  blockers := if target.refreshed then target.blockers else ["route_refresh_not_verified"]
  routeIdentity := if target.refreshed then target.routeIdentity else none
  positionId := some position.positionId

def Watch.prune (s : Watch) : Watch := { s with probes := prunePositionRouteProbes s.positions s.probes }

def Watch.record (s : Watch) (f : Finding) : Watch :=
  { s with probes := recordPositionRouteProbe s.probes f, log := s.log ++ [f] }

/-- A target of a result of the watchdog. The request may be older than the position. -/
def Watch.observe (slot : ℤ) (now : Instant) (s : Watch) (target : Target) : Watch :=
  match s.positions.get? target.mint with
  | none => { s with probes := s.probes.erase target.mint }
  | some position =>
    if target.positionId.any (· ≠ position.positionId) then s
    else s.record (target.finding position slot now)

/-- `_apply_position_watchdog_result`, what it does to the probes. -/
def Watch.applyPositionWatchdogResult (s : Watch) (targets : List Target) (slot : ℤ) (now : Instant) : Watch :=
  if slot ≤ 0 then s else targets.foldl (Watch.observe slot now) s.prune

/-- Something happens to the positions of a season or to what is known of their routes. -/
inductive Action where
  | buy (position : Position)
  | sell (mint : String)
  | mark (mint : String) (marketStatus : PositionMarketStatus) (blockers : List String)
  | watchdog (targets : List Target) (slot : ℤ) (now : Instant)
  | heartbeat
  /-- The season is looked at, and may end. -/
  | tick (healthy : Bool) (now : Instant)
  /-- A new season begins. A reset by hand leaves the probes. -/
  | newSeason (clears : Bool)
  | restart

/-- A position that is opened, under an identifier of its own. -/
def Watch.opened (s : Watch) (position : Position) : Position := { position with positionId := s.ids }

def Watch.buy (s : Watch) (position : Position) : Watch :=
  if position.mint = "" ∨ position.mint ∈ s.tradedMints then s
  else { s with
    positions := s.positions.upsert (s.opened position)
    tradedMints := position.mint :: s.tradedMints
    ids := s.ids + 1 }

def markPosition (mint : String) (marketStatus : PositionMarketStatus) (blockers : List String) (position : Position) :
    Position :=
  if position.mint = mint then { position with marketStatus := marketStatus, markBlockers := blockers } else position

variable {position : Position} {now : Instant} {healthy : Bool}

@[simp] theorem markPosition_mint {mint : String} {marketStatus : PositionMarketStatus} {blockers : List String}
    : (markPosition mint marketStatus blockers position).mint = position.mint := by
  unfold markPosition
  split_ifs <;> rfl

@[simp] theorem markPosition_positionId {mint : String} {marketStatus : PositionMarketStatus} {blockers : List String}
    : (markPosition mint marketStatus blockers position).positionId = position.positionId := by
  unfold markPosition
  split_ifs <;> rfl

def Watch.step (s : Watch) : Action → Watch
  | .buy position => s.buy position
  | .sell mint => { s with positions := s.positions.erase mint }
  | .mark mint marketStatus blockers =>
    { s with positions := s.positions.map (markPosition mint marketStatus blockers) fun _ => markPosition_mint }
  | .watchdog targets slot now => s.applyPositionWatchdogResult targets slot now
  | .heartbeat => { s.prune with due := true }
  | .tick _ _ => s
  | .newSeason clears =>
    { s with positions := .empty, tradedMints := [], due := false, probes := if clears then .empty else s.probes }
  | .restart => { s with probes := .empty, due := false }

/-! ### Evidence -/

/-- The finding repeats what the probe says. -/
def RouteProbe.Matches (probe : RouteProbe) (f : Finding) : Prop :=
  f.mint = probe.mint ∧ probe.sameOutcome f = true

/-- A later finding that a probe of two and more stands on. -/
structure RouteProbe.Confirms (probe : RouteProbe) (last : Finding) : Prop where
  same : probe.Matches last
  observedAt : last.observedAt = probe.observedAt
  slot : probe.firstSlot < last.slot
  later : probe.firstObservedAt < probe.observedAt

/-- The findings a probe sums up: since the first of them, all findings of the mint match the probe. -/
structure Evidenced (log : List Finding) (probe : RouteProbe) : Prop where
  verified : probe.verified = true ↔ probe.outcome ≠ .unknown
  ordered : probe.firstObservedAt ≤ probe.observedAt
  slots : probe.firstSlot ≤ probe.slot
  findings : ∃ before first since, log = before ++ first :: since ∧ probe.Matches first ∧
    first.observedAt = probe.firstObservedAt ∧ first.slot = probe.firstSlot ∧
    (∀ f ∈ since, f.mint = probe.mint → probe.Matches f) ∧
    (2 ≤ probe.consecutive → ∃ last ∈ since, probe.Confirms last)

theorem Finding.first_matches : f.first.Matches f := by
  simp [RouteProbe.Matches, RouteProbe.sameOutcome, Finding.first]

theorem RouteProbe.next_matches : (previous.next f).Matches f := by
  simp [RouteProbe.Matches, RouteProbe.sameOutcome, RouteProbe.next, Finding.first]

theorem Evidenced.single (hverified : probe.verified = true ↔ probe.outcome ≠ .unknown) (hmatches : probe.Matches f)
    (hfirst : f.observedAt = probe.firstObservedAt) (hlast : f.observedAt = probe.observedAt)
    (hfirstSlot : f.slot = probe.firstSlot) (hslot : f.slot ≤ probe.slot) (hone : probe.consecutive ≤ 1) :
    Evidenced (log ++ [f]) probe := by
  refine ⟨hverified, by rw [← hfirst, ← hlast], by rw [← hfirstSlot]; exact hslot, ?_⟩
  refine ⟨log, f, [], rfl, hmatches, hfirst, hfirstSlot, by simp, ?_⟩
  intro htwo
  omega

theorem Finding.first_verified : f.first.verified = true ↔ f.first.outcome ≠ .unknown := by
  unfold Finding.first Finding.outcome
  rcases f.available with _ | _ | _ <;> simp

theorem Finding.first_consecutive : f.first.consecutive ≤ 1 := by
  unfold Finding.first
  dsimp only
  split_ifs <;> omega

theorem Finding.first_evidenced : Evidenced (log ++ [f]) f.first :=
  .single Finding.first_verified Finding.first_matches rfl rfl rfl (le_max_right _ _) Finding.first_consecutive

theorem Evidenced.other (h : Evidenced log probe) (hmint : f.mint ≠ probe.mint) : Evidenced (log ++ [f]) probe := by
  obtain ⟨before, first, since, rfl, hfirst, htime, hslot, hsince, hlast⟩ := h.findings
  refine ⟨h.verified, h.ordered, h.slots, before, first, since ++ [f], by simp, hfirst, htime, hslot, ?_, ?_⟩
  · intro g hg hgmint
    rcases mem_append.mp hg with hg | hg
    · exact hsince g hg hgmint
    · rw [mem_singleton.mp hg] at hgmint
      exact absurd hgmint hmint
  · intro htwo
    obtain ⟨last, hmem, hlast⟩ := hlast htwo
    exact ⟨last, mem_append_left _ hmem, hlast⟩

theorem Evidenced.restart (hduplicate : previous.duplicateOrReordered f = false)
    (hcontinues : previous.continuesFreshSequence f = false) : Evidenced (log ++ [f]) (previous.next f) := by
  have hnext : previous.next f = { f.first with slot := max (max previous.slot 0) f.slot } := by
    unfold RouteProbe.next
    rw [hduplicate, hcontinues]
    rfl
  rw [hnext]
  exact .single (f := f) Finding.first_verified Finding.first_matches rfl rfl rfl (le_max_right _ _)
    Finding.first_consecutive

theorem RouteProbe.Matches.next {g : Finding} (hsame : previous.sameOutcome f = true) (hmint : f.mint = previous.mint)
    (h : previous.Matches g) : (previous.next f).Matches g := by
  simp only [RouteProbe.Matches, RouteProbe.sameOutcome, decide_eq_true_eq] at h hsame ⊢
  obtain ⟨hgmint, houtcome, hposition, hroute⟩ := h
  obtain ⟨houtcome', hposition', hroute'⟩ := hsame
  refine ⟨hgmint.trans hmint.symm, houtcome'.symm.trans houtcome, hposition'.symm.trans hposition, ?_⟩
  exact hroute'.symm.trans hroute

theorem Evidenced.duplicate (h : Evidenced log previous) (hmint : f.mint = previous.mint)
    (hduplicate : previous.duplicateOrReordered f = true) : Evidenced (log ++ [f]) (previous.next f) := by
  have hsame : previous.sameOutcome f = true := by
    rw [RouteProbe.duplicateOrReordered, decide_eq_true_eq] at hduplicate
    exact hduplicate.1
  have hfirst : (previous.next f).firstObservedAt = previous.firstObservedAt := by simp [RouteProbe.next, hduplicate]
  have hlast : (previous.next f).observedAt = previous.observedAt := by simp [RouteProbe.next, hduplicate]
  have hfirstSlot : (previous.next f).firstSlot = previous.firstSlot := by simp [RouteProbe.next, hduplicate]
  have hslot : previous.slot ≤ (previous.next f).slot := (le_max_left _ _).trans (le_max_left _ _)
  have hconsecutive : (previous.next f).consecutive ≤ previous.consecutive := by
    simp only [RouteProbe.next, hduplicate]
    split_ifs <;> omega
  obtain ⟨before, first, since, rfl, hmatches, htime, hfslot, hsince, hconfirmed⟩ := h.findings
  refine ⟨Finding.first_verified, by rw [hfirst, hlast]; exact h.ordered,
    by rw [hfirstSlot]; exact h.slots.trans hslot, ?_⟩
  refine ⟨before, first, since ++ [f], by simp, hmatches.next hsame hmint, htime.trans hfirst.symm,
    hfslot.trans hfirstSlot.symm, ?_, ?_⟩
  · intro g hg hgmint
    rcases mem_append.mp hg with hg | hg
    · exact (hsince g hg (hgmint.trans hmint)).next hsame hmint
    · rw [mem_singleton.mp hg]
      exact RouteProbe.next_matches
  · intro htwo
    obtain ⟨last, hmem, hc⟩ := hconfirmed (htwo.trans hconsecutive)
    refine ⟨last, mem_append_left _ hmem, hc.same.next hsame hmint, hc.observedAt.trans hlast.symm, ?_, ?_⟩
    · rw [hfirstSlot]
      exact hc.slot
    · rw [hfirst, hlast]
      exact hc.later

theorem Evidenced.continue (h : Evidenced log previous) (hmint : f.mint = previous.mint)
    (hcontinues : previous.continuesFreshSequence f = true) : Evidenced (log ++ [f]) (previous.next f) := by
  have hc := hcontinues
  rw [RouteProbe.continuesFreshSequence, decide_eq_true_eq] at hc
  obtain ⟨hsame, hlater, hslots, -, -⟩ := hc
  have hduplicate : previous.duplicateOrReordered f = false := by
    rw [RouteProbe.duplicateOrReordered, decide_eq_false_iff_not]
    rintro ⟨-, hle | hle⟩
    · exact hle.not_gt hlater
    · exact hle.not_gt hslots
  have hfirst : (previous.next f).firstObservedAt = previous.firstObservedAt := by simp [RouteProbe.next, hcontinues]
  have hlast : (previous.next f).observedAt = f.observedAt := by simp [RouteProbe.next, hduplicate]
  have hfirstSlot : (previous.next f).firstSlot = previous.firstSlot := by simp [RouteProbe.next, hcontinues]
  have hslot : previous.slot ≤ (previous.next f).slot := (le_max_left _ _).trans (le_max_left _ _)
  have hordered : previous.firstObservedAt < f.observedAt := h.ordered.trans_lt hlater
  obtain ⟨before, first, since, rfl, hmatches, htime, hfslot, hsince, -⟩ := h.findings
  refine ⟨Finding.first_verified, by rw [hfirst, hlast]; exact hordered.le,
    by rw [hfirstSlot]; exact h.slots.trans hslot, ?_⟩
  refine ⟨before, first, since ++ [f], by simp, hmatches.next hsame hmint, htime.trans hfirst.symm,
    hfslot.trans hfirstSlot.symm, ?_, ?_⟩
  · intro g hg hgmint
    rcases mem_append.mp hg with hg | hg
    · exact (hsince g hg (hgmint.trans hmint)).next hsame hmint
    · rw [mem_singleton.mp hg]
      exact RouteProbe.next_matches
  · intro _
    refine ⟨f, by simp, RouteProbe.next_matches, hlast.symm, ?_, ?_⟩
    · rw [hfirstSlot]
      exact h.slots.trans_lt hslots
    · rw [hfirst, hlast]
      exact hordered

/-- **What a finding does to the evidence of a probe**: it stands in any case. -/
theorem Evidenced.next (h : Evidenced log previous) (hmint : f.mint = previous.mint) :
    Evidenced (log ++ [f]) (previous.next f) := by
  by_cases hduplicate : previous.duplicateOrReordered f = true
  · exact h.duplicate hmint hduplicate
  · by_cases hcontinues : previous.continuesFreshSequence f = true
    · exact h.continue hmint hcontinues
    · exact .restart (by simpa using hduplicate) (by simpa using hcontinues)

theorem recordPositionRouteProbe_evidenced {probes : RouteProbes} (h : ∀ probe ∈ probes, Evidenced log probe) :
    ∀ probe ∈ recordPositionRouteProbe probes f, Evidenced (log ++ [f]) probe := by
  intro probe hprobe
  rcases Table.mem_upsert.mp hprobe with rfl | ⟨hprobe, hkey⟩
  · cases hprevious : probes.get? f.mint with
    | none => exact Finding.first_evidenced
    | some previous =>
      obtain ⟨hmem, hmint⟩ := Table.get?_eq_some.mp hprevious
      exact (h previous hmem).next hmint.symm
  · refine (h probe hprobe).other fun hmint => hkey ?_
    rw [← hmint]
    cases probes.get? f.mint <;> rfl

/-! ### The invariant -/

/-- What every run of the watchdog keeps. -/
structure Watch.Sound (s : Watch) : Prop where
  evidenced : ∀ probe ∈ s.probes, Evidenced s.log probe
  identified : ∀ probe ∈ s.probes, probe.positionId.isSome = true
  positions : ∀ position ∈ s.positions,
    position.mint ≠ "" ∧ position.mint ∈ s.tradedMints ∧ position.positionId < s.ids
  ids : (s.positions.rows.map (·.positionId)).Nodup
  /-- Once a season can end, no probe is of an earlier position of its mint. -/
  current : s.due = true → ∀ probe ∈ s.probes, probe.mint ∈ s.tradedMints ∧
    ∀ position ∈ s.positions, position.mint = probe.mint → probe.positionId = some position.positionId

variable {s : Watch}

theorem mem_prunePositionRouteProbes {positions : Positions} {probes : RouteProbes}
    (h : probe ∈ prunePositionRouteProbes positions probes) :
    probe ∈ probes ∧ ∃ position ∈ positions, position.mint = probe.mint ∧
      (probe.positionId = none ∨ probe.positionId = some position.positionId) := by
  obtain ⟨hmem, hany⟩ := Table.mem_filter.mp h
  rw [Option.any_eq_true] at hany
  obtain ⟨position, hget, hid⟩ := hany
  obtain ⟨hposition, hmint⟩ := Table.get?_eq_some.mp hget
  exact ⟨hmem, position, hposition, hmint, by simpa using hid⟩

namespace Watch.Sound

section

variable (h : s.Sound)
include h

theorem prune : ({ s.prune with due := true } : Watch).Sound := by
  constructor
  · exact fun probe hprobe => h.evidenced probe (mem_prunePositionRouteProbes hprobe).1
  · exact fun probe hprobe => h.identified probe (mem_prunePositionRouteProbes hprobe).1
  · exact h.positions
  · exact h.ids
  · intro _ probe hprobe
    obtain ⟨hmem, position, hposition, hmint, hid⟩ := mem_prunePositionRouteProbes hprobe
    have hsome := h.identified probe hmem
    have hcurrent : probe.positionId = some position.positionId := by
      rcases hid with hid | hid
      · simp [hid] at hsome
      · exact hid
    refine ⟨hmint ▸ (h.positions position hposition).2.1, fun position' hposition' hmint' => ?_⟩
    rw [Table.eq_of_key hposition' hposition (hmint'.trans hmint.symm)]
    exact hcurrent

theorem pruned : s.prune.Sound := by
  have hpruned := h.prune
  exact ⟨hpruned.evidenced, hpruned.identified, hpruned.positions, hpruned.ids, fun _ => hpruned.current rfl⟩

theorem record (hposition : position ∈ s.positions)
    (hmint : f.mint = position.mint) (hid : f.positionId = some position.positionId) : (s.record f).Sound := by
  have hrecorded : ∀ probe ∈ recordPositionRouteProbe s.probes f,
      probe.mint = f.mint ∧ probe.positionId = f.positionId ∨ probe ∈ s.probes := by
    intro probe hprobe
    rcases Table.mem_upsert.mp hprobe with rfl | ⟨hprobe, -⟩
    · left
      cases s.probes.get? f.mint <;> exact ⟨rfl, rfl⟩
    · exact .inr hprobe
  constructor
  · exact recordPositionRouteProbe_evidenced h.evidenced
  · intro probe hprobe
    rcases hrecorded probe hprobe with ⟨-, hprobe⟩ | hprobe
    · rw [hprobe, hid]
      rfl
    · exact h.identified probe hprobe
  · exact h.positions
  · exact h.ids
  · intro hdue probe hprobe
    rcases hrecorded probe hprobe with ⟨hmint', hprobe⟩ | hprobe
    · rw [hmint', hmint, hprobe, hid]
      refine ⟨(h.positions position hposition).2.1, fun position' hposition' he => ?_⟩
      rw [Table.eq_of_key hposition hposition' he.symm]
    · exact h.current hdue probe hprobe

theorem observe {slot : ℤ} {target : Target} :
    (s.observe slot now target).Sound := by
  unfold Watch.observe
  cases hposition : s.positions.get? target.mint with
  | none =>
    have herase : ∀ probe ∈ s.probes.erase target.mint, probe ∈ s.probes := fun probe hprobe =>
      (Table.mem_erase.mp hprobe).1
    exact ⟨fun probe hprobe => h.evidenced probe (herase probe hprobe),
      fun probe hprobe => h.identified probe (herase probe hprobe), h.positions, h.ids,
      fun hdue probe hprobe => h.current hdue probe (herase probe hprobe)⟩
  | some position =>
    dsimp only
    split_ifs
    · exact h
    · exact h.record (Table.get?_eq_some.mp hposition).1 rfl rfl

theorem applyPositionWatchdogResult {targets : List Target} {slot : ℤ} :
    (s.applyPositionWatchdogResult targets slot now).Sound := by
  unfold Watch.applyPositionWatchdogResult
  split_ifs
  · exact h
  · exact run_invariant h.pruned fun _ _ hs => hs.observe

theorem buy : (s.buy position).Sound := by
  unfold Watch.buy
  split_ifs with hguard
  · exact h
  · rw [not_or] at hguard
    obtain ⟨hmint, hfresh⟩ := hguard
    have hnew : ∀ position' ∈ s.positions, position'.mint ≠ (s.opened position).mint := by
      intro position' hposition' he
      have htraded := (h.positions position' hposition').2.1
      rw [he] at htraded
      exact hfresh htraded
    constructor
    · exact h.evidenced
    · exact h.identified
    · apply Table.forall_mem_upsert
      · exact ⟨hmint, mem_cons_self, Nat.lt_succ_self _⟩
      · intro position' hposition'
        obtain ⟨hne, htraded, hid⟩ := h.positions position' hposition'
        exact ⟨hne, mem_cons_of_mem _ htraded, hid.trans (Nat.lt_succ_self _)⟩
    · dsimp only
      rw [Table.rows_upsert_fresh hnew, map_append]
      apply nodup_append.mpr
      refine ⟨h.ids, nodup_singleton _, ?_⟩
      rintro id hid id' hid' rfl
      obtain ⟨position', hposition', rfl⟩ := mem_map.mp hid
      rw [map_singleton, mem_singleton] at hid'
      exact (h.positions position' hposition').2.2.ne hid'
    · -- a mint that has a probe was bought before
      intro hdue probe hprobe
      obtain ⟨htraded, hcurrent⟩ := h.current hdue probe hprobe
      refine ⟨mem_cons_of_mem _ htraded, fun position' hposition' he => ?_⟩
      rcases Table.mem_upsert.mp hposition' with rfl | ⟨hposition', -⟩
      · exact absurd (he ▸ htraded) hfresh
      · exact hcurrent position' hposition' he

theorem step (a : Action) : (s.step a).Sound := by
  cases a with
  | buy position => exact h.buy
  | sell mint =>
    have herase : ∀ position ∈ s.positions.erase mint, position ∈ s.positions := fun position hposition =>
      (Table.mem_erase.mp hposition).1
    exact ⟨h.evidenced, h.identified, fun position hposition => h.positions position (herase position hposition),
      h.ids.sublist (filter_sublist.map _), fun hdue probe hprobe =>
        ⟨(h.current hdue probe hprobe).1, fun position hposition =>
          (h.current hdue probe hprobe).2 position (herase position hposition)⟩⟩
  | mark mint marketStatus blockers =>
    have hmark : ∀ position ∈ s.positions.map (markPosition mint marketStatus blockers) fun _ => markPosition_mint,
        ∃ position' ∈ s.positions, position'.mint = position.mint ∧ position'.positionId = position.positionId := by
      intro position hposition
      obtain ⟨position', hposition', rfl⟩ := mem_map.mp hposition
      exact ⟨position', hposition', markPosition_mint.symm, markPosition_positionId.symm⟩
    refine ⟨h.evidenced, h.identified, fun position hposition => ?_, ?_, fun hdue probe hprobe => ?_⟩
    · obtain ⟨position', hposition', hmint, hid⟩ := hmark position hposition
      rw [← hmint, ← hid]
      exact h.positions position' hposition'
    · show ((s.positions.rows.map _).map _).Nodup
      rw [map_map]
      have hids : s.positions.rows.map ((·.positionId) ∘ markPosition mint marketStatus blockers) =
          s.positions.rows.map (·.positionId) := map_congr_left fun _ _ => markPosition_positionId
      rw [hids]
      exact h.ids
    · refine ⟨(h.current hdue probe hprobe).1, fun position hposition he => ?_⟩
      obtain ⟨position', hposition', hmint, hid⟩ := hmark position hposition
      rw [← hid]
      exact (h.current hdue probe hprobe).2 position' hposition' (hmint.trans he)
  | watchdog targets slot now => exact h.applyPositionWatchdogResult
  | heartbeat => exact h.prune
  | tick healthy now => exact h
  | newSeason clears =>
    have hclear : ∀ probe ∈ (if clears then .empty else s.probes : RouteProbes), probe ∈ s.probes := by
      intro probe hprobe
      split_ifs at hprobe
      · exact absurd hprobe Table.not_mem_empty
      · exact hprobe
    exact ⟨fun probe hprobe => h.evidenced probe (hclear probe hprobe),
      fun probe hprobe => h.identified probe (hclear probe hprobe),
      fun _ hposition => absurd hposition Table.not_mem_empty, nodup_nil, fun hdue => absurd hdue (by simp [Watch.step])⟩
  | restart =>
    exact ⟨fun _ hprobe => absurd hprobe Table.not_mem_empty, fun _ hprobe => absurd hprobe Table.not_mem_empty,
      h.positions, h.ids, fun hdue => absurd hdue (by simp [Watch.step])⟩

end

end Watch.Sound

/-! ### Write-offs -/

/-- The finding tells of the position that its route is unavailable. -/
structure Finding.Unavailable (f : Finding) (position : Position) (route : Option String) : Prop where
  mint : f.mint = position.mint
  positionId : f.positionId = some position.positionId
  routeIdentity : f.routeIdentity = route
  available : f.available = some false

/-- Two findings, of the last three minutes and at increasing slots and times, say that the route of a position is
unavailable, and since the first of them nothing else was found out about its mint. -/
def Watch.Confirmed (s : Watch) (position : Position) (now : Instant) : Prop :=
  ∃ route before first between last since, s.log = before ++ first :: between ++ last :: since ∧
    first.Unavailable position route ∧ last.Unavailable position route ∧
    (∀ f ∈ between ++ since, f.mint = position.mint → f.Unavailable position route) ∧
    first.slot < last.slot ∧ first.observedAt < last.observedAt ∧ last.observedAt ≤ now ∧
    now - first.observedAt ≤ terminalProbeMaxAge

/-- What a look at a season decides on its positions. -/
def Watch.dispositions (s : Watch) (healthy : Bool) (now : Instant) : Option (String → Option Disposition) :=
  if s.due then some (terminalPositionDispositions s.positions s.probes healthy now).1 else none

/-- What is decided when a season is looked at. -/
structure Watch.Lawful (s : Watch) (a : Action) : Prop where
  /-- A position is written off on confirmed evidence only. -/
  confirmed : ∀ healthy now dispositions, a = .tick healthy now → s.dispositions healthy now = some dispositions →
    ∀ position ∈ s.positions, ∀ disposition ∈ dispositions position.mint,
    disposition.terminalDisposition = some "write_off" → healthy = true ∧ s.Confirmed position now
  /-- The gate of the archive lets the records of the positions pass. -/
  accepted : ∀ healthy now dispositions, a = .tick healthy now → s.dispositions healthy now = some dispositions →
    ∀ (env : Env) (reason : String) (summary : SeasonSummary), summary.openPositions = s.positions.rows.length →
    validateUnresolvedInventory summary
      (s.positions.rows.map fun position => unresolvedPosition env now reason (dispositions position.mint) position) now =
      .ok ()

theorem RouteProbe.Matches.unavailable (h : probe.Matches f)
    (houtcome : probe.outcome = .unavailable) (hmint : probe.mint = position.mint)
    (hid : probe.positionId = some position.positionId) : f.Unavailable position probe.routeIdentity := by
  simp only [RouteProbe.Matches, RouteProbe.sameOutcome, decide_eq_true_eq] at h
  obtain ⟨hfmint, hfoutcome, hfid, hroute⟩ := h
  refine ⟨hfmint.trans hmint, hfid.symm.trans hid, hroute.symm, ?_⟩
  rw [houtcome] at hfoutcome
  unfold Finding.outcome at hfoutcome
  split at hfoutcome
  · cases hfoutcome
  · cases hfoutcome
  · assumption

theorem Watch.Sound.confirmed (h : s.Sound) (hdue : s.due = true) (hposition : position ∈ s.positions)
    (hconfirmed : confirmedUnavailable healthy (s.probes.get? position.mint) position now = true) :
    healthy = true ∧ s.Confirmed position now := by
  unfold confirmedUnavailable at hconfirmed
  split at hconfirmed
  · cases hconfirmed
  · rename_i probe hprobe
    rw [decide_eq_true_eq] at hconfirmed
    obtain ⟨hhealthy, -, -, houtcome, htwo, ⟨hnow, -⟩, -, hage⟩ := hconfirmed
    obtain ⟨hmem, hmint⟩ := Table.get?_eq_some.mp hprobe
    have hid := (h.current hdue probe hmem).2 position hposition hmint.symm
    obtain ⟨before, first, since, hlog, hfirst, htime, hslot, hsince, hconfirms⟩ := (h.evidenced probe hmem).findings
    obtain ⟨last, hlast, hlater⟩ := hconfirms htwo
    obtain ⟨between, rest, rfl⟩ := append_of_mem hlast
    refine ⟨hhealthy, probe.routeIdentity, before, first, between, last, rest, by rw [hlog]; simp,
      hfirst.unavailable houtcome hmint hid, hlater.same.unavailable houtcome hmint hid, ?_, ?_, ?_, ?_, ?_⟩
    · intro f hf hfmint
      refine (hsince f ?_ (hfmint.trans hmint.symm)).unavailable houtcome hmint hid
      rcases mem_append.mp hf with hf | hf
      · exact mem_append_left _ hf
      · exact mem_append_right _ (mem_cons_of_mem _ hf)
    · rw [hslot]
      exact hlater.slot
    · rw [htime, hlater.observedAt]
      exact hlater.later
    · rw [hlater.observedAt]
      exact hnow
    · rw [htime]
      exact (le_max_right _ _).trans hage

theorem terminalPositionDisposition_writeOff {probe : Option RouteProbe}
    (h : (terminalPositionDisposition healthy now probe position).terminalDisposition = some "write_off") :
    confirmedUnavailable healthy probe position now = true := by
  unfold terminalPositionDisposition at h
  split_ifs at h with hconfirmed
  · exact hconfirmed
  · simp at h

theorem probe_increases {policy : Option String}
    (h : validTerminalProbe ⟨policy, healthy, some probe.evidence⟩ now = true) :
    0 < probe.firstSlot ∧ probe.firstSlot < probe.slot ∧ 0 < probe.observedAt - probe.firstObservedAt := by
  obtain ⟨-, -, hvalid⟩ := of_decide_eq_true h
  obtain ⟨-, -, -, ⟨hpositive, hslots⟩, hlater, -, -⟩ := of_decide_eq_true hvalid
  exact ⟨hpositive, hslots, hlater⟩

theorem validWriteOff_of_confirmed {probe : Option RouteProbe}
    (h : confirmedUnavailable healthy probe position now = true) :
    validWriteOff ⟨some terminalProbePolicy, true, probe.map (·.evidence)⟩ now = true := by
  cases probe with
  | none => exact absurd h Bool.false_ne_true
  | some probe =>
    dsimp only [confirmedUnavailable] at h
    rw [decide_eq_true_eq] at h
    obtain ⟨rfl, hvalid, -, houtcome, htwo, ⟨hnow, -⟩, -, hage⟩ := h
    obtain ⟨hpositive, hslots, hlater⟩ := probe_increases hvalid
    have hrange : now - probe.firstObservedAt ≤ seconds 180 := (le_max_right _ _).trans hage
    simp only [validWriteOff, Option.map_some, RouteProbe.evidence, Probe.readings, decide_eq_true_eq,
      Option.getD_some]
    refine ⟨hvalid, trivial, by rw [houtcome]; rfl, by exact_mod_cast htwo, hpositive.trans hslots, ⟨hlater, ?_⟩, ?_, ?_⟩
    · exact (sub_le_sub_right hnow _).trans hrange
    · exact sub_nonneg.mpr hnow
    · exact (sub_le_sub_left (sub_pos.mp hlater).le _).trans hrange

theorem terminalPositionDisposition_honest {probe : Option RouteProbe}
    {env : Env} {reason : String} (hmint : position.mint ≠ "") :
    (unresolvedPosition env now reason (some (terminalPositionDisposition healthy now probe position)) position).Honest
      now := by
  unfold terminalPositionDisposition
  split_ifs with hconfirmed
  · exact ⟨hmint, rfl, .inl rfl, fun _ => validWriteOff_of_confirmed hconfirmed⟩
  · exact ⟨hmint, rfl, .inr rfl, fun h => absurd h (by simp [unresolvedPosition, UnresolvedPosition.disposition])⟩

/-- What is concluded rests on probes. -/
theorem Watch.Sound.lawful (h : s.Sound) (a : Action) : s.Lawful a := by
  constructor
  · intro healthy now dispositions _ hdispositions position hposition disposition hmem hwriteOff
    unfold Watch.dispositions at hdispositions
    split_ifs at hdispositions with hdue
    cases hdispositions
    obtain ⟨position', hget, rfl⟩ := Option.map_eq_some_iff.mp hmem
    obtain ⟨hposition', hmint⟩ := Table.get?_eq_some.mp hget
    cases Table.eq_of_key hposition' hposition hmint
    exact h.confirmed hdue hposition (terminalPositionDisposition_writeOff hwriteOff)
  · intro healthy now dispositions _ hdispositions env reason summary hcount
    unfold Watch.dispositions at hdispositions
    split_ifs at hdispositions with hdue
    cases hdispositions
    have hids := h.ids
    have hmints := s.positions.nodup
    apply Inventory.accepted
    refine ⟨by rw [hcount, length_map], ?_, by rw [map_map]; exact hids, by rw [map_map]; exact hmints⟩
    intro record hrecord
    obtain ⟨position, hposition, rfl⟩ := mem_map.mp hrecord
    have hget : s.positions.get? position.mint = some position := Table.get?_eq_some.mpr ⟨hposition, rfl⟩
    dsimp only [terminalPositionDispositions]
    rw [hget, Option.map_some]
    exact terminalPositionDisposition_honest (h.positions position hposition).1

theorem sound_empty : ({} : Watch).Sound :=
  ⟨fun _ h => absurd h Table.not_mem_empty, fun _ h => absurd h Table.not_mem_empty,
    fun _ h => absurd h Table.not_mem_empty, nodup_nil, fun h => absurd h (by simp)⟩

/-- **A write-off needs terminal evidence**: in every run, whatever is written off when a season is looked at was
found unavailable twice, on one route, and the archive takes what is decided. -/
theorem writeOff_evidence (actions : List Action) : Along Watch.step Watch.Lawful {} actions := by
  rw [along_iff]
  rintro before a - -
  have hsound : (Runs.run Watch.step {} before).Sound := run_invariant sound_empty fun s a hs => hs.step a
  exact hsound.lawful a

def samplePosition : Position :=
  { positionId := 7, mint := "M", symbol := "M", tokenUnits := 1, entryCostLamports := 1, bookValueLamports := 1
    openedAt := 0, entryFillId := 1, riskModeAtEntry := none, baselineVersionAtEntry := "", exitTimingPlan := none
    venue := "pump_curve", curveAddress := "C", poolAddress := "", poolBaseTokenAccount := ""
    poolQuoteTokenAccount := "", quoteMint := "" }

/-- Two findings, a minute apart. A finding at an earlier slot in between counts for nothing. -/
example :
    ((Runs.run Watch.step {}
      [.buy samplePosition, .watchdog [⟨"M", none, true, some false, [], some "R"⟩] 10 0,
        .watchdog [⟨"M", none, true, some false, [], some "R"⟩] 9 (seconds 30),
        .watchdog [⟨"M", none, true, some false, [], some "R"⟩] 11 (seconds 60), .heartbeat]).dispositions true
      (seconds 90)).bind (fun dispositions => (dispositions "M").bind (·.terminalDisposition)) = some "write_off" := by
  decide +kernel

end SignalArcade.Archive.TerminalProbes
