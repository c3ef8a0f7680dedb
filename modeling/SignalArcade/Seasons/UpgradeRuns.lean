import SignalArcade.Seasons.UpgradePreparation

/-!
# What a preparation leaves
-/

namespace SignalArcade.Seasons.Upgrade

open AutoNewSeason (Clock Gate GraceSeconds Tick seconds Ticked tick_ticked pause_frame resume_frame setClock_frame
  setClock_clock)
open Runs List

/-! ### The clock under a tick -/

section season

variable {season : AutoNewSeason.State} {tick : Tick}

theorem resolve_grace (season : AutoNewSeason.State) (now : ℤ) : (season.resolve now).graceSeconds = season.graceSeconds := by
  unfold AutoNewSeason.State.resolve
  split
  · rfl
  · split_ifs <;> rfl

theorem tick_grace (season : AutoNewSeason.State) (tick : Tick) :
    (season.step (.tick tick)).graceSeconds = season.graceSeconds := by
  show (season.tick tick).2.graceSeconds = season.graceSeconds
  have hticked := tick_ticked season tick
  generalize season.tick tick = ticked at hticked ⊢
  have hresume : (season.currentResolution.resume tick.now).graceSeconds = season.graceSeconds :=
    (resume_frame season.currentResolution tick.now).graceSeconds
  cases hticked with
  | maintenance => rfl
  | waiting => exact (pause_frame season.currentResolution tick.now).graceSeconds
  | other _ _ hs =>
    rcases hs with ⟨rfl, -⟩ | rfl <;> exact (setClock_frame season.currentResolution {}).graceSeconds
  | early => exact hresume
  | due => exact (resolve_grace _ _).trans hresume
  | rolled => exact (resolve_grace _ _).trans hresume

theorem tick_clock (h : (season.step (.tick tick)).clock.eligibleSince.isSome = true) :
    tick.maintenance = true ∧ season.clock.eligibleSince.isSome = true ∨
      tick.maintenance = false ∧ tick.gate ≠ .other := by
  change (season.tick tick).2.clock.eligibleSince.isSome = true at h
  have hticked := tick_ticked season tick
  generalize season.tick tick = ticked at hticked h
  cases hticked with
  | maintenance hm => exact .inl ⟨hm, h⟩
  | waiting hm hgate => exact .inr ⟨hm, by rw [hgate]; decide⟩
  | other _ _ hs =>
    rcases hs with ⟨rfl, -⟩ | rfl
    · rw [setClock_clock] at h
      cases h
    · change ((season.currentResolution.setClock {}).clock).eligibleSince.isSome = true at h
      rw [setClock_clock] at h
      cases h
  | early hm hgate => exact .inr ⟨hm, by rw [hgate]; decide⟩
  | due hm hgate => exact .inr ⟨hm, by rw [hgate]; decide⟩
  | rolled hm hgate => exact .inr ⟨hm, by rw [hgate]; decide⟩

end season

/-! ### Orders -/

variable {s : State} {orderId : String}

theorem mem_pending : orderId ∈ s.pending ↔ s.orders.get? orderId = some ⟨orderId, .pending⟩ := by
  unfold State.pending
  rw [mem_map]
  constructor
  · rintro ⟨order, hmem, rfl⟩
    rw [mem_filter, decide_eq_true_eq] at hmem
    refine Table.get?_eq_some.mpr ⟨?_, rfl⟩
    rw [← hmem.2]
    exact hmem.1
  · intro hget
    obtain ⟨hmem, -⟩ := Table.get?_eq_some.mp hget
    exact ⟨_, mem_filter.mpr ⟨hmem, by simp⟩, rfl⟩

theorem get?_cancelOrders (orderIds : List String) :
    (s.cancelOrders orderIds).orders.get? orderId =
      if orderId ∈ orderIds then some ⟨orderId, .cancelled⟩ else s.orders.get? orderId := by
  have hfold : ∀ orders : Table String PaperOrder PaperOrder.orderId,
      (orderIds.foldl (fun orders orderId => orders.upsert ⟨orderId, .cancelled⟩) orders).get? orderId =
        if orderId ∈ orderIds then some ⟨orderId, .cancelled⟩ else orders.get? orderId := by
    induction orderIds with
    | nil => exact fun _ => rfl
    | cons first orderIds ih =>
      intro orders
      rw [foldl_cons, ih, Table.get?_upsert]
      by_cases hrest : orderId ∈ orderIds
      · rw [if_pos hrest, if_pos (mem_cons_of_mem _ hrest)]
      · rw [if_neg hrest]
        by_cases hfirst : orderId = first
        · subst hfirst
          rw [if_pos rfl, if_pos mem_cons_self]
        · rw [if_neg hfirst, if_neg]
          rw [mem_cons]
          exact fun h => h.elim hfirst hrest
  exact hfold s.orders

theorem pending_cancelOrders {orderIds : List String} (h : ∀ id ∈ s.pending, id ∈ orderIds) :
    (s.cancelOrders orderIds).pending = [] := by
  rw [eq_nil_iff_forall_not_mem]
  intro id hmem
  rw [mem_pending, get?_cancelOrders] at hmem
  split_ifs at hmem with hin
  · cases hmem
  · exact hin (h id (mem_pending.mpr hmem))

/-! ### The invariant -/

/-- What stands in the settings. -/
structure State.Sound (s : State) : Prop where
  synced : s.season.Synced
  initialized : s.tradingEnabled = true → s.initialized = true
  clock : s.season.clock.eligibleSince.isSome = true → s.autoNewSeasonEnabled = true ∧ s.tradingEnabled = true
  began : ∀ elapsed ∈ s.began, 0 ≤ elapsed ∧ elapsed ≤ seconds s.season.graceSeconds ∧ s.autoNewSeasonEnabled = true ∧
    s.tradingEnabled = true
  running : ∀ operation ∈ s.storedOperation, operation.previousRunning = s.tradingEnabled
  active : ∀ operation ∈ s.storedOperation, operation.state.active = true →
    operation.autoSeasonRemaining = s.began.map fun elapsed => seconds s.season.graceSeconds - elapsed
  ended : ∀ operation ∈ s.storedOperation, operation.state.active = false → s.restored = some s.began

/-- There is an operation, in this state. -/
def State.In (s : State) (state : OperationState) : Prop := ∃ operation, s.maintenanceOperation = some operation ∧
  operation.state = state

/-- The engine is as the setting says, and nothing is being prepared. -/
structure State.Normal (s : State) : Prop where
  requested : s.maintenanceRequested = false
  ai : s.aiPaused = false
  running : s.running = s.tradingEnabled

/-- The engine is stopped, and no order is pending. -/
structure State.Stopped (s : State) : Prop where
  requested : s.maintenanceRequested = true
  running : s.running = false
  pending : s.pending = []

/-- What holds at every point of the calls. -/
def State.At (s : State) : Phase → Prop
  | .idle => s.Normal ∨ s.Stopped ∧ s.In .ready
  | .beginning operation elapsed => s.Normal ∧ s.active = false ∧ operation.state = .running ∧
      operation.previousRunning = s.tradingEnabled ∧
      operation.autoSeasonRemaining = elapsed.map (fun elapsed => seconds s.season.graceSeconds - elapsed) ∧
      ∀ e ∈ elapsed, 0 ≤ e ∧ e ≤ seconds s.season.graceSeconds ∧ s.autoNewSeasonEnabled = true ∧ s.tradingEnabled = true
  | .queued | .settling => s.maintenanceRequested = true ∧ s.In .running
  | .stopped _ | .pausingAi | .finishing => s.Stopped ∧ s.In .running
  | .restoring => s.maintenanceRequested = true ∧ s.In .running
  | .closing result => s.Normal ∧ s.restored = some s.began ∧ result.active = false

/-- The state of a process that runs. -/
structure State.Live (s : State) : Prop where
  stored : s.maintenanceOperation = s.storedOperation
  phase : s.At s.phase

/-- What every event keeps. -/
structure State.Holds (s : State) : Prop where
  sound : s.Sound
  live : s.up = true → s.Live

/-! ### The clock is restored -/

variable {operation : Operation} {now : ℤ} {raises : Bool}

theorem restoredEligibleSince_isSome (h : (s.restoredEligibleSince operation now).isSome = true) :
    s.autoNewSeasonEnabled = true ∧ operation.previousRunning = true := by
  unfold State.restoredEligibleSince at h
  split_ifs at h with hcond
  · exact ⟨hcond.1, hcond.2.1⟩
  · cases h

/-- **The clock stands at what it had verified** as the operation began. -/
theorem State.Sound.restored (h : s.Sound) (now : ℤ) (hrunning : operation.previousRunning = s.tradingEnabled)
    (hremaining : operation.autoSeasonRemaining = s.began.map fun elapsed => seconds s.season.graceSeconds - elapsed) :
    (s.restoreClock operation now).restored = some s.began := by
  show some ((s.writeClock _).season.elapsed now) = some s.began
  rw [Option.some_inj]
  show (s.restoredEligibleSince operation now).map
    (fun since => max 0 (min (seconds s.season.graceSeconds) (now - since))) = s.began
  unfold State.restoredEligibleSince
  rw [hremaining]
  cases hbegan : s.began with
  | none => split_ifs <;> rfl
  | some elapsed =>
    obtain ⟨hnonneg, hle, henabled, htrading⟩ := h.began elapsed hbegan
    rw [if_pos ⟨henabled, hrunning.trans htrading, h.initialized htrading⟩]
    simp only [Option.map_some, Option.some_inj]
    omega

theorem State.Sound.restoreClock (h : s.Sound) (now : ℤ) (hrunning : operation.previousRunning = s.tradingEnabled)
    (hremaining : operation.autoSeasonRemaining = s.began.map fun elapsed => seconds s.season.graceSeconds - elapsed) :
    (s.restoreClock operation now).Sound where
  synced := by
    refine ⟨fun hsome => ?_, rfl, rfl, rfl, fun last hlast => ⟨last, hlast, le_rfl⟩, h.synced.resolution⟩
    show ((s.restoredEligibleSince operation now).map fun _ => now).isSome = true
    rw [Option.isSome_map]
    exact hsome
  initialized := h.initialized
  clock hsome := by
    obtain ⟨henabled, hwas⟩ := restoredEligibleSince_isSome hsome
    exact ⟨henabled, hrunning.symm.trans hwas⟩
  began := h.began
  running := h.running
  active := h.active
  ended _ _ _ := h.restored now hrunning hremaining

theorem State.Sound.updateOperation (h : s.Sound) (hsame : s.maintenanceOperation = s.storedOperation)
    {change : Operation → Operation}
    (hchange : ∀ operation ∈ s.maintenanceOperation, (change operation).previousRunning = operation.previousRunning ∧
      (change operation).autoSeasonRemaining = operation.autoSeasonRemaining ∧
      ((change operation).state.active = true → operation.state.active = true) ∧
      ((change operation).state.active = false → s.restored = some s.began)) :
    (s.updateOperation change).Sound := by
  have hmem : ∀ changed ∈ (s.updateOperation change).storedOperation,
      ∃ operation ∈ s.storedOperation, change operation = changed ∧ operation ∈ s.maintenanceOperation := by
    intro changed hchanged
    obtain ⟨operation, hoperation, rfl⟩ := Option.map_eq_some_iff.mp hchanged
    exact ⟨operation, hsame ▸ hoperation, rfl, hoperation⟩
  refine ⟨h.synced, h.initialized, h.clock, h.began, fun changed hchanged => ?_, fun changed hchanged hactive => ?_,
    fun changed hchanged hended => ?_⟩
  · obtain ⟨operation, hoperation, rfl, hheld⟩ := hmem changed hchanged
    rw [(hchange operation hheld).1]
    exact h.running operation hoperation
  · obtain ⟨operation, hoperation, rfl, hheld⟩ := hmem changed hchanged
    rw [(hchange operation hheld).2.1]
    exact h.active operation hoperation ((hchange operation hheld).2.2.1 hactive)
  · obtain ⟨operation, hoperation, rfl, hheld⟩ := hmem changed hchanged
    exact (hchange operation hheld).2.2.2 hended

/-! ### Every event -/

theorem State.Sound.frame {s' : State} (h : s.Sound) (hsame : s' = { s with
      up := s'.up, running := s'.running, maintenanceRequested := s'.maintenanceRequested,
      maintenanceOperation := s'.maintenanceOperation, aiPaused := s'.aiPaused, phase := s'.phase, orders := s'.orders }) :
    s'.Sound := by
  rw [hsame]
  exact ⟨h.synced, h.initialized, h.clock, h.began, h.running, h.active, h.ended⟩

theorem State.Live.at (h : s.Live) {phase : Phase} (hphase : s.phase = phase) : s.At phase := hphase ▸ h.phase

section

variable (h : s.Holds)
include h

theorem State.Holds.elapsed (now : ℤ) :
    ∀ e ∈ s.season.elapsed now, 0 ≤ e ∧ e ≤ seconds s.season.graceSeconds ∧ s.autoNewSeasonEnabled = true ∧
      s.tradingEnabled = true := by
  intro e he
  obtain ⟨since, hsince, rfl⟩ := Option.map_eq_some_iff.mp he
  obtain ⟨henabled, htrading⟩ := h.sound.clock (by rw [hsince]; rfl)
  have hgrace : 0 ≤ seconds (s.season.graceSeconds : ℤ) := by
    have hmin := s.season.graceSeconds.2.1
    unfold seconds
    omega
  exact ⟨le_max_left _ _, max_le hgrace (min_le_left _ _), henabled, htrading⟩

section

variable (hup : s.up = true)
include hup

theorem holds_begin : (s.beginPreparation now).Holds := by
  have hlive := h.live hup
  unfold State.beginPreparation
  split_ifs with hbusy
  · exact h
  · rw [not_or, not_not, Bool.not_eq_true] at hbusy
    obtain ⟨hidle, hinactive⟩ := hbusy
    have hnormal : s.Normal := by
      rcases hlive.at hidle with hnormal | ⟨-, operation, hheld, hready⟩
      · exact hnormal
      · unfold State.active at hinactive
        rw [hheld, Option.any_some, hready] at hinactive
        cases hinactive
    have hbounds := h.elapsed now
    have hremaining : (s.season.elapsed now).map (fun e => max 0 (seconds s.season.graceSeconds - e)) =
        (s.season.elapsed now).map fun e => seconds s.season.graceSeconds - e := by
      refine Option.map_congr fun e he => ?_
      have hle := (hbounds e he).2.1
      omega
    exact ⟨h.sound.frame rfl, fun _ => ⟨hlive.stored, ⟨hnormal.1, hnormal.2, hnormal.3⟩, hinactive, rfl,
      hnormal.running, hremaining, hbounds⟩⟩

theorem holds_commit : (s.commitPreparation raises).Holds := by
  have hlive := h.live hup
  unfold State.commitPreparation
  split
  · rename_i operation elapsed hphase
    obtain ⟨hnormal, -, hstate, hrunning, hremaining, hbounds⟩ := hlive.at hphase
    split_ifs
    · exact ⟨h.sound.frame rfl, fun _ => ⟨hlive.stored, .inl ⟨hnormal.1, hnormal.2, hnormal.3⟩⟩⟩
    · refine ⟨⟨AutoNewSeason.synced_empty rfl rfl rfl h.sound.synced.resolution, h.sound.initialized, nofun, hbounds,
        fun held hheld => ?_, fun held hheld _ => ?_, fun held hheld hended => ?_⟩, fun _ => ⟨rfl, rfl, operation, rfl, hstate⟩⟩
      · obtain rfl := Option.some.inj hheld
        exact hrunning
      · obtain rfl := Option.some.inj hheld
        exact hremaining
      · obtain rfl := Option.some.inj hheld
        rw [hstate] at hended
        cases hended
  · exact h

theorem holds_stop {raisesAt : Option ℕ} : (s.stop raisesAt).Holds := by
  have hlive := h.live hup
  unfold State.stop
  split
  · rename_i hphase
    obtain ⟨hrequested, hin⟩ := hlive.at hphase
    cases raisesAt with
    | none =>
      refine ⟨h.sound.frame rfl, fun _ => ⟨hlive.stored, ⟨hrequested, rfl, ?_⟩, hin⟩⟩
      exact pending_cancelOrders (s := { s with running := false }) fun id hid => hid
    | some n => exact ⟨h.sound.frame rfl, fun _ => ⟨hlive.stored, hrequested, hin⟩⟩
  · exact h

theorem holds_advance : (s.advance raises).Holds := by
  have hlive := h.live hup
  have hfails : s.maintenanceRequested = true → s.In .running →
      ({ s with phase := .restoring } : State).Holds := fun hrequested hin =>
    ⟨h.sound.frame rfl, fun _ => ⟨hlive.stored, hrequested, hin⟩⟩
  have hwrites : ∀ change : Operation → Operation,
      (∀ operation ∈ s.maintenanceOperation, (change operation).previousRunning = operation.previousRunning ∧
        (change operation).autoSeasonRemaining = operation.autoSeasonRemaining ∧
        (change operation).state.active = operation.state.active) →
      s.In .running → (s.updateOperation change).Sound := by
    rintro change hchange ⟨held, hheld, hstate⟩
    refine h.sound.updateOperation hlive.stored fun operation hoperation => ?_
    obtain ⟨hrunning, hremaining, hactive⟩ := hchange operation hoperation
    refine ⟨hrunning, hremaining, fun htrue => hactive ▸ htrue, fun hfalse => ?_⟩
    obtain rfl := Option.some.inj (hheld.symm.trans hoperation)
    rw [hactive, hstate] at hfalse
    cases hfalse
  have hkept : ∀ (change : Operation → Operation) {state : OperationState}, s.In .running →
      (∀ operation ∈ s.maintenanceOperation, operation.state = .running → (change operation).state = state) →
      (s.updateOperation change).In state := by
    rintro change state ⟨held, hheld, hstate⟩ hchange
    exact ⟨change held, Option.map_eq_some_iff.mpr ⟨held, hheld, rfl⟩, hchange held hheld hstate⟩
  unfold State.advance
  split
  · rename_i hphase
    obtain ⟨hrequested, hin⟩ := hlive.at hphase
    split_ifs
    · exact hfails hrequested hin
    · refine ⟨(hwrites id (fun _ _ => ⟨rfl, rfl, rfl⟩) hin).frame rfl, fun _ => ⟨rfl, hrequested, ?_⟩⟩
      exact hkept id hin fun _ _ hstate => hstate
  · rename_i cancelled hphase
    obtain ⟨hstopped, hin⟩ := hlive.at hphase
    split_ifs
    · exact hfails hstopped.requested hin
    · refine ⟨(hwrites (fun operation => { operation with cancelledPendingOrders := cancelled })
        (fun _ _ => ⟨rfl, rfl, rfl⟩) hin).frame rfl, fun _ => ⟨rfl, ⟨hstopped.1, hstopped.2, hstopped.3⟩, ?_⟩⟩
      exact hkept (fun operation => { operation with cancelledPendingOrders := cancelled }) hin fun _ _ hstate => hstate
  · rename_i hphase
    obtain ⟨hstopped, hin⟩ := hlive.at hphase
    split_ifs
    · exact hfails hstopped.requested hin
    · refine ⟨(hwrites id (fun _ _ => ⟨rfl, rfl, rfl⟩) hin).frame rfl,
        fun _ => ⟨rfl, ⟨hstopped.1, hstopped.2, hstopped.3⟩, ?_⟩⟩
      exact hkept id hin fun _ _ hstate => hstate
  · rename_i hphase
    obtain ⟨hstopped, hin⟩ := hlive.at hphase
    split_ifs
    · exact hfails hstopped.requested hin
    · obtain ⟨held, hheld, hstate⟩ := hin
      refine ⟨(hwrites (fun operation => { operation with state := .ready }) (fun operation hoperation => ?_)
        ⟨held, hheld, hstate⟩).frame rfl, fun _ => ⟨rfl, .inr ⟨⟨hstopped.1, hstopped.2, hstopped.3⟩, ?_⟩⟩⟩
      · obtain rfl := Option.some.inj (hheld.symm.trans hoperation)
        rw [hstate]
        exact ⟨rfl, rfl, rfl⟩
      · exact hkept (fun operation => { operation with state := .ready }) ⟨held, hheld, hstate⟩ fun _ _ _ => rfl
  · exact h

theorem holds_restored {held : Operation} (hheld : s.maintenanceOperation = some held)
    (hactive : held.state.active = true) {result : OperationState} (hresult : result.active = false) :
    ((s.restoreAfterMaintenance held now).leaveMaintenance result).Holds := by
  have hlive := h.live hup
  have hstored : held ∈ s.storedOperation := hlive.stored.symm.trans hheld
  have hrunning := h.sound.running held hstored
  have hremaining := h.sound.active held hstored hactive
  have hengine : (held.previousRunning && s.initialized) = s.tradingEnabled := by
    rw [hrunning]
    cases htrading : s.tradingEnabled with
    | false => rfl
    | true => exact h.sound.initialized htrading
  exact ⟨(h.sound.restoreClock now hrunning hremaining).frame rfl,
    fun _ => ⟨hlive.stored, ⟨rfl, rfl, hengine⟩, h.sound.restored now hrunning hremaining, hresult⟩⟩

theorem holds_fail (hraises : raises = false) : (s.fail now raises).Holds := by
  unfold State.fail
  split
  · rename_i operation hphase hheld
    obtain ⟨-, operation', hheld', hstate⟩ := (h.live hup).at hphase
    obtain rfl := Option.some.inj (hheld.symm.trans hheld')
    rw [hraises, if_neg Bool.false_ne_true]
    exact holds_restored h hup hheld (by rw [hstate]; rfl) rfl
  · exact h

theorem holds_cancel : (s.cancel now raises).Holds := by
  unfold State.cancel
  split
  · rename_i operation hphase hheld
    split_ifs with hnot
    · exact h
    · rw [not_or, not_not] at hnot
      exact holds_restored h hup hheld (by rw [hnot.1]; rfl) rfl
  · exact h

theorem holds_close : (s.close raises).Holds := by
  have hlive := h.live hup
  unfold State.close
  split
  · rename_i result hphase
    obtain ⟨hnormal, hrestored, hresult⟩ := hlive.at hphase
    split_ifs
    · exact ⟨h.sound.frame rfl, fun _ => ⟨hlive.stored, .inl ⟨hnormal.1, hnormal.2, hnormal.3⟩⟩⟩
    · have hclosed : (s.updateOperation fun operation => { operation with state := result }).Sound := by
        refine h.sound.updateOperation hlive.stored fun operation _ => ⟨rfl, rfl, fun hactive => ?_, fun _ => hrestored⟩
        rw [hresult] at hactive
        cases hactive
      exact ⟨hclosed.frame rfl, fun _ => ⟨rfl, .inl ⟨hnormal.1, hnormal.2, hnormal.3⟩⟩⟩
  · exact h

end

end

theorem State.Sound.load (h : s.Sound) : s.load.Sound := by
  have htrading : (s.tradingEnabled && s.initialized) = s.tradingEnabled := by
    cases htrading : s.tradingEnabled with
    | false => rfl
    | true => exact h.initialized htrading
  refine ⟨h.synced.restart, fun hthis => ?_, fun hsome => ?_, fun e he => ?_, fun held hheld => ?_, h.active, h.ended⟩
  · exact h.initialized (htrading.symm.trans hthis)
  · obtain ⟨henabled, hthis⟩ := h.clock (h.synced.eligibleSince ▸ hsome)
    exact ⟨henabled, htrading.trans hthis⟩
  · obtain ⟨hnonneg, hle, henabled, hthis⟩ := h.began e he
    exact ⟨hnonneg, hle, henabled, htrading.trans hthis⟩
  · exact (h.running held hheld).trans htrading.symm

theorem holds_start {raisesAt : Option ℕ} (h : s.Holds) : (s.start now raisesAt).Holds := by
  have hloaded := h.sound.load
  unfold State.start
  split_ifs
  · exact h
  · dsimp only
    cases raisesAt with
    | some n => exact ⟨hloaded.frame rfl, nofun⟩
    | none =>
      dsimp only
      unfold State.reconcile
      split
      · rename_i hnone
        have hnone : s.storedOperation = none := hnone
        exact ⟨hloaded.frame rfl, fun _ => ⟨rfl, .inl ⟨rfl, rfl, rfl⟩⟩⟩
      · rename_i held hheld
        have hheld : s.storedOperation = some held := hheld
        by_cases hactive : held.state.active = true
        · rw [if_neg (not_not.mpr hactive)]
          have hsound : (s.load.cancelOrders s.load.orphaned).Sound := hloaded.frame rfl
          have hrunning := hsound.running held hheld
          have hremaining := hsound.active held hheld hactive
          have hclock := hsound.restoreClock now hrunning hremaining
          have hrestored := hsound.restored now hrunning hremaining
          refine ⟨⟨hclock.synced, hclock.initialized, hclock.clock, hclock.began, fun closed hclosed => ?_,
            fun closed hclosed hactive => ?_, fun _ _ _ => hrestored⟩, fun _ => ⟨rfl, .inl ⟨rfl, rfl, rfl⟩⟩⟩
          · obtain rfl := Option.some.inj hclosed
            exact hrunning
          · obtain rfl := Option.some.inj hclosed
            cases hactive
        · rw [if_pos hactive]
          exact ⟨hloaded.frame rfl, fun _ => ⟨rfl, .inl ⟨rfl, rfl, rfl⟩⟩⟩

theorem holds_orders (h : s.Holds) (hrunning : s.running = true) (orders : Table String PaperOrder PaperOrder.orderId) :
    ({ s with orders := orders } : State).Holds := by
  refine ⟨h.sound.frame rfl, fun hup => ⟨(h.live hup).stored, ?_⟩⟩
  have hphase := (h.live hup).phase
  have hnot : ¬ s.Stopped := fun hstopped => by
    rw [hstopped.running] at hrunning
    cases hrunning
  show ({ s with orders := orders } : State).At s.phase
  cases hs : s.phase with
  | idle =>
    rw [hs] at hphase
    rcases hphase with hnormal | ⟨hstopped, -⟩
    · exact .inl ⟨hnormal.1, hnormal.2, hnormal.3⟩
    · exact absurd hstopped hnot
  | beginning operation elapsed =>
    rw [hs] at hphase
    exact ⟨⟨hphase.1.1, hphase.1.2, hphase.1.3⟩, hphase.2⟩
  | queued | settling | restoring =>
    rw [hs] at hphase
    exact hphase
  | stopped cancelled =>
    rw [hs] at hphase
    exact absurd hphase.1 hnot
  | pausingAi | finishing =>
    rw [hs] at hphase
    exact absurd hphase.1 hnot
  | closing result =>
    rw [hs] at hphase
    exact ⟨⟨hphase.1.1, hphase.1.2, hphase.1.3⟩, hphase.2⟩

theorem holds_place (h : s.Holds) : (s.place orderId).Holds := by
  unfold State.place
  split_ifs with hplaces
  · exact holds_orders h hplaces.1 _
  · exact h

theorem holds_fill (h : s.Holds) : (s.fill orderId).Holds := by
  unfold State.fill
  split_ifs with hfills
  · exact holds_orders h hfills.1 _
  · exact h

theorem holds_season (h : s.Holds) {season : AutoNewSeason.State} (hsynced : season.Synced)
    (hgrace : season.graceSeconds = s.season.graceSeconds)
    (hclock : season.clock.eligibleSince.isSome = true → s.autoNewSeasonEnabled = true ∧ s.tradingEnabled = true) :
    ({ s with season := season } : State).Holds := by
  refine ⟨⟨hsynced, h.sound.initialized, hclock, ?_, h.sound.running, ?_, h.sound.ended⟩, fun hup =>
    ⟨(h.live hup).stored, ?_⟩⟩
  · show ∀ e ∈ s.began, 0 ≤ e ∧ e ≤ seconds season.graceSeconds ∧ _
    rw [hgrace]
    exact h.sound.began
  · show ∀ held ∈ s.storedOperation, held.state.active = true → held.autoSeasonRemaining =
      s.began.map fun e => seconds season.graceSeconds - e
    rw [hgrace]
    exact h.sound.active
  · have hphase := (h.live hup).phase
    show ({ s with season := season } : State).At s.phase
    cases hs : s.phase with
    | idle =>
      rw [hs] at hphase
      rcases hphase with hnormal | ⟨hstopped, hready⟩
      · exact .inl ⟨hnormal.1, hnormal.2, hnormal.3⟩
      · exact .inr ⟨⟨hstopped.1, hstopped.2, hstopped.3⟩, hready⟩
    | beginning operation elapsed =>
      rw [hs] at hphase
      obtain ⟨hnormal, hinactive, hstate, hrunning, hremaining, hbounds⟩ := hphase
      refine ⟨⟨hnormal.1, hnormal.2, hnormal.3⟩, hinactive, hstate, hrunning, ?_, ?_⟩
      · show operation.autoSeasonRemaining = elapsed.map fun e => seconds season.graceSeconds - e
        rw [hgrace]
        exact hremaining
      · show ∀ e ∈ elapsed, 0 ≤ e ∧ e ≤ seconds season.graceSeconds ∧ _
        rw [hgrace]
        exact hbounds
    | queued | settling | restoring =>
      rw [hs] at hphase
      exact hphase
    | stopped cancelled =>
      rw [hs] at hphase
      exact ⟨⟨hphase.1.1, hphase.1.2, hphase.1.3⟩, hphase.2⟩
    | pausingAi | finishing =>
      rw [hs] at hphase
      exact ⟨⟨hphase.1.1, hphase.1.2, hphase.1.3⟩, hphase.2⟩
    | closing result =>
      rw [hs] at hphase
      exact ⟨⟨hphase.1.1, hphase.1.2, hphase.1.3⟩, hphase.2⟩

theorem State.Live.running (h : s.Live) (hrequested : s.maintenanceRequested = false) : s.running = s.tradingEnabled := by
  have hphase := h.phase
  cases hs : s.phase with
  | idle =>
    rw [hs] at hphase
    rcases hphase with hnormal | ⟨hstopped, -⟩
    · exact hnormal.running
    · rw [hstopped.requested] at hrequested
      cases hrequested
  | beginning operation elapsed =>
    rw [hs] at hphase
    exact hphase.1.running
  | queued | settling | restoring =>
    rw [hs] at hphase
    rw [hphase.1] at hrequested
    cases hrequested
  | stopped cancelled =>
    rw [hs] at hphase
    rw [hphase.1.requested] at hrequested
    cases hrequested
  | pausingAi | finishing =>
    rw [hs] at hphase
    rw [hphase.1.requested] at hrequested
    cases hrequested
  | closing result =>
    rw [hs] at hphase
    exact hphase.1.running

theorem holds_tick {tick : Tick} (h : s.Holds) (hup : s.up = true) : (s.tick tick).Holds := by
  refine holds_season h (h.sound.synced.tick _) (tick_grace _ _) fun hsome => ?_
  rcases tick_clock hsome with ⟨-, hbefore⟩ | ⟨hrequested, hgate⟩
  · exact h.sound.clock hbefore
  · unfold State.gate at hgate
    dsimp only at hgate hrequested
    split_ifs at hgate with hruns
    · exact ⟨hruns.1, (h.live hup).running hrequested ▸ hruns.2.2⟩
    · exact absurd rfl hgate

theorem holds_sold (h : s.Holds) : ({ s with season := s.season.step .sold } : State).Holds := by
  refine holds_season h (h.sound.synced.step .sold) ?_ fun hsome => ?_
  · unfold AutoNewSeason.State.step
    dsimp only
    split_ifs
    · exact (setClock_frame s.season {}).graceSeconds
    · rfl
  · unfold AutoNewSeason.State.step at hsome
    dsimp only at hsome
    split_ifs at hsome with hbefore
    · rw [setClock_clock] at hsome
      cases hsome
    · exact absurd hsome hbefore

/-- The restoration of a failed preparation is not lost. -/
def Event.Restores : Event → Prop
  | .fail _ raises => raises = false
  | _ => True

theorem step_of_down (event : Event) (hup : s.up = false) :
    s.step event = s ∨ ∃ now raisesAt, event = .start now raisesAt ∧ s.step event = s.start now raisesAt := by
  have hdown : ¬ s.up = true := by rw [hup]; decide
  cases event with
  | start now raisesAt => exact .inr ⟨now, raisesAt, rfl, rfl⟩
  | _ => exact .inl (if_pos hdown)

/-- What a process that runs does at an event. -/
def State.act (s : State) : Event → State
  | .start now raisesAt => s.start now raisesAt
  | .begin now => s.beginPreparation now
  | .commit raises => s.commitPreparation raises
  | .stop raisesAt => s.stop raisesAt
  | .advance raises => s.advance raises
  | .fail now raises => s.fail now raises
  | .cancel now raises => s.cancel now raises
  | .close raises => s.close raises
  | .place orderId => s.place orderId
  | .fill orderId => s.fill orderId
  | .tick tick => s.tick tick
  | .sold => { s with season := s.season.step .sold }
  | .crash => { s with up := false }

theorem step_of_up (event : Event) (hup : s.up = true) : s.step event = s.act event := by
  cases event with
  | start now raisesAt => rfl
  | _ => exact if_neg (not_not.mpr hup)

/-- **Every event** keeps the invariant. -/
theorem State.Holds.step {event : Event} (h : s.Holds) (hrestores : event.Restores) : (s.step event).Holds := by
  cases hup : s.up with
  | false =>
    rcases step_of_down event hup with he | ⟨now, raisesAt, -, he⟩
    · rw [he]
      exact h
    · rw [he]
      exact holds_start h
  | true =>
    rw [step_of_up event hup]
    cases event with
    | start now raisesAt => exact holds_start h
    | «begin» now =>
      exact holds_begin h hup
    | commit raises =>
      exact holds_commit h hup
    | stop raisesAt =>
      exact holds_stop h hup
    | advance raises =>
      exact holds_advance h hup
    | fail now raises =>
      exact holds_fail h hup hrestores
    | cancel now raises =>
      exact holds_cancel h hup
    | close raises =>
      exact holds_close h hup
    | place orderId =>
      exact holds_place h
    | fill orderId =>
      exact holds_fill h
    | tick tick =>
      exact holds_tick h hup
    | sold =>
      exact holds_sold h
    | crash =>
      exact ⟨h.sound.frame rfl, nofun⟩

/-! ### What was cancelled stays so -/

theorem get?_cancelOrders_of_cancelled {s' : State} (orderIds : List String)
    (h : s'.orders.get? orderId = some ⟨orderId, .cancelled⟩) :
    (s'.cancelOrders orderIds).orders.get? orderId = some ⟨orderId, .cancelled⟩ := by
  rw [get?_cancelOrders]
  split_ifs
  · rfl
  · exact h

theorem reconcile_orders (now : ℤ) (cancelled : ℕ) : (s.reconcile now cancelled).orders = s.orders := by
  unfold State.reconcile
  split
  · rfl
  · dsimp only
    split_ifs <;> rfl

/-- **A cancelled order stays cancelled.** -/
theorem step_cancelled (event : Event) (h : s.orders.get? orderId = some ⟨orderId, .cancelled⟩) :
    (s.step event).orders.get? orderId = some ⟨orderId, .cancelled⟩ := by
  have hstart : ∀ now raisesAt, (s.start now raisesAt).orders.get? orderId = some ⟨orderId, .cancelled⟩ := by
    intro now raisesAt
    unfold State.start
    split_ifs
    · exact h
    · cases raisesAt with
      | none =>
        show ((s.load.cancelOrders s.load.orphaned).reconcile now _).orders.get? orderId = _
        rw [reconcile_orders]
        exact get?_cancelOrders_of_cancelled _ h
      | some n => exact get?_cancelOrders_of_cancelled _ h
  cases hup : s.up with
  | false =>
    rcases step_of_down event hup with he | ⟨now, raisesAt, -, he⟩
    · rw [he]
      exact h
    · rw [he]
      exact hstart now raisesAt
  | true =>
    rw [step_of_up event hup]
    cases event with
    | start now raisesAt => exact hstart now raisesAt
    | «begin» now =>
      dsimp only [State.act, State.beginPreparation]
      split_ifs <;> exact h
    | commit raises =>
      dsimp only [State.act, State.commitPreparation]
      split
      · split_ifs <;> exact h
      · exact h
    | stop raisesAt =>
      dsimp only [State.act, State.stop]
      split
      · cases raisesAt with
        | none => exact get?_cancelOrders_of_cancelled _ h
        | some n => exact get?_cancelOrders_of_cancelled _ h
      · exact h
    | advance raises =>
      dsimp only [State.act, State.advance]
      split
      · split_ifs <;> exact h
      · split_ifs <;> exact h
      · split_ifs <;> exact h
      · split_ifs <;> exact h
      · exact h
    | fail now raises =>
      dsimp only [State.act, State.fail]
      split
      · split_ifs <;> exact h
      · exact h
    | cancel now raises =>
      dsimp only [State.act, State.cancel]
      split
      · split_ifs <;> exact h
      · exact h
    | close raises =>
      dsimp only [State.act, State.close]
      split
      · split_ifs <;> exact h
      · exact h
    | place placed =>
      dsimp only [State.act, State.place]
      split_ifs with hplaces
      · show (s.orders.upsert ⟨placed, .pending⟩).get? orderId = _
        rw [Table.get?_upsert, if_neg, h]
        rintro rfl
        exact absurd (hplaces.2.symm.trans h) nofun
      · exact h
    | fill filled =>
      dsimp only [State.act, State.fill]
      split_ifs with hfills
      · show (s.orders.upsert ⟨filled, .filled⟩).get? orderId = _
        rw [Table.get?_upsert, if_neg, h]
        rintro rfl
        have hpending := mem_pending.mp hfills.2
        rw [h] at hpending
        cases hpending
      · exact h
    | tick tick =>
      exact h
    | sold =>
      exact h
    | crash =>
      exact h

/-- The engine is stopped for a preparation, or an interrupted one is closed by a start. -/
def State.Stops (s : State) : Event → Prop
  | .stop raisesAt => s.up = true ∧ s.phase = .settling ∧ raisesAt = none
  | .start _ raisesAt => s.up = false ∧ s.storedOperation.any (·.state = .running) = true ∧ raisesAt = none
  | _ => False

/-- A stop cancels what is pending. -/
theorem stops_cancels {event : Event} (h : s.Stops event) (hpending : orderId ∈ s.pending) :
    (s.step event).orders.get? orderId = some ⟨orderId, .cancelled⟩ := by
  cases event with
  | stop raisesAt =>
    obtain ⟨hup, hphase, rfl⟩ := h
    rw [step_of_up _ hup]
    dsimp only [State.act, State.stop]
    rw [hphase]
    show (({ s with running := false } : State).cancelOrders s.pending).orders.get? orderId = _
    rw [get?_cancelOrders, if_pos hpending]
  | start now raisesAt =>
    obtain ⟨hup, hrunning, rfl⟩ := h
    have horphaned : s.load.orphaned = s.pending := by
      unfold State.orphaned
      exact if_pos (.inr hrunning)
    show (s.start now none).orders.get? orderId = _
    unfold State.start
    rw [if_neg (by rw [hup]; decide)]
    show ((s.load.cancelOrders s.load.orphaned).reconcile now _).orders.get? orderId = _
    rw [reconcile_orders, get?_cancelOrders, horphaned, if_pos hpending]
  | _ => exact h.elim

/-! ### Every run -/

/-- No operation was there so far, and the engine is as the setting says. -/
structure State.AtRest (s : State) : Prop where
  up : s.up = true
  idle : s.phase = .idle
  none : s.maintenanceOperation = none ∧ s.storedOperation = none
  normal : s.Normal
  synced : s.season.Synced
  initialized : s.tradingEnabled = true → s.initialized = true
  clock : s.season.clock.eligibleSince.isSome = true → s.autoNewSeasonEnabled = true ∧ s.tradingEnabled = true
  began : s.began = Option.none

theorem State.AtRest.holds (h : s.AtRest) : s.Holds := by
  refine ⟨⟨h.synced, h.initialized, h.clock, fun e he => ?_, fun held hheld => ?_, fun held hheld => ?_,
    fun held hheld => ?_⟩, fun _ => ⟨h.none.1.trans h.none.2.symm, ?_⟩⟩
  · rw [h.began] at he
    cases he
  · rw [h.none.2] at hheld
    cases hheld
  · rw [h.none.2] at hheld
    cases hheld
  · rw [h.none.2] at hheld
    cases hheld
  · rw [h.idle]
    exact .inl h.normal

/-- What holds of a process that runs, of its operation. -/
structure State.Preserved (s : State) : Prop where
  ended : ∀ operation ∈ s.maintenanceOperation, operation.state.active = false →
    s.running = s.tradingEnabled ∧ s.running = operation.previousRunning ∧ s.restored = some s.began ∧
      s.maintenanceRequested = false ∧ s.aiPaused = false
  /-- No order waits for a container that is replaced. -/
  ready : ∀ operation ∈ s.maintenanceOperation, operation.state = .ready → s.maintenanceRequested = true →
    s.running = false ∧ s.pending = []

/-- What has ended left everything as it was. -/
theorem State.Holds.preserved (h : s.Holds) (hup : s.up = true) : s.Preserved := by
  have hlive := h.live hup
  have hphase := hlive.phase
  have hended : ∀ operation ∈ s.maintenanceOperation, operation.state.active = false → s.Normal →
      s.running = s.tradingEnabled ∧ s.running = operation.previousRunning ∧ s.restored = some s.began ∧
        s.maintenanceRequested = false ∧ s.aiPaused = false := by
    intro operation hoperation hinactive hnormal
    have hstored : operation ∈ s.storedOperation := hlive.stored ▸ hoperation
    exact ⟨hnormal.running, hnormal.running.trans (h.sound.running operation hstored).symm,
      h.sound.ended operation hstored hinactive, hnormal.requested, hnormal.ai⟩
  have hin : ∀ {state : OperationState}, s.In state → ∀ operation ∈ s.maintenanceOperation, operation.state = state := by
    rintro state ⟨held, hheld, hstate⟩ operation hoperation
    obtain rfl := Option.some.inj (hheld.symm.trans hoperation)
    exact hstate
  -- an operation that is running has not ended, and is not ready
  have hactive : s.In .running → s.Preserved := fun hrunning => by
    refine ⟨fun operation hoperation hinactive => ?_, fun operation hoperation hready => ?_⟩
    · rw [hin hrunning operation hoperation] at hinactive
      cases hinactive
    · rw [hin hrunning operation hoperation] at hready
      cases hready
  have hnormally : s.Normal → s.Preserved := fun hnormal =>
    ⟨fun operation hoperation hinactive => hended operation hoperation hinactive hnormal,
      fun operation hoperation _ hrequested => absurd (hnormal.requested.symm.trans hrequested) Bool.false_ne_true⟩
  cases hs : s.phase with
  | idle =>
    rw [hs] at hphase
    rcases hphase with hnormal | ⟨hstopped, hready⟩
    · exact hnormally hnormal
    · refine ⟨fun operation hoperation hinactive => ?_, fun _ _ _ _ => ⟨hstopped.running, hstopped.pending⟩⟩
      rw [hin hready operation hoperation] at hinactive
      cases hinactive
  | beginning operation elapsed =>
    rw [hs] at hphase
    exact hnormally hphase.1
  | queued | settling | restoring =>
    rw [hs] at hphase
    exact hactive hphase.2
  | stopped cancelled =>
    rw [hs] at hphase
    exact hactive hphase.2
  | pausingAi | finishing =>
    rw [hs] at hphase
    exact hactive hphase.2
  | closing result =>
    rw [hs] at hphase
    exact hnormally hphase.1

/-- **A preparation preserves the engine and its clock**, however it ends, unless what it restores is lost; and
no order that is pending as the engine is stopped, or as an interrupted preparation is closed, is ever filled. -/
theorem upgrade_preserves (start : State) (hrest : start.AtRest) (events : List Event)
    (h : Along State.step (fun _ event => event.Restores) start events) :
    Along State.step (fun s event => ((s.step event).up = true → (s.step event).Preserved) ∧
      (s.Stops event → ∀ orderId ∈ s.pending, ∀ later,
        (run State.step (s.step event) later).orders.get? orderId = some ⟨orderId, .cancelled⟩)) start events := by
  refine h.derive (I := State.Holds) hrest.holds (fun s event hs hrestores => hs.step hrestores)
    fun s event hs hrestores => ⟨fun hup => (hs.step hrestores).preserved hup, fun hstops orderId hpending later => ?_⟩
  exact run_invariant (I := fun s : State => s.orders.get? orderId = some ⟨orderId, .cancelled⟩) (stops_cancels hstops hpending)
    fun s event hs => step_cancelled event hs

/-- An engine that runs, ten seconds after the clock has started. -/
def dormant : State where
  running := true
  season := {
    seasonId := 1
    graceSeconds := AutoNewSeason.oneHour
    clock := ⟨some 0, none, some (seconds 10)⟩
    clockSavedAt := some 0
    stored := { clock := ⟨some 0, none, some 0⟩ } }
  autoNewSeasonEnabled := true
  initialized := true
  tradingEnabled := true

theorem dormant_atRest : dormant.AtRest where
  up := rfl
  idle := rfl
  none := ⟨rfl, rfl⟩
  normal := ⟨rfl, rfl, rfl⟩
  synced := {
    observed := fun _ => rfl
    eligibleSince := rfl
    pausedSince := rfl
    savedAt := rfl
    savedAt_le := fun last hlast => ⟨0, rfl, by cases hlast; decide⟩
    resolution := fun r hr => by cases hr }
  initialized _ := rfl
  clock _ := ⟨rfl, rfl⟩
  began := rfl

/-- An order is placed, the container is ready, and the preparation is cancelled after an hour. -/
def cancelledRun : List Event :=
  [.place "buy", .begin (seconds 10), .commit false, .advance false, .stop none, .advance false, .advance false,
    .advance false, .cancel (seconds 3610) false, .close false]

/-- A preparation that is cancelled. -/
theorem cancelledRun_preserved :
    let ended := run State.step dormant cancelledRun;
    ended.maintenanceOperation.map (·.state) = some .cancelled ∧ ended.running = true ∧
      ended.season.elapsed (seconds 3610) = some (seconds 10) ∧ ended.pending = [] ∧
      Along State.step (fun s event => ((s.step event).up = true → (s.step event).Preserved) ∧
        (s.Stops event → ∀ orderId ∈ s.pending, ∀ later,
          (run State.step (s.step event) later).orders.get? orderId = some ⟨orderId, .cancelled⟩))
        dormant cancelledRun :=
  ⟨by decide +kernel, by decide +kernel, by decide +kernel, by decide +kernel,
    upgrade_preserves dormant dormant_atRest cancelledRun (by
      simp only [cancelledRun, Along, Event.Restores, and_self])⟩

/-- **A pending order may be filled** before the preparation stops the engine, and when it fails before that. -/
theorem filled_during_preparation :
    let prepared := run State.step dormant [.place "buy", .begin (seconds 10), .commit false];
    let filled := run State.step (prepared.step (.fill "buy"))
      [.advance false, .stop none, .advance false, .advance false, .advance false, .cancel (seconds 20) false, .close false];
    let failed := run State.step prepared [.advance true, .fail (seconds 20) false, .close false];
    prepared.active = true ∧ "buy" ∈ prepared.pending ∧
      filled.maintenanceOperation.map (·.state) = some .cancelled ∧
      filled.orders.get? "buy" = some ⟨"buy", .filled⟩ ∧
      failed.maintenanceOperation.map (·.state) = some .failed ∧
      (failed.step (.fill "buy")).orders.get? "buy" = some ⟨"buy", .filled⟩ := by
  decide +kernel

end SignalArcade.Seasons.Upgrade
