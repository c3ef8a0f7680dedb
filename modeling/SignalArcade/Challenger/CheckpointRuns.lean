import SignalArcade.Challenger.CheckpointTurns

/-!
# The selection over many calls

The two channels of the selection over the calls of an engine, with whatever records, markets, clocks and limits the
calls are made. A round is a call with its turns. What a channel remembers is told by the rounds: a mint was served in
one of them, and has been pending in every round since without being served again.
-/

namespace SignalArcade.Challenger.Collection.CheckpointTurns

open Paper (Instant)
open Market.Features (TokenState)
open Runs Turns List

/-! ### Rounds -/

/-- The channels of an engine: `cache` under `true`, `rpc` under `false`. -/
abbrev Channels := Bool → Channel

/-- A call. -/
def step (channels : Channels) (request : Request) : Channels :=
  Function.update channels request.fresh (advanced request (channels request.fresh))

/-- A call, and the turns that were given. -/
structure Round where
  request : Request
  turns : List (Turn (String × Instant))

def Round.mints (round : Round) : List String := round.turns.map fun turn => turn.item.1

/-- The calls of a channel. -/
def rounds (fresh : Bool) (channels : Channels) : List Request → List Round
  | [] => []
  | request :: requests =>
    if request.fresh = fresh then
      ⟨request, turns request (channels fresh)⟩ :: rounds fresh (step channels request) requests
    else rounds fresh (step channels request) requests

/-- All turns, one after the other. -/
def turnsOf (history : List Round) : List (Turn (String × Instant)) := history.flatMap Round.turns

/-- The mint was served in the turn of that number, and has been pending in every round since, without being served
again. -/
def ServedSince (history : List Round) (mint : String) (number : ℕ) : Prop :=
  ∃ earlier round later, history = earlier ++ round :: later ∧
    (∃ turn ∈ round.turns, turn.item.1 = mint ∧ turn.number = number) ∧
    ∀ round ∈ later, (∃ lane, InLane round.request lane mint) ∧ mint ∉ round.mints

variable {history : List Round}

theorem servedSince_concat {round : Round} {mint : String} {number : ℕ} :
    ServedSince (history ++ [round]) mint number ↔
      (∃ turn ∈ round.turns, turn.item.1 = mint ∧ turn.number = number) ∨
        mint ∉ round.mints ∧ (∃ lane, InLane round.request lane mint) ∧ ServedSince history mint number := by
  constructor
  · rintro ⟨earlier, first, later, hhistory, hserved, hlater⟩
    rcases eq_nil_or_concat' later with rfl | ⟨later, last, rfl⟩
    · obtain ⟨-, hround⟩ := append_inj' hhistory rfl
      obtain rfl : round = first := by simpa using hround
      exact .inl hserved
    · have hsplit : history ++ [round] = (earlier ++ first :: later) ++ [last] := by simpa using hhistory
      obtain ⟨rfl, hround⟩ := append_inj' hsplit rfl
      obtain rfl : round = last := by simpa using hround
      obtain ⟨hlane, hmint⟩ := hlater round (by simp)
      exact .inr ⟨hmint, hlane, earlier, first, later, rfl, hserved, fun round' hmem => hlater round' (by simp [hmem])⟩
  · rintro (hserved | ⟨hmint, hlane, earlier, first, later, rfl, hserved, hlater⟩)
    · exact ⟨history, round, [], rfl, hserved, by simp⟩
    · refine ⟨earlier, first, later ++ [round], by simp, hserved, fun round' hmem => ?_⟩
      rcases mem_append.mp hmem with hmem | hmem
      · exact hlater round' hmem
      · rw [mem_singleton.mp hmem]
        exact ⟨hlane, hmint⟩

/-! ### What a channel remembers -/

/-- The channel remembers of the history what the next call needs. -/
structure Remembers (channel : Channel) (history : List Round) : Prop where
  served : ∀ mint number, channel.served.get? mint = some (mint, number) ↔ ServedSince history mint number
  next : channel.turn = (turnsOf history).length
  numbers : ∀ (i : ℕ) (turn : Turn (String × Instant)), (turnsOf history)[i]? = some turn → turn.number = i
  contested : ∀ turn ∈ turnsOf history, turn.contested = true → turn.second = decide (turn.number % 4 = 3)

theorem Remembers.new : Remembers {} [] where
  served mint number := by
    constructor
    · intro h
      cases h
    · rintro ⟨earlier, round, later, hhistory, -⟩
      simp at hhistory
  next := rfl
  numbers i turn h := by simp [turnsOf] at h
  contested turn h := by simp [turnsOf] at h

variable {channel : Channel}

/-- A call keeps the memory of the channel. -/
theorem Remembers.advanced (h : Remembers channel history) (request : Request) :
    Remembers (advanced request channel) (history ++ [⟨request, turns request channel⟩]) := by
  have hturns : turnsOf (history ++ [⟨request, turns request channel⟩]) = turnsOf history ++ turns request channel := by
    simp [turnsOf]
  constructor
  · intro mint number
    rw [served_get?, servedSince_concat, h.served, pending_iff]
    rfl
  · rw [hturns, length_append, ← h.next]
    rfl
  · intro i turn hturn
    rw [hturns] at hturn
    by_cases hi : i < (turnsOf history).length
    · rw [getElem?_append_left hi] at hturn
      exact h.numbers i turn hturn
    · rw [getElem?_append_right (not_lt.mp hi)] at hturn
      have hnumber := serve_number hturn
      have hstart := h.next
      omega
  · intro turn hmem
    rw [hturns, mem_append] at hmem
    rcases hmem with hmem | hmem
    · exact h.contested turn hmem
    · exact serve_contested hmem

theorem remembers_rounds {fresh : Bool} {channels : Channels}
    (h : Remembers (channels fresh) history) (requests : List Request) :
    Remembers (run step channels requests fresh) (history ++ rounds fresh channels requests) := by
  induction requests generalizing channels history with
  | nil => simpa [rounds] using h
  | cons request requests ih =>
    rw [run_cons]
    unfold rounds
    by_cases hfresh : request.fresh = fresh
    · subst hfresh
      have hstep : step channels request request.fresh = advanced request (channels request.fresh) :=
        Function.update_self _ _ _
      rw [if_pos rfl]
      have hround : Remembers (step channels request request.fresh)
          (history ++ [⟨request, turns request (channels request.fresh)⟩]) := by
        rw [hstep]
        exact h.advanced request
      simpa using ih hround
    · have hstep : step channels request fresh = channels fresh := Function.update_of_ne (Ne.symm hfresh) _ _
      have hround : Remembers (step channels request fresh) history := by rwa [hstep]
      rw [if_neg hfresh]
      exact ih hround

def newChannels : Channels := fun _ => {}

/-- **What a channel remembers** after the calls of a new engine. -/
theorem remembers_run (fresh : Bool) (requests : List Request) :
    Remembers (run step newChannels requests fresh) (rounds fresh newChannels requests) := by
  have hnew : Remembers (newChannels fresh) [] := Remembers.new
  simpa using remembers_rounds hnew requests

/-! ### The laws -/

/-- The mint has due work: a pending trajectory of it has a horizon that is unresolved, due, and in its grace. -/
def Due (request : Request) (mint : String) : Prop :=
  ∃ item ∈ items request.collector, item.mint = mint ∧ ∃ horizon ∈ learningHorizonsSeconds,
    item.checkpoints.get? horizon = none ∧ item.enteredAt + seconds horizon ≤ request.now ∧
      request.now ≤ item.enteredAt + seconds horizon + seconds checkpointGraceSeconds

theorem inLane_iff_due {request : Request} {mint : String} :
    (∃ lane, InLane request lane mint) ↔ request.selectable mint = true ∧ Due request mint := by
  rw [inLane_iff]
  constructor
  · rintro ⟨lane, at_, checkpoint, hmem, rfl, rfl, rfl⟩
    obtain ⟨item, hitem, hselectable, horizon, hhorizon, hawaits, rfl⟩ := mem_dueCheckpoints.mp hmem
    unfold Item.awaits at hawaits
    rw [Bool.and_eq_true, Bool.and_eq_true, Option.isNone_iff_eq_none, decide_eq_true_eq, decide_eq_true_eq,
      not_lt] at hawaits
    exact ⟨hselectable, item, hitem, rfl, horizon, hhorizon, hawaits.1.1, hawaits.1.2, hawaits.2⟩
  · rintro ⟨hselectable, item, hitem, rfl, horizon, hhorizon, hnone, hdue, hgrace⟩
    have hawaits : item.awaits request.now horizon = true := by
      unfold Item.awaits
      rw [Bool.and_eq_true, Bool.and_eq_true, Option.isNone_iff_eq_none, decide_eq_true_eq, decide_eq_true_eq, not_lt]
      exact ⟨⟨hnone, hdue⟩, hgrace⟩
    exact ⟨item.lane, _, item.checkpoint horizon,
      mem_dueCheckpoints.mpr ⟨item, hitem, hselectable, horizon, hhorizon, hawaits, rfl⟩, rfl, rfl, rfl⟩

theorem not_selectable_twice {request other : Request} {mint : String} (hcontext : other.context = request.context)
    (hstates : other.states = request.states) (hnow : other.now = request.now) (hfresh : other.fresh ≠ request.fresh)
    (h : request.selectable mint = true) : other.selectable mint = false := by
  rw [Bool.eq_false_iff]
  intro h'
  unfold Request.selectable at h h'
  rw [Bool.and_eq_true, Bool.and_eq_true, decide_eq_true_eq] at h h'
  obtain ⟨⟨hexcluded, -⟩, hroute⟩ := h
  obtain ⟨⟨hexcluded', -⟩, hroute'⟩ := h'
  apply hfresh
  rw [← hroute, ← hroute']
  unfold Request.isFresh
  rw [hexcluded, hexcluded', hcontext, hstates, hnow]

theorem served_le {request : Request} (h : Remembers channel history)
    {mint mint' : String} (hlane : ∃ lane, InLane request lane mint)
    (hle : servedAt request channel mint ≤ servedAt request channel mint') {number : ℕ}
    (hserved : ServedSince history mint number) : ∃ number', ServedSince history mint' number' ∧ number ≤ number' := by
  have hget : (kept request channel).get? mint = some (mint, number) := by
    unfold kept
    rw [Table.get?_filter, (h.served mint number).mpr hserved, Option.filter_some, pending_iff.mpr hlane]
    rfl
  unfold servedAt at hle
  rw [hget] at hle
  cases hget' : (kept request channel).get? mint' with
  | none =>
    rw [hget'] at hle
    simp only [Option.elim_some, Option.elim_none] at hle
    omega
  | some row =>
    obtain ⟨rfl⟩ : row.1 = mint' := (Table.get?_eq_some.mp hget').2
    rw [hget'] at hle
    unfold kept at hget'
    rw [Table.get?_filter] at hget'
    have hrow := (Option.filter_eq_some_iff.mp hget').1
    refine ⟨row.2, (h.served row.1 row.2).mp hrow, ?_⟩
    simp only [Option.elim_some] at hle
    omega

/-- Of four contested turns one is for discovery. -/
theorem Remembers.four (h : Remembers channel history) {i : ℕ}
    (hfour : ∀ k < 4, ∃ turn, (turnsOf history)[i + k]? = some turn ∧ turn.contested = true) :
    (((turnsOf history).drop i).take 4).countP (fun turn => turn.second) = 1 := by
  have hturn : ∀ k < 4, ∃ turn, (turnsOf history)[i + k]? = some turn ∧ turn.second = decide ((i + k) % 4 = 3) := by
    intro k hk
    obtain ⟨turn, hget, hcontested⟩ := hfour k hk
    refine ⟨turn, hget, ?_⟩
    rw [h.contested turn (mem_of_getElem? hget) hcontested, h.numbers (i + k) turn hget]
  obtain ⟨t₀, h₀, hs₀⟩ := hturn 0 (by decide)
  obtain ⟨t₁, h₁, hs₁⟩ := hturn 1 (by decide)
  obtain ⟨t₂, h₂, hs₂⟩ := hturn 2 (by decide)
  obtain ⟨t₃, h₃, hs₃⟩ := hturn 3 (by decide)
  have hlist : ((turnsOf history).drop i).take 4 = [t₀, t₁, t₂, t₃] := by
    apply ext_getElem?
    intro k
    rw [getElem?_take, getElem?_drop]
    rcases k with _ | _ | _ | _ | k
    · simpa using h₀
    · simpa using h₁
    · simpa using h₂
    · simpa using h₃
    · simp
  rw [hlist]
  simp only [countP_cons, countP_nil, hs₀, hs₁, hs₂, hs₃, decide_eq_true_eq]
  have hmod : i % 4 < 4 := Nat.mod_lt _ (by decide)
  split_ifs <;> omega

/-- **The laws of a call after any calls.** The mints it selects are distinct, as many as the limit and the due work on
its channel allow, and all of them have due work; each is served in its lane, by the clock it has there. A mint that still
waits in the lane of a turn is no more urgent than the one that is served; if it is as urgent, it was not served before it,
as far as the two have been pending since. Of four turns of the channel in a row, one goes to Discovery if mints wait in
both lanes at each. What is selected on one channel is not selected on the other. -/
theorem fair_checkpoint_selection (requests : List Request) (request : Request) :
    let channel := run step newChannels requests request.fresh;
    let history := rounds request.fresh newChannels requests;
    let chosen := selected request channel;
    chosen.Nodup ∧
    (∃ mints : List String, mints.Nodup ∧ (∀ mint, mint ∈ mints ↔ request.selectable mint = true ∧ Due request mint) ∧
      chosen.length = min (max 0 request.limit).toNat mints.length) ∧
    (∀ mint ∈ chosen, request.selectable mint = true ∧ Due request mint) ∧
    (∀ turn ∈ turns request channel, Clock request (laneOf turn) turn.item.1 turn.item.2) ∧
    (∀ (i : ℕ) (turn : Turn (String × Instant)), (turns request channel)[i]? = some turn →
      ∀ mint, InLane request (laneOf turn) mint → mint ∉ chosen.take i →
        (Urgent request mint → Urgent request turn.item.1) ∧
        ((Urgent request turn.item.1 ↔ Urgent request mint) → ∀ number, ServedSince history turn.item.1 number →
          ∃ number', ServedSince history mint number' ∧ number ≤ number')) ∧
    (∀ i : ℕ, (∀ k < 4, ∃ turn, (turnsOf (history ++ [⟨request, turns request channel⟩]))[i + k]? = some turn ∧
        turn.contested = true) →
      (((turnsOf (history ++ [⟨request, turns request channel⟩])).drop i).take 4).countP (fun turn => turn.second) = 1) ∧
    (∀ (i : ℕ) (turn : Turn (String × Instant)), (turns request channel)[i]? = some turn →
      (∃ mint, InLane request .policy mint ∧ mint ∉ chosen.take i) →
      (∃ mint, InLane request .discovery mint ∧ mint ∉ chosen.take i) → turn.contested = true) ∧
    (∀ (other : Request) (channel' : Channel), other.context = request.context → other.states = request.states →
      other.now = request.now → other.fresh ≠ request.fresh → ∀ mint ∈ chosen, mint ∉ selected other channel') := by
  intro channel history chosen
  have hremembers : Remembers channel history := remembers_run request.fresh requests
  have hdue : ∀ mint ∈ chosen, request.selectable mint = true ∧ Due request mint :=
    fun mint hmint => inLane_iff_due.mp (selected_inLane hmint)
  refine ⟨selected_nodup request channel, ⟨mintsOf request, mintsOf_nodup request, fun mint => ?_, ?_⟩, hdue,
    fun _ => turns_clock, ?_, ?_, ?_, ?_⟩
  · rw [mem_mintsOf, inLane_iff_due]
  · exact selected_length request channel
  · intro i turn hturn mint hlane hwaiting
    obtain ⟨hurgent, hserved⟩ := selected_first hturn hlane hwaiting
    refine ⟨hurgent, fun hsame number hnumber => ?_⟩
    exact served_le hremembers ⟨_, (turns_clock (mem_of_getElem? hturn)).inLane⟩ (hserved hsame) hnumber
  · intro i hfour
    exact (hremembers.advanced request).four hfour
  · rintro i turn hturn ⟨mint, hlane, hwaiting⟩ ⟨mint', hlane', hwaiting'⟩
    exact turns_contested hturn hlane hlane' hwaiting hwaiting'
  · intro other channel' hcontext hstates hnow hfresh mint hmint hmint'
    have hnot := not_selectable_twice hcontext hstates hnow hfresh (hdue mint hmint).1
    rw [(inLane_iff_due.mp (selected_inLane hmint')).1] at hnot
    cases hnot

/-! ### A mint that was away -/

/-- A purchase of the mint, a minute before the calls. -/
def absentRow (mint : String) : Trajectory where
  mint := mint
  enteredAt := 0
  configurationFingerprint := none
  feeBps := 100
  checkpointNetworkFeeLamports := some 5000
  sizeTrials := fun _ => none

def absentObservation (serial : ℕ) (mint : String) : LearningObservation where
  serial := serial
  economics := ⟨1000, 1000, by decide, by decide⟩
  row := absentRow mint

def absentCollector : Collector where
  observations := ⟨[absentObservation 0 "A", absentObservation 1 "B", absentObservation 2 "C"], by decide⟩
  evidenceEpisodes := .empty
  outcomesSeen := 0

/-- A market that was just seen. -/
def seenState (mint : String) : TokenState where
  mint := mint
  virtualTokenReserves := 1000
  virtualQuoteReserves := 1000
  lastReserveAt := some (seconds 60)

/-- A call on the `cache` channel that knows the markets of these mints. -/
def absentRequest (known : List String) (limit : ℤ) : Request where
  collector := absentCollector
  context := ⟨30, 5000, 0, 100, none⟩
  states mint := if mint ∈ known then some (seenState mint) else none
  now := seconds 60
  limit := limit
  fresh := true

/-- The market of B is not known to the second call, and the one of C only to it. -/
def absentRequests : List Request := [absentRequest ["A", "B"] 5, absentRequest ["A", "C"] 1]

/-- **Due work whose market is not known is not selected, and a mint that was not pending for a while counts as never
served.** The first call has room for C, which has due work. The third serves B, which was served after A: the two are
in the same lane, and neither is urgent. -/
theorem unfair_after_absence :
    Due (absentRequest ["A", "B"] 5) "C" ∧ selected (absentRequest ["A", "B"] 5) {} = ["A", "B"] ∧
      (turnsOf (rounds true newChannels absentRequests)).map (fun turn => (turn.number, turn.item.1)) =
        [(0, "A"), (1, "B"), (2, "C")] ∧
      selected (absentRequest ["A", "B"] 1) (run step newChannels absentRequests true) = ["B"] ∧
      (discoveryMints (absentRequest ["A", "B"] 1)).rows = [("A", seconds 60), ("B", seconds 60)] ∧
      urgentBefore (seconds 60) < seconds 60 := by
  have hpending : absentObservation 2 "C" ∈ absentCollector.observations.rows.filter fun observation =>
      observation.row.status = .pending := mem_filter.mpr ⟨by simp [absentCollector], rfl⟩
  refine ⟨⟨⟨.discovery, "C", 0, .empty⟩, ?_, rfl, 60, by decide, rfl, by decide, by decide⟩, ?_⟩
  · exact mem_append_left _ (mem_map_of_mem hpending)
  · decide +kernel

end SignalArcade.Challenger.Collection.CheckpointTurns
