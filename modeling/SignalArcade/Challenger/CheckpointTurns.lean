import Mathlib.Data.String.Basic
import SignalArcade.Challenger.Collection
import SignalArcade.Lib.Turns

/-!
# The selection of due checkpoints

`due_checkpoint_mints` chooses the mints whose routes are looked at next: on the `cache` channel those whose known route
is fresh, on the `rpc` channel the others. What is due is collected by lane, a mint of both lanes goes to Policy, and each
lane is sorted: what is about to expire first, then what has waited longest. The lanes are served in turns, every fourth
of which is reserved for Discovery. A channel remembers its next turn, and that of a mint as long as it stays pending.
-/

namespace SignalArcade.Challenger.Collection.CheckpointTurns

open Paper (Instant)
open Market.Features (TokenState)
open Turns List

/-! ### What is due -/

/-- The two lanes of evidence. -/
inductive Lane where
  | policy | discovery
  deriving DecidableEq

/-- An item: a trajectory that is pending. -/
structure Item where
  lane : Lane
  mint : String
  enteredAt : Instant
  checkpoints : Checkpoints

def items (s : Collector) : List Item :=
  ((s.observations.rows.filter fun observation => observation.row.status = .pending).map fun observation =>
    ⟨.discovery, observation.row.mint, observation.row.enteredAt, observation.row.checkpoints⟩) ++
  (s.evidenceEpisodes.rows.filter LearningEvidenceEpisode.collects).map fun episode =>
    ⟨.policy, episode.row.mint, episode.row.enteredAt, episode.row.checkpoints⟩

/-- A call: the engine's records and settings, and the arguments. -/
structure Request where
  collector : Collector
  context : Context
  states : String → Option TokenState
  now : Instant
  limit : ℤ
  /-- The channel: `cache` if fresh, `rpc` otherwise. -/
  fresh : Bool
  excludedMints : Option (List String) := none

namespace Request

variable (request : Request)

def excluded (mint : String) : Bool := !request.fresh && request.excludedMints.any (mint ∈ ·)

def isFresh (mint : String) : Bool :=
  !request.excluded mint &&
    (request.states mint).any fun state =>
      routeMissingReason state request.now request.context.staleMarketSeconds true = none

/-- The mint may be selected. -/
def selectable (mint : String) : Bool :=
  !request.excluded mint && (request.states mint).isSome && request.isFresh mint = request.fresh

end Request

/-- A checkpoint that is due. -/
structure DueCheckpoint where
  lane : Lane
  mint : String
  horizon : ℕ
  dueAt : Instant

def Item.checkpoint (item : Item) (horizon : ℕ) : DueCheckpoint where
  lane := item.lane
  mint := item.mint
  horizon := horizon
  dueAt := item.enteredAt + seconds horizon

/-- It is unresolved, due, and has not expired. -/
def Item.awaits (item : Item) (now : Instant) (horizon : ℕ) : Bool :=
  (item.checkpoints.get? horizon).isNone && item.enteredAt + seconds horizon ≤ now &&
    ¬ item.enteredAt + seconds horizon + seconds checkpointGraceSeconds < now

/-- The loops over the items and the horizons. -/
def dueCheckpoints (request : Request) : List DueCheckpoint :=
  (items request.collector).flatMap fun item =>
    if request.selectable item.mint then
      (learningHorizonsSeconds.filter (item.awaits request.now)).map item.checkpoint
    else []

/-- A lane: its mints, each with its clock. -/
abbrev Mints := Table String (String × Instant) Prod.fst

/-- `lanes[lane][mint] = min(lanes[lane].get(mint, due_at), due_at)`. -/
def note (mints : Mints) (checkpoint : DueCheckpoint) : Mints :=
  mints.upsert (checkpoint.mint, min ((mints.get? checkpoint.mint).elim checkpoint.dueAt Prod.snd) checkpoint.dueAt)

/-- `lanes[lane]`. -/
def laneMints (request : Request) (lane : Lane) : Mints :=
  ((dueCheckpoints request).filter fun checkpoint => checkpoint.lane = lane).foldl note .empty

/-- `lanes["policy"]`, once the mints of both lanes have the earlier clock. -/
def policyMints (request : Request) : Mints :=
  (laneMints request .policy).map
    (fun row => (row.1, min row.2 (((laneMints request .discovery).get? row.1).elim row.2 Prod.snd))) fun _ => rfl

/-- `lanes["discovery"]`, without the mints of both lanes. -/
def discoveryMints (request : Request) : Mints :=
  (laneMints request .discovery).filter fun row => ((laneMints request .policy).get? row.1).isNone

def lanes (request : Request) : Lane → Mints
  | .policy => policyMints request
  | .discovery => discoveryMints request

def pending (request : Request) (mint : String) : Bool :=
  ((policyMints request).get? mint).isSome || ((discoveryMints request).get? mint).isSome

/-! ### The turns -/

def checkpointUrgentSeconds : ℕ := 15

/-- What was due before this is urgent. -/
def urgentBefore (now : Instant) : Instant := now - seconds (checkpointGraceSeconds - checkpointUrgentSeconds)

/-- What a channel remembers: when it last served a mint, and the number of its next turn. -/
structure Channel where
  served : Table String (String × ℕ) Prod.fst := .empty
  turn : ℕ := 0

/-- `served`, of the mints that are pending. -/
def kept (request : Request) (channel : Channel) : Table String (String × ℕ) Prod.fst :=
  channel.served.filter fun row => pending request row.1

/-- `served.get(mint, -1)`. -/
def servedAt (request : Request) (channel : Channel) (mint : String) : ℤ :=
  ((kept request channel).get? mint).elim (-1) fun row => row.2

/-- The key of a mint in its queue. -/
def sortKey (request : Request) (channel : Channel) (row : String × Instant) : Bool ×ₗ ℤ ×ₗ Instant ×ₗ String :=
  toLex (decide (urgentBefore request.now < row.2), toLex (servedAt request channel row.1, toLex (row.2, row.1)))

/-- The order of a queue. -/
def before (request : Request) (channel : Channel) (row row' : String × Instant) : Prop :=
  sortKey request channel row ≤ sortKey request channel row'

instance (request : Request) (channel : Channel) : DecidableRel (before request channel) :=
  fun row row' => inferInstanceAs (Decidable (sortKey request channel row ≤ sortKey request channel row'))

instance (request : Request) (channel : Channel) : Std.Total (before request channel) :=
  ⟨fun row row' => le_total (sortKey request channel row) (sortKey request channel row')⟩

instance (request : Request) (channel : Channel) : IsTrans _ (before request channel) :=
  ⟨fun _ _ _ h h' => le_trans h h'⟩

/-- `queues[lane]`. -/
def queueOf (request : Request) (channel : Channel) (lane : Lane) : List (String × Instant) :=
  (lanes request lane).rows.insertionSort (before request channel)

/-- The turns of a call: three for Policy, then one for Discovery. -/
def turns (request : Request) (channel : Channel) : List (Turn (String × Instant)) :=
  serve (fun turn => turn % 4 = 3) (max 0 request.limit).toNat channel.turn (queueOf request channel .policy)
    (queueOf request channel .discovery)

/-- The mints a call selects. -/
def selected (request : Request) (channel : Channel) : List String :=
  (turns request channel).map fun turn => turn.item.1

/-- The channel after the call. -/
def advanced (request : Request) (channel : Channel) : Channel where
  served := (turns request channel).foldl (fun served turn => served.upsert (turn.item.1, turn.number))
    (kept request channel)
  turn := channel.turn + (turns request channel).length

/-! ### The clocks of the lanes -/

theorem mem_dueCheckpoints {request : Request} {checkpoint : DueCheckpoint} :
    checkpoint ∈ dueCheckpoints request ↔
      ∃ item ∈ items request.collector, request.selectable item.mint = true ∧
        ∃ horizon ∈ learningHorizonsSeconds, item.awaits request.now horizon = true ∧ item.checkpoint horizon = checkpoint := by
  unfold dueCheckpoints
  rw [mem_flatMap]
  constructor
  · rintro ⟨item, hitem, hmem⟩
    split_ifs at hmem with hselectable
    · obtain ⟨horizon, hhorizon, rfl⟩ := mem_map.mp hmem
      obtain ⟨hmem, hawaits⟩ := mem_filter.mp hhorizon
      exact ⟨item, hitem, hselectable, horizon, hmem, hawaits, rfl⟩
    · cases hmem
  · rintro ⟨item, hitem, hselectable, horizon, hmem, hawaits, rfl⟩
    refine ⟨item, hitem, ?_⟩
    rw [if_pos hselectable]
    exact mem_map_of_mem (mem_filter.mpr ⟨hmem, hawaits⟩)

theorem get?_foldl_note (checkpoints : List DueCheckpoint) (mint : String) :
    ((checkpoints.foldl note .empty).get? mint = none ∧ ∀ checkpoint ∈ checkpoints, checkpoint.mint ≠ mint) ∨
      ∃ at_, (checkpoints.foldl note .empty).get? mint = some (mint, at_) ∧
        (∃ checkpoint ∈ checkpoints, checkpoint.mint = mint ∧ checkpoint.dueAt = at_) ∧
        ∀ checkpoint ∈ checkpoints, checkpoint.mint = mint → at_ ≤ checkpoint.dueAt := by
  induction checkpoints using reverseRecOn with
  | nil => exact .inl ⟨rfl, by simp⟩
  | append_singleton checkpoints last ih =>
    rw [foldl_concat, note, Table.get?_upsert]
    by_cases hlast : mint = last.mint
    · right
      subst hlast
      rw [if_pos rfl]
      rcases ih with ⟨hnone, hfree⟩ | ⟨at_, hsome, ⟨checkpoint, hmem, hmint, hat⟩, hleast⟩
      · refine ⟨last.dueAt, by rw [hnone]; simp, ⟨last, by simp, rfl, rfl⟩, fun checkpoint hmem hmint => ?_⟩
        rcases mem_append.mp hmem with hmem | hmem
        · exact absurd hmint (hfree checkpoint hmem)
        · exact (mem_singleton.mp hmem) ▸ le_refl _
      · refine ⟨min at_ last.dueAt, by rw [hsome]; rfl, ?_, fun checkpoint' hmem' hmint' => ?_⟩
        · rcases min_choice at_ last.dueAt with hmin | hmin
          · exact ⟨checkpoint, by simp [hmem], hmint, by rw [hmin, hat]⟩
          · exact ⟨last, by simp, rfl, hmin.symm⟩
        · rcases mem_append.mp hmem' with hmem' | hmem'
          · exact (min_le_left _ _).trans (hleast checkpoint' hmem' hmint')
          · exact (mem_singleton.mp hmem') ▸ min_le_right _ _
    · rw [if_neg hlast]
      rcases ih with ⟨hnone, hfree⟩ | ⟨at_, hsome, ⟨checkpoint, hmem, hmint, hat⟩, hleast⟩
      · refine .inl ⟨hnone, fun checkpoint hmem => ?_⟩
        rcases mem_append.mp hmem with hmem | hmem
        · exact hfree checkpoint hmem
        · rw [mem_singleton.mp hmem]
          exact fun h => hlast h.symm
      · refine .inr ⟨at_, hsome, ⟨checkpoint, by simp [hmem], hmint, hat⟩, fun checkpoint' hmem' hmint' => ?_⟩
        rcases mem_append.mp hmem' with hmem' | hmem'
        · exact hleast checkpoint' hmem' hmint'
        · rw [mem_singleton.mp hmem'] at hmint'
          exact absurd hmint'.symm hlast

/-- A checkpoint of the mint in the lane is due since then, on a route that may be looked at. -/
def Awaits (request : Request) (lane : Lane) (mint : String) (at_ : Instant) : Prop :=
  ∃ checkpoint ∈ dueCheckpoints request, checkpoint.lane = lane ∧ checkpoint.mint = mint ∧ checkpoint.dueAt = at_

/-- The lane of a mint: Discovery, if it has nothing due in Policy. -/
def InLane (request : Request) (lane : Lane) (mint : String) : Prop :=
  match lane with
  | .policy => ∃ at_, Awaits request .policy mint at_
  | .discovery => (∃ at_, Awaits request .discovery mint at_) ∧ ¬ ∃ at_, Awaits request .policy mint at_

/-- A checkpoint of the mint is about to expire. -/
def Urgent (request : Request) (mint : String) : Prop :=
  ∃ lane at_, Awaits request lane mint at_ ∧ at_ ≤ urgentBefore request.now

variable {request : Request} {channel : Channel} {lane : Lane} {mint : String}

theorem laneMints_get? (request : Request) (lane : Lane) (mint : String) :
    ((laneMints request lane).get? mint = none ∧ ∀ at_, ¬ Awaits request lane mint at_) ∨
      ∃ at_, (laneMints request lane).get? mint = some (mint, at_) ∧ Awaits request lane mint at_ ∧
        ∀ at', Awaits request lane mint at' → at_ ≤ at' := by
  rcases get?_foldl_note ((dueCheckpoints request).filter fun checkpoint => checkpoint.lane = lane) mint with
    ⟨hnone, hfree⟩ | ⟨at_, hsome, ⟨checkpoint, hmem, hmint, hat⟩, hleast⟩
  · refine .inl ⟨hnone, ?_⟩
    rintro at_ ⟨checkpoint, hmem, hlane, hmint, -⟩
    exact hfree checkpoint (mem_filter.mpr ⟨hmem, by simpa using hlane⟩) hmint
  · obtain ⟨hmem, hlane⟩ := mem_filter.mp hmem
    refine .inr ⟨at_, hsome, ⟨checkpoint, hmem, by simpa using hlane, hmint, hat⟩, ?_⟩
    rintro at' ⟨checkpoint', hmem', hlane', hmint', rfl⟩
    exact hleast checkpoint' (mem_filter.mpr ⟨hmem', by simpa using hlane'⟩) hmint'

/-- The lane has work of the mint, which has waited since `at_` in one of its lanes. -/
structure Clock (request : Request) (lane : Lane) (mint : String) (at_ : Instant) : Prop where
  inLane : InLane request lane mint
  attained : ∃ lane, Awaits request lane mint at_
  least : ∀ lane at', Awaits request lane mint at' → at_ ≤ at'

theorem lanes_get? (request : Request) (lane : Lane) (mint : String) :
    ((lanes request lane).get? mint = none ∧ ¬ InLane request lane mint) ∨
      ∃ at_, (lanes request lane).get? mint = some (mint, at_) ∧ Clock request lane mint at_ := by
  rcases laneMints_get? request .policy mint with ⟨hpolicy, hfree⟩ | ⟨at_, hpolicy, hawaits, hleast⟩
  · have hnot : ¬ InLane request .policy mint := fun ⟨at_, h⟩ => hfree at_ h
    cases lane with
    | policy =>
      refine .inl ⟨?_, hnot⟩
      show (policyMints request).get? mint = none
      unfold policyMints
      rw [Table.get?_map, hpolicy]
      rfl
    | discovery =>
      rcases laneMints_get? request .discovery mint with ⟨hnone, hfree'⟩ | ⟨at_, hsome, hawaits, hleast⟩
      · refine .inl ⟨?_, fun h => ?_⟩
        · show (discoveryMints request).get? mint = none
          unfold discoveryMints
          rw [Table.get?_filter, hnone]
          rfl
        · obtain ⟨at_, h⟩ := h.1
          exact hfree' at_ h
      · refine .inr ⟨at_, ?_, ⟨⟨at_, hawaits⟩, hnot⟩, ⟨_, hawaits⟩, ?_⟩
        · show (discoveryMints request).get? mint = some (mint, at_)
          unfold discoveryMints
          rw [Table.get?_filter, hsome, Option.filter_some, hpolicy]
          rfl
        · rintro (_ | _) at' h
          · exact absurd h (hfree at')
          · exact hleast at' h
  · cases lane with
    | policy =>
      rcases laneMints_get? request .discovery mint with ⟨hnone, hfree'⟩ | ⟨at', hsome, hawaits', hleast'⟩
      · refine .inr ⟨at_, ?_, ⟨at_, hawaits⟩, ⟨_, hawaits⟩, ?_⟩
        · show (policyMints request).get? mint = some (mint, at_)
          unfold policyMints
          rw [Table.get?_map, hpolicy, Option.map_some, hnone]
          simp
        · rintro (_ | _) at' h
          · exact hleast at' h
          · exact absurd h (hfree' at')
      · refine .inr ⟨min at_ at', ?_, ⟨at_, hawaits⟩, ?_, ?_⟩
        · show (policyMints request).get? mint = some (mint, min at_ at')
          unfold policyMints
          rw [Table.get?_map, hpolicy, Option.map_some, hsome]
          rfl
        · rcases min_choice at_ at' with hmin | hmin
          · exact ⟨_, hmin.symm ▸ hawaits⟩
          · exact ⟨_, hmin.symm ▸ hawaits'⟩
        · rintro (_ | _) at'' h
          · exact (min_le_left _ _).trans (hleast at'' h)
          · exact (min_le_right _ _).trans (hleast' at'' h)
    | discovery =>
      refine .inl ⟨?_, fun h => h.2 ⟨at_, hawaits⟩⟩
      show (discoveryMints request).get? mint = none
      unfold discoveryMints
      rw [Table.get?_filter]
      rcases laneMints_get? request .discovery mint with ⟨hnone, -⟩ | ⟨at', hsome, -, -⟩
      · rw [hnone]
        rfl
      · rw [hsome, Option.filter_some, hpolicy]
        rfl

theorem mem_lanes {row : String × Instant} :
    row ∈ (lanes request lane).rows ↔ Clock request lane row.1 row.2 := by
  constructor
  · intro h
    have hget : (lanes request lane).get? row.1 = some row := Table.get?_eq_some.mpr ⟨h, rfl⟩
    rcases lanes_get? request lane row.1 with ⟨hnone, -⟩ | ⟨at_, hsome, hclock⟩
    · rw [hnone] at hget
      cases hget
    · rw [hsome] at hget
      obtain rfl : at_ = row.2 := congrArg Prod.snd (Option.some.inj hget)
      exact hclock
  · intro h
    rcases lanes_get? request lane row.1 with ⟨-, hnot⟩ | ⟨at_, hsome, hclock⟩
    · exact absurd h.inLane hnot
    · obtain ⟨lane', hawaits⟩ := h.attained
      obtain ⟨lane'', hawaits'⟩ := hclock.attained
      obtain rfl : at_ = row.2 := le_antisymm (hclock.least _ _ hawaits) (h.least _ _ hawaits')
      exact (Table.get?_eq_some.mp hsome).1

theorem Clock.urgent_iff {at_ : Instant} (h : Clock request lane mint at_) :
    Urgent request mint ↔ at_ ≤ urgentBefore request.now := by
  constructor
  · rintro ⟨lane', at', hawaits, hurgent⟩
    exact (h.least lane' at' hawaits).trans hurgent
  · intro hurgent
    obtain ⟨lane', hawaits⟩ := h.attained
    exact ⟨lane', at_, hawaits, hurgent⟩

theorem inLane_iff : (∃ lane, InLane request lane mint) ↔ ∃ lane at_, Awaits request lane mint at_ := by
  constructor
  · rintro ⟨_ | _, h⟩
    · exact ⟨.policy, h⟩
    · exact ⟨.discovery, h.1⟩
  · rintro ⟨lane, at_, h⟩
    by_cases hpolicy : ∃ at_, Awaits request .policy mint at_
    · exact ⟨.policy, hpolicy⟩
    · cases lane with
      | policy => exact absurd ⟨at_, h⟩ hpolicy
      | discovery => exact ⟨.discovery, ⟨at_, h⟩, hpolicy⟩

theorem pending_iff : pending request mint = true ↔ ∃ lane, InLane request lane mint := by
  have hlane : ∀ lane, ((lanes request lane).get? mint).isSome = true ↔ InLane request lane mint := by
    intro lane
    rcases lanes_get? request lane mint with ⟨hnone, hnot⟩ | ⟨at_, hsome, hclock⟩
    · simp [hnone, hnot]
    · simp [hsome, hclock.inLane]
  unfold pending
  rw [Bool.or_eq_true]
  constructor
  · rintro (h | h)
    · exact ⟨.policy, (hlane .policy).mp h⟩
    · exact ⟨.discovery, (hlane .discovery).mp h⟩
  · rintro ⟨_ | _, h⟩
    · exact .inl ((hlane .policy).mpr h)
    · exact .inr ((hlane .discovery).mpr h)

/-! ### One call -/

def laneOf (turn : Turn (String × Instant)) : Lane := if turn.second then .discovery else .policy

theorem mem_queueOf {row : String × Instant} : row ∈ queueOf request channel lane ↔ Clock request lane row.1 row.2 := by
  unfold queueOf
  rw [mem_insertionSort]
  exact mem_lanes

theorem queue_eq (side : Bool) : queue side (queueOf request channel .policy) (queueOf request channel .discovery) =
    queueOf request channel (if side then .discovery else .policy) := by
  cases side <;> rfl

variable {turn : Turn (String × Instant)}

theorem turns_clock (h : turn ∈ turns request channel) :
    Clock request (laneOf turn) turn.item.1 turn.item.2 := by
  have hmem := serve_mem h
  rw [queue_eq] at hmem
  exact mem_queueOf.mp hmem

/-- The mints of the two lanes. -/
def mintsOf (request : Request) : List String :=
  ((lanes request .policy).rows ++ (lanes request .discovery).rows).map Prod.fst

theorem mem_mintsOf : mint ∈ mintsOf request ↔ ∃ lane, InLane request lane mint := by
  unfold mintsOf
  rw [map_append, mem_append, mem_map, mem_map]
  constructor
  · rintro (⟨row, hrow, rfl⟩ | ⟨row, hrow, rfl⟩)
    · exact ⟨.policy, (mem_lanes.mp hrow).inLane⟩
    · exact ⟨.discovery, (mem_lanes.mp hrow).inLane⟩
  · rintro ⟨lane, h⟩
    rcases lanes_get? request lane mint with ⟨-, hnot⟩ | ⟨at_, hsome, -⟩
    · exact absurd h hnot
    · have hrow := (Table.get?_eq_some.mp hsome).1
      cases lane with
      | policy => exact .inl ⟨_, hrow, rfl⟩
      | discovery => exact .inr ⟨_, hrow, rfl⟩

theorem mintsOf_nodup (request : Request) : (mintsOf request).Nodup := by
  unfold mintsOf
  rw [map_append, nodup_append]
  refine ⟨(lanes request .policy).nodup, (lanes request .discovery).nodup, ?_⟩
  rintro mint hpolicy _ hdiscovery rfl
  obtain ⟨row, hrow, rfl⟩ := mem_map.mp hpolicy
  obtain ⟨row', hrow', hmint⟩ := mem_map.mp hdiscovery
  have hfree := (mem_lanes.mp hrow').inLane.2
  rw [hmint] at hfree
  exact hfree (mem_lanes.mp hrow).inLane

theorem queues_perm : ((queueOf request channel .policy ++ queueOf request channel .discovery).map Prod.fst).Perm
    (mintsOf request) :=
  ((perm_insertionSort _ _).append (perm_insertionSort _ _)).map _

theorem selected_nodup (request : Request) (channel : Channel) : (selected request channel).Nodup := by
  obtain ⟨rows, hperm, hsublist⟩ : ((turns request channel).map Turn.item).Subperm _ := serve_subperm
  have hselected : selected request channel = ((turns request channel).map Turn.item).map Prod.fst := by
    unfold selected
    rw [map_map]
    rfl
  rw [hselected]
  apply (hperm.map Prod.fst).nodup_iff.mp
  exact (queues_perm.nodup_iff.mpr (mintsOf_nodup request)).sublist (hsublist.map Prod.fst)

theorem selected_length (request : Request) (channel : Channel) :
    (selected request channel).length = min (max 0 request.limit).toNat (mintsOf request).length := by
  have hlength : ((queueOf request channel .policy ++ queueOf request channel .discovery).map Prod.fst).length = _ :=
    queues_perm.length_eq
  rw [length_map, length_append] at hlength
  unfold selected turns
  rw [length_map, serve_length, hlength]

theorem selected_inLane (h : mint ∈ selected request channel) : ∃ lane, InLane request lane mint := by
  obtain ⟨turn, hturn, rfl⟩ := mem_map.mp h
  exact ⟨_, (turns_clock hturn).inLane⟩

theorem waits_in_queue (hlane : InLane request lane mint) {i : ℕ} (hwaiting : mint ∉ (selected request channel).take i) :
    ∃ at_, Clock request lane mint at_ ∧ (mint, at_) ∈ queueOf request channel lane ∧
      (mint, at_) ∉ ((turns request channel).take i).map Turn.item := by
  rcases lanes_get? request lane mint with ⟨-, hnot⟩ | ⟨at_, -, hclock⟩
  · exact absurd hlane hnot
  refine ⟨at_, hclock, mem_queueOf.mpr hclock, fun hmem => hwaiting ?_⟩
  obtain ⟨earlier, hearlier, hitem⟩ := mem_map.mp hmem
  unfold selected
  rw [← map_take]
  exact mem_map.mpr ⟨earlier, hearlier, by rw [hitem]⟩

theorem turns_contested {i : ℕ} (hturn : (turns request channel)[i]? = some turn)
    {mint' : String} (hlane : InLane request .policy mint) (hlane' : InLane request .discovery mint')
    (hwaiting : mint ∉ (selected request channel).take i) (hwaiting' : mint' ∉ (selected request channel).take i) :
    turn.contested = true := by
  obtain ⟨_, -, hqueue, hfree⟩ := waits_in_queue hlane hwaiting
  obtain ⟨_, -, hqueue', hfree'⟩ := waits_in_queue hlane' hwaiting'
  exact serve_waiting hturn hqueue hqueue' hfree hfree'

/-- A mint that waits while another one of its lane is served is not more urgent, and if it is as urgent it was not
served before. -/
theorem selected_first {i : ℕ} (hturn : (turns request channel)[i]? = some turn)
    (hlane : InLane request (laneOf turn) mint) (hwaiting : mint ∉ (selected request channel).take i) :
    (Urgent request mint → Urgent request turn.item.1) ∧
      ((Urgent request turn.item.1 ↔ Urgent request mint) →
        servedAt request channel turn.item.1 ≤ servedAt request channel mint) := by
  have hclock := turns_clock (mem_of_getElem? hturn)
  obtain ⟨at_, hclock', hqueue, hfree⟩ := waits_in_queue hlane hwaiting
  have hordered : ∀ side, (queue side (queueOf request channel .policy) (queueOf request channel .discovery)).Pairwise
      (before request channel) := by
    intro side
    rw [queue_eq]
    exact pairwise_insertionSort _ _
  have hside : (mint, at_) ∈ queue turn.second (queueOf request channel .policy) (queueOf request channel .discovery) := by
    rw [queue_eq]
    exact hqueue
  have hbefore : sortKey request channel turn.item ≤ sortKey request channel (mint, at_) := by
    rcases serve_first hordered hturn hside hfree with heq | hbefore
    · rw [← heq]
    · exact hbefore
  rw [hclock.urgent_iff, hclock'.urgent_iff]
  obtain ⟨hurgent, hserved⟩ := Prod.Lex.toLex_le_toLex'.mp hbefore
  constructor
  · intro h
    by_contra hnot
    have htrue : urgentBefore request.now < turn.item.2 := not_le.mp hnot
    have hfalse : ¬ urgentBefore request.now < at_ := not_lt.mpr h
    simp only [htrue, hfalse, decide_true, decide_false] at hurgent
    exact absurd hurgent (by decide)
  · intro h
    have hsame : decide (urgentBefore request.now < turn.item.2) = decide (urgentBefore request.now < at_) := by
      rw [decide_eq_decide, ← not_le, ← not_le, h]
    exact (Prod.Lex.toLex_le_toLex'.mp (hserved hsame)).1

/-- What a channel remembers after a call: the turns of the call, and of the mints that are still pending what it knew
before. -/
theorem served_get? {number : ℕ} :
    (advanced request channel).served.get? mint = some (mint, number) ↔
      (∃ turn ∈ turns request channel, turn.item.1 = mint ∧ turn.number = number) ∨
        mint ∉ selected request channel ∧ pending request mint = true ∧
          channel.served.get? mint = some (mint, number) := by
  have hfold : (advanced request channel).served =
      ((turns request channel).map fun turn => (turn.item.1, turn.number)).foldl Table.upsert (kept request channel) := by
    unfold advanced
    rw [foldl_map]
  rw [hfold]
  by_cases hselected : mint ∈ selected request channel
  · obtain ⟨turn, hturn, rfl⟩ := mem_map.mp hselected
    have hkeys : (((turns request channel).map fun turn => (turn.item.1, turn.number)).map Prod.fst).Nodup := by
      rw [map_map]
      exact selected_nodup request channel
    have hrow : (turn.item.1, turn.number) ∈ (turns request channel).map fun turn => (turn.item.1, turn.number) :=
      mem_map_of_mem hturn
    have hget : (((turns request channel).map fun turn => (turn.item.1, turn.number)).foldl Table.upsert
        (kept request channel)).get? turn.item.1 = some (turn.item.1, turn.number) :=
      Table.get?_foldl_upsert_of_mem hkeys hrow
    rw [hget]
    constructor
    · intro h
      exact .inl ⟨turn, hturn, rfl, by simpa using h⟩
    · rintro (⟨turn', hturn', hmint, rfl⟩ | ⟨hnot, -⟩)
      · have hsame : turn' = turn := inj_on_of_nodup_map (selected_nodup request channel) hturn' hturn hmint
        rw [hsame]
      · exact absurd hselected hnot
  · have hfresh : ∀ row ∈ (turns request channel).map fun turn => (turn.item.1, turn.number), row.1 ≠ mint := by
      rintro _ hrow rfl
      obtain ⟨turn, hturn, rfl⟩ := mem_map.mp hrow
      exact hselected (mem_map_of_mem hturn)
    rw [Table.get?_foldl_upsert_of_not_mem hfresh, kept, Table.get?_filter, Option.filter_eq_some_iff]
    constructor
    · rintro ⟨hget, hpending⟩
      exact .inr ⟨hselected, hpending, hget⟩
    · rintro (⟨turn, hturn, rfl, -⟩ | ⟨-, hpending, hget⟩)
      · exact absurd (mem_map_of_mem hturn) hselected
      · exact ⟨hget, hpending⟩

end SignalArcade.Challenger.Collection.CheckpointTurns
