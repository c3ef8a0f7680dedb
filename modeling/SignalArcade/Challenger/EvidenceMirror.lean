import SignalArcade.Challenger.EvidenceStore
import SignalArcade.Challenger.Checkpoints

/-!
# Memory mirrors the store

What the learner holds and what its tables hold are compared by what a `view` shows of what is collected: all of
it, or all but how often a checkpoint was attempted. An attempt is counted in memory, and saved with the next
checkpoint.
-/

namespace SignalArcade.Challenger.Mirror

open Paper (Instant)
open Collection (Trajectory Pass Context Economics Quotable routeMissingReason)
open Market.Features (TokenState)
open Prog Runs List Option

/-! ### A loop that is not saved -/

/-- A horizon without a checkpoint is due, and in its grace. -/
def Awaits (row : Trajectory) (now : Instant) (horizon : ℕ) : Prop :=
  row.checkpoints.get? horizon = none ∧ seconds horizon ≤ row.age now ∧
    row.age now ≤ seconds (horizon + checkpointGraceSeconds)

/-- A horizon without a checkpoint is past its grace. -/
def Overdue (row : Trajectory) (now : Instant) (horizon : ℕ) : Prop :=
  row.checkpoints.get? horizon = none ∧ seconds (horizon + checkpointGraceSeconds) < row.age now

/-- What is attempted is saved: the route may be quoted, or nothing waits for it, or something is overdue. -/
def Sighting.Saves (sighting : Sighting) (row : Trajectory) : Prop :=
  Quotable sighting.context sighting.state sighting.now sighting.cached ∨
    (∀ horizon ∈ learningHorizonsSeconds, ¬ Awaits row sighting.now horizon) ∨
    ∃ horizon ∈ learningHorizonsSeconds, Overdue row sighting.now horizon

section unsaved

variable {context : Context} {state : TokenState} {now : Instant} {cached : Bool} {economics : Option Economics}
  {pass : Pass} {horizon : ℕ} {row : Trajectory}

theorem observe_unsaved (context : Context) (state : TokenState) (now : Instant) (cached : Bool)
    (economics : Option Economics) (pass : Pass) (horizon : ℕ) :
    (pass.observe context state now cached economics horizon).changed = pass.changed + 1 ∨
    ¬ Overdue pass.row now horizon ∧ ∃ attempts,
      pass.observe context state now cached economics horizon = pass.attempted attempts ∧
      (Quotable context state now cached ∨ ¬ Awaits pass.row now horizon → attempts = pass.row.checkpointAttempts) := by
  unfold Pass.observe
  by_cases hskip : (pass.row.checkpoints.get? horizon).isSome = true ∨ pass.row.age now < seconds horizon
  · rw [if_pos hskip]
    refine .inr ⟨fun hoverdue => ?_, pass.row.checkpointAttempts, rfl, fun _ => rfl⟩
    rcases hskip with hsome | hearly
    · rw [hoverdue.1] at hsome
      cases hsome
    · have hlate := hoverdue.2
      have hle : seconds horizon ≤ seconds (horizon + checkpointGraceSeconds) := by
        unfold seconds
        omega
      exact absurd (hlate.trans (hearly.trans_le hle)) (lt_irrefl _)
  · rw [if_neg hskip]
    rw [not_or, not_isSome_iff_eq_none, not_lt] at hskip
    obtain ⟨hfresh, hdue⟩ := hskip
    dsimp only
    set attempts := Function.update pass.row.checkpointAttempts horizon (pass.row.checkpointAttempts horizon + 1)
    by_cases hlate : seconds (horizon + checkpointGraceSeconds) < (pass.attempted attempts).row.age now
    · rw [if_pos hlate]
      exact .inl rfl
    · rw [if_neg hlate]
      by_cases hroute : (routeMissingReason state now context.staleMarketSeconds cached).isSome = true
      · rw [if_pos hroute]
        refine .inr ⟨fun hoverdue => hlate hoverdue.2, attempts, rfl, fun h => ?_⟩
        rcases h with hquotable | hnot
        · rw [show routeMissingReason state now context.staleMarketSeconds cached = none from hquotable] at hroute
          cases hroute
        · exact absurd ⟨hfresh, hdue, not_lt.mp hlate⟩ hnot
      · rw [if_neg hroute]
        cases economics with
        | none => exact .inl rfl
        | some bought => exact .inl rfl

theorem le_changed (horizons : List ℕ) (pass : Pass) :
    pass.changed ≤ (horizons.foldl (Pass.observe context state now cached economics) pass).changed := by
  induction horizons generalizing pass with
  | nil => exact le_rfl
  | cons horizon horizons ih =>
    refine le_trans ?_ (ih _)
    rcases observe_unsaved context state now cached economics pass horizon with h | ⟨-, attempts, h, -⟩
    · omega
    · rw [h]
      exact le_rfl

theorem foldl_unsaved (horizons : List ℕ) (pass : Pass)
    (h : (horizons.foldl (Pass.observe context state now cached economics) pass).changed = pass.changed) :
    (∀ horizon ∈ horizons, ¬ Overdue pass.row now horizon) ∧ ∃ attempts,
      horizons.foldl (Pass.observe context state now cached economics) pass = pass.attempted attempts ∧
      (Quotable context state now cached ∨ (∀ horizon ∈ horizons, ¬ Awaits pass.row now horizon) →
        attempts = pass.row.checkpointAttempts) := by
  induction horizons generalizing pass with
  | nil => exact ⟨nofun, pass.row.checkpointAttempts, rfl, fun _ => rfl⟩
  | cons horizon horizons ih =>
    rw [foldl_cons] at h ⊢
    rcases observe_unsaved context state now cached economics pass horizon with hwrote | ⟨hnot, attempts, he, hsame⟩
    · have hle : (pass.observe context state now cached economics horizon).changed ≤
          (horizons.foldl (Pass.observe context state now cached economics)
            (pass.observe context state now cached economics horizon)).changed := le_changed horizons _
      omega
    · rw [he] at h ⊢
      obtain ⟨hnone, later, hlater, hlast⟩ := ih (pass.attempted attempts) h
      refine ⟨forall_mem_cons.mpr ⟨hnot, hnone⟩, later, hlater, fun hquiet => ?_⟩
      rcases hquiet with hquotable | hquiet
      · exact (hlast (.inl hquotable)).trans (hsame (.inl hquotable))
      · rw [forall_mem_cons] at hquiet
        exact (hlast (.inr hquiet.2)).trans (hsame (.inr hquiet.1))

end unsaved

variable {row : Trajectory}

/-- The loop of `observe_market`, when nothing is written. -/
theorem observed_unsaved {sighting : Sighting} {economics : Option Economics}
    (h : (row.observed sighting.context sighting.state sighting.now sighting.cached economics).changed = 0) :
    ∃ attempts,
      (row.observed sighting.context sighting.state sighting.now sighting.cached economics).row =
        { row with checkpointAttempts := attempts } ∧
      (sighting.Saves row → attempts = row.checkpointAttempts) := by
  obtain ⟨hnone, attempts, he, hsame⟩ := foldl_unsaved learningHorizonsSeconds { row := row } h
  refine ⟨attempts, congrArg Pass.row he, fun hsaves => hsame ?_⟩
  rcases hsaves with hquotable | hquiet | ⟨horizon, hmem, hoverdue⟩
  · exact .inl hquotable
  · exact .inr hquiet
  · exact absurd hoverdue (hnone horizon hmem)

/-- The loop of `expire_checkpoints`, when nothing is written. -/
theorem expired_unsaved {now : Instant} {reason : String} (h : (row.expired now reason).changed = 0) :
    (row.expired now reason).row = row := by
  have hloop : 0 ≤ (row.expired now reason).changed ∧
      ((row.expired now reason).changed = 0 → (row.expired now reason).row = row) := by
    unfold Trajectory.expired
    refine foldlRecOn (motive := fun pass : Pass => 0 ≤ pass.changed ∧ (pass.changed = 0 → pass.row = row)) _ _
      ⟨le_rfl, fun _ => rfl⟩ fun pass ih horizon _ => ?_
    rcases Collection.Pass.expire_cases now reason pass horizon with he | ⟨-, he⟩
    · rw [he]
      exact ih
    · rw [he]
      exact ⟨Nat.zero_le _, fun hzero => absurd hzero (Nat.succ_ne_zero _)⟩
  exact hloop.2 h

/-! ### What is compared -/

variable {view : Trajectory → Trajectory}

/-- All but how often the checkpoints were attempted. -/
def settled (row : Trajectory) : Trajectory := { row with checkpointAttempts := fun _ => 0 }

def LearningObservation.seen (view : Trajectory → Trajectory) (observation : LearningObservation) : LearningObservation :=
  { observation with row := view observation.row }

def LearningEvidenceEpisode.seen (view : Trajectory → Trajectory) (episode : LearningEvidenceEpisode) :
    LearningEvidenceEpisode :=
  { episode with row := view episode.row }

def Observations.seen (view : Trajectory → Trajectory) (observations : Observations) (mint : String) :
    Option LearningObservation :=
  (observations.get? mint).map (.seen view)

def Episodes.seen (view : Trajectory → Trajectory) (episodes : Episodes) (episodeId : String) :
    Option LearningEvidenceEpisode :=
  ((episodes.get? episodeId).filter (·.policy)).map (.seen view)

/-- An observation with all its checkpoints is not pending. -/
def Observations.Open (observations : Observations) : Prop :=
  ∀ o ∈ observations, o.row.status = .pending → o.row.checkpoints.rows.length ≠ learningHorizonsSeconds.length

/-- What the tables say of the orders: a decision has one episode, and the order of the decision stands in it. -/
structure Database.Linked (database : Database) : Prop where
  linked : ∀ order ∈ database.paperOrders, ∀ e ∈ database.learningEvidenceEpisodes, ∀ decisionId,
    order.decisionId = some decisionId → e.decidedBy decisionId = true → e.orderId = some order.orderId
  decided : ∀ decisionId, ∀ e ∈ database.learningEvidenceEpisodes, ∀ e' ∈ database.learningEvidenceEpisodes,
    e.decidedBy decisionId = true → e'.decidedBy decisionId = true → e.episodeId = e'.episodeId
  named : ∀ e ∈ database.learningEvidenceEpisodes, e.decidedBy "" = false

/-- Memory and the tables show the same, and every identity is reserved. -/
structure Store.Mirrors (view : Trajectory → Trajectory) (s : Store) : Prop where
  observations : ∀ mint, s.learner.observations.seen view mint = s.database.learningObservations.seen view mint
  episodes : ∀ episodeId,
    s.learner.evidenceEpisodes.seen view episodeId = s.database.learningEvidenceEpisodes.seen view episodeId
  reserved : ∀ e ∈ s.database.learningEvidenceEpisodes, e.policy = true →
    (s.database.learningPolicyIdentities e.entered.policyIdentityKey).isSome = true
  known : ∀ key, (s.learner.policyIdentities key).isSome = true → (s.database.learningPolicyIdentities key).isSome = true
  open_ : s.learner.observations.Open ∧ s.database.learningObservations.Open
  orders : s.database.Linked

/-! ### Tables -/

section tables

variable {observations stored : Observations} {episodes kept : Episodes} {observation : LearningObservation}
  {episode : LearningEvidenceEpisode} {episodeId mint decisionId orderId : String}

theorem Observations.seen_upsert (observations : Observations) (observation : LearningObservation) (mint : String) :
    Observations.seen view (observations.upsert observation) mint =
      if mint = observation.mint then some (observation.seen view) else observations.seen view mint := by
  unfold Observations.seen
  rw [Table.get?_upsert]
  split_ifs <;> rfl

theorem Episodes.seen_upsert (episodes : Episodes) (episode : LearningEvidenceEpisode) (episodeId : String) :
    Episodes.seen view (episodes.upsert episode) episodeId =
      if episodeId = episode.episodeId then (if episode.policy then some (episode.seen view) else none)
      else episodes.seen view episodeId := by
  unfold Episodes.seen
  rw [Table.get?_upsert]
  by_cases hid : episodeId = episode.episodeId
  · rw [if_pos hid, if_pos hid]
    cases hpolicy : episode.policy <;> simp [Option.filter, hpolicy]
  · rw [if_neg hid, if_neg hid]

theorem Observations.get?_eq_none_of_seen (h : observations.seen view mint = stored.seen view mint)
    (hnone : observations.get? mint = none) : stored.get? mint = none := by
  unfold Observations.seen at h
  rw [hnone, map_none] at h
  exact map_eq_none_iff.mp h.symm

theorem Observations.decisionId_of_seen (h : observations.seen view mint = stored.seen view mint)
    {o : LearningObservation} (hget : observations.get? mint = some o) :
    ∃ o', stored.get? mint = some o' ∧ o'.decisionId = o.decisionId := by
  unfold Observations.seen at h
  rw [hget, map_some] at h
  obtain ⟨o', hget', hseen⟩ := map_eq_some_iff.mp h.symm
  have hname := congrArg LearningObservation.decisionId hseen
  exact ⟨o', hget', hname⟩

theorem Episodes.get?_of_seen (h : episodes.seen view episodeId = kept.seen view episodeId) {e : LearningEvidenceEpisode}
    (hget : episodes.get? episodeId = some e) (hpolicy : e.policy = true) :
    ∃ e', kept.get? episodeId = some e' ∧ e'.seen view = e.seen view := by
  unfold Episodes.seen at h
  rw [hget, filter_some_pos hpolicy, map_some] at h
  obtain ⟨e', hget', hseen⟩ := map_eq_some_iff.mp h.symm
  exact ⟨e', (filter_eq_some_iff.mp hget').1, hseen⟩

def linkRow (decisionId orderId : String) (episode : LearningEvidenceEpisode) : LearningEvidenceEpisode :=
  if episode.decidedBy decisionId then { episode with orderId := some orderId } else episode

theorem Episodes.get?_link {found : Option LearningEvidenceEpisode}
    (hunique : ∀ e ∈ episodes, ∀ e' ∈ episodes, e.decidedBy decisionId = true → e'.decidedBy decisionId = true →
      e.episodeId = e'.episodeId)
    (hfound : ∀ e, found = some e → e ∈ episodes ∧ e.decidedBy decisionId = true)
    (hnone : found = none → ∀ e ∈ episodes, e.decidedBy decisionId = false) :
    (episodes.link orderId found).get? episodeId = (episodes.get? episodeId).map (linkRow decisionId orderId) := by
  cases found with
  | none =>
    show episodes.get? episodeId = _
    cases hget : episodes.get? episodeId with
    | none => rfl
    | some e =>
      have hnot := hnone rfl e (Table.get?_eq_some.mp hget).1
      rw [map_some, linkRow, hnot]
      rfl
  | some e =>
    obtain ⟨hmem, hdecided⟩ := hfound e rfl
    show (episodes.upsert { e with orderId := some orderId }).get? episodeId = _
    rw [Table.get?_upsert]
    by_cases hid : episodeId = e.episodeId
    · have hget : episodes.get? episodeId = some e := Table.get?_eq_some.mpr ⟨hmem, hid.symm⟩
      rw [if_pos (show episodeId = LearningEvidenceEpisode.episodeId { e with orderId := some orderId } from hid), hget,
        map_some, linkRow, if_pos hdecided]
    · rw [if_neg (show episodeId ≠ LearningEvidenceEpisode.episodeId { e with orderId := some orderId } from hid)]
      cases hget : episodes.get? episodeId with
      | none => rfl
      | some e' =>
        obtain ⟨hmem', hid'⟩ := Table.get?_eq_some.mp hget
        have hnot : ¬ e'.decidedBy decisionId = true := fun hdecided' =>
          hid (hid'.symm.trans (hunique e' hmem' e hmem hdecided' hdecided))
        rw [map_some, linkRow, if_neg hnot]

theorem linkRow_seen (decisionId orderId : String) (episode : LearningEvidenceEpisode) :
    (linkRow decisionId orderId episode).seen view = linkRow decisionId orderId (episode.seen view) := by
  unfold linkRow
  rw [show (episode.seen view).decidedBy decisionId = episode.decidedBy decisionId from rfl]
  split_ifs <;> rfl

theorem linkRow_policy (decisionId orderId : String) (episode : LearningEvidenceEpisode) :
    (linkRow decisionId orderId episode).policy = episode.policy := by
  unfold linkRow
  split_ifs <;> rfl

theorem Episodes.seen_link {linked : Episodes}
    (h : ∀ episodeId, linked.get? episodeId = (episodes.get? episodeId).map (linkRow decisionId orderId)) :
    linked.seen view episodeId = (episodes.seen view episodeId).map (linkRow decisionId orderId) := by
  have hpolicy : (fun e : LearningEvidenceEpisode => e.policy) ∘ linkRow decisionId orderId = fun e => e.policy :=
    funext fun e => linkRow_policy decisionId orderId e
  have hseen : LearningEvidenceEpisode.seen view ∘ linkRow decisionId orderId =
      linkRow decisionId orderId ∘ LearningEvidenceEpisode.seen view :=
    funext fun e => linkRow_seen decisionId orderId e
  unfold Episodes.seen
  rw [h, Option.filter_map, hpolicy, Option.map_map, hseen, Option.map_map]

end tables

/-! ### What a write leaves -/

section writes

variable {database : Database} {episode : LearningEvidenceEpisode} {order : PaperOrder} {decisionId : String}

theorem Database.Linked.saveEpisode (h : database.Linked)
    (hepisode : ∀ decisionId, episode.decidedBy decisionId = true → decisionId ≠ "" ∧
      (∀ order ∈ database.paperOrders, order.decisionId = some decisionId → episode.orderId = some order.orderId) ∧
      ∀ e ∈ database.learningEvidenceEpisodes, e.decidedBy decisionId = true → e.episodeId = episode.episodeId) :
    (database.saveEpisode episode).Linked := by
  refine ⟨fun order horder e he decisionId hof hdecided => ?_, fun decisionId e he e' he' hdecided hdecided' => ?_,
    fun e he => ?_⟩
  · rcases Table.mem_upsert.mp he with rfl | ⟨he, -⟩
    · exact (hepisode decisionId hdecided).2.1 order horder hof
    · exact h.linked order horder e he decisionId hof hdecided
  · rcases Table.mem_upsert.mp he with rfl | ⟨he, -⟩
    · rcases Table.mem_upsert.mp he' with rfl | ⟨he', -⟩
      · rfl
      · exact ((hepisode decisionId hdecided).2.2 e' he' hdecided').symm
    · rcases Table.mem_upsert.mp he' with heq | ⟨he', -⟩
      · rw [heq] at hdecided' ⊢
        exact (hepisode decisionId hdecided').2.2 e he hdecided
      · exact h.decided decisionId e he e' he' hdecided hdecided'
  · rcases Table.mem_upsert.mp he with rfl | ⟨he, -⟩
    · rw [← Bool.not_eq_true]
      exact fun hdecided => (hepisode "" hdecided).1 rfl
    · exact h.named e he

theorem decidedBy_unique {decisionId' : String} (h : episode.decidedBy decisionId = true)
    (h' : episode.decidedBy decisionId' = true) : decisionId = decisionId' := by
  unfold LearningEvidenceEpisode.decidedBy at h h'
  simp only [Bool.and_eq_true, decide_eq_true_eq] at h h'
  exact Option.some.inj (h.2.symm.trans h'.2)

theorem decidedBy_linkRow {decisionId' orderId : String} :
    (linkRow decisionId' orderId episode).decidedBy decisionId = episode.decidedBy decisionId := by
  unfold linkRow
  split_ifs <;> rfl

theorem linkRow_episodeId {orderId : String} : (linkRow decisionId orderId episode).episodeId = episode.episodeId := by
  unfold linkRow
  split_ifs <;> rfl

theorem saveOrder_eq_of_none (h : ∀ decisionId, order.decisionId = some decisionId → decisionId = "") :
    database.saveOrder order = { database with paperOrders := database.paperOrders.upsert order } := by
  have hnone : order.decisionId.filter (· ≠ "") = none := by
    rw [filter_eq_none_iff]
    intro decisionId hof
    rw [h decisionId hof]
    decide
  unfold Database.saveOrder
  rw [hnone]

theorem get?_saveOrder (h : database.Linked) (hof : order.decisionId = some decisionId) (hnamed : decisionId ≠ "")
    (episodeId : String) :
    (database.saveOrder order).learningEvidenceEpisodes.get? episodeId =
      (database.learningEvidenceEpisodes.get? episodeId).map (linkRow decisionId order.orderId) := by
  have hfilter : order.decisionId.filter (· ≠ "") = some decisionId := by
    rw [hof]
    exact filter_some_pos (decide_eq_true hnamed)
  unfold Database.saveOrder
  rw [hfilter]
  refine Episodes.get?_link (h.decided decisionId) (fun e he => ?_) fun hnone e he => ?_
  · have hmem := mem_of_mem_head? he
    rw [mem_insertionSort, mem_filter] at hmem
    exact hmem
  · rw [List.head?_eq_none_iff] at hnone
    have hlength := congrArg List.length hnone
    rw [length_insertionSort, length_nil, length_eq_zero_iff, filter_eq_nil_iff] at hlength
    exact Bool.eq_false_iff.mpr (hlength e he)

theorem saveOrder_observations : (database.saveOrder order).learningObservations = database.learningObservations := by
  unfold Database.saveOrder
  split <;> rfl

theorem saveOrder_identities : (database.saveOrder order).learningPolicyIdentities = database.learningPolicyIdentities := by
  unfold Database.saveOrder
  split <;> rfl

theorem saveOrder_orders : (database.saveOrder order).paperOrders = database.paperOrders.upsert order := by
  unfold Database.saveOrder
  split <;> rfl

theorem mem_saveOrder (h : database.Linked) (hof : order.decisionId = some decisionId) (hnamed : decisionId ≠ "")
    {e : LearningEvidenceEpisode} (he : e ∈ (database.saveOrder order).learningEvidenceEpisodes) :
    ∃ e' ∈ database.learningEvidenceEpisodes, e = linkRow decisionId order.orderId e' := by
  have hget := Table.get?_eq_some.mpr ⟨he, rfl⟩
  rw [get?_saveOrder h hof hnamed] at hget
  obtain ⟨e', hget', hlink⟩ := map_eq_some_iff.mp hget
  exact ⟨e', (Table.get?_eq_some.mp hget').1, hlink.symm⟩

theorem Database.Linked.saveOrder (h : database.Linked) (hof : order.decisionId = some decisionId)
    (hnamed : decisionId ≠ "")
    (honly : ∀ o ∈ database.paperOrders, ∀ e ∈ database.learningEvidenceEpisodes, o.decisionId = some decisionId →
      e.decidedBy decisionId = true → o.orderId = order.orderId) :
    (database.saveOrder order).Linked := by
  refine ⟨fun o ho e he decisionId' hof' hdecided => ?_, fun decisionId' e he e' he' hdecided hdecided' => ?_,
    fun e he => ?_⟩
  · obtain ⟨e, hmem, rfl⟩ := mem_saveOrder h hof hnamed he
    rw [decidedBy_linkRow] at hdecided
    rw [saveOrder_orders] at ho
    unfold linkRow
    split_ifs with hthis
    · obtain rfl := decidedBy_unique hdecided hthis
      rcases Table.mem_upsert.mp ho with rfl | ⟨ho, -⟩
      · rfl
      · rw [honly o ho e hmem hof' hdecided]
    · rcases Table.mem_upsert.mp ho with rfl | ⟨ho, -⟩
      · rw [hof, Option.some.injEq] at hof'
        subst hof'
        exact absurd hdecided hthis
      · exact h.linked o ho e hmem decisionId' hof' hdecided
  · obtain ⟨e, hmem, rfl⟩ := mem_saveOrder h hof hnamed he
    obtain ⟨e', hmem', rfl⟩ := mem_saveOrder h hof hnamed he'
    rw [decidedBy_linkRow] at hdecided hdecided'
    rw [linkRow_episodeId, linkRow_episodeId]
    exact h.decided decisionId' e hmem e' hmem' hdecided hdecided'
  · obtain ⟨e, hmem, rfl⟩ := mem_saveOrder h hof hnamed he
    rw [decidedBy_linkRow]
    exact h.named e hmem

theorem Database.Linked.saveOrder_none (h : database.Linked)
    (hof : ∀ decisionId, order.decisionId = some decisionId → decisionId = "") : (database.saveOrder order).Linked := by
  rw [saveOrder_eq_of_none hof]
  refine ⟨fun o ho e he decisionId' hof' hdecided => ?_, h.decided, h.named⟩
  rcases Table.mem_upsert.mp ho with rfl | ⟨ho, -⟩
  · rw [hof decisionId' hof', h.named e he] at hdecided
    cases hdecided
  · exact h.linked o ho e he decisionId' hof' hdecided

theorem Database.Linked.filter (h : database.Linked) (keep : LearningEvidenceEpisode → Bool) :
    { database with learningEvidenceEpisodes := database.learningEvidenceEpisodes.filter keep }.Linked where
  linked order horder e he := h.linked order horder e (Table.mem_filter.mp he).1
  decided decisionId e he e' he' := h.decided decisionId e (Table.mem_filter.mp he).1 e' (Table.mem_filter.mp he').1
  named e he := h.named e (Table.mem_filter.mp he).1

end writes

/-! ### Checkpoints -/

section checkpoints

variable {raises : Write → Bool} {s : Store} {now : Instant} {Q : Unit → Store → Prop} {E : Write → Store → Prop}

@[simp] theorem wp_commit {write : Write} {change : Database → Database} :
    Wp (commit raises write change) Q E s ↔ (raises write = true → E write s) ∧
      (raises write = false → Q () { s with database := change s.database }) := by
  unfold commit
  cases raises write <;> simp

@[simp] theorem wp_inMemory {change : Learner → Learner} :
    Wp (inMemory change) Q E s ↔ Q () { s with learner := change s.learner } := Iff.rfl

/-- What a loop does not write it leaves as it is seen. -/
structure Quiet (view : Trajectory → Trajectory) (row : Trajectory) (pass : Pass) : Prop where
  seen : pass.changed = 0 → view pass.row = view row
  checkpoints : pass.changed = 0 → pass.row.checkpoints = row.checkpoints

theorem finish_open (row : Trajectory) (h : row.finish.status = .pending) :
    row.finish.checkpoints.rows.length ≠ learningHorizonsSeconds.length := by
  unfold Trajectory.finish at h ⊢
  split_ifs at h ⊢ with hlength
  exact hlength

theorem finish_eq_of_length
    (h : row.checkpoints.rows.length ≠ learningHorizonsSeconds.length) : row.finish = row := if_neg h

theorem length_of_finish (h : row.finish.status ≠ .complete) :
    row.checkpoints.rows.length ≠ learningHorizonsSeconds.length := by
  intro hlength
  unfold Trajectory.finish at h
  rw [if_pos hlength] at h
  exact h rfl

theorem wp_saveObservation {observation : LearningObservation} (hraises : raises (.observation observation.mint) = false)
    (hname : ∀ o, s.database.learningObservations.get? observation.mint = some o → o.decisionId = observation.decisionId) :
    Wp (saveObservation raises observation) Q E s ↔
      Q () { s with database := s.database.saveObservation observation } := by
  have hfree : s.database.conflicts observation = false := by
    unfold Database.conflicts
    cases hget : s.database.learningObservations.get? observation.mint with
    | none => rfl
    | some o =>
      show decide _ = false
      rw [decide_eq_false_iff_not, not_not]
      exact congrArg ("learning-" ++ ·) (hname o hget)
  unfold saveObservation
  simp [hfree, hraises]

theorem advanceObservation_mirrors {collect : LearningObservation → Pass} {mint : String} (h : s.Mirrors view)
    (hraises : ∀ mint, raises (.observation mint) = false)
    (hquiet : ∀ o, s.learner.observations.get? mint = some o → o.row.status = .pending →
      Quiet view o.row (collect o)) :
    Wp (advanceObservation raises collect mint)
      (fun _ s' => s'.Mirrors view ∧ s'.learner.evidenceEpisodes = s.learner.evidenceEpisodes ∧
        ∀ mint', mint' ≠ mint → s'.learner.observations.get? mint' = s.learner.observations.get? mint')
      (fun _ _ => False) s := by
  unfold advanceObservation
  rw [wp_bind, wp_get]
  cases hget : (s.learner.observations.get? mint).filter (·.row.status = .pending) with
  | none => exact ⟨h, rfl, fun _ _ => rfl⟩
  | some o =>
    obtain ⟨hget, hpending⟩ := filter_eq_some_iff.mp hget
    rw [decide_eq_true_eq] at hpending
    obtain ⟨hmem, rfl⟩ := Table.get?_eq_some.mp hget
    have hquiet := hquiet o hget hpending
    dsimp only
    rw [wp_bind, wp_inMemory]
    set pass := collect o
    set advanced : LearningObservation := { o with row := pass.row.finish }
    have hopen : Observations.Open (s.learner.observations.upsert advanced) :=
      Table.forall_mem_upsert (finish_open pass.row) h.open_.1
    have hother : ∀ mint', mint' ≠ o.mint →
        (s.learner.observations.upsert advanced).get? mint' = s.learner.observations.get? mint' := fun mint' hne =>
      (Table.get?_upsert _ _ _).trans (if_neg hne)
    rw [wp_ite]
    refine ⟨fun hchanged => ?_, fun hunchanged => ?_⟩
    · rw [wp_saveObservation (hraises _)]
      · have hsaved : Observations.Open (s.database.learningObservations.upsert advanced) :=
          Table.forall_mem_upsert (finish_open pass.row) h.open_.2
        refine ⟨⟨fun mint' => ?_, h.episodes, h.reserved, h.known, ⟨hopen, hsaved⟩,
          ⟨h.orders.1, h.orders.2, h.orders.3⟩⟩, rfl, hother⟩
        show Observations.seen view (s.learner.observations.upsert advanced) mint' =
          Observations.seen view (s.database.learningObservations.upsert advanced) mint'
        rw [Observations.seen_upsert, Observations.seen_upsert, h.observations]
      · intro o' hget'
        obtain ⟨o'', hget'', hname⟩ := Observations.decisionId_of_seen (h.observations o.mint) hget
        obtain rfl := Option.some.inj (hget'.symm.trans hget'')
        exact hname
    · -- an attempt is counted, and nothing is saved
      rw [not_not] at hunchanged
      have hlength : pass.row.checkpoints.rows.length ≠ learningHorizonsSeconds.length := by
        rw [hquiet.checkpoints hunchanged]
        exact h.open_.1 o hmem hpending
      refine ⟨⟨fun mint' => ?_, h.episodes, h.reserved, h.known, ⟨hopen, h.open_.2⟩, h.orders⟩, rfl, hother⟩
      show Observations.seen view (s.learner.observations.upsert advanced) mint' = _
      rw [Observations.seen_upsert, ← h.observations]
      split_ifs with hmint
      · have hseen : advanced.seen view = o.seen view := by
          show LearningObservation.seen view { o with row := pass.row.finish } = o.seen view
          rw [finish_eq_of_length hlength]
          unfold LearningObservation.seen
          dsimp only
          rw [hquiet.seen hunchanged]
        rw [hseen, show mint' = o.mint from hmint]
        unfold Observations.seen
        rw [hget, map_some]
      · rfl

theorem Store.Mirrors.saves (h : s.Mirrors view) {e advanced : LearningEvidenceEpisode}
    (hget : s.learner.evidenceEpisodes.get? e.episodeId = some e) (hpolicy : e.policy = true)
    (hentered : advanced.entered = e.entered) (hdecision : advanced.decisionId = e.decisionId)
    (horder : advanced.orderId = e.orderId) :
    ({ s with
      learner := { s.learner with evidenceEpisodes := s.learner.evidenceEpisodes.upsert advanced }
      database := s.database.saveEpisode advanced } : Store).Mirrors view := by
  obtain ⟨e', hget', hseen⟩ := Episodes.get?_of_seen (h.episodes e.episodeId) hget hpolicy
  obtain ⟨hmem', hid'⟩ := Table.get?_eq_some.mp hget'
  obtain ⟨hentered', hdecision', horder', -⟩ := LearningEvidenceEpisode.mk.inj hseen
  have hdecided : ∀ decisionId, advanced.decidedBy decisionId = e'.decidedBy decisionId := fun decisionId => by
    unfold LearningEvidenceEpisode.decidedBy LearningEvidenceEpisode.policy
    rw [hentered, hdecision, ← hentered', ← hdecision']
  have hid : advanced.episodeId = e'.episodeId := by
    unfold LearningEvidenceEpisode.episodeId
    rw [hentered, ← hentered']
  refine ⟨h.observations, fun episodeId => ?_, Table.forall_mem_upsert (fun _ => ?_) h.reserved, h.known, h.open_,
    h.orders.saveEpisode fun decisionId hthis => ⟨?_, fun order horder hof => ?_, fun other hother hthat => ?_⟩⟩
  · show Episodes.seen view (s.learner.evidenceEpisodes.upsert advanced) episodeId =
      Episodes.seen view (s.database.learningEvidenceEpisodes.upsert advanced) episodeId
    rw [Episodes.seen_upsert, Episodes.seen_upsert, h.episodes]
  · show (s.database.learningPolicyIdentities advanced.entered.policyIdentityKey).isSome = true
    have hpolicy' : e'.policy = true := by
      unfold LearningEvidenceEpisode.policy
      rw [hentered']
      exact hpolicy
    rw [hentered, ← hentered']
    exact h.reserved e' hmem' hpolicy'
  · rintro rfl
    rw [hdecided, h.orders.named e' hmem'] at hthis
    cases hthis
  · rw [hdecided] at hthis
    rw [‹advanced.orderId = e.orderId›, ← horder']
    exact h.orders.linked order horder e' hmem' decisionId hof hthis
  · rw [hdecided] at hthis
    rw [hid]
    exact h.orders.decided decisionId other hother e' hmem' hthat hthis

theorem advanceEpisode_mirrors {collect : LearningEvidenceEpisode → Pass} {episodeId : String} (h : s.Mirrors view)
    (hraises : ∀ episodeId, raises (.episode episodeId) = false)
    (hquiet : ∀ e, s.learner.evidenceEpisodes.get? episodeId = some e → e.collects = true →
      Quiet view e.row (collect e)) :
    Wp (advanceEpisode raises now collect episodeId)
      (fun _ s' => s'.Mirrors view ∧ s'.learner.observations = s.learner.observations ∧
        ∀ id, id ≠ episodeId → s'.learner.evidenceEpisodes.get? id = s.learner.evidenceEpisodes.get? id)
      (fun _ _ => False) s := by
  unfold advanceEpisode
  rw [wp_bind, wp_get]
  cases hget : (s.learner.evidenceEpisodes.get? episodeId).filter (·.collects) with
  | none => exact ⟨h, rfl, fun _ _ => rfl⟩
  | some e =>
    obtain ⟨hget, hcollects⟩ := filter_eq_some_iff.mp hget
    obtain ⟨hmem, rfl⟩ := Table.get?_eq_some.mp hget
    have hpolicy : e.policy = true := (Bool.and_eq_true_iff.mp hcollects).1
    have hquiet := hquiet e hget hcollects
    dsimp only
    rw [wp_bind, wp_inMemory]
    set pass := collect e
    have hother : ∀ id, id ≠ e.episodeId →
        (s.learner.evidenceEpisodes.upsert (e.advance now pass)).get? id = s.learner.evidenceEpisodes.get? id :=
      fun id hne => (Table.get?_upsert _ _ _).trans (if_neg hne)
    rw [wp_ite]
    refine ⟨fun _ => ?_, fun hunsaved => ?_⟩
    · rw [wp_commit]
      refine ⟨fun hfails => ?_, fun _ => ⟨h.saves hget hpolicy rfl rfl rfl, rfl, hother⟩⟩
      rw [hraises] at hfails
      cases hfails
    · -- an attempt is counted, and nothing is saved
      rw [not_or, not_not] at hunsaved
      obtain ⟨hunchanged, hincomplete⟩ := hunsaved
      have hlength := length_of_finish hincomplete
      have hadvance : e.advance now pass = { e with row := pass.row } := by
        unfold LearningEvidenceEpisode.advance at hincomplete ⊢
        rw [finish_eq_of_length hlength] at hincomplete ⊢
        dsimp only at hincomplete ⊢
        rw [if_neg hincomplete]
      have hseen : LearningEvidenceEpisode.seen view { e with row := pass.row } = e.seen view := by
        unfold LearningEvidenceEpisode.seen
        dsimp only
        rw [hquiet.seen hunchanged]
      refine ⟨⟨h.observations, fun id => ?_, h.reserved, h.known, h.open_, h.orders⟩, rfl, hother⟩
      show Episodes.seen view (s.learner.evidenceEpisodes.upsert (e.advance now pass)) id = _
      rw [hadvance, Episodes.seen_upsert, ← h.episodes]
      split_ifs with hid hpolicy'
      · rw [hseen, show id = e.episodeId from hid]
        unfold Episodes.seen
        rw [hget, filter_some_pos hpolicy, map_some]
      · exact absurd hpolicy hpolicy'
      · rfl

theorem forM_advanceEpisode {collect : LearningEvidenceEpisode → Pass} {ids : List String} (hnodup : ids.Nodup)
    (h : s.Mirrors view) (hraises : ∀ episodeId, raises (.episode episodeId) = false)
    (hquiet : ∀ e ∈ s.learner.evidenceEpisodes, e.episodeId ∈ ids → e.collects = true → Quiet view e.row (collect e)) :
    Wp (ids.forM (advanceEpisode raises now collect))
      (fun _ s' => s'.Mirrors view ∧ s'.learner.observations = s.learner.observations) (fun _ _ => False) s := by
  refine Wp.forM_each (Q := fun id s' => ∀ e, s'.learner.evidenceEpisodes.get? id = some e → e.collects = true →
    Quiet view e.row (collect e)) (fun id s' hI hQ => ?_) hnodup ⟨h, rfl⟩ fun id hid e hget => ?_
  · refine (advanceEpisode_mirrors hI.1 hraises hQ).mono (fun _ s'' h' => ?_) fun _ _ hE => hE
    obtain ⟨h', hsame, hother⟩ := h'
    exact ⟨⟨h', hsame.trans hI.2⟩, fun id' hne hQ' e hget => hQ' e (hother id' hne ▸ hget)⟩
  · obtain ⟨hmem, rfl⟩ := Table.get?_eq_some.mp hget
    exact hquiet e hmem hid

theorem forM_advanceObservation {collect : LearningObservation → Pass} {mints : List String} (hnodup : mints.Nodup)
    (h : s.Mirrors view) (hraises : ∀ mint, raises (.observation mint) = false)
    (hquiet : ∀ o ∈ s.learner.observations, o.mint ∈ mints → o.row.status = .pending → Quiet view o.row (collect o)) :
    Wp (mints.forM (advanceObservation raises collect))
      (fun _ s' => s'.Mirrors view ∧ s'.learner.evidenceEpisodes = s.learner.evidenceEpisodes) (fun _ _ => False) s := by
  refine Wp.forM_each (Q := fun mint s' => ∀ o, s'.learner.observations.get? mint = some o → o.row.status = .pending →
    Quiet view o.row (collect o)) (fun mint s' hI hQ => ?_) hnodup ⟨h, rfl⟩ fun mint hmint o hget => ?_
  · refine (advanceObservation_mirrors hI.1 hraises hQ).mono (fun _ s'' h' => ?_) fun _ _ hE => hE
    obtain ⟨h', hsame, hother⟩ := h'
    exact ⟨⟨h', hsame.trans hI.2⟩, fun mint' hne hQ' o hget => hQ' o (hother mint' hne ▸ hget)⟩
  · obtain ⟨hmem, rfl⟩ := Table.get?_eq_some.mp hget
    exact hquiet o hmem hmint

/-- **A market is observed**, and what is not saved is not seen. -/
theorem observeMarket_mirrors {sighting : Sighting} (h : s.Mirrors view)
    (hepisodes : ∀ episodeId, raises (.episode episodeId) = false)
    (hobservations : ∀ mint, raises (.observation mint) = false)
    (hquiet : ∀ e ∈ s.learner.evidenceEpisodes, e.entered.mint = sighting.state.mint → e.collects = true →
      Quiet view e.row (sighting.episodePass e))
    (hquiet' : ∀ o ∈ s.learner.observations, o.mint = sighting.state.mint → o.row.status = .pending →
      Quiet view o.row (sighting.observationPass o)) :
    Wp (observeMarket raises sighting) (fun _ s' => s'.Mirrors view) (fun _ _ => False) s := by
  unfold observeMarket
  rw [wp_bind, wp_get, wp_bind]
  have hnodup : ((s.learner.evidenceEpisodes.rows.filter (·.entered.mint = sighting.state.mint)).map
      LearningEvidenceEpisode.episodeId).Nodup :=
    s.learner.evidenceEpisodes.nodup.sublist (filter_sublist.map _)
  refine (forM_advanceEpisode hnodup h hepisodes fun e hmem hid => ?_).mono (fun _ s' hQ => ?_) fun _ _ hE => hE
  · obtain ⟨e', hmem', hid'⟩ := mem_map.mp hid
    rw [mem_filter, decide_eq_true_eq] at hmem'
    obtain rfl := s.learner.evidenceEpisodes.eq_of_key hmem'.1 hmem hid'
    exact hquiet e' hmem hmem'.2
  · obtain ⟨h', hsame⟩ := hQ
    refine (advanceObservation_mirrors h' hobservations fun o hget => ?_).mono (fun _ s'' hQ => hQ.1) fun _ _ hE => hE
    rw [hsame] at hget
    obtain ⟨hmem, hmint⟩ := Table.get?_eq_some.mp hget
    exact hquiet' o hmem hmint

/-- **Checkpoints expire**: what changed is saved. -/
theorem expireCheckpoints_mirrors {context : Context} {states : String → Option TokenState} (h : s.Mirrors view)
    (hepisodes : ∀ episodeId, raises (.episode episodeId) = false)
    (hobservations : ∀ mint, raises (.observation mint) = false) :
    Wp (expireCheckpoints raises context now states) (fun _ s' => s'.Mirrors view) (fun _ _ => False) s := by
  have hquiet : ∀ (row : Trajectory) (reason : String), Quiet view row (row.expired now reason) := fun row reason =>
    ⟨fun hzero => congrArg view (expired_unsaved hzero), fun hzero => congrArg Trajectory.checkpoints (expired_unsaved hzero)⟩
  unfold expireCheckpoints
  rw [wp_bind, wp_get, wp_bind]
  refine (forM_advanceObservation s.learner.observations.nodup h hobservations fun o _ _ _ => hquiet _ _).mono
    (fun _ s' hQ => ?_) fun _ _ hE => hE
  obtain ⟨h', hsame⟩ := hQ
  refine (forM_advanceEpisode s.learner.evidenceEpisodes.nodup h' hepisodes fun e _ _ _ => hquiet _ _).mono
    (fun _ s'' hQ => hQ.1) fun _ _ hE => hE

end checkpoints

/-! ### Registration and orders -/

section registration

variable {raises : Write → Bool} {s : Store} {episode : LearningEvidenceEpisode}

theorem remember_all {reserved : PolicyIdentities} {key : PolicyIdentityKey}
    (entered : List Challenger.LearningEvidenceEpisode) (h : (reserved key).isSome = true) :
    (entered.foldl remember reserved key).isSome = true := by
  induction entered generalizing reserved with
  | nil => exact h
  | cons e entered ih => exact ih (remember_isSome (.inl h))

variable {key key' : PolicyIdentityKey}

theorem reserved_of_refresh {identities reserved : PolicyIdentities}
    (h : (refresh identities reserved key key').isSome = true) :
    (identities key').isSome = true ∨ (reserved key').isSome = true := by
  unfold refresh at h
  by_cases hkey : key' = key
  · rw [hkey, Function.update_self, isSome_or, Bool.or_eq_true] at h
    rw [hkey]
    exact h.symm
  · rw [Function.update_of_ne hkey] at h
    exact .inl h

theorem reserved_of_load {identities reserved : PolicyIdentities}
    (h : (load identities reserved key key').isSome = true) :
    (identities key').isSome = true ∨ (reserved key').isSome = true := by
  unfold load at h
  split_ifs at h
  · exact .inl h
  · exact reserved_of_refresh h

theorem Store.Mirrors.load_known (h : s.Mirrors view)
    (hsome : (load s.learner.policyIdentities s.database.learningPolicyIdentities key key').isSome = true) :
    (s.database.learningPolicyIdentities key').isSome = true :=
  (reserved_of_load hsome).elim (h.known key') fun h => h

theorem Store.Mirrors.writes (h : s.Mirrors view) (identities reserved : PolicyIdentities)
    (hreserved : episode.policy = true → (reserved episode.entered.policyIdentityKey).isSome = true)
    (hgrows : ∀ key, (s.database.learningPolicyIdentities key).isSome = true → (reserved key).isSome = true)
    (hknown : ∀ key, (identities key).isSome = true → (reserved key).isSome = true)
    (horders : ∀ decisionId, episode.decidedBy decisionId = true → decisionId ≠ "" ∧
      (∀ order ∈ s.database.paperOrders, order.decisionId = some decisionId → episode.orderId = some order.orderId) ∧
      ∀ e ∈ s.database.learningEvidenceEpisodes, e.decidedBy decisionId = true → e.episodeId = episode.episodeId) :
    ({ s with
      learner := { s.learner with
        evidenceEpisodes := s.learner.evidenceEpisodes.upsert episode
        policyIdentities := identities }
      database := { s.database.saveEpisode episode with learningPolicyIdentities := reserved } } : Store).Mirrors view := by
  have horders := h.orders.saveEpisode horders
  refine ⟨h.observations, fun episodeId => ?_, Table.forall_mem_upsert hreserved fun e he hpolicy => ?_, hknown, h.open_,
    ⟨horders.1, horders.2, horders.3⟩⟩
  · show Episodes.seen view (s.learner.evidenceEpisodes.upsert episode) episodeId =
      Episodes.seen view (s.database.learningEvidenceEpisodes.upsert episode) episodeId
    rw [Episodes.seen_upsert, Episodes.seen_upsert, h.episodes]
  · exact hgrows _ (h.reserved e he hpolicy)

theorem enrolled_reserved {identities : PolicyIdentities} {entered : Challenger.LearningEvidenceEpisode}
    (hqualifying : entered.qualifying = true) (hnone : (enrolled identities entered).policyIdentity = none) :
    (identities entered.policyIdentityKey).isSome = true := by
  unfold enrolled at hnone
  split_ifs at hnone with hany
  · cases hkey : identities entered.policyIdentityKey with
    | none =>
      rw [hkey] at hany
      cases hany
    | some identity => rfl
  · unfold LearningEvidenceEpisode.policyIdentity at hnone
    rw [if_pos hqualifying] at hnone
    cases hnone

@[simp] theorem enrolled_key {identities : PolicyIdentities} {entered : Challenger.LearningEvidenceEpisode} :
    (enrolled identities entered).policyIdentityKey = entered.policyIdentityKey := by
  unfold enrolled
  split_ifs <;> rfl

theorem enrolPolicy_mirrors (h : s.Mirrors view) (hepisodes : ∀ episodeId, raises (.episode episodeId) = false)
    (hidentity : raises .identity = false) (hqualifying : episode.entered.qualifying = true) {decisionId : String}
    (hof : episode.decisionId = some decisionId) (hnamed : decisionId ≠ "")
    (horders : ∀ order ∈ s.database.paperOrders, order.decisionId ≠ some decisionId)
    (hfresh : ∀ e ∈ s.database.learningEvidenceEpisodes, e.decisionId ≠ some decisionId) :
    Wp (enrolPolicy raises episode)
      (fun _ s' => s'.Mirrors view ∧ s'.learner.observations = s.learner.observations)
      (fun _ s' => s'.Mirrors view) s := by
  have hdecided : ∀ (e : LearningEvidenceEpisode) (d : String), e.decidedBy d = true → e.decisionId = some d :=
    fun e d hthis => of_decide_eq_true (Bool.and_eq_true_iff.mp hthis).2
  have hwrites : ∀ d, (enrolledAs s episode).decidedBy d = true → d ≠ "" ∧
      (∀ order ∈ s.database.paperOrders, order.decisionId = some d →
        (enrolledAs s episode).orderId = some order.orderId) ∧
      ∀ e ∈ s.database.learningEvidenceEpisodes, e.decidedBy d = true →
        e.episodeId = (enrolledAs s episode).episodeId := by
    intro d hthis
    have hd : episode.decisionId = some d := hdecided (enrolledAs s episode) d hthis
    obtain rfl : decisionId = d := Option.some.inj (hof.symm.trans hd)
    exact ⟨hnamed, fun order horder hthat => absurd hthat (horders order horder),
      fun e he hthat => absurd (hdecided e _ hthat) (hfresh e he)⟩
  have hkey : (enrolledAs s episode).entered.policyIdentityKey = episode.entered.policyIdentityKey := enrolled_key
  unfold enrolPolicy
  simp only [wp_bind, wp_get, wp_inMemory, wp_commit, hepisodes, Bool.false_eq_true, false_imp_iff, true_and, true_imp_iff]
  rw [wp_ite]
  refine ⟨fun hsome => ?_, fun hnone => ?_⟩
  · simp only [wp_bind, wp_get, wp_inMemory, wp_commit, hidentity, Bool.false_eq_true, false_imp_iff, true_and,
      true_imp_iff]
    have hresult := h.writes
      (refresh (load s.learner.policyIdentities s.database.learningPolicyIdentities episode.entered.policyIdentityKey)
        (remember s.database.learningPolicyIdentities (enrolledAs s episode).entered)
        (enrolledAs s episode).entered.policyIdentityKey)
      (remember s.database.learningPolicyIdentities (enrolledAs s episode).entered)
      (fun _ => remember_isSome (.inr ⟨rfl, qualifying_iff.mp hsome⟩)) (fun key hthis => remember_isSome (.inl hthis))
      (fun key hthis => ?_) hwrites
    · exact ⟨fun _ => hresult, fun _ => ⟨hresult, trivial⟩⟩
    · rcases reserved_of_refresh hthis with hloaded | hremembered
      · exact remember_isSome (.inl (h.load_known hloaded))
      · exact hremembered
  · rw [Bool.not_eq_true, isSome_eq_false_iff, isNone_iff_eq_none] at hnone
    have hresult := h.writes
      (load s.learner.policyIdentities s.database.learningPolicyIdentities episode.entered.policyIdentityKey)
      s.database.learningPolicyIdentities (fun _ => ?_) (fun _ hthis => hthis) (fun key => h.load_known) hwrites
    · rw [wp_commit]
      exact ⟨fun _ => hresult, fun _ => ⟨hresult, rfl⟩⟩
    · rw [hkey]
      exact h.load_known (enrolled_reserved hqualifying hnone)

theorem enrolDiscovery_mirrors {observation : LearningObservation} (h : s.Mirrors view)
    (hobservations : ∀ mint, raises (.observation mint) = false)
    (hfree : s.learner.observations.get? observation.mint = none)
    (hopen : observation.row.status = .pending →
      observation.row.checkpoints.rows.length ≠ learningHorizonsSeconds.length) :
    Wp (enrolDiscovery raises observation) (fun _ s' => s'.Mirrors view) (fun _ s' => s'.Mirrors view) s := by
  have hstored := Observations.get?_eq_none_of_seen (h.observations observation.mint) hfree
  unfold enrolDiscovery
  simp only [wp_bind, wp_get, wp_inMemory]
  rw [wp_saveObservation (hobservations _)]
  · have hmemory : Observations.Open (s.learner.observations.upsert observation) :=
      Table.forall_mem_upsert hopen h.open_.1
    have hsaved : Observations.Open (s.database.learningObservations.upsert observation) :=
      Table.forall_mem_upsert hopen h.open_.2
    refine ⟨fun mint => ?_, h.episodes, h.reserved, fun key => h.load_known, ⟨hmemory, hsaved⟩,
      ⟨h.orders.1, h.orders.2, h.orders.3⟩⟩
    show Observations.seen view (s.learner.observations.upsert observation) mint =
      Observations.seen view (s.database.learningObservations.upsert observation) mint
    rw [Observations.seen_upsert, Observations.seen_upsert, h.observations]
  · intro o hget
    rw [show s.database.learningObservations.get? observation.mint = none from hstored] at hget
    cases hget

/-- **A decision is registered**, in memory and in the tables. -/
theorem register_mirrors {hash : TrajectoryMaterial → String} {registration : Registration} (h : s.Mirrors view)
    (hepisodes : ∀ episodeId, raises (.episode episodeId) = false) (hidentity : raises .identity = false)
    (hobservations : ∀ mint, raises (.observation mint) = false) (hnamed : registration.decisionId ≠ "")
    (horders : ∀ order ∈ s.database.paperOrders, order.decisionId ≠ some registration.decisionId)
    (hfresh : ∀ e ∈ s.database.learningEvidenceEpisodes, e.decisionId ≠ some registration.decisionId) :
    Wp (register raises hash registration) (fun _ s' => s'.Mirrors view) (fun _ s' => s'.Mirrors view) s := by
  have hdiscovery : ∀ s' : Store, s'.Mirrors view → s'.learner.observations = s.learner.observations →
      Wp (if ¬ (s.learner.observations.get? registration.enrolment.observation.mint).isSome = true then
        enrolDiscovery raises registration.observation else pure ()) (fun _ s' => s'.Mirrors view)
        (fun _ s' => s'.Mirrors view) s' := by
    intro s' h' hsame
    rw [wp_ite]
    refine ⟨fun hnone => enrolDiscovery_mirrors h' hobservations ?_ fun _ => ?_, fun _ => h'⟩
    · rw [hsame]
      exact not_isSome_iff_eq_none.mp hnone
    · show ([] : List Collection.LearningCheckpoint).length ≠ learningHorizonsSeconds.length
      decide
  unfold register
  rw [wp_bind, wp_get]
  dsimp only
  rw [wp_ite]
  refine ⟨fun _ => h, fun _ => ?_⟩
  rw [wp_ite]
  refine ⟨fun _ => ?_, fun _ => hdiscovery s h rfl⟩
  rw [wp_bind]
  have hqualifying : (registration.episode hash).entered.qualifying = true := rfl
  refine (enrolPolicy_mirrors h hepisodes hidentity hqualifying rfl hnamed horders hfresh).mono (fun _ s' hQ => ?_)
    fun _ _ hE => hE
  exact hdiscovery s' hQ.1 hQ.2

variable {order : PaperOrder} {decisionId orderId : String}

theorem Store.Mirrors.links (h : s.Mirrors view) (hnamed : decisionId ≠ "")
    (horders : ∀ order ∈ s.database.paperOrders, order.decisionId ≠ some decisionId) :
    ({ s with
      learner := { s.learner with
        evidenceEpisodes := s.learner.evidenceEpisodes.link orderId
          (s.learner.evidenceEpisodes.rows.find? (·.decidedBy decisionId)) }
      database := s.database.saveOrder ⟨orderId, some decisionId⟩ } : Store).Mirrors view := by
  have hmemory : ∀ id, (s.learner.evidenceEpisodes.link orderId
      (s.learner.evidenceEpisodes.rows.find? (·.decidedBy decisionId))).get? id =
        (s.learner.evidenceEpisodes.get? id).map (linkRow decisionId orderId) := by
    intro id
    refine Episodes.get?_link (fun e he e' he' hdecided hdecided' => ?_) (fun e he => ?_) fun hnone e he => ?_
    · -- the table has one episode of the decision, and memory shows the same
      have hstored : ∀ e ∈ s.learner.evidenceEpisodes, e.decidedBy decisionId = true →
          ∃ e' ∈ s.database.learningEvidenceEpisodes, e'.decidedBy decisionId = true ∧ e'.episodeId = e.episodeId := by
        intro e he hdecided
        have hget := Table.get?_eq_some.mpr ⟨he, rfl⟩
        obtain ⟨e', hget', hseen⟩ := Episodes.get?_of_seen (h.episodes e.episodeId) hget
          (Bool.and_eq_true_iff.mp hdecided).1
        obtain ⟨hmem', hid'⟩ := Table.get?_eq_some.mp hget'
        obtain ⟨hentered, hdecision, -⟩ := LearningEvidenceEpisode.mk.inj hseen
        refine ⟨e', hmem', ?_, hid'⟩
        unfold LearningEvidenceEpisode.decidedBy LearningEvidenceEpisode.policy at hdecided ⊢
        rwa [hentered, hdecision]
      obtain ⟨x, hx, hxd, hxid⟩ := hstored e he hdecided
      obtain ⟨y, hy, hyd, hyid⟩ := hstored e' he' hdecided'
      rw [← hxid, ← hyid]
      exact h.orders.decided decisionId x hx y hy hxd hyd
    · exact ⟨mem_of_find?_eq_some he, List.find?_some he⟩
    · exact Bool.eq_false_iff.mpr (List.find?_eq_none.mp hnone e he)
  have htable : ∀ id, (s.database.saveOrder ⟨orderId, some decisionId⟩).learningEvidenceEpisodes.get? id =
      (s.database.learningEvidenceEpisodes.get? id).map (linkRow decisionId orderId) :=
    get?_saveOrder h.orders rfl hnamed
  refine ⟨fun mint => ?_, fun id => ?_, fun e he hpolicy => ?_, fun key hknown => ?_, ⟨h.open_.1, ?_⟩, ?_⟩
  · rw [saveOrder_observations]
    exact h.observations mint
  · rw [Episodes.seen_link hmemory, Episodes.seen_link htable, h.episodes]
  · obtain ⟨e, hmem, rfl⟩ := mem_saveOrder h.orders rfl hnamed he
    rw [saveOrder_identities]
    rw [linkRow_policy] at hpolicy
    have hentered : (linkRow decisionId orderId e).entered = e.entered := by
      unfold linkRow
      split_ifs <;> rfl
    rw [hentered]
    exact h.reserved e hmem hpolicy
  · rw [saveOrder_identities]
    exact h.known key hknown
  · rw [saveOrder_observations]
    exact h.open_.2
  · exact h.orders.saveOrder rfl hnamed fun o ho _ _ hof _ => absurd hof (horders o ho)

/-- **A decision is submitted**: its order is linked in memory as in the table. -/
theorem submit_mirrors (h : s.Mirrors view) (hnamed : decisionId ≠ "")
    (horders : ∀ order ∈ s.database.paperOrders, order.decisionId ≠ some decisionId) :
    Wp (submit raises decisionId orderId) (fun _ s' => s'.Mirrors view) (fun _ s' => s'.Mirrors view) s := by
  unfold submit linkPolicyOrder
  rw [wp_bind, wp_commit]
  refine ⟨fun _ => h, fun _ => ?_⟩
  rw [wp_bind, wp_commit]
  exact ⟨fun _ => h, fun _ => h.links hnamed horders⟩

/-- **An order is saved again**, and its episode is linked as it was. -/
theorem saveOrder_mirrors (h : s.Mirrors view) (hsaved : order.decisionId = none ∨ order ∈ s.database.paperOrders) :
    ({ s with database := s.database.saveOrder order } : Store).Mirrors view := by
  have hrows : (∀ id, (s.database.saveOrder order).learningEvidenceEpisodes.get? id =
      s.database.learningEvidenceEpisodes.get? id) ∧ (s.database.saveOrder order).Linked := by
    by_cases hof : ∀ decisionId, order.decisionId = some decisionId → decisionId = ""
    · refine ⟨fun id => ?_, h.orders.saveOrder_none hof⟩
      rw [saveOrder_eq_of_none hof]
    · push Not at hof
      obtain ⟨decisionId, hof, hnamed⟩ := hof
      have horder : order ∈ s.database.paperOrders := by
        rcases hsaved with hnone | hmem
        · rw [hnone] at hof
          cases hof
        · exact hmem
      refine ⟨fun id => ?_, h.orders.saveOrder hof hnamed fun o ho e he hof' hdecided => ?_⟩
      · rw [get?_saveOrder h.orders hof hnamed]
        cases hget : s.database.learningEvidenceEpisodes.get? id with
        | none => rfl
        | some e =>
          rw [map_some, linkRow]
          split_ifs with hdecided
          · rw [← h.orders.linked order horder e (Table.get?_eq_some.mp hget).1 decisionId hof hdecided]
          · rfl
      · have hlinked := h.orders.linked o ho e he decisionId hof' hdecided
        rw [h.orders.linked order horder e he decisionId hof hdecided, Option.some.injEq] at hlinked
        exact hlinked.symm
  obtain ⟨hrows, hlinked⟩ := hrows
  have hstored : ∀ e ∈ (s.database.saveOrder order).learningEvidenceEpisodes, e ∈ s.database.learningEvidenceEpisodes := by
    intro e he
    have hget := Table.get?_eq_some.mpr ⟨he, rfl⟩
    rw [hrows] at hget
    exact (Table.get?_eq_some.mp hget).1
  refine ⟨fun mint => ?_, fun id => ?_, fun e he hpolicy => ?_, fun key hknown => ?_, ⟨h.open_.1, ?_⟩, hlinked⟩
  · rw [saveOrder_observations]
    exact h.observations mint
  · rw [h.episodes]
    unfold Episodes.seen
    rw [hrows]
  · rw [saveOrder_identities]
    exact h.reserved e (hstored e he) hpolicy
  · rw [saveOrder_identities]
    exact h.known key hknown
  · rw [saveOrder_observations]
    exact h.open_.2

/-- **A fill** writes no episode of the Policy lane. -/
theorem fill_mirrors (h : s.Mirrors view) (hlane : episode.policy = false) :
    Wp (fill raises episode) (fun _ s' => s'.Mirrors view) (fun _ s' => s'.Mirrors view) s := by
  have hnot : ∀ decisionId, episode.decidedBy decisionId = true → False := fun decisionId hdecided => by
    unfold LearningEvidenceEpisode.decidedBy at hdecided
    rw [hlane] at hdecided
    cases hdecided
  unfold fill
  rw [wp_bind, wp_commit]
  refine ⟨fun _ => h, fun _ => ?_⟩
  refine h.writes s.learner.policyIdentities s.database.learningPolicyIdentities (fun hpolicy => ?_) (fun _ hsome => hsome)
    h.known fun decisionId hdecided => (hnot decisionId hdecided).elim
  rw [hlane] at hpolicy
  cases hpolicy

/-! ### Pruning and restarts -/

theorem filter_map_eq {α β : Type} {f : α → β} {keep : α → Bool} (hkeep : ∀ a a', f a = f a' → keep a = keep a')
    {x y : Option α} (h : x.map f = y.map f) : (x.filter keep).map f = (y.filter keep).map f := by
  cases x with
  | none => rw [map_eq_none_iff.mp h.symm]
  | some a =>
    obtain ⟨a', rfl, hseen⟩ := map_eq_some_iff.mp h.symm
    rw [Option.filter, Option.filter, hkeep a' a hseen]
    cases keep a
    · rfl
    · exact congrArg some hseen.symm

theorem Observations.seen_filter (observations : Observations) (keep : LearningObservation → Bool)
    (hkeep : ∀ o o' : LearningObservation, o.seen view = o'.seen view → keep o = keep o') {stored : Observations}
    (h : ∀ mint, observations.seen view mint = stored.seen view mint) (mint : String) :
    Observations.seen view (observations.filter keep) mint = Observations.seen view (stored.filter keep) mint := by
  unfold Observations.seen
  rw [Table.get?_filter, Table.get?_filter]
  exact filter_map_eq hkeep (h mint)

theorem Episodes.seen_filter (episodes : Episodes) (keep : LearningEvidenceEpisode → Bool)
    (hkeep : ∀ e e' : LearningEvidenceEpisode, e.seen view = e'.seen view → keep e = keep e') {stored : Episodes}
    (h : ∀ id, episodes.seen view id = stored.seen view id) (id : String) :
    Episodes.seen view (episodes.filter keep) id = Episodes.seen view (stored.filter keep) id := by
  have hswap : ∀ table : Episodes, Episodes.seen view (table.filter keep) id =
      (((table.get? id).filter (·.policy)).filter keep).map (.seen view) := fun table => by
    unfold Episodes.seen
    rw [Table.get?_filter, Option.filter_filter, Option.filter_filter]
    congr 2
    funext e
    exact Bool.and_comm ..
  rw [hswap, hswap]
  exact filter_map_eq hkeep (h id)

theorem forget_isSome {learner : Learner} {removed : Bool} {key : PolicyIdentityKey}
    (h : ((learner.forget removed).policyIdentities key).isSome = true) : (learner.policyIdentities key).isSome = true := by
  dsimp only [Learner.forget] at h
  split_ifs at h
  · cases h
  · exact h

/-- **The history is pruned**, in the tables and in memory. -/
theorem pruneCompleteHistory_mirrors {mints episodeIds : List String} (h : s.Mirrors view) :
    Wp (pruneCompleteHistory raises mints episodeIds) (fun _ s' => s'.Mirrors view) (fun _ s' => s'.Mirrors view) s := by
  have hfirst : ({ s with
      learner := { s.learner with observations := s.learner.observations.filter fun o => o.mint ∉ mints }
      database := { s.database with
        learningObservations := s.database.learningObservations.filter fun o => o.mint ∉ mints } } : Store).Mirrors view := by
    have hkeep : ∀ o o' : LearningObservation, o.seen view = o'.seen view →
        decide (o.mint ∉ mints) = decide (o'.mint ∉ mints) := fun o o' hseen => by
      unfold LearningObservation.mint
      rw [(LearningObservation.mk.inj hseen).2.1]
    exact ⟨Observations.seen_filter _ _ hkeep h.observations, h.episodes, h.reserved, h.known,
      ⟨fun o ho => h.open_.1 o (Table.mem_filter.mp ho).1, fun o ho => h.open_.2 o (Table.mem_filter.mp ho).1⟩,
      ⟨h.orders.1, h.orders.2, h.orders.3⟩⟩
  have hkeep : ∀ e e' : LearningEvidenceEpisode, e.seen view = e'.seen view →
      decide (e.episodeId ∉ episodeIds) = decide (e'.episodeId ∉ episodeIds) := fun e e' hseen => by
    unfold LearningEvidenceEpisode.episodeId
    rw [(LearningEvidenceEpisode.mk.inj hseen).1]
  unfold pruneCompleteHistory
  rw [wp_bind, wp_commit]
  refine ⟨fun _ => h, fun _ => ?_⟩
  rw [wp_bind, wp_inMemory, wp_bind, wp_commit]
  refine ⟨fun _ => hfirst, fun _ => ?_⟩
  refine ⟨hfirst.observations, Episodes.seen_filter _ _ hkeep hfirst.episodes,
    fun e he => hfirst.reserved e (Table.mem_filter.mp he).1, fun key hknown => ?_, hfirst.open_, hfirst.orders.filter _⟩
  dsimp only at hknown
  have hleft := forget_isSome hknown
  exact hfirst.known key hleft

/-- **A restart** reads the tables. -/
theorem restart_mirrors (h : s.Mirrors view) :
    Wp (restart raises) (fun _ s' => s'.Mirrors view) (fun _ s' => s'.Mirrors view) s := by
  unfold restart
  rw [wp_bind, wp_commit]
  refine ⟨fun _ => h, fun _ => ?_⟩
  exact ⟨fun _ => rfl, fun _ => rfl, fun e he hpolicy => remember_all _ (h.reserved e he hpolicy),
    fun key hknown => forget_isSome hknown, ⟨h.open_.2, h.open_.2⟩, ⟨h.orders.1, h.orders.2, h.orders.3⟩⟩

end registration

/-! ### Every run -/

/-- What the orchestrator issues: a decision is registered and submitted once, an order is saved again as it is or is of
no decision, and a fill writes to the Execution lane. -/
def Action.Issued (s : Store) : Action → Prop
  | .register registration => registration.decisionId ≠ "" ∧
      (∀ order ∈ s.database.paperOrders, order.decisionId ≠ some registration.decisionId) ∧
      ∀ e ∈ s.database.learningEvidenceEpisodes, e.decisionId ≠ some registration.decisionId
  | .submit decisionId _ => decisionId ≠ "" ∧ ∀ order ∈ s.database.paperOrders, order.decisionId ≠ some decisionId
  | .saveOrder order => order.decisionId = none ∨ order ∈ s.database.paperOrders
  | .fill episode => episode.policy = false
  | _ => True

/-- No write of evidence raises where the learner has changed its memory. -/
def Event.Writes (event : Event) : Prop :=
  match event.action with
  | .register _ | .observeMarket _ | .expireCheckpoints _ _ _ =>
    (∀ episodeId, event.raises (.episode episodeId) = false) ∧ event.raises .identity = false ∧
      ∀ mint, event.raises (.observation mint) = false
  | _ => True

/-- No attempt is left unsaved. -/
def Action.Saves (s : Store) : Action → Prop
  | .observeMarket sighting =>
    (∀ e ∈ s.learner.evidenceEpisodes, e.entered.mint = sighting.state.mint → e.collects = true → sighting.Saves e.row) ∧
      ∀ o ∈ s.learner.observations, o.mint = sighting.state.mint → o.row.status = .pending → sighting.Saves o.row
  | _ => True

theorem quiet_observed {sighting : Sighting} (hview : view = settled ∨ sighting.Saves row)
    (economics : Option Economics) :
    Quiet view row (row.observed sighting.context sighting.state sighting.now sighting.cached economics) := by
  have hattempts : ∀ attempts, (sighting.Saves row → attempts = row.checkpointAttempts) →
      view { row with checkpointAttempts := attempts } = view row := by
    intro attempts hsame
    rcases hview with rfl | hsaves
    · rfl
    · rw [hsame hsaves]
  refine ⟨fun hzero => ?_, fun hzero => ?_⟩
  · obtain ⟨attempts, he, hsame⟩ := observed_unsaved hzero
    rw [he, hattempts attempts hsame]
  · obtain ⟨attempts, he, -⟩ := observed_unsaved hzero
    rw [he]

/-- **An event** keeps what is seen, where what is not saved is not seen. -/
theorem step_mirrors {hash : TrajectoryMaterial → String} {s : Store} {event : Event} (h : s.Mirrors view)
    (hissued : event.action.Issued s) (hwrites : event.Writes) (hsaves : view = settled ∨ event.action.Saves s) :
    (step hash s event).Mirrors view := by
  obtain ⟨action, raises⟩ := event
  refine Wp.after (x := handle hash ⟨action, raises⟩) ?_
  cases action with
  | register registration =>
    exact register_mirrors h hwrites.1 hwrites.2.1 hwrites.2.2 hissued.1 hissued.2.1 hissued.2.2
  | submit decisionId orderId => exact submit_mirrors h hissued.1 hissued.2
  | saveOrder order =>
    rw [handle, wp_commit]
    exact ⟨fun _ => h, fun _ => saveOrder_mirrors h hissued⟩
  | fill episode => exact fill_mirrors h hissued
  | observeMarket sighting =>
    refine (observeMarket_mirrors h hwrites.1 hwrites.2.2 (fun e he hmint hcollects => ?_) fun o ho hmint hpending => ?_).mono
      (fun _ _ hQ => hQ) fun _ _ hE => hE.elim
    · exact quiet_observed (hsaves.imp_right fun hall => hall.1 e he hmint hcollects) e.economics
    · exact quiet_observed (hsaves.imp_right fun hall => hall.2 o ho hmint hpending) (some o.economics)
  | expireCheckpoints context now states =>
    exact (expireCheckpoints_mirrors h hwrites.1 hwrites.2.2).mono (fun _ _ hQ => hQ) fun _ _ hE => hE.elim
  | prune mints episodeIds => exact pruneCompleteHistory_mirrors h
  | restart => exact restart_mirrors h

theorem mirrors_empty : ({} : Store).Mirrors view where
  observations _ := rfl
  episodes _ := rfl
  reserved _ he := absurd he Table.not_mem_empty
  known _ hknown := absurd hknown (by simp)
  open_ := ⟨fun _ ho => absurd ho Table.not_mem_empty, fun _ ho => absurd ho Table.not_mem_empty⟩
  orders := ⟨fun _ ho => absurd ho Table.not_mem_empty, fun _ _ he => absurd he Table.not_mem_empty,
    fun _ he => absurd he Table.not_mem_empty⟩

/-- Memory and the tables agree, every identity is reserved, and every order is linked. -/
structure Store.Mirrored (s : Store) : Prop where
  observations : ∀ mint, s.learner.observations.get? mint = s.database.learningObservations.get? mint
  episodes : ∀ episodeId, (s.learner.evidenceEpisodes.get? episodeId).filter (·.policy) =
    (s.database.learningEvidenceEpisodes.get? episodeId).filter (·.policy)
  reserved : ∀ e ∈ s.database.learningEvidenceEpisodes, e.policy = true →
    (s.database.learningPolicyIdentities e.entered.policyIdentityKey).isSome = true
  linked : ∀ order ∈ s.database.paperOrders, ∀ e ∈ s.database.learningEvidenceEpisodes, ∀ decisionId,
    order.decisionId = some decisionId → e.decidedBy decisionId = true → e.orderId = some order.orderId

theorem Store.Mirrors.mirrored {s : Store} (h : s.Mirrors id) : s.Mirrored where
  observations mint := by
    have hseen := h.observations mint
    have hid : LearningObservation.seen id = id := rfl
    unfold Observations.seen at hseen
    rwa [hid, Option.map_id, id, id] at hseen
  episodes episodeId := by
    have hseen := h.episodes episodeId
    have hid : LearningEvidenceEpisode.seen id = id := rfl
    unfold Episodes.seen at hseen
    rwa [hid, Option.map_id, id, id] at hseen
  reserved := h.reserved
  linked := h.orders.linked

/-- Where no write of evidence raises, memory and the tables agree but for the attempts. -/
theorem mirrors_run (hash : TrajectoryMaterial → String) (events : List Event)
    (h : Along (step hash) (fun s event => event.action.Issued s ∧ event.Writes) {} events) :
    Along (step hash) (fun s event => (step hash s event).Mirrors settled) {} events :=
  h.derive mirrors_empty (fun _ _ hs hevent => step_mirrors hs hevent.1 hevent.2 (.inl rfl))
    fun _ _ hs hevent => step_mirrors hs hevent.1 hevent.2 (.inl rfl)

/-- **Evidence is mirrored** after every event of a run in which no write of evidence raises and no attempt is left
unsaved: what memory holds is what the tables hold, whatever else raised. -/
theorem evidence_mirrored (hash : TrajectoryMaterial → String) (events : List Event)
    (h : Along (step hash) (fun s event => event.action.Issued s ∧ event.Writes ∧ event.action.Saves s) {} events) :
    Along (step hash) (fun s event => (step hash s event).Mirrored) {} events := by
  refine h.derive (I := Store.Mirrors id) mirrors_empty (fun s event hs hevent => ?_) fun s event hs hevent => ?_
  · exact step_mirrors hs hevent.1 hevent.2.1 (.inr hevent.2.2)
  · exact (step_mirrors hs hevent.1 hevent.2.1 (.inr hevent.2.2)).mirrored

/-! ### What is not mirrored -/

def sampleRegistration : Registration where
  decisionId := "d"
  enrolment :=
    { observation :=
        { mint := "M"
          createdAt := 0
          seasonId := some "s"
          riskMode := .balanced
          configurationFingerprint := none
          baselineVersion := "v"
          baselineAction := .enter }
      evaluationActionable := true }
  economics := ⟨1, 1, by decide, by decide⟩
  feeBps := 100
  networkFeeLamports := 5000
  sizeTrials := fun _ => none

def sampleSighting : Sighting where
  context := ⟨30, 5000, 0, 100, none⟩
  state := { mint := "M" }
  now := 65000000
  cached := true

def sampleEvents : List Event :=
  [{ action := .register sampleRegistration, raises := fun write => write = .recovery },
    { action := .submit "d" "o" },
    { action := .observeMarket
        { sampleSighting with
          state := { mint := "M", virtualTokenReserves := 1000, virtualQuoteReserves := 1000 }
          cached := false } },
    { action := .saveOrder ⟨"o", some "d"⟩, raises := fun _ => true }]

/-- Two writes raise, and memory is what is stored. -/
theorem sampleEvents_mirrored :
    Along (step fun _ => "") (fun s event => (step (fun _ => "") s event).Mirrored) {} sampleEvents := by
  have hroute : routeMissingReason { mint := "M", virtualTokenReserves := 1000, virtualQuoteReserves := 1000 } 65000000 30
      false = none := by decide +kernel
  refine evidence_mirrored _ _ ⟨⟨?_, ⟨?_, ?_, ?_⟩, trivial⟩, ⟨⟨by decide, ?_⟩, trivial, trivial⟩,
    ⟨trivial, ⟨?_, ?_, ?_⟩, ?_, ?_⟩, ⟨.inr ?_, trivial, trivial⟩, trivial⟩
  · exact ⟨by decide, fun _ ho => absurd ho Table.not_mem_empty, fun _ he => absurd he Table.not_mem_empty⟩
  · exact fun _ => rfl
  · rfl
  · exact fun _ => rfl
  · show ∀ order ∈ (step (fun _ => "") {} _).database.paperOrders.rows, order.decisionId ≠ some "d"
    decide +kernel
  · exact fun _ => rfl
  · rfl
  · exact fun _ => rfl
  · exact fun e _ _ _ => .inl hroute
  · exact fun o _ _ _ => .inl hroute
  · show _ ∈ Table.rows _
    decide +kernel

/-- The write of the episode raises. -/
def failedRegistration : Event where
  action := .register sampleRegistration
  raises write := write = .episode "policy-"

/-- **Evidence is not mirrored**: a registration whose write of the episode raises leaves it in memory alone, and an
attempt without a route is counted in memory alone, though no write raised. -/
theorem evidence_unmirrored :
    let s := step (fun _ => "") {} failedRegistration;
    let t := run (step fun _ => "") {} [⟨.register sampleRegistration, fun _ => false⟩, ⟨.observeMarket sampleSighting, fun _ => false⟩];
    (Along (step fun _ => "") (fun s event => event.action.Issued s) {} [failedRegistration] ∧
      (s.learner.evidenceEpisodes.get? "policy-").isSome = true ∧
      s.database.learningEvidenceEpisodes.get? "policy-" = none ∧ ¬ s.Mirrored) ∧
    ((t.learner.observations.get? "M").map fun o => o.row.checkpointAttempts 60) = some 1 ∧
      ((t.database.learningObservations.get? "M").map fun o => o.row.checkpointAttempts 60) = some 0 ∧ ¬ t.Mirrored := by
  intro s t
  have hmemory : (s.learner.evidenceEpisodes.get? "policy-").isSome = true := by decide +kernel
  have hpolicy : ((s.learner.evidenceEpisodes.get? "policy-").filter (·.policy)).isSome = true := by decide +kernel
  have htable : (s.database.learningEvidenceEpisodes.get? "policy-").isSome = false := by decide +kernel
  have hone : ((t.learner.observations.get? "M").map fun o => o.row.checkpointAttempts 60) = some 1 := by decide +kernel
  have hnone : ((t.database.learningObservations.get? "M").map fun o => o.row.checkpointAttempts 60) = some 0 := by
    decide +kernel
  have hempty : s.database.learningEvidenceEpisodes.get? "policy-" = none := by simpa using htable
  refine ⟨⟨?_, hmemory, hempty, fun h => ?_⟩, hone, hnone, fun h => ?_⟩
  · exact ⟨⟨by decide, fun _ ho => absurd ho Table.not_mem_empty, fun _ he => absurd he Table.not_mem_empty⟩, trivial⟩
  · rw [h.episodes, hempty] at hpolicy
    cases hpolicy
  · rw [h.observations, hnone] at hone
    cases hone

end SignalArcade.Challenger.Mirror
