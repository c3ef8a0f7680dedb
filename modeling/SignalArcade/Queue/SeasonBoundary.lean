import SignalArcade.Queue.SeasonEventQueue

/-!
# The season boundary

The queue together with the parties that use it: producers, which take the next
sequence number, admit it and put it or forget it (`enqueue_event`); workers, which
get items and call `task_done` once for each, in any order; and the season
controller, which begins and ends boundaries and discards the queue.
-/

namespace SignalArcade.Queue

open List

variable {ε : Type}

/-- The queue and its users. -/
structure System (ε : Type) where
  queue : SeasonEventQueue ε
  /-- `_event_sequence`: the last sequence number given out. -/
  issued : ℕ := 0
  /-- Admitted sequences whose producer has not put them yet. -/
  waiting : Finset ℕ := ∅
  /-- Dequeued sequences whose worker has not finished them yet. -/
  inFlight : Finset ℕ := ∅
  /-- What was admitted when the active boundary began. -/
  owed : Finset ℕ := ∅
  /-- What has been finished or forgotten since. -/
  settled : Finset ℕ := ∅

/-- What the users do. -/
inductive Action (ε : Type) where
  /-- A producer takes a new sequence number and admits it. -/
  | admitSequence (sequence : ℕ)
  | put (item : QueuedEvent ε)
  /-- A worker gets the next item. -/
  | get
  /-- A worker gets a more urgent item. -/
  | getBefore (priority : ℕ)
  | taskDone (sequence : ℕ)
  /-- A producer gives its sequence up. -/
  | forget (sequence : ℕ)
  /-- The events of a mint become urgent. -/
  | promoteMint (mint : String)
  | beginBoundary (sequence : ℕ)
  | endBoundary
  | discardQueued
  deriving DecidableEq, Repr

namespace System

/-- A worker has taken an item. -/
def take (s : System ε) (taken : QueuedEvent ε × SeasonEventQueue ε) : System ε :=
  { s with queue := taken.2, inFlight := insert taken.1.sequence s.inFlight }

/-- Everything admitted: waiting, queued, or dequeued and unfinished. -/
def admitted (s : System ε) : Finset ℕ := s.waiting ∪ s.queue.queuedSequences.toFinset ∪ s.inFlight

def step (mintOf : ε → Option String) (s : System ε) : Action ε → System ε
  | .admitSequence n =>
    if s.issued < n then
      { s with queue := s.queue.admitSequence n, issued := n, waiting := insert n s.waiting }
    else s
  | .put item =>
    if item.sequence ∈ s.waiting ∨ s.issued < item.sequence then
      match s.queue.putNowait item with
      | .ok queue => { s with
          queue := queue
          issued := max s.issued item.sequence
          waiting := s.waiting.erase item.sequence }
      | .error _ => s
    else s
  | .get =>
    match s.queue.getNowait with
    | .ok taken => s.take taken
    | .error _ => s
  | .getBefore priority =>
    match s.queue.getNowaitBefore priority with
    | .ok taken => s.take taken
    | .error _ => s
  | .taskDone n =>
    if n ∈ s.inFlight then
      match s.queue.taskDone with
      | .ok queue => { s with
          queue := queue
          inFlight := s.inFlight.erase n
          settled := insert n s.settled }
      | .error _ => s
    else s
  | .forget n =>
    if n ∈ s.waiting then
      { s with
        queue := s.queue.forget n
        waiting := s.waiting.erase n
        settled := insert n s.settled }
    else s
  | .promoteMint mint => { s with queue := (s.queue.promoteMint mintOf mint).1 }
  | .beginBoundary n =>
    if n ≤ s.issued then
      match s.queue.boundary with
      | none => { s with
          queue := s.queue.beginBoundary n
          owed := s.admitted
          settled := ∅ }
      | some _ => { s with queue := s.queue.beginBoundary n }
    else s
  | .endBoundary => { s with queue := s.queue.endBoundary }
  | .discardQueued => { s with queue := s.queue.discardQueued }

/-- A run from an empty queue. -/
def run (mintOf : ε → Option String) (maxsize : ℕ) (actions : List (Action ε)) : System ε :=
  actions.foldl (step mintOf) { queue := { maxsize := maxsize } }

/-! ### The accounting invariant -/

/-- What the queue keeps in step with its users. -/
structure Inv (s : System ε) : Prop where
  /-- Pending is waiting, queued, or counted as dequeued. -/
  pending_iff : ∀ n, n ∈ s.queue.pendingSequences ↔
    n ∈ s.waiting ∨ n ∈ s.queue.queuedSequences ∨ n ∈ s.queue.dequeuedSequences
  nodup : (s.queue.queuedSequences ++ s.queue.dequeuedSequences).Nodup
  /-- What waits is neither queued nor counted. -/
  waiting_fresh : ∀ n ∈ s.waiting, n ∉ s.queue.queuedSequences ∧ n ∉ s.queue.dequeuedSequences
  inFlight_fresh : ∀ n ∈ s.inFlight, n ∉ s.waiting ∧ n ∉ s.queue.queuedSequences
  /-- Every sequence has been given out. -/
  issued_le : (∀ n ∈ s.queue.pendingSequences, n ≤ s.issued) ∧ ∀ n ∈ s.inFlight, n ≤ s.issued
  inFlight_card : s.inFlight.card = s.queue.dequeuedSequences.length
  /-- asyncio's count agrees. -/
  unfinished_eq : s.queue.unfinishedTasks =
    s.queue.queue.length + s.queue.dequeuedSequences.length
  /-- The parked rows are those beyond the boundary. -/
  later_iff : ∀ row ∈ s.queue.queue, row.later = s.queue.isLater row.sequence
  /-- Nothing counted as dequeued is beyond the boundary. -/
  boundary_le : ∀ b ∈ s.queue.boundary, b ≤ s.issued ∧ ∀ n ∈ s.queue.dequeuedSequences, n ≤ b
  /-- What the boundary still waits for: the waiting and queued sequences up to it, and
  whatever is in flight. -/
  debt_iff : ∀ b ∈ s.queue.boundary, ∀ n, n ∈ s.owed ∧ n ∉ s.settled ↔
    ((n ∈ s.waiting ∨ n ∈ s.queue.queuedSequences) ∧ n ≤ b) ∨ n ∈ s.inFlight

theorem Inv.init (maxsize : ℕ) : Inv ({ queue := { maxsize := maxsize } } : System ε) where
  pending_iff := by simp [SeasonEventQueue.queuedSequences]
  nodup := by simp [SeasonEventQueue.queuedSequences]
  waiting_fresh := by simp
  inFlight_fresh := by simp
  issued_le := by simp
  inFlight_card := rfl
  unfinished_eq := rfl
  later_iff := by simp
  boundary_le := by simp
  debt_iff := by simp

variable {s : System ε}

variable {n : ℕ}

theorem Inv.admitSequence (h : Inv s) (hn : s.issued < n) :
    Inv { s with queue := s.queue.admitSequence n, issued := n, waiting := insert n s.waiting } := by
  have hfresh : n ∉ s.queue.pendingSequences := fun hp => absurd (h.issued_le.1 n hp) (by omega)
  have hflight : n ∉ s.inFlight := fun hp => absurd (h.issued_le.2 n hp) (by omega)
  have hold := fun m => h.pending_iff m
  refine ⟨fun m => ?_, h.nodup, fun m hm => ?_, fun m hm => ?_, ⟨fun m hm => ?_, fun m hm => ?_⟩,
    h.inFlight_card, h.unfinished_eq, h.later_iff, fun b hb => ?_, fun b hb m => ?_⟩
  · rw [SeasonEventQueue.queuedSequences_admitSequence, Finset.mem_insert]
    simp only [SeasonEventQueue.admitSequence, Finset.mem_insert, hold m]
    grind
  · rw [SeasonEventQueue.queuedSequences_admitSequence]
    rcases Finset.mem_insert.mp hm with rfl | hm
    · rw [hold] at hfresh
      exact ⟨fun hq => hfresh (.inr (.inl hq)), fun hd => hfresh (.inr (.inr hd))⟩
    · exact h.waiting_fresh m hm
  · rw [SeasonEventQueue.queuedSequences_admitSequence, Finset.mem_insert]
    obtain ⟨hw, hq⟩ := h.inFlight_fresh m hm
    refine ⟨?_, hq⟩
    rintro (rfl | hm')
    · exact hflight hm
    · exact hw hm'
  · rcases Finset.mem_insert.mp hm with rfl | hm
    · exact le_rfl
    · exact (h.issued_le.1 m hm).trans hn.le
  · exact (h.issued_le.2 m hm).trans hn.le
  · obtain ⟨hle, hd⟩ := h.boundary_le b hb
    exact ⟨hle.trans hn.le, hd⟩
  · -- the new sequence is beyond the boundary
    have hbn : b < n := (h.boundary_le b hb).1.trans_lt hn
    rw [SeasonEventQueue.queuedSequences_admitSequence, h.debt_iff b hb, Finset.mem_insert]
    constructor
    · rintro (⟨hm, hle⟩ | hm)
      · exact .inl ⟨hm.imp_left .inr, hle⟩
      · exact .inr hm
    · rintro (⟨(rfl | hm) | hm, hle⟩ | hm)
      · omega
      · exact .inl ⟨.inl hm, hle⟩
      · exact .inl ⟨.inr hm, hle⟩
      · exact .inr hm

theorem Inv.fresh (h : Inv s) (hn : n ∈ s.waiting ∨ s.issued < n) :
    n ∉ s.queue.queuedSequences ∧ n ∉ s.queue.dequeuedSequences ∧ n ∉ s.inFlight := by
  rcases hn with hw | hlt
  · obtain ⟨hq, hd⟩ := h.waiting_fresh n hw
    exact ⟨hq, hd, fun hf => (h.inFlight_fresh n hf).1 hw⟩
  · have hp : n ∉ s.queue.pendingSequences := fun hp => absurd (h.issued_le.1 n hp) (by omega)
    rw [h.pending_iff] at hp
    exact ⟨fun hq => hp (.inr (.inl hq)), fun hd => hp (.inr (.inr hd)),
      fun hf => absurd (h.issued_le.2 n hf) (by omega)⟩

variable {item : QueuedEvent ε} {queue : SeasonEventQueue ε}

section

variable (h : Inv s)
include h

theorem Inv.putRow (hitem : item.sequence ∈ s.waiting ∨ s.issued < item.sequence) :
    Inv { s with
      queue := s.queue.putRow item
      issued := max s.issued item.sequence
      waiting := s.waiting.erase item.sequence } := by
  obtain ⟨hq, hd, hf⟩ := h.fresh hitem
  have hperm := s.queue.queuedSequences_putRow item
  have hmem : ∀ m, m ∈ (s.queue.putRow item).queuedSequences ↔
      m = item.sequence ∨ m ∈ s.queue.queuedSequences := fun m => by rw [hperm.mem_iff, mem_cons]
  have hdeq : (s.queue.putRow item).dequeuedSequences = s.queue.dequeuedSequences := rfl
  refine ⟨fun m => ?_, ?_, fun m hm => ?_, fun m hm => ?_, ⟨fun m hm => ?_, fun m hm => ?_⟩,
    h.inFlight_card, ?_, fun row hrow => ?_, fun b hb => ?_, fun b hb m => ?_⟩
  · rw [hmem, hdeq, Finset.mem_erase]
    simp only [SeasonEventQueue.putRow, Finset.mem_insert, h.pending_iff m]
    grind
  · refine (hperm.append_right _).nodup_iff.mpr ?_
    rw [cons_append, nodup_cons, mem_append]
    exact ⟨fun hm => hm.elim hq hd, h.nodup⟩
  · obtain ⟨hne, hm⟩ := Finset.mem_erase.mp hm
    obtain ⟨hmq, hmd⟩ := h.waiting_fresh m hm
    rw [hmem]
    exact ⟨fun hor => hor.elim hne hmq, hmd⟩
  · obtain ⟨hmw, hmq⟩ := h.inFlight_fresh m hm
    rw [hmem, Finset.mem_erase]
    refine ⟨fun hw => hmw hw.2, fun hor => hor.elim (fun he => ?_) hmq⟩
    exact hf (he ▸ hm)
  · rcases Finset.mem_insert.mp hm with rfl | hm
    · exact le_max_right _ _
    · exact (h.issued_le.1 m hm).trans (le_max_left _ _)
  · exact (h.issued_le.2 m hm).trans (le_max_left _ _)
  · have hlen := (perm_orderedInsert Row.before
      { item with later := s.queue.isLater item.sequence } s.queue.queue).length_eq
    have := h.unfinished_eq
    simp only [SeasonEventQueue.putRow, hlen, length_cons]
    omega
  · rcases mem_cons.mp ((perm_orderedInsert Row.before _ _).subset hrow) with rfl | hrow
    · rfl
    · exact h.later_iff row hrow
  · obtain ⟨hle, hbd⟩ := h.boundary_le b hb
    exact ⟨hle.trans (le_max_left _ _), hbd⟩
  · -- a waiting sequence becomes a queued one, a new one is beyond the boundary
    rw [hmem, h.debt_iff b hb, Finset.mem_erase]
    have hbi := (h.boundary_le b hb).1
    by_cases hm : m = item.sequence
    · subst hm
      rcases hitem with hw | hlt
      · grind
      · have hw : item.sequence ∉ s.waiting := fun hw =>
          absurd (h.issued_le.1 _ ((h.pending_iff _).mpr (.inl hw))) (by omega)
        have hb' : ¬ item.sequence ≤ b := by omega
        grind
    · grind

/-- What is taken is in flight, and still pending. -/
theorem Inv.take (hget : s.queue.getNowait = .ok (item, queue)) : Inv (s.take (item, queue)) := by
  obtain ⟨row, rows, hrows, hlater, rfl, rfl⟩ := SeasonEventQueue.getNowait_ok hget
  have hqs : s.queue.queuedSequences = row.sequence :: rows.map (·.sequence) := by
    rw [SeasonEventQueue.queuedSequences, hrows, map_cons]
  have hrow : row.sequence ∈ s.queue.queuedSequences := by simp [hqs]
  have hrowlater : s.queue.isLater row.sequence = false := by
    rw [← h.later_iff row (by simp [hrows]), hlater]
  have hnodup := h.nodup
  rw [hqs, cons_append, nodup_cons, mem_append, not_or] at hnodup
  obtain ⟨⟨hnr, hnd⟩, hnodup⟩ := hnodup
  have hflight : row.sequence ∉ s.inFlight := fun hf => (h.inFlight_fresh _ hf).2 hrow
  have hwait : row.sequence ∉ s.waiting := fun hw => (h.waiting_fresh _ hw).1 hrow
  have hqmem : ∀ m, m ∈ s.queue.queuedSequences ↔ m = row.sequence ∨ m ∈ rows.map (·.sequence) :=
    fun m => by rw [hqs, mem_cons]
  refine ⟨fun m => ?_, ?_, fun m hm => ?_, fun m hm => ?_, ⟨fun m hm => h.issued_le.1 m hm, fun m hm => ?_⟩,
    ?_, ?_, fun r hr => ?_, fun b hb => ?_, fun b hb m => ?_⟩
  · have := h.pending_iff m
    rw [hqmem] at this
    simp only [System.take, SeasonEventQueue.queuedSequences, mem_append, mem_singleton]
    grind
  · refine Perm.nodup_iff (?_ : Perm _ (row.sequence :: _)) |>.mpr
      (nodup_cons.mpr ⟨?_, hnodup⟩)
    · simp only [System.take, SeasonEventQueue.queuedSequences, ← append_assoc]
      exact perm_append_singleton _ _
    · simpa using ⟨fun r hr he => hnr (mem_map.mpr ⟨r, hr, he⟩), hnd⟩
  · obtain ⟨hmq, hmd⟩ := h.waiting_fresh m hm
    rw [hqmem, not_or] at hmq
    refine ⟨hmq.2, fun hd => ?_⟩
    rcases mem_append.mp hd with hd | hd
    · exact hmd hd
    · exact hmq.1 (mem_singleton.mp hd)
  · rcases Finset.mem_insert.mp hm with rfl | hm
    · exact ⟨hwait, hnr⟩
    · obtain ⟨hmw, hmq⟩ := h.inFlight_fresh m hm
      rw [hqmem, not_or] at hmq
      exact ⟨hmw, hmq.2⟩
  · rcases Finset.mem_insert.mp hm with rfl | hm
    · exact h.issued_le.1 _ ((h.pending_iff _).mpr (.inr (.inl hrow)))
    · exact h.issued_le.2 m hm
  · have := h.inFlight_card
    simp only [System.take, Finset.card_insert_of_notMem hflight, length_append,
      length_singleton]
    omega
  · have := h.unfinished_eq
    rw [hrows, length_cons] at this
    simp only [System.take, length_append, length_singleton]
    omega
  · exact h.later_iff r (by rw [hrows]; exact mem_cons_of_mem _ hr)
  · obtain ⟨hle, hd⟩ := h.boundary_le b hb
    refine ⟨hle, fun m hm => ?_⟩
    rcases mem_append.mp hm with hm | hm
    · exact hd m hm
    · obtain rfl := mem_singleton.mp hm
      have hb' : s.queue.boundary = some b := hb
      simpa [SeasonEventQueue.isLater, hb'] using hrowlater
  · have hb' : s.queue.boundary = some b := hb
    have hle : row.sequence ≤ b := by simpa [SeasonEventQueue.isLater, hb'] using hrowlater
    have hdebt := h.debt_iff b hb' m
    rw [hqmem] at hdebt
    simp only [System.take, SeasonEventQueue.queuedSequences, Finset.mem_insert]
    rw [hdebt]
    by_cases hm : m = row.sequence
    · subst hm
      grind
    · grind

theorem Inv.taskDone (hn : n ∈ s.inFlight) (hdone : s.queue.taskDone = .ok queue) :
    Inv { s with
      queue := queue
      inFlight := s.inFlight.erase n
      settled := insert n s.settled } := by
  have hcard := h.inFlight_card
  have hpos : 0 < s.inFlight.card := Finset.card_pos.mpr ⟨n, hn⟩
  obtain ⟨hunf, ⟨hnil, -⟩ | ⟨m, rest, hd, rfl⟩⟩ := SeasonEventQueue.taskDone_ok hdone
  · rw [hnil, length_nil] at hcard
    omega
  have hnodup := h.nodup
  rw [hd] at hnodup
  have hmq : m ∉ s.queue.queuedSequences := fun hq =>
    (disjoint_of_nodup_append hnodup) hq (mem_cons_self)
  have hmr : m ∉ rest := (nodup_cons.mp (nodup_append.mp hnodup).2.1).1
  have hmw : m ∉ s.waiting := fun hw => (h.waiting_fresh m hw).2 (by simp [hd])
  obtain ⟨hnw, hnq⟩ := h.inFlight_fresh n hn
  refine ⟨fun k => ?_, ?_, fun k hk => ?_, fun k hk => ?_, ⟨fun k hk => ?_, fun k hk => ?_⟩,
    ?_, ?_, h.later_iff, fun b hb => ?_, fun b hb k => ?_⟩
  · -- the sequence retired is the oldest, whichever was finished
    have := h.pending_iff k
    rw [hd, mem_cons] at this
    simp only [SeasonEventQueue.queuedSequences, Finset.mem_erase] at *
    by_cases hk : k = m
    · subst hk
      grind
    · grind
  · exact hnodup.sublist ((sublist_cons_self m rest).append_left _)
  · obtain ⟨hkq, hkd⟩ := h.waiting_fresh k hk
    rw [hd, mem_cons, not_or] at hkd
    exact ⟨hkq, hkd.2⟩
  · exact h.inFlight_fresh k (Finset.mem_of_mem_erase hk)
  · exact h.issued_le.1 k (Finset.mem_of_mem_erase hk)
  · exact h.issued_le.2 k (Finset.mem_of_mem_erase hk)
  · rw [hd, length_cons] at hcard
    simp only [Finset.card_erase_of_mem hn]
    omega
  · have := h.unfinished_eq
    rw [hd, length_cons] at this
    simp only
    omega
  · obtain ⟨hle, hbd⟩ := h.boundary_le b hb
    exact ⟨hle, fun k hk => hbd k (by rw [hd]; exact mem_cons_of_mem _ hk)⟩
  · have hdebt := h.debt_iff b hb k
    simp only [SeasonEventQueue.queuedSequences, Finset.mem_insert, Finset.mem_erase] at *
    by_cases hk : k = n
    · subst hk
      grind
    · grind

theorem Inv.forget (hn : n ∈ s.waiting) :
    Inv { s with
      queue := s.queue.forget n
      waiting := s.waiting.erase n
      settled := insert n s.settled } := by
  obtain ⟨hq, hd, hf⟩ := h.fresh (.inl hn)
  refine ⟨fun m => ?_, h.nodup, fun m hm => ?_, fun m hm => ?_, ⟨fun m hm => ?_, h.issued_le.2⟩,
    h.inFlight_card, h.unfinished_eq, h.later_iff, h.boundary_le, fun b hb m => ?_⟩
  · have := h.pending_iff m
    rw [SeasonEventQueue.queuedSequences_forget, Finset.mem_erase]
    simp only [SeasonEventQueue.forget, Finset.mem_erase]
    by_cases hm : m = n
    · subst hm
      grind
    · grind
  · exact h.waiting_fresh m (Finset.mem_of_mem_erase hm)
  · obtain ⟨hmw, hmq⟩ := h.inFlight_fresh m hm
    exact ⟨fun hw => hmw (Finset.mem_of_mem_erase hw), hmq⟩
  · exact h.issued_le.1 m (Finset.mem_of_mem_erase hm)
  · have hdebt := h.debt_iff b hb m
    rw [SeasonEventQueue.queuedSequences_forget, Finset.mem_erase, Finset.mem_insert]
    by_cases hm : m = n
    · subst hm
      grind
    · grind

/-- Rewriting the heap and moving the boundary keep the books when no sequence is lost, the
right rows are parked, and the new boundary is one that could have been active. -/
theorem Inv.rearranged {boundary : Option ℕ} {rows : List (Row ε)} {owed settled : Finset ℕ}
    (hrows : (rows.map (·.sequence)).Perm s.queue.queuedSequences)
    (hlater : ∀ row ∈ rows, row.later = { s.queue with boundary := boundary }.isLater row.sequence)
    (hboundary : ∀ b ∈ boundary, b ≤ s.issued ∧ ∀ n ∈ s.queue.dequeuedSequences, n ≤ b)
    (hdebt : ∀ b ∈ boundary, ∀ n, n ∈ owed ∧ n ∉ settled ↔
      ((n ∈ s.waiting ∨ n ∈ s.queue.queuedSequences) ∧ n ≤ b) ∨ n ∈ s.inFlight) :
    Inv { s with
      queue := { s.queue with boundary := boundary, queue := rows }
      owed := owed
      settled := settled } := by
  have hmem : ∀ m, m ∈ ({ s.queue with boundary := boundary, queue := rows } :
      SeasonEventQueue ε).queuedSequences ↔ m ∈ s.queue.queuedSequences := fun m => hrows.mem_iff
  refine ⟨fun m => ?_, ?_, fun m hm => ?_, fun m hm => ?_, h.issued_le, h.inFlight_card, ?_, hlater,
    hboundary, fun b hb m => ?_⟩
  · rw [hmem]
    exact h.pending_iff m
  · exact (hrows.append_right _).nodup_iff.mpr h.nodup
  · rw [hmem]
    exact h.waiting_fresh m hm
  · rw [hmem]
    exact h.inFlight_fresh m hm
  · have hlen := hrows.length_eq
    simp only [SeasonEventQueue.queuedSequences, length_map] at hlen
    have := h.unfinished_eq
    simp only [hlen]
    exact this
  · rw [hmem]
    exact hdebt b hb m

theorem Inv.promoteMint (mintOf : ε → Option String) (mint : String) :
    Inv { s with queue := (s.queue.promoteMint mintOf mint).1 } := by
  refine h.rearranged (s.queue.queuedSequences_promoteMint mintOf mint) (fun row hrow => ?_)
    h.boundary_le h.debt_iff
  obtain ⟨r, hr, hseq, hl⟩ := s.queue.mem_promoteMint hrow
  rw [← hl, ← hseq]
  exact h.later_iff r hr

theorem Inv.endBoundary : Inv { s with queue := s.queue.endBoundary } :=
  h.rearranged s.queue.map_sequence_unparked (fun _ hrow => s.queue.mem_unparked hrow)
    (fun _ hb => by cases hb) (fun _ hb => by cases hb)

theorem Inv.beginBoundary (hn : n ≤ s.issued) (hnone : s.queue.boundary = none) :
    Inv { s with
      queue := s.queue.beginBoundary n
      owed := s.admitted
      settled := ∅ } := by
  set b := s.queue.pendingSequences.sup id ⊔ n with hb
  have hle : ∀ m ∈ s.queue.pendingSequences, m ≤ b := fun m hm =>
    (Finset.le_sup (f := id) hm).trans le_sup_left
  have hissued : b ≤ s.issued := sup_le (Finset.sup_le fun m hm => h.issued_le.1 m hm) hn
  have hbegin : s.queue.beginBoundary n =
      { s.queue with boundary := some b, queue := s.queue.unparked } := by
    simp only [SeasonEventQueue.beginBoundary, hnone, hb]
  rw [hbegin]
  have hmem : ∀ row ∈ s.queue.unparked, row.sequence ∈ s.queue.queuedSequences := fun row hrow =>
    s.queue.map_sequence_unparked.subset (mem_map_of_mem hrow)
  have hqueued : ∀ m ∈ s.queue.queuedSequences, m ≤ b := fun m hm =>
    hle m ((h.pending_iff m).mpr (.inr (.inl hm)))
  refine h.rearranged s.queue.map_sequence_unparked (fun row hrow => ?_) (fun c hc => ?_)
    (fun c hc m => ?_)
  · rw [s.queue.mem_unparked hrow]
    simpa [SeasonEventQueue.isLater] using hqueued _ (hmem row hrow)
  · obtain rfl : b = c := by simpa using hc
    exact ⟨hissued, fun m hm => hle m ((h.pending_iff m).mpr (.inr (.inr hm)))⟩
  · obtain rfl : b = c := by simpa using hc
    have hwait : m ∈ s.waiting → m ≤ b := fun hm => hle m ((h.pending_iff m).mpr (.inl hm))
    have hqueued := hqueued m
    simp only [admitted, Finset.mem_union, mem_toFinset, Finset.notMem_empty, not_false_eq_true,
      and_true]
    grind

theorem Inv.discardQueued : Inv { s with queue := s.queue.discardQueued } := by
  have hq : s.queue.discardQueued.queuedSequences = [] := rfl
  refine ⟨fun m => ?_, ?_, fun m hm => ?_, fun m hm => ?_, ⟨fun m hm => ?_, h.issued_le.2⟩,
    h.inFlight_card, ?_, fun row hrow => (by cases hrow), fun b hb => (by cases hb),
    fun b hb => (by cases hb)⟩
  · rw [hq]
    simp only [SeasonEventQueue.discardQueued, Finset.mem_sdiff, mem_toFinset, h.pending_iff m,
      not_mem_nil, false_or]
    have hw := h.waiting_fresh m
    have hd := (disjoint_of_nodup_append h.nodup) (a := m)
    grind
  · rw [hq, nil_append]
    exact (nodup_append.mp h.nodup).2.1
  · rw [hq]
    exact ⟨not_mem_nil, (h.waiting_fresh m hm).2⟩
  · rw [hq]
    exact ⟨(h.inFlight_fresh m hm).1, not_mem_nil⟩
  · exact h.issued_le.1 m (Finset.mem_sdiff.mp hm).1
  · have := h.unfinished_eq
    simp only [SeasonEventQueue.discardQueued, length_nil]
    omega

end

/-- What an action does, if anything, with what it asked for. -/
inductive Stepped (mintOf : ε → Option String) (s : System ε) : System ε → Prop where
  | same : Stepped mintOf s s
  | admitted {n : ℕ} (hn : s.issued < n) : Stepped mintOf s
      { s with queue := s.queue.admitSequence n, issued := n, waiting := insert n s.waiting }
  | put {item : QueuedEvent ε} {queue : SeasonEventQueue ε}
      (hitem : item.sequence ∈ s.waiting ∨ s.issued < item.sequence) (hput : s.queue.putNowait item = .ok queue) :
      Stepped mintOf s { s with
        queue := queue
        issued := max s.issued item.sequence
        waiting := s.waiting.erase item.sequence }
  | taken {taken : QueuedEvent ε × SeasonEventQueue ε} (hget : s.queue.getNowait = .ok taken) :
      Stepped mintOf s (s.take taken)
  | done {n : ℕ} {queue : SeasonEventQueue ε} (hn : n ∈ s.inFlight) (hdone : s.queue.taskDone = .ok queue) :
      Stepped mintOf s { s with
        queue := queue
        inFlight := s.inFlight.erase n
        settled := insert n s.settled }
  | forgotten {n : ℕ} (hn : n ∈ s.waiting) : Stepped mintOf s { s with
      queue := s.queue.forget n
      waiting := s.waiting.erase n
      settled := insert n s.settled }
  | promoted (mint : String) : Stepped mintOf s { s with queue := (s.queue.promoteMint mintOf mint).1 }
  | begun {n : ℕ} (hn : n ≤ s.issued) (hnone : s.queue.boundary = none) : Stepped mintOf s { s with
      queue := s.queue.beginBoundary n
      owed := s.admitted
      settled := ∅ }
  | ended : Stepped mintOf s { s with queue := s.queue.endBoundary }
  | discarded : Stepped mintOf s { s with queue := s.queue.discardQueued }

theorem step_stepped (mintOf : ε → Option String) (s : System ε) (a : Action ε) :
    Stepped mintOf s (s.step mintOf a) := by
  cases a with
  | admitSequence n =>
    simp only [System.step]
    split
    · next hn => exact .admitted hn
    · exact .same
  | put item =>
    simp only [System.step]
    split
    · next hitem =>
      split
      · next queue hput => exact .put hitem hput
      · exact .same
    · exact .same
  | get =>
    simp only [System.step]
    split
    · next taken hget => exact .taken hget
    · exact .same
  | getBefore priority =>
    simp only [System.step]
    split
    · next taken hget => exact .taken (SeasonEventQueue.getNowaitBefore_ok hget)
    · exact .same
  | taskDone n =>
    simp only [System.step]
    split
    · next hn =>
      split
      · next queue hdone => exact .done hn hdone
      · exact .same
    · exact .same
  | forget n =>
    simp only [System.step]
    split
    · next hn => exact .forgotten hn
    · exact .same
  | promoteMint mint => exact .promoted mint
  | beginBoundary n =>
    simp only [System.step]
    split
    · next hn =>
      split
      · next hnone => exact .begun hn hnone
      · next b hb =>
        -- a boundary that is active stays where it is
        have hsame : s.queue.beginBoundary n = s.queue := by
          simp only [SeasonEventQueue.beginBoundary, hb]
        rw [hsame]
        exact .same
    · exact .same
  | endBoundary => exact .ended
  | discardQueued => exact .discarded

theorem Inv.stepped {mintOf : ε → Option String} {s' : System ε} (h : Inv s) (hs : Stepped mintOf s s') : Inv s' := by
  cases hs with
  | same => exact h
  | admitted hn => exact h.admitSequence hn
  | put hitem hput =>
    obtain ⟨-, -, rfl⟩ := (s.queue.putNowait_eq_ok_iff).mp hput
    exact h.putRow hitem
  | taken hget => exact h.take hget
  | done hn hdone => exact h.taskDone hn hdone
  | forgotten hn => exact h.forget hn
  | promoted mint => exact h.promoteMint mintOf mint
  | begun hn hnone => exact h.beginBoundary hn hnone
  | ended => exact h.endBoundary
  | discarded => exact h.discardQueued

/-- **One action keeps the books.** -/
theorem Inv.step (h : Inv s) (mintOf : ε → Option String) (a : Action ε) : Inv (s.step mintOf a) :=
  h.stepped (step_stepped mintOf s a)

/-- **The books are right after every run.** -/
theorem Inv.run (mintOf : ε → Option String) (maxsize : ℕ) (actions : List (Action ε)) :
    Inv (run mintOf maxsize actions) :=
  foldlRecOn actions (System.step mintOf) (Inv.init maxsize) fun _ h a _ => h.step mintOf a

/-! ### Draining -/

/-- **The boundary drains.** While a boundary is active, an item dequeued is not beyond it,
and the boundary is ready exactly when everything admitted at its start has been finished or
forgotten. -/
theorem drain_correct (mintOf : ε → Option String) (maxsize : ℕ) (actions : List (Action ε)) :
    ∀ b ∈ (run mintOf maxsize actions).queue.boundary,
      (∀ taken, (run mintOf maxsize actions).queue.getNowait = .ok taken → taken.1.sequence ≤ b) ∧
      (∀ priority taken, (run mintOf maxsize actions).queue.getNowaitBefore priority = .ok taken →
        taken.1.sequence ≤ b) ∧
      ((run mintOf maxsize actions).queue.boundaryReady = true ↔
        (run mintOf maxsize actions).owed ⊆ (run mintOf maxsize actions).settled) := by
  have h := Inv.run mintOf maxsize actions
  generalize run mintOf maxsize actions = s at h
  intro b hb
  have hb' : s.queue.boundary = some b := hb
  have hget : ∀ taken, s.queue.getNowait = .ok taken → taken.1.sequence ≤ b := by
    rintro ⟨item, queue⟩ htaken
    have ht := (h.take htaken).boundary_le b
    obtain ⟨row, rows, -, -, rfl, rfl⟩ := SeasonEventQueue.getNowait_ok htaken
    exact (ht hb).2 _ (mem_append_right _ (mem_singleton_self _))
  refine ⟨hget, fun priority taken htaken => hget taken ?_, ?_⟩
  · exact SeasonEventQueue.getNowaitBefore_ok htaken
  have hdebt := h.debt_iff b hb
  have hcard := h.inFlight_card
  simp only [SeasonEventQueue.boundaryReady, hb', decide_eq_true_eq]
  constructor
  · intro hready n hn
    by_contra hset
    rcases (hdebt n).mp ⟨hn, hset⟩ with ⟨hwq, hle⟩ | hf
    · refine hready n ((h.pending_iff n).mpr ?_) hle
      exact hwq.elim .inl fun hq => .inr (.inl hq)
    · -- something is in flight, so something is counted as dequeued
      have hpos : 0 < s.queue.dequeuedSequences.length := hcard ▸ Finset.card_pos.mpr ⟨n, hf⟩
      obtain ⟨m, hm⟩ := exists_mem_of_length_pos hpos
      exact hready m ((h.pending_iff m).mpr (.inr (.inr hm))) ((h.boundary_le b hb).2 m hm)
  · intro hsub n hn hle
    rcases (h.pending_iff n).mp hn with hw | hq | hd
    · obtain ⟨ho, hs⟩ := (hdebt n).mpr (.inl ⟨.inl hw, hle⟩)
      exact hs (hsub ho)
    · obtain ⟨ho, hs⟩ := (hdebt n).mpr (.inl ⟨.inr hq, hle⟩)
      exact hs (hsub ho)
    · have hpos : 0 < s.inFlight.card := hcard ▸ length_pos_of_mem hd
      obtain ⟨m, hm⟩ := Finset.card_pos.mp hpos
      obtain ⟨ho, hs⟩ := (hdebt m).mpr (.inr hm)
      exact hs (hsub ho)

/-- Two admitted events are taken in one order and finished in the other, while a third one
is parked. -/
def drained : System Unit :=
  run (fun _ => none) 3 [.admitSequence 1, .admitSequence 2, .put ⟨5, 1, ()⟩, .put ⟨0, 2, ()⟩, .beginBoundary 2,
    .put ⟨0, 3, ()⟩, .get, .get, .taskDone 1, .get, .taskDone 2]

/-- Two were owed, and both are done. -/
theorem drain_correct_drained : drained.queue.boundaryReady = true ∧ drained.owed = {1, 2} := by
  have h := (drain_correct (fun _ : Unit => none) 3 [.admitSequence 1, .admitSequence 2, .put ⟨5, 1, ()⟩,
    .put ⟨0, 2, ()⟩, .beginBoundary 2, .put ⟨0, 3, ()⟩, .get, .get, .taskDone 1, .get, .taskDone 2]
    2 (by decide)).2.2
  exact ⟨h.mpr (by decide), by decide⟩

/-! ### Capacity -/

/-- What the queue keeps free while a boundary is active: when anything is parked, there is
room left for every producer that waits in front of the boundary. -/
structure Roomy (maxsize : ℕ) (s : System ε) : Prop where
  maxsize_eq : s.queue.maxsize = maxsize
  qsize_le : 0 < maxsize → s.queue.qsize ≤ maxsize
  reserved : ∀ b ∈ s.queue.boundary, 0 < maxsize →
    s.queue.parked = 0 ∨ s.queue.parked + (s.waiting.filter (· ≤ b)).card ≤ maxsize

theorem Inv.waitingBefore_eq (h : Inv s) (b : ℕ) :
    s.queue.waitingBefore b = s.waiting.filter (· ≤ b) := by
  ext n
  simp only [SeasonEventQueue.waitingBefore, Finset.mem_filter, h.pending_iff n]
  have := h.waiting_fresh n
  grind

theorem Roomy.init {maxsize : ℕ} : Roomy maxsize ({ queue := { maxsize := maxsize } } : System ε) :=
  ⟨rfl, fun _ => Nat.zero_le _, fun _ hb => by cases hb⟩

variable {maxsize : ℕ}

section

variable (hr : Roomy maxsize s)
include hr

theorem Roomy.mono {s' : System ε} (hmax : s'.queue.maxsize = s.queue.maxsize)
    (hsize : s'.queue.qsize ≤ s.queue.qsize) (hparked : s'.queue.parked ≤ s.queue.parked)
    (hboundary : ∀ b ∈ s'.queue.boundary, b ∈ s.queue.boundary)
    (hwait : ∀ b ∈ s'.queue.boundary, ∀ n ∈ s'.waiting, n ≤ b → n ∈ s.waiting) : Roomy maxsize s' := by
  refine ⟨hmax.trans hr.maxsize_eq, fun hpos => hsize.trans (hr.qsize_le hpos), fun b hb hpos => ?_⟩
  have hcard : (s'.waiting.filter (· ≤ b)).card ≤ (s.waiting.filter (· ≤ b)).card := by
    refine Finset.card_le_card fun n hn => ?_
    obtain ⟨hn, hle⟩ := Finset.mem_filter.mp hn
    exact Finset.mem_filter.mpr ⟨hwait b hb n hn hle, hle⟩
  rcases hr.reserved b (hboundary b hb) hpos with h0 | hle
  · exact .inl (by omega)
  · exact .inr (by omega)

theorem Roomy.put (h : Inv s) (hput : s.queue.putNowait item = .ok queue) :
    Roomy maxsize { s with
      queue := queue
      issued := max s.issued item.sequence
      waiting := s.waiting.erase item.sequence } := by
  obtain ⟨hlater, hroom, rfl⟩ := s.queue.putNowait_eq_ok_iff.mp hput
  rw [hr.maxsize_eq] at hlater hroom
  have hsize := s.queue.qsize_putRow item
  have hparked := s.queue.parked_putRow item
  refine ⟨hr.maxsize_eq, fun hpos => ?_, fun b hb hpos => ?_⟩
  · have := hroom hpos
    simp only [hsize]
    omega
  have hb' : s.queue.boundary = some b := hb
  have hwait : ((s.waiting.erase item.sequence).filter (· ≤ b)).card ≤
      (s.waiting.filter (· ≤ b)).card :=
    Finset.card_le_card (Finset.filter_subset_filter _ (Finset.erase_subset _ _))
  simp only [hparked]
  by_cases hlt : b < item.sequence
  · -- a later arrival was let in past the waiting producers
    have := hlater b hb' hlt hpos
    rw [h.waitingBefore_eq] at this
    have hle := s.queue.parked_le_qsize
    have : (s.queue.isLater item.sequence).toNat ≤ 1 := Bool.toNat_le _
    exact .inr (by omega)
  · have hnot : s.queue.isLater item.sequence = false := by
      simpa [SeasonEventQueue.isLater, hb'] using hlt
    rw [hnot]
    simp only [Bool.toNat_false, Nat.add_zero]
    exact (hr.reserved b hb hpos).imp_right fun hle => by omega

theorem Roomy.take (hget : s.queue.getNowait = .ok (item, queue)) : Roomy maxsize (s.take (item, queue)) := by
  obtain ⟨row, rows, hrows, -, rfl, rfl⟩ := SeasonEventQueue.getNowait_ok hget
  refine hr.mono rfl ?_ ?_ (fun _ hb => hb) (fun _ _ _ hn _ => hn)
  · simp only [System.take, SeasonEventQueue.qsize, hrows, length_cons]
    omega
  · simp only [System.take, SeasonEventQueue.parked, hrows]
    exact (sublist_cons_self _ _).countP_le

theorem Roomy.stepped {mintOf : ε → Option String} {s' : System ε} (h : Inv s)
    (hs : Stepped mintOf s s') : Roomy maxsize s' := by
  cases hs with
  | same => exact hr
  | admitted hn =>
    -- the new sequence is beyond the boundary
    refine hr.mono rfl le_rfl le_rfl (fun _ hb => hb) fun b hb m hm hle => ?_
    rcases Finset.mem_insert.mp hm with rfl | hm
    · have := (h.boundary_le b hb).1
      omega
    · exact hm
  | put hitem hput => exact hr.put h hput
  | taken hget => exact hr.take hget
  | done hn hdone =>
    obtain ⟨-, ⟨-, rfl⟩ | ⟨m, rest, -, rfl⟩⟩ := SeasonEventQueue.taskDone_ok hdone <;>
      exact hr.mono rfl le_rfl le_rfl (fun _ hb => hb) (fun _ _ _ hn _ => hn)
  | forgotten hn =>
    exact hr.mono rfl le_rfl le_rfl (fun _ hb => hb) fun _ _ _ hm _ => Finset.mem_of_mem_erase hm
  | promoted mint =>
    obtain ⟨hsize, hparked⟩ := s.queue.promoteMint_counts mintOf mint
    exact hr.mono rfl hsize.le hparked.le (fun _ hb => hb) fun _ _ _ hm _ => hm
  | @begun n hn hnone =>
    have hbegin : s.queue.beginBoundary n = { s.queue with
        boundary := some (s.queue.pendingSequences.sup id ⊔ n), queue := s.queue.unparked } := by
      simp only [SeasonEventQueue.beginBoundary, hnone]
    rw [hbegin]
    exact ⟨hr.maxsize_eq, fun hpos => s.queue.length_unparked.trans_le (hr.qsize_le hpos),
      fun _ _ _ => .inl s.queue.countP_unparked⟩
  | ended =>
    exact ⟨hr.maxsize_eq, fun hpos => s.queue.length_unparked.trans_le (hr.qsize_le hpos),
      fun _ hb => by cases hb⟩
  | discarded => exact ⟨hr.maxsize_eq, fun _ => Nat.zero_le _, fun _ hb => by cases hb⟩

/-- **One action keeps the room owed.** -/
theorem Roomy.step (h : Inv s) (mintOf : ε → Option String) (a : Action ε) :
    Roomy maxsize (s.step mintOf a) := hr.stepped h (step_stepped mintOf s a)

end

theorem Roomy.run (mintOf : ε → Option String) (maxsize : ℕ) (actions : List (Action ε)) :
    Roomy maxsize (run mintOf maxsize actions) := by
  refine (foldlRecOn actions (System.step mintOf)
    (motive := fun s => Inv s ∧ Roomy maxsize s) ⟨Inv.init maxsize, Roomy.init⟩ ?_).2
  exact fun s ⟨h, hr⟩ a _ => ⟨h.step mintOf a, hr.step h mintOf a⟩

/-- **Parked arrivals leave room for the old ones.** In a bounded queue with an active
boundary, either nothing is parked or the parked rows and the producers that wait in front of
the boundary fit together; so once nothing in front of the boundary is queued, each of these
producers can put its item, and the queue is never over its bound. -/
theorem capacity_reserved (mintOf : ε → Option String) (maxsize : ℕ) (actions : List (Action ε))
    (hpos : 0 < maxsize) (b : ℕ) (hb : b ∈ (run mintOf maxsize actions).queue.boundary) :
    ((run mintOf maxsize actions).queue.parked = 0 ∨
      (run mintOf maxsize actions).queue.parked +
        ((run mintOf maxsize actions).queue.waitingBefore b).card ≤ maxsize) ∧
    ((∀ n ∈ (run mintOf maxsize actions).queue.queuedSequences, b < n) →
      ∀ item : QueuedEvent ε,
        item.sequence ∈ (run mintOf maxsize actions).queue.waitingBefore b →
        ∃ queue, (run mintOf maxsize actions).queue.putNowait item = .ok queue) ∧
    (run mintOf maxsize actions).queue.qsize ≤ maxsize := by
  have h := Inv.run mintOf maxsize actions
  have hr := Roomy.run mintOf maxsize actions
  generalize run mintOf maxsize actions = s at h hr hb
  have hres := hr.reserved b hb hpos
  rw [← h.waitingBefore_eq] at hres
  refine ⟨hres, fun hclear item hitem => ⟨_, s.queue.putNowait_eq_ok_iff.mpr ⟨fun c hc hlt => ?_,
    fun _ => ?_, rfl⟩⟩, hr.qsize_le hpos⟩
  · have hb' : s.queue.boundary = some b := hb
    obtain rfl : b = c := by simpa [hb'] using hc
    have := (Finset.mem_filter.mp hitem).2.1
    omega
  · -- every row is parked, and the producer itself is one of those waiting
    have hall : s.queue.parked = s.queue.qsize := by
      refine countP_eq_length.mpr fun row hrow => ?_
      have hb' : s.queue.boundary = some b := hb
      rw [h.later_iff row hrow]
      simpa [SeasonEventQueue.isLater, hb'] using hclear _ (mem_map_of_mem hrow)
    have hone : 0 < (s.queue.waitingBefore b).card := Finset.card_pos.mpr ⟨_, hitem⟩
    rw [hr.maxsize_eq]
    omega

/-- The old event still finds its place. -/
theorem capacity_reserved_sample :
    ∃ queue, (run (fun _ : Unit => none) 3 [.admitSequence 1, .admitSequence 2, .beginBoundary 2,
      .put ⟨0, 3, ()⟩, .put ⟨0, 4, ()⟩]).queue.putNowait ⟨7, 2, ()⟩ = .ok queue :=
  (capacity_reserved (fun _ : Unit => none) 3 [.admitSequence 1, .admitSequence 2, .beginBoundary 2,
    .put ⟨0, 3, ()⟩, .put ⟨0, 4, ()⟩] (by decide) 2 (by decide)).2.1 (by decide) ⟨7, 2, ()⟩ (by decide)

/-- Producers that wait for capacity are not bounded by it: two of them wait in front of the
boundary of a queue of one. -/
theorem waiting_exceeds_maxsize :
    (run (fun _ : Unit => none) 1 [.admitSequence 1, .put ⟨0, 1, ()⟩, .admitSequence 2, .admitSequence 3,
      .beginBoundary 3]).queue.boundary = some 3 ∧
    1 < (run (fun _ : Unit => none) 1 [.admitSequence 1, .put ⟨0, 1, ()⟩, .admitSequence 2, .admitSequence 3,
        .beginBoundary 3]).queue.parked +
      ((run (fun _ : Unit => none) 1 [.admitSequence 1, .put ⟨0, 1, ()⟩, .admitSequence 2, .admitSequence 3,
        .beginBoundary 3]).queue.waitingBefore 3).card := by
  decide

end System

end SignalArcade.Queue
