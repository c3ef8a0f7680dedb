import SignalArcade.Market.EventLoop

/-!
# What the worker takes and completes
-/

namespace SignalArcade.Market

open Queue (SeasonEventQueue QueueError)
open EventLoop
open Checked
open Queue.SeasonEventQueue

/-! ### Taking items -/

/-- These items are at the front of the queue, and were dequeued. -/
structure Takes (queue : SeasonEventQueue MarketEvent) (items : List (Queue.QueuedEvent MarketEvent))
    (queue' : SeasonEventQueue MarketEvent) : Prop where
  front : queue.queue.map (·.toQueuedEvent) = items ++ queue'.queue.map (·.toQueuedEvent)
  dequeued : queue'.dequeuedSequences = queue.dequeuedSequences ++ items.map (·.sequence)
  unfinished : queue'.unfinishedTasks = queue.unfinishedTasks

variable {queue queue' queue'' : SeasonEventQueue MarketEvent} {item : Queue.QueuedEvent MarketEvent}
  {items : List (Queue.QueuedEvent MarketEvent)}

theorem Takes.nothing (queue : SeasonEventQueue MarketEvent) : Takes queue [] queue :=
  ⟨rfl, (List.append_nil _).symm, rfl⟩

theorem takes_getNowait (h : queue.getNowait = .ok (item, queue')) : Takes queue [item] queue' := by
  obtain ⟨row, rows, hrows, -, rfl, rfl⟩ := getNowait_ok h
  refine ⟨?_, rfl, rfl⟩
  rw [hrows]
  rfl

theorem Takes.cons (h : Takes queue [item] queue') (h' : Takes queue' items queue'') :
    Takes queue (item :: items) queue'' := by
  refine ⟨?_, ?_, h'.unfinished.trans h.unfinished⟩
  · rw [h.front, h'.front]
    rfl
  · rw [h'.dequeued, h.dequeued, List.append_assoc]
    rfl

theorem takeItems_spec {get : SeasonEventQueue MarketEvent →
      Except QueueError (Queue.QueuedEvent MarketEvent × SeasonEventQueue MarketEvent)}
    (hget : ∀ queue item queue', get queue = .ok (item, queue') → queue.getNowait = .ok (item, queue'))
    (n : ℕ) (queue : SeasonEventQueue MarketEvent) :
    Takes queue (takeItems get n queue).1 (takeItems get n queue).2 ∧ (takeItems get n queue).1.length ≤ n := by
  induction n generalizing queue with
  | zero => exact ⟨.nothing queue, le_rfl⟩
  | succ n ih =>
    unfold takeItems
    cases h : get queue with
    | error e => exact ⟨.nothing queue, Nat.zero_le _⟩
    | ok taken =>
      obtain ⟨item, queue'⟩ := taken
      obtain ⟨htakes, hlength⟩ := ih queue'
      exact ⟨(takes_getNowait (hget _ _ _ h)).cons htakes, Nat.succ_le_succ hlength⟩

theorem Takes.queuedSequences (h : Takes queue items queue') :
    queue.queuedSequences = items.map (·.sequence) ++ queue'.queuedSequences := by
  have hfront := congrArg (List.map (·.sequence)) h.front
  rw [List.map_append, List.map_map, List.map_map] at hfront
  exact hfront

theorem Takes.length (h : Takes queue items queue') : queue.queue.length = items.length + queue'.queue.length := by
  have hfront := congrArg List.length h.front
  simpa using hfront

/-! ### Completing a batch -/

/-- `task_done`, once for each item in flight. -/
theorem finishTasks_spec (n : ℕ) (queue : SeasonEventQueue MarketEvent) (hn : queue.dequeuedSequences.length = n)
    (hunfinished : n ≤ queue.unfinishedTasks) :
    ∃ queue', finishTasks n queue = .ok (queue.dequeuedSequences.map some, queue') ∧ queue'.queue = queue.queue ∧
      queue'.dequeuedSequences = [] ∧ queue'.unfinishedTasks = queue.unfinishedTasks - n := by
  induction n generalizing queue with
  | zero =>
    have hnil := List.length_eq_zero_iff.mp hn
    exact ⟨queue, by simp [finishTasks, hnil], rfl, hnil, rfl⟩
  | succ n ih =>
    obtain ⟨sequence, rest, hrest⟩ := List.exists_cons_of_length_eq_add_one hn
    have hdone : queue.taskDone = .ok { queue with
        unfinishedTasks := queue.unfinishedTasks - 1
        dequeuedSequences := rest
        pendingSequences := queue.pendingSequences.erase sequence } := by
      unfold taskDone
      rw [raiseIf_of_not (by omega)]
      simp only [hrest]
      rfl
    obtain ⟨queue', hfinish, hqueue, hdequeued, hcount⟩ := ih { queue with
        unfinishedTasks := queue.unfinishedTasks - 1
        dequeuedSequences := rest
        pendingSequences := queue.pendingSequences.erase sequence }
      (by simpa [hrest] using hn) (by dsimp only; omega)
    refine ⟨queue', ?_, hqueue, hdequeued, ?_⟩
    · unfold finishTasks
      rw [hdone]
      dsimp only [bind, Except.bind]
      rw [hfinish, hrest]
      rfl
    · rw [hcount]
      dsimp only
      omega

/-! ### The count -/

/-- The batch that the worker has. -/
def Phase.batch : Phase → List QueuedEvent
  | .idle | .stopped => []
  | .inFlight batch _ => batch

/-- The items that were taken are those that are completed and those of the batch, and no number is at two
places. -/
structure Tally (queue : SeasonEventQueue MarketEvent) (producers : List (Queue.QueuedEvent MarketEvent))
    (eventSequence : ℕ) (taken : List ℕ) (taskDones : List (Option ℕ)) (batch : List QueuedEvent) : Prop where
  nodup : (taken ++ (queue.queuedSequences ++ producers.map (·.sequence))).Nodup
  numbered : ∀ n ∈ taken ++ (queue.queuedSequences ++ producers.map (·.sequence)), n ≤ eventSequence
  completed : taken.map some = taskDones ++ queue.dequeuedSequences.map some
  dequeued : queue.dequeuedSequences = batch.map QueuedEvent.sequence
  unfinished : queue.unfinishedTasks = queue.queue.length + queue.dequeuedSequences.length

/-- The count of a state. -/
def EventLoop.Tallied (s : EventLoop) : Prop :=
  Tally s.queue s.producers s.eventSequence s.taken s.taskDones s.phase.batch

variable {producers producers' : List (Queue.QueuedEvent MarketEvent)} {eventSequence eventSequence' : ℕ}
  {taken : List ℕ} {taskDones : List (Option ℕ)} {batch : List QueuedEvent}

section

variable (h : Tally queue producers eventSequence taken taskDones batch)
include h

theorem Tally.congr (hplaces : (queue'.queuedSequences ++ producers'.map (·.sequence)).Subperm
      (queue.queuedSequences ++ producers.map (·.sequence)))
    (hdequeued : queue'.dequeuedSequences = queue.dequeuedSequences)
    (hunfinished : queue'.unfinishedTasks = queue'.queue.length + queue.dequeuedSequences.length)
    (hsequence : eventSequence ≤ eventSequence') : Tally queue' producers' eventSequence' taken taskDones batch := by
  have hsub := (List.subperm_append_left taken).mpr hplaces
  obtain ⟨l, hperm, hsublist⟩ := hsub
  refine ⟨?_, ?_, ?_, ?_, ?_⟩
  · exact hperm.nodup_iff.mp (h.nodup.sublist hsublist)
  · intro n hn
    exact (h.numbered n (hsublist.subset (hperm.mem_iff.mpr hn))).trans hsequence
  · rw [hdequeued]
    exact h.completed
  · rw [hdequeued]
    exact h.dequeued
  · rw [hdequeued]
    exact hunfinished

theorem Tally.admitsOne (hplaces : (queue'.queuedSequences ++ producers'.map (·.sequence)).Perm
      ((eventSequence + 1) :: (queue.queuedSequences ++ producers.map (·.sequence))))
    (hdequeued : queue'.dequeuedSequences = queue.dequeuedSequences)
    (hunfinished : queue'.unfinishedTasks = queue'.queue.length + queue.dequeuedSequences.length) :
    Tally queue' producers' (eventSequence + 1) taken taskDones batch := by
  have hperm := (hplaces.append_left taken).trans List.perm_middle
  refine ⟨?_, ?_, ?_, ?_, ?_⟩
  · rw [hperm.nodup_iff, List.nodup_cons]
    refine ⟨?_, h.nodup⟩
    intro hmem
    have := h.numbered _ hmem
    omega
  · intro n hn
    rcases List.mem_cons.mp (hperm.mem_iff.mp hn) with rfl | hn
    · exact le_rfl
    · exact (h.numbered n hn).trans (Nat.le_succ _)
  · rw [hdequeued]
    exact h.completed
  · rw [hdequeued]
    exact h.dequeued
  · rw [hdequeued]
    exact hunfinished

theorem Tally.take (htakes : Takes queue items queue') :
    Tally queue' producers eventSequence (taken ++ items.map (·.sequence)) taskDones
      (batch ++ items.map SignalArcade.Market.dequeued) := by
  have hplaces : taken ++ items.map (·.sequence) ++ (queue'.queuedSequences ++ producers.map (·.sequence)) =
      taken ++ (queue.queuedSequences ++ producers.map (·.sequence)) := by
    rw [htakes.queuedSequences, List.append_assoc, List.append_assoc]
  refine ⟨?_, ?_, ?_, ?_, ?_⟩
  · rw [hplaces]
    exact h.nodup
  · rw [hplaces]
    exact h.numbered
  · rw [List.map_append, h.completed, htakes.dequeued, List.map_append, List.append_assoc]
  · rw [htakes.dequeued, h.dequeued, List.map_append, List.map_map]
    rfl
  · rw [htakes.unfinished, h.unfinished, htakes.dequeued, htakes.length, List.length_append, List.length_map]
    omega

theorem Tally.finish :
    ∃ queue', finishTasks batch.length queue = .ok (queue.dequeuedSequences.map some, queue') ∧
      queue'.queue = queue.queue ∧
      Tally queue' producers eventSequence taken (taskDones ++ queue.dequeuedSequences.map some) [] := by
  have hlength : queue.dequeuedSequences.length = batch.length := by
    rw [h.dequeued, List.length_map]
  have hunfinished := h.unfinished
  obtain ⟨queue', hfinish, hqueue, hdequeued, hcount⟩ := finishTasks_spec batch.length queue hlength (by omega)
  have hsequences : queue'.queuedSequences = queue.queuedSequences := by
    unfold queuedSequences
    rw [hqueue]
  refine ⟨queue', hfinish, hqueue, ?_, ?_, ?_, ?_, ?_⟩
  · rw [hsequences]
    exact h.nodup
  · rw [hsequences]
    exact h.numbered
  · rw [hdequeued, h.completed, List.map_nil, List.append_nil]
  · exact hdequeued
  · rw [hdequeued, hqueue, hcount, List.length_nil]
    omega

end

/-! ### What the worker leaves alone -/

/-- The worker does something with its batch, and the queue and its producers are as they were. -/
structure Works (s s' : EventLoop) (batch : List QueuedEvent) : Prop where
  settings : s'.settings = s.settings
  queue : s'.queue = s.queue
  producers : s'.producers = s.producers
  eventSequence : s'.eventSequence = s.eventSequence
  taken : s'.taken = s.taken
  taskDones : s'.taskDones = s.taskDones
  batch : s'.phase.batch = batch

variable {s s' : EventLoop} {a : LoopAction} {world : World} {b : Batch} {q : QueuedEvent} {stage : Stage}

theorem Works.tallied (h : Works s s' batch)
    (hs : Tally s.queue s.producers s.eventSequence s.taken s.taskDones batch) : s'.Tallied := by
  unfold EventLoop.Tallied
  rw [h.queue, h.producers, h.eventSequence, h.taken, h.taskDones, h.batch]
  exact hs

theorem noteFailedMints_eq (s : EventLoop) (batch : List QueuedEvent) (failedAt : ℤ) :
    ∃ window, ∃ gaps : List Gap, s.noteFailedMints batch failedAt = { s with window, log := gaps.map .noted ++ s.log } ∧
      ∀ q ∈ batch, ∃ gap ∈ gaps, gap.mint = none ∨ gap.mint = q.event.mint := by
  have hfold (mints : List String) (s : EventLoop) : ∃ window, ∃ gaps : List Gap,
      mints.foldl (fun s mint => s.noteMintGap (some mint) failedAt) s =
        { s with window, log := gaps.map .noted ++ s.log } ∧
      ∀ mint ∈ mints, ∃ gap ∈ gaps, gap.mint = none ∨ gap.mint = some mint := by
    induction mints generalizing s with
    | nil => exact ⟨s.window, [], rfl, fun mint hmint => absurd hmint List.not_mem_nil⟩
    | cons mint mints ih =>
      obtain ⟨window, gaps, hlater, hgaps⟩ := ih (s.noteMintGap (some mint) failedAt)
      refine ⟨window, gaps ++ [s.window.gapFor (some mint) failedAt], ?_, ?_⟩
      · rw [List.foldl_cons, hlater, List.map_append, List.append_assoc]
        rfl
      · intro mint' hmint'
        rcases List.mem_cons.mp hmint' with rfl | hmint'
        · exact ⟨_, List.mem_append_right _ (List.mem_singleton_self _), gapFor_mint _ _ _⟩
        · obtain ⟨gap, hgap, hconcerns⟩ := hgaps mint' hmint'
          exact ⟨gap, List.mem_append_left _ hgap, hconcerns⟩
  unfold noteFailedMints
  dsimp only
  split
  · exact ⟨_, [⟨none, failedAt⟩], rfl, fun q _ => ⟨_, List.mem_singleton_self _, .inl rfl⟩⟩
  · next hidentified =>
    obtain ⟨window, gaps, heq, hgaps⟩ := hfold _ s
    refine ⟨window, gaps, heq, ?_⟩
    intro q hq
    have hmint : q.event.mint ∈ (batch.map fun q => q.event.mint).dedup :=
      List.mem_dedup.mpr (List.mem_map_of_mem hq)
    cases h : q.event.mint with
    | none => exact absurd (.inl (h ▸ hmint)) hidentified
    | some mint =>
      refine hgaps mint ((List.mem_insertionSort _).mpr (List.mem_filterMap.mpr ⟨some mint, ?_, rfl⟩))
      rwa [h] at hmint

theorem works_fail (s : EventLoop) (batch : List QueuedEvent) (stage : Stage) (failedAt : ℤ) :
    Works s (s.fail batch stage failedAt) batch := by
  obtain ⟨window, gaps, hnoted, -⟩ := noteFailedMints_eq s batch failedAt
  unfold fail
  rw [hnoted]
  exact ⟨rfl, rfl, rfl, rfl, rfl, rfl, rfl⟩

theorem works_persist {events : List MarketEvent} {next : EventLoop} (h : Works s next batch) (result : Persistence) :
    Works s (s.persist batch events stage next result) batch := by
  cases result with
  | returns => exact h
  | raises committed failedAt =>
    cases committed with
    | false => exact works_fail s batch stage failedAt
    | true =>
      have hfail := works_fail (s.commit events) batch stage failedAt
      exact ⟨hfail.settings, hfail.queue, hfail.producers, hfail.eventSequence, hfail.taken, hfail.taskDones, hfail.batch⟩
  | cancelled committed => cases committed <;> exact ⟨rfl, rfl, rfl, rfl, rfl, rfl, rfl⟩

theorem works_choose (s : EventLoop) (batch : List QueuedEvent) (world : World) (b : Batch) :
    Works s (s.choose batch world b) batch := by
  unfold choose
  split
  · exact ⟨rfl, rfl, rfl, rfl, rfl, rfl, rfl⟩
  · dsimp only
    split
    · unfold skip
      split_ifs <;> exact ⟨rfl, rfl, rfl, rfl, rfl, rfl, rfl⟩
    · split_ifs <;> exact ⟨rfl, rfl, rfl, rfl, rfl, rfl, rfl⟩
    · exact ⟨rfl, rfl, rfl, rfl, rfl, rfl, rfl⟩
    · split_ifs <;> exact ⟨rfl, rfl, rfl, rfl, rfl, rfl, rfl⟩

theorem works_prefetched (s : EventLoop) (batch : List QueuedEvent) (world laterWorld : World) (b : Batch)
    (urgent : List QueuedEvent) : Works s (s.prefetched batch world laterWorld b urgent) batch := by
  have h := works_choose (s.commit (b.urgentEvents world urgent)) batch laterWorld (s.memories.prefetch b world urgent).2
  exact ⟨h.settings, h.queue, h.producers, h.eventSequence, h.taken, h.taskDones, h.batch⟩

theorem works_appended (s : EventLoop) (batch : List QueuedEvent) (world : World) (b : Batch) (q : QueuedEvent) :
    Works s (s.appended batch world b q) batch := by
  unfold appended
  dsimp only
  split_ifs <;> exact ⟨rfl, rfl, rfl, rfl, rfl, rfl, rfl⟩

theorem works_begin (s : EventLoop) (batch : List QueuedEvent) (world : World) : Works s (s.begin batch world) batch := by
  unfold begin
  dsimp only
  split_ifs <;> exact ⟨rfl, rfl, rfl, rfl, rfl, rfl, rfl⟩

theorem urgentItems_spec (s : EventLoop) (world : World) (b : Batch) :
    Takes s.queue (s.urgentItems world b).1 (s.urgentItems world b).2 ∧
      (s.urgentItems world b).1.length ≤ b.urgentRoom s.settings world :=
  takeItems_spec (fun _ _ _ hget => getNowaitBefore_ok hget) (b.urgentRoom s.settings world) s.queue

theorem works_prefetch (s : EventLoop) (batch : List QueuedEvent) (world : World) (b : Batch) :
    Works (s.take (s.urgentItems world b).1 (s.urgentItems world b).2) (s.prefetch batch world b)
      (batch ++ (s.urgentItems world b).1.map SignalArcade.Market.dequeued) := by
  unfold prefetch
  dsimp only
  split_ifs
  · exact works_prefetched ..
  · exact ⟨rfl, rfl, rfl, rfl, rfl, rfl, rfl⟩

/-! ### Every step -/

theorem tallied_enqueueEvent (hs : s.Tallied) (world : World) (ignored : Bool) (event : MarketEvent) :
    (s.enqueueEvent world ignored event).Tallied := by
  unfold enqueueEvent
  split_ifs
  · exact hs
  · dsimp only
    split
    · next queue hput =>
      obtain ⟨-, -, rfl⟩ := (putNowait_eq_ok_iff _).mp hput
      have hrow := queuedSequences_putRow (s.queue.admitSequence (s.eventSequence + 1))
        ⟨world.eventPriority event, s.eventSequence + 1, event⟩
      refine Tally.admitsOne hs (hrow.append_right _) rfl ?_
      have hlength := qsize_putRow (s.queue.admitSequence (s.eventSequence + 1))
        ⟨world.eventPriority event, s.eventSequence + 1, event⟩
      have hunfinished := hs.unfinished
      unfold qsize at hlength
      rw [hlength]
      simp only [putRow, admitSequence]
      omega
    · split_ifs
      · exact Tally.admitsOne hs List.perm_middle rfl hs.unfinished
      · exact Tally.congr hs (List.Subperm.refl _) rfl hs.unfinished (Nat.le_succ _)

theorem tallied_put (hs : s.Tallied) (sequence : ℕ) : (s.put sequence).Tallied := by
  unfold put
  split
  · exact hs
  · next queued hfind =>
    split
    · next queue hput =>
      obtain ⟨-, -, rfl⟩ := (putNowait_eq_ok_iff _).mp hput
      have hrow := queuedSequences_putRow s.queue queued
      have hproducers := (List.perm_cons_erase (List.mem_of_find?_eq_some hfind)).map (·.sequence)
      refine Tally.congr hs (List.Perm.subperm ?_) rfl ?_ le_rfl
      · exact (hrow.append_right _).trans (List.perm_middle.symm.trans (hproducers.symm.append_left _))
      · have hlength := qsize_putRow s.queue queued
        have hunfinished := hs.unfinished
        unfold qsize at hlength
        rw [hlength]
        simp only [putRow]
        omega
    · exact hs

theorem tallied_cancelProducer (hs : s.Tallied) (sequence : ℕ) : (s.cancelProducer sequence).Tallied := by
  unfold cancelProducer
  split
  · exact hs
  · next queued _ =>
    have hproducers : (s.producers.erase queued).Sublist s.producers := List.erase_sublist
    have hsub := (hproducers.map (·.sequence)).append_left s.queue.queuedSequences
    exact Tally.congr hs hsub.subperm rfl hs.unfinished le_rfl

theorem tallied_finish (cancelled : Bool)
    (hs : Tally s.queue s.producers s.eventSequence s.taken s.taskDones batch) : (s.finish batch cancelled).Tallied := by
  obtain ⟨queue', hfinish, -, htally⟩ := hs.finish
  unfold finish
  rw [hfinish]
  cases cancelled <;> exact htally

theorem tallied_queue {queue : SeasonEventQueue MarketEvent} (hs : s.Tallied)
    (hqueued : queue.queuedSequences.Perm s.queue.queuedSequences)
    (hdequeued : queue.dequeuedSequences = s.queue.dequeuedSequences)
    (hunfinished : queue.unfinishedTasks = s.queue.unfinishedTasks) : { s with queue }.Tallied := by
  refine Tally.congr hs (hqueued.append_right _).subperm hdequeued ?_ le_rfl
  have hlength := hqueued.length_eq
  unfold queuedSequences at hlength
  rw [List.length_map, List.length_map] at hlength
  rw [hunfinished, hs.unfinished, hlength]

/-- **What was taken is completed, in that order, or in flight**: every step keeps the count. -/
theorem tallied_step (hs : s.Tallied) : (s.step a).Tallied := by
  unfold step
  split
  next => exact tallied_enqueueEvent hs _ _ _
  next => exact tallied_put hs _
  next => exact tallied_cancelProducer hs _
  next hphase =>
    split
    · exact hs
    · next item queue hget =>
      unfold EventLoop.Tallied at hs
      rw [hphase] at hs
      exact hs.take (takes_getNowait hget)
  next batch world hphase =>
    unfold EventLoop.Tallied at hs
    rw [hphase] at hs
    exact (works_begin _ _ _).tallied (hs.take (takeItems_spec (fun _ _ _ hget => hget) _ s.queue).1)
  next result batch world hphase =>
    unfold EventLoop.Tallied at hs
    rw [hphase] at hs
    have hworks : Works s (s.persisted batch world) batch := ⟨rfl, rfl, rfl, rfl, rfl, rfl, rfl⟩
    exact (works_persist hworks result).tallied hs
  next world revised batch b hphase =>
    unfold EventLoop.Tallied at hs
    rw [hphase] at hs
    exact (works_prefetch s batch world _).tallied (hs.take (urgentItems_spec s world _).1)
  next laterWorld result batch world b urgent hphase =>
    unfold EventLoop.Tallied at hs
    rw [hphase] at hs
    exact (works_persist (works_prefetched s batch world laterWorld b urgent) result).tallied hs
  next world result batch b q hphase =>
    unfold EventLoop.Tallied at hs
    rw [hphase] at hs
    exact (works_persist (works_appended s batch world b q) result).tallied hs
  next hphase =>
    unfold EventLoop.Tallied at hs
    rw [hphase] at hs
    exact hs
  next hphase =>
    unfold EventLoop.Tallied at hs
    rw [hphase] at hs
    exact (works_fail ..).tallied hs
  next hphase =>
    unfold EventLoop.Tallied at hs
    rw [hphase] at hs
    exact tallied_finish _ hs
  next hphase =>
    unfold EventLoop.Tallied at hs
    rw [hphase] at hs
    exact hs
  iterate 4
    next hphase =>
      unfold EventLoop.Tallied at hs
      rw [hphase] at hs
      exact hs
  next =>
    exact tallied_queue hs (queuedSequences_promoteMint ..) rfl rfl
  next =>
    unfold beginBoundary
    split
    · exact hs
    · exact tallied_queue hs (map_sequence_unparked _) rfl rfl
  next => exact tallied_queue hs (map_sequence_unparked _) rfl rfl
  next => exact hs
  next => exact hs
  next => exact hs
  next => exact hs

/-! ### The length of a batch -/

/-- How many urgent arrivals a batch has. -/
def Stage.arrivals (settings : WorkerSettings) : Stage → ℕ
  | .filling | .persisting _ => 0
  | .looping b | .appending b _ | .handling b => b.urgentArrivals
  | .prefetching _ b urgent => b.urgentArrivals + urgent.length
  | .closing _ => settings.eventBatchSize

/-- The batch in flight has no more than a full batch and its urgent arrivals, and no more of those than a full
batch. -/
def Phase.Within (settings : WorkerSettings) : Phase → Prop
  | .idle | .stopped => True
  | .inFlight batch stage =>
    batch.length ≤ settings.eventBatchSize + stage.arrivals settings ∧ stage.arrivals settings ≤ settings.eventBatchSize

theorem Phase.Within.length_le {settings : WorkerSettings} {phase : Phase} (h : phase.Within settings) :
    phase.batch.length ≤ 2 * settings.eventBatchSize := by
  cases phase with
  | idle | stopped => exact Nat.zero_le _
  | inFlight batch stage =>
    have hbatch := h.1
    have harrivals := h.2
    dsimp only [Phase.batch]
    omega

variable {settings : WorkerSettings}

theorem within_closing {cancelled : Bool} (h : (Phase.inFlight batch stage).Within settings) :
    (Phase.inFlight batch (.closing cancelled)).Within settings := by
  have hbatch := h.1
  have harrivals := h.2
  exact ⟨by dsimp only [Stage.arrivals]; omega, le_rfl⟩

theorem urgentRoom_le (settings : WorkerSettings) (b : Batch) (world : World) :
    b.urgentRoom settings world + b.urgentArrivals ≤ settings.eventBatchSize ∨ b.urgentRoom settings world = 0 := by
  unfold Batch.urgentRoom
  split
  · next h =>
    have hroom : b.urgentArrivals < settings.eventBatchSize := by
      simp only [Bool.and_eq_true, decide_eq_true_eq] at h
      exact h.2
    left
    omega
  · exact .inr rfl

theorem next_spec {b' : Batch} (h : b.next world = some (q, b')) :
    (b.remaining ++ b.urgentBuffer).Perm (q :: (b'.remaining ++ b'.urgentBuffer)) ∧
      b' = { b with remaining := b'.remaining, urgentBuffer := b'.urgentBuffer } := by
  unfold Batch.next at h
  split at h
  · cases h
  · next hremaining hbuffer =>
    cases h
    rw [hremaining, hbuffer]
    exact ⟨List.Perm.refl _, rfl⟩
  · next hremaining hbuffer =>
    cases h
    rw [hremaining, hbuffer]
    exact ⟨List.Perm.refl _, rfl⟩
  · next hbuffer hremaining =>
    split_ifs at h
    · cases h
      rw [hbuffer]
      exact ⟨List.perm_middle, rfl⟩
    · cases h
      rw [hremaining]
      exact ⟨List.Perm.refl _, rfl⟩

theorem next_none (h : b.next world = none) : b.remaining ++ b.urgentBuffer = [] := by
  unfold Batch.next at h
  split at h
  · next hbuffer hremaining => rw [hremaining, hbuffer]; rfl
  · cases h
  · cases h
  · split_ifs at h

theorem within_fail (s : EventLoop) {failedAt : ℤ} (h : (Phase.inFlight batch stage).Within s.settings) :
    (s.fail batch stage failedAt).phase.Within s.settings := within_closing h

theorem within_persist {events : List MarketEvent} {next : EventLoop} (hnext : next.phase.Within s.settings)
    (h : (Phase.inFlight batch stage).Within s.settings) (result : Persistence) :
    (s.persist batch events stage next result).phase.Within s.settings := by
  cases result with
  | returns => exact hnext
  | raises committed failedAt => exact within_closing h
  | cancelled committed => exact within_closing h

theorem within_choose (s : EventLoop) (world : World) (h : (Phase.inFlight batch (.looping b)).Within s.settings) :
    (s.choose batch world b).phase.Within s.settings := by
  unfold choose
  split
  · exact within_closing h
  · next q b' hnext =>
    have harrivals : b'.urgentArrivals = b.urgentArrivals := by
      rw [(next_spec hnext).2]
    have hb' : (Phase.inFlight batch (.looping b')).Within s.settings := by
      dsimp only [Phase.Within, Stage.arrivals] at h ⊢
      rwa [harrivals]
    dsimp only
    split
    · exact hb'
    · split_ifs <;> exact hb'
    · exact hb'
    · split_ifs <;> exact hb'

theorem within_prefetched (s : EventLoop) (world laterWorld : World) {urgent : List QueuedEvent}
    (h : (Phase.inFlight batch (.prefetching world b urgent)).Within s.settings) :
    (s.prefetched batch world laterWorld b urgent).phase.Within s.settings :=
  within_choose (s.commit (b.urgentEvents world urgent)) laterWorld h

theorem within_prefetch (s : EventLoop) (world : World) (h : (Phase.inFlight batch (.looping b)).Within s.settings) :
    (s.prefetch batch world b).phase.Within s.settings := by
  obtain ⟨-, hroom⟩ := urgentItems_spec s world b
  have hbatch : (Phase.inFlight (batch ++ (s.urgentItems world b).1.map SignalArcade.Market.dequeued)
      (.prefetching world b ((s.urgentItems world b).1.map SignalArcade.Market.dequeued))).Within s.settings := by
    have hle := urgentRoom_le s.settings b world
    have hlength := h.1
    have harrivals := h.2
    dsimp only [Phase.Within, Stage.arrivals] at hlength harrivals ⊢
    rw [List.length_append, List.length_map]
    omega
  unfold prefetch
  dsimp only
  split_ifs
  · exact within_prefetched (s.take (s.urgentItems world b).1 (s.urgentItems world b).2) world world hbatch
  · exact hbatch

theorem within_begin (s : EventLoop) (world : World) (h : batch.length ≤ s.settings.eventBatchSize) :
    (s.begin batch world).phase.Within s.settings := by
  unfold begin
  dsimp only
  split_ifs <;> exact ⟨h, Nat.zero_le _⟩

theorem settings_step (s : EventLoop) (a : LoopAction) : (s.step a).settings = s.settings := by
  unfold step
  split
  next world ignored event =>
    unfold enqueueEvent
    split_ifs
    · rfl
    · dsimp only
      split
      · rfl
      · split_ifs <;> rfl
  next =>
    unfold put
    split
    · rfl
    · split <;> rfl
  next =>
    unfold cancelProducer
    split <;> rfl
  next => split <;> rfl
  next => exact (works_begin ..).settings
  next result batch world _ =>
    have hworks : Works s (s.persisted batch world) batch := ⟨rfl, rfl, rfl, rfl, rfl, rfl, rfl⟩
    exact (works_persist hworks result).settings
  next => exact (works_prefetch ..).settings
  next => exact (works_persist (works_prefetched ..) _).settings
  next => exact (works_persist (works_appended ..) _).settings
  next => rfl
  next => exact (works_fail ..).settings
  next =>
    unfold finish
    split <;> rfl
  all_goals rfl

/-- **A batch in flight is no longer than two batches.** -/
theorem within_step (hs : s.phase.Within s.settings) (hsize : 1 ≤ s.settings.eventBatchSize) :
    (s.step a).phase.Within s.settings := by
  unfold step
  split
  next world ignored event =>
    unfold enqueueEvent
    split_ifs
    · exact hs
    · dsimp only
      split
      · exact hs
      · split_ifs <;> exact hs
  next =>
    unfold put
    split
    · exact hs
    · split <;> exact hs
  next =>
    unfold cancelProducer
    split <;> exact hs
  next hphase =>
    split
    · exact hs
    · exact ⟨hsize, Nat.zero_le _⟩
  next world batch hphase =>
    rw [hphase] at hs
    have hlength : (takeItems (·.getNowait) (s.settings.eventBatchSize - batch.length) s.queue).1.length ≤
        s.settings.eventBatchSize - batch.length := (takeItems_spec (fun _ _ _ hget => hget) _ s.queue).2
    have hbatch := hs.1
    refine within_begin _ _ ?_
    rw [List.length_append, List.length_map]
    dsimp only [Stage.arrivals] at hbatch
    dsimp only [take]
    omega
  next result batch world hphase =>
    rw [hphase] at hs
    have hnext : (s.persisted batch world).phase.Within s.settings := hs
    exact within_persist hnext hs result
  next batch b hphase =>
    rw [hphase] at hs
    exact within_prefetch s _ (by split_ifs <;> exact hs)
  next hphase =>
    rw [hphase] at hs
    exact within_persist (within_prefetched s _ _ hs) hs _
  next batch b q hphase =>
    rw [hphase] at hs
    refine within_persist ?_ hs _
    unfold appended
    dsimp only
    split_ifs <;> exact hs
  next hphase =>
    rw [hphase] at hs
    exact hs
  next hphase =>
    rw [hphase] at hs
    exact within_fail s hs
  next batch cancelled hphase =>
    unfold finish
    split
    · trivial
    · cases cancelled <;> trivial
  next => trivial
  iterate 4
    next hphase =>
      rw [hphase] at hs
      exact within_closing hs
  all_goals exact hs

end SignalArcade.Market
