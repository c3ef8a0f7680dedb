import SignalArcade.Diagnostics.DiagnosticsWriter
import Mathlib.Algebra.GroupWithZero.Nat

/-!
# Every accepted message is accounted for

A message that was accepted is in the queue, in the hand of a thread, or has its fate. `Moved` says what a step does to
the three: it accepts a message, it ends one, or it moves them about. When the thread has finished nothing is in the queue
or in a hand, since nothing is accepted any more once the flag is set, and the flag is set under the lock.
-/

namespace SignalArcade.Diagnostics

open Runs List

/-! ### Where messages are -/

def queued : Option (Option Message) → List Message
  | some (some message) => [message]
  | _ => []

def Place.held : Place → List Message
  | .waiting message => [message]
  | .asking message => [message]
  | .admitted message => [message]
  | .appending message => [message]
  | .checking message => [message]
  | .closing (some message) => [message]
  | .discarding message => [message]
  | _ => []

def owned : Option Owner → List Message
  | some (.dropping message) => [message]
  | _ => []

/-- The call has set the flag. -/
def Owner.stopped : Owner → Bool
  | .emptying => true
  | .dropping _ => true
  | .waking => true
  | _ => false

/-- The thread has set the flag. -/
def Place.late : Place → Bool
  | .draining => true
  | .discarding _ => true
  | .finished => true
  | _ => false

/-- The thread has emptied the queue. -/
def Place.over : Place → Bool
  | .discarding _ => true
  | .finished => true
  | _ => false

/-- The thread ends, and has the lock for it. -/
def Place.ending : Place → Bool
  | .silencing => true
  | .draining => true
  | .discarding _ => true
  | _ => false

namespace Writer

variable {w w' : Writer} {message : Message} {weather : Weather} {a : Action} {actions : List Action}

/-- The messages that are accepted and not ended. -/
def held (w : Writer) : List Message := queued w.messages ++ w.place.held ++ owned w.lock

/-- The messages of a fate. -/
def ended (w : Writer) (fate : Fate) : List Message := (w.fates.filter fun entry => entry.2 = fate).map Prod.fst

/-- The counters after a message has ended. -/
def Counted (w w' : Writer) (message : Message) : Fate → Prop
  | .saved => w'.rejected = w.rejected ∧ w'.uncertain = w.uncertain ∧ w'.lostEvents = w.lostEvents
  | .rejected => w'.rejected = capped (w.rejected + 1) ∧ w'.uncertain = w.uncertain ∧
      w'.lostEvents = fun category => capped (w.lostEvents category + eventCounts message.raw category)
  | .uncertain => w'.rejected = w.rejected ∧ w'.uncertain = capped (w.uncertain + 1) ∧ w'.lostEvents = w.lostEvents

/-- What is noted of the messages. -/
def books (w : Writer) := (w.accepted, w.fates, w.rejected, w.uncertain, w.lostEvents)

/-- What a step does to the messages. -/
inductive Moved (w w' : Writer) : Prop where
  /-- Messages go from hand to hand. -/
  | passes (held : ∀ m, w'.held.count m = w.held.count m) (books : w'.books = w.books)
  /-- A message is accepted. -/
  | accepts (raw : Raw) (hlock : w.lock = some (.putting raw))
      (held : ∀ m, w'.held.count m = w.held.count m + [(⟨w.accepted.length, raw⟩ : Message)].count m)
      (accepted : w'.accepted = w.accepted ++ [⟨w.accepted.length, raw⟩]) (fates : w'.fates = w.fates)
      (rejected : w'.rejected = w.rejected) (uncertain : w'.uncertain = w.uncertain) (lost : w'.lostEvents = w.lostEvents)
  /-- A message ends. -/
  | ends (message : Message) (fate : Fate) (held : ∀ m, w.held.count m = w'.held.count m + [message].count m)
      (accepted : w'.accepted = w.accepted) (fates : w'.fates = w.fates ++ [(message, fate)])
      (counted : Counted w w' message fate)

theorem books_eq (h : w'.books = w.books) : w'.accepted = w.accepted ∧ w'.fates = w.fates ∧ w'.rejected = w.rejected ∧
    w'.uncertain = w.uncertain ∧ w'.lostEvents = w.lostEvents := by
  simpa only [books, Prod.mk.injEq] using h

theorem moved_call (w : Writer) : Moved w w.call := by
  unfold call
  split
  · rename_i hlock
    split_ifs <;> exact .passes (by simp [held, owned, hlock]) rfl
  · rename_i raw hlock
    split
    · rename_i hmessages
      refine .accepts raw hlock (fun m => ?_) rfl rfl rfl rfl rfl
      simp [held, owned, queued, hmessages, hlock, count_cons]
    · exact .passes (by simp [held, owned, hlock]) rfl
  · rename_i hlock
    exact .passes (by simp [held, owned, hlock]) rfl
  · rename_i hlock
    split
    · rename_i message hmessages
      refine .passes (fun m => ?_) rfl
      simp [held, owned, queued, hlock, hmessages, count_cons]
    · rename_i hmessages
      refine .passes (fun m => ?_) rfl
      simp [held, owned, hlock, queued]
  · rename_i message hlock
    refine .ends message .rejected (fun m => ?_) rfl rfl ⟨rfl, rfl, rfl⟩
    simp [held, owned, hlock, reject, Nat.add_assoc]
  · rename_i hlock
    refine .passes (fun m => ?_) rfl
    rcases hm : w.messages with - | - | message <;> simp [held, owned, queued, hlock, hm]
  · exact .passes (fun _ => rfl) rfl

theorem moved_attempt (h : w.place = .appending message) : Moved w (w.attempt weather message) := by
  unfold attempt
  split
  · split_ifs
    · exact .passes (by simp [held, Place.held, h]) rfl
    · dsimp only
      split
      · exact .passes (by simp [held, Place.held, h]) rfl
      · exact .passes (by simp [held, Place.held, h]) rfl
      · refine .ends message .saved (fun m => ?_) rfl rfl ⟨rfl, rfl, rfl⟩
        simp [held, Place.held, h, save, count_cons]
        omega
      · refine .ends message .rejected (fun m => ?_) rfl rfl ⟨rfl, rfl, rfl⟩
        simp [held, Place.held, h, reject, count_cons]
        omega
  · exact .passes (by simp [held, Place.held, h]) rfl

theorem moved_check (h : w.place = .checking message) :
    Moved w { w.check weather message with place := .reporting } := by
  have hheld : ∀ m, w.held.count m = (queued w.messages ++ owned w.lock).count m + [message].count m := fun m => by
    simp [held, Place.held, h, count_cons]
    omega
  unfold check
  split
  · exact .ends message .rejected (by simpa [held, Place.held, reject] using hheld) rfl rfl ⟨rfl, rfl, rfl⟩
  · split_ifs
    · exact .ends message .uncertain (by simpa [held, Place.held, doubt] using hheld) rfl rfl ⟨rfl, rfl, rfl⟩
    · exact .ends message .rejected (by simpa [held, Place.held, reject] using hheld) rfl rfl ⟨rfl, rfl, rfl⟩
  · split
    · exact .ends message .uncertain (by simpa [held, Place.held, doubt] using hheld) rfl rfl ⟨rfl, rfl, rfl⟩
    · exact .ends message .saved (by simpa [held, Place.held, save] using hheld) rfl rfl ⟨rfl, rfl, rfl⟩
    · exact .ends message .rejected (by simpa [held, Place.held, reject] using hheld) rfl rfl ⟨rfl, rfl, rfl⟩

/-! ### The lock and the flag -/

/-- How the lock, the flag and the queue agree with where the threads are. -/
structure Fenced (w : Writer) : Prop where
  owner : w.place.ending = true ↔ w.lock = some .writer
  /-- A call puts its message into the queue under the lock, and before the flag is set. -/
  putting : ∀ raw, w.lock = some (.putting raw) → w.stopping = false
  stopped : ∀ owner ∈ w.lock, owner.stopped → w.stopping = true
  late : w.place.late = true → w.stopping = true
  empty : w.place.over = true → queued w.messages = [] ∧ owned w.lock = []

theorem late_of_over {place : Place} (h : place.over = true) : place.late = true := by
  cases place <;> simp [Place.over, Place.late] at h ⊢

/-- The thread goes on, and leaves the lock and the flag alone. -/
theorem Fenced.goes (hf : w.Fenced) (hending : w.place.ending = false) (hlock : w'.lock = w.lock)
    (hstopping : w'.stopping = w.stopping) (hending' : w'.place.ending = false) (hlate : w'.place.late = false) :
    w'.Fenced := by
  have hover : w'.place.over = false := by
    cases hover : w'.place.over with
    | false => rfl
    | true => exact absurd (late_of_over hover) (by simp [hlate])
  have howner : w.lock ≠ some .writer := by simpa [hending] using hf.owner
  refine ⟨by simpa [hending', hlock] using howner, ?_, ?_, by simp [hlate], by simp [hover]⟩
  · rw [hlock, hstopping]
    exact hf.putting
  · rw [hlock, hstopping]
    exact hf.stopped

theorem fenced_new (store : DiagnosticsStore) : ({ store } : Writer).Fenced :=
  ⟨by simp [Place.ending], by simp, by simp, by simp [Place.late], by simp [Place.over]⟩

theorem Fenced.call (hf : w.Fenced) : w.call.Fenced := by
  obtain ⟨howner, hputting, hstopped, hlate, hempty⟩ := hf
  unfold Writer.call
  split
  · rename_i raw hlock
    have hplace : w.place.ending = false := by simpa [hlock] using howner
    split_ifs with hrefused
    · exact ⟨by simp [hplace], by simp, by simp, hlate, fun h => ⟨(hempty h).1, rfl⟩⟩
    · refine ⟨by simp [hplace], fun _ _ => ?_, by simp [Owner.stopped], hlate, fun h => ⟨(hempty h).1, rfl⟩⟩
      simpa using fun hs => hrefused (.inr (.inr hs))
  · rename_i raw hlock
    have hplace : w.place.ending = false := by simpa [hlock] using howner
    have hover : w.place.over = false := by
      cases hover : w.place.over with
      | false => rfl
      | true => exact absurd (hlate (late_of_over hover)) (by simp [hputting raw hlock])
    split
    · exact ⟨by simp [hplace], by simp, by simp, hlate, by simp [hover]⟩
    · exact ⟨by simp [hplace], by simp, by simp, hlate, by simp [hover]⟩
  · rename_i hlock
    have hplace : w.place.ending = false := by simpa [hlock] using howner
    exact ⟨by simp [hplace], by simp, fun _ _ _ => rfl, fun _ => rfl, fun h => ⟨(hempty h).1, rfl⟩⟩
  · rename_i hlock
    have hplace : w.place.ending = false := by simpa [hlock] using howner
    have hstopping : w.stopping = true := hstopped .emptying (by simp [hlock]) rfl
    split
    · rename_i message hmessages
      refine ⟨by simp [hplace], by simp, fun _ _ _ => hstopping, hlate, fun h => ?_⟩
      simp [queued, hmessages] at hempty
      exact absurd h (by simp [hempty])
    · exact ⟨by simp [hplace], by simp, fun _ _ _ => hstopping, hlate, fun _ => ⟨rfl, rfl⟩⟩
  · rename_i message hlock
    have hplace : w.place.ending = false := by simpa [hlock] using howner
    have hstopping : w.stopping = true := hstopped (.dropping message) (by simp [hlock]) rfl
    exact ⟨by simpa [reject] using hplace, by simp, fun _ _ _ => hstopping, hlate, fun h => ⟨(hempty h).1, rfl⟩⟩
  · rename_i hlock
    have hplace : w.place.ending = false := by simpa [hlock] using howner
    refine ⟨by simp [hplace], by simp, by simp, hlate, fun h => ⟨?_, rfl⟩⟩
    have hqueued := (hempty h).1
    rcases hmessages : w.messages with - | - | message <;> simp_all [queued]
  · exact ⟨howner, hputting, hstopped, hlate, hempty⟩

theorem attempt_fence (w : Writer) (weather : Weather) (message : Message) :
    (w.attempt weather message).lock = w.lock ∧ (w.attempt weather message).stopping = w.stopping ∧
      (w.attempt weather message).place.ending = false ∧ (w.attempt weather message).place.late = false := by
  unfold attempt
  split
  · split_ifs
    · exact ⟨rfl, rfl, rfl, rfl⟩
    · dsimp only
      split <;> exact ⟨rfl, rfl, rfl, rfl⟩
  · exact ⟨rfl, rfl, rfl, rfl⟩

theorem check_frame (w : Writer) (weather : Weather) (message : Message) :
    (w.check weather message).lock = w.lock ∧ (w.check weather message).stopping = w.stopping ∧
      (w.check weather message).store = w.store ∧ (w.check weather message).stored = w.stored := by
  unfold check
  split
  · exact ⟨rfl, rfl, rfl, rfl⟩
  · split_ifs <;> exact ⟨rfl, rfl, rfl, rfl⟩
  · split <;> exact ⟨rfl, rfl, rfl, rfl⟩

theorem Fenced.work (hf : w.Fenced) (weather : Weather) : (w.work weather).Fenced := by
  cases hplace : w.place with
  | unstarted => simpa only [Writer.work, hplace] using hf
  | starting =>
    simp only [Writer.work, hplace]
    split_ifs <;> exact hf.goes (by simp [hplace, Place.ending]) rfl rfl rfl rfl
  | looping =>
    simp only [Writer.work, hplace]
    cases hstopping : w.stopping <;> exact hf.goes (by simp [hplace, Place.ending]) rfl hstopping.symm rfl rfl
  | getting =>
    simp only [Writer.work, hplace]
    rcases hmessages : w.messages with - | - | message <;> dsimp only
    · exact hf
    · exact hf.goes (by simp [hplace, Place.ending]) rfl rfl rfl rfl
    · exact hf.goes (by simp [hplace, Place.ending]) rfl rfl rfl rfl
  | waiting message =>
    simp only [Writer.work, hplace]
    cases hstopping : w.stopping <;> exact hf.goes (by simp [hplace, Place.ending]) rfl hstopping.symm rfl rfl
  | asking message =>
    simp only [Writer.work, hplace]
    cases weather.canWrite <;> split_ifs <;> exact hf.goes (by simp [hplace, Place.ending]) rfl rfl rfl rfl
  | admitted message =>
    simp only [Writer.work, hplace]
    cases hstopping : w.stopping <;> exact hf.goes (by simp [hplace, Place.ending]) rfl hstopping.symm rfl rfl
  | appending message =>
    simp only [Writer.work, hplace]
    obtain ⟨hlock, hstopping, hending, hlate⟩ := attempt_fence w weather message
    exact hf.goes (by simp [hplace, Place.ending]) hlock hstopping hending hlate
  | refreshing =>
    simp only [Writer.work, hplace]
    split_ifs <;> exact hf.goes (by simp [hplace, Place.ending]) rfl rfl rfl rfl
  | checking message =>
    simp only [Writer.work, hplace]
    obtain ⟨hlock, hstopping, -⟩ := check_frame w weather message
    exact hf.goes (by simp [hplace, Place.ending]) hlock hstopping rfl rfl
  | reporting =>
    simp only [Writer.work, hplace]
    split_ifs <;> exact hf.goes (by simp [hplace, Place.ending]) rfl rfl rfl rfl
  | closing message =>
    cases message <;> simp only [Writer.work, hplace] <;> exact hf.goes (by simp [hplace, Place.ending]) rfl rfl rfl rfl
  | cleaning =>
    simp only [Writer.work, hplace]
    split_ifs with hlock
    · exact ⟨by simp [Place.ending], by simp, by simp [Owner.stopped], by simp [Place.late], by simp [Place.over]⟩
    · exact hf
  | silencing =>
    have hlock : w.lock = some .writer := hf.owner.mp (by rw [hplace]; rfl)
    simp only [Writer.work, hplace]
    exact ⟨by simp [Place.ending, hlock], by simp [hlock], by simp, by simp, by simp [Place.over]⟩
  | draining =>
    have hlock : w.lock = some .writer := hf.owner.mp (by rw [hplace]; rfl)
    have hstopping : w.stopping = true := hf.late (by rw [hplace]; rfl)
    simp only [Writer.work, hplace]
    rcases hmessages : w.messages with - | - | message <;> dsimp only
    · exact ⟨by simp [Place.ending], by simp, by simp, by simp [hstopping], by simp [queued, owned]⟩
    · exact ⟨by simp [Place.ending], by simp, by simp, by simp [hstopping], by simp [queued, owned]⟩
    · exact ⟨by simp [Place.ending, hlock], by simp [hlock], by simp [hstopping], by simp [hstopping], by simp [queued, owned, hlock]⟩
  | discarding message =>
    have hstopping : w.stopping = true := hf.late (by rw [hplace]; rfl)
    have hempty := (hf.empty (by rw [hplace]; rfl)).1
    simp only [Writer.work, hplace]
    exact ⟨by simp [Place.ending], by simp, by simp, fun _ => hstopping, fun _ => ⟨hempty, rfl⟩⟩
  | finished => simpa only [Writer.work, hplace] using hf

/-- No message changes hands. -/
theorem Moved.of_held (h : w'.held = w.held) (hbooks : w'.books = w.books) : Moved w w' := .passes (fun m => by rw [h]) hbooks

theorem moved_work (hf : w.Fenced) (weather : Weather) : Moved w (w.work weather) := by
  cases hplace : w.place with
  | unstarted => simpa only [work, hplace] using .of_held rfl rfl
  | starting =>
    simp only [work, hplace]
    split_ifs <;> exact .of_held (by simp [held, Place.held, hplace]) rfl
  | looping =>
    simp only [work, hplace]
    cases hstopping : w.stopping <;> exact .of_held (by simp [held, Place.held, hplace]) rfl
  | getting =>
    simp only [work, hplace]
    rcases hmessages : w.messages with - | - | message <;> dsimp only
    · exact .of_held rfl rfl
    · exact .of_held (by simp [held, Place.held, queued, hplace, hmessages]) rfl
    · exact .of_held (by simp [held, Place.held, queued, hplace, hmessages]) rfl
  | waiting message =>
    simp only [work, hplace]
    cases hstopping : w.stopping <;> exact .of_held (by simp [held, Place.held, hplace]) rfl
  | asking message =>
    simp only [work, hplace]
    split_ifs <;> exact .of_held (by simp [held, Place.held, hplace]) rfl
  | admitted message =>
    simp only [work, hplace]
    cases hstopping : w.stopping <;> exact .of_held (by simp [held, Place.held, hplace]) rfl
  | appending message => simpa only [work, hplace] using moved_attempt hplace
  | refreshing =>
    simp only [work, hplace]
    split_ifs <;> exact .of_held (by simp [held, Place.held, hplace]) rfl
  | checking message => simpa only [work, hplace] using moved_check hplace
  | reporting =>
    simp only [work, hplace]
    split_ifs <;> exact .of_held (by simp [held, Place.held, hplace]) rfl
  | closing message =>
    cases message with
    | none =>
      simp only [work, hplace]
      exact .of_held (by simp [held, Place.held, hplace]) rfl
    | some message =>
      simp only [work, hplace]
      refine .ends message .rejected (fun m => ?_) rfl rfl ⟨rfl, rfl, rfl⟩
      simp [held, Place.held, hplace, reject, count_cons]
      omega
  | cleaning =>
    simp only [work, hplace]
    split_ifs with hlock
    · exact .of_held (by simp [held, Place.held, owned, hplace, hlock]) rfl
    · exact .of_held rfl rfl
  | silencing =>
    simp only [work, hplace]
    exact .of_held (by simp [held, Place.held, hplace]) rfl
  | draining =>
    have hlock : w.lock = some .writer := hf.owner.mp (by rw [hplace]; rfl)
    simp only [work, hplace]
    rcases hmessages : w.messages with - | - | message <;> dsimp only
    · exact .of_held (by simp [held, Place.held, queued, owned, hplace, hlock, hmessages]) rfl
    · exact .of_held (by simp [held, Place.held, queued, owned, hplace, hlock, hmessages]) rfl
    · exact .of_held (by simp [held, Place.held, queued, hplace, hmessages]) rfl
  | discarding message =>
    simp only [work, hplace]
    refine .ends message .rejected (fun m => ?_) rfl rfl ⟨rfl, rfl, rfl⟩
    have hlock : w.lock = some .writer := hf.owner.mp (by rw [hplace]; rfl)
    simp [held, Place.held, owned, hplace, hlock, reject]
  | finished => simpa only [work, hplace] using .of_held rfl rfl

/-! ### Runs -/

/-- A step keeps the lock, the flag and the queue in accord. -/
theorem Fenced.step (hf : w.Fenced) (a : Action) : (w.step a).Fenced := by
  cases a with
  | start =>
    simp only [Writer.step]
    split_ifs with hplace
    · exact hf.goes (by simp [hplace, Place.ending]) rfl rfl rfl rfl
    · exact hf
  | allow allowed => exact ⟨hf.owner, hf.putting, hf.stopped, hf.late, hf.empty⟩
  | offer raw =>
    simp only [Writer.step]
    split_ifs with hlock
    · have howner : w.place.ending = false := by simpa [hlock] using hf.owner
      exact ⟨by simp [howner], by simp, by simp [Owner.stopped], hf.late, fun h => ⟨(hf.empty h).1, rfl⟩⟩
    · exact hf
  | requestStop =>
    simp only [Writer.step]
    split_ifs with hlock
    · have howner : w.place.ending = false := by simpa [hlock] using hf.owner
      exact ⟨by simp [howner], by simp, by simp [Owner.stopped], hf.late, fun h => ⟨(hf.empty h).1, rfl⟩⟩
    · exact hf
  | call => exact hf.call
  | work weather => exact hf.work weather

theorem moved_step (hf : w.Fenced) (a : Action) : Moved w (w.step a) := by
  cases a with
  | start =>
    simp only [step]
    split_ifs with hplace
    · exact .of_held (by simp [held, Place.held, hplace]) rfl
    · exact .of_held rfl rfl
  | allow allowed => exact .of_held rfl rfl
  | offer raw =>
    simp only [step]
    split_ifs with hlock
    · exact .of_held (by simp [held, owned, hlock]) rfl
    · exact .of_held rfl rfl
  | requestStop =>
    simp only [step]
    split_ifs with hlock
    · exact .of_held (by simp [held, owned, hlock]) rfl
    · exact .of_held rfl rfl
  | call => exact moved_call w
  | work weather => exact moved_work hf weather

/-- **Every accepted message is held, or has a fate, and is counted.** -/
structure Accounted (w : Writer) : Prop where
  held : ∀ m, w.held.count m + (w.fates.map Prod.fst).count m = w.accepted.count m
  tickets : w.accepted.map Message.ticket = range w.accepted.length
  rejected : w.rejected = capped (w.ended .rejected).length
  uncertain : w.uncertain = capped (w.ended .uncertain).length
  lost : ∀ category, w.lostEvents category =
    capped ((w.ended .rejected).map fun message => eventCounts message.raw category).sum

theorem capped_capped_add (m n : ℕ) : capped (capped m + n) = capped (m + n) := by
  unfold capped
  omega

theorem accounted_new (store : DiagnosticsStore) : ({ store } : Writer).Accounted :=
  ⟨fun _ => rfl, rfl, rfl, rfl, fun _ => rfl⟩

theorem Accounted.moved (ha : w.Accounted) (h : Moved w w') : w'.Accounted := by
  obtain ⟨hheld, htickets, hrejected, huncertain, hlost⟩ := ha
  cases h with
  | passes held books =>
    obtain ⟨accepted, fates, rejected, uncertain, lost⟩ := books_eq books
    refine ⟨fun m => ?_, by rw [accepted, htickets], ?_, ?_, fun category => ?_⟩
    · rw [held, fates, accepted, hheld]
    · rw [rejected, hrejected, ended, ended, fates]
    · rw [uncertain, huncertain, ended, ended, fates]
    · rw [lost, hlost, ended, ended, fates]
  | accepts raw _ held accepted fates rejected uncertain lost =>
    refine ⟨fun m => ?_, ?_, ?_, ?_, fun category => ?_⟩
    · rw [held, fates, accepted, count_append, ← hheld]
      omega
    · rw [accepted, map_append, htickets, length_append, length_singleton, range_succ]
      rfl
    · rw [rejected, hrejected, ended, ended, fates]
    · rw [uncertain, huncertain, ended, ended, fates]
    · rw [lost, hlost, ended, ended, fates]
  | ends message fate held accepted fates counted =>
    have hended : ∀ fate', w'.ended fate' = w.ended fate' ++ if fate = fate' then [message] else [] := fun fate' => by
      simp only [ended, fates, filter_append, map_append]
      by_cases hfate : fate = fate' <;> simp [hfate]
    refine ⟨fun m => ?_, by rw [accepted, htickets], ?_, ?_, fun category => ?_⟩
    · have hm := hheld m
      rw [held] at hm
      rw [fates, accepted, map_append, count_append, ← hm]
      simp
      omega
    · cases fate <;> simp [hended, counted.1, hrejected, capped_capped_add]
    · cases fate <;> simp [hended, counted.2.1, huncertain, capped_capped_add]
    · cases fate <;> simp [hended, counted.2.2, hlost, capped_capped_add]

theorem Accounted.nodup_accepted (ha : w.Accounted) : w.accepted.Nodup :=
  Nodup.of_map Message.ticket (by rw [ha.tickets]; exact nodup_range)

/-- A message is not twice among those that are held and those that have a fate. -/
theorem Accounted.count_le (ha : w.Accounted) (m : Message) : w.held.count m + (w.fates.map Prod.fst).count m ≤ 1 := by
  rw [ha.held]
  exact nodup_iff_count_le_one.mp ha.nodup_accepted m

theorem mem_ended {fate : Fate} : message ∈ w.ended fate ↔ (message, fate) ∈ w.fates := by
  simp [ended]

theorem Accounted.nodup_fates (ha : w.Accounted) : (w.fates.map Prod.fst).Nodup :=
  nodup_iff_count_le_one.mpr fun m => le_trans (Nat.le_add_left _ _) (ha.count_le m)

theorem Accounted.eq_of_ended (ha : w.Accounted) {fate fate' : Fate} (h : message ∈ w.ended fate)
    (h' : message ∈ w.ended fate') : fate = fate' :=
  (Prod.mk.inj (inj_on_of_nodup_map ha.nodup_fates (mem_ended.mp h) (mem_ended.mp h') rfl)).2

theorem Accounted.not_held (ha : w.Accounted) {fate : Fate} (h : message ∈ w.ended fate) : message ∉ w.held := by
  intro hheld
  have hfate : 0 < (w.fates.map Prod.fst).count message :=
    count_pos_iff.mpr (mem_map_of_mem (mem_ended.mp h))
  have hcount := ha.count_le message
  have hpos := count_pos_iff.mpr hheld
  omega

theorem held_of_finished (hf : w.Fenced) (h : w.place = .finished) : w.held = [] := by
  obtain ⟨hmessages, hlock⟩ := hf.empty (by rw [h]; rfl)
  simp [held, hmessages, hlock, h, Place.held]

/-! ### What is stored -/

/-- The message is saved, or it is not known whether it is. -/
def Spared (w : Writer) (message : Message) : Prop :=
  message ∈ w.ended .saved ∨ message ∈ w.ended .uncertain ∨ w.place = .checking message

/-- What is stored was there before, or is of a message that is spared. -/
structure Kept (old : DiagnosticsStore) (w : Writer) : Prop where
  origin : ∀ interval, w.store.Stored interval →
    old.Stored interval ∨ ∃ m ∈ w.accepted, m.raw.interval = some interval ∧ w.Spared m
  stored : ∀ m ∈ w.stored, w.Spared m
  /-- While the handler is asking, what the message has stored is seen. -/
  found : ∀ m ∈ w.stored, w.place = .checking m →
    w.store.working = none ∧ ∃ interval ∈ m.raw.interval, interval ∈ w.store.durable.intervals

variable {old : DiagnosticsStore}

theorem Moved.fates_subset (h : Moved w w') : w.fates ⊆ w'.fates := by
  cases h with
  | passes _ books => rw [(books_eq books).2.1]; exact Subset.refl _
  | accepts _ _ _ _ fates => rw [fates]; exact Subset.refl _
  | ends _ _ _ _ fates => rw [fates]; exact subset_append_left _ _

theorem Moved.accepted_subset (h : Moved w w') : w.accepted ⊆ w'.accepted := by
  cases h with
  | passes _ books => rw [(books_eq books).1]; exact Subset.refl _
  | accepts _ _ _ accepted => rw [accepted]; exact subset_append_left _ _
  | ends _ _ _ accepted => rw [accepted]; exact Subset.refl _

theorem Moved.spared (h : Moved w w') {m : Message} (hplace : w.place = .checking m → w'.place = .checking m)
    (hm : w.Spared m) : w'.Spared m := by
  rcases hm with hm | hm | hm
  · exact .inl (mem_ended.mpr (h.fates_subset (mem_ended.mp hm)))
  · exact .inr (.inl (mem_ended.mpr (h.fates_subset (mem_ended.mp hm))))
  · exact .inr (.inr (hplace hm))

/-- The store and the thread's question stay. -/
theorem Kept.moved (hk : w.Kept old) (h : Moved w w') (hstore : w'.store = w.store) (hstored : w'.stored = w.stored)
    (hplace : ∀ m, w.place = .checking m ↔ w'.place = .checking m) : w'.Kept old := by
  refine ⟨fun interval hinterval => ?_, fun m hm => ?_, fun m hm hm' => ?_⟩
  · rw [hstore] at hinterval
    refine (hk.origin interval hinterval).imp_right ?_
    rintro ⟨m, haccepted, hm, hspared⟩
    exact ⟨m, h.accepted_subset haccepted, hm, h.spared (hplace m).mp hspared⟩
  · exact h.spared (hplace m).mp (hk.stored m (hstored ▸ hm))
  · rw [hstore]
    exact hk.found m (hstored ▸ hm) ((hplace m).mpr hm')

theorem call_frame (w : Writer) : w.call.store = w.store ∧ w.call.stored = w.stored ∧ w.call.place = w.place := by
  unfold call
  split
  · split_ifs <;> exact ⟨rfl, rfl, rfl⟩
  · split <;> exact ⟨rfl, rfl, rfl⟩
  · exact ⟨rfl, rfl, rfl⟩
  · split <;> exact ⟨rfl, rfl, rfl⟩
  all_goals exact ⟨rfl, rfl, rfl⟩

/-- Elsewhere than at `append` and in its handler the thread leaves the store alone. -/
theorem work_frame (weather : Weather) (hplace : ∀ m, w.place ≠ .appending m ∧ w.place ≠ .checking m) :
    (w.work weather).store = w.store ∧ (w.work weather).stored = w.stored ∧
      ∀ m, (w.work weather).place ≠ .checking m := by
  cases hw : w.place <;> simp only [work, hw]
  case appending m => exact absurd hw (hplace m).1
  case checking m => exact absurd hw (hplace m).2
  case getting => rcases w.messages with - | - | message <;> simp [hw]
  case draining => rcases w.messages with - | - | message <;> simp
  case closing message => cases message <;> simp [reject]
  case discarding => simp [reject]
  all_goals try split_ifs
  all_goals simp [hw]

/-- A message that is held has stored nothing before its `append`. -/
theorem Kept.not_mem_stored (hk : w.Kept old) (ha : w.Accounted) (hheld : message ∈ w.held)
    (hplace : w.place ≠ .checking message) : message ∉ w.stored := by
  intro hm
  rcases hk.stored message hm with h | h | h
  · exact ha.not_held h hheld
  · exact ha.not_held h hheld
  · exact hplace h

/-- What `append` does to the store is done for the message, which is spared then. -/
structure Attempted (w w' : Writer) (message : Message) : Prop where
  store : ∀ interval, w'.store.Stored interval →
    w.store.Stored interval ∨ message.raw.interval = some interval ∧ w'.Spared message
  stored : ∀ m ∈ w'.stored, m ∈ w.stored ∨ m = message ∧ w'.Spared message ∧ (w'.place = .checking message →
    w'.store.working = none ∧ ∃ interval ∈ message.raw.interval, interval ∈ w'.store.durable.intervals)
  place : ∀ m, w'.place = .checking m → m = message

theorem attempted (w : Writer) (weather : Weather) (message : Message) :
    Attempted w (w.attempt weather message) message := by
  have hunasked : Attempted w { w with place := .checking message } message :=
    ⟨fun _ => .inl, fun _ => .inl, by simp⟩
  unfold Writer.attempt
  split
  · rename_i record hrecord
    have hinterval : message.raw.interval = record.interval := by simp [Raw.interval, hrecord]
    split_ifs with hasked
    · exact hunasked
    have hsaved : ∀ store stored,
        ({ ({ w with store, stored } : Writer).save message with place := .refreshing } : Writer).Spared message :=
      fun _ _ => .inl (by simp [ended, save])
    dsimp only
    split
    · rename_i hresult
      refine ⟨fun interval h => ?_, fun m hm => ?_, by simp⟩
      · exact (DiagnosticsStore.stored_append h).imp_right fun he => ⟨hinterval.trans he, .inr (.inr rfl)⟩
      · split_ifs at hm with hfound
        · rcases mem_append.mp hm with hm | hm
          · exact .inl hm
          · refine .inr ⟨mem_singleton.mp hm, .inr (.inr rfl), fun _ => ⟨DiagnosticsStore.committed hresult, ?_⟩⟩
            rw [hinterval]
            simpa [Option.any_eq_true] using hfound
        · exact .inl hm
    · refine ⟨fun interval h => ?_, fun _ => .inl, by simp⟩
      exact (DiagnosticsStore.stored_append h).imp_right fun he => ⟨hinterval.trans he, .inr (.inr rfl)⟩
    · refine ⟨fun interval h => ?_, fun m hm => ?_, by simp⟩
      · exact (DiagnosticsStore.stored_append h).imp_right fun he => ⟨hinterval.trans he, hsaved _ _⟩
      · simp only [save] at hm
        split_ifs at hm with hfound
        · rcases mem_append.mp hm with hm | hm
          · exact .inl hm
          · exact .inr ⟨mem_singleton.mp hm, hsaved _ _, by simp⟩
        · exact .inl hm
    · rename_i hresult
      have hstore : ∀ interval, (w.store.append weather record).2.Stored interval → w.store.Stored interval := by
        rw [DiagnosticsStore.refused hresult]
        exact fun _ h => h
      exact ⟨fun interval h => .inl (hstore interval h), fun _ => .inl, by simp⟩
  · exact hunasked

theorem Kept.attempt (hk : w.Kept old) (ha : w.Accounted) (hplace : w.place = .appending message) :
    (w.attempt weather message).Kept old := by
  have hheld : message ∈ w.held := by simp [held, Place.held, hplace]
  have haccepted : message ∈ w.accepted := by
    have hcount := ha.held message
    have hpos := count_pos_iff.mpr hheld
    exact count_pos_iff.mp (by omega)
  have hnot : message ∉ w.stored := hk.not_mem_stored ha hheld (by simp [hplace])
  have hmoved : Moved w (w.attempt weather message) := moved_attempt hplace
  have hspared : ∀ m, w.Spared m → (w.attempt weather message).Spared m := fun m => hmoved.spared (by simp [hplace])
  obtain ⟨hstore, hstored, hasks⟩ := attempted w weather message
  refine ⟨fun interval h => ?_, fun m hm => ?_, fun m hm hm' => ?_⟩
  · rcases hstore interval h with h | ⟨hinterval, h⟩
    · refine (hk.origin interval h).imp_right ?_
      rintro ⟨m, hm, hinterval, h⟩
      exact ⟨m, hmoved.accepted_subset hm, hinterval, hspared m h⟩
    · exact .inr ⟨message, hmoved.accepted_subset haccepted, hinterval, h⟩
  · rcases hstored m hm with hm | ⟨rfl, h, -⟩
    · exact hspared m (hk.stored m hm)
    · exact h
  · obtain rfl := hasks m hm'
    rcases hstored m hm with hm | ⟨-, -, h⟩
    · exact absurd hm hnot
    · exact h hm'

theorem Kept.check (hk : w.Kept old) (hplace : w.place = .checking message) :
    ({ w.check weather message with place := .reporting } : Writer).Kept old := by
  have hmoved : Moved w { w.check weather message with place := .reporting } := moved_check hplace
  -- The message itself is spared by its fate, or it has stored nothing.
  have hfate : ({ w.check weather message with place := .reporting } : Writer).Spared message ∨
      (∀ interval ∈ message.raw.interval, ¬ w.store.Stored interval) := by
    unfold Writer.check
    split
    · rename_i hreading
      exact .inr (by simp [Raw.interval, hreading])
    · rename_i truthy hreading
      exact .inr (by simp [Raw.interval, hreading])
    · rename_i record hreading
      split
      · exact .inl (.inr (.inl (by simp [ended, doubt])))
      · exact .inl (.inl (by simp [ended, save]))
      · rename_i hcontains
        refine .inr fun interval hinterval => DiagnosticsStore.not_stored hcontains ?_
        simpa [Raw.interval, hreading] using hinterval
  have hspared : ∀ m, w.Spared m → m ≠ message →
      ({ w.check weather message with place := .reporting } : Writer).Spared m :=
    fun m hm hne => hmoved.spared (fun h => absurd (by simpa [hplace] using h.symm) hne) hm
  obtain ⟨-, -, hstore, hstored⟩ := check_frame w weather message
  refine ⟨fun interval h => ?_, fun m hm => ?_, by simp⟩
  · rw [show ({ w.check weather message with place := .reporting } : Writer).store = w.store from hstore] at h
    refine (hk.origin interval h).imp_right ?_
    rintro ⟨m, hm, hinterval, hmspared⟩
    refine ⟨m, hmoved.accepted_subset hm, hinterval, ?_⟩
    by_cases hne : m = message
    · subst hne
      exact hfate.resolve_right fun hnot => hnot interval hinterval h
    · exact hspared m hmspared hne
  · replace hm : m ∈ w.stored := hstored ▸ hm
    by_cases hne : m = message
    · subst hne
      obtain ⟨-, interval, hinterval, hdurable⟩ := hk.found m hm hplace
      exact hfate.resolve_right fun hnot => hnot interval hinterval (.inl hdurable)
    · exact hspared m (hk.stored m hm) hne

theorem Kept.step (hk : w.Kept old) (hf : w.Fenced) (ha : w.Accounted) (a : Action) : (w.step a).Kept old := by
  have hmoved : Moved w (w.step a) := moved_step hf a
  cases a with
  | start =>
    simp only [Writer.step] at hmoved ⊢
    split_ifs at hmoved ⊢ with hplace
    · exact hk.moved hmoved rfl rfl (by simp [hplace])
    · exact hk
  | allow allowed => exact hk.moved hmoved rfl rfl fun _ => Iff.rfl
  | offer raw =>
    simp only [Writer.step] at hmoved ⊢
    split_ifs at hmoved ⊢
    · exact hk.moved hmoved rfl rfl fun _ => Iff.rfl
    · exact hk
  | requestStop =>
    simp only [Writer.step] at hmoved ⊢
    split_ifs at hmoved ⊢
    · exact hk.moved hmoved rfl rfl fun _ => Iff.rfl
    · exact hk
  | call =>
    obtain ⟨hstore, hstored, hplace⟩ := call_frame w
    exact hk.moved hmoved hstore hstored fun m => by rw [Writer.step, hplace]
  | work weather =>
    by_cases happending : ∃ m, w.place = .appending m
    · obtain ⟨m, hplace⟩ := happending
      simpa only [Writer.step, Writer.work, hplace] using hk.attempt ha hplace
    · by_cases hchecking : ∃ m, w.place = .checking m
      · obtain ⟨m, hplace⟩ := hchecking
        simpa only [Writer.step, Writer.work, hplace] using hk.check hplace
      · have hframe := work_frame weather fun m => ⟨fun h => happending ⟨m, h⟩, fun h => hchecking ⟨m, h⟩⟩
        obtain ⟨hstore, hstored, hplace⟩ := hframe
        exact hk.moved hmoved hstore hstored fun m => ⟨fun h => absurd ⟨m, h⟩ hchecking, fun h => absurd h (hplace m)⟩

theorem kept_new (store : DiagnosticsStore) : ({ store } : Writer).Kept store :=
  ⟨fun _ => .inl, by simp, by simp⟩

/-- The three together. -/
structure Sound (old : DiagnosticsStore) (w : Writer) : Prop where
  fenced : w.Fenced
  accounted : w.Accounted
  kept : w.Kept old

theorem Sound.step (hs : w.Sound old) (a : Action) : (w.step a).Sound old :=
  ⟨hs.fenced.step a, hs.accounted.moved (moved_step hs.fenced a), hs.kept.step hs.fenced hs.accounted a⟩

theorem sound_run (store : DiagnosticsStore) (actions : List Action) : (run step { store } actions).Sound store :=
  run_invariant ⟨fenced_new store, accounted_new store, kept_new store⟩ fun _ a hs => hs.step a

/-! ### Stopping -/

/-- `request_stop` has taken the lock, or the flag is set. -/
def Stops (w : Writer) : Prop := w.lock = some .stopping ∨ w.stopping = true

/-- The thread does not take the lock of a call away, and does not clear the flag. -/
theorem stops_work (hf : w.Fenced) (hs : w.Stops) (weather : Weather) : (w.work weather).Stops := by
  have hending : w.lock = some .stopping → w.place.ending = false := fun h => by simpa [h] using hf.owner
  unfold Stops at *
  cases hplace : w.place <;> simp only [work, hplace]
  case getting => rcases w.messages with - | - | message <;> exact hs
  case appending message =>
    obtain ⟨hlock, hstopping, -⟩ := attempt_fence w weather message
    rwa [hlock, hstopping]
  case checking message =>
    obtain ⟨hlock, hstopping, -⟩ := check_frame w weather message
    rwa [hlock, hstopping]
  case closing message => cases message <;> exact hs
  case cleaning =>
    split_ifs with hlock
    · exact .inr (hs.resolve_left (by simp [hlock]))
    · exact hs
  case silencing => exact .inr trivial
  case draining =>
    have hstopping : w.stopping = true := hs.resolve_left fun h => by simpa [hplace, Place.ending] using hending h
    rcases w.messages with - | - | message <;> exact .inr hstopping
  case discarding message =>
    exact .inr (hs.resolve_left fun h => by simpa [hplace, Place.ending] using hending h)
  all_goals try split_ifs
  all_goals exact hs

theorem Stops.step (hs : w.Stops) (hf : w.Fenced) (a : Action) : (w.step a).Stops := by
  cases a with
  | start =>
    simp only [Writer.step]
    split_ifs <;> exact hs
  | allow allowed => exact hs
  | offer raw =>
    simp only [Writer.step]
    split_ifs with hlock
    · exact .inr (hs.resolve_left (by simp [hlock]))
    · exact hs
  | requestStop =>
    simp only [Writer.step]
    split_ifs
    · exact .inl rfl
    · exact hs
  | call =>
    simp only [Writer.step, Writer.call]
    rcases hs with hlock | hstopping
    · simp [hlock, Stops]
    · refine .inr ?_
      split
      · split_ifs <;> exact hstopping
      · split <;> exact hstopping
      · rfl
      · split <;> exact hstopping
      all_goals exact hstopping
  | work weather => exact stops_work hf hs weather

theorem Stops.accepted_step (hs : w.Stops) (hf : w.Fenced) (a : Action) : (w.step a).accepted = w.accepted := by
  cases moved_step hf a with
  | passes _ books => exact (books_eq books).1
  | accepts raw hlock =>
    rcases hs with h | h
    · exact absurd (hlock.symm.trans h) (by simp)
    · exact absurd (hf.putting raw hlock) (by simp [h])
  | ends _ _ _ accepted => exact accepted

/-- Once the writer stops nothing is accepted any more. -/
theorem Stops.accepted_run (hs : w.Stops) (hf : w.Fenced) (actions : List Action) :
    (run Writer.step w actions).accepted = w.accepted := by
  induction actions generalizing w with
  | nil => rfl
  | cons a actions ih => rw [run_cons, ih (hs.step hf a) (hf.step a), hs.accepted_step hf a]

/-! ### The law -/

/-- The store, a writer started on it, and its thread's end. -/
structure Law (old : DiagnosticsStore) (w : Writer) : Prop where
  /-- When the thread has finished, every accepted message has exactly one fate. -/
  exactly : w.place = .finished → ∀ message ∈ w.accepted, ∃! fate, message ∈ w.ended fate
  /-- What has a fate was accepted, and is counted once, in the counters too. -/
  accepted : ∀ fate, ∀ message ∈ w.ended fate, message ∈ w.accepted
  once : (w.fates.map Prod.fst).Nodup
  rejected : w.rejected = capped (w.ended .rejected).length
  uncertain : w.uncertain = capped (w.ended .uncertain).length
  /-- A message is not rejected once its own `append` has left its interval in the database. -/
  stored : ∀ message ∈ w.ended .rejected, message ∉ w.stored
  /-- If no two messages are of one interval, and none is of an interval of before, then no interval of a rejected
  message is stored at all. -/
  unstored : (∀ message ∈ w.accepted, ∀ message' ∈ w.accepted, ∀ interval ∈ message.raw.interval,
      interval ∈ message'.raw.interval → message = message') →
    (∀ message ∈ w.accepted, ∀ interval ∈ message.raw.interval, ¬ old.Stored interval) →
    ∀ message ∈ w.ended .rejected, ∀ interval ∈ message.raw.interval, ¬ w.store.Stored interval

theorem Accounted.mem_accepted (ha : w.Accounted) {fate : Fate} (h : message ∈ w.ended fate) : message ∈ w.accepted := by
  have hcount := ha.held message
  have hpos : 0 < (w.fates.map Prod.fst).count message :=
    count_pos_iff.mpr (mem_map_of_mem (mem_ended.mp h))
  exact count_pos_iff.mp (by omega)

theorem Sound.not_spared (hs : w.Sound old) (h : message ∈ w.ended .rejected) : ¬ w.Spared message := by
  rintro (h' | h' | h')
  · exact absurd (hs.accounted.eq_of_ended h h') (by simp)
  · exact absurd (hs.accounted.eq_of_ended h h') (by simp)
  · exact hs.accounted.not_held h (by simp [held, Place.held, h'])

theorem Sound.law (hs : w.Sound old) : w.Law old := by
  refine ⟨fun hplace message hmessage => ?_, fun fate message => hs.accounted.mem_accepted, hs.accounted.nodup_fates,
    hs.accounted.rejected, hs.accounted.uncertain, fun message h hm => hs.not_spared h (hs.kept.stored message hm), ?_⟩
  · have hcount := hs.accounted.held message
    rw [held_of_finished hs.fenced hplace, count_nil, Nat.zero_add] at hcount
    have hpos : 0 < (w.fates.map Prod.fst).count message := by
      rw [hcount]
      exact count_pos_iff.mpr hmessage
    obtain ⟨⟨m, fate⟩, hfate, rfl⟩ := mem_map.mp (count_pos_iff.mp hpos)
    exact ⟨fate, mem_ended.mpr hfate, fun fate' h' => hs.accounted.eq_of_ended h' (mem_ended.mpr hfate)⟩
  · intro hdistinct hfresh message h interval hinterval hstored
    have hmessage := hs.accounted.mem_accepted h
    rcases hs.kept.origin interval hstored with hold | ⟨m, hm, hm', hspared⟩
    · exact hfresh message hmessage interval hinterval hold
    · obtain rfl := hdistinct m hm message hmessage interval hm' hinterval
      exact hs.not_spared h hspared

/-- **Every accepted message is accounted for, and none is accepted once `request_stop` has the lock.** -/
theorem every_message_accounted (store : DiagnosticsStore) (actions : List Action) :
    (run step { store } actions).Law store ∧
      ∀ before after, actions = before ++ .requestStop :: after → (run step { store } before).lock = none →
        (run step { store } actions).accepted = (run step { store } before).accepted := by
  refine ⟨(sound_run store actions).law, ?_⟩
  rintro before after rfl hlock
  have hs := sound_run store before
  have hstep : (run step { store } before).step .requestStop = { run step { store } before with lock := some .stopping } := by
    simp [step, hlock]
  have hstops : ((run step { store } before).step .requestStop).Stops := .inl (by rw [hstep])
  rw [run_append, run_cons, hstops.accepted_run (hs.fenced.step .requestStop), hstep]

def emptyStore : DiagnosticsStore := ⟨⟨∅, fun _ => none⟩, none, false⟩

/-- A message is saved, and another is still in the queue when the writer stops. -/
def savedThenStopped : List Action :=
  let interval seq : Option Interval := some ⟨"0123456789abcdef0123456789abcdef", seq⟩
  let raw seq : Raw := ⟨200, .record ⟨interval seq, true, some [some "training_error"]⟩⟩
  [.start, .work {}, .offer (raw 0), .call, .call, .work {}, .work {}, .allow true, .work {}, .work {}, .work {}, .work {},
    .offer (raw 1), .call, .call, .requestStop, .call, .call, .call, .call, .work {}, .work {}, .work {}, .work {}, .work {},
    .work {}]

/-- The writer once it has stopped. -/
abbrev stopped : Writer := run step { store := emptyStore } savedThenStopped

/-- Both end, each in its way, and of the one that the stop rejects nothing is stored. -/
theorem every_message_accounted_stopped :
    stopped.place = .finished ∧ (∀ message ∈ stopped.accepted, ∃! fate, message ∈ stopped.ended fate) ∧
      stopped.accepted = (run step { store := emptyStore } (savedThenStopped.take 15)).accepted ∧
      ∃ message ∈ stopped.ended .rejected, ∃ interval ∈ message.raw.interval, ¬ stopped.store.Stored interval := by
  have hfinished : stopped.place = .finished := by decide +kernel
  have hdistinct : ∀ message ∈ stopped.accepted, ∀ message' ∈ stopped.accepted, ∀ interval ∈ message.raw.interval,
      interval ∈ message'.raw.interval → message = message' := by decide +kernel
  have hrejected : ∃ message ∈ stopped.ended .rejected, message.raw.interval.isSome := by decide +kernel
  obtain ⟨hlaw, haccepts⟩ := every_message_accounted emptyStore savedThenStopped
  refine ⟨hfinished, hlaw.exactly hfinished, haccepts (savedThenStopped.take 15) (savedThenStopped.drop 16) rfl
    (by decide +kernel), ?_⟩
  obtain ⟨message, hmessage, hinterval⟩ := hrejected
  obtain ⟨interval, hinterval⟩ := Option.isSome_iff_exists.mp hinterval
  refine ⟨message, hmessage, interval, hinterval, hlaw.unstored hdistinct ?_ message hmessage interval hinterval⟩
  simp [DiagnosticsStore.Stored, emptyStore]

end Writer

end SignalArcade.Diagnostics
