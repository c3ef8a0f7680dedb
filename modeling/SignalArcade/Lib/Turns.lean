import Mathlib.Data.Bool.Basic
import Mathlib.Data.List.Perm.Subperm

/-!
# Two queues served in turns

Turns are numbered, and each of them is reserved for one of two queues. A turn whose queue has nothing left is given to
the other one, so that none is lost while there is something to serve. `contested` says of a turn that both queues had
something when it was given.
-/

namespace Turns

open List

/-- A turn that was served. -/
structure Turn (α : Type) where
  number : ℕ
  /-- It was served from the second queue. -/
  second : Bool
  item : α
  contested : Bool

variable {α : Type}

def queue (second : Bool) (primary secondary : List α) : List α := if second then secondary else primary

variable (reserved : ℕ → Bool)

/-- A turn, and what it leaves of the queues; `reserved` are the turns of the second one. -/
def next (number : ℕ) : List α → List α → Option (Turn α × List α × List α)
  | [], [] => none
  | a :: primary, [] => some (⟨number, false, a, false⟩, primary, [])
  | [], b :: secondary => some (⟨number, true, b, false⟩, [], secondary)
  | a :: primary, b :: secondary =>
    if reserved number then some (⟨number, true, b, true⟩, a :: primary, secondary)
    else some (⟨number, false, a, true⟩, primary, b :: secondary)

/-- So many turns, from a number on. -/
def serve : ℕ → ℕ → List α → List α → List (Turn α)
  | 0, _, _, _ => []
  | n + 1, number, primary, secondary =>
    match next reserved number primary secondary with
    | none => []
    | some (turn, primary, secondary) => turn :: serve n (number + 1) primary secondary

/-- A turn takes the first of its queue, and leaves the other as it is. If both had something, it is the queue that the
turn is reserved for. -/
structure Gives (number : ℕ) (primary secondary : List α) (turn : Turn α) (primary' secondary' : List α) : Prop where
  number_eq : turn.number = number
  served : queue turn.second primary secondary = turn.item :: queue turn.second primary' secondary'
  other : queue (!turn.second) primary secondary = queue (!turn.second) primary' secondary'
  reserved_eq : turn.contested = true → turn.second = reserved number
  contested_of : primary ≠ [] → secondary ≠ [] → turn.contested = true

variable {reserved} {n number : ℕ} {primary secondary primary' secondary' : List α} {turn : Turn α}

theorem next_eq_none (h : next reserved number primary secondary = none) : primary = [] ∧ secondary = [] := by
  unfold next at h
  split at h
  · exact ⟨rfl, rfl⟩
  · cases h
  · cases h
  · split_ifs at h

theorem next_eq_some (h : next reserved number primary secondary = some (turn, primary', secondary')) :
    Gives reserved number primary secondary turn primary' secondary' := by
  unfold next at h
  split at h
  · cases h
  · cases h
    exact ⟨rfl, rfl, rfl, fun h => absurd h Bool.false_ne_true, fun _ h => absurd rfl h⟩
  · cases h
    exact ⟨rfl, rfl, rfl, fun h => absurd h Bool.false_ne_true, fun h => absurd rfl h⟩
  · split_ifs at h with hreserved
    · cases h
      exact ⟨rfl, rfl, rfl, fun _ => hreserved.symm, fun _ _ => rfl⟩
    · cases h
      exact ⟨rfl, rfl, rfl, fun _ => (Bool.eq_false_iff.mpr hreserved).symm, fun _ _ => rfl⟩

section

variable (h : Gives reserved number primary secondary turn primary' secondary')
include h

theorem Gives.sublist (side : Bool) :
    (queue side primary' secondary').Sublist (queue side primary secondary) := by
  rcases Bool.eq_or_eq_not side turn.second with rfl | rfl
  · rw [h.served]
    exact sublist_cons_self _ _
  · rw [h.other]

theorem Gives.waits {side : Bool} {x : α}
    (hx : x ∈ queue side primary secondary) (hne : x ≠ turn.item) : x ∈ queue side primary' secondary' := by
  rcases Bool.eq_or_eq_not side turn.second with rfl | rfl
  · rw [h.served] at hx
    exact (mem_cons.mp hx).resolve_left hne
  · rwa [h.other] at hx

theorem Gives.perm :
    (primary ++ secondary).Perm (turn.item :: (primary' ++ secondary')) := by
  obtain ⟨-, hserved, hother, -, -⟩ := h
  cases hside : turn.second with
  | false =>
    obtain ⟨rfl, rfl⟩ : primary = turn.item :: primary' ∧ secondary = secondary' := by
      simpa [queue, hside] using And.intro hserved hother
    exact .refl _
  | true =>
    obtain ⟨rfl, rfl⟩ : secondary = turn.item :: secondary' ∧ primary = primary' := by
      simpa [queue, hside] using And.intro hserved hother
    exact perm_middle

end

theorem serve_length : (serve reserved n number primary secondary).length = min n (primary.length + secondary.length) := by
  induction n generalizing number primary secondary with
  | zero => simp [serve]
  | succ n ih =>
    unfold serve
    split
    · next h =>
      obtain ⟨rfl, rfl⟩ := next_eq_none h
      simp
    · next turn primary' secondary' h =>
      have hlength := (next_eq_some h).perm.length_eq
      simp only [length_append, length_cons] at hlength
      rw [length_cons, ih]
      omega

theorem serve_number {i : ℕ} (h : (serve reserved n number primary secondary)[i]? = some turn) :
    turn.number = number + i := by
  induction n generalizing number primary secondary i with
  | zero => simp [serve] at h
  | succ n ih =>
    unfold serve at h
    split at h
    · simp at h
    next first primary' secondary' hnext =>
    cases i with
    | zero =>
      obtain rfl : first = turn := by simpa using h
      exact (next_eq_some hnext).number_eq
    | succ i =>
      have hnumber := ih h
      omega

theorem serve_contested (h : turn ∈ serve reserved n number primary secondary) (hcontested : turn.contested = true) :
    turn.second = reserved turn.number := by
  induction n generalizing number primary secondary with
  | zero => simp [serve] at h
  | succ n ih =>
    unfold serve at h
    split at h
    · simp at h
    next first primary' secondary' hnext =>
    rcases mem_cons.mp h with rfl | h
    · rw [(next_eq_some hnext).number_eq]
      exact (next_eq_some hnext).reserved_eq hcontested
    · exact ih h

theorem serve_mem (h : turn ∈ serve reserved n number primary secondary) :
    turn.item ∈ queue turn.second primary secondary := by
  induction n generalizing number primary secondary with
  | zero => simp [serve] at h
  | succ n ih =>
    unfold serve at h
    split at h
    · simp at h
    next first primary' secondary' hnext =>
    rcases mem_cons.mp h with rfl | h
    · rw [(next_eq_some hnext).served]
      exact mem_cons_self
    · exact ((next_eq_some hnext).sublist turn.second).subset (ih h)

theorem serve_subperm : ((serve reserved n number primary secondary).map Turn.item).Subperm (primary ++ secondary) := by
  induction n generalizing number primary secondary with
  | zero => exact nil_subperm
  | succ n ih =>
    unfold serve
    split
    · exact nil_subperm
    next turn primary' secondary' hnext =>
    rw [map_cons]
    exact ((subperm_cons turn.item).mpr ih).trans (next_eq_some hnext).perm.symm.subperm

theorem serve_first {r : α → α → Prop} (hordered : ∀ side, (queue side primary secondary).Pairwise r) {i : ℕ}
    (h : (serve reserved n number primary secondary)[i]? = some turn) {x : α}
    (hx : x ∈ queue turn.second primary secondary)
    (hwaiting : x ∉ ((serve reserved n number primary secondary).take i).map Turn.item) : x = turn.item ∨ r turn.item x := by
  induction n generalizing number primary secondary i with
  | zero => simp [serve] at h
  | succ n ih =>
    unfold serve at h hwaiting
    split at h
    · simp at h
    next first primary' secondary' hnext =>
    rw [hnext] at hwaiting
    have hgives := next_eq_some hnext
    cases i with
    | zero =>
      obtain rfl : first = turn := by simpa using h
      have hpairwise := hordered first.second
      rw [hgives.served] at hx hpairwise
      rcases mem_cons.mp hx with rfl | hx
      · exact .inl rfl
      · exact .inr ((pairwise_cons.mp hpairwise).1 x hx)
    | succ i =>
      have hnot : x ≠ first.item ∧ x ∉ ((serve reserved n (number + 1) primary' secondary').take i).map Turn.item := by
        simpa using hwaiting
      exact ih (fun side => (hordered side).sublist (hgives.sublist side)) h (hgives.waits hx hnot.1) hnot.2

theorem serve_waiting {i : ℕ} (h : (serve reserved n number primary secondary)[i]? = some turn) {x y : α}
    (hx : x ∈ primary) (hy : y ∈ secondary)
    (hwaiting : x ∉ ((serve reserved n number primary secondary).take i).map Turn.item)
    (hwaiting' : y ∉ ((serve reserved n number primary secondary).take i).map Turn.item) : turn.contested = true := by
  induction n generalizing number primary secondary i with
  | zero => simp [serve] at h
  | succ n ih =>
    unfold serve at h hwaiting hwaiting'
    split at h
    · simp at h
    next first primary' secondary' hnext =>
    rw [hnext] at hwaiting hwaiting'
    have hgives := next_eq_some hnext
    cases i with
    | zero =>
      obtain rfl : first = turn := by simpa using h
      exact hgives.contested_of (ne_nil_of_mem hx) (ne_nil_of_mem hy)
    | succ i =>
      have hnot : x ≠ first.item ∧ x ∉ ((serve reserved n (number + 1) primary' secondary').take i).map Turn.item := by
        simpa using hwaiting
      have hnot' : y ≠ first.item ∧ y ∉ ((serve reserved n (number + 1) primary' secondary').take i).map Turn.item := by
        simpa using hwaiting'
      have hleft : x ∈ queue false primary' secondary' := hgives.waits hx hnot.1
      have hleft' : y ∈ queue true primary' secondary' := hgives.waits hy hnot'.1
      exact ih h hleft hleft' hnot.2 hnot'.2

end Turns
