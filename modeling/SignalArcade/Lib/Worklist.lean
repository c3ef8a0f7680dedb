import Mathlib.Data.List.Dedup
import Mathlib.Logic.Relation

/-!
# Worklists

What is reachable in a finite graph from some roots, as a loop with a worklist finds it: a node is taken off the list, and
those next to it that were not seen are seen and put on it. There may be cycles, and edges to what is no node.

The loop ends because each round takes one node off, and what it puts on was unseen (`measure_visit`). What it ends
with are the nodes that a path leads to (`mem_close`).
-/

namespace Worklist

open List

universe u

variable {α : Type u} [DecidableEq α]

/-- A graph of which finitely many nodes have edges. -/
structure Graph (α : Type u) where
  nodes : List α
  next : α → List α
  mem_nodes : ∀ a, next a ≠ [] → a ∈ nodes

/-- What an edge leads to. -/
def Graph.targets (g : Graph α) : List α := g.nodes.flatMap g.next

/-- What was seen, and what is still to do. -/
structure Progress (α : Type u) where
  seen : List α
  todo : List α

/-- An edge is followed. -/
def Progress.visit (p : Progress α) (a : α) : Progress α := if a ∈ p.seen then p else ⟨a :: p.seen, a :: p.todo⟩

def Progress.follow (p : Progress α) (edges : List α) : Progress α := edges.foldl Progress.visit p

/-- How many rounds there may be. -/
def Graph.measure (g : Graph α) (p : Progress α) : ℕ := (g.targets.filter (· ∉ p.seen)).dedup.length + p.todo.length

variable {g : Graph α} {p : Progress α} {a b : α}

omit [DecidableEq α] in
theorem Graph.mem_targets (h : b ∈ g.next a) : b ∈ g.targets :=
  mem_flatMap.mpr ⟨a, g.mem_nodes a (ne_nil_of_mem h), h⟩

theorem Graph.measure_visit (h : a ∈ g.targets) : g.measure (p.visit a) ≤ g.measure p := by
  unfold Progress.visit
  split_ifs with hseen
  · exact Nat.le_refl _
  · have hsub : a :: (g.targets.filter (· ∉ a :: p.seen)).dedup ⊆ (g.targets.filter (· ∉ p.seen)).dedup := by
      intro b hb
      rcases mem_cons.mp hb with rfl | hb
      · simpa using ⟨h, hseen⟩
      · simp only [mem_dedup, mem_filter, mem_cons, not_or, decide_eq_true_eq] at hb ⊢
        exact ⟨hb.1, hb.2.2⟩
    have hnodup : (a :: (g.targets.filter (· ∉ a :: p.seen)).dedup).Nodup :=
      nodup_cons.mpr ⟨by simp, nodup_dedup _⟩
    have hlength := hnodup.length_le_of_subset hsub
    simp only [Graph.measure, length_cons] at hlength ⊢
    omega

theorem Graph.measure_follow {edges : List α} (h : ∀ a ∈ edges, a ∈ g.targets) :
    g.measure (p.follow edges) ≤ g.measure p := by
  induction edges generalizing p with
  | nil => exact Nat.le_refl _
  | cons a edges ih =>
    exact Nat.le_trans (ih fun b hb => h b (mem_cons_of_mem _ hb)) (Graph.measure_visit (h a mem_cons_self))

/-- The loop: what was seen at its end. -/
def Graph.close (g : Graph α) : Progress α → List α
  | ⟨seen, []⟩ => seen
  | ⟨seen, a :: todo⟩ => g.close (Progress.follow ⟨seen, todo⟩ (g.next a))
termination_by p => g.measure p
decreasing_by
  have hround : g.measure (Progress.follow ⟨seen, todo⟩ (g.next a)) ≤ g.measure ⟨seen, todo⟩ :=
    Graph.measure_follow fun b hb => Graph.mem_targets hb
  simp only [Graph.measure, length_cons] at hround ⊢
  omega

/-! ### What is found -/

/-- A path leads from a root to a node. -/
def Graph.Reachable (g : Graph α) (roots : List α) (a : α) : Prop :=
  ∃ root ∈ roots, Relation.ReflTransGen (fun a b => b ∈ g.next a) root a

/-- What was seen is reachable, the roots were seen, and so was what is next to a node that was seen, unless it is still to
do. -/
structure Graph.Closing (g : Graph α) (roots : List α) (p : Progress α) : Prop where
  reachable : ∀ a ∈ p.seen, g.Reachable roots a
  roots : ∀ a ∈ roots, a ∈ p.seen
  next : ∀ a ∈ p.seen, a ∈ p.todo ∨ ∀ b ∈ g.next a, b ∈ p.seen
  todo : ∀ a ∈ p.todo, a ∈ p.seen

theorem Progress.mem_seen_follow {edges : List α} :
    b ∈ (p.follow edges).seen ↔ b ∈ p.seen ∨ b ∈ edges := by
  induction edges generalizing p with
  | nil => simp [Progress.follow]
  | cons a edges ih =>
    rw [Progress.follow, foldl_cons, ← Progress.follow, ih, mem_cons]
    unfold Progress.visit
    split_ifs with hseen
    · constructor
      · exact fun h => h.imp_right .inr
      · rintro (h | rfl | h)
        · exact .inl h
        · exact .inl hseen
        · exact .inr h
    · rw [mem_cons]
      tauto

theorem Progress.mem_todo_follow {edges : List α} :
    b ∈ (p.follow edges).todo ↔ b ∈ p.todo ∨ b ∈ edges ∧ b ∉ p.seen := by
  induction edges generalizing p with
  | nil => simp [Progress.follow]
  | cons a edges ih =>
    rw [Progress.follow, foldl_cons, ← Progress.follow, ih, mem_cons]
    unfold Progress.visit
    split_ifs with hseen
    · constructor
      · exact fun h => h.imp_right fun h => ⟨.inr h.1, h.2⟩
      · rintro (h | ⟨rfl | h, hnot⟩)
        · exact .inl h
        · exact absurd hseen hnot
        · exact .inr ⟨h, hnot⟩
    · simp only [mem_cons, not_or]
      constructor
      · rintro ((rfl | h) | ⟨h, -, hnot⟩)
        · exact .inr ⟨.inl rfl, hseen⟩
        · exact .inl h
        · exact .inr ⟨.inr h, hnot⟩
      · rintro (h | ⟨rfl | h, hnot⟩)
        · exact .inl (.inr h)
        · exact .inl (.inl rfl)
        · by_cases hb : b = a
          · exact .inl (.inl hb)
          · exact .inr ⟨h, hb, hnot⟩

theorem Graph.Closing.round {roots seen todo : List α} (h : g.Closing roots ⟨seen, a :: todo⟩) :
    g.Closing roots (Progress.follow ⟨seen, todo⟩ (g.next a)) := by
  have ha : a ∈ seen := h.todo a mem_cons_self
  -- a node that was seen before is still to do, or it is the one whose edges were followed, or it was closed before
  have hbefore : ∀ b ∈ seen, b ∈ todo ∨ ∀ c ∈ g.next b, c ∈ seen ∨ c ∈ g.next a := by
    intro b hb
    rcases h.next b hb with htodo | hclosed
    · rcases mem_cons.mp htodo with rfl | htodo
      · exact .inr fun c hc => .inr hc
      · exact .inl htodo
    · exact .inr fun c hc => .inl (hclosed c hc)
  constructor
  · intro b hb
    rcases Progress.mem_seen_follow.mp hb with hb | hb
    · exact h.reachable b hb
    · obtain ⟨root, hroot, hpath⟩ := h.reachable a ha
      exact ⟨root, hroot, hpath.tail hb⟩
  · exact fun b hb => Progress.mem_seen_follow.mpr (.inl (h.roots b hb))
  · intro b hb
    rw [Progress.mem_todo_follow]
    simp only [Progress.mem_seen_follow]
    by_cases hseen : b ∈ seen
    · exact (hbefore b hseen).imp_left .inl
    · exact .inl (.inr ⟨(Progress.mem_seen_follow.mp hb).resolve_left hseen, hseen⟩)
  · intro b hb
    rw [Progress.mem_seen_follow]
    rcases Progress.mem_todo_follow.mp hb with hb | ⟨hb, -⟩
    · exact .inl (h.todo b (mem_cons_of_mem _ hb))
    · exact .inr hb

theorem Graph.Closing.mem_close {roots : List α} (h : g.Closing roots p) (b : α) :
    b ∈ g.close p ↔ g.Reachable roots b := by
  induction p using Graph.close.induct (g := g) with
  | case1 seen =>
    rw [Graph.close]
    constructor
    · exact h.reachable b
    · rintro ⟨root, hroot, hpath⟩
      induction hpath with
      | refl => exact h.roots root hroot
      | tail _ hedge ih =>
        rcases h.next _ ih with hleft | hclosed
        · cases hleft
        · exact hclosed _ hedge
  | case2 seen a todo ih =>
    rw [Graph.close]
    exact ih h.round

/-- **The worklist** finds what is reachable from the roots. -/
theorem Graph.mem_close (g : Graph α) (roots : List α) (b : α) : b ∈ g.close ⟨roots, roots⟩ ↔ g.Reachable roots b := by
  refine Graph.Closing.mem_close ⟨fun a ha => ⟨a, ha, .refl⟩, fun _ ha => ha, fun _ ha => .inl ha, fun _ ha => ha⟩ b

end Worklist
