import Mathlib.Tactic.Linarith

/-!
# Slices

A list is worked through in slices of a fixed size, `for offset in range(0, len(xs), size)`, the last of which may be
shorter. Together they are the list (`flatten_slices`), so that a loop over the slices with a loop over
each of them inside is one loop over the list (`foldl_slices`).
-/

namespace Slices

open List

universe u v

variable {α : Type u} {β : Type v}

def slices (size : ℕ) (xs : List α) : List (List α) :=
  (range ((xs.length + size - 1) / size)).map fun i => (xs.drop (i * size)).take size

theorem flatten_take_slices (size n : ℕ) (xs : List α) :
    ((range n).map fun i => (xs.drop (i * size)).take size).flatten = xs.take (n * size) := by
  induction n with
  | zero => simp
  | succ n ih =>
    rw [range_succ, map_append, flatten_append, ih, Nat.succ_mul, take_add]
    simp

theorem flatten_slices {size : ℕ} (h : 0 < size) (xs : List α) : (slices size xs).flatten = xs := by
  rw [slices, flatten_take_slices, take_of_length_le]
  have hdiv : xs.length + size - 1 < ((xs.length + size - 1) / size + 1) * size := by
    rw [Nat.mul_comm]
    exact Nat.lt_mul_div_succ _ h
  rw [Nat.add_mul, Nat.one_mul] at hdiv
  omega

theorem foldl_slices {size : ℕ} (h : 0 < size) (f : β → α → β) (b : β) (xs : List α) :
    (slices size xs).foldl (fun b slice => slice.foldl f b) b = xs.foldl f b := by
  rw [← foldl_flatten, flatten_slices h]

theorem foldlM_slices {m : Type v → Type*} [Monad m] [LawfulMonad m] {size : ℕ} (h : 0 < size) (f : β → α → m β) (b : β)
    (xs : List α) : (slices size xs).foldlM (fun b slice => slice.foldlM f b) b = xs.foldlM f b := by
  have hflatten : ∀ (xss : List (List α)) (b : β), xss.foldlM (fun b slice => slice.foldlM f b) b = xss.flatten.foldlM f b := by
    intro xss
    induction xss with
    | nil => exact fun b => rfl
    | cons xs xss ih =>
      intro b
      rw [foldlM_cons, flatten_cons, foldlM_append]
      exact bind_congr ih
  rw [hflatten, flatten_slices h]

theorem mem_slices {size : ℕ} (h : 0 < size) {xs : List α} {x : α} : (∃ slice ∈ slices size xs, x ∈ slice) ↔ x ∈ xs := by
  rw [← mem_flatten, flatten_slices h]

end Slices
