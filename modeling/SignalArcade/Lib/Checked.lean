import Mathlib.Tactic.SplitIfs

/-!
# Checked computations

Straight-line code that validates its inputs: a sequence of `if … raise` and calls
that may raise, ending in a value. A proof needs to know what was checked on the way
when it returned: rewriting with `bind_eq_ok` and `raiseIf_eq_ok` turns `body = .ok a`
into the conjunction of the checks.
-/

namespace Checked

universe u v w

variable {ε : Type u} {α : Type v} {β : Type v}

/-- `if c: raise e`. -/
def raiseIf (c : Prop) [Decidable c] (e : ε) : Except ε PUnit := if c then .error e else .ok ⟨⟩

theorem raiseIf_eq_ok {c : Prop} [Decidable c] {e : ε} {u : PUnit} : raiseIf c e = .ok u ↔ ¬ c := by
  unfold raiseIf
  split_ifs with h <;> simp [h]

/-- Both parts have returned. -/
theorem bind_eq_ok {x : Except ε α} {f : α → Except ε β} {b : β} :
    (x >>= f) = .ok b ↔ ∃ a, x = .ok a ∧ f a = .ok b := by
  cases x with
  | error e => simp [bind, Except.bind]
  | ok a => simp [bind, Except.bind]

theorem pure_eq_ok {a b : α} : (pure a : Except ε α) = .ok b ↔ a = b := by
  simp [pure, Except.pure]

theorem bind_eq_error {x : Except ε α} {f : α → Except ε β} {e : ε} :
    (x >>= f) = .error e ↔ x = .error e ∨ ∃ a, x = .ok a ∧ f a = .error e := by
  cases x with
  | error e' => simp [bind, Except.bind]
  | ok a => simp [bind, Except.bind]

theorem raiseIf_eq_error {c : Prop} [Decidable c] {e e' : ε} : raiseIf c e = .error e' ↔ c ∧ e = e' := by
  unfold raiseIf
  split_ifs with h <;> simp [h]

theorem raiseIf_of_not {c : Prop} [Decidable c] {e : ε} (h : ¬ c) : raiseIf c e = .ok ⟨⟩ := if_neg h

end Checked
