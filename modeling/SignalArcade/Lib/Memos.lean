import Mathlib.Logic.Function.Basic
import Mathlib.Data.Nat.Notation
import Mathlib.Tactic.SplitIfs

/-!
# Memos with scopes

A memo keeps values that were computed, key by key. It lasts as long as a scope: a scope takes the memo it finds, if
it may reuse it and the memo belongs to a pass, or starts an empty one. Where scopes with different memos were nested,
the outer memo is emptied once the inner scope is left, because it could not see what happened meanwhile.
-/

/-- A scope that was entered: the memo and the owner it found, and the memo it uses. -/
structure MemoScope where
  previous : Option ℕ
  previousOwner : Option ℕ
  memo : ℕ

/-- The memos that were made, numbered, and the scopes that were entered and not left, the innermost first. -/
structure Memos (κ β : Type) where
  values : ℕ → κ → Option β := fun _ _ => none
  made : ℕ := 0
  /-- The memo that is read and filled, within a scope. -/
  current : Option ℕ := none
  /-- The memo that belongs to a pass. -/
  owner : Option ℕ := none
  scopes : List MemoScope := []

namespace Memos

variable {κ β : Type}

def forget (m : Memos κ β) (memo : ℕ) : Memos κ β :=
  { m with values := Function.update m.values memo fun _ => none }

/-- Forget what the current memo keeps. -/
def clear (m : Memos κ β) : Memos κ β :=
  match m.current with
  | none => m
  | some memo => m.forget memo

def make (m : Memos κ β) : Memos κ β :=
  { m.forget m.made with made := m.made + 1 }

/-- Use a memo, in a new scope. -/
def push (m : Memos κ β) (memo : ℕ) (pass : Bool) : Memos κ β :=
  { m with
    current := some memo
    owner := if pass then some memo else if m.current = some memo then m.owner else none
    scopes := ⟨m.current, m.owner, memo⟩ :: m.scopes }

def enter (m : Memos κ β) (reuse pass : Bool) : Memos κ β :=
  match m.current with
  | some memo =>
    if reuse ∧ m.owner = some memo then m.push memo pass
    else m.make.push m.made pass
  | none => m.make.push m.made pass

/-- Leave the innermost scope. -/
def leave (m : Memos κ β) : Memos κ β :=
  match m.scopes with
  | [] => m
  | scope :: scopes =>
    let m := match scope.previous with
      | some memo => if memo = scope.memo then m else m.forget memo
      | none => m
    { m with
      current := scope.previous
      owner := scope.previousOwner
      scopes := scopes }

/-- The value of a key: the one that is kept, or the one that is computed. -/
def get (m : Memos κ β) (value : κ → β) (k : κ) : β :=
  match m.current with
  | none => value k
  | some memo => (m.values memo k).getD (value k)

/-- Keep a value in a memo. -/
def put [DecidableEq κ] (m : Memos κ β) (memo : ℕ) (k : κ) (b : β) : Memos κ β :=
  { m with values := Function.update m.values memo (Function.update (m.values memo) k (some b)) }

def keep [DecidableEq κ] (m : Memos κ β) (value : κ → β) (k : κ) : Memos κ β :=
  match m.current with
  | none => m
  | some memo => m.put memo k (m.get value k)

/-- Change what every memo keeps. -/
def map (m : Memos κ β) (f : β → β) : Memos κ β :=
  { m with values := fun memo k => (m.values memo k).map f }

/-- The current memo is that of the innermost scope, and each scope found that of the scope around it. -/
def Nested : Option ℕ → List MemoScope → Prop
  | current, [] => current = none
  | current, scope :: scopes => current = some scope.memo ∧ Nested scope.previous scopes

/-- What the current memo keeps is what the function gives. -/
structure Agrees (m : Memos κ β) (value : κ → β) : Prop where
  kept : ∀ memo, m.current = some memo → ∀ k b, m.values memo k = some b → b = value k
  nested : Nested m.current m.scopes

variable {m : Memos κ β} {value value' : κ → β}

theorem agrees_new : ({} : Memos κ β).Agrees value where
  kept _ hmemo := by cases hmemo
  nested := rfl

/-- **A memo cannot be told** from the function it agrees with. -/
theorem Agrees.get_eq (h : m.Agrees value) (k : κ) : m.get value k = value k := by
  unfold get
  cases hcurrent : m.current with
  | none => rfl
  | some memo =>
    dsimp only
    cases hkept : m.values memo k with
    | none => rfl
    | some b => exact h.kept memo hcurrent k b hkept

theorem kept_forget {memo : ℕ} {k : κ} {b : β} : (m.forget memo).values memo k ≠ some b := by
  simp [forget]

theorem Agrees.push {memo : ℕ} {pass : Bool} (hnested : Nested m.current m.scopes)
    (hkept : ∀ k b, m.values memo k = some b → b = value k) : (m.push memo pass).Agrees value where
  kept memo' hmemo' := by
    obtain rfl : memo = memo' := Option.some_inj.mp hmemo'
    exact hkept
  nested := ⟨rfl, hnested⟩

section

variable (h : m.Agrees value)
include h

theorem Agrees.enter (reuse pass : Bool) : (m.enter reuse pass).Agrees value := by
  have hnew : (m.make.push m.made pass).Agrees value :=
    .push h.nested fun k b hb => absurd hb kept_forget
  unfold Memos.enter
  cases hcurrent : m.current with
  | none => exact hnew
  | some memo =>
    dsimp only
    split_ifs
    · exact .push h.nested (h.kept memo hcurrent)
    · exact hnew

theorem Agrees.leave : m.leave.Agrees value := by
  obtain ⟨hkept, hnested⟩ := h
  unfold Memos.leave
  cases hscopes : m.scopes with
  | nil => exact ⟨hkept, hnested⟩
  | cons scope scopes =>
    rw [hscopes] at hnested
    obtain ⟨hcurrent, hnested⟩ := hnested
    refine ⟨fun memo hmemo k b hb => ?_, hnested⟩
    dsimp only at hmemo hb
    rw [hmemo] at hb
    dsimp only at hb
    split_ifs at hb with hsame
    · exact hkept memo (hsame ▸ hcurrent) k b hb
    · exact absurd hb kept_forget

theorem Agrees.clear : m.clear.Agrees value' := by
  unfold Memos.clear
  cases hcurrent : m.current with
  | none =>
    refine ⟨fun memo hmemo => ?_, h.nested⟩
    rw [hcurrent] at hmemo
    cases hmemo
  | some memo =>
    refine ⟨fun memo' hmemo' k b hb => ?_, h.nested⟩
    obtain rfl : memo = memo' := Option.some_inj.mp (hcurrent.symm.trans hmemo')
    exact absurd hb kept_forget

theorem Agrees.put [DecidableEq κ] (memo : ℕ) (k : κ) : (m.put memo k (value k)).Agrees value where
  kept memo' hmemo' k' b hb := by
    rw [Memos.put] at hb
    dsimp only at hb
    by_cases hmemo : memo' = memo
    · subst hmemo
      rw [Function.update_self] at hb
      by_cases hk : k' = k
      · subst hk
        rw [Function.update_self] at hb
        exact (Option.some_inj.mp hb).symm
      · rw [Function.update_of_ne hk] at hb
        exact h.kept memo' hmemo' k' b hb
    · rw [Function.update_of_ne hmemo] at hb
      exact h.kept memo' hmemo' k' b hb
  nested := h.nested

theorem Agrees.keep [DecidableEq κ] (k : κ) : (m.keep value k).Agrees value := by
  unfold Memos.keep
  rw [h.get_eq]
  cases m.current with
  | none => exact h
  | some memo => exact h.put memo k

theorem Agrees.map {f : β → β} (hf : ∀ k, value' k = f (value k)) : (m.map f).Agrees value' where
  kept memo hmemo k b hb := by
    obtain ⟨b, hkept, rfl⟩ := Option.map_eq_some_iff.mp hb
    rw [h.kept memo hmemo k b hkept, hf]
  nested := h.nested

end

end Memos
