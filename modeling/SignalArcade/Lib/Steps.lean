import Mathlib.Logic.Relation

/-!
# Steps that may break off

A transition relation whose steps are complete, or broken off for a reason. What an
operation does is a sequence of complete steps; when it raises, the last one may have
been broken off, and nothing follows it.

`Settled` and `Ended` say the two, and an invariant is carried along either by what one
step preserves.
-/

namespace Steps

variable {σ ι : Type} {R : Option ι → σ → σ → Prop} {possible : ι → Prop} {a b c : σ}

/-- Complete steps only. -/
def Settled (R : Option ι → σ → σ → Prop) : σ → σ → Prop := Relation.ReflTransGen (R none)

/-- Complete steps, and perhaps one that broke off for a possible reason. -/
def Ended (R : Option ι → σ → σ → Prop) (possible : ι → Prop) (a b : σ) : Prop :=
  ∃ c, Settled R a c ∧ (c = b ∨ ∃ i, possible i ∧ R (some i) c b)

namespace Settled

theorem refl : Settled R a a := Relation.ReflTransGen.refl

theorem trans (h : Settled R a b) (h' : Settled R b c) : Settled R a c :=
  Relation.ReflTransGen.trans h h'

theorem single (h : R none a b) : Settled R a b := Relation.ReflTransGen.single h

theorem ended (h : Settled R a b) : Ended R possible a b := ⟨b, h, .inl rfl⟩

theorem broken {i : ι} (h : Settled R a b) (hi : possible i) (h' : R (some i) b c) :
    Ended R possible a c := ⟨b, h, .inr ⟨i, hi, h'⟩⟩

theorem trans_ended (h : Settled R a b) (h' : Ended R possible b c) : Ended R possible a c := by
  obtain ⟨d, hd, hlast⟩ := h'
  exact ⟨d, h.trans hd, hlast⟩

theorem invariant {I : σ → Prop} (h : Settled R a b) (hI : I a) (step : ∀ a b, I a → R none a b → I b) : I b := by
  induction h with
  | refl => exact hI
  | tail _ hlast ih => exact step _ _ ih hlast

end Settled

theorem Ended.invariant {I : σ → Prop} (h : Ended R possible a b) (hI : I a) (step : ∀ a b, I a → R none a b → I b)
    (broken : ∀ i a b, possible i → I a → R (some i) a b → I b) : I b := by
  obtain ⟨c, hc, rfl | ⟨i, hi, hlast⟩⟩ := h
  · exact hc.invariant hI step
  · exact broken i c b hi (hc.invariant hI step) hlast

end Steps
