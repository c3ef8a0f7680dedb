import SignalArcade.Lib.Prog
import Mathlib.Data.List.Basic

/-!
# Readers and what they read

A reader takes tokens from the front of what is left of a stream, and may raise. `Inverts x written a` says that the
reader `x` reads `written` back as `a`: it leaves what comes after, and of a stream that ends before `written` does it
makes nothing, but raises one of the errors that say so.

Readers that run one after the other read back what was written one after the other (`Inverts.bind`); so a format is
verified along the text of its reader.
-/

namespace Readers

open List

variable {ε τ α β : Type} {ends : ε → Prop}

/-- The reader reads `written` back as `a`, and nothing from less than that. -/
structure Inverts (ends : ε → Prop) (x : EStateM ε (List τ) α) (written : List τ) (a : α) : Prop where
  reads : ∀ rest, x (written ++ rest) = .ok a rest
  short : ∀ p, p <+: written → p ≠ written → ∃ e rest, ends e ∧ x p = .error e rest

namespace Inverts

variable {x : EStateM ε (List τ) α} {f : α → EStateM ε (List τ) β} {written written' : List τ} {a : α} {b : β}

theorem pure (a : α) : Inverts ends (Pure.pure a : EStateM ε (List τ) α) [] a where
  reads _ := rfl
  short _ hp hne := absurd (prefix_nil.mp hp) hne

theorem bind (hx : Inverts ends x written a) (hf : Inverts ends (f a) written' b) :
    Inverts ends (x >>= f) (written ++ written') b where
  reads rest := by
    rw [append_assoc, Prog.bind_of_ok (hx.reads _)]
    exact hf.reads rest
  short p hp hne := by
    rcases prefix_or_prefix_of_prefix hp (prefix_append written written') with hle | ⟨p', rfl⟩
    · by_cases hall : p = written
      · -- the first part is all there
        subst hall
        have hne' : ([] : List τ) ≠ written' := by
          rintro rfl
          exact hne (append_nil p).symm
        obtain ⟨e, rest, he, herror⟩ := hf.short [] nil_prefix hne'
        have hok : x p = .ok a [] := by simpa using hx.reads []
        exact ⟨e, rest, he, (Prog.bind_of_ok hok).trans herror⟩
      · obtain ⟨e, rest, he, herror⟩ := hx.short p hle hall
        exact ⟨e, rest, he, Prog.bind_of_error herror⟩
    · have hne' : p' ≠ written' := fun he => hne (he ▸ rfl)
      obtain ⟨e, rest, he, herror⟩ := hf.short p' ((prefix_append_right_inj written).mp hp) hne'
      exact ⟨e, rest, he, (Prog.bind_of_ok (hx.reads p')).trans herror⟩

theorem bind_pure (hx : Inverts ends x written a) (g : α → β) : Inverts ends (x >>= fun a => Pure.pure (g a)) written (g a) :=
  append_nil written ▸ hx.bind (f := fun a => Pure.pure (g a)) (pure (g a))

theorem of_eq {y : EStateM ε (List τ) α} (h : Inverts ends x written a) (hy : y = x) : Inverts ends y written a := hy ▸ h

theorem mapM_nil {ρ : Type} (read : ρ → EStateM ε (List τ) α) : Inverts ends (List.mapM read []) [] [] := pure []

theorem mapM_cons {ρ : Type} {read : ρ → EStateM ε (List τ) α} {spec : ρ} {specs : List ρ} {as : List α}
    (h : Inverts ends (read spec) written a) (hs : Inverts ends (specs.mapM read) written' as) :
    Inverts ends ((spec :: specs).mapM read) (written ++ written') (a :: as) := by
  rw [List.mapM_cons]
  exact h.bind (hs.bind_pure fun as => a :: as)

theorem of_singleton {ρ : Type} {read : ρ → EStateM ε (List τ) α} {spec : ρ}
    (h : Inverts ends ([spec].mapM read) written [a]) : Inverts ends (read spec) written a := by
  have hrun : ∀ s, [spec].mapM read s = (read spec >>= fun a => Pure.pure [a]) s := fun s => by simp
  constructor
  · intro rest
    have hreads := h.reads rest
    rw [hrun] at hreads
    simp only [Bind.bind, EStateM.bind, Pure.pure, EStateM.pure] at hreads
    split at hreads
    · next hread =>
      cases hreads
      exact hread
    · cases hreads
  · intro p hp hne
    obtain ⟨e, rest, he, herror⟩ := h.short p hp hne
    rw [hrun] at herror
    simp only [Bind.bind, EStateM.bind, Pure.pure, EStateM.pure] at herror
    split at herror
    · cases herror
    · next hread =>
      cases herror
      exact ⟨e, rest, he, hread⟩

end Inverts

end Readers
