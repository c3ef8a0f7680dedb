import Mathlib.Data.List.Chain
import Mathlib.Algebra.Order.Group.Basic

/-!
# Alarms that persist

A counter of alarms that takes an alarm only where it comes neither too soon after the last one it
took nor too late: too soon, and it is left out; too late, and the count begins anew. Something clear
ends the count, and what is neutral does nothing.
-/

namespace Debounce

open List

/-- What a sample says. -/
inductive Signal where
  | clear | neutral | alarm
  deriving DecidableEq

/-- The first and the last alarm that were taken, and how many. -/
structure Counter (τ : Type) where
  first : Option τ := none
  last : Option τ := none
  count : ℕ := 0

def alarms {τ : Type} (history : List (Signal × τ)) : List τ := (history.filter (·.1 = .alarm)).map Prod.snd

theorem alarms_append {τ : Type} (history history' : List (Signal × τ)) :
    alarms (history ++ history') = alarms history ++ alarms history' := by
  unfold alarms
  rw [filter_append, map_append]

theorem alarms_alarm {τ : Type} (t : τ) : alarms [(Signal.alarm, t)] = [t] := rfl

variable {τ : Type} [AddCommGroup τ] [LinearOrder τ] (near far : τ)

def step (c : Counter τ) : Signal × τ → Counter τ
  | (.clear, _) => {}
  | (.neutral, _) => c
  | (.alarm, t) =>
    if c.first = none ∨ ∃ l ∈ c.last, far < t - l then ⟨some t, some t, 1⟩
    else if ∀ l ∈ c.last, near ≤ t - l then { c with last := some t, count := c.count + 1 }
    else c

def run (history : List (Signal × τ)) : Counter τ := history.foldl (step near far) {}

variable {near far} {history : List (Signal × τ)} {c : Counter τ} {s : Signal × τ} {t : τ}

theorem run_concat (history : List (Signal × τ)) (s : Signal × τ) :
    run near far (history ++ [s]) = step near far (run near far history) s := by
  unfold run
  rw [foldl_append, foldl_cons, foldl_nil]

/-- The counter has counted this chain of alarms. -/
structure Counts (near far : τ) (history : List (Signal × τ)) (c : Counter τ) (chain : List τ) : Prop where
  recent : ∃ earlier recent, history = earlier ++ recent ∧ (∀ s ∈ recent, s.1 ≠ .clear) ∧ chain.Sublist (alarms recent)
  spaced : chain.IsChain fun a b => near ≤ b - a ∧ b - a ≤ far
  first : c.first = chain.head?
  last : c.last = chain.getLast?
  count : c.count = chain.length

theorem Counts.skip {chain : List τ} (h : Counts near far history c chain) (hs : s.1 ≠ .clear) :
    Counts near far (history ++ [s]) c chain := by
  obtain ⟨earlier, recent, heq, hclear, hsub⟩ := h.recent
  refine ⟨⟨earlier, recent ++ [s], by rw [heq, append_assoc], ?_, ?_⟩, h.spaced, h.first, h.last, h.count⟩
  · intro s' hs'
    rcases mem_append.mp hs' with hold | hnew
    · exact hclear s' hold
    · rw [mem_singleton.mp hnew]
      exact hs
  · rw [alarms_append]
    exact hsub.trans (sublist_append_left _ _)

theorem Counts.restart (history : List (Signal × τ)) (t : τ) :
    Counts near far (history ++ [(.alarm, t)]) ⟨some t, some t, 1⟩ [t] := by
  refine ⟨⟨history, [(.alarm, t)], rfl, ?_, ?_⟩, isChain_singleton t, rfl, rfl, rfl⟩
  · intro s hs
    rw [mem_singleton.mp hs]
    exact Signal.noConfusion
  · rw [alarms_alarm]

theorem Counts.take {chain : List τ} (h : Counts near far history c chain) (hne : chain ≠ [])
    (hnear : ∀ l ∈ c.last, near ≤ t - l) (hfar : ∀ l ∈ c.last, t - l ≤ far) :
    Counts near far (history ++ [(.alarm, t)]) { c with last := some t, count := c.count + 1 } (chain ++ [t]) := by
  obtain ⟨earlier, recent, heq, hclear, hsub⟩ := h.recent
  refine ⟨⟨earlier, recent ++ [(.alarm, t)], by rw [heq, append_assoc], ?_, ?_⟩, ?_, ?_, ?_, ?_⟩
  · intro s hs
    rcases mem_append.mp hs with hold | hnew
    · exact hclear s hold
    · rw [mem_singleton.mp hnew]
      exact Signal.noConfusion
  · rw [alarms_append, alarms_alarm]
    exact hsub.append (Sublist.refl _)
  · refine IsChain.append h.spaced (isChain_singleton t) ?_
    intro l hl b hb
    obtain rfl : t = b := Option.some_inj.mp hb
    rw [← h.last] at hl
    exact ⟨hnear l hl, hfar l hl⟩
  · rw [h.first, List.head?_append_of_ne_nil _ hne]
  · rw [getLast?_append, getLast?_singleton]
    rfl
  · rw [h.count, length_append]
    rfl

/-- **What is counted is a chain of alarms at the right distances**, with nothing clear since it began. -/
theorem run_spaced (near far : τ) (history : List (Signal × τ)) :
    ∃ chain, Counts near far history (run near far history) chain := by
  induction history using reverseRecOn with
  | nil => exact ⟨[], ⟨[], [], rfl, fun _ h => absurd h not_mem_nil, .slnil⟩, .nil, rfl, rfl, rfl⟩
  | append_singleton history s ih =>
    obtain ⟨chain, h⟩ := ih
    obtain ⟨signal, t⟩ := s
    rw [run_concat]
    cases signal with
    | clear =>
      refine ⟨[], ⟨history ++ [(.clear, t)], [], (append_nil _).symm, ?_, .slnil⟩, .nil, rfl, rfl, rfl⟩
      exact fun _ hs => absurd hs not_mem_nil
    | neutral => exact ⟨chain, h.skip Signal.noConfusion⟩
    | alarm =>
      unfold step
      dsimp only
      split_ifs with hrestart htake
      · exact ⟨[t], .restart history t⟩
      · push Not at hrestart
        have hne : chain ≠ [] := by
          rintro rfl
          exact hrestart.1 h.first
        exact ⟨chain ++ [t], h.take hne htake hrestart.2⟩
      · exact ⟨chain, h.skip Signal.noConfusion⟩

/-! ### The same alarm again -/

theorem run_first_none (h : (run near far history).first = none) : (run near far history).last = none := by
  obtain ⟨chain, hcounts⟩ := run_spaced near far history
  rw [hcounts.first, List.head?_eq_none_iff] at h
  rw [hcounts.last, h]
  rfl

theorem alarm_before [IsOrderedAddMonoid τ] (hpos : 0 < near) (hle : near ≤ far) {earlier later : List (Signal × τ)}
    (hclear : ∀ s ∈ later, s.1 ≠ .clear) :
    ∃ l ∈ (run near far (earlier ++ (.alarm, t) :: later)).last, t - l < near := by
  induction later using reverseRecOn with
  | nil =>
    rw [run_concat]
    unfold step
    dsimp only
    split_ifs with hrestart htake
    · exact ⟨t, rfl, by rwa [sub_self]⟩
    · exact ⟨t, rfl, by rwa [sub_self]⟩
    · push Not at htake
      exact htake
  | append_singleton later s ih =>
    obtain ⟨l, hl, hlt⟩ := ih fun s hs => hclear s (mem_append_left _ hs)
    rw [← cons_append, ← append_assoc, run_concat]
    obtain ⟨signal, t'⟩ := s
    cases signal with
    | clear => exact absurd rfl (hclear (.clear, t') (mem_append_right _ mem_cons_self))
    | neutral => exact ⟨l, hl, hlt⟩
    | alarm =>
      -- whatever is taken comes later
      have hlater : l ≤ t' → t - t' < near := fun h => (sub_le_sub_left h t).trans_lt hlt
      unfold step
      dsimp only
      split_ifs with hrestart htake
      · refine ⟨t', rfl, hlater ?_⟩
        rcases hrestart with hfirst | ⟨l', hl', hfar⟩
        · rw [run_first_none hfirst] at hl
          cases hl
        · obtain rfl : l' = l := Option.some_inj.mp (hl'.symm.trans hl)
          exact sub_nonneg.mp ((hpos.le.trans hle).trans hfar.le)
      · exact ⟨t', rfl, hlater (sub_nonneg.mp (hpos.le.trans (htake l hl)))⟩
      · exact ⟨l, hl, hlt⟩

/-- **An alarm that was read before is not counted again**, with nothing clear since. -/
theorem step_reread [IsOrderedAddMonoid τ] (hpos : 0 < near) (hle : near ≤ far) {earlier later : List (Signal × τ)}
    (hclear : ∀ s ∈ later, s.1 ≠ .clear) :
    step near far (run near far (earlier ++ (.alarm, t) :: later)) (.alarm, t) =
      run near far (earlier ++ (.alarm, t) :: later) := by
  obtain ⟨l, hl, hlt⟩ := @alarm_before τ _ _ near far t _ hpos hle earlier later hclear
  unfold step
  dsimp only
  rw [if_neg, if_neg]
  · intro htake
    exact absurd (htake l hl) (not_le.mpr hlt)
  · rintro (hfirst | ⟨l', hl', hfar⟩)
    · rw [run_first_none hfirst] at hl
      cases hl
    · obtain rfl : l' = l := Option.some_inj.mp (hl'.symm.trans hl)
      exact absurd (hfar.trans hlt) (not_lt.mpr hle)

end Debounce
