import SignalArcade.Lib.Runs
import SignalArcade.Lib.Table
import Mathlib.Data.List.TakeWhile

/-!
# The integrity window

The gaps of the market stream that the orchestrator remembers, so that it learns from a
token only after five minutes without one: the time of the last source-wide gap, and for
each token the time of its last gap, the token noted last at the end. The times are those
the callers pass, wall-clock times and times of events, in microseconds.
-/

namespace SignalArcade.Market

open Runs List

/-- `_INTEGRITY_LEARNING_CLEAN_WINDOW_SECONDS`. -/
def cleanWindow : ℤ := 5 * 60 * 1000000

/-- The gap noted last of each mint. -/
abbrev MintGaps : Type := Table String (String × ℤ) Prod.fst

/-- What the orchestrator remembers of the stream. -/
structure IntegrityWindow where
  demoMode : Bool
  /-- `_integrity_stream_gap_at`. -/
  streamGapAt : Option ℤ := none
  /-- `_integrity_mint_gap_at`. -/
  mintGapAt : MintGaps := .empty
  /-- `_max_integrity_gap_mints`. -/
  maxGapMints : ℕ
  /-- `_integrity_last_stream_reconnects`. -/
  lastStreamReconnects : ℤ
  /-- `_integrity_stream_was_healthy`. -/
  streamWasHealthy : Bool := false
  deriving DecidableEq

/-- What `solana.health()` says. -/
structure ProviderHealth where
  reconnects : ℤ
  connected : Bool
  /-- `last_error` is there. -/
  failed : Bool

/-- `_mark_integrity_stream_gap`. -/
def IntegrityWindow.markStreamGap (w : IntegrityWindow) (observedAt : ℤ) : IntegrityWindow :=
  { w with streamGapAt := some observedAt, mintGapAt := .empty }

/-- A gap is older than the window before a time. -/
def expired (observedAt : ℤ) (gap : String × ℤ) : Bool := gap.2 ≤ observedAt - cleanWindow

/-- The oldest gaps are forgotten when they are older than the window. -/
def IntegrityWindow.pruned (w : IntegrityWindow) (observedAt : ℤ) : IntegrityWindow :=
  { w with mintGapAt := w.mintGapAt.dropWhile (expired observedAt) }

/-- There is no room for the gap of another token. -/
def IntegrityWindow.full (w : IntegrityWindow) (mint : String) : Bool :=
  (w.mintGapAt.get? mint).isNone && w.maxGapMints ≤ w.mintGapAt.rows.length

/-- `_note_integrity_mint_gap`. -/
def IntegrityWindow.noteMintGap (w : IntegrityWindow) (mint : Option String) (observedAt : ℤ) : IntegrityWindow :=
  match mint.filter (· ≠ "") with
  | none => w.markStreamGap observedAt
  | some mint =>
    let w := w.pruned observedAt
    if w.full mint then w.markStreamGap observedAt
    else { w with mintGapAt := (w.mintGapAt.erase mint).upsert (mint, observedAt) }

def ProviderHealth.healthy (health : ProviderHealth) : Bool := health.connected && !health.failed

namespace IntegrityWindow

def countReconnects (w : IntegrityWindow) (health : ProviderHealth) : IntegrityWindow :=
  if w.lastStreamReconnects < health.reconnects then
    { w with lastStreamReconnects := health.reconnects, streamWasHealthy := false }
  else w

/-- The stream has recovered since the last look at it. -/
def recovers (w : IntegrityWindow) (health : ProviderHealth) : Bool :=
  health.healthy && !(w.countReconnects health).streamWasHealthy

/-- What a look at the stream leaves. -/
def observed (w : IntegrityWindow) (health : ProviderHealth) (now : ℤ) : IntegrityWindow :=
  let w' := w.countReconnects health
  if w.recovers health then { w' with streamWasHealthy := true }.markStreamGap now
  else { w' with streamWasHealthy := health.healthy }

/-- The part of `_integrity_learning_window_complete` after the look at the stream. -/
def windowComplete (w : IntegrityWindow) (mint : String) (decisionAt : ℤ) : Bool × IntegrityWindow :=
  if w.streamGapAt.any (decisionAt - · < cleanWindow) then (false, w)
  else
    match w.mintGapAt.get? mint with
    | none => (true, w)
    | some gap =>
      if decisionAt - gap.2 < cleanWindow then (false, w)
      else (true, { w with mintGapAt := w.mintGapAt.erase mint })

/-- `_integrity_learning_window_complete`. -/
def learningWindowComplete (w : IntegrityWindow) (mint : String) (decisionAt : ℤ)
    (health : ProviderHealth) : Bool × IntegrityWindow :=
  if w.demoMode then w.windowComplete mint decisionAt
  else
    let w := w.observed health decisionAt
    if !health.healthy then (false, w)
    else if w.streamGapAt.isNone then (false, w)
    else w.windowComplete mint decisionAt

end IntegrityWindow

/-- The calls on the window. `observeStream` is the look of the incident observer at the stream. -/
inductive WindowAction where
  | markStreamGap (observedAt : ℤ)
  | noteMintGap (mint : Option String) (observedAt : ℤ)
  | learningWindowComplete (mint : String) (decisionAt : ℤ) (health : ProviderHealth)
  | observeStream (now : ℤ) (health : ProviderHealth)

/-- One call. -/
def IntegrityWindow.step (w : IntegrityWindow) : WindowAction → IntegrityWindow
  | .markStreamGap observedAt => w.markStreamGap observedAt
  | .noteMintGap mint observedAt => w.noteMintGap mint observedAt
  | .learningWindowComplete mint decisionAt health => (w.learningWindowComplete mint decisionAt health).2
  | .observeStream now health => w.observed health now

/-! ### What was noted and what was forgotten -/

/-- A gap, of one token or source-wide. -/
structure Gap where
  mint : Option String
  observedAt : ℤ
  deriving DecidableEq

/-- The gaps a call notes. A gap there is no room for is source-wide as well, and so is a recovery of
the stream. -/
def IntegrityWindow.notes (w : IntegrityWindow) : WindowAction → List Gap
  | .markStreamGap observedAt => [⟨none, observedAt⟩]
  | .noteMintGap mint observedAt =>
    match mint.filter (· ≠ "") with
    | none => [⟨none, observedAt⟩]
    | some mint =>
      ⟨some mint, observedAt⟩ :: if (w.pruned observedAt).full mint then [⟨none, observedAt⟩] else []
  | .learningWindowComplete _ decisionAt health =>
    if !w.demoMode && w.recovers health then [⟨none, decisionAt⟩] else []
  | .observeStream now health => if w.recovers health then [⟨none, now⟩] else []

/-- The tokens whose gap a call forgets because it is old, with the time of the call. -/
def IntegrityWindow.forgets (w : IntegrityWindow) : WindowAction → List (String × ℤ)
  | .noteMintGap mint observedAt =>
    match mint.filter (· ≠ "") with
    | none => []
    | some _ => (w.mintGapAt.rows.takeWhile (expired observedAt)).map fun gap => (gap.1, observedAt)
  | .learningWindowComplete mint decisionAt health =>
    if (w.learningWindowComplete mint decisionAt health).1 && (w.mintGapAt.get? mint).isSome then
      [(mint, decisionAt)]
    else []
  | _ => []

/-- The window, with all gaps ever noted and with what was forgotten. -/
structure Watch where
  window : IntegrityWindow
  noted : List Gap := []
  forgotten : List (String × ℤ) := []

/-- One call. -/
def Watch.step (s : Watch) (a : WindowAction) : Watch where
  window := s.window.step a
  noted := s.noted ++ s.window.notes a
  forgotten := s.forgotten ++ s.window.forgets a

/-- A source-wide gap is not marked before a remembered gap. -/
def IntegrityWindow.Latest (w : IntegrityWindow) (observedAt : ℤ) : Prop :=
  (∀ gapAt ∈ w.streamGapAt, gapAt ≤ observedAt) ∧ ∀ gap ∈ w.mintGapAt.rows, gap.2 ≤ observedAt

/-- The call comes in order: each gap that is noted is not before those it replaces, and no token is
checked before the call that forgot a gap of it. -/
def Watch.InOrder (s : Watch) : WindowAction → Prop
  | .markStreamGap observedAt => s.window.Latest observedAt
  | .noteMintGap mint observedAt =>
    match mint.filter (· ≠ "") with
    | none => s.window.Latest observedAt
    | some mint => (∀ gap ∈ s.window.mintGapAt.get? mint, gap.2 ≤ observedAt) ∧
        ((s.window.pruned observedAt).full mint = true → (s.window.pruned observedAt).Latest observedAt)
  | .learningWindowComplete mint decisionAt health =>
    (s.window.demoMode = false → s.window.recovers health = true → s.window.Latest decisionAt) ∧
      ∀ forgotten ∈ s.forgotten, forgotten.1 = mint → forgotten.2 ≤ decisionAt
  | .observeStream now health => s.window.recovers health = true → s.window.Latest now

instance (w : IntegrityWindow) (observedAt : ℤ) : Decidable (w.Latest observedAt) :=
  inferInstanceAs (Decidable (_ ∧ _))

instance (s : Watch) : (a : WindowAction) → Decidable (s.InOrder a)
  | .markStreamGap observedAt => inferInstanceAs (Decidable (s.window.Latest observedAt))
  | .noteMintGap mint observedAt =>
    match hmint : mint.filter (· ≠ "") with
    | none => decidable_of_iff (s.window.Latest observedAt) (by rw [Watch.InOrder, hmint])
    | some mint =>
      decidable_of_iff ((∀ gap ∈ s.window.mintGapAt.get? mint, gap.2 ≤ observedAt) ∧
        ((s.window.pruned observedAt).full mint = true → (s.window.pruned observedAt).Latest observedAt))
        (by rw [Watch.InOrder, hmint])
  | .learningWindowComplete mint decisionAt health =>
    inferInstanceAs (Decidable ((s.window.demoMode = false → s.window.recovers health = true →
      s.window.Latest decisionAt) ∧ ∀ forgotten ∈ s.forgotten, forgotten.1 = mint → forgotten.2 ≤ decisionAt))
  | .observeStream now health =>
    inferInstanceAs (Decidable (s.window.recovers health = true → s.window.Latest now))

/-- A check that passes: no gap that concerns the token was noted in the five minutes before it. -/
def Watch.FailsClosed (s : Watch) : WindowAction → Prop
  | .learningWindowComplete mint decisionAt health =>
    (s.window.learningWindowComplete mint decisionAt health).1 = true →
      ∀ gap ∈ s.noted ++ s.window.notes (.learningWindowComplete mint decisionAt health),
        gap.mint = none ∨ gap.mint = some mint →
        ¬ (decisionAt - cleanWindow < gap.observedAt ∧ gap.observedAt ≤ decisionAt)
  | _ => True

/-! ### Every gap is accounted for -/

variable {w : IntegrityWindow} {forgotten : List (String × ℤ)} {gap : Gap} {observedAt : ℤ}

/-- A gap is remembered, or a later one is in its place, or it was old when it was forgotten. -/
def Covered (w : IntegrityWindow) (forgotten : List (String × ℤ)) (gap : Gap) : Prop :=
  (∃ gapAt ∈ w.streamGapAt, gap.observedAt ≤ gapAt) ∨
    ∃ mint, gap.mint = some mint ∧
      ((∃ latest ∈ w.mintGapAt.get? mint, gap.observedAt ≤ latest.2) ∨
        ∃ call ∈ forgotten, call.1 = mint ∧ gap.observedAt + cleanWindow ≤ call.2)

section

variable (h : Covered w forgotten gap)
include h

theorem Covered.mono (more : List (String × ℤ)) : Covered w (forgotten ++ more) gap := by
  rcases h with h | ⟨mint, hmint, h | ⟨call, hcall, h⟩⟩
  · exact .inl h
  · exact .inr ⟨mint, hmint, .inl h⟩
  · exact .inr ⟨mint, hmint, .inr ⟨call, mem_append_left _ hcall, h⟩⟩

theorem Covered.congr {w' : IntegrityWindow} (hstream : w'.streamGapAt = w.streamGapAt)
    (hmint : w'.mintGapAt = w.mintGapAt) : Covered w' forgotten gap := by
  unfold Covered
  rw [hstream, hmint]
  exact h

theorem Covered.marked {w' : IntegrityWindow} (hlatest : w.Latest observedAt)
    (hstream : w'.streamGapAt = some observedAt) : Covered w' forgotten gap := by
  rcases h with ⟨gapAt, hgapAt, hle⟩ | ⟨mint, hmint, ⟨latest, hget, hle⟩ | hforgotten⟩
  · exact .inl ⟨observedAt, hstream, hle.trans (hlatest.1 gapAt hgapAt)⟩
  · exact .inl ⟨observedAt, hstream, hle.trans (hlatest.2 latest (Table.get?_eq_some.mp hget).1)⟩
  · exact .inr ⟨mint, hmint, .inr hforgotten⟩

theorem Covered.pruned (observedAt : ℤ) :
    Covered (w.pruned observedAt)
      (forgotten ++ (w.mintGapAt.rows.takeWhile (expired observedAt)).map fun gap => (gap.1, observedAt)) gap := by
  rcases h with h | ⟨mint, hmint, ⟨latest, hget, hle⟩ | ⟨call, hcall, h⟩⟩
  · exact .inl h
  · obtain ⟨hmem, hkey⟩ := Table.get?_eq_some.mp hget
    rcases Table.mem_takeWhile_or hmem (expired observedAt) with hold | hstays
    · refine .inr ⟨mint, hmint, .inr ⟨(latest.1, observedAt), ?_, hkey, ?_⟩⟩
      · exact mem_append_right _ (mem_map.mpr ⟨latest, hold, rfl⟩)
      · have hexpired : latest.2 ≤ observedAt - cleanWindow := by
          simpa [expired] using mem_takeWhile_imp hold
        dsimp only
        omega
    · exact .inr ⟨mint, hmint, .inl ⟨latest, Table.get?_eq_some.mpr ⟨hstays, hkey⟩, hle⟩⟩
  · exact .inr ⟨mint, hmint, .inr ⟨call, mem_append_left _ hcall, h⟩⟩

theorem Covered.noted {mint : String} (hlater : ∀ latest ∈ w.mintGapAt.get? mint, latest.2 ≤ observedAt) :
    Covered { w with mintGapAt := (w.mintGapAt.erase mint).upsert (mint, observedAt) } forgotten gap := by
  rcases h with h | ⟨mint', hmint, ⟨latest, hget, hle⟩ | hforgotten⟩
  · exact .inl h
  · refine .inr ⟨mint', hmint, .inl ?_⟩
    rw [Option.mem_def] at hget
    rw [Table.get?_upsert, Table.get?_erase, hget]
    by_cases he : mint' = mint
    · exact ⟨(mint, observedAt), by simp [he], hle.trans (hlater latest (he ▸ hget))⟩
    · exact ⟨latest, by simp [he], hle⟩
  · exact .inr ⟨mint', hmint, .inr hforgotten⟩

theorem Covered.popped {mint : String} {decisionAt : ℤ}
    (hold : ∀ latest ∈ w.mintGapAt.get? mint, latest.2 + cleanWindow ≤ decisionAt) :
    Covered { w with mintGapAt := w.mintGapAt.erase mint } (forgotten ++ [(mint, decisionAt)]) gap := by
  rcases h with h | ⟨mint', hmint, ⟨latest, hget, hle⟩ | ⟨call, hcall, h⟩⟩
  · exact .inl h
  · refine .inr ⟨mint', hmint, ?_⟩
    by_cases he : mint' = mint
    · subst he
      have := hold latest hget
      exact .inr ⟨(mint', decisionAt), mem_append_right _ (mem_singleton_self _), rfl, by dsimp only; omega⟩
    · exact .inl ⟨latest, by rw [Table.get?_erase, if_neg he]; exact hget, hle⟩
  · exact .inr ⟨mint', hmint, .inr ⟨call, mem_append_left _ hcall, h⟩⟩

end

/-- Every gap ever noted is covered. -/
def Watch.Accounted (s : Watch) : Prop := ∀ gap ∈ s.noted, Covered s.window s.forgotten gap

variable {health : ProviderHealth}

theorem observed_of_recovers (h : w.recovers health = true) (now : ℤ) :
    (w.observed health now).streamGapAt = some now := by
  unfold IntegrityWindow.observed
  simp [h, IntegrityWindow.markStreamGap]

theorem observed_of_not_recovers (h : w.recovers health = false) (now : ℤ) :
    (w.observed health now).streamGapAt = w.streamGapAt ∧ (w.observed health now).mintGapAt = w.mintGapAt := by
  unfold IntegrityWindow.observed IntegrityWindow.countReconnects
  rw [h]
  dsimp only
  rw [if_neg Bool.false_ne_true]
  split_ifs <;> exact ⟨rfl, rfl⟩

theorem Covered.observed (h : Covered w forgotten gap) {now : ℤ}
    (hlatest : w.recovers health = true → w.Latest now) : Covered (w.observed health now) forgotten gap := by
  cases hrecovers : w.recovers health with
  | true => exact h.marked (hlatest hrecovers) (observed_of_recovers hrecovers now)
  | false =>
    obtain ⟨hstream, hmint⟩ := observed_of_not_recovers hrecovers now
    exact h.congr hstream hmint

/-- No remembered gap that concerns the token is within the window. -/
structure IntegrityWindow.CleanAt (w : IntegrityWindow) (mint : String) (decisionAt : ℤ) : Prop where
  stream : ∀ gapAt ∈ w.streamGapAt, gapAt + cleanWindow ≤ decisionAt
  mint : ∀ latest ∈ w.mintGapAt.get? mint, latest.2 + cleanWindow ≤ decisionAt

theorem windowComplete_cases (w : IntegrityWindow) (mint : String) (decisionAt : ℤ) :
    w.windowComplete mint decisionAt = (false, w) ∨
      w.CleanAt mint decisionAt ∧ (w.windowComplete mint decisionAt).1 = true ∧
        ((w.mintGapAt.get? mint).isSome = false ∧ (w.windowComplete mint decisionAt).2 = w ∨
          (w.mintGapAt.get? mint).isSome = true ∧
            (w.windowComplete mint decisionAt).2 = { w with mintGapAt := w.mintGapAt.erase mint }) := by
  unfold IntegrityWindow.windowComplete
  split_ifs with hstream
  · exact .inl rfl
  · have hclean : ∀ gapAt ∈ w.streamGapAt, gapAt + cleanWindow ≤ decisionAt := by
      intro gapAt hgapAt
      by_contra hlt
      rw [Option.mem_def] at hgapAt
      rw [hgapAt, Option.any_some, decide_eq_true_eq] at hstream
      omega
    cases hget : w.mintGapAt.get? mint with
    | none => exact .inr ⟨⟨hclean, by simp [hget]⟩, rfl, .inl ⟨rfl, rfl⟩⟩
    | some latest =>
      dsimp only
      split_ifs with hlatest
      · exact .inl rfl
      · refine .inr ⟨⟨hclean, fun latest' h => ?_⟩, rfl, .inr ⟨rfl, rfl⟩⟩
        rw [hget] at h
        cases h
        omega

theorem learningWindowComplete_cases (w : IntegrityWindow) (mint : String) (decisionAt : ℤ) (health : ProviderHealth) :
    ((w.learningWindowComplete mint decisionAt health).1 = false ∧
      (w.learningWindowComplete mint decisionAt health).2 =
        if w.demoMode then w else w.observed health decisionAt) ∨
    (w.demoMode || !w.recovers health) = true ∧ w.CleanAt mint decisionAt ∧
      (w.learningWindowComplete mint decisionAt health).1 = true ∧
      (w.learningWindowComplete mint decisionAt health).2.streamGapAt = w.streamGapAt ∧
      ((w.mintGapAt.get? mint).isSome = false ∧
          (w.learningWindowComplete mint decisionAt health).2.mintGapAt = w.mintGapAt ∨
        (w.mintGapAt.get? mint).isSome = true ∧
          (w.learningWindowComplete mint decisionAt health).2.mintGapAt = w.mintGapAt.erase mint) := by
  unfold IntegrityWindow.learningWindowComplete
  cases hdemo : w.demoMode with
  | true =>
    rw [if_pos rfl, if_pos rfl]
    rcases windowComplete_cases w mint decisionAt with hfails | ⟨hclean, hpasses, ⟨hnone, hw⟩ | ⟨hsome, hw⟩⟩
    · exact .inl (by rw [hfails]; exact ⟨rfl, rfl⟩)
    · exact .inr ⟨rfl, hclean, hpasses, by rw [hw], .inl ⟨hnone, by rw [hw]⟩⟩
    · exact .inr ⟨rfl, hclean, hpasses, by rw [hw], .inr ⟨hsome, by rw [hw]⟩⟩
  | false =>
    rw [if_neg Bool.false_ne_true, if_neg Bool.false_ne_true]
    dsimp only
    split_ifs with hhealthy hnone
    · exact .inl ⟨rfl, rfl⟩
    · exact .inl ⟨rfl, rfl⟩
    · rcases windowComplete_cases (w.observed health decisionAt) mint decisionAt with
        hfails | ⟨hclean, hpasses, hafter⟩
      · exact .inl (by rw [hfails]; exact ⟨rfl, rfl⟩)
      · cases hrecovers : w.recovers health with
        | true =>
          -- a recovery is marked at the time of the check itself
          have hnow := hclean.stream decisionAt (observed_of_recovers hrecovers decisionAt)
          rw [cleanWindow] at hnow
          omega
        | false =>
          obtain ⟨hstream, hmint⟩ := observed_of_not_recovers hrecovers decisionAt
          rw [hmint] at hafter
          refine .inr ⟨rfl, ⟨hstream ▸ hclean.stream, hmint ▸ hclean.mint⟩, hpasses, ?_⟩
          rcases hafter with ⟨hnone, hw⟩ | ⟨hsome, hw⟩
          · exact ⟨by rw [hw, hstream], .inl ⟨hnone, by rw [hw, hmint]⟩⟩
          · exact ⟨by rw [hw, ← hstream], .inr ⟨hsome, by rw [hw]⟩⟩

/-! ### Every call -/

theorem Covered.of_stream {gapAt : ℤ} (hstream : w.streamGapAt = some gapAt) (hle : gap.observedAt ≤ gapAt) :
    Covered w forgotten gap := .inl ⟨gapAt, hstream, hle⟩

variable {a : WindowAction}

theorem covered_of_notes (h : gap ∈ w.notes a) (forgotten : List (String × ℤ)) :
    Covered (w.step a) forgotten gap := by
  cases a with
  | markStreamGap observedAt =>
    rw [mem_singleton.mp h]
    exact .of_stream rfl le_rfl
  | noteMintGap mint observedAt =>
    simp only [IntegrityWindow.notes] at h
    simp only [IntegrityWindow.step, IntegrityWindow.noteMintGap]
    cases hmint : mint.filter (· ≠ "") with
    | none =>
      rw [hmint] at h
      rw [mem_singleton.mp h]
      exact .of_stream rfl le_rfl
    | some mint =>
      rw [hmint] at h
      dsimp only at h ⊢
      split_ifs at h ⊢ with hfull
      · have hat : gap.observedAt = observedAt := by
          rcases mem_cons.mp h with rfl | h
          · rfl
          · rw [mem_singleton.mp h]
        exact .of_stream rfl hat.le
      · rw [mem_singleton.mp h]
        exact .inr ⟨mint, rfl, .inl ⟨(mint, observedAt), by rw [Table.get?_upsert, if_pos rfl]; rfl, le_rfl⟩⟩
  | learningWindowComplete mint decisionAt health =>
    simp only [IntegrityWindow.notes, Bool.and_eq_true, Bool.not_eq_true'] at h
    split_ifs at h with hrecovers
    · rw [mem_singleton.mp h]
      rcases learningWindowComplete_cases w mint decisionAt health with ⟨-, hw⟩ | ⟨hno, -⟩
      · have hmarked : (w.step (.learningWindowComplete mint decisionAt health)).streamGapAt = some decisionAt := by
          rw [IntegrityWindow.step, hw, hrecovers.1]
          exact observed_of_recovers hrecovers.2 decisionAt
        exact .of_stream hmarked le_rfl
      · simp [hrecovers] at hno
    · cases h
  | observeStream now health =>
    simp only [IntegrityWindow.notes] at h
    split_ifs at h with hrecovers
    · rw [mem_singleton.mp h]
      exact .of_stream (observed_of_recovers hrecovers now) le_rfl
    · cases h

theorem Covered.step {s : Watch} (h : Covered s.window s.forgotten gap) (ha : s.InOrder a) :
    Covered (s.window.step a) (s.forgotten ++ s.window.forgets a) gap := by
  obtain ⟨w, noted, forgotten⟩ := s
  cases a with
  | markStreamGap observedAt => exact (h.mono _).marked ha rfl
  | noteMintGap mint observedAt =>
    simp only [Watch.InOrder] at ha
    simp only [IntegrityWindow.step, IntegrityWindow.noteMintGap, IntegrityWindow.forgets]
    cases hmint : mint.filter (· ≠ "") with
    | none =>
      rw [hmint] at ha
      exact (h.mono _).marked ha rfl
    | some mint =>
      rw [hmint] at ha
      dsimp only at ha ⊢
      have hpruned := h.pruned observedAt
      split_ifs with hfull
      · exact hpruned.marked (ha.2 hfull) rfl
      · refine hpruned.noted fun latest hlatest => ?_
        obtain ⟨hmem, hkey⟩ := Table.get?_eq_some.mp hlatest
        exact ha.1 latest (Table.get?_eq_some.mpr ⟨Table.mem_of_mem_dropWhile hmem, hkey⟩)
  | learningWindowComplete mint decisionAt health =>
    simp only [IntegrityWindow.step, IntegrityWindow.forgets]
    rcases learningWindowComplete_cases w mint decisionAt health with
      ⟨hfails, hw⟩ | ⟨-, hclean, hpasses, hstream, ⟨hnone, hmint⟩ | ⟨hsome, hmint⟩⟩
    · rw [hw]
      cases hdemo : w.demoMode with
      | true => exact h.mono _
      | false => exact (h.mono _).observed (ha.1 hdemo)
    · exact (h.mono _).congr hstream hmint
    · rw [hpasses, hsome]
      exact (h.popped hclean.mint).congr hstream hmint
  | observeStream now health => exact (h.mono _).observed ha

theorem Watch.Accounted.step {s : Watch} (h : s.Accounted) (ha : s.InOrder a) :
    (s.step a).Accounted := by
  intro gap hgap
  rcases mem_append.mp hgap with hold | hnew
  · exact (h gap hold).step ha
  · exact covered_of_notes hnew _

/-- A window that passes has no gap in it. -/
theorem Watch.Accounted.failsClosed {s : Watch} (h : s.Accounted) (ha : s.InOrder a) :
    s.FailsClosed a := by
  cases a with
  | learningWindowComplete mint decisionAt health =>
    intro hpasses gap hgap hconcerns ⟨hafter, hbefore⟩
    rcases learningWindowComplete_cases s.window mint decisionAt health with ⟨hfails, -⟩ | ⟨hno, hclean, -, -, -⟩
    · rw [hfails] at hpasses
      cases hpasses
    have hnotes : s.window.notes (.learningWindowComplete mint decisionAt health) = [] := by
      simp only [Bool.or_eq_true, Bool.not_eq_true'] at hno
      rcases hno with hno | hno <;> simp [IntegrityWindow.notes, hno]
    rw [hnotes, append_nil] at hgap
    rcases h gap hgap with ⟨gapAt, hstream, hle⟩ | ⟨mint', hmint, hcases⟩
    · have := hclean.stream gapAt hstream
      omega
    · obtain rfl : mint' = mint := by
        rcases hconcerns with hc | hc
        · rw [hmint] at hc
          cases hc
        · rw [hmint] at hc
          exact Option.some_inj.mp hc
      rcases hcases with ⟨latest, hget, hle⟩ | ⟨call, hcall, hkey, hle⟩
      · have := hclean.mint latest hget
        omega
      · have := ha.2 call hcall hkey
        omega
  | markStreamGap _ => trivial
  | noteMintGap _ _ => trivial
  | observeStream _ _ => trivial

/-- **The integrity window fails closed** in every run whose calls come in order. -/
theorem window_fails_closed (window : IntegrityWindow) (calls : List WindowAction)
    (horder : Along Watch.step Watch.InOrder ⟨window, [], []⟩ calls) :
    Along Watch.step Watch.FailsClosed ⟨window, [], []⟩ calls :=
  horder.derive (I := Watch.Accounted) (fun _ h => absurd h not_mem_nil) (fun _ _ h ha => h.step ha)
    fun _ _ h ha => h.failsClosed ha

/-- The window of a live process that has just started. -/
def startedWindow : IntegrityWindow where
  demoMode := false
  streamGapAt := some 0
  maxGapMints := 10000
  lastStreamReconnects := 0

def healthyStream : ProviderHealth := ⟨0, true, false⟩

/-- The stream is healthy when one token is checked; another token has a gap, and is checked when the five
minutes are over. -/
def orderedCalls : List WindowAction :=
  [.learningWindowComplete "B" 90000000 healthyStream, .noteMintGap (some "A") 100000000,
    .learningWindowComplete "A" 400000000 healthyStream]

/-- The window is complete once the gap is over. -/
theorem window_fails_closed_ordered :
    ((run IntegrityWindow.step startedWindow (orderedCalls.take 2)).learningWindowComplete "A" 400000000
      healthyStream).1 = true ∧
      Along Watch.step Watch.FailsClosed ⟨startedWindow, [], []⟩ orderedCalls :=
  ⟨by decide +kernel, window_fails_closed startedWindow orderedCalls (by decide +kernel)⟩

/-- **It fails open** when a token has a gap and the stream recovers at an earlier time, that of an event:
the token is clean five minutes after the recovery. -/
theorem window_fails_open : ¬ Along Watch.step Watch.FailsClosed ⟨startedWindow, [], []⟩
    [.noteMintGap (some "A") 100000000, .learningWindowComplete "B" 90000000 healthyStream,
      .learningWindowComplete "A" 395000000 healthyStream] := by
  rintro ⟨-, -, h, -⟩
  exact h (by decide +kernel) ⟨some "A", 100000000⟩ (by decide +kernel) (.inr rfl) (by decide)

end SignalArcade.Market
