import SignalArcade.Lib.Prog
import Mathlib.Tactic.SplitIfs

/-!
# Transactions

A connection to a database, as a program sees it that runs its statements in blocks
which commit at the end and roll back when something is raised. A statement that
changes rows opens a transaction if none is open; a statement that changes the schema
does not, and outside a transaction what it did is there to stay. Any statement may
fail, the commit included.
-/

namespace Transaction

open Prog List

variable {ε δ α β : Type}

/-! ### Statements -/

/-- A connection to a database. -/
structure Connection (δ : Type) where
  /-- What its statements see. -/
  data : δ
  /-- What was committed last, while a transaction is open. -/
  saved : Option δ
  /-- Whether the statements to come fail. Those beyond the list do not. -/
  faults : List Bool

/-- What a block raises. -/
inductive Error (ε : Type) where
  | failed
  /-- The program objects. -/
  | raised (e : ε)

/-- A program that runs statements. -/
abbrev Session (ε δ : Type) := EStateM (Error ε) (Connection δ)

/-- What a rollback restores. -/
def Connection.committed (c : Connection δ) : δ := c.saved.getD c.data

def Connection.rolledBack (c : Connection δ) : Connection δ := { c with data := c.committed, saved := none }

/-- A statement is run, and may fail. -/
def statement : Session ε δ Unit := fun c =>
  match c.faults with
  | [] => .ok () c
  | true :: faults => .error .failed { c with faults := faults }
  | false :: faults => .ok () { c with faults := faults }

def raise (e : ε) : Session ε δ α := throw (.raised e)

/-- A value that was computed, or the exception it is. -/
def check (v : Except ε α) : Session ε δ α := ofExcept .raised v

/-- A statement that reads. -/
def query (f : δ → α) : Session ε δ α := do
  statement
  let c ← get
  return f c.data

/-- A statement that changes rows, unless a constraint forbids it. -/
def change (f : δ → Except ε (α × δ)) : Session ε δ α := do
  modify fun c => { c with saved := some c.committed }
  statement
  let c ← get
  let r ← ofExcept .raised (f c.data)
  set { c with data := r.2 }
  return r.1

/-- `BEGIN`, unless a transaction is open. -/
def ensureBegun : Session ε δ Unit := do
  let c ← get
  if c.saved.isSome then return ()
  else do
    statement
    modify fun c => { c with saved := some c.committed }

/-- The commit at the end of a block, of a transaction that is open. -/
def commit : Session ε δ Unit := do
  let c ← get
  if c.saved.isSome then do
    statement
    modify fun c => { c with saved := none }
  else return ()

def committing (x : Session ε δ α) : Session ε δ α := do
  let a ← x
  commit
  return a

/-- `with connection:`, around a block. A commit that fails is rolled back, too. -/
def withConnection (x : Session ε δ α) : Session ε δ α := fun c =>
  match committing x c with
  | .ok a c' => .ok a c'
  | .error e c' => .error e c'.rolledBack

/-! ### What a rollback restores -/

variable {x : Session ε δ α} {f : α → Session ε δ β} {c : Connection δ} {begun : Bool} {body : β → α → Session ε δ β}

theorem statement_wp {Q : Unit → Connection δ → Prop} {E : Error ε → Connection δ → Prop}
    (hok : ∀ faults, Q () { c with faults := faults }) (hfailed : ∀ faults, E .failed { c with faults := faults }) :
    Wp statement Q E c := by
  obtain ⟨data, saved, faults⟩ := c
  match faults with
  | [] => exact hok []
  | true :: faults => exact hfailed faults
  | false :: faults => exact hok faults

/-- What has been committed stays what it is, and an open transaction stays open; when `begun`,
as far as one is open to begin with. -/
def Keeps (begun : Bool) (x : Session ε δ α) : Prop :=
  ∀ c, (begun = true → c.saved.isSome = true) →
    Wp x (fun _ c' => c'.committed = c.committed ∧ (c.saved.isSome = true → c'.saved.isSome = true))
      (fun _ c' => c'.committed = c.committed) c

namespace Keeps

theorem pure (a : α) : Keeps begun (Pure.pure a : Session ε δ α) := fun _ _ => ⟨rfl, id⟩

theorem bind (hx : Keeps begun x) (hf : ∀ a, Keeps begun (f a)) : Keeps begun (x >>= f) := by
  intro c hc
  rw [wp_bind]
  refine (hx c hc).mono (fun a c₁ h₁ => ?_) fun _ _ h => h
  refine (hf a c₁ fun hb => h₁.2 (hc hb)).mono (fun b c₂ h₂ => ?_) fun _ _ h₂ => h₂.trans h₁.1
  exact ⟨h₂.1.trans h₁.1, fun hs => h₂.2 (h₁.2 hs)⟩

theorem check (v : Except ε α) : Keeps begun (check v : Session ε δ α) := fun _ _ =>
  wp_ofExcept.mpr ⟨fun _ _ => ⟨rfl, id⟩, fun _ _ => rfl⟩

theorem ite {p : Prop} [Decidable p] {y : Session ε δ α} (hx : p → Keeps begun x) (hy : ¬ p → Keeps begun y) :
    Keeps begun (if p then x else y) := by
  split_ifs with h
  · exact hx h
  · exact hy h

theorem statement : Keeps begun (statement : Session ε δ Unit) := fun _ _ =>
  statement_wp (fun _ => ⟨rfl, id⟩) fun _ => rfl

theorem query (f : δ → α) : Keeps begun (query f : Session ε δ α) :=
  statement.bind fun _ => fun _ _ => ⟨rfl, id⟩

theorem change (f : δ → Except ε (α × δ)) : Keeps begun (change f) := by
  intro c _
  refine wp_bind.mpr (wp_modify.mpr (wp_bind.mpr (statement_wp (fun faults => ?_) fun _ => rfl)))
  exact wp_bind.mpr (wp_get.mpr (wp_bind.mpr (wp_ofExcept.mpr ⟨fun r _ => ⟨rfl, fun _ => rfl⟩, fun _ _ => rfl⟩)))

theorem forM {body : α → Session ε δ Unit} (hbody : ∀ a, Keeps begun (body a)) (l : List α) :
    Keeps begun (forM l body) := by
  induction l with
  | nil => exact pure ()
  | cons a l ih =>
    rw [forM_cons]
    exact (hbody a).bind fun _ => ih

theorem foldlM (hbody : ∀ b a, Keeps begun (body b a)) (l : List α) (b : β) :
    Keeps begun (l.foldlM body b) := by
  induction l generalizing b with
  | nil => exact pure b
  | cons a l ih =>
    rw [foldlM_cons]
    exact (hbody b a).bind ih

end Keeps

/-! ### A block that comes to its end -/

/-- From the data `d` the block may come to its end with `a` and the data `d'`. -/
def Returns (x : Session ε δ α) (d : δ) (a : α) (d' : δ) : Prop :=
  ∃ c c', x c = .ok a c' ∧ c.data = d ∧ c'.data = d'

variable {d d' : δ} {a : α} {b : β} {l : List α}

namespace Returns

theorem of_pure {a' : α} (h : Returns (Pure.pure a : Session ε δ α) d a' d') : a = a' ∧ d = d' := by
  obtain ⟨c, c', hc, rfl, rfl⟩ := h
  cases hc
  exact ⟨rfl, rfl⟩

theorem not_raise {e : ε} : ¬ Returns (raise e : Session ε δ α) d a d' := by
  rintro ⟨c, c', hc, -⟩
  cases hc

theorem of_check {v : Except ε α} (h : Returns (check v : Session ε δ α) d a d') : v = .ok a ∧ d = d' := by
  cases v with
  | error e => exact absurd h not_raise
  | ok b =>
    obtain ⟨rfl, rfl⟩ := of_pure h
    exact ⟨rfl, rfl⟩

theorem of_bind (h : Returns (x >>= f) d b d') : ∃ a d₁, Returns x d a d₁ ∧ Returns (f a) d₁ b d' := by
  obtain ⟨c, c', hc, rfl, rfl⟩ := h
  simp only [bind, EStateM.bind] at hc
  split at hc
  · next a c₁ hx => exact ⟨a, c₁.data, ⟨c, c₁, hx, rfl, rfl⟩, c₁, c', hc, rfl, rfl⟩
  · cases hc

variable {u : Unit}

theorem of_statement (h : Returns (statement : Session ε δ Unit) d u d') : d = d' := by
  obtain ⟨c, c', hc, rfl, rfl⟩ := h
  have hwp : Wp (statement : Session ε δ Unit) (fun _ c' => c'.data = c.data) (fun _ _ => True) c :=
    statement_wp (fun _ => rfl) fun _ => trivial
  simpa [Wp, hc, eq_comm] using hwp

theorem of_get_bind {f : Connection δ → Session ε δ β} (h : Returns (get >>= f) d b d') :
    ∃ c : Connection δ, c.data = d ∧ Returns (f c) d b d' := by
  obtain ⟨c, c', hc, rfl, rfl⟩ := h
  exact ⟨c, rfl, c, c', hc, rfl, rfl⟩

theorem of_modify {g : Connection δ → Connection δ}
    (h : Returns (modify g : Session ε δ Unit) d u d') : ∃ c, c.data = d ∧ (g c).data = d' := by
  obtain ⟨c, c', hc, rfl, rfl⟩ := h
  cases hc
  exact ⟨c, rfl, rfl⟩

theorem of_query {f : δ → α} (h : Returns (query f : Session ε δ α) d a d') : a = f d ∧ d = d' := by
  obtain ⟨_, d₁, hs, h⟩ := h.of_bind
  obtain ⟨c, hc, h⟩ := h.of_get_bind
  obtain ⟨rfl, rfl⟩ := h.of_pure
  obtain rfl := of_statement hs
  exact ⟨by rw [hc], rfl⟩

theorem of_query_bind {g : δ → α} (h : Returns (query g >>= f) d b d') : Returns (f (g d)) d b d' := by
  obtain ⟨_, _, hquery, h⟩ := h.of_bind
  obtain ⟨rfl, rfl⟩ := hquery.of_query
  exact h

theorem of_check_bind {v : Except ε α} (h : Returns (check v >>= f) d b d') :
    ∃ a, v = .ok a ∧ Returns (f a) d b d' := by
  obtain ⟨a, _, hcheck, h⟩ := h.of_bind
  obtain ⟨hv, rfl⟩ := hcheck.of_check
  exact ⟨a, hv, h⟩

theorem of_change {f : δ → Except ε (α × δ)} (h : Returns (change f) d a d') : f d = .ok (a, d') := by
  obtain ⟨_, d₁, hm, h⟩ := h.of_bind
  obtain ⟨c, rfl, rfl⟩ := of_modify hm
  obtain ⟨_, d₂, hs, h⟩ := h.of_bind
  obtain rfl := of_statement hs
  obtain ⟨c₁, hc₁, h⟩ := h.of_get_bind
  cases hf : f c.data with
  | error e =>
    rw [hc₁] at h
    simp only [hf] at h
    obtain ⟨_, _, ⟨c₂, c₃, hc₃, _⟩, _⟩ := h.of_bind
    cases hc₃
  | ok r =>
    rw [hc₁] at h
    simp only [hf] at h
    obtain ⟨c₂, c₃, hc₃, h₂, rfl⟩ := h
    cases hc₃
    rfl

theorem of_forM {body : α → Session ε δ Unit} {I : List α → δ → Prop}
    (hbody : ∀ done a d d' u, I done d → Returns (body a) d u d' → I (done ++ [a]) d')
    (hI : I [] d) (h : Returns (forM l body) d u d') : I l d' := by
  suffices hrest : ∀ rest done d, I done d → Returns (forM rest body) d u d' → I (done ++ rest) d' from
    hrest l [] d hI h
  intro rest
  induction rest with
  | nil =>
    intro done d hI h
    obtain ⟨_, rfl⟩ := h.of_pure
    rwa [append_nil]
  | cons a rest ih =>
    intro done d hI h
    rw [forM_cons] at h
    obtain ⟨_, d₁, ha, h⟩ := h.of_bind
    have hdone := ih (done ++ [a]) d₁ (hbody done a d d₁ _ hI ha) h
    rwa [append_assoc] at hdone

theorem of_forM_change {g : α → δ → δ}
    (h : Returns (forM l fun a => (change fun d => .ok ((), g a d) : Session ε δ Unit)) d u d') :
    d' = l.foldl (fun d a => g a d) d := by
  refine of_forM (I := fun done d' => d' = done.foldl (fun d a => g a d) d) ?_ rfl h
  rintro done a d₁ d₂ _ rfl hchange
  cases hchange.of_change
  rw [foldl_append, foldl_cons, foldl_nil]

theorem of_foldlM {I : List α → β → δ → Prop}
    (hbody : ∀ done a b d b' d', I done b d → Returns (body b a) d b' d' → I (done ++ [a]) b' d')
    {b b' : β} (hI : I [] b d) (h : Returns (l.foldlM body b) d b' d') : I l b' d' := by
  suffices hrest : ∀ rest done b d, I done b d → Returns (rest.foldlM body b) d b' d' → I (done ++ rest) b' d' from
    hrest l [] b d hI h
  intro rest
  induction rest with
  | nil =>
    intro done b d hI h
    obtain ⟨rfl, rfl⟩ := h.of_pure
    rwa [append_nil]
  | cons a rest ih =>
    intro done b d hI h
    rw [foldlM_cons] at h
    obtain ⟨b₁, d₁, ha, h⟩ := h.of_bind
    have hdone := ih (done ++ [a]) b₁ d₁ (hbody done a b d b₁ d₁ hI ha) h
    rwa [append_assoc] at hdone

end Returns

/-! ### A block that meets no failure -/

/-- Where no statement fails, the block comes to its end from the data `d` with `a` and the data `d'`. -/
def Succeeds (x : Session ε δ α) (d : δ) (a : α) (d' : δ) : Prop :=
  ∀ saved, ∃ saved', x ⟨d, saved, []⟩ = .ok a ⟨d', saved', []⟩

namespace Succeeds

theorem pure (a : α) : Succeeds (Pure.pure a : Session ε δ α) d a d := fun saved => ⟨saved, rfl⟩

theorem bind {d₁ : δ} (hx : Succeeds x d a d₁) (hf : Succeeds (f a) d₁ b d') : Succeeds (x >>= f) d b d' := by
  intro saved
  obtain ⟨saved₁, hx⟩ := hx saved
  obtain ⟨saved', hf⟩ := hf saved₁
  refine ⟨saved', ?_⟩
  rw [← hf]
  simp only [Bind.bind, EStateM.bind, hx]

theorem check {v : Except ε α} (h : v = .ok a) : Succeeds (check v : Session ε δ α) d a d := by
  subst h
  exact pure a

theorem query (f : δ → α) : Succeeds (query f : Session ε δ α) d (f d) d := fun saved => ⟨saved, rfl⟩

theorem change {f : δ → Except ε (α × δ)} (h : f d = .ok (a, d')) : Succeeds (change f) d a d' := by
  intro saved
  refine ⟨some (saved.getD d), ?_⟩
  have hrun : Transaction.change f ⟨d, saved, []⟩ =
      (do
        let r ← (ofExcept .raised (f d) : Session ε δ (α × δ))
        set (⟨r.2, some (saved.getD d), []⟩ : Connection δ)
        return r.1 : Session ε δ α) ⟨d, some (saved.getD d), []⟩ := rfl
  rw [hrun, h]
  rfl

theorem foldlM {step : β × δ → α → β × δ}
    (h : ∀ a ∈ l, ∀ b d, Succeeds (body b a) d (step (b, d) a).1 (step (b, d) a).2) (b : β) (d : δ) :
    Succeeds (l.foldlM body b) d (l.foldl step (b, d)).1 (l.foldl step (b, d)).2 := by
  induction l generalizing b d with
  | nil => exact pure b
  | cons a l ih =>
    rw [foldlM_cons]
    exact (h a mem_cons_self b d).bind (ih (fun a' ha' => h a' (mem_cons_of_mem _ ha')) _ _)

theorem forM_check {body : α → Except ε Unit} (h : ∀ a ∈ l, body a = .ok ()) :
    Succeeds (forM l fun a => (Transaction.check (body a) : Session ε δ Unit)) d () d := by
  induction l with
  | nil => exact pure ()
  | cons a l ih =>
    rw [forM_cons]
    exact (check (h a mem_cons_self)).bind (ih fun a' ha' => h a' (mem_cons_of_mem _ ha'))

theorem withConnection (h : Succeeds x d a d') (saved : Option δ) :
    withConnection x ⟨d, saved, []⟩ = .ok a ⟨d', none, []⟩ := by
  obtain ⟨saved', hx⟩ := h saved
  have hcommitting : committing x ⟨d, saved, []⟩ = .ok a ⟨d', none, []⟩ := by
    cases saved' <;> simp [committing, Bind.bind, EStateM.bind, hx] <;> rfl
  simp only [Transaction.withConnection, hcommitting]

end Succeeds

/-! ### Blocks whose outcome the failures do not change -/

/-- Where the block comes to its end at all, it comes to the end it has where no statement fails. -/
def Steady (x : Session ε δ α) : Prop := ∀ d a d', Returns x d a d' → Succeeds x d a d'

namespace Steady

theorem pure (a : α) : Steady (Pure.pure a : Session ε δ α) := by
  intro d a' d' h
  obtain ⟨rfl, rfl⟩ := h.of_pure
  exact Succeeds.pure a

theorem bind (hx : Steady x) (hf : ∀ a, Steady (f a)) : Steady (x >>= f) := by
  intro d b d' h
  obtain ⟨a, d₁, ha, hb⟩ := h.of_bind
  exact (hx d a d₁ ha).bind (hf a d₁ b d' hb)

theorem check (v : Except ε α) : Steady (check v : Session ε δ α) := by
  intro d a d' h
  obtain ⟨hv, rfl⟩ := h.of_check
  exact Succeeds.check hv

theorem query (f : δ → α) : Steady (query f : Session ε δ α) := by
  intro d a d' h
  obtain ⟨rfl, rfl⟩ := h.of_query
  exact Succeeds.query f

theorem change (f : δ → Except ε (α × δ)) : Steady (change f) :=
  fun _ _ _ h => Succeeds.change h.of_change

theorem ite {p : Prop} [Decidable p] {y : Session ε δ α} (hx : Steady x) (hy : Steady y) :
    Steady (if p then x else y) := by
  split_ifs
  · exact hx
  · exact hy

theorem forM {body : α → Session ε δ Unit} (hbody : ∀ a, Steady (body a)) (l : List α) : Steady (forM l body) := by
  induction l with
  | nil => exact pure ()
  | cons a l ih =>
    rw [forM_cons]
    exact (hbody a).bind fun _ => ih

theorem foldlM (hbody : ∀ b a, Steady (body b a)) (l : List α) (b : β) :
    Steady (l.foldlM body b) := by
  induction l generalizing b with
  | nil => exact pure b
  | cons a l ih =>
    rw [foldlM_cons]
    exact (hbody b a).bind ih

end Steady

/-! ### The block as a whole -/

/-- **All or nothing.** A block that keeps what is committed returns with everything done, or
raises with nothing done. Either way no transaction is left open. -/
theorem withConnection_wp (h : Keeps false x) (hc : c.saved = none) :
    Wp (withConnection x) (fun a c' => Returns x c.data a c'.data ∧ c'.saved = none)
      (fun _ c' => c'.data = c.data ∧ c'.saved = none) c := by
  have hcommitted : c.committed = c.data := by simp [Connection.committed, hc]
  suffices hblock : Wp (committing x) (fun a c' => Returns x c.data a c'.data ∧ c'.saved = none)
      (fun _ c' => c'.committed = c.data) c by
    unfold Wp at hblock ⊢
    simp only [withConnection]
    cases hrun : committing x c with
    | ok a c' =>
      rw [hrun] at hblock
      exact hblock
    | error e c' =>
      rw [hrun] at hblock
      exact ⟨hblock, rfl⟩
  have hx := h c (by simp)
  rw [committing, wp_bind]
  cases hrun : x c with
  | error e c' =>
    rw [Wp, hrun] at hx ⊢
    exact hx.trans hcommitted
  | ok a c₁ =>
    rw [Wp, hrun] at hx ⊢
    have hreturns : Returns x c.data a c₁.data := ⟨c, c₁, hrun, rfl, rfl⟩
    refine wp_bind.mpr (wp_bind.mpr (wp_get.mpr (wp_ite.mpr ⟨fun hs => ?_, fun hs => ?_⟩)))
    · refine wp_bind.mpr (statement_wp (fun _ => ?_) fun _ => hx.1.trans hcommitted)
      exact ⟨hreturns, rfl⟩
    · exact ⟨hreturns, by simpa using hs⟩

end Transaction
