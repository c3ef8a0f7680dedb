import Mathlib.Logic.Basic

/-!
# Programs that change state and may raise

Code of the form "read, check, change, raise" is written in `EStateM ε σ`: a
computation takes a state and ends in a state, with a value or with an exception. The
state an exception leaves behind is the state at the point it was raised, nothing is
rolled back.
-/

namespace Prog

universe u

variable {ε σ α β : Type}

/-- What `x` does from the state `s`, for both ways it may end. -/
def Wp (x : EStateM ε σ α) (Q : α → σ → Prop) (E : ε → σ → Prop) (s : σ) : Prop :=
  match x s with
  | .ok a s' => Q a s'
  | .error e s' => E e s'

variable {x : EStateM ε σ α} {f : α → EStateM ε σ β} {s : σ} {e : ε} {a : α}
variable {Q Q' : α → σ → Prop} {R : β → σ → Prop} {E E' : ε → σ → Prop}

instance [hQ : ∀ a s, Decidable (Q a s)] [hE : ∀ e s, Decidable (E e s)] : Decidable (Wp x Q E s) :=
  match h : x s with
  | .ok a s' => decidable_of_iff (Q a s') (by simp [Wp, h])
  | .error e s' => decidable_of_iff (E e s') (by simp [Wp, h])

/-- The rule of consequence. -/
theorem Wp.mono (h : Wp x Q E s) (hQ : ∀ a s', Q a s' → Q' a s') (hE : ∀ e s', E e s' → E' e s') :
    Wp x Q' E' s := by
  unfold Wp at *
  split at h
  · exact hQ _ _ h
  · exact hE _ _ h

@[simp] theorem wp_pure : Wp (pure a : EStateM ε σ α) Q E s ↔ Q a s := Iff.rfl

@[simp] theorem wp_throw : Wp (throw e : EStateM ε σ α) Q E s ↔ E e s := Iff.rfl

/-- The rule of sequencing. -/
@[simp] theorem wp_bind : Wp (x >>= f) R E s ↔ Wp x (fun a => Wp (f a) R E) E s := by
  simp only [Wp, bind, EStateM.bind]
  cases x s <;> rfl

@[simp] theorem wp_get {Q : σ → σ → Prop} : Wp (get : EStateM ε σ σ) Q E s ↔ Q s s := Iff.rfl

@[simp] theorem wp_set {s' : σ} {Q : PUnit → σ → Prop} :
    Wp (set s' : EStateM ε σ PUnit) Q E s ↔ Q ⟨⟩ s' := Iff.rfl

@[simp] theorem wp_modify {g : σ → σ} {Q : PUnit → σ → Prop} :
    Wp (modify g : EStateM ε σ PUnit) Q E s ↔ Q ⟨⟩ (g s) := Iff.rfl

theorem wp_ite {c : Prop} [Decidable c] {y : EStateM ε σ α} :
    Wp (if c then x else y) Q E s ↔ (c → Wp x Q E s) ∧ (¬ c → Wp y Q E s) := by
  by_cases h : c <;> simp [h]

theorem Wp.error {s' : σ} (h : Wp x Q E s) (hx : x s = .error e s') : E e s' := by
  simpa [Wp, hx] using h

theorem bind_of_ok {a : α} {s' : σ} (h : x s = .ok a s') : (x >>= f) s = f a s' := by
  simp only [bind, EStateM.bind, h]

theorem bind_of_error {s' : σ} (h : x s = .error e s') : (x >>= f) s = .error e s' := by
  simp only [bind, EStateM.bind, h]

theorem get_bind {g : σ → EStateM ε σ β} : ((get : EStateM ε σ σ) >>= g) s = g s s := rfl

/-- The state a program ends in, whichever way. -/
def after (x : EStateM ε σ α) (s : σ) : σ :=
  match x s with
  | .ok _ s' => s'
  | .error _ s' => s'

theorem Wp.after {P : σ → Prop} (h : Wp x (fun _ => P) (fun _ => P) s) : P (after x s) := by
  unfold Wp at h
  unfold Prog.after
  split at h <;> simp_all

/-- `raise`, when the value is an error. -/
def ofExcept {ε' : Type} (raise : ε' → ε) : Except ε' α → EStateM ε σ α
  | .ok a => pure a
  | .error e => throw (raise e)

@[simp] theorem wp_ofExcept {ε' : Type} {raise : ε' → ε} {v : Except ε' α} :
    Wp (ofExcept raise v) Q E s ↔ (∀ a, v = .ok a → Q a s) ∧ (∀ e, v = .error e → E (raise e) s) := by
  cases v <;> simp [ofExcept]

/-- `for a in l: …`, with the list of what the rounds yielded; a round that is skipped yields
nothing. -/
def collect (body : α → EStateM ε σ (Option β)) : List α → EStateM ε σ (List β)
  | [] => pure []
  | a :: l => do
    let b ← body a
    let bs ← collect body l
    return b.toList ++ bs

/-- **A loop keeps what each of its rounds keeps.** The invariant speaks of what is still to
be done. -/
theorem Wp.collect {body : α → EStateM ε σ (Option β)} {I : List α → σ → Prop}
    (hbody : ∀ a l s, I (a :: l) s → Wp (body a) (fun _ => I l) E s) (l : List α) (s : σ) (h : I l s) :
    Wp (collect body l) (fun _ => I []) E s := by
  induction l generalizing s with
  | nil => exact h
  | cons a l ih =>
    rw [Prog.collect, wp_bind]
    refine (hbody a l s h).mono (fun b s' h' => ?_) fun _ _ h' => h'
    rw [wp_bind]
    exact (ih s' h').mono (fun _ _ h'' => h'') fun _ _ h'' => h''

theorem Wp.forM {body : α → EStateM ε σ PUnit} {I : List α → σ → Prop}
    (hbody : ∀ a l s, I (a :: l) s → Wp (body a) (fun _ => I l) E s) (l : List α) (s : σ) (h : I l s) :
    Wp (l.forM body) (fun _ => I []) E s := by
  induction l generalizing s with
  | nil => exact h
  | cons a l ih =>
    show Wp (body a >>= fun _ => l.forM body) (fun _ => I []) E s
    rw [wp_bind]
    exact (hbody a l s h).mono (fun _ s' h' => ih s' h') fun _ _ h' => h'

/-- A loop over different items. What an item asks for is not disturbed by the rounds of the others. -/
theorem Wp.forM_each {body : α → EStateM ε σ PUnit} {I : σ → Prop} {Q : α → σ → Prop}
    (hbody : ∀ a s, I s → Q a s → Wp (body a) (fun _ s' => I s' ∧ ∀ b, b ≠ a → Q b s → Q b s') E s) {l : List α}
    (hnodup : l.Nodup) {s : σ} (h : I s) (hQ : ∀ a ∈ l, Q a s) : Wp (l.forM body) (fun _ => I) E s := by
  refine (Wp.forM (I := fun l s => l.Nodup ∧ I s ∧ ∀ a ∈ l, Q a s) (fun a l s hI => ?_) l s ⟨hnodup, h, hQ⟩).mono
    (fun _ _ hI => hI.2.1) fun _ _ hE => hE
  obtain ⟨hnodup, h, hQ⟩ := hI
  rw [List.nodup_cons] at hnodup
  refine (hbody a s h (hQ a List.mem_cons_self)).mono (fun _ s' h' => ?_) fun _ _ hE => hE
  refine ⟨hnodup.2, h'.1, fun b hb => h'.2 b ?_ (hQ b (List.mem_cons_of_mem _ hb))⟩
  rintro rfl
  exact hnodup.1 hb

end Prog
