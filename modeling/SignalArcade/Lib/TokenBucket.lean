import Mathlib.Tactic.Linarith
import Mathlib.Tactic.Positivity

/-!
# Token buckets

A bucket is filled over time and emptied one token at a time. Every refill brings its own
rate and capacity, as when requests of several classes share a bucket.

`Metered` is what bounds the tokens taken in a stretch of time: those taken and those
left come to no more than a full bucket and what flows in at the largest rate. Every
operation on the bucket keeps it, and `Metered.taken_le` is the bound.
-/

/-- The tokens at the time of the last refill. -/
structure TokenBucket (K : Type) where
  tokens : K
  updated : K

namespace TokenBucket

variable {K : Type} [Field K] [LinearOrder K]

/-- What flowed in since, up to the capacity. -/
def refill (b : TokenBucket K) (now rate capacity : K) : TokenBucket K where
  tokens := min capacity (b.tokens + max 0 (now - b.updated) * rate)
  updated := now

def take (b : TokenBucket K) : TokenBucket K := { b with tokens := b.tokens - 1 }

def drained (now : K) : TokenBucket K := ⟨0, now⟩

variable {b : TokenBucket K} {since now rate capacity R C : K} {taken : ℕ}

/-- `taken` tokens were taken since a moment, none of the refills being above the rate `R` and the
capacity `C`. -/
structure Metered (R C since : K) (taken : ℕ) (b : TokenBucket K) : Prop where
  tokens_nonneg : 0 ≤ b.tokens
  tokens_le : b.tokens ≤ C
  taken_add_le : taken = 0 ∨ since ≤ b.updated ∧ taken + b.tokens ≤ C + R * (b.updated - since)

theorem Metered.start (hnonneg : 0 ≤ b.tokens) (hle : b.tokens ≤ C) : Metered R C since 0 b :=
  ⟨hnonneg, hle, .inl rfl⟩

variable [IsStrictOrderedRing K]

section

variable (h : Metered R C since taken b)
include h

theorem Metered.refill (hrate : 0 ≤ rate) (hrate' : rate ≤ R)
    (hcapacity : 0 ≤ capacity) (hcapacity' : capacity ≤ C) (hsince : since ≤ now) (hnow : b.updated ≤ now) :
    Metered R C since taken (b.refill now rate capacity) := by
  have hflow : 0 ≤ max 0 (now - b.updated) * rate := mul_nonneg (le_max_left _ _) hrate
  refine ⟨le_min hcapacity (add_nonneg h.tokens_nonneg hflow), (min_le_left _ _).trans hcapacity', ?_⟩
  refine h.taken_add_le.imp_right fun ⟨_, hle⟩ => ⟨hsince, ?_⟩
  have hmax : max 0 (now - b.updated) = now - b.updated := max_eq_right (sub_nonneg.mpr hnow)
  calc (taken : K) + min capacity (b.tokens + max 0 (now - b.updated) * rate)
      ≤ taken + (b.tokens + (now - b.updated) * rate) := by rw [hmax]; gcongr; exact min_le_right _ _
    _ ≤ taken + (b.tokens + (now - b.updated) * R) := by gcongr
    _ ≤ C + R * (now - since) := by linarith

theorem Metered.take (hR : 0 ≤ R) (hone : 1 ≤ b.tokens)
    (hsince : since ≤ b.updated) : Metered R C since (taken + 1) b.take := by
  have hle := h.tokens_le
  refine ⟨sub_nonneg.mpr hone, (sub_le_self _ zero_le_one).trans hle, .inr ⟨hsince, ?_⟩⟩
  rw [TokenBucket.take, Nat.cast_add, Nat.cast_one]
  rcases h.taken_add_le with rfl | ⟨_, hle'⟩
  · have := mul_nonneg hR (sub_nonneg.mpr hsince)
    rw [Nat.cast_zero]
    linarith
  · linarith

theorem Metered.drained (hR : 0 ≤ R) (hsince : since ≤ now)
    (hnow : b.updated ≤ now) : Metered R C since taken (drained now) := by
  refine ⟨le_rfl, h.tokens_nonneg.trans h.tokens_le, h.taken_add_le.imp_right fun ⟨_, hle⟩ => ⟨hsince, ?_⟩⟩
  have hflow : R * (b.updated - since) ≤ R * (now - since) := mul_le_mul_of_nonneg_left (by linarith) hR
  have := h.tokens_nonneg
  change (taken : K) + 0 ≤ C + R * (now - since)
  linarith

theorem Metered.lose (hone : 1 ≤ b.tokens) : Metered R C since taken b.take := by
  have hless : b.tokens - 1 ≤ b.tokens := sub_le_self _ zero_le_one
  refine ⟨sub_nonneg.mpr hone, hless.trans h.tokens_le, h.taken_add_le.imp_right fun ⟨hs, hle⟩ => ⟨hs, ?_⟩⟩
  exact (add_le_add_right hless _).trans hle

/-- **No more is taken than a full bucket and what flows in.** -/
theorem Metered.taken_le (hR : 0 ≤ R) (hsince : since ≤ now)
    (hnow : b.updated ≤ now) : (taken : K) ≤ C + R * (now - since) := by
  have hflow := mul_nonneg hR (sub_nonneg.mpr hsince)
  have hcapacity := h.tokens_nonneg.trans h.tokens_le
  rcases h.taken_add_le with rfl | ⟨_, hle⟩
  · rw [Nat.cast_zero]
    linarith
  · have hflow' : R * (b.updated - since) ≤ R * (now - since) := mul_le_mul_of_nonneg_left (by linarith) hR
    have := h.tokens_nonneg
    linarith

end

end TokenBucket
