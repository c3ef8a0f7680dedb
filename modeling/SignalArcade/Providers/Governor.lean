import SignalArcade.Providers.Quota
import Mathlib.Data.Rat.Floor

/-!
# What the request governor guarantees

The governor over any sequence of calls, on a process clock that does not run backwards.
-/

namespace SignalArcade.Providers

open Runs TokenBucket List

variable {K : Type} [Field K] [LinearOrder K] [FloorRing K]

/-! ### One call -/

/-- `acquire` comes to the bucket of the provider. -/
structure Callable (broker : QuotaBroker K) (provider : String) (critical : Bool) (reading : Reading K)
    (bucket : Bucket K) : Prop where
  get : broker.buckets.get? provider = some bucket
  permitted : bucket.plan.billable = true → broker.allowBillable = true
  below : ∀ limit ∈ bucket.plan.callLimit critical, (broker.usage reading.month provider : ℤ) < limit
  available : bucket.unavailableUntil ≤ reading.now

def Bucket.refilledFor (bucket : Bucket K) (critical : Bool) (reading : Reading K) : Bucket K :=
  bucket.refill reading.now (effectiveRequestsPerMinute bucket.plan reading.rateMonth.days critical)

/-- What a call of `acquire` can do. -/
inductive Acquired (broker : QuotaBroker K) (provider : String) (critical : Bool) (reading : Reading K) :
    Bool × QuotaBroker K → Prop where
  /-- It is refused, before the bucket is looked at. -/
  | refused : Acquired broker provider critical reading (false, broker)
  | dry {bucket : Bucket K} (h : Callable broker provider critical reading bucket) :
    Acquired broker provider critical reading
      (false, { broker with buckets := broker.buckets.upsert (bucket.refilledFor critical reading) })
  /-- A token is taken and the write of the usage raises. -/
  | lost {bucket : Bucket K} (h : Callable broker provider critical reading bucket)
    (hone : 1 ≤ (bucket.refilledFor critical reading).tokens) :
    Acquired broker provider critical reading
      (false, { broker with buckets := broker.buckets.upsert (bucket.refilledFor critical reading).taken })
  | granted {bucket : Bucket K} (h : Callable broker provider critical reading bucket)
    (hone : 1 ≤ (bucket.refilledFor critical reading).tokens) :
    Acquired broker provider critical reading
      (true, { broker with
        buckets := broker.buckets.upsert (bucket.refilledFor critical reading).taken
        usage := broker.usage.increment reading.month provider })

theorem acquire_acquired (broker : QuotaBroker K) (provider : String) (critical : Bool) (reading : Reading K)
    (fails : Bool) :
    Acquired broker provider critical reading (broker.acquire provider critical reading fails) := by
  unfold QuotaBroker.acquire
  split
  · exact .refused
  · rename_i bucket hget
    dsimp only
    by_cases hbill : bucket.plan.billable ∧ ¬ broker.allowBillable
    · rw [if_pos hbill]
      exact .refused
    by_cases hlimit : ∃ limit ∈ bucket.plan.callLimit critical, limit ≤ broker.usage reading.month provider
    · rw [if_neg hbill, if_pos hlimit]
      exact .refused
    by_cases hwait : reading.now < bucket.unavailableUntil
    · rw [if_neg hbill, if_neg hlimit, if_pos hwait]
      exact .refused
    have h : Callable broker provider critical reading bucket := by
      refine ⟨hget, fun hb => ?_, fun limit hl => ?_, not_lt.mp hwait⟩
      · by_contra hno
        exact hbill ⟨hb, hno⟩
      · by_contra hle
        exact hlimit ⟨limit, hl, not_lt.mp hle⟩
    rw [if_neg hbill, if_neg hlimit, if_neg hwait]
    split_ifs with hdry
    · exact .dry h
    · exact .lost h (not_lt.mp hdry)
    · exact .granted h (not_lt.mp hdry)

theorem acquire_granted {broker : QuotaBroker K} {provider : String} {critical fails : Bool} {reading : Reading K}
    (h : (broker.acquire provider critical reading fails).1 = true) :
    ∃ bucket, Callable broker provider critical reading bucket ∧
      (broker.acquire provider critical reading fails).2.usage =
        broker.usage.increment reading.month provider := by
  have hspec := acquire_acquired broker provider critical reading fails
  generalize broker.acquire provider critical reading fails = result at h hspec
  cases hspec with
  | refused => cases h
  | dry _ => cases h
  | lost _ _ => cases h
  | granted hcall _ => exact ⟨_, hcall, rfl⟩

/-! ### One bucket -/

/-- What a call can do to a bucket, and whether it is a grant. -/
inductive Touched (now : K) (bucket : Bucket K) : Bool → Bucket K → Prop where
  | left : Touched now bucket false bucket
  | refilled (month : Month) (critical : Bool) :
    Touched now bucket false
      (bucket.refill now (effectiveRequestsPerMinute bucket.plan month.days critical))
  | taken (month : Month) (critical granted : Bool)
    (hone : 1 ≤ (bucket.refill now (effectiveRequestsPerMinute bucket.plan month.days critical)).tokens) :
    Touched now bucket granted
      (bucket.refill now (effectiveRequestsPerMinute bucket.plan month.days critical)).taken
  | penalized (retryAfterSeconds : K) : Touched now bucket false (bucket.penalized retryAfterSeconds now)

theorem Touched.plan_eq {now : K} {bucket bucket' : Bucket K} {granted : Bool}
    (h : Touched now bucket granted bucket') : bucket'.plan = bucket.plan := by
  cases h <;> rfl

omit [FloorRing K] in
theorem get?_upsert_plan {buckets : Buckets K} {provider name : String} {old bucket : Bucket K}
    (new : Bucket K) (hold : buckets.get? provider = some old) (hplan : new.plan = old.plan)
    (hget : buckets.get? name = some bucket) :
    (buckets.upsert new).get? name = some (if name = provider then new else bucket) := by
  obtain ⟨-, hname⟩ := Table.get?_eq_some.mp hold
  rw [Table.get?_upsert, hplan, hname]
  split_ifs with he
  · rfl
  · exact hget

variable {bucket : Bucket K} {name : String}

/-- The bucket of a provider after a call of `acquire`. Its backoff is as before. -/
theorem acquire_touched (broker : QuotaBroker K) (provider : String) (critical fails : Bool) (reading : Reading K)
    (hget : broker.buckets.get? name = some bucket) :
    ∃ bucket', (broker.acquire provider critical reading fails).2.buckets.get? name = some bucket' ∧
      Touched reading.now bucket
        ((broker.acquire provider critical reading fails).1 && decide (name = provider)) bucket' ∧
      bucket'.unavailableUntil = bucket.unavailableUntil := by
  have hspec := acquire_acquired broker provider critical reading fails
  generalize broker.acquire provider critical reading fails = result at hspec
  have hwrite : ∀ {old new : Bucket K} {granted : Bool}, broker.buckets.get? provider = some old →
      Touched reading.now old granted new → new.unavailableUntil = old.unavailableUntil →
      ∃ bucket', (broker.buckets.upsert new).get? name = some bucket' ∧
        Touched reading.now bucket (granted && decide (name = provider)) bucket' ∧
        bucket'.unavailableUntil = bucket.unavailableUntil := by
    intro old new granted hold htouched huntil
    refine ⟨_, get?_upsert_plan new hold htouched.plan_eq hget, ?_⟩
    by_cases he : name = provider
    · subst he
      rw [hget] at hold
      cases hold
      simpa using ⟨htouched, huntil⟩
    · simpa [he] using Touched.left
  cases hspec with
  | refused => exact ⟨bucket, hget, .left, rfl⟩
  | dry h => exact hwrite h.get (.refilled reading.rateMonth critical) rfl
  | lost h hone => exact hwrite h.get (.taken reading.rateMonth critical false hone) rfl
  | granted h hone => exact hwrite h.get (.taken reading.rateMonth critical true hone) rfl

omit [FloorRing K] in
theorem penalize_get? (broker : QuotaBroker K) (provider : String) (retryAfterSeconds now : K)
    (hget : broker.buckets.get? name = some bucket) :
    (broker.penalize provider retryAfterSeconds now).buckets.get? name =
      some (if name = provider then bucket.penalized retryAfterSeconds now else bucket) := by
  unfold QuotaBroker.penalize
  split
  · rename_i hnone
    have hne : name ≠ provider := by
      rintro rfl
      cases hnone.symm.trans hget
    rw [if_neg hne, hget]
  · rename_i old hold
    refine (get?_upsert_plan (old.penalized retryAfterSeconds now) hold rfl hget).trans ?_
    split_ifs with he
    · subst he
      rw [hget] at hold
      cases hold
      rfl
    · rfl

theorem renew_plan (previous : Buckets K) (plan : ProviderPlan K) (now : K) (month : Month) :
    (previous.renew plan now month).plan = plan := by
  unfold Buckets.renew
  split <;> rfl

theorem reconfigure_get? {broker : QuotaBroker K} {plans : List (ProviderPlan K)} {plan : ProviderPlan K}
    (hplan : plan ∈ plans) (hget : broker.buckets.get? plan.name = some bucket)
    (allowBillable : Bool) (now : K) (month : Month) :
    ∃ bucket', (broker.reconfigure plans allowBillable now month).buckets.get? plan.name = some bucket' ∧
      bucket'.unavailableUntil = bucket.unavailableUntil := by
  have hrow := mem_map_of_mem (f := (broker.buckets.renew · now month)) hplan
  obtain ⟨bucket', hget'⟩ : ∃ bucket', (broker.reconfigure plans allowBillable now month).buckets.get?
      (broker.buckets.renew plan now month).plan.name = some bucket' := Table.exists_get?_ofRows hrow
  rw [renew_plan] at hget'
  refine ⟨bucket', hget', ?_⟩
  obtain ⟨hmem, hname⟩ := Table.get?_eq_some.mp hget'
  obtain ⟨plan', -, rfl⟩ := mem_map.mp (Table.mem_of_mem_ofRows hmem)
  rw [renew_plan] at hname
  unfold Buckets.renew
  rw [hname, hget]

/-! ### The governor on its clock -/

/-- The broker, and the process clock at the last call. -/
structure Governor (K : Type) [Field K] [LinearOrder K] where
  broker : QuotaBroker K
  clock : K

/-- One call. -/
def Governor.step (s : Governor K) (a : Action K) : Governor K := ⟨Providers.step s.broker a, a.now⟩

/-- The process clock does not run backwards. -/
def Governor.OnTime (s : Governor K) (a : Action K) : Prop := s.clock ≤ a.now

instance (s : Governor K) (a : Action K) : Decidable (s.OnTime a) := inferInstanceAs (Decidable (_ ≤ _))

/-- A call within one configuration. -/
def Action.settled : Action K → Prop
  | .reconfigure _ _ _ _ => False
  | _ => True

def Action.provider? : Action K → Option String
  | .acquire provider _ _ _ => some provider
  | .penalize provider _ _ => some provider
  | .reconfigure _ _ _ _ => none

/-- The number of grants a provider gets in a run. -/
def Governor.grantCount (provider : String) : Governor K → List (Action K) → ℕ
  | _, [] => 0
  | s, a :: actions =>
    (s.broker.grants a && decide (a.provider? = some provider)).toNat + grantCount provider (s.step a) actions

/-! ### Rates and capacities -/

variable [IsStrictOrderedRing K]

omit [FloorRing K] in
theorem bucketCapacity_nonneg (plan : ProviderPlan K) (rpm : K) : 0 ≤ bucketCapacity plan rpm :=
  zero_le_one.trans (le_max_left _ _)

theorem effectiveRequestsPerMinute_nonneg (plan : ProviderPlan K) (days : ℕ) (critical : Bool) :
    0 ≤ effectiveRequestsPerMinute plan days critical := by
  have hrpm : (0 : K) ≤ plan.requestsPerMinute :=
    Int.cast_nonneg (zero_le_one.trans plan.one_le_requestsPerMinute)
  unfold effectiveRequestsPerMinute
  split
  · exact hrpm
  · split
    · refine le_min hrpm (div_nonneg (Int.cast_nonneg ?_) (Nat.cast_nonneg _))
      exact zero_le_one.trans (le_max_left _ _)
    · exact hrpm

theorem largestRate_nonneg (plan : ProviderPlan K) : 0 ≤ plan.largestRate :=
  (div_nonneg (effectiveRequestsPerMinute_nonneg plan 28 false) (by norm_num)).trans
    (Finset.le_sup' (fun p : ℕ × Bool => effectiveRequestsPerMinute plan p.1 p.2 / 60)
      (b := (28, false)) (by decide))

def Governor.new (usage : ProviderUsage) (plans : List (ProviderPlan K)) (allowBillable : Bool) (now : K)
    (month : Month) : Governor K := ⟨.new usage plans allowBillable now month, now⟩

/-! ### Grants between two instants -/

/-- The bucket of a plan, `taken` tokens having been taken from it since a moment. -/
def Bucket.Metered (since : K) (taken : ℕ) (bucket : Bucket K) : Prop :=
  TokenBucket.Metered bucket.plan.largestRate bucket.plan.largestCapacity since taken bucket.toTokenBucket

theorem Touched.metered {now since : K} {taken : ℕ} {bucket bucket' : Bucket K} {granted : Bool}
    (h : Touched now bucket granted bucket') (hm : bucket.Metered since taken) (hsince : since ≤ now)
    (hnow : bucket.updated ≤ now) :
    bucket'.Metered since (taken + granted.toNat) ∧ bucket'.updated ≤ now := by
  have hR := largestRate_nonneg bucket.plan
  have hrefill (month : Month) (critical : Bool) :
      (bucket.refill now (effectiveRequestsPerMinute bucket.plan month.days critical)).Metered since taken :=
    TokenBucket.Metered.refill hm
      (div_nonneg (effectiveRequestsPerMinute_nonneg _ _ _) (by norm_num)) (rate_le_largestRate _ _ _)
      (bucketCapacity_nonneg _ _) (capacity_le_largestCapacity _ _ _) hsince hnow
  cases h with
  | left => exact ⟨hm, hnow⟩
  | refilled month critical => exact ⟨hrefill month critical, le_rfl⟩
  | taken month critical granted hone =>
    refine ⟨?_, le_rfl⟩
    cases granted with
    | false => exact (hrefill month critical).lose hone
    | true => exact (hrefill month critical).take hR hone hsince
  | penalized retryAfterSeconds => exact ⟨TokenBucket.Metered.drained hm hR hsince hnow, le_rfl⟩

variable {s : Governor K} {a : Action K}

omit [IsStrictOrderedRing K] in
theorem step_touched (ha : a.settled) (hget : s.broker.buckets.get? name = some bucket) :
    ∃ bucket', (s.step a).broker.buckets.get? name = some bucket' ∧
      Touched a.now bucket (s.broker.grants a && decide (a.provider? = some name)) bucket' := by
  cases a with
  | acquire provider critical reading fails =>
    obtain ⟨bucket', hget', htouched, -⟩ := acquire_touched s.broker provider critical fails reading hget
    refine ⟨bucket', hget', ?_⟩
    simpa [Action.provider?, QuotaBroker.grants, Action.now, eq_comm] using htouched
  | penalize provider retryAfterSeconds now =>
    refine ⟨_, penalize_get? s.broker provider retryAfterSeconds now hget, ?_⟩
    simp only [QuotaBroker.grants, Bool.false_and]
    split_ifs
    · exact .penalized retryAfterSeconds
    · exact .left
  | reconfigure plans allowBillable now month => exact ha.elim

omit [IsStrictOrderedRing K] in
theorem step_get?_eq_none (ha : a.settled)
    (hget : s.broker.buckets.get? name = none) : (s.step a).broker.buckets.get? name = none := by
  have hwrite : ∀ {provider : String} {old : Bucket K} (new : Bucket K),
      s.broker.buckets.get? provider = some old → new.plan = old.plan →
      (s.broker.buckets.upsert new).get? name = none := by
    intro provider old new hold hplan
    obtain ⟨-, hname⟩ := Table.get?_eq_some.mp hold
    have hne : name ≠ provider := by
      rintro rfl
      cases hget.symm.trans hold
    rw [Table.get?_upsert, hplan, hname, if_neg hne, hget]
  cases a with
  | acquire provider critical reading fails =>
    have hspec := acquire_acquired s.broker provider critical reading fails
    change (s.broker.acquire provider critical reading fails).2.buckets.get? name = none
    generalize s.broker.acquire provider critical reading fails = result at hspec
    cases hspec with
    | refused => exact hget
    | dry h => exact hwrite _ h.get rfl
    | lost h _ => exact hwrite _ h.get rfl
    | granted h _ => exact hwrite _ h.get rfl
  | penalize provider retryAfterSeconds now =>
    change (s.broker.penalize provider retryAfterSeconds now).buckets.get? name = none
    unfold QuotaBroker.penalize
    split
    · exact hget
    · rename_i old hold
      exact hwrite (old.penalized retryAfterSeconds now) hold rfl
  | reconfigure plans allowBillable now month => exact ha.elim

omit [IsStrictOrderedRing K] in
theorem run_clock_le {actions : List (Action K)} {till : K} (hs : s.clock ≤ till)
    (h : ∀ a ∈ actions, a.now ≤ till) : (run Governor.step s actions).clock ≤ till := by
  induction actions generalizing s with
  | nil => exact hs
  | cons a actions ih =>
    rw [forall_mem_cons] at h
    exact ih (s := s.step a) h.1 h.2

theorem stretch_metered {stretch : List (Action K)}
    {since : K} {taken : ℕ} (hget : s.broker.buckets.get? name = some bucket)
    (hm : bucket.Metered since taken) (hclock : bucket.updated ≤ s.clock)
    (htime : Along Governor.step Governor.OnTime s stretch) (hsettled : ∀ a ∈ stretch, a.settled)
    (hsince : ∀ a ∈ stretch, since ≤ a.now) :
    ∃ bucket', (run Governor.step s stretch).broker.buckets.get? name = some bucket' ∧
      bucket'.plan = bucket.plan ∧ bucket'.Metered since (taken + s.grantCount name stretch) ∧
      bucket'.updated ≤ (run Governor.step s stretch).clock := by
  induction stretch generalizing s bucket taken with
  | nil => exact ⟨bucket, hget, rfl, hm, hclock⟩
  | cons a stretch ih =>
    rw [forall_mem_cons] at hsettled hsince
    obtain ⟨bucket', hget', htouched⟩ := step_touched hsettled.1 hget
    obtain ⟨hm', hnow⟩ := htouched.metered hm hsince.1 (hclock.trans htime.1)
    obtain ⟨last, hlast, hplan, hmlast, hclast⟩ := ih hget' hm' hnow htime.2 hsettled.2 hsince.2
    refine ⟨last, hlast, hplan.trans htouched.plan_eq, ?_, hclast⟩
    rw [Governor.grantCount, ← Nat.add_assoc]
    exact hmlast

/-! ### Any run -/

/-- Every bucket is between empty and its largest capacity, and not from the future. -/
def Governor.Filled (s : Governor K) : Prop :=
  ∀ name bucket, s.broker.buckets.get? name = some bucket → bucket.Metered s.clock 0 ∧ bucket.updated ≤ s.clock

omit [IsStrictOrderedRing K] in
theorem Bucket.Metered.start {since : K} {taken : ℕ} (h : bucket.Metered since taken)
    (since' : K) : bucket.Metered since' 0 := TokenBucket.Metered.start h.tokens_nonneg h.tokens_le

theorem new_metered (plan : ProviderPlan K) (now since : K) (month : Month) :
    (Bucket.new plan now month).Metered since 0 :=
  TokenBucket.Metered.start (bucketCapacity_nonneg _ _) (capacity_le_largestCapacity plan month false)

theorem renew_metered {previous : Buckets K} (plan : ProviderPlan K) (now : K) {since : K} (month : Month)
    (h : ∀ bucket ∈ previous, bucket.Metered since 0) : (previous.renew plan now month).Metered since 0 := by
  have hnew := new_metered plan now since month
  unfold Buckets.renew
  split
  · exact hnew
  · rename_i old hold
    have hm := h old (Table.get?_eq_some.mp hold).1
    exact TokenBucket.Metered.start (le_min hnew.tokens_nonneg hm.tokens_nonneg)
      ((min_le_left _ _).trans hnew.tokens_le)

theorem Filled.new (usage : ProviderUsage) (plans : List (ProviderPlan K)) (allowBillable : Bool) (now : K)
    (month : Month) : (Governor.new usage plans allowBillable now month).Filled := by
  intro name bucket hget
  obtain ⟨plan, -, rfl⟩ := mem_map.mp (Table.mem_of_mem_ofRows (Table.get?_eq_some.mp hget).1)
  exact ⟨new_metered plan now _ month, le_rfl⟩

/-- No bucket holds more than its capacity. -/
theorem Governor.Filled.step (h : s.Filled) (ha : s.OnTime a) : (s.step a).Filled := by
  intro name bucket' hget'
  by_cases hsettled : a.settled
  · cases hget : s.broker.buckets.get? name with
    | none => cases (step_get?_eq_none hsettled hget).symm.trans hget'
    | some bucket =>
      obtain ⟨bucket'', hget'', htouched⟩ := step_touched hsettled hget
      cases hget''.symm.trans hget'
      obtain ⟨hm, hclock⟩ := h name bucket hget
      obtain ⟨hm', hclock'⟩ := htouched.metered (hm.start a.now) le_rfl (hclock.trans ha)
      exact ⟨hm'.start _, hclock'⟩
  · cases a with
    | acquire _ _ _ _ => exact absurd trivial hsettled
    | penalize _ _ _ => exact absurd trivial hsettled
    | reconfigure plans allowBillable now month =>
      obtain ⟨plan, -, rfl⟩ := mem_map.mp (Table.mem_of_mem_ofRows (Table.get?_eq_some.mp hget').1)
      have hm : ∀ bucket ∈ s.broker.buckets, bucket.Metered now 0 := fun bucket hb =>
        (h bucket.plan.name bucket (Table.get?_eq_some.mpr ⟨hb, rfl⟩)).1.start now
      refine ⟨renew_metered plan now month hm, le_of_eq ?_⟩
      unfold Buckets.renew
      split <;> rfl

/-! ### Usage of a month -/

variable {limit : ℤ}

theorem reserve_nonneg (plan : ProviderPlan K) (h : plan.monthlyLimit = some limit) :
    0 ≤ plan.reserve limit := by
  have hlimit : (0 : K) ≤ limit := Int.cast_nonneg (zero_le_one.trans (plan.one_le_monthlyLimit limit h))
  have hproduct := mul_nonneg hlimit plan.reserveFraction_nonneg
  rw [ProviderPlan.reserve, toInt, if_pos hproduct]
  exact Int.floor_nonneg.mpr hproduct

theorem callLimit_le (plan : ProviderPlan K) (h : plan.monthlyLimit = some limit) (critical : Bool) :
    ∃ callLimit ∈ plan.callLimit critical, callLimit ≤ limit := by
  have := reserve_nonneg plan h
  cases critical with
  | true => exact ⟨limit, by simp [ProviderPlan.callLimit, h], le_rfl⟩
  | false => exact ⟨limit - plan.reserve limit, by simp [ProviderPlan.callLimit, h], by omega⟩

theorem step_usage_le
    (hget : s.broker.buckets.get? name = some bucket) (hlimit : bucket.plan.monthlyLimit = some limit)
    (month : Month) :
    ((s.step a).broker.usage month name : ℤ) ≤ max (s.broker.usage month name : ℤ) limit := by
  cases a with
  | acquire provider critical reading fails =>
    have hspec := acquire_acquired s.broker provider critical reading fails
    change ((s.broker.acquire provider critical reading fails).2.usage month name : ℤ) ≤ _
    generalize s.broker.acquire provider critical reading fails = result at hspec
    cases hspec with
    | refused => exact le_max_left _ _
    | dry _ => exact le_max_left _ _
    | lost _ _ => exact le_max_left _ _
    | granted h _ =>
      simp only [ProviderUsage.increment]
      split_ifs with he
      · obtain ⟨rfl, rfl⟩ := he
        cases hget.symm.trans h.get
        obtain ⟨callLimit, hcall, hle⟩ := callLimit_le bucket.plan hlimit critical
        have hbelow := h.below callLimit hcall
        exact le_max_of_le_right (by push_cast; omega)
      · exact le_max_left _ _
  | penalize provider retryAfterSeconds now =>
    have hsame : (s.broker.penalize provider retryAfterSeconds now).usage = s.broker.usage := by
      unfold QuotaBroker.penalize
      split <;> rfl
    change ((s.broker.penalize provider retryAfterSeconds now).usage month name : ℤ) ≤ _
    rw [hsame]
    exact le_max_left _ _
  | reconfigure plans allowBillable now month => exact le_max_left _ _

theorem stretch_usage_le {stretch : List (Action K)}
    (hget : s.broker.buckets.get? name = some bucket) (hlimit : bucket.plan.monthlyLimit = some limit)
    (hsettled : ∀ a ∈ stretch, a.settled) (month : Month) :
    ((run Governor.step s stretch).broker.usage month name : ℤ) ≤
      max (s.broker.usage month name : ℤ) limit := by
  induction stretch generalizing s bucket with
  | nil => exact le_max_left _ _
  | cons a stretch ih =>
    rw [forall_mem_cons] at hsettled
    obtain ⟨bucket', hget', htouched⟩ := step_touched hsettled.1 hget
    have hrest := ih hget' (htouched.plan_eq ▸ hlimit) hsettled.2
    have hfirst := step_usage_le (a := a) hget hlimit month
    exact hrest.trans (max_le hfirst (le_max_right _ _))

/-- What a grant is always given under: the provider is known and may be called, and a routine call
leaves the reserve. -/
def Governor.Permits (s : Governor K) : Action K → Prop
  | .acquire provider critical reading fails =>
    s.broker.grants (.acquire provider critical reading fails) = true →
      ∃ bucket, s.broker.buckets.get? provider = some bucket ∧
        (bucket.plan.billable = true → s.broker.allowBillable = true) ∧
        (critical = false → ∀ limit ∈ bucket.plan.monthlyLimit,
          ((s.step (.acquire provider critical reading fails)).broker.usage reading.month provider : ℤ) ≤
            limit - bucket.plan.reserve limit)
  | _ => True

omit [IsStrictOrderedRing K] in
theorem permits (s : Governor K) (a : Action K) : s.Permits a := by
  cases a with
  | acquire provider critical reading fails =>
    intro hgrant
    obtain ⟨bucket, hcall, husage⟩ := acquire_granted hgrant
    refine ⟨bucket, hcall.get, hcall.permitted, fun hroutine limit hlimit => ?_⟩
    have hbelow := hcall.below (limit - bucket.plan.reserve limit) (by
      rw [Option.mem_def] at hlimit
      simp [ProviderPlan.callLimit, hlimit, hroutine])
    change ((s.broker.acquire provider critical reading fails).2.usage reading.month provider : ℤ) ≤ _
    rw [husage]
    simp only [ProviderUsage.increment, and_self, if_true]
    push_cast
    omega
  | penalize _ _ _ => trivial
  | reconfigure _ _ _ _ => trivial

/-- **The quota is respected.** In a stretch of calls within one configuration, between two
instants: the usage of a month ends no higher than the limit of the plan, or than it was; no
provider gets more grants than its bucket holds and what flows in at the largest rate; and every
grant is permitted. -/
theorem quota_respected (usage : ProviderUsage) (plans : List (ProviderPlan K)) (allowBillable : Bool) (opened : K)
    (month : Month) (history stretch : List (Action K)) (since till : K)
    (htime : Along Governor.step Governor.OnTime (.new usage plans allowBillable opened month) (history ++ stretch))
    (hsettled : ∀ a ∈ stretch, a.settled) (hbetween : ∀ a ∈ stretch, since ≤ a.now ∧ a.now ≤ till)
    (hsince : since ≤ till) :
    let s := run Governor.step (.new usage plans allowBillable opened month) history
    (∀ name bucket, s.broker.buckets.get? name = some bucket →
      (∀ limit ∈ bucket.plan.monthlyLimit, ∀ month,
        ((run Governor.step s stretch).broker.usage month name : ℤ) ≤
          max (s.broker.usage month name : ℤ) limit) ∧
      (s.grantCount name stretch : K) ≤
        bucket.plan.largestCapacity + bucket.plan.largestRate * (till - since)) ∧
      Along Governor.step Governor.Permits s stretch := by
  intro s
  obtain ⟨hbefore, hduring⟩ := along_append.mp htime
  have hfilled : s.Filled := hbefore.invariant (Filled.new usage plans allowBillable opened month)
    fun _ _ hf ha => hf.step ha
  refine ⟨fun name bucket hget => ⟨fun limit hlimit month => ?_, ?_⟩, ?_⟩
  · exact stretch_usage_le hget hlimit hsettled month
  · obtain ⟨hm, hclock⟩ := hfilled name bucket hget
    obtain ⟨bucket', -, hplan, hm', hclock'⟩ := stretch_metered hget (hm.start since) hclock hduring hsettled
      fun a ha => (hbetween a ha).1
    rw [Nat.zero_add, Bucket.Metered, hplan] at hm'
    cases stretch with
    | nil =>
      have hflow := mul_nonneg (largestRate_nonneg bucket.plan) (sub_nonneg.mpr hsince)
      have hcapacity := hm'.tokens_nonneg.trans hm'.tokens_le
      rw [Governor.grantCount, Nat.cast_zero]
      exact add_nonneg hcapacity hflow
    | cons a rest =>
      refine hm'.taken_le (largestRate_nonneg _) hsince (hclock'.trans ?_)
      exact run_clock_le (s := s.step a) (hbetween a (mem_cons_self ..)).2 fun b hb =>
        (hbetween b (mem_cons_of_mem _ hb)).2
  · exact hduring.derive (I := fun _ => True) trivial (fun _ _ _ _ => trivial) fun u a _ _ => permits u a

/-- A plan of ten calls a month, three of them held back, at two a second. -/
def tenCalls : ProviderPlan ℚ where
  name := "jupiter"
  requestsPerMinute := 120
  monthlyLimit := some 10
  reserveFraction := 3 / 10
  one_le_requestsPerMinute := by decide
  one_le_monthlyLimit := by decide
  reserveFraction_nonneg := by decide +kernel

/-- A call at a time in January. -/
def callAt (critical : Bool) (now : ℚ) : Action ℚ := .acquire "jupiter" critical ⟨now, january, january⟩ false

/-- One call of two is granted. -/
theorem quota_respected_jupiter :
    let s := run Governor.step (.new (fun _ _ => 6) [tenCalls] false 0 january) [callAt false 1]
    s.grantCount "jupiter" [callAt false 2, callAt true 3] = 1 ∧ (∀ name bucket,
        s.broker.buckets.get? name = some bucket →
      (∀ limit ∈ bucket.plan.monthlyLimit, ∀ month,
        ((run Governor.step s [callAt false 2, callAt true 3]).broker.usage month name : ℤ) ≤
          max (s.broker.usage month name : ℤ) limit) ∧
      (s.grantCount name [callAt false 2, callAt true 3] : ℚ) ≤
        bucket.plan.largestCapacity + bucket.plan.largestRate * (3 - 2)) ∧
      Along Governor.step Governor.Permits s [callAt false 2, callAt true 3] :=
  ⟨by decide +kernel, quota_respected (fun _ _ => 6) [tenCalls] false 0 january [callAt false 1]
    [callAt false 2, callAt true 3] 2 3 (by decide +kernel) (by simp [callAt, Action.settled])
    (by simp [callAt, Action.now]; norm_num) (by norm_num)⟩

/-! ### Backoff -/

/-- A call that keeps the backoff in force: a penalty does not end sooner, and a reconfiguration leaves
no provider out before its backoff is over. -/
def Governor.KeepsBackoff (s : Governor K) : Action K → Prop
  | .acquire _ _ _ _ => True
  | .penalize provider retryAfterSeconds now =>
    ∀ bucket ∈ s.broker.buckets.get? provider, bucket.unavailableUntil ≤ now + backoff retryAfterSeconds
  | .reconfigure plans _ now _ =>
    ∀ bucket ∈ s.broker.buckets.rows, (∀ plan ∈ plans, plan.name ≠ bucket.plan.name) → bucket.unavailableUntil ≤ now

instance (s : Governor K) : (a : Action K) → Decidable (s.KeepsBackoff a)
  | .acquire _ _ _ _ => inferInstanceAs (Decidable True)
  | .penalize provider retryAfterSeconds now => inferInstanceAs (Decidable (∀ bucket ∈ s.broker.buckets.get? provider,
      bucket.unavailableUntil ≤ now + backoff retryAfterSeconds))
  | .reconfigure plans _ now _ => inferInstanceAs (Decidable (∀ bucket ∈ s.broker.buckets.rows,
      (∀ plan ∈ plans, plan.name ≠ bucket.plan.name) → bucket.unavailableUntil ≤ now))

/-- The provider waits until a time, or the time is past. -/
def Governor.Waits (s : Governor K) (provider : String) (till : K) : Prop :=
  till ≤ s.clock ∨ ∃ bucket, s.broker.buckets.get? provider = some bucket ∧ till ≤ bucket.unavailableUntil

omit [IsStrictOrderedRing K] in
theorem Governor.Waits.le_of_grant {provider : String} {till : K} {critical fails : Bool}
    {reading : Reading K} (h : s.Waits provider till)
    (htime : s.OnTime (.acquire provider critical reading fails))
    (hgrant : s.broker.grants (.acquire provider critical reading fails) = true) : till ≤ reading.now := by
  rcases h with h | ⟨bucket, hget, htill⟩
  · exact h.trans htime
  · obtain ⟨bucket', hcall, -⟩ := acquire_granted hgrant
    cases hget.symm.trans hcall.get
    exact htill.trans hcall.available

omit [IsStrictOrderedRing K] in
/-- A call in time leaves the deadline. -/
theorem Governor.Waits.step {till : K} (h : s.Waits name till)
    (htime : s.OnTime a) (hkeeps : s.KeepsBackoff a) : (s.step a).Waits name till := by
  rcases h with h | ⟨bucket, hget, htill⟩
  · exact .inl (h.trans htime)
  · cases a with
    | acquire provider critical reading fails =>
      obtain ⟨bucket', hget', -, huntil⟩ := acquire_touched s.broker provider critical fails reading hget
      exact .inr ⟨bucket', hget', huntil ▸ htill⟩
    | penalize provider retryAfterSeconds now =>
      refine .inr ⟨_, penalize_get? s.broker provider retryAfterSeconds now hget, ?_⟩
      split_ifs with he
      · subst he
        exact htill.trans (hkeeps bucket hget)
      · exact htill
    | reconfigure plans allowBillable now month =>
      obtain ⟨hmem, hname⟩ := Table.get?_eq_some.mp hget
      by_cases hplan : ∃ plan ∈ plans, plan.name = name
      · obtain ⟨plan, hplan, rfl⟩ := hplan
        obtain ⟨bucket', hget', huntil⟩ := reconfigure_get? hplan hget allowBillable now month
        exact .inr ⟨bucket', hget', huntil ▸ htill⟩
      · refine .inl (htill.trans (hkeeps bucket hmem fun plan hp he => hplan ⟨plan, hp, he.trans hname⟩))

/-- No provider is called before the end of a backoff it was given while it was configured. -/
def BackoffHonoured (s : Governor K) (actions : List (Action K)) : Prop :=
  ∀ before provider retryAfterSeconds now between critical reading fails after,
    actions = before ++ .penalize provider retryAfterSeconds now ::
      (between ++ .acquire provider critical reading fails :: after) →
    (run Governor.step s before).broker.buckets.get? provider ≠ none →
    (run Governor.step s (before ++ .penalize provider retryAfterSeconds now :: between)).broker.grants
      (.acquire provider critical reading fails) = true →
    now + backoff retryAfterSeconds ≤ reading.now

omit [IsStrictOrderedRing K] in
/-- **Backoff is honoured**, as long as no penalty ends before the one in force and no reconfiguration
leaves out a provider whose backoff is not over. -/
theorem backoff_honoured (s : Governor K) (actions : List (Action K))
    (h : Along Governor.step (fun s a => s.OnTime a ∧ s.KeepsBackoff a) s actions) : BackoffHonoured s actions := by
  rintro before provider retryAfterSeconds now between critical reading fails after rfl hconfigured hgrant
  obtain ⟨-, -, hrest⟩ := along_append.mp h
  obtain ⟨hbetween, ⟨htime, -⟩, -⟩ := along_append.mp hrest
  rw [run_append, run_cons] at hgrant
  obtain ⟨bucket, hget⟩ := Option.ne_none_iff_exists'.mp hconfigured
  have hstart : ((run Governor.step s before).step (.penalize provider retryAfterSeconds now)).Waits provider
      (now + backoff retryAfterSeconds) :=
    .inr ⟨_, penalize_get? _ provider retryAfterSeconds now hget, by rw [if_pos rfl]; rfl⟩
  have hend := hbetween.invariant (I := (Governor.Waits · provider (now + backoff retryAfterSeconds))) hstart
    fun s a hs ha => hs.step ha.1 ha.2
  exact hend.le_of_grant htime hgrant

def opened : Governor ℚ := .new (fun _ _ => 0) [tenCalls] false 0 january

/-- The call after the penalty is granted. -/
theorem backoff_honoured_jupiter :
    (run Governor.step opened [.penalize "jupiter" 5 1, callAt false 5]).broker.grants (callAt false 6) = true ∧
      BackoffHonoured opened [.penalize "jupiter" 5 1, callAt false 5, callAt false 6] :=
  ⟨by decide +kernel, backoff_honoured opened [.penalize "jupiter" 5 1, callAt false 5, callAt false 6]
    (by decide +kernel)⟩

/-- **Backoff is lost** otherwise: to a shorter penalty, and to a reconfiguration that leaves the
provider out for a moment. -/
theorem backoff_lost :
    (Along Governor.step Governor.OnTime opened
        [.penalize "jupiter" 300 1, .penalize "jupiter" 1 2, callAt false 4] ∧
      ¬ BackoffHonoured opened [.penalize "jupiter" 300 1, .penalize "jupiter" 1 2, callAt false 4]) ∧
    Along Governor.step Governor.OnTime opened
        [.penalize "jupiter" 300 1, .reconfigure [] false 2 january, .reconfigure [tenCalls] false 3 january,
          callAt false 4] ∧
      ¬ BackoffHonoured opened
        [.penalize "jupiter" 300 1, .reconfigure [] false 2 january, .reconfigure [tenCalls] false 3 january,
          callAt false 4] := by
  refine ⟨⟨by decide +kernel, fun h => ?_⟩, by decide +kernel, fun h => ?_⟩
  · have := h [] "jupiter" 300 1 [.penalize "jupiter" 1 2] false ⟨4, january, january⟩ false [] rfl
      (by decide +kernel) (by decide +kernel)
    exact absurd this (by decide +kernel)
  · have := h [] "jupiter" 300 1 [.reconfigure [] false 2 january, .reconfigure [tenCalls] false 3 january] false
      ⟨4, january, january⟩ false [] rfl (by decide +kernel) (by decide +kernel)
    exact absurd this (by decide +kernel)

end SignalArcade.Providers
