import SignalArcade.Lib.Table
import SignalArcade.Lib.Runs
import SignalArcade.Lib.TokenBucket
import Mathlib.Algebra.Order.Floor.Ring
import Mathlib.Data.Finset.Lattice.Prod
import Mathlib.Data.Fintype.Prod

/-!
# The request governor

`QuotaBroker` of `quota.py`: a plan and a token bucket for each provider, the calls of the
month in the database, and a time before which a provider that asked for backoff is not
called. The numbers are those of an ordered field, exactly.
-/

namespace SignalArcade.Providers

/-- A month of the budget. -/
structure Month where
  year : ℕ
  month : Fin 12
  deriving DecidableEq

/-- `calendar.monthrange(…)[1]`. -/
def Month.days (m : Month) : ℕ :=
  if m.month = 1 then
    if m.year % 4 = 0 ∧ (m.year % 100 ≠ 0 ∨ m.year % 400 = 0) then 29 else 28
  else if m.month ∈ ([3, 5, 8, 10] : List (Fin 12)) then 30 else 31

def january : Month := ⟨2026, 0⟩

def monthLengths : Finset ℕ := {28, 29, 30, 31}

theorem Month.days_mem (m : Month) : m.days ∈ monthLengths := by
  unfold Month.days monthLengths
  split_ifs <;> decide

/-- `ProviderPlan`. Plans are made by `ProviderPolicy.plan`, and what a `ProviderPolicy` validates
of them is carried along. -/
structure ProviderPlan (K : Type) [Field K] [LinearOrder K] where
  name : String
  requestsPerMinute : ℤ
  monthlyLimit : Option ℤ := none
  reserveFraction : K
  billable : Bool := false
  paceMonthly : Bool := false
  /-- `requests_per_minute: int = Field(ge=1, …)`. -/
  one_le_requestsPerMinute : 1 ≤ requestsPerMinute
  /-- `monthly_limit: int | None = Field(…, ge=1, …)`. -/
  one_le_monthlyLimit : ∀ limit ∈ monthlyLimit, 1 ≤ limit
  /-- `reserve_fraction: float = Field(…, ge=0.0, …)`. -/
  reserveFraction_nonneg : 0 ≤ reserveFraction

variable {K : Type} [Field K] [LinearOrder K] [FloorRing K]

/-- `int(…)` of a number: towards zero. -/
def toInt (x : K) : ℤ := if 0 ≤ x then ⌊x⌋ else ⌈x⌉

/-- `int(plan.monthly_limit * plan.reserve_fraction)`. -/
def ProviderPlan.reserve (plan : ProviderPlan K) (limit : ℤ) : ℤ := toInt (limit * plan.reserveFraction)

/-- `_effective_requests_per_minute`, in a month of so many days. -/
def effectiveRequestsPerMinute (plan : ProviderPlan K) (days : ℕ) (critical : Bool) : K :=
  match plan.monthlyLimit with
  | none => plan.requestsPerMinute
  | some limit =>
    if plan.paceMonthly then
      min (plan.requestsPerMinute : K)
        ((max 1 (limit - if critical then 0 else plan.reserve limit) : ℤ) / (days * 24 * 60 : ℕ))
    else plan.requestsPerMinute

/-- `_bucket_capacity`: at most two seconds of burst traffic. -/
def bucketCapacity (plan : ProviderPlan K) (effectiveRpm : K) : K :=
  max 1 (min plan.requestsPerMinute (effectiveRpm / 30))

/-- The bucket of a provider, with its plan and its penalty. -/
structure Bucket (K : Type) [Field K] [LinearOrder K] extends TokenBucket K where
  plan : ProviderPlan K
  unavailableUntil : K := 0

/-- `_Bucket(plan)`, made at a time of a month. -/
def Bucket.new (plan : ProviderPlan K) (now : K) (month : Month) : Bucket K where
  tokens := bucketCapacity plan (effectiveRequestsPerMinute plan month.days false)
  updated := now
  plan := plan

def Bucket.refill (bucket : Bucket K) (now effectiveRpm : K) : Bucket K :=
  { bucket with
    toTokenBucket := bucket.toTokenBucket.refill now (effectiveRpm / 60) (bucketCapacity bucket.plan effectiveRpm) }

/-- The largest effective rate of a plan, in calls per second. -/
def ProviderPlan.largestRate (plan : ProviderPlan K) : K :=
  (monthLengths ×ˢ Finset.univ).sup' ⟨(28, false), by decide⟩
    fun p => effectiveRequestsPerMinute plan p.1 p.2 / 60

/-- The largest capacity in any month. -/
def ProviderPlan.largestCapacity (plan : ProviderPlan K) : K :=
  (monthLengths ×ˢ Finset.univ).sup' ⟨(28, false), by decide⟩
    fun p => bucketCapacity plan (effectiveRequestsPerMinute plan p.1 p.2)

theorem rate_le_largestRate (plan : ProviderPlan K) (m : Month) (critical : Bool) :
    effectiveRequestsPerMinute plan m.days critical / 60 ≤ plan.largestRate :=
  Finset.le_sup' (fun p : ℕ × Bool => effectiveRequestsPerMinute plan p.1 p.2 / 60)
    (b := (m.days, critical)) (by simp [m.days_mem])

theorem capacity_le_largestCapacity (plan : ProviderPlan K) (m : Month) (critical : Bool) :
    bucketCapacity plan (effectiveRequestsPerMinute plan m.days critical) ≤ plan.largestCapacity :=
  Finset.le_sup' (fun p : ℕ × Bool => bucketCapacity plan (effectiveRequestsPerMinute plan p.1 p.2))
    (b := (m.days, critical)) (by simp [m.days_mem])

/-- `bucket.tokens -= 1`. -/
def Bucket.taken (bucket : Bucket K) : Bucket K := { bucket with toTokenBucket := bucket.toTokenBucket.take }

/-- The backoff a provider gets: between a second and five minutes. -/
def backoff (retryAfterSeconds : K) : K := max 1 (min 300 retryAfterSeconds)

/-- What a penalty does to the bucket. -/
def Bucket.penalized (bucket : Bucket K) (retryAfterSeconds now : K) : Bucket K :=
  { bucket with
    toTokenBucket := .drained now
    unavailableUntil := now + backoff retryAfterSeconds }

/-- The buckets, by the name of the provider. -/
abbrev Buckets (K : Type) [Field K] [LinearOrder K] : Type := Table String (Bucket K) (·.plan.name)

/-- The table `provider_usage`: the calls of a provider in a month. -/
abbrev ProviderUsage : Type := Month → String → ℕ

/-- `increment_provider_usage`. -/
def ProviderUsage.increment (usage : ProviderUsage) (month : Month) (provider : String) : ProviderUsage :=
  fun month' provider' => if month' = month ∧ provider' = provider then usage month' provider' + 1
    else usage month' provider'

/-- `QuotaBroker`, with its table. -/
structure QuotaBroker (K : Type) [Field K] [LinearOrder K] where
  buckets : Buckets K
  allowBillable : Bool
  usage : ProviderUsage

/-- `QuotaBroker(database, plans, allow_billable=…)`. -/
def QuotaBroker.new (usage : ProviderUsage) (plans : List (ProviderPlan K)) (allowBillable : Bool)
    (now : K) (month : Month) : QuotaBroker K where
  buckets := Table.ofRows (plans.map (Bucket.new · now month))
  allowBillable := allowBillable
  usage := usage

/-- The calls of the month a provider may have before this one. -/
def ProviderPlan.callLimit (plan : ProviderPlan K) (critical : Bool) : Option ℤ :=
  plan.monthlyLimit.map fun limit => if critical then limit else limit - plan.reserve limit

/-- What a call of `acquire` reads: the process clock, the month it counts the call in, and the
month of its rate. -/
structure Reading (K : Type) where
  now : K
  month : Month
  rateMonth : Month

/-- `acquire`. `fails` says that the write of the usage raises. -/
def QuotaBroker.acquire (broker : QuotaBroker K) (provider : String) (critical : Bool) (reading : Reading K)
    (fails : Bool) : Bool × QuotaBroker K :=
  match broker.buckets.get? provider with
  | none => (false, broker)
  | some bucket =>
    if bucket.plan.billable ∧ ¬ broker.allowBillable then (false, broker)
    else if ∃ limit ∈ bucket.plan.callLimit critical, limit ≤ broker.usage reading.month provider then
      (false, broker)
    else if reading.now < bucket.unavailableUntil then (false, broker)
    else
      let bucket := bucket.refill reading.now
        (effectiveRequestsPerMinute bucket.plan reading.rateMonth.days critical)
      if bucket.tokens < 1 then (false, { broker with buckets := broker.buckets.upsert bucket })
      else
        let broker := { broker with buckets := broker.buckets.upsert bucket.taken }
        -- the token is gone when the write raises, but there is no grant
        if fails then (false, broker)
        else (true, { broker with usage := broker.usage.increment reading.month provider })

def QuotaBroker.penalize (broker : QuotaBroker K) (provider : String) (retryAfterSeconds now : K) : QuotaBroker K :=
  match broker.buckets.get? provider with
  | none => broker
  | some bucket => { broker with buckets := broker.buckets.upsert (bucket.penalized retryAfterSeconds now) }

/-- The bucket a plan gets when the broker is reconfigured. -/
def Buckets.renew (previous : Buckets K) (plan : ProviderPlan K) (now : K) (month : Month) : Bucket K :=
  match previous.get? plan.name with
  | none => Bucket.new plan now month
  | some old => { Bucket.new plan now month with
      tokens := min (Bucket.new plan now month).tokens old.tokens
      unavailableUntil := old.unavailableUntil }

def QuotaBroker.reconfigure (broker : QuotaBroker K) (plans : List (ProviderPlan K)) (allowBillable : Bool)
    (now : K) (month : Month) : QuotaBroker K :=
  { broker with
    allowBillable := allowBillable
    buckets := Table.ofRows (plans.map (broker.buckets.renew · now month)) }

/-- The calls on a broker. -/
inductive Action (K : Type) [Field K] [LinearOrder K] where
  | acquire (provider : String) (critical : Bool) (reading : Reading K) (fails : Bool)
  | penalize (provider : String) (retryAfterSeconds now : K)
  | reconfigure (plans : List (ProviderPlan K)) (allowBillable : Bool) (now : K) (month : Month)

/-- The process clock at the call. -/
def Action.now : Action K → K
  | .acquire _ _ reading _ => reading.now
  | .penalize _ _ now => now
  | .reconfigure _ _ now _ => now

/-- Whether a call is granted. -/
def QuotaBroker.grants (broker : QuotaBroker K) : Action K → Bool
  | .acquire provider critical reading fails => (broker.acquire provider critical reading fails).1
  | _ => false

/-- One call. -/
def step (broker : QuotaBroker K) : Action K → QuotaBroker K
  | .acquire provider critical reading fails => (broker.acquire provider critical reading fails).2
  | .penalize provider retryAfterSeconds now => broker.penalize provider retryAfterSeconds now
  | .reconfigure plans allowBillable now month => broker.reconfigure plans allowBillable now month

end SignalArcade.Providers
