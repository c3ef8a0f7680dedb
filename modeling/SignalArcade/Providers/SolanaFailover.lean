import SignalArcade.Lib.Runs
import Mathlib.Tactic.Linarith

/-!
# Failover of Solana calls

`_solana_rpc_response` of `http.py` sends one request to the primary endpoint, and to the fallback
when the primary does not serve it. An endpoint that does not is not used for a while. What it keeps
of the endpoints is shared by all calls, and is dropped when the endpoints are configured anew.
-/

namespace SignalArcade.Providers

open Runs List

/-! ### Answers -/

/-- The two endpoints. -/
inductive Endpoint where
  | primary | fallback
  deriving DecidableEq

/-- The header `Retry-After`, as `float` reads it. -/
inductive RetryAfter where
  | absent
  | unreadable
  | notANumber
  | infinite (positive : Bool)
  | seconds (value : ℚ)
  deriving DecidableEq

/-- `_retry_after`. -/
def RetryAfter.delay : RetryAfter → ℚ
  | .absent | .unreadable | .infinite false => 1
  | .notANumber | .infinite true => 300
  | .seconds value => max 1 (min 300 value)

/-- What `error` of the body of an answer is. -/
inductive RpcError where
  | none
  | code (code : ℤ)
  | other

/-- `httpx.Response`. -/
structure Response where
  statusCode : ℕ
  retryAfter : RetryAfter := .absent
  /-- Nothing, when it is not an object. -/
  body : Option RpcError := some .none

namespace Response

/-- Whether the endpoint refuses to serve. -/
def unavailable (response : Response) : Bool :=
  response.statusCode ∈ [401, 403, 413, 429] || 500 ≤ response.statusCode

/-- Whether the endpoint cannot serve for the moment. The body of a failed request is not read. -/
def overloaded (response : Response) : Bool :=
  response.statusCode < 400 &&
    match response.body with
    | some (.code code) => code ∈ [-32603, -32016, -32005]
    | _ => false

end Response

/-- What comes of an attempt. -/
inductive Answer where
  /-- The call is cancelled, or raises. -/
  | raised
  /-- `httpx.HTTPError`. -/
  | transport
  | response (response : Response)

/-- What a call makes of an answer. -/
inductive AnswerReading where
  | raised
  /-- `_cool_down_solana_endpoint`, with the response or without. -/
  | failed (response : Option Response)
  | served (response : Response)

def Answer.reading : Answer → AnswerReading
  | .raised => .raised
  | .transport => .failed none
  | .response reply =>
    if reply.unavailable then .failed (some reply)
    else if reply.overloaded then .failed none
    else .served reply

/-! ### Calls -/

/-- What a call of the RPC comes to. -/
inductive CallResult where
  | response (response : Response)
  | none
  | raised

/-- How far a call has come. It keeps the generation it began in. -/
inductive SolanaCall where
  | idle
  /-- It waits for the quota. -/
  | acquiring (generation : ℕ) (available : List (Endpoint × String))
  /-- It waits for an answer. -/
  | posting (generation : ℕ) (endpoint : Endpoint) (rest : List (Endpoint × String))
  | done (result : CallResult)

def SolanaCall.left : SolanaCall → List Endpoint
  | .idle => [.primary, .fallback]
  | .acquiring _ available => available.map Prod.fst
  | .posting _ _ rest => rest.map Prod.fst
  | .done _ => []

/-- What the quota says. -/
inductive Admission where
  | admitted | refused | raised

/-- What a run logs: attempts and penalties. -/
inductive LogEntry where
  | attempt (call : ℕ) (endpoint : Endpoint) (generation : ℕ) (now : ℚ)
  | penalty (endpoint : Endpoint) (generation : ℕ) (deadline : ℚ)

/-- `HttpProviders`, as far as Solana is concerned, the process clock, and the calls. -/
structure HttpProviders where
  solanaHttp : String
  solanaFallbackHttp : Option String
  clock : ℚ
  unavailableUntil : Endpoint → ℚ := fun _ => 0
  failures : Endpoint → ℕ := fun _ => 0
  generation : ℕ := 0
  calls : ℕ → SolanaCall := fun _ => .idle
  log : List LogEntry := []

/-- The steps of the calls, and what else happens. -/
inductive SolanaAction where
  /-- `_solana_rpc_response` is called. -/
  | start (call : ℕ)
  | quota (call : ℕ) (admission : Admission)
  | answer (call : ℕ) (answer : Answer)
  /-- `configure_solana`. -/
  | configure (httpUrl : String) (fallbackHttpUrl : Option String)
  | elapse (seconds : NNRat)

namespace HttpProviders

/-- `HttpProviders.__init__`. -/
def new (solanaHttp : String) (solanaFallbackHttp : Option String) (clock : ℚ) : HttpProviders where
  solanaHttp := solanaHttp
  solanaFallbackHttp := solanaFallbackHttp.filter fun url => url ≠ solanaHttp
  clock := clock

variable (s : HttpProviders)

/-- A call has come further. -/
def goes (call : ℕ) (state : SolanaCall) : HttpProviders := { s with calls := Function.update s.calls call state }

/-- The endpoints, the primary first. -/
def endpoints : List (Endpoint × String) :=
  (.primary, s.solanaHttp) ::
    match s.solanaFallbackHttp with
    | none => []
    | some url => if url = "" then [] else [(.fallback, url)]

/-- The endpoints that are not cooling down. -/
def available : List (Endpoint × String) := s.endpoints.filter fun endpoint => s.unavailableUntil endpoint.1 ≤ s.clock

/-- `failures`, with the one that has just been. -/
def failuresAfter (endpoint : Endpoint) : ℕ := min 8 (s.failures endpoint + 1)

/-- `delay` of `_cool_down_solana_endpoint`. -/
def delay (endpoint : Endpoint) (response : Option Response) : ℚ :=
  let grows : ℚ := min 60 (2 ^ (s.failuresAfter endpoint - 1))
  match response with
  | none => grows
  | some response =>
    if response.statusCode = 429 ∨ (response.statusCode = 413 ∧ response.retryAfter ≠ .absent) then response.retryAfter.delay
    else if response.statusCode ∈ [401, 403] then 300
    else grows

/-- When a penalty given now ends. -/
def deadline (endpoint : Endpoint) (response : Option Response) : ℚ :=
  s.clock + max 1 (min 300 (s.delay endpoint response))

/-- `_cool_down_solana_endpoint`. -/
def coolDown (endpoint : Endpoint) (response : Option Response) : HttpProviders :=
  { s with
    failures := Function.update s.failures endpoint (s.failuresAfter endpoint)
    unavailableUntil := Function.update s.unavailableUntil endpoint (s.deadline endpoint response)
    log := .penalty endpoint s.generation (s.deadline endpoint response) :: s.log }

def clear (endpoint : Endpoint) : HttpProviders :=
  { s with
    failures := Function.update s.failures endpoint 0
    unavailableUntil := Function.update s.unavailableUntil endpoint 0 }

def attemptNext (call : ℕ) (generation : ℕ) : List (Endpoint × String) → HttpProviders
  | [] => s.goes call (.done .none)
  | (endpoint, _) :: rest =>
    { s with log := .attempt call endpoint s.generation s.clock :: s.log }.goes call (.posting generation endpoint rest)

def startCall (call : ℕ) : HttpProviders :=
  if s.available = [] then s.goes call (.done .none) else s.goes call (.acquiring s.generation s.available)

/-- A call goes on when the quota has answered. -/
def acquired (call : ℕ) (generation : ℕ) (available : List (Endpoint × String)) (admission : Admission) : HttpProviders :=
  match admission with
  | .raised => s.goes call (.done .raised)
  | .refused => s.goes call (.done .none)
  | .admitted => if generation ≠ s.generation then s.goes call (.done .none) else s.attemptNext call generation available

def answered (call : ℕ) (generation : ℕ) (endpoint : Endpoint) (rest : List (Endpoint × String)) (reading : AnswerReading) :
    HttpProviders :=
  match reading with
  | .raised => s.goes call (.done .raised)
  | .failed response =>
    if generation ≠ s.generation then s.goes call (.done .none)
    else (s.coolDown endpoint response).attemptNext call generation rest
  | .served response =>
    if generation ≠ s.generation then s.goes call (.done .none)
    else (s.clear endpoint).goes call (.done (.response response))

def configureSolana (httpUrl : String) (fallbackHttpUrl : Option String) : HttpProviders :=
  { s with
    generation := s.generation + 1
    solanaHttp := httpUrl
    solanaFallbackHttp := fallbackHttpUrl.filter fun url => url ≠ "" ∧ url ≠ httpUrl
    unavailableUntil := fun _ => 0
    failures := fun _ => 0 }

/-- One step. A call that is not at this point does nothing. -/
def step (s : HttpProviders) : SolanaAction → HttpProviders
  | .start call =>
    match s.calls call with
    | .idle => s.startCall call
    | _ => s
  | .quota call admission =>
    match s.calls call with
    | .acquiring generation available => s.acquired call generation available admission
    | _ => s
  | .answer call answer =>
    match s.calls call with
    | .posting generation endpoint rest => s.answered call generation endpoint rest answer.reading
    | _ => s
  | .configure httpUrl fallbackHttpUrl => s.configureSolana httpUrl fallbackHttpUrl
  | .elapse seconds => { s with clock := s.clock + seconds }

/-! ### The laws -/

/-- The endpoints that a call tried. -/
def attempted (call : ℕ) : List Endpoint :=
  s.log.reverse.filterMap fun
    | .attempt call' endpoint _ _ => if call' = call then some endpoint else none
    | .penalty _ _ _ => none

/-- An attempt is not made before a deadline that was set for its endpoint in the same generation. -/
def Honours : LogEntry → LogEntry → Prop
  | .attempt _ endpoint generation now, .penalty endpoint' generation' deadline =>
    endpoint' = endpoint → generation' = generation → deadline ≤ now
  | _, _ => True

instance : DecidableRel Honours
  | .attempt _ endpoint generation now, .penalty endpoint' generation' deadline =>
    inferInstanceAs (Decidable (endpoint' = endpoint → generation' = generation → deadline ≤ now))
  | .attempt _ _ _ _, .attempt _ _ _ _ | .penalty _ _ _, _ => isTrue trivial

/-- No attempt is made before an earlier deadline. -/
def DeadlinesKept : Prop := s.log.Pairwise Honours

/-- An answer to a request that was sent in an older generation changes nothing, and is not returned. -/
def Discards : SolanaAction → Prop
  | .answer call answer =>
    ∀ generation endpoint rest, s.calls call = .posting generation endpoint rest → generation ≠ s.generation →
      (s.step (.answer call answer)).unavailableUntil = s.unavailableUntil ∧
        (s.step (.answer call answer)).failures = s.failures ∧
        ∀ response, (s.step (.answer call answer)).calls call ≠ .done (.response response)
  | _ => True

def attempts : SolanaAction → Option Endpoint
  | .quota call .admitted =>
    match s.calls call with
    | .acquiring generation available => if generation = s.generation then available.head?.map Prod.fst else none
    | _ => none
  | .answer call answer =>
    match s.calls call, answer.reading with
    | .posting generation _ rest, .failed _ => if generation = s.generation then rest.head?.map Prod.fst else none
    | _, _ => none
  | _ => none

def sets : SolanaAction → Option (Endpoint × ℚ)
  | .answer call answer =>
    match s.calls call, answer.reading with
    | .posting generation endpoint _, .failed response =>
      if generation = s.generation then some (endpoint, s.deadline endpoint response) else none
    | .posting generation endpoint _, .served _ => if generation = s.generation then some (endpoint, 0) else none
    | _, _ => none
  | _ => none

/-- An endpoint is available when it is attempted, and a deadline that is not over is not brought forward. -/
def Careful (action : SolanaAction) : Prop :=
  (∀ endpoint ∈ s.attempts action, s.unavailableUntil endpoint ≤ s.clock) ∧
    ∀ setting ∈ s.sets action, s.unavailableUntil setting.1 ≤ max s.clock setting.2

instance (action : SolanaAction) : Decidable (s.Careful action) :=
  inferInstanceAs (Decidable ((∀ endpoint ∈ s.attempts action, s.unavailableUntil endpoint ≤ s.clock) ∧
    ∀ setting ∈ s.sets action, s.unavailableUntil setting.1 ≤ max s.clock setting.2))

variable {s} {call generation : ℕ} {endpoint : Endpoint} {response : Option Response} {rest : List (Endpoint × String)}

/-! ### The order of the attempts -/

/-- What calls have attempted and what they have still to attempt. -/
structure InOrder (s : HttpProviders) : Prop where
  order : ∀ call, (s.attempted call ++ (s.calls call).left).Sublist [.primary, .fallback]
  posted : ∀ call generation endpoint rest, s.calls call = .posting generation endpoint rest → endpoint ∈ s.attempted call

theorem endpoints_sublist (s : HttpProviders) : (s.endpoints.map Prod.fst).Sublist [.primary, .fallback] := by
  unfold endpoints
  split
  · exact sublist_append_left [Endpoint.primary] [Endpoint.fallback]
  · split_ifs
    · exact sublist_append_left [Endpoint.primary] [Endpoint.fallback]
    · exact Sublist.refl _

theorem attempted_attempt (s : HttpProviders) (call call' : ℕ) (endpoint : Endpoint) (now : ℚ) :
    { s with log := .attempt call endpoint s.generation now :: s.log }.attempted call' =
      s.attempted call' ++ if call = call' then [endpoint] else [] := by
  unfold attempted
  rw [reverse_cons, filterMap_append]
  split_ifs with hcall <;> simp [hcall]

namespace InOrder

section

variable (h : s.InOrder)
include h

theorem goes {state : SolanaCall} (hleft : state.left.Sublist (s.calls call).left)
    (hposting : ∀ generation endpoint rest, state ≠ .posting generation endpoint rest) : (s.goes call state).InOrder where
  order call' := by
    show (s.attempted call' ++ (Function.update s.calls call state call').left).Sublist _
    by_cases hcall : call' = call
    · subst hcall
      rw [Function.update_self]
      exact (Sublist.append_left hleft _).trans (h.order call')
    · rw [Function.update_of_ne hcall]
      exact h.order call'
  posted call' generation endpoint rest hcall' := by
    change Function.update s.calls call state call' = _ at hcall'
    by_cases hcall : call' = call
    · rw [hcall, Function.update_self] at hcall'
      exact absurd hcall' (hposting _ _ _)
    · rw [Function.update_of_ne hcall] at hcall'
      exact h.posted call' generation endpoint rest hcall'

theorem done (result : CallResult) : (s.goes call (.done result)).InOrder :=
  h.goes (nil_sublist _) fun _ _ _ heq => by cases heq

theorem attemptNext (hleft : (rest.map Prod.fst).Sublist (s.calls call).left) :
    (s.attemptNext call generation rest).InOrder := by
  cases rest with
  | nil => exact h.done .none
  | cons next rest =>
    refine ⟨fun call' => ?_, fun call' generation' endpoint rest' hcall' => ?_⟩
    · show ({ s with log := .attempt call next.1 s.generation s.clock :: s.log }.attempted call' ++
        (Function.update s.calls call (.posting generation next.1 rest) call').left).Sublist _
      rw [attempted_attempt]
      by_cases hcall : call' = call
      · subst hcall
        rw [Function.update_self, if_pos rfl, append_assoc]
        exact (Sublist.append_left hleft _).trans (h.order call')
      · rw [Function.update_of_ne hcall, if_neg (Ne.symm hcall), append_nil]
        exact h.order call'
    · show endpoint ∈ { s with log := .attempt call next.1 s.generation s.clock :: s.log }.attempted call'
      change Function.update s.calls call (.posting generation next.1 rest) call' = _ at hcall'
      rw [attempted_attempt]
      by_cases hcall : call' = call
      · rw [hcall, Function.update_self] at hcall'
        cases hcall'
        rw [if_pos hcall.symm]
        exact mem_append_right _ (mem_singleton.mpr rfl)
      · rw [Function.update_of_ne hcall] at hcall'
        exact mem_append_left _ (h.posted call' generation' endpoint rest' hcall')

theorem coolDown (endpoint : Endpoint) (response : Option Response) :
    (s.coolDown endpoint response).InOrder := by
  have hsame : ∀ call, (s.coolDown endpoint response).attempted call = s.attempted call := by
    intro call
    unfold attempted HttpProviders.coolDown
    simp
  exact ⟨fun call => hsame call ▸ h.order call,
    fun call generation endpoint rest hcall => hsame call ▸ h.posted call generation endpoint rest hcall⟩

theorem clear (endpoint : Endpoint) : (s.clear endpoint).InOrder := ⟨h.order, h.posted⟩

theorem not_left (hcall : s.calls call = .posting generation endpoint rest) :
    endpoint ∉ rest.map Prod.fst := by
  have horder := h.order call
  rw [hcall] at horder
  have hnodup : (s.attempted call ++ rest.map Prod.fst).Nodup := horder.nodup (by decide)
  intro hmem
  exact (nodup_append.mp hnodup).2.2 endpoint (h.posted call generation endpoint rest hcall) endpoint hmem rfl

theorem step (action : SolanaAction) : (s.step action).InOrder := by
  unfold HttpProviders.step
  split
  · next call =>
    split
    · next hcall =>
      unfold startCall
      split_ifs
      · exact h.done _
      · refine h.goes ?_ fun _ _ _ heq => by cases heq
        rw [hcall]
        exact (filter_sublist.map Prod.fst).trans s.endpoints_sublist
    · exact h
  · next call admission =>
    split
    · next generation available hcall =>
      have hleft : (s.calls call).left = available.map Prod.fst := by rw [hcall]; rfl
      unfold acquired
      split
      · exact h.done _
      · exact h.done _
      · split_ifs
        · exact h.done _
        · exact h.attemptNext (hleft ▸ Sublist.refl _)
    · exact h
  · next call answer =>
    split
    · next generation endpoint rest hcall =>
      have hleft : (s.calls call).left = rest.map Prod.fst := by rw [hcall]; rfl
      unfold answered
      split
      · exact h.done _
      · split_ifs
        · exact h.done _
        · exact (h.coolDown endpoint _).attemptNext (hleft ▸ Sublist.refl _)
      · split_ifs
        · exact h.done _
        · exact (h.clear endpoint).done _
    · exact h
  · exact ⟨h.order, h.posted⟩
  · exact ⟨h.order, h.posted⟩

end

end InOrder

/-! ### What is discarded -/

theorem discards (s : HttpProviders) (action : SolanaAction) : s.Discards action := by
  cases action with
  | answer call answer =>
    intro generation endpoint rest hcall hold
    have hstep : s.step (.answer call answer) = s.answered call generation endpoint rest answer.reading := by
      unfold HttpProviders.step
      simp only [hcall]
    rw [hstep]
    unfold answered
    split
    · exact ⟨rfl, rfl, fun reply h => by simp [goes] at h⟩
    · rw [if_pos hold]
      exact ⟨rfl, rfl, fun reply h => by simp [goes] at h⟩
    · rw [if_pos hold]
      exact ⟨rfl, rfl, fun reply h => by simp [goes] at h⟩
  | start | quota | configure | elapse => trivial

/-! ### Deadlines -/

/-- Every deadline of this generation is over, or not after the one that is kept for its endpoint. -/
structure Waits (s : HttpProviders) : Prop where
  kept : s.DeadlinesKept
  known : ∀ endpoint generation deadline, .penalty endpoint generation deadline ∈ s.log → generation ≤ s.generation ∧
    (generation = s.generation → deadline ≤ max (s.unavailableUntil endpoint) s.clock)

section

variable (h : s.Waits)
include h

theorem Waits.goes {state : SolanaCall} : (s.goes call state).Waits := ⟨h.kept, h.known⟩

theorem Waits.attemptNext (hnext : ∀ endpoint ∈ rest.head?.map Prod.fst, s.unavailableUntil endpoint ≤ s.clock) :
    (s.attemptNext call generation rest).Waits := by
  cases rest with
  | nil => exact h.goes
  | cons next rest =>
    refine ⟨pairwise_cons.mpr ⟨?_, h.kept⟩, ?_⟩
    · rintro (⟨_, _, _, _⟩ | ⟨endpoint, generation, deadline⟩) hmem
      · trivial
      · rintro rfl hgeneration
        exact ((h.known _ _ _ hmem).2 hgeneration).trans (max_le (hnext _ rfl) le_rfl)
    · intro endpoint generation deadline hmem
      exact h.known endpoint generation deadline ((mem_cons.mp hmem).resolve_left (by simp))

theorem Waits.coolDown (hset : s.unavailableUntil endpoint ≤ max s.clock (s.deadline endpoint response)) :
    (s.coolDown endpoint response).Waits := by
  refine ⟨pairwise_cons.mpr ⟨fun _ _ => trivial, h.kept⟩, ?_⟩
  intro endpoint' generation deadline hmem
  show generation ≤ s.generation ∧ (generation = s.generation → deadline ≤
    max (Function.update s.unavailableUntil endpoint (s.deadline endpoint response) endpoint') s.clock)
  rcases mem_cons.mp hmem with heq | hmem
  · cases heq
    rw [Function.update_self]
    exact ⟨le_rfl, fun _ => le_max_left _ _⟩
  · obtain ⟨hle, hknown⟩ := h.known _ _ _ hmem
    refine ⟨hle, fun hgeneration => (hknown hgeneration).trans ?_⟩
    by_cases hendpoint : endpoint' = endpoint
    · subst hendpoint
      rw [Function.update_self]
      exact max_le (hset.trans_eq (max_comm _ _)) (le_max_right _ _)
    · rw [Function.update_of_ne hendpoint]

theorem Waits.clear (hset : s.unavailableUntil endpoint ≤ max s.clock 0) : (s.clear endpoint).Waits := by
  refine ⟨h.kept, fun endpoint' generation deadline hmem => ?_⟩
  obtain ⟨hle, hknown⟩ := h.known _ _ _ hmem
  refine ⟨hle, fun hgeneration => (hknown hgeneration).trans ?_⟩
  show _ ≤ max (Function.update s.unavailableUntil endpoint 0 endpoint') s.clock
  by_cases hendpoint : endpoint' = endpoint
  · subst hendpoint
    rw [Function.update_self]
    exact max_le (hset.trans_eq (max_comm _ _)) (le_max_right _ _)
  · rw [Function.update_of_ne hendpoint]

theorem Waits.configure (httpUrl : String) (fallbackHttpUrl : Option String) :
    (s.configureSolana httpUrl fallbackHttpUrl).Waits := by
  refine ⟨h.kept, fun endpoint generation deadline hmem => ?_⟩
  have hle := (h.known endpoint generation deadline hmem).1
  exact ⟨Nat.le_succ_of_le hle, fun hgeneration => absurd (hgeneration.symm.trans_le hle) (Nat.not_succ_le_self s.generation)⟩

theorem Waits.elapse (seconds : NNRat) : ({ s with clock := s.clock + seconds } : HttpProviders).Waits := by
  refine ⟨h.kept, fun endpoint generation deadline hmem => ?_⟩
  obtain ⟨hle, hknown⟩ := h.known endpoint generation deadline hmem
  have hlater : s.clock ≤ s.clock + seconds := le_add_of_nonneg_right seconds.coe_nonneg
  exact ⟨hle, fun hgeneration => (hknown hgeneration).trans (max_le_max le_rfl hlater)⟩

/-- A careful step attempts no endpoint too early. -/
theorem Waits.step {action : SolanaAction} (horder : s.InOrder) (hcareful : s.Careful action) : (s.step action).Waits := by
  obtain ⟨hattempts, hsets⟩ := hcareful
  cases action with
  | start call =>
    dsimp only [HttpProviders.step]
    split
    · unfold startCall
      split_ifs <;> exact h.goes
    · exact h
  | quota call admission =>
    dsimp only [HttpProviders.step]
    split
    · next generation available hcall =>
      cases admission with
      | raised | refused => exact h.goes
      | admitted =>
        dsimp only [acquired]
        split_ifs with hgeneration
        · exact h.goes
        · simp only [attempts, hcall, not_ne_iff.mp hgeneration, if_true] at hattempts
          exact h.attemptNext hattempts
    · exact h
  | answer call answer =>
    dsimp only [HttpProviders.step]
    split
    · next generation endpoint rest hcall =>
      simp only [attempts, hcall] at hattempts
      simp only [sets, hcall] at hsets
      cases hreading : answer.reading with
      | raised => exact h.goes
      | failed response =>
        dsimp only [answered]
        split_ifs with hgeneration
        · exact h.goes
        · rw [hreading] at hattempts hsets
          simp only [not_ne_iff.mp hgeneration, if_true] at hattempts hsets
          have hset : s.unavailableUntil endpoint ≤ max s.clock (s.deadline endpoint response) :=
            hsets (endpoint, s.deadline endpoint response) (Option.mem_some_self _)
          refine (h.coolDown hset).attemptNext fun next hnext => ?_
          have hother : next ≠ endpoint := by
            rintro rfl
            refine horder.not_left hcall ?_
            obtain ⟨head, hhead, rfl⟩ := Option.map_eq_some_iff.mp hnext
            exact mem_map_of_mem (mem_of_head? hhead)
          show Function.update s.unavailableUntil endpoint _ next ≤ s.clock
          rw [Function.update_of_ne hother]
          exact hattempts next hnext
      | served reply =>
        dsimp only [answered]
        split_ifs with hgeneration
        · exact h.goes
        · rw [hreading] at hsets
          simp only [not_ne_iff.mp hgeneration, if_true] at hsets
          have hset : s.unavailableUntil endpoint ≤ max s.clock 0 := hsets (endpoint, 0) (Option.mem_some_self _)
          exact (h.clear hset).goes
    · exact h
  | configure httpUrl fallbackHttpUrl => exact h.configure httpUrl fallbackHttpUrl
  | elapse seconds => exact h.elapse seconds

end

end HttpProviders

/-- **Failover.** In every interleaving a call attempts each endpoint at most once, the primary first, and an answer to a
request of an older generation is not returned and changes nothing. When every step is careful, no attempt is made
before a deadline that was set for its endpoint in the same generation. -/
theorem failover_law (solanaHttp : String) (solanaFallbackHttp : Option String) (clock : ℚ)
    (actions : List SolanaAction) :
    let s := HttpProviders.new solanaHttp solanaFallbackHttp clock;
    (∀ call, ((run HttpProviders.step s actions).attempted call).Sublist [.primary, .fallback]) ∧
      Along HttpProviders.step HttpProviders.Discards s actions ∧
      (Along HttpProviders.step HttpProviders.Careful s actions → (run HttpProviders.step s actions).DeadlinesKept) := by
  intro s
  have horder : s.InOrder := ⟨fun _ => Sublist.refl _, fun _ _ _ _ hcall => by cases hcall⟩
  have hwaits : s.Waits := ⟨Pairwise.nil, fun _ _ _ hmem => absurd hmem not_mem_nil⟩
  refine ⟨fun call => ?_, ?_, fun hcareful => ?_⟩
  · have hend : (run HttpProviders.step s actions).InOrder := run_invariant horder fun _ action h => h.step action
    exact (sublist_append_left _ _).trans (hend.order call)
  · exact along_iff.mpr fun before action _ _ => HttpProviders.discards (run HttpProviders.step s before) action
  · have hboth := hcareful.invariant (I := fun s => s.InOrder ∧ s.Waits) ⟨horder, hwaits⟩
      fun _ action h hcareful => ⟨h.1.step action, h.2.step h.1 hcareful⟩
    exact hboth.2.kept

def twoEndpoints : HttpProviders := .new "https://primary.invalid" (some "https://fallback.invalid") 0

def fiveMinutes : Answer := .response { statusCode := 429, retryAfter := .seconds 300 }

local instance atLeastTwo_elapse : Nat.AtLeastTwo 300 := inferInstance

/-- A call is refused by the primary and served by the fallback; the next one is made when the primary may be called
again. -/
def patientCalls : List SolanaAction :=
  [.start 0, .quota 0 .admitted, .answer 0 fiveMinutes, .answer 0 (.response { statusCode := 200 }), .elapse 300,
    .start 1, .quota 1 .admitted]

/-- The second call waits until the penalty is over. -/
theorem failover_patient : (run HttpProviders.step twoEndpoints patientCalls).DeadlinesKept :=
  (failover_law "https://primary.invalid" (some "https://fallback.invalid") 0 patientCalls).2.2 (by decide +kernel)

/-- A call looks at the primary, and attempts it after it has waited for the quota. -/
def lateAttempt : List SolanaAction :=
  [.start 0, .start 1, .quota 0 .admitted, .answer 0 fiveMinutes, .elapse 1, .quota 1 .admitted]

/-- One call of two is served, after the other was refused. -/
def clearedDeadline : List SolanaAction :=
  [.start 0, .start 1, .quota 0 .admitted, .quota 1 .admitted, .answer 0 fiveMinutes,
    .answer 1 (.response { statusCode := 200 }), .start 2, .quota 2 .admitted]

/-- Two calls are refused, the second for two seconds. -/
def replacedDeadline : List SolanaAction :=
  [.start 0, .start 1, .quota 0 .admitted, .quota 1 .admitted, .answer 0 fiveMinutes,
    .answer 1 (.response { statusCode := 503 }), .elapse 2, .start 2, .quota 2 .admitted]

/-- **Deadlines are lost** when a step is not careful: when a call has waited for the quota, when one is served, and
when one is refused for a shorter time. -/
theorem deadline_lost :
    ¬ (run HttpProviders.step twoEndpoints lateAttempt).DeadlinesKept ∧
      ¬ (run HttpProviders.step twoEndpoints clearedDeadline).DeadlinesKept ∧
      ¬ (run HttpProviders.step twoEndpoints replacedDeadline).DeadlinesKept := by
  unfold HttpProviders.DeadlinesKept
  decide +kernel

end SignalArcade.Providers
