import SignalArcade.Archive.EventAppends
import SignalArcade.Providers.AnchorDecoder
import SignalArcade.Providers.LogLines

/-!
# Events by the invocation they are logged in

`events_from_logs` goes through the lines of a transaction with a stack of programs, the outermost first: a line that
announces an invocation puts its program at the depth it names, a line that announces an end takes the innermost
invocation of its program away, with what is above it. Any other line is decoded for the program on top, if that one is
supported.
-/

namespace SignalArcade.SolanaLogs

open Anchor Prog
open EventAppends (MarketEvent)
open Paper (Instant EventKind)

/-! ### Payloads -/

/-- `dict[str, Any]`. -/
abbrev Payload := List (String × PyValue)

def eventKinds : List (String × EventKind) :=
  [("createevent", .create), ("createpoolevent", .create), ("completeevent", .complete),
    ("completepumpammmigrationevent", .migrate), ("tradeevent", .trade), ("buyevent", .trade), ("sellevent", .trade),
    ("depositevent", .market), ("withdrawevent", .market), ("boostbuyandburnevent", .market),
    ("setcreatorevent", .market), ("adminsetcreatorevent", .market), ("migratebondingcurvecreatorevent", .market),
    ("setmetaplexcreatorevent", .market), ("setbondingcurvecoincreatorevent", .market),
    ("adminsetcoincreatorevent", .market), ("migratepoolcoincreatorevent", .market),
    ("setmetaplexcoincreatorevent", .market)]

def kindForEvent (name : String) : Option EventKind :=
  eventKinds.lookup (String.ofList (name.toLower.toList.filter (· ≠ '_')))

/-- `isinstance(value, str)`. -/
def textOf : Option PyValue → Option String
  | some (.str s) => some s
  | _ => none

/-- `isinstance(value, str) and 30 <= len(value) <= 50`. -/
def addressOf (value : Option PyValue) : Option String :=
  (textOf value).filter fun s => 30 ≤ s.length ∧ s.length ≤ 50

/-- `bool(value)`. -/
def truthy : PyValue → Bool
  | .none => false
  | .bool b => b
  | .int n => n ≠ 0
  -- of the bytes of a zero only the sign may be set
  | .float bytes => ¬ (bytes.dropLast.all (· = 0) ∧ bytes.getLast?.all fun last => last = 0 ∨ last = 128)
  | .str s => s ≠ ""
  | .list items => ¬ items.isEmpty
  | .dict items => ¬ items.isEmpty

/-- `value or other`. -/
def orElse (value other : Option PyValue) : Option PyValue := if value.any truthy then value else other

def mintForPayload (payload : Payload) : Option String :=
  ["mint", "base_mint", "baseMint", "token_mint", "tokenMint"].findSome? fun key => addressOf (getItem payload key)

/-! ### Pools -/

/-- `pool_mints` and `pool_quotes`, those used last at the end. -/
structure PoolMappings where
  poolMints : List (String × String)
  poolQuotes : List (String × String)

/-- `mappings[pool] = value`, `mappings.move_to_end(pool)`. -/
def setToEnd (mappings : List (String × String)) (pool value : String) : List (String × String) :=
  mappings.filter (fun mapping => mapping.1 ≠ pool) ++ [(pool, value)]

/-- The oldest mappings go, with their quotes. -/
def PoolMappings.bounded (pools : PoolMappings) (maxPoolMappings : ℕ) : PoolMappings where
  poolMints := pools.poolMints.drop (pools.poolMints.length - maxPoolMappings)
  poolQuotes := pools.poolQuotes.filter fun quote =>
    quote.1 ∉ (pools.poolMints.take (pools.poolMints.length - maxPoolMappings)).map Prod.fst

/-- `remember_pool_mapping`, of a pool and its mint. -/
def PoolMappings.remember (pools : PoolMappings) (maxPoolMappings : ℕ) (pool baseMint : String)
    (quoteMint : Option String) : PoolMappings :=
  PoolMappings.bounded
    { poolMints := setToEnd pools.poolMints pool baseMint
      poolQuotes := quoteMint.elim pools.poolQuotes (setToEnd pools.poolQuotes pool) } maxPoolMappings

def rememberPoolMapping (maxPoolMappings : ℕ) (payload : Payload) (pools : PoolMappings) : PoolMappings :=
  match addressOf (getItem payload "pool"),
    addressOf (orElse (orElse (getItem payload "base_mint") (getItem payload "baseMint")) (getItem payload "mint")) with
  | some pool, some baseMint =>
    pools.remember maxPoolMappings pool baseMint
      (addressOf (orElse (getItem payload "quote_mint") (getItem payload "quoteMint")))
  | _, _ => pools

def mintForPool (pool : String) (pools : PoolMappings) : Option String × PoolMappings :=
  match pools.poolMints.lookup pool with
  | some mint => (some mint, { pools with poolMints := setToEnd pools.poolMints pool mint })
  | none => (none, pools)

def resolveMint (payload : Payload) (pools : PoolMappings) : Option String × PoolMappings :=
  match mintForPayload payload, textOf (getItem payload "pool") with
  | none, some pool => mintForPool pool pools
  | mint, _ => (mint, pools)

def resolveQuote (payload : Payload) (pools : PoolMappings) : Payload × PoolMappings :=
  match textOf (getItem payload "pool") with
  | none => (payload, pools)
  | some pool =>
    if (getItem payload "quote_mint").isSome then (payload, pools)
    else
      match pools.poolQuotes.lookup pool with
      | none => (payload, pools)
      | some quoteMint =>
        (setItem payload "quote_mint" (.str quoteMint),
          { pools with poolQuotes := setToEnd pools.poolQuotes pool quoteMint })

/-! ### The stack -/

def supportedPrograms : List String :=
  ["6EF8rrecthR5Dkzon8Nwu78hRvfCKubJ14M5uBEwF6P", "pAMMBay6oceH9fJKBRHGP5D4bD4sWpmSwMn52FMfXEA"]

/-- An invocation at a depth: `stack[depth - 1 :] = [program]`. -/
def invoked (program : String) (depth : ℕ) (stack : List String) : List String :=
  if depth < 1 ∨ 64 < depth then [] else stack.take (depth - 1) ++ [program]

/-- An end: the last invocation of the program goes, and what is above it. -/
def exited (program : String) (stack : List String) : List String :=
  if program ∈ stack then (stack.rdropWhile (· ≠ program)).dropLast else stack

/-- Why the events of a transaction cannot be told. -/
inductive LogError where
  /-- `ValueError`, of a number of too many digits. -/
  | value
  /-- `ValidationError`, of a slot below zero. -/
  | validation
  | decode (error : ReadError)

/-- What the code is run with. -/
structure Platform where
  externals : Externals
  /-- How deep `_read` may call itself. -/
  recursionLimit : ℕ
  decimals : Decimals
  sha256 : String → String
  /-- The clock at the event of a line. -/
  utcNow : ℕ → Instant

/-- The provider, as far as it reads logs. -/
structure SolanaLogProvider where
  decoder : AnchorEventDecoder
  maxPoolMappings : ℕ
  maxPoolMappings_pos : 1 ≤ maxPoolMappings

section Provider

variable (platform : Platform) (provider : SolanaLogProvider) (signature : String) (slot : ℤ)

def identity (program : String) (index : ℕ) (eventName : String) : String :=
  signature ++ ":" ++ toString slot ++ ":" ++ program ++ ":" ++ toString index ++ ":" ++ eventName

def marketEvent (index : ℕ) (program eventName : String) (kind : EventKind) (payload : Payload) :
    EStateM LogError PoolMappings (MarketEvent Payload) := do
  let payload := setItem payload "event_name" (.str eventName)
  modify (rememberPoolMapping provider.maxPoolMappings payload)
  let pools ← get
  let mint := resolveMint payload pools
  let quoted := resolveQuote payload mint.2
  set quoted.2
  if slot < 0 then throw .validation
  else
    return { eventId := platform.sha256 (identity signature slot program index eventName)
             source := "solana:" ++ program
             kind := kind
             mint := mint.1
             signature := if signature = "" then none else some signature
             slot := some slot.toNat
             receivedAt := platform.utcNow index
             payload := quoted.1 }

def eventOf (index : ℕ) (scope : String) (decoded : Option (String × String × Payload)) :
    EStateM LogError PoolMappings (Option (MarketEvent Payload)) :=
  match decoded with
  | none => return none
  | some (program, eventName, payload) =>
    if program ≠ scope then return none
    else
      match kindForEvent eventName with
      | none => return none
      | some kind => do
        let event ← marketEvent platform provider signature slot index program eventName kind payload
        return some event

/-- A line that is not about an invocation. -/
def readOther (index : ℕ) (stack : List String) (line : String) :
    EStateM LogError PoolMappings (Option (MarketEvent Payload)) :=
  match stack.getLast? with
  | none => return none
  | some scope =>
    if scope ∉ supportedPrograms then return none
    else do
      let decoded ← ofExcept LogError.decode
        (decodeLogLine platform.externals platform.recursionLimit provider.decoder line (some scope))
      eventOf platform provider signature slot index scope decoded

/-- A round of the loop: the stack after the line, and its event. -/
def readLine (index : ℕ) (stack : List String) (line : String) :
    EStateM LogError PoolMappings (List String × Option (MarketEvent Payload)) :=
  match classify platform.decimals line with
  | .invoke program rawDepth =>
    if 4300 < rawDepth.length then throw .value
    else return (invoked program (intOf platform.decimals rawDepth) stack, none)
  | .exit program => return (exited program stack, none)
  | .other => do
    let event ← readOther platform provider signature slot index stack line
    return (stack, event)

/-- The loop: what each line has, an event or none. -/
def readLines (index : ℕ) (stack : List String) :
    List String → EStateM LogError PoolMappings (List (Option (MarketEvent Payload)))
  | [] => return []
  | line :: lines => do
    let round ← readLine platform provider signature slot index stack line
    let events ← readLines (index + 1) round.1 lines
    return round.2 :: events

/-- The events of a transaction, from its log. -/
def eventsFromLogs (logs : List String) : EStateM LogError PoolMappings (List (MarketEvent Payload)) := do
  let events ← readLines platform provider signature slot 0 [] logs
  return events.reduceOption

/-! ### What a line has -/

def nextStack (stack : List String) (line : String) : List String :=
  match classify platform.decimals line with
  | .invoke program rawDepth => invoked program (intOf platform.decimals rawDepth) stack
  | .exit program => exited program stack
  | .other => stack

/-- The lines, each with the stack it is read with. -/
def scopes (stack : List String) : List String → List (List String × String)
  | [] => []
  | line :: lines => (stack, line) :: scopes (nextStack platform stack line) lines

/-- A line is data of an event of a kind, logged by a supported program, which is the innermost of some. -/
structure Yields (programs : List String) (line scope : String) (kind : EventKind) : Prop where
  other : classify platform.decimals line = .other
  innermost : programs.getLast? = some scope
  supported : scope ∈ supportedPrograms
  decoded : ∃ program eventName payload,
    decodeLogLine platform.externals platform.recursionLimit provider.decoder line (some scope) =
        .ok (some (program, eventName, payload)) ∧
      kindForEvent eventName = some kind

/-- What a line has to have: an event of the innermost program if the line yields one, and none otherwise. -/
def Reported (event : Option (MarketEvent Payload)) (entry : List String × String) : Prop :=
  match event with
  | some event => ∃ scope, Yields platform provider entry.1 entry.2 scope event.kind ∧ event.source = "solana:" ++ scope
  | none => ∀ scope kind, ¬ Yields platform provider entry.1 entry.2 scope kind

/-- What may be raised at a line. -/
def Excused (line : String) : LogError → Prop
  | .value => ∃ program rawDepth, classify platform.decimals line = .invoke program rawDepth ∧ 4300 < rawDepth.length
  | .validation => slot < 0
  | .decode error => classify platform.decimals line = .other ∧ ∃ scope ∈ supportedPrograms,
      decodeLogLine platform.externals platform.recursionLimit provider.decoder line (some scope) = .error error

variable {platform provider signature slot}

theorem decodeLogLine_program {ext : Externals} {limit : ℕ} {decoder : AnchorEventDecoder} {line scope : String}
    {decoded : String × String × Payload} (h : decodeLogLine ext limit decoder line (some scope) = .ok (some decoded)) :
    decoded.1 = scope := by
  unfold decodeLogLine at h
  split at h
  · simp at h
  split at h
  · simp at h
  next raw hraw =>
  unfold decodeEvent at h
  split_ifs at h
  · simp at h
  split at h
  · simp at h
  next event hevent =>
  have hprogram : event.program = scope := congrArg Prod.fst (Table.get?_eq_some.mp hevent).2
  cases hread : caught (readFields (read ext event.types limit) event.definition (raw.drop 8)) with
  | error error => simp [hread, bind, Except.bind] at h
  | ok values =>
    obtain ⟨values, rfl, rfl⟩ : ∃ read, values = some read ∧ withRemaining event read.1 read.2 = decoded := by
      simpa [hread, bind, Except.bind, pure, Except.pure] using h
    exact hprogram

variable {pools : PoolMappings}

variable {index : ℕ} {stack : List String}

theorem marketEvent_spec {program eventName : String} {kind : EventKind} {payload : Payload}
    :
    Wp (marketEvent platform provider signature slot index program eventName kind payload)
      (fun event _ => event.kind = kind ∧ event.source = "solana:" ++ program)
      (fun error _ => error = .validation ∧ slot < 0) pools := by
  simp [marketEvent, wp_ite]

theorem readOther_spec {line : String} (hother : classify platform.decimals line = .other) :
    Wp (readOther platform provider signature slot index stack line)
      (fun event _ => Reported platform provider event (stack, line))
      (fun error _ => Excused platform provider slot line error) pools := by
  unfold readOther
  cases hstack : stack.getLast? with
  | none =>
    intro scope kind h
    simpa [hstack] using h.innermost
  | some scope =>
    dsimp only
    rw [wp_ite]
    constructor
    · intro hforeign scope' kind h
      obtain rfl : scope = scope' := by simpa [hstack] using h.innermost
      exact hforeign h.supported
    intro hsupported
    replace hsupported : scope ∈ supportedPrograms := not_not.mp hsupported
    rw [wp_bind, wp_ofExcept]
    constructor
    · intro decoded hdecoded
      -- nothing is yielded but what is decoded
      have hnothing : (∀ program eventName payload kind, decoded = some (program, eventName, payload) →
          kindForEvent eventName ≠ some kind) → Reported platform provider none (stack, line) := by
        intro hnone scope' kind h
        obtain rfl : scope = scope' := by simpa [hstack] using h.innermost
        obtain ⟨program, eventName, payload, hok, hkind⟩ := h.decoded
        obtain rfl : decoded = some (program, eventName, payload) := by simpa [hdecoded] using hok
        exact hnone _ _ _ _ rfl hkind
      unfold eventOf
      split
      · exact hnothing fun _ _ _ _ h => absurd h (by simp)
      · next program eventName payload =>
        obtain rfl : program = scope := decodeLogLine_program hdecoded
        rw [if_neg (not_not.mpr rfl)]
        cases hkind : kindForEvent eventName with
        | none =>
          apply hnothing
          intro program' eventName' payload' kind h
          obtain ⟨-, rfl, -⟩ : program = program' ∧ eventName = eventName' ∧ payload = payload' := by simpa using h
          simp [hkind]
        | some kind =>
          dsimp only
          rw [wp_bind]
          refine marketEvent_spec.mono (fun event pools' hevent => ?_) fun error _ h => ?_
          · have hyields : Yields platform provider stack line program event.kind :=
              ⟨hother, hstack, hsupported, program, eventName, payload, hdecoded, hevent.1 ▸ hkind⟩
            exact ⟨program, hyields, hevent.2⟩
          · obtain ⟨rfl, hslot⟩ := h
            exact hslot
    · intro error herror
      exact ⟨hother, scope, hsupported, herror⟩

theorem readLine_spec {line : String} :
    Wp (readLine platform provider signature slot index stack line)
      (fun round _ => round.1 = nextStack platform stack line ∧ Reported platform provider round.2 (stack, line))
      (fun error _ => Excused platform provider slot line error) pools := by
  have hsilent : classify platform.decimals line ≠ .other → Reported platform provider none (stack, line) :=
    fun hline scope kind h => hline h.other
  unfold readLine nextStack
  cases hline : classify platform.decimals line with
  | invoke program rawDepth =>
    dsimp only
    rw [wp_ite]
    constructor
    · intro hdigits
      exact ⟨program, rawDepth, hline, hdigits⟩
    · intro _
      exact ⟨rfl, hsilent (by simp [hline])⟩
  | exit program => exact ⟨rfl, hsilent (by simp [hline])⟩
  | other =>
    dsimp only
    rw [wp_bind]
    exact (readOther_spec hline).mono (fun _ _ h => ⟨rfl, h⟩) fun _ _ h => h

/-- **A line has an event when it yields one under the stack it is read with.** -/
theorem read_lines (lines : List String) :
    Wp (readLines platform provider signature slot index stack lines)
      (fun events _ => List.Forall₂ (Reported platform provider) events (scopes platform stack lines))
      (fun error _ => ∃ line ∈ lines, Excused platform provider slot line error) pools := by
  induction lines generalizing index stack pools with
  | nil => exact .nil
  | cons line lines ih =>
    unfold readLines
    rw [wp_bind]
    refine readLine_spec.mono (fun round pools' hround => ?_) fun error _ h => ⟨line, List.mem_cons_self, h⟩
    rw [wp_bind]
    refine ih.mono (fun events _ hevents => ?_) fun error _ h => ?_
    · rw [hround.1] at hevents
      exact .cons hround.2 hevents
    · obtain ⟨line', hline', hexcused⟩ := h
      exact ⟨line', List.mem_cons_of_mem _ hline', hexcused⟩

theorem events_from_logs (lines : List String) :
    Wp (eventsFromLogs platform provider signature slot lines)
      (fun events _ => ∃ found, events = found.reduceOption ∧
        List.Forall₂ (Reported platform provider) found (scopes platform [] lines))
      (fun error _ => ∃ line ∈ lines, Excused platform provider slot line error) pools := by
  unfold eventsFromLogs
  rw [wp_bind]
  exact (read_lines lines).mono (fun found _ h => ⟨found, rfl, h⟩) fun _ _ h => h

end Provider

end SignalArcade.SolanaLogs
