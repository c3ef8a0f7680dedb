import SignalArcade.Providers.LogStack

/-!
# Well-formed logs, and others

`Log` is a well-formed log: calls, with what is logged during them, and other lines between. Its `lines` are what a
transaction writes of it, the calls numbered by their depth, and its `entries` are these lines with the programs active
at each, the outermost first.
-/

namespace SignalArcade.SolanaLogs

open Anchor Prog List
open EventAppends (MarketEvent)
open Paper (EventKind)

/-! ### Well-formed logs -/

/-- Calls, and other lines between them. -/
inductive Log (decimals : Decimals) where
  | done
  | other (line : String) (hline : classify decimals line = .other) (rest : Log decimals)
  | call (program : ProgramId) (body : Log decimals) (ended : Outcome) (rest : Log decimals)

section Logs

variable {decimals : Decimals}

/-- How deep the calls go. -/
def Log.height : Log decimals → ℕ
  | .done => 0
  | .other _ _ rest => rest.height
  | .call _ body _ rest => max (body.height + 1) rest.height

/-- The lines of a log at a depth. -/
def Log.lines (depth : ℕ) : Log decimals → List String
  | .done => []
  | .other line _ rest => line :: rest.lines depth
  | .call program body ended rest =>
    invokeLine program (depth + 1) :: (body.lines (depth + 1) ++ exitLine program ended :: rest.lines depth)

/-- The lines, each with the programs active there. -/
def Log.entries (active : List String) : Log decimals → List (List String × String)
  | .done => []
  | .other line _ rest => (active, line) :: rest.entries active
  | .call program body ended rest =>
    (active, invokeLine program (active.length + 1)) ::
      (body.entries (active ++ [program.name]) ++ (active ++ [program.name], exitLine program ended) :: rest.entries active)

end Logs

/-! ### The stack, line by line -/

theorem exited_concat (program : String) (stack : List String) : exited program (stack ++ [program]) = stack := by
  unfold exited
  rw [if_pos (by simp), rdropWhile_concat_neg _ _ _ (by simp), dropLast_concat]

variable {program : String}

theorem exited_of_mem {stack : List String} (h : program ∈ stack) :
    ∃ above, program ∉ above ∧ stack = exited program stack ++ program :: above := by
  induction stack using reverseRecOn with
  | nil => simp at h
  | append_singleton stack last ih =>
    by_cases hlast : last = program
    · subst last
      exact ⟨[], not_mem_nil, by rw [exited_concat]⟩
    · have hmem : program ∈ stack := by
        rcases mem_append.mp h with h | h
        · exact h
        · exact absurd (mem_singleton.mp h).symm hlast
      obtain ⟨above, hfree, hstack⟩ := ih hmem
      have hexited : exited program (stack ++ [last]) = exited program stack := by
        unfold exited
        rw [if_pos h, if_pos hmem, rdropWhile_concat_pos _ _ _ (by simpa using hlast)]
      refine ⟨above ++ [last], ?_, ?_⟩
      · intro hin
        rcases mem_append.mp hin with hin | hin
        · exact hfree hin
        · exact hlast (mem_singleton.mp hin).symm
      · rw [hexited]
        calc stack ++ [last] = (exited program stack ++ program :: above) ++ [last] := by rw [← hstack]
          _ = exited program stack ++ program :: (above ++ [last]) := by simp

theorem exited_of_not_mem {stack : List String} (h : program ∉ stack) :
    exited program stack = stack := if_neg h

section Platform

variable {platform : Platform}

variable {line : String}

theorem nextStack_other {stack : List String} (h : classify platform.decimals line = .other) :
    nextStack platform stack line = stack := by
  simp [nextStack, h]

theorem nextStack_invokeLine (stack : List String) (program : ProgramId) (depth : ℕ) :
    nextStack platform stack (invokeLine program depth) = invoked program.name depth stack := by
  simp [nextStack, classify_invokeLine, intOf_toDigits]

theorem nextStack_exitLine (stack : List String) (program : ProgramId) (ended : Outcome) :
    nextStack platform stack (exitLine program ended) = exited program.name stack := by
  simp [nextStack, classify_exitLine]

theorem scopes_append (stack : List String) (lines lines' : List String) :
    scopes platform stack (lines ++ lines') =
      scopes platform stack lines ++ scopes platform (lines.foldl (nextStack platform) stack) lines' := by
  induction lines generalizing stack with
  | nil => rfl
  | cons line lines ih =>
    show (stack, line) :: scopes platform _ (lines ++ lines') = _
    rw [ih]
    rfl

theorem scopes_length (stack : List String) (lines : List String) :
    (scopes platform stack lines).length = lines.length := by
  induction lines generalizing stack with
  | nil => rfl
  | cons line lines ih => exact congrArg (· + 1) (ih _)

/-! ### The stack of a well-formed log -/

/-- **Up to a depth of 64 the stack is the active programs.** -/
theorem Log.scopes_eq (log : Log platform.decimals) {active : List String} (hdepth : active.length + log.height ≤ 64) :
    scopes platform active (log.lines active.length) = log.entries active ∧
      (log.lines active.length).foldl (nextStack platform) active = active := by
  induction log generalizing active with
  | done => exact ⟨rfl, rfl⟩
  | other line hline rest ih =>
    obtain ⟨hscopes, hstack⟩ := ih hdepth
    simp only [Log.lines, Log.entries, scopes, foldl_cons, nextStack_other hline]
    exact ⟨by rw [hscopes], hstack⟩
  | call program body ended rest ihBody ihRest =>
    unfold Log.height at hdepth
    have hinvoke : nextStack platform active (invokeLine program (active.length + 1)) = active ++ [program.name] := by
      rw [nextStack_invokeLine, invoked, if_neg (by omega), Nat.add_sub_cancel, take_length]
    have hexit : nextStack platform (active ++ [program.name]) (exitLine program ended) = active := by
      rw [nextStack_exitLine, exited_concat]
    have hlength : (active ++ [program.name]).length = active.length + 1 := by simp
    have hbody : (active ++ [program.name]).length + body.height ≤ 64 := by omega
    have hrest : active.length + rest.height ≤ 64 := by omega
    obtain ⟨hscopes, hstack⟩ := ihBody hbody
    obtain ⟨hscopes', hstack'⟩ := ihRest hrest
    rw [hlength] at hscopes hstack
    simp only [Log.lines, Log.entries, scopes, scopes_append, foldl_cons, foldl_append, hinvoke, hstack, hexit,
      hscopes, hscopes', hstack', and_self]

/-- A line with some of the programs that are active at it, the innermost ones. -/
def Under (entry whole : List String × String) : Prop := entry.1 <:+ whole.1 ∧ entry.2 = whole.2

/-- **At any depth the stack is the innermost of the active programs.** -/
theorem Log.scopes_under (log : Log platform.decimals) {stack active : List String} (hstack : stack <:+ active) :
    Forall₂ Under (scopes platform stack (log.lines active.length)) (log.entries active) ∧
      (log.lines active.length).foldl (nextStack platform) stack <:+ active := by
  induction log generalizing stack active with
  | done => exact ⟨.nil, hstack⟩
  | other line hline rest ih =>
    obtain ⟨hscopes, hafter⟩ := ih hstack
    simp only [Log.lines, Log.entries, scopes, foldl_cons, nextStack_other hline]
    exact ⟨.cons ⟨hstack, rfl⟩ hscopes, hafter⟩
  | call program body ended rest ihBody ihRest =>
    have hinvoke : nextStack platform stack (invokeLine program (active.length + 1)) <:+ active ++ [program.name] := by
      rw [nextStack_invokeLine]
      unfold invoked
      split_ifs with h
      · exact nil_suffix
      · rw [Nat.add_sub_cancel, take_of_length_le hstack.length_le]
        exact suffix_append_self_iff.mpr hstack
    -- the end takes away the last of the stack, unless that is empty
    have hexit : ∀ inner, inner <:+ active ++ [program.name] →
        nextStack platform inner (exitLine program ended) <:+ active := by
      intro inner hinner
      rw [nextStack_exitLine]
      rcases suffix_concat_iff.mp hinner with rfl | ⟨inner', rfl, hinner'⟩
      · rw [exited_of_not_mem not_mem_nil]
        exact nil_suffix
      · rw [exited_concat]
        exact hinner'
    have hlength : (active ++ [program.name]).length = active.length + 1 := by simp
    obtain ⟨hscopes, hafter⟩ := ihBody hinvoke
    obtain ⟨hscopes', hafter'⟩ := ihRest (hexit _ hafter)
    rw [hlength] at hscopes hafter
    simp only [Log.lines, Log.entries, scopes, scopes_append, foldl_cons, foldl_append]
    refine ⟨.cons ⟨hstack, rfl⟩ (rel_append hscopes (.cons ⟨?_, rfl⟩ ?_)), ?_⟩
    · simpa only [hlength] using hafter
    · simpa only [hlength] using hscopes'
    · simpa only [hlength] using hafter'

/-! ### The stack of any log -/

variable (platform) in
/-- How often an invocation of the program began. -/
def begun (program : String) (lines : List String) : ℕ :=
  lines.countP fun line =>
    match classify platform.decimals line with
    | .invoke program' _ => program' = program
    | _ => false

variable (platform) in
def ended (program : String) (lines : List String) : ℕ :=
  lines.countP fun line => classify platform.decimals line = .exit program

variable (platform) in
/-- An invocation of the program at a recognised depth is one of the lines `past`, and at no point since then had more
of its invocations ended than begun; `spare` of those that began since then have not ended. -/
def Running (past : List String) (program : String) (spare : ℕ) : Prop :=
  ∃ before line since rawDepth, past = before ++ line :: since ∧
    classify platform.decimals line = .invoke program rawDepth ∧
    1 ≤ intOf platform.decimals rawDepth ∧ intOf platform.decimals rawDepth ≤ 64 ∧
    (∀ first, first <+: since → ended platform program first ≤ begun platform program first) ∧
    spare + ended platform program since ≤ begun platform program since

theorem Running.append {past : List String} {spare spare' : ℕ} (h : Running platform past program spare)
    (hspare : spare' + ended platform program [line] ≤ spare + begun platform program [line]) :
    Running platform (past ++ [line]) program spare' := by
  obtain ⟨before, opening, since, rawDepth, rfl, hline, hlow, hhigh, hfirst, hsince⟩ := h
  have hended : ended platform program (since ++ [line]) =
      ended platform program since + ended platform program [line] := countP_append
  have hbegun : begun platform program (since ++ [line]) =
      begun platform program since + begun platform program [line] := countP_append
  refine ⟨before, opening, since ++ [line], rawDepth, by simp, hline, hlow, hhigh, ?_, by omega⟩
  intro first hprefix
  rcases prefix_concat_iff.mp hprefix with rfl | hprefix
  · omega
  · exact hfirst first hprefix

theorem Running.of_invoke {past : List String} {rawDepth : List Char}
    (hline : classify platform.decimals line = .invoke program rawDepth)
    (hlow : 1 ≤ intOf platform.decimals rawDepth) (hhigh : intOf platform.decimals rawDepth ≤ 64) :
    Running platform (past ++ [line]) program 0 := by
  refine ⟨past, line, [], rawDepth, rfl, hline, hlow, hhigh, ?_, le_refl _⟩
  intro first hprefix
  rw [prefix_nil.mp hprefix]
  rfl

variable (platform) in
/-- What is known of the stack after some lines: it has 64 programs at most, and each of them is running, with those
that are above it to spare. -/
def Standing (past stack : List String) : Prop :=
  stack.length ≤ 64 ∧
    ∀ below program above, stack = below ++ program :: above → Running platform past program (above.count program)

theorem Standing.next {past stack : List String} (h : Standing platform past stack) (line : String) :
    Standing platform (past ++ [line]) (nextStack platform stack line) := by
  unfold nextStack
  cases hline : classify platform.decimals line with
  | other =>
    refine ⟨h.1, fun below program above hstack => (h.2 below program above hstack).append ?_⟩
    simp [ended, begun, hline]
  | invoke opened rawDepth =>
    dsimp only
    unfold invoked
    split_ifs with hdepth
    · exact ⟨by simp, by simp⟩
    constructor
    · rw [length_append, length_take, length_singleton]
      omega
    intro below program above hstack
    rcases eq_nil_or_concat' above with rfl | ⟨above', last, rfl⟩
    · -- the program on top is the one that was invoked
      obtain ⟨-, rfl⟩ : stack.take (intOf platform.decimals rawDepth - 1) = below ∧ opened = program := by
        simpa using hstack
      exact Running.of_invoke hline (by omega) (by omega)
    · have hsplit : stack.take (intOf platform.decimals rawDepth - 1) ++ [opened] =
          (below ++ program :: above') ++ [last] := by
        simpa using hstack
      obtain ⟨hkept, hlast⟩ := append_inj' hsplit rfl
      have hwhole : stack = below ++ program :: (above' ++ stack.drop (intOf platform.decimals rawDepth - 1)) := by
        calc stack = stack.take (intOf platform.decimals rawDepth - 1) ++
              stack.drop (intOf platform.decimals rawDepth - 1) := (take_append_drop _ _).symm
          _ = _ := by rw [hkept]; simp
      apply (h.2 below program _ hwhole).append
      obtain rfl : opened = last := by simpa using hlast
      by_cases hsame : opened = program <;> simp [ended, begun, hline, hsame, count_append]
  | exit closed =>
    dsimp only
    by_cases hmem : closed ∈ stack
    · obtain ⟨outer, hfree, hstack⟩ := exited_of_mem hmem
      constructor
      · have hlength := congrArg List.length hstack
        simp only [length_append, length_cons] at hlength
        have hbound := h.1
        omega
      intro below program above hkept
      have hwhole : stack = below ++ program :: (above ++ closed :: outer) := by
        rw [hkept] at hstack
        simpa using hstack
      apply (h.2 below program _ hwhole).append
      by_cases hsame : closed = program <;> simp [ended, begun, hline, hsame, count_append]
    · rw [exited_of_not_mem hmem]
      refine ⟨h.1, fun below program above hstack => (h.2 below program above hstack).append ?_⟩
      have hne : closed ≠ program := by
        rintro rfl
        exact hmem (hstack ▸ by simp)
      simp [ended, begun, hline, hne]

theorem Standing.scopes {past stack : List String} (h : Standing platform past stack) {lines : List String} {i : ℕ}
    {entry : List String × String} (hentry : (scopes platform stack lines)[i]? = some entry) :
    lines[i]? = some entry.2 ∧ Standing platform (past ++ lines.take i) entry.1 := by
  induction lines generalizing past stack i with
  | nil => simp [SolanaLogs.scopes] at hentry
  | cons line lines ih =>
    cases i with
    | zero =>
      obtain rfl : (stack, line) = entry := by simpa [SolanaLogs.scopes] using hentry
      exact ⟨rfl, by simpa using h⟩
    | succ i =>
      obtain ⟨hline, hstanding⟩ := ih (h.next line) hentry
      exact ⟨hline, by simpa using hstanding⟩

/-- **A program on the stack was invoked and is running.** -/
theorem scopes_running {lines : List String} {i : ℕ} {entry : List String × String}
    (hentry : (scopes platform [] lines)[i]? = some entry) :
    lines[i]? = some entry.2 ∧ entry.1.length ≤ 64 ∧
      ∀ program ∈ entry.1, Running platform (lines.take i) program 0 := by
  have hempty : Standing platform [] [] := ⟨by simp, by simp⟩
  obtain ⟨hline, hlength, hrunning⟩ := hempty.scopes hentry
  refine ⟨hline, hlength, fun program hprogram => ?_⟩
  obtain ⟨below, above, hstack⟩ := append_of_mem hprogram
  obtain ⟨before, opening, since, rawDepth, hpast, hopening, hlow, hhigh, hfirst, hsince⟩ :=
    hrunning below program above hstack
  exact ⟨before, opening, since, rawDepth, hpast, hopening, hlow, hhigh, hfirst, by omega⟩

/-! ### Events -/

variable {provider : SolanaLogProvider} {signature : String} {slot : ℤ}

theorem Log.rawDepth_length (log : Log platform.decimals) {depth : ℕ} (hdepth : depth + log.height ≤ 99)
    (hline : line ∈ log.lines depth) {rawDepth : List Char}
    (hinvoke : classify platform.decimals line = .invoke program rawDepth) : rawDepth.length ≤ 2 := by
  induction log generalizing depth with
  | done => simp [Log.lines] at hline
  | other line' hother rest ih =>
    rcases mem_cons.mp hline with rfl | hline
    · simp [hother] at hinvoke
    · exact ih hdepth hline
  | call program' body ended rest ihBody ihRest =>
    unfold Log.height at hdepth
    simp only [Log.lines, mem_cons, mem_append] at hline
    rcases hline with rfl | hline | rfl | hline
    · rw [classify_invokeLine] at hinvoke
      obtain rfl : Nat.toDigits 10 (depth + 1) = rawDepth := by simpa using (LogLine.invoke.inj hinvoke).2
      exact (Nat.length_toDigits_le_iff (by decide) (by decide)).mpr (by omega)
    · exact ihBody (by omega) hline
    · simp [classify_exitLine] at hinvoke
    · exact ihRest (by omega) hline

theorem Log.not_value (log : Log platform.decimals) (hdepth : log.height ≤ 99)
    (hline : line ∈ log.lines 0) : ¬ Excused platform provider slot line .value := by
  rintro ⟨program, rawDepth, hinvoke, hlong⟩
  have hshort := log.rawDepth_length (by omega) hline hinvoke
  omega

theorem Yields.of_suffix {inner programs : List String} {line scope : String} {kind : EventKind}
    (h : Yields platform provider inner line scope kind) (hsuffix : inner <:+ programs) :
    Yields platform provider programs line scope kind := by
  obtain ⟨outer, rfl⟩ := hsuffix
  exact ⟨h.other, by simp [getLast?_append, h.innermost], h.supported, h.decoded⟩

variable (platform provider) in
/-- What a line has, if it has anything, is an event that it yields. -/
def Confined (event : Option (MarketEvent Payload)) (entry : List String × String) : Prop :=
  ∀ found, event = some found →
    ∃ scope, Yields platform provider entry.1 entry.2 scope found.kind ∧ found.source = "solana:" ++ scope

theorem Reported.confined {event : Option (MarketEvent Payload)} {entry whole : List String × String}
    (h : Reported platform provider event entry) (hunder : Under entry whole) : Confined platform provider event whole := by
  rintro found rfl
  obtain ⟨scope, hyields, hsource⟩ := h
  exact ⟨scope, hunder.2 ▸ hyields.of_suffix hunder.1, hsource⟩

theorem confined_of_under {events : List (Option (MarketEvent Payload))} {entries wholes : List (List String × String)}
    (h : Forall₂ (Reported platform provider) events entries) (hunder : Forall₂ Under entries wholes) :
    Forall₂ (Confined platform provider) events wholes := by
  induction h generalizing wholes with
  | nil =>
    cases hunder
    exact .nil
  | cons hevent _ ih =>
    cases hunder with
    | cons hhead htail => exact .cons (hevent.confined hhead) (ih htail)

/-- **Events are attributed to the innermost active program.** In a well-formed log that goes no deeper than 64 calls, a
line has an event exactly when this program is supported and the line is data of an event of it, of a known kind. In a
deeper log what a line has is an event of the innermost active program. In any log it is an event of the program on top
of the stack, of which an invocation at a recognised depth is running; the stack is never higher than 64. -/
theorem invocation_scoped (platform : Platform) (provider : SolanaLogProvider) (signature : String) (slot : ℤ)
    (pools : PoolMappings) :
    (∀ log : Log platform.decimals, log.height ≤ 64 →
      Wp (eventsFromLogs platform provider signature slot (log.lines 0))
        (fun events _ => ∃ found, events = found.reduceOption ∧
          Forall₂ (Reported platform provider) found (log.entries []))
        (fun error _ => error ≠ .value ∧ ∃ line ∈ log.lines 0, Excused platform provider slot line error) pools) ∧
    (∀ log : Log platform.decimals,
      Wp (eventsFromLogs platform provider signature slot (log.lines 0))
        (fun events _ => ∃ found, events = found.reduceOption ∧
          Forall₂ (Confined platform provider) found (log.entries []))
        (fun error _ => ∃ line ∈ log.lines 0, Excused platform provider slot line error) pools) ∧
    (∀ lines : List String,
      Wp (eventsFromLogs platform provider signature slot lines)
        (fun events _ => ∃ found : List (Option (MarketEvent Payload)),
          events = found.reduceOption ∧ found.length = lines.length ∧ ∀ (i : ℕ) (event : MarketEvent Payload), found[i]? = some (some event) →
            ∃ stack line scope, (scopes platform [] lines)[i]? = some (stack, line) ∧ lines[i]? = some line ∧
              Yields platform provider stack line scope event.kind ∧ event.source = "solana:" ++ scope ∧ stack.length ≤ 64 ∧
              ∀ program ∈ stack, Running platform (lines.take i) program 0)
        (fun error _ => ∃ line ∈ lines, Excused platform provider slot line error) pools) := by
  refine ⟨fun log hdepth => ?_, fun log => ?_, fun lines => ?_⟩
  · have hscopes : scopes platform [] (log.lines 0) = log.entries [] :=
      (log.scopes_eq (by simpa using hdepth)).1
    refine (events_from_logs (log.lines 0)).mono (fun events _ h => ?_) fun error _ h => ?_
    · rwa [hscopes] at h
    · obtain ⟨line, hline, hexcused⟩ := h
      refine ⟨?_, line, hline, hexcused⟩
      rintro rfl
      exact log.not_value (by omega) hline hexcused
  · refine (events_from_logs (log.lines 0)).mono (fun events _ h => ?_) fun _ _ h => h
    obtain ⟨found, hevents, hfound⟩ := h
    exact ⟨found, hevents, confined_of_under hfound (log.scopes_under (suffix_refl [])).1⟩
  · refine (events_from_logs lines).mono (fun events _ h => ?_) fun _ _ h => h
    obtain ⟨found, hevents, hfound⟩ := h
    refine ⟨found, hevents, ?_, fun i event hevent => ?_⟩
    · rw [hfound.length_eq, scopes_length]
    · obtain ⟨hi, hget⟩ := List.getElem?_eq_some_iff.mp hevent
      have hi' : i < (scopes platform [] lines).length := hfound.length_eq ▸ hi
      have hreported := hfound.get hi hi'
      rw [get_eq_getElem, hget] at hreported
      obtain ⟨scope, hyields, hsource⟩ := hreported
      have hentry := getElem?_eq_getElem hi'
      obtain ⟨hline, hlength, hrunning⟩ := scopes_running hentry
      exact ⟨_, _, scope, hentry, hline, hyields, hsource, hlength, hrunning⟩

/-! ### Nested calls -/

/-- Calls of a program by itself, and a line in the innermost. -/
def nested {decimals : Decimals} (program : ProgramId) (line : String) (hline : classify decimals line = .other) :
    ℕ → Log decimals
  | 0 => .other line hline .done
  | n + 1 => .call program (nested program line hline n) .success .done

section Nested

variable {program : ProgramId} {line : String} {hline : classify platform.decimals line = .other}

theorem nested_height (n : ℕ) : (nested program line hline n).height = n := by
  induction n with
  | zero => rfl
  | succ n ih => simp [nested, Log.height, ih]

theorem mem_nested_entries (n : ℕ) (active : List String) :
    (active ++ replicate n program.name, line) ∈ (nested program line hline n).entries active := by
  induction n generalizing active with
  | zero => simp [nested, Log.entries]
  | succ n ih =>
    have hmem := ih (active ++ [program.name])
    rw [append_assoc, singleton_append, ← replicate_succ] at hmem
    simp [nested, Log.entries, hmem]

theorem eq_of_mem_nested {n depth : ℕ} {line' : String} (h : line' ∈ (nested program line hline n).lines depth)
    (hother : classify platform.decimals line' = .other) : line' = line := by
  induction n generalizing depth with
  | zero => simpa [nested, Log.lines] using h
  | succ n ih =>
    simp only [nested, Log.lines, mem_cons, mem_append, not_mem_nil, or_false] at h
    rcases h with rfl | h | rfl
    · simp [classify_invokeLine] at hother
    · exact ih h
    · simp [classify_exitLine] at hother

theorem nested_deep {n depth : ℕ} (hdepth : depth + n = 64) {stack under : List String}
    (h : (under, line) ∈ scopes platform stack ((nested program line hline (n + 1)).lines depth)) : under = [] := by
  induction n generalizing depth stack with
  | zero =>
    have hinvoke : nextStack platform stack (invokeLine program (depth + 1)) = [] := by
      rw [nextStack_invokeLine, invoked, if_pos (by omega)]
    have hfirst : line ≠ invokeLine program (depth + 1) := by
      rintro rfl
      simp [classify_invokeLine] at hline
    have hlast : line ≠ exitLine program .success := by
      rintro rfl
      simp [classify_exitLine] at hline
    simpa [nested, Log.lines, scopes, hinvoke, hfirst, hlast] using h
  | succ n ih =>
    have hfirst : line ≠ invokeLine program (depth + 1) := by
      rintro rfl
      simp [classify_invokeLine] at hline
    have hlast : line ≠ exitLine program .success := by
      rintro rfl
      simp [classify_exitLine] at hline
    rw [nested, Log.lines] at h
    simp only [Log.lines, scopes, scopes_append, mem_cons, mem_append, Prod.mk.injEq, hfirst, hlast, and_false,
      false_or, not_mem_nil, or_false] at h
    exact ih (by omega) h

variable (platform provider signature slot program line hline) in
/-- Nested calls that give no event. -/
theorem nested_silent (n : ℕ) (hn : n ≤ 99) (hslot : 0 ≤ slot)
    (hdecode : ∀ scope ∈ supportedPrograms, ∃ decoded, decodeLogLine platform.externals platform.recursionLimit
      provider.decoder line (some scope) = .ok decoded)
    (hsilent : ∀ under, (under, line) ∈ scopes platform [] ((nested program line hline n).lines 0) →
      ∀ scope kind, ¬ Yields platform provider under line scope kind) (pools : PoolMappings) :
    ∃ pools', eventsFromLogs platform provider signature slot ((nested program line hline n).lines 0) pools =
      .ok [] pools' := by
  have hspec : Wp (eventsFromLogs platform provider signature slot ((nested program line hline n).lines 0)) _ _ pools :=
    events_from_logs _
  unfold Wp at hspec
  split at hspec
  · next events pools' hresult =>
    obtain ⟨found, rfl, hfound⟩ := hspec
    have hnone : ∀ event ∈ found, event = none := by
      intro event hevent
      obtain ⟨i, hi, rfl⟩ := mem_iff_getElem.mp hevent
      have hi' := hfound.length_eq ▸ hi
      have hreported := hfound.get hi hi'
      obtain ⟨hline', -⟩ := scopes_running (getElem?_eq_getElem hi')
      have hmem := getElem_mem hi'
      simp only [get_eq_getElem] at hreported
      generalize (scopes platform [] _)[i] = entry at hreported hline' hmem
      obtain ⟨under, line'⟩ := entry
      cases hget : found[i] with
      | none => rfl
      | some event =>
        rw [hget] at hreported
        obtain ⟨scope, hyields, -⟩ := hreported
        obtain rfl : line' = line := eq_of_mem_nested (mem_of_getElem? hline') hyields.other
        exact absurd hyields (hsilent under hmem _ _)
    have hempty : found.reduceOption = [] := filterMap_eq_nil_iff.mpr hnone
    rw [hempty] at hresult
    exact ⟨pools', hresult⟩
  · next error pools' hresult =>
    obtain ⟨line', hline', hexcused⟩ := hspec
    cases error with
    | value =>
      have hheight : (nested program line hline n).height ≤ 99 := by
        rw [nested_height]
        exact hn
      exact absurd hexcused (Log.not_value _ hheight hline')
    | validation => exact absurd hexcused (not_lt.mpr hslot)
    | decode error =>
      obtain ⟨hother, scope, hscope, herror⟩ := hexcused
      obtain ⟨decoded, hok⟩ := hdecode scope hscope
      rw [eq_of_mem_nested hline' hother, hok] at herror
      cases herror

end Nested

end Platform

/-! ### Data without events -/

/-- The bonding curve program. -/
def pump : ProgramId where
  text := "6EF8rrecthR5Dkzon8Nwu78hRvfCKubJ14M5uBEwF6P".toList
  length_ge := by decide
  length_le := by decide
  characters := forall_iff_forall_mem.mp (by decide +kernel)

def numberEvent (discriminator : List UInt8) (hlength : discriminator.length = 8) (name field : String) :
    Entry (List Anchor.Field) where
  program := pump.name
  discriminator := discriminator
  discriminator_length := hlength
  name := name
  definition := [⟨some field, .primitive "u64"⟩]
  types := fun _ => none

def feeEvent : Entry (List Anchor.Field) :=
  numberEvent [122, 2, 127, 1, 14, 191, 12, 175] rfl "CollectCreatorFeeEvent" "creator_fee"

def completeEvent : Entry (List Anchor.Field) :=
  numberEvent [95, 114, 97, 156, 212, 46, 152, 8] rfl "CompleteEvent" "timestamp"

def pumpProvider : SolanaLogProvider where
  decoder :=
    { events := ⟨[feeEvent, completeEvent], by decide +kernel⟩
      accounts := Table.empty
      accounts_typed := fun _ h => absurd h Table.not_mem_empty }
  maxPoolMappings := 50000
  maxPoolMappings_pos := by decide

def asciiDigits : Decimals where
  digit c := if c.isDigit then some (c.toNat - 48) else none
  ascii := fun _ h => if_pos h
  closing := rfl

def asciiPlatform : Platform where
  externals := { pubkey := fun _ => "11111111111111111111111111111111", replaced := fun _ => "" }
  recursionLimit := 1000
  decimals := asciiDigits
  sha256 := id
  utcNow := fun _ => 0

def feeLine : String := "Program data: egJ/AQ6/DK8FAAAAAAAAAA=="

def completeLine : String := "Program data: X3JhnNQumAgFAAAAAAAAAA=="

/-- The data of a line is an event of the program, with a name and a kind or none. -/
def pumpData (line name : String) (kind : Option EventKind) : Bool :=
  classify asciiDigits line = .other ∧ pump.name ∈ supportedPrograms ∧ kindForEvent name = kind ∧
    (supportedPrograms.all fun scope =>
      match decodeLogLine asciiPlatform.externals asciiPlatform.recursionLimit pumpProvider.decoder line (some scope) with
      | .ok none => scope ≠ pump.name
      | .ok (some (_, eventName, _)) => eventName = name
      | .error _ => false)

theorem pumpData_samples :
    pumpData feeLine "CollectCreatorFeeEvent" none ∧ pumpData completeLine "CompleteEvent" (some .complete) := by
  decide +kernel

theorem pumpData_spec {line name : String} {kind : Option EventKind} (h : pumpData line name kind) :
    classify asciiDigits line = .other ∧ pump.name ∈ supportedPrograms ∧ kindForEvent name = kind ∧
      (∃ program payload, decodeLogLine asciiPlatform.externals asciiPlatform.recursionLimit pumpProvider.decoder line
        (some pump.name) = .ok (some (program, name, payload))) ∧
      ∀ scope ∈ supportedPrograms, ∃ decoded, decodeLogLine asciiPlatform.externals asciiPlatform.recursionLimit
        pumpProvider.decoder line (some scope) = .ok decoded ∧
        ∀ program eventName payload, decoded = some (program, eventName, payload) → eventName = name := by
  unfold pumpData at h
  obtain ⟨hother, hsupported, hkind, hdata⟩ := of_decide_eq_true h
  rw [all_eq_true] at hdata
  refine ⟨hother, hsupported, hkind, ?_, fun scope hscope => ?_⟩
  · have hpump := hdata _ hsupported
    split at hpump
    · simp at hpump
    · next program eventName payload hdecoded =>
      obtain rfl : eventName = name := by simpa using hpump
      exact ⟨program, payload, hdecoded⟩
    · simp at hpump
  · have hscoped := hdata _ hscope
    split at hscoped
    · next hdecoded => exact ⟨none, hdecoded, fun _ _ _ h => absurd h (by simp)⟩
    · next program eventName payload hdecoded =>
      refine ⟨_, hdecoded, fun program' eventName' payload' h => ?_⟩
      obtain ⟨-, rfl, -⟩ : program = program' ∧ eventName = eventName' ∧ payload = payload' := by simpa using h
      simpa using hscoped
    · simp at hscoped

theorem feeLine_other : classify asciiPlatform.decimals feeLine = .other := (pumpData_spec pumpData_samples.1).1

theorem completeLine_other : classify asciiPlatform.decimals completeLine = .other :=
  (pumpData_spec pumpData_samples.2).1

/-- Data of an event that has no kind is decoded, by the supported program that logged it, and no event comes of it. Nor
does one come of the data of an event that is logged 65 calls deep. -/
theorem unkinded_and_deep_unreported :
    (([pump.name], feeLine) ∈ (nested pump feeLine feeLine_other 1).entries [] ∧
      pump.name ∈ supportedPrograms ∧
      (∃ program payload, decodeLogLine asciiPlatform.externals asciiPlatform.recursionLimit pumpProvider.decoder feeLine
        (some pump.name) = .ok (some (program, "CollectCreatorFeeEvent", payload))) ∧
      ∃ pools, eventsFromLogs asciiPlatform pumpProvider "signature" 1 ((nested pump feeLine feeLine_other 1).lines 0)
        ⟨[], []⟩ = .ok [] pools) ∧
    ((replicate 65 pump.name, completeLine) ∈ (nested pump completeLine completeLine_other 65).entries [] ∧
      Yields asciiPlatform pumpProvider (replicate 65 pump.name) completeLine pump.name .complete ∧
      ∃ pools, eventsFromLogs asciiPlatform pumpProvider "signature" 1
        ((nested pump completeLine completeLine_other 65).lines 0) ⟨[], []⟩ = .ok [] pools) := by
  obtain ⟨hother, hsupported, hkind, hdecoded, hdata⟩ := pumpData_spec pumpData_samples.1
  obtain ⟨hother', -, hkind', ⟨program, payload, hdecoded'⟩, hdata'⟩ := pumpData_spec pumpData_samples.2
  refine ⟨⟨mem_nested_entries 1 [], hsupported, hdecoded, ?_⟩, mem_nested_entries 65 [], ?_, ?_⟩
  · refine nested_silent asciiPlatform pumpProvider "signature" 1 pump feeLine feeLine_other 1 (by decide) (by decide) ?_ ?_ _
    · intro scope hscope
      obtain ⟨decoded, hok, -⟩ := hdata scope hscope
      exact ⟨decoded, hok⟩
    · intro under _ scope kind hyields
      obtain ⟨decoded, hok, hname⟩ := hdata scope hyields.supported
      obtain ⟨program, eventName, payload, hok', hsome⟩ := hyields.decoded
      obtain rfl : decoded = some (program, eventName, payload) := by simpa [hok] using hok'
      rw [hname program eventName payload rfl, hkind] at hsome
      cases hsome
  · exact ⟨hother', rfl, hsupported, program, "CompleteEvent", payload, hdecoded', hkind'⟩
  · refine nested_silent asciiPlatform pumpProvider "signature" 1 pump completeLine completeLine_other 65 (by decide)
      (by decide) ?_ ?_ _
    · intro scope hscope
      obtain ⟨decoded, hok, -⟩ := hdata' scope hscope
      exact ⟨decoded, hok⟩
    · intro under hunder scope kind hyields
      obtain rfl : under = [] := nested_deep (show 0 + 64 = 64 from rfl) hunder
      cases hyields.innermost

end SignalArcade.SolanaLogs
