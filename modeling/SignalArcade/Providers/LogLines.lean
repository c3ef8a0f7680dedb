import Mathlib.Data.List.DropRight

/-!
# The lines of a transaction log

What `PROGRAM_INVOKE` and `PROGRAM_EXIT` match, as scanners of the text of a line. A line that neither of them matches
is another line: data, a message of a program, the units it consumed, or anything else.

`\d` and `int` know the decimal digits of every script; the digits are those of `Decimals`.
-/

namespace SignalArcade.SolanaLogs

/-! ### Matching -/

/-- The decimal digits, and what `int` makes of each. -/
structure Decimals where
  digit : Char → Option ℕ
  ascii : ∀ c : Char, c.isDigit → digit c = some (c.toNat - 48)
  closing : digit ']' = none

/-- `[1-9A-HJ-NP-Za-km-z]`. -/
def base58 : List Char := "123456789ABCDEFGHJKLMNPQRSTUVWXYZabcdefghijkmnopqrstuvwxyz".toList

/-- `$`: the end of the text, or the line feed that ends it. -/
def atEnd (text : List Char) : Bool := text = [] ∨ text = ['\n']

/-- `Program ([1-9A-HJ-NP-Za-km-z]{30,50})`, and the text that follows. A blank comes next, so that the group is all of
the characters there are. -/
def programOf (line : List Char) : Option (List Char × List Char) := do
  let text ← line.dropPrefix? "Program ".toList
  let program := text.takeWhile (· ∈ base58)
  if 30 ≤ program.length ∧ program.length ≤ 50 then return (program, text.dropWhile (· ∈ base58)) else none

section Lines

variable (decimals : Decimals)

/-- `\d`. -/
def isDecimal (c : Char) : Bool := (decimals.digit c).isSome

/-- `PROGRAM_INVOKE.match(line)`: the groups. -/
def programInvoke (line : List Char) : Option (List Char × List Char) := do
  let (program, text) ← programOf line
  let text ← text.dropPrefix? " invoke [".toList
  let rawDepth := text.takeWhile (isDecimal decimals)
  let text ← (text.dropWhile (isDecimal decimals)).dropPrefix? [']']
  if rawDepth ≠ [] ∧ atEnd text then return (program, rawDepth) else none

/-- `(?:success|failed:.*)$`, after a blank. -/
def outcome (text : List Char) : Bool :=
  (text.dropPrefix? " success".toList).any atEnd ||
    (text.dropPrefix? " failed:".toList).any fun reason => atEnd (reason.dropWhile (· ≠ '\n'))

/-- `PROGRAM_EXIT.match(line)`: the group. -/
def programExit (line : List Char) : Option (List Char) := do
  let (program, text) ← programOf line
  if outcome text then return program else none

/-- `int(raw_depth)`. -/
def intOf (rawDepth : List Char) : ℕ :=
  rawDepth.foldl (fun value c => 10 * value + (decimals.digit c).getD 0) 0

/-- A line of a log, as the stack reads it. -/
inductive LogLine where
  | invoke (program : String) (rawDepth : List Char)
  | exit (program : String)
  | other
  deriving DecidableEq

/-- A line is matched against the one pattern, then against the other. -/
def classify (line : String) : LogLine :=
  match programInvoke decimals line.toList with
  | some (program, rawDepth) => .invoke (String.ofList program) rawDepth
  | none =>
    match programExit line.toList with
    | some program => .exit (String.ofList program)
    | none => .other

end Lines

/-! ### Lines that are written -/

/-- The text of a program's address: base 58, of the length that is read. -/
structure ProgramId where
  text : List Char
  length_ge : 30 ≤ text.length
  length_le : text.length ≤ 50
  characters : ∀ c ∈ text, c ∈ base58

def ProgramId.name (program : ProgramId) : String := String.ofList program.text

/-- How a call ends. -/
inductive Outcome where
  | success
  | failed (reason : List Char) (noLineFeed : '\n' ∉ reason)

/-- What is written of it. -/
def Outcome.text : Outcome → List Char
  | .success => " success".toList
  | .failed reason _ => " failed:".toList ++ reason

/-- `Program … invoke […]`. -/
def invokeLine (program : ProgramId) (depth : ℕ) : String :=
  String.ofList ("Program ".toList ++ (program.text ++ (" invoke [".toList ++ (Nat.toDigits 10 depth ++ [']']))))

/-- `Program … success`, `Program … failed: …`. -/
def exitLine (program : ProgramId) (outcome : Outcome) : String :=
  String.ofList ("Program ".toList ++ (program.text ++ outcome.text))

theorem dropPrefix?_append_self (literal text : List Char) : (literal ++ text).dropPrefix? literal = some text :=
  List.dropPrefix?_append_of_beq text (beq_self_eq_true literal)

theorem takeWhile_run (p : Char → Bool) {run rest : List Char} (hrun : ∀ c ∈ run, p c)
    (hrest : ∀ c ∈ rest.head?, ¬ p c) :
    (run ++ rest).takeWhile p = run ∧ (run ++ rest).dropWhile p = rest := by
  rw [List.takeWhile_append_of_pos hrun, List.dropWhile_append_of_pos hrun]
  cases rest with
  | nil => simp
  | cons c rest =>
    have hc : ¬ p c := hrest c rfl
    simp [hc]

theorem programOf_written (program : ProgramId) {text : List Char} (htext : text.head? = some ' ') :
    programOf ("Program ".toList ++ (program.text ++ text)) = some (program.text, text) := by
  have hblank : ∀ c ∈ text.head?, ¬ decide (c ∈ base58) := by
    intro c hc
    obtain rfl : ' ' = c := by simpa [htext] using hc
    decide +kernel
  have hrun := takeWhile_run (· ∈ base58) (fun c hc => decide_eq_true (program.characters c hc)) hblank
  unfold programOf
  rw [dropPrefix?_append_self]
  simp [hrun.1, hrun.2, program.length_ge, program.length_le]

section Written

variable (decimals : Decimals)

theorem isDecimal_of_mem_toDigits {depth : ℕ} {c : Char} (hc : c ∈ Nat.toDigits 10 depth) : isDecimal decimals c := by
  unfold isDecimal
  rw [decimals.ascii c (Nat.isDigit_of_mem_toDigits (by decide) (le_refl 10) hc)]
  rfl

theorem intOf_toDigits (depth : ℕ) : intOf decimals (Nat.toDigits 10 depth) = depth := by
  have hdigits : intOf decimals (Nat.toDigits 10 depth) = Nat.ofDigitChars 10 (Nat.toDigits 10 depth) 0 := by
    unfold intOf
    rw [Nat.ofDigitChars_eq_foldl]
    apply List.foldl_ext
    intro value c hc
    rw [decimals.ascii c (Nat.isDigit_of_mem_toDigits (by decide) (le_refl 10) hc)]
    rfl
  rw [hdigits, Nat.ofDigitChars_ten_toDigits]

theorem classify_invokeLine (program : ProgramId) (depth : ℕ) :
    classify decimals (invokeLine program depth) = .invoke program.name (Nat.toDigits 10 depth) := by
  have hbracket : ∀ c ∈ [']'].head?, ¬ isDecimal decimals c := by
    intro c hc
    obtain rfl : ']' = c := by simpa using hc
    simp [isDecimal, decimals.closing]
  have hrun := takeWhile_run (isDecimal decimals) (fun c (hc : c ∈ Nat.toDigits 10 depth) =>
    isDecimal_of_mem_toDigits decimals hc) hbracket
  have hclose : [']'].dropPrefix? [']'] = some [] := rfl
  have hmatch : programInvoke decimals (invokeLine program depth).toList =
      some (program.text, Nat.toDigits 10 depth) := by
    unfold programInvoke invokeLine
    rw [String.toList_ofList, programOf_written program rfl]
    simp only [Option.bind_eq_bind, Option.bind_some, dropPrefix?_append_self, hrun.1, hrun.2, hclose]
    simp [atEnd, Nat.toDigits_ne_nil]
  unfold classify
  rw [hmatch]
  rfl

theorem outcome_text (ended : Outcome) :
    outcome ended.text ∧ ended.text.dropPrefix? " invoke [".toList = none ∧ ended.text.head? = some ' ' := by
  cases ended with
  | success => decide +kernel
  | failed reason noLineFeed =>
    have hreason : reason.dropWhile (· ≠ '\n') = [] := by
      apply List.dropWhile_eq_nil_iff.mpr
      intro c hc
      have hne : c ≠ '\n' := fun h => noLineFeed (h ▸ hc)
      simpa using hne
    refine ⟨?_, rfl, rfl⟩
    unfold outcome Outcome.text
    rw [dropPrefix?_append_self, Option.any_some, hreason]
    exact Bool.or_true _

theorem classify_exitLine (program : ProgramId) (ended : Outcome) :
    classify decimals (exitLine program ended) = .exit program.name := by
  obtain ⟨houtcome, hinvoke, hblank⟩ := outcome_text ended
  have hmatch : programInvoke decimals (exitLine program ended).toList = none := by
    unfold programInvoke exitLine
    rw [String.toList_ofList, programOf_written program hblank]
    simp only [Option.bind_eq_bind, Option.bind_some, hinvoke, Option.bind_none]
  have hexit : programExit (exitLine program ended).toList = some program.text := by
    unfold programExit exitLine
    rw [String.toList_ofList, programOf_written program hblank]
    simp [houtcome]
  unfold classify
  rw [hmatch, hexit]
  rfl

end Written

end SignalArcade.SolanaLogs
