import Mathlib.Data.List.Nodup

/-!
# Skills

`ChallengerSkill` of `models.py`, with the strings the skills are written as.
-/

namespace SignalArcade

/-- The four skills. -/
inductive ChallengerSkill where
  | entry | manipulation | sizing | exit
  deriving DecidableEq

namespace ChallengerSkill

def value : ChallengerSkill → String
  | .entry => "entry"
  | .manipulation => "manipulation"
  | .sizing => "sizing"
  | .exit => "exit"

def ofValue? : String → Option ChallengerSkill
  | "entry" => some .entry
  | "manipulation" => some .manipulation
  | "sizing" => some .sizing
  | "exit" => some .exit
  | _ => none

@[simp] theorem ofValue?_value (skill : ChallengerSkill) : ofValue? skill.value = some skill := by
  cases skill <;> rfl

theorem value_ne_empty (skill : ChallengerSkill) : skill.value ≠ "" := by
  cases skill <;> decide

/-- All skills, in the order of their strings. -/
def all : List ChallengerSkill := [.entry, .exit, .manipulation, .sizing]

theorem mem_all (skill : ChallengerSkill) : skill ∈ all := by
  cases skill <;> decide

/-- `sorted(…)` of a set of skills. -/
def sorted (skills : ChallengerSkill → Bool) : List ChallengerSkill := all.filter skills

@[simp] theorem mem_sorted {skills : ChallengerSkill → Bool} {skill : ChallengerSkill} :
    skill ∈ sorted skills ↔ skills skill = true := by
  simp [sorted, mem_all]

theorem nodup_sorted (skills : ChallengerSkill → Bool) : (sorted skills).Nodup :=
  List.Nodup.filter _ (by decide)

theorem length_sorted_le (skills : ChallengerSkill → Bool) : (sorted skills).length ≤ 4 :=
  List.length_filter_le ..

end ChallengerSkill

end SignalArcade
