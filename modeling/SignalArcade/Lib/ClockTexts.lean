import Mathlib.Data.List.Lex
import Mathlib.Tactic.Ring

/-!
# Clocks and their texts

A clock is a date and a time of day with an offset from UTC, as ISO 8601 writes it down:
`YYYY-MM-DDTHH:MM:SS`, the microseconds where there are some, and the offset. Such texts are compared by their
characters. That is the order of the clocks themselves where all offsets are the same, and not in general.
-/

namespace Clocks

open List

/-! ### Texts that are ordered as numbers -/

/-- Two texts of the same length that are ordered as two numbers. -/
structure Follows (s t : List Char) (m n : ℕ) : Prop where
  length : s.length = t.length
  lt : s < t ↔ m < n
  eq : s = t ↔ m = n

theorem append_lt_append {s t : List Char} (h : s.length = t.length) (s' t' : List Char) :
    s ++ s' < t ++ t' ↔ s < t ∨ s = t ∧ s' < t' := by
  induction s generalizing t with
  | nil =>
    obtain rfl := length_eq_zero_iff.mp h.symm
    simp
  | cons a s ih =>
    cases t with
    | nil => simp at h
    | cons b t =>
      have htail := ih (t := t) (by simpa using h)
      simp only [cons_append, cons_lt_cons_iff, htail, List.cons.injEq]
      grind

theorem mul_add_lt_mul_add {m n m' n' bound : ℕ} (hm : m' < bound) (hn : n' < bound) :
    m * bound + m' < n * bound + n' ↔ m < n ∨ m = n ∧ m' < n' := by
  rcases lt_trichotomy m n with h | rfl | h
  · have hle : (m + 1) * bound ≤ n * bound := Nat.mul_le_mul_right bound h
    rw [Nat.add_mul] at hle
    omega
  · omega
  · have hle : (n + 1) * bound ≤ m * bound := Nat.mul_le_mul_right bound h
    rw [Nat.add_mul] at hle
    omega

theorem mul_add_eq_mul_add {m n m' n' bound : ℕ} (hm : m' < bound) (hn : n' < bound) :
    m * bound + m' = n * bound + n' ↔ m = n ∧ m' = n' := by
  have hlt := mul_add_lt_mul_add (m := m) (n := n) hm hn
  have hgt := mul_add_lt_mul_add (m := n) (n := m) hn hm
  omega

/-- Texts one after the other are ordered as the digits of a number. -/
theorem Follows.append {s t s' t' : List Char} {m n m' n' : ℕ} (bound : ℕ) (h : Follows s t m n)
    (h' : Follows s' t' m' n') (hm : m' < bound) (hn : n' < bound) :
    Follows (s ++ s') (t ++ t') (m * bound + m') (n * bound + n') where
  length := by simp [h.length, h'.length]
  lt := by rw [append_lt_append h.length, h.lt, h.eq, h'.lt, mul_add_lt_mul_add hm hn]
  eq := by
    rw [mul_add_eq_mul_add hm hn, ← h.eq, ← h'.eq]
    constructor
    · exact fun happend => append_inj happend h.length
    · rintro ⟨rfl, rfl⟩
      rfl

variable {m n : ℕ}

/-- What both texts have in common in between orders nothing. -/
theorem Follows.append_same {s t : List Char} (h : Follows s t m n) (same : List Char) :
    Follows (s ++ same) (t ++ same) m n where
  length := by simp [h.length]
  lt := by simp [append_lt_append h.length, h.lt]
  eq := by simp [h.eq]

/-- The character of a digit. -/
def digit (n : ℕ) : Char := Char.ofNat (48 + n % 10)

/-- The last `width` digits of a number, with leading zeros. -/
def digits : ℕ → ℕ → List Char
  | 0, _ => []
  | width + 1, n => digits width (n / 10) ++ [digit n]

@[simp] theorem length_digits (width n : ℕ) : (digits width n).length = width := by
  induction width generalizing n with
  | zero => rfl
  | succ width ih => simp [digits, ih]

theorem follows_digit (hm : m < 10) (hn : n < 10) : Follows [digit m] [digit n] m n where
  length := rfl
  lt := by
    have hdigit : ∀ m < 10, ∀ n < 10, ([digit m] < [digit n] ↔ m < n) := by decide
    exact hdigit m hm n hn
  eq := by
    have hdigit : ∀ m < 10, ∀ n < 10, ([digit m] = [digit n] ↔ m = n) := by decide
    exact hdigit m hm n hn

theorem digit_mod (n : ℕ) : digit (n % 10) = digit n := by simp [digit]

/-- Numbers that fit are ordered as their digits. -/
theorem follows_digits (width : ℕ) (hm : m < 10 ^ width) (hn : n < 10 ^ width) :
    Follows (digits width m) (digits width n) m n := by
  induction width generalizing m n with
  | zero =>
    obtain rfl : m = 0 := by simpa using hm
    obtain rfl : n = 0 := by simpa using hn
    exact ⟨rfl, by simp, by simp⟩
  | succ width ih =>
    have hhigh := ih (m := m / 10) (n := n / 10) (by omega) (by omega)
    have hlow := follows_digit (Nat.mod_lt m (by decide : 0 < 10)) (Nat.mod_lt n (by decide))
    rw [digit_mod, digit_mod] at hlow
    have happend := hhigh.append 10 hlow (Nat.mod_lt m (by decide)) (Nat.mod_lt n (by decide))
    simpa only [digits, Nat.div_add_mod'] using happend

/-! ### Dates -/

/-- A leap year of the Gregorian calendar. -/
def isLeap (year : ℕ) : Bool := year % 4 = 0 ∧ (year % 100 ≠ 0 ∨ year % 400 = 0)

def daysInMonth (year month : ℕ) : ℕ :=
  match month with
  | 2 => if isLeap year then 29 else 28
  | 4 | 6 | 9 | 11 => 30
  | _ => 31

/-- The days before the first of January of a year, from the year 1 on. -/
def daysBeforeYear (year : ℕ) : ℕ := (year - 1) * 365 + (year - 1) / 4 - (year - 1) / 100 + (year - 1) / 400

/-- The days of a year before a month of it. -/
def daysBeforeMonth (year : ℕ) : ℕ → ℕ
  | 0 => 0
  | 1 => 0
  | month + 2 => daysBeforeMonth year (month + 1) + daysInMonth year (month + 1)

/-- A date of the calendar. -/
structure Date where
  year : ℕ
  month : ℕ
  day : ℕ
  year_mem : 1 ≤ year ∧ year ≤ 9999
  month_mem : 1 ≤ month ∧ month ≤ 12
  day_mem : 1 ≤ day ∧ day ≤ daysInMonth year month
  deriving DecidableEq

/-- The numbers are those of a day. -/
def Date.Valid (year month day : ℕ) : Prop :=
  (1 ≤ year ∧ year ≤ 9999) ∧ (1 ≤ month ∧ month ≤ 12) ∧ 1 ≤ day ∧ day ≤ daysInMonth year month

instance (year month day : ℕ) : Decidable (Date.Valid year month day) := inferInstanceAs (Decidable (_ ∧ _))

def Date.ofValid (year month day : ℕ) (h : Date.Valid year month day) : Date := ⟨year, month, day, h.1, h.2.1, h.2.2⟩

/-- The number of a day, where the first of January of the year 1 is day 1. -/
def Date.toordinal (date : Date) : ℕ := daysBeforeYear date.year + daysBeforeMonth date.year date.month + date.day

/-- `YYYY-MM-DD`. -/
def Date.isoformat (date : Date) : List Char :=
  digits 4 date.year ++ ['-'] ++ (digits 2 date.month ++ ['-']) ++ digits 2 date.day

theorem daysInMonth_le (year month : ℕ) : daysInMonth year month ≤ 31 := by
  unfold daysInMonth
  grind

theorem one_le_daysInMonth (year month : ℕ) : 1 ≤ daysInMonth year month := by
  unfold daysInMonth
  grind

theorem daysBeforeYear_succ {year : ℕ} (h : 1 ≤ year) :
    daysBeforeYear (year + 1) = daysBeforeYear year + daysBeforeMonth year 12 + 31 := by
  have hleap : daysBeforeMonth year 12 = if isLeap year then 335 else 334 := by
    simp only [daysBeforeMonth, daysInMonth]
    split <;> rfl
  rw [hleap]
  unfold daysBeforeYear isLeap
  grind

theorem daysBeforeMonth_mono (year : ℕ) : Monotone (daysBeforeMonth year) := by
  refine monotone_nat_of_le_succ fun month => ?_
  cases month with
  | zero => simp [daysBeforeMonth]
  | succ month => simp [daysBeforeMonth]

theorem daysBeforeYear_mono : Monotone daysBeforeYear := by
  refine monotone_nat_of_le_succ fun year => ?_
  rcases Nat.eq_zero_or_pos year with rfl | h
  · simp [daysBeforeYear]
  · rw [daysBeforeYear_succ h]
    omega

namespace Date

theorem day_le (date : Date) : date.day ≤ 31 := date.day_mem.2.trans (daysInMonth_le _ _)

/-- The days of a date are before those of a later month of its year. -/
theorem toordinal_le (date : Date) {month : ℕ} (h : date.month < month) :
    date.toordinal ≤ daysBeforeYear date.year + daysBeforeMonth date.year month := by
  obtain ⟨k, hk⟩ : ∃ k, date.month = k + 1 := Nat.exists_eq_succ_of_ne_zero (by have := date.month_mem; omega)
  have hmono : daysBeforeMonth date.year (k + 2) ≤ daysBeforeMonth date.year month :=
    daysBeforeMonth_mono date.year (by omega)
  have hday := date.day_mem.2
  rw [hk] at hday
  have hnext : daysBeforeMonth date.year (k + 2) = daysBeforeMonth date.year (k + 1) + daysInMonth date.year (k + 1) := rfl
  rw [toordinal, hk]
  omega

theorem toordinal_le_year (date : Date) {year : ℕ} (h : date.year < year) :
    date.toordinal ≤ daysBeforeYear year := by
  have hyear := daysBeforeYear_succ date.year_mem.1
  have hmono : daysBeforeYear (date.year + 1) ≤ daysBeforeYear year := daysBeforeYear_mono h
  have hmonth : daysBeforeMonth date.year date.month ≤ daysBeforeMonth date.year 12 :=
    daysBeforeMonth_mono date.year date.month_mem.2
  have hday := date.day_le
  rw [toordinal]
  omega

/-- The number of year, month and day as they stand in the text. -/
def written (date : Date) : ℕ := (date.year * 100 + date.month) * 100 + date.day

theorem toordinal_lt_of_written {date date' : Date} (h : date.written < date'.written) :
    date.toordinal < date'.toordinal := by
  have hday := date.day_le
  have hday' := date'.day_le
  have hpos := date'.day_mem.1
  have hmonth := date.month_mem
  have hmonth' := date'.month_mem
  rw [written, written] at h
  rcases lt_trichotomy date.year date'.year with hyear | hyear | hyear
  · have hle := date.toordinal_le_year hyear
    refine hle.trans_lt ?_
    rw [toordinal]
    omega
  · rcases lt_trichotomy date.month date'.month with hm | hm | hm
    · have hle := date.toordinal_le hm
      refine hle.trans_lt ?_
      rw [toordinal, ← hyear]
      omega
    · rw [toordinal, toordinal, hyear, hm]
      omega
    · omega
  · omega

theorem ext_written {date date' : Date} (h : date.written = date'.written) : date = date' := by
  have hday := date.day_le
  have hday' := date'.day_le
  have hmonth := date.month_mem
  have hmonth' := date'.month_mem
  rw [written, written] at h
  cases date
  cases date'
  simp only [mk.injEq] at *
  omega

theorem toordinal_lt_iff (date date' : Date) : date.toordinal < date'.toordinal ↔ date.written < date'.written := by
  refine ⟨fun h => ?_, toordinal_lt_of_written⟩
  by_contra hge
  rcases (not_lt.mp hge).lt_or_eq with hlt | heq
  · exact absurd (toordinal_lt_of_written hlt) (by omega)
  · rw [ext_written heq] at h
    omega

theorem toordinal_inj {date date' : Date} : date.toordinal = date'.toordinal ↔ date = date' := by
  refine ⟨fun h => ext_written ?_, fun h => by rw [h]⟩
  have hlt := date.toordinal_lt_iff date'
  have hgt := date'.toordinal_lt_iff date
  omega

/-- The texts of dates are ordered as the dates. -/
theorem follows_isoformat (date date' : Date) :
    Follows date.isoformat date'.isoformat date.toordinal date'.toordinal := by
  have hday := date.day_le
  have hday' := date'.day_le
  have hmonth := date.month_mem
  have hmonth' := date'.month_mem
  have hyear := date.year_mem
  have hyear' := date'.year_mem
  have htext : Follows date.isoformat date'.isoformat date.written date'.written :=
    (((follows_digits _ (by omega) (by omega)).append_same ['-']).append 100
      ((follows_digits _ (by omega) (by omega)).append_same ['-']) (by omega) (by omega)).append 100
      (follows_digits _ (by omega) (by omega)) (by omega) (by omega)
  refine ⟨htext.length, htext.lt.trans (toordinal_lt_iff _ _).symm, htext.eq.trans ?_⟩
  rw [toordinal_inj]
  exact ⟨ext_written, fun h => by rw [h]⟩

/-- The day after a date. -/
def next? (date : Date) : Option Date :=
  if hday : date.day < daysInMonth date.year date.month then
    some { date with day := date.day + 1, day_mem := by have := date.day_mem; omega }
  else if hmonth : date.month < 12 then
    some
      { date with
        month := date.month + 1
        day := 1
        month_mem := by have := date.month_mem; omega
        day_mem := ⟨le_rfl, one_le_daysInMonth _ _⟩ }
  else if hyear : date.year < 9999 then
    some
      { year := date.year + 1
        month := 1
        day := 1
        year_mem := by have := date.year_mem; omega
        month_mem := by decide
        day_mem := ⟨le_rfl, one_le_daysInMonth _ _⟩ }
  else none

end Date

theorem daysBeforeMonth_succ (year : ℕ) {month : ℕ} (h : 1 ≤ month) :
    daysBeforeMonth year (month + 1) = daysBeforeMonth year month + daysInMonth year month := by
  obtain ⟨k, rfl⟩ := Nat.exists_eq_add_of_le' h
  rfl

theorem Date.toordinal_next {date next : Date} (h : date.next? = some next) : next.toordinal = date.toordinal + 1 := by
  unfold Date.next? at h
  unfold Date.toordinal
  split at h
  · cases h
    rfl
  next hday =>
  have hlast : date.day = daysInMonth date.year date.month := le_antisymm date.day_mem.2 (not_lt.mp hday)
  have hnext := daysBeforeMonth_succ date.year date.month_mem.1
  split at h
  · cases h
    dsimp only
    omega
  next hmonth =>
  split at h
  · cases h
    have hdecember : date.month = 12 := by
      have hle := date.month_mem.2
      omega
    have hyear := daysBeforeYear_succ date.year_mem.1
    have hjanuary : daysBeforeMonth (date.year + 1) 1 = 0 := rfl
    have hlength : daysInMonth date.year 12 = 31 := rfl
    dsimp only
    rw [hdecember] at hlast ⊢
    omega
  · cases h

/-- No date is after one without a next date. -/
theorem Date.toordinal_le_of_next {date : Date} (h : date.next? = none) (date' : Date) :
    date'.toordinal ≤ date.toordinal := by
  unfold Date.next? at h
  split at h
  · cases h
  next hday =>
  split at h
  · cases h
  next hmonth =>
  split at h
  · cases h
  next hyear =>
  have hdecember : date.month = 12 := by
    have hle := date.month_mem.2
    omega
  have hlength : daysInMonth date.year 12 = 31 := rfl
  rw [hdecember, hlength] at hday
  have hyear' := date'.year_mem
  have hmonth' := date'.month_mem
  have hday' := date'.day_le
  refine not_lt.mp fun hlt => ?_
  rw [Date.toordinal_lt_iff, Date.written, Date.written, hdecember] at hlt
  omega

/-- The year that a day is in. The guess from the length of 400 years is right, or one too low or too high. -/
def yearOf (ordinal : ℕ) : ℕ :=
  let guess := (ordinal - 1) * 400 / 146097 + 1
  if ordinal ≤ daysBeforeYear guess then guess - 1
  else if daysBeforeYear (guess + 1) < ordinal then guess + 1
  else guess

/-- The month of a year that a day of it is in, up to some month. -/
def monthOf (year day : ℕ) : ℕ → ℕ
  | 0 => 1
  | 1 => 1
  | month + 2 => if daysBeforeMonth year (month + 2) < day then month + 2 else monthOf year day (month + 1)

theorem yearOf_spec {ordinal : ℕ} (h : 1 ≤ ordinal) :
    1 ≤ yearOf ordinal ∧ daysBeforeYear (yearOf ordinal) < ordinal ∧ ordinal ≤ daysBeforeYear (yearOf ordinal + 1) := by
  unfold yearOf
  dsimp only
  split
  next hlow =>
    unfold daysBeforeYear at hlow ⊢
    omega
  next hlow =>
    split
    next hhigh =>
      unfold daysBeforeYear at hlow hhigh ⊢
      omega
    next hhigh => exact ⟨by omega, by omega, by omega⟩

theorem monthOf_spec (year day last : ℕ) (h : 1 ≤ day) (hlast : 1 ≤ last)
    (hday : day ≤ daysBeforeMonth year last + daysInMonth year last) :
    1 ≤ monthOf year day last ∧ monthOf year day last ≤ last ∧
      daysBeforeMonth year (monthOf year day last) < day ∧
      day ≤ daysBeforeMonth year (monthOf year day last) + daysInMonth year (monthOf year day last) := by
  induction last with
  | zero => omega
  | succ last ih =>
    cases last with
    | zero => exact ⟨le_rfl, le_rfl, h, hday⟩
    | succ month =>
      rw [monthOf]
      split
      next hlt => exact ⟨by omega, le_rfl, hlt, hday⟩
      next hge =>
        obtain ⟨hone, hle, hspec⟩ := ih (by omega) (by simpa [daysBeforeMonth] using hge)
        exact ⟨hone, by omega, hspec⟩

/-- The date of a day, in the years up to 9999. -/
def Date.fromordinal? (ordinal : ℕ) : Option Date :=
  if h : 1 ≤ ordinal ∧ yearOf ordinal ≤ 9999 then
    have hyear := yearOf_spec h.1
    have hmonth := monthOf_spec (yearOf ordinal) (ordinal - daysBeforeYear (yearOf ordinal))
      12 (by omega) (by decide) (by
        have hsucc := daysBeforeYear_succ hyear.1
        have hlength : daysInMonth (yearOf ordinal) 12 = 31 := rfl
        omega)
    some
      { year := yearOf ordinal
        month := monthOf (yearOf ordinal) (ordinal - daysBeforeYear (yearOf ordinal)) 12
        day := ordinal - daysBeforeYear (yearOf ordinal) -
          daysBeforeMonth (yearOf ordinal) (monthOf (yearOf ordinal) (ordinal - daysBeforeYear (yearOf ordinal)) 12)
        year_mem := ⟨hyear.1, h.2⟩
        month_mem := ⟨hmonth.1, hmonth.2.1⟩
        day_mem := by omega }
  else none

theorem Date.toordinal_fromordinal {ordinal : ℕ} {date : Date} (h : Date.fromordinal? ordinal = some date) :
    date.toordinal = ordinal := by
  unfold Date.fromordinal? at h
  split at h
  next hrange =>
    have hyear := yearOf_spec hrange.1
    have hday := Option.some.inj h ▸ date.day_mem
    obtain rfl := (Option.some.inj h).symm
    rw [Date.toordinal]
    dsimp only at hday ⊢
    omega
  · cases h

/-! ### Clocks -/

/-- A second, in microseconds. -/
def second : ℤ := 1000000

/-- An hour, in microseconds. -/
def oneHour : ℤ := 3600 * second

/-- A day, in microseconds. -/
def oneDay : ℤ := 86400 * second

/-- The first of January 1970. -/
def epoch : ℕ := 719163

/-- Midnight of the first of January of the year 1. -/
def firstWall : ℤ := (1 - epoch) * oneDay

/-- The last microsecond of the year 9999. -/
def lastWall : ℤ := (3652060 - epoch) * oneDay - 1

/-- A reading of a clock with a fixed offset from UTC. -/
structure Clock where
  date : Date
  hour : ℕ
  minute : ℕ
  second : ℕ
  microsecond : ℕ
  /-- In microseconds. -/
  utcoffset : ℤ
  hour_lt : hour < 24
  minute_lt : minute < 60
  second_lt : second < 60
  microsecond_lt : microsecond < 1000000
  utcoffset_lt : -oneDay < utcoffset ∧ utcoffset < oneDay
  deriving DecidableEq

namespace Clock

/-- The seconds from the first of January of the year 1 on, on the clock's own wall. -/
def seconds (clock : Clock) : ℕ := ((clock.date.toordinal * 24 + clock.hour) * 60 + clock.minute) * 60 + clock.second

/-- Date and time of day, in microseconds from 1970 on. -/
def wall (clock : Clock) : ℤ := (clock.seconds * 1000000 + clock.microsecond : ℕ) - epoch * oneDay

/-- The time that the clock shows, in microseconds from 1970 on. -/
def instant (clock : Clock) : ℤ := clock.wall - clock.utcoffset

/-- What stands for the microseconds. -/
def fraction (microsecond : ℕ) : List Char := if microsecond = 0 then [] else '.' :: digits 6 microsecond

/-- `±HH:MM`, with the seconds and microseconds there are. -/
def offsetText (offset : ℤ) : List Char :=
  let micros := offset.natAbs
  let seconds := micros / 1000000
  (if offset < 0 then '-' else '+') :: digits 2 (seconds / 3600) ++ [':'] ++ digits 2 (seconds / 60 % 60) ++
    if seconds % 60 = 0 ∧ micros % 1000000 = 0 then [] else
      ':' :: digits 2 (seconds % 60) ++ fraction (micros % 1000000)

/-- `YYYY-MM-DDTHH:MM:SS`. -/
def head (clock : Clock) : List Char :=
  clock.date.isoformat ++ ['T'] ++ (digits 2 clock.hour ++ [':']) ++ (digits 2 clock.minute ++ [':']) ++
    digits 2 clock.second

def isoformat (clock : Clock) : List Char := clock.head ++ (fraction clock.microsecond ++ offsetText clock.utcoffset)

/-- The clock at the beginning of its hour. -/
def hourStart (clock : Clock) : Clock :=
  { clock with
    minute := 0
    second := 0
    microsecond := 0
    minute_lt := by decide
    second_lt := by decide
    microsecond_lt := by decide }

/-- The clock an hour later, in the years up to 9999. -/
def plusHour? (clock : Clock) : Option Clock :=
  if hhour : clock.hour < 23 then
    some { clock with hour := clock.hour + 1, hour_lt := by omega }
  else clock.date.next?.map fun next => { clock with date := next, hour := 0, hour_lt := by decide }

instance : NeZero 24 := ⟨by decide⟩

instance : NeZero 60 := ⟨by decide⟩

/-- A full minute of a day, on a clock that is some hours ahead of UTC. -/
def aheadOfUtc (date : Date) (hour : Fin 24) (minute : Fin 60) (hours : Fin 24) : Clock where
  date
  hour
  minute
  second := 0
  microsecond := 0
  utcoffset := hours * oneHour
  hour_lt := hour.isLt
  minute_lt := minute.isLt
  second_lt := by decide
  microsecond_lt := by decide
  utcoffset_lt := by
    have h := hours.isLt
    unfold oneDay oneHour Clocks.second
    omega

/-- A second of a day, on a clock in UTC. -/
def inUtc (date : Date) (hour : Fin 24) (minute second : Fin 60) : Clock :=
  { aheadOfUtc date hour minute 0 with
    second
    second_lt := second.isLt }

/-- The UTC clock of an instant, in the years from 1 to 9999. -/
def utc? (instant : ℤ) : Option Clock :=
  (Date.fromordinal? (instant / oneDay + epoch).toNat).map fun date =>
    let micros := (instant % oneDay).toNat
    { date
      hour := micros / 3600000000 % 24
      minute := micros / 60000000 % 60
      second := micros / 1000000 % 60
      microsecond := micros % 1000000
      utcoffset := 0
      hour_lt := Nat.mod_lt _ (by decide)
      minute_lt := Nat.mod_lt _ (by decide)
      second_lt := Nat.mod_lt _ (by decide)
      microsecond_lt := Nat.mod_lt _ (by decide)
      utcoffset_lt := by decide }

theorem utc_spec {instant : ℤ} {clock : Clock} (h : utc? instant = some clock) :
    clock.utcoffset = 0 ∧ clock.instant = instant ∧ (clock.date.toordinal : ℤ) = instant / oneDay + epoch := by
  obtain ⟨date, hdate, rfl⟩ := Option.map_eq_some_iff.mp h
  have hordinal := Date.toordinal_fromordinal hdate
  have hpos : 1 ≤ date.toordinal := by
    have hday := date.day_mem.1
    unfold Date.toordinal
    omega
  have hday : (date.toordinal : ℤ) = instant / oneDay + epoch := by omega
  refine ⟨rfl, ?_, hday⟩
  have hdivide := Int.mul_ediv_add_emod instant oneDay
  have hmicros : 0 ≤ instant % oneDay ∧ instant % oneDay < 86400000000 :=
    ⟨Int.emod_nonneg _ (by decide), Int.emod_lt_of_pos _ (by decide)⟩
  unfold Clock.instant wall seconds
  dsimp only
  have hlength : oneDay = 86400000000 := by decide
  rw [hlength] at hdivide hmicros hday ⊢
  unfold epoch at hday ⊢
  omega

theorem hourStart_le (clock : Clock) : clock.hourStart.instant ≤ clock.instant := by
  unfold instant wall seconds hourStart
  dsimp only
  omega

theorem lt_hourStart (clock : Clock) : clock.instant < clock.hourStart.instant + oneHour := by
  have hm := clock.minute_lt
  have hs := clock.second_lt
  have hmicro := clock.microsecond_lt
  unfold instant wall seconds hourStart oneHour Clocks.second
  dsimp only
  omega

theorem instant_plusHour {clock later : Clock} (h : clock.plusHour? = some later) :
    later.instant = clock.instant + oneHour := by
  unfold plusHour? at h
  split at h
  · cases h
    unfold instant wall seconds oneHour Clocks.second
    dsimp only
    omega
  · obtain ⟨next, hnext, rfl⟩ := Option.map_eq_some_iff.mp h
    have hordinal := Date.toordinal_next hnext
    have hhour := clock.hour_lt
    unfold instant wall seconds oneHour Clocks.second
    dsimp only
    omega

/-- The hours from the first of January of the year 1 on, on the clock's own wall. -/
def hours (clock : Clock) : ℕ := clock.date.toordinal * 24 + clock.hour

theorem instant_hourStart (clock : Clock) :
    clock.hourStart.instant = clock.hours * oneHour - epoch * oneDay - clock.utcoffset := by
  unfold instant wall seconds hourStart hours oneHour Clocks.second
  dsimp only
  omega

variable {clock clock' : Clock}

theorem hourStart_eq (hhours : clock.hours = clock'.hours)
    (hoffset : clock.utcoffset = clock'.utcoffset) : clock.hourStart = clock'.hourStart := by
  have h := clock.hour_lt
  have h' := clock'.hour_lt
  unfold hours at hhours
  have hdate : clock.date = clock'.date := Date.toordinal_inj.mp (by omega)
  rw [hdate] at hhours
  have hhour : clock.hour = clock'.hour := by omega
  cases clock
  cases clock'
  simp_all [hourStart]

/-- An hour before another one on the wall ends in the years up to 9999. -/
theorem plusHour_isSome_of_hours_lt (h : clock.hours < clock'.hours) :
    clock.plusHour?.isSome := by
  by_contra hnone
  unfold plusHour? at hnone
  split at hnone
  · simp at hnone
  next hhour =>
    have hdate := Date.toordinal_le_of_next (by simpa using hnone) clock'.date
    have hbound := clock'.hour_lt
    unfold hours at h
    omega

theorem follows_head (clock clock' : Clock) : Follows clock.head clock'.head clock.seconds clock'.seconds := by
  have h := clock.hour_lt
  have h' := clock'.hour_lt
  have hm := clock.minute_lt
  have hm' := clock'.minute_lt
  have hs := clock.second_lt
  have hs' := clock'.second_lt
  have hhour := ((clock.date.follows_isoformat clock'.date).append_same ['T']).append 24
    ((follows_digits 2 (by omega) (by omega)).append_same [':']) h h'
  have hminute := hhour.append 60 ((follows_digits 2 (by omega) (by omega)).append_same [':']) hm hm'
  exact hminute.append 60 (follows_digits 2 (by omega) (by omega)) hs hs'

theorem exists_offsetText (offset : ℤ) : ∃ sign rest, offsetText offset = sign :: rest ∧ (sign = '+' ∨ sign = '-') := by
  refine ⟨_, _, rfl, ?_⟩
  split <;> simp

/-- Of clocks with one offset, what follows the seconds is ordered as the microseconds: neither sign of the
offset is above the point that the microseconds begin with. -/
theorem fraction_lt_iff (hm : m < 1000000) (hn : n < 1000000) (offset : ℤ) :
    fraction m ++ offsetText offset < fraction n ++ offsetText offset ↔ m < n := by
  obtain ⟨sign, rest, htext, hsign⟩ := exists_offsetText offset
  have hbelow : sign < '.' ∧ ¬ '.' < sign ∧ '.' ≠ sign := by rcases hsign with rfl | rfl <;> decide
  have hdigits := (follows_digits 6 hm hn).append_same (offsetText offset)
  unfold fraction
  rcases Nat.eq_zero_or_pos m with rfl | hmpos <;> rcases Nat.eq_zero_or_pos n with rfl | hnpos
  · simp
  · rw [if_pos rfl, if_neg hnpos.ne', htext]
    exact iff_of_true (cons_lt_cons_iff.mpr (Or.inl hbelow.1)) hnpos
  · rw [if_pos rfl, if_neg hmpos.ne', htext]
    refine iff_of_false (fun hlt => ?_) (by omega)
    rcases cons_lt_cons_iff.mp hlt with h | ⟨h, -⟩
    · exact hbelow.2.1 h
    · exact hbelow.2.2 h
  · simpa [hmpos.ne', hnpos.ne'] using hdigits.lt

theorem wall_lt_iff (clock clock' : Clock) :
    clock.wall < clock'.wall ↔
      clock.seconds < clock'.seconds ∨ clock.seconds = clock'.seconds ∧ clock.microsecond < clock'.microsecond := by
  have h := clock.microsecond_lt
  have h' := clock'.microsecond_lt
  unfold wall
  omega

/-- **The texts of clocks with one offset are ordered as their instants.** -/
theorem isoformat_lt_iff (h : clock.utcoffset = clock'.utcoffset) :
    clock.isoformat < clock'.isoformat ↔ clock.instant < clock'.instant := by
  have hhead := clock.follows_head clock'
  rw [isoformat, isoformat, append_lt_append hhead.length, hhead.lt, hhead.eq, h,
    fraction_lt_iff clock.microsecond_lt clock'.microsecond_lt, instant, instant, h, sub_lt_sub_iff_right, wall_lt_iff]

/-- A clock that is below another one as a text is not above it on the wall, seconds and up. -/
theorem seconds_le_of_isoformat_lt (h : clock.isoformat < clock'.isoformat) :
    clock.seconds ≤ clock'.seconds := by
  have hhead := clock.follows_head clock'
  rw [isoformat, isoformat, append_lt_append hhead.length, hhead.lt, hhead.eq] at h
  omega

/-- An hour that is below another one as a text ends in the years up to 9999 if the other one does. -/
theorem plusHour_isSome_of_isoformat_lt (h : clock.isoformat < clock'.isoformat)
    (h' : clock'.plusHour?.isSome) : clock.plusHour?.isSome := by
  have hle := seconds_le_of_isoformat_lt h
  have hbounds := And.intro clock.minute_lt clock.second_lt
  have hbounds' := And.intro clock'.minute_lt clock'.second_lt
  have hhours : clock.hours ≤ clock'.hours := by
    unfold seconds at hle
    unfold hours
    omega
  rcases hhours.lt_or_eq with hlt | heq
  · exact plusHour_isSome_of_hours_lt hlt
  · unfold hours at heq
    have hhour := clock.hour_lt
    have hhour' := clock'.hour_lt
    have hdate : clock.date = clock'.date := Date.toordinal_inj.mp (by omega)
    rw [hdate] at heq
    have hsame : clock.hour = clock'.hour := by omega
    unfold plusHour? at h' ⊢
    rw [hdate]
    by_cases hlast : clock'.hour < 23
    · rw [dif_pos (hsame ▸ hlast)]
      rfl
    · rw [dif_neg hlast] at h'
      rw [dif_neg (hsame ▸ hlast)]
      simpa using h'

theorem digits_inj (width : ℕ) (hm : m < 10 ^ width) (hn : n < 10 ^ width) (h : digits width m = digits width n) :
    m = n := (follows_digits width hm hn).eq.mp h

/-- The microseconds are read back, whatever text with another sign in front follows. -/
theorem fraction_inj {s t : List Char} (hm : m < 1000000) (hn : n < 1000000) (hs : s.head? ≠ some '.')
    (ht : t.head? ≠ some '.') (h : fraction m ++ s = fraction n ++ t) : m = n ∧ s = t := by
  unfold fraction at h
  split at h <;> split at h
  next hm0 hn0 => exact ⟨hm0.trans hn0.symm, h⟩
  · rw [nil_append] at h
    simp [h] at hs
  · rw [nil_append] at h
    simp [← h] at ht
  · obtain ⟨hdigits, hrest⟩ := append_inj (List.cons.inj h).2 (by simp)
    exact ⟨digits_inj 6 hm hn hdigits, hrest⟩

theorem offsetText_inj {offset offset' : ℤ} (h : -oneDay < offset ∧ offset < oneDay)
    (h' : -oneDay < offset' ∧ offset' < oneDay) (htext : offsetText offset = offsetText offset') :
    offset = offset' := by
  have hbound : offset.natAbs < 86400 * 1000000 ∧ offset'.natAbs < 86400 * 1000000 := by
    unfold oneDay Clocks.second at h h'
    omega
  obtain ⟨hbound, hbound'⟩ := hbound
  unfold offsetText at htext
  simp only [cons_append, List.cons.injEq, append_assoc] at htext
  obtain ⟨hsign, htext⟩ := htext
  obtain ⟨hhour, htext⟩ := append_inj htext (by simp)
  simp only [nil_append, List.cons.injEq, true_and] at htext
  obtain ⟨hminute, htext⟩ := append_inj htext (by simp)
  have hhour := digits_inj 2 (by omega) (by omega) hhour
  have hminute := digits_inj 2 (by omega) (by omega) hminute
  have hrest : offset.natAbs / 1000000 % 60 = offset'.natAbs / 1000000 % 60 ∧
      offset.natAbs % 1000000 = offset'.natAbs % 1000000 := by
    split at htext <;> split at htext
    next hzero hzero' => omega
    · simp at htext
    · simp at htext
    · simp only [List.cons.injEq, true_and] at htext
      obtain ⟨hsecond, hfraction⟩ := append_inj htext (by simp)
      have hsecond := digits_inj 2 (by omega) (by omega) hsecond
      obtain ⟨hmicro, -⟩ := fraction_inj (s := []) (t := []) (Nat.mod_lt _ (by decide)) (Nat.mod_lt _ (by decide))
        (by simp) (by simp) (by simpa using hfraction)
      exact ⟨hsecond, hmicro⟩
  have habs : offset.natAbs = offset'.natAbs := by omega
  split at hsign <;> split at hsign
  · omega
  · simp at hsign
  · simp at hsign
  · omega

/-- **A clock is read back from its text.** -/
theorem isoformat_inj (h : clock.isoformat = clock'.isoformat) : clock = clock' := by
  have hhead := clock.follows_head clock'
  obtain ⟨hseconds, hrest⟩ := append_inj h hhead.length
  have hsign : ∀ offset, (offsetText offset).head? ≠ some '.' := by
    intro offset
    obtain ⟨sign, rest, htext, hsign⟩ := exists_offsetText offset
    rcases hsign with rfl | rfl <;> simp [htext]
  obtain ⟨hmicro, hoffset⟩ :=
    fraction_inj clock.microsecond_lt clock'.microsecond_lt (hsign _) (hsign _) hrest
  have hoffset := offsetText_inj clock.utcoffset_lt clock'.utcoffset_lt hoffset
  have hseconds : clock.seconds = clock'.seconds := hhead.eq.mp hseconds
  have hbounds := And.intro clock.hour_lt (And.intro clock.minute_lt clock.second_lt)
  have hbounds' := And.intro clock'.hour_lt (And.intro clock'.minute_lt clock'.second_lt)
  unfold seconds at hseconds
  have hdate : clock.date = clock'.date := Date.toordinal_inj.mp (by omega)
  rw [hdate] at hseconds
  have hhour : clock.hour = clock'.hour := by omega
  have hminute : clock.minute = clock'.minute := by omega
  have hsecond : clock.second = clock'.second := by omega
  cases clock
  cases clock'
  simp_all only [and_self]

end Clock

end Clocks
