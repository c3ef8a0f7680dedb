import Mathlib.Data.List.Basic
import Mathlib.Tactic.Linarith
import Mathlib.Tactic.Ring

/-!
# Numbers and text as bytes

A number is written as a given number of bytes, the lowest first, and an integer as the number that is congruent to it
(two's complement). Bytes are written as text three at a time, as four characters out of 64, the last of them filled up
with `=` (base 64). Each is read back as what it was.
-/

namespace Bytes

/-! ### Little endian -/

/-- The lowest `width` bytes of a number. -/
def littleEndian : ℕ → ℕ → List UInt8
  | 0, _ => []
  | width + 1, n => UInt8.ofNat n :: littleEndian width (n / 256)

/-- The number that bytes stand for. -/
def ofLittleEndian : List UInt8 → ℕ
  | [] => 0
  | byte :: bytes => byte.toNat + 256 * ofLittleEndian bytes

@[simp] theorem length_littleEndian (width n : ℕ) : (littleEndian width n).length = width := by
  induction width generalizing n with
  | zero => rfl
  | succ width ih => simp [littleEndian, ih]

theorem ofLittleEndian_littleEndian {width n : ℕ} (h : n < 256 ^ width) : ofLittleEndian (littleEndian width n) = n := by
  induction width generalizing n with
  | zero =>
    rw [pow_zero, Nat.lt_one_iff] at h
    simp [littleEndian, ofLittleEndian, h]
  | succ width ih =>
    rw [pow_succ'] at h
    rw [littleEndian, ofLittleEndian, ih (Nat.div_lt_of_lt_mul h), UInt8.toNat_ofNat']
    exact Nat.mod_add_div n 256

/-- The integer that a number of so many bytes stands for. -/
def signed (width n : ℕ) : ℤ := if 2 * n < 256 ^ width then n else n - 256 ^ width

/-- The number that stands for an integer. -/
def twosComplement (width : ℕ) (z : ℤ) : ℕ := (z % 256 ^ width).toNat

theorem twosComplement_lt (width : ℕ) (z : ℤ) : twosComplement width z < 256 ^ width := by
  have hpos : (0 : ℤ) < 256 ^ width := by positivity
  have hlt := Int.emod_lt_of_pos z hpos
  have hnonneg := Int.emod_nonneg z hpos.ne'
  unfold twosComplement
  zify
  rwa [Int.toNat_of_nonneg hnonneg]

theorem signed_twosComplement {width : ℕ} {z : ℤ} (hlow : -(256 ^ width : ℤ) ≤ 2 * z) (hhigh : 2 * z < 256 ^ width) :
    signed width (twosComplement width z) = z := by
  have hpos : (0 : ℤ) < 256 ^ width := by positivity
  have hnonneg := Int.emod_nonneg z hpos.ne'
  have hcast : ((twosComplement width z : ℕ) : ℤ) = z % 256 ^ width := Int.toNat_of_nonneg hnonneg
  have hiff : 2 * twosComplement width z < 256 ^ width ↔ 2 * (z % 256 ^ width) < 256 ^ width := by
    rw [← hcast]
    norm_cast
  unfold signed
  rcases lt_or_ge z 0 with hneg | hnot
  · have hmod : z % 256 ^ width = z + 256 ^ width := by
      rw [← Int.add_emod_right]
      exact Int.emod_eq_of_lt (by linarith) (by linarith)
    rw [if_neg (by rw [hiff, hmod]; linarith), hcast, hmod]
    ring
  · have hmod : z % 256 ^ width = z := Int.emod_eq_of_lt hnot (by linarith)
    rw [if_pos (by rw [hiff, hmod]; exact hhigh), hcast, hmod]

/-! ### Base 64 -/

def alphabet : List Char := "ABCDEFGHIJKLMNOPQRSTUVWXYZabcdefghijklmnopqrstuvwxyz0123456789+/".toList

/-- The character of a number below 64. -/
def digit (n : ℕ) : Char := alphabet.getD n 'A'

def value (c : Char) : Option ℕ := alphabet.idxOf? c

theorem value_digit {n : ℕ} (h : n < 64) : value (digit n) = some n := by
  have hall : ∀ n < 64, value (digit n) = some n := by decide
  exact hall n h

theorem value_padding : value '=' = none := by decide

/-- The text of bytes. -/
def encode64 : List UInt8 → List Char
  | [] => []
  | [a] => [digit (a.toNat * 16 / 64), digit (a.toNat * 16 % 64), '=', '=']
  | [a, b] =>
    let n := (a.toNat * 256 + b.toNat) * 4
    [digit (n / 4096), digit (n / 64 % 64), digit (n % 64), '=']
  | a :: b :: c :: bytes =>
    let n := a.toNat * 65536 + b.toNat * 256 + c.toNat
    digit (n / 262144) :: digit (n / 4096 % 64) :: digit (n / 64 % 64) :: digit (n % 64) :: encode64 bytes

/-- The bytes of a text, if it is one of bytes: nothing but the characters, filled up at the end. -/
def decode64 : List Char → Option (List UInt8)
  | [] => some []
  | a :: b :: c :: d :: text =>
    match value a, value b, value c, value d with
    | some x, some y, some z, some w =>
      let n := x * 262144 + y * 4096 + z * 64 + w
      (decode64 text).map fun bytes =>
        UInt8.ofNat (n / 65536) :: UInt8.ofNat (n / 256 % 256) :: UInt8.ofNat (n % 256) :: bytes
    | some x, some y, some z, none =>
      if d = '=' ∧ text = [] then
        let n := x * 4096 + y * 64 + z
        some [UInt8.ofNat (n / 1024), UInt8.ofNat (n / 4 % 256)]
      else none
    | some x, some y, none, none =>
      if c = '=' ∧ d = '=' ∧ text = [] then some [UInt8.ofNat ((x * 64 + y) / 16)] else none
    | _, _, _, _ => none
  | _ => none

theorem ofNat_toNat_of_eq {byte : UInt8} {n : ℕ} (h : n = byte.toNat) : UInt8.ofNat n = byte := by
  subst h
  exact UInt8.ofNat_toNat

/-- **Bytes are read back from their text.** -/
theorem decode64_encode64 (bytes : List UInt8) : decode64 (encode64 bytes) = some bytes := by
  induction bytes using encode64.induct with
  | case1 => rfl
  | case2 a =>
    have ha := a.toNat_lt
    simp only [encode64, decode64, value_digit (show a.toNat * 16 / 64 < 64 by omega), value_digit (show a.toNat * 16 % 64 < 64 by omega),
      value_padding, and_self, if_true, Option.some.injEq, List.cons.injEq, and_true]
    exact ofNat_toNat_of_eq (by omega)
  | case3 a b =>
    have ha := a.toNat_lt
    have hb := b.toNat_lt
    obtain ⟨n, hn⟩ : ∃ n, n = (a.toNat * 256 + b.toNat) * 4 := ⟨_, rfl⟩
    simp only [encode64, decode64, ← hn, value_digit (show n / 4096 < 64 by omega), value_digit (show n / 64 % 64 < 64 by omega),
      value_digit (show n % 64 < 64 by omega), value_padding, and_self, if_true, Option.some.injEq, List.cons.injEq,
      and_true]
    exact ⟨ofNat_toNat_of_eq (by omega), ofNat_toNat_of_eq (by omega)⟩
  | case4 a b c bytes ih =>
    have ha := a.toNat_lt
    have hb := b.toNat_lt
    have hc := c.toNat_lt
    obtain ⟨n, hn⟩ : ∃ n, n = a.toNat * 65536 + b.toNat * 256 + c.toNat := ⟨_, rfl⟩
    simp only [encode64, decode64, ← hn, value_digit (show n / 262144 < 64 by omega), value_digit (show n / 4096 % 64 < 64 by omega),
      value_digit (show n / 64 % 64 < 64 by omega), value_digit (show n % 64 < 64 by omega), ih, Option.map_some,
      Option.some.injEq, List.cons.injEq, and_true]
    exact ⟨ofNat_toNat_of_eq (by omega), ofNat_toNat_of_eq (by omega), ofNat_toNat_of_eq (by omega)⟩

theorem mem_encode64 {bytes : List UInt8} {c : Char} (h : c ∈ encode64 bytes) : c ∈ '=' :: alphabet := by
  have hdigit : ∀ n, digit n ∈ alphabet := by
    intro n
    rw [digit, List.getD_eq_getElem?_getD]
    cases hget : alphabet[n]? with
    | none => decide
    | some c => exact List.mem_of_getElem? hget
  induction bytes using encode64.induct with
  | case1 => cases h
  | case2 a =>
    simp only [encode64, List.mem_cons, List.not_mem_nil, or_false] at h
    rcases h with rfl | rfl | rfl | rfl <;> simp [hdigit]
  | case3 a b =>
    simp only [encode64, List.mem_cons, List.not_mem_nil, or_false] at h
    rcases h with rfl | rfl | rfl | rfl <;> simp [hdigit]
  | case4 a b c' bytes ih =>
    simp only [encode64, List.mem_cons] at h
    rcases h with rfl | rfl | rfl | rfl | h
    · simp [hdigit]
    · simp [hdigit]
    · simp [hdigit]
    · simp [hdigit]
    · exact ih h

end Bytes
