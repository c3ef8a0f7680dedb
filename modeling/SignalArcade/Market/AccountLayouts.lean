import SignalArcade.Lib.Checked
import SignalArcade.Providers.AnchorDecoder
import SignalArcade.Providers.MintLayout

/-!
# Layouts of reserve accounts

What the IDL knows of an account is a prefix of it. Newer accounts have fields behind that, and room that is not used yet:
`_decoded` of `reserve_refresh.py` takes them from what remains, and refuses what it does not know. `_vault` does the same
for the extensions of a token account.
-/

namespace SignalArcade.Market

open Bytes List
open Anchor (PyValue setItem getItem)
open Providers (anyByte splTokenProgram token2022Program littleEndian_pair anyByte_eq_false anyByte_replicate)

/-! ### The source -/

/-- The account types of `_ACCOUNT_EXTENSIONS`. -/
inductive AccountType where
  | feeConfig
  | global
  | globalConfig
  | bondingCurve
  | pool

namespace AccountType

def name : AccountType → String
  | feeConfig => "FeeConfig"
  | global => "Global"
  | globalConfig => "GlobalConfig"
  | bondingCurve => "BondingCurve"
  | pool => "Pool"

/-- `struct.calcsize`, of the fields that were appended. -/
def size : AccountType → ℕ
  | feeConfig => 24
  | _ => 9

def flag : AccountType → List UInt8 → UInt8
  | feeConfig, _ => 0
  | global, extension | globalConfig, extension => extension.getD 0 0
  | bondingCurve, extension | pool, extension => extension.getD 8 0

end AccountType

def nativeSolMint : String := "11111111111111111111111111111111"

/-- What is told of an account whose layout is refused. -/
structure LayoutDetails where
  accountBytes : ℕ
  sampleBytes : ℕ
  sampleSha256 : String
  reviewedBytes : Option ℕ
  unreviewedBytes : Option ℕ

/-- The error of a refresh. -/
structure ReserveRefreshRejected where
  reason : String
  accountType : Option String := none
  layout : Option LayoutDetails := none

/-- What is decoded of an account. -/
abbrev Values := List (String × PyValue)

/-- What is done elsewhere: the text of a key, a digest, and `decode_account`, of an account of the type. -/
structure Decoding where
  pubkey : List UInt8 → String
  sha256 : List UInt8 → String
  decodeAccount : AccountType → List UInt8 → Option Values

/-- The values, what remains, and how many bytes were looked at. -/
structure Reading where
  values : Values
  tail : List UInt8
  reviewedBytes : ℕ

namespace Decoding

variable (d : Decoding)

def layoutDetails (raw : List UInt8) (reviewedBytes : Option ℕ) : LayoutDetails where
  accountBytes := raw.length
  sampleBytes := (raw.take 4096).length
  sampleSha256 := d.sha256 (raw.take 4096)
  reviewedBytes
  unreviewedBytes := reviewedBytes.map (raw.length - ·)

/-- `raise ReserveRefreshRejected("unsupported_account_layout", …)`. -/
def unsupported {α : Type} (type : AccountType) (raw : List UInt8) (reviewedBytes : Option ℕ) : Except ReserveRefreshRejected α :=
  .error ⟨"unsupported_account_layout", some type.name, some (d.layoutDetails raw reviewedBytes)⟩

/-- The values of the fields that were appended. -/
def extended (extension : List UInt8) (values : Values) : AccountType → Values
  | .feeConfig =>
    setItem values "exotic_flat_fees" (.dict
      [("lp_fee_bps", .int (ofLittleEndian (extension.take 8))),
        ("protocol_fee_bps", .int (ofLittleEndian ((extension.drop 8).take 8))),
        ("creator_fee_bps", .int (ofLittleEndian ((extension.drop 16).take 8)))])
  | .global | .globalConfig =>
    setItem (setItem values "creator_fee_configurable" (.bool (extension.getD 0 0 ≠ 0)))
      "max_configurable_creator_fee_bps" (.int (ofLittleEndian (extension.drop 1)))
  | .bondingCurve | .pool =>
    setItem (setItem values "creator_fee_bps" (.int (ofLittleEndian (extension.take 8))))
      "can_edit_creator_fee" (.bool (extension.getD 8 0 ≠ 0))

/-- The fields that were appended. An account of before has none of them, and they are zero. -/
def readExtension (type : AccountType) (raw : List UInt8) (r : Reading) : Except ReserveRefreshRejected Reading :=
  let reviewedBytes := if r.tail = [] then r.reviewedBytes else r.reviewedBytes + type.size
  if r.tail ≠ [] ∧ r.tail.length < type.size then d.unsupported type raw (some reviewedBytes)
  else
    let extension := if r.tail = [] then replicate type.size 0 else r.tail.take type.size
    if type.flag extension ∉ [0, 1] then d.unsupported type raw (some reviewedBytes)
    else .ok ⟨extended extension r.values type, r.tail.drop type.size, reviewedBytes⟩

/-- The values of the holder rewards of a `Global`. -/
def rewarded (authority : String) (enabled : Bool) (values : Values) : Values :=
  setItem (setItem values "holder_reward_claim_authority" (.str authority)) "is_holder_reward_enabled" (.bool enabled)

/-- The authority and the flag behind the fields of a `Global`. -/
def readAuthority (type : AccountType) (raw : List UInt8) (r : Reading) : Except ReserveRefreshRejected Reading :=
  let values := rewarded nativeSolMint false r.values
  if 33 ≤ r.tail.length then
    if r.tail.getD 32 0 ∉ [0, 1] then d.unsupported type raw (some (r.reviewedBytes + 33))
    else .ok ⟨rewarded (d.pubkey (r.tail.take 32)) (r.tail.getD 32 0 ≠ 0) values, r.tail.drop 33, r.reviewedBytes + 33⟩
  else if anyByte r.tail then d.unsupported type raw (some (r.reviewedBytes + 33))
  else .ok { r with values }

/-- The flag behind the fields of a curve or a pool. -/
def readFlag (type : AccountType) (raw : List UInt8) (r : Reading) : Except ReserveRefreshRejected Reading :=
  let values := setItem r.values "is_holder_reward" (.bool false)
  match r.tail with
  | [] => .ok { r with values }
  | flag :: tail =>
    if flag ∉ [0, 1] then d.unsupported type raw (some (r.reviewedBytes + 1))
    else .ok ⟨setItem values "is_holder_reward" (.bool (flag ≠ 0)), tail, r.reviewedBytes + 1⟩

/-- The holder rewards, behind the fields that were appended. -/
def readRewards (type : AccountType) (raw : List UInt8) (r : Reading) : Except ReserveRefreshRejected Reading :=
  match type with
  | .global => d.readAuthority type raw r
  | .bondingCurve | .pool => d.readFlag type raw r
  | .feeConfig | .globalConfig => .ok r

/-- What is left has to be room that is not used. -/
def finish (type : AccountType) (raw : List UInt8) (r : Reading) : Except ReserveRefreshRejected Values :=
  if anyByte r.tail then
    .error ⟨"unreviewed_account_extension", some type.name, some (d.layoutDetails raw (some r.reviewedBytes))⟩
  else .ok (setItem r.values "_remaining_bytes" (.int r.tail.length))

/-- `int(values.get("_remaining_bytes", 0))`. -/
def remainingBytes (values : Values) : ℕ :=
  match getItem values "_remaining_bytes" with
  | some (.int n) => n.toNat
  | _ => 0

/-- What `_decoded` does with what remains. -/
def readTail (type : AccountType) (raw : List UInt8) (r : Reading) : Except ReserveRefreshRejected Values :=
  (d.readExtension type raw r).bind fun r => (d.readRewards type raw r).bind (d.finish type raw)

/-- The values, or why there are none. -/
def decoded (type : AccountType) (raw : List UInt8) : Except ReserveRefreshRejected Values :=
  match d.decodeAccount type raw with
  | none => d.unsupported type raw none
  | some values =>
    let reviewedBytes := raw.length - remainingBytes values
    d.readTail type raw ⟨values, raw.drop reviewedBytes, reviewedBytes⟩

/-- The extensions of a vault, from the offset on. -/
def walkVault (seen : List ℕ) : List UInt8 → Except ReserveRefreshRejected Unit
  | kind₀ :: kind₁ :: length₀ :: length₁ :: rest =>
    if !anyByte (kind₀ :: kind₁ :: length₀ :: length₁ :: rest) then .ok ()
    else if ofLittleEndian [kind₀, kind₁] ≠ 7 ∨ ofLittleEndian [length₀, length₁] ≠ 0 ∨ ofLittleEndian [kind₀, kind₁] ∈ seen then
      .error ⟨"unreviewed_vault_extension", none, none⟩
    else walkVault (ofLittleEndian [kind₀, kind₁] :: seen) rest
  | rest => if anyByte rest then .error ⟨"malformed_vault_extension", none, none⟩ else .ok ()

/-- The checks of `_vault` before the account is decoded. -/
def vaultLayout (owner : String) (raw : List UInt8) : Except ReserveRefreshRejected Unit :=
  if owner = splTokenProgram then
    if raw.length ≠ 165 then .error ⟨"unsupported_vault_layout", none, none⟩ else .ok ()
  else if owner = token2022Program then
    if 165 < raw.length then
      if raw.getD 165 0 ≠ 2 then .error ⟨"unsupported_vault_layout", none, none⟩ else walkVault [] (raw.drop 166)
    else .ok ()
  else .error ⟨"unsupported_token_program", none, none⟩

def vault (owner : String) (raw : List UInt8) (mint authority : String) : Except ReserveRefreshRejected ℕ := do
  vaultLayout owner raw
  -- `decode_token_account` knows two states, and only one of them is good
  if raw.length < 165 ∨ raw.getD 108 0 ≠ 1 ∨ d.pubkey (raw.take 32) ≠ mint ∨ d.pubkey ((raw.drop 32).take 32) ≠ authority then
    .error ⟨"vault_mapping_or_state_invalid", none, none⟩
  else return ofLittleEndian ((raw.drop 64).take 8)

end Decoding

/-! ### The layout -/

/-- What may be behind the fields that were appended. -/
def AccountType.Rewards (more : List UInt8) : AccountType → Prop
  | .global => (∃ padding, more = replicate padding 0) ∨
      ∃ authority flag padding, more = authority ++ flag :: replicate padding 0 ∧ authority.length = 32 ∧ flag ∈ [0, 1]
  | .bondingCurve | .pool => more = [] ∨ ∃ flag padding, more = flag :: replicate padding 0 ∧ flag ∈ [0, 1]
  | .feeConfig | .globalConfig => ∃ padding, more = replicate padding 0

/-- What may be behind the prefix: nothing, or the fields that were appended, all of them, and what may be behind them. -/
def AccountType.Reviewed (type : AccountType) (rest : List UInt8) : Prop :=
  rest = [] ∨ ∃ extension more, rest = extension ++ more ∧ extension.length = type.size ∧ type.flag extension ∈ [0, 1] ∧
    type.Rewards more

/-- The same, but for the number of bytes that remain. -/
def SameValues (values values' : Values) : Prop :=
  ∀ key, key ≠ "_remaining_bytes" → getItem values' key = getItem values key

namespace Decoding

variable (d : Decoding)

/-- An account is decoded by a prefix of it, whatever remains, and the number of bytes that remain is reported. -/
def DecodesPrefix : Prop :=
  ∀ type raw values, d.decodeAccount type raw = some values → ∃ idl rest, raw = idl ++ rest ∧
    getItem values "_remaining_bytes" = some (.int rest.length) ∧
    ∀ rest', d.decodeAccount type (idl ++ rest') = some (setItem values "_remaining_bytes" (.int rest'.length))

/-- The account is decoded, and these are the bytes after the prefix. -/
def After (type : AccountType) (raw rest : List UInt8) : Prop :=
  ∃ idl values, raw = idl ++ rest ∧ d.decodeAccount type raw = some values ∧
    getItem values "_remaining_bytes" = some (.int rest.length)

end Decoding

/-! ### Values -/

theorem getItem_setItem (values : Values) (key key' : String) (value : PyValue) :
    getItem (setItem values key value) key' = if key' = key then some value else getItem values key' := by
  have hbeq : ∀ name, (key' == name) = decide (key' = name) := fun name => beq_eq_decide ..
  unfold getItem setItem
  induction values with
  | nil => by_cases h : key' = key <;> simp [Table.upsertRows, lookup_cons, hbeq, h]
  | cons item values ih =>
    obtain ⟨name, old⟩ := item
    rw [Table.upsertRows]
    split_ifs with hname h h
    · simp [h]
    · obtain rfl : name = key := hname
      simp [lookup_cons, hbeq, h]
    · have hother : (key == name) = false := beq_eq_false_iff_ne.mpr (Ne.symm hname)
      rw [if_pos h, h] at ih
      simp [lookup_cons, ih, h, hother]
    · simp [lookup_cons, ih, h]

theorem SameValues.setItem {values values' : Values} (h : SameValues values values') (key : String) (value : PyValue) :
    SameValues (setItem values key value) (setItem values' key value) := by
  intro key' hkey
  rw [getItem_setItem, getItem_setItem, h key' hkey]

theorem sameValues_remaining {values values' : Values} (h : SameValues values values') (n n' : PyValue) :
    SameValues (setItem values "_remaining_bytes" n) (setItem values' "_remaining_bytes" n') := by
  intro key hkey
  rw [getItem_setItem, getItem_setItem, if_neg hkey, if_neg hkey, h key hkey]

/-! ### What is accepted -/

namespace Decoding

variable {d : Decoding} {type : AccountType} {raw : List UInt8} {r : Reading}

theorem padding_iff {bytes : List UInt8} : anyByte bytes = false ↔ ∃ padding, bytes = replicate padding 0 := by
  constructor
  · intro h
    exact ⟨_, anyByte_eq_false.mp h⟩
  · rintro ⟨padding, rfl⟩
    exact anyByte_replicate padding

theorem finish_ok_iff : (∃ out, d.finish type raw r = .ok out) ↔ anyByte r.tail = false := by
  unfold finish
  split_ifs with h <;> simp [h]

theorem bind_finish_ok_iff {x : Except ReserveRefreshRejected Reading} :
    (∃ out, x.bind (d.finish type raw) = .ok out) ↔ ∃ r', x = .ok r' ∧ anyByte r'.tail = false := by
  cases x with
  | error e => simp [Except.bind]
  | ok r' => simpa [Except.bind] using finish_ok_iff

theorem readAuthority_ok_iff : (∃ r', d.readAuthority type raw r = .ok r' ∧ anyByte r'.tail = false) ↔
    AccountType.global.Rewards r.tail := by
  unfold readAuthority
  dsimp only
  constructor
  · rintro ⟨r', hread, hroom⟩
    split_ifs at hread with hlong hflag hany
    · cases hread
      obtain ⟨padding, hpadding⟩ := padding_iff.mp hroom
      refine .inr ⟨r.tail.take 32, r.tail.getD 32 0, padding, ?_, by simp; omega, hflag⟩
      rw [← hpadding, getD_eq_getElem?_getD, getElem?_eq_getElem (by omega), Option.getD_some,
        ← drop_eq_getElem_cons, take_append_drop]
    · cases hread
    · cases hread
    · exact .inl (padding_iff.mp (Bool.eq_false_of_not_eq_true hany))
  · rintro (⟨padding, hpadding⟩ | ⟨authority, flag, padding, htail, hlength, hflag⟩)
    · have hzero : r.tail.getD 32 0 = 0 := by
        rw [hpadding, getD_eq_getElem?_getD, getElem?_replicate]
        split_ifs <;> rfl
      by_cases hlong : 33 ≤ r.tail.length
      · rw [if_pos hlong, if_neg (by rw [hzero]; simp)]
        exact ⟨_, rfl, padding_iff.mpr ⟨padding - 33, by rw [hpadding, drop_replicate]⟩⟩
      · rw [if_neg hlong, if_neg (by rw [padding_iff.mpr ⟨padding, hpadding⟩]; exact Bool.false_ne_true)]
        exact ⟨_, rfl, padding_iff.mpr ⟨padding, hpadding⟩⟩
    · have hget : r.tail.getD 32 0 = flag := by
        rw [htail, getD_eq_getElem?_getD, getElem?_append_right hlength.le, hlength]
        rfl
      have hdrop : r.tail.drop 33 = replicate padding 0 := by
        rw [htail, append_cons]
        exact drop_left' (by simp [hlength])
      rw [if_pos (by rw [htail]; simp; omega), if_neg (by rw [hget]; exact not_not.mpr hflag)]
      exact ⟨_, rfl, padding_iff.mpr ⟨padding, hdrop⟩⟩

theorem readFlag_ok_iff : (∃ r', d.readFlag type raw r = .ok r' ∧ anyByte r'.tail = false) ↔
    AccountType.pool.Rewards r.tail := by
  obtain ⟨values, tail, reviewedBytes⟩ := r
  cases tail with
  | nil => exact iff_of_true ⟨_, rfl, rfl⟩ (.inl rfl)
  | cons flag tail =>
    constructor
    · rintro ⟨r', hread, hroom⟩
      simp only [readFlag] at hread
      split_ifs at hread with hflag
      · cases hread
        obtain ⟨padding, hpadding⟩ := padding_iff.mp hroom
        exact .inr ⟨flag, padding, congrArg _ hpadding, hflag⟩
      · cases hread
    · rintro (hnil | ⟨flag', padding, htail, hflag⟩)
      · cases hnil
      · cases htail
        simp only [readFlag, if_neg (not_not.mpr hflag)]
        exact ⟨_, rfl, anyByte_replicate padding⟩

theorem readRewards_ok_iff : (∃ r', d.readRewards type raw r = .ok r' ∧ anyByte r'.tail = false) ↔ type.Rewards r.tail := by
  cases type with
  | feeConfig | globalConfig => simp [readRewards, AccountType.Rewards, padding_iff]
  | bondingCurve | pool => exact readFlag_ok_iff
  | global => exact readAuthority_ok_iff

/-- **What remains is accepted exactly**. -/
theorem readTail_ok_iff : (∃ out, d.readTail type raw r = .ok out) ↔ type.Reviewed r.tail := by
  have hzero : type.flag (replicate type.size 0) ∈ [0, 1] := by cases type <;> decide
  have hrest (r' : Reading) : (∃ out, (d.readRewards type raw r').bind (d.finish type raw) = .ok out) ↔ type.Rewards r'.tail :=
    bind_finish_ok_iff.trans readRewards_ok_iff
  unfold readTail readExtension AccountType.Reviewed
  dsimp only
  by_cases hnil : r.tail = []
  · rw [if_neg (by simp [hnil]), if_pos hnil, if_pos hnil, if_neg (not_not.mpr hzero)]
    refine iff_of_true ((hrest _).mpr ?_) (.inl hnil)
    show type.Rewards (r.tail.drop type.size)
    rw [hnil, drop_nil]
    cases type
    · exact ⟨0, rfl⟩
    · exact .inl ⟨0, rfl⟩
    · exact ⟨0, rfl⟩
    · exact .inl rfl
    · exact .inl rfl
  · rw [if_neg hnil, if_neg hnil]
    constructor
    · intro h
      split_ifs at h with hshort hflag
      · obtain ⟨out, h⟩ := h
        cases h
      · rw [not_and, not_lt] at hshort
        exact .inr ⟨r.tail.take type.size, r.tail.drop type.size, (take_append_drop _ _).symm,
          by rw [length_take, Nat.min_eq_left (hshort hnil)], hflag, (hrest _).mp h⟩
      · obtain ⟨out, h⟩ := h
        cases h
    · rintro (h | ⟨extension, more, htail, hlength, hflag, hmore⟩)
      · exact absurd h hnil
      · have htake : r.tail.take type.size = extension := by rw [htail]; exact take_left' hlength
        have hdrop : r.tail.drop type.size = more := by rw [htail]; exact drop_left' hlength
        rw [if_neg (by rw [htail]; simp [hlength]), htake, if_neg (not_not.mpr hflag)]
        exact (hrest _).mpr (hdrop ▸ hmore)

variable {rest : List UInt8}

theorem decoded_of_after (h : d.After type raw rest) : ∃ values, d.decodeAccount type raw = some values ∧
    d.decoded type raw = d.readTail type raw ⟨values, rest, raw.length - rest.length⟩ := by
  obtain ⟨idl, values, hraw, hdecoded, hremaining⟩ := h
  refine ⟨values, hdecoded, ?_⟩
  have hlength : raw.length - rest.length = idl.length := by simp [hraw]
  have hdrop : raw.drop idl.length = rest := by rw [hraw]; exact drop_left' rfl
  have hcount : remainingBytes values = rest.length := by
    rw [remainingBytes, hremaining]
    rfl
  rw [decoded, hdecoded]
  dsimp only
  rw [hcount, hlength, hdrop]

theorem decoded_ok_iff (h : d.DecodesPrefix) :
    (∃ out, d.decoded type raw = .ok out) ↔ ∃ rest, d.After type raw rest ∧ type.Reviewed rest := by
  constructor
  · rintro ⟨out, hout⟩
    cases hdecoded : d.decodeAccount type raw with
    | none =>
      rw [decoded, hdecoded] at hout
      cases hout
    | some values =>
      obtain ⟨idl, rest, hraw, hremaining, -⟩ := h type raw values hdecoded
      have hafter : d.After type raw rest := ⟨idl, values, hraw, hdecoded, hremaining⟩
      obtain ⟨values', -, heq⟩ := decoded_of_after hafter
      exact ⟨rest, hafter, readTail_ok_iff.mp ⟨out, heq ▸ hout⟩⟩
  · rintro ⟨rest, hafter, hreviewed⟩
    obtain ⟨values, -, heq⟩ := decoded_of_after hafter
    rw [heq]
    exact readTail_ok_iff.mpr hreviewed

/-! ### Room -/

theorem reviewed_append (h : type.Reviewed rest) (hrest : rest ≠ []) (n : ℕ) :
    type.Reviewed (rest ++ replicate n 0) := by
  obtain ⟨extension, more, rfl, hlength, hflag, hmore⟩ := h.resolve_left hrest
  refine .inr ⟨extension, more ++ replicate n 0, append_assoc .., hlength, hflag, ?_⟩
  have hroom : ∀ padding, replicate padding 0 ++ replicate n (0 : UInt8) = replicate (padding + n) 0 :=
    fun padding => replicate_append_replicate
  have hflagged : (more = [] ∨ ∃ flag padding, more = flag :: replicate padding 0 ∧ flag ∈ [0, 1]) →
      more ++ replicate n 0 = [] ∨
        ∃ flag padding, more ++ replicate n 0 = flag :: replicate padding 0 ∧ flag ∈ [0, 1] := by
    rintro (rfl | ⟨flag, padding, rfl, hflag⟩)
    · cases n with
      | zero => exact .inl rfl
      | succ n => exact .inr ⟨0, n, rfl, by simp⟩
    · exact .inr ⟨flag, padding + n, congrArg _ (hroom padding), hflag⟩
  cases type with
  | feeConfig | globalConfig =>
    obtain ⟨padding, rfl⟩ := hmore
    exact ⟨_, hroom padding⟩
  | bondingCurve | pool => exact hflagged hmore
  | global =>
    rcases hmore with ⟨padding, rfl⟩ | ⟨authority, flag, padding, rfl, hlength, hflag⟩
    · exact .inl ⟨_, hroom padding⟩
    · exact .inr ⟨authority, flag, padding + n, by simp [hroom], hlength, hflag⟩

variable {raw' : List UInt8} {r' out out' : Reading} {n : ℕ}

theorem sameValues_extended {values values' : Values} (h : SameValues values values') (extension : List UInt8) :
    SameValues (extended extension values type) (extended extension values' type) := by
  cases type with
  | feeConfig => exact h.setItem _ _
  | _ => exact (h.setItem _ _).setItem _ _

theorem readAuthority_same (hpubkey : d.pubkey (replicate 32 0) = nativeSolMint) (hvalues : SameValues r.values r'.values)
    (htail : r'.tail = r.tail ++ replicate n 0) (h : d.readAuthority type raw r = .ok out)
    (h' : d.readAuthority type raw' r' = .ok out') : SameValues out.values out'.values := by
  have hdefault := (hvalues.setItem "holder_reward_claim_authority" (.str nativeSolMint)).setItem
    "is_holder_reward_enabled" (.bool false)
  unfold readAuthority at h h'
  dsimp only at h h'
  split_ifs at h with hlong hflag hany
  · cases h
    have hlong' : 33 ≤ r'.tail.length := by simp [htail]; omega
    have hget : r'.tail.getD 32 0 = r.tail.getD 32 0 := by
      simp [htail, getD_eq_getElem?_getD, getElem?_append_left (show 32 < r.tail.length by omega)]
    have htake : r'.tail.take 32 = r.tail.take 32 := by
      rw [htail, take_append_of_le_length (by omega)]
    rw [if_pos hlong', hget, if_neg (not_not.mpr hflag), htake] at h'
    cases h'
    exact (hdefault.setItem _ _).setItem _ _
  · cases h
  · cases h
  · cases h
    obtain ⟨padding, hpadding⟩ := padding_iff.mp (Bool.eq_false_of_not_eq_true hany)
    rw [hpadding, replicate_append_replicate] at htail
    split_ifs at h' with hlong' hflag' hany'
    · cases h'
      have htake : r'.tail.take 32 = replicate 32 0 := by
        rw [htail, length_replicate] at hlong'
        rw [htail, take_replicate, Nat.min_eq_left (by omega)]
      have hget : r'.tail.getD 32 0 = 0 := by
        rw [htail, getD_eq_getElem?_getD, getElem?_replicate]
        split_ifs <;> rfl
      intro key hkey
      have hsame := hdefault key hkey
      simp only [rewarded, htake, hget, hpubkey, getItem_setItem, ne_eq, not_true_eq_false, decide_false] at hsame ⊢
      split_ifs <;> simp_all
    · cases h'
    · cases h'
    · cases h'
      exact hdefault

theorem readFlag_same (hvalues : SameValues r.values r'.values) (htail : r'.tail = r.tail ++ replicate n 0)
    (h : d.readFlag type raw r = .ok out) (h' : d.readFlag type raw' r' = .ok out') : SameValues out.values out'.values := by
  have hdefault := hvalues.setItem "is_holder_reward" (.bool false)
  obtain ⟨values, tail, reviewedBytes⟩ := r
  obtain ⟨values', tail', reviewedBytes'⟩ := r'
  dsimp only at htail hdefault
  subst htail
  cases tail with
  | nil =>
    cases h
    cases n with
    | zero =>
      cases h'
      exact hdefault
    | succ n =>
      cases h'
      intro key hkey
      have hsame := hdefault key hkey
      simp only [getItem_setItem, ne_eq, not_true_eq_false, decide_false] at hsame ⊢
      split_ifs <;> simp_all
  | cons flag tail =>
    simp only [readFlag, cons_append] at h h'
    split_ifs at h h' with hflag
    · cases h
      cases h'
      exact hdefault.setItem _ _
    · cases h

theorem readTail_same (hpubkey : d.pubkey (replicate 32 0) = nativeSolMint) (hvalues : SameValues r.values r'.values)
    (hnil : r.tail ≠ []) (htail : r'.tail = r.tail ++ replicate n 0) {result result' : Values}
    (h : d.readTail type raw r = .ok result) (h' : d.readTail type raw' r' = .ok result') : SameValues result result' := by
  have hnil' : r'.tail ≠ [] := by simp [htail, hnil]
  unfold readTail at h h'
  obtain ⟨r₁, hextension, h⟩ := Checked.bind_eq_ok.mp h
  obtain ⟨r₂, hrewards, hfinish⟩ := Checked.bind_eq_ok.mp h
  obtain ⟨r₁', hextension', h'⟩ := Checked.bind_eq_ok.mp h'
  obtain ⟨r₂', hrewards', hfinish'⟩ := Checked.bind_eq_ok.mp h'
  -- the fields that were appended are all there, and the same
  have hfields : SameValues r₁.values r₁'.values ∧ r₁'.tail = r₁.tail ++ replicate n 0 := by
    unfold readExtension at hextension hextension'
    dsimp only at hextension hextension'
    rw [if_neg hnil, if_neg hnil] at hextension
    rw [if_neg hnil', if_neg hnil'] at hextension'
    split_ifs at hextension with hshort hflag
    · cases hextension
    · rw [not_and, not_lt] at hshort
      have htake : r'.tail.take type.size = r.tail.take type.size := by
        rw [htail, take_append_of_le_length (hshort hnil)]
      have hdrop : r'.tail.drop type.size = r.tail.drop type.size ++ replicate n 0 := by
        rw [htail, drop_append_of_le_length (hshort hnil)]
      have hlong : ¬(r'.tail ≠ [] ∧ r'.tail.length < type.size) := by
        have := hshort hnil
        simp [htail]
        omega
      rw [if_neg hlong, htake, if_neg (not_not.mpr hflag)] at hextension'
      cases hextension
      cases hextension'
      exact ⟨sameValues_extended hvalues _, hdrop⟩
    · cases hextension
  have hvalues₂ : SameValues r₂.values r₂'.values := by
    cases type with
    | feeConfig | globalConfig =>
      cases hrewards
      cases hrewards'
      exact hfields.1
    | bondingCurve | pool => exact readFlag_same hfields.1 hfields.2 hrewards hrewards'
    | global => exact readAuthority_same hpubkey hfields.1 hfields.2 hrewards hrewards'
  unfold finish at hfinish hfinish'
  split_ifs at hfinish hfinish'
  cases hfinish
  cases hfinish'
  exact sameValues_remaining hvalues₂ _ _

/-- Zeros behind an account do not matter. -/
theorem decoded_append ( hprefix : d.DecodesPrefix) (hpubkey : d.pubkey (replicate 32 0) = nativeSolMint)
    (hafter : d.After type raw rest) (hrest : rest ≠ []) {values : Values} (h : d.decoded type raw = .ok values)
    (n : ℕ) : ∃ values', d.decoded type (raw ++ replicate n 0) = .ok values' ∧ SameValues values values' := by
  obtain ⟨read, hread, heq⟩ := decoded_of_after hafter
  have hreviewed : type.Reviewed rest := readTail_ok_iff.mp ⟨values, heq ▸ h⟩
  obtain ⟨idl, read', hraw, hread', hremaining⟩ := hafter
  obtain ⟨idl', rest', hraw', hremaining', hany⟩ := hprefix type raw read' hread'
  have hlength : rest'.length = rest.length := by
    rw [hremaining] at hremaining'
    simpa using hremaining'.symm
  obtain ⟨rfl, rfl⟩ : idl' = idl ∧ rest' = rest := append_inj' (hraw'.symm.trans hraw) hlength
  have hmore := hany (rest' ++ replicate n 0)
  rw [← append_assoc, ← hraw] at hmore
  have hafter' : d.After type (raw ++ replicate n 0) (rest' ++ replicate n 0) :=
    ⟨idl', _, by rw [hraw, append_assoc], hmore, by rw [getItem_setItem, if_pos rfl]⟩
  obtain ⟨values', hvalues'⟩ := (decoded_ok_iff hprefix).mpr ⟨_, hafter', reviewed_append hreviewed hrest n⟩
  obtain ⟨more, hmore', heq'⟩ := decoded_of_after hafter'
  rw [hmore] at hmore'
  cases hmore'
  rw [hread] at hread'
  cases hread'
  refine ⟨values', hvalues', readTail_same hpubkey ?_ hrest rfl (heq ▸ h) (heq' ▸ hvalues')⟩
  intro key hkey
  show getItem (Anchor.setItem read "_remaining_bytes" _) key = getItem read key
  rw [getItem_setItem, if_neg hkey]

/-! ### Vaults -/

theorem walkVault_seen {seen : List ℕ} (hseen : 7 ∈ seen) {area : List UInt8} (h : walkVault seen area = .ok ()) :
    anyByte area = false := by
  unfold walkVault at h
  split at h
  · split_ifs at h with hany hbad
    · simpa using hany
    · rw [not_or, not_or, not_not] at hbad
      exact absurd (hbad.1 ▸ hseen) hbad.2.2
  · split_ifs at h with hany
    exact Bool.eq_false_of_not_eq_true hany

/-- What a vault may have for extensions: room, and an `ImmutableOwner` before it. -/
theorem walkVault_ok {area : List UInt8} (h : walkVault [] area = .ok ()) :
    ∃ padding, area = replicate padding 0 ∨ area = [7, 0, 0, 0] ++ replicate padding 0 := by
  unfold walkVault at h
  split at h
  · next kind₀ kind₁ length₀ length₁ rest =>
    split_ifs at h with hany hbad
    · obtain ⟨padding, hpadding⟩ := padding_iff.mp (by simpa using hany)
      exact ⟨padding, .inl hpadding⟩
    · rw [not_or, not_or, not_not, not_not] at hbad
      obtain ⟨padding, hpadding⟩ := padding_iff.mp (walkVault_seen (hbad.1 ▸ mem_cons_self) h)
      have hkind := littleEndian_pair kind₀ kind₁
      have hlength := littleEndian_pair length₀ length₁
      rw [hbad.1] at hkind
      rw [hbad.2.1] at hlength
      cases hkind
      cases hlength
      exact ⟨padding, .inr (by rw [hpadding]; rfl)⟩
  · split_ifs at h with hany
    obtain ⟨padding, hpadding⟩ := padding_iff.mp (Bool.eq_false_of_not_eq_true hany)
    exact ⟨padding, .inl hpadding⟩

theorem vault_ok {mint authority : String} {amount : ℕ} (h : d.vault token2022Program raw mint authority = .ok amount) :
    ∃ padding, raw.drop 166 = replicate padding 0 ∨ raw.drop 166 = [7, 0, 0, 0] ++ replicate padding 0 := by
  obtain ⟨⟨⟩, hlayout, -⟩ := Checked.bind_eq_ok.mp h
  unfold vaultLayout at hlayout
  rw [if_neg (by decide), if_pos rfl] at hlayout
  split_ifs at hlayout with hlong htype
  · exact walkVault_ok hlayout
  · rw [drop_eq_nil_of_le (by omega)]
    exact ⟨0, .inl rfl⟩

end Decoding

/-! ### The law -/

/-- **Reserve accounts are accepted exactly**: nothing may remain behind what the IDL knows, or all of the fields that
were appended and what is known to be behind them. Room that is added behind these changes only the number of bytes that
remain; and a vault of Token-2022 has at most an `ImmutableOwner`. -/
theorem reserve_layouts_exact (d : Decoding) ( hprefix : d.DecodesPrefix)
    (hpubkey : d.pubkey (replicate 32 0) = nativeSolMint) :
    (∀ type raw, (∃ values, d.decoded type raw = .ok values) ↔ ∃ rest, d.After type raw rest ∧ type.Reviewed rest) ∧
    (∀ type raw rest values n, d.After type raw rest → rest ≠ [] → d.decoded type raw = .ok values →
      ∃ values', d.decoded type (raw ++ replicate n 0) = .ok values' ∧ SameValues values values') ∧
    ∀ raw mint authority amount, d.vault token2022Program raw mint authority = .ok amount →
      ∃ padding, raw.drop 166 = replicate padding 0 ∨ raw.drop 166 = [7, 0, 0, 0] ++ replicate padding 0 :=
  ⟨fun _ _ => Decoding.decoded_ok_iff hprefix, fun _ _ _ _ n hafter hrest h => Decoding.decoded_append hprefix hpubkey hafter hrest h n,
    fun _ _ _ _ h => Decoding.vault_ok h⟩

def curveValues (idl : List UInt8) : Values :=
  (["virtual_token_reserves", "virtual_quote_reserves", "real_token_reserves", "real_quote_reserves",
    "token_total_supply"].zipIdx 1).map (fun (name, i) => (name, .int (ofLittleEndian ((idl.drop (8 * i)).take 8)))) ++
  [("complete", .bool (idl.getD 48 0 ≠ 0)), ("creator", .str nativeSolMint), ("is_mayhem_mode", .bool (idl.getD 81 0 ≠ 0)),
    ("is_cashback_coin", .bool (idl.getD 82 0 ≠ 0)), ("quote_mint", .str nativeSolMint)]

def curveDecoding : Decoding where
  pubkey _ := nativeSolMint
  sha256 _ := ""
  decodeAccount
    | .bondingCurve, raw =>
      if raw.length < 115 ∨ raw.take 8 ≠ [23, 183, 248, 55, 96, 216, 172, 96] then none
      else some (setItem (curveValues (raw.take 115)) "_remaining_bytes" (.int (raw.drop 115).length))
    | _, _ => none

theorem curveDecoding_append {idl : List UInt8} (hlength : idl.length = 115)
    (hmarked : idl.take 8 = [23, 183, 248, 55, 96, 216, 172, 96]) (rest : List UInt8) :
    curveDecoding.decodeAccount .bondingCurve (idl ++ rest) =
      some (setItem (curveValues idl) "_remaining_bytes" (.int rest.length)) := by
  have hfits : ¬((idl ++ rest).length < 115 ∨ (idl ++ rest).take 8 ≠ [23, 183, 248, 55, 96, 216, 172, 96]) := by
    rw [take_append_of_le_length (by omega), not_or, not_not]
    exact ⟨by simp [hlength], hmarked⟩
  simp only [curveDecoding]
  rw [if_neg hfits, take_left' hlength, drop_left' hlength]

theorem curveDecoding_decodesPrefix : curveDecoding.DecodesPrefix := by
  intro type raw values h
  cases type with
  | bondingCurve =>
    simp only [curveDecoding] at h
    split_ifs at h with hbad
    cases h
    rw [not_or, not_lt, not_not] at hbad
    have hmarked : (raw.take 115).take 8 = [23, 183, 248, 55, 96, 216, 172, 96] := by
      rw [take_take]
      exact hbad.2
    refine ⟨raw.take 115, raw.drop 115, (take_append_drop _ _).symm, by rw [getItem_setItem, if_pos rfl], fun rest' => ?_⟩
    rw [curveDecoding_append (by rw [length_take, Nat.min_eq_left hbad.1]) hmarked]
    simp [setItem, curveValues, Table.upsertRows]
  | _ => cases h

/-- The curve of a mint. -/
theorem reserve_layouts_sample : ∃ values, curveDecoding.decoded .bondingCurve
    ([23, 183, 248, 55, 96, 216, 172, 96] ++ replicate 107 0 ++ [30, 0, 0, 0, 0, 0, 0, 0, 1, 1, 0]) = .ok values :=
  ((reserve_layouts_exact curveDecoding curveDecoding_decodesPrefix rfl).1 _ _).mpr
    ⟨_, ⟨_, _, rfl, curveDecoding_append (by simp) (by simp) _, by rw [getItem_setItem, if_pos rfl]⟩,
      .inr ⟨[30, 0, 0, 0, 0, 0, 0, 0, 1], [1, 0], rfl, rfl, by decide, .inr ⟨1, 1, rfl, by decide⟩⟩⟩

end SignalArcade.Market
