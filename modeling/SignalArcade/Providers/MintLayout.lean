import SignalArcade.Lib.Bytes

/-!
# Mint accounts

Before a token is traded its mint account is looked at. One of Token-2022 has, after the base of a mint and its padding,
a sequence of extensions, each with its type and its length, and any of them may be dangerous: `_token_2022_extension_types`
has to see all of them, or none.
-/

namespace SignalArcade.Providers

open Bytes List

/-! ### The source -/

def splTokenProgram : String := "TokenkegQfeZyiNwAJbNbGKPFXCWuBvf9Ss623VQ5DA"

def token2022Program : String := "TokenzQdBNbLqP5VEhdkAS6EPFLC1PHnBqCXEpPxuEb"

/-- `SAFE_TOKEN_2022_MINT_EXTENSIONS`: the metadata and the pointer to it. -/
def safeToken2022MintExtensions : List ℤ := [18, 19]

def safeToken2022ExtensionLengths (extensionType : ℕ) : Option ℕ := if extensionType = 18 then some 64 else none

def maxMintAccountBytes : ℕ := 65536

/-- `any(…)`. -/
def anyByte (bytes : List UInt8) : Bool := bytes.any (· ≠ 0)

/-- The loop of `_token_2022_extension_types`, over the bytes from the cursor on: `none` is `[-1]`. -/
def readExtensions (result : List ℕ) : List UInt8 → Option (List ℕ)
  | type₀ :: type₁ :: length₀ :: length₁ :: rest =>
    if ofLittleEndian [type₀, type₁] = 0 then
      if ofLittleEndian [length₀, length₁] ≠ 0 ∨ anyByte rest then none else some result
    else if rest.length < ofLittleEndian [length₀, length₁] then none
    else if ∃ expected ∈ safeToken2022ExtensionLengths (ofLittleEndian [type₀, type₁]),
        ofLittleEndian [length₀, length₁] ≠ expected then none
    else if ofLittleEndian [type₀, type₁] ∈ result then none
    else readExtensions (result ++ [ofLittleEndian [type₀, type₁]]) (rest.drop (ofLittleEndian [length₀, length₁]))
  | rest => if anyByte rest then none else some result
termination_by rest => rest.length
decreasing_by
  simp only [length_drop, length_cons]
  omega

/-- The types; `-1` where the layout is wrong. -/
def token2022ExtensionTypes (raw : List UInt8) : List ℤ :=
  if raw.length = 82 then []
  else if raw.length < 166 ∨ anyByte ((raw.drop 82).take 83) ∨ raw.getD 165 0 ≠ 1 then [-1]
  else
    match readExtensions [] (raw.drop 166) with
    | none => [-1]
    | some result => result.map (↑)

/-- What is looked at of an account. -/
structure MintReading where
  mintAuthorityTag : ℕ
  supply : ℕ
  decimals : ℕ
  initialized : Bool
  freezeAuthorityTag : ℕ
  extensionTypes : List ℤ
  layoutValid : Bool
  supportedOwner : Bool

namespace MintReading

variable (reading : MintReading)

def validAuthorityTags : Bool := reading.mintAuthorityTag ∈ [0, 1] ∧ reading.freezeAuthorityTag ∈ [0, 1]

def hasUnreviewedExtensions : Bool := reading.extensionTypes.any fun item => item ∉ safeToken2022MintExtensions

def safe : Bool :=
  [reading.supportedOwner, reading.layoutValid, reading.validAuthorityTags, reading.initialized, decide (0 < reading.supply),
    decide (reading.decimals = 6), decide (reading.mintAuthorityTag = 0), decide (reading.freezeAuthorityTag = 0),
    !reading.hasUnreviewedExtensions].all id

def failures : List String :=
  (if !reading.supportedOwner then ["unsupported_account_owner"] else []) ++
  (if reading.supportedOwner && !reading.layoutValid then ["malformed_mint_account_layout"] else []) ++
  (if !reading.validAuthorityTags || !reading.initialized then ["malformed_or_uninitialized_mint"] else []) ++
  (if reading.supply ≤ 0 then ["zero_supply"] else []) ++
  (if reading.decimals ≠ 6 then ["unsupported_decimals_v1"] else []) ++
  (if reading.mintAuthorityTag ≠ 0 then ["mint_authority_active"] else []) ++
  (if reading.freezeAuthorityTag ≠ 0 then ["freeze_authority_active"] else []) ++
  (if reading.hasUnreviewedExtensions then ["token_2022_extensions_not_reviewed_v1"] else [])

end MintReading

/-- What `_mint_safety_from_raw` looks at. -/
def readMint (owner : Option String) (raw : List UInt8) : MintReading :=
  let extensionTypes := if owner = some token2022Program then token2022ExtensionTypes raw else []
  { mintAuthorityTag := ofLittleEndian (raw.take 4)
    supply := ofLittleEndian ((raw.drop 36).take 8)
    decimals := (raw.getD 44 0).toNat
    initialized := raw.getD 45 0 = 1
    freezeAuthorityTag := ofLittleEndian ((raw.drop 46).take 4)
    extensionTypes
    layoutValid := owner = some splTokenProgram ∧ raw.length = 82 ∨ owner = some token2022Program ∧ -1 ∉ extensionTypes
    supportedOwner := owner = some splTokenProgram ∨ owner = some token2022Program }

/-- What is reported of an account. -/
inductive MintSafety where
  /-- It is not safe, and nothing is read of it. -/
  | rejected (reason : String) (owner : Option String)
  | assessed (safe : Bool) (owner : Option String) (supply decimals : ℕ)
    (mintAuthorityRevoked freezeAuthorityRevoked hasUnreviewedExtensions : Bool) (extensionTypes : List ℤ)
    (failures : List String)

/-- `["safe"]`. -/
def MintSafety.safe : MintSafety → Bool
  | rejected .. => false
  | assessed safe .. => safe

/-- `["failures"]`, if there is such a list. -/
def MintSafety.failures? : MintSafety → Option (List String)
  | rejected .. => none
  | assessed _ _ _ _ _ _ _ _ failures => some failures

/-- `_mint_safety_from_raw`. An owner that is no text is `none`. -/
def mintSafetyFromRaw (owner : Option String) (raw : List UInt8) : MintSafety :=
  if raw.length < 82 ∨ maxMintAccountBytes < raw.length then .rejected "mint_account_size_outside_supported_range" owner
  else
    let reading := readMint owner raw
    .assessed reading.safe owner reading.supply reading.decimals (reading.mintAuthorityTag = 0)
      (reading.freezeAuthorityTag = 0) reading.hasUnreviewedExtensions reading.extensionTypes reading.failures

/-! ### The layout -/

/-- An extension of a mint: its type and its data. -/
structure Extension where
  type : ℕ
  data : List UInt8
  type_pos : 0 < type
  type_lt : type < 65536
  length_lt : data.length < 65536

namespace Extension

/-- Its bytes: the type, the length and the data. -/
def bytes (e : Extension) : List UInt8 := littleEndian 2 e.type ++ littleEndian 2 e.data.length ++ e.data

/-- The data is as long as the type says. -/
def HasRequiredLength (e : Extension) : Prop := ∀ expected ∈ safeToken2022ExtensionLengths e.type, e.data.length = expected

end Extension

/-- The bytes are a sequence of extensions, of different types, and padding. -/
structure Extensions (bytes : List UInt8) (extensions : List Extension) : Prop where
  padded : ∃ padding, bytes = extensions.flatMap Extension.bytes ++ replicate padding 0
  nodup : (extensions.map Extension.type).Nodup
  required : ∀ e ∈ extensions, e.HasRequiredLength

/-- A mint with extensions of these types: the base alone, or the base, 83 zeros, the type of the account, and them. -/
def MintLayout (raw : List UInt8) (types : List ℕ) : Prop :=
  raw.length = 82 ∧ types = [] ∨
    ∃ base area extensions, base.length = 82 ∧ raw = base ++ replicate 83 0 ++ 1 :: area ∧
      Extensions area extensions ∧ types = extensions.map Extension.type

/-- A mint that is safe: of a known program, all of its extensions reviewed, initialised, with a supply, with six decimals,
and nobody may mint or freeze. -/
structure SafeMint (owner : Option String) (raw : List UInt8) : Prop where
  owner_supported : owner = some splTokenProgram ∨ owner = some token2022Program
  layout : ∃ types, MintLayout raw types ∧ (owner = some splTokenProgram → raw.length = 82) ∧
    ∀ type ∈ types, (type : ℤ) ∈ safeToken2022MintExtensions
  initialized : raw.getD 45 0 = 1
  supply_pos : 0 < ofLittleEndian ((raw.drop 36).take 8)
  decimals : (raw.getD 44 0).toNat = 6
  no_mint_authority : ofLittleEndian (raw.take 4) = 0
  no_freeze_authority : ofLittleEndian ((raw.drop 46).take 4) = 0

/-! ### What is read of extensions -/

theorem anyByte_eq_false {bytes : List UInt8} : anyByte bytes = false ↔ bytes = replicate bytes.length 0 := by
  simp [anyByte, eq_replicate_iff]

theorem anyByte_replicate (n : ℕ) : anyByte (replicate n 0) = false :=
  anyByte_eq_false.mpr (by rw [length_replicate])

theorem littleEndian_pair (a b : UInt8) : littleEndian 2 (ofLittleEndian [a, b]) = [a, b] := by
  have ha := a.toNat_lt
  have hb := b.toNat_lt
  simp only [littleEndian, ofLittleEndian]
  rw [show (a.toNat + 256 * (b.toNat + 256 * 0)) / 256 = b.toNat by omega, UInt8.ofNat_toNat]
  congr 1
  apply UInt8.toNat_inj.mp
  rw [UInt8.toNat_ofNat']
  omega

theorem ofLittleEndian_pair_lt (a b : UInt8) : ofLittleEndian [a, b] < 65536 := by
  have ha := a.toNat_lt
  have hb := b.toNat_lt
  simp only [ofLittleEndian]
  omega

theorem readExtensions_padding (result : List ℕ) (n : ℕ) : readExtensions result (replicate n 0) = some result := by
  match n with
  | 0 | 1 | 2 | 3 => simp [readExtensions, anyByte, replicate]
  | n + 4 => simp [readExtensions, replicate_succ, ofLittleEndian, anyByte_replicate]

theorem readExtensions_bytes {result : List ℕ} {e : Extension} (hrequired : e.HasRequiredLength) (hnew : e.type ∉ result)
    (rest : List UInt8) : readExtensions result (e.bytes ++ rest) = readExtensions (result ++ [e.type]) rest := by
  have htype : ofLittleEndian (littleEndian 2 e.type) = e.type := ofLittleEndian_littleEndian e.type_lt
  have hlength : ofLittleEndian (littleEndian 2 e.data.length) = e.data.length := ofLittleEndian_littleEndian e.length_lt
  simp only [littleEndian] at htype hlength
  have hpos := e.type_pos
  have hexpected : ¬∃ expected ∈ safeToken2022ExtensionLengths e.type, e.data.length ≠ expected := by
    rintro ⟨expected, hmem, hne⟩
    exact hne (hrequired expected hmem)
  have hroom : ¬(e.data ++ rest).length < e.data.length := by simp
  simp only [Extension.bytes, littleEndian, cons_append, nil_append]
  rw [readExtensions, htype, hlength, if_neg hpos.ne', if_neg hroom, if_neg hexpected, if_neg hnew, drop_left]

theorem readExtensions_of_extensions {extensions : List Extension} {result : List ℕ} (padding : ℕ)
    (hnodup : (result ++ extensions.map Extension.type).Nodup) (hrequired : ∀ e ∈ extensions, e.HasRequiredLength) :
    readExtensions result (extensions.flatMap Extension.bytes ++ replicate padding 0) =
      some (result ++ extensions.map Extension.type) := by
  induction extensions generalizing result with
  | nil =>
    rw [map_nil, append_nil]
    exact readExtensions_padding result padding
  | cons e extensions ih =>
    have hnew : e.type ∉ result := by
      intro hmem
      exact (nodup_append.mp hnodup).2.2 _ hmem _ mem_cons_self rfl
    rw [flatMap_cons, append_assoc, readExtensions_bytes (hrequired e mem_cons_self) hnew]
    rw [map_cons, append_cons] at hnodup
    rw [map_cons, append_cons result _ (extensions.map Extension.type)]
    exact ih hnodup fun e' he' => hrequired e' (mem_cons_of_mem _ he')

theorem extensions_of_readExtensions {result types : List ℕ} {rest : List UInt8} (h : readExtensions result rest = some types)
    (hresult : result.Nodup) :
    ∃ (extensions : List Extension) (padding : ℕ), rest = extensions.flatMap Extension.bytes ++ replicate padding 0 ∧
      types = result ++ extensions.map Extension.type ∧ types.Nodup ∧ ∀ e ∈ extensions, e.HasRequiredLength := by
  induction result, rest using readExtensions.induct with
  | case1 result type₀ type₁ length₀ length₁ rest htype hbad => simp [readExtensions, htype, hbad] at h
  | case2 result type₀ type₁ length₀ length₁ rest htype hgood =>
    -- padding, of four zeros at least
    rw [readExtensions, if_pos htype, if_neg hgood, Option.some_inj] at h
    subst h
    rw [not_or, not_not, Bool.not_eq_true, anyByte_eq_false] at hgood
    have htypes := littleEndian_pair type₀ type₁
    have hlengths := littleEndian_pair length₀ length₁
    rw [htype] at htypes
    rw [hgood.1] at hlengths
    cases htypes
    cases hlengths
    refine ⟨[], rest.length + 4, ?_, (append_nil _).symm, hresult, nofun⟩
    rw [flatMap_nil, nil_append]
    conv_lhs => rw [hgood.2]
    rfl
  | case3 result type₀ type₁ length₀ length₁ rest htype hshort => simp [readExtensions, htype, hshort] at h
  | case4 result type₀ type₁ length₀ length₁ rest htype hroom hlength =>
    rw [readExtensions, if_neg htype, if_neg hroom, if_pos hlength] at h
    cases h
  | case5 result type₀ type₁ length₀ length₁ rest htype hroom hlength hseen =>
    rw [readExtensions, if_neg htype, if_neg hroom, if_neg hlength, if_pos hseen] at h
    cases h
  | case6 result type₀ type₁ length₀ length₁ rest htype hroom hlength hnew ih =>
    rw [readExtensions, if_neg htype, if_neg hroom, if_neg hlength, if_neg hnew] at h
    have hnodup : (result ++ [ofLittleEndian [type₀, type₁]]).Nodup := by
      simpa [nodup_append, hresult] using fun type hmem => ne_of_mem_of_not_mem hmem hnew
    obtain ⟨extensions, padding, hrest, htypes, hdistinct, hrequired⟩ := ih h hnodup
    have hdata : (rest.take (ofLittleEndian [length₀, length₁])).length = ofLittleEndian [length₀, length₁] := by
      rw [length_take]
      omega
    let e : Extension :=
      { type := ofLittleEndian [type₀, type₁]
        data := rest.take (ofLittleEndian [length₀, length₁])
        type_pos := Nat.pos_of_ne_zero htype
        type_lt := ofLittleEndian_pair_lt type₀ type₁
        length_lt := hdata.trans_lt (ofLittleEndian_pair_lt length₀ length₁) }
    have hbytes : e.bytes = type₀ :: type₁ :: length₀ :: length₁ :: rest.take (ofLittleEndian [length₀, length₁]) := by
      simp only [e, Extension.bytes, hdata, littleEndian_pair, cons_append, nil_append]
    refine ⟨e :: extensions, padding, ?_, ?_, hdistinct, ?_⟩
    · rw [flatMap_cons, append_assoc, ← hrest, hbytes]
      simp
    · rw [htypes, map_cons, append_assoc]
      rfl
    · intro e' he'
      rcases mem_cons.mp he' with rfl | he'
      · intro expected hmem
        by_contra hne
        exact hlength ⟨expected, hmem, hdata ▸ hne⟩
      · exact hrequired e' he'
  | case7 result rest hfew hbad =>
    rw [readExtensions.eq_2 _ _ hfew, if_pos hbad] at h
    cases h
  | case8 result rest hfew hgood =>
    rw [readExtensions.eq_2 _ _ hfew, if_neg hgood, Option.some_inj] at h
    rw [Bool.not_eq_true, anyByte_eq_false] at hgood
    exact ⟨[], rest.length, by simpa using hgood, by simpa using h.symm, h ▸ hresult, nofun⟩

/-- **All extensions are read, or none**. -/
theorem readExtensions_iff {area : List UInt8} {types : List ℕ} :
    readExtensions [] area = some types ↔ ∃ extensions, Extensions area extensions ∧ types = extensions.map Extension.type := by
  constructor
  · intro h
    obtain ⟨extensions, padding, harea, htypes, hnodup, hrequired⟩ := extensions_of_readExtensions h nodup_nil
    rw [nil_append] at htypes
    exact ⟨extensions, ⟨⟨padding, harea⟩, htypes ▸ hnodup, hrequired⟩, htypes⟩
  · rintro ⟨extensions, ⟨⟨padding, rfl⟩, hnodup, hrequired⟩, rfl⟩
    have hread := @readExtensions_of_extensions extensions [] padding hnodup hrequired
    exact hread

/-! ### What is read of an account -/

variable {raw : List UInt8}

theorem framed_iff :
    ¬(raw.length < 166 ∨ anyByte ((raw.drop 82).take 83) ∨ raw.getD 165 0 ≠ 1) ↔
      ∃ base, base.length = 82 ∧ raw = base ++ replicate 83 0 ++ 1 :: raw.drop 166 := by
  constructor
  · intro h
    rw [not_or, not_or, not_lt, Bool.not_eq_true, anyByte_eq_false, not_not] at h
    obtain ⟨hlength, hzeros, htype⟩ := h
    have hget : raw[165]? = some 1 := by
      rw [getElem?_eq_getElem (by omega)]
      rw [getD_eq_getElem?_getD, getElem?_eq_getElem (by omega), Option.getD_some] at htype
      rw [htype]
    have hzeros' : (raw.drop 82).take 83 = replicate 83 0 := by
      rw [hzeros]
      congr 1
      rw [length_take, length_drop]
      omega
    have htail : raw.drop 165 = 1 :: raw.drop 166 := by
      rw [drop_eq_getElem_cons (show 165 < raw.length by omega)]
      congr 1
      rw [getElem?_eq_getElem (by omega), Option.some_inj] at hget
      exact hget
    refine ⟨raw.take 82, by rw [length_take]; omega, ?_⟩
    calc raw = raw.take 82 ++ ((raw.drop 82).take 83 ++ (raw.drop 82).drop 83) := by
          rw [take_append_drop, take_append_drop]
      _ = raw.take 82 ++ replicate 83 0 ++ 1 :: raw.drop 166 := by
          rw [hzeros', drop_drop, htail, append_assoc]
  · rintro ⟨base, hbase, hraw⟩
    have hlength := congrArg List.length hraw
    simp only [length_append, length_replicate, length_cons, length_drop] at hlength
    rw [not_or, not_or, not_lt, Bool.not_eq_true, not_not]
    refine ⟨by omega, ?_, ?_⟩
    · rw [hraw, append_assoc, drop_left' hbase, take_left' (length_replicate ..)]
      exact anyByte_replicate 83
    · rw [hraw, getD_eq_getElem?_getD, getElem?_append_right (by simp [hbase])]
      simp [hbase]

theorem mintLayout_iff {types : List ℕ} (hbase : raw.length ≠ 82) :
    MintLayout raw types ↔ ¬(raw.length < 166 ∨ anyByte ((raw.drop 82).take 83) ∨ raw.getD 165 0 ≠ 1) ∧
      readExtensions [] (raw.drop 166) = some types := by
  rw [framed_iff, readExtensions_iff]
  constructor
  · rintro (⟨h, -⟩ | ⟨base, area, extensions, hlength, hraw, hextensions, htypes⟩)
    · exact absurd h hbase
    · have harea : raw.drop 166 = area := by
        rw [hraw, append_cons]
        exact drop_left' (by simp [hlength])
      rw [harea]
      exact ⟨⟨base, hlength, hraw⟩, extensions, hextensions, htypes⟩
  · rintro ⟨⟨base, hlength, hraw⟩, extensions, hextensions, htypes⟩
    exact .inr ⟨base, _, extensions, hlength, hraw, hextensions, htypes⟩

theorem neg_one_notMem_cast (types : List ℕ) : (-1 : ℤ) ∉ types.map ((↑) : ℕ → ℤ) := by
  simp only [mem_map, not_exists, not_and]
  intro type _
  omega

/-- **The types that are read are those of the layout**. -/
theorem token2022ExtensionTypes_iff {types : List ℕ} :
    token2022ExtensionTypes raw = types.map (↑) ↔ MintLayout raw types := by
  have hinj : Function.Injective (List.map ((↑) : ℕ → ℤ)) := map_injective_iff.mpr Nat.cast_injective
  have hnone : [-1] ≠ types.map ((↑) : ℕ → ℤ) := fun h => neg_one_notMem_cast types (h ▸ mem_cons_self)
  unfold token2022ExtensionTypes
  by_cases hbase : raw.length = 82
  · rw [if_pos hbase]
    constructor
    · intro h
      exact .inl ⟨hbase, map_eq_nil_iff.mp h.symm⟩
    · rintro (⟨-, rfl⟩ | ⟨base, area, extensions, hlength, hraw, -⟩)
      · rfl
      · have hlong := congrArg List.length hraw
        simp only [length_append, length_replicate, length_cons] at hlong
        omega
  · rw [if_neg hbase, mintLayout_iff hbase]
    split_ifs with hframed
    · exact iff_of_false hnone fun h => h.1 hframed
    · cases readExtensions [] (raw.drop 166) with
      | none => exact iff_of_false hnone fun h => by cases h.2
      | some types' =>
        rw [hinj.eq_iff, Option.some_inj]
        exact (and_iff_right hframed).symm

theorem neg_one_notMem_iff : -1 ∉ token2022ExtensionTypes raw ↔ ∃ types, MintLayout raw types := by
  constructor
  · intro h
    have hcases : token2022ExtensionTypes raw = [-1] ∨ ∃ types : List ℕ, token2022ExtensionTypes raw = types.map (↑) := by
      unfold token2022ExtensionTypes
      split_ifs
      · exact .inr ⟨[], rfl⟩
      · exact .inl rfl
      · cases readExtensions [] (raw.drop 166) with
        | none => exact .inl rfl
        | some types => exact .inr ⟨types, rfl⟩
    rcases hcases with hbad | ⟨types, hread⟩
    · exact absurd (hbad ▸ mem_cons_self) h
    · exact ⟨types, token2022ExtensionTypes_iff.mp hread⟩
  · rintro ⟨types, h⟩
    rw [token2022ExtensionTypes_iff.mpr h]
    exact neg_one_notMem_cast types

/-! ### The law -/

theorem MintReading.safe_iff (reading : MintReading) : reading.safe = true ↔ reading.failures = [] := by
  simp only [safe, failures, all_cons, all_nil, id_eq, Bool.and_true, Bool.and_eq_true, Bool.not_eq_true',
    decide_eq_true_eq, append_eq_nil_iff, ite_eq_right_iff, cons_ne_nil, imp_false, Bool.or_eq_true, not_or,
    not_and, Bool.not_eq_false, Bool.not_eq_true, not_le, not_not]
  tauto

/-- **Mint layouts are accepted exactly, and mint safety fails closed**: the types that are read are those of the
extensions of the account, in their order, and -1 is read of what has no layout; what is reported safe is, and has no
failures. -/
theorem mint_layout_and_safety (owner : Option String) (raw : List UInt8) :
    (∀ types : List ℕ, token2022ExtensionTypes raw = types.map (↑) ↔ MintLayout raw types) ∧
    (-1 ∉ token2022ExtensionTypes raw ↔ ∃ types, MintLayout raw types) ∧
    ((mintSafetyFromRaw owner raw).safe = true → SafeMint owner raw) ∧
    ((mintSafetyFromRaw owner raw).safe = true ↔
      82 ≤ raw.length ∧ raw.length ≤ maxMintAccountBytes ∧ (mintSafetyFromRaw owner raw).failures? = some []) := by
  refine ⟨fun types => token2022ExtensionTypes_iff, neg_one_notMem_iff, ?_, ?_⟩
  · unfold mintSafetyFromRaw
    split_ifs with hsize
    · intro h
      cases h
    · intro h
      replace h : (readMint owner raw).safe = true := h
      simp only [MintReading.safe, readMint, all_cons, all_nil, id_eq, Bool.and_true, Bool.and_eq_true,
        decide_eq_true_eq, Bool.not_eq_true'] at h
      obtain ⟨howner, hlayout, -, hinitialized, hsupply, hdecimals, hmint, hfreeze, hreviewed⟩ := h
      refine ⟨howner, ?_, hinitialized, of_decide_eq_true hsupply, of_decide_eq_true hdecimals, of_decide_eq_true hmint, of_decide_eq_true hfreeze⟩
      rcases hlayout with ⟨hspl, hlength⟩ | ⟨htoken, hread⟩
      · exact ⟨[], .inl ⟨hlength, rfl⟩, fun _ => hlength, nofun⟩
      · rw [if_pos htoken] at hread
        obtain ⟨types, hlayout⟩ := neg_one_notMem_iff.mp hread
        refine ⟨types, hlayout, fun hspl => ?_, fun type hmem => ?_⟩
        · rw [htoken] at hspl
          exact absurd hspl (by decide)
        · rw [MintReading.hasUnreviewedExtensions, if_pos htoken, token2022ExtensionTypes_iff.mpr hlayout,
            any_eq_false] at hreviewed
          simpa using hreviewed _ (mem_map_of_mem hmem)
  · unfold mintSafetyFromRaw
    split_ifs with hsize
    · refine iff_of_false Bool.false_ne_true fun h => ?_
      cases h.2.2
    · rw [not_or, not_lt, not_lt] at hsize
      refine (MintReading.safe_iff (readMint owner raw)).trans ?_
      simp [hsize, MintSafety.failures?]

end SignalArcade.Providers
