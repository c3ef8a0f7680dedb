import SignalArcade.Lib.Readers
import SignalArcade.Providers.AnchorDecoder

/-!
# The Anchor decoder inverts the encoding

Values of the types that the decoder supports, their Borsh encoding, and what the decoder makes of them. `Typed` says
which values are of which types, nested to a depth that is given along.

That a value is read back is proved along the reader (`Readers.Inverts`): the value itself, whatever comes after it, and
nothing of an encoding that is cut off.
-/

namespace SignalArcade.Anchor

open Bytes Readers List

/-! ### Values and their encoding -/

/-- A value of an IDL type. -/
inductive Value where
  | unsigned (width n : ℕ)
  | signed (width : ℕ) (n : ℤ)
  | bool (b : Bool)
  | string (s : String)
  | bytes (bytes : List UInt8)
  | pubkey (bytes : List UInt8)
  /-- Nothing, as an `option` or as a `coption`. -/
  | absent (coption : Bool)
  | present (coption : Bool) (value : Value)
  | vec (items : List Value)
  | array (items : List Value)
  | struct (names : List String) (items : List Value)
  /-- A variant of an enum, without or with fields. -/
  | unit (index : ℕ) (name : String)
  | tuple (index : ℕ) (name : String) (items : List Value)

def utf8Bytes (s : String) : List UInt8 := s.toByteArray.data.toList

mutual

/-- The encoding of a value. -/
def encode : Value → List UInt8
  | .unsigned width n => littleEndian width n
  | .signed width n => littleEndian width (twosComplement width n)
  | .bool b => [if b then 1 else 0]
  | .string s => littleEndian 4 (utf8Bytes s).length ++ utf8Bytes s
  | .bytes bytes => littleEndian 4 bytes.length ++ bytes
  | .pubkey bytes => bytes
  | .absent coption => littleEndian (if coption then 4 else 1) 0
  | .present coption value => littleEndian (if coption then 4 else 1) 1 ++ encode value
  | .vec items => littleEndian 4 items.length ++ encodeAll items
  | .array items => encodeAll items
  | .struct _ items => encodeAll items
  | .unit index _ => littleEndian 1 index
  | .tuple index _ items => littleEndian 1 index ++ encodeAll items

/-- One after the other. -/
def encodeAll : List Value → List UInt8
  | [] => []
  | value :: values => encode value ++ encodeAll values

end

mutual

/-- What the decoder makes of a value. -/
def render (ext : Externals) : Value → PyValue
  | .unsigned _ n => .int n
  | .signed _ n => .int n
  | .bool b => .bool b
  | .string s => .str s
  | .bytes bytes => .str (b64encode bytes)
  | .pubkey bytes => .str (b58encode ext bytes)
  | .absent _ => .none
  | .present _ value => render ext value
  | .vec items => .list (renderAll ext items)
  | .array items => .list (renderAll ext items)
  | .struct names items => .dict (names.zip (renderAll ext items))
  | .unit _ name => .str name
  | .tuple _ name items => .dict [("variant", .str name), ("fields", .list (renderAll ext items))]

/-- One by one. -/
def renderAll (ext : Externals) : List Value → List PyValue
  | [] => []
  | value :: values => render ext value :: renderAll ext values

end

def namedFields (fields : List (String × TypeSpec)) : List Field := fields.map fun field => ⟨some field.1, field.2⟩

def optionOf (coption : Bool) (inner : TypeSpec) : TypeSpec := if coption then .coption inner else .option inner

/-- The values are of the types, one by one, and are nested no deeper than the number says. -/
inductive Typed (types : Types) : ℕ → List TypeSpec → List Value → Prop where
  | nil {n : ℕ} : Typed types n [] []
  | unsigned {n width k : ℕ} {name : String} {specs : List TypeSpec} {values : List Value}
      (hname : integerFormat name.toLower = some (false, width)) (hk : k < 256 ^ width)
      (hrest : Typed types (n + 1) specs values) :
      Typed types (n + 1) (.primitive name :: specs) (.unsigned width k :: values)
  | signed {n width : ℕ} {k : ℤ} {name : String} {specs : List TypeSpec} {values : List Value}
      (hname : integerFormat name.toLower = some (true, width)) (hlow : -(256 ^ width : ℤ) ≤ 2 * k)
      (hhigh : 2 * k < 256 ^ width) (hrest : Typed types (n + 1) specs values) :
      Typed types (n + 1) (.primitive name :: specs) (.signed width k :: values)
  | bool {n : ℕ} {b : Bool} {name : String} {specs : List TypeSpec} {values : List Value}
      (hname : name.toLower = "bool") (hrest : Typed types (n + 1) specs values) :
      Typed types (n + 1) (.primitive name :: specs) (.bool b :: values)
  | string {n : ℕ} {s name : String} {specs : List TypeSpec} {values : List Value} (hname : name.toLower = "string")
      (hlength : (utf8Bytes s).length ≤ 1000000) (hrest : Typed types (n + 1) specs values) :
      Typed types (n + 1) (.primitive name :: specs) (.string s :: values)
  | bytes {n : ℕ} {bytes : List UInt8} {name : String} {specs : List TypeSpec} {values : List Value}
      (hname : name.toLower = "bytes") (hlength : bytes.length ≤ 1000000) (hrest : Typed types (n + 1) specs values) :
      Typed types (n + 1) (.primitive name :: specs) (.bytes bytes :: values)
  | pubkey {n : ℕ} {bytes : List UInt8} {name : String} {specs : List TypeSpec} {values : List Value}
      (hname : name.toLower = "pubkey" ∨ name.toLower = "publickey") (hlength : bytes.length = 32)
      (hrest : Typed types (n + 1) specs values) :
      Typed types (n + 1) (.primitive name :: specs) (.pubkey bytes :: values)
  | absent {n : ℕ} {coption : Bool} {inner : TypeSpec} {specs : List TypeSpec} {values : List Value}
      (hrest : Typed types (n + 1) specs values) :
      Typed types (n + 1) (optionOf coption inner :: specs) (.absent coption :: values)
  | present {n : ℕ} {coption : Bool} {inner : TypeSpec} {value : Value} {specs : List TypeSpec} {values : List Value}
      (hvalue : Typed types n [inner] [value]) (hrest : Typed types (n + 1) specs values) :
      Typed types (n + 1) (optionOf coption inner :: specs) (.present coption value :: values)
  | vec {n : ℕ} {inner : TypeSpec} {items : List Value} {specs : List TypeSpec} {values : List Value}
      (hlength : items.length ≤ 100000) (hitems : Typed types n (replicate items.length inner) items)
      (hrest : Typed types (n + 1) specs values) : Typed types (n + 1) (.vec inner :: specs) (.vec items :: values)
  | array {n length : ℕ} {inner : TypeSpec} {items : List Value} {specs : List TypeSpec} {values : List Value}
      (hitems : Typed types n (replicate length inner) items) (hrest : Typed types (n + 1) specs values) :
      Typed types (n + 1) (.array inner length :: specs) (.array items :: values)
  | struct {n : ℕ} {name : String} {fields : List (String × TypeSpec)} {items : List Value} {specs : List TypeSpec}
      {values : List Value} (hname : types name = some (.struct (namedFields fields)))
      (hnodup : (fields.map Prod.fst).Nodup) (hitems : Typed types n (fields.map Prod.snd) items)
      (hrest : Typed types (n + 1) specs values) :
      Typed types (n + 1) (.defined name :: specs) (.struct (fields.map Prod.fst) items :: values)
  | unit {n index : ℕ} {name variant : String} {variants : List Variant} {specs : List TypeSpec} {values : List Value}
      (hname : types name = some (.enum variants)) (hvariant : variants[index]? = some ⟨variant, []⟩)
      (hindex : index < 256) (hrest : Typed types (n + 1) specs values) :
      Typed types (n + 1) (.defined name :: specs) (.unit index variant :: values)
  | tuple {n index : ℕ} {name variant : String} {variants : List Variant} {field : TypeSpec} {fields : List TypeSpec}
      {items : List Value} {specs : List TypeSpec} {values : List Value} (hname : types name = some (.enum variants))
      (hvariant : variants[index]? = some ⟨variant, field :: fields⟩) (hindex : index < 256)
      (hitems : Typed types n (field :: fields) items) (hrest : Typed types (n + 1) specs values) :
      Typed types (n + 1) (.defined name :: specs) (.tuple index variant items :: values)
  | ofAlias {n : ℕ} {name : String} {inner : TypeSpec} {value : Value} {specs : List TypeSpec} {values : List Value}
      (hname : types name = some (.alias inner)) (hvalue : Typed types n [inner] [value])
      (hrest : Typed types (n + 1) specs values) : Typed types (n + 1) (.defined name :: specs) (value :: values)

/-! ### Readers -/

/-- The error is that of a value that cannot be decoded. -/
def Ends (e : ReadError) : Prop := ∃ message, e = .decode message

theorem take_apply (size : ℕ) (rest : List UInt8) :
    take size rest =
      if rest.length < size then .error (.decode "event payload ended unexpectedly") rest
      else .ok (rest.take size) (rest.drop size) := by
  show (if rest.length < size then throw (.decode "event payload ended unexpectedly")
    else do
      set (rest.drop size)
      return rest.take size : Reader (List UInt8)) rest = _
  split <;> rfl

theorem take_inverts {bytes : List UInt8} {size : ℕ} (h : bytes.length = size) : Inverts Ends (take size) bytes bytes := by
  subst h
  constructor
  · intro rest
    rw [take_apply, if_neg (by simp), take_left, drop_left]
  · intro p hp hne
    have hshort : p.length < bytes.length := lt_of_le_of_ne hp.length_le fun he => hne (hp.eq_of_length he)
    exact ⟨.decode _, p, ⟨_, rfl⟩, by rw [take_apply, if_pos hshort]⟩

theorem takeByte_inverts (n : ℕ) : Inverts Ends takeByte (littleEndian 1 n) (UInt8.ofNat n) :=
  (take_inverts (length_littleEndian 1 n)).bind_pure fun bytes => bytes.headD 0

theorem takeU32_inverts {n : ℕ} (h : n < 4294967296) : Inverts Ends takeU32 (littleEndian 4 n) n := by
  have hread := (take_inverts (length_littleEndian 4 n)).bind_pure fun bytes => ofLittleEndian bytes
  rwa [ofLittleEndian_littleEndian (by simpa using h)] at hread

variable {written : List UInt8}

theorem ite_of_neg {α : Type} {c : Prop} [Decidable c] (h : ¬ c) {x y : Reader α} {a : α}
    (hy : Inverts Ends y written a) : Inverts Ends (if c then x else y) written a := by rwa [if_neg h]

theorem ite_of_pos {α : Type} {c : Prop} [Decidable c] (h : c) {x y : Reader α} {a : α}
    (hx : Inverts Ends x written a) : Inverts Ends (if c then x else y) written a := by rwa [if_pos h]

/-! ### Primitives -/

section Primitives

variable {ext : Externals} {name : String}

theorem unsigned_inverts {width n : ℕ} (hname : integerFormat name.toLower = some (false, width)) (h : n < 256 ^ width) :
    Inverts Ends (readPrimitive ext name) (littleEndian width n) (.int n) := by
  have hread := (take_inverts (length_littleEndian width n)).bind_pure
    fun bytes => PyValue.int (if false then Bytes.signed width (ofLittleEndian bytes) else ofLittleEndian bytes)
  simp only [Bool.false_eq_true, if_false, ofLittleEndian_littleEndian h] at hread
  refine hread.of_eq ?_
  simp only [readPrimitive, hname, Bool.false_eq_true, if_false]

theorem signed_inverts {width : ℕ} {n : ℤ} (hname : integerFormat name.toLower = some (true, width))
    (hlow : -(256 ^ width : ℤ) ≤ 2 * n) (hhigh : 2 * n < 256 ^ width) :
    Inverts Ends (readPrimitive ext name) (littleEndian width (twosComplement width n)) (.int n) := by
  have hread := (take_inverts (length_littleEndian width (twosComplement width n))).bind_pure
    fun bytes => PyValue.int (Bytes.signed width (ofLittleEndian bytes))
  rw [ofLittleEndian_littleEndian (twosComplement_lt width n), signed_twosComplement hlow hhigh] at hread
  refine hread.of_eq ?_
  simp only [readPrimitive, hname, if_true]

theorem bool_inverts {b : Bool} (hname : name.toLower = "bool") :
    Inverts Ends (readPrimitive ext name) [if b then 1 else 0] (.bool b) := by
  have hread : Inverts Ends (takeByte >>= fun value =>
      if value ≠ 0 ∧ value ≠ 1 then throw (.decode "invalid bool") else pure (PyValue.bool (value = 1)) : Reader PyValue)
      (littleEndian 1 (if b then 1 else 0)) (.bool b) := by
    refine append_nil (littleEndian 1 (if b then 1 else 0)) ▸ (takeByte_inverts _).bind (ite_of_neg ?_ ?_)
    · cases b <;> decide
    · cases b <;> exact .pure _
  have hbytes : [if b then (1 : UInt8) else 0] = littleEndian 1 (if b then 1 else 0) := by cases b <;> rfl
  rw [hbytes]
  refine hread.of_eq ?_
  simp only [readPrimitive, hname]
  rfl

theorem decodeUtf8_utf8Bytes (s : String) : decodeUtf8 ext (utf8Bytes s) = s := by
  have hvalid : String.fromUTF8? s.toByteArray = some s := by
    rw [String.fromUTF8?, dif_pos s.isValidUTF8]
    rfl
  unfold decodeUtf8 utf8Bytes
  rw [Array.toArray_toList, hvalid]
  rfl

theorem string_inverts {s : String} (hname : name.toLower = "string") (hlength : (utf8Bytes s).length ≤ 1000000) :
    Inverts Ends (readPrimitive ext name) (littleEndian 4 (utf8Bytes s).length ++ utf8Bytes s) (.str s) := by
  have hread := (takeU32_inverts (show (utf8Bytes s).length < 4294967296 by omega)).bind
    (f := fun length => if 1000000 < length then throw (.decode "unreasonable string length")
      else do
        let bytes ← take length
        return PyValue.str (decodeUtf8 ext bytes))
    (ite_of_neg (by omega) ((take_inverts rfl).bind_pure fun bytes => PyValue.str (decodeUtf8 ext bytes)))
  rw [decodeUtf8_utf8Bytes] at hread
  refine hread.of_eq ?_
  simp only [readPrimitive, hname]
  rfl

theorem bytes_inverts {bytes : List UInt8} (hname : name.toLower = "bytes") (hlength : bytes.length ≤ 1000000) :
    Inverts Ends (readPrimitive ext name) (littleEndian 4 bytes.length ++ bytes) (.str (b64encode bytes)) := by
  have hread := (takeU32_inverts (show bytes.length < 4294967296 by omega)).bind
    (f := fun length => if 1000000 < length then throw (.decode "unreasonable byte length")
      else do
        let bytes ← take length
        return PyValue.str (b64encode bytes))
    (ite_of_neg (by omega) ((take_inverts rfl).bind_pure fun bytes => PyValue.str (b64encode bytes)))
  refine hread.of_eq ?_
  simp only [readPrimitive, hname]
  rfl

theorem pubkey_inverts {bytes : List UInt8} (hname : name.toLower = "pubkey" ∨ name.toLower = "publickey")
    (hlength : bytes.length = 32) : Inverts Ends (readPrimitive ext name) bytes (.str (b58encode ext bytes)) := by
  have hread := (take_inverts hlength).bind_pure fun bytes => PyValue.str (b58encode ext bytes)
  refine hread.of_eq ?_
  rcases hname with hname | hname <;> simp only [readPrimitive, hname] <;> rfl

end Primitives

/-! ### Composites -/

section Composites

variable {ext : Externals} {types : Types} {limit : ℕ} {inner : TypeSpec}

theorem absent_inverts (coption : Bool) :
    Inverts Ends (read ext types (limit + 1) (optionOf coption inner)) (encode (.absent coption)) .none := by
  cases coption with
  | false =>
    have hread : Inverts Ends (do
        let tag ← takeByte
        if tag ≠ 0 then read ext types limit inner else return PyValue.none) (littleEndian 1 0 ++ []) .none :=
      (takeByte_inverts 0).bind (ite_of_neg (by decide) (.pure _))
    rw [append_nil] at hread
    exact hread
  | true =>
    have hread : Inverts Ends (do
        let present ← takeU32
        if present ≠ 0 then read ext types limit inner else return PyValue.none) (littleEndian 4 0 ++ []) .none :=
      (takeU32_inverts (by decide)).bind (ite_of_neg (by decide) (.pure _))
    rw [append_nil] at hread
    exact hread

theorem present_inverts (coption : Bool) {value : Value}
    (h : Inverts Ends (read ext types limit inner) (encode value) (render ext value)) :
    Inverts Ends (read ext types (limit + 1) (optionOf coption inner)) (encode (.present coption value))
      (render ext value) := by
  cases coption with
  | false =>
    exact (takeByte_inverts 1).bind
      (f := fun tag => if tag ≠ 0 then read ext types limit inner else return PyValue.none) (ite_of_pos (by decide) h)
  | true =>
    exact (takeU32_inverts (show 1 < 4294967296 by decide)).bind
      (f := fun present => if present ≠ 0 then read ext types limit inner else return PyValue.none)
      (ite_of_pos (by decide) h)

variable {items : List Value}

theorem vec_inverts (hlength : items.length ≤ 100000)
    (h : Inverts Ends ((replicate items.length inner).mapM (read ext types limit)) (encodeAll items)
      (renderAll ext items)) :
    Inverts Ends (read ext types (limit + 1) (.vec inner)) (encode (.vec items)) (render ext (.vec items)) := by
  have hread := (takeU32_inverts (show items.length < 4294967296 by omega)).bind
    (f := fun length => if 100000 < length then throw (.decode "unreasonable vector length")
      else do
        let items ← (replicate length inner).mapM (read ext types limit)
        return PyValue.list items)
    (ite_of_neg (by omega) (h.bind_pure PyValue.list))
  exact hread

theorem foldlM_readField (read : TypeSpec → Reader PyValue) {fields : List (String × TypeSpec)}
    {before : List (String × PyValue)} (hnodup : (before.map Prod.fst ++ fields.map Prod.fst).Nodup) :
    (namedFields fields).foldlM (readField read) before = do
      let items ← (fields.map Prod.snd).mapM read
      return before ++ (fields.map Prod.fst).zip items := by
  induction fields generalizing before with
  | nil => simp [namedFields]
  | cons field fields ih =>
    obtain ⟨name, type⟩ := field
    have hfresh : ∀ item ∈ before, item.1 ≠ name := by
      intro item hitem he
      rw [nodup_append] at hnodup
      exact hnodup.2.2 item.1 (mem_map_of_mem hitem) name (by simp) he
    have hset : ∀ value, setItem before name value = before ++ [(name, value)] := fun value =>
      Table.upsertRows_fresh hfresh
    have hrest : ∀ value, (namedFields fields).foldlM (readField read) (before ++ [(name, value)]) = do
        let items ← (fields.map Prod.snd).mapM read
        return before ++ [(name, value)] ++ (fields.map Prod.fst).zip items := fun value => ih (by simpa using hnodup)
    simp only [namedFields] at hrest
    simp only [namedFields, map_cons, foldlM_cons, readField, mapM_cons, bind_assoc, pure_bind, hset,
      hrest, zip_cons_cons, append_assoc, singleton_append]

theorem struct_inverts {fields : List (String × TypeSpec)} (hnodup : (fields.map Prod.fst).Nodup)
    (h : Inverts Ends ((fields.map Prod.snd).mapM (read ext types limit)) (encodeAll items) (renderAll ext items)) :
    Inverts Ends (readFields (read ext types limit) (namedFields fields)) (encodeAll items)
      ((fields.map Prod.fst).zip (renderAll ext items)) := by
  have hread := h.bind_pure fun items => [] ++ (fields.map Prod.fst).zip items
  exact hread.of_eq (foldlM_readField _ (by simpa using hnodup))

theorem defined_eq {name : String} {definition : Definition} (hname : types name = some definition) :
    read ext types (limit + 1) (.defined name) = readDefined (read ext types limit) definition := by
  simp only [read, hname]

theorem toNat_ofNat_index {index : ℕ} (h : index < 256) : (UInt8.ofNat index).toNat = index := by
  rw [UInt8.toNat_ofNat']
  exact Nat.mod_eq_of_lt h

theorem unit_inverts {variants : List Variant} {index : ℕ} {variant : String}
    (hvariant : variants[index]? = some ⟨variant, []⟩) (hindex : index < 256) :
    Inverts Ends (readDefined (read ext types limit) (.enum variants)) (encode (.unit index variant))
      (.str variant) := by
  have hvariant' : Inverts Ends (readIndexed (read ext types limit) variants (UInt8.ofNat index)) [] (.str variant) := by
    simp only [readIndexed, toNat_ofNat_index hindex, hvariant]
    exact ite_of_pos rfl (.pure _)
  have hread := (takeByte_inverts index).bind hvariant'
  rw [append_nil] at hread
  exact hread

theorem tuple_inverts {variants : List Variant} {index : ℕ} {variant : String} {field : TypeSpec} {fields : List TypeSpec}
    (hvariant : variants[index]? = some ⟨variant, field :: fields⟩) (hindex : index < 256)
    (h : Inverts Ends ((field :: fields).mapM (read ext types limit)) (encodeAll items) (renderAll ext items)) :
    Inverts Ends (readDefined (read ext types limit) (.enum variants)) (encode (.tuple index variant items))
      (render ext (.tuple index variant items)) := by
  refine (takeByte_inverts index).bind (f := readIndexed (read ext types limit) variants) ?_
  simp only [readIndexed, toNat_ofNat_index hindex, hvariant]
  refine ite_of_neg Bool.false_ne_true ?_
  exact h.bind_pure fun fields => PyValue.dict [("variant", .str variant), ("fields", .list fields)]

theorem singleton_inverts {value : Value}
    (h : Inverts Ends ([inner].mapM (read ext types limit)) (encodeAll [value]) (renderAll ext [value])) :
    Inverts Ends (read ext types limit inner) (encode value) (render ext value) := by
  have hencode : encodeAll [value] = encode value := append_nil _
  rw [hencode] at h
  exact .of_singleton h

/-- **Values are read back.** With whatever comes after them, and not from less. -/
theorem Typed.inverts {n : ℕ} {specs : List TypeSpec} {values : List Value} (h : Typed types n specs values)
    (hlimit : n ≤ limit) : Inverts Ends (specs.mapM (read ext types limit)) (encodeAll values) (renderAll ext values) := by
  obtain ⟨spare, rfl⟩ := Nat.exists_eq_add_of_le' hlimit
  clear hlimit
  induction h with
  | nil => exact .mapM_nil _
  | unsigned hname hk _ ih =>
    exact .mapM_cons (unsigned_inverts hname hk) ih
  | signed hname hlow hhigh _ ih =>
    exact .mapM_cons (signed_inverts hname hlow hhigh) ih
  | bool hname _ ih =>
    exact .mapM_cons (bool_inverts hname) ih
  | string hname hlength _ ih =>
    exact .mapM_cons (string_inverts hname hlength) ih
  | bytes hname hlength _ ih =>
    exact .mapM_cons (bytes_inverts hname hlength) ih
  | pubkey hname hlength _ ih =>
    exact .mapM_cons (pubkey_inverts hname hlength) ih
  | absent _ ih =>
    exact .mapM_cons (absent_inverts _) ih
  | present _ _ ihvalue ih =>
    exact .mapM_cons (present_inverts _ (singleton_inverts ihvalue)) ih
  | vec hlength _ _ ihitems ih =>
    exact .mapM_cons (vec_inverts hlength ihitems) ih
  | array _ _ ihitems ih =>
    exact .mapM_cons (ihitems.bind_pure PyValue.list) ih
  | struct hname hnodup _ _ ihitems ih =>
    refine .mapM_cons (.of_eq ?_ (defined_eq hname)) ih
    exact (struct_inverts hnodup ihitems).bind_pure PyValue.dict
  | unit hname hvariant hindex _ ih =>
    exact .mapM_cons (.of_eq (unit_inverts hvariant hindex) (defined_eq hname)) ih
  | tuple hname hvariant hindex _ _ ihitems ih =>
    exact .mapM_cons (.of_eq (tuple_inverts hvariant hindex ihitems) (defined_eq hname)) ih
  | ofAlias hname _ _ ihvalue ih =>
    exact .mapM_cons (.of_eq (singleton_inverts ihvalue) (defined_eq hname)) ih

end Composites

/-! ### Lines and accounts -/

def dataLine (raw : List UInt8) : String := String.ofList (marker ++ encode64 raw)

theorem splitAfter_append (marker text : List Char) : splitAfter marker (marker ++ text) = some text := by
  cases marker with
  | nil => cases text <;> simp [splitAfter]
  | cons c marker => simp [splitAfter, isPrefixOf_iff_prefix]

theorem strip_eq_self {text : List Char} (h : ∀ c ∈ text, c ∉ whitespace) : strip text = text := by
  have hdrop : ∀ text : List Char, (∀ c ∈ text, c ∉ whitespace) → text.dropWhile (· ∈ whitespace) = text := by
    intro text h
    cases text with
    | nil => rfl
    | cons c text => exact dropWhile_cons_of_neg (by simpa using h c mem_cons_self)
  rw [strip, hdrop text h, hdrop text.reverse fun c hc => h c (mem_reverse.mp hc), reverse_reverse]

theorem decodeLogLine_dataLine (ext : Externals) (limit : ℕ) (decoder : AnchorEventDecoder) (raw : List UInt8)
    (expected : Option String) :
    decodeLogLine ext limit decoder (dataLine raw) expected = decodeEvent ext limit decoder raw expected := by
  have hspace : ∀ c ∈ '=' :: alphabet, c ∉ whitespace := forall_iff_forall_mem.mp (by decide)
  have hstrip : strip (encode64 raw) = encode64 raw := strip_eq_self fun c hc => hspace c (mem_encode64 hc)
  simp only [decodeLogLine, dataLine, String.toList_ofList, splitAfter_append, b64decode, hstrip, decode64_encode64]

variable {ext : Externals} {decoder : AnchorEventDecoder} {n limit : ℕ} {expected : Option String}

theorem mem_of_lookupEntry {δ : Type} {entries : Entries δ} {discriminator : List UInt8} {entry : Entry δ}
    (h : lookupEntry entries expected discriminator = some entry) : entry ∈ entries := by
  unfold lookupEntry at h
  cases expected with
  | some program => exact (Table.get?_eq_some.mp h).1
  | none =>
    dsimp only at h
    split at h
    · next only hfilter =>
      obtain rfl := Option.some.inj h
      exact (mem_filter.mp (hfilter ▸ mem_singleton_self _)).1
    · cases h

theorem take_discriminator {δ : Type} (entry : Entry δ) (bytes : List UInt8) :
    (entry.discriminator ++ bytes).take 8 = entry.discriminator := by
  rw [← entry.discriminator_length, take_left]

theorem drop_discriminator {δ : Type} (entry : Entry δ) (bytes : List UInt8) :
    (entry.discriminator ++ bytes).drop 8 = bytes := by
  rw [← entry.discriminator_length, drop_left]

theorem prefix_discriminator {δ : Type} {entry : Entry δ} {bytes p : List UInt8} (h : p <+: entry.discriminator ++ bytes)
    (hne : p ≠ entry.discriminator ++ bytes) :
    p.length < 8 ∨ ∃ p', p = entry.discriminator ++ p' ∧ p' <+: bytes ∧ p' ≠ bytes := by
  rcases lt_or_ge p.length 8 with hshort | hlong
  · exact .inl hshort
  · have hle : entry.discriminator <+: p :=
      prefix_of_prefix_length_le (prefix_append _ _) h (entry.discriminator_length ▸ hlong)
    obtain ⟨p', rfl⟩ := hle
    exact .inr ⟨p', rfl, (prefix_append_right_inj _).mp h, fun he => hne (he ▸ rfl)⟩

theorem caught_ok {α : Type} {x : Reader α} {a : α} (h : Inverts Ends x written a)
    (s : List UInt8) : caught (x (written ++ s)) = .ok (some (a, s)) := by
  rw [h.reads s]
  rfl

theorem caught_short {α : Type} {x : Reader α} {written p : List UInt8} {a : α} (h : Inverts Ends x written a)
    (hp : p <+: written) (hne : p ≠ written) : caught (x p) = .ok none := by
  obtain ⟨_, rest, ⟨message, rfl⟩, herror⟩ := h.short p hp hne
  rw [herror]
  rfl

/-- An event is read back. -/
theorem decodeEvent_inverts {event : Entry (List Field)}
    (hevent : lookupEntry decoder.events expected event.discriminator = some event)
    {values : List (String × PyValue)}
    (h : Inverts Ends (readFields (read ext event.types limit) event.definition) written values) :
    (∀ s, decodeEvent ext limit decoder (event.discriminator ++ written ++ s) expected =
        .ok (some (withRemaining event values s))) ∧
      ∀ p, p <+: event.discriminator ++ written → p ≠ event.discriminator ++ written →
        decodeEvent ext limit decoder p expected = .ok none := by
  constructor
  · intro s
    have hlong : ¬ (event.discriminator ++ (written ++ s)).length < 8 := by simp [event.discriminator_length]
    rw [append_assoc, decodeEvent, if_neg hlong, take_discriminator, hevent]
    simp only [drop_discriminator, caught_ok h s]
    rfl
  · intro p hp hne
    rcases prefix_discriminator hp hne with hshort | ⟨p', rfl, hp', hne'⟩
    · rw [decodeEvent, if_pos hshort]
    · have hlong : ¬ (event.discriminator ++ p').length < 8 := by simp [event.discriminator_length]
      rw [decodeEvent, if_neg hlong, take_discriminator, hevent]
      simp only [drop_discriminator, caught_short h hp' hne']
      rfl

/-- An account is read back. -/
theorem decodeAccount_inverts {account : Entry Definition}
    (haccount : lookupEntry decoder.accounts expected account.discriminator = some account) {expectedName : Option String}
    (hname : expectedName = none ∨ expectedName = some account.name) {value : PyValue}
    (h : Inverts Ends (readDefined (read ext account.types limit) account.definition) written value) :
    (∀ s, decodeAccount ext limit decoder (account.discriminator ++ written ++ s) expected expectedName =
        .ok (reported account value s)) ∧
      ∀ p, p <+: account.discriminator ++ written → p ≠ account.discriminator ++ written →
        decodeAccount ext limit decoder p expected expectedName = .ok none := by
  have hnamed : ¬ (expectedName ≠ none ∧ expectedName ≠ some account.name) := by
    rcases hname with rfl | rfl <;> simp
  constructor
  · intro s
    have hlong : ¬ (account.discriminator ++ (written ++ s)).length < 8 := by simp [account.discriminator_length]
    rw [append_assoc, decodeAccount, if_neg hlong, take_discriminator, haccount]
    simp only [drop_discriminator, caught_ok h s, if_neg hnamed]
    rfl
  · intro p hp hne
    rcases prefix_discriminator hp hne with hshort | ⟨p', rfl, hp', hne'⟩
    · rw [decodeAccount, if_pos hshort]
    · have hlong : ¬ (account.discriminator ++ p').length < 8 := by simp [account.discriminator_length]
      rw [decodeAccount, if_neg hlong, take_discriminator, haccount]
      simp only [drop_discriminator, caught_short h hp' hne', if_neg hnamed]
      rfl

/-- **Decoding inverts the encoding**, as long as the values are nested no deeper than Python can follow. A value is
read back from its encoding, whatever comes after it, and less than the encoding is not read at all. So the fields of an
event are reported from its line with the number of bytes that are left, and nothing is of a line that is cut off. The
same holds of the accounts whose content is read as a dictionary. -/
theorem decoding_inverts_encoding (ext : Externals) (decoder : AnchorEventDecoder) {n limit : ℕ} (hlimit : n ≤ limit) :
    (∀ types spec value, Typed types n [spec] [value] →
      (∀ s, read ext types limit spec (encode value ++ s) = .ok (render ext value) s) ∧
      ∀ p, p <+: encode value → p ≠ encode value →
        ∃ message rest, read ext types limit spec p = .error (.decode message) rest) ∧
    (∀ expected event, lookupEntry decoder.events expected event.discriminator = some event →
      ∀ fields values, event.definition = namedFields fields → (fields.map Prod.fst).Nodup →
        Typed event.types n (fields.map Prod.snd) values →
        (∀ s, decodeLogLine ext limit decoder (dataLine (event.discriminator ++ encodeAll values ++ s)) expected =
          .ok (some (withRemaining event ((fields.map Prod.fst).zip (renderAll ext values)) s))) ∧
        ∀ p, p <+: event.discriminator ++ encodeAll values → p ≠ event.discriminator ++ encodeAll values →
          decodeLogLine ext limit decoder (dataLine p) expected = .ok none) ∧
    ∀ expected expectedName account, lookupEntry decoder.accounts expected account.discriminator = some account →
      (expectedName = none ∨ expectedName = some account.name) →
      ∀ value, Typed account.types (n + 1) [.defined account.name] [value] →
        (∀ s, decodeAccount ext limit decoder (account.discriminator ++ encode value ++ s) expected expectedName =
          .ok (reported account (render ext value) s)) ∧
        ∀ p, p <+: account.discriminator ++ encode value → p ≠ account.discriminator ++ encode value →
          decodeAccount ext limit decoder p expected expectedName = .ok none := by
  refine ⟨fun types spec value h => ?_, fun expected event hevent fields values hdefinition hnodup h => ?_,
    fun expected expectedName account haccount hname value h => ?_⟩
  · have hread : Inverts Ends (read ext types limit spec) (encode value) (render ext value) :=
      singleton_inverts (h.inverts hlimit)
    refine ⟨hread.reads, fun p hp hne => ?_⟩
    obtain ⟨_, rest, ⟨message, rfl⟩, herror⟩ := hread.short p hp hne
    exact ⟨message, rest, herror⟩
  · have hread : Inverts Ends (readFields (read ext event.types limit) (namedFields fields)) (encodeAll values)
        ((fields.map Prod.fst).zip (renderAll ext values)) := struct_inverts hnodup (h.inverts hlimit)
    rw [← hdefinition] at hread
    simp only [decodeLogLine_dataLine]
    exact decodeEvent_inverts hevent hread
  · have hread : Inverts Ends (read ext account.types (limit + 1) (.defined account.name)) (encode value)
        (render ext value) := singleton_inverts (h.inverts (Nat.succ_le_succ hlimit))
    rw [defined_eq (decoder.accounts_typed account (mem_of_lookupEntry haccount))] at hread
    exact decodeAccount_inverts haccount hname hread

/-! ### A small decoder -/

def sampleExternals : Externals where
  pubkey _ := "11111111111111111111111111111111"
  replaced _ := ""

def sampleVariants : List Variant := [⟨"Off", []⟩, ⟨"Fee", [.primitive "i64"]⟩]

def samplePool : List (String × TypeSpec) := [("mode", .defined "Mode"), ("shares", .primitive "u128")]

def sampleTypes : Types
  | "Mode" => some (.enum sampleVariants)
  | "Pool" => some (.struct (namedFields samplePool))
  | _ => none

def sampleFields : List (String × TypeSpec) :=
  [("mint", .primitive "pubkey"), ("memo", optionOf false (.primitive "string")), ("pools", .vec (.defined "Pool"))]

def sampleEvent : Entry (List Field) where
  program := "program"
  discriminator := replicate 8 7
  discriminator_length := rfl
  name := "TradeEvent"
  definition := namedFields sampleFields
  types := sampleTypes

def sampleAccount : Entry Definition where
  program := "program"
  discriminator := replicate 8 9
  discriminator_length := rfl
  name := "Mode"
  definition := .enum sampleVariants
  types := sampleTypes

def sampleDecoder : AnchorEventDecoder where
  events := ⟨[sampleEvent], nodup_singleton _⟩
  accounts := ⟨[sampleAccount], nodup_singleton _⟩
  accounts_typed := by
    intro account haccount
    obtain rfl := mem_singleton.mp (Table.mem_def.mp haccount)
    rfl

def sampleValues : List Value :=
  [.pubkey (replicate 32 0), .present false (.string "gm"),
    .vec [.struct ["mode", "shares"] [.tuple 1 "Fee" [.signed 8 (-5)], .unsigned 16 300]]]

theorem sampleValues_typed : Typed sampleTypes 4 (sampleFields.map Prod.snd) sampleValues := by
  have hmemo : Typed sampleTypes 3 [.primitive "string"] [.string "gm"] := .string (by decide +kernel) (by decide) .nil
  have hfee : Typed sampleTypes 1 [.primitive "i64"] [.signed 8 (-5)] :=
    .signed (by decide +kernel) (by decide) (by decide) .nil
  have hshares : Typed sampleTypes 2 [.primitive "u128"] [.unsigned 16 300] := .unsigned (by decide +kernel) (by decide) .nil
  have hfields : Typed sampleTypes 2 (samplePool.map Prod.snd) [.tuple 1 "Fee" [.signed 8 (-5)], .unsigned 16 300] := by
    refine .tuple (show sampleTypes "Mode" = some (.enum sampleVariants) from rfl) ?_ ?_ hfee hshares
    · rfl
    · decide
  have hpool : Typed sampleTypes 3 [.defined "Pool"]
      [.struct (samplePool.map Prod.fst) [.tuple 1 "Fee" [.signed 8 (-5)], .unsigned 16 300]] :=
    .struct rfl (by decide) hfields .nil
  have hpools : Typed sampleTypes 4 [.vec (.defined "Pool")]
      [.vec [.struct (samplePool.map Prod.fst) [.tuple 1 "Fee" [.signed 8 (-5)], .unsigned 16 300]]] := by
    refine .vec ?_ hpool .nil
    decide
  have hmemos : Typed sampleTypes 4 [optionOf false (.primitive "string"), .vec (.defined "Pool")]
      [.present false (.string "gm"),
        .vec [.struct (samplePool.map Prod.fst) [.tuple 1 "Fee" [.signed 8 (-5)], .unsigned 16 300]]] :=
    .present hmemo hpools
  exact .pubkey (.inl (by decide +kernel)) rfl hmemos

/-- The event is reported with the three bytes that follow it. -/
theorem decoding_inverts_encoding_trade :
    decodeLogLine sampleExternals 4 sampleDecoder
        (dataLine (sampleEvent.discriminator ++ encodeAll sampleValues ++ [1, 2, 3])) (some "program") =
      .ok (some ("program", "TradeEvent",
        [("mint", .str "11111111111111111111111111111111"), ("memo", .str "gm"),
          ("pools", .list [.dict [("mode", .dict [("variant", .str "Fee"), ("fields", .list [.int (-5)])]),
            ("shares", .int 300)]]), ("_remaining_bytes", .int 3)])) :=
  ((decoding_inverts_encoding sampleExternals sampleDecoder (le_refl 4)).2.1 (some "program") sampleEvent rfl sampleFields
    sampleValues rfl (by decide) sampleValues_typed).1 [1, 2, 3]

/-- An account that is a variant without fields is not reported, though its content is read. -/
theorem variant_account_unreported :
    lookupEntry sampleDecoder.accounts (some "program") sampleAccount.discriminator = some sampleAccount ∧
      Typed sampleTypes 1 [.defined "Mode"] [.unit 0 "Off"] ∧
      decodeAccount sampleExternals 1 sampleDecoder (sampleAccount.discriminator ++ encode (.unit 0 "Off"))
        (some "program") none = .ok none :=
  ⟨rfl, .unit rfl rfl (by decide) .nil, rfl⟩

end SignalArcade.Anchor
