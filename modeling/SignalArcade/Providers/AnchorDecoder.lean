import SignalArcade.Lib.Bytes
import SignalArcade.Lib.Prog
import SignalArcade.Lib.Table

/-!
# The Anchor decoder

`AnchorEventDecoder` reads events and accounts by the types of a pinned IDL. What is read is a stream of bytes, of
which a reader takes some and leaves the rest; a type that refers to another one by its name is read by that one, so
that reading recurs as deep as the data goes, and `limit` is how deep Python lets it.
-/

namespace SignalArcade.Anchor

open Bytes

/-! ### Types -/

/-- A type of an IDL. -/
inductive TypeSpec where
  | primitive (name : String)
  | option (inner : TypeSpec)
  | coption (inner : TypeSpec)
  | vec (inner : TypeSpec)
  | array (inner : TypeSpec) (length : ℕ)
  | defined (name : String)
  /-- Whatever else JSON has. -/
  | unsupported

/-- A field of a struct or an event; those of a tuple have no name. -/
structure Field where
  name : Option String
  type : TypeSpec

/-- A variant of an enum. -/
structure Variant where
  name : String
  fields : List TypeSpec := []

/-- A named type of an IDL. -/
inductive Definition where
  | struct (fields : List Field)
  | enum (variants : List Variant)
  | alias (value : TypeSpec)
  | unsupported (kind : String)

/-- The named types. -/
abbrev Types := String → Option Definition

/-! ### Values -/

/-- What is read. -/
inductive PyValue where
  | none
  | bool (b : Bool)
  | int (n : ℤ)
  | float (bytes : List UInt8)
  | str (s : String)
  | list (items : List PyValue)
  | dict (items : List (String × PyValue))

/-- `values[name] = value`. -/
def setItem (values : List (String × PyValue)) (name : String) (value : PyValue) : List (String × PyValue) :=
  Table.upsertRows Prod.fst (name, value) values

/-- `values.get(name)`. -/
def getItem (values : List (String × PyValue)) (name : String) : Option PyValue := values.lookup name

/-- What is done elsewhere. -/
structure Externals where
  /-- `str(Pubkey.from_bytes(…))`. -/
  pubkey : List UInt8 → String
  /-- `decode("utf-8", errors="replace")`, of bytes that are no UTF-8. -/
  replaced : List UInt8 → String

/-- `b58encode`, of the 32 bytes of a key. -/
def b58encode (ext : Externals) (bytes : List UInt8) : String := ext.pubkey bytes

/-- `decode("utf-8", errors="replace")`. -/
def decodeUtf8 (ext : Externals) (bytes : List UInt8) : String :=
  (String.fromUTF8? ⟨bytes.toArray⟩).getD (ext.replaced bytes)

/-- `base64.b64encode(…).decode("ascii")`. -/
def b64encode (bytes : List UInt8) : String := String.ofList (encode64 bytes)

/-- `base64.b64decode(…, validate=True)`. -/
def b64decode (text : List Char) : Option (List UInt8) := decode64 text

/-! ### Readers -/

/-- Why something cannot be read. -/
inductive ReadError where
  /-- `DecodeError`. -/
  | decode (message : String)
  /-- `KeyError`. -/
  | key
  /-- `TypeError`. -/
  | type
  /-- `RecursionError`. -/
  | recursion

/-- A program over `_Cursor`: the bytes not read yet. -/
abbrev Reader := EStateM ReadError (List UInt8)

def take (size : ℕ) : Reader (List UInt8) := do
  let rest ← get
  if rest.length < size then throw (.decode "event payload ended unexpectedly")
  else do
    set (rest.drop size)
    return rest.take size

/-- `cursor.take(1)[0]`. -/
def takeByte : Reader UInt8 := do
  let bytes ← take 1
  return bytes.headD 0

/-- `struct.unpack("<I", cursor.take(4))[0]`. -/
def takeU32 : Reader ℕ := do
  let bytes ← take 4
  return ofLittleEndian bytes

/-- The integer types: whether they have a sign, and their width. -/
def integerFormat : String → Option (Bool × ℕ)
  | "u8" => some (false, 1)
  | "i8" => some (true, 1)
  | "u16" => some (false, 2)
  | "i16" => some (true, 2)
  | "u32" => some (false, 4)
  | "i32" => some (true, 4)
  | "u64" => some (false, 8)
  | "i64" => some (true, 8)
  | "u128" => some (false, 16)
  | "i128" => some (true, 16)
  | _ => none

def readPrimitive (ext : Externals) (name : String) : Reader PyValue :=
  let name := name.toLower
  match integerFormat name with
  | some (hasSign, width) => do
    let bytes ← take width
    return .int (if hasSign then signed width (ofLittleEndian bytes) else ofLittleEndian bytes)
  | none =>
    if name = "f32" then do
      let bytes ← take 4
      return .float bytes
    else if name = "f64" then do
      let bytes ← take 8
      return .float bytes
    else if name = "pubkey" ∨ name = "publickey" then do
      let bytes ← take 32
      return .str (b58encode ext bytes)
    else if name = "bool" then do
      let value ← takeByte
      if value ≠ 0 ∧ value ≠ 1 then throw (.decode "invalid bool")
      else return .bool (value = 1)
    else if name = "string" then do
      let length ← takeU32
      if 1000000 < length then throw (.decode "unreasonable string length")
      else do
        let bytes ← take length
        return .str (decodeUtf8 ext bytes)
    else if name = "bytes" then do
      let length ← takeU32
      if 1000000 < length then throw (.decode "unreasonable byte length")
      else do
        let bytes ← take length
        return .str (b64encode bytes)
    else throw (.decode ("unsupported primitive " ++ name))

/-- A field is read and put under its name. -/
def readField (read : TypeSpec → Reader PyValue) (values : List (String × PyValue)) (field : Field) :
    Reader (List (String × PyValue)) :=
  match field.name with
  | none => throw .type
  | some name => do
    let value ← read field.type
    return setItem values name value

/-- The fields of a struct or an event. -/
def readFields (read : TypeSpec → Reader PyValue) (fields : List Field) : Reader (List (String × PyValue)) :=
  fields.foldlM (readField read) []

def readVariant (read : TypeSpec → Reader PyValue) (variant : Variant) : Reader PyValue :=
  if variant.fields.isEmpty then return .str variant.name
  else do
    let fields ← variant.fields.mapM read
    return .dict [("variant", .str variant.name), ("fields", .list fields)]

def readIndexed (read : TypeSpec → Reader PyValue) (variants : List Variant) (variantIndex : UInt8) : Reader PyValue :=
  match variants[variantIndex.toNat]? with
  | none => throw (.decode "enum variant out of range")
  | some variant => readVariant read variant

def readDefined (read : TypeSpec → Reader PyValue) : Definition → Reader PyValue
  | .struct fields => do
    let values ← readFields read fields
    return .dict values
  | .enum variants => do
    let variantIndex ← takeByte
    readIndexed read variants variantIndex
  | .alias value => read value
  | .unsupported kind => throw (.decode ("unsupported defined kind " ++ kind))

/-- Reads a value of the type. -/
def read (ext : Externals) (types : Types) : ℕ → TypeSpec → Reader PyValue
  | 0, _ => throw .recursion
  | limit + 1, spec =>
    match spec with
    | .primitive name => readPrimitive ext name
    | .option inner => do
      let tag ← takeByte
      if tag ≠ 0 then read ext types limit inner else return .none
    | .coption inner => do
      let present ← takeU32
      if present ≠ 0 then read ext types limit inner else return .none
    | .vec inner => do
      let length ← takeU32
      if 100000 < length then throw (.decode "unreasonable vector length")
      else do
        let items ← (List.replicate length inner).mapM (read ext types limit)
        return .list items
    | .array inner length => do
      let items ← (List.replicate length inner).mapM (read ext types limit)
      return .list items
    | .defined name =>
      match types name with
      | none => throw .key
      | some definition => readDefined (read ext types limit) definition
    | .unsupported => throw (.decode "unsupported type")

/-! ### Events and accounts -/

/-- An entry of `events` or of `accounts`: a definition, under its program and discriminator. -/
structure Entry (δ : Type) where
  program : String
  discriminator : List UInt8
  discriminator_length : discriminator.length = 8
  name : String
  definition : δ
  types : Types

/-- The definitions by program and discriminator. -/
abbrev Entries (δ : Type) := Table (String × List UInt8) (Entry δ) fun entry => (entry.program, entry.discriminator)

/-- The decoder of an IDL: its events and its named types. -/
structure AnchorEventDecoder where
  events : Entries (List Field)
  accounts : Entries Definition
  accounts_typed : ∀ account ∈ accounts, account.types account.name = some account.definition

/-- `match`: the entry of the program, or the only one there is. -/
def lookupEntry {δ : Type} (entries : Entries δ) (expectedProgram : Option String) (discriminator : List UInt8) :
    Option (Entry δ) :=
  match expectedProgram with
  | some program => entries.get? (program, discriminator)
  | none =>
    match entries.rows.filter fun entry => entry.discriminator = discriminator with
    | [entry] => some entry
    | _ => none

/-- What has been read, unless it could not be; only a `RecursionError` is not caught. -/
def caught {α : Type} : EStateM.Result ReadError (List UInt8) α → Except ReadError (Option (α × List UInt8))
  | .ok a rest => .ok (some (a, rest))
  | .error .recursion _ => .error .recursion
  | .error _ _ => .ok none

/-- The white space that `str.strip` takes away. -/
def whitespace : List Char :=
  ['\t', '\n', '\x0b', '\x0c', '\r', '\x1c', '\x1d', '\x1e', '\x1f', ' ', '\u0085', '\u00a0', '\u1680', '\u2000', '\u2001',
    '\u2002', '\u2003', '\u2004', '\u2005', '\u2006', '\u2007', '\u2008', '\u2009', '\u200a', '\u2028', '\u2029',
    '\u202f', '\u205f', '\u3000']

def strip (text : List Char) : List Char :=
  ((text.dropWhile (· ∈ whitespace)).reverse.dropWhile (· ∈ whitespace)).reverse

/-- `text.split(marker, 1)[1]`, if the marker is in the text. -/
def splitAfter (marker : List Char) : List Char → Option (List Char)
  | [] => if marker.isEmpty then some [] else none
  | c :: text =>
    if marker.isPrefixOf (c :: text) then some ((c :: text).drop marker.length) else splitAfter marker text

def marker : List Char := "Program data: ".toList

/-- What has been read, with the number of bytes that remain. -/
def withRemaining {δ : Type} (entry : Entry δ) (values : List (String × PyValue)) (rest : List UInt8) :
    String × String × List (String × PyValue) :=
  (entry.program, entry.name, setItem values "_remaining_bytes" (.int rest.length))

/-- `decode_log_line`, once the data is decoded. -/
def decodeEvent (ext : Externals) (limit : ℕ) (decoder : AnchorEventDecoder) (raw : List UInt8)
    (expectedProgram : Option String) : Except ReadError (Option (String × String × List (String × PyValue))) :=
  if raw.length < 8 then .ok none
  else
    match lookupEntry decoder.events expectedProgram (raw.take 8) with
    | none => .ok none
    | some event => do
      let decoded ← caught (readFields (read ext event.types limit) event.definition (raw.drop 8))
      return decoded.map fun read => withRemaining event read.1 read.2

/-- Nothing, if the line is no event of the program. -/
def decodeLogLine (ext : Externals) (limit : ℕ) (decoder : AnchorEventDecoder) (line : String)
    (expectedProgram : Option String) : Except ReadError (Option (String × String × List (String × PyValue))) :=
  match splitAfter marker line.toList with
  | none => .ok none
  | some encoded =>
    match b64decode (strip encoded) with
    | none => .ok none
    | some raw => decodeEvent ext limit decoder raw expectedProgram

/-- What is reported of an account: nothing, unless it was read as a dictionary. -/
def reported (account : Entry Definition) (value : PyValue) (rest : List UInt8) :
    Option (String × String × List (String × PyValue)) :=
  match value with
  | .dict values => some (withRemaining account values rest)
  | _ => none

/-- Nothing, if no account of the program begins so. -/
def decodeAccount (ext : Externals) (limit : ℕ) (decoder : AnchorEventDecoder) (raw : List UInt8)
    (expectedProgram expectedName : Option String) :
    Except ReadError (Option (String × String × List (String × PyValue))) :=
  if raw.length < 8 then .ok none
  else
    match lookupEntry decoder.accounts expectedProgram (raw.take 8) with
    | none => .ok none
    | some account =>
      if expectedName ≠ none ∧ expectedName ≠ some account.name then .ok none
      else do
        let decoded ← caught (readDefined (read ext account.types limit) account.definition (raw.drop 8))
        return decoded.bind fun read => reported account read.1 read.2

end SignalArcade.Anchor
