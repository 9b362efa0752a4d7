import SchemaMigration.Json.Printer
import SchemaMigration.Json.Reader
import SchemaMigration.Text.Segment

/-!
# Typed documents

A `Codec` writes the values of a type as documents and reads them back. Records are described once
by a `Layout`, a list of named fields, from which both directions follow. A record is read from an
object, in which unknown members are skipped and absent ones keep their default, or from an array
that lists its fields in order. Reading meets the faults of a document in the order of its text
and stops at the first.

Some parts of a document are read only after an enclosing object has been read as a whole;
`Mode.buffered` marks these. They differ in the names of a few faults.
-/

namespace SchemaMigration

/-- What stands in a document where something else was wanted. -/
inductive Found where
  | null
  | bool (value : Bool)
  | integer (value : Int)
  | float (text : String)
  | string (value : String)
  | sequence
  | map
  deriving DecidableEq, Repr

/-- Why a document does not have the wanted layout. -/
inductive DecodeError where
  | malformed
  | missingField (name : String)
  | duplicateField (name : String)
  | unknownVariant (found : String) (known : List String)
  | invalidType (found : Found) (wanted : String)
  | invalidValue (found : Found) (wanted : String)
  | invalidLength (length : Nat) (wanted : String)
  deriving DecidableEq, Repr

/-- A string as messages show it. -/
def Found.quoted (s : String) : String :=
  "\"" ++ String.ofList (s.toList.flatMap escaped) ++ "\""
where
  /-- A character inside the quotation marks. -/
  escaped (c : Char) : List Char :=
    if c = '"' then ['\\', '"']
    else if c = '\\' then ['\\', '\\']
    else if c = '\n' then ['\\', 'n']
    else if c = '\r' then ['\\', 'r']
    else if c = '\t' then ['\\', 't']
    else if c.toNat = 0 then ['\\', '0']
    else if c.toNat < 32 || (127 ≤ c.toNat && c.toNat < 160) then
      "\\u\x7b".toList ++ Nat.toDigits 16 c.toNat ++ ['\x7d']
    else [c]

/-- The description of a found value. -/
def Found.describe : Found → String
  | null => "null"
  | bool true => "boolean `true`"
  | bool false => "boolean `false`"
  | integer value => "integer `" ++ String.ofList (Json.integerChars value) ++ "`"
  | float text => "floating point `" ++ text ++ "`"
  | string value => "string " ++ quoted value
  | sequence => "sequence"
  | map => "map"

/-- The known words of a choice, as messages list them. -/
def knownWords : List String → String
  | [] => "there are no variants"
  | [a] => "expected `" ++ a ++ "`"
  | [a, b] => "expected `" ++ a ++ "` or `" ++ b ++ "`"
  | words => "expected one of " ++ Text.commaList (words.map fun w => "`" ++ w ++ "`")

/-- The message of a fault. -/
def DecodeError.message : DecodeError → String
  | malformed => "malformed"
  | missingField name => "missing field `" ++ name ++ "`"
  | duplicateField name => "duplicate field `" ++ name ++ "`"
  | unknownVariant found known => "unknown variant `" ++ found ++ "`, " ++ knownWords known
  | invalidType found wanted => "invalid type: " ++ found.describe ++ ", expected " ++ wanted
  | invalidValue found wanted => "invalid value: " ++ found.describe ++ ", expected " ++ wanted
  | invalidLength length wanted =>
    "invalid length " ++ Nat.repr length ++ ", expected " ++ wanted

/-- Whether a value is read while its document is still being read, or afterwards. -/
inductive Mode where
  | streamed
  | buffered
  deriving DecidableEq, Repr

/-- Whether an integer fits 64 bits, with a sign or without. -/
def fitsWord (value : Int) : Bool := -Int.pow 2 63 ≤ value && value < Int.pow 2 64

/-- The fault of finding `document` where something else was wanted. -/
def Json.mismatch (wanted : String) : Json → DecodeError
  | .null => .invalidType .null wanted
  | .bool value => .invalidType (.bool value) wanted
  | .number (.integer value) =>
    if fitsWord value then .invalidType (.integer value) wanted
    else .invalidType (.float (Decimal.shortestText (Numeral.integer value).toFloat)) wanted
  | .number value => .invalidType (.float (Decimal.shortestText value.toFloat)) wanted
  | .string value => .invalidType (.string value) wanted
  | .array .. => .invalidType .sequence wanted
  | .object .. => .invalidType .map wanted
  | .refused (some (.array ..)) => .invalidType .sequence wanted
  | .refused (some (.object ..)) => .invalidType .map wanted
  | .refused _ | .broken => .malformed

/-- A type's two directions: writing a value as a document and reading it back. -/
structure Codec (α : Type) where
  write : α → Json
  read : Mode → Json → Except DecodeError α

namespace Codec

/-- Strings. -/
def string : Codec String where
  write := .string
  read
    | _, .string value => .ok value
    | _, other => .error (other.mismatch "a string")

/-- Truth values. -/
def bool : Codec Bool where
  write := .bool
  read
    | _, .bool value => .ok value
    | _, other => .error (other.mismatch "a boolean")

/-- Integers from `low` to `high`; integers beyond them that fit 64 bits are named as such. -/
def bounded (low high : Int) (wanted : String) : Mode → Json → Except DecodeError Int
  | _, .number (.integer value) =>
    if low ≤ value && value ≤ high then .ok value
    else if fitsWord value then
      .error (.invalidValue (.integer value) wanted)
    else .error ((Json.number (.integer value)).mismatch wanted)
  | _, other => .error (other.mismatch wanted)

/-- Integers of 64 bits. -/
def int64 : Codec Int64 where
  write value := .integer value.toInt
  read mode document :=
    (bounded (-Int.pow 2 63) (Int.pow 2 63 - 1) "i64" mode document).map Int64.ofInt

/-- Natural numbers of 32 bits. -/
def uint32 : Codec UInt32 where
  write value := .integer value.toNat
  read mode document :=
    (bounded 0 (Int.pow 2 32 - 1) "u32" mode document).map fun value => UInt32.ofNat value.toNat

/-- Values that may be absent; the absent value is `null`. -/
def option {α : Type} (codec : Codec α) : Codec (Option α) where
  write
    | none => .null
    | some value => codec.write value
  read
    | _, .null => .ok none
    | mode, document => (codec.read mode document).map some

/-- Reads the items of an array one after the other. -/
def readItems {α : Type} (codec : Codec α) (mode : Mode) : List Json → Except DecodeError (List α)
  | [] => .ok []
  | item :: items => do
    let value ← codec.read mode item
    let values ← readItems codec mode items
    return value :: values

/-- A value for a document that is read to its end, and a fault for one that breaks off. -/
def whole {α : Type} (closed : Bool) (value : α) : Except DecodeError α :=
  if closed then .ok value else .error .malformed

/-- Lists. -/
def list {α : Type} (codec : Codec α) : Codec (List α) where
  write values := .list (values.map codec.write)
  read
    | mode, .array items closed => do whole closed (← readItems codec mode items)
    | _, .refused (some (.array ..)) => .error .malformed
    | _, other => .error (other.mismatch "a sequence")

/-- Puts an entry into a list that is sorted by its keys; a present key gets the new value. -/
def insertEntry (key value : String) : List (String × String) → List (String × String)
  | [] => [(key, value)]
  | (k, v) :: rest =>
    if key < k then (key, value) :: (k, v) :: rest
    else if key = k then (key, value) :: rest
    else (k, v) :: insertEntry key value rest

/-- Reads the entries of a map into a list that is sorted by its keys. -/
def readEntries (mode : Mode) :
    List (String × String) → List (String × Json) → Except DecodeError (List (String × String))
  | entries, [] => .ok entries
  | entries, (key, document) :: rest => do
    let value ← string.read mode document
    readEntries mode (insertEntry key value entries) rest

/-- Maps from strings to strings, sorted by their keys; of a repeated key the last value counts. -/
def sortedMap : Codec (List (String × String)) where
  write entries := .record (entries.map fun (key, value) => (key, .string value))
  read
    | mode, .object members closed => do whole closed (← readEntries mode [] members)
    | _, .refused (some (.object ..)) => .error .malformed
    | _, other => .error (other.mismatch "a map")

/-- A choice between words; the table lists every word that is read, the first one for each value
being the one that is written. -/
def choice {α : Type} (word : α → String) (table : List (String × α)) (known : List String) :
    Codec α where
  write value := .string (word value)
  read mode document :=
    let pick (text : String) : Except DecodeError α :=
      match table.find? fun entry => entry.1 == text with
      | some entry => .ok entry.2
      | none => .error (.unknownVariant text known)
    let unit (value : Json) : Except DecodeError Unit :=
      match mode, value with
      | _, .null => .ok ()
      | .buffered, .object [] _ => .ok ()
      | _, other => .error (other.mismatch "unit")
    match document, mode with
    | .string text, _ => pick text
    | .object [(text, value)] closed, _ => do
      let found ← pick text
      unit value
      whole closed found
    | .object ((text, value) :: _) _, .streamed => do
      let _ ← pick text
      unit value
      .error .malformed
    | .object .., .buffered => .error (.invalidValue .map "map with a single key")
    | .refused _, .buffered | .broken, .buffered => .error .malformed
    | other, .buffered => .error (other.mismatch "string or map")
    | _, .streamed => .error .malformed

end Codec

/-- One named field of a record. -/
structure Field (σ : Type) where
  name : String
  required : Bool
  write : σ → Json
  read : Mode → Json → σ → Except DecodeError σ

namespace Field

/-- A field that must be present. -/
def needed {σ α : Type} (name : String) (codec : Codec α) (get : σ → α) (set : α → σ → σ) :
    Field σ where
  name
  required := true
  write record := codec.write (get record)
  read mode document record := (codec.read mode document).map (set · record)

/-- A field that keeps its default if it is absent. -/
def defaulted {σ α : Type} (name : String) (codec : Codec α) (get : σ → α) (set : α → σ → σ) :
    Field σ :=
  { needed name codec get set with required := false }

end Field

/-- A record: its name in messages, the values of absent fields, and its fields in order. -/
structure Layout (σ : Type) where
  name : String
  blank : σ
  fields : List (Field σ)

namespace Layout

variable {σ : Type}

/-- The members of a written record. -/
def members (layout : Layout σ) (record : σ) : List (String × Json) :=
  layout.fields.map fun field => (field.name, field.write record)

/-- What messages want when they want the record. -/
def wanted (layout : Layout σ) : String := "struct " ++ layout.name

/-- What messages want when an array is too short. -/
def wantedElements (layout : Layout σ) : String :=
  let n := layout.fields.length
  layout.wanted ++ " with " ++ Nat.repr n ++ (if n = 1 then " element" else " elements")

/-- Reads members in order into `record`; `seen` lists the fields met so far. -/
def readMembers (layout : Layout σ) (mode : Mode) :
    List String → σ → List (String × Json) → Except DecodeError (List String × σ)
  | seen, record, [] => .ok (seen, record)
  | seen, record, (name, document) :: rest =>
    match layout.fields.find? fun field => field.name == name with
    | none =>
      if document.isWellFormed then readMembers layout mode seen record rest
      else .error .malformed
    | some field =>
      if seen.contains name then .error (.duplicateField name)
      else do
        let record ← field.read mode document record
        readMembers layout mode (name :: seen) record rest

/-- The first required field that was not met. -/
def missing? (layout : Layout σ) (seen : List String) : Option String :=
  (layout.fields.find? fun field => field.required && !seen.contains field.name).map (·.name)

/-- Reads a record from the members of an object. -/
def ofMembers (layout : Layout σ) (mode : Mode) (documents : List (String × Json))
    (closed : Bool) : Except DecodeError σ := do
  let (seen, record) ← readMembers layout mode [] layout.blank documents
  match closed, layout.missing? seen with
  | false, _ => .error .malformed
  | true, some name => .error (.missingField name)
  | true, none => .ok record

/-- Reads fields from the items of an array; the number counts the items used so far. -/
def readItems (layout : Layout σ) (mode : Mode) (closed : Bool) :
    Nat → List (Field σ) → σ → List Json → Except DecodeError σ
  | _, [], record, [] => Codec.whole closed record
  | used, [], _, rest =>
    match mode with
    | .streamed => .error .malformed
    | .buffered =>
      .error (.invalidLength (used + rest.length)
        (Nat.repr used ++ (if used = 1 then " element" else " elements") ++ " in sequence"))
  | used, field :: fields, record, item :: rest => do
    let record ← field.read mode item record
    readItems layout mode closed (used + 1) fields record rest
  | used, field :: fields, record, [] =>
    if !closed then .error .malformed
    else if field.required then .error (.invalidLength used layout.wantedElements)
    else readItems layout mode closed used fields record []

/-- The codec of a record. -/
def codec (layout : Layout σ) : Codec σ where
  write record := .record (layout.members record)
  read
    | mode, .object documents closed => layout.ofMembers mode documents closed
    | mode, .array items closed => layout.readItems mode closed 0 layout.fields layout.blank items
    | _, .refused _ => .error .malformed
    | _, other => .error (other.mismatch layout.wanted)

end Layout

/-- Reads a typed document from its text; nothing may follow it. -/
def Codec.ofText {α : Type} (codec : Codec α) (text : String) : Except DecodeError α := do
  let (document, ended) := Json.read text
  let value ← codec.read .streamed document
  whole ended value

end SchemaMigration
