import SchemaMigration.Json.Basic

/-!
# The compact text of a document

Nothing stands between two tokens. In strings the quotation mark, the backslash and the control
characters are escaped, the usual ones by a letter and the others by four hexadecimal digits; all
else stands for itself. A document that breaks off is printed as far as it goes.
-/

namespace SchemaMigration.Json

/-- The lower-case hexadecimal digit of a number below 16. -/
def hexDigit (n : Nat) : Char := "0123456789abcdef".toList.getD n '0'

/-- A character as it stands in a string. -/
def escapeChar (c : Char) : List Char :=
  if c = '"' then ['\\', '"']
  else if c = '\\' then ['\\', '\\']
  else if c = '\n' then ['\\', 'n']
  else if c = '\r' then ['\\', 'r']
  else if c = '\t' then ['\\', 't']
  else if c.toNat = 8 then ['\\', 'b']
  else if c.toNat = 12 then ['\\', 'f']
  else if c.toNat < 32 then
    ['\\', 'u', '0', '0', hexDigit (c.toNat / 16), hexDigit (c.toNat % 16)]
  else [c]

/-- A string in quotation marks. -/
def quote (s : String) : List Char := '"' :: s.toList.flatMap escapeChar ++ ['"']

/-- The text of an integer. -/
def integerChars : Int → List Char
  | .ofNat n => Nat.toDigits 10 n
  | .negSucc n => '-' :: Nat.toDigits 10 (n + 1)

/-- The text of a numeral. -/
def numeralChars : Numeral → List Char
  | .integer value => integerChars value
  | .decimal negative whole fraction exponent =>
    let digits := if fraction.isEmpty then ['0'] else fraction
    (if negative then ['-'] else []) ++ whole ++ '.' :: digits ++ 'e' :: integerChars exponent

mutual

/-- The characters of a document. -/
def chars : Json → List Char
  | .null => "null".toList
  | .bool true => "true".toList
  | .bool false => "false".toList
  | .number value => numeralChars value
  | .string value => quote value
  | .array items closed => '[' :: itemChars items ++ (if closed then [']'] else [])
  | .object members closed => '\x7b' :: memberChars members ++ (if closed then ['\x7d'] else [])
  | .refused (some content) => chars content
  | .refused none => "1e999".toList
  | .broken => ['!']

/-- The characters of the items of an array. -/
def itemChars : List Json → List Char
  | [] => []
  | [item] => chars item
  | item :: items => chars item ++ ',' :: itemChars items

/-- The characters of the members of an object. -/
def memberChars : List (String × Json) → List Char
  | [] => []
  | [(name, value)] => quote name ++ ':' :: chars value
  | (name, value) :: members => quote name ++ ':' :: chars value ++ ',' :: memberChars members

end

/-- The compact text of a document. -/
def print (document : Json) : String := String.ofList document.chars

end SchemaMigration.Json
