import SchemaMigration.Json.Basic

/-!
# Reading a document from its text

The reader never fails: what it cannot read becomes `Json.broken`, an array or object that stays
open, or `Json.refused` (see `SchemaMigration.Json.Basic`). `read` gives the document and whether
the text ends after it.

Between tokens stand spaces, tabs, line feeds and carriage returns. A numeral has no leading
zeros. A string holds no control characters, and a surrogate is written only as one half of a
pair.
-/

namespace SchemaMigration.Json

/-- Brackets may be nested so deep; one level more is refused. -/
def nestingLimit : Nat := 127

/-- The blank characters between tokens. -/
def isSpace (c : Char) : Bool := c == ' ' || c == '\n' || c == '\t' || c == '\r'

/-- The text from its next token on. -/
def skipSpace (cs : List Char) : List Char := cs.dropWhile isSpace

/-- The value of a hexadecimal digit. -/
def hexValue? (c : Char) : Option Nat :=
  if c.isDigit then some (c.toNat - '0'.toNat)
  else if 'a' ≤ c && c ≤ 'f' then some (c.toNat - 'a'.toNat + 10)
  else if 'A' ≤ c && c ≤ 'F' then some (c.toNat - 'A'.toNat + 10)
  else none

/-- Four hexadecimal digits. -/
def fourHex? : List Char → Option (Nat × List Char)
  | a :: b :: c :: d :: cs => do
    let a ← hexValue? a
    let b ← hexValue? b
    let c ← hexValue? c
    let d ← hexValue? d
    return (((a * 16 + b) * 16 + c) * 16 + d, cs)
  | _ => none

/-- What follows an opening quotation mark. -/
inductive StringRest where
  /-- A whole string and the text after its closing mark. -/
  | whole (value : List Char) (rest : List Char)
  /-- A string with a lone surrogate, which may only be skipped. -/
  | surrogate (rest : List Char)
  /-- The text is no string. -/
  | broken

/-- A character in front of the rest of a string. -/
def StringRest.cons (c : Char) : StringRest → StringRest
  | .whole value rest => .whole (c :: value) rest
  | other => other

/-- Marks a string as one with a lone surrogate. -/
def StringRest.refuse : StringRest → StringRest
  | .whole _ rest => .surrogate rest
  | other => other

/-- The character that a one-letter escape stands for. -/
def simpleEscape? : Char → Option Char
  | '"' => some '"'
  | '\\' => some '\\'
  | '/' => some '/'
  | 'b' => some (Char.ofNat 8)
  | 'f' => some (Char.ofNat 12)
  | 'n' => some '\n'
  | 'r' => some '\r'
  | 't' => some '\t'
  | _ => none

/-- Reads a string from behind its opening mark. The first argument bounds the steps. -/
def stringRest : Nat → List Char → StringRest
  | 0, _ => .broken
  | fuel + 1, cs =>
    match cs with
    | [] => .broken
    | '"' :: rest => .whole [] rest
    | '\\' :: 'u' :: rest =>
      match fourHex? rest with
      | none => .broken
      | some (unit, rest) =>
        if 0xD800 ≤ unit && unit < 0xDC00 then
          match rest with
          | '\\' :: 'u' :: more =>
            match fourHex? more with
            | none => .broken
            | some (low, more) =>
              if 0xDC00 ≤ low && low < 0xE000 then
                let c := Char.ofNat (0x10000 + (unit - 0xD800) * 0x400 + (low - 0xDC00))
                (stringRest fuel more).cons c
              else (stringRest fuel rest).refuse
          | _ => (stringRest fuel rest).refuse
        else if 0xDC00 ≤ unit && unit < 0xE000 then (stringRest fuel rest).refuse
        else (stringRest fuel rest).cons (Char.ofNat unit)
    | '\\' :: c :: rest =>
      match simpleEscape? c with
      | some c => (stringRest fuel rest).cons c
      | none => .broken
    | c :: rest => if c.toNat < 32 then .broken else (stringRest fuel rest).cons c

/-- The number written by decimal digits. -/
def natOfDigits (digits : List Char) : Nat :=
  digits.foldl (fun n c => n * 10 + Numeral.digitValue c) 0

/-- An exponent with its mark, if one stands here; `none` if the mark has no digits. -/
def exponentPart (cs : List Char) : Option (Option Int × List Char) :=
  match cs with
  | c :: rest =>
    if c == 'e' || c == 'E' then
      let (negative, rest) :=
        match rest with
        | '+' :: rest => (false, rest)
        | '-' :: rest => (true, rest)
        | _ => (false, rest)
      let digits := rest.takeWhile Char.isDigit
      if digits.isEmpty then none
      else
        let size : Int := natOfDigits digits
        some (some (if negative then -size else size), rest.dropWhile Char.isDigit)
    else some (none, cs)
  | [] => some (none, [])

/-- The digits behind a decimal point, if one stands here; `none` if it has no digits. -/
def fractionPart (cs : List Char) : Option (Option (List Char) × List Char) :=
  match cs with
  | '.' :: rest =>
    let digits := rest.takeWhile Char.isDigit
    if digits.isEmpty then none else some (some digits, rest.dropWhile Char.isDigit)
  | _ => some (none, cs)

/-- A numeral without its sign. -/
def numeral? (negative : Bool) (cs : List Char) : Option (Numeral × List Char) := do
  let whole := cs.takeWhile Char.isDigit
  if whole.isEmpty || (whole.head? == some '0' && 1 < whole.length) then none
  else
    let (fraction, rest) ← fractionPart (cs.dropWhile Char.isDigit)
    let (exponent, rest) ← exponentPart rest
    match fraction, exponent with
    | none, none =>
      let size := natOfDigits whole
      if negative && size == 0 then return (.decimal true whole [] 0, rest)
      else return (.integer (if negative then -(size : Int) else size), rest)
    | _, _ => return (.decimal negative whole (fraction.getD []) (exponent.getD 0), rest)

/-- A numeral as a value; one beyond the range of a double is refused. -/
def numberValue (negative : Bool) (cs : List Char) : Json × List Char :=
  match numeral? negative cs with
  | none => (.broken, [])
  | some (n, rest) => if n.inRange then (.number n, rest) else (.refused none, rest)

/-- The value `document` if the text goes on with the given word. -/
def wordValue (word : String) (document : Json) (cs : List Char) : Json × List Char :=
  if word.toList.isPrefixOf cs then (document, cs.drop word.length) else (.broken, [])

/-- A container at the given depth, refused if it is nested too deep. -/
def limited (depth : Nat) (container : Json) : Json :=
  if depth < nestingLimit then container else .refused (some container)

mutual

/-- The value at the front of a text, and the text behind it. -/
def value : Nat → Nat → List Char → Json × List Char
  | 0, _, _ => (.broken, [])
  | fuel + 1, depth, cs =>
    match skipSpace cs with
    | [] => (.broken, [])
    | '"' :: rest =>
      match stringRest (rest.length + 1) rest with
      | .whole content rest => (.string (String.ofList content), rest)
      | .surrogate rest => (.refused none, rest)
      | .broken => (.broken, [])
    | '[' :: rest =>
      match skipSpace rest with
      | ']' :: rest => (limited depth (.array [] true), rest)
      | rest =>
        let (found, closed, rest) := items fuel (depth + 1) rest
        (limited depth (.array found closed), rest)
    | '\x7b' :: rest =>
      match skipSpace rest with
      | '\x7d' :: rest => (limited depth (.object [] true), rest)
      | rest =>
        let (found, closed, rest) := members fuel (depth + 1) rest
        (limited depth (.object found closed), rest)
    | '-' :: rest => numberValue true rest
    | c :: rest =>
      if c == 'n' then wordValue "null" .null (c :: rest)
      else if c == 't' then wordValue "true" (.bool true) (c :: rest)
      else if c == 'f' then wordValue "false" (.bool false) (c :: rest)
      else numberValue false (c :: rest)

/-- The items of an array up to its closing bracket, and whether that bracket was found. -/
def items : Nat → Nat → List Char → List Json × Bool × List Char
  | 0, _, _ => ([], false, [])
  | fuel + 1, depth, cs =>
    let (item, rest) := value fuel depth cs
    match skipSpace rest with
    | ']' :: rest => ([item], true, rest)
    | ',' :: rest =>
      let (more, closed, rest) := items fuel depth rest
      (item :: more, closed, rest)
    | _ => ([item], false, [])

/-- The members of an object up to its closing bracket, and whether that bracket was found. -/
def members : Nat → Nat → List Char → List (String × Json) × Bool × List Char
  | 0, _, _ => ([], false, [])
  | fuel + 1, depth, cs =>
    match skipSpace cs with
    | '"' :: rest =>
      match stringRest (rest.length + 1) rest with
      | .whole name rest =>
        match skipSpace rest with
        | ':' :: rest =>
          let (found, rest) := value fuel depth rest
          match skipSpace rest with
          | '\x7d' :: rest => ([(String.ofList name, found)], true, rest)
          | ',' :: rest =>
            let (more, closed, rest) := members fuel depth rest
            ((String.ofList name, found) :: more, closed, rest)
          | _ => ([(String.ofList name, found)], false, [])
        | _ => ([(String.ofList name, .broken)], false, [])
      | _ => ([], false, [])
    | _ => ([], false, [])

end

/-- The document at the front of a text, and whether the text ends after it. -/
def read (text : String) : Json × Bool :=
  let cs := text.toList
  let (document, rest) := value (cs.length + 1) 0 cs
  (document, (skipSpace rest).isEmpty)

end SchemaMigration.Json
