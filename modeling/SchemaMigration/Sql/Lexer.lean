import SchemaMigration.Dialect.Basic
import SchemaMigration.Sql.Token
import SchemaMigration.Text.Alphabetic
import SchemaMigration.Text.Blank
import SchemaMigration.Text.Numeric

/-!
# Splitting an SQL text into tokens

`tokenize` gives the tokens of a text, or nothing if a comment, string or quoted name is left open.
The dialects differ in the characters of words, in the quotes of names and in the meaning of a
backslash inside strings.
-/

namespace SchemaMigration.Sql

/-- The characters that start a word. -/
def startsWord : Dialect → Char → Bool
  | .postgres, c => Text.isAlphabetic c || c == '_'
  | .msSql, c => Text.isAlphabetic c || c == '_' || c == '#' || c == '@'
  | .clickHouse, c => c.isAlpha || c == '_'

/-- The characters that continue a word. -/
def continuesWord : Dialect → Char → Bool
  | .postgres, c => Text.isAlphabetic c || c.isDigit || c == '$' || c == '_'
  | .msSql, c =>
    Text.isAlphabetic c || c.isDigit || c == '@' || c == '$' || c == '#' || c == '_'
  | .clickHouse, c => c.isAlphanum || c == '_'

/-- The character that closes a quoted name which starts with `c`, if `c` starts one. -/
def closingQuote? : Dialect → Char → Option Char
  | .postgres, '"' | .msSql, '"' | .clickHouse, '"' => some '"'
  | .msSql, '[' => some ']'
  | .postgres, '\x60' | .clickHouse, '\x60' => some '\x60'
  | _, _ => none

/-- A quoted name up to its closing character, which is doubled inside; also the text behind. -/
def quotedName (close : Char) : List Char → Option (List Char × List Char)
  | [] => none
  | c :: cs =>
    if c = close then
      match cs with
      | d :: ds =>
        if d = close then (quotedName close ds).map fun (name, rest) => (close :: name, rest)
        else some ([], d :: ds)
      | [] => some ([], [])
    else (quotedName close cs).map fun (name, rest) => (c :: name, rest)

/-- What a character behind a backslash stands for in a string. -/
def escaped (c : Char) : Char :=
  match c with
  | '0' => Char.ofNat 0
  | 'a' => Char.ofNat 7
  | 'b' => Char.ofNat 8
  | 'f' => Char.ofNat 12
  | 'n' => '\n'
  | 'r' => '\r'
  | 't' => '\t'
  | 'Z' => Char.ofNat 26
  | c => c

/-- A string up to its closing apostrophe, which is doubled inside; `backslash` tells whether a
backslash has its meaning. -/
def quotedString (backslash : Bool) : List Char → Option (List Char × List Char)
  | [] => none
  | '\'' :: '\'' :: cs =>
    (quotedString backslash cs).map fun (value, rest) => ('\'' :: value, rest)
  | '\'' :: cs => some ([], cs)
  | '\\' :: c :: cs =>
    if backslash then
      (quotedString backslash cs).map fun (value, rest) => (escaped c :: value, rest)
    else
      -- Without escapes the character behind the backslash is looked at again.
      (quotedString backslash (c :: cs)).map fun (value, rest) => ('\\' :: value, rest)
  | c :: cs => (quotedString backslash cs).map fun (value, rest) => (c :: value, rest)

/-- The digits of a number in a base, at most `count` of them, and its value. -/
def escapedNumber (base : Nat) (digit? : Char → Option Nat) : Nat → Nat → List Char →
    Nat × List Char
  | 0, value, cs => (value, cs)
  | _ + 1, value, [] => (value, [])
  | count + 1, value, c :: cs =>
    match digit? c with
    | some d => escapedNumber base digit? count (value * base + d) cs
    | none => (value, c :: cs)

/-- The value of a hexadecimal digit. -/
def hexDigit? (c : Char) : Option Nat :=
  if c.isDigit then some (c.toNat - '0'.toNat)
  else if 'a' ≤ c && c ≤ 'f' then some (c.toNat - 'a'.toNat + 10)
  else if 'A' ≤ c && c ≤ 'F' then some (c.toNat - 'A'.toNat + 10)
  else none

/-- The value of an octal digit. -/
def octalDigit? (c : Char) : Option Nat :=
  if '0' ≤ c && c ≤ '7' then some (c.toNat - '0'.toNat) else none

/-- The character of a number, unless it is none or the null character. -/
def charOfNumber? (n : Nat) : Option Char :=
  if n ≠ 0 && n.isValidChar then some (Char.ofNat n) else none

/-- A number in hexadecimal digits, in front of which a plus sign may stand. -/
def hexNumber? (cs : List Char) : Option Nat :=
  let digits :=
    match cs with
    | '+' :: cs => cs
    | cs => cs
  match escapedNumber 16 hexDigit? digits.length 0 digits with
  | (value, []) => if digits.isEmpty then none else some value
  | _ => none

/-- What an escape behind a backslash stands for in a string marked by `E`. -/
def escapeValue? (c : Char) (cs : List Char) : Option (Char × List Char) :=
  match c with
  | 'b' => some (Char.ofNat 8, cs)
  | 'f' => some (Char.ofNat 12, cs)
  | 'n' => some ('\n', cs)
  | 'r' => some ('\r', cs)
  | 't' => some ('\t', cs)
  | 'u' => unicode 4
  | 'U' => unicode 8
  | 'x' =>
    match escapedNumber 16 hexDigit? 2 0 cs with
    | (value, rest) =>
      if rest.length = cs.length then some ('x', cs)
      else if value % 256 < 128 then (charOfNumber? value).map (·, rest) else none
  | c =>
    match octalDigit? c with
    | some first =>
      match escapedNumber 8 octalDigit? 2 first cs with
      | (value, rest) =>
        if value % 256 < 128 then (charOfNumber? (value % 256)).map (·, rest) else none
    | none => if c.toNat = 0 then none else some (c, cs)
where
  /-- A number of exactly so many characters. -/
  unicode (count : Nat) : Option (Char × List Char) := do
    if cs.length < count then failure
    let c ← charOfNumber? (← hexNumber? (cs.take count))
    return (c, cs.drop count)

/-- A string with escapes up to its closing apostrophe. The number bounds the steps. -/
def escapedString : Nat → List Char → Option (List Char × List Char)
  | 0, _ => none
  | fuel + 1, cs =>
    match cs with
    | [] => none
    | '\'' :: '\'' :: rest =>
      (escapedString fuel rest).map fun (value, rest) => ('\'' :: value, rest)
    | '\'' :: rest => some ([], rest)
    | '\\' :: c :: rest => do
      let (escape, rest) ← escapeValue? c rest
      let (value, rest) ← escapedString fuel rest
      return (escape :: value, rest)
    | ['\\'] => none
    | c :: rest => (escapedString fuel rest).map fun (value, rest) => (c :: value, rest)

/-- The text behind a comment that is closed as often as it is opened; `last` is the character
read before. -/
def skipComment : Nat → Char → List Char → Option (List Char)
  | _, _, [] => none
  | depth, last, c :: cs =>
    if last == '/' && c == '*' then skipComment (depth + 1) c cs
    else if last == '*' && c == '/' then
      match depth with
      | 0 | 1 => some cs
      | depth + 1 => skipComment depth c cs
    else skipComment depth c cs

/-- The text behind the closing pair of dollar signs. -/
def skipDollars : List Char → Option (List Char)
  | '$' :: '$' :: cs => some cs
  | _ :: cs => skipDollars cs
  | [] => none

/-- The text behind the closing `$tag$`. After a dollar sign that does not start it the search
goes on behind the first character that differs. -/
def skipTagged (tag : List Char) : Nat → List Char → Option (List Char)
  | 0, _ => none
  | fuel + 1, cs =>
    match cs.dropWhile (· ≠ '$') with
    | [] => none
    | _ :: rest =>
      match behind tag rest with
      | none => none
      | some (true, '$' :: rest) => some rest
      | some (_, rest) => skipTagged tag fuel rest
where
  /-- Whether the tag stands here, and the text behind it or behind the first difference. -/
  behind : List Char → List Char → Option (Bool × List Char)
    | [], rest => some (true, rest)
    | _ :: _, [] => none
    | t :: ts, c :: rest => if t = c then behind ts rest else some (false, rest)

/-- What starts with a dollar sign: a parameter or a string between dollar signs. -/
def dollarToken (cs : List Char) : Option (Token × List Char) :=
  match cs with
  | '$' :: rest => (skipDollars rest).map fun rest => (.literal .dollar, rest)
  | _ =>
    let isPart (c : Char) : Bool := Text.isAlphabetic c || Text.isNumeric c || c == '_'
    let tag := cs.takeWhile isPart
    match cs.dropWhile isPart with
    | '$' :: rest =>
      (skipTagged tag (rest.length + 1) rest).map fun rest => (.literal .dollar, rest)
    | rest => some (.placeholder, rest)

/-- A number or a full stop. -/
def numberToken (cs : List Char) : Token × List Char :=
  let whole := cs.takeWhile Char.isDigit
  let rest := cs.dropWhile Char.isDigit
  match whole, rest with
  | ['0'], 'x' :: rest => (.literal .hexadecimal, rest.dropWhile fun c => (hexDigit? c).isSome)
  | _, _ =>
    let (point, rest) :=
      match rest with
      | '.' :: rest => (['.'], rest)
      | _ => ([], rest)
    let digits := whole ++ point ++ rest.takeWhile Char.isDigit
    let rest := rest.dropWhile Char.isDigit
    if digits = ['.'] then (.symbol ".", rest)
    else
      let (exponent, rest) := exponentPart rest
      let (long, rest) :=
        match rest with
        | 'L' :: rest => (true, rest)
        | _ => (false, rest)
      (.number (String.ofList (digits ++ exponent)) long, rest)
where
  /-- An exponent, if its mark is followed by digits. -/
  exponentPart (cs : List Char) : List Char × List Char :=
    match cs with
    | c :: rest =>
      if c == 'e' || c == 'E' then
        let (sign, behind) :=
          match rest with
          | s :: behind => if s == '+' || s == '-' then ([s], behind) else ([], rest)
          | [] => ([], [])
        let digits := behind.takeWhile Char.isDigit
        if digits.isEmpty then ([], cs) else (c :: sign ++ digits, behind.dropWhile Char.isDigit)
      else ([], cs)
    | [] => ([], [])

/-- The operators of more than one character, longer ones before their beginnings. -/
def longSymbols : List String :=
  ["!~~*", "->>", "#>>", "||/", "<=>", "!~*", "!~~", "~~*", "->", "#>", "#-", "|/", "||", "=>",
    "==", "!=", "!!", "!~", "<=", "<>", "<<", "<@", ">=", ">>", "::", ":=", "&&", "^@", "~*", "~~",
    "@>", "@?", "@@"]

/-- The operators and punctuation marks of one character. -/
def shortSymbols : List Char :=
  ['(', ')', ',', '-', '/', '+', '*', '%', '|', '=', '!', '<', '>', ':', ';', '\\', '[', ']', '&',
    '^', '\x7b', '\x7d', '~', '#', '@']

/-- The operator or punctuation mark at the front of a text. -/
def symbolToken? (cs : List Char) : Option (Token × List Char) :=
  match longSymbols.find? fun s => s.toList.isPrefixOf cs with
  | some s =>
    -- The two spellings of inequality are one operator.
    some (.symbol (if s == "<>" then "!=" else s), cs.drop s.length)
  | none =>
    match cs with
    | c :: rest =>
      if shortSymbols.contains c then some (.symbol (String.singleton c), rest) else none
    | [] => none

/-- A word that starts with the given characters. -/
def wordToken (dialect : Dialect) (start rest : List Char) : Token × List Char :=
  (.bare (start ++ rest.takeWhile (continuesWord dialect)),
    rest.dropWhile (continuesWord dialect))

/-- A word, or a string that a letter in front of its apostrophe marks. -/
def markedString (dialect : Dialect) (c : Char) (rest : List Char) :
    Option (Token × List Char) :=
  match rest with
  | '\'' :: cs =>
    if c == 'e' || c == 'E' then
      (escapedString (cs.length + 1) cs).map fun (value, rest) =>
        (.escaped (String.ofList value), rest)
    else
      let form := if c == 'n' || c == 'N' then LiteralForm.national else .hexadecimal
      (quotedString true cs).map fun (_, rest) => (.literal form, rest)
  | _ => some (wordToken dialect [c] rest)

/-- A word of MS SQL that starts with `#` or `@`, where the mark itself is taken as an operator in
front of a space. -/
def markedWord? (dialect : Dialect) : List Char → Option (Token × List Char)
  | '@' :: '@' :: c :: rest =>
    if dialect = .msSql && c != ' ' then some (wordToken dialect ['@', '@', c] rest) else none
  | '@' :: c :: rest =>
    if dialect = .msSql && c != ' ' && c != '>' && c != '?' && c != '@' then
      some (wordToken dialect ['@', c] rest)
    else none
  | '#' :: c :: rest =>
    if dialect = .msSql && c != ' ' && c != '>' && c != '-' then
      some (wordToken dialect ['#', c] rest)
    else none
  | _ => none

/-- What starts with a question mark: an operator in PostgreSQL, elsewhere a parameter. The plain
operator takes the character behind it along. -/
def questionToken (dialect : Dialect) (cs : List Char) : Token × List Char :=
  if dialect = .postgres then
    match cs with
    | '|' :: rest => (.symbol "?|", rest)
    | '&' :: rest => (.symbol "?&", rest)
    | _ => (.symbol "?", cs.drop 1)
  else (.placeholder, cs.dropWhile Text.isNumeric)

/-- The token at the front of a text, if it leaves one, and the text behind it. -/
def nextToken (dialect : Dialect) (cs : List Char) : Option (Option Token × List Char) :=
  match cs with
  | [] => some (none, [])
  | '-' :: '-' :: rest => some (none, (rest.dropWhile (· ≠ '\n')).drop 1)
  | '/' :: '*' :: rest => (skipComment 1 ' ' rest).map fun rest => (none, rest)
  | '\'' :: rest =>
    (quotedString (dialect = .clickHouse) rest).map fun (value, rest) =>
      (some (.string (String.ofList value)), rest)
  | '?' :: rest =>
    let (token, rest) := questionToken dialect rest
    some (some token, rest)
  | '$' :: rest => (dollarToken rest).map fun (token, rest) => (some token, rest)
  | c :: rest =>
    match closingQuote? dialect c with
    | some close => (quotedName close rest).map fun (name, rest) => (some (.quoted c name), rest)
    | none =>
      if Text.isBlank c then some (none, rest)
      else if c.isDigit || c == '.' then
        let (token, rest) := numberToken cs
        some (some token, rest)
      else if ['n', 'N', 'e', 'E', 'x', 'X'].contains c then
        (markedString dialect c rest).map fun (token, rest) => (some token, rest)
      else
        match markedWord? dialect cs with
        | some (token, rest) => some (some token, rest)
        | none =>
          match symbolToken? cs with
          | some (token, rest) => some (some token, rest)
          | none =>
            if startsWord dialect c then
              let (token, rest) := wordToken dialect [c] rest
              some (some token, rest)
            else some (some (.unknown c), rest)

/-- The tokens of a text. The number bounds their count. -/
def tokens (dialect : Dialect) : Nat → List Char → Option (List Token)
  | _, [] => some []
  | 0, _ => none
  | fuel + 1, cs => do
    let (token, rest) ← nextToken dialect cs
    let more ← tokens dialect fuel rest
    return token.toList ++ more

/-- The tokens of a text, unless something in it is left open. -/
def tokenize (dialect : Dialect) (text : String) : Option (List Token) :=
  tokens dialect text.toList.length text.toList

end SchemaMigration.Sql
