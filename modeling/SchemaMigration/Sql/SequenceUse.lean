import SchemaMigration.Text.Alphabetic
import SchemaMigration.Text.Blank

/-!
# Sequences in default expressions

A default draws from a sequence by calling `nextval` with the name in apostrophes, or by
`NEXT VALUE FOR` and the name. Both are found without regard to case, and uses of one form do not
overlap.
-/

namespace SchemaMigration.Sql

/-- The text behind a word, which is given in small letters and found in any case. -/
def behindWord? : List Char → List Char → Option (List Char)
  | [], cs => some cs
  | _ :: _, [] => none
  | w :: ws, c :: cs => if c.toLower = w then behindWord? ws cs else none

/-- The text behind one or more blank characters. -/
def behindBlanks? (cs : List Char) : Option (List Char) :=
  match cs with
  | c :: rest => if Text.isBlank c then some (rest.dropWhile Text.isBlank) else none
  | [] => none

/-- The name in a call of `nextval` at the front of a text, and the text behind its closing
apostrophe. -/
def nextvalCall? (cs : List Char) : Option (List Char × List Char) := do
  match (← behindWord? "nextval(".toList cs).dropWhile Text.isBlank with
  | '\'' :: rest =>
    let name := rest.takeWhile (· ≠ '\'')
    match name, rest.dropWhile (· ≠ '\'') with
    | _ :: _, _ :: rest => return (name, rest)
    | _, _ => none
  | _ => none

/-- The characters of a name behind `NEXT VALUE FOR`. -/
def isNamePart (c : Char) : Bool :=
  Text.isWordChar c || c == '.' || c == '[' || c == ']' || c == '"' || c == Char.ofNat 96

/-- The name behind `NEXT VALUE FOR` at the front of a text, and the text behind the name. -/
def nextValueFor? (cs : List Char) : Option (List Char × List Char) := do
  let cs ← behindBlanks? (← behindWord? "next".toList cs)
  let cs ← behindBlanks? (← behindWord? "value".toList cs)
  let cs ← behindBlanks? (← behindWord? "for".toList cs)
  match cs.takeWhile isNamePart with
  | [] => none
  | name => return (name, cs.dropWhile isNamePart)

/-- What a form finds in a text, from left to right. The number bounds the steps. -/
def occurrences (form : List Char → Option (List Char × List Char)) :
    Nat → List Char → List String
  | 0, _ => []
  | _ + 1, [] => []
  | fuel + 1, c :: cs =>
    match form (c :: cs) with
    | some (name, rest) => String.ofList name :: occurrences form fuel rest
    | none => occurrences form fuel cs

/-- The names of the sequences that an expression draws from: first all uses of the one form, then
those of the other. -/
def sequenceNames (expression : String) : List String :=
  let cs := expression.toList
  occurrences nextvalCall? cs.length cs ++ occurrences nextValueFor? cs.length cs

end SchemaMigration.Sql
