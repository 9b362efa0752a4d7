import SchemaMigration.Text.CaseFold

/-!
# Regular expressions

Regular expressions as sequences of characters, dots, anchors and their repetitions by a star. A dot
stands for any character but a line feed, and the anchors hold only at the two ends of a text. An
expression is found in a text wherever it matches a piece of it; only anchors tie it to the ends.

The search keeps the rests of the expression that may still follow after the characters read so far,
so that its cost is bounded by the number of rests and the length of the text.
-/

namespace SchemaMigration

/-- A regular expression. -/
inductive Regex where
  | empty
  /-- The start of the text. -/
  | start
  /-- The end of the text. -/
  | stop
  | any
  | char (c : Char) (ignoreCase : Bool)
  | star (r : Regex)
  | concat (r s : Regex)
  deriving DecidableEq, Repr

namespace Regex

/-! ## Reading -/

/-- Characters that mean something else than themselves, here or in a class. -/
def isMeta (c : Char) : Bool :=
  ['\\', '.', '+', '*', '?', '(', ')', '|', '[', ']', '{', '}', '^', '$', '#', '&', '-',
    '~'].contains c

/-- A text as an expression that stands for it. -/
def escape (text : String) : String :=
  .join (text.toList.map fun c => if isMeta c then "\\" ++ c.toString else c.toString)

/-- The elements of an expression that is written out, after those read before, the last one first.
Alternatives, groups, classes and other repetitions are none. -/
def elements? (ignoreCase : Bool) : List Regex → List Char → Option (List Regex)
  | done, [] => some done.reverse
  | done, '\\' :: c :: cs =>
    if isMeta c then elements? ignoreCase (.char c ignoreCase :: done) cs else none
  | repeated :: done, '*' :: cs => elements? ignoreCase (.star repeated :: done) cs
  | done, '.' :: cs => elements? ignoreCase (.any :: done) cs
  | done, '^' :: cs => elements? ignoreCase (.start :: done) cs
  | done, '$' :: cs => elements? ignoreCase (.stop :: done) cs
  | done, c :: cs =>
    if ['\\', '*', '+', '?', '(', ')', '|', '[', '{'].contains c then none
    else elements? ignoreCase (.char c ignoreCase :: done) cs

/-- One expression after the other. -/
def sequence (rs : List Regex) : Regex := rs.foldr concat empty

/-- The expression that a text writes out, with or without regard to case. -/
def build? (source : String) (ignoreCase : Bool) : Option Regex :=
  (elements? ignoreCase [] source.toList).map sequence

/-! ## Searching -/

/-- Whether an expression matches nothing at a place of a text. -/
def nullable (atStart atEnd : Bool) : Regex → Bool
  | empty | star _ => true
  | start => atStart
  | stop => atEnd
  | any | char .. => false
  | concat r s => r.nullable atStart atEnd && s.nullable atStart atEnd

/-- Two expressions after each other, without an empty one in front. -/
def andThen : Regex → Regex → Regex
  | empty, s => s
  | r, s => concat r s

/-- Whether a character is the one that an expression names. -/
def isSame (ignoreCase : Bool) (p c : Char) : Bool :=
  if ignoreCase then Text.sameFolded p c else p == c

/-- The rests of an expression after a first character. -/
def advance (atStart : Bool) (c : Char) : Regex → List Regex
  | empty | start | stop => []
  | any => if c = '\n' then [] else [empty]
  | char p ignoreCase => if isSame ignoreCase p c then [empty] else []
  | star r => (r.advance atStart c).map (·.andThen (star r))
  | concat r s =>
    (r.advance atStart c).map (·.andThen s) ++
      if r.nullable atStart false then s.advance atStart c else []

/-- Whether a match ends in what follows of a text, one that has come as far as one of the rests or
one that begins there. -/
def findsFrom (r : Regex) (atStart : Bool) (rests : List Regex) : List Char → Bool
  | [] => (r :: rests).any (nullable atStart true)
  | c :: cs =>
    (r :: rests).any (nullable atStart false) ||
      r.findsFrom false ((r :: rests).flatMap (advance atStart c)).eraseDups cs

/-- Whether an expression matches a piece of a text. -/
def isMatch (r : Regex) (text : String) : Bool := r.findsFrom true [] text.toList

end Regex

end SchemaMigration
