import SchemaMigration.Selection.Regex

/-!
# Wildcard patterns

In a pattern `*` stands for any characters, `?` for one character, and every other character for
itself without regard to case. Neither wildcard stands for a line feed. A pattern matches a text
only as a whole: it is written out as a regular expression between the two anchors.
-/

namespace SchemaMigration.Wildcard

/-- A character of a pattern as an expression. -/
def written (c : Char) : String :=
  if c = '*' then ".*" else if c = '?' then "." else Regex.escape c.toString

/-- A pattern as an expression. -/
def source (pattern : String) : String := "^" ++ .join (pattern.toList.map written) ++ "$"

/-- The expression of a pattern. -/
def regex? (pattern : String) : Option Regex := Regex.build? (source pattern) true

/-- Whether a text as a whole fits a pattern. -/
def accepts (pattern text : String) : Bool := (regex? pattern).any (·.isMatch text)

end SchemaMigration.Wildcard
