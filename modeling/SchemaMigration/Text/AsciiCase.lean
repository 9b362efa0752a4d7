/-!
# Case of ASCII letters

Names are compared without regard to the case of the letters `A` to `Z`; every other character is
compared as it is. `Char.toLower` and `Char.toUpper` know just these letters.
-/

namespace SchemaMigration.Text

/-- The text with the letters `A` to `Z` written small. -/
def lowerAscii (s : String) : String := s.map Char.toLower

/-- The text with the letters `a` to `z` written large. -/
def upperAscii (s : String) : String := s.map Char.toUpper

/-- Two texts agree but for the case of ASCII letters. -/
def sameIgnoringCase (s t : String) : Bool := lowerAscii s == lowerAscii t

end SchemaMigration.Text
