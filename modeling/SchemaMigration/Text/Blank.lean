/-!
# Blank characters and trimming

`isBlank` is the Unicode property White_Space. Trimming removes blank characters from the ends
of a text and keeps everything between the first and the last character that is not blank.
-/

namespace SchemaMigration.Text

/-- The characters with the Unicode property White_Space. -/
def isBlank (c : Char) : Bool :=
  let n := c.toNat
  (9 ≤ n && n ≤ 13) || n == 32 || n == 0x85 || n == 0xA0 || n == 0x1680 ||
    (0x2000 ≤ n && n ≤ 0x200A) || n == 0x2028 || n == 0x2029 || n == 0x202F ||
    n == 0x205F || n == 0x3000

/-- The characters of a list without the longest end of it that satisfies `p`. -/
def dropEndWhile (p : Char → Bool) (cs : List Char) : List Char :=
  (cs.reverse.dropWhile p).reverse

/-- The text without the characters at either end that satisfy `p`. -/
def trimWhere (p : Char → Bool) (s : String) : String :=
  String.ofList (dropEndWhile p (s.toList.dropWhile p))

/-- The text without blank characters at its ends. -/
def trim (s : String) : String := trimWhere isBlank s

/-- The text without blank characters at its end. -/
def trimEnd (s : String) : String := String.ofList (dropEndWhile isBlank s.toList)

/-- The text without the repetitions of `suffix` at its end; an empty suffix removes nothing. -/
def trimSuffixes (suffix : String) (s : String) : String :=
  go s.toList.length s.toList.reverse
where
  /-- Works on the reversed text, which gets shorter with each suffix that is found. -/
  go : Nat → List Char → String
    | 0, cs => String.ofList cs.reverse
    | fuel + 1, cs =>
      let tail := suffix.toList.reverse
      if tail.isPrefixOf cs && !tail.isEmpty then go fuel (cs.drop tail.length)
      else String.ofList cs.reverse

/-- Nothing at the end of the shortened list satisfies the test. -/
theorem dropEndWhile_nil (p : Char → Bool) : dropEndWhile p [] = [] := rfl

end SchemaMigration.Text
