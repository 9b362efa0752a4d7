/-!
# Cutting and joining texts at a character

`splitAt` cuts a text at every occurrence of a character and keeps empty pieces, so that joining
the pieces with that character gives the text back. `replaceEach` writes a given text for every
occurrence of a character, and `occursIn` looks for one list of characters inside another.
`compareSegments` is the order in which lists of texts are sorted.
-/

namespace SchemaMigration.Text

/-- The pieces between the occurrences of `sep`: one more than there are occurrences. -/
def splitChars (sep : Char) : List Char → List (List Char)
  | [] => [[]]
  | c :: cs =>
    if c = sep then [] :: splitChars sep cs
    else
      match splitChars sep cs with
      | [] => [[c]]
      | piece :: pieces => (c :: piece) :: pieces

/-- The pieces of a text between the occurrences of `sep`. -/
def splitAt (sep : Char) (s : String) : List String :=
  (splitChars sep s.toList).map String.ofList

/-- The text before the first occurrence of `sep`, or the whole text. -/
def before (sep : Char) (s : String) : String :=
  String.ofList (s.toList.takeWhile (· ≠ sep))

/-- Every occurrence of `c` becomes `replacement`; other characters stay. -/
def replaceChars (c : Char) (replacement : List Char) (cs : List Char) : List Char :=
  cs.flatMap fun x => if x = c then replacement else [x]

/-- Every occurrence of `c` in the text becomes `replacement`. -/
def replaceEach (c : Char) (replacement : String) (s : String) : String :=
  String.ofList (replaceChars c replacement.toList s.toList)

/-- The texts with `sep` between each two. -/
def join (sep : String) (texts : List String) : String := sep.intercalate texts

/-- The texts with a comma and a space between each two. -/
def commaList (texts : List String) : String := join ", " texts

/-- Whether some characters stand next to each other somewhere in others. -/
def occursIn (part : List Char) : List Char → Bool
  | [] => part.isEmpty
  | c :: cs => part.isPrefixOf (c :: cs) || occursIn part cs

/-- Lexicographic comparison of lists of texts; the texts compare by code points. -/
def compareSegments : List String → List String → Ordering
  | [], [] => .eq
  | [], _ :: _ => .lt
  | _ :: _, [] => .gt
  | a :: as, b :: bs => (compare a b).then (compareSegments as bs)

end SchemaMigration.Text
