import SchemaMigration.Decimal.Shortest

/-!
# Documents

A document is a JSON text as far as it could be read. Objects keep their members in the order of
the text and keep repeated names. A text that breaks off is not rejected as a whole: the document
holds what stood before the break, so that a reader of the document meets its faults in the order
of the text. `Json.broken` stands for a value at which the text stops being JSON, and
`closed = false` marks an array or object that the text leaves open. `Json.refused` is a value
that is well formed but must not be used: a number beyond the range of a double, a lone surrogate,
or brackets nested beyond the limit. It may only be skipped.
-/

namespace SchemaMigration

/-- A numeral as written. Integers are exact; a fraction, an exponent or the text `-0` make a
decimal, whose digits are kept. -/
inductive Numeral where
  | integer (value : Int)
  | decimal (negative : Bool) (whole fraction : List Char) (exponent : Int)
  deriving DecidableEq, Repr, Inhabited

/-- A JSON text as far as it could be read. -/
inductive Json where
  | null
  | bool (value : Bool)
  | number (value : Numeral)
  | string (value : String)
  | array (items : List Json) (closed : Bool)
  | object (members : List (String × Json)) (closed : Bool)
  | refused (content : Option Json)
  | broken
  deriving Repr, Inhabited

namespace Numeral

/-- The value of a decimal digit. -/
def digitValue (c : Char) : Nat := c.toNat - '0'.toNat

/-- The largest integer held exactly in 64 bits. -/
def wordLimit : Nat := Nat.pow 2 64 - 1

/-- Appends digits to a number as long as it fits 64 bits; also the count of digits left over. -/
def accumulate (start : Nat) : List Char → Nat × List Char
  | [] => (start, [])
  | c :: cs =>
    let next := start * 10 + digitValue c
    if wordLimit < next then (start, c :: cs) else accumulate next cs

/-- A number with at most 64 significant bits and the power of ten that scales it. Digits beyond
the 64 bits count for the power only. -/
def significand (whole fraction : List Char) (exponent : Int) : Nat × Int :=
  let (first, dropped) := accumulate 0 whole
  let (all, rest) := accumulate first fraction
  (all, exponent + dropped.length - (fraction.length - rest.length : Nat))

/-- The double next to `digits · 10^exponent`: one multiplication or division by a power of ten,
after as many divisions by `10^308` as the exponent needs. -/
def scale : Nat → Float → Int → Float
  | 0, x, _ => x
  | fuel + 1, x, exponent =>
    if exponent.natAbs ≤ 308 then
      let power := Float.ofScientific 1 false exponent.natAbs
      if 0 ≤ exponent then x * power else x / power
    else if x == 0.0 then x
    else if 0 ≤ exponent then 1.0 / 0.0
    else scale fuel (x / Float.ofScientific 1 false 308) (exponent + 308)

/-- The double that a numeral stands for; infinite if it is out of range. -/
def toFloat : Numeral → Float
  | integer value => if value < 0 then -Float.ofNat value.natAbs else Float.ofNat value.natAbs
  | decimal negative whole fraction exponent =>
    let (digits, power) := significand whole fraction exponent
    let size := scale 3 (Float.ofNat digits) power
    if negative then -size else size

/-- Whether the numeral is within the range of a double, as all integers of 64 bits are. -/
def inRange : Numeral → Bool
  | integer value => value.natAbs ≤ wordLimit || (integer value).toFloat.isFinite
  | n => n.toFloat.isFinite

end Numeral

namespace Json

/-- A complete array. -/
def list (items : List Json) : Json := .array items true

/-- A complete object. -/
def record (members : List (String × Json)) : Json := .object members true

/-- An integer. -/
def integer (value : Int) : Json := .number (.integer value)

mutual

/-- Whether a value is well formed, so that it may be skipped. -/
def isWellFormed : Json → Bool
  | .array items closed => closed && allWellFormed items
  | .object members closed => closed && membersWellFormed members
  | .refused (some content) => isWellFormed content
  | .broken => false
  | _ => true

/-- `isWellFormed` of every item. -/
def allWellFormed : List Json → Bool
  | [] => true
  | item :: items => isWellFormed item && allWellFormed items

/-- `isWellFormed` of every member. -/
def membersWellFormed : List (String × Json) → Bool
  | [] => true
  | (_, value) :: members => isWellFormed value && membersWellFormed members

end

mutual

/-- Whether a value is well formed and holds nothing that must not be used. -/
def isUsable : Json → Bool
  | .array items closed => closed && allUsable items
  | .object members closed => closed && membersUsable members
  | .refused _ | .broken => false
  | _ => true

/-- `isUsable` of every item. -/
def allUsable : List Json → Bool
  | [] => true
  | item :: items => isUsable item && allUsable items

/-- `isUsable` of every member. -/
def membersUsable : List (String × Json) → Bool
  | [] => true
  | (_, value) :: members => isUsable value && membersUsable members

end

/-- The first member of the given name. -/
def member? (name : String) : Json → Option Json
  | .object members _ => (members.find? fun entry => entry.1 == name).map (·.2)
  | _ => none

end Json

end SchemaMigration
