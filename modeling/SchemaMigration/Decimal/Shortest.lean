/-!
# The shortest decimal text of a binary fraction

A finite double is `m · 2^q`. Every real between the midpoints to its two neighbours reads back as
the same double; the midpoints themselves do so when `m` is even. `shortest` looks for a decimal
with as few digits as possible in that interval, on the grids of 1, 2, … 17 digits, and takes the
one nearer to the value when a grid offers two.
-/

namespace SchemaMigration.Decimal

/-- A positive double as an integer times a power of two, with the two distances to its
neighbours: below a power of two the neighbour is half as far away. -/
structure Dyadic where
  mantissa : Nat
  exponent : Int
  isPowerBoundary : Bool
  deriving Repr

/-- The parts of a positive finite double. -/
def Dyadic.ofFloat (x : Float) : Dyadic :=
  let bits : Nat := x.toBits.toNat
  let fraction : Nat := bits % Nat.pow 2 52
  let stored : Nat := bits / Nat.pow 2 52 % Nat.pow 2 11
  if stored = 0 then ⟨fraction, -1074, false⟩
  else ⟨fraction + Nat.pow 2 52, (stored : Int) - 1075, fraction == 0 && 1 < stored⟩

/-- A decimal `digits · 10^exponent`. -/
structure Scientific where
  digits : Nat
  exponent : Int
  deriving Repr, DecidableEq

/-- The value of a double and the interval that reads back as it, over a common denominator. -/
structure Interval where
  low : Nat
  value : Nat
  high : Nat
  denominator : Nat
  closed : Bool

/-- The reals that read back as the given double. -/
def Dyadic.interval (d : Dyadic) : Interval :=
  let up := if 0 ≤ d.exponent then Nat.pow 2 d.exponent.toNat else 1
  let down := if 0 ≤ d.exponent then 1 else Nat.pow 2 (-d.exponent).toNat
  let value := 4 * d.mantissa * up
  { low := value - (if d.isPowerBoundary then 1 else 2) * up
    value
    high := value + 2 * up
    denominator := 4 * down
    closed := d.mantissa % 2 == 0 }

/-- Whether `digits · 10^exponent` lies in the interval. -/
def Interval.contains (i : Interval) (s : Scientific) : Bool :=
  let up := if 0 ≤ s.exponent then Nat.pow 10 s.exponent.toNat else 1
  let down := if 0 ≤ s.exponent then 1 else Nat.pow 10 (-s.exponent).toNat
  let point := s.digits * up * i.denominator
  if i.closed then i.low * down ≤ point && point ≤ i.high * down
  else i.low * down < point && point < i.high * down

/-- The point of the grid of multiples of `10^exponent` in the interval that is nearest to the
value, if there is one. -/
def Interval.nearestOn (i : Interval) (exponent : Int) : Option Scientific :=
  let up := if 0 ≤ exponent then Nat.pow 10 exponent.toNat else 1
  let down := if 0 ≤ exponent then 1 else Nat.pow 10 (-exponent).toNat
  let step := up * i.denominator
  let below := i.value * down / step
  let floor : Scientific := ⟨below, exponent⟩
  let ceiling : Scientific := ⟨below + 1, exponent⟩
  let floorFits := i.contains floor && below != 0
  if floorFits && i.contains ceiling then
    if 2 * (i.value * down - below * step) ≤ step then some floor else some ceiling
  else if floorFits then some floor
  else if i.contains ceiling then some ceiling
  else none

/-- The exponent of the first decimal digit of `value / denominator`. -/
def leadingExponent (value denominator : Nat) : Int :=
  let estimate : Int := (Nat.toDigits 10 value).length - (Nat.toDigits 10 denominator).length
  let reached (e : Int) : Bool :=
    if 0 ≤ e then denominator * Nat.pow 10 e.toNat ≤ value
    else denominator ≤ value * Nat.pow 10 (-e).toNat
  if reached estimate then estimate else estimate - 1

/-- The shortest decimal that reads back as the positive finite double, nearest to it among
those of its length. -/
def shortest (x : Float) : Scientific :=
  let i := (Dyadic.ofFloat x).interval
  let leading := leadingExponent i.value i.denominator
  let candidates := (List.range 18).filterMap fun (n : Nat) => i.nearestOn (leading - n)
  candidates.headD ⟨0, 0⟩

/-- The decimal in positional notation, with at least one digit on either side of the point. -/
def Scientific.positional (digits : List Char) (exponent : Int) : List Char :=
  if 0 ≤ exponent then digits ++ List.replicate exponent.toNat '0' ++ ['.', '0']
  else
    let places := (-exponent).toNat
    let padded := List.replicate (places + 1 - digits.length) '0' ++ digits
    padded.take (padded.length - places) ++ '.' :: padded.drop (padded.length - places)

/-- The decimal with a power of ten: a point after the first digit if others follow it. -/
def Scientific.exponential (digits : List Char) (leading : Int) : List Char :=
  let power := 'e' :: (toString leading).toList
  match digits with
  | [] => power
  | [d] => d :: power
  | d :: ds => d :: '.' :: ds ++ power

/-- Values from `10^-5` up to, but without, `10^16` are written positionally, others with a power
of ten. Zeros at the end of the digits count for the exponent and not as digits. -/
def Scientific.text (s : Scientific) : String :=
  let all := Nat.toDigits 10 s.digits
  let zeros := (all.reverse.takeWhile (· == '0')).length
  let digits := all.take (all.length - zeros)
  let exponent := s.exponent + zeros
  let leading : Int := digits.length + exponent - 1
  String.ofList <|
    if -6 < leading && leading < 16 then positional digits exponent
    else exponential digits leading

/-- The text of a finite double, with as few digits as read back as it. -/
def shortestText (x : Float) : String :=
  let isNegative := x.toBits.toNat / Nat.pow 2 63 == 1
  let size := x.abs
  (if isNegative then "-" else "") ++ (if size == 0.0 then "0.0" else (shortest size).text)

end SchemaMigration.Decimal
