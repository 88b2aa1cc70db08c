import FieldSelection.Number.Binary64

/-!
The shortest decimal text of a number with a binary point.

Of all decimals that are read back as the number, the ones with the fewest digits
are taken, and of those the nearest; a tie goes to the even last digit. Numbers
from `1e-5` up to `1e16` are written positionally and always with a point, others
with an exponent that has a sign, as in `1e+16`.

* `Binary64.shortest`: the digits and the power of ten of the shortest decimal.
* `Binary64.text`: how a number is written.
-/

namespace FieldSelection

namespace Binary64

/-! ### The decimals that read back -/

/-- The number of digits of a natural number. -/
def digitCount (n : Nat) : Nat :=
  (Nat.toDigits 10 n).length

/-- The exponent of the leading decimal digit of a positive fraction. -/
def leadingDigit (num den : Nat) : Int :=
  if den ≤ num then (digitCount (num / den) : Int) - 1
  else -(digitCount ((den + num - 1) / num - 1) : Int)

/-- A magnitude together with the magnitudes that round to it: all three are
counted in quarters of the last place of the number, over one denominator. -/
structure Interval where
  low : Nat
  value : Nat
  high : Nat
  den : Nat
  closed : Bool
  deriving Repr

/-- The magnitudes that round to a number. Both ends belong to them exactly if
the significand is even; below a power of two the neighbour is half as far
away. -/
def interval (x : Binary64) : Interval :=
  let scale := power 2 x.exponent
  let below := if x.significand = power 2 52 && decide (-1074 < x.exponent) then 1 else 2
  { low := (4 * x.significand - below) * scale
    value := 4 * x.significand * scale
    high := (4 * x.significand + 2) * scale
    den := 4 * power 2 (-x.exponent)
    closed := x.significand % 2 == 0 }

/-- Whether `digits · 10 ^ exponent` is a magnitude of an interval. -/
def Interval.holds (i : Interval) (digits : Nat) (exponent : Int) : Bool :=
  let num := digits * power 10 exponent * i.den
  let scale := power 10 (-exponent)
  if i.closed then i.low * scale ≤ num && num ≤ i.high * scale
  else i.low * scale < num && num < i.high * scale

/-- The decimal with digits down to `10 ^ exponent` that is nearest to the value
of an interval among those that lie in the interval. -/
def Interval.onGrid? (i : Interval) (exponent : Int) : Option Nat :=
  let num := i.value * power 10 (-exponent)
  let den := i.den * power 10 exponent
  let floor := num / den
  let rest := 2 * (num % den)
  let nearer := if rest < den || (rest == den && floor % 2 == 0) then floor else floor + 1
  let further := if nearer = floor then floor + 1 else floor
  if i.holds nearer exponent then some nearer
  else if i.holds further exponent then some further
  else none

/-- The first decimal of an interval on the grids from `10 ^ exponent` downwards;
`count` bounds how many grids are tried. -/
def Interval.first (i : Interval) : (count : Nat) → (exponent : Int) → Nat × Int
  | 0, _ => (0, 0)
  | count + 1, exponent =>
    match i.onGrid? exponent with
    | some digits => (digits, exponent)
    | none => i.first count (exponent - 1)

/-- The digits and the power of ten of the shortest decimal that is read back as
the magnitude of a number. Seventeen digits are always enough. -/
def shortest (x : Binary64) : Nat × Int :=
  if x.significand = 0 then (0, 0)
  else x.interval.first 18 (leadingDigit x.fraction.1 x.fraction.2 + 1)

/-! ### Writing -/

/-- A whole number with its sign, which a positive one has as well. -/
def signedText (n : Int) : List Char :=
  (if n < 0 then '-' else '+') :: Nat.toDigits 10 n.natAbs

/-- How digits and a power of ten are written: positionally with a point if the
number has at most sixteen digits before the point and fewer than five zeros
after it, otherwise with an exponent. -/
def layOut (digits : List Char) (exponent : Int) : List Char :=
  let point : Int := digits.length + exponent
  if 0 ≤ exponent && point ≤ 16 then
    digits ++ List.replicate exponent.toNat '0' ++ ['.', '0']
  else if 0 < point && point ≤ 16 then
    digits.take point.toNat ++ '.' :: digits.drop point.toNat
  else if -5 < point && point ≤ 0 then
    '0' :: '.' :: (List.replicate (-point).toNat '0' ++ digits)
  else
    digits.take 1 ++ (if digits.length = 1 then [] else '.' :: digits.drop 1) ++
      'e' :: signedText (point - 1)

/-- The decimal digits of a number without the zeros at its end, and how many
zeros there were. -/
def significantDigits (n : Nat) : List Char × Nat :=
  let digits := (Nat.toDigits 10 n).reverse
  ((digits.dropWhile (· == '0')).reverse, (digits.takeWhile (· == '0')).length)

/-- How a number is written. -/
def text (x : Binary64) : String :=
  let sign := if x.negative then ['-'] else []
  if x.significand = 0 then .ofList (sign ++ ['0', '.', '0'])
  else
    let (n, exponent) := x.shortest
    let (digits, zeros) := significantDigits n
    .ofList (sign ++ layOut digits (exponent + zeros))

end Binary64

end FieldSelection
