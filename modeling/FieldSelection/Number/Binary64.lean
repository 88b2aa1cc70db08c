/-!
Numbers of 64 bits with a binary point, and rounding to them.

A finite number is `± significand · 2 ^ exponent`, with at most 53 bits in its
significand and an exponent from `-1074` up to `971`. Everything is computed with
exact natural numbers.

* `Binary64.nearest`: the number nearest to a fraction, a tie going to the even
  significand, and `none` when the fraction is too large.
* `Binary64.ofDecimal`: the number that a decimal significand and a power of ten
  are read as.
-/

namespace FieldSelection

/-- A power of a natural number; a negative exponent counts as zero, so that
`base ^ e` is the fraction `power base e / power base (-e)`. -/
def power (base : Nat) (exponent : Int) : Nat :=
  Nat.pow base exponent.toNat

/-- A finite number of 64 bits with a binary point. -/
structure Binary64 where
  negative : Bool
  significand : Nat
  exponent : Int
  deriving DecidableEq, Repr

namespace Binary64

/-- Zero. -/
def zero : Binary64 :=
  ⟨false, 0, -1074⟩

/-- The same number with the sign given. -/
def withSign (negative : Bool) (x : Binary64) : Binary64 :=
  { x with negative }

/-- The magnitude of a number as a fraction. -/
def fraction (x : Binary64) : Nat × Nat :=
  (x.significand * power 2 x.exponent, power 2 (-x.exponent))

/-! ### Rounding -/

/-- The whole number nearest to a fraction; a tie goes to the even one. -/
def roundDiv (num den : Nat) : Nat :=
  let floor := num / den
  let rest := 2 * (num % den)
  if rest < den || (rest == den && floor % 2 == 0) then floor else floor + 1

/-- The exponent of the leading bit of a positive fraction. -/
def leadingBit (num den : Nat) : Int :=
  let guess : Int := (num.log2 : Int) - den.log2
  if den * power 2 guess ≤ num * power 2 (-guess) then guess else guess - 1

/-- The number nearest to a fraction, a tie going to the even significand. A
fraction that is too large for 64 bits has none. -/
def nearest (num den : Nat) : Option Binary64 :=
  if num = 0 then some zero
  else
    let exponent := max (leadingBit num den - 52) (-1074)
    let significand := roundDiv (num * power 2 (-exponent)) (den * power 2 exponent)
    let rounded : Binary64 :=
      if significand = power 2 53 then ⟨false, power 2 52, exponent + 1⟩
      else ⟨false, significand, exponent⟩
    if rounded.exponent ≤ 971 then some rounded else none

/-! ### Powers of ten -/

/-- The largest power of ten that has a number of its own. -/
def largestTen : Nat := 308

/-- The number nearest to a power of ten with an exponent up to `largestTen`. -/
def ten (exponent : Nat) : Nat × Nat :=
  ((nearest (power 10 exponent) 1).getD zero).fraction

/-- The number nearest to a magnitude times a power of ten. -/
def timesTen (x : Binary64) (exponent : Nat) : Option Binary64 :=
  nearest (x.fraction.1 * (ten exponent).1) (x.fraction.2 * (ten exponent).2)

/-- The number nearest to a magnitude divided by a power of ten. -/
def overTen (x : Binary64) (exponent : Nat) : Binary64 :=
  (nearest (x.fraction.1 * (ten exponent).2) (x.fraction.2 * (ten exponent).1)).getD zero

/-- Divide by a power of ten in steps of at most `largestTen`, rounding after each
of them. -/
def shrink (x : Binary64) (exponent : Nat) : Binary64 :=
  if exponent ≤ largestTen then x.overTen exponent
  else if x.significand = 0 then x
  else shrink (x.overTen largestTen) (exponent - largestTen)
termination_by exponent
decreasing_by simp only [largestTen] at *; omega

/-- The number that `significand · 10 ^ exponent` is read as: the significand and
the power are rounded on their own, and so is what comes of them. A magnitude
that is too large has no number. -/
def ofDecimal (significand : Nat) (exponent : Int) : Option Binary64 :=
  (nearest significand 1).bind fun x =>
    if exponent < 0 then some (x.shrink exponent.natAbs)
    else if exponent.natAbs ≤ largestTen then x.timesTen exponent.natAbs
    else if x.significand = 0 then some x
    else none

end Binary64

end FieldSelection
