import Stencil.Number.Shortest
import Stencil.Number.Digits
set_option autoImplicit false

/-!
# Written numbers

Integers are written in decimal digits with a minus sign where they are
negative.  A double is written by its shortest decimal: in positional notation
with at least one digit after the point when its first digit stands at a place
from 10⁻³ to 10⁶, and else as a first digit, a point, at least one more digit, and
the place of the first digit after an `E`.
-/

namespace Stencil.Number

/-- The sign and the digits of an integer. -/
def integerText (n : Int) : List Char :=
  (if n < 0 then ['-'] else []) ++ Nat.toDigits 10 n.natAbs

namespace Decimal

/-- The digits of a decimal without the zeros at their end. -/
def significant (d : Decimal) : List Char :=
  withoutTrailingZeros (Nat.toDigits 10 d.digits)

/-- The digits before the point, at least one. -/
def wholePart (d : Decimal) : List Char :=
  if d.point ≤ 0 then ['0']
  else d.significant.take d.point.toNat ++
    List.replicate (d.point.toNat - d.significant.length) '0'

/-- The digits after the point, without zeros at their end. -/
def fractionPart (d : Decimal) : List Char :=
  if d.point ≤ 0 then List.replicate (-d.point).toNat '0' ++ d.significant
  else d.significant.drop d.point.toNat

/-- Positional notation, without a point when no digit follows it. -/
def plain (d : Decimal) : List Char :=
  d.wholePart ++ if d.fractionPart.isEmpty then [] else '.' :: d.fractionPart

/-- Positional notation with at least one digit after the point. -/
def positional (d : Decimal) : List Char :=
  d.wholePart ++ '.' :: if d.fractionPart.isEmpty then ['0'] else d.fractionPart

/-- Scientific notation with at least one digit after the point. -/
def scientific (d : Decimal) : List Char :=
  let more := d.significant.drop 1
  d.significant.take 1 ++ '.' :: (if more.isEmpty then ['0'] else more) ++
    'E' :: integerText (d.point - 1)

/-- The decimal is zero, or its first digit stands at a place from 10⁻³ to 10⁶. -/
def isModerate (d : Decimal) : Bool :=
  d.digits == 0 || (-3 < d.point && d.point ≤ 7)

end Decimal

/-- A double's sign, and for the magnitude of a finite one the text `ofDecimal` gives its shortest
decimal. -/
def doubleTextWith (ofDecimal : Decimal → List Char) (x : Float) : List Char :=
  if x.isNaN then "NaN".toList
  else
    (if Binary64.isNegative x then ['-'] else []) ++
      if x.isInf then "Infinity".toList
      else ofDecimal (Shortest.decimal (Binary64.magnitude x))

/-- The written form of a double. -/
def doubleText : Float → List Char :=
  doubleTextWith fun d => if d.isModerate then d.positional else d.scientific

/-- The positional form of a double, in which a whole number has no point. -/
def plainText : Float → List Char :=
  doubleTextWith Decimal.plain

end Stencil.Number
