import Stencil.Number.Binary64
set_option autoImplicit false

/-!
# Decimals

A decimal is a whole number scaled by a power of ten.  Every decimal has a
nearest double, which is infinite when the decimal is too large.
-/

namespace Stencil.Number

/-- The number `digits * 10 ^ exponent`. -/
structure Decimal where
  digits : Nat
  exponent : Int
  deriving DecidableEq, Repr

namespace Decimal

/-- Where the decimal point stands, counted from in front of the first digit: a positive decimal
is below `10 ^ point` and not below `10 ^ (point - 1)`. -/
def point (d : Decimal) : Int := (Nat.toDigits 10 d.digits).length + d.exponent

/-- The magnitude of the double nearest to the decimal.  Decimals far outside the range of the
doubles are decided by their decimal point, so that no huge power of ten is formed. -/
def magnitude (d : Decimal) : Nat :=
  if d.digits = 0 then 0
  else if 310 < d.point then Binary64.infinityMagnitude
  else if d.point < -330 then 0
  else if 0 ≤ d.exponent then Binary64.nearest (d.digits * Nat.pow 10 d.exponent.toNat) 1
  else Binary64.nearest d.digits (Nat.pow 10 (-d.exponent).toNat)

/-- The double nearest to the decimal, or to its opposite. -/
def toFloat (negative : Bool) (d : Decimal) : Float :=
  Binary64.ofMagnitude negative d.magnitude

end Decimal

end Stencil.Number
