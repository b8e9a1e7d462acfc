import Stencil.Number.Rounding
set_option autoImplicit false

/-!
# Doubles as whole numbers

The bits of a double without its sign are its *magnitude*: they order the
doubles of one sign, and `infinityMagnitude` stands for infinity.  Every finite
double is a whole number of units of 2⁻¹⁰⁷⁴, the smallest positive one, so exact
statements about doubles are statements about `units`.  `nearest` gives the
magnitude that stands nearest to a quotient, ties going to the even magnitude.
-/

namespace Stencil.Number.Binary64

/-- How many units make one. -/
def one : Nat := Nat.pow 2 1074

/-- The magnitude of infinity. -/
def infinityMagnitude : Nat := 2047 * Nat.pow 2 52

/-- The bits of a double without the sign. -/
def magnitude (x : Float) : Nat := x.toBits.toNat % Nat.pow 2 63

/-- The sign bit is set. -/
def isNegative (x : Float) : Bool := Nat.pow 2 63 ≤ x.toBits.toNat

/-- The double with the given sign and magnitude. -/
def ofMagnitude (negative : Bool) (m : Nat) : Float :=
  Float.ofBits (UInt64.ofNat (if negative then Nat.pow 2 63 + m else m))

/-- How many units, as a power of two, lie between a magnitude and the next. -/
def scale (m : Nat) : Nat := m / Nat.pow 2 52 - 1

/-- The value of a finite magnitude in units. -/
def units (m : Nat) : Nat := (m - scale m * Nat.pow 2 52) * Nat.pow 2 (scale m)

/-- The magnitude nearest to `num / den`, the even one of two equally near; infinity from half a
step beyond the largest finite value on. -/
def nearest (num den : Nat) : Nat :=
  let s := Nat.log2 (num * one / den) - 52
  min infinityMagnitude (s * Nat.pow 2 52 + roundHalfEven (num * one) (den * Nat.pow 2 s))

end Stencil.Number.Binary64
