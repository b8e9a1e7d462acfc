import Stencil.Number.Numeral
set_option autoImplicit false

/-!
# Numbers

A number is a 64-bit integer or a double.  Integers are compared exactly among
themselves and as doubles with a double; NaN stands above everything else.
-/

namespace Stencil

/-- A 64-bit integer or a double. -/
inductive Number where
  | integer (n : Int64)
  | double (x : Float)
  deriving DecidableEq

/-- The 64-bit integer of a value, when the value is in range. -/
def toInt64? (n : Int) : Option Int64 :=
  if Int64.minValue.toInt ≤ n ∧ n ≤ Int64.maxValue.toInt then some (Int64.ofInt n) else none

/-- The double nearest to an integer. -/
def floatOfInt (n : Int) : Float :=
  Number.Binary64.ofMagnitude (n < 0) (Number.Binary64.nearest n.natAbs 1)

namespace Number

/-- The place of a double in the order of doubles: the two zeros share one, and NaN has the
highest.  NaN is one double here, with no sign; an order of bit patterns would put a NaN whose sign
bit is set below everything else. -/
def rank (x : Float) : Int :=
  if Binary64.isNegative x then -Binary64.magnitude x else Binary64.magnitude x

/-- The number as a double. -/
def toFloat : Number → Float
  | .integer n => floatOfInt n.toInt
  | .double x => x

/-- The number is zero, of either sign. -/
def isZero : Number → Bool
  | .integer n => n == 0
  | .double x => Binary64.magnitude x == 0

/-- The order of two numbers. -/
def order : Number → Number → Ordering
  | .integer a, .integer b => compare a.toInt b.toInt
  | a, b => compare (rank a.toFloat) (rank b.toFloat)

/-- The number that a text denotes: a double if the text has a point or an `e`, else an integer,
which has to be in range. -/
def ofText? (cs : List Char) : Option Number :=
  if hasDecimalMark cs then (decimal? cs).map fun (negative, d) => .double (d.toFloat negative)
  else (integer? cs).bind fun n => (toInt64? n).map .integer

end Number

end Stencil
