import Stencil.Number.Binary64
import Stencil.Number.Digits
set_option autoImplicit false

/-!
# A fixed number of decimal places

A finite double is rounded to a number of decimal places on its exact value, ties
going to the even last digit.
-/

namespace Stencil.Number.Fixed

/-- The value of a finite magnitude, rounded to `places` decimal places, as a whole number of
units of the last place. -/
def rounded (m places : Nat) : Nat :=
  roundHalfEven (Binary64.units m * Nat.pow 10 places) Binary64.one

/-- The digits before and after the point of the value rounded to `places` decimal places. -/
def digits (m places : Nat) : List Char × List Char :=
  let n := rounded m places
  (Nat.toDigits 10 (n / Nat.pow 10 places), lastDigits places n)

end Stencil.Number.Fixed
