import Stencil.Number.Decimal
set_option autoImplicit false

/-!
# The shortest decimal of a double

Of the decimals that are nearest to no other double, the shortest has the fewest
digits; among those it is the one nearest to the value, and of two equally near
ones the larger.  It is looked for on the grids of one, two, … seventeen digits:
when a point of a grid stands for the double, so does one of the two neighbours
of the value on that grid.
-/

namespace Stencil.Number.Shortest

/-- The place of the first digit of `num / den`, as a power of ten.  The quotient is not below
`10 ^ (-400)`. -/
def leadingPlace (num den : Nat) : Int :=
  (Nat.toDigits 10 (num * Nat.pow 10 400 / den)).length - 401

/-- The neighbours of a magnitude's value on the grid of multiples of `10 ^ place`, the nearer one
first and the larger one first when they are equally near. -/
def neighbours (m : Nat) (place : Int) : List Decimal :=
  let num := Binary64.units m * Nat.pow 10 (-place).toNat
  let den := Binary64.one * Nat.pow 10 place.toNat
  let below : Decimal := ⟨num / den, place⟩
  let above : Decimal := ⟨num / den + 1, place⟩
  if 2 * (num % den) < den then [below, above] else [above, below]

/-- The neighbour on the grid of multiples of `10 ^ place` that stands for the magnitude, the nearer
one if both do. -/
def onGrid? (m : Nat) (place : Int) : Option Decimal :=
  (neighbours m place).find? (·.magnitude == m)

/-- The exact value of a magnitude. -/
def exact (m : Nat) : Decimal := ⟨Binary64.units m * Nat.pow 5 1074, -1074⟩

/-- The shortest decimal that stands for a finite magnitude. -/
def decimal (m : Nat) : Decimal :=
  if m = 0 then ⟨0, 0⟩
  else
    let first := leadingPlace (Binary64.units m) Binary64.one
    ((List.range 17).findSome? fun (n : Nat) => onGrid? m (first - n)).getD (exact m)

end Stencil.Number.Shortest
