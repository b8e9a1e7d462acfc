import Stencil.Number
import Stencil.Number.Fixed
set_option autoImplicit false

/-!
# Decimal formats

A decimal format says how a number is shown: literal text before and after it, the
least number of digits of its integer part, the size of the groups that commas
mark, and the least and the greatest number of digits of its fraction.  A percent
or per mille sign in the literal text shows the number a hundred or a thousand
times as large.  Numbers are rounded to the nearest shown one, ties going to the
even digit.
-/

namespace Stencil

/-- A way to show numbers. -/
structure DecimalFormat where
  before : List Char
  after : List Char
  minInteger : Nat
  group : Option Nat
  minFraction : Nat
  maxFraction : Nat
  scale : Nat
  deriving DecidableEq, Repr

namespace DecimalFormat

/-- The digits with a comma in front of each group of `size` digits but the first. -/
def grouped (size : Nat) : List Char → List Char
  | [] => []
  | c :: cs =>
    if cs ≠ [] ∧ cs.length % size = 0 then c :: ',' :: grouped size cs else c :: grouped size cs

/-- Grouping adds commas and nothing else. -/
theorem filter_grouped (size : Nat) (ds : List Char) :
    (grouped size ds).filter (· != ',') = ds.filter (· != ',') := by
  induction ds with
  | nil => rfl
  | cons c cs ih =>
    unfold grouped
    split <;> simp [List.filter_cons, ih]

/-- The digits of the integer part, brought to the least number of digits. -/
def integerDigits (f : DecimalFormat) (ds : List Char) : List Char :=
  let shown := ds.dropWhile (· == '0')
  List.replicate (f.minInteger - shown.length) '0' ++ shown

theorem minInteger_le_length_integerDigits (f : DecimalFormat) (ds : List Char) :
    f.minInteger ≤ (f.integerDigits ds).length := by
  simp only [integerDigits, List.length_append, List.length_replicate]
  omega

/-- The digits of the fraction, brought to the least number of digits; zeros beyond it are
dropped. -/
def fractionDigits (f : DecimalFormat) (ds : List Char) : List Char :=
  ds.take f.minFraction ++ List.replicate (f.minFraction - ds.length) '0' ++
    Number.withoutTrailingZeros (ds.drop f.minFraction)

theorem minFraction_le_length_fractionDigits (f : DecimalFormat) (ds : List Char) :
    f.minFraction ≤ (f.fractionDigits ds).length := by
  simp only [fractionDigits, List.length_append, List.length_take, List.length_replicate]
  omega

/-- One of the digits is not zero. -/
def showsNonzero (ds : List Char) : Bool := ds.any fun c => c.isDigit && c != '0'

/-- A number shown by the digits of its integer part and of its fraction.  At least one digit is
shown, and a sign only with a digit that is not zero. -/
def layout (f : DecimalFormat) (negative : Bool) (integer fraction : List Char) : List Char :=
  let fraction := f.fractionDigits fraction
  let integer := f.integerDigits integer
  let integer := if integer.isEmpty && fraction.isEmpty then ['0'] else integer
  f.before ++ (if negative && showsNonzero (integer ++ fraction) then ['-'] else []) ++
    (match f.group with
      | some size => grouped size integer
      | none => integer) ++
    (if fraction.isEmpty then [] else '.' :: fraction) ++ f.after

/-- An integer shown in the format. -/
def showInteger (f : DecimalFormat) (n : Int) : List Char :=
  f.layout (n < 0) (Nat.toDigits 10 (n.natAbs * f.scale)) []

/-- A double shown in the format.  Where scaling makes a finite double infinite, the letters `inf`
stand for the digits of its integer part.  The number of digits of the fraction has no bound, also
where writing to a precision is limited to 65535 digits. -/
def showDouble (f : DecimalFormat) (x : Float) : List Char :=
  let negative := Number.Binary64.isNegative x
  if x.isNaN then ['N', 'a', 'N']
  else if x.isInf then f.before ++ (if negative then ['-'] else []) ++ '∞' :: f.after
  else
    let scaled := x.abs * floatOfInt f.scale
    if scaled.isInf then f.layout negative ['i', 'n', 'f'] []
    else
      let (integer, fraction) := Number.Fixed.digits (Number.Binary64.magnitude scaled) f.maxFraction
      f.layout negative integer fraction

/-- A number shown in the format. -/
def showNumber (f : DecimalFormat) : Number → List Char
  | .integer n => f.showInteger n.toInt
  | .double x => f.showDouble x

end DecimalFormat

end Stencil
