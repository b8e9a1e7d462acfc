import Stencil.Number.Decimal
set_option autoImplicit false

/-!
# Numerals

The texts that stand for numbers.  `literal` is the longest beginning of a text
that is a number literal of a tag: an optional minus sign, digits, optionally a
point and digits, optionally an exponent.  `integer?` and `decimal?` read a whole
text and are more generous: they admit a plus sign, and a decimal may begin or end
with its point.  Digits are the ten ASCII digits.
-/

namespace Stencil.Number

/-- The digits at the beginning of a text. -/
def digitRun (cs : List Char) : List Char := cs.takeWhile Char.isDigit

/-- The number that digits denote. -/
def digitsValue (ds : List Char) : Nat := Nat.ofDigitChars 10 ds 0

/-- The sign at the beginning of a text, if there is one. -/
def signPart : List Char → List Char
  | [] => []
  | c :: _ => if c = '+' ∨ c = '-' then [c] else []

/-- The minus sign at the beginning of a text, if there is one. -/
def minusPart : List Char → List Char
  | [] => []
  | c :: _ => if c = '-' then [c] else []

/-! ## Literals -/

/-- A point and at least one digit at the beginning of a text, with all the digits that follow. -/
def fractionPart : List Char → List Char
  | [] => []
  | c :: cs => if c = '.' ∧ digitRun cs ≠ [] then c :: digitRun cs else []

/-- The character begins an exponent. -/
def isExponentMark (c : Char) : Bool := c == 'e' || c == 'E'

/-- An exponent at the beginning of a text: its mark, an optional sign and at least one digit,
with all the digits that follow. -/
def exponentPart : List Char → List Char
  | [] => []
  | c :: cs =>
    let sign := signPart cs
    let digits := digitRun (cs.drop sign.length)
    if isExponentMark c ∧ digits ≠ [] then c :: sign ++ digits else []

/-- The parts of a number literal as they are written; each but the digits in front of the point
may be missing. -/
structure LiteralParts where
  minus : List Char
  whole : List Char
  fraction : List Char
  exponent : List Char

namespace LiteralParts

/-- The literal as it is written. -/
def text (p : LiteralParts) : List Char := p.minus ++ p.whole ++ p.fraction ++ p.exponent

/-- The literal has a fraction or an exponent. -/
def isDouble (p : LiteralParts) : Bool := !p.fraction.isEmpty || !p.exponent.isEmpty

end LiteralParts

/-- The parts of the longest number literal at the beginning of a text.  The text begins with a
digit, or with a minus sign and a digit. -/
def literalParts (cs : List Char) : LiteralParts :=
  let minus := minusPart cs
  let cs := cs.drop minus.length
  let whole := digitRun cs
  let cs := cs.drop whole.length
  let fraction := fractionPart cs
  let cs := cs.drop fraction.length
  ⟨minus, whole, fraction, exponentPart cs⟩

/-- The longest number literal at the beginning of a text. -/
def literal (cs : List Char) : List Char := (literalParts cs).text

/-! ## Whole texts -/

/-- The integer denoted by an optional sign and at least one digit. -/
def integer? (cs : List Char) : Option Int :=
  let sign := signPart cs
  let digits := cs.drop sign.length
  if digits ≠ [] ∧ digits.all Char.isDigit then
    some (if sign = ['-'] then -digitsValue digits else digitsValue digits)
  else none

/-- The exponent that ends a numeral: nothing, or a mark and an integer. -/
def exponent? : List Char → Option Int
  | [] => some 0
  | c :: cs => if isExponentMark c then integer? cs else none

/-- The sign and the decimal denoted by an optional sign, digits with an optional point before,
among or after them, and an optional exponent. -/
def decimal? (cs : List Char) : Option (Bool × Decimal) :=
  let sign := signPart cs
  let cs := cs.drop sign.length
  let whole := digitRun cs
  let cs := cs.drop whole.length
  let fraction := if cs.head? = some '.' then digitRun (cs.drop 1) else []
  let cs := if cs.head? = some '.' then cs.drop (1 + fraction.length) else cs
  if whole ++ fraction = [] then none
  else (exponent? cs).map fun e =>
    (sign == ['-'], ⟨digitsValue (whole ++ fraction), e - fraction.length⟩)

/-- The text has a mark of a decimal: a point or an `e`. -/
def hasDecimalMark (cs : List Char) : Bool := cs.any fun c => c == '.' || isExponentMark c

end Stencil.Number
