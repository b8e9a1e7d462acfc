import Stencil.Number.Display
import Stencil.Proofs.Number.Literal
set_option autoImplicit false

/-!
# Numerals that are read back

The text of an integer and a numeral written from a sign, digits, a point with digits
and an exponent are literals (`text_ofInt`, `text_ofParts`), so that each is a literal
as a whole and is read as its parts.
-/

namespace Stencil.Number

/-! ## Integers -/

theorem integerText_eq (n : Int) :
    integerText n = signText (n < 0) ++ Nat.toDigits 10 n.natAbs := by
  unfold integerText signText
  by_cases h : n < 0 <;> simp [h]

theorem digitsValue_toDigits (n : Nat) : digitsValue (Nat.toDigits 10 n) = n :=
  Nat.ofDigitChars_ten_toDigits

namespace Literal

/-- The literal of an integer. -/
def ofInt (n : Int) : Literal where
  negative := n < 0
  whole := Nat.toDigits 10 n.natAbs
  fraction := none
  exponent := none
  isDigits_whole := isDigits_toDigits _
  isDigits_fraction := nofun

theorem text_ofInt (n : Int) : (ofInt n).text = integerText n := by
  rw [integerText_eq, text, fractionText, exponentText]
  exact congrArg _ (List.append_nil _)

/-- An integer is read as the integer that was written. -/
theorem integer_ofInt (n : Int) : (ofInt n).integer = n := by
  simp only [integer, ofInt, digitsValue_toDigits, decide_eq_true_eq]
  split <;> omega

end Literal

theorem literal_integerText (n : Int) : literal (integerText n) = integerText n := by
  rw [← Literal.text_ofInt, Literal.literal_text]

/-! ## Numerals with a point -/

/-- The exponent as it is written. -/
def exponentText : Option Int → List Char
  | none => []
  | some e => 'E' :: integerText e

/-- A numeral written from its parts. -/
def numeral (negative : Bool) (whole fraction : List Char) (exponent : Option Int) : List Char :=
  signText negative ++ (whole ++ ('.' :: (fraction ++ exponentText exponent)))

namespace Exponent

/-- The exponent of an integer. -/
def ofInt (n : Int) : Exponent where
  mark := 'E'
  sign := signText (n < 0)
  digits := Nat.toDigits 10 n.natAbs
  isMark := rfl
  isSign := isSign_signText _
  isDigits := isDigits_toDigits _

theorem text_ofInt (n : Int) : (ofInt n).text = 'E' :: integerText n := by
  rw [integerText_eq]
  rfl

theorem value_ofInt (n : Int) : (ofInt n).value = n := by
  simp only [value, ofInt, digitsValue_toDigits, signText]
  by_cases h : n < 0
  · simp only [h, decide_true, if_true]
    omega
  · simp only [h, decide_false]
    rw [if_neg (by simp)]
    omega

end Exponent

namespace Literal

variable {whole fraction : List Char} (hw : IsDigits whole) (hf : IsDigits fraction)

/-- The literal of a numeral. -/
def ofParts (negative : Bool) (exponent : Option Int) : Literal where
  negative
  whole
  fraction := some fraction
  exponent := exponent.map Exponent.ofInt
  isDigits_whole := hw
  isDigits_fraction := by
    rintro ds ⟨⟩
    exact hf

theorem text_ofParts (negative : Bool) (exponent : Option Int) :
    (ofParts hw hf negative exponent).text = numeral negative whole fraction exponent := by
  cases exponent with
  | none => rfl
  | some e =>
    have htext := Exponent.text_ofInt e
    simp only [text, fractionText, Literal.exponentText, ofParts, Option.map_some, htext]
    rfl

theorem decimal_ofParts (negative : Bool) (exponent : Option Int) :
    (ofParts hw hf negative exponent).decimal =
      ⟨digitsValue (whole ++ fraction), exponent.getD 0 - fraction.length⟩ := by
  cases exponent with
  | none => rfl
  | some e =>
    have hvalue := Exponent.value_ofInt e
    simp only [decimal, ofParts, Option.map_some, Option.elim_some, hvalue]
    rfl

end Literal

end Stencil.Number
