import Stencil.DecimalFormat
set_option autoImplicit false

/-!
# Patterns of decimal formats

The written form of a decimal format.  A block of slots stands for the number: a
hash is an optional and a zero a required digit, a comma marks groups in the
integer part and a point begins the fraction.  Everything else is literal.  Single
quotes hold literal text, two of them in a row are an apostrophe, and one percent
or per mille sign outside quotes scales the number.
-/

namespace Stencil.DecimalFormat

/-- A character of a pattern and its part in it. -/
inductive Mark where
  /-- shown as it is -/
  | literal (c : Char)
  /-- shown as it is, and scales the number -/
  | scaling (c : Char)
  /-- stands for a part of the number -/
  | slot (c : Char)
  deriving DecidableEq, Repr

namespace Mark

/-- The character of the mark. -/
def char : Mark → Char
  | literal c | scaling c | slot c => c

/-- The mark is part of the block that stands for the number. -/
def isSlot : Mark → Bool
  | slot _ => true
  | _ => false

/-- The mark is a percent or per mille sign that scales the number. -/
def isScaling : Mark → Bool
  | scaling _ => true
  | _ => false

/-- The part of a character outside quotes. -/
def ofUnquoted (c : Char) : Mark :=
  if c = '#' ∨ c = '0' ∨ c = ',' ∨ c = '.' then slot c
  else if c = '%' ∨ c = '‰' then scaling c
  else literal c

/-- The characters of a pattern with their parts, read from within quotes or outside them; none
when a quote is left open. -/
def decode? (quoted : Bool) : List Char → Option (List Mark)
  | [] => if quoted then none else some []
  | c :: cs =>
    if c = '\'' then
      match cs with
      | [] => decode? (!quoted) []
      | d :: ds =>
        if d = '\'' then (decode? quoted ds).map (literal d :: ·) else decode? (!quoted) (d :: ds)
    else (decode? quoted cs).map ((if quoted then literal c else ofUnquoted c) :: ·)

end Mark

/-- The factor of a scaling sign; one without a sign. -/
def scaleOf : List Mark → Nat
  | [] => 1
  | m :: _ => if m.char = '%' then 100 else 1000

/-- The slots before the point. -/
def integerSlots (slots : List Char) : List Char := slots.takeWhile (· != '.')

/-- The slots after the point. -/
def fractionSlots (slots : List Char) : List Char := (slots.dropWhile (· != '.')).drop 1

/-- The slots are a number: at least one digit, no comma at the end of the integer part, and a
fraction of required digits followed by optional ones. -/
def isNumber (slots : List Char) : Bool :=
  slots.any (fun c => c == '#' || c == '0') &&
    (integerSlots slots).getLast? != some ',' &&
    ((fractionSlots slots).dropWhile (· == '0')).all (· == '#')

/-- The size of the groups: the number of slots after the last comma, if there is one. -/
def groupOf (integer : List Char) : Option Nat :=
  if integer.contains ',' then some (integer.reverse.takeWhile (· != ',')).length else none

/-- The format of a decoded pattern: literals, one block of slots that are a number, literals, and
at most one scaling sign. -/
def ofMarks? (ms : List Mark) : Option DecimalFormat :=
  let before := ms.takeWhile (!·.isSlot)
  let fromBlock := ms.dropWhile (!·.isSlot)
  let slots := (fromBlock.takeWhile (·.isSlot)).map (·.char)
  let after := fromBlock.dropWhile (·.isSlot)
  let signs := ms.filter (·.isScaling)
  if after.all (!·.isSlot) && isNumber slots && signs.length ≤ 1 then
    some {
      before := before.map (·.char)
      after := after.map (·.char)
      minInteger := (integerSlots slots).count '0'
      group := groupOf (integerSlots slots)
      minFraction := (fractionSlots slots).count '0'
      maxFraction := (fractionSlots slots).length
      scale := scaleOf signs }
  else none

/-- The format that a pattern describes. -/
def ofPattern? (pattern : List Char) : Option DecimalFormat :=
  (Mark.decode? false pattern).bind ofMarks?

end Stencil.DecimalFormat
