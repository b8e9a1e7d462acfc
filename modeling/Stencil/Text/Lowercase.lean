import Stencil.Text.Case
set_option autoImplicit false

/-!
# Lower case of a text

Every character is replaced by its lower-case image, and a capital sigma by the
final form of the small letter where it ends a word: a cased character comes
before it and none after it, with case-ignorable characters passed over.
-/

namespace Stencil.Text

/-- The first character that is not case-ignorable is cased. -/
def meetsCased : List Char → Bool
  | [] => false
  | c :: cs => if isCaseIgnorable c then meetsCased cs else isCased c

/-- The lower case of `cs`, where `before` are the characters in front of it, nearest first. -/
def lowerAfter (before : List Char) : List Char → List Char
  | [] => []
  | c :: cs =>
    (if c.toNat = 0x3A3 then
      [Char.ofNat (if meetsCased before && !meetsCased cs then 0x3C2 else 0x3C3)]
    else lowerChar c) ++ lowerAfter (c :: before) cs

/-- The lower case of a text. -/
def lowercase (cs : List Char) : List Char := lowerAfter [] cs

end Stencil.Text
