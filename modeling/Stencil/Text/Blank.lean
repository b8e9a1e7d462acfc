import Stencil.Text.CodeRange
set_option autoImplicit false

/-!
# Blanks

A blank is a character with the Unicode property White_Space.  Blanks separate the
elements of a tag.
-/

namespace Stencil.Text

/-- The code points with the property White_Space. -/
def blankRanges : CodeTable where
  ranges :=
    [⟨0x9, 0xD⟩, ⟨0x20, 0x20⟩, ⟨0x85, 0x85⟩, ⟨0xA0, 0xA0⟩,
     ⟨0x1680, 0x1680⟩, ⟨0x2000, 0x200A⟩, ⟨0x2028, 0x2029⟩, ⟨0x202F, 0x202F⟩,
     ⟨0x205F, 0x205F⟩, ⟨0x3000, 0x3000⟩]

/-- The character is a space, a tab, a line break or another blank. -/
def isBlank (c : Char) : Bool := blankRanges.covers c.toNat

end Stencil.Text
