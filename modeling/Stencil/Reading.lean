import Stencil.Piece.Rest
set_option autoImplicit false

/-!
# Reading a template

`Reading.ofLexer` reads pieces as far as it can, and says where the template ends
or why no further piece can be read.
-/

namespace Stencil

/-- The pieces of a template in their order, each with the line on which it begins, and the line on
which the template ends or the error for which no further piece can be read. -/
structure Reading where
  pieces : List (Nat × Piece)
  ending : Except ParseError Nat

/-- The pieces that a lexer reads. -/
def Reading.ofLexer (l : Lexer) : Reading :=
  match _h : l.piece with
  | .error e => ⟨[], .error e⟩
  | .ok (none, l') => ⟨[], .ok l'.line⟩
  | .ok (some p, l') =>
    let r := ofLexer l'
    ⟨(l.line, p) :: r.pieces, r.ending⟩
termination_by l.rest.length
decreasing_by exact Lexer.length_rest_piece_lt _h

/-- The pieces of a template. -/
def Reading.ofString (s : String) : Reading := ofLexer (Lexer.ofString s)

end Stencil
