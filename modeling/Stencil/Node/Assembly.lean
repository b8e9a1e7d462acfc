import Stencil.Reading
set_option autoImplicit false

/-!
# The tree of a template

The pieces of a template are put together to a tree.  While this goes on, an
`Assembly` holds the loops that are open, each with the nodes in front of it, and
the nodes of the innermost one; so a node always has a place to go.  An end tag
closes the innermost loop.
-/

namespace Stencil

/-- A tree of which some loops are still open. -/
structure Assembly where
  /-- the open loops, the innermost first, each with the nodes in front of it, the latest first -/
  opened : List (LoopHeader × List Node) := []
  /-- the nodes put together since the innermost loop was opened, the latest first -/
  nodes : List Node := []

namespace Assembly

/-- The tree with one piece more; none when the piece ends a loop and no loop is open. -/
def push? (a : Assembly) : Piece → Option Assembly
  | .text s => some { a with nodes := .text s :: a.nodes }
  | .echo es => some { a with nodes := .echo es :: a.nodes }
  | .opening h => some { opened := (h, a.nodes) :: a.opened, nodes := [] }
  | .closing =>
    match a.opened with
    | [] => none
    | (h, before) :: opened => some { opened, nodes := .loop h a.nodes.reverse :: before }

/-- The tree with the pieces in a row; an end tag too many is reported for its line. -/
def pushAll (a : Assembly) : List (Nat × Piece) → Except ParseError Assembly
  | [] => .ok a
  | (line, p) :: ps =>
    match a.push? p with
    | some a' => pushAll a' ps
    | none => .error ⟨line, .unmatchedEnd⟩

/-- The document, when the template ends on the given line and no loop is open. -/
def finish (a : Assembly) (line : Nat) : Except ParseError Node :=
  if a.opened.isEmpty then .ok (.document a.nodes.reverse)
  else .error ⟨line, .unclosedLoops a.opened.length⟩

end Assembly

/-- The document whose pieces were read.  An end tag too many comes before an error further on. -/
def Reading.document (r : Reading) : Except ParseError Node := do
  let a ← Assembly.pushAll {} r.pieces
  a.finish (← r.ending)

/-- The document that a template denotes. -/
def Node.parse (source : String) : Except ParseError Node := (Reading.ofString source).document

end Stencil
