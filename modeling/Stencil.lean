import Stencil.Render
import Stencil.Proofs.Scan.Line
import Stencil.Proofs.Piece.Line
import Stencil.Proofs.Lexer.Use
import Stencil.Proofs.Parse.Append
import Stencil.Proofs.Parse.Brackets
import Stencil.Proofs.Parse.Layout
import Stencil.Proofs.Parse.RoundTrip
import Stencil.Proofs.Parse.PlainText
import Stencil.Proofs.Parse.WellFormed
import Stencil.Proofs.Engine.Refinement
import Stencil.Proofs.Engine.Normal
import Stencil.Proofs.Engine.Accesses
import Stencil.Proofs.Engine.Dialogue
import Stencil.Proofs.Host.Bounded
import Stencil.Proofs.Engine.Causes
import Stencil.Proofs.Engine.Occurrences
import Stencil.Proofs.Engine.Append
import Stencil.Proofs.Engine.LoopRuns
import Stencil.Proofs.Engine.Limit
import Stencil.Proofs.Engine.Substitution
import Stencil.Proofs.Engine.Unrolling
import Stencil.Proofs.Value.Exact
import Stencil.Proofs.Value.Counting
import Stencil.Proofs.Engine.Unlimited
import Stencil.Proofs.Engine.IntegerLoops
import Stencil.Proofs.Engine.Formulas
import Stencil.Proofs.Host.Parameters
import Stencil.Proofs.Value.ReadBack
import Stencil.Proofs.Value.Literal
import Stencil.Proofs.Expression.Effects
import Stencil.Proofs.Expression.Depth
import Stencil.Proofs.DecimalFormat.Integer
import Stencil.Proofs.DecimalFormat.Double
import Stencil.Proofs.DecimalFormat.Agreement
import Stencil.Proofs.DecimalFormat.Quoting
import Stencil.Proofs.Value.Order
import Stencil.Proofs.Value.Coercion
import Stencil.Proofs.Stacks.Commands
import Stencil.Proofs.Stacks.Keyed
import Stencil.Proofs.Lexer.Reads
import Stencil.Proofs.Parse.Faults
import Stencil.Proofs.Parse.Guarded
import Stencil.Proofs.Parse.NoBreach
import Stencil.Proofs.Parse.ErrorLine
import Stencil.Proofs.Lexer.Bytes
import Stencil.Proofs.Lexer.Cursor
