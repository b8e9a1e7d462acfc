import Stencil.Token
set_option autoImplicit false

/-!
# Why a template is refused

The causes for which a template has no tree, with the line that each is reported
for, and their wording.
-/

namespace Stencil

/-- A cause for which a template is refused. -/
inductive SyntaxFault where
  /-- the next token cannot be read -/
  | lex (e : LexError)
  /-- a tag does not begin with a name -/
  | missingTagName (found : Token)
  | unknownTag (name : String)
  /-- a loop does not begin with a variable -/
  | loopVariable (found : Token)
  /-- a loop has neither two nor three arguments after its variable -/
  | loopArity (count : Nat)
  /-- an argument of a loop does not stand for a value of its own -/
  | loopArgument (found : Element)
  /-- an end tag with no loop open -/
  | unmatchedEnd
  /-- loops are open at the end of the template -/
  | unclosedLoops (count : Nat)
  /-- another token stands where a tag has to be closed -/
  | tagNotClosed (found : Token)
  deriving DecidableEq

/-- The wording of a cause. -/
def SyntaxFault.message : SyntaxFault → String
  | lex e => e.message
  | missingTagName found => "expected tag name, found " ++ found.describe
  | unknownTag name => "unknown tag `" ++ name ++ "`"
  | loopVariable found => "FOR expects a variable, found " ++ found.describe
  | loopArity count =>
    "FOR takes 2 or 3 arguments after the variable, found " ++ toString count
  | loopArgument found => found.describe ++ " cannot be used as a FOR argument"
  | unmatchedEnd => "END without an open FOR"
  | unclosedLoops count => toString count ++ " FOR tag(s) left open at end of input"
  | tagNotClosed found => "expected `$\x7d`, found " ++ found.describe

/-- A cause and the line that it is reported for. -/
structure ParseError where
  line : Nat
  fault : SyntaxFault
  deriving DecidableEq

/-- The wording of an error. -/
def ParseError.message (e : ParseError) : String :=
  "line " ++ toString e.line ++ ": " ++ e.fault.message

end Stencil
