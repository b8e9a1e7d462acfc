import Stencil.Element
import Stencil.Host
set_option autoImplicit false

/-!
# Why a run stops

The causes for which the evaluation of a template ends early, and their wording.
-/

namespace Stencil

/-- A cause that ends a run. -/
inductive EvalError where
  /-- no loop over the variable is running -/
  | emptyStack (name : String)
  /-- the text denotes no number -/
  | invalidNumber (text : String)
  | divisionByZero
  /-- the exact result of the operator on integers is out of range -/
  | overflow (op : Operator)
  | unknownFunction (name : String)
  /-- the element does not stand for a value of its own -/
  | notAValue (e : Element)
  /-- the element needs more operands than there are -/
  | operandUnderflow (e : Element)
  /-- the text is no decimal format -/
  | invalidFormat (pattern : String)
  /-- a loop over the variable would begin one iteration more than the limit -/
  | iterationLimit (variableName : String) (limit : Nat)
  /-- the host did not take the output -/
  | output (e : WriteError)
  deriving DecidableEq

/-- The wording of a cause. -/
def EvalError.message : EvalError → String
  | emptyStack name => "stack `" ++ name ++ "` is empty"
  | invalidNumber text => "`" ++ text ++ "` is not a number"
  | divisionByZero => "division by zero"
  | overflow op => "integer overflow in `" ++ (Element.operator op).source ++ "`"
  | unknownFunction name => "unknown function `@" ++ name ++ "`"
  | notAValue e => e.describe ++ " cannot be used as a value"
  | operandUnderflow e =>
    "`" ++ e.source ++ "` needs more operands than the expression stack holds"
  | invalidFormat pattern => "invalid decimal format pattern `" ++ pattern ++ "`"
  | iterationLimit variableName limit =>
    "FOR `" ++ variableName ++ "` exceeded " ++ toString limit ++ " iterations"
  | output e => "failed to write output: " ++ e.message

end Stencil
