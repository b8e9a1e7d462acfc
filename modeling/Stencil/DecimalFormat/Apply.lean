import Stencil.DecimalFormat.Pattern
import Stencil.EvalError
set_option autoImplicit false

/-!
# Numbers shown by a pattern

A number is shown in the format that a pattern describes; a pattern that describes
none is refused, whatever the number.
-/

namespace Stencil

/-- The number shown by a pattern. -/
def DecimalFormat.apply (pattern : String) (n : Number) : Except EvalError String :=
  match ofPattern? pattern.toList with
  | some f => .ok (String.ofList (f.showNumber n))
  | none => .error (.invalidFormat pattern)

end Stencil
