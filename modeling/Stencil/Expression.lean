import Stencil.Builtin
import Stencil.Stacks
set_option autoImplicit false

/-!
# Expressions

The elements of an echo tag are an expression in postfix order: constants and
variables put a value on the stack of operands, operators take two operands and
leave one, calls run a built-in function.  The values that are left are written,
the lowest first, once all elements are done; so an expression that fails writes
nothing.
-/

namespace Stencil

/-- The value that an element stands for. -/
def Element.value (vars : Stacks) : Element → Except EvalError Value
  | text s => .ok (.text s)
  | integer n => .ok (.integer n)
  | double x => .ok (.double x)
  | var name => vars.peek name
  | e => .error (.notAValue e)

namespace Expression

variable {σ : Type} [Host σ]

/-- What one element does to the operands and the host. -/
def step (vars : Stacks) (e : Element) : Step σ Unit :=
  match e with
  | .operator op => do
    let right ← Step.pop e
    let left ← Step.pop e
    Step.push (← Value.apply op left right)
  | .call name => Builtin.call name
  | e => do Step.push (← e.value vars)

/-- What elements in a row do to the operands and the host. -/
def steps (vars : Stacks) : List Element → Step σ Unit
  | [] => return
  | e :: es => do
    step vars e
    steps vars es

/-- The texts of values written in a row. -/
def write : List Value → σ → Except EvalError Unit × σ
  | [], host => (.ok (), host)
  | v :: vs, host =>
    match Host.answer (.write v.display) host with
    | (.ok (), host) => write vs host
    | (.error e, host) => (.error (.output e), host)

/-- An expression evaluated and written. -/
def echo (vars : Stacks) (es : List Element) (host : σ) : Except EvalError Unit × σ :=
  match (steps vars es).run ⟨[], host⟩ with
  | (.ok (), f) => write f.operands.reverse f.host
  | (.error e, f) => (.error e, f.host)

end Expression

end Stencil
