import Stencil.EvalError
set_option autoImplicit false

/-!
# Values

The values that templates compute with are dynamically typed: nothing at all, an
integer, a double or a text.  Where a number is needed, nothing counts as zero and
a text as the number that it denotes.
-/

namespace Stencil

/-- A dynamically typed value. -/
inductive Value where
  /-- no value -/
  | absent
  | integer (n : Int64)
  | double (x : Float)
  | text (s : String)
  deriving DecidableEq

namespace Value

/-- The value that is a number. -/
def ofNumber : Number → Value
  | .integer n => integer n
  | .double x => double x

/-- The text that is written for a value. -/
def display : Value → String
  | absent => ""
  | integer n => String.ofList (Number.integerText n.toInt)
  | double x => String.ofList (Number.doubleText x)
  | text s => s

/-- The number that a value counts as. -/
def toNumber : Value → Except EvalError Number
  | absent => .ok (.integer 0)
  | integer n => .ok (.integer n)
  | double x => .ok (.double x)
  | text s =>
    match Number.ofText? s.toList with
    | some n => .ok n
    | none => .error (.invalidNumber s)

/-- The value as an integer or a double. -/
def numeric (v : Value) : Except EvalError Value := v.toNumber.map ofNumber

/-- The value as a double. -/
def toFloat (v : Value) : Except EvalError Float := v.toNumber.map Number.toFloat

/-- The values are of one kind and have equal contents, doubles as numbers. -/
def agrees : Value → Value → Bool
  | absent, absent => true
  | integer a, integer b => a == b
  | double a, double b => a == b
  | text a, text b => a == b
  | _, _ => false

@[simp] theorem toNumber_ofNumber (n : Number) : (ofNumber n).toNumber = .ok n := by
  cases n <;> rfl

end Value

end Stencil
