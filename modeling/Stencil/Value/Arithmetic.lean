import Stencil.Value
set_option autoImplicit false

/-!
# Arithmetic on values

Both operands are taken as numbers.  Two integers give the exact integer, which
has to be in range; with a double among the operands the operation is carried out
on doubles.  Dividing two integers truncates toward zero; a divisor of zero is
refused before the dividend is looked at.  A power of integers is exact when the
exponent is not negative.
-/

namespace Stencil.Value

/-- The integer value with the given content, or an overflow of the operator. -/
def exactInteger (op : Operator) (n : Int) : Except EvalError Value :=
  match toInt64? n with
  | some i => .ok (integer i)
  | none => .error (.overflow op)

/-- Two operands as numbers, the left one first. -/
def operands (a b : Value) : Except EvalError (Number × Number) := do
  let x ← a.toNumber
  let y ← b.toNumber
  return (x, y)

/-- An operation that is given by what it does to integers and to doubles. -/
def combine (op : Operator) (onIntegers : Int → Int → Int) (onDoubles : Float → Float → Float)
    (a b : Value) : Except EvalError Value := do
  match ← operands a b with
  | (.integer m, .integer n) => exactInteger op (onIntegers m.toInt n.toInt)
  | (x, y) => return double (onDoubles x.toFloat y.toFloat)

/-- The sum. -/
def add : Value → Value → Except EvalError Value := combine .add (· + ·) (· + ·)

/-- The difference. -/
def subtract : Value → Value → Except EvalError Value := combine .sub (· - ·) (· - ·)

/-- The product. -/
def multiply : Value → Value → Except EvalError Value := combine .mul (· * ·) (· * ·)

/-- The quotient. -/
def divide (a b : Value) : Except EvalError Value := do
  if (← b.toNumber).isZero then throw .divisionByZero
  combine .div Int.tdiv (· / ·) a b

/-- The power `base ^ exponent`, or nothing when it is larger than every 64-bit integer because
the exponent is.  Of the exponent of 0, 1 and -1 only the parity counts, and whether it is zero. -/
def integerPower (base : Int) (exponent : Nat) : Option Int :=
  if base.natAbs ≤ 1 then some (Int.pow base (if exponent = 0 then 0 else 2 - exponent % 2))
  else if exponent < 64 then some (Int.pow base exponent)
  else none

/-- The power. -/
def power (a b : Value) : Except EvalError Value := do
  match ← operands a b with
  | (.integer m, .integer n) =>
    if 0 ≤ n.toInt then
      match integerPower m.toInt n.toInt.toNat with
      | some r => exactInteger .pow r
      | none => throw (.overflow .pow)
    else return double (Float.pow (floatOfInt m.toInt) (floatOfInt n.toInt))
  | (x, y) => return double (Float.pow x.toFloat y.toFloat)

/-- How the first value compares with the second. -/
def order (a b : Value) : Except EvalError Ordering := do
  let (x, y) ← operands a b
  return x.order y

/-- The result of an operator. -/
def apply : Operator → Value → Value → Except EvalError Value
  | .add => add
  | .sub => subtract
  | .mul => multiply
  | .div => divide
  | .pow => power

/-- An operator carried out in place: the value takes the result, and only when there is one. -/
def assign (op : Operator) (other : Value) : ExceptT EvalError (StateM Value) Unit := do
  let v ← get
  let w ← apply op v other
  set w

end Stencil.Value
