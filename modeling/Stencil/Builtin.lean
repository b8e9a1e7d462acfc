import Stencil.Value.Arithmetic
import Stencil.DecimalFormat.Apply
set_option autoImplicit false

/-!
# Built-in functions

An expression is evaluated on a stack of operands.  A built-in function takes its
operands from the top, the last one first, and leaves at most one call to the host
and at most two results.  Operands taken before a failure stay taken.
-/

namespace Stencil

/-- The operands of an expression, the top first, and the host. -/
structure Frame (σ : Type) where
  operands : List Value
  host : σ

/-- A step of evaluating an expression. -/
abbrev Step (σ α : Type) : Type := ExceptT EvalError (StateM (Frame σ)) α

namespace Step

variable {σ : Type}

/-- The top operand, which is taken on behalf of an element. -/
def pop (consumer : Element) : Step σ Value := do
  match (← get).operands with
  | [] => throw (.operandUnderflow consumer)
  | v :: vs =>
    modify fun f => { f with operands := vs }
    return v

/-- A value put on top of the operands. -/
def push (v : Value) : Step σ Unit := modify fun f => { f with operands := v :: f.operands }

/-- A call to the host. -/
def ask [Host σ] (c : Call) : Step σ c.Answer := do
  let f ← get
  let (a, host) := Host.answer c f.host
  set { f with host }
  return a

end Step

/-- A function that can be called in an echo tag. -/
inductive Builtin where
  /-- the sine of an angle in degrees -/
  | sin
  /-- a number shown in a decimal format -/
  | decimalFormat
  /-- the top operand twice -/
  | dup
  /-- the two top operands in the other order -/
  | swap
  | setMimeType
  /-- a parameter, or a default where there is none -/
  | get (scope : Scope)
  | set (store : Store)
  | delete (store : Store)
  deriving DecidableEq, Repr

namespace Builtin

/-- The name by which templates call the function. -/
def name : Builtin → String
  | sin => "sin"
  | decimalFormat => "decfmt"
  | dup => "dup"
  | swap => "swap"
  | setMimeType => "setMimeType"
  | get .request => "paramGet"
  | get (.store .persistent) => "pparamGet"
  | get (.store .transient) => "tparamGet"
  | set .persistent => "pparamSet"
  | set .transient => "tparamSet"
  | delete .persistent => "pparamDel"
  | delete .transient => "tparamDel"

/-- All functions. -/
def all : List Builtin :=
  [sin, decimalFormat, dup, swap, setMimeType, get .request, get (.store .persistent),
    get (.store .transient), set .persistent, set .transient, delete .persistent,
    delete .transient]

/-- The function of a name. -/
def ofName? (name : String) : Option Builtin := all.find? (·.name == name)

theorem ofName?_name (b : Builtin) : ofName? b.name = some b := by
  cases b with
  | get scope => cases scope with
    | request => decide
    | store s => cases s <;> decide
  | set s => cases s <;> decide
  | delete s => cases s <;> decide
  | _ => decide

/-- The double nearest to one degree in radians. -/
def radiansPerDegree : Float := Float.ofBits 0x3f91df46a2529d39

variable {σ : Type} [Host σ]

/-- What a function does to the operands and the host. -/
def run (b : Builtin) : Step σ Unit :=
  let pop : Step σ Value := Step.pop (.call b.name)
  match b with
  | sin => do
    let degrees ← (← pop).toFloat
    Step.push (.double (degrees * radiansPerDegree).sin)
  | decimalFormat => do
    let pattern := (← pop).display
    let n ← (← pop).toNumber
    Step.push (.text (← DecimalFormat.apply pattern n))
  | dup => do
    let top ← pop
    Step.push top
    Step.push top
  | swap => do
    let top ← pop
    let below ← pop
    Step.push top
    Step.push below
  | setMimeType => do
    let type := (← pop).display
    Step.ask (.setMime type)
  | get scope => do
    let otherwise ← pop
    let key := (← pop).display
    let found ← Step.ask (.lookup scope key)
    Step.push (found.elim otherwise .text)
  | set store => do
    let key := (← pop).display
    let value := (← pop).display
    Step.ask (.set store key value)
  | delete store => do
    let key := (← pop).display
    Step.ask (.delete store key)

/-- A call of the function of a name. -/
def call (name : String) : Step σ Unit :=
  match ofName? name with
  | some b => b.run
  | none => throw (.unknownFunction name)

end Builtin

end Stencil
