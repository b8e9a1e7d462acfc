import Mathlib
import Stencil.Engine
set_option autoImplicit false

/-!
# Lexical scopes

What a template means, said without stacks.  A node is run in an environment that
gives values to the names in scope and that nothing changes: a loop runs its body
in the environment extended by its counter, and behind the loop the environment is
the one in front of it.
-/

namespace Stencil

/-- The values of the names in scope. -/
abbrev Env : Type := String → Option Value

namespace Env

/-- The environment with no name in scope. -/
def empty : Env := fun _ => none

/-- The environment with a name bound to a value, whatever it was bound to before. -/
def bind (env : Env) (name : String) (v : Value) : Env :=
  fun other => if other = name then some v else env other

end Env

namespace Scoped

variable {σ : Type} [Host σ]

/-- The value of an element in an environment. -/
def value (env : Env) : Element → Except EvalError Value
  | .text s => .ok (.text s)
  | .integer n => .ok (.integer n)
  | .double x => .ok (.double x)
  | .var name =>
    match env name with
    | some v => .ok v
    | none => .error (.emptyStack name)
  | e => .error (.notAValue e)

/-! ## Expressions -/

/-- What one element does to the operands and the host. -/
def step (env : Env) (e : Element) : Step σ Unit :=
  match e with
  | .operator op => do
    let right ← Step.pop e
    let left ← Step.pop e
    Step.push (← Value.apply op left right)
  | .call name => Builtin.call name
  | e => do Step.push (← value env e)

/-- What elements in a row do to the operands and the host. -/
def steps (env : Env) : List Element → Step σ Unit
  | [] => return
  | e :: es => do
    step env e
    steps env es

/-- An expression evaluated, and its values written, the lowest operand first. -/
def echo (env : Env) (es : List Element) (host : σ) : Except EvalError Unit × σ :=
  match (steps env es).run ⟨[], host⟩ with
  | (.ok (), f) => Expression.write f.operands.reverse f.host
  | (.error e, f) => (.error e, f.host)

/-! ## Nodes -/

/-- What running a node in an environment gives: the result, and the host after it. -/
abbrev Run (σ : Type) : Type := Env → σ → Except Stop Unit × σ

/-- The first counter, the bound and the step of a loop, evaluated in this order. -/
def range (env : Env) (h : LoopHeader) : Except EvalError (Value × Value × Value) := do
  let start ← value env h.start
  let stop ← value env h.stop
  let step ← match h.step with
    | some e => value env e
    | none => .ok (.integer 1)
  return (start, stop, step)

/-- The iterations of a loop from one with the given counter on, after `done` of them.  The
counters are a sequence of values, each the one before plus the step. -/
def iterate (limit : Option Nat) (name : String) (stop step : Value) (body : Run σ) (env : Env) :
    (fuel done : Nat) → (counter : Value) → σ → Except Stop Unit × σ
  | fuel, done, counter, host =>
    match counter.order stop with
    | .error e => (.error (.failed e), host)
    | .ok .gt => (.ok (), host)
    | .ok _ =>
      match Engine.limitReached? limit done with
      | some l => (.error (.failed (.iterationLimit name l)), host)
      | none =>
        match fuel with
        | 0 => (.error .outOfFuel, host)
        | fuel + 1 =>
          match body (env.bind name counter) host with
          | (.error e, host) => (.error e, host)
          | (.ok (), host) =>
            match counter.add step with
            | .error e => (.error (.failed e), host)
            | .ok next => iterate limit name stop step body env fuel (done + 1) next host

/-- A loop, whose header is evaluated in the environment outside the loop. -/
def runLoop (b : Bounds) (h : LoopHeader) (body : Run σ) : Run σ := fun env host =>
  match range env h with
  | .error e => (.error (.failed e), host)
  | .ok (start, stop, step) => iterate b.limit h.name stop step body env b.fuel 0 start host

/-- A step that may fail with an error of the template. -/
def attempt (r : Except EvalError Unit × σ) : Except Stop Unit × σ := (r.1.mapError .failed, r.2)

mutual

/-- The run of a node. -/
def run (b : Bounds) : Node → Run σ
  | .document cs => runAll b cs
  | .text s => fun _ host =>
    let (r, host) := Host.answer (.write s) host
    attempt (r.mapError .output, host)
  | .loop h body => runLoop b h (runAll b body)
  | .echo es => fun env host => attempt (echo env es host)

/-- The run of nodes in a row in one environment, up to the first that fails. -/
def runAll (b : Bounds) : List Node → Run σ
  | [] => fun _ host => (.ok (), host)
  | n :: ns => fun env host =>
    match run b n env host with
    | (.ok (), host) => runAll b ns env host
    | (.error e, host) => (.error e, host)

end

/-- A node run with no name in scope. -/
def execute (b : Bounds) (n : Node) (host : σ) : Except Stop Unit × σ := run b n Env.empty host

end Scoped

end Stencil
