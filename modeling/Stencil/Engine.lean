import Stencil.Expression
import Stencil.Node
set_option autoImplicit false

/-!
# Running a template

A node is run against a host.  A loop evaluates its bounds and its step once, in
their order, puts the first counter on the stack of its variable, runs its body
while the counter is not beyond the bound, adds the step after each iteration and
takes the counter off the stack at the end.  A limit ends a loop that would begin
one iteration more.

Loops need not end, so a run is given as fuel the number of iterations that each
execution of a loop may take; `Stop.outOfFuel` says that it was too small and is
no result of the template.
-/

namespace Stencil

/-- Why a run ended early. -/
inductive Stop where
  | failed (e : EvalError)
  /-- a loop did not end within the iterations that the run was given -/
  | outOfFuel
  deriving DecidableEq

/-- The state of a run: the counters of the running loops and the host. -/
structure Machine (σ : Type) where
  vars : Stacks
  host : σ

/-- A run: its result, and the state that it leaves. -/
abbrev Run (σ : Type) : Type := Machine σ → Except Stop Unit × Machine σ

/-- How loops are bounded: the limit of iterations, which is part of the result, and the fuel. -/
structure Bounds where
  limit : Option Nat := none
  fuel : Nat

namespace Engine

variable {σ : Type} [Host σ]

/-- A step that concerns the host alone. -/
def onHost (f : σ → Except EvalError Unit × σ) : Run σ := fun m =>
  let (r, host) := f m.host
  (r.mapError .failed, { m with host })

/-- The run of a text. -/
def write (s : String) : Run σ := onHost fun host =>
  let (r, host) := Host.answer (.write s) host
  (r.mapError .output, host)

/-- The first counter, the bound and the step of a loop. -/
def range (vars : Stacks) (h : LoopHeader) : Except EvalError (Value × Value × Value) := do
  let start ← h.start.value vars
  let stop ← h.stop.value vars
  let step ← match h.step with
    | some e => e.value vars
    | none => .ok (.integer 1)
  return (start, stop, step)

/-- The limit allows no iteration beyond the number done. -/
def limitReached? (limit : Option Nat) (done : Nat) : Option Nat := limit.filter (· ≤ done)

/-- The iterations of a loop whose counter is on the stack of the variable, after `done` of them.
They are counted without a bound.  A count in 64 bits comes to the same: a limit fits into 64 bits
too and is looked at before the count goes up, and without a limit no result depends on the
count. -/
def iterate (limit : Option Nat) (name : String) (stop step : Value) (body : Run σ) :
    (fuel done : Nat) → Run σ
  | fuel, done, m =>
    match (m.vars.peek name).bind fun counter => counter.order stop with
    | .error e => (.error (.failed e), m)
    | .ok .gt => (.ok (), m)
    | .ok _ =>
      match limitReached? limit done with
      | some l => (.error (.failed (.iterationLimit name l)), m)
      | none =>
        match fuel with
        | 0 => (.error .outOfFuel, m)
        | fuel + 1 =>
          match body m with
          | (.error e, m) => (.error e, m)
          | (.ok (), m) =>
            match m.vars.update name fun counter => counter.add step with
            | .error e => (.error (.failed e), m)
            | .ok vars => iterate limit name stop step body fuel (done + 1) { m with vars }

/-- The run of a loop over a body. -/
def runLoop (b : Bounds) (h : LoopHeader) (body : Run σ) : Run σ := fun m =>
  match range m.vars h with
  | .error e => (.error (.failed e), m)
  | .ok (start, stop, step) =>
    match iterate b.limit h.name stop step body b.fuel 0
        { m with vars := m.vars.push h.name start } with
    | (.error e, m) => (.error e, m)
    | (.ok (), m) =>
      match m.vars.pop h.name with
      | .error e => (.error (.failed e), m)
      | .ok (_, vars) => (.ok (), { m with vars })

mutual

/-- The run of a node. -/
def run (b : Bounds) : Node → Run σ
  | .document cs => runAll b cs
  | .text s => write s
  | .loop h body => runLoop b h (runAll b body)
  | .echo es => fun m => onHost (Expression.echo m.vars es) m

/-- The run of nodes in a row, up to the first that fails. -/
def runAll (b : Bounds) : List Node → Run σ
  | [] => fun m => (.ok (), m)
  | n :: ns => fun m =>
    match run b n m with
    | (.ok (), m) => runAll b ns m
    | (.error e, m) => (.error e, m)

end

/-- A node run with no loop running before: its result, and the host after it. -/
def execute (b : Bounds) (n : Node) (host : σ) : Except Stop Unit × σ :=
  let (r, m) := run b n ⟨{}, host⟩
  (r, m.host)

end Engine

end Stencil
