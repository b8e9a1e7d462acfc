set_option autoImplicit false

/-!
# Hosts

A host is what a template runs against: it takes the output, keeps the parameters
and is told the mime type.  Everything a running template asks of its host is a
`Call`, and a host is a state that answers calls, so that a run can be followed
call by call.
-/

namespace Stencil

/-- Why a host did not take the text it was given to write. -/
inductive WriteError where
  /-- the room for output ended before the text did -/
  | sinkFull
  /-- the output failed for a cause that the host words itself -/
  | failed (message : String)
  deriving DecidableEq, Repr

/-- The wording of a write error. -/
def WriteError.message : WriteError → String
  | sinkFull => "failed to write whole buffer"
  | failed message => message

/-- The parameter scopes that a template can change. -/
inductive Store where
  /-- parameters that outlive the run -/
  | persistent
  /-- parameters of this run -/
  | transient
  deriving DecidableEq, Repr

/-- The scopes in which parameters are looked up. -/
inductive Scope where
  /-- the parameters that came with the request -/
  | request
  /-- one of the changeable scopes -/
  | store (s : Store)
  deriving DecidableEq, Repr

/-- A request of a running template to its host. -/
inductive Call where
  | write (text : String)
  | lookup (scope : Scope) (name : String)
  | set (store : Store) (name value : String)
  | delete (store : Store) (name : String)
  | setMime (type : String)
  deriving DecidableEq, Repr

/-- What a host answers to a call. -/
abbrev Call.Answer : Call → Type
  | write _ => Except WriteError Unit
  | lookup _ _ => Option String
  | set _ _ _ => Unit
  | delete _ _ => Unit
  | setMime _ => Unit

/-- A state that answers calls. -/
class Host (σ : Type) where
  /-- the answer to a call, and the state after it -/
  answer : (c : Call) → σ → c.Answer × σ

/-! ## Recorded runs -/

/-- A host together with the calls it has answered, the latest first. -/
structure Recorded (σ : Type) where
  host : σ
  latest : List Call := []

namespace Recorded

/-- The calls in the order in which they were made. -/
def calls {σ : Type} (r : Recorded σ) : List Call := r.latest.reverse

instance {σ : Type} [Host σ] : Host (Recorded σ) where
  answer c r :=
    let (a, host) := Host.answer c r.host
    (a, ⟨host, c :: r.latest⟩)

theorem calls_answer {σ : Type} [Host σ] (c : Call) (r : Recorded σ) :
    (Host.answer c r).2.calls = r.calls ++ [c] := by
  simp [calls, Host.answer]

end Recorded

end Stencil
