import Stencil.Proofs.Engine.Scoped
set_option autoImplicit false

/-!
# Named stacks are lexical scopes

The engine keeps the counters of all running loops in one store, changes them in
place and takes each off when its loop ends.  Run on a store, a node does what it
does in the environment that the tops of the stacks make up, and where it succeeds
it leaves the store as it was (`Refines`).  So the engine runs every template as
the scoped interpreter does (`Engine.execute_eq_scoped`).
-/

namespace Stencil

namespace Stacks

/-- The tops of the stacks. -/
def env (s : Stacks) : Env := fun name => (s.values name).head?

/-- A value put on a stack hides the one below it. -/
theorem env_push (name : String) (v : Value) (s : Stacks) :
    (s.push name v).env = s.env.bind name v := by
  funext other
  unfold env Env.bind
  by_cases h : other = name
  · rw [if_pos h, h, values_push_self]
    rfl
  · rw [if_neg h, values_push_of_ne (Ne.symm h)]

theorem peek_push (name : String) (v : Value) (s : Stacks) : (s.push name v).peek name = .ok v := by
  rw [peek_eq, values_push_self]

/-- The value put on a stack last is the one that an update changes. -/
theorem update_push (name : String) (v : Value) (f : Value → Except EvalError Value) (s : Stacks) :
    (s.push name v).update name f = (f v).map fun w => s.push name w := by
  have hp := peek_push name v s
  simp only [update, hp, bind, Except.bind]
  cases f v with
  | error e => rfl
  | ok w => simp [pure, Except.pure, Except.map, push, replaceFirst]

end Stacks

/-! ## Expressions -/

theorem Element.value_eq_scoped (vars : Stacks) (e : Element) :
    e.value vars = Scoped.value vars.env e := by
  cases e with
  | var name =>
    have hp := Stacks.peek_eq name vars
    simp only [Element.value, Scoped.value, Stacks.env, hp]
    cases vars.values name <;> rfl
  | _ => rfl

namespace Expression

variable {σ : Type} [Host σ]

theorem step_eq_scoped (vars : Stacks) (e : Element) :
    (step vars e : Step σ Unit) = Scoped.step vars.env e := by
  cases e with
  | var name => simp only [step, Scoped.step, Element.value_eq_scoped]
  | _ => rfl

theorem steps_eq_scoped (vars : Stacks) (es : List Element) :
    (steps vars es : Step σ Unit) = Scoped.steps vars.env es := by
  induction es with
  | nil => rfl
  | cons e es ih => rw [steps, Scoped.steps, step_eq_scoped, ih]

theorem echo_eq_scoped (vars : Stacks) (es : List Element) (host : σ) :
    echo vars es host = Scoped.echo vars.env es host := by
  have hsteps := steps_eq_scoped (σ := σ) vars es
  unfold echo Scoped.echo
  exact hsteps ▸ rfl

end Expression

/-! ## Runs -/

namespace Engine

variable {σ : Type}

/-- From every state, the run on stacks gives the result and the host that the scoped run gives in
the environment of their tops, and leaves the stacks as they were if it succeeds. -/
def Refines (f : Run σ) (g : Scoped.Run σ) : Prop :=
  ∀ m : Machine σ,
    ((f m).1, (f m).2.host) = g m.vars.env m.host ∧ ((f m).1 = .ok () → (f m).2.vars = m.vars)

theorem refines_onHost (f : σ → Except EvalError Unit × σ) :
    Refines (onHost f) fun _ host => Scoped.attempt (f host) := by
  intro m
  exact ⟨rfl, fun _ => rfl⟩

theorem range_eq_scoped (vars : Stacks) (h : LoopHeader) :
    range vars h = Scoped.range vars.env h := by
  have hvalue : (fun e : Element => e.value vars) = Scoped.value vars.env :=
    funext (Element.value_eq_scoped vars)
  unfold range Scoped.range
  exact hvalue ▸ rfl

/-- The iterations of a loop see their counter on top of the stacks that were there before the
loop, and leave some counter there. -/
theorem refines_iterate {body : Run σ} {inEnv : Scoped.Run σ} (hbody : Refines body inEnv)
    (limit : Option Nat) (name : String) (stop step : Value) (vars : Stacks) (fuel : Nat) :
    ∀ (done : Nat) (counter : Value) (host : σ),
      let r := iterate limit name stop step body fuel done ⟨vars.push name counter, host⟩
      (r.1, r.2.host) =
          Scoped.iterate limit name stop step inEnv vars.env fuel done counter host ∧
        (r.1 = .ok () → ∃ last, r.2.vars = vars.push name last) := by
  induction fuel with
  | zero =>
    intro done counter host
    unfold iterate Scoped.iterate
    simp only [Stacks.peek_push, Except.bind]
    cases counter.order stop with
    | error e => exact ⟨rfl, nofun⟩
    | ok o =>
      cases o with
      | gt => exact ⟨rfl, fun _ => ⟨counter, rfl⟩⟩
      | lt | eq => cases limitReached? limit done <;> exact ⟨rfl, nofun⟩
  | succ fuel ih =>
    intro done counter host
    unfold iterate Scoped.iterate
    simp only [Stacks.peek_push, Except.bind]
    cases counter.order stop with
    | error e => exact ⟨rfl, nofun⟩
    | ok o =>
      cases o with
      | gt => exact ⟨rfl, fun _ => ⟨counter, rfl⟩⟩
      | lt | eq =>
        cases limitReached? limit done with
        | some l => exact ⟨rfl, nofun⟩
        | none =>
          obtain ⟨heq, hvars⟩ := hbody ⟨vars.push name counter, host⟩
          rw [Stacks.env_push] at heq
          simp only [← heq]
          rcases hrun : body ⟨vars.push name counter, host⟩ with ⟨r, vars', host'⟩
          rw [hrun] at hvars
          cases r with
          | error e => exact ⟨rfl, nofun⟩
          | ok u =>
            -- the body has left the counter where the loop had put it
            obtain rfl : vars' = vars.push name counter := hvars rfl
            simp only [Stacks.update_push]
            cases counter.add step with
            | error e => exact ⟨rfl, nofun⟩
            | ok next => exact ih (done + 1) next host'

theorem refines_runLoop (b : Bounds) (h : LoopHeader) {body : Run σ} {inEnv : Scoped.Run σ}
    (hbody : Refines body inEnv) : Refines (runLoop b h body) (Scoped.runLoop b h inEnv) := by
  intro m
  unfold runLoop Scoped.runLoop
  rw [range_eq_scoped]
  rcases Scoped.range m.vars.env h with e | ⟨start, stop, step⟩
  · exact ⟨rfl, nofun⟩
  · obtain ⟨heq, hvars⟩ :=
      refines_iterate hbody b.limit h.name stop step m.vars b.fuel 0 start m.host
    dsimp only
    rw [← heq]
    rcases hrun : iterate b.limit h.name stop step body b.fuel 0
      ⟨m.vars.push h.name start, m.host⟩ with ⟨r, m'⟩
    rw [hrun] at hvars
    cases r with
    | error e => exact ⟨rfl, nofun⟩
    | ok u =>
      obtain ⟨last, hlast⟩ := hvars rfl
      have hpop : m'.vars.pop h.name = .ok (last, m.vars) := by
        rw [hlast]
        exact Stacks.pop_push h.name last m.vars
      dsimp only
      rw [hpop]
      exact ⟨rfl, fun _ => rfl⟩

/-! ## Nodes -/

variable [Host σ]

theorem refines_echo (es : List Element) :
    Refines (fun m => onHost (Expression.echo m.vars es) m : Run σ)
      fun env host => Scoped.attempt (Scoped.echo env es host) := by
  intro m
  have he : Scoped.echo m.vars.env es m.host = Expression.echo m.vars es m.host :=
    (Expression.echo_eq_scoped m.vars es m.host).symm
  simp only [he]
  exact refines_onHost (Expression.echo m.vars es) m

mutual

theorem refines_run (b : Bounds) (n : Node) : Refines (run b n : Run σ) (Scoped.run b n) := by
  cases n with
  | document cs =>
    rw [run, Scoped.run]
    exact refines_runAll b cs
  | text s =>
    rw [run, Scoped.run]
    exact refines_onHost _
  | loop h body =>
    rw [run, Scoped.run]
    exact refines_runLoop b h (refines_runAll b body)
  | echo es =>
    rw [run, Scoped.run]
    exact refines_echo es

theorem refines_runAll (b : Bounds) (ns : List Node) :
    Refines (runAll b ns : Run σ) (Scoped.runAll b ns) := by
  cases ns with
  | nil =>
    rw [runAll, Scoped.runAll]
    exact fun m => ⟨rfl, fun _ => rfl⟩
  | cons n ns =>
    intro m
    obtain ⟨heq, hvars⟩ := refines_run b n m
    rw [runAll, Scoped.runAll]
    dsimp only
    rw [← heq]
    rcases hrun : (run b n m : Except Stop Unit × Machine σ) with ⟨r, m'⟩
    rw [hrun] at hvars
    cases r with
    | error e => exact ⟨rfl, nofun⟩
    | ok u =>
      obtain ⟨heq', hvars'⟩ := refines_runAll b ns m'
      have hm : m'.vars = m.vars := hvars rfl
      rw [hm] at heq' hvars'
      exact ⟨heq', hvars'⟩

end

/-- The engine runs every template against every host as the scoped interpreter does: with the same
result, the same host behind it and the same calls to the host in the same order. -/
theorem execute_eq_scoped (b : Bounds) (n : Node) (host : σ) :
    execute b n host = Scoped.execute b n host ∧
      (execute b n (⟨host, []⟩ : Recorded σ)).2.calls =
        (Scoped.execute b n (⟨host, []⟩ : Recorded σ)).2.calls := by
  have heq : ∀ {τ : Type} [Host τ] (h : τ), execute b n h = Scoped.execute b n h :=
    fun h => (refines_run b n ⟨{}, h⟩).1
  exact ⟨heq host, by rw [heq]⟩

end Engine

end Stencil
