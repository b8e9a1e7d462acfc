import Stencil.Proofs.Engine.Scoped
set_option autoImplicit false

/-!
# Substitution of constants

A constant put in the place of a variable is seen where the variable is in scope: in
echoes, in the arguments of loops, and in the bodies of loops over other variables.
A node in which this was done means what the node itself means where the variable is
bound to the value of the constant (`Scoped.run_substitute`).
-/

namespace Stencil

/-- The constant stands for the value.  No constant stands for the value that is absent. -/
inductive Value.HasConstant : Value → Element → Prop where
  | integer (n : Int64) : HasConstant (.integer n) (.integer n)
  | double (x : Float) : HasConstant (.double x) (.double x)
  | text (s : String) : HasConstant (.text s) (.text s)

theorem Value.exists_hasConstant {v : Value} (hv : v ≠ .absent) : ∃ c, v.HasConstant c := by
  cases v with
  | absent => exact absurd rfl hv
  | integer n => exact ⟨_, .integer n⟩
  | double x => exact ⟨_, .double x⟩
  | text s => exact ⟨_, .text s⟩

theorem Value.exists_forall₂_hasConstant {vs : List Value} (hvs : ∀ v ∈ vs, v ≠ .absent) :
    ∃ cs, List.Forall₂ HasConstant vs cs := by
  induction vs with
  | nil => exact ⟨[], .nil⟩
  | cons v vs ih =>
    obtain ⟨hv, hrest⟩ := List.forall_mem_cons.1 hvs
    obtain ⟨c, hc⟩ := exists_hasConstant hv
    obtain ⟨cs, hcs⟩ := ih hrest
    exact ⟨c :: cs, .cons hc hcs⟩

/-! ## Elements and nodes -/

/-- The constant, if the element is the variable. -/
def Element.substitute (e : Element) (name : String) (c : Element) : Element :=
  if e = .var name then c else e

theorem Element.substitute_var (name : String) (c : Element) :
    (Element.var name).substitute name c = c :=
  if_pos rfl

theorem Element.substitute_of_ne {e : Element} {name : String} (h : e ≠ .var name) (c : Element) :
    e.substitute name c = e :=
  if_neg h

/-- The arguments of a loop with a constant in the place of a variable. -/
def LoopHeader.substitute (name : String) (c : Element) (h : LoopHeader) : LoopHeader where
  name := h.name
  start := h.start.substitute name c
  stop := h.stop.substitute name c
  step := h.step.map (·.substitute name c)

namespace Node

mutual

/-- The node with a constant in the place of a variable.  The body of a loop over the variable stays
as it is, since there the variable is that of the loop; the arguments of this loop do not. -/
def substitute (name : String) (c : Element) : Node → Node
  | document cs => document (substituteAll name c cs)
  | text s => text s
  | loop h body =>
    loop (h.substitute name c) (if h.name = name then body else substituteAll name c body)
  | echo es => echo (es.map (·.substitute name c))

/-- Nodes in a row with a constant in the place of a variable. -/
def substituteAll (name : String) (c : Element) : List Node → List Node
  | [] => []
  | n :: ns => substitute name c n :: substituteAll name c ns

end

end Node

/-! ## Environments -/

namespace Env

theorem bind_self (env : Env) (name : String) (v : Value) : env.bind name v name = some v :=
  if_pos rfl

theorem bind_of_ne (env : Env) {name other : String} (h : other ≠ name) (v : Value) :
    env.bind name v other = env other :=
  if_neg h

/-- The value bound last is the one that counts. -/
theorem bind_bind_self (env : Env) (name : String) (v w : Value) :
    (env.bind name v).bind name w = env.bind name w := by
  funext other
  by_cases h : other = name
  · rw [h, bind_self, bind_self]
  · rw [bind_of_ne _ h, bind_of_ne _ h, bind_of_ne _ h]

theorem bind_comm (env : Env) {name other : String} (hne : other ≠ name) (v w : Value) :
    (env.bind name v).bind other w = (env.bind other w).bind name v := by
  funext third
  by_cases h : third = other
  · rw [h, bind_self, bind_of_ne _ hne, bind_self]
  · rw [bind_of_ne _ h]
    by_cases h' : third = name
    · rw [h', bind_self, bind_self]
    · rw [bind_of_ne _ h', bind_of_ne _ h', bind_of_ne _ h]

end Env

/-! ## Expressions -/

namespace Scoped

variable {name : String} {v : Value} {c : Element}

theorem value_of_hasConstant (env : Env) (hc : v.HasConstant c) : value env c = .ok v := by
  cases hc <;> rfl

/-- An element other than the variable has the same value with the variable bound. -/
theorem value_bind_of_ne (env : Env) {e : Element} (h : e ≠ .var name) (v : Value) :
    value (env.bind name v) e = value env e := by
  cases e with
  | var other =>
    have hne : other ≠ name := fun heq => h (congrArg Element.var heq)
    rw [value, value, Env.bind_of_ne env hne]
  | _ => rfl

theorem value_substitute (env : Env) (hc : v.HasConstant c) (e : Element) :
    value env (e.substitute name c) = value (env.bind name v) e := by
  by_cases h : e = .var name
  · rw [h, Element.substitute_var, value_of_hasConstant env hc, value, Env.bind_self]
  · rw [Element.substitute_of_ne h, value_bind_of_ne env h]

theorem range_substitute (env : Env) (hc : v.HasConstant c) (h : LoopHeader) :
    range env (h.substitute name c) = range (env.bind name v) h := by
  unfold range LoopHeader.substitute
  rw [value_substitute env hc, value_substitute env hc]
  cases h.step with
  | none => rfl
  | some e =>
    dsimp only [Option.map_some]
    rw [value_substitute env hc]

variable {σ : Type} [Host σ]

/-- The environment matters for the value of the element alone. -/
theorem step_congr {env env' : Env} {e : Element} (h : value env e = value env' e) :
    (step env e : Step σ Unit) = step env' e := by
  have hpush : (do Step.push (← value env e) : Step σ Unit) = (do Step.push (← value env' e)) := by
    rw [h]
  cases e with
  | operator | call => rfl
  | _ => exact hpush

/-- A constant is put on the operands as a variable with its value is. -/
theorem step_of_hasConstant (env : Env) (hc : v.HasConstant c) :
    (step env c : Step σ Unit) = step (env.bind name v) (.var name) := by
  have hvar : value (env.bind name v) (.var name) = .ok v := by rw [value, Env.bind_self]
  have hpush : (step (env.bind name v) (.var name) : Step σ Unit) =
      (do Step.push (← value (env.bind name v) (.var name))) := rfl
  rw [hpush, hvar]
  cases hc <;> rfl

theorem step_substitute (env : Env) (hc : v.HasConstant c) (e : Element) :
    (step env (e.substitute name c) : Step σ Unit) = step (env.bind name v) e := by
  by_cases h : e = .var name
  · rw [h, Element.substitute_var, step_of_hasConstant env hc]
  · rw [Element.substitute_of_ne h, step_congr (value_bind_of_ne env h v)]

theorem steps_substitute (env : Env) (hc : v.HasConstant c) (es : List Element) :
    (steps env (es.map (·.substitute name c)) : Step σ Unit) = steps (env.bind name v) es := by
  induction es with
  | nil => rfl
  | cons e es ih => rw [List.map_cons, steps, steps, step_substitute env hc, ih]

theorem echo_substitute (env : Env) (hc : v.HasConstant c) (es : List Element) (host : σ) :
    echo env (es.map (·.substitute name c)) host = echo (env.bind name v) es host := by
  unfold echo
  rw [steps_substitute env hc]

/-! ## Nodes -/

omit [Host σ]

/-- The iterations of a loop are the same ones in two environments, if the bodies are with every
counter. -/
theorem iterate_congr {body body' : Scoped.Run σ} {env env' : Env} {counts : String}
    (hbody : ∀ counter, body (env.bind counts counter) = body' (env'.bind counts counter))
    (limit : Option Nat) (stop step : Value) (fuel done : Nat) (counter : Value) (host : σ) :
    iterate limit counts stop step body env fuel done counter host =
      iterate limit counts stop step body' env' fuel done counter host := by
  induction fuel generalizing done counter host with
  | zero =>
    unfold iterate
    rfl
  | succ fuel ih =>
    unfold iterate
    simp only [hbody, ih]

variable [Host σ]

mutual

/-- A node with a constant in the place of a variable means what the node means where the variable
is bound to the value of the constant. -/
theorem run_substitute (b : Bounds) (hc : v.HasConstant c) (n : Node) (env : Env) :
    (run b (n.substitute name c) env : σ → _) = run b n (env.bind name v) := by
  cases n with
  | document cs =>
    rw [Node.substitute, run, run]
    exact runAll_substitute b hc cs env
  | text s =>
    rw [Node.substitute, run]
  | loop h body =>
    rw [Node.substitute, run, run]
    have hbody : ∀ counter,
        (runAll b (if h.name = name then body else Node.substituteAll name c body)
            (env.bind h.name counter) : σ → _) =
          runAll b body ((env.bind name v).bind h.name counter) := by
      intro counter
      by_cases hname : h.name = name
      · -- the loop hides the variable
        rw [if_pos hname, hname, Env.bind_bind_self]
      · rw [if_neg hname, runAll_substitute b hc body, Env.bind_comm env hname]
    funext host
    unfold runLoop
    rw [range_substitute env hc]
    rcases range (env.bind name v) h with e | ⟨start, stop, step⟩
    · rfl
    · exact iterate_congr hbody b.limit stop step b.fuel 0 start host
  | echo es =>
    rw [Node.substitute, run, run]
    funext host
    exact congrArg attempt (echo_substitute env hc es host)

theorem runAll_substitute (b : Bounds) (hc : v.HasConstant c) (ns : List Node) (env : Env) :
    (runAll b (Node.substituteAll name c ns) env : σ → _) = runAll b ns (env.bind name v) := by
  cases ns with
  | nil => rw [Node.substituteAll, runAll]
  | cons n ns =>
    rw [Node.substituteAll, runAll, runAll]
    dsimp only
    rw [run_substitute b hc n, runAll_substitute b hc ns]

end

end Scoped

end Stencil
