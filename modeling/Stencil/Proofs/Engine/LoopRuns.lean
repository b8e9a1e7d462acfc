import Stencil.Proofs.Engine.Causes
import Stencil.Proofs.Engine.Refinement
import Stencil.Proofs.Engine.Steps
set_option autoImplicit false

/-!
# Executions of loops

`Engine.loopRuns` lists the executions of loops in a run, each with the counters for
which an iteration was due.  The list counts nothing: how many iterations an execution
has made is the length of its list of counters, whatever else ran in between.

The bounds end a run exactly when an iteration is due that they stop, that is in an
execution of a loop that has made as many iterations as they allow
(`Engine.showsStops_run`).
-/

namespace Stencil

/-- An execution of a loop: its variable, and the counters for which an iteration was due.  A run
that ends early may not have begun the last of these iterations, or not ended it. -/
structure LoopRun where
  name : String
  counters : List Value
  deriving DecidableEq

/-- The execution of a loop whose iterations are given, each with its counter and the executions of
loops in it, followed by all these executions. -/
def LoopRun.ofIterations (name : String) (its : List (Value × List LoopRun)) : List LoopRun :=
  ⟨name, its.map (·.1)⟩ :: its.flatMap (·.2)

/-- Why the last of the given number of iterations that are due after `done` others is not begun. -/
def Bounds.lastStop? (b : Bounds) (name : String) (done : Nat) : Nat → Option Stop
  | 0 => none
  | before + 1 => b.stop? name (done + before)

theorem Bounds.lastStop?_succ {b : Bounds} {name : String} {done : Nat}
    (h : b.stop? name done = none) (number : Nat) :
    b.lastStop? name done (number + 1) = b.lastStop? name (done + 1) number := by
  cases number with
  | zero => exact h
  | succ before => exact congrArg (b.stop? name) (Nat.add_right_comm done before 1)

/-- Why the last iteration that was due was not begun. -/
def LoopRun.stop? (b : Bounds) (r : LoopRun) : Option Stop :=
  b.lastStop? r.name 0 r.counters.length

namespace Engine

variable {σ : Type}

/-- What is logged of a run that comes behind another one.  Where the first has ended early, there
is `nothing`. -/
def logBehind {α : Type} (nothing : α) (log : Machine σ → α) : Except Stop Unit × Machine σ → α
  | (.ok (), m) => log m
  | (.error _, _) => nothing

@[simp] theorem logBehind_ok {α : Type} (nothing : α) (log : Machine σ → α) (u : Unit)
    (m : Machine σ) : logBehind nothing log (.ok u, m) = log m := rfl

@[simp] theorem logBehind_error {α : Type} (nothing : α) (log : Machine σ → α) (s : Stop)
    (m : Machine σ) : logBehind nothing log (.error s, m) = nothing := rfl

/-- The iterations of a loop that are due from one with the counter on the stacks on, after `done`
of them: each with its counter, and with the executions of loops in the body, which is run by
`body` and executes the loops `inBody` itself. -/
def iterations (limit : Option Nat) (name : String) (stop step : Value) (body : Run σ)
    (inBody : Machine σ → List LoopRun) :
    (fuel done : Nat) → Machine σ → List (Value × List LoopRun)
  | fuel, done, m =>
    match due? name stop m.vars with
    | .error _ => []
    | .ok none => []
    | .ok (some counter) =>
      match limitReached? limit done, fuel with
      | some _, _ => [(counter, [])]
      | none, 0 => [(counter, [])]
      | none, fuel + 1 =>
        (counter, inBody m) ::
          logBehind [] (iterations limit name stop step body inBody fuel (done + 1))
            (seq body (count name step) m)

/-- The iterations of a loop over a body. -/
def loopIterations (b : Bounds) (h : LoopHeader) (body : Run σ) (inBody : Machine σ → List LoopRun)
    (m : Machine σ) : List (Value × List LoopRun) :=
  match range m.vars h with
  | .error _ => []
  | .ok (start, stop, step) =>
    iterations b.limit h.name stop step body inBody b.fuel 0
      { m with vars := m.vars.push h.name start }

variable [Host σ]

mutual

/-- The executions of loops in the run of a node. -/
def loopRuns (b : Bounds) : Node → Machine σ → List LoopRun
  | .document cs => loopRunsAll b cs
  | .text _ => fun _ => []
  | .loop h body => fun m =>
    LoopRun.ofIterations h.name (loopIterations b h (runAll b body) (loopRunsAll b body) m)
  | .echo _ => fun _ => []

/-- The executions of loops in the run of nodes in a row. -/
def loopRunsAll (b : Bounds) : List Node → Machine σ → List LoopRun
  | [] => fun _ => []
  | n :: ns => fun m => loopRuns b n m ++ logBehind [] (loopRunsAll b ns) (run b n m)

end

omit [Host σ]

theorem iterations_eq (b : Bounds) (name : String) (stop step : Value) (body : Run σ)
    (inBody : Machine σ → List LoopRun) {fuel done : Nat} (hfuel : fuel + done = b.fuel)
    (m : Machine σ) :
    iterations b.limit name stop step body inBody fuel done m =
      match due? name stop m.vars with
      | .error _ => []
      | .ok none => []
      | .ok (some counter) =>
        match b.stop? name done with
        | some _ => [(counter, [])]
        | none =>
          (counter, inBody m) ::
            logBehind [] (iterations b.limit name stop step body inBody (fuel - 1) (done + 1))
              (seq body (count name step) m) := by
  rw [iterations]
  unfold Bounds.stop?
  rcases due? name stop m.vars with e | _ | counter
  · rfl
  · rfl
  · cases limitReached? b.limit done with
    | some l => rfl
    | none =>
      cases fuel with
      | zero => rw [if_pos (by omega)]
      | succ fuel =>
        rw [if_neg (by omega)]
        rfl

/-! ## Stops that do not come from the bounds -/

theorem due?_error (name : String) (stop : Value) (vars : Stacks) :
    FailsWith (fun e => ¬ (Stop.failed e).IsOfBounds) (due? name stop vars) := by
  refine (Stacks.failsWith_peek name id vars).bind fun counter => ?_
  refine ((counter.failsWith_order stop).mono fun _ h => h.isOfValues.not_isOfBounds).bind ?_
  rintro (_ | _ | _) <;> exact .ok _

/-- No bounds end the run. -/
def IsUnbounded (f : Run σ) : Prop := ∀ m s, (f m).1 = .error s → ¬ s.IsOfBounds

theorem isUnbounded_skip : IsUnbounded (skip : Run σ) := by
  intro m s hs
  cases hs

theorem isUnbounded_onHost {f : σ → Except EvalError Unit × σ}
    (hf : ∀ host, FailsWith (fun e => ¬ (Stop.failed e).IsOfBounds) (f host).1) :
    IsUnbounded (onHost f) := by
  intro m s hs
  unfold onHost at hs
  rcases hr : f m.host with ⟨e | u, host⟩
  · rw [hr] at hs
    obtain rfl := Except.error.inj hs
    exact hf m.host e (by rw [hr])
  · rw [hr] at hs
    cases hs

theorem isUnbounded_count (name : String) (step : Value) :
    IsUnbounded (count name step : Run σ) := by
  intro m s hs
  have hadd (counter : Value) :=
    (counter.failsWith_add step).mono fun _ h => h.isOfValues.not_isOfBounds
  have hupdate := Stacks.failsWith_update name id hadd m.vars
  unfold count at hs
  cases hu : m.vars.update name fun counter => counter.add step with
  | error e =>
    rw [hu] at hs
    obtain rfl := Except.error.inj hs
    exact hupdate e hu
  | ok vars =>
    rw [hu] at hs
    cases hs

theorem isUnbounded_drop (name : String) : IsUnbounded (drop name : Run σ) := by
  intro m s hs
  have hpop : FailsWith (fun e => ¬ (Stop.failed e).IsOfBounds) (m.vars.pop name) :=
    Stacks.failsWith_pop name id m.vars
  unfold drop at hs
  cases hp : m.vars.pop name with
  | error e =>
    rw [hp] at hs
    obtain rfl := Except.error.inj hs
    exact hpop e hp
  | ok r =>
    rw [hp] at hs
    cases hs

/-! ## Stops and executions of loops -/

/-- The bounds end the run exactly when one of the executions of loops shows that they do. -/
def ShowsStops (b : Bounds) (f : Run σ) (runs : Machine σ → List LoopRun) : Prop :=
  ∀ m s, s.IsOfBounds → ((f m).1 = .error s ↔ ∃ r ∈ runs m, r.stop? b = some s)

theorem IsUnbounded.showsStops {f : Run σ} (hf : IsUnbounded f) (b : Bounds) :
    ShowsStops b f fun _ => [] := by
  intro m s hs
  constructor
  · intro h
    exact absurd hs (hf m s h)
  · rintro ⟨r, hr, -⟩
    cases hr

/-- A run that no bounds end adds no stop of them to the run before it. -/
theorem IsUnbounded.seq_eq_stop_iff {g : Run σ} (hg : IsUnbounded g) (f : Run σ) (m : Machine σ)
    {s : Stop} (hs : s.IsOfBounds) : (seq f g m).1 = .error s ↔ (f m).1 = .error s := by
  rcases hrun : f m with ⟨s' | u, m'⟩
  · rw [seq_of_error hrun]
  · rw [seq_of_ok hrun]
    exact iff_of_false (fun h => hg m' s h hs) nofun

/-- The iterations of a loop are stopped when the last of them that is due is, or when one of the
executions of loops in the body is. -/
theorem iterate_eq_stop_iff {b : Bounds} {body : Run σ} {inBody : Machine σ → List LoopRun}
    (hbody : ShowsStops b body inBody) (name : String) (stop step : Value) {fuel done : Nat}
    (hfuel : fuel + done = b.fuel) (m : Machine σ) {s : Stop} (hs : s.IsOfBounds) :
    let its := iterations b.limit name stop step body inBody fuel done m
    (iterate b.limit name stop step body fuel done m).1 = .error s ↔
      b.lastStop? name done its.length = some s ∨ ∃ r ∈ its.flatMap (·.2), r.stop? b = some s := by
  intro its
  have hdue := due?_error name stop m.vars
  have hits : its = _ := iterations_eq b name stop step body inBody hfuel m
  rw [iterate_eq b name stop step body hfuel, hits]
  rcases hd : due? name stop m.vars with e | _ | counter
  · -- the comparison fails
    have hne : Stop.failed e ≠ s := fun h => hdue e hd (h ▸ hs)
    simpa [Bounds.lastStop?] using hne
  · simp [Bounds.lastStop?]
  · cases hstop : b.stop? name done with
    | some s' => simp [Bounds.lastStop?, hstop]
    | none =>
      have hturn : (seq body (count name step) m).1 = .error s ↔
          ∃ r ∈ inBody m, r.stop? b = some s :=
        ((isUnbounded_count name step).seq_eq_stop_iff body m hs).trans (hbody m s hs)
      dsimp only
      rw [List.length_cons, Bounds.lastStop?_succ hstop, List.flatMap_cons]
      rcases hrun : seq body (count name step) m with ⟨s' | u, m'⟩
      · rw [seq_of_error hrun]
        rw [hrun] at hturn
        simpa [Bounds.lastStop?] using hturn
      · rw [hrun] at hturn
        -- no execution in the body shows a stop, since the body has ended
        have hnone : ¬ ∃ r ∈ inBody m, r.stop? b = some s := fun h => nomatch hturn.2 h
        have hlt := lt_fuel_of_stop?_eq_none hstop
        have hrest := iterate_eq_stop_iff hbody name stop step
          (show fuel - 1 + (done + 1) = b.fuel by omega) m' hs
        rw [seq_of_ok hrun, logBehind_ok]
        refine hrest.trans ?_
        simp only [List.mem_append, or_and_right, exists_or, hnone, false_or]
termination_by fuel
decreasing_by omega

theorem exists_stop?_ofIterations {b : Bounds} {name : String} {its : List (Value × List LoopRun)}
    {s : Stop} :
    (∃ r ∈ LoopRun.ofIterations name its, r.stop? b = some s) ↔
      b.lastStop? name 0 its.length = some s ∨ ∃ r ∈ its.flatMap (·.2), r.stop? b = some s := by
  have hlast : LoopRun.stop? b ⟨name, its.map (·.1)⟩ = b.lastStop? name 0 its.length := by
    rw [LoopRun.stop?, List.length_map]
  rw [LoopRun.ofIterations, ← hlast]
  simp only [List.mem_cons, or_and_right, exists_or, exists_eq_left]

/-- A loop is stopped where its iterations are. -/
theorem showsStops_runLoop (b : Bounds) (h : LoopHeader) {body : Run σ}
    {inBody : Machine σ → List LoopRun} (hbody : ShowsStops b body inBody) :
    ShowsStops b (runLoop b h body) fun m =>
      LoopRun.ofIterations h.name (loopIterations b h body inBody m) := by
  intro m s hs
  have hrange := Scoped.range_error m.vars.env h
  rw [← range_eq_scoped] at hrange
  dsimp only
  rw [runLoop_eq, loopIterations, exists_stop?_ofIterations]
  rcases hr : range m.vars h with e | ⟨start, stop, step⟩
  · have hne : Stop.failed e ≠ s := by
      rintro rfl
      rcases hrange e hr with ⟨name, -, -, rfl⟩ | ⟨a, -, -, rfl⟩ <;> exact hs
    simpa [Bounds.lastStop?] using hne
  · dsimp only
    rw [(isUnbounded_drop h.name).seq_eq_stop_iff _ _ hs]
    exact iterate_eq_stop_iff hbody h.name stop step (Nat.add_zero b.fuel) _ hs

/-! ## Nodes -/

variable [Host σ]

theorem isUnbounded_write (text : String) : IsUnbounded (write text : Run σ) := by
  refine isUnbounded_onHost fun host => ?_
  dsimp only
  cases (Host.answer (.write text) host).1 with
  | error e => exact .error id
  | ok u => exact .ok u

theorem isUnbounded_echo (es : List Element) :
    IsUnbounded (fun m => onHost (Expression.echo m.vars es) m : Run σ) := by
  intro m
  refine isUnbounded_onHost (fun host => ?_) m
  rw [Expression.echo_eq_scoped]
  refine (Scoped.echo_error m.vars.env es host).mono ?_
  rintro e (hvalues | ⟨name, -, -, rfl⟩)
  · exact hvalues.not_isOfBounds
  · exact id

mutual

theorem showsStops_run (b : Bounds) (n : Node) : ShowsStops b (run b n : Run σ) (loopRuns b n) := by
  cases n with
  | document cs =>
    rw [run, loopRuns]
    exact showsStops_runAll b cs
  | text s =>
    rw [run, loopRuns]
    exact (isUnbounded_write s).showsStops b
  | loop h body =>
    rw [run, loopRuns]
    exact showsStops_runLoop b h (showsStops_runAll b body)
  | echo es =>
    rw [run, loopRuns]
    exact (isUnbounded_echo es).showsStops b

theorem showsStops_runAll (b : Bounds) (ns : List Node) :
    ShowsStops b (runAll b ns : Run σ) (loopRunsAll b ns) := by
  cases ns with
  | nil =>
    rw [runAll_nil, loopRunsAll]
    exact isUnbounded_skip.showsStops b
  | cons n ns =>
    intro m s hs
    have hn := showsStops_run b n m s hs
    rw [runAll_cons, loopRunsAll]
    dsimp only
    rcases hrun : (run b n m : Except Stop Unit × Machine σ) with ⟨s' | u, m'⟩
    · rw [hrun] at hn
      rw [seq_of_error hrun, logBehind_error, List.append_nil]
      exact hn
    · rw [hrun] at hn
      have hnone : ¬ ∃ r ∈ loopRuns b n m, r.stop? b = some s := fun h => nomatch hn.2 h
      rw [seq_of_ok hrun]
      simp only [logBehind_ok, List.mem_append, or_and_right, exists_or, hnone, false_or]
      exact showsStops_runAll b ns m' s hs

end

end Engine

end Stencil
