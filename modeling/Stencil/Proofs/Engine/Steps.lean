import Stencil.Engine
set_option autoImplicit false

/-!
# Steps of a run

A run is made of runs in a row (`Engine.seq`).  An iteration of a loop is due when the
counter is not beyond the bound (`Engine.due?`), and is begun unless the limit or the
fuel stops it (`Bounds.stop?`); then the body runs and the step is added
(`Engine.iterate_eq`).  What holds between the state before and the state after of the
body and of the step, holds of all iterations in a row (`Engine.Leads.iterate`).
-/

namespace Stencil

/-- Why the iteration of a loop over `name` that is due after `done` others is not begun. -/
def Bounds.stop? (b : Bounds) (name : String) (done : Nat) : Option Stop :=
  match Engine.limitReached? b.limit done with
  | some l => some (.failed (.iterationLimit name l))
  | none => if b.fuel ≤ done then some .outOfFuel else none

namespace Engine

variable {σ : Type}

/-! ## Runs in a row -/

/-- The first run, and the second one where the first did not end early. -/
def seq (f g : Run σ) : Run σ := fun m =>
  match f m with
  | (.ok (), m) => g m
  | (.error e, m) => (.error e, m)

theorem seq_of_ok {f : Run σ} {m m' : Machine σ} {u : Unit} (h : f m = (.ok u, m')) (g : Run σ) :
    seq f g m = g m' := by
  unfold seq
  rw [h]

theorem seq_of_error {f : Run σ} {m m' : Machine σ} {s : Stop} (h : f m = (.error s, m'))
    (g : Run σ) : seq f g m = (.error s, m') := by
  unfold seq
  rw [h]

/-- The run that does nothing. -/
def skip : Run σ := fun m => (.ok (), m)

theorem skip_seq (f : Run σ) : seq skip f = f := by
  funext m
  simp only [seq, skip]

theorem seq_skip (f : Run σ) : seq f skip = f := by
  funext m
  unfold seq skip
  rcases f m with ⟨_ | _, m'⟩
  · rfl
  · rfl

theorem seq_assoc (f g h : Run σ) : seq (seq f g) h = seq f (seq g h) := by
  funext m
  unfold seq
  rcases f m with ⟨_ | _, m'⟩
  · rfl
  · rfl

section

variable [Host σ]

theorem runAll_nil (b : Bounds) : (runAll b [] : Run σ) = skip := by
  rw [runAll]
  rfl

theorem runAll_cons (b : Bounds) (n : Node) (ns : List Node) :
    (runAll b (n :: ns) : Run σ) = seq (run b n) (runAll b ns) := by
  rw [runAll]
  rfl

theorem runAll_singleton (b : Bounds) (n : Node) : (runAll b [n] : Run σ) = run b n := by
  rw [runAll_cons, runAll_nil, seq_skip]

theorem runAll_append (b : Bounds) (as bs : List Node) :
    (runAll b (as ++ bs) : Run σ) = seq (runAll b as) (runAll b bs) := by
  induction as with
  | nil => rw [List.nil_append, runAll_nil, skip_seq]
  | cons a as ih => rw [List.cons_append, runAll_cons, runAll_cons, ih, seq_assoc]

end

/-! ## Iterations -/

/-- The counter of the iteration that is due in a loop, if one is. -/
def due? (name : String) (stop : Value) (vars : Stacks) : Except EvalError (Option Value) := do
  let counter ← vars.peek name
  match ← counter.order stop with
  | .gt => return none
  | _ => return some counter

/-- The step is added to the counter. -/
def count (name : String) (step : Value) : Run σ := fun m =>
  match m.vars.update name fun counter => counter.add step with
  | .error e => (.error (.failed e), m)
  | .ok vars => (.ok (), { m with vars })

/-- The counter is taken off. -/
def drop (name : String) : Run σ := fun m =>
  match m.vars.pop name with
  | .error e => (.error (.failed e), m)
  | .ok (_, vars) => (.ok (), { m with vars })

/-- An iteration that is due and not stopped runs the body, adds the step, and leaves the rest to
the iterations behind it. -/
theorem iterate_eq (b : Bounds) (name : String) (stop step : Value) (body : Run σ)
    {fuel done : Nat} (hfuel : fuel + done = b.fuel) (m : Machine σ) :
    iterate b.limit name stop step body fuel done m =
      match due? name stop m.vars with
      | .error e => (.error (.failed e), m)
      | .ok none => (.ok (), m)
      | .ok (some _) =>
        match b.stop? name done with
        | some s => (.error s, m)
        | none =>
          seq (seq body (count name step))
            (iterate b.limit name stop step body (fuel - 1) (done + 1)) m := by
  unfold iterate due? Bounds.stop?
  cases m.vars.peek name with
  | error e => rfl
  | ok counter =>
    simp only [bind, Except.bind]
    cases counter.order stop with
    | error e => rfl
    | ok o =>
      cases o with
      | gt => rfl
      | lt | eq =>
        cases limitReached? b.limit done with
        | some l => rfl
        | none =>
          cases fuel with
          | zero =>
            rw [if_pos (by omega)]
            rfl
          | succ fuel =>
            rw [if_neg (by omega)]
            simp only [seq, count, Nat.add_sub_cancel]
            rcases body m with ⟨_ | _, m'⟩
            · rfl
            · simp only
              cases m'.vars.update name fun counter => counter.add step <;> rfl

/-- An iteration that is not stopped has fuel. -/
theorem lt_fuel_of_stop?_eq_none {b : Bounds} {name : String} {done : Nat}
    (h : b.stop? name done = none) : done < b.fuel := by
  refine Nat.lt_of_not_le fun hle => ?_
  unfold Bounds.stop? at h
  rw [if_pos hle] at h
  split at h <;> cases h

/-- A loop puts its first counter on the stacks, makes its iterations and takes the last counter
off again. -/
theorem runLoop_eq (b : Bounds) (h : LoopHeader) (body : Run σ) (m : Machine σ) :
    runLoop b h body m =
      match range m.vars h with
      | .error e => (.error (.failed e), m)
      | .ok (start, stop, step) =>
        seq (iterate b.limit h.name stop step body b.fuel 0) (drop h.name)
          { m with vars := m.vars.push h.name start } := by
  unfold runLoop seq drop
  rcases range m.vars h with e | ⟨start, stop, step⟩
  · rfl
  · dsimp only
    rcases iterate b.limit h.name stop step body b.fuel 0
      { m with vars := m.vars.push h.name start } with ⟨_ | _, m'⟩
    · rfl
    · cases hpop : m'.vars.pop h.name <;> simp only [hpop]

/-! ## States before and after -/

/-- The state that the run leaves is related to the one in which it begins, also where the run ends
early. -/
def Leads (R : Machine σ → Machine σ → Prop) (f : Run σ) : Prop := ∀ m, R m (f m).2

section

variable {R : Machine σ → Machine σ → Prop}

theorem Leads.seq {f g : Run σ} (hf : Leads R f) (hg : Leads R g)
    (htrans : ∀ m₁ m₂ m₃, R m₁ m₂ → R m₂ m₃ → R m₁ m₃) : Leads R (Engine.seq f g) := by
  intro m
  have hfm := hf m
  rcases hrun : f m with ⟨_ | _, m'⟩
  · rw [hrun] at hfm
    rwa [seq_of_error hrun]
  · rw [hrun] at hfm
    rw [seq_of_ok hrun]
    exact htrans _ _ _ hfm (hg m')

/-- What the body of a loop and its step keep, the iterations keep. -/
theorem Leads.iterate {body : Run σ} {name : String} {step : Value} (hbody : Leads R body)
    (hcount : Leads R (count name step)) (hrefl : ∀ m, R m m)
    (htrans : ∀ m₁ m₂ m₃, R m₁ m₂ → R m₂ m₃ → R m₁ m₃) (b : Bounds) (stop : Value)
    {fuel done : Nat} (hfuel : fuel + done = b.fuel) :
    Leads R (Engine.iterate b.limit name stop step body fuel done) := by
  intro m
  rw [iterate_eq b name stop step body hfuel]
  rcases due? name stop m.vars with e | _ | counter
  · exact hrefl m
  · exact hrefl m
  · cases hstop : b.stop? name done with
    | some s => exact hrefl m
    | none =>
      have hlt := lt_fuel_of_stop?_eq_none hstop
      have hrest := hbody.iterate hcount hrefl htrans b stop
        (show fuel - 1 + (done + 1) = b.fuel by omega)
      exact ((hbody.seq hcount htrans).seq hrest htrans) m
termination_by fuel
decreasing_by omega

end

end Engine

end Stencil
