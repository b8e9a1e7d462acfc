import Stencil.Proofs.Engine.Limit
import Stencil.Proofs.Engine.Unrolling
import Stencil.Proofs.Value.Counting
set_option autoImplicit false

/-!
# Loops without a limit

With no limit only the fuel bounds a loop, and what a loop does is what it does with
every fuel from some one on (`WithFuel`).  A loop counts its values one by one
(`Value.Counting`) and runs its body for each (`Engine.Turns`).  So it makes the
iterations that can be counted, and ends where a counter is beyond the bound or has no
successor (`Engine.makes_of_beyond`, `Engine.makes_of_last`); where counting goes on
for ever, no fuel is enough (`Engine.outOfFuel_of_counting`).
-/

namespace Stencil

/-! ## Enough fuel -/

/-- The property holds of every fuel from some one on. -/
def WithFuel (P : Nat → Prop) : Prop := ∃ enough, ∀ fuel, enough ≤ fuel → P fuel

namespace WithFuel

variable {P Q : Nat → Prop}

theorem of_forall (h : ∀ fuel, P fuel) : WithFuel P := ⟨0, fun fuel _ => h fuel⟩

theorem atLeast (n : Nat) : WithFuel (n ≤ ·) := ⟨n, fun _ => id⟩

theorem mono (h : WithFuel P) (hPQ : ∀ fuel, P fuel → Q fuel) : WithFuel Q := by
  obtain ⟨enough, h⟩ := h
  exact ⟨enough, fun fuel hfuel => hPQ fuel (h fuel hfuel)⟩

theorem and (hP : WithFuel P) (hQ : WithFuel Q) : WithFuel fun fuel => P fuel ∧ Q fuel := by
  obtain ⟨enough, hP⟩ := hP
  obtain ⟨enough', hQ⟩ := hQ
  refine ⟨max enough enough', fun fuel hfuel => ⟨hP fuel ?_, hQ fuel ?_⟩⟩
  · exact (Nat.le_max_left _ _).trans hfuel
  · exact (Nat.le_max_right _ _).trans hfuel

end WithFuel

namespace Bounds

/-- Without a limit, an iteration is stopped by the fuel alone. -/
theorem stop?_of_no_limit (fuel : Nat) (name : String) (done : Nat) :
    stop? { fuel } name done = if fuel ≤ done then some .outOfFuel else none :=
  rfl

/-- More fuel stops later. -/
theorem loosens_more_fuel {fuel fuel' : Nat} (h : fuel ≤ fuel') :
    Loosens (· = .outOfFuel) { fuel } { fuel := fuel' } where
  begun := by
    intro name done hbegun
    rw [stop?_of_no_limit] at hbegun ⊢
    split at hbegun
    · cases hbegun
    · rw [if_neg (by omega)]
  stopped := by
    intro name done s hstop
    rw [stop?_of_no_limit] at hstop
    split at hstop
    · exact .inl (Option.some.inj hstop).symm
    · cases hstop

end Bounds

namespace Engine

open Value (IsWithin Counting)

variable {σ : Type}

/-- The body succeeds for each of the counters in a row, with the counter on top of the stacks, and
so takes the host from the first one to the last. -/
inductive Turns (name : String) (body : Run σ) (vars : Stacks) : List Value → σ → σ → Prop
  | nil (host : σ) : Turns name body vars [] host host
  | cons {c : Value} {cs : List Value} {host host' : σ} {m : Machine σ}
      (hturn : body ⟨vars.push name c, host⟩ = (.ok (), m))
      (hrest : Turns name body vars cs m.host host') :
      Turns name body vars (c :: cs) host host'

variable {name : String} {vars : Stacks} {stop step : Value}

theorem turns_append {body : Run σ} {cs ds : List Value} {host host' : σ} :
    Turns name body vars (cs ++ ds) host host' ↔
      ∃ between, Turns name body vars cs host between ∧ Turns name body vars ds between host' := by
  induction cs generalizing host with
  | nil =>
    constructor
    · exact fun h => ⟨host, .nil host, h⟩
    · rintro ⟨_, ⟨⟩, h⟩
      exact h
  | cons c cs ih =>
    constructor
    · rintro (_ | ⟨hturn, hrest⟩)
      obtain ⟨between, hcs, hds⟩ := ih.1 hrest
      exact ⟨between, .cons hturn hcs, hds⟩
    · rintro ⟨between, _ | ⟨hturn, hcs⟩, hds⟩
      exact .cons hturn (ih.2 ⟨between, hcs, hds⟩)

/-! ## Iterations -/

theorem due?_of_isWithin {c : Value} (hc : IsWithin stop c) (vars : Stacks) :
    due? name stop (vars.push name c) = .ok (some c) := by
  obtain ⟨o, ho, hne⟩ := hc
  unfold due?
  rw [Stacks.peek_push]
  simp only [bind, Except.bind, ho]
  cases o with
  | gt => exact absurd rfl hne
  | lt | eq => rfl

theorem due?_of_beyond {c : Value} (hc : c.order stop = .ok .gt) (vars : Stacks) :
    due? name stop (vars.push name c) = .ok none := by
  unfold due?
  rw [Stacks.peek_push]
  simp only [bind, Except.bind, hc]
  rfl

/-- The counters for which iterations are due, and what the iterations come to. -/
def course (name : String) (stop step : Value) (body : Run σ) (inBody : Machine σ → List LoopRun)
    (fuel done : Nat) (m : Machine σ) : List Value × Except Stop Unit × Machine σ :=
  ((iterations none name stop step body inBody fuel done m).map (·.1),
    iterate none name stop step body fuel done m)

section

variable {body : Run σ} (inBody : Machine σ → List LoopRun) {fuel done : Nat} {c : Value}
  {host : σ} {m : Machine σ}

theorem course_of_beyond (hc : c.order stop = .ok .gt) :
    course name stop step body inBody fuel done ⟨vars.push name c, host⟩ =
      ([], .ok (), ⟨vars.push name c, host⟩) := by
  have hfuel : fuel + done = (Bounds.mk none (fuel + done)).fuel := rfl
  have hiterate := iterate_eq _ name stop step body hfuel ⟨vars.push name c, host⟩
  have hiterations := iterations_eq _ name stop step body inBody hfuel ⟨vars.push name c, host⟩
  rw [due?_of_beyond hc vars] at hiterate hiterations
  unfold course
  rw [hiterate, hiterations]
  rfl

theorem course_of_no_fuel (hc : IsWithin stop c) :
    course name stop step body inBody 0 done ⟨vars.push name c, host⟩ =
      ([c], .error .outOfFuel, ⟨vars.push name c, host⟩) := by
  have hfuel : 0 + done = (Bounds.mk none done).fuel := Nat.zero_add done
  have hiterate := iterate_eq _ name stop step body hfuel ⟨vars.push name c, host⟩
  have hiterations := iterations_eq _ name stop step body inBody hfuel ⟨vars.push name c, host⟩
  rw [due?_of_isWithin hc vars, Bounds.stop?_of_no_limit, if_pos le_rfl] at hiterate hiterations
  unfold course
  rw [hiterate, hiterations]
  rfl

/-- An iteration that the fuel allows runs the body and adds the step. -/
theorem course_of_turn {inEnv : Scoped.Run σ} (hbody : Refines body inEnv) (hc : IsWithin stop c)
    (hturn : body ⟨vars.push name c, host⟩ = (.ok (), m)) :
    course name stop step body inBody (fuel + 1) done ⟨vars.push name c, host⟩ =
      match c.add step with
      | .error e => ([c], .error (.failed e), ⟨vars.push name c, m.host⟩)
      | .ok next =>
        (course name stop step body inBody fuel (done + 1) ⟨vars.push name next, m.host⟩).map
          (c :: ·) id := by
  have hfuel : fuel + 1 + done = (Bounds.mk none (fuel + 1 + done)).fuel := rfl
  have hiterate := iterate_eq _ name stop step body hfuel ⟨vars.push name c, host⟩
  have hiterations := iterations_eq _ name stop step body inBody hfuel ⟨vars.push name c, host⟩
  have hbegun : Bounds.stop? ⟨none, fuel + 1 + done⟩ name done = none :=
    (Bounds.stop?_of_no_limit _ name done).trans (if_neg (by omega))
  rw [due?_of_isWithin hc vars, hbegun] at hiterate hiterations
  -- the body has left the counter where the loop had put it
  have hvars : m.vars = vars.push name c := by
    have hkeeps := (hbody ⟨vars.push name c, host⟩).2
    rw [hturn] at hkeeps
    exact hkeeps rfl
  have hround : seq body (count name step) ⟨vars.push name c, host⟩ =
      count name step ⟨vars.push name c, m.host⟩ := by
    rw [seq_of_ok hturn, ← hvars]
  unfold course
  rw [hiterate, hiterations]
  dsimp only [Nat.add_sub_cancel]
  unfold seq at hround ⊢
  rw [hround, count_push]
  cases c.add step <;> rfl

/-- Where the body succeeds for the counters that are counted, the iterations are those for these
counters and those from the next one on. -/
theorem course_of_counting {inEnv : Scoped.Run σ} (hbody : Refines body inEnv) {cs : List Value}
    {next : Value} {host' : σ} (hcounting : Counting stop step c cs next)
    (hturns : Turns name body vars cs host host') (fuel done : Nat) (hfuel : cs.length ≤ fuel) :
    course name stop step body inBody fuel done ⟨vars.push name c, host⟩ =
      (course name stop step body inBody (fuel - cs.length) (done + cs.length)
        ⟨vars.push name next, host'⟩).map (cs ++ ·) id := by
  induction hcounting generalizing fuel done host with
  | nil c =>
    cases hturns
    rfl
  | @cons c second next cs hc hadd _ ih =>
    rcases hturns with _ | ⟨hturn, hrest⟩
    rw [List.length_cons] at hfuel ⊢
    obtain ⟨fuel, rfl⟩ : ∃ fuel', fuel = fuel' + 1 := ⟨fuel - 1, by omega⟩
    have hlater := ih hrest fuel (done + 1) (by omega)
    have hdone : done + 1 + cs.length = done + (cs.length + 1) := by omega
    rw [course_of_turn inBody hbody hc hturn, hadd, Nat.add_sub_add_right]
    dsimp only
    rw [hlater, hdone]
    rfl

end

/-! ## Loops -/

variable [Host σ]

/-- With enough fuel, the loop runs its body for the given counters in a row, all of them
successfully, makes no other iteration, and comes to the given end. -/
structure Makes (h : LoopHeader) (body : List Node) (m : Machine σ) (cs : List Value)
    (r : Except Stop Unit × Machine σ) : Prop where
  turns : WithFuel fun fuel =>
    Turns h.name (runAll { fuel } body) m.vars cs m.host r.2.host
  counters : WithFuel fun fuel => counters { fuel } h body m = cs
  run : WithFuel fun fuel => run { fuel } (.loop h body) m = r

section

variable {h : LoopHeader} {body : List Node} {m : Machine σ} {start stop step : Value}
  {cs : List Value} {host : σ}

/-- A loop is the course of its iterations from the first counter on, and takes the last counter off
where they come to their end. -/
theorem run_loop_of_course {fuel : Nat} {r : Except Stop Unit} {m' : Machine σ}
    (hrange : range m.vars h = .ok (start, stop, step))
    (hcourse : course h.name stop step (runAll { fuel } body) (loopRunsAll { fuel } body) fuel 0
      ⟨m.vars.push h.name start, m.host⟩ = (cs, r, m')) :
    counters { fuel } h body m = cs ∧
      run { fuel } (.loop h body) m = seq (fun m' => (r, m')) (drop h.name) m' := by
  obtain ⟨hcs, hr⟩ := Prod.mk.inj hcourse
  constructor
  · unfold counters loopIterations
    rw [hrange]
    exact hcs
  · rw [run, runLoop_eq, hrange]
    unfold seq
    dsimp only
    rw [hr]

/-- A loop ends where the next counter is beyond the bound, with the stacks as they were. -/
theorem makes_of_beyond (hrange : range m.vars h = .ok (start, stop, step)) {next : Value}
    (hcounting : Counting stop step start cs next) (hnext : next.order stop = .ok .gt)
    (hturns : WithFuel fun fuel => Turns h.name (runAll { fuel } body) m.vars cs m.host host) :
    Makes h body m cs (.ok (), ⟨m.vars, host⟩) := by
  have hloop : WithFuel fun fuel => counters { fuel } h body m = cs ∧
      run { fuel } (.loop h body) m = (.ok (), ⟨m.vars, host⟩) := by
    refine (hturns.and (.atLeast cs.length)).mono fun fuel ⟨hturns, hfuel⟩ => ?_
    have hcourse := course_of_counting (loopRunsAll { fuel } body) (refines_runAll { fuel } body)
      hcounting hturns fuel 0 hfuel
    rw [course_of_beyond _ hnext, Prod.map_apply, List.append_nil] at hcourse
    obtain ⟨hcs, hrun⟩ := run_loop_of_course hrange hcourse
    refine ⟨hcs, hrun.trans ?_⟩
    simp only [seq, drop, Stacks.pop_push]
  exact ⟨hturns, hloop.mono fun _ => And.left, hloop.mono fun _ => And.right⟩

/-- A loop fails where the last counter has no successor, after its body has run for it. -/
theorem makes_of_last (hrange : range m.vars h = .ok (start, stop, step)) {last : Value}
    (hcounting : Counting stop step start cs last) (hlast : IsWithin stop last) {e : EvalError}
    (hadd : last.add step = .error e)
    (hturns : WithFuel fun fuel =>
      Turns h.name (runAll { fuel } body) m.vars (cs ++ [last]) m.host host) :
    Makes h body m (cs ++ [last])
      (.error (.failed e), ⟨m.vars.push h.name last, host⟩) := by
  have hloop : WithFuel fun fuel => counters { fuel } h body m = cs ++ [last] ∧
      run { fuel } (.loop h body) m =
        (.error (.failed e), ⟨m.vars.push h.name last, host⟩) := by
    refine (hturns.and (.atLeast (cs.length + 1))).mono fun fuel ⟨hturns, hfuel⟩ => ?_
    obtain ⟨between, hcs, hturn⟩ := turns_append.1 hturns
    rcases hturn with _ | ⟨hturn, ⟨⟩⟩
    have hrefines := refines_runAll (σ := σ) { fuel } body
    have hcourse := course_of_counting (loopRunsAll { fuel } body) hrefines hcounting hcs fuel 0
      (by omega)
    obtain ⟨left, hleft⟩ : ∃ left, fuel - cs.length = left + 1 := ⟨fuel - cs.length - 1, by omega⟩
    rw [hleft, course_of_turn _ hrefines hlast hturn, hadd] at hcourse
    exact run_loop_of_course hrange hcourse
  exact ⟨hturns, hloop.mono fun _ => And.left, hloop.mono fun _ => And.right⟩

end

/-- Where counting within the bound goes on for ever and the body succeeds each time, no fuel is
enough.  With less fuel than the body needs, it is the body that runs out of it. -/
theorem outOfFuel_of_counting {h : LoopHeader} {body : List Node} {m : Machine (Recorded σ)}
    {start stop step : Value} (hrange : range m.vars h = .ok (start, stop, step))
    (hcounting : ∀ n, ∃ cs next host, cs.length = n ∧ Counting stop step start cs next ∧
      IsWithin stop next ∧
      WithFuel fun fuel => Turns h.name (runAll { fuel } body) m.vars cs m.host host)
    (fuel : Nat) : (run { fuel } (.loop h body) m).1 = .error .outOfFuel := by
  obtain ⟨cs, next, host, hlength, hcounting, hnext, enough, hturns⟩ := hcounting fuel
  have hle : fuel ≤ max fuel enough := Nat.le_max_left _ _
  have hturns := hturns (max fuel enough) (Nat.le_max_right _ _)
  generalize max fuel enough = fuel' at hle hturns
  -- the same iterations over the body with more fuel
  have hcourse := course_of_counting (loopRunsAll { fuel := fuel' } body)
    (refines_runAll { fuel := fuel' } body) hcounting hturns fuel 0 hlength.le
  rw [hlength, Nat.sub_self, course_of_no_fuel _ hnext] at hcourse
  have hlong := congrArg (·.2.1) hcourse
  have hshortens := shortens_iterate (Bounds.loosens_more_fuel le_rfl)
    (shortens_runAll (Bounds.loosens_more_fuel hle) body)
    ((refines_runAll { fuel := fuel' } body).grows (Scoped.speaks_runAll { fuel := fuel' } body))
    h.name stop step (Nat.add_zero fuel) (Nat.add_zero fuel) ⟨m.vars.push h.name start, m.host⟩
  have hshort : (iterate none h.name stop step (runAll { fuel } body) fuel 0
      ⟨m.vars.push h.name start, m.host⟩).1 = .error .outOfFuel := by
    rcases hshortens with ⟨hsame, -⟩ | ⟨⟨_, rfl, hends⟩, -⟩
    · rw [hsame]
      exact hlong
    · exact hends
  rw [run, runLoop_eq, hrange]
  dsimp only
  rw [seq_of_error (Prod.ext hshort rfl)]

end Engine

end Stencil
