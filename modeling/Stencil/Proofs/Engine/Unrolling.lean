import Stencil.Page
import Stencil.Proofs.Engine.LoopRuns
import Stencil.Proofs.Engine.Substitution
import Stencil.Proofs.Piece.Steps
set_option autoImplicit false

/-!
# Loops unrolled

A loop that ends does what its bodies do in a row, each with the counter of its
iteration put in the place of the variable as a constant (`Engine.run_unroll`).  The
constants exist because no run puts an absent value on the stacks
(`Engine.keepsDefined_run`).
-/

namespace Stencil

/-! ## Absent values -/

/-- No value on the stacks is absent. -/
def Stacks.IsDefined (s : Stacks) : Prop := ∀ name, Value.absent ∉ s.values name

namespace Stacks.IsDefined

variable {s s' : Stacks} {name : String} {v : Value}

theorem empty : ({} : Stacks).IsDefined := fun _ => List.not_mem_nil

theorem push (h : s.IsDefined) (name : String) (hv : v ≠ .absent) : (s.push name v).IsDefined := by
  intro other hmem
  by_cases hname : name = other
  · rw [hname, values_push_self] at hmem
    rcases List.mem_cons.1 hmem with heq | hbelow
    · exact hv heq.symm
    · exact h other hbelow
  · rw [values_push_of_ne hname] at hmem
    exact h other hmem

theorem peek_ne_absent (h : s.IsDefined) (hpeek : s.peek name = .ok v) : v ≠ .absent := by
  have hname := h name
  rw [peek_eq] at hpeek
  cases hvalues : s.values name with
  | nil =>
    rw [hvalues] at hpeek
    cases hpeek
  | cons w ws =>
    rw [hvalues] at hpeek hname
    obtain rfl := Except.ok.inj hpeek
    exact fun heq => hname (heq ▸ List.mem_cons_self)

theorem update (h : s.IsDefined) {f : Value → Except EvalError Value}
    (hf : ∀ v w, f v = .ok w → w ≠ .absent) (hupdate : s.update name f = .ok s') :
    s'.IsDefined := by
  intro other hmem
  by_cases hname : name = other
  · obtain ⟨v, w, -, hw, hvalues⟩ := values_update_self hupdate
    rw [← hname, hvalues] at hmem
    rcases List.mem_cons.1 hmem with heq | hbelow
    · exact hf v w hw heq.symm
    · exact h name (List.mem_of_mem_tail hbelow)
  · rw [values_update_of_ne hname hupdate] at hmem
    exact h other hmem

theorem pop (h : s.IsDefined) (hpop : s.pop name = .ok (v, s')) : s'.IsDefined := by
  intro other hmem
  by_cases hname : name = other
  · rw [← hname, values_pop_self hpop] at hmem
    exact h name (List.mem_of_mem_tail hmem)
  · rw [values_pop_of_ne hname hpop] at hmem
    exact h other hmem

theorem value_ne_absent (h : s.IsDefined) {e : Element} (he : e.value s = .ok v) :
    v ≠ .absent := by
  cases e with
  | var name => exact h.peek_ne_absent he
  | text | integer | double =>
    obtain rfl := Except.ok.inj he
    nofun
  | call | operator => cases he

end Stacks.IsDefined

/-- A sum is a number. -/
theorem Value.add_ne_absent {v w step : Value} (h : v.add step = .ok w) : w ≠ .absent := by
  obtain ⟨⟨x, y⟩, -, h⟩ := bind_eq_ok_iff.1 h
  rintro rfl
  cases x with
  | integer m =>
    cases y with
    | integer n =>
      dsimp only [exactInteger] at h
      cases hn : toInt64? (m.toInt + n.toInt) <;> rw [hn] at h <;> cases h
    | double => cases h
  | double => cases h

namespace Engine

/-- The first counter of a loop is the value of an element. -/
theorem value_of_range {vars : Stacks} {h : LoopHeader} {start stop step : Value}
    (hrange : range vars h = .ok (start, stop, step)) : h.start.value vars = .ok start := by
  obtain ⟨first, hfirst, hrest⟩ := bind_eq_ok_iff.1 hrange
  obtain ⟨bound, -, hrest⟩ := bind_eq_ok_iff.1 hrest
  have heq : first = start := by
    cases hstep : h.step with
    | none =>
      rw [hstep] at hrest
      exact congrArg Prod.fst (Except.ok.inj hrest)
    | some e =>
      rw [hstep] at hrest
      obtain ⟨increment, -, hrest⟩ := bind_eq_ok_iff.1 hrest
      exact congrArg Prod.fst (Except.ok.inj hrest)
  exact heq ▸ hfirst

/-- The counter of the iteration that is due is on top of its stack. -/
theorem peek_of_due? {name : String} {stop counter : Value} {vars : Stacks}
    (h : due? name stop vars = .ok (some counter)) : vars.peek name = .ok counter := by
  obtain ⟨top, htop, h⟩ := bind_eq_ok_iff.1 h
  obtain ⟨o, -, h⟩ := bind_eq_ok_iff.1 h
  cases o with
  | gt => cases h
  | lt | eq =>
    obtain rfl := Option.some.inj (Except.ok.inj h)
    exact htop

variable {σ : Type}

/-- From stacks on which no value is absent, the run comes to such stacks, also where it ends
early. -/
def KeepsDefined (f : Run σ) : Prop := Leads (fun m m' => m.vars.IsDefined → m'.vars.IsDefined) f

theorem KeepsDefined.seq {f g : Run σ} (hf : KeepsDefined f) (hg : KeepsDefined g) :
    KeepsDefined (Engine.seq f g) :=
  Leads.seq hf hg fun _ _ _ h h' hm => h' (h hm)

theorem keepsDefined_count (name : String) (step : Value) :
    KeepsDefined (count name step : Run σ) := by
  intro m hm
  unfold count
  cases hupdate : m.vars.update name fun counter => counter.add step with
  | error e => exact hm
  | ok vars => exact hm.update (fun _ _ => Value.add_ne_absent) hupdate

theorem keepsDefined_drop (name : String) : KeepsDefined (drop name : Run σ) := by
  intro m hm
  unfold drop
  cases hpop : m.vars.pop name with
  | error e => exact hm
  | ok r => exact hm.pop hpop

theorem keepsDefined_iterate {body : Run σ} (hbody : KeepsDefined body) (b : Bounds)
    (name : String) (stop step : Value) {fuel done : Nat} (hfuel : fuel + done = b.fuel) :
    KeepsDefined (iterate b.limit name stop step body fuel done) :=
  Leads.iterate hbody (keepsDefined_count name step) (fun _ => id)
    (fun _ _ _ h h' hm => h' (h hm)) b stop hfuel

theorem keepsDefined_runLoop {body : Run σ} (hbody : KeepsDefined body) (b : Bounds)
    (h : LoopHeader) : KeepsDefined (runLoop b h body) := by
  intro m hm
  rw [runLoop_eq]
  rcases hrange : range m.vars h with e | ⟨start, stop, step⟩
  · exact hm
  · have hiterate := keepsDefined_iterate hbody b h.name stop step (Nat.add_zero b.fuel)
    have hpushed := hm.push h.name (hm.value_ne_absent (value_of_range hrange))
    exact (hiterate.seq (keepsDefined_drop h.name)) _ hpushed

section

variable [Host σ]

mutual

theorem keepsDefined_run (b : Bounds) (n : Node) : KeepsDefined (run b n : Run σ) := by
  cases n with
  | document cs =>
    rw [run]
    exact keepsDefined_runAll b cs
  | text s =>
    rw [run]
    exact fun _ hm => hm
  | loop h body =>
    rw [run]
    exact keepsDefined_runLoop (keepsDefined_runAll b body) b h
  | echo es =>
    rw [run]
    exact fun _ hm => hm

theorem keepsDefined_runAll (b : Bounds) (ns : List Node) : KeepsDefined (runAll b ns : Run σ) := by
  cases ns with
  | nil =>
    rw [runAll_nil]
    exact fun _ hm => hm
  | cons n ns =>
    rw [runAll_cons]
    exact (keepsDefined_run b n).seq (keepsDefined_runAll b ns)

end

end

/-- The counters of a loop are values that constants stand for. -/
theorem ne_absent_of_mem_iterations {body : Run σ} (hbody : KeepsDefined body)
    (inBody : Machine σ → List LoopRun) (b : Bounds) (name : String) (stop step : Value)
    {fuel done : Nat} (hfuel : fuel + done = b.fuel) {m : Machine σ} (hm : m.vars.IsDefined) :
    ∀ it ∈ iterations b.limit name stop step body inBody fuel done m, it.1 ≠ .absent := by
  rw [iterations_eq b name stop step body inBody hfuel]
  rcases hdue : due? name stop m.vars with e | _ | counter
  · exact List.forall_mem_nil _
  · exact List.forall_mem_nil _
  · have hcounter := hm.peek_ne_absent (peek_of_due? hdue)
    cases hstop : b.stop? name done with
    | some s => exact List.forall_mem_cons.2 ⟨hcounter, List.forall_mem_nil _⟩
    | none =>
      have hlt := lt_fuel_of_stop?_eq_none hstop
      have hturn := hbody.seq (keepsDefined_count name step) m hm
      refine List.forall_mem_cons.2 ⟨hcounter, ?_⟩
      rcases hrun : seq body (count name step) m with ⟨s | u, m'⟩
      · exact List.forall_mem_nil _
      · rw [hrun] at hturn
        exact ne_absent_of_mem_iterations hbody inBody b name stop step (by omega) hturn
termination_by fuel
decreasing_by omega

/-! ## Iterations in a row -/

/-- Where runs in a row succeed, each of them does. -/
theorem seq_eq_ok_iff {f g : Run σ} {m m' : Machine σ} :
    seq f g m = (.ok (), m') ↔ ∃ m₁, f m = (.ok (), m₁) ∧ g m₁ = (.ok (), m') := by
  rcases hrun : f m with ⟨s | u, m₁⟩
  · simp [seq_of_error hrun]
  · simp [seq_of_ok hrun]

theorem count_push (name : String) (counter step : Value) (vars : Stacks) (host : σ) :
    (count name step : Run σ) ⟨vars.push name counter, host⟩ =
      match counter.add step with
      | .error e => (.error (.failed e), ⟨vars.push name counter, host⟩)
      | .ok next => (.ok (), ⟨vars.push name next, host⟩) := by
  unfold count
  rw [Stacks.update_push]
  cases counter.add step <;> rfl

variable [Host σ]

/-- The counters for which the iterations of a loop are due. -/
def counters (b : Bounds) (h : LoopHeader) (body : List Node) (m : Machine σ) : List Value :=
  (loopIterations b h (runAll b body) (loopRunsAll b body) m).map (·.1)

/-- A body that succeeds with the counter on the stacks does the same without it, if the counter is
put in the place of the variable. -/
theorem runAll_substituteAll {b : Bounds} {name : String} {counter : Value} {c : Element}
    (hc : counter.HasConstant c) {body : List Node} {vars : Stacks} {host : σ} {m : Machine σ}
    (hrun : runAll b body ⟨vars.push name counter, host⟩ = (.ok (), m)) :
    m.vars = vars.push name counter ∧
      runAll b (Node.substituteAll name c body) ⟨vars, host⟩ = (.ok (), ⟨vars, m.host⟩) := by
  obtain ⟨heq, hvars⟩ := refines_runAll b body ⟨vars.push name counter, host⟩
  obtain ⟨heq', hvars'⟩ := refines_runAll b (Node.substituteAll name c body) ⟨vars, host⟩
  rw [hrun, Stacks.env_push] at heq
  rw [hrun] at hvars
  rw [Scoped.runAll_substitute b hc, ← heq] at heq'
  rcases hsubst : runAll b (Node.substituteAll name c body) ⟨vars, host⟩ with ⟨r, vars', host'⟩
  rw [hsubst] at heq' hvars'
  obtain ⟨rfl, rfl⟩ := Prod.mk.inj heq'
  obtain rfl : vars' = vars := hvars' rfl
  exact ⟨hvars rfl, rfl⟩

/-- Iterations that come to their end do what the bodies do in a row. -/
theorem runAll_flatMap_of_iterate {b : Bounds} {name : String} {stop step : Value}
    {body : List Node} {vars : Stacks} {fuel done : Nat} (hfuel : fuel + done = b.fuel)
    {counter : Value} {host : σ} {m : Machine σ}
    (hrun : iterate b.limit name stop step (runAll b body) fuel done
      ⟨vars.push name counter, host⟩ = (.ok (), m)) {cs : List Element}
    (hcs : List.Forall₂ Value.HasConstant
      ((iterations b.limit name stop step (runAll b body) (loopRunsAll b body) fuel done
        ⟨vars.push name counter, host⟩).map (·.1)) cs) :
    runAll b (cs.flatMap fun c => Node.substituteAll name c body) ⟨vars, host⟩ =
      (.ok (), ⟨vars, m.host⟩) := by
  rw [iterate_eq b name stop step _ hfuel] at hrun
  rw [iterations_eq b name stop step _ _ hfuel] at hcs
  rcases hdue : due? name stop (vars.push name counter) with e | _ | top
  · rw [hdue] at hrun
    cases hrun
  · rw [hdue] at hrun hcs
    cases hrun
    cases hcs
    rw [List.flatMap_nil, runAll_nil]
    rfl
  · obtain rfl : counter = top :=
      Except.ok.inj ((Stacks.peek_push name counter vars).symm.trans (peek_of_due? hdue))
    rw [hdue] at hrun hcs
    cases hstop : b.stop? name done with
    | some s =>
      rw [hstop] at hrun
      cases hrun
    | none =>
      rw [hstop] at hrun hcs
      obtain ⟨m₂, hturn, hrest⟩ := seq_eq_ok_iff.1 hrun
      obtain ⟨⟨vars₁, host₁⟩, hbody, hcount⟩ := seq_eq_ok_iff.1 hturn
      dsimp only at hcs
      rw [hturn, logBehind_ok, List.map_cons] at hcs
      cases hcs with
      | cons hc hcs =>
        obtain ⟨hvars, hfirst⟩ := runAll_substituteAll hc hbody
        obtain rfl : vars₁ = vars.push name counter := hvars
        rw [count_push] at hcount
        cases hadd : counter.add step with
        | error e =>
          rw [hadd] at hcount
          cases hcount
        | ok next =>
          rw [hadd] at hcount
          obtain rfl := (Prod.mk.inj hcount).2
          have hlt := lt_fuel_of_stop?_eq_none hstop
          have hothers := runAll_flatMap_of_iterate (by omega) hrest hcs
          rw [List.flatMap_cons, runAll_append]
          exact seq_eq_ok_iff.2 ⟨_, hfirst, hothers⟩
termination_by fuel
decreasing_by omega

/-- A loop that succeeds does what its bodies do in a row. -/
theorem runAll_flatMap_of_run {b : Bounds} {h : LoopHeader} {body : List Node} {m m' : Machine σ}
    (hrun : run b (.loop h body) m = (.ok (), m')) {cs : List Element}
    (hcs : List.Forall₂ Value.HasConstant (counters b h body m) cs) :
    runAll b (cs.flatMap fun c => Node.substituteAll h.name c body) m = (.ok (), m') := by
  have hvars : m'.vars = m.vars := by
    have hkeeps := (refines_run b (.loop h body) m).2
    rw [hrun] at hkeeps
    exact hkeeps rfl
  rw [run, runLoop_eq] at hrun
  unfold counters loopIterations at hcs
  rcases hrange : range m.vars h with e | ⟨start, stop, step⟩
  · rw [hrange] at hrun
    cases hrun
  · rw [hrange] at hrun hcs
    obtain ⟨m₁, hiterate, hdrop⟩ := seq_eq_ok_iff.1 hrun
    have hrow := runAll_flatMap_of_iterate (Nat.add_zero b.fuel) hiterate hcs
    have hhost : m'.host = m₁.host := by
      unfold drop at hdrop
      split at hdrop
      · cases hdrop
      · obtain rfl := (Prod.mk.inj hdrop).2
        rfl
    rw [hrow, ← hhost, ← hvars]

theorem forall_counters_ne_absent (b : Bounds) (h : LoopHeader) (body : List Node) {m : Machine σ}
    (hm : m.vars.IsDefined) : ∀ counter ∈ counters b h body m, counter ≠ .absent := by
  unfold counters loopIterations
  rcases hrange : range m.vars h with e | ⟨start, stop, step⟩
  · exact List.forall_mem_nil _
  · have hpushed := hm.push h.name (hm.value_ne_absent (value_of_range hrange))
    exact List.forall_mem_map.2 (ne_absent_of_mem_iterations (keepsDefined_runAll b body)
      (loopRunsAll b body) b h.name stop step (Nat.add_zero b.fuel) hpushed)

/-- A loop that succeeds does what its bodies do in a row, each with the counter of its iteration
put in the place of the variable as a constant: the bodies succeed, make the same calls in the same
order and leave the same state.  The constants exist if no value on the stacks is absent, and no run
puts one there. -/
theorem run_unroll (b : Bounds) (h : LoopHeader) (body : List Node) (m : Machine (Recorded σ))
    (hok : (run b (.loop h body) m).1 = .ok ()) :
    (∀ cs, List.Forall₂ Value.HasConstant (counters b h body m) cs →
      let unrolled := runAll b (cs.flatMap fun c => Node.substituteAll h.name c body) m
      unrolled.1 = .ok () ∧
        unrolled.2.host.calls = (run b (.loop h body) m).2.host.calls ∧
        unrolled = run b (.loop h body) m) ∧
      (m.vars.IsDefined → ∃ cs, List.Forall₂ Value.HasConstant (counters b h body m) cs) := by
  have hrun : run b (.loop h body) m = (.ok (), (run b (.loop h body) m).2) := Prod.ext hok rfl
  constructor
  · intro cs hcs unrolled
    have hunrolled : unrolled = run b (.loop h body) m :=
      (runAll_flatMap_of_run hrun hcs).trans hrun.symm
    exact ⟨(congrArg Prod.fst hunrolled).trans hok, congrArg (·.2.host.calls) hunrolled, hunrolled⟩
  · intro hm
    exact Value.exists_forall₂_hasConstant (forall_counters_ne_absent b h body hm)

/-- The inner loop is over the same variable.  The constant takes the place of the variable in its
header, where the variable is still that of the outer loop, and not in its body. -/
theorem run_unroll_shadowed :
    let h : LoopHeader := ⟨"i", .integer 1, .integer 2, none⟩
    let inner (start : Element) := Node.loop ⟨"i", start, .integer 3, none⟩ [.echo [.var "i"]]
    let body := [Node.echo [.var "i"], inner (.var "i")]
    let m : Machine (Recorded Page) := ⟨{}, ⟨{}, []⟩⟩
    let unrolled :=
      [.echo [.integer 1], inner (.integer 1), .echo [.integer 2], inner (.integer 2)]
    (run ⟨none, 9⟩ (.loop h body) m).1 = .ok () ∧
      counters ⟨none, 9⟩ h body m = [.integer 1, .integer 2] ∧
      runAll ⟨none, 9⟩ unrolled m = run ⟨none, 9⟩ (.loop h body) m ∧
      (runAll ⟨none, 9⟩ unrolled m).2.host.host.output = "1123223" ∧
      (runAll ⟨none, 9⟩ unrolled m).2.host.calls =
        (run ⟨none, 9⟩ (.loop h body) m).2.host.calls ∧
      m.vars.IsDefined ∧
      ∃ cs, List.Forall₂ Value.HasConstant (counters ⟨none, 9⟩ h body m) cs := by
  intro h inner body m unrolled
  have hok : (run ⟨none, 9⟩ (.loop h body) m).1 = .ok () := by
    subst body inner h m
    cbv
  have hcounters : counters ⟨none, 9⟩ h body m = [.integer 1, .integer 2] := by
    subst body inner h m
    cbv
  have houtput : (runAll ⟨none, 9⟩ unrolled m).2.host.host.output = "1123223" := by
    subst unrolled body inner h m
    cbv
  obtain ⟨hunroll, hexists⟩ := run_unroll ⟨none, 9⟩ h body m hok
  have hcs : List.Forall₂ Value.HasConstant (counters ⟨none, 9⟩ h body m)
      [.integer 1, .integer 2] := hcounters ▸ .cons (.integer 1) (.cons (.integer 2) .nil)
  have hbodies : ([.integer 1, .integer 2] : List Element).flatMap
      (fun c => Node.substituteAll h.name c body) = unrolled := by
    subst unrolled body inner h
    cbv
  have hsame : runAll ⟨none, 9⟩ unrolled m = run ⟨none, 9⟩ (.loop h body) m := by
    rw [← hbodies]
    exact (hunroll _ hcs).2.2
  have hcalls : (runAll ⟨none, 9⟩ unrolled m).2.host.calls =
      (run ⟨none, 9⟩ (.loop h body) m).2.host.calls := by
    rw [hsame]
  exact ⟨hok, hcounters, hsame, houtput, hcalls, .empty, hexists .empty⟩

end Engine

end Stencil
