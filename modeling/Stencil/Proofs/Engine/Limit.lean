import Stencil.Page
import Stencil.Proofs.Engine.Dialogue
import Stencil.Proofs.Engine.LoopRuns
set_option autoImplicit false

/-!
# The limit of iterations

A limit does nothing but end runs.  A run that it does not end is the run under every
larger limit, and without one.  A run that it ends has made the first calls of the
other one, and has executed its loops as far as it has come.  With a limit every run
ends (`Engine.execute_limit`).
-/

namespace Stencil

/-! ## Runs that go further -/

/-- The execution `r'` of the same loop has the counters of `r`, and possibly more behind them. -/
def LoopRun.Begins (r r' : LoopRun) : Prop := r.name = r'.name ∧ r.counters <+: r'.counters

/-- Each of the executions of loops is the beginning of one of the others. -/
def LoopRun.AllBegin (rs rs' : List LoopRun) : Prop := ∀ r ∈ rs, ∃ r' ∈ rs', r.Begins r'

namespace LoopRun.AllBegin

variable {as bs as' bs' : List LoopRun}

theorem nil : AllBegin [] bs := List.forall_mem_nil _

theorem refl (rs : List LoopRun) : AllBegin rs rs :=
  fun r hr => ⟨r, hr, rfl, List.prefix_refl r.counters⟩

theorem append (ha : AllBegin as as') (hb : AllBegin bs bs') :
    AllBegin (as ++ bs) (as' ++ bs') := by
  intro r hr
  rcases List.mem_append.1 hr with hr | hr
  · obtain ⟨r', hr', hbegins⟩ := ha r hr
    exact ⟨r', List.mem_append_left _ hr', hbegins⟩
  · obtain ⟨r', hr', hbegins⟩ := hb r hr
    exact ⟨r', List.mem_append_right _ hr', hbegins⟩

end LoopRun.AllBegin

/-- The iterations `its'` of the same loop begin with `its`.  In the last of `its` the executions of
loops may have been cut short. -/
def LoopRun.IterationsBegin (its its' : List (Value × List LoopRun)) : Prop :=
  its.map (·.1) <+: its'.map (·.1) ∧ AllBegin (its.flatMap (·.2)) (its'.flatMap (·.2))

namespace LoopRun.IterationsBegin

variable {its its' : List (Value × List LoopRun)}

/-- An iteration that is cut short. -/
theorem cut (counter : Value) {rs rs' : List LoopRun} (hrs : AllBegin rs rs')
    (its : List (Value × List LoopRun)) :
    IterationsBegin [(counter, rs)] ((counter, rs') :: its) :=
  ⟨⟨its.map (·.1), rfl⟩, hrs.append .nil⟩

/-- An iteration that is the same in both. -/
theorem cons (counter : Value) (rs : List LoopRun) (h : IterationsBegin its its') :
    IterationsBegin ((counter, rs) :: its) ((counter, rs) :: its') :=
  ⟨(List.prefix_cons_inj counter).2 h.1, (AllBegin.refl rs).append h.2⟩

theorem ofIterations (name : String) (h : IterationsBegin its its') :
    AllBegin (LoopRun.ofIterations name its) (LoopRun.ofIterations name its') := by
  intro r hr
  rcases List.mem_cons.1 hr with rfl | hr
  · exact ⟨_, List.mem_cons_self, rfl, h.1⟩
  · obtain ⟨r', hr', hbegins⟩ := h.2 r hr
    exact ⟨r', List.mem_cons_of_mem _ hr', hbegins⟩

end LoopRun.IterationsBegin


/-- The second bounds stop no iteration that the first do not stop.  They stop the same ones and for
the same cause, except where the first have one of the given causes. -/
structure Bounds.Loosens (stops : Stop → Prop) (b b' : Bounds) : Prop where
  begun : ∀ {name : String} {done : Nat}, b.stop? name done = none → b'.stop? name done = none
  stopped : ∀ {name : String} {done : Nat} {s : Stop},
    b.stop? name done = some s → stops s ∨ b'.stop? name done = some s

/-! ## Limits -/

/-- The stop is the limit's. -/
def Stop.IsLimit (limit : Nat) (s : Stop) : Prop := ∃ name, s = .failed (.iterationLimit name limit)

namespace Bounds

variable {limit fuel : Nat}

/-- With as much fuel as the limit allows iterations, it is the limit that stops. -/
theorem stop?_of_limit_le_fuel (hfuel : limit ≤ fuel) (name : String) (done : Nat) :
    stop? ⟨some limit, fuel⟩ name done =
      if limit ≤ done then some (.failed (.iterationLimit name limit)) else none := by
  unfold stop? Engine.limitReached?
  rw [Option.filter_some]
  by_cases h : limit ≤ done
  · rw [if_pos h, if_pos (decide_eq_true h)]
  · have hfuel' : ¬ fuel ≤ done := by omega
    rw [if_neg h, if_neg (by simpa using h)]
    exact if_neg hfuel'

/-- A larger limit, or none, stops later. -/
theorem loosens_limit {limit' : Option Nat} {fuel' : Nat} (hlimit : ∀ l ∈ limit', limit ≤ l)
    (hfuel : limit ≤ fuel) (hfuel' : limit ≤ fuel') :
    Loosens (Stop.IsLimit limit) ⟨some limit, fuel⟩ ⟨limit', fuel'⟩ where
  begun := by
    intro name done hbegun
    rw [stop?_of_limit_le_fuel hfuel] at hbegun
    have hlt : done < limit := by
      by_contra hle
      rw [if_pos (Nat.le_of_not_lt hle)] at hbegun
      cases hbegun
    have hlimit' : Engine.limitReached? limit' done = none :=
      Option.filter_eq_none_iff.2 fun l hl => by simpa using hlt.trans_le (hlimit l hl)
    have hlt' : ¬ fuel' ≤ done := by omega
    unfold stop?
    rw [hlimit']
    exact if_neg hlt'
  stopped := by
    intro name done s hstop
    rw [stop?_of_limit_le_fuel hfuel] at hstop
    split at hstop
    · exact .inl ⟨name, (Option.some.inj hstop).symm⟩
    · cases hstop

/-- The fuel beyond the limit changes nothing. -/
theorem loosens_fuel {fuel' : Nat} (hfuel : limit ≤ fuel) (hfuel' : limit ≤ fuel') :
    Loosens (fun _ => False) ⟨some limit, fuel⟩ ⟨some limit, fuel'⟩ where
  begun := by
    intro name done hbegun
    rwa [stop?_of_limit_le_fuel hfuel, ← stop?_of_limit_le_fuel hfuel'] at hbegun
  stopped := by
    intro name done s hstop
    rw [stop?_of_limit_le_fuel hfuel, ← stop?_of_limit_le_fuel hfuel'] at hstop
    exact .inr hstop

end Bounds

/-- The limit ends the run in an execution of a loop that would begin one iteration more. -/
theorem LoopRun.stop?_eq_some_iff {limit fuel : Nat} (hfuel : limit ≤ fuel) (r : LoopRun)
    {s : Stop} :
    r.stop? ⟨some limit, fuel⟩ = some s ↔
      s = .failed (.iterationLimit r.name limit) ∧ limit < r.counters.length := by
  unfold stop?
  cases r.counters.length with
  | zero => simp [Bounds.lastStop?]
  | succ done =>
    rw [Bounds.lastStop?, Nat.zero_add, Bounds.stop?_of_limit_le_fuel hfuel, Nat.lt_succ_iff]
    by_cases h : limit ≤ done
    · simp [h, eq_comm]
    · simp [h]

namespace Engine

open LoopRun (AllBegin IterationsBegin)

variable {σ : Type}

/-! ## Calls add up -/

/-- The run keeps the calls that were made before it. -/
def Grows (f : Run (Recorded σ)) : Prop := Leads (fun m m' => m.host.latest <:+ m'.host.latest) f

theorem Grows.suffix_seq (f : Run (Recorded σ)) {g : Run (Recorded σ)} (hg : Grows g)
    (m : Machine (Recorded σ)) :
    (f m).2.host.latest <:+ (Engine.seq f g m).2.host.latest := by
  rcases hrun : f m with ⟨_ | _, m'⟩
  · rw [seq_of_error hrun]
  · rw [seq_of_ok hrun]
    exact hg m'

theorem grows_count (name : String) (step : Value) : Grows (count name step : Run (Recorded σ)) := by
  intro m
  unfold count
  cases m.vars.update name fun counter => counter.add step <;> exact List.suffix_refl _

theorem grows_drop (name : String) : Grows (drop name : Run (Recorded σ)) := by
  intro m
  unfold drop
  cases m.vars.pop name <;> exact List.suffix_refl _

theorem grows_iterate {body : Run (Recorded σ)} (hbody : Grows body) (b : Bounds) (name : String)
    (stop step : Value) {fuel done : Nat} (hfuel : fuel + done = b.fuel) :
    Grows (iterate b.limit name stop step body fuel done) :=
  Leads.iterate hbody (grows_count name step) (fun _ => List.suffix_refl _)
    (fun _ _ _ => List.IsSuffix.trans) b stop hfuel

/-- What is a dialogue with its host keeps the calls made before it. -/
theorem Refines.grows [Host σ] {f : Run (Recorded σ)} {g : (σ : Type) → [Host σ] → Scoped.Run σ}
    (hf : Refines f (g (Recorded σ))) (hg : Scoped.Speaks g) : Grows f := by
  intro m
  obtain ⟨d, hd⟩ := hg m.vars.env
  have hplay := (hf m).1.trans (hd (Recorded σ) m.host)
  rw [Dialogue.play_recorded] at hplay
  have hhost := congrArg (·.2.latest) hplay
  dsimp only at hhost
  rw [hhost]
  exact List.suffix_append _ _

/-! ## Runs under looser bounds -/

/-- From every state, the first run is the second and has the same log, or it ends with one of the
given stops.  Then its calls are the first calls of the second run, and its log is the beginning of
the other log. -/
def Shortens {α : Type} (stops : Stop → Prop) (begins : α → α → Prop) (f f' : Run (Recorded σ))
    (log log' : Machine (Recorded σ) → α) : Prop :=
  ∀ m, (f m = f' m ∧ log m = log' m) ∨
    (∃ s, stops s ∧ (f m).1 = .error s) ∧ (f m).2.host.latest <:+ (f' m).2.host.latest ∧
      begins (log m) (log' m)

variable {stops : Stop → Prop}

theorem Shortens.refl {α : Type} (begins : α → α → Prop) (f : Run (Recorded σ))
    (log : Machine (Recorded σ) → α) : Shortens stops begins f f log log :=
  fun _ => .inl ⟨rfl, rfl⟩

/-- Of two runs in a row either may be the one that ends early.  The logs are joined, and a second
run that is not made leaves none. -/
theorem Shortens.seq {α β γ : Type} {begins₁ : α → α → Prop} {begins₂ : β → β → Prop}
    {begins : γ → γ → Prop} {f f' g g' : Run (Recorded σ)} {log log' : Machine (Recorded σ) → α}
    {rest rest' : Machine (Recorded σ) → β} (hf : Shortens stops begins₁ f f' log log')
    (hg : Shortens stops begins₂ g g' rest rest') (hgrows : Grows g') (join : α → β → γ)
    (nothing : β) (hcut : ∀ a a' b, begins₁ a a' → begins (join a nothing) (join a' b))
    (hjoin : ∀ a b b', begins₂ b b' → begins (join a b) (join a b')) :
    Shortens stops begins (Engine.seq f g) (Engine.seq f' g')
      (fun m => join (log m) (logBehind nothing rest (f m)))
      (fun m => join (log' m) (logBehind nothing rest' (f' m))) := by
  intro m
  dsimp only
  rcases hf m with ⟨hsame, hlog⟩ | ⟨⟨s, hs, herror⟩, hcalls, hbegin⟩
  · unfold Engine.seq
    rw [hsame, hlog]
    rcases f' m with ⟨s | u, m'⟩
    · exact .inl ⟨rfl, rfl⟩
    · rcases hg m' with ⟨hsame', hrest⟩ | ⟨hends, hcalls, hbegin⟩
      · exact .inl ⟨hsame', congrArg (join (log' m)) hrest⟩
      · exact .inr ⟨hends, hcalls, hjoin _ _ _ hbegin⟩
  · have hcalls' := hcalls.trans (hgrows.suffix_seq f' m)
    rcases hrun : f m with ⟨r, m'⟩
    rw [hrun] at herror hcalls'
    obtain rfl : r = .error s := herror
    rw [seq_of_error hrun]
    exact .inr ⟨⟨s, hs, rfl⟩, hcalls', hcut _ _ _ hbegin⟩

variable {b b' : Bounds} {body body' : Run (Recorded σ)}
  {inBody inBody' : Machine (Recorded σ) → List LoopRun}

/-- The iterations under looser bounds go on where those under the others were stopped. -/
theorem shortens_iterate (hb : b.Loosens stops b')
    (hbody : Shortens stops AllBegin body body' inBody inBody') (hgrows : Grows body')
    (name : String) (stop step : Value) {fuel fuel' done : Nat} (hfuel : fuel + done = b.fuel)
    (hfuel' : fuel' + done = b'.fuel) :
    Shortens stops IterationsBegin (iterate b.limit name stop step body fuel done)
      (iterate b'.limit name stop step body' fuel' done)
      (iterations b.limit name stop step body inBody fuel done)
      (iterations b'.limit name stop step body' inBody' fuel' done) := by
  intro m
  have hkeeps := grows_iterate hgrows b' name stop step hfuel' m
  rw [iterate_eq b' name stop step body' hfuel'] at hkeeps ⊢
  rw [iterate_eq b name stop step body hfuel, iterations_eq b name stop step body inBody hfuel,
    iterations_eq b' name stop step body' inBody' hfuel']
  rcases hdue : due? name stop m.vars with e | _ | counter
  · exact .inl ⟨rfl, rfl⟩
  · exact .inl ⟨rfl, rfl⟩
  · rw [hdue] at hkeeps
    dsimp only at hkeeps ⊢
    cases hstop : b.stop? name done with
    | some s =>
      rcases hb.stopped hstop with hs | hstop'
      · refine .inr ⟨⟨s, hs, rfl⟩, hkeeps, ?_⟩
        cases b'.stop? name done <;> exact .cut counter .nil _
      · rw [hstop']
        exact .inl ⟨rfl, rfl⟩
    | none =>
      rw [hb.begun hstop]
      dsimp only
      have hlt := lt_fuel_of_stop?_eq_none hstop
      have hlt' := lt_fuel_of_stop?_eq_none (hb.begun hstop)
      have hturn : Shortens stops AllBegin (seq body (count name step))
          (seq body' (count name step)) inBody inBody' :=
        hbody.seq (.refl (fun _ _ => True) (count name step) fun _ => ()) (grows_count name step)
          (fun rs _ => rs) () (fun _ _ _ h => h) (fun rs _ _ _ => .refl rs)
      have hrest : Shortens stops IterationsBegin
          (iterate b.limit name stop step body (fuel - 1) (done + 1))
          (iterate b'.limit name stop step body' (fuel' - 1) (done + 1)) _ _ :=
        shortens_iterate hb hbody hgrows name stop step (by omega) (by omega)
      exact hturn.seq hrest (grows_iterate hgrows b' name stop step (by omega))
        (fun rs its => (counter, rs) :: its) [] (fun _ _ its h => .cut counter h its)
        (fun rs _ _ h => h.cons counter rs) m
termination_by fuel
decreasing_by omega

theorem shortens_runLoop (hb : b.Loosens stops b') (h : LoopHeader)
    (hbody : Shortens stops AllBegin body body' inBody inBody') (hgrows : Grows body') :
    Shortens stops AllBegin (runLoop b h body) (runLoop b' h body')
      (fun m => LoopRun.ofIterations h.name (loopIterations b h body inBody m))
      (fun m => LoopRun.ofIterations h.name (loopIterations b' h body' inBody' m)) := by
  intro m
  rw [runLoop_eq, runLoop_eq]
  dsimp only [loopIterations]
  rcases range m.vars h with e | ⟨start, stop, step⟩
  · exact .inl ⟨rfl, rfl⟩
  · have hiterate := shortens_iterate hb hbody hgrows h.name stop step (Nat.add_zero b.fuel)
      (Nat.add_zero b'.fuel)
    exact hiterate.seq (.refl (fun _ _ => True) (drop h.name) fun _ => ()) (grows_drop h.name)
      (fun its _ => LoopRun.ofIterations h.name its) () (fun _ _ _ hits => hits.ofIterations h.name)
      (fun its _ _ _ => .refl (LoopRun.ofIterations h.name its)) ⟨m.vars.push h.name start, m.host⟩

/-! ## Nodes -/

variable [Host σ]

mutual

theorem shortens_run (hb : b.Loosens stops b') (n : Node) :
    Shortens stops AllBegin (run b n) (run b' n) (loopRuns b n)
      (loopRuns b' n : Machine (Recorded σ) → List LoopRun) := by
  cases n with
  | document cs =>
    simp only [run, loopRuns]
    exact shortens_runAll hb cs
  | text s =>
    simp only [run, loopRuns]
    exact .refl AllBegin _ _
  | loop h body =>
    simp only [run, loopRuns]
    exact shortens_runLoop hb h (shortens_runAll hb body)
      ((refines_runAll b' body).grows (Scoped.speaks_runAll b' body))
  | echo es =>
    simp only [run, loopRuns]
    exact .refl AllBegin _ _

theorem shortens_runAll (hb : b.Loosens stops b') (ns : List Node) :
    Shortens stops AllBegin (runAll b ns) (runAll b' ns) (loopRunsAll b ns)
      (loopRunsAll b' ns : Machine (Recorded σ) → List LoopRun) := by
  cases ns with
  | nil =>
    simp only [runAll, loopRunsAll]
    exact .refl AllBegin _ _
  | cons n ns =>
    rw [runAll_cons, runAll_cons, loopRunsAll, loopRunsAll]
    exact (shortens_run hb n).seq (shortens_runAll hb ns)
      ((refines_runAll b' ns).grows (Scoped.speaks_runAll b' ns)) (· ++ ·) []
      (fun _ _ _ h => h.append .nil) (fun rs _ _ h => (AllBegin.refl rs).append h)

end

/-- With as much fuel as the limit allows iterations, the bounds end a run exactly when an execution
of a loop that has made as many iterations would begin another one. -/
theorem run_eq_stop_iff {limit fuel : Nat} (hfuel : limit ≤ fuel) (n : Node) (m : Machine σ)
    {s : Stop} (hs : s.IsOfBounds) :
    (run ⟨some limit, fuel⟩ n m).1 = .error s ↔
      ∃ r ∈ loopRuns ⟨some limit, fuel⟩ n m,
        s = .failed (.iterationLimit r.name limit) ∧ limit < r.counters.length := by
  rw [showsStops_run _ n m s hs]
  simp only [LoopRun.stop?_eq_some_iff hfuel]

/-- A limit only cuts runs short.  Under a limit a run ends, with whatever fuel that is not below the
limit.  Where the limit does not end it, it is the run under every larger limit and without one:
with the same result, the same calls and the same host behind it.  Where the limit ends it, its
calls are the first calls of that run.  The limit ends it exactly when an execution of a loop, which
has made as many iterations as the limit allows, would begin another one; and this is so exactly when
there is such an execution in the run under the larger limit. -/
theorem execute_limit (n : Node) (host : σ) {limit : Nat} {limit' : Option Nat}
    (hlimit : ∀ l ∈ limit', limit ≤ l) {fuel fuel' : Nat} (hfuel : limit ≤ fuel)
    (hfuel' : limit ≤ fuel') :
    let start : Recorded σ := ⟨host, []⟩
    let short := execute ⟨some limit, fuel⟩ n start
    let long := execute ⟨limit', fuel'⟩ n start
    short.1 ≠ .error .outOfFuel ∧ short = execute ⟨some limit, limit⟩ n start ∧
      ((∀ name l, short.1 ≠ .error (.failed (.iterationLimit name l))) → short = long) ∧
      (∀ name l, short.1 = .error (.failed (.iterationLimit name l)) →
        l = limit ∧ short.2.calls <+: long.2.calls) ∧
      (∀ name, short.1 = .error (.failed (.iterationLimit name limit)) ↔
        ∃ r ∈ loopRuns ⟨some limit, fuel⟩ n ⟨{}, start⟩,
          r.name = name ∧ limit < r.counters.length) ∧
      ((∃ name, short.1 = .error (.failed (.iterationLimit name limit))) ↔
        ∃ r ∈ loopRuns ⟨limit', fuel'⟩ n ⟨{}, start⟩, limit < r.counters.length) := by
  intro start short long
  have hstops (s : Stop) (hs : s.IsOfBounds) : short.1 = .error s ↔ _ :=
    run_eq_stop_iff hfuel n ⟨{}, start⟩ hs
  have hname (name : String) : short.1 = .error (.failed (.iterationLimit name limit)) ↔
      ∃ r ∈ loopRuns ⟨some limit, fuel⟩ n ⟨{}, start⟩,
        r.name = name ∧ limit < r.counters.length := by
    rw [hstops (.failed (.iterationLimit name limit)) trivial]
    simp [eq_comm]
  have hfueled : short = execute ⟨some limit, limit⟩ n start := by
    rcases shortens_run (Bounds.loosens_fuel hfuel le_rfl) n ⟨{}, start⟩ with
      ⟨hsame, -⟩ | ⟨⟨-, hfalse, -⟩, -⟩
    · exact congrArg (fun x => (x.1, x.2.host)) hsame
    · exact hfalse.elim
  have hends : short.1 ≠ .error .outOfFuel := by
    intro hs
    obtain ⟨r, -, hr, -⟩ := (hstops .outOfFuel trivial).1 hs
    cases hr
  have hlimited (name : String) (l : Nat)
      (hs : short.1 = .error (.failed (.iterationLimit name l))) : l = limit := by
    obtain ⟨r, -, hr, -⟩ := (hstops (.failed (.iterationLimit name l)) trivial).1 hs
    cases hr
    rfl
  rcases shortens_run (Bounds.loosens_limit hlimit hfuel hfuel') n ⟨{}, start⟩ with
    ⟨hsame, hruns⟩ | ⟨⟨_, ⟨name, rfl⟩, hs⟩, hcalls, hbegin⟩
  · have hlong : short = long := congrArg (fun x => (x.1, x.2.host)) hsame
    refine ⟨hends, hfueled, fun _ => hlong, ?_, hname, ?_⟩
    · intro name l hs
      exact ⟨hlimited name l hs, hlong ▸ List.prefix_refl _⟩
    · simp only [hname, hruns]
      constructor
      · rintro ⟨-, r, hr, -, hlt⟩
        exact ⟨r, hr, hlt⟩
      · rintro ⟨r, hr, hlt⟩
        exact ⟨r.name, r, hr, rfl, hlt⟩
  · refine ⟨hends, hfueled, fun h => absurd hs (h name limit), ?_, hname, ?_⟩
    · intro name l hs
      exact ⟨hlimited name l hs, List.reverse_prefix.2 hcalls⟩
    · refine iff_of_true ⟨name, hs⟩ ?_
      obtain ⟨r, hr, -, hlt⟩ := (hname name).1 hs
      obtain ⟨r', hr', -, hbegins⟩ := hbegin r hr
      exact ⟨r', hr', hlt.trans_le hbegins.length_le⟩

/-- The loops over `a` and `b` need the two iterations that the limit allows, the inner one each time
that it is entered, and are not stopped; the loop over `c` counts on one spot and is. -/
theorem execute_limit_nested :
    let inner := Node.loop ⟨"b", .integer 1, .integer 2, none⟩ [.echo [.var "b"]]
    let outer := Node.loop ⟨"a", .integer 1, .integer 2, none⟩ [inner]
    let onTheSpot := Node.loop ⟨"c", .integer 1, .integer 1, some (.integer 0)⟩ [.text "."]
    let n := Node.document [outer, onTheSpot]
    let start : Recorded Page := ⟨{}, []⟩
    let short := execute ⟨some 2, 2⟩ n start
    let long := execute ⟨none, 4⟩ n start
    (∀ l ∈ (none : Option Nat), 2 ≤ l) ∧ 2 ≤ 2 ∧ 2 ≤ 4 ∧
      short.1 = .error (.failed (.iterationLimit "c" 2)) ∧ short.2.calls <+: long.2.calls ∧
      short.2.host.output = "1212.." ∧ long.2.host.output = "1212...." ∧
      (∃ r ∈ loopRuns ⟨some 2, 2⟩ n ⟨{}, start⟩, r.name = "c" ∧ 2 < r.counters.length) ∧
      (∃ r ∈ loopRuns ⟨none, 4⟩ n ⟨{}, start⟩, 2 < r.counters.length) ∧
      execute ⟨some 2, 2⟩ outer start = execute ⟨none, 4⟩ outer start := by
  intro inner outer onTheSpot n start short long
  have hlimit : ∀ l ∈ (none : Option Nat), 2 ≤ l := nofun
  have hshort : short.1 = .error (.failed (.iterationLimit "c" 2)) := by
    subst short n onTheSpot outer inner start
    cbv
  have houtputs : short.2.host.output = "1212.." ∧ long.2.host.output = "1212...." := by
    subst short long n onTheSpot outer inner start
    constructor <;> cbv
  have houter : (execute ⟨some 2, 2⟩ outer start).1 = .ok () := by
    subst outer inner start
    cbv
  obtain ⟨-, -, -, hcalls, hname, hlong⟩ :=
    execute_limit n ({} : Page) hlimit (le_refl 2) (show 2 ≤ 4 by decide)
  obtain ⟨-, -, hsame, -⟩ :=
    execute_limit outer ({} : Page) hlimit (le_refl 2) (show 2 ≤ 4 by decide)
  refine ⟨hlimit, le_refl 2, by decide, hshort, (hcalls "c" 2 hshort).2, houtputs.1, houtputs.2,
    (hname "c").1 hshort, hlong.1 ⟨"c", hshort⟩, hsame ?_⟩
  intro name l hs
  cases houter.symm.trans hs

end Engine

end Stencil
