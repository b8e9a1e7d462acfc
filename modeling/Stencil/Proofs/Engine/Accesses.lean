import Stencil.Page
import Stencil.Proofs.Engine.Refinement
set_option autoImplicit false

/-!
# What a run does to the store

Loops are all that changes the store of counters, and each works on the stack of its
own variable only: it puts its first counter there, looks at it before every
iteration, adds the step to it after the iteration and takes it off at the end.
`Engine.accesses` lists these accesses in the order in which a run makes them.

What was in the store before the run lies below everything that the run puts there,
so no access reaches it and none finds its stack empty (`Engine.stayAbove_accesses`).
A run that succeeds has taken off again all that it had put on
(`Engine.accesses_keep_stacks`).
-/

namespace Stencil

/-- What a running loop does to the stack of its variable. -/
inductive Access where
  /-- the first counter is put on the stack -/
  | push (name : String) (start : Value)
  /-- the counter is looked at, to be compared with the bound -/
  | peek (name : String)
  /-- the step is added to the counter, in its place -/
  | add (name : String) (step : Value)
  /-- the counter is taken off -/
  | pop (name : String)
  deriving DecidableEq

namespace Access

/-- The stacks after an access.  One that fails leaves them as they are. -/
def after (s : Stacks) : Access → Stacks
  | push name start => s.push name start
  | peek _ => s
  | add name step =>
    match s.update name fun counter => counter.add step with
    | .ok s' => s'
    | .error _ => s
  | pop name =>
    match s.pop name with
    | .ok (_, s') => s'
    | .error _ => s

/-- The stacks after accesses in a row. -/
def replay (s : Stacks) (as : List Access) : Stacks := as.foldl after s

/-- The access finds the counter that it is about. -/
def Finds (s : Stacks) : Access → Prop
  | push _ _ => True
  | peek name | add name _ => ∃ counter, s.peek name = .ok counter
  | pop name => ∃ counter s', s.pop name = .ok (counter, s')

/-! ## Accesses above a store -/

/-- The stack of the name has a value above what `base` has there. -/
def HasAbove (base s : Stacks) (name : String) : Prop :=
  ∃ counter below, s.values name = counter :: below ∧ base.values name <:+ below

theorem hasAbove_push (name : String) (v : Value) (s : Stacks) : HasAbove s (s.push name v) name :=
  ⟨v, s.values name, Stacks.values_push_self name v s, List.suffix_refl _⟩

/-- The counter that the access is about stands above what `base` has on its stack. -/
def FindsAbove (base s : Stacks) : Access → Prop
  | push _ _ => True
  | peek name | add name _ | pop name => HasAbove base s name

/-- Each of the accesses in a row finds its counter above what `base` has. -/
def StayAbove (base : Stacks) : Stacks → List Access → Prop
  | _, [] => True
  | s, a :: as => a.FindsAbove base s ∧ StayAbove base (a.after s) as

end Access

/-- Every stack of `base` is the lower part of the stack of that name. -/
def Stacks.LiesBelow (base s : Stacks) : Prop := ∀ name, base.values name <:+ s.values name

namespace Stacks.LiesBelow

theorem refl (s : Stacks) : s.LiesBelow s := fun name => List.suffix_refl (s.values name)

theorem trans {r s t : Stacks} (hr : r.LiesBelow s) (hs : s.LiesBelow t) : r.LiesBelow t :=
  fun name => (hr name).trans (hs name)

theorem push (name : String) (v : Value) (s : Stacks) : s.LiesBelow (s.push name v) := by
  intro other
  by_cases h : name = other
  · rw [h, values_push_self]
    exact List.suffix_cons v _
  · rw [values_push_of_ne h]

end Stacks.LiesBelow

namespace Access

open Stacks (LiesBelow)

theorem findsAbove_mono {base base' s : Stacks} (hb : base.LiesBelow base') {a : Access}
    (h : a.FindsAbove base' s) : a.FindsAbove base s := by
  cases a with
  | push name start => trivial
  | peek name | add name step | pop name =>
    obtain ⟨counter, below, hs, hsuffix⟩ := h
    exact ⟨counter, below, hs, (hb name).trans hsuffix⟩

theorem StayAbove.mono {base base' : Stacks} (hb : base.LiesBelow base') {s : Stacks}
    {as : List Access} (h : StayAbove base' s as) : StayAbove base s as := by
  induction as generalizing s with
  | nil => trivial
  | cons a as ih => exact ⟨findsAbove_mono hb h.1, ih h.2⟩

theorem replay_append (s : Stacks) (as bs : List Access) :
    replay s (as ++ bs) = replay (replay s as) bs :=
  List.foldl_append

theorem stayAbove_append {base s : Stacks} {as bs : List Access} :
    StayAbove base s (as ++ bs) ↔ StayAbove base s as ∧ StayAbove base (replay s as) bs := by
  induction as generalizing s with
  | nil => exact (and_iff_right trivial).symm
  | cons a as ih =>
    rw [List.cons_append, StayAbove, StayAbove, ih, and_assoc]
    rfl

/-- A look at a counter, accesses that leave the stacks as they are in the end, and the rest. -/
theorem stayAbove_iteration {base s t : Stacks} {name : String} {as rest : List Access}
    (habove : HasAbove base s name) (hsame : replay s as = s) (has : StayAbove base s as)
    (ht : replay s rest = t) (hrest : StayAbove base s rest) :
    replay s (.peek name :: (as ++ rest)) = t ∧ StayAbove base s (.peek name :: (as ++ rest)) := by
  have hreplay : replay s (as ++ rest) = t := by rw [replay_append, hsame, ht]
  exact ⟨hreplay, habove, stayAbove_append.2 ⟨has, hsame.symm ▸ hrest⟩⟩

/-- An access that finds its counter above a store leaves the store below. -/
theorem liesBelow_after {base s : Stacks} (hs : base.LiesBelow s) {a : Access}
    (ha : a.FindsAbove base s) : base.LiesBelow (a.after s) := by
  cases a with
  | push name start => exact hs.trans (LiesBelow.push name start s)
  | peek name => exact hs
  | add name step =>
    obtain ⟨counter, below, hvalues, hsuffix⟩ := ha
    simp only [after]
    split
    · rename_i s' hupdate
      intro other
      by_cases h : name = other
      · obtain ⟨-, next, -, -, hs'⟩ := Stacks.values_update_self hupdate
        rw [← h, hs', hvalues, List.tail_cons]
        exact hsuffix.trans (List.suffix_cons next below)
      · rw [Stacks.values_update_of_ne h hupdate]
        exact hs other
    · exact hs
  | pop name =>
    obtain ⟨counter, below, hvalues, hsuffix⟩ := ha
    simp only [after]
    split
    · rename_i s' hpop
      intro other
      by_cases h : name = other
      · rw [← h, Stacks.values_pop_self hpop, hvalues, List.tail_cons]
        exact hsuffix
      · rw [Stacks.values_pop_of_ne h hpop]
        exact hs other
    · exact hs

theorem StayAbove.liesBelow_replay {base s : Stacks} (hs : base.LiesBelow s) {as : List Access}
    (h : StayAbove base s as) : base.LiesBelow (replay s as) := by
  induction as generalizing s with
  | nil => exact hs
  | cons a as ih => exact ih (liesBelow_after hs h.1) h.2

/-- The step is added to the counter on top, unless the sum fails. -/
theorem after_add_push (name : String) (counter step : Value) (s : Stacks) :
    (add name step).after (s.push name counter) =
      match counter.add step with
      | .ok next => s.push name next
      | .error _ => s.push name counter := by
  simp only [after, Stacks.update_push]
  cases counter.add step <;> rfl

theorem after_pop_push (name : String) (counter : Value) (s : Stacks) :
    (pop name).after (s.push name counter) = s := by
  simp only [after, Stacks.pop_push]

/-- An access that finds its counter above a store does not fail. -/
theorem finds_of_findsAbove {base s : Stacks} {a : Access} (h : a.FindsAbove base s) :
    a.Finds s := by
  cases a with
  | push name start => trivial
  | peek name | add name step =>
    obtain ⟨counter, below, hvalues, -⟩ := h
    refine ⟨counter, ?_⟩
    rw [Stacks.peek_eq, hvalues]
  | pop name =>
    obtain ⟨counter, below, hvalues, -⟩ := h
    have hpeek : s.peek name = .ok counter := by rw [Stacks.peek_eq, hvalues]
    exact ⟨counter, _, by rw [Stacks.pop, hpeek]; rfl⟩

end Access

/-! ## The accesses of a run -/

namespace Engine

open Access

variable {σ : Type}

/-- The accesses of the iterations of a loop, whose body is run by `body` and makes the accesses
`inBody` itself. -/
def iterateAccesses (limit : Option Nat) (name : String) (stop step : Value) (body : Run σ)
    (inBody : Machine σ → List Access) : (fuel done : Nat) → Machine σ → List Access
  | fuel, done, m =>
    .peek name ::
      match (m.vars.peek name).bind fun counter => counter.order stop with
      | .error _ => []
      | .ok .gt => []
      | .ok _ =>
        match limitReached? limit done with
        | some _ => []
        | none =>
          match fuel with
          | 0 => []
          | fuel + 1 =>
            inBody m ++
              match body m with
              | (.error _, _) => []
              | (.ok (), m) =>
                .add name step ::
                  match m.vars.update name fun counter => counter.add step with
                  | .error _ => []
                  | .ok vars =>
                    iterateAccesses limit name stop step body inBody fuel (done + 1) { m with vars }

/-- The accesses of a loop over a body. -/
def loopAccesses (b : Bounds) (h : LoopHeader) (body : Run σ) (inBody : Machine σ → List Access)
    (m : Machine σ) : List Access :=
  match range m.vars h with
  | .error _ => []
  | .ok (start, stop, step) =>
    let m' : Machine σ := { m with vars := m.vars.push h.name start }
    .push h.name start ::
      (iterateAccesses b.limit h.name stop step body inBody b.fuel 0 m' ++
        match iterate b.limit h.name stop step body b.fuel 0 m' with
        | (.error _, _) => []
        | (.ok (), _) => [.pop h.name])

variable [Host σ]

mutual

/-- The accesses to the store that the run of a node makes, in their order. -/
def accesses (b : Bounds) : Node → Machine σ → List Access
  | .document cs => accessesAll b cs
  | .text _ => fun _ => []
  | .loop h body => loopAccesses b h (runAll b body) (accessesAll b body)
  | .echo _ => fun _ => []

/-- The accesses that the run of nodes in a row makes. -/
def accessesAll (b : Bounds) : List Node → Machine σ → List Access
  | [] => fun _ => []
  | n :: ns => fun m =>
    accesses b n m ++
      match run b n m with
      | (.ok (), m) => accessesAll b ns m
      | (.error _, _) => []

end

omit [Host σ]

/-- The accesses are what the run does to the store, and they leave the store before the run
below. -/
structure Accounts (f : Run σ) (as : Machine σ → List Access) : Prop where
  replay : ∀ m, Access.replay m.vars (as m) = (f m).2.vars
  stayAbove : ∀ m, StayAbove m.vars m.vars (as m)

theorem accounts_onHost (f : σ → Except EvalError Unit × σ) : Accounts (onHost f) fun _ => [] where
  replay _ := rfl
  stayAbove _ := trivial

/-- The iterations of a loop work on the counter that the loop has put on the stacks. -/
theorem accounts_iterate {body : Run σ} {inBody : Machine σ → List Access}
    (hbody : Accounts body inBody) {inEnv : Scoped.Run σ} (hrefines : Refines body inEnv)
    (limit : Option Nat) (name : String) (stop step : Value) (vars : Stacks)
    (fuel done : Nat) (counter : Value) (host : σ) :
    let m : Machine σ := ⟨vars.push name counter, host⟩
    let as := iterateAccesses limit name stop step body inBody fuel done m
    Access.replay m.vars as = (iterate limit name stop step body fuel done m).2.vars ∧
      StayAbove vars m.vars as := by
  intro m
  have habove := hasAbove_push name counter vars
  unfold iterateAccesses iterate
  simp only [m, Stacks.peek_push, Except.bind]
  cases counter.order stop with
  | error e => exact ⟨rfl, habove, trivial⟩
  | ok o =>
    cases o with
    | gt => exact ⟨rfl, habove, trivial⟩
    | lt | eq =>
      cases limitReached? limit done with
      | some l => exact ⟨rfl, habove, trivial⟩
      | none =>
        cases fuel with
        | zero => exact ⟨rfl, habove, trivial⟩
        | succ fuel =>
          have hreplay := hbody.replay m
          have hinBody : StayAbove vars m.vars (inBody m) :=
            (hbody.stayAbove m).mono (Stacks.LiesBelow.push name counter vars)
          have hvars := (hrefines m).2
          dsimp only
          rcases hrun : body m with ⟨r, m'⟩
          rw [hrun] at hreplay hvars
          cases r with
          | error e =>
            rw [List.append_nil]
            exact ⟨hreplay, habove, hinBody⟩
          | ok u =>
            obtain ⟨vars', host'⟩ := m'
            -- the body has left the counter where the loop had put it
            obtain rfl : vars' = vars.push name counter := hvars rfl
            have hafter := after_add_push name counter step vars
            simp only [Stacks.update_push]
            cases hadd : counter.add step with
            | error e =>
              rw [hadd] at hafter
              exact stayAbove_iteration habove hreplay hinBody hafter ⟨habove, trivial⟩
            | ok next =>
              rw [hadd] at hafter
              obtain ⟨hlast, hrest⟩ := accounts_iterate hbody hrefines limit name stop step vars
                fuel (done + 1) next host'
              refine stayAbove_iteration habove hreplay hinBody ?_ ⟨habove, hafter.symm ▸ hrest⟩
              exact (congrArg (Access.replay · _) hafter).trans hlast

/-- A loop takes off again the counter that it has put on the stacks. -/
theorem accounts_runLoop (b : Bounds) (h : LoopHeader) {body : Run σ}
    {inBody : Machine σ → List Access} (hbody : Accounts body inBody) {inEnv : Scoped.Run σ}
    (hrefines : Refines body inEnv) : Accounts (runLoop b h body) (loopAccesses b h body inBody) := by
  have hloop : ∀ m : Machine σ,
      Access.replay m.vars (loopAccesses b h body inBody m) = (runLoop b h body m).2.vars ∧
        StayAbove m.vars m.vars (loopAccesses b h body inBody m) := by
    intro m
    unfold loopAccesses runLoop
    rcases range m.vars h with e | ⟨start, stop, step⟩
    · exact ⟨rfl, trivial⟩
    obtain ⟨hreplay, habove⟩ :=
      accounts_iterate hbody hrefines b.limit h.name stop step m.vars b.fuel 0 start m.host
    obtain ⟨-, hlast⟩ :=
      refines_iterate hrefines b.limit h.name stop step m.vars b.fuel 0 start m.host
    dsimp only at hreplay habove hlast ⊢
    rcases hrun : iterate b.limit h.name stop step body b.fuel 0
      ⟨m.vars.push h.name start, m.host⟩ with ⟨r, m'⟩
    rw [hrun] at hreplay hlast
    cases r with
    | error e =>
      rw [List.append_nil]
      exact ⟨hreplay, trivial, habove⟩
    | ok u =>
      obtain ⟨last, hlast⟩ := hlast rfl
      have hpop : m'.vars.pop h.name = .ok (last, m.vars) := by
        rw [hlast]
        exact Stacks.pop_push h.name last m.vars
      dsimp only at hlast ⊢
      rw [hpop]
      have hcounter := hreplay.trans hlast
      refine ⟨(replay_append _ _ _).trans ?_, trivial, stayAbove_append.2 ⟨habove, ?_⟩⟩
      · exact (congrArg (Access.replay · [.pop h.name]) hcounter).trans
          (after_pop_push h.name last m.vars)
      · refine (congrArg (StayAbove m.vars · [.pop h.name]) hcounter).mpr ⟨?_, trivial⟩
        exact hasAbove_push h.name last m.vars
  exact ⟨fun m => (hloop m).1, fun m => (hloop m).2⟩

/-! ## Nodes -/

variable [Host σ]

mutual

theorem accounts_run (b : Bounds) (n : Node) : Accounts (run b n : Run σ) (accesses b n) := by
  cases n with
  | document cs =>
    rw [run, accesses]
    exact accounts_runAll b cs
  | text s =>
    rw [run, accesses]
    exact accounts_onHost _
  | loop h body =>
    rw [run, accesses]
    exact accounts_runLoop b h (accounts_runAll b body) (refines_runAll b body)
  | echo es =>
    rw [run, accesses]
    exact ⟨fun _ => rfl, fun _ => trivial⟩

theorem accounts_runAll (b : Bounds) (ns : List Node) :
    Accounts (runAll b ns : Run σ) (accessesAll b ns) := by
  cases ns with
  | nil =>
    rw [runAll, accessesAll]
    exact ⟨fun _ => rfl, fun _ => trivial⟩
  | cons n ns =>
    have hn : Accounts (run b n : Run σ) (accesses b n) := accounts_run b n
    have hns : Accounts (runAll b ns : Run σ) (accessesAll b ns) := accounts_runAll b ns
    have hrow : ∀ m : Machine σ,
        Access.replay m.vars (accessesAll b (n :: ns) m) = (runAll b (n :: ns) m).2.vars ∧
          StayAbove m.vars m.vars (accessesAll b (n :: ns) m) := by
      intro m
      have hreplay := hn.replay m
      have hvars := (refines_run b n m).2
      rw [runAll, accessesAll]
      dsimp only
      rcases hrun : (run b n m : Except Stop Unit × Machine σ) with ⟨r, m'⟩
      rw [hrun] at hreplay hvars
      cases r with
      | error e =>
        rw [List.append_nil]
        exact ⟨hreplay, hn.stayAbove m⟩
      | ok u =>
        have hm : m'.vars = m.vars := hvars rfl
        dsimp only at hreplay ⊢
        rw [hm] at hreplay
        rw [replay_append, stayAbove_append, hreplay, ← hm]
        exact ⟨hns.replay m', hm ▸ hn.stayAbove m, hns.stayAbove m'⟩
    exact ⟨fun m => (hrow m).1, fun m => (hrow m).2⟩

end

/-- Every access of a run finds its counter above what was in the store before the run. -/
theorem stayAbove_accesses (b : Bounds) (n : Node) (m : Machine σ) :
    StayAbove m.vars m.vars (accesses b n m) :=
  (accounts_run b n).stayAbove m

/-- A run that succeeds leaves the store as it found it, which for `execute` is the empty one.  On
the way, and also where the run ends early, what was in the store lies below all that the run has
put there, and every access of a loop to its own counter succeeds. -/
theorem accesses_keep_stacks (b : Bounds) (n : Node) (m : Machine σ) :
    ((run b n m).1 = .ok () → (run b n m).2.vars = m.vars) ∧
      (run b n m).2.vars = Access.replay m.vars (accesses b n m) ∧
      (∀ before rest, accesses b n m = before ++ rest →
        m.vars.LiesBelow (Access.replay m.vars before)) ∧
      ∀ before a rest, accesses b n m = before ++ a :: rest →
        a.Finds (Access.replay m.vars before) := by
  have habove := stayAbove_accesses b n m
  refine ⟨(refines_run b n m).2, ((accounts_run b n).replay m).symm, ?_, ?_⟩
  · intro before rest heq
    rw [heq] at habove
    exact (stayAbove_append.1 habove).1.liesBelow_replay (Stacks.LiesBelow.refl m.vars)
  · intro before a rest heq
    rw [heq] at habove
    exact finds_of_findsAbove (stayAbove_append.1 habove).2.1

/-- The inner loop counts on the stack of the outer one: while it does, the outer counter and what
was there before the run lie below. -/
theorem accesses_keep_stacks_nested :
    let inner := Node.loop ⟨"i", .integer 7, .integer 7, none⟩ [.echo [.var "i"]]
    let outer := Node.loop ⟨"i", .integer 1, .integer 1, none⟩ [inner]
    let m : Machine Page := ⟨({} : Stacks).push "i" (.text "outer"), {}⟩
    let before : List Access := [.push "i" (.integer 1), .peek "i", .push "i" (.integer 7), .peek "i"]
    let rest : List Access := [.peek "i", .pop "i", .add "i" (.integer 1), .peek "i", .pop "i"]
    (run ⟨none, 9⟩ outer m).1 = .ok () ∧ (run ⟨none, 9⟩ outer m).2.vars = m.vars ∧
      accesses ⟨none, 9⟩ outer m = before ++ .add "i" (.integer 1) :: rest ∧
      m.vars.LiesBelow (Access.replay m.vars before) ∧
      (Access.add "i" (.integer 1)).Finds (Access.replay m.vars before) := by
  intro inner outer m before rest
  have hrun : (run ⟨none, 9⟩ outer m).1 = .ok () := by cbv
  have haccesses : accesses ⟨none, 9⟩ outer m = before ++ .add "i" (.integer 1) :: rest := by cbv
  obtain ⟨hvars, -, hbelow, hfinds⟩ := accesses_keep_stacks ⟨none, 9⟩ outer m
  exact ⟨hrun, hvars hrun, haccesses, hbelow before _ haccesses, hfinds before _ rest haccesses⟩

end Engine

end Stencil
