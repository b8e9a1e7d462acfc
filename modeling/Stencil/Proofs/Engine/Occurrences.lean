import Stencil.Page
import Stencil.Proofs.Engine.Causes
import Stencil.Proofs.Engine.Refinement
import Stencil.Proofs.Parse.RoundTrip
set_option autoImplicit false

/-!
# Occurrences of variables

Whether the variables of a template are in scope can be seen from its tree: each
occurrence of a variable has to stand in the body of a loop over this variable.  A
run fails for a name that is not in scope only where an occurrence of the name does
not, and the tree of a template gives it nothing else to misuse
(`Engine.execute_error_of_parse`).
-/

namespace Stencil

/-- A variable where it stands in a tree, with the variables of the loops in whose bodies it stands,
the innermost first. -/
structure Occurrence where
  name : String
  loops : List String
  deriving DecidableEq

namespace Occurrence

/-- No loop around the occurrence is over its variable. -/
def IsFree (o : Occurrence) : Prop := o.name ∉ o.loops

instance (o : Occurrence) : Decidable o.IsFree := inferInstanceAs (Decidable (o.name ∉ o.loops))

/-- The variables among elements that stand in the bodies of the given loops. -/
def ofElements (loops : List String) : List Element → List Occurrence
  | [] => []
  | .var name :: es => ⟨name, loops⟩ :: ofElements loops es
  | _ :: es => ofElements loops es

theorem mem_ofElements {loops : List String} {name : String} {es : List Element}
    (h : .var name ∈ es) : ⟨name, loops⟩ ∈ ofElements loops es := by
  induction es with
  | nil => cases h
  | cons e es ih =>
    rcases List.mem_cons.1 h with rfl | hes
    · exact List.mem_cons_self
    · cases e with
      | var other => exact List.mem_cons_of_mem _ (ih hes)
      | _ => exact ih hes

end Occurrence

namespace Node

mutual

/-- The variables in a node that stands in the bodies of the given loops.  The arguments of a loop
stand outside its body. -/
def occurrences (loops : List String) : Node → List Occurrence
  | document cs => occurrencesAll loops cs
  | text _ => []
  | loop h body => Occurrence.ofElements loops h.arguments ++ occurrencesAll (h.name :: loops) body
  | echo es => Occurrence.ofElements loops es

/-- The variables in nodes in a row. -/
def occurrencesAll (loops : List String) : List Node → List Occurrence
  | [] => []
  | n :: ns => occurrences loops n ++ occurrencesAll loops ns

end

/-- Every variable in the tree stands in the body of a loop over it. -/
def IsClosed (n : Node) : Prop := ∀ o ∈ n.occurrences [], o.name ∈ o.loops

end Node

/-! ## Errors of names -/

/-- The error is that of a free one of the occurrences, or has nothing to do with names and with the
places of elements. -/
def EvalError.IsExplainedBy (os : List Occurrence) : EvalError → Prop
  | emptyStack name => ∃ o ∈ os, o.name = name ∧ o.IsFree
  | notAValue _ => False
  | _ => True

namespace EvalError

theorem IsOfValues.isExplainedBy {e : EvalError} (h : e.IsOfValues) (os : List Occurrence) :
    e.IsExplainedBy os := by
  cases e with
  | emptyStack | notAValue => exact h.elim
  | _ => trivial

theorem IsExplainedBy.mono {os os' : List Occurrence} {e : EvalError} (h : e.IsExplainedBy os)
    (hsub : os ⊆ os') : e.IsExplainedBy os' := by
  cases e with
  | emptyStack name =>
    obtain ⟨o, ho, hfree⟩ := h
    exact ⟨o, hsub ho, hfree⟩
  | notAValue => exact h.elim
  | _ => trivial

end EvalError

namespace Scoped

/-- All the loops have their counters in scope. -/
def Binds (env : Env) (loops : List String) : Prop := ∀ name ∈ loops, env name ≠ none

theorem Binds.bind {env : Env} {loops : List String} (h : Binds env loops) (name : String)
    (v : Value) : Binds (env.bind name v) (name :: loops) := by
  intro other hother
  unfold Env.bind
  split
  · nofun
  · rename_i hne
    exact h other ((List.mem_cons.1 hother).resolve_left hne)

/-- A variable out of scope is free, since all loops around it have their counters in scope. -/
theorem IsUnbound.isExplainedBy {env : Env} {loops : List String} (hbinds : Binds env loops)
    {es : List Element} {e : EvalError} (h : IsUnbound env es e) :
    e.IsExplainedBy (Occurrence.ofElements loops es) := by
  obtain ⟨name, hname, hnone, rfl⟩ := h
  exact ⟨⟨name, loops⟩, Occurrence.mem_ofElements hname, rfl, fun hmem => hbinds name hmem hnone⟩

/-- The run ends, if it ends early and not for want of fuel, with an error that the occurrences
explain. -/
def StopsFor (os : List Occurrence) (r : Except Stop Unit) : Prop :=
  ∀ e, r = .error (.failed e) → e.IsExplainedBy os

theorem StopsFor.ok (os : List Occurrence) : StopsFor os (.ok ()) := nofun

theorem StopsFor.error {os : List Occurrence} {e : EvalError} (h : e.IsExplainedBy os) :
    StopsFor os (.error (.failed e)) := by
  rintro _ ⟨⟩
  exact h

theorem StopsFor.outOfFuel (os : List Occurrence) : StopsFor os (.error .outOfFuel) := nofun

theorem StopsFor.mono {os os' : List Occurrence} {r : Except Stop Unit} (h : StopsFor os r)
    (hsub : os ⊆ os') : StopsFor os' r :=
  fun e he => (h e he).mono hsub

variable {σ : Type}

theorem StopsFor.attempt {os : List Occurrence} {r : Except EvalError Unit × σ}
    (h : FailsWith (·.IsExplainedBy os) r.1) : StopsFor os (attempt r).1 := by
  obtain ⟨_ | _, host⟩ := r
  · exact .error (h _ rfl)
  · exact .ok os

/-! ## Runs -/

/-- The iterations of a loop add errors of values, and that of the limit, to those of the body. -/
theorem stopsFor_iterate {os : List Occurrence} {body : Scoped.Run σ} {env : Env} {name : String}
    (hbody : ∀ counter host, StopsFor os (body (env.bind name counter) host).1)
    (limit : Option Nat) (stop step : Value) (fuel done : Nat) (counter : Value) (host : σ) :
    StopsFor os (iterate limit name stop step body env fuel done counter host).1 := by
  have horder := counter.failsWith_order stop
  have hadd := counter.failsWith_add step
  unfold iterate
  cases ho : counter.order stop with
  | error e => exact .error ((horder e ho).isOfValues.isExplainedBy os)
  | ok o =>
    cases o with
    | gt => exact .ok os
    | lt | eq =>
      cases Engine.limitReached? limit done with
      | some l => exact .error trivial
      | none =>
        cases fuel with
        | zero => exact .outOfFuel os
        | succ fuel =>
          have hfirst := hbody counter host
          dsimp only
          rcases hrun : body (env.bind name counter) host with ⟨s | _, host'⟩
          · rwa [hrun] at hfirst
          · cases ha : counter.add step with
            | error e => exact .error ((hadd e ha).isOfValues.isExplainedBy os)
            | ok next => exact stopsFor_iterate hbody limit stop step fuel (done + 1) next host'

/-- The header of a loop has values for arguments, so that it can only lack a name. -/
theorem range_error_of_hasOperands {env : Env} {loops : List String} (hbinds : Binds env loops)
    {h : LoopHeader} (hh : h.HasOperands) :
    FailsWith (·.IsExplainedBy (Occurrence.ofElements loops h.arguments)) (range env h) := by
  refine (range_error env h).mono ?_
  rintro e (hunbound | ⟨a, ha, hno, -⟩)
  · exact hunbound.isExplainedBy hbinds
  · rw [hh a ha] at hno
    cases hno

variable [Host σ]

mutual

theorem stopsFor_run (b : Bounds) {n : Node} (hn : n.IsWritable) {loops : List String} {env : Env}
    (hbinds : Binds env loops) (host : σ) :
    StopsFor (n.occurrences loops) (run b n env host).1 := by
  cases n with
  | document cs =>
    rw [run]
    exact stopsFor_runAll b hn hbinds host
  | text s =>
    rw [run]
    have hwrite (r : Except WriteError Unit) : StopsFor [] (attempt (r.mapError .output, host)).1 := by
      cases r with
      | error e => exact .error trivial
      | ok u => exact .ok []
    exact hwrite (Host.answer (.write s) host).1
  | loop h body =>
    obtain ⟨hh, hbody⟩ := hn
    rw [run, Node.occurrences]
    have hrange := range_error_of_hasOperands hbinds hh.operands
    unfold runLoop
    rcases hr : range env h with e | ⟨start, stop, step⟩
    · exact .error ((hrange e hr).mono (List.subset_append_left ..))
    · refine stopsFor_iterate (fun counter host => ?_) b.limit stop step b.fuel 0 start host
      exact (stopsFor_runAll b hbody (hbinds.bind h.name counter) host).mono
        (List.subset_append_right ..)
  | echo es =>
    rw [run]
    refine .attempt ((echo_error env es host).mono ?_)
    rintro e (hvalues | hunbound)
    · exact hvalues.isExplainedBy _
    · exact hunbound.isExplainedBy hbinds

theorem stopsFor_runAll (b : Bounds) {ns : List Node} (hns : Node.AllWritable ns)
    {loops : List String} {env : Env} (hbinds : Binds env loops) (host : σ) :
    StopsFor (Node.occurrencesAll loops ns) (runAll b ns env host).1 := by
  cases ns with
  | nil =>
    rw [runAll]
    exact .ok _
  | cons n ns =>
    have hn := stopsFor_run b hns.1 hbinds host
    rw [runAll, Node.occurrencesAll]
    dsimp only
    rcases hrun : (run b n env host : Except Stop Unit × σ) with ⟨s | _, host'⟩
    · rw [hrun] at hn
      exact hn.mono (List.subset_append_left ..)
    · exact (stopsFor_runAll b hns.2 hbinds host').mono (List.subset_append_right ..)

end

end Scoped

namespace Engine

variable {σ : Type} [Host σ]

/-- The run of a template never takes a call or an operator for a value.  Where it fails for a name
that is not in scope, the template has this name outside the loops over it; so a template in which
each variable stands in the body of a loop over it does not fail so. -/
theorem execute_error_of_parse {x : String} {n : Node} (hx : Node.parse x = .ok n) (b : Bounds)
    (host : σ) :
    (∀ a, (execute b n host).1 ≠ .error (.failed (.notAValue a))) ∧
      (n.IsClosed → ∀ name, (execute b n host).1 ≠ .error (.failed (.emptyStack name))) ∧
      ∀ name, (execute b n host).1 = .error (.failed (.emptyStack name)) →
        ∃ o ∈ n.occurrences [], o.name = name ∧ o.IsFree := by
  have hstops : Scoped.StopsFor (n.occurrences []) (execute b n host).1 := by
    have hscoped := congrArg Prod.fst (refines_run b n ⟨{}, host⟩).1
    have hrun : (execute b n host).1 = _ := hscoped
    rw [hrun]
    exact Scoped.stopsFor_run b (Node.isWritable_of_parse hx) (List.forall_mem_nil _) host
  refine ⟨fun a ha => hstops _ ha, fun hclosed name he => ?_, fun name he => hstops _ he⟩
  obtain ⟨o, ho, -, hfree⟩ := hstops _ he
  exact hfree (hclosed o ho)

/-- In the body of a loop its variable is in scope.  Behind the loop it is not, although the loop has
bound it. -/
theorem execute_error_of_parse_behind :
    let l := Node.loop ⟨"i", .integer 1, .integer 2, none⟩ [.echo [.var "i"]]
    let t := Node.document [l, .echo [.var "i"]]
    Node.parse t.source = .ok t ∧ t.occurrences [] = [⟨"i", ["i"]⟩, ⟨"i", []⟩] ∧
      (execute ⟨none, 9⟩ t ({} : Page)).1 = .error (.failed (.emptyStack "i")) ∧
      (∃ o ∈ t.occurrences [], o.name = "i" ∧ o.IsFree) ∧
      Node.parse (Node.document [l]).source = .ok (.document [l]) ∧ (Node.document [l]).IsClosed ∧
      (execute ⟨none, 9⟩ (.document [l]) ({} : Page)).1 ≠ .error (.failed (.emptyStack "i")) := by
  intro l t
  have hname : Text.IsWord "i".toList := ⟨by decide, List.forall_mem_nil _⟩
  have hheader : LoopHeader.IsWritable ⟨"i", .integer 1, .integer 2, none⟩ := by
    refine ⟨hname, ?_, ?_⟩
    · simp only [LoopHeader.arguments, List.forall_mem_cons, Element.IsWritable]
      exact ⟨trivial, trivial, List.forall_mem_nil _⟩
    · simp [LoopHeader.HasOperands, LoopHeader.arguments, Element.isOperand]
  have hecho : Node.IsWritable (.echo [.var "i"]) :=
    List.forall_mem_cons.2 ⟨hname, List.forall_mem_nil _⟩
  have hparse : Node.parse t.source = .ok t :=
    Node.parse_source (t := t) ⟨⟨hheader, hecho, trivial⟩, hecho, trivial⟩
  have hparse' : Node.parse (Node.document [l]).source = .ok (.document [l]) :=
    Node.parse_source (t := .document [l]) ⟨⟨hheader, hecho, trivial⟩, trivial⟩
  have hclosed : (Node.document [l]).IsClosed :=
    List.forall_mem_cons.2 ⟨List.mem_cons_self, List.forall_mem_nil _⟩
  have hfails : (execute ⟨none, 9⟩ t ({} : Page)).1 = .error (.failed (.emptyStack "i")) := by cbv
  obtain ⟨-, -, hfree⟩ := execute_error_of_parse hparse ⟨none, 9⟩ ({} : Page)
  obtain ⟨-, hbound, -⟩ := execute_error_of_parse hparse' ⟨none, 9⟩ ({} : Page)
  exact ⟨hparse, rfl, hfails, hfree "i" hfails, hparse', hclosed, hbound hclosed "i"⟩

end Engine

end Stencil
