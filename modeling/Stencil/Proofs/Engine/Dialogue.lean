import Stencil.Proofs.Engine.Refinement
import Stencil.Proofs.Host.Dialogue
set_option autoImplicit false

/-!
# Runs are dialogues

The engine knows its host only by the answers to its calls, and a text that is not
taken ends the run: what a run does with a host is a dialogue with it, the same one
with every host (`Engine.exists_dialogue`).
-/

namespace Stencil

/-! ## Expressions -/

namespace Scoped

open Step

theorem talks_step (env : Env) (e : Element) : Talks fun σ _ => (step env e : Step σ Unit) := by
  have hvalue : Talks fun σ _ => (do push (← value env e) : Step σ Unit) :=
    (talks_lift (value env e)).bind fun v => talks_push v
  cases e with
  | operator op =>
    refine (talks_pop _).bind fun right => (talks_pop _).bind fun left => ?_
    exact (talks_lift (Value.apply op left right)).bind fun v => talks_push v
  | call name => exact Builtin.talks_call name
  | _ => exact hvalue

theorem talks_steps (env : Env) (es : List Element) :
    Talks fun σ _ => (steps env es : Step σ Unit) := by
  induction es with
  | nil => exact talks_pure ()
  | cons e es ih => exact (talks_step env e).bind fun _ => ih

end Scoped

/-- Texts written in a row. -/
def Dialogue.writes : List Value → Dialogue Unit
  | [] => .done (.ok ())
  | v :: vs => .write v.display (writes vs)

theorem Dialogue.play_writes {σ : Type} [Host σ] (vs : List Value) (host : σ) :
    (Dialogue.writes vs).play host = Scoped.attempt (Expression.write vs host) := by
  induction vs generalizing host with
  | nil => rfl
  | cons v vs ih =>
    simp only [writes, play, Expression.write]
    rcases Host.answer (.write v.display) host with ⟨_ | _, host'⟩
    · rfl
    · exact ih host'

namespace Scoped

/-- In every environment, what the run does with a host is a dialogue with it. -/
def Speaks (f : (σ : Type) → [Host σ] → Scoped.Run σ) : Prop :=
  ∀ env, IsDialogue fun σ _ host => f σ env host

theorem speaks_echo (es : List Element) : Speaks fun _ _ env host => attempt (echo env es host) := by
  intro env
  have hwrites : ∀ r : Unit × List Value,
      IsDialogue fun _ _ host => attempt (Expression.write r.2.reverse host) :=
    fun r => ⟨.writes r.2.reverse, fun _ _ host => (Dialogue.play_writes r.2.reverse host).symm⟩
  refine (talks_steps env es []).bind hwrites ?_
  intro σ _ host
  unfold echo Step.outcome
  dsimp only
  rcases (steps env es).run ⟨[], host⟩ with ⟨_ | _, f⟩
  · rfl
  · rfl

/-! ## Loops -/

/-- Each iteration that is begun makes the dialogue of the body, and the fuel that it takes is what
the induction is on. -/
theorem speaks_iterate (limit : Option Nat) (name : String) (stop step : Value)
    {body : (σ : Type) → [Host σ] → Scoped.Run σ} (hbody : Speaks body) (env : Env)
    (fuel done : Nat) (counter : Value) :
    IsDialogue fun σ _ host =>
      iterate limit name stop step (body σ) env fuel done counter host := by
  unfold iterate
  cases counter.order stop with
  | error e => exact .done _
  | ok o =>
    cases o with
    | gt => exact .done _
    | lt | eq =>
      cases Engine.limitReached? limit done with
      | some l => exact .done _
      | none =>
        cases fuel with
        | zero => exact .done _
        | succ fuel =>
          cases counter.add step with
          | error e =>
            refine (hbody (env.bind name counter)).bind (fun _ => .done (.error (.failed e))) ?_
            intro σ _ host
            dsimp only
            rcases body σ (env.bind name counter) host with ⟨_ | _, host'⟩
            · rfl
            · rfl
          | ok next =>
            have hrest := speaks_iterate limit name stop step hbody env fuel (done + 1) next
            refine (hbody (env.bind name counter)).bind (fun _ => hrest) ?_
            intro σ _ host
            dsimp only
            rcases body σ (env.bind name counter) host with ⟨_ | _, host'⟩
            · rfl
            · rfl

theorem speaks_runLoop (b : Bounds) (h : LoopHeader)
    {body : (σ : Type) → [Host σ] → Scoped.Run σ} (hbody : Speaks body) :
    Speaks fun σ _ => runLoop b h (body σ) := by
  intro env
  simp only [runLoop]
  rcases range env h with e | ⟨start, stop, step⟩
  · exact .done (.error (.failed e))
  · exact speaks_iterate b.limit h.name stop step hbody env b.fuel 0 start

/-! ## Nodes -/

mutual

theorem speaks_run (b : Bounds) (n : Node) : Speaks fun σ _ => (run b n : Scoped.Run σ) := by
  cases n with
  | document cs =>
    simp only [run]
    exact speaks_runAll b cs
  | text s =>
    intro env
    refine ⟨.write s (.done (.ok ())), ?_⟩
    intro σ _ host
    simp only [run, Dialogue.play]
    rcases Host.answer (.write s) host with ⟨_ | _, host'⟩
    · rfl
    · rfl
  | loop h body =>
    simp only [run]
    exact speaks_runLoop b h (speaks_runAll b body)
  | echo es =>
    simp only [run]
    exact speaks_echo es

theorem speaks_runAll (b : Bounds) (ns : List Node) :
    Speaks fun σ _ => (runAll b ns : Scoped.Run σ) := by
  cases ns with
  | nil =>
    simp only [runAll]
    exact fun _ => .done (.ok ())
  | cons n ns =>
    intro env
    simp only [runAll]
    refine (speaks_run b n env).bind (fun _ => speaks_runAll b ns env) ?_
    intro σ _ host
    dsimp only
    rcases run b n env host with ⟨_ | _, host'⟩
    · rfl
    · rfl

end

end Scoped

/-- What the run of a template does with a host is a dialogue with it, the same one with every
host. -/
theorem Engine.exists_dialogue (b : Bounds) (n : Node) :
    ∃ d : Dialogue Unit, ∀ (σ : Type) [Host σ] (host : σ), execute b n host = d.play host := by
  obtain ⟨d, hd⟩ := Scoped.speaks_run b n Env.empty
  refine ⟨d, ?_⟩
  intro σ _ host
  exact (refines_run b n ⟨{}, host⟩).1.trans (hd σ host)

end Stencil
