import Mathlib
import Stencil.Builtin
import Stencil.Engine
set_option autoImplicit false

/-!
# Dialogues with a host

A dialogue is a computation that knows its host only by the answers to its calls:
each call is settled by the answers so far.  Where a text is not taken the dialogue
is over.  `Dialogue.play` carries a dialogue on with a host, whichever it is, so
that what two hosts make of one dialogue can be compared by induction on it.
-/

namespace Stencil

/-- What is asked of a host, call by call, and the result in the end. -/
inductive Dialogue (α : Type) where
  /-- nothing more is asked -/
  | done (result : Except Stop α)
  /-- a text is written, and the dialogue goes on where the host takes it -/
  | write (text : String) (next : Dialogue α)
  /-- another call is made, and its answer settles how the dialogue goes on -/
  | ask (c : Call) (hc : ∀ text, c ≠ .write text) (next : c.Answer → Dialogue α)

namespace Dialogue

variable {α β σ : Type} [Host σ]

/-- The dialogue carried on with a host: the result, and the host after it. -/
def play : Dialogue α → σ → Except Stop α × σ
  | done result, host => (result, host)
  | write text next, host =>
    match Host.answer (.write text) host with
    | (.ok (), host) => next.play host
    | (.error e, host) => (.error (.failed (.output e)), host)
  | ask c _ next, host =>
    let (a, host) := Host.answer c host
    (next a).play host

/-- The calls that are made when the dialogue is carried on with a host, also the one that ends it
where a text is not taken. -/
def calls : Dialogue α → σ → List Call
  | done _, _ => []
  | write text next, host =>
    .write text ::
      match Host.answer (.write text) host with
      | (.ok (), host) => next.calls host
      | (.error _, _) => []
  | ask c _ next, host =>
    let (a, host) := Host.answer c host
    c :: (next a).calls host

/-- A dialogue with a recorded host is the one with the host itself, and its calls are on record. -/
theorem play_recorded (d : Dialogue α) (r : Recorded σ) :
    d.play r =
      ((d.play r.host).1, ⟨(d.play r.host).2, (d.calls r.host).reverse ++ r.latest⟩) := by
  induction d generalizing r with
  | done result => rfl
  | write text next ih =>
    have hanswer : Host.answer (.write text) r =
        ((Host.answer (.write text) r.host).1,
          ⟨(Host.answer (.write text) r.host).2, .write text :: r.latest⟩) := rfl
    simp only [play, calls, hanswer]
    rcases Host.answer (.write text) r.host with ⟨_ | _, host'⟩
    · rfl
    · rw [List.reverse_cons, List.append_assoc]
      exact ih ⟨host', .write text :: r.latest⟩
  | ask c hc next ih =>
    have hplay := ih (Host.answer c r.host).1 ⟨(Host.answer c r.host).2, c :: r.latest⟩
    simp only [play, calls, List.reverse_cons, List.append_assoc, List.singleton_append]
    exact hplay

/-- A dialogue that goes on with another one where it does not fail. -/
def bind (k : α → Dialogue β) : Dialogue α → Dialogue β
  | done (.ok a) => k a
  | done (.error e) => done (.error e)
  | write text next => write text (next.bind k)
  | ask c hc next => ask c hc fun a => (next a).bind k

/-- A result handed on to what comes behind it, together with the host, unless it is an error. -/
def handOn (k : α → σ → Except Stop β × σ) : Except Stop α × σ → Except Stop β × σ
  | (.ok a, host) => k a host
  | (.error e, host) => (.error e, host)

theorem play_bind (k : α → Dialogue β) (d : Dialogue α) (host : σ) :
    (d.bind k).play host = handOn (fun a => (k a).play) (d.play host) := by
  induction d generalizing host with
  | done result => cases result <;> rfl
  | write text next ih =>
    simp only [bind, play]
    rcases Host.answer (.write text) host with ⟨_ | _, host'⟩
    · rfl
    · exact ih host'
  | ask c hc next ih => exact ih _ _

end Dialogue

/-- What a computation does with a host is a dialogue with it, the same one with every host. -/
def IsDialogue {α : Type} (f : (σ : Type) → [Host σ] → σ → Except Stop α × σ) : Prop :=
  ∃ d : Dialogue α, ∀ (σ : Type) [Host σ] (host : σ), f σ host = d.play host

namespace IsDialogue

variable {α β : Type}

theorem done (result : Except Stop α) : IsDialogue fun _ _ host => (result, host) :=
  ⟨.done result, fun _ _ _ => rfl⟩

/-- A computation that is one dialogue and, where this does not fail, another one behind it. -/
theorem bind {f : (σ : Type) → [Host σ] → σ → Except Stop α × σ}
    {g : α → (σ : Type) → [Host σ] → σ → Except Stop β × σ}
    {h : (σ : Type) → [Host σ] → σ → Except Stop β × σ} (hf : IsDialogue f)
    (hg : ∀ a, IsDialogue (g a))
    (hh : ∀ (σ : Type) [Host σ] (host : σ),
      h σ host = Dialogue.handOn (fun a => g a σ) (f σ host)) :
    IsDialogue h := by
  obtain ⟨d, hd⟩ := hf
  choose k hk using hg
  refine ⟨d.bind k, ?_⟩
  intro σ _ host
  rw [hh, Dialogue.play_bind, hd]
  exact congrArg (Dialogue.handOn · (d.play host)) (funext fun a => funext (hk a σ))

end IsDialogue

/-! ## Steps of expressions -/

namespace Step

variable {α β : Type}

/-- A step from the given operands: its result with the operands that it leaves, and the host. -/
def outcome {σ : Type} (x : Step σ α) (operands : List Value) (host : σ) :
    Except Stop (α × List Value) × σ :=
  match x.run ⟨operands, host⟩ with
  | (.ok a, f) => (.ok (a, f.operands), f.host)
  | (.error e, f) => (.error (.failed e), f.host)

/-- From all operands, what the step does with a host is a dialogue with it. -/
def Talks (x : (σ : Type) → [Host σ] → Step σ α) : Prop :=
  ∀ operands, IsDialogue fun σ _ host => (x σ).outcome operands host

theorem talks_pure (a : α) : Talks fun σ _ => (pure a : Step σ α) :=
  fun operands => .done (.ok (a, operands))

theorem talks_throw (e : EvalError) : Talks fun σ _ => (throw e : Step σ α) :=
  fun _ => .done (.error (.failed e))

theorem run_bind {σ : Type} (x : Step σ α) (f : α → Step σ β) (frame : Frame σ) :
    (x >>= f).run frame =
      match x.run frame with
      | (.ok a, frame) => (f a).run frame
      | (.error e, frame) => (.error e, frame) := by
  have hbind : (x >>= f).run frame = ExceptT.bindCont f (x.run frame).1 (x.run frame).2 := rfl
  rw [hbind]
  rcases x.run frame with ⟨_ | _, frame'⟩
  · rfl
  · rfl

theorem outcome_bind {σ : Type} [Host σ] (x : Step σ α) (f : α → Step σ β)
    (operands : List Value) (host : σ) :
    (x >>= f).outcome operands host =
      Dialogue.handOn (fun r => (f r.1).outcome r.2) (x.outcome operands host) := by
  unfold outcome
  rw [run_bind]
  rcases x.run ⟨operands, host⟩ with ⟨_ | _, frame⟩
  · rfl
  · rfl

theorem Talks.bind {x : (σ : Type) → [Host σ] → Step σ α}
    {f : α → (σ : Type) → [Host σ] → Step σ β} (hx : Talks x) (hf : ∀ a, Talks (f a)) :
    Talks fun σ _ => x σ >>= fun a => f a σ := by
  intro operands
  refine (hx operands).bind (fun r => hf r.1 r.2) ?_
  intro σ _ host
  exact outcome_bind (x σ) (fun a => f a σ) operands host

theorem talks_lift (r : Except EvalError α) : Talks fun σ _ => (liftM r : Step σ α) := by
  cases r with
  | error e => exact talks_throw e
  | ok a => exact talks_pure a

theorem talks_pop (consumer : Element) : Talks fun σ _ => (pop consumer : Step σ Value) := by
  intro operands
  cases operands with
  | nil => exact .done (.error (.failed (.operandUnderflow consumer)))
  | cons v vs => exact .done (.ok (v, vs))

theorem talks_push (v : Value) : Talks fun σ _ => (push v : Step σ Unit) :=
  fun operands => .done (.ok ((), v :: operands))

theorem talks_ask {c : Call} (hc : ∀ text, c ≠ .write text) :
    Talks fun σ _ => (ask c : Step σ c.Answer) :=
  fun operands => ⟨.ask c hc fun a => .done (.ok (a, operands)), fun _ _ _ => rfl⟩

end Step

/-! ## Built-in functions -/

open Step

theorem Builtin.talks_run (b : Builtin) : Talks fun σ _ => (b.run : Step σ Unit) := by
  have hpop : Talks fun σ _ => (pop (.call b.name) : Step σ Value) := talks_pop _
  cases b with
  | sin => exact hpop.bind fun v => (talks_lift v.toFloat).bind fun _ => talks_push _
  | decimalFormat =>
    refine hpop.bind fun pattern => hpop.bind fun v => (talks_lift v.toNumber).bind fun n => ?_
    exact (talks_lift (DecimalFormat.apply pattern.display n)).bind fun _ => talks_push _
  | dup => exact hpop.bind fun top => (talks_push top).bind fun _ => talks_push top
  | swap =>
    refine hpop.bind fun top => hpop.bind fun below => ?_
    exact (talks_push top).bind fun _ => talks_push below
  | setMimeType => exact hpop.bind fun type => talks_ask nofun
  | get scope =>
    refine hpop.bind fun otherwise => hpop.bind fun key => ?_
    exact (talks_ask (c := .lookup scope key.display) nofun).bind fun _ => talks_push _
  | set store => exact hpop.bind fun key => hpop.bind fun value => talks_ask nofun
  | delete store => exact hpop.bind fun key => talks_ask nofun

theorem Builtin.talks_call (name : String) : Talks fun σ _ => (call name : Step σ Unit) := by
  unfold call
  cases ofName? name with
  | some b => exact b.talks_run
  | none => exact talks_throw (.unknownFunction name)

end Stencil
