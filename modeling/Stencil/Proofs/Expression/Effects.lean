import Stencil.Page
import Stencil.Proofs.Engine.Causes
import Stencil.Proofs.Host.Bounded
set_option autoImplicit false

/-!
# Effects on the operands

An element takes a fixed number of operands and leaves a fixed number in their place
(`Element.effect`).  What it does is one of three things (`Step.Outcome`): there are too
few operands, and all of them are taken; it has taken its operands and fails; or it
succeeds and has asked the host at most once, after which nothing can fail.  So an
element that fails has asked the host nothing.
-/

namespace Stencil

/-! ## Hosts -/

theorem Recorded.calls_after {σ : Type} [Host σ] (r : Recorded σ) (cs : List Call) :
    (Host.after r cs).calls = r.calls ++ cs := by
  induction cs generalizing r with
  | nil => exact (List.append_nil _).symm
  | cons c cs ih => rw [Host.after_cons, ih, calls_answer, List.append_assoc, List.singleton_append]

/-- No text is written. -/
def Call.IsSilent (c : Call) : Prop := ∀ text, c ≠ .write text

/-! ## Effects -/

/-- How many operands are needed, and how many are left in their place. -/
structure Effect where
  needs : Nat
  leaves : Nat
  deriving DecidableEq

/-- The effect of a function. -/
def Builtin.effect : Builtin → Effect
  | sin => ⟨1, 1⟩
  | decimalFormat => ⟨2, 1⟩
  | dup => ⟨1, 2⟩
  | swap => ⟨2, 2⟩
  | setMimeType => ⟨1, 0⟩
  | get _ => ⟨2, 1⟩
  | set _ => ⟨2, 0⟩
  | delete _ => ⟨1, 0⟩

/-- The effect of a call by name.  An unknown function fails before it takes an operand. -/
def Builtin.effectOf (name : String) : Effect := (ofName? name).elim ⟨0, 0⟩ effect

/-- The effect of an element. -/
def Element.effect : Element → Effect
  | operator _ => ⟨2, 1⟩
  | call name => Builtin.effectOf name
  | _ => ⟨0, 1⟩

theorem EvalError.IsOfOperands.ne_operandUnderflow {e : EvalError} (h : e.IsOfOperands)
    (c : Element) : e ≠ .operandUnderflow c := by
  rintro rfl
  exact h

namespace Step

variable {σ α : Type}

section

variable [Host σ]

/-- What comes of a step on behalf of an element that has the given effect. -/
inductive Outcome (consumer : Element) (effect : Effect) (operands : List Value) (host : σ) :
    Except EvalError Unit × Frame σ → Prop
  /-- there are too few operands, and all of them are taken -/
  | short (h : operands.length < effect.needs) :
      Outcome consumer effect operands host (.error (.operandUnderflow consumer), ⟨[], host⟩)
  /-- the operands are taken, and the step fails for another reason -/
  | failed {e : EvalError} (taken below : List Value) (h : operands = taken ++ below)
      (htaken : taken.length = effect.needs) (he : ∀ c, e ≠ .operandUnderflow c) :
      Outcome consumer effect operands host (.error e, ⟨below, host⟩)
  /-- the operands are replaced by others, and at most one call is made -/
  | done (taken below results : List Value) (asked : List Call) (h : operands = taken ++ below)
      (htaken : taken.length = effect.needs) (hresults : results.length = effect.leaves)
      (hasked : asked.length ≤ 1) (hsilent : ∀ c ∈ asked, c.IsSilent) :
      Outcome consumer effect operands host (.ok (), ⟨results ++ below, Host.after host asked⟩)

namespace Outcome

variable {consumer : Element} {effect : Effect} {operands : List Value} {host : σ} {e : EvalError}
  {f : Frame σ}

theorem needs_le {taken below : List Value} (h : operands = taken ++ below)
    (htaken : taken.length = effect.needs) : effect.needs ≤ operands.length := by
  rw [h, List.length_append, htaken]
  exact Nat.le_add_right _ _

/-- A success leaves the operands below those that are needed. -/
theorem of_ok (h : Outcome consumer effect operands host (.ok (), f)) :
    effect.needs ≤ operands.length ∧
      (∃ results, results.length = effect.leaves ∧
        f.operands = results ++ operands.drop effect.needs) ∧
      ∃ asked, asked.length ≤ 1 ∧ (∀ c ∈ asked, c.IsSilent) ∧ f.host = Host.after host asked := by
  rcases h with _ | _ | ⟨taken, below, results, asked, h, htaken, hresults, hasked, hsilent⟩
  refine ⟨needs_le h htaken, ⟨results, hresults, ?_⟩, asked, hasked, hsilent, rfl⟩
  rw [h, List.drop_left' htaken]

/-- A failure takes the operands that are needed, as far as there are any, and asks nothing. -/
theorem of_error (h : Outcome consumer effect operands host (.error e, f)) :
    f.host = host ∧ f.operands = operands.drop effect.needs := by
  rcases h with h | ⟨taken, below, h, htaken⟩
  · exact ⟨rfl, (List.drop_eq_nil_of_le h.le).symm⟩
  · exact ⟨rfl, by rw [h, List.drop_left' htaken]⟩

/-- An underflow is the failure of an element with too few operands. -/
theorem underflow_iff (h : Outcome consumer effect operands host (.error e, f)) :
    operands.length < effect.needs ↔ ∃ c, e = .operandUnderflow c := by
  rcases h with h | ⟨taken, below, h, htaken, he⟩
  · exact iff_of_true h ⟨consumer, rfl⟩
  · exact iff_of_false (Nat.not_lt.2 (needs_le h htaken)) fun ⟨c, hc⟩ => he c hc

/-- With too few operands there is no other failure. -/
theorem of_short {r : Except EvalError Unit × Frame σ}
    (h : Outcome consumer effect operands host r) (hshort : operands.length < effect.needs) :
    r = (.error (.operandUnderflow consumer), ⟨[], host⟩) := by
  rcases h with h | ⟨taken, below, h, htaken⟩ | ⟨taken, below, results, asked, h, htaken⟩
  · rfl
  · exact absurd hshort (Nat.not_lt.2 (needs_le h htaken))
  · exact absurd hshort (Nat.not_lt.2 (needs_le h htaken))

end Outcome

/-- The step has the given effect, whatever the operands and the host are. -/
def Acts (consumer : Element) (effect : Effect) (x : Step σ Unit) : Prop :=
  ∀ operands host, Outcome consumer effect operands host (x.run ⟨operands, host⟩)

variable {consumer : Element} {needs leaves : Nat}

theorem Acts.pop {k : Value → Step σ Unit} (hk : ∀ v, Acts consumer ⟨needs, leaves⟩ (k v)) :
    Acts consumer ⟨needs + 1, leaves⟩ (Step.pop consumer >>= k) := by
  rintro (_ | ⟨v, vs⟩) host
  · exact .short (Nat.succ_pos needs)
  · have hrun : (Step.pop consumer >>= k).run ⟨v :: vs, host⟩ = (k v).run ⟨vs, host⟩ := rfl
    have hrest := hk v vs host
    rw [hrun]
    generalize (k v).run ⟨vs, host⟩ = r at hrest ⊢
    cases hrest with
    | short h => exact .short (Nat.succ_lt_succ h)
    | failed taken below h htaken he =>
      exact .failed (v :: taken) below (congrArg (v :: ·) h) (congrArg Nat.succ htaken) he
    | done taken below results asked h htaken hresults hasked hsilent =>
      exact .done (v :: taken) below results asked (congrArg (v :: ·) h)
        (congrArg Nat.succ htaken) hresults hasked hsilent

theorem acts_throw {e : EvalError} (he : ∀ c, e ≠ .operandUnderflow c) :
    Acts consumer ⟨0, leaves⟩ (throw e : Step σ Unit) :=
  fun operands _ => .failed [] operands rfl rfl he

theorem Acts.lift {r : Except EvalError α} {k : α → Step σ Unit}
    (hr : Stencil.FailsWith (fun e => ∀ c, e ≠ .operandUnderflow c) r)
    (hk : ∀ a, Acts consumer ⟨0, leaves⟩ (k a)) :
    Acts consumer ⟨0, leaves⟩ (liftM r >>= k) := by
  cases r with
  | error e => exact acts_throw (hr e rfl)
  | ok a => exact hk a

/-- Arithmetic fails for operands that are there. -/
theorem Acts.compute {r : Except EvalError α} {k : α → Step σ Unit}
    (hr : Stencil.FailsWith EvalError.IsOfOperands r)
    (hk : ∀ a, Acts consumer ⟨0, leaves⟩ (k a)) :
    Acts consumer ⟨0, leaves⟩ (liftM r >>= k) :=
  .lift (hr.mono fun _ => EvalError.IsOfOperands.ne_operandUnderflow) hk

theorem acts_push (v : Value) : Acts consumer ⟨0, 1⟩ (push v : Step σ Unit) :=
  fun operands _ => .done [] operands [v] [] rfl rfl rfl (Nat.zero_le 1) (List.forall_mem_nil _)

theorem acts_push_push (v w : Value) :
    Acts consumer ⟨0, 2⟩ (do push v; push w : Step σ Unit) :=
  fun operands _ => .done [] operands [w, v] [] rfl rfl rfl (Nat.zero_le 1) (List.forall_mem_nil _)

theorem acts_ask {c : Call} (hc : c.IsSilent) :
    Acts consumer ⟨0, 0⟩ (do discard (ask c) : Step σ Unit) :=
  fun operands _ => .done [] operands [] [c] rfl rfl rfl le_rfl (List.forall_mem_singleton.2 hc)

theorem acts_ask_push {c : Call} (hc : c.IsSilent) (f : c.Answer → Value) :
    Acts consumer ⟨0, 1⟩ (do push (f (← ask c)) : Step σ Unit) :=
  fun operands host => .done [] operands [f (Host.answer c host).1] [c] rfl rfl rfl le_rfl
    (List.forall_mem_singleton.2 hc)

end

end Step

open Step

/-! ## Built-in functions -/

variable {σ : Type} [Host σ]

namespace Builtin

/-- What a function does has its effect. -/
theorem acts_run (b : Builtin) : Acts (.call b.name) b.effect (b.run : Step σ Unit) := by
  cases b with
  | sin =>
    exact .pop fun degrees => .compute (degrees.failsWith_toNumber.map _) fun x => acts_push _
  | decimalFormat =>
    refine .pop fun pattern => .pop fun v => .compute v.failsWith_toNumber fun n => ?_
    exact .compute (DecimalFormat.failsWith_apply _ n) fun text => acts_push _
  | dup => exact .pop fun top => acts_push_push top top
  | swap => exact .pop fun top => .pop fun below => acts_push_push top below
  | setMimeType => exact .pop fun type => acts_ask nofun
  | get scope =>
    refine .pop fun otherwise => .pop fun key => ?_
    exact acts_ask_push (c := .lookup scope key.display) nofun (·.elim otherwise .text)
  | set store => exact .pop fun key => .pop fun value => acts_ask nofun
  | delete store => exact .pop fun key => acts_ask nofun

theorem name_of_ofName? {name : String} {b : Builtin} (h : ofName? name = some b) :
    b.name = name := by
  unfold ofName? at h
  have hname := List.find?_some h
  exact eq_of_beq hname

theorem acts_call (name : String) : Acts (.call name) (effectOf name) (call name : Step σ Unit) := by
  unfold call effectOf
  cases h : ofName? name with
  | some b =>
    rw [← name_of_ofName? h]
    exact b.acts_run
  | none => exact acts_throw nofun

theorem run_call_of_unknown {name : String} (h : ofName? name = none) (f : Frame σ) :
    (call name).run f = (.error (.unknownFunction name), f) := by
  unfold call
  rw [h]
  rfl

/-- A call of a function by name.  Where it succeeds, the operands below those that it needs are as
they were, and at most one call is made to the host.  Where it fails, nothing is asked of the host,
and of the operands only those that it needs are taken.  An unknown name takes none. -/
theorem call_local (name : String) (operands : List Value) (host : Recorded σ) :
    let r := (call name).run ⟨operands, host⟩
    (r.1 = .ok () →
      ∃ b, ofName? name = some b ∧ b.effect.needs ≤ operands.length ∧
        (∃ results, results.length = b.effect.leaves ∧
          r.2.operands = results ++ operands.drop b.effect.needs) ∧
        ∃ asked, asked.length ≤ 1 ∧ r.2.host = Host.after host asked ∧
          r.2.host.calls = host.calls ++ asked) ∧
    (∀ e, r.1 = .error e →
      r.2.host = host ∧ r.2.operands = operands.drop (effectOf name).needs) ∧
    (ofName? name = none → r = (.error (.unknownFunction name), ⟨operands, host⟩)) := by
  have hacts := acts_call name operands host
  have hunknown (h : ofName? name = none) :
      (call name).run ⟨operands, host⟩ = (.error (.unknownFunction name), ⟨operands, host⟩) :=
    run_call_of_unknown h _
  generalize (call name).run ⟨operands, host⟩ = r at hacts hunknown ⊢
  rcases r with ⟨e | _, f⟩
  · exact ⟨nofun, fun _ _ => hacts.of_error, hunknown⟩
  · refine ⟨fun _ => ?_, nofun, hunknown⟩
    obtain ⟨b, hname⟩ : ∃ b, ofName? name = some b :=
      Option.ne_none_iff_exists'.1 fun h => by cases hunknown h
    rw [effectOf, hname] at hacts
    obtain ⟨hneeds, hresults, asked, hasked, -, hhost⟩ := hacts.of_ok
    have hcalls : f.host.calls = host.calls ++ asked := by rw [hhost, Recorded.calls_after]
    exact ⟨b, hname, hneeds, hresults, asked, hasked, hhost, hcalls⟩

/-- A parameter is set with both operands; an exchange is short of one; a shown number has taken the
text that is none; and an unknown name takes nothing. -/
theorem call_local_cases :
    let host : Recorded Page := ⟨{}, []⟩
    (∃ asked, asked.length ≤ 1 ∧
      ((call "pparamSet").run ⟨[.text "k", .integer 1, .absent], host⟩).2.host.calls =
        host.calls ++ asked) ∧
    ((call "swap").run ⟨[.integer 1], host⟩).2.operands = [] ∧
    ((call "decfmt").run ⟨[.text "#", .text "ten", .absent], host⟩).2.host = host ∧
    ((call "decfmt").run ⟨[.text "#", .text "ten", .absent], host⟩).2.operands = [.absent] ∧
    (call "nope").run ⟨[.absent], host⟩ = (.error (.unknownFunction "nope"), ⟨[.absent], host⟩) := by
  intro host
  obtain ⟨hset, -⟩ := call_local "pparamSet" [.text "k", .integer 1, .absent] host
  obtain ⟨-, hswap, -⟩ := call_local "swap" [.integer 1] host
  obtain ⟨-, hshown, -⟩ := call_local "decfmt" [.text "#", .text "ten", .absent] host
  obtain ⟨-, -, hunknown⟩ := call_local "nope" [.absent] host
  have hten : ((call "decfmt").run ⟨[.text "#", .text "ten", .absent], host⟩).1 =
      .error (.invalidNumber "ten") := by
    subst host
    cbv
  obtain ⟨b, -, -, -, asked, hasked, -, hcalls⟩ := hset rfl
  refine ⟨⟨asked, hasked, hcalls⟩, ?_, (hshown _ hten).1, ?_, hunknown (by decide)⟩
  · exact (hswap _ rfl).2
  · exact (hshown _ hten).2

end Builtin

/-- What an element does has its effect. -/
theorem Expression.acts_step (vars : Stacks) (e : Element) :
    Acts e e.effect (step vars e : Step σ Unit) := by
  cases e with
  | operator op =>
    refine .pop fun right => .pop fun left => ?_
    exact .compute (Value.failsWith_apply op left right) fun v => acts_push v
  | call name => exact Builtin.acts_call name
  | var name => exact .lift (Stacks.failsWith_peek name nofun vars) fun v => acts_push v
  | text | integer | double => exact acts_push _

end Stencil
