import Stencil.Proofs.Engine.Scoped
import Stencil.Proofs.Host.Dialogue
set_option autoImplicit false

/-!
# Causes of errors

What an expression can fail with.  Arithmetic fails for its operands
(`EvalError.IsOfOperands`); arithmetic, functions and the host fail for the values that
they are given (`EvalError.IsOfValues`).  A variable fails where its name
is not in scope, and a call or an operator where a value is needed; so an expression
fails for a value or for a name that is not in scope (`Scoped.echo_error`), and the
header of a loop for a name that is not in scope or for an argument that is no value
(`Scoped.range_error`).
-/

namespace Stencil

/-- The cause lies in values, in a function or in the host: not in the scope of a name, in the place
of an element or in the number of iterations. -/
def EvalError.IsOfValues : EvalError → Prop
  | emptyStack _ | notAValue _ | iterationLimit _ _ => False
  | _ => True

/-- The cause lies in the operands that an operator or a function has taken. -/
def EvalError.IsOfOperands : EvalError → Prop
  | invalidNumber _ | divisionByZero | overflow _ | invalidFormat _ => True
  | _ => False

theorem EvalError.IsOfOperands.isOfValues {e : EvalError} (h : e.IsOfOperands) : e.IsOfValues := by
  cases e with
  | emptyStack | notAValue | iterationLimit => exact h.elim
  | _ => trivial

/-- The bounds of the run are what ended it. -/
def Stop.IsOfBounds : Stop → Prop
  | outOfFuel => True
  | failed (.iterationLimit _ _) => True
  | failed _ => False

theorem EvalError.IsOfValues.not_isOfBounds {e : EvalError} (h : e.IsOfValues) :
    ¬ (Stop.failed e).IsOfBounds := by
  cases e with
  | iterationLimit => exact h.elim
  | _ => exact id

/-- Every error that the result may be has the property. -/
def FailsWith {α : Type} (P : EvalError → Prop) (r : Except EvalError α) : Prop :=
  ∀ e, r = .error e → P e

namespace FailsWith

variable {α β : Type} {P Q : EvalError → Prop}

theorem ok (a : α) : FailsWith P (.ok a) := nofun

theorem error {e : EvalError} (h : P e) : FailsWith P (.error e : Except EvalError α) := by
  rintro _ ⟨⟩
  exact h

theorem mono {r : Except EvalError α} (h : FailsWith P r) (hPQ : ∀ e, P e → Q e) : FailsWith Q r :=
  fun e he => hPQ e (h e he)

theorem bind {r : Except EvalError α} {f : α → Except EvalError β} (hr : FailsWith P r)
    (hf : ∀ a, FailsWith P (f a)) : FailsWith P (r >>= f) := by
  cases r with
  | error e => exact error (hr e rfl)
  | ok a => exact hf a

theorem map {r : Except EvalError α} (hr : FailsWith P r) (f : α → β) : FailsWith P (r.map f) := by
  cases r with
  | error e => exact error (hr e rfl)
  | ok a => exact ok (f a)

end FailsWith

/-! ## Values -/

namespace Value

open EvalError (IsOfOperands)

theorem failsWith_toNumber (v : Value) : FailsWith IsOfOperands v.toNumber := by
  cases v with
  | text s =>
    simp only [toNumber]
    cases Number.ofText? s.toList with
    | some n => exact .ok n
    | none => exact .error trivial
  | _ => exact .ok _

theorem failsWith_exactInteger (op : Operator) (n : Int) :
    FailsWith IsOfOperands (exactInteger op n) := by
  unfold exactInteger
  cases toInt64? n with
  | some i => exact .ok _
  | none => exact .error trivial

theorem failsWith_operands (a b : Value) : FailsWith IsOfOperands (operands a b) :=
  a.failsWith_toNumber.bind fun _ => b.failsWith_toNumber.bind fun _ => .ok _

theorem failsWith_combine (op : Operator) (f : Int → Int → Int) (g : Float → Float → Float)
    (a b : Value) : FailsWith IsOfOperands (combine op f g a b) := by
  refine (failsWith_operands a b).bind ?_
  rintro ⟨_ | _, _ | _⟩
  · exact failsWith_exactInteger op _
  all_goals exact .ok _

theorem failsWith_order (a b : Value) : FailsWith IsOfOperands (order a b) :=
  (failsWith_operands a b).bind fun _ => .ok _

theorem failsWith_add (a b : Value) : FailsWith IsOfOperands (add a b) :=
  failsWith_combine _ _ _ a b

theorem failsWith_divide (a b : Value) : FailsWith IsOfOperands (divide a b) := by
  refine b.failsWith_toNumber.bind fun y => ?_
  by_cases hy : y.isZero = true
  · rw [if_pos hy]
    exact .error trivial
  · rw [if_neg hy]
    exact failsWith_combine _ _ _ a b

theorem failsWith_power (a b : Value) : FailsWith IsOfOperands (power a b) := by
  refine (failsWith_operands a b).bind ?_
  rintro ⟨m | x, n | y⟩
  · dsimp only
    split
    · cases integerPower m.toInt n.toInt.toNat with
      | some r => exact failsWith_exactInteger .pow r
      | none => exact .error trivial
    · exact .ok _
  all_goals exact .ok _

/-- An operator fails for its operands only. -/
theorem failsWith_apply (op : Operator) (a b : Value) : FailsWith IsOfOperands (apply op a b) := by
  cases op with
  | add | sub | mul => exact failsWith_combine _ _ _ a b
  | div => exact failsWith_divide a b
  | pow => exact failsWith_power a b

end Value

theorem DecimalFormat.failsWith_apply (pattern : String) (n : Number) :
    FailsWith EvalError.IsOfOperands (apply pattern n) := by
  unfold apply
  cases ofPattern? pattern.toList with
  | some f => exact .ok _
  | none => exact .error trivial

/-! ## Stacks -/

namespace Stacks

variable {P : EvalError → Prop}

theorem failsWith_peek (name : String) (h : P (.emptyStack name)) (s : Stacks) :
    FailsWith P (s.peek name) := by
  rw [peek_eq]
  cases s.values name with
  | nil => exact .error h
  | cons v vs => exact .ok v

theorem failsWith_pop (name : String) (h : P (.emptyStack name)) (s : Stacks) :
    FailsWith P (s.pop name) :=
  (failsWith_peek name h s).map _

theorem failsWith_update (name : String) (h : P (.emptyStack name))
    {f : Value → Except EvalError Value} (hf : ∀ v, FailsWith P (f v)) (s : Stacks) :
    FailsWith P (s.update name f) :=
  (failsWith_peek name h s).bind fun v => (hf v).bind fun _ => .ok _

end Stacks

/-! ## Steps -/

namespace Step

variable {σ α β : Type} {P : EvalError → Prop}

/-- From every frame, the errors of the step have the property. -/
def FailsWith (P : EvalError → Prop) (x : Step σ α) : Prop :=
  ∀ f : Frame σ, Stencil.FailsWith P (x.run f).1

theorem failsWith_throw {e : EvalError} (h : P e) : FailsWith P (throw e : Step σ α) :=
  fun _ => .error h

theorem failsWith_lift {r : Except EvalError α} (h : Stencil.FailsWith P r) :
    FailsWith P (liftM r : Step σ α) := by
  intro f
  cases r with
  | error e => exact .error (h e rfl)
  | ok a => exact .ok a

theorem FailsWith.bind {x : Step σ α} {k : α → Step σ β} (hx : FailsWith P x)
    (hk : ∀ a, FailsWith P (k a)) : FailsWith P (x >>= k) := by
  intro f
  have hxf := hx f
  rw [run_bind]
  rcases hrun : x.run f with ⟨e | a, f'⟩ <;> rw [hrun] at hxf
  · exact .error (hxf e rfl)
  · exact hk a f'

theorem failsWith_pop {consumer : Element} (h : P (.operandUnderflow consumer)) :
    FailsWith P (pop consumer : Step σ Value) := by
  rintro ⟨operands, host⟩
  cases operands with
  | nil => exact .error h
  | cons v vs => exact .ok v

theorem failsWith_push (v : Value) : FailsWith P (push v : Step σ Unit) := fun _ => .ok ()

theorem failsWith_ask [Host σ] (c : Call) : FailsWith P (ask c : Step σ c.Answer) := fun _ => .ok _

end Step

open EvalError (IsOfValues IsOfOperands)
open Step

variable {σ : Type} [Host σ]

/-- A function fails for its operands only. -/
theorem Builtin.failsWith_run (b : Builtin) : Step.FailsWith IsOfValues (b.run : Step σ Unit) := by
  have hpop : Step.FailsWith IsOfValues (pop (.call b.name) : Step σ Value) := failsWith_pop trivial
  cases b with
  | sin =>
    refine hpop.bind fun v => ?_
    have hnumber := (v.failsWith_toNumber.map Number.toFloat).mono fun _ => IsOfOperands.isOfValues
    exact (failsWith_lift hnumber).bind fun _ => failsWith_push _
  | decimalFormat =>
    refine hpop.bind fun pattern => hpop.bind fun v => ?_
    have hnumber := v.failsWith_toNumber.mono fun _ => IsOfOperands.isOfValues
    refine (failsWith_lift hnumber).bind fun n => ?_
    have hshown := (DecimalFormat.failsWith_apply pattern.display n).mono fun _ =>
      IsOfOperands.isOfValues
    exact (failsWith_lift hshown).bind fun _ => failsWith_push _
  | dup => exact hpop.bind fun top => (failsWith_push top).bind fun _ => failsWith_push top
  | swap =>
    refine hpop.bind fun top => hpop.bind fun below => ?_
    exact (failsWith_push top).bind fun _ => failsWith_push below
  | setMimeType => exact hpop.bind fun _ => failsWith_ask _
  | get scope =>
    refine hpop.bind fun otherwise => hpop.bind fun key => ?_
    exact (failsWith_ask _).bind fun _ => failsWith_push _
  | set store => exact hpop.bind fun _ => hpop.bind fun _ => failsWith_ask _
  | delete store => exact hpop.bind fun _ => failsWith_ask _

theorem Builtin.failsWith_call (name : String) :
    Step.FailsWith IsOfValues (call name : Step σ Unit) := by
  unfold call
  cases ofName? name with
  | some b => exact b.failsWith_run
  | none => exact failsWith_throw trivial

/-! ## Expressions and headers -/

namespace Scoped

/-- One of the elements is a variable that is not in scope, and this is the cause. -/
def IsUnbound (env : Env) (es : List Element) (e : EvalError) : Prop :=
  ∃ name, .var name ∈ es ∧ env name = none ∧ e = .emptyStack name

/-- One of the elements stands for no value, and this is the cause. -/
def IsMisplaced (es : List Element) (e : EvalError) : Prop :=
  ∃ a ∈ es, a.isOperand = false ∧ e = .notAValue a

theorem IsUnbound.mono {env : Env} {as es : List Element} {e : EvalError} (h : IsUnbound env as e)
    (has : as ⊆ es) : IsUnbound env es e := by
  obtain ⟨name, hname, he⟩ := h
  exact ⟨name, has hname, he⟩

/-- An element has no value when it is a variable out of scope, a call or an operator. -/
theorem failsWith_value (env : Env) (a : Element) :
    FailsWith (fun e => IsUnbound env [a] e ∨ IsMisplaced [a] e) (value env a) := by
  cases a with
  | var name =>
    simp only [value]
    cases hname : env name with
    | some v => exact .ok v
    | none => exact .error (Or.inl ⟨name, List.mem_cons_self, hname, rfl⟩)
  | call _ | operator _ => exact .error (Or.inr ⟨_, List.mem_cons_self, rfl, rfl⟩)
  | _ => exact .ok _

theorem failsWith_step (env : Env) {es : List Element} {a : Element} (ha : a ∈ es) :
    Step.FailsWith (fun e => e.IsOfValues ∨ IsUnbound env es e) (step env a : Step σ Unit) := by
  have hvalue (hoperand : a.isOperand = true) :
      Step.FailsWith (fun e => e.IsOfValues ∨ IsUnbound env es e)
        (do push (← value env a) : Step σ Unit) := by
    refine (failsWith_lift ((failsWith_value env a).mono ?_)).bind fun v => failsWith_push v
    rintro e (hunbound | ⟨b, hb, hno, -⟩)
    · exact .inr (hunbound.mono (List.cons_subset.2 ⟨ha, List.nil_subset es⟩))
    · rw [List.mem_singleton.1 hb, hoperand] at hno
      cases hno
  cases a with
  | operator op =>
    have hpop : Step.FailsWith (fun e => e.IsOfValues ∨ IsUnbound env es e)
        (pop (.operator op) : Step σ Value) := failsWith_pop (.inl trivial)
    refine hpop.bind fun right => hpop.bind fun left => ?_
    refine (failsWith_lift ?_).bind fun v => failsWith_push v
    exact (Value.failsWith_apply op left right).mono fun _ h => .inl h.isOfValues
  | call name => exact fun f => (Builtin.failsWith_call name f).mono fun _ => .inl
  | _ => exact hvalue rfl

theorem failsWith_steps (env : Env) {es : List Element} (as : List Element) (has : as ⊆ es) :
    Step.FailsWith (fun e => e.IsOfValues ∨ IsUnbound env es e) (steps env as : Step σ Unit) := by
  induction as with
  | nil => exact fun _ => .ok ()
  | cons a as ih =>
    obtain ⟨ha, has⟩ := List.cons_subset.1 has
    exact (failsWith_step env ha).bind fun _ => ih has

theorem failsWith_write (vs : List Value) (host : σ) :
    FailsWith IsOfValues (Expression.write vs host).1 := by
  induction vs generalizing host with
  | nil => exact .ok ()
  | cons v vs ih =>
    unfold Expression.write
    rcases Host.answer (.write v.display) host with ⟨_ | _, host'⟩
    · exact .error trivial
    · exact ih host'

/-- An expression fails for a value, or for one of its variables that is not in scope. -/
theorem echo_error (env : Env) (es : List Element) (host : σ) :
    FailsWith (fun e => e.IsOfValues ∨ IsUnbound env es e) (echo env es host).1 := by
  have hsteps := failsWith_steps (σ := σ) env es (List.Subset.refl es) ⟨[], host⟩
  unfold echo
  rcases hrun : (steps env es : Step σ Unit).run ⟨[], host⟩ with ⟨e | _, f⟩ <;> rw [hrun] at hsteps
  · exact .error (hsteps e rfl)
  · exact (failsWith_write f.operands.reverse f.host).mono fun _ => .inl

/-- The header of a loop fails for an argument that is a variable out of scope or no value. -/
theorem range_error (env : Env) (h : LoopHeader) :
    FailsWith (fun e => IsUnbound env h.arguments e ∨ IsMisplaced h.arguments e) (range env h) := by
  have hvalue : ∀ a ∈ h.arguments,
      FailsWith (fun e => IsUnbound env h.arguments e ∨ IsMisplaced h.arguments e) (value env a) := by
    intro a ha
    have hsub : [a] ⊆ h.arguments := List.cons_subset.2 ⟨ha, List.nil_subset _⟩
    refine (failsWith_value env a).mono ?_
    rintro e (hunbound | ⟨b, hb, hno⟩)
    · exact .inl (hunbound.mono hsub)
    · exact .inr ⟨b, hsub hb, hno⟩
  obtain ⟨name, start, stop, step⟩ := h
  cases step with
  | none =>
    exact (hvalue start (by simp [LoopHeader.arguments])).bind fun _ =>
      (hvalue stop (by simp [LoopHeader.arguments])).bind fun _ => .ok _
  | some e =>
    exact (hvalue start (by simp [LoopHeader.arguments])).bind fun _ =>
      (hvalue stop (by simp [LoopHeader.arguments])).bind fun _ =>
        (hvalue e (by simp [LoopHeader.arguments])).bind fun _ => .ok _

end Scoped

end Stencil
