import Stencil.Page
import Stencil.Proofs.Host.Dialogue
import Stencil.Proofs.Piece.Steps
set_option autoImplicit false

/-!
# Formulas

A formula is an arithmetic expression as a tree, and its value is found by recursion
on the tree.  An echo tag has a formula in postfix order: run on operands, these
elements put the value of the formula on top of them or fail as the formula does
(`Expression.run_steps_of_value_eq_ok`, `Expression.run_steps_of_value_eq_error`), and
an echo of them writes this value or nothing at all (`Engine.run_echo_formula`).
-/

namespace Stencil

/-- An arithmetic expression: constants and variables, and operators on two expressions. -/
inductive Formula where
  | operand (e : Element) (he : e.isOperand = true)
  | binary (op : Operator) (left right : Formula)

namespace Formula

/-- The formula in postfix order. -/
def elements : Formula → List Element
  | operand e _ => [e]
  | binary op left right => left.elements ++ (right.elements ++ [.operator op])

/-- The value of the formula.  The left operand comes first, then the right one, then the
operator. -/
def value (vars : Stacks) : Formula → Except EvalError Value
  | operand e _ => e.value vars
  | binary op left right => do
    let a ← left.value vars
    let b ← right.value vars
    Value.apply op a b

variable {vars : Stacks} {op : Operator} {left right : Formula}

theorem value_binary_of_ok {a b : Value} (ha : left.value vars = .ok a)
    (hb : right.value vars = .ok b) : (binary op left right).value vars = Value.apply op a b := by
  simp only [value, ha, hb]
  rfl

/-- A formula of two operands fails for the first, for the second or for the operator. -/
theorem value_binary_eq_error {e : EvalError} (h : (binary op left right).value vars = .error e) :
    left.value vars = .error e ∨
      ∃ a, left.value vars = .ok a ∧
        (right.value vars = .error e ∨
          ∃ b, right.value vars = .ok b ∧ Value.apply op a b = .error e) := by
  cases ha : left.value vars with
  | error e' =>
    simp only [value, ha] at h
    exact .inl h
  | ok a =>
    cases hb : right.value vars with
    | error e' =>
      simp only [value, ha, hb] at h
      exact .inr ⟨a, rfl, .inl h⟩
    | ok b =>
      rw [value_binary_of_ok ha hb] at h
      exact .inr ⟨a, rfl, .inr ⟨b, rfl, h⟩⟩

end Formula

namespace Expression

variable {σ : Type} [Host σ] {vars : Stacks} {t : Formula}

/-! ## Steps -/

theorem run_step_of_isOperand (vars : Stacks) {e : Element} (he : e.isOperand = true)
    (f : Frame σ) :
    (step vars e).run f =
      match e.value vars with
      | .ok v => (.ok (), { f with operands := v :: f.operands })
      | .error e => (.error e, f) := by
  have hpush : (step vars e : Step σ Unit) = (do Step.push (← e.value vars)) := by
    cases e with
    | call | operator => cases he
    | _ => rfl
  rw [hpush]
  cases e.value vars <;> rfl

theorem run_step_operator (vars : Stacks) (op : Operator) (a b : Value) (operands : List Value)
    (host : σ) :
    (step vars (.operator op)).run ⟨b :: a :: operands, host⟩ =
      match Value.apply op a b with
      | .ok v => (.ok (), ⟨v :: operands, host⟩)
      | .error e => (.error e, ⟨operands, host⟩) := by
  have happly : (step vars (.operator op)).run ⟨b :: a :: operands, host⟩ =
      (do Step.push (← Value.apply op a b) : Step σ Unit).run ⟨operands, host⟩ := rfl
  rw [happly]
  cases Value.apply op a b <;> rfl

/-! ## Formulas on the operands -/

/-- A formula with a value puts it on the operands, and the elements behind it go on from there. -/
theorem run_steps_of_value_eq_ok {v : Value} (h : t.value vars = .ok v) (rest : List Element)
    (operands : List Value) (host : σ) :
    (steps vars (t.elements ++ rest)).run ⟨operands, host⟩ =
      (steps vars rest).run ⟨v :: operands, host⟩ := by
  induction t generalizing v rest operands with
  | operand e he =>
    have hv : e.value vars = .ok v := h
    rw [Formula.elements, List.singleton_append, steps, Step.run_bind,
      run_step_of_isOperand vars he, hv]
  | binary op left right ihl ihr =>
    obtain ⟨a, ha, h⟩ := bind_eq_ok_iff.1 h
    obtain ⟨b, hb, h⟩ := bind_eq_ok_iff.1 h
    rw [Formula.elements, List.append_assoc, List.append_assoc, ihl ha, ihr hb,
      List.singleton_append, steps, Step.run_bind, run_step_operator, h]

/-- A formula without a value fails, whatever comes behind it, and takes none of the operands below
it. -/
theorem run_steps_of_value_eq_error {e : EvalError} (h : t.value vars = .error e)
    (rest : List Element) (operands : List Value) (host : σ) :
    ∃ more, (steps vars (t.elements ++ rest)).run ⟨operands, host⟩ =
      (.error e, ⟨more ++ operands, host⟩) := by
  induction t generalizing rest operands with
  | operand a ha =>
    have hv : a.value vars = .error e := h
    refine ⟨[], ?_⟩
    rw [Formula.elements, List.singleton_append, steps, Step.run_bind,
      run_step_of_isOperand vars ha, hv]
    rfl
  | binary op left right ihl ihr =>
    rw [Formula.elements, List.append_assoc, List.append_assoc]
    rcases Formula.value_binary_eq_error h with hl | ⟨a, ha, hr | ⟨b, hb, happly⟩⟩
    · exact ihl hl _ operands
    · obtain ⟨more, hmore⟩ := ihr hr ([.operator op] ++ rest) (a :: operands)
      refine ⟨more ++ [a], ?_⟩
      rw [run_steps_of_value_eq_ok ha, hmore, List.append_assoc, List.singleton_append]
    · refine ⟨[], ?_⟩
      rw [run_steps_of_value_eq_ok ha, run_steps_of_value_eq_ok hb, List.singleton_append,
        steps, Step.run_bind, run_step_operator, happly]
      rfl

theorem run_steps_formula {v : Value} (h : t.value vars = .ok v) (operands : List Value)
    (host : σ) :
    (steps vars t.elements).run ⟨operands, host⟩ = (.ok (), ⟨v :: operands, host⟩) := by
  have hsteps := run_steps_of_value_eq_ok h [] operands host
  rwa [List.append_nil] at hsteps

/-! ## Echoes -/

/-- The echo of a formula with a value is the writing of this value. -/
theorem echo_of_value_eq_ok {v : Value} (h : t.value vars = .ok v) (host : σ) :
    echo vars t.elements host = write [v] host := by
  unfold echo
  rw [run_steps_formula h]
  rfl

/-- The echo of a formula without a value does nothing. -/
theorem echo_of_value_eq_error {e : EvalError} (h : t.value vars = .error e) (host : σ) :
    echo vars t.elements host = (.error e, host) := by
  obtain ⟨more, hsteps⟩ := run_steps_of_value_eq_error h [] [] host
  rw [List.append_nil] at hsteps
  unfold echo
  rw [hsteps]

end Expression

namespace Engine

variable {σ : Type} [Host σ]

theorem run_echo_of_value_eq_ok (b : Bounds) {t : Formula} {m : Machine σ} {v : Value}
    (h : t.value m.vars = .ok v) (hwrite : (Host.answer (.write v.display) m.host).1 = .ok ()) :
    run b (.echo t.elements) m =
      (.ok (), { m with host := (Host.answer (.write v.display) m.host).2 }) := by
  rcases hanswer : Host.answer (.write v.display) m.host with ⟨r, host⟩
  rw [hanswer] at hwrite
  obtain rfl : r = .ok () := hwrite
  simp only [run, onHost, Expression.echo_of_value_eq_ok h, Expression.write, hanswer]
  rfl

theorem run_echo_of_value_eq_error (b : Bounds) {t : Formula} {m : Machine σ} {e : EvalError}
    (h : t.value m.vars = .error e) :
    run b (.echo t.elements) m = (.error (.failed e), m) := by
  simp only [run, onHost, Expression.echo_of_value_eq_error h]
  rfl

/-- The echo of a formula in postfix order.  Where the host takes the text, the echo succeeds exactly
if the formula has a value, with the text of this value as its only call.  Else it fails as the
formula does and nothing is changed.  On operands that are there before, the elements put the value
on top of them, whatever stands behind, or fail and take none of them. -/
theorem run_echo_formula (b : Bounds) (t : Formula) (m : Machine (Recorded σ)) :
    ((∀ v, t.value m.vars = .ok v → (Host.answer (.write v.display) m.host).1 = .ok ()) →
      ((run b (.echo t.elements) m).1 = .ok () ↔ ∃ v, t.value m.vars = .ok v)) ∧
    (∀ v, t.value m.vars = .ok v → (Host.answer (.write v.display) m.host).1 = .ok () →
      run b (.echo t.elements) m =
          (.ok (), { m with host := (Host.answer (.write v.display) m.host).2 }) ∧
        (run b (.echo t.elements) m).2.host.calls = m.host.calls ++ [.write v.display]) ∧
    (∀ e, t.value m.vars = .error e → run b (.echo t.elements) m = (.error (.failed e), m)) ∧
    ∀ rest operands,
      (∀ v, t.value m.vars = .ok v →
        (Expression.steps m.vars (t.elements ++ rest)).run ⟨operands, m.host⟩ =
          (Expression.steps m.vars rest).run ⟨v :: operands, m.host⟩) ∧
      ∀ e, t.value m.vars = .error e →
        ∃ more, (Expression.steps m.vars (t.elements ++ rest)).run ⟨operands, m.host⟩ =
          (.error e, ⟨more ++ operands, m.host⟩) := by
  refine ⟨?_, ?_, fun e he => run_echo_of_value_eq_error b he, fun rest operands => ⟨?_, ?_⟩⟩
  · intro haccepts
    cases h : t.value m.vars with
    | ok v =>
      rw [run_echo_of_value_eq_ok b h (haccepts v h)]
      exact iff_of_true rfl ⟨v, rfl⟩
    | error e =>
      rw [run_echo_of_value_eq_error b h]
      exact iff_of_false nofun nofun
  · intro v h hwrite
    have hrun := run_echo_of_value_eq_ok b h hwrite
    refine ⟨hrun, ?_⟩
    rw [hrun]
    exact Recorded.calls_answer _ m.host
  · exact fun v h => Expression.run_steps_of_value_eq_ok h rest operands m.host
  · exact fun e h => Expression.run_steps_of_value_eq_error h rest operands m.host

/-- `(7 - i) / 2`, and `"x" / 0 + k` with no `k`: dividing by zero comes before both the text that is
no number and the variable that has no value. -/
theorem run_echo_formula_nested :
    let m : Machine (Recorded Page) := ⟨({} : Stacks).push "i" (.text "3"), ⟨{}, []⟩⟩
    let t := Formula.binary .div
      (.binary .sub (.operand (.integer 7) rfl) (.operand (.var "i") rfl))
      (.operand (.integer 2) rfl)
    let u := Formula.binary .add
      (.binary .div (.operand (.text "x") rfl) (.operand (.integer 0) rfl))
      (.operand (.var "k") rfl)
    t.elements = [.integer 7, .var "i", .operator .sub, .integer 2, .operator .div] ∧
      (run ⟨none, 0⟩ (.echo t.elements) m).1 = .ok () ∧
      (run ⟨none, 0⟩ (.echo t.elements) m).2.host.calls = [.write "2"] ∧
      run ⟨none, 0⟩ (.echo u.elements) m = (.error (.failed .divisionByZero), m) ∧
      (Expression.steps m.vars (t.elements ++ [.call "dup"])).run ⟨[.absent], m.host⟩ =
        (.ok (), ⟨[.integer 2, .integer 2, .absent], m.host⟩) ∧
      ∃ more, (Expression.steps m.vars (u.elements ++ [.call "dup"])).run ⟨[.absent], m.host⟩ =
        (.error .divisionByZero, ⟨more ++ [.absent], m.host⟩) := by
  intro m t u
  have ht : t.value m.vars = .ok (.integer 2) := by
    subst t m
    cbv
  have hu : u.value m.vars = .error .divisionByZero := by
    subst u m
    cbv
  have haccepts : ∀ v : Value, (Host.answer (.write v.display) m.host).1 = .ok () := fun _ => rfl
  obtain ⟨hiff, hwrites, -, hsteps⟩ := run_echo_formula ⟨none, 0⟩ t m
  obtain ⟨-, -, hfails, hstops⟩ := run_echo_formula ⟨none, 0⟩ u m
  have hcalls := (hwrites _ ht (haccepts _)).2
  have hdup := (hsteps [.call "dup"] [.absent]).1 _ ht
  refine ⟨rfl, (hiff fun v _ => haccepts v).2 ⟨_, ht⟩, ?_, hfails _ hu, ?_,
    (hstops _ _).2 _ hu⟩
  · rw [hcalls]
    cbv
  · rw [hdup]
    cbv

end Engine

end Stencil
