import Stencil.Value
set_option autoImplicit false

/-!
# Named stacks

Every name has a stack of values.  All stacks are kept in one list of bindings,
the latest first, so a name whose stack was emptied does not differ from one that
was never used.  `Stacks.values` shows the stack of one name; what an operation
does to it is stated beside the operation.
-/

namespace Stencil

/-- A stack of values for every name. -/
structure Stacks where
  bindings : List (String × Value) := []
  deriving DecidableEq

namespace Stacks

/-- The stack of a name, its top first. -/
def values (name : String) (s : Stacks) : List Value :=
  (s.bindings.filter (·.1 == name)).map (·.2)

/-- The name has no value. -/
def isEmpty (name : String) (s : Stacks) : Bool := !s.bindings.any (·.1 == name)

/-- A value put on the stack of a name. -/
def push (name : String) (v : Value) (s : Stacks) : Stacks := ⟨(name, v) :: s.bindings⟩

/-- The top of the stack of a name. -/
def peek (name : String) (s : Stacks) : Except EvalError Value :=
  match s.bindings.find? (·.1 == name) with
  | some (_, v) => .ok v
  | none => .error (.emptyStack name)

/-- The top of the stack of a name, and the stacks without it. -/
def pop (name : String) (s : Stacks) : Except EvalError (Value × Stacks) :=
  (s.peek name).map fun v => (v, ⟨s.bindings.eraseP (·.1 == name)⟩)

/-- The bindings with the first value of a name replaced. -/
def replaceFirst (name : String) (v : Value) : List (String × Value) → List (String × Value)
  | [] => []
  | b :: bs => if b.1 == name then (b.1, v) :: bs else b :: replaceFirst name v bs

/-- The stacks with the top of the stack of a name replaced by what `f` makes of it. -/
def update (name : String) (f : Value → Except EvalError Value) (s : Stacks) :
    Except EvalError Stacks := do
  let v ← s.peek name
  let w ← f v
  return ⟨replaceFirst name w s.bindings⟩

/-! ## The stack of one name -/

theorem values_push_self (name : String) (v : Value) (s : Stacks) :
    (s.push name v).values name = v :: s.values name := by
  simp [push, values]

theorem values_push_of_ne {name other : String} (h : other ≠ name) (v : Value) (s : Stacks) :
    (s.push other v).values name = s.values name := by
  simp [push, values, h]

theorem isEmpty_iff (name : String) (s : Stacks) :
    s.isEmpty name = true ↔ s.values name = [] := by
  simp [isEmpty, values]

theorem peek_eq (name : String) (s : Stacks) :
    s.peek name = match s.values name with
      | [] => .error (.emptyStack name)
      | v :: _ => .ok v := by
  obtain ⟨bs⟩ := s
  induction bs with
  | nil => rfl
  | cons b bs ih =>
    by_cases h : b.1 = name
    · simp [peek, values, h]
    · simpa [peek, values, h] using ih

/-- What was put on a stack last is taken off first. -/
theorem pop_push (name : String) (v : Value) (s : Stacks) :
    (s.push name v).pop name = .ok (v, s) := by
  simp [pop, push, peek, Except.map]

theorem filter_eraseP_self (name : String) (bs : List (String × Value)) :
    (bs.eraseP (·.1 == name)).filter (·.1 == name) = (bs.filter (·.1 == name)).tail := by
  induction bs with
  | nil => rfl
  | cons b bs ih => by_cases h : b.1 = name <;> simp [h, ih]

theorem filter_eraseP_of_ne {name other : String} (h : other ≠ name) (bs : List (String × Value)) :
    (bs.eraseP (·.1 == other)).filter (·.1 == name) = bs.filter (·.1 == name) := by
  induction bs with
  | nil => rfl
  | cons b bs ih =>
    by_cases hb : b.1 = other
    · simp [hb, h]
    · simp [List.filter_cons, hb, ih]

theorem eq_erased_of_pop {name : String} {v : Value} {s s' : Stacks}
    (h : s.pop name = .ok (v, s')) : s' = ⟨s.bindings.eraseP (·.1 == name)⟩ := by
  unfold pop at h
  cases hp : s.peek name with
  | error e => simp [hp, Except.map] at h
  | ok w =>
    simp only [hp, Except.map, Except.ok.injEq, Prod.mk.injEq] at h
    exact h.2.symm

/-- Taking a value off leaves what stood below it. -/
theorem values_pop_self {name : String} {v : Value} {s s' : Stacks}
    (h : s.pop name = .ok (v, s')) : s'.values name = (s.values name).tail := by
  simp [eq_erased_of_pop h, values, filter_eraseP_self]

theorem values_pop_of_ne {name other : String} (hne : other ≠ name) {v : Value} {s s' : Stacks}
    (h : s.pop other = .ok (v, s')) : s'.values name = s.values name := by
  simp [eq_erased_of_pop h, values, filter_eraseP_of_ne hne]

theorem filter_replaceFirst_of_ne {name other : String} (h : other ≠ name) (v : Value)
    (bs : List (String × Value)) :
    (replaceFirst other v bs).filter (·.1 == name) = bs.filter (·.1 == name) := by
  induction bs with
  | nil => rfl
  | cons b bs ih =>
    by_cases hb : b.1 = other
    · simp [replaceFirst, hb, h]
    · simp [replaceFirst, List.filter_cons, hb, ih]

theorem values_replaceFirst_self {name : String} {v w : Value} {bs : List (String × Value)}
    (h : peek name ⟨bs⟩ = .ok v) :
    values name ⟨replaceFirst name w bs⟩ = w :: (values name ⟨bs⟩).tail := by
  induction bs with
  | nil => simp [peek] at h
  | cons b bs ih =>
    by_cases hb : b.1 = name
    · simp [replaceFirst, values, hb]
    · have hp : peek name ⟨bs⟩ = .ok v := by simpa [peek, hb] using h
      simpa [replaceFirst, values, hb] using ih hp

/-- An update changes the top of one stack to what the function makes of it. -/
theorem values_update_self {name : String} {f : Value → Except EvalError Value} {s s' : Stacks}
    (h : s.update name f = .ok s') :
    ∃ v w, s.peek name = .ok v ∧ f v = .ok w ∧ s'.values name = w :: (s.values name).tail := by
  unfold update at h
  cases hp : s.peek name with
  | error e => simp [hp, bind, Except.bind] at h
  | ok v =>
    cases hf : f v with
    | error e => simp [hp, hf, bind, Except.bind] at h
    | ok w =>
      simp only [hp, hf, bind, Except.bind, pure, Except.pure, Except.ok.injEq] at h
      exact ⟨v, w, rfl, hf, h ▸ values_replaceFirst_self hp⟩

theorem values_update_of_ne {name other : String} (hne : other ≠ name)
    {f : Value → Except EvalError Value} {s s' : Stacks} (h : s.update other f = .ok s') :
    s'.values name = s.values name := by
  unfold update at h
  cases hp : s.peek other with
  | error e => simp [hp, bind, Except.bind] at h
  | ok v =>
    cases hf : f v with
    | error e => simp [hp, hf, bind, Except.bind] at h
    | ok w =>
      simp only [hp, hf, bind, Except.bind, pure, Except.pure, Except.ok.injEq] at h
      simp [← h, values, filter_replaceFirst_of_ne hne]

end Stacks

end Stencil
