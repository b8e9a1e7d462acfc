import Mathlib
import Stencil.Stacks
set_option autoImplicit false

/-!
# Commanding stacks

Stacks can be told to carry out operations on any names, in any order and also after
failures.  A view of what is kept may show some names and hide the others; then it
is kept by the commands about the names that it shows, and these give the same
answers there (`StackStore.log_filter`, `StackStore.run_filter`).  Two such views of
`Stacks` are the stack of one name as a plain list, `Stacks.pile`, and everything but
that stack, `Stacks.without`.
-/

namespace Stencil

/-- What is done to one stack. -/
inductive Operation where
  | push (v : Value)
  /-- the top is taken off -/
  | pop
  /-- the top is looked at -/
  | peek
  /-- the top is replaced by what the function makes of it, or stays where that fails -/
  | update (f : Value → Except EvalError Value)
  | isEmpty

/-- An operation on the stack of a name. -/
structure Command where
  name : String
  op : Operation

/-- What an operation answers when it succeeds. -/
inductive Reply where
  | done
  | value (v : Value)
  | flag (b : Bool)
  deriving DecidableEq

/-- Something that keeps stacks by their names. -/
class StackStore (σ : Type) where
  push : String → Value → σ → σ
  pop : String → σ → Except EvalError (Value × σ)
  peek : String → σ → Except EvalError Value
  update : String → (Value → Except EvalError Value) → σ → Except EvalError σ
  isEmpty : String → σ → Bool

namespace StackStore

section Commands

variable {σ : Type} [StackStore σ]

/-- The answer to a command, and what is kept after it.  A command that fails changes nothing. -/
def obey (s : σ) (c : Command) : Except EvalError Reply × σ :=
  match c.op with
  | .push v => (.ok .done, push c.name v s)
  | .pop =>
    match pop c.name s with
    | .ok (v, s') => (.ok (.value v), s')
    | .error e => (.error e, s)
  | .peek => ((peek c.name s).map .value, s)
  | .update f =>
    match update c.name f s with
    | .ok s' => (.ok .done, s')
    | .error e => (.error e, s)
  | .isEmpty => (.ok (.flag (isEmpty c.name s)), s)

theorem obey_of_error {s : σ} {c : Command} {e : EvalError} (h : (obey s c).1 = .error e) :
    (obey s c).2 = s := by
  obtain ⟨name, op⟩ := c
  cases op with
  | push v => cases h
  | pop =>
    simp only [obey] at h ⊢
    split at h
    · cases h
    · rfl
  | update f =>
    simp only [obey] at h ⊢
    split at h
    · cases h
    · rfl
  | peek | isEmpty => rfl

/-- What is kept after commands in a row. -/
def run (s : σ) (cs : List Command) : σ := cs.foldl (fun s c => (obey s c).2) s

/-- The answers to commands in a row, each with the name that it is about. -/
def log (s : σ) : List Command → List (String × Except EvalError Reply)
  | [] => []
  | c :: cs => (c.name, (obey s c).1) :: log (obey s c).2 cs

@[simp] theorem run_nil (s : σ) : run s [] = s := rfl

@[simp] theorem run_cons (s : σ) (c : Command) (cs : List Command) :
    run s (c :: cs) = run (obey s c).2 cs := rfl

end Commands

/-! ## Views -/

section Views

variable {σ τ : Type} [StackStore σ] [StackStore τ]

/-- The operations on the name do to the view what they do to the whole, with the same answers. -/
structure Shows (view : σ → τ) (name : String) : Prop where
  push : ∀ v s, push name v (view s) = view (push name v s)
  pop : ∀ s, pop name (view s) = (pop name s).map fun r => (r.1, view r.2)
  peek : ∀ s, peek name (view s) = peek name s
  update : ∀ f s, update name f (view s) = (update name f s).map view
  isEmpty : ∀ s, isEmpty name (view s) = isEmpty name s

/-- The operations on the name do nothing to the view. -/
structure Hides (view : σ → τ) (name : String) : Prop where
  push : ∀ v s, view (push name v s) = view s
  pop : ∀ {v s s'}, pop name s = .ok (v, s') → view s' = view s
  update : ∀ {f s s'}, update name f s = .ok s' → view s' = view s

variable {view : σ → τ} {c : Command}

theorem Shows.obey (h : Shows view c.name) (s : σ) :
    obey (view s) c = ((obey s c).1, view (obey s c).2) := by
  obtain ⟨name, op⟩ := c
  cases op with
  | push v => exact congrArg (Prod.mk _) (h.push v s)
  | pop =>
    simp only [StackStore.obey, h.pop]
    cases StackStore.pop name s <;> rfl
  | peek => exact congrArg (fun r => (Except.map _ r, view s)) (h.peek s)
  | update f =>
    simp only [StackStore.obey, h.update]
    cases StackStore.update name f s <;> rfl
  | isEmpty => exact congrArg (fun b => (Except.ok (Reply.flag b), view s)) (h.isEmpty s)

omit [StackStore τ] in
theorem Hides.obey (h : Hides view c.name) (s : σ) : view (obey s c).2 = view s := by
  obtain ⟨name, op⟩ := c
  cases op with
  | push v => exact h.push v s
  | pop =>
    simp only [StackStore.obey]
    split
    · rename_i hpop
      exact h.pop hpop
    · rfl
  | update f =>
    simp only [StackStore.obey]
    split
    · rename_i hupdate
      exact h.update hupdate
    · rfl
  | peek | isEmpty => rfl

variable {p : String → Bool} (hshows : ∀ name, p name = true → Shows view name)
  (hhides : ∀ name, p name = false → Hides view name)

include hshows hhides

/-- A view is kept by the commands about the names that it shows. -/
theorem run_filter (s : σ) (cs : List Command) :
    run (view s) (cs.filter (p ·.name)) = view (run s cs) := by
  induction cs generalizing s with
  | nil => rfl
  | cons c cs ih =>
    cases hp : p c.name with
    | true =>
      rw [List.filter_cons, if_pos hp, run_cons, run_cons, (hshows c.name hp).obey]
      exact ih _
    | false =>
      rw [List.filter_cons, if_neg (ne_true_of_eq_false hp), run_cons, ← (hhides c.name hp).obey s]
      exact ih _

/-- The answers about the names that a view shows are those to the commands about them. -/
theorem log_filter (s : σ) (cs : List Command) :
    log (view s) (cs.filter (p ·.name)) = (log s cs).filter (p ·.1) := by
  induction cs generalizing s with
  | nil => rfl
  | cons c cs ih =>
    cases hp : p c.name with
    | true =>
      rw [List.filter_cons, if_pos hp, log, log, List.filter_cons, if_pos hp,
        (hshows c.name hp).obey]
      exact congrArg _ (ih _)
    | false =>
      rw [List.filter_cons, if_neg (ne_true_of_eq_false hp), log, List.filter_cons,
        if_neg (ne_true_of_eq_false hp), ← (hhides c.name hp).obey s]
      exact ih _

end Views

end StackStore

instance : StackStore Stacks :=
  ⟨Stacks.push, Stacks.pop, Stacks.peek, Stacks.update, Stacks.isEmpty⟩

/-! ## A plain list -/

/-- The stack of one name as a plain list, its top first.  The name appears in errors only. -/
structure Pile where
  values : List Value := []
  deriving DecidableEq

namespace Pile

/-- A value put on top. -/
def push (_ : String) (v : Value) (p : Pile) : Pile := ⟨v :: p.values⟩

/-- The top, and what stands below it. -/
def pop (name : String) (p : Pile) : Except EvalError (Value × Pile) :=
  match p.values with
  | [] => .error (.emptyStack name)
  | v :: below => .ok (v, ⟨below⟩)

/-- The top. -/
def peek (name : String) (p : Pile) : Except EvalError Value :=
  match p.values with
  | [] => .error (.emptyStack name)
  | v :: _ => .ok v

/-- The pile with its top replaced by what `f` makes of it. -/
def update (name : String) (f : Value → Except EvalError Value) (p : Pile) :
    Except EvalError Pile :=
  match p.values with
  | [] => .error (.emptyStack name)
  | v :: below => (f v).map fun w => ⟨w :: below⟩

/-- The pile has no value. -/
def isEmpty (_ : String) (p : Pile) : Bool := p.values.isEmpty

end Pile

instance : StackStore Pile := ⟨Pile.push, Pile.pop, Pile.peek, Pile.update, Pile.isEmpty⟩

namespace Stacks

open StackStore (Shows Hides run log)

/-! ## The stack of one name -/

theorem pop_eq (name : String) (s : Stacks) :
    s.pop name = match s.values name with
      | [] => .error (.emptyStack name)
      | v :: _ => .ok (v, ⟨s.bindings.eraseP (·.1 == name)⟩) := by
  rw [pop, peek_eq]
  cases s.values name <;> rfl

theorem update_eq (name : String) (f : Value → Except EvalError Value) (s : Stacks) :
    s.update name f = match s.values name with
      | [] => .error (.emptyStack name)
      | v :: _ => (f v).map fun w => ⟨replaceFirst name w s.bindings⟩ := by
  rw [update, peek_eq]
  cases s.values name with
  | nil => rfl
  | cons v below => cases f v <;> rfl

theorem isEmpty_eq (name : String) (s : Stacks) : s.isEmpty name = (s.values name).isEmpty := by
  rw [Bool.eq_iff_iff, isEmpty_iff, List.isEmpty_iff]

/-- The stack of a name as a plain list. -/
def pile (name : String) (s : Stacks) : Pile := ⟨s.values name⟩

theorem shows_pile (name : String) : Shows (pile name) name where
  push v s := congrArg Pile.mk (values_push_self name v s).symm
  pop s := by
    change (pile name s).pop name = (s.pop name).map _
    have herase := filter_eraseP_self name s.bindings
    rw [pop_eq, Pile.pop, pile]
    dsimp only
    split
    · rfl
    · rename_i v below hvalues
      simp only [Except.map, pile, values, herase, List.map_tail]
      rw [← values, hvalues, List.tail_cons]
  peek s := (peek_eq name s).symm
  update f s := by
    change (pile name s).update name f = (s.update name f).map _
    rw [update_eq, Pile.update, pile]
    dsimp only
    split
    · rfl
    · rename_i v below hvalues
      have hpeek : s.peek name = .ok v := by rw [peek_eq, hvalues]
      cases f v with
      | error e => rfl
      | ok w =>
        simp only [Except.map, pile]
        rw [values_replaceFirst_self hpeek, hvalues, List.tail_cons]
  isEmpty s := (isEmpty_eq name s).symm

theorem hides_pile {name other : String} (h : other ≠ name) : Hides (pile name) other where
  push v s := congrArg Pile.mk (values_push_of_ne h v s)
  pop hpop := congrArg Pile.mk (values_pop_of_ne h hpop)
  update hupdate := congrArg Pile.mk (values_update_of_ne h hupdate)

theorem shows_pile_of_beq {name other : String} (h : (other == name) = true) :
    Shows (pile name) other := by
  rw [eq_of_beq h]
  exact shows_pile name

theorem hides_pile_of_beq {name other : String} (h : (other == name) = false) :
    Hides (pile name) other := hides_pile (ne_of_beq_false h)

theorem run_pile (s : Stacks) (cs : List Command) (name : String) :
    run (s.pile name) (cs.filter (·.name == name)) = (run s cs).pile name :=
  StackStore.run_filter (p := (· == name)) (fun _ => shows_pile_of_beq)
    (fun _ => hides_pile_of_beq) s cs

/-- About a name, the stacks answer what a plain list answers. -/
theorem log_pile (s : Stacks) (cs : List Command) (name : String) :
    log (s.pile name) (cs.filter (·.name == name)) = (log s cs).filter (·.1 == name) :=
  StackStore.log_filter (p := (· == name)) (fun _ => shows_pile_of_beq)
    (fun _ => hides_pile_of_beq) s cs

/-! ## Everything but the stack of one name -/

/-- The stacks without that of a name. -/
def without (name : String) (s : Stacks) : Stacks := ⟨s.bindings.filter (·.1 != name)⟩

theorem values_without {name other : String} (h : other ≠ name) (s : Stacks) :
    (s.without name).values other = s.values other := by
  have hboth : ∀ b : String × Value, (b.1 == other && b.1 != name) = (b.1 == other) := by
    intro b
    by_cases hb : b.1 = other
    · simp [hb, h]
    · simp [hb]
  simp only [values, without, List.filter_filter, hboth]

theorem without_eq_self {name : String} {s : Stacks} (h : s.values name = []) :
    s.without name = s := by
  have hother : ∀ b ∈ s.bindings, b.1 ≠ name := by simpa [values] using h
  exact congrArg Stacks.mk (List.filter_eq_self.2 (by simpa using hother))

/-- The first value of another name is the first also without the name. -/
theorem eraseP_without {name other : String} (h : other ≠ name) (bs : List (String × Value)) :
    (bs.filter (·.1 != name)).eraseP (·.1 == other) =
      (bs.eraseP (·.1 == other)).filter (·.1 != name) := by
  induction bs with
  | nil => rfl
  | cons b bs ih =>
    by_cases hb : b.1 = other
    · simp [hb, h]
    · by_cases hn : b.1 = name <;> simp [hb, hn, Ne.symm h, ih]

theorem replaceFirst_without {name other : String} (h : other ≠ name) (w : Value)
    (bs : List (String × Value)) :
    replaceFirst other w (bs.filter (·.1 != name)) =
      (replaceFirst other w bs).filter (·.1 != name) := by
  induction bs with
  | nil => rfl
  | cons b bs ih =>
    by_cases hb : b.1 = other
    · simp [replaceFirst, hb, h]
    · by_cases hn : b.1 = name <;> simp [replaceFirst, hb, hn, Ne.symm h, ih]

theorem shows_without {name other : String} (h : other ≠ name) : Shows (without name) other where
  push v s := by
    change (s.without name).push other v = (s.push other v).without name
    simp [push, without, h]
  pop s := by
    change (s.without name).pop other = (s.pop other).map _
    rw [pop_eq, pop_eq, values_without h]
    cases s.values other with
    | nil => rfl
    | cons v below => exact congrArg (fun bs => Except.ok (v, Stacks.mk bs)) (eraseP_without h _)
  peek s := by
    change (s.without name).peek other = s.peek other
    rw [peek_eq, peek_eq, values_without h]
  update f s := by
    change (s.without name).update other f = (s.update other f).map _
    rw [update_eq, update_eq, values_without h]
    cases s.values other with
    | nil => rfl
    | cons v below =>
      dsimp only
      cases f v with
      | error e => rfl
      | ok w => exact congrArg (fun bs => Except.ok (Stacks.mk bs)) (replaceFirst_without h w _)
  isEmpty s := by
    change (s.without name).isEmpty other = s.isEmpty other
    rw [isEmpty_eq, isEmpty_eq, values_without h]

theorem filter_eraseP_without (name : String) (bs : List (String × Value)) :
    (bs.eraseP (·.1 == name)).filter (·.1 != name) = bs.filter (·.1 != name) := by
  induction bs with
  | nil => rfl
  | cons b bs ih => by_cases hb : b.1 = name <;> simp [hb, ih]

theorem filter_replaceFirst_without (name : String) (w : Value) (bs : List (String × Value)) :
    (replaceFirst name w bs).filter (·.1 != name) = bs.filter (·.1 != name) := by
  induction bs with
  | nil => rfl
  | cons b bs ih => by_cases hb : b.1 = name <;> simp [replaceFirst, hb, ih]

theorem hides_without (name : String) : Hides (without name) name where
  push v s := by
    change (s.push name v).without name = s.without name
    simp [push, without]
  pop hpop := by
    rw [eq_erased_of_pop hpop]
    exact congrArg Stacks.mk (filter_eraseP_without name _)
  update {f s s'} hupdate := by
    change s.update name f = _ at hupdate
    rw [update_eq] at hupdate
    cases hvalues : s.values name with
    | nil => simp [hvalues] at hupdate
    | cons v below =>
      cases hf : f v with
      | error e => simp [hvalues, hf, Except.map] at hupdate
      | ok w =>
        simp only [hvalues, hf, Except.map, Except.ok.injEq] at hupdate
        rw [← hupdate]
        exact congrArg Stacks.mk (filter_replaceFirst_without name w _)

theorem run_without (s : Stacks) (cs : List Command) (name : String) :
    run (s.without name) (cs.filter (·.name != name)) = (run s cs).without name := by
  refine StackStore.run_filter (p := (· != name)) (fun other h => ?_) (fun other h => ?_) s cs
  · exact shows_without (bne_iff_ne.1 h)
  · rw [bne_eq_false_iff_eq.1 h]
    exact hides_without name

end Stacks

end Stencil
