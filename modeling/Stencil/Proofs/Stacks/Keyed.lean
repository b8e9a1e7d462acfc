import Stencil.Proofs.Stacks.Commands
import Stencil.Value.Arithmetic
set_option autoImplicit false

/-!
# Stacks in a map

`Stacks` can as well be kept in a map that gives a list of values to each name, if a
name leaves the map with its last value: `Stacks.keyed` is that map.  It gives the same
answers, and has no entry for an empty stack.  So the stack of each name lives on its
own, and one that was emptied cannot be told from one that was never used
(`Stacks.run_replay`).
-/

namespace Stencil

open StackStore (Shows run log obey)

/-- Stacks in a map from names, each as the list of its values, the top first. -/
structure KeyedStacks where
  entries : Std.ExtHashMap String (List Value) := ∅

namespace KeyedStacks

/-- A value put in front of the list of a name, which has an entry then. -/
def push (name : String) (v : Value) (s : KeyedStacks) : KeyedStacks :=
  ⟨s.entries.insert name (v :: s.entries.getD name [])⟩

/-- The top of the list of a name, and the map without it; the last value takes the entry along. -/
def pop (name : String) (s : KeyedStacks) : Except EvalError (Value × KeyedStacks) :=
  match s.entries[name]? with
  | some (v :: below) =>
    .ok (v, ⟨if below.isEmpty then s.entries.erase name else s.entries.insert name below⟩)
  | _ => .error (.emptyStack name)

/-- The top of the list of a name. -/
def peek (name : String) (s : KeyedStacks) : Except EvalError Value :=
  match s.entries[name]? with
  | some (v :: _) => .ok v
  | _ => .error (.emptyStack name)

/-- The map with the top of the list of a name replaced by what `f` makes of it. -/
def update (name : String) (f : Value → Except EvalError Value) (s : KeyedStacks) :
    Except EvalError KeyedStacks :=
  match s.entries[name]? with
  | some (v :: below) => (f v).map fun w => ⟨s.entries.insert name (w :: below)⟩
  | _ => .error (.emptyStack name)

/-- The name has no entry, or an entry without values. -/
def isEmpty (name : String) (s : KeyedStacks) : Bool := s.entries[name]?.all List.isEmpty

theorem ext {s t : KeyedStacks} (h : ∀ name : String, s.entries[name]? = t.entries[name]?) : s = t := by
  obtain ⟨m⟩ := s
  obtain ⟨n⟩ := t
  exact congrArg mk (Std.ExtHashMap.ext_getElem? h)

end KeyedStacks

instance : StackStore KeyedStacks :=
  ⟨KeyedStacks.push, KeyedStacks.pop, KeyedStacks.peek, KeyedStacks.update, KeyedStacks.isEmpty⟩

namespace Stacks

/-- The stacks in a map. -/
def keyed (s : Stacks) : KeyedStacks := s.bindings.foldr (fun b k => k.push b.1 b.2) {}

/-- The map has an entry for the names that have a value. -/
theorem getElem?_keyed (s : Stacks) (name : String) :
    s.keyed.entries[name]? = if s.values name = [] then none else some (s.values name) := by
  obtain ⟨bs⟩ := s
  induction bs with
  | nil => exact Std.ExtHashMap.getElem?_empty
  | cons b bs ih =>
    obtain ⟨other, v⟩ := b
    change (((keyed ⟨bs⟩).push other v).entries)[name]? =
      if (push other v ⟨bs⟩).values name = [] then none else some ((push other v ⟨bs⟩).values name)
    rw [KeyedStacks.push, Std.ExtHashMap.getElem?_insert, Std.ExtHashMap.getD_eq_getD_getElem?]
    by_cases h : other = name
    · subst h
      rw [ih, values_push_self]
      by_cases hvalues : values other ⟨bs⟩ = [] <;> simp [hvalues]
    · rw [values_push_of_ne h, ← ih]
      simp [h]

theorem eq_keyed {s : Stacks} {k : KeyedStacks}
    (h : ∀ name : String, k.entries[name]? =
      if s.values name = [] then none else some (s.values name)) : k = s.keyed :=
  KeyedStacks.ext fun name => (h name).trans (getElem?_keyed s name).symm

theorem shows_keyed (name : String) : Shows keyed name where
  push v s := rfl
  pop s := by
    change s.keyed.pop name = (s.pop name).map _
    rw [KeyedStacks.pop, getElem?_keyed]
    cases hvalues : s.values name with
    | nil => rw [pop_eq, hvalues]; rfl
    | cons v below =>
      have hpop : s.pop name = .ok (v, ⟨s.bindings.eraseP (·.1 == name)⟩) := by
        rw [pop_eq, hvalues]
      rw [hpop, if_neg (List.cons_ne_nil v below)]
      refine congrArg (fun k => Except.ok (v, k)) (eq_keyed fun other => ?_)
      by_cases h : name = other
      · subst h
        rw [values_pop_self hpop, hvalues]
        cases below <;> simp
      · rw [values_pop_of_ne h hpop, ← getElem?_keyed]
        cases below <;> simp [Std.ExtHashMap.getElem?_erase, Std.ExtHashMap.getElem?_insert, h]
  peek s := by
    change s.keyed.peek name = s.peek name
    rw [KeyedStacks.peek, getElem?_keyed, peek_eq]
    cases s.values name <;> rfl
  update f s := by
    change s.keyed.update name f = (s.update name f).map _
    rw [KeyedStacks.update, getElem?_keyed]
    cases hvalues : s.values name with
    | nil => rw [update_eq, hvalues]; rfl
    | cons v below =>
      have hupdate : s.update name f = (f v).map fun w => ⟨replaceFirst name w s.bindings⟩ := by
        rw [update_eq, hvalues]
      rw [hupdate, if_neg (List.cons_ne_nil v below)]
      dsimp only
      cases hf : f v with
      | error e => rfl
      | ok w =>
        rw [hf] at hupdate
        have hpeek : s.peek name = .ok v := by rw [peek_eq, hvalues]
        refine congrArg Except.ok (eq_keyed fun other => ?_)
        by_cases h : name = other
        · subst h
          rw [values_replaceFirst_self hpeek]
          simp [hvalues]
        · rw [values_update_of_ne h hupdate, ← getElem?_keyed]
          simp [Std.ExtHashMap.getElem?_insert, h]
  isEmpty s := by
    change s.keyed.isEmpty name = s.isEmpty name
    rw [KeyedStacks.isEmpty, getElem?_keyed, isEmpty_eq]
    cases s.values name <;> rfl

theorem run_keyed (s : Stacks) (cs : List Command) : run s.keyed cs = (run s cs).keyed := by
  have h := StackStore.run_filter (p := fun _ => true) (fun name _ => shows_keyed name) nofun s cs
  rwa [List.filter_true] at h

theorem log_keyed (s : Stacks) (cs : List Command) : log s.keyed cs = log s cs := by
  have h := StackStore.log_filter (p := fun _ => true) (fun name _ => shows_keyed name) nofun s cs
  rwa [List.filter_true, List.filter_true] at h

/-! ## Replays -/

/-- The stack of the name is the list: where it has a first value, that is the top, and taking it
off leaves the others; where it is empty, looking and taking fail.  What fails changes nothing. -/
structure Holds (s : Stacks) (name : String) (vs : List Value) : Prop where
  top : ∀ {v below}, vs = v :: below →
    s.peek name = .ok v ∧ ∃ s', s.pop name = .ok (v, s') ∧ s'.values name = below
  empty : vs = [] → s.peek name = .error (.emptyStack name) ∧ s.pop name = .error (.emptyStack name)
  isEmpty : s.isEmpty name = true ↔ vs = []
  unchanged : ∀ {op e}, (obey s ⟨name, op⟩).1 = .error e → (obey s ⟨name, op⟩).2 = s

theorem holds_values (s : Stacks) (name : String) : s.Holds name (s.values name) where
  top {v below} h := by
    have hpop : s.pop name = .ok (v, ⟨s.bindings.eraseP (·.1 == name)⟩) := by rw [pop_eq, h]
    refine ⟨by rw [peek_eq, h], _, hpop, ?_⟩
    rw [values_pop_self hpop, h, List.tail_cons]
  empty h := by
    rw [peek_eq, pop_eq, h]
    exact ⟨rfl, rfl⟩
  isEmpty := isEmpty_iff name s
  unchanged := StackStore.obey_of_error

theorem values_run (cs : List Command) (name : String) :
    (run ({} : Stacks) cs).values name =
      (run ({} : Pile) (cs.filter (·.name == name))).values :=
  (congrArg Pile.values (run_pile {} cs name)).symm

/-- A name that has a binding has a value. -/
theorem values_ne_nil {s : Stacks} {b : String × Value} (hb : b ∈ s.bindings) :
    s.values b.1 ≠ [] := by
  have hmem : b.2 ∈ s.values b.1 := by
    rw [values, List.mem_map]
    exact ⟨b, List.mem_filter.2 ⟨hb, beq_self_eq_true _⟩, rfl⟩
  exact List.ne_nil_of_mem hmem

/-- Where the stack of a name is empty in the end, nothing is left of the commands about it. -/
theorem run_eq_of_values_eq_nil {cs : List Command} {name : String}
    (h : (run ({} : Stacks) cs).values name = []) :
    run ({} : Stacks) cs = run {} (cs.filter (·.name != name)) := by
  have hwithout : run (without name {}) (cs.filter (·.name != name)) = _ := run_without {} cs name
  rw [without_eq_self h] at hwithout
  exact hwithout.symm

/-- Stacks that began empty and were told any commands.  About each name they have answered what a
plain list answers to the commands about this name alone, and its stack is that list.  No name is
kept with an empty stack: where the list is empty, the stacks are those that were told nothing about
the name.  A map with an entry for every stack gives the same answers, and in it no entry is empty
either. -/
theorem run_replay (cs : List Command) (name : String) :
    let s := run ({} : Stacks) cs
    let own := cs.filter (·.name == name)
    let others := cs.filter (·.name != name)
    let vs := (run ({} : Pile) own).values
    (log ({} : Stacks) cs).filter (·.1 == name) = log ({} : Pile) own ∧
      s.Holds name vs ∧
      (∀ b ∈ s.bindings, s.values b.1 ≠ []) ∧
      (vs = [] → s = run {} others) ∧
      log ({} : KeyedStacks) cs = log ({} : Stacks) cs ∧
      (∀ (key : String) (ws : List Value),
        (run ({} : KeyedStacks) cs).entries[key]? = some ws → ws ≠ []) ∧
      (vs = [] → run ({} : KeyedStacks) cs = run {} others) := by
  intro s own others vs
  have hvs : s.values name = vs := values_run cs name
  have hkeyed : run ({} : KeyedStacks) cs = s.keyed := run_keyed {} cs
  have hdrained : vs = [] → s = run {} others := fun h => run_eq_of_values_eq_nil (hvs.trans h)
  refine ⟨(log_pile {} cs name).symm, hvs ▸ holds_values s name, fun b => values_ne_nil, hdrained,
    log_keyed {} cs, fun key ws hentry => ?_, fun h => ?_⟩
  · rw [hkeyed, getElem?_keyed] at hentry
    split at hentry
    · cases hentry
    · rename_i hne
      exact Option.some.inj hentry ▸ hne
  · rw [hkeyed, hdrained h]
    exact (run_keyed {} others).symm

/-- Both values of one name are taken off, the upper one behind an update that fails and one that
does not; what was put on for the other name stays. -/
theorem run_replay_drained :
    let cs : List Command :=
      [⟨"i", .push (.integer 1)⟩, ⟨"j", .push (.text "x")⟩, ⟨"i", .push (.integer 2)⟩,
        ⟨"i", .update fun v => v.add (.text "x")⟩, ⟨"i", .update fun v => v.add (.integer 1)⟩,
        ⟨"i", .pop⟩, ⟨"i", .pop⟩, ⟨"i", .pop⟩]
    (log ({} : Stacks) cs).filter (·.1 == "i") =
        [("i", .ok .done), ("i", .ok .done), ("i", .error (.invalidNumber "x")), ("i", .ok .done),
          ("i", .ok (.value (.integer 3))), ("i", .ok (.value (.integer 1))),
          ("i", .error (.emptyStack "i"))] ∧
      run ({} : Stacks) cs = run {} [⟨"j", .push (.text "x")⟩] := by
  intro cs
  obtain ⟨hlog, -, -, hdrained, -⟩ := run_replay cs "i"
  have hempty : (run ({} : Pile) (cs.filter (·.name == "i"))).values = [] := by cbv
  refine ⟨hlog.trans ?_, (hdrained hempty).trans rfl⟩
  cbv

end Stacks

end Stencil
