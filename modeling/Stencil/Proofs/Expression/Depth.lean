import Stencil.Proofs.Expression.Effects
set_option autoImplicit false

/-!
# Depth of the operands

How many operands there are behind each element of an echo tag is known from the effects
of the elements alone (`Expression.depth?`).  Where the depth never falls below what an
element needs, no element finds too few operands, and an echo that succeeds writes as
many texts as the last depth says.  Where it does, the first such element is the one
that an echo fails for, unless one before it fails (`Engine.run_echo_depth`).
-/

namespace Stencil

theorem Host.after_append {σ : Type} [Host σ] (host : σ) (as bs : List Call) :
    Host.after host (as ++ bs) = Host.after (Host.after host as) bs :=
  List.foldl_append

theorem Element.source_call (name : String) : (call name).source = "@" ++ name :=
  String.toList_inj.1 (by simp [source, sourceChars])

namespace Expression

open Step

/-! ## Elements in a row -/

/-- The number of operands behind elements, where there are `depth` of them before, or nothing where
an element needs more than there are. -/
def depth? (depth : Nat) : List Element → Option Nat
  | [] => some depth
  | e :: es =>
    if e.effect.needs ≤ depth then depth? (depth - e.effect.needs + e.effect.leaves) es else none

theorem depth?_append (depth : Nat) (as bs : List Element) :
    depth? depth (as ++ bs) = (depth? depth as).bind (depth? · bs) := by
  induction as generalizing depth with
  | nil => rfl
  | cons e as ih =>
    rw [List.cons_append, depth?, depth?, ih]
    split <;> rfl

theorem depth?_eq_none_of_short {depth d : Nat} {before : List Element} {e : Element}
    (hbefore : depth? depth before = some d) (hshort : d < e.effect.needs) (rest : List Element) :
    depth? depth (before ++ e :: rest) = none := by
  rw [depth?_append, hbefore, Option.bind_some, depth?, if_neg (Nat.not_le.2 hshort)]

/-- There is a first element that needs too many operands, or none at all. -/
theorem depth?_eq_none_iff {depth : Nat} {es : List Element} :
    depth? depth es = none ↔
      ∃ before e rest d, es = before ++ e :: rest ∧ depth? depth before = some d ∧
        d < e.effect.needs := by
  constructor
  · intro h
    induction es generalizing depth with
    | nil => cases h
    | cons e es ih =>
      by_cases hneeds : e.effect.needs ≤ depth
      · rw [depth?, if_pos hneeds] at h
        obtain ⟨before, e', rest, d, rfl, hbefore, hshort⟩ := ih h
        refine ⟨e :: before, e', rest, d, rfl, ?_, hshort⟩
        rw [depth?, if_pos hneeds, hbefore]
      · exact ⟨[], e, es, depth, rfl, rfl, Nat.not_le.1 hneeds⟩
  · rintro ⟨before, e, rest, d, rfl, hbefore, hshort⟩
    exact depth?_eq_none_of_short hbefore hshort rest

variable {σ : Type} [Host σ] {vars : Stacks}

theorem outcome_step (vars : Stacks) (e : Element) (f : Frame σ) :
    Outcome e e.effect f.operands f.host ((step vars e).run f) :=
  acts_step vars e f.operands f.host

theorem run_steps_cons (e : Element) (es : List Element) (f : Frame σ) :
    (steps vars (e :: es)).run f =
      match (step vars e).run f with
      | (.ok _, f) => (steps vars es).run f
      | (.error err, f) => (.error err, f) := by
  rw [steps, run_bind]
  rcases (step vars e).run f with ⟨_ | _, _⟩ <;> rfl

/-- Elements that all succeed change the depth as their effects say, and write nothing. -/
theorem depth?_of_steps_ok {es : List Element} {f f' : Frame σ}
    (h : (steps vars es).run f = (.ok (), f')) :
    depth? f.operands.length es = some f'.operands.length ∧
      ∃ asked, (∀ c ∈ asked, c.IsSilent) ∧ f'.host = Host.after f.host asked := by
  induction es generalizing f with
  | nil =>
    obtain rfl : f = f' := congrArg Prod.snd h
    exact ⟨rfl, [], List.forall_mem_nil _, rfl⟩
  | cons e es ih =>
    rw [run_steps_cons] at h
    have hacts := outcome_step vars e f
    rcases hrun : (step vars e).run f with ⟨err | _, between⟩ <;> rw [hrun] at h hacts
    · cases h
    · obtain ⟨hneeds, ⟨results, hresults, hoperands⟩, first, -, hfirst, hbetween⟩ := hacts.of_ok
      obtain ⟨hdepth, more, hmore, hhost⟩ := ih h
      have hlength : between.operands.length =
          f.operands.length - e.effect.needs + e.effect.leaves := by
        rw [hoperands, List.length_append, List.length_drop, hresults, Nat.add_comm]
      refine ⟨?_, first ++ more, List.forall_mem_append.2 ⟨hfirst, hmore⟩, ?_⟩
      · rw [depth?, if_pos hneeds, ← hlength, hdepth]
      · rw [hhost, hbetween, Host.after_append]

/-- Where elements fail, it is at one of them, behind others that succeed. -/
theorem exists_of_steps_error {es : List Element} {err : EvalError} {f f' : Frame σ}
    (h : (steps vars es).run f = (.error err, f')) :
    ∃ before e rest between, es = before ++ e :: rest ∧
      (steps vars before).run f = (.ok (), between) ∧
      (step vars e).run between = (.error err, f') := by
  induction es generalizing f with
  | nil => cases h
  | cons e es ih =>
    rw [run_steps_cons] at h
    rcases hrun : (step vars e).run f with ⟨err' | _, between⟩ <;> rw [hrun] at h
    · exact ⟨[], e, es, f, rfl, rfl, hrun.trans h⟩
    · obtain ⟨before, e', rest, between', rfl, hbefore, hstep⟩ := ih h
      refine ⟨e :: before, e', rest, between', rfl, ?_, hstep⟩
      rw [run_steps_cons, hrun]
      exact hbefore

theorem run_steps_append (as bs : List Element) (f : Frame σ) :
    (steps vars (as ++ bs)).run f =
      match (steps vars as).run f with
      | (.ok _, f) => (steps vars bs).run f
      | (.error err, f) => (.error err, f) := by
  induction as generalizing f with
  | nil => rfl
  | cons e as ih =>
    rw [List.cons_append, run_steps_cons, run_steps_cons]
    rcases (step vars e).run f with ⟨err | _, between⟩
    · rfl
    · exact ih between

/-- Elements that are known to find their operands do not fail for too few of them. -/
theorem ne_operandUnderflow_of_steps_error {es : List Element} {err : EvalError} {f f' : Frame σ}
    (h : (steps vars es).run f = (.error err, f')) {d : Nat}
    (hdepth : depth? f.operands.length es = some d) (c : Element) : err ≠ .operandUnderflow c := by
  obtain ⟨before, e, rest, between, rfl, hbefore, hstep⟩ := exists_of_steps_error h
  have hacts := outcome_step vars e between
  rw [hstep] at hacts
  intro hc
  have hshort := hacts.underflow_iff.2 ⟨c, hc⟩
  rw [depth?_eq_none_of_short (depth?_of_steps_ok hbefore).1 hshort rest] at hdepth
  cases hdepth

/-- Elements that fail write nothing. -/
theorem silent_of_steps_error {es : List Element} {err : EvalError} {f f' : Frame σ}
    (h : (steps vars es).run f = (.error err, f')) :
    ∃ asked, (∀ c ∈ asked, c.IsSilent) ∧ f'.host = Host.after f.host asked := by
  obtain ⟨before, e, rest, between, rfl, hbefore, hstep⟩ := exists_of_steps_error h
  obtain ⟨-, asked, hasked, hbetween⟩ := depth?_of_steps_ok hbefore
  have hacts := outcome_step vars e between
  rw [hstep] at hacts
  exact ⟨asked, hasked, hacts.of_error.1.trans hbetween⟩

/-- Behind elements that succeed, one that needs more operands than there are fails for this. -/
theorem run_steps_of_short {before : List Element} {f between : Frame σ}
    (hbefore : (steps vars before).run f = (.ok (), between)) {d : Nat} {e : Element}
    (hdepth : depth? f.operands.length before = some d) (hshort : d < e.effect.needs)
    (rest : List Element) :
    (steps vars (before ++ e :: rest)).run f =
      (.error (.operandUnderflow e), ⟨[], between.host⟩) := by
  have hlength := (depth?_of_steps_ok hbefore).1
  rw [hdepth, Option.some_inj] at hlength
  have hstep := (outcome_step vars e between).of_short (hlength ▸ hshort)
  rw [run_steps_append, hbefore]
  dsimp only
  rw [run_steps_cons, hstep]

/-! ## Echoes -/

/-- Writing fails for the host only, and else makes a call for each value. -/
theorem write_eq (vs : List Value) (host : σ) :
    write vs host = (.ok (), Host.after host (vs.map fun v => .write v.display)) ∨
      ∃ e, (write vs host).1 = .error (.output e) := by
  induction vs generalizing host with
  | nil => exact .inl rfl
  | cons v vs ih =>
    unfold write
    rcases hanswer : Host.answer (.write v.display) host with ⟨e | _, host'⟩
    · exact .inr ⟨e, rfl⟩
    · have hhost : host' = (Host.answer (.write v.display) host).2 := by rw [hanswer]
      rw [List.map_cons, Host.after_cons, ← hhost]
      exact ih host'

end Expression

namespace Engine

open Expression

variable {σ : Type} [Host σ]

theorem run_echo_of_steps_error (b : Bounds) {es : List Element} {m : Machine σ} {err : EvalError}
    {f : Frame σ} (h : (steps m.vars es).run ⟨[], m.host⟩ = (.error err, f)) :
    run b (.echo es) m = (.error (.failed err), { m with host := f.host }) := by
  simp only [run, onHost, echo, h]
  rfl

theorem run_echo_of_steps_ok (b : Bounds) {es : List Element} {m : Machine σ} {f : Frame σ}
    (h : (steps m.vars es).run ⟨[], m.host⟩ = (.ok (), f)) :
    run b (.echo es) m = (.ok (), { m with
        host := Host.after f.host (f.operands.reverse.map fun v => .write v.display) }) ∨
      ∃ e, (run b (.echo es) m).1 = .error (.failed (.output e)) := by
  simp only [run, onHost, echo, h]
  rcases write_eq f.operands.reverse f.host with hwrite | ⟨e, hwrite⟩
  · rw [hwrite]
    exact .inl rfl
  · rw [hwrite]
    exact .inr ⟨e, rfl⟩

/-- An echo, and the depth of its operands as the effects of its elements say.  Where no element
needs more operands than there are, the echo does not fail for too few, and where it succeeds it
writes the values that are left, as many as the depth says, the lowest first.  Else there is a first
element that needs more, and the echo fails for this element unless one before it fails for another
reason.  An echo that fails before its first write makes none. -/
theorem run_echo_depth (b : Bounds) (es : List Element) (m : Machine (Recorded σ)) :
    (∀ d, depth? 0 es = some d →
      (∀ c, (run b (.echo es) m).1 ≠ .error (.failed (.operandUnderflow c))) ∧
      ((run b (.echo es) m).1 = .ok () → ∃ f asked,
        (steps m.vars es).run ⟨[], m.host⟩ = (.ok (), f) ∧ f.operands.length = d ∧
        (∀ c ∈ asked, c.IsSilent) ∧
        (run b (.echo es) m).2.host.calls =
          m.host.calls ++ asked ++ f.operands.reverse.map fun v => .write v.display)) ∧
    (depth? 0 es = none ↔ ∃ before e rest d,
      es = before ++ e :: rest ∧ depth? 0 before = some d ∧ d < e.effect.needs) ∧
    (∀ before e rest d,
      es = before ++ e :: rest → depth? 0 before = some d → d < e.effect.needs →
      (run b (.echo es) m).1 = .error (.failed (.operandUnderflow e)) ∨
      ∃ err f, (steps m.vars before).run ⟨[], m.host⟩ = (.error err, f) ∧
        (∀ c, err ≠ .operandUnderflow c) ∧ (run b (.echo es) m).1 = .error (.failed err)) ∧
    (∀ err f, (steps m.vars es).run ⟨[], m.host⟩ = (.error err, f) →
      (run b (.echo es) m).1 = .error (.failed err) ∧
      ∃ asked, (∀ c ∈ asked, c.IsSilent) ∧
        (run b (.echo es) m).2.host.calls = m.host.calls ++ asked) ∧
    ∀ name, (Element.call name).source = "@" ++ name := by
  refine ⟨fun d hd => ?_, depth?_eq_none_iff, ?_, ?_, Element.source_call⟩
  · rcases hsteps : (steps m.vars es).run ⟨[], m.host⟩ with ⟨err | _, f⟩
    · have hne := ne_operandUnderflow_of_steps_error hsteps hd
      rw [run_echo_of_steps_error b hsteps]
      exact ⟨fun c hc => hne c (Stop.failed.inj (Except.error.inj hc)), nofun⟩
    · obtain ⟨hdepth, asked, hasked, hhost⟩ := depth?_of_steps_ok hsteps
      obtain rfl : f.operands.length = d := Option.some_inj.1 (hdepth.symm.trans hd)
      rcases run_echo_of_steps_ok b hsteps with hrun | ⟨e, hrun⟩ <;> rw [hrun]
      · refine ⟨nofun, fun _ => ⟨f, asked, rfl, rfl, hasked, ?_⟩⟩
        rw [Recorded.calls_after, hhost, Recorded.calls_after]
      · exact ⟨nofun, nofun⟩
  · rintro before e rest d rfl hdepth hshort
    rcases hbefore : (steps m.vars before).run ⟨[], m.host⟩ with ⟨err | _, between⟩
    · refine .inr ⟨err, between, rfl, ne_operandUnderflow_of_steps_error hbefore hdepth, ?_⟩
      have hsteps : (steps m.vars (before ++ e :: rest)).run ⟨[], m.host⟩ =
          (.error err, between) := by
        rw [run_steps_append, hbefore]
      rw [run_echo_of_steps_error b hsteps]
    · rw [run_echo_of_steps_error b (run_steps_of_short hbefore hdepth hshort rest)]
      exact .inl rfl
  · intro err f hsteps
    obtain ⟨asked, hasked, hhost⟩ := silent_of_steps_error hsteps
    rw [run_echo_of_steps_error b hsteps]
    refine ⟨rfl, asked, hasked, ?_⟩
    rw [← Recorded.calls_after, ← hhost]

/-- Three values are left by `1 2 @swap "v" "k" @tparamSet @dup`; in `1 + @dup` the operator is short
of an operand, and in `"ten" @sin +` the text is no number before it would be. -/
theorem run_echo_depth_cases :
    let m : Machine (Recorded Page) := ⟨{}, ⟨{}, []⟩⟩
    let b : Bounds := ⟨none, 0⟩
    let es : List Element := [.integer 1, .integer 2, .call "swap", .text "v", .text "k",
      .call "tparamSet", .call "dup"]
    (∃ f asked, (Expression.steps m.vars es).run ⟨[], m.host⟩ = (.ok (), f) ∧
      f.operands.length = 3 ∧ (∀ c ∈ asked, c.IsSilent) ∧
      (run b (.echo es) m).2.host.calls =
        m.host.calls ++ asked ++ f.operands.reverse.map fun v => .write v.display) ∧
    (run b (.echo [.integer 1, .operator .add, .call "dup"]) m).1 =
      .error (.failed (.operandUnderflow (.operator .add))) ∧
    ∃ asked, (∀ c ∈ asked, c.IsSilent) ∧
      (run b (.echo [.text "ten", .call "sin", .operator .add]) m).2.host.calls =
        m.host.calls ++ asked := by
  intro m b es
  have hok : (run b (.echo es) m).1 = .ok () := rfl
  have hten : (Expression.steps m.vars [.text "ten", .call "sin", .operator .add]).run
      ⟨[], m.host⟩ = (.error (.invalidNumber "ten"), ⟨[], m.host⟩) := by
    subst m
    cbv
  obtain ⟨hfits, -⟩ := run_echo_depth b es m
  obtain ⟨-, -, hshort, -⟩ := run_echo_depth b [.integer 1, .operator .add, .call "dup"] m
  obtain ⟨-, -, -, hfails, -⟩ := run_echo_depth b [.text "ten", .call "sin", .operator .add] m
  refine ⟨(hfits 3 (by decide)).2 hok, ?_, (hfails _ _ hten).2⟩
  rcases hshort [.integer 1] (.operator .add) [.call "dup"] 1 rfl rfl (by decide) with
    hunderflow | ⟨err, f, hbefore, -⟩
  · exact hunderflow
  · cases hbefore

end Engine

end Stencil
