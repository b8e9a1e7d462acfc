import Stencil.Proofs.Piece.Layout
import Stencil.Proofs.Host.Parameters
set_option autoImplicit false

/-!
# Numbers that pass through text

The text of an integer or of a finite double stands for this number wherever it gets
to: within a tag it is one constant (`Lexer.next_number`), and as a value it counts as
the number (`Value.toNumber_text_display`).  What is computed from a value depends
only on the number that it counts as, so a number that was stored as a parameter and
got from there is as good as the number itself.
-/

namespace Stencil

/-! ## Within a tag -/

/-- The text of a number is read as one token, the constant of this number. -/
theorem Lexer.next_number {l : Lexer} {n : Number} {more : List Char} (hn : n.IsFinite)
    (hmode : l.mode = .tag) (hcur : l.current ≠ some .eof)
    (hrest : l.rest = (Element.ofNumber n).sourceChars ++ more)
    (hmore : ∀ d ∈ more.head?, Scan.IsBreak d) :
    l.next = (.ok (.element (.ofNumber n)),
      { l with rest := more, current := some (.element (.ofNumber n)), expectsName := false }) := by
  have hscan : Scan.TagScan l.expectsName l.line l.rest
      ⟨.ok (.element (.ofNumber n)), more, l.line⟩ := by
    rw [hrest]
    exact .number_source hn hmore
  have htoken := token_of_tagScan hmode hcur hscan.afterBlanks_eq hscan rfl
  rw [next_of_token htoken, within, hmode]

/-! ## As a value -/

namespace Value

/-- The text of a number is its constant as a template has it. -/
theorem display_ofNumber (n : Number) : (ofNumber n).display = (Element.ofNumber n).source := by
  cases n <;> rfl

theorem toList_display_ofNumber (n : Number) :
    (ofNumber n).display.toList = (Element.ofNumber n).sourceChars := by
  rw [display_ofNumber, Element.source, String.toList_ofList]

theorem toNumber_text_display {n : Number} (hn : n.IsFinite) :
    (text (ofNumber n).display).toNumber = .ok n := by
  simp only [toNumber, toList_display_ofNumber, Number.ofText?_sourceChars hn]

variable {a a' b b' : Value} (ha : a.toNumber = a'.toNumber) (hb : b.toNumber = b'.toNumber)
include ha hb

theorem operands_congr : operands a b = operands a' b' := by
  unfold operands
  rw [ha, hb]

/-- An operator looks only at the numbers that its operands count as. -/
theorem apply_congr (op : Operator) : apply op a b = apply op a' b' := by
  have hoperands := operands_congr ha hb
  cases op with
  | add => simp only [apply, add, combine, hoperands]
  | sub => simp only [apply, subtract, combine, hoperands]
  | mul => simp only [apply, multiply, combine, hoperands]
  | div => simp only [apply, divide, combine, hoperands, hb]
  | pow => simp only [apply, power, hoperands]

theorem order_congr : order a b = order a' b' := by
  simp only [order, operands_congr ha hb]

end Value

/-! ## As an operand of a function -/

namespace Builtin

variable {σ : Type} [Host σ]

theorem run_call (b : Builtin) (f : Frame σ) : (call b.name).run f = b.run.run f := by
  simp only [call, ofName?_name]

theorem run_call_sin (v : Value) (below : List Value) (host : σ) :
    (call sin.name).run ⟨v :: below, host⟩ =
      (do Step.push (.double ((← v.toFloat) * radiansPerDegree).sin) : Step σ Unit).run
        ⟨below, host⟩ := by
  rw [run_call]
  rfl

theorem run_call_decimalFormat (pattern v : Value) (below : List Value) (host : σ) :
    (call decimalFormat.name).run ⟨pattern :: v :: below, host⟩ =
      (do Step.push (.text (← DecimalFormat.apply pattern.display (← v.toNumber))) :
        Step σ Unit).run ⟨below, host⟩ := by
  rw [run_call]
  rfl

theorem run_call_set (store : Store) (key v : Value) (below : List Value) (host : σ) :
    (call (set store).name).run ⟨key :: v :: below, host⟩ =
      (.ok (), ⟨below, (Host.answer (.set store key.display v.display) host).2⟩) := by
  rw [run_call]
  rfl

theorem run_call_get (scope : Scope) (otherwise key : Value) (below : List Value) (host : σ) :
    (call (get scope).name).run ⟨otherwise :: key :: below, host⟩ =
      (.ok (), ⟨(Host.answer (.lookup scope key.display) host).1.elim otherwise .text :: below,
        (Host.answer (.lookup scope key.display) host).2⟩) := by
  rw [run_call]
  rfl

end Builtin

/-- A parameter that was set is there as long as it is neither set nor deleted again. -/
theorem Page.get?_after_set (p : Page) (store : Store) (name value : String) {between : List Call}
    (h : ∀ c ∈ between, c.leaves? (.store store) name = none) :
    ((Host.after (Host.answer (.set store name value) p).2 between).store store).get? name =
      some value := by
  have hlast : Call.lastLeft? (.store store) name between = none :=
    List.findSome?_eq_none_iff.2 fun c hc => h c (List.mem_reverse.1 hc)
  have hset : Call.leaves? (.store store) name (.set store name value) = some (some value) :=
    if_pos ⟨rfl, rfl⟩
  have hafter := Page.get?_after (Host.answer (.set store name value) p).2 between (.store store) name
  rw [hlast, Page.get?_answer, hset] at hafter
  exact hafter

/-- The text of a number reads back as this number.  That of a double is an optional minus sign,
digits, a point with digits and an optional exponent.  Within a tag the text is one token, the
constant of the number, and as a value it is taken for the number.  Stored as a parameter under any
key, the number is found there as its text until the parameter is changed; and neither an operator,
in either place, nor a comparison, a sine or a shown number makes a difference between the two. -/
theorem Value.text_reads_back (n : Number) (hn : n.IsFinite) :
    let v := ofNumber n
    let stored := text v.display
    (∀ x, n = .double x → ∃ whole fraction exponent,
      Number.IsDigits whole ∧ Number.IsDigits fraction ∧ v.display.toList =
        Number.numeral (Number.Binary64.isNegative x) whole fraction exponent) ∧
    (∀ (l : Lexer) (more : List Char), l.mode = .tag → l.current ≠ some .eof →
      l.rest = v.display.toList ++ more → (∀ d ∈ more.head?, Scan.IsBreak d) →
      l.next = (.ok (.element (.ofNumber n)),
        { l with
          rest := more, current := some (.element (.ofNumber n)), expectsName := false })) ∧
    stored.numeric = .ok v ∧
    (∀ (store : Store) (key : Value) (below : List Value) (p : Page), ∃ q : Page,
      (Builtin.call (Builtin.set store).name).run ⟨key :: v :: below, p⟩ = (.ok (), ⟨below, q⟩) ∧
      ∀ (between : List Call) (otherwise key' : Value) (below' : List Value),
        (∀ c ∈ between, c.leaves? (.store store) key.display = none) →
        key'.display = key.display →
        (Builtin.call (Builtin.get (.store store)).name).run
            ⟨otherwise :: key' :: below', Host.after q between⟩ =
          (.ok (), ⟨stored :: below', Host.after q between⟩)) ∧
    (∀ op other, apply op stored other = apply op v other ∧
      apply op other stored = apply op other v) ∧
    (∀ other, order stored other = order v other ∧ order other stored = order other v) ∧
    ∀ (σ : Type) [Host σ] (host : σ) (below : List Value),
      (Builtin.call Builtin.sin.name).run ⟨stored :: below, host⟩ =
        (Builtin.call Builtin.sin.name).run ⟨v :: below, host⟩ ∧
      ∀ other, (Builtin.call Builtin.decimalFormat.name).run ⟨other :: stored :: below, host⟩ =
          (Builtin.call Builtin.decimalFormat.name).run ⟨other :: v :: below, host⟩ ∧
        (Builtin.call Builtin.decimalFormat.name).run ⟨stored :: other :: below, host⟩ =
          (Builtin.call Builtin.decimalFormat.name).run ⟨v :: other :: below, host⟩ := by
  intro v stored
  have hstored : stored.toNumber = .ok n := toNumber_text_display hn
  have hsame : stored.toNumber = v.toNumber := hstored.trans (toNumber_ofNumber n).symm
  refine ⟨?_, ?_, ?_, ?_, ?_, ?_, ?_⟩
  · rintro x rfl
    obtain ⟨whole, fraction, exponent, hw, hf, htext, -⟩ := Number.doubleText_eq_numeral hn
    exact ⟨whole, fraction, exponent, hw, hf, (toList_display_ofNumber _).trans htext⟩
  · intro l more hmode hcur hrest hmore
    rw [toList_display_ofNumber] at hrest
    exact Lexer.next_number hn hmode hcur hrest hmore
  · rw [numeric, hstored]
    rfl
  · intro store key below p
    refine ⟨_, Builtin.run_call_set store key v below p, ?_⟩
    intro between otherwise key' below' hbetween hkey
    have hfound := p.get?_after_set store key.display v.display hbetween
    rw [Builtin.run_call_get, hkey]
    simp only [Host.answer] at hfound ⊢
    rw [Page.scope, hfound]
    rfl
  · exact fun op other => ⟨apply_congr hsame rfl op, apply_congr rfl hsame op⟩
  · exact fun other => ⟨order_congr hsame rfl, order_congr rfl hsame⟩
  · intro σ _ host below
    refine ⟨?_, fun other => ⟨?_, ?_⟩⟩
    · rw [Builtin.run_call_sin, Builtin.run_call_sin, toFloat, toFloat, hsame]
    · rw [Builtin.run_call_decimalFormat, Builtin.run_call_decimalFormat, hsame]
    · rw [Builtin.run_call_decimalFormat, Builtin.run_call_decimalFormat]
      rfl

/-- A small negative double, whose text has an exponent: it is read as one constant, is taken for the
same double as a value, and is got from a parameter by which other parameters were set and deleted
in between. -/
theorem Value.text_reads_back_small :
    let v := double (-1e-5)
    let l : Lexer := { rest := "-1.0E-5 $\x7d".toList, mode := .tag }
    let between : List Call := [.set .transient "k" "2", .delete .persistent "l"]
    v.display = "-1.0E-5" ∧
    (l.next = (.ok (.element (.double (-1e-5))),
      { l with rest := [' ', '$', '}'], current := some (.element (.double (-1e-5))) })) ∧
    (text "-1.0E-5").numeric = .ok v ∧
    (∃ q : Page, (Builtin.call "pparamSet").run ⟨[text "k", v], {}⟩ = (.ok (), ⟨[], q⟩) ∧
      (Builtin.call "pparamGet").run ⟨[absent, text "k"], Host.after q between⟩ =
        (.ok (), ⟨[text "-1.0E-5"], Host.after q between⟩)) ∧
    apply .pow (text "-1.0E-5") (integer 2) = apply .pow v (integer 2) := by
  intro v l between
  have hn : (Number.double (-1e-5)).IsFinite := by
    show (-1e-5 : Float).isFinite = true
    decide +kernel
  have hdisplay : (double (-1e-5)).display = "-1.0E-5" := by decide +kernel
  obtain ⟨-, hnext, hnumeric, hparameter, happly, -⟩ := text_reads_back (.double (-1e-5)) hn
  simp only [ofNumber, hdisplay] at hnext hnumeric hparameter happly
  obtain ⟨q, hset, hget⟩ := hparameter .persistent (text "k") [] {}
  refine ⟨hdisplay, ?_, hnumeric, ⟨q, hset, hget between absent (text "k") [] ?_ rfl⟩,
    (happly .pow (integer 2)).1⟩
  · exact hnext l [' ', '$', '}'] rfl nofun rfl (by rintro d ⟨⟩; exact Scan.isBreak_space)
  · decide

end Stencil
