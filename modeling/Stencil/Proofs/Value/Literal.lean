import Stencil.Proofs.Number.Range
import Stencil.Proofs.Value.Exact
import Stencil.Proofs.Value.ReadBack
set_option autoImplicit false

/-!
# Literals and texts

Where a number begins in a tag, the longest number literal is read, as an integer when
it has neither a point nor an exponent and as a double otherwise, and is refused when
it is out of range.  The same characters in quotes are a text that counts as the same
number, so that no operator and no comparison makes a difference between the two
(`Lexer.next_literal`).
-/

namespace Stencil

namespace Scan

/-- What reading a literal gives. -/
structure Outcome (lit : Number.Literal) (r : Except LexError Token) : Prop where
  /-- without a point and an exponent it is the integer that it denotes -/
  integer : (∀ c ∈ lit.text, c ≠ '.' ∧ c ≠ 'e' ∧ c ≠ 'E') → ∀ n : Int64, n.toInt = lit.integer →
    r = .ok (.element (.integer n))
  noInteger : (∀ c ∈ lit.text, c ≠ '.' ∧ c ≠ 'e' ∧ c ≠ 'E') →
    (∀ n : Int64, n.toInt ≠ lit.integer) → r = .error (.numberOutOfRange (String.ofList lit.text))
  /-- with one of them it is the double nearest to its value -/
  double : (∃ c ∈ lit.text, c = '.' ∨ c = 'e' ∨ c = 'E') →
    lit.decimal.numerator < Number.Binary64.infinityBound * lit.decimal.denominator →
    r = .ok (.element (.double (Number.Binary64.ofMagnitude lit.negative
      (Number.Binary64.nearest lit.decimal.numerator lit.decimal.denominator))))
  noDouble : (∃ c ∈ lit.text, c = '.' ∨ c = 'e' ∨ c = 'E') →
    Number.Binary64.infinityBound * lit.decimal.denominator ≤ lit.decimal.numerator →
    r = .error (.numberOutOfRange (String.ofList lit.text))

theorem outcome_literalToken (lit : Number.Literal) : Outcome lit (literalToken lit.text) := by
  have hinteger (h : ∀ c ∈ lit.text, c ≠ '.' ∧ c ≠ 'e' ∧ c ≠ 'E') :
      Number.ofText? lit.text = (toInt64? lit.integer).map .integer := by
    rw [lit.ofText?_text, if_pos (lit.isInteger_iff.2 h)]
  have hdouble (h : ∃ c ∈ lit.text, c = '.' ∨ c = 'e' ∨ c = 'E') :
      Number.ofText? lit.text = some (.double (lit.decimal.toFloat lit.negative)) := by
    rw [lit.ofText?_text, if_neg]
    intro hint
    obtain ⟨c, hc, hmark⟩ := h
    have := lit.isInteger_iff.1 hint c hc
    tauto
  have hfinite := Number.Decimal.isFinite_toFloat_iff lit.negative lit.decimal
  constructor
  · intro h n hn
    rw [literalToken, hinteger h, toInt64?_eq_some_iff.2 hn]
    rfl
  · intro h hn
    have hnone : toInt64? lit.integer = none := by
      refine Option.eq_none_iff_forall_not_mem.2 fun n hmem => hn n (toInt64?_eq_some_iff.1 hmem)
    rw [literalToken, hinteger h, hnone]
    rfl
  · intro h hlt
    rw [literalToken, hdouble h]
    simp only [if_pos (hfinite.2 hlt)]
    rw [Number.Decimal.toFloat, Number.Decimal.magnitude_eq_nearest]
  · intro h hle
    rw [literalToken, hdouble h]
    simp only [if_neg (mt hfinite.1 (Nat.not_lt.2 hle))]

/-- The token of a literal is the constant of the number that its text denotes. -/
theorem ofText?_of_literalToken {literal : List Char} {t : Token}
    (h : literalToken literal = .ok t) :
    ∃ n, t = .element (.ofNumber n) ∧ Number.ofText? literal = some n := by
  rcases literalToken_eq_ok h with ⟨n, hn, rfl⟩ | ⟨x, hx, -, rfl⟩
  · exact ⟨.integer n, rfl, hn⟩
  · exact ⟨.double x, rfl, hx⟩

/-- Nothing in a literal is escaped in quotes. -/
theorem escapedChar_of_mem_text {lit : Number.Literal} {c : Char} (hc : c ∈ lit.text) :
    Element.escapedChar c = [c] := by
  have hspecial : ∀ d ∈ ['\\', '"', '\n', '\t', '\r'],
      d.isDigit = false ∧ d ∉ ['+', '-', '.', 'e', 'E'] := by simp [Char.isDigit]
  have hne {d : Char} (hd : d ∈ ['\\', '"', '\n', '\t', '\r']) : c ≠ d := by
    rintro rfl
    rcases lit.mem_text hc with h | h
    · rw [(hspecial c hd).1] at h
      cases h
    · exact (hspecial c hd).2 h
  simp [Element.escapedChar, hne]

theorem string_literal (lit : Number.Literal) (cs : List Char) (line : Nat) :
    string (lit.text ++ '"' :: cs) line = ⟨.ok lit.text, cs, line⟩ := by
  have hplain : lit.text.flatMap Element.escapedChar = lit.text :=
    calc lit.text.flatMap Element.escapedChar = lit.text.flatMap ([·]) :=
          List.flatMap_congr fun c hc => escapedChar_of_mem_text hc
      _ = lit.text := List.flatMap_singleton' _
  have hstring := string_source lit.text cs line
  rwa [hplain] at hstring

end Scan

namespace Value

/-- The value counts as the number, and neither an operator nor a comparison makes a difference
between it and the number itself. -/
structure StandsFor (v : Value) (n : Number) : Prop where
  toNumber : v.toNumber = .ok n
  apply (op : Operator) (other : Value) : Value.apply op v other = Value.apply op (ofNumber n) other ∧
    Value.apply op other v = Value.apply op other (ofNumber n)
  order (other : Value) : Value.order v other = Value.order (ofNumber n) other ∧
    Value.order other v = Value.order other (ofNumber n)

theorem StandsFor.of_toNumber {v : Value} {n : Number} (h : v.toNumber = .ok n) : v.StandsFor n :=
  have hsame : v.toNumber = (ofNumber n).toNumber := h.trans (toNumber_ofNumber n).symm
  ⟨h, fun op _ => ⟨apply_congr hsame rfl op, apply_congr rfl hsame op⟩,
    fun _ => ⟨order_congr hsame rfl, order_congr rfl hsame⟩⟩

end Value

namespace Lexer

/-- The scan of a number, behind the blanks. -/
theorem scan_of_beginsNumber {l : Lexer} (hmode : l.mode = .tag)
    (h : Scan.beginsNumber (Scan.afterBlanks l.rest l.line).1 = true) :
    l.scan = ⟨Scan.literalToken (Number.literal (Scan.afterBlanks l.rest l.line).1),
      (Scan.afterBlanks l.rest l.line).1.drop
        (Number.literal (Scan.afterBlanks l.rest l.line).1).length,
      (Scan.afterBlanks l.rest l.line).2⟩ := by
  rcases hb : Scan.afterBlanks l.rest l.line with ⟨_ | ⟨c, cs⟩, line⟩
  · rw [hb] at h
    cases h
  · rw [hb] at h
    simp only [scan, hmode, hb]
    exact Scan.tagToken_of_beginsNumber h _ _

/-- A literal in quotes is the text of its characters. -/
theorem token_quoted {l : Lexer} (hmode : l.mode = .tag) (hcur : l.current ≠ some .eof)
    {lit : Number.Literal} {more : List Char}
    (h : (Scan.afterBlanks l.rest l.line).1 = '"' :: (lit.text ++ '"' :: more)) :
    ∃ line, l.token =
      .ok (.element (.text (String.ofList lit.text)),
        within (.element (.text (String.ofList lit.text))) more line) := by
  have hstring := Scan.string_literal lit more (Scan.afterBlanks l.rest l.line).2
  have hscan : Scan.TagScan l.expectsName (Scan.afterBlanks l.rest l.line).2
      ('"' :: (lit.text ++ '"' :: more)) _ := .text (congrArg Scan.result hstring)
  rw [hstring] at hscan
  exact ⟨_, token_of_tagScan hmode hcur (Prod.ext h rfl) hscan rfl⟩

/-- Where a number begins behind the blanks of a tag, a lexer reads the longest literal that stands
there, and stops behind it.  `Scan.Outcome` says what it gives: the integer or the double of the
literal, or an error where there is no such number.  A text with the characters of an accepted
literal stands for the same number, of the same kind, and is what a lexer reads where they stand in
quotes. -/
theorem next_literal {l : Lexer} (hmode : l.mode = .tag) (hcur : l.current ≠ some .eof)
    (hbegins : Scan.beginsNumber (Scan.afterBlanks l.rest l.line).1 = true) :
    ∃ (lit : Number.Literal) (more : List Char),
      (Scan.afterBlanks l.rest l.line).1 = lit.text ++ more ∧ l.next.2.rest = more ∧
      (∀ other : Number.Literal, other.text <+: lit.text ++ more → other.text <+: lit.text) ∧
      Scan.Outcome lit l.next.1 ∧
      ∀ t, l.next.1 = .ok t → ∃ n, t = .element (.ofNumber n) ∧
        (Value.text (String.ofList lit.text)).StandsFor n ∧
        ∀ (k : Lexer) (more' : List Char), k.mode = .tag → k.current ≠ some .eof →
          (Scan.afterBlanks k.rest k.line).1 = '"' :: (lit.text ++ '"' :: more') →
          k.next.1 = .ok (.element (.text (String.ofList lit.text))) ∧ k.next.2.rest = more' := by
  obtain ⟨cs, hcs⟩ : ∃ cs, cs = (Scan.afterBlanks l.rest l.line).1 := ⟨_, rfl⟩
  have hscan := scan_of_beginsNumber hmode hbegins
  rw [← hcs] at hbegins hscan ⊢
  obtain ⟨lit, hparts⟩ := Number.exists_literal (Scan.digitRun_of_beginsNumber hbegins)
  have hlit : Number.literal cs = lit.text := Number.Literal.literal_eq hparts
  rw [hlit] at hscan
  obtain ⟨more, hmore⟩ : ∃ more, lit.text ++ more = cs := hlit ▸ Number.literal_isPrefix cs
  have hresult : l.next.1 = Scan.literalToken lit.text := by
    rw [next_eq hcur, hscan]
    cases Scan.literalToken lit.text <;> rfl
  have hrest : l.next.2.rest = more := by
    have hdrop : cs.drop lit.text.length = more := by rw [← hmore, List.drop_left]
    rw [next_eq hcur]
    cases l.scan.result <;> simp only [advance, hscan, hdrop]
  refine ⟨lit, more, hmore.symm, hrest, fun other hother => ?_, ?_, fun t ht => ?_⟩
  · obtain ⟨behind, hbehind⟩ := hother
    have hlongest := other.text_isPrefix_literal behind
    rwa [hbehind, hmore, hlit] at hlongest
  · rw [hresult]
    exact Scan.outcome_literalToken lit
  · rw [hresult] at ht
    obtain ⟨n, rfl, hn⟩ := Scan.ofText?_of_literalToken ht
    refine ⟨n, rfl, .of_toNumber ?_, fun k more' hkmode hkcur hk => ?_⟩
    · simp only [Value.toNumber, String.toList_ofList, hn]
    · obtain ⟨line, htoken⟩ := token_quoted hkmode hkcur hk
      rw [next_of_token htoken]
      exact ⟨rfl, rfl⟩

/-- A literal with a fraction, behind which no exponent is complete: it ends in front of the mark. -/
theorem next_literal_fraction :
    let l : Lexer := { rest := " -1.5e+x".toList, mode := .tag }
    l.next.1 = .ok (.element (.double (-1.5))) ∧ l.next.2.rest = ['e', '+', 'x'] ∧
      (Value.text "-1.5").StandsFor (.double (-1.5)) := by
  intro l
  have hresult : l.next.1 = .ok (.element (.double (-1.5))) := by decide +kernel
  have hrest : l.next.2.rest = ['e', '+', 'x'] := by decide +kernel
  obtain ⟨lit, more, hsplit, hmore, -, -, haccepted⟩ :=
    next_literal (l := l) rfl nofun (by decide +kernel)
  obtain ⟨n, hn, hstands, -⟩ := haccepted _ hresult
  have htext : lit.text = "-1.5".toList := by
    have hblanks : (Scan.afterBlanks l.rest l.line).1 = "-1.5".toList ++ ['e', '+', 'x'] := by
      decide +kernel
    rw [← hmore, hrest, hblanks] at hsplit
    exact (List.append_cancel_right hsplit).symm
  rw [htext, String.ofList_toList] at hstands
  refine ⟨hresult, hrest, ?_⟩
  cases n with
  | integer n => cases hn
  | double x =>
    obtain rfl : (-1.5 : Float) = x := Element.double.inj (Token.element.inj hn)
    exact hstands

end Lexer

end Stencil
