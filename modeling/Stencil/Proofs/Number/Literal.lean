import Stencil.Proofs.Number.Grammar
set_option autoImplicit false

/-!
# Number literals

`Literal` is the grammar of number literals: a number literal is put together from
an optional minus sign, digits, optionally a point and digits, optionally an
exponent.  `literal` gives the longest one at the beginning of a text
(`exists_literal`, `Literal.text_isPrefix_literal`), and what a literal is read as are
its parts (`Literal.ofText?_text`).
-/

namespace Stencil.Number

/-! ## The parts of a literal are beginnings -/

theorem minusPart_isPrefix (cs : List Char) : minusPart cs <+: cs := by
  cases cs with
  | nil => exact List.prefix_refl _
  | cons c cs =>
    simp only [minusPart]
    split
    · exact ⟨cs, rfl⟩
    · exact List.nil_prefix

theorem fractionPart_isPrefix (cs : List Char) : fractionPart cs <+: cs := by
  cases cs with
  | nil => exact List.prefix_refl _
  | cons c cs =>
    simp only [fractionPart]
    split
    · exact List.cons_prefix_cons.2 ⟨rfl, digitRun_isPrefix cs⟩
    · exact List.nil_prefix

/-- A beginning, and a beginning of what it leaves, make a longer beginning. -/
theorem append_isPrefix {p q cs : List Char} (hp : p <+: cs) (hq : q <+: cs.drop p.length) :
    p ++ q <+: cs := by
  obtain ⟨r, rfl⟩ := hp
  rw [List.drop_left] at hq
  exact (List.prefix_append_right_inj p).2 hq

theorem exponentPart_isPrefix (cs : List Char) : exponentPart cs <+: cs := by
  cases cs with
  | nil => exact List.prefix_refl _
  | cons c cs =>
    simp only [exponentPart]
    split
    · exact List.cons_prefix_cons.2
        ⟨rfl, append_isPrefix (signPart_isPrefix cs) (digitRun_isPrefix _)⟩
    · exact List.nil_prefix

/-- The literal is a beginning of the text. -/
theorem literal_isPrefix (cs : List Char) : literal cs <+: cs := by
  simp only [literal, LiteralParts.text, literalParts, List.append_assoc]
  exact append_isPrefix (minusPart_isPrefix _) (append_isPrefix (digitRun_isPrefix _)
    (append_isPrefix (fractionPart_isPrefix _) (exponentPart_isPrefix _)))

/-! ## Signs and exponents where they stand -/

theorem exists_minusPart (cs : List Char) : ∃ negative, minusPart cs = signText negative := by
  cases cs with
  | nil => exact ⟨false, rfl⟩
  | cons c cs =>
    simp only [minusPart]
    split
    · rename_i h
      exact ⟨true, by rw [h]; rfl⟩
    · exact ⟨false, rfl⟩

namespace IsDigits

variable {ds : List Char} (h : IsDigits ds)
include h

theorem minusPart_append (negative : Bool) (rest : List Char) :
    minusPart (signText negative ++ (ds ++ rest)) = signText negative := by
  cases negative with
  | true => rfl
  | false =>
    obtain ⟨c, cs, rfl⟩ := List.exists_cons_of_ne_nil h.nonempty
    have hc := ne_sign_of_isDigit (h.digits c List.mem_cons_self)
    simp [signText, minusPart, hc.2]

theorem fractionPart_append (rest : List Char) :
    fractionPart ('.' :: (ds ++ rest)) = '.' :: digitRun (ds ++ rest) :=
  if_pos ⟨rfl, h.digitRun_ne_nil rest⟩

end IsDigits

/-- At least the exponent is read where it is written. -/
theorem Exponent.isPrefix_exponentPart (e : Exponent) (rest : List Char) :
    e.text <+: exponentPart (e.text ++ rest) := by
  have hsign := e.isDigits.signPart_append e.isSign rest
  have hne := e.isDigits.digitRun_ne_nil rest
  simp only [text, exponentPart, List.cons_append, List.append_assoc, hsign, List.drop_left]
  rw [if_pos ⟨e.isMark, hne⟩]
  exact List.cons_prefix_cons.2
    ⟨rfl, (List.prefix_append_right_inj _).2 (e.isDigits.isPrefix_digitRun rest)⟩

/-! ## The grammar -/

/-- A number literal, by its parts. -/
structure Literal where
  negative : Bool
  whole : List Char
  /-- the digits behind the point -/
  fraction : Option (List Char)
  exponent : Option Exponent
  isDigits_whole : IsDigits whole
  isDigits_fraction : ∀ ds ∈ fraction, IsDigits ds

namespace Literal

variable (l : Literal)

/-- The point and the digits behind it. -/
def fractionText : List Char :=
  match l.fraction with
  | none => []
  | some ds => '.' :: ds

/-- The exponent as it is written, if there is one. -/
def exponentText : List Char :=
  match l.exponent with
  | none => []
  | some e => e.text

/-- The literal as it is written. -/
def text : List Char := signText l.negative ++ (l.whole ++ (l.fractionText ++ l.exponentText))

/-- The parts of the literal. -/
def parts : LiteralParts := ⟨signText l.negative, l.whole, l.fractionText, l.exponentText⟩

theorem text_parts : l.parts.text = l.text := by
  simp only [parts, LiteralParts.text, text, List.append_assoc]

/-- The literal has neither a point nor an exponent. -/
def isInteger : Bool := l.fraction.isNone && l.exponent.isNone

/-- The integer that the sign and the digits in front of the point denote. -/
def integer : Int := if l.negative then -digitsValue l.whole else digitsValue l.whole

/-- The value without its sign: all digits, with the power of ten of the last one. -/
def decimal : Decimal where
  digits := digitsValue (l.whole ++ l.fraction.getD [])
  exponent := (l.exponent.elim 0 Exponent.value) - (l.fraction.getD []).length

/-! ## The longest literal -/

/-- A literal whose digits in front of the point are known. -/
theorem literal_append {whole : List Char} (h : IsDigits whole) (negative : Bool)
    {tail : List Char} (ht : EndsDigits tail) :
    literal (signText negative ++ (whole ++ tail)) = signText negative ++ (whole ++
      (fractionPart tail ++ exponentPart (tail.drop (fractionPart tail).length))) := by
  simp only [literal, LiteralParts.text, literalParts, h.minusPart_append,
    digitRun_append h.digits ht, List.drop_left, List.append_assoc]

/-- No literal at the beginning of a text is longer than the one that is read. -/
theorem text_isPrefix_literal (rest : List Char) : l.text <+: literal (l.text ++ rest) := by
  obtain ⟨negative, whole, fraction, exponent, hw, hf⟩ := l
  simp only [text, fractionText, exponentText, List.append_assoc]
  cases exponent with
  | none =>
    cases fraction with
    | none =>
      have hrun := hw.isPrefix_digitRun rest
      simp only [List.nil_append, List.append_nil, literal, LiteralParts.text, literalParts,
        hw.minusPart_append, List.drop_left, List.append_assoc]
      exact (List.prefix_append_right_inj _).2 (hrun.trans (List.prefix_append ..))
    | some ds =>
      have hrun := (hf ds rfl).isPrefix_digitRun rest
      have hends : EndsDigits ('.' :: (ds ++ rest)) := endsDigits_cons (by decide) _
      simp only [List.nil_append, List.append_nil, List.cons_append]
      rw [literal_append hw negative hends, (hf ds rfl).fractionPart_append]
      refine (List.prefix_append_right_inj _).2 ((List.prefix_append_right_inj _).2 ?_)
      exact (List.cons_prefix_cons.2 ⟨rfl, hrun⟩).trans (List.prefix_append ..)
  | some e =>
    have hends : EndsDigits (e.text ++ rest) := endsDigits_cons e.mark_not_digit _
    have hexponent := e.isPrefix_exponentPart rest
    cases fraction with
    | none =>
      have hpart : fractionPart (e.text ++ rest) = [] := if_neg fun h => e.mark_ne_point h.1
      simp only [List.nil_append]
      rw [literal_append hw negative hends, hpart]
      exact (List.prefix_append_right_inj _).2 ((List.prefix_append_right_inj _).2 hexponent)
    | some ds =>
      have hpart : fractionPart ('.' :: (ds ++ (e.text ++ rest))) = '.' :: ds := by
        rw [(hf ds rfl).fractionPart_append, digitRun_append (hf ds rfl).digits hends]
      simp only [List.cons_append]
      rw [literal_append hw negative (endsDigits_cons (by decide) _), hpart, List.length_cons,
        List.drop_succ_cons, List.drop_left]
      refine (List.prefix_append_right_inj _).2 ((List.prefix_append_right_inj _).2 ?_)
      exact List.cons_prefix_cons.2 ⟨rfl, (List.prefix_append_right_inj _).2 hexponent⟩

/-- A literal is its own longest beginning. -/
theorem literal_text : literal l.text = l.text := by
  have hle := l.text_isPrefix_literal []
  rw [List.append_nil] at hle
  exact (hle.eq_of_length_le (literal_isPrefix l.text).length_le).symm

end Literal

theorem exists_fraction (cs : List Char) :
    ∃ f : Option (List Char), (∀ ds ∈ f, IsDigits ds) ∧ fractionPart cs = f.elim [] ('.' :: ·) := by
  cases cs with
  | nil => exact ⟨none, nofun, rfl⟩
  | cons c cs =>
    simp only [fractionPart]
    split
    · rename_i h
      obtain ⟨rfl, hrun⟩ := h
      refine ⟨some (digitRun cs), ?_, rfl⟩
      rintro ds ⟨⟩
      exact isDigits_digitRun hrun
    · exact ⟨none, nofun, rfl⟩

theorem exists_exponent (cs : List Char) :
    ∃ e : Option Exponent, exponentPart cs = e.elim [] Exponent.text := by
  cases cs with
  | nil => exact ⟨none, rfl⟩
  | cons c cs =>
    simp only [exponentPart]
    split
    · rename_i h
      exact ⟨some ⟨c, _, _, h.1, isSign_signPart cs, isDigits_digitRun h.2⟩, rfl⟩
    · exact ⟨none, rfl⟩

/-- What is read at the beginning of a number are the parts of a literal. -/
theorem exists_literal {cs : List Char} (h : digitRun (cs.drop (minusPart cs).length) ≠ []) :
    ∃ l : Literal, literalParts cs = l.parts := by
  obtain ⟨negative, hminus⟩ := exists_minusPart cs
  obtain ⟨f, hf, hfraction⟩ :=
    exists_fraction ((cs.drop (minusPart cs).length).drop
      (digitRun (cs.drop (minusPart cs).length)).length)
  obtain ⟨e, hexponent⟩ :=
    exists_exponent (((cs.drop (minusPart cs).length).drop
      (digitRun (cs.drop (minusPart cs).length)).length).drop (f.elim [] ('.' :: ·)).length)
  refine ⟨⟨negative, _, f, e, isDigits_digitRun h, hf⟩, ?_⟩
  simp only [literalParts, Literal.parts, Literal.fractionText, Literal.exponentText, hfraction,
    hexponent, ← hminus]
  cases f <;> cases e <;> rfl

theorem Literal.literal_eq {l : Literal} {cs : List Char} (h : literalParts cs = l.parts) :
    literal cs = l.text := by
  rw [literal, h, l.text_parts]

namespace Literal

variable (l : Literal)

/-! ## The value -/

/-- Every literal is a numeral. -/
def toNumeral : Numeral where
  sign := signText l.negative
  whole := l.whole
  fraction := l.fraction
  exponent := l.exponent
  isSign := isSign_signText _
  isDigits := by
    refine ⟨List.append_ne_nil_of_left_ne_nil l.isDigits_whole.nonempty _, fun c hc => ?_⟩
    rcases List.mem_append.1 hc with hc | hc
    · exact l.isDigits_whole.digits c hc
    · cases hfraction : l.fraction with
      | none => rw [hfraction] at hc; cases hc
      | some ds =>
        rw [hfraction] at hc
        exact (l.isDigits_fraction ds hfraction).digits c hc

theorem text_toNumeral : l.toNumeral.text = l.text := by
  obtain ⟨negative, whole, fraction, exponent, hw, hf⟩ := l
  cases fraction <;> cases exponent <;> rfl

/-- The marks of a decimal are a point and the mark of an exponent. -/
theorem hasDecimalMark_text : hasDecimalMark l.text = !l.isInteger := by
  have hwhole := l.isDigits_whole.noDecimalMark
  have hsign : hasDecimalMark (signText l.negative) = false := by cases l.negative <;> decide
  simp only [hasDecimalMark] at hwhole hsign
  simp only [hasDecimalMark, text, List.any_append, hsign, hwhole, isInteger, fractionText,
    exponentText]
  cases l.fraction with
  | some ds => simp
  | none =>
    cases l.exponent with
    | none => simp
    | some e => simp [Exponent.text, e.isMark]

theorem isDouble_parts : l.parts.isDouble = !l.isInteger := by
  obtain ⟨negative, whole, fraction, exponent, hw, hf⟩ := l
  cases fraction <;> cases exponent <;> rfl

theorem isInteger_iff :
    l.isInteger = true ↔ ∀ c ∈ l.text, c ≠ '.' ∧ c ≠ 'e' ∧ c ≠ 'E' := by
  have hmark := l.hasDecimalMark_text
  rw [← Bool.not_eq_false', ← hmark, hasDecimalMark, List.any_eq_false]
  simp [isExponentMark]

/-- The characters of a literal are digits, signs and marks. -/
theorem mem_text {c : Char} (hc : c ∈ l.text) :
    c.isDigit = true ∨ c ∈ ['+', '-', '.', 'e', 'E'] :=
  l.toNumeral.mem_text (l.text_toNumeral ▸ hc)

theorem integer?_text (h : l.isInteger = true) : integer? l.text = some l.integer := by
  obtain ⟨negative, whole, fraction, exponent, hw, hf⟩ := l
  simp only [isInteger, Bool.and_eq_true, Option.isNone_iff_eq_none] at h
  obtain ⟨rfl, rfl⟩ := h
  have hread := SignedDigits.integer?_text ⟨_, whole, isSign_signText negative, hw⟩
  rw [text, fractionText, exponentText, List.append_nil, List.append_nil]
  cases negative <;> exact hread

/-- A literal is read as its parts. -/
theorem decimal?_text : decimal? l.text = some (l.negative, l.decimal) := by
  have hnegative : l.toNumeral.negative = l.negative :=
    show (signText l.negative == ['-']) = l.negative by cases l.negative <;> rfl
  rw [← l.text_toNumeral, l.toNumeral.decimal?_text, hnegative]
  rfl

/-- The number that a literal denotes. -/
theorem ofText?_text :
    ofText? l.text =
      if l.isInteger then (toInt64? l.integer).map .integer
      else some (.double (l.decimal.toFloat l.negative)) := by
  unfold ofText?
  rw [l.hasDecimalMark_text, l.decimal?_text]
  cases h : l.isInteger with
  | true =>
    rw [l.integer?_text h]
    rfl
  | false => rfl

end Literal

/-- A literal has the parts of a double exactly when its text has a mark of one. -/
theorem hasDecimalMark_literal {cs : List Char}
    (h : digitRun (cs.drop (minusPart cs).length) ≠ []) :
    hasDecimalMark (literal cs) = (literalParts cs).isDouble := by
  obtain ⟨l, hl⟩ := exists_literal h
  rw [Literal.literal_eq hl, l.hasDecimalMark_text, hl, l.isDouble_parts]

end Stencil.Number
