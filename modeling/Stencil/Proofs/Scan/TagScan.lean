import Stencil.Proofs.Scan.Append
set_option autoImplicit false

/-!
# The tokens of a tag

`TagScan` lists the tokens that a tag can go on with, one constructor for each
kind, with the characters that each leaves.  The scan of a tag finds exactly
these: `TagScan.of_result_eq_ok` and `TagScan.tagToken_eq`.
-/

namespace Stencil

namespace Text

/-- No letter is a character below the capital A. -/
theorem isLetter_eq_false_of_lt {c : Char} (h : c.toNat < 0x41) : isLetter c = false :=
  CodeRange.covers_cons_of_lt_first (r := ⟨0x41, 0x5A⟩) h _

theorem not_isDigit_of_isLetter {c : Char} (h : isLetter c = true) : c.isDigit = false := by
  cases hd : c.isDigit with
  | false => rfl
  | true =>
    simp only [Char.isDigit, Bool.and_eq_true, decide_eq_true_eq, ge_iff_le,
      UInt32.le_iff_toNat_le] at hd
    have hlt : c.toNat < 0x41 := Nat.lt_of_le_of_lt hd.2 (by decide)
    rw [isLetter_eq_false_of_lt hlt] at h
    cases h

theorem ne_of_isLetter {c d : Char} (h : isLetter c = true) (hd : isLetter d = false) :
    c ≠ d := by
  rintro rfl
  rw [h] at hd
  cases hd

end Text

namespace Scan

/-! ## Numbers -/

theorem digitRun_of_beginsNumber {cs : List Char} (h : beginsNumber cs = true) :
    Number.digitRun (cs.drop (Number.minusPart cs).length) ≠ [] := by
  cases cs with
  | nil => cases h
  | cons c cs =>
    by_cases hc : c = '-'
    · subst hc
      cases cs with
      | nil => cases h
      | cons d cs =>
        have hd : d.isDigit = true := by simpa [beginsNumber] using h
        simp [Number.minusPart, Number.digitRun, hd]
    · have hd : c.isDigit = true := by simpa [beginsNumber, hc] using h
      simp [Number.minusPart, hc, Number.digitRun, hd]

/-- The token of a literal, by the number that its text denotes; a double has to be finite. -/
def literalToken (literal : List Char) : Except LexError Token :=
  match Number.ofText? literal with
  | some (.integer n) => .ok (.element (.integer n))
  | some (.double x) =>
    if x.isFinite then .ok (.element (.double x))
    else .error (.numberOutOfRange (String.ofList literal))
  | none => .error (.numberOutOfRange (String.ofList literal))

/-- The parts of a literal and its text make the same token: both tell integers and doubles apart
in the same way. -/
theorem numberToken_literalParts {cs : List Char} (h : beginsNumber cs = true) :
    numberToken (Number.literalParts cs).isDouble (Number.literalParts cs).text =
      literalToken (Number.literal cs) := by
  have hmark := Number.hasDecimalMark_literal (digitRun_of_beginsNumber h)
  rw [literalToken, Number.ofText?, hmark, Number.literal, numberToken]
  generalize Number.literalParts cs = p
  cases p.isDouble with
  | true => cases Number.decimal? p.text <;> rfl
  | false =>
    cases Number.integer? p.text with
    | none => rfl
    | some n =>
      simp only [Bool.false_eq_true, if_false, Option.bind_some]
      cases toInt64? n <;> rfl

/-! ## The list of tokens -/

/-- A token that a tag goes on with at the given characters; where the name of the tag is
expected, `expectsName`, a word is that name. -/
inductive TagScan (expectsName : Bool) (line : Nat) : List Char → Scan Token → Prop where
  | equals (he : expectsName = true) (cs : List Char) :
    TagScan expectsName line ('=' :: cs) ⟨.ok (.tagName "="), cs, line⟩
  | name (he : expectsName = true) {c : Char} (hc : Text.isLetter c = true) (cs : List Char) :
    TagScan expectsName line (c :: cs)
      ⟨.ok (.tagName (String.ofList (Text.lowercase (word (c :: cs))))), afterWord (c :: cs), line⟩
  | close (cs : List Char) : TagScan expectsName line ('$' :: '}' :: cs) ⟨.ok .tagClose, cs, line⟩
  | text {cs s : List Char} (hs : (string cs line).result = .ok s) :
    TagScan expectsName line ('"' :: cs)
      ⟨.ok (.element (.text (String.ofList s))), (string cs line).rest, (string cs line).line⟩
  | call {c : Char} (hc : Text.isLetter c = true) (cs : List Char) :
    TagScan expectsName line ('@' :: c :: cs)
      ⟨.ok (.element (.call (String.ofList (word (c :: cs))))), afterWord (c :: cs), line⟩
  | number {cs : List Char} {t : Token} (hb : beginsNumber cs = true)
    (ht : literalToken (Number.literal cs) = .ok t) :
    TagScan expectsName line cs ⟨.ok t, cs.drop (Number.literal cs).length, line⟩
  | var (he : expectsName = false) {c : Char} (hc : Text.isLetter c = true) (cs : List Char) :
    TagScan expectsName line (c :: cs)
      ⟨.ok (.element (.var (String.ofList (word (c :: cs))))), afterWord (c :: cs), line⟩
  | operator (op : Operator) {cs : List Char} (hb : beginsNumber (op.symbol :: cs) = false) :
    TagScan expectsName line (op.symbol :: cs) ⟨.ok (.element (.operator op)), cs, line⟩

/-- A number begins with a digit or a minus sign. -/
theorem ne_of_beginsNumber {c d : Char} {cs : List Char} (h : beginsNumber (c :: cs) = true)
    (hd : d.isDigit = false) (hm : d ≠ '-') : c ≠ d := by
  rintro rfl
  simp [beginsNumber, hd, hm] at h

theorem not_isLetter_of_beginsNumber {c : Char} {cs : List Char}
    (h : beginsNumber (c :: cs) = true) : Text.isLetter c = false := by
  cases hc : Text.isLetter c with
  | false => rfl
  | true =>
    have hd := Text.not_isDigit_of_isLetter hc
    have hm : c ≠ '-' := Text.ne_of_isLetter hc (by decide)
    simp [beginsNumber, hd, hm] at h

theorem not_beginsNumber_of_isLetter {c : Char} (hc : Text.isLetter c = true) (cs : List Char) :
    beginsNumber (c :: cs) = false := by
  cases h : beginsNumber (c :: cs) with
  | false => rfl
  | true =>
    rw [not_isLetter_of_beginsNumber h] at hc
    cases hc

/-- In a tag a number is scanned where one begins, whether a name is expected or not. -/
theorem tagToken_of_beginsNumber {c : Char} {cs : List Char} (h : beginsNumber (c :: cs) = true)
    (expectsName : Bool) (line : Nat) :
    tagToken expectsName c cs line =
      ⟨literalToken (Number.literal (c :: cs)),
        (c :: cs).drop (Number.literal (c :: cs)).length, line⟩ := by
  have hequals : c ≠ '=' := ne_of_beginsNumber h (by decide) (by decide)
  have hdollar : c ≠ '$' := ne_of_beginsNumber h (by decide) (by decide)
  have hquote : c ≠ '"' := ne_of_beginsNumber h (by decide) (by decide)
  have hat : c ≠ '@' := ne_of_beginsNumber h (by decide) (by decide)
  simp [tagToken, hequals, not_isLetter_of_beginsNumber h, hdollar, hquote, hat, h,
    numberToken_literalParts h, Number.literal]

theorem beginsNumber_append {cs : List Char} (h : beginsNumber cs = true) (ys : List Char) :
    beginsNumber (cs ++ ys) = true := by
  cases cs with
  | nil => simp [beginsNumber] at h
  | cons c cs =>
    cases cs with
    | nil =>
      have hc : c.isDigit = true := by simpa [beginsNumber] using h
      simp [beginsNumber, hc]
    | cons d cs => simpa [beginsNumber] using h

/-- The token of a literal is a number. -/
theorem literalToken_eq_ok {literal : List Char} {t : Token} (h : literalToken literal = .ok t) :
    (∃ n, Number.ofText? literal = some (.integer n) ∧ t = .element (.integer n)) ∨
      ∃ x, Number.ofText? literal = some (.double x) ∧ x.isFinite = true ∧
        t = .element (.double x) := by
  unfold literalToken at h
  split at h
  · rename_i n hn
    exact .inl ⟨n, hn, (Except.ok.inj h).symm⟩
  · rename_i x hx
    split at h
    · rename_i hf
      exact .inr ⟨x, hx, hf, (Except.ok.inj h).symm⟩
    · simp at h
  · simp at h

theorem literalToken_ne_tagClose (literal : List Char) : literalToken literal ≠ .ok .tagClose := by
  intro h
  rcases literalToken_eq_ok h with ⟨n, -, ht⟩ | ⟨x, -, -, ht⟩ <;> simp at ht

namespace TagScan

variable {expectsName : Bool} {line : Nat}

/-- A token that the scan of a tag finds is one of the list. -/
theorem of_result_eq_ok {c : Char} {cs : List Char} {t : Token}
    (h : (tagToken expectsName c cs line).result = .ok t) :
    TagScan expectsName line (c :: cs) (tagToken expectsName c cs line) := by
  unfold tagToken at h ⊢
  split
  · rename_i h₁
    obtain ⟨he, rfl⟩ := h₁
    exact .equals he cs
  rename_i h₁
  simp only [h₁, if_false] at h
  split
  · rename_i h₂
    exact .name h₂.1 h₂.2 cs
  rename_i h₂
  simp only [h₂, if_false] at h
  split
  · rename_i h₃
    subst h₃
    simp only [if_true] at h
    split at h
    · exact .close _
    · simp at h
  rename_i h₃
  simp only [h₃, if_false] at h
  split
  · rename_i h₄
    subst h₄
    simp only [if_true] at h
    obtain ⟨s, hs, -⟩ := result_map_eq_ok.1 h
    rw [result_map_of_ok hs]
    exact .text hs
  rename_i h₄
  simp only [h₄, if_false] at h
  split
  · rename_i h₅
    subst h₅
    simp only [if_true] at h
    cases cs with
    | nil => simp at h
    | cons d cs =>
      by_cases hd : Text.isLetter d = true
      · simp only [List.head?_cons, Option.any_some, hd, if_true]
        exact .call hd cs
      · simp [hd] at h
  rename_i h₅
  simp only [h₅, if_false] at h
  split
  · rename_i h₆
    simp only [h₆, if_true, numberToken_literalParts h₆] at h ⊢
    rw [h]
    exact .number h₆ h
  rename_i h₆
  simp only [h₆] at h
  split
  · rename_i h₇
    refine .var ?_ h₇ cs
    cases expectsName with
    | false => rfl
    | true => exact absurd ⟨rfl, h₇⟩ h₂
  rename_i h₇
  simp only [h₇] at h
  cases ho : Operator.ofSymbol? c with
  | none => simp [ho] at h
  | some op =>
    obtain rfl := Operator.ofSymbol?_eq_some_iff.1 ho
    exact .operator op (by simpa using h₆)

/-- The scan of a tag finds every token of the list. -/
theorem tagToken_eq {cs : List Char} {s : Scan Token} (h : TagScan expectsName line cs s) :
    ∃ c r, cs = c :: r ∧ tagToken expectsName c r line = s := by
  cases h with
  | equals he cs => exact ⟨_, _, rfl, by simp [tagToken, he]⟩
  | @name he c hc cs =>
    have h₁ : c ≠ '=' := Text.ne_of_isLetter hc (by decide)
    exact ⟨_, _, rfl, by simp [tagToken, he, hc, h₁]⟩
  | close cs => exact ⟨_, _, rfl, by simp [tagToken, show Text.isLetter '$' = false by decide]⟩
  | @text cs s hs =>
    refine ⟨_, _, rfl, ?_⟩
    simp [tagToken, show Text.isLetter '"' = false by decide, result_map_of_ok hs]
  | @call c hc cs =>
    exact ⟨_, _, rfl, by simp [tagToken, show Text.isLetter '@' = false by decide, hc]⟩
  | @number cs t hb ht =>
    cases cs with
    | nil => simp [beginsNumber] at hb
    | cons c cs => exact ⟨_, _, rfl, by rw [tagToken_of_beginsNumber hb, ht]⟩
  | @var he c hc cs =>
    refine ⟨_, _, rfl, ?_⟩
    have h₃ : c ≠ '$' := Text.ne_of_isLetter hc (by decide)
    have h₄ : c ≠ '"' := Text.ne_of_isLetter hc (by decide)
    have h₅ : c ≠ '@' := Text.ne_of_isLetter hc (by decide)
    simp [tagToken, he, h₃, h₄, h₅, not_beginsNumber_of_isLetter hc, hc]
  | @operator op cs hb =>
    refine ⟨_, _, rfl, ?_⟩
    have h₁ : op.symbol ≠ '=' ∧ Text.isLetter op.symbol = false ∧ op.symbol ≠ '$' ∧
        op.symbol ≠ '"' ∧ op.symbol ≠ '@' := by cases op <;> decide
    simp [tagToken, h₁, hb]

/-- The token is the name of the tag where that is expected, the end of the tag or an element. -/
theorem result_cases {cs : List Char} {s : Scan Token} (h : TagScan expectsName line cs s) :
    (expectsName = true ∧ ∃ name, s.result = .ok (.tagName name)) ∨
      s.result = .ok .tagClose ∨ ∃ e, s.result = .ok (.element e) := by
  cases h with
  | equals he cs => exact .inl ⟨he, _, rfl⟩
  | name he hc cs => exact .inl ⟨he, _, rfl⟩
  | close cs => exact .inr (.inl rfl)
  | text hs => exact .inr (.inr ⟨_, rfl⟩)
  | call hc cs => exact .inr (.inr ⟨_, rfl⟩)
  | number hb ht =>
    rcases literalToken_eq_ok ht with ⟨n, -, rfl⟩ | ⟨x, -, -, rfl⟩
    · exact .inr (.inr ⟨_, rfl⟩)
    · exact .inr (.inr ⟨_, rfl⟩)
  | var he hc cs => exact .inr (.inr ⟨_, rfl⟩)
  | operator op hb => exact .inr (.inr ⟨_, rfl⟩)

/-- A token other than the end of the tag is found also when more follows behind a break. -/
theorem followedBy {cs : List Char} {s : Scan Token} (h : TagScan expectsName line cs s)
    (hs : s.result = .ok .tagClose ∨ ∃ d ∈ s.rest, IsBreak d) (ys : List Char) :
    TagScan expectsName line (cs ++ ys) (s.followedBy ys) := by
  cases h with
  | equals he cs => exact .equals he _
  | @name he c hc cs =>
    obtain ⟨d, hd, -⟩ := hs.resolve_left (by simp)
    obtain ⟨hw, ha⟩ := word_append (List.ne_nil_of_mem hd) ys
    have h : TagScan expectsName line (c :: cs ++ ys) _ := .name he hc (cs ++ ys)
    rw [← List.cons_append, hw, ha] at h
    exact h
  | close cs => exact .close _
  | @text cs s hq =>
    have hq' := string_append hq ys
    have hq'' : (string (cs ++ ys) line).result = .ok s := by rw [hq']; exact hq
    have h : TagScan expectsName line ('"' :: (cs ++ ys)) _ := .text hq''
    rw [hq'] at h
    exact h
  | @call c hc cs =>
    obtain ⟨d, hd, -⟩ := hs.resolve_left (by simp)
    obtain ⟨hw, ha⟩ := word_append (List.ne_nil_of_mem hd) ys
    have h : TagScan expectsName line ('@' :: c :: cs ++ ys) _ := .call hc (cs ++ ys)
    rw [← List.cons_append, hw, ha] at h
    exact h
  | @number cs t hb ht =>
    have hne : t ≠ .tagClose := by
      rintro rfl
      exact literalToken_ne_tagClose _ ht
    obtain ⟨d, hd, hbreak⟩ := hs.resolve_left (by simpa using hne)
    have hl := Number.literal_append hbreak hd ys
    have h : TagScan expectsName line (cs ++ ys) _ :=
      .number (beginsNumber_append hb ys) (by rw [hl]; exact ht)
    rw [hl, List.drop_append_of_le_length (Number.literal_isPrefix cs).length_le] at h
    exact h
  | @var he c hc cs =>
    obtain ⟨d, hd, -⟩ := hs.resolve_left (by simp)
    obtain ⟨hw, ha⟩ := word_append (List.ne_nil_of_mem hd) ys
    have h : TagScan expectsName line (c :: cs ++ ys) _ := .var he hc (cs ++ ys)
    rw [← List.cons_append, hw, ha] at h
    exact h
  | @operator op cs hb =>
    obtain ⟨d, hd, -⟩ := hs.resolve_left (by simp)
    obtain ⟨e, r, rfl⟩ := List.exists_cons_of_ne_nil (List.ne_nil_of_mem hd)
    exact .operator op (by simpa [beginsNumber] using hb)

end TagScan

end Scan

end Stencil
