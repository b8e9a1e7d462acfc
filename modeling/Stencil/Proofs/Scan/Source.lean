import Stencil.Proofs.Scan.TagScan
import Stencil.Proofs.Number.Text
set_option autoImplicit false

/-!
# Scanning what was written

The written form of an element is the next token of a tag when a break stands
behind it (`TagScan.source`).  An element can be written when its name is a word and
its double is finite; only such elements are tokens (`TagScan.isWritable`).
-/

namespace Stencil

namespace Text

/-- The word at the beginning of characters that begin with a letter. -/
theorem isWord_word {c : Char} (hc : isLetter c = true) (cs : List Char) :
    IsWord (Scan.word (c :: cs)) := by
  have hw : Scan.word (c :: cs) = c :: Scan.word cs := by
    simp [Scan.word, isWordChar_of_isLetter hc]
  rw [hw]
  exact ⟨hc, fun d hd => List.all_eq_true.1 List.all_takeWhile d hd⟩

namespace IsWord

variable {w : List Char} (h : IsWord w)
include h

theorem eq_cons : ∃ c cs, w = c :: cs ∧ isLetter c = true := by
  cases w with
  | nil => exact h.elim
  | cons c cs => exact ⟨c, cs, rfl, h.1⟩

theorem isWordChar : ∀ c ∈ w, isWordChar c = true := by
  cases w with
  | nil => exact h.elim
  | cons c cs => exact List.forall_mem_cons.2 ⟨isWordChar_of_isLetter h.1, h.2⟩

/-- A word in front of a break is the word that begins there. -/
theorem word_append {d : Char} (hd : Scan.IsBreak d) (zs : List Char) :
    Scan.word (w ++ d :: zs) = w := by
  rw [Scan.word, List.takeWhile_append_of_pos h.isWordChar]
  simp [hd.notWordChar]

theorem afterWord_append {d : Char} (hd : Scan.IsBreak d) (zs : List Char) :
    Scan.afterWord (w ++ d :: zs) = d :: zs := by
  rw [Scan.afterWord, List.dropWhile_append_of_pos h.isWordChar]
  simp [hd.notWordChar]

end IsWord

end Text

/-- The number is an integer or a finite double. -/
def Number.IsFinite : Number → Prop
  | integer _ => True
  | double x => x.isFinite = true

/-- The constant of a number. -/
def Element.ofNumber : Number → Element
  | .integer n => .integer n
  | .double x => .double x

/-- The element can be written: its name is a word, its double is finite. -/
def Element.IsWritable : Element → Prop
  | var name | call name => Text.IsWord name.toList
  | double x => x.isFinite = true
  | _ => True

namespace Scan

/-! ## Texts -/

theorem string_escapedChar (c : Char) (cs : List Char) (line : Nat) :
    string (Element.escapedChar c ++ cs) line = (string cs line).map (c :: ·) := by
  unfold Element.escapedChar
  split
  · rename_i h
    subst h
    exact string_escape (by decide) cs line
  split
  · rename_i h
    subst h
    exact string_escape (by decide) cs line
  split
  · rename_i h
    subst h
    exact string_escape (by decide) cs line
  split
  · rename_i h
    subst h
    exact string_escape (by decide) cs line
  split
  · rename_i h
    subst h
    exact string_escape (by decide) cs line
  · rename_i hb hq hn _ _
    have hline : lineAfter line c = line := if_neg hn
    have hplain := string_plain hq hb cs line
    rw [hline] at hplain
    exact hplain

/-- A text constant that was written is scanned up to its closing quote. -/
theorem string_source (s zs : List Char) (line : Nat) :
    string (s.flatMap Element.escapedChar ++ '"' :: zs) line = ⟨.ok s, zs, line⟩ := by
  induction s with
  | nil => exact string_quote zs line
  | cons c s ih =>
    rw [List.flatMap_cons, List.append_assoc, string_escapedChar, ih]
    rfl

end Scan

/-! ## Numbers -/

namespace Number

open Scan (beginsNumber)

theorem beginsNumber_digits {ds : List Char} (h : IsDigits ds) (negative : Bool)
    (rest : List Char) : beginsNumber (signText negative ++ (ds ++ rest)) = true := by
  obtain ⟨c, cs, rfl⟩ := List.exists_cons_of_ne_nil h.nonempty
  have hc := h.digits c List.mem_cons_self
  cases negative with
  | true => simp [signText, beginsNumber, hc]
  | false => simp [signText, beginsNumber, hc]

variable {n : Number} (hn : n.IsFinite)
include hn

theorem beginsNumber_sourceChars : beginsNumber (Element.ofNumber n).sourceChars = true := by
  cases n with
  | integer n =>
    have h := beginsNumber_digits (isDigits_toDigits n.toInt.natAbs) (n.toInt < 0) []
    rwa [List.append_nil, ← integerText_eq] at h
  | double x =>
    obtain ⟨whole, fraction, exponent, hw, -, htext, -⟩ := doubleText_eq_numeral hn
    simp only [Element.ofNumber, Element.sourceChars, htext]
    exact beginsNumber_digits hw _ _

theorem literal_sourceChars :
    literal (Element.ofNumber n).sourceChars = (Element.ofNumber n).sourceChars := by
  cases n with
  | integer n => exact literal_integerText _
  | double x => exact literal_doubleText hn

theorem ofText?_sourceChars : ofText? (Element.ofNumber n).sourceChars = some n := by
  cases n with
  | integer n => exact ofText?_integerText n
  | double x => exact ofText?_doubleText hn

theorem literalToken_sourceChars :
    Scan.literalToken (Element.ofNumber n).sourceChars = .ok (.element (.ofNumber n)) := by
  unfold Scan.literalToken
  rw [ofText?_sourceChars hn]
  cases n with
  | integer n => rfl
  | double x => exact if_pos hn

end Number

/-! ## Elements -/

namespace Scan.TagScan

variable {expectsName : Bool} {line : Nat}

/-- No token of a tag begins with a blank. -/
theorem head_not_blank {cs : List Char} {s : Scan Token} (h : TagScan expectsName line cs s) :
    ∃ c r, cs = c :: r ∧ Text.isBlank c = false := by
  cases h with
  | equals he cs => exact ⟨_, _, rfl, by decide⟩
  | name he hc cs => exact ⟨_, _, rfl, Text.isBlank_eq_false_of_isWordChar (Text.isWordChar_of_isLetter hc)⟩
  | close cs => exact ⟨_, _, rfl, by decide⟩
  | text hs => exact ⟨_, _, rfl, by decide⟩
  | call hc cs => exact ⟨_, _, rfl, by decide⟩
  | var he hc cs => exact ⟨_, _, rfl, Text.isBlank_eq_false_of_isWordChar (Text.isWordChar_of_isLetter hc)⟩
  | operator op hb => exact ⟨_, _, rfl, by cases op <;> decide⟩
  | @number cs t hb ht =>
    cases cs with
    | nil => simp [beginsNumber] at hb
    | cons c cs =>
      refine ⟨c, cs, rfl, ?_⟩
      by_cases hm : c = '-'
      · rw [hm]
        decide
      · have hd : c.isDigit = true := by simpa [beginsNumber, hm] using hb
        exact Text.isBlank_eq_false_of_isWordChar (Text.isWordChar_of_isDigit hd)

/-- An element that is a token can be written. -/
theorem isWritable {cs : List Char} {s : Scan Token} (h : TagScan expectsName line cs s)
    {e : Element} (he : s.result = .ok (.element e)) : e.IsWritable := by
  cases h with
  | equals _ cs => simp at he
  | name _ hc cs => simp at he
  | close cs => simp at he
  | text hs =>
    obtain rfl := Token.element.inj (Except.ok.inj he)
    trivial
  | @call c hc cs =>
    obtain rfl := Token.element.inj (Except.ok.inj he)
    have hw := Text.isWord_word hc cs
    rwa [← String.toList_ofList (l := word (c :: cs))] at hw
  | @var _ c hc cs =>
    obtain rfl := Token.element.inj (Except.ok.inj he)
    have hw := Text.isWord_word hc cs
    rwa [← String.toList_ofList (l := word (c :: cs))] at hw
  | operator op hb =>
    obtain rfl := Token.element.inj (Except.ok.inj he)
    trivial
  | number hb ht =>
    rcases literalToken_eq_ok ht with ⟨n, -, rfl⟩ | ⟨x, -, hx, rfl⟩
    · obtain rfl := Token.element.inj (Except.ok.inj he)
      trivial
    · obtain rfl := Token.element.inj (Except.ok.inj he)
      exact hx

/-- The text of a number is one token, the constant of this number, at the end of the characters and
in front of a break. -/
theorem number_source {n : Number} (hn : n.IsFinite) {more : List Char}
    (hmore : ∀ d ∈ more.head?, IsBreak d) :
    TagScan expectsName line ((Element.ofNumber n).sourceChars ++ more)
      ⟨.ok (.element (.ofNumber n)), more, line⟩ := by
  have hlit : Number.literal ((Element.ofNumber n).sourceChars ++ more) =
      (Element.ofNumber n).sourceChars := by
    cases more with
    | nil => rw [List.append_nil, Number.literal_sourceChars hn]
    | cons d zs => rw [Number.literal_append_cons (hmore d rfl), Number.literal_sourceChars hn]
  have ht : literalToken (Number.literal ((Element.ofNumber n).sourceChars ++ more)) =
      .ok (.element (.ofNumber n)) := by
    rw [hlit, Number.literalToken_sourceChars hn]
  have h : TagScan expectsName line ((Element.ofNumber n).sourceChars ++ more) _ :=
    .number (beginsNumber_append (Number.beginsNumber_sourceChars hn) more) ht
  rw [hlit, List.drop_left] at h
  exact h

variable {d : Char} (hd : IsBreak d)
include hd

/-- An element that can be written is the token at the beginning of its written form, when a break
stands behind it. -/
theorem source {e : Element} (he : e.IsWritable) (zs : List Char) :
    TagScan false line (e.sourceChars ++ d :: zs) ⟨.ok (.element e), d :: zs, line⟩ := by
  have hbreak : ∀ c ∈ (d :: zs).head?, IsBreak c := by
    rintro c ⟨⟩
    exact hd
  cases e with
  | text s =>
    have hs := string_source s.toList (d :: zs) line
    have h : TagScan false line ('"' :: (s.toList.flatMap Element.escapedChar ++ '"' :: d :: zs)) _ :=
      .text (congrArg Scan.result hs)
    rw [hs, String.ofList_toList] at h
    simpa [Element.sourceChars] using h
  | integer n => exact number_source (n := .integer n) trivial hbreak
  | double x => exact number_source (n := .double x) he hbreak
  | var name =>
    have hw : Text.IsWord name.toList := he
    obtain ⟨c, cs, hname, hc⟩ := hw.eq_cons
    have h : TagScan false line (c :: (cs ++ d :: zs)) _ := .var rfl hc _
    rw [← List.cons_append, ← hname, hw.word_append hd, hw.afterWord_append hd,
      String.ofList_toList] at h
    exact h
  | call name =>
    have hw : Text.IsWord name.toList := he
    obtain ⟨c, cs, hname, hc⟩ := hw.eq_cons
    have h : TagScan false line ('@' :: c :: (cs ++ d :: zs)) _ := .call hc _
    rw [← List.cons_append, ← hname, hw.word_append hd, hw.afterWord_append hd,
      String.ofList_toList] at h
    exact h
  | operator op =>
    refine .operator op ?_
    cases op <;> simp [Operator.symbol, beginsNumber, hd.notDigit]

end Scan.TagScan

end Stencil
