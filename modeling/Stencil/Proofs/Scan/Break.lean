import Stencil.Proofs.Number.Literal
import Stencil.Proofs.Text.Words
import Stencil.Scan.Rest
set_option autoImplicit false

/-!
# Breaks

A break is a character with which neither a word nor a number literal goes on.  A
word or a literal in front of a break is therefore the same whatever stands behind
the break.  Blanks are breaks, and so is the dollar sign that begins the end of a
tag.
-/

namespace Stencil.Scan

/-- No word and no number literal goes on with the character. -/
structure IsBreak (d : Char) : Prop where
  notWordChar : Text.isWordChar d = false
  notSign : d ≠ '+' ∧ d ≠ '-'
  notPoint : d ≠ '.'

theorem isBreak_of_isBlank {d : Char} (hd : Text.isBlank d = true) : IsBreak d where
  notWordChar := Text.isWordChar_eq_false_of_isBlank hd
  notSign := ⟨Text.ne_of_isBlank hd (by decide), Text.ne_of_isBlank hd (by decide)⟩
  notPoint := Text.ne_of_isBlank hd (by decide)

theorem isBreak_space : IsBreak ' ' := isBreak_of_isBlank (by decide)

theorem isBreak_dollar : IsBreak '$' := ⟨by decide, by decide, by decide⟩

namespace IsBreak

variable {d : Char}

theorem notDigit (hd : IsBreak d) : d.isDigit = false := by
  cases h : d.isDigit with
  | false => rfl
  | true =>
    have hw := hd.notWordChar
    simp [Text.isWordChar, Text.isNumeral_of_isDigit h] at hw

theorem notLetter (hd : IsBreak d) : Text.isLetter d = false := by
  have h := hd.notWordChar
  simp only [Text.isWordChar, Bool.or_eq_false_iff] at h
  exact h.1.1

theorem notExponentMark (hd : IsBreak d) : Number.isExponentMark d = false := by
  cases h : Number.isExponentMark d with
  | false => rfl
  | true =>
    simp only [Number.isExponentMark, Bool.or_eq_true, beq_iff_eq] at h
    have hw := hd.notLetter
    rcases h with rfl | rfl
    · rw [Text.isLetter_of_isAlpha (by decide)] at hw
      cases hw
    · rw [Text.isLetter_of_isAlpha (by decide)] at hw
      cases hw

end IsBreak

/-! ## Runs of a class of characters -/

variable {p : Char → Bool} {d : Char}

theorem takeWhile_append_cons (hd : p d = false) (w zs : List Char) :
    (w ++ d :: zs).takeWhile p = w.takeWhile p := by
  induction w with
  | nil => simp [hd]
  | cons c w ih => simp [List.takeWhile_cons, ih]

/-- A run that leaves something leaves it also when more follows. -/
theorem takeWhile_append_of_ne_nil {cs : List Char} (h : cs.dropWhile p ≠ []) (ys : List Char) :
    (cs ++ ys).takeWhile p = cs.takeWhile p ∧ (cs ++ ys).dropWhile p = cs.dropWhile p ++ ys := by
  induction cs with
  | nil => simp at h
  | cons c cs ih =>
    simp only [List.cons_append, List.takeWhile_cons, List.dropWhile_cons] at h ⊢
    split
    · rename_i hc
      simp only [hc, if_true] at h
      obtain ⟨ht, hr⟩ := ih h
      exact ⟨by rw [ht], hr⟩
    · exact ⟨rfl, rfl⟩

/-! ## Words in front of a break -/

theorem word_append {cs : List Char} (h : afterWord cs ≠ []) (ys : List Char) :
    word (cs ++ ys) = word cs ∧ afterWord (cs ++ ys) = afterWord cs ++ ys :=
  takeWhile_append_of_ne_nil h ys

end Stencil.Scan

namespace Stencil.Number

open Scan (IsBreak)

variable {d : Char}

/-! ## Literals in front of a break -/

theorem digitRun_append_cons (hd : IsBreak d) (w zs : List Char) :
    digitRun (w ++ d :: zs) = digitRun w :=
  Scan.takeWhile_append_cons hd.notDigit w zs

theorem minusPart_append_cons (hd : IsBreak d) (w zs : List Char) :
    minusPart (w ++ d :: zs) = minusPart w := by
  cases w with
  | nil => simp [minusPart, hd.notSign.2]
  | cons c w => rfl

theorem signPart_append_cons (hd : IsBreak d) (w zs : List Char) :
    signPart (w ++ d :: zs) = signPart w := by
  cases w with
  | nil => simp [signPart, hd.notSign.1, hd.notSign.2]
  | cons c w => rfl

theorem fractionPart_append_cons (hd : IsBreak d) (w zs : List Char) :
    fractionPart (w ++ d :: zs) = fractionPart w := by
  cases w with
  | nil => simp [fractionPart, hd.notPoint]
  | cons c w => simp [fractionPart, digitRun_append_cons hd]

theorem drop_append_cons {n : Nat} {w : List Char} (h : n ≤ w.length) (d : Char)
    (zs : List Char) : (w ++ d :: zs).drop n = w.drop n ++ d :: zs :=
  List.drop_append_of_le_length h

theorem exponentPart_append_cons (hd : IsBreak d) (w zs : List Char) :
    exponentPart (w ++ d :: zs) = exponentPart w := by
  cases w with
  | nil => simp [exponentPart, hd.notExponentMark]
  | cons c w =>
    simp only [List.cons_append, exponentPart, signPart_append_cons hd,
      drop_append_cons ((signPart_isPrefix w).length_le), digitRun_append_cons hd]

/-- A literal in front of a break does not depend on what stands behind the break. -/
theorem literal_append_cons (hd : IsBreak d) (w zs : List Char) :
    literal (w ++ d :: zs) = literal w := by
  simp only [literal, literalParts, minusPart_append_cons hd, drop_append_cons ((minusPart_isPrefix _).length_le),
    digitRun_append_cons hd, drop_append_cons ((digitRun_isPrefix _).length_le),
    fractionPart_append_cons hd, drop_append_cons ((fractionPart_isPrefix _).length_le),
    exponentPart_append_cons hd]

/-- A literal that a break follows somewhere does not change when more follows. -/
theorem literal_append (hd : IsBreak d) {cs : List Char} (h : d ∈ cs.drop (literal cs).length)
    (ys : List Char) : literal (cs ++ ys) = literal cs := by
  have hr : literal cs ++ cs.drop (literal cs).length = cs :=
    List.prefix_iff_eq_append.1 (literal_isPrefix cs)
  obtain ⟨w, zs, hw⟩ := List.append_of_mem h
  have hcs : (literal cs ++ w) ++ d :: zs = cs := by rw [List.append_assoc, ← hw, hr]
  have hys : (literal cs ++ w) ++ d :: (zs ++ ys) = cs ++ ys := by
    rw [← List.cons_append, ← List.append_assoc, hcs]
  calc literal (cs ++ ys) = literal ((literal cs ++ w) ++ d :: (zs ++ ys)) := by rw [hys]
    _ = literal (literal cs ++ w) := literal_append_cons hd _ _
    _ = literal ((literal cs ++ w) ++ d :: zs) := (literal_append_cons hd _ _).symm
    _ = literal cs := by rw [hcs]

end Stencil.Number
