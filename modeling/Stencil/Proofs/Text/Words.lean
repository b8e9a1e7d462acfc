import Mathlib
import Stencil.Text.Word
import Stencil.Text.Blank
import Stencil.Text.Lowercase
set_option autoImplicit false

/-!
# Blanks and the letters of words

No character of a word is a blank (`Text.isWordChar_eq_false_of_isBlank`).  The name of a
tag is compared in lower case, so that each of its letters may be written in either case
(`Text.lowercase_of_anyCase`).
-/

namespace Stencil.Text

/-! ## Blanks -/

/-- A blank is none of the characters in the table, when none of the few blanks is. -/
theorem covers_eq_false_of_isBlank {t : CodeTable}
    (hdisjoint : ∀ r ∈ blankRanges.ranges, ∀ k < r.last + 1 - r.first,
      t.covers (r.first + k) = false)
    {c : Char} (hc : isBlank c = true) : t.covers c.toNat = false := by
  obtain ⟨r, hr, hfirst, hlast⟩ := (blankRanges.covers_iff _).1 hc
  have hn := hdisjoint r hr (c.toNat - r.first) (by omega)
  rwa [Nat.add_sub_cancel' hfirst] at hn

theorem isLetter_eq_false_of_isBlank {c : Char} (hc : isBlank c = true) : isLetter c = false :=
  covers_eq_false_of_isBlank (by decide +kernel) hc

theorem isNumeral_eq_false_of_isBlank {c : Char} (hc : isBlank c = true) : isNumeral c = false :=
  covers_eq_false_of_isBlank (by decide +kernel) hc

theorem ne_of_isBlank {c d : Char} (hc : isBlank c = true) (hd : isBlank d = false) : c ≠ d := by
  rintro rfl
  rw [hc] at hd
  cases hd

/-- No blank stands in a word. -/
theorem isWordChar_eq_false_of_isBlank {c : Char} (hc : isBlank c = true) :
    isWordChar c = false := by
  have hunderscore : c ≠ '_' := ne_of_isBlank hc (by decide)
  simp [isWordChar, isLetter_eq_false_of_isBlank hc, isNumeral_eq_false_of_isBlank hc, hunderscore]

theorem isBlank_eq_false_of_isWordChar {c : Char} (hc : isWordChar c = true) :
    isBlank c = false := by
  cases h : isBlank c with
  | false => rfl
  | true =>
    rw [isWordChar_eq_false_of_isBlank h] at hc
    cases hc

theorem isWordChar_of_isDigit {c : Char} (hc : c.isDigit = true) : isWordChar c = true := by
  simp [isWordChar, isNumeral_of_isDigit hc]

/-- All of the characters are blanks. -/
def IsBlanks (cs : List Char) : Prop := ∀ c ∈ cs, isBlank c = true

theorem isBlanks_nil : IsBlanks [] := List.forall_mem_nil _

theorem isBlanks_singleton {c : Char} (hc : isBlank c = true) : IsBlanks [c] :=
  List.forall_mem_singleton.2 hc

theorem isBlanks_space : IsBlanks [' '] := isBlanks_singleton (by decide)

/-! ## Names of tags -/

/-- The second row has the letters of the first, each in either case. -/
def AnyCase (letters cs : List Char) : Prop :=
  List.Forall₂ (fun l c => c = l ∨ c = l.toUpper) letters cs

/-- The letters of which the names of tags consist. -/
def nameLetters : List Char := ['f', 'o', 'r', 'e', 'n', 'd']

theorem lower_nameLetter {l c : Char} (hl : l ∈ nameLetters) (hc : c = l ∨ c = l.toUpper) :
    c.toNat ≠ 0x3A3 ∧ lowerChar c = [l] ∧ isLetter c = true := by
  simp only [nameLetters, List.mem_cons, List.not_mem_nil, or_false] at hl
  rcases hl with rfl | rfl | rfl | rfl | rfl | rfl <;> rcases hc with rfl | rfl <;> decide

theorem lowerAfter_of_anyCase {letters cs : List Char} (h : AnyCase letters cs)
    (hletters : ∀ l ∈ letters, l ∈ nameLetters) (before : List Char) :
    lowerAfter before cs = letters := by
  induction h generalizing before with
  | nil => rfl
  | @cons l c letters cs hc _ ih =>
    obtain ⟨hl, hletters⟩ := List.forall_mem_cons.1 hletters
    obtain ⟨hsigma, hlower, -⟩ := lower_nameLetter hl hc
    rw [lowerAfter, if_neg hsigma, hlower, ih hletters]
    rfl

/-- A name in any case is the same name in lower case. -/
theorem lowercase_of_anyCase {letters cs : List Char} (h : AnyCase letters cs)
    (hletters : ∀ l ∈ letters, l ∈ nameLetters) : lowercase cs = letters :=
  lowerAfter_of_anyCase h hletters []

theorem isLetter_of_anyCase {letters cs : List Char} (h : AnyCase letters cs)
    (hletters : ∀ l ∈ letters, l ∈ nameLetters) : ∀ c ∈ cs, isLetter c = true := by
  induction h with
  | nil => nofun
  | cons hc _ ih =>
    obtain ⟨hl, hletters⟩ := List.forall_mem_cons.1 hletters
    exact List.forall_mem_cons.2 ⟨(lower_nameLetter hl hc).2.2, ih hletters⟩

theorem isWord_of_anyCase {letters cs : List Char} (h : AnyCase letters cs)
    (hletters : ∀ l ∈ letters, l ∈ nameLetters) (hne : letters ≠ []) : IsWord cs := by
  have hall := isLetter_of_anyCase h hletters
  cases h with
  | nil => exact absurd rfl hne
  | cons hc hcs =>
    obtain ⟨hfirst, hothers⟩ := List.forall_mem_cons.1 hall
    exact ⟨hfirst, fun d hd => isWordChar_of_isLetter (hothers d hd)⟩

end Stencil.Text
