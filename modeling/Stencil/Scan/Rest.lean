import Stencil.Scan
set_option autoImplicit false

/-!
# Where scans stop

The characters that a scan leaves are an end of those it was given, and a token
other than the end of the template takes at least one character.
-/

namespace Stencil.Scan

/-! ## What is left -/

theorem afterBlanks_suffix (cs : List Char) (line : Nat) : (afterBlanks cs line).1 <:+ cs := by
  induction cs generalizing line with
  | nil => exact List.suffix_refl _
  | cons c cs ih =>
    unfold afterBlanks
    split
    · exact (ih _).trans (List.suffix_cons ..)
    · exact List.suffix_refl _

theorem text_suffix (cs : List Char) (line : Nat) : (text cs line).rest <:+ cs := by
  fun_induction text cs line with
  | case1 | case2 | case3 => exact List.suffix_refl _
  | case4 => exact List.suffix_cons ..
  | case5 line e cs _ h ih =>
    exact ih.trans ((List.suffix_cons ..).trans (List.suffix_cons ..))
  | case6 => exact (List.suffix_cons ..).trans (List.suffix_cons ..)
  | case7 c cs line h₁ h₂ ih => exact ih.trans (List.suffix_cons ..)

theorem string_suffix (cs : List Char) (line : Nat) : (string cs line).rest <:+ cs := by
  fun_induction string cs line with
  | case1 => exact List.suffix_refl _
  | case2 | case3 => exact List.suffix_cons ..
  | case4 line e cs _ d h ih =>
    exact ih.trans ((List.suffix_cons ..).trans (List.suffix_cons ..))
  | case5 => exact (List.suffix_cons ..).trans (List.suffix_cons ..)
  | case6 c cs line h₁ h₂ ih => exact ih.trans (List.suffix_cons ..)

theorem afterWord_suffix (cs : List Char) : afterWord cs <:+ cs := List.dropWhile_suffix _

theorem textToken_suffix (cs : List Char) (line : Nat) : (textToken cs line).rest <:+ cs := by
  unfold textToken
  split
  · exact List.suffix_refl _
  · exact (List.suffix_cons ..).trans (List.suffix_cons ..)
  · exact text_suffix ..

theorem tagToken_suffix (expectsName : Bool) (c : Char) (cs : List Char) (line : Nat) :
    (tagToken expectsName c cs line).rest <:+ c :: cs := by
  unfold tagToken
  split
  · exact List.suffix_cons ..
  split
  · exact afterWord_suffix _
  split
  · split
    · exact (List.suffix_cons ..).trans (List.suffix_cons ..)
    · exact List.suffix_cons ..
  split
  · exact (string_suffix ..).trans (List.suffix_cons ..)
  split
  · split
    · exact (afterWord_suffix _).trans (List.suffix_cons ..)
    · exact List.suffix_cons ..
  split
  · exact List.drop_suffix ..
  split
  · exact afterWord_suffix _
  split
  · exact List.suffix_cons ..
  · exact List.suffix_refl _

/-! ## Progress -/

theorem length_lt_of_text_eq_ok {c : Char} {cs : List Char} {line : Nat} {s : List Char}
    (hc : c = '{' → cs.head? ≠ some '$') (h : (text (c :: cs) line).result = .ok s) :
    (text (c :: cs) line).rest.length < (c :: cs).length := by
  unfold text at h ⊢
  by_cases hb : c = '{'
  · simp [hb, hc hb] at h
  · simp only [hb, if_false] at h ⊢
    by_cases hs : c = '\\'
    · simp only [hs, if_true] at h ⊢
      cases cs with
      | nil => simp at h
      | cons e r =>
        simp only at h ⊢
        split at h
        · have := (text_suffix r line).length_le
          simp only [*, if_true, rest_map, List.length_cons]
          omega
        · simp at h
    · have := (text_suffix cs (lineAfter line c)).length_le
      simp only [hs, if_false, rest_map, List.length_cons]
      omega

theorem length_afterWord_lt {c : Char} {cs : List Char} (h : Text.isLetter c = true) :
    (afterWord (c :: cs)).length < (c :: cs).length := by
  have := (List.dropWhile_suffix Text.isWordChar (l := cs)).length_le
  simp only [afterWord, List.dropWhile_cons, Text.isWordChar_of_isLetter h, if_true,
    List.length_cons]
  omega

/-- A token read where text is expected takes a character, unless it is the end. -/
theorem length_lt_of_textToken_eq_ok {cs : List Char} {line : Nat} {t : Token}
    (ht : t ≠ .eof) (h : (textToken cs line).result = .ok t) :
    (textToken cs line).rest.length < cs.length := by
  unfold textToken at h ⊢
  split at h
  · simp only [Except.ok.injEq] at h
    exact absurd h.symm ht
  · simp only [List.length_cons]
    omega
  · rename_i h₁ h₂
    obtain ⟨s, hs, -⟩ := result_map_eq_ok.1 h
    cases cs with
    | nil => exact absurd rfl h₁
    | cons c cs =>
      refine length_lt_of_text_eq_ok ?_ hs
      rintro rfl hd
      obtain ⟨r, rfl⟩ : ∃ r, cs = '$' :: r := by
        cases cs with
        | nil => simp at hd
        | cons d r => exact ⟨r, by simpa using hd⟩
      exact h₂ r rfl

theorem length_literalParts_pos {cs : List Char} (h : beginsNumber cs = true) :
    0 < (Number.literalParts cs).text.length := by
  cases cs with
  | nil => simp [beginsNumber] at h
  | cons c cs =>
    by_cases hc : c = '-'
    · simp [Number.literalParts, Number.LiteralParts.text, Number.minusPart, hc]
    · have hd : c.isDigit = true := by simpa [beginsNumber, hc] using h
      simp [Number.literalParts, Number.LiteralParts.text, Number.minusPart, hc, Number.digitRun, hd]

/-- A token read in a tag takes a character. -/
theorem length_lt_of_tagToken_eq_ok {expectsName : Bool} {c : Char} {cs : List Char} {line : Nat}
    {t : Token} (h : (tagToken expectsName c cs line).result = .ok t) :
    (tagToken expectsName c cs line).rest.length < (c :: cs).length := by
  unfold tagToken at h ⊢
  split
  · simp
  rename_i h₁
  simp only [h₁, if_false] at h
  split
  · rename_i h₂
    exact length_afterWord_lt h₂.2
  rename_i h₂
  simp only [h₂, if_false] at h
  split
  · split
    · simp only [List.length_cons]
      omega
    · simp
  rename_i h₃
  simp only [h₃, if_false] at h
  split
  · have := (string_suffix cs line).length_le
    simp only [rest_map, List.length_cons]
    omega
  rename_i h₄
  simp only [h₄, if_false] at h
  split
  · split
    · have := (afterWord_suffix cs).length_le
      simp only [List.length_cons]
      omega
    · simp
  rename_i h₅
  simp only [h₅, if_false] at h
  split
  · rename_i hn
    have := length_literalParts_pos hn
    simp only [List.length_drop, List.length_cons]
    omega
  rename_i h₆
  simp only [h₆] at h
  split
  · rename_i h₇
    exact length_afterWord_lt h₇
  rename_i h₇
  simp only [h₇] at h
  split
  · simp
  · rename_i h₈
    simp [h₈] at h

end Stencil.Scan
