import Stencil.Proofs.Scan.TagScan
set_option autoImplicit false

/-!
# Lines

A scan counts lines and does nothing else with them: begun on a later line, it
finds the same and stops on a line as much later (`textToken_add`, `tagToken_add`,
`afterBlanks_add`).  It counts them exactly: its line and the line breaks it leaves
make up those it was given (`line_textToken`, `line_tagToken`, `line_afterBlanks`).
-/

namespace Stencil

/-- The line breaks of a text. -/
def newlines (cs : List Char) : Nat := cs.count '\n'

@[simp] theorem newlines_nil : newlines [] = 0 := rfl

@[simp] theorem newlines_append (as bs : List Char) :
    newlines (as ++ bs) = newlines as + newlines bs := List.count_append

theorem newlines_cons (c : Char) (cs : List Char) :
    newlines (c :: cs) = newlines cs + if c = '\n' then 1 else 0 := by
  simp [newlines, List.count_cons]

theorem newlines_cons_of_ne {c : Char} (h : c ≠ '\n') (cs : List Char) :
    newlines (c :: cs) = newlines cs := by
  simp [newlines_cons, h]

theorem newlines_eq_zero_iff {cs : List Char} : newlines cs = 0 ↔ '\n' ∉ cs :=
  List.count_eq_zero

namespace Scan

/-- The scan on a line that is `k` lines further down. -/
def later {α : Type} (s : Scan α) (k : Nat) : Scan α := { s with line := s.line + k }

theorem map_later {α β : Type} (f : α → β) (s : Scan α) (k : Nat) :
    (s.later k).map f = (s.map f).later k := rfl

theorem lineAfter_add (line k : Nat) (c : Char) :
    lineAfter (line + k) c = lineAfter line c + k := by
  unfold lineAfter
  split
  · omega
  · rfl

/-! ## Later lines -/

theorem text_add (cs : List Char) (line k : Nat) : text cs (line + k) = (text cs line).later k := by
  fun_induction text cs line with
  | case1 => rfl
  | case2 cs line hd =>
    obtain ⟨r, rfl⟩ := List.head?_eq_some_iff.1 hd
    exact text_opening ..
  | case3 cs line hd =>
    rw [text.eq_def]
    simp [hd, later]
  | case4 line => rfl
  | case5 line e cs he _ ih =>
    rw [text_escape he, ih, map_later]
  | case6 line e cs he _ =>
    rw [text.eq_def]
    simp [he, later, lineAfter_add]
  | case7 c cs line hb hs ih =>
    rw [text_plain hb hs, lineAfter_add, ih, map_later]

theorem string_add (cs : List Char) (line k : Nat) :
    string cs (line + k) = (string cs line).later k := by
  fun_induction string cs line with
  | case1 => rfl
  | case2 => exact string_quote ..
  | case3 => rfl
  | case4 line e cs d hd _ ih =>
    rw [string_escape hd, ih, map_later]
  | case5 line e cs hd _ =>
    rw [string.eq_def]
    simp [hd, later, lineAfter_add]
  | case6 c cs line hq hb ih =>
    rw [string_plain hq hb, lineAfter_add, ih, map_later]

theorem textToken_add (cs : List Char) (line k : Nat) :
    textToken cs (line + k) = (textToken cs line).later k := by
  unfold textToken
  split
  · rfl
  · rfl
  · rw [text_add, map_later]

theorem tagToken_add (expectsName : Bool) (c : Char) (cs : List Char) (line k : Nat) :
    tagToken expectsName c cs (line + k) = (tagToken expectsName c cs line).later k := by
  unfold tagToken
  by_cases h₁ : expectsName = true ∧ c = '='
  · rw [if_pos h₁, if_pos h₁]
    rfl
  rw [if_neg h₁, if_neg h₁]
  by_cases h₂ : expectsName = true ∧ Text.isLetter c = true
  · rw [if_pos h₂, if_pos h₂]
    rfl
  rw [if_neg h₂, if_neg h₂]
  by_cases h₃ : c = '$'
  · rw [if_pos h₃, if_pos h₃]
    split <;> rfl
  rw [if_neg h₃, if_neg h₃]
  by_cases h₄ : c = '"'
  · rw [if_pos h₄, if_pos h₄, string_add, map_later]
  rw [if_neg h₄, if_neg h₄]
  by_cases h₅ : c = '@'
  · rw [if_pos h₅, if_pos h₅]
    split <;> rfl
  rw [if_neg h₅, if_neg h₅]
  by_cases h₆ : beginsNumber (c :: cs) = true
  · rw [if_pos h₆, if_pos h₆]
    rfl
  rw [if_neg h₆, if_neg h₆]
  by_cases h₇ : Text.isLetter c = true
  · rw [if_pos h₇, if_pos h₇]
    rfl
  rw [if_neg h₇, if_neg h₇]
  cases Operator.ofSymbol? c <;> rfl

theorem afterBlanks_add (cs : List Char) (line k : Nat) :
    afterBlanks cs (line + k) = ((afterBlanks cs line).1, (afterBlanks cs line).2 + k) := by
  induction cs generalizing line with
  | nil => rfl
  | cons c cs ih =>
    unfold afterBlanks
    split
    · rw [lineAfter_add, ih]
    · rfl

/-! ## The count of lines -/

theorem line_lineAfter (line : Nat) (c : Char) (cs : List Char) :
    lineAfter line c + newlines cs = line + newlines (c :: cs) := by
  rw [newlines_cons]
  unfold lineAfter
  split <;> omega

theorem line_text (cs : List Char) (line : Nat) :
    (text cs line).line + newlines (text cs line).rest = line + newlines cs := by
  fun_induction text cs line with
  | case1 | case2 | case3 => rfl
  | case4 line => rw [newlines_cons_of_ne (by decide)]
  | case5 line e cs he _ ih =>
    have hne : e ≠ '\n' := by
      rintro rfl
      cases he
    rw [line_map, rest_map, ih, newlines_cons_of_ne (by decide), newlines_cons_of_ne hne]
  | case6 line e cs he _ =>
    rw [newlines_cons_of_ne (by decide)]
    exact line_lineAfter ..
  | case7 c cs line hb hs ih =>
    rw [line_map, rest_map, ih, line_lineAfter]

theorem line_string (cs : List Char) (line : Nat) :
    (string cs line).line + newlines (string cs line).rest = line + newlines cs := by
  fun_induction string cs line with
  | case1 => rfl
  | case2 cs line => rw [newlines_cons_of_ne (by decide)]
  | case3 line => rw [newlines_cons_of_ne (by decide)]
  | case4 line e cs d hd _ ih =>
    have hne : e ≠ '\n' := by
      rintro rfl
      exact absurd hd (by simp [unescape?])
    rw [line_map, rest_map, ih, newlines_cons_of_ne (by decide), newlines_cons_of_ne hne]
  | case5 line e cs hd _ =>
    rw [newlines_cons_of_ne (by decide)]
    exact line_lineAfter ..
  | case6 c cs line hq hb ih =>
    rw [line_map, rest_map, ih, line_lineAfter]

theorem line_textToken (cs : List Char) (line : Nat) :
    (textToken cs line).line + newlines (textToken cs line).rest = line + newlines cs := by
  unfold textToken
  split
  · rfl
  · rw [newlines_cons_of_ne (by decide), newlines_cons_of_ne (by decide)]
  · exact line_text ..

theorem line_afterBlanks (cs : List Char) (line : Nat) :
    (afterBlanks cs line).2 + newlines (afterBlanks cs line).1 = line + newlines cs := by
  induction cs generalizing line with
  | nil => rfl
  | cons c cs ih =>
    unfold afterBlanks
    split
    · rw [ih, line_lineAfter]
    · rfl

/-- A word has no line break. -/
theorem newlines_afterWord (cs : List Char) : newlines (afterWord cs) = newlines cs := by
  unfold afterWord
  induction cs with
  | nil => rfl
  | cons c cs ih =>
    rw [List.dropWhile_cons]
    split
    · rename_i hc
      have hne : c ≠ '\n' := by
        rintro rfl
        cases hc
      rw [ih, newlines_cons_of_ne hne]
    · rfl

/-- A number literal has no line break. -/
theorem newline_notMem_literal {cs : List Char} (h : beginsNumber cs = true) :
    '\n' ∉ Number.literal cs := by
  obtain ⟨l, hl⟩ := Number.exists_literal (digitRun_of_beginsNumber h)
  rw [Number.Literal.literal_eq hl]
  intro hm
  rcases l.mem_text hm with h | h
  · exact absurd h (by decide)
  · exact absurd h (by decide)

theorem newlines_drop_literal {cs : List Char} (h : beginsNumber cs = true) :
    newlines (cs.drop (Number.literal cs).length) = newlines cs := by
  have happend : Number.literal cs ++ cs.drop (Number.literal cs).length = cs :=
    List.prefix_iff_eq_append.1 (Number.literal_isPrefix cs)
  have hz := newlines_eq_zero_iff.2 (newline_notMem_literal h)
  have hs := congrArg newlines happend
  rw [newlines_append, hz, Nat.zero_add] at hs
  exact hs

theorem line_tagToken (expectsName : Bool) (c : Char) (cs : List Char) (line : Nat) :
    (tagToken expectsName c cs line).line + newlines (tagToken expectsName c cs line).rest =
      line + newlines (c :: cs) := by
  unfold tagToken
  split
  · rename_i h
    rw [h.2, newlines_cons_of_ne (by decide)]
  split
  · rw [newlines_afterWord]
  split
  · rename_i h
    subst h
    split <;> simp [newlines_cons_of_ne]
  split
  · rename_i h
    rw [line_map, rest_map, line_string, h, newlines_cons_of_ne (by decide)]
  split
  · rename_i h
    subst h
    split
    · rw [newlines_afterWord, newlines_cons_of_ne (by decide)]
    · rw [newlines_cons_of_ne (by decide)]
  split
  · rename_i h
    exact congrArg (line + ·) (newlines_drop_literal h)
  split
  · rw [newlines_afterWord]
  split
  · rename_i op ho
    obtain rfl := Operator.ofSymbol?_eq_some_iff.1 ho
    have hne : op.symbol ≠ '\n' := by cases op <;> decide
    rw [newlines_cons_of_ne hne]
  · rfl

end Scan

end Stencil
