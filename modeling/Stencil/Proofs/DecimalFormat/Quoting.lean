import Stencil.Proofs.DecimalFormat.Pattern
set_option autoImplicit false

/-!
# Quoted texts in a pattern

Any text can stand as a literal in a pattern when its apostrophes are written twice and the
rest is put in quotes (`Mark.reads_quote`).  In front of a block of slots and behind it such
texts are shown as they are, and the block shows each number as it does without them
(`apply_quoted`).
-/

namespace Stencil.DecimalFormat

/-- The text with every apostrophe twice. -/
def doubled (s : List Char) : List Char := s.flatMap fun c => if c = '\'' then ['\'', '\''] else [c]

/-- The text as a literal of a pattern: with every apostrophe twice, and in quotes if there is
another character. -/
def quote (s : List Char) : List Char :=
  if s.any (· != '\'') then '\'' :: (doubled s ++ ['\'']) else doubled s

/-! ## The reading of quoted texts -/

theorem doubled_cons {c : Char} (hc : c ≠ '\'') (s : List Char) :
    doubled (c :: s) = c :: doubled s := by
  rw [doubled, List.flatMap_cons, if_neg hc]
  rfl

namespace Mark

variable {cs : List Char} {ms : List Mark}

/-- Within quotes a text is read up to the closing quote. -/
theorem reads_doubled (h : Reads false cs ms) (hcs : cs.head? ≠ some '\'') (s : List Char) :
    Reads true (doubled s ++ '\'' :: cs) (s.map literal ++ ms) := by
  induction s with
  | nil => exact .quote hcs h
  | cons c s ih =>
    by_cases hc : c = '\''
    · subst hc
      exact .apostrophe ih
    · rw [doubled_cons hc]
      exact .quoted hc ih

/-- An enclosed text is read as the text, although its opening quote is taken for half an apostrophe
where the text begins with apostrophes. -/
theorem reads_opened (h : Reads false cs ms) (hcs : cs.head? ≠ some '\'') {s : List Char}
    (hs : ∃ c ∈ s, c ≠ '\'') :
    Reads false ('\'' :: (doubled s ++ '\'' :: cs)) (s.map literal ++ ms) := by
  induction s with
  | nil => exact absurd hs (by simp)
  | cons c s ih =>
    by_cases hc : c = '\''
    · -- two quotes in a row are read, and the next one opens the rest
      subst hc
      exact .apostrophe (ih (by simpa using hs))
    · have hopened := reads_doubled h hcs (c :: s)
      rw [doubled_cons hc] at hopened ⊢
      exact .quote (by simpa using hc) hopened

/-- Apostrophes alone need no quotes. -/
theorem reads_apostrophes (h : Reads false cs ms) {s : List Char} (hs : ∀ c ∈ s, c = '\'') :
    Reads false (doubled s ++ cs) (s.map literal ++ ms) := by
  induction s with
  | nil => exact h
  | cons c s ih =>
    obtain ⟨rfl, hrest⟩ := List.forall_mem_cons.1 hs
    exact .apostrophe (ih hrest)

/-- A text that is quoted is read as it is, unless an apostrophe follows. -/
theorem reads_quote (h : Reads false cs ms) (hcs : cs.head? ≠ some '\'') (s : List Char) :
    Reads false (quote s ++ cs) (s.map literal ++ ms) := by
  unfold quote
  split
  · rename_i hs
    rw [List.cons_append, List.append_assoc]
    exact reads_opened h hcs (by simpa using hs)
  · rename_i hs
    exact reads_apostrophes h (by simpa using hs)

/-- Outside quotes slots are read as slots. -/
theorem reads_slots (h : Reads false cs ms) {slots : List Char}
    (hslots : ∀ c ∈ slots, c ∈ ['#', '0', ',', '.']) :
    Reads false (slots ++ cs) (slots.map slot ++ ms) := by
  induction slots with
  | nil => exact h
  | cons c slots ih =>
    obtain ⟨hc, hslots⟩ := List.forall_mem_cons.1 hslots
    have hne : c ≠ '\'' := by
      rintro rfl
      simp at hc
    exact .unquoted hne (.slot hc) (ih hslots)

end Mark

/-! ## Blocks between literals -/

/-- The format with other literals. -/
def between (f : DecimalFormat) (before after : List Char) : DecimalFormat :=
  { f with before := before, after := after }

/-- What is shown of digits stands between the literals. -/
theorem layout_between (f : DecimalFormat) (before after : List Char) (negative : Bool)
    (integer fraction : List Char) :
    (f.between before after).layout negative integer fraction =
      before ++ (f.between [] []).layout negative integer fraction ++ after := by
  have hinteger : (f.between before after).integerDigits integer =
      (f.between [] []).integerDigits integer := rfl
  have hfraction : (f.between before after).fractionDigits fraction =
      (f.between [] []).fractionDigits fraction := rfl
  simp only [layout, hinteger, hfraction]
  simp only [between, List.append_assoc, List.nil_append, List.append_nil]

/-- What is shown of a number other than NaN stands between the literals. -/
theorem showNumber_between (f : DecimalFormat) (before after : List Char) {n : Number}
    (hn : ∀ x, n = .double x → x.isNaN = false) :
    (f.between before after).showNumber n =
      before ++ (f.between [] []).showNumber n ++ after := by
  cases n with
  | integer n => exact layout_between ..
  | double x =>
    have hscale : (f.between before after).scale = (f.between [] []).scale := rfl
    have hplaces : (f.between before after).maxFraction = (f.between [] []).maxFraction := rfl
    simp only [showNumber, showDouble, hn x rfl, hscale, hplaces, Bool.false_eq_true, if_false]
    split
    · simp only [DecimalFormat.between, List.append_assoc, List.nil_append, List.cons_append]
    · split
      · exact layout_between ..
      · exact layout_between ..

/-- A pattern of slots reads as slots. -/
theorem Mark.Reads.eq_slots {core : List Char} {ms : List Mark} (h : Mark.Reads false core ms)
    (hcore : ∀ c ∈ core, c ∈ ['#', '0', ',', '.']) : ms = core.map Mark.slot := by
  have hslots := Mark.reads_slots .done hcore
  rw [List.append_nil, List.append_nil] at hslots
  exact Option.some.inj (h.decode?_eq.symm.trans hslots.decode?_eq)

/-- Among slots there are no literals. -/
theorem eq_nil_of_slots {front back : List Mark} {slots core : List Char}
    (h : front ++ slots.map Mark.slot ++ back = core.map Mark.slot)
    (literals : ∀ m ∈ front ++ back, m.isSlot = false) :
    front = [] ∧ back = [] ∧ slots = core := by
  have hnone : front ++ back = [] := by
    refine List.eq_nil_iff_forall_not_mem.2 fun m hm => ?_
    have hmem : m ∈ core.map Mark.slot := by
      rw [← h]
      simp only [List.mem_append] at hm ⊢
      tauto
    obtain ⟨c, -, rfl⟩ := List.mem_map.1 hmem
    cases literals _ hm
  obtain ⟨rfl, rfl⟩ := List.append_eq_nil_iff.1 hnone
  rw [List.nil_append, List.append_nil] at h
  exact ⟨rfl, rfl, List.map_injective_iff.2 (fun _ _ h => Mark.slot.inj h) h⟩

theorem map_char_literal (s : List Char) : (s.map Mark.literal).map Mark.char = s := by
  rw [List.map_map]
  exact List.map_id _

/-- A pattern of slots alone has no literals, and between quoted texts it describes the same format
with these texts as its literals. -/
theorem Describes.between {core : List Char} {f : DecimalFormat} (h : Describes core f)
    (hcore : ∀ c ∈ core, c ∈ ['#', '0', ',', '.']) (before after : List Char) :
    f = f.between [] [] ∧
      Describes (quote before ++ core ++ quote after) (f.between before after) := by
  obtain @⟨front, back, slots, group, scale, reads, digit, literals, groups, scales⟩ := h
  obtain ⟨rfl, rfl, rfl⟩ := eq_nil_of_slots (reads.eq_slots hcore) literals
  obtain rfl : scale = 1 := by
    cases scales with
    | none => rfl
    | percent h => cases h
    | perMille h => cases h
  have hhead : (slots.text ++ quote after).head? ≠ some '\'' := by
    obtain ⟨c, hc, -⟩ := digit
    obtain ⟨d, ds, hd⟩ := List.exists_cons_of_ne_nil (List.ne_nil_of_mem hc)
    have hslot := hcore d (hd ▸ List.mem_cons_self)
    rw [hd]
    rintro ⟨⟩
    simp at hslot
  have hreads : Mark.Reads false (quote before ++ slots.text ++ quote after)
      (before.map Mark.literal ++ slots.text.map Mark.slot ++ after.map Mark.literal) := by
    have hafter := Mark.reads_quote .done (by simp) after
    rw [List.append_nil, List.append_nil] at hafter
    rw [List.append_assoc, List.append_assoc]
    exact Mark.reads_quote (Mark.reads_slots hafter hcore) hhead before
  have hliteral : ∀ m ∈ before.map Mark.literal ++ after.map Mark.literal, m.isSlot = false := by
    intro m hm
    rw [← List.map_append] at hm
    obtain ⟨c, -, rfl⟩ := List.mem_map.1 hm
    rfl
  have hscales : Scales (before.map Mark.literal ++ after.map Mark.literal) 1 := by
    refine .none (List.filter_eq_nil_iff.2 fun m hm => ?_)
    rw [← List.map_append] at hm
    obtain ⟨c, -, rfl⟩ := List.mem_map.1 hm
    exact Bool.false_ne_true
  have hdescribes := Describes.intro slots hreads digit hliteral groups hscales
  rw [map_char_literal, map_char_literal] at hdescribes
  exact ⟨rfl, hdescribes⟩

/-! ## Quoted strings -/

/-- The text quoted for a pattern. -/
def quoted (s : String) : String := String.ofList (quote s.toList)

/-- Between quoted texts a pattern of slots is accepted as it is alone, and shows every number other
than NaN between the texts as it shows it alone. -/
theorem apply_quoted {core : String} {f : DecimalFormat} (h : Describes core.toList f)
    (hcore : ∀ c ∈ core.toList, c ∈ ['#', '0', ',', '.']) (before after : String) {n : Number}
    (hn : ∀ x, n = .double x → x.isNaN = false) :
    ∃ shown, apply core n = .ok shown ∧
      apply (quoted before ++ core ++ quoted after) n = .ok (before ++ shown ++ after) := by
  obtain ⟨hf, hbetween⟩ := h.between hcore before.toList after.toList
  have hpattern : (quoted before ++ core ++ quoted after).toList =
      quote before.toList ++ core.toList ++ quote after.toList := by
    simp only [quoted, String.toList_append, String.toList_ofList]
  rw [← hpattern] at hbetween
  refine ⟨_, h.apply_eq n, (hbetween.apply_eq n).trans ?_⟩
  rw [showNumber_between f _ _ hn, ← hf, String.ofList_append, String.ofList_append,
    String.ofList_toList, String.ofList_toList]

/-- Apostrophes at both ends of the first text, around a digit and a percent sign, and apostrophes
alone in the second one. -/
theorem apply_quoted_apostrophes :
    Describes "#,##0.#".toList ⟨[], [], 1, some 3, 0, 1, 1⟩ ∧
      (∀ c ∈ "#,##0.#".toList, c ∈ ['#', '0', ',', '.']) ∧
      quoted "'0%'" = "'''0%'''" ∧ quoted "''" = "''''" ∧
      apply "'''0%'''#,##0.#''''" (.integer (-1234)) = .ok "'0%'-1,234''" := by
  have h : Describes "#,##0.#".toList ⟨[], [], 1, some 3, 0, 1, 1⟩ :=
    ofPattern?_eq_some_iff.1 (by decide +kernel)
  have hbefore : quoted "'0%'" = "'''0%'''" := by decide +kernel
  have hafter : quoted "''" = "''''" := by decide +kernel
  have hshown : apply "#,##0.#" (.integer (-1234)) = .ok "-1,234" := by decide +kernel
  have hslots : ∀ c ∈ "#,##0.#".toList, c ∈ ['#', '0', ',', '.'] := by
    have hlist : "#,##0.#".toList = ['#', ',', '#', '#', '0', '.', '#'] := by decide +kernel
    rw [hlist]
    simp
  obtain ⟨shown, hcore, hquoted⟩ :=
    apply_quoted h hslots "'0%'" "''" (n := .integer (-1234)) nofun
  obtain rfl := Except.ok.inj (hshown.symm.trans hcore)
  rw [hbefore, hafter] at hquoted
  exact ⟨h, hslots, hbefore, hafter, hquoted⟩

end Stencil.DecimalFormat
