import Stencil.Proofs.Lexer.Bytes
set_option autoImplicit false

/-!
# The cursor stands between characters

Wherever a lexer on bytes has characters left, each of its scans finds what the scan of these
characters finds, and stops at the byte where the characters begin that are left then
(`Finds`).  So it goes side by side with the lexer on characters, whatever both are told: no
character is ever cut, the answers are the same, and the cursor is the size of what was read
(`ByteLexer.exists_run?`).
-/

namespace Stencil.ByteLexer

variable {l : ByteLexer} {c : Char} {cs : List Char}

/-! ## One character -/

theorem peek?_of_remaining (h : l.remaining? = some cs) : l.peek? = some cs.head? := by
  rw [peek?, h, Option.map_some]

theorem peek?_of_nil (h : l.remaining? = some []) : l.peek? = some none := peek?_of_remaining h

theorem peek?_of_cons (h : l.remaining? = some (c :: cs)) : l.peek? = some (some c) :=
  peek?_of_remaining h

theorem peekSecond?_of_cons (h : l.remaining? = some (c :: cs)) : l.peekSecond? = some cs.head? := by
  rw [peekSecond?, h, Option.map_some, List.getElem?_cons_succ, ← List.head?_eq_getElem?]

theorem bump?_of_nil (h : l.remaining? = some []) : l.bump? = some (none, l) := by
  rw [bump?, peek?_of_nil h]
  rfl

theorem bump?_of_cons (h : l.remaining? = some (c :: cs)) : l.bump? = some (some c, l.past c) := by
  rw [bump?, peek?_of_cons h]
  rfl

theorem line_past {line : Nat} (hline : l.line = line) :
    (l.past c).line = Scan.lineAfter line c := congrArg (Scan.lineAfter · c) hline

theorem line_past_of_ne {line : Nat} (hline : l.line = line) (hc : c ≠ '\n') :
    (l.past c).line = line := (line_past hline).trans (if_neg hc)

/-! ## Scans -/

/-- The step finds what the scan finds, and stops where the characters begin that the scan
leaves; everything but the place is as before. -/
def Finds {α : Type} (l : ByteLexer) (r : Option (Step α)) (s : Scan α) : Prop :=
  ∃ p, r = some (s.result, { l with cursor := p, line := s.line }) ∧
    Text.charsFrom? l.template p = some s.rest

theorem Finds.map {α β : Type} {r : Option (Step α)} {s : Scan α} (h : Finds l r s) (f : α → β) :
    Finds l (r.map (Step.map f)) (s.map f) := by
  obtain ⟨p, rfl, hp⟩ := h
  exact ⟨p, rfl, hp⟩

/-- A step that stays finds what it says where it stands. -/
theorem Finds.here {α : Type} {line : Nat} (h : l.remaining? = some cs) (hline : l.line = line)
    (r : Except LexError α) : Finds l (some (r, l)) ⟨r, cs, line⟩ :=
  ⟨l.cursor, by rw [← hline], h⟩

/-- Behind a character a step goes on as before it, from another place. -/
theorem Finds.of_past {α : Type} {r : Option (Step α)} {s : Scan α} (h : Finds (l.past c) r s) :
    Finds l r s := h

/-- A step that stays behind a character finds what it says there. -/
theorem Finds.behind {α : Type} {line : Nat} (h : l.remaining? = some (c :: cs))
    (hline : l.line = line) (hc : c ≠ '\n') (r : Except LexError α) :
    Finds l (some (r, l.past c)) ⟨r, cs, line⟩ :=
  (Finds.here (remaining?_past h) (line_past_of_ne hline hc) r).of_past

theorem text_def (l : ByteLexer) :
    l.text = match l.peek? with
      | none => none
      | some none => some (.ok [], l)
      | some (some c) =>
        if c = '{' then
          l.peekSecond?.map fun d =>
            (if d = some '$' then .ok [] else .error .braceWithoutDollar, l)
        else if c = '\\' then
          match (l.past c).bump? with
          | none => none
          | some (none, l') => some (.error .trailingBackslash, l')
          | some (some e, l') =>
            if Scan.isTextEscape e then (text l').map (Step.map (e :: ·))
            else some (.error (.invalidEscape e), l')
        else (text (l.past c)).map (Step.map (c :: ·)) := by
  rw [text.eq_def]
  rcases l.peek? with _ | _ | c
  · rfl
  · rfl
  · dsimp only
    rcases (l.past c).bump? with _ | ⟨_ | e, l'⟩ <;> rfl

theorem text_finds {line : Nat} (h : l.remaining? = some cs) (hline : l.line = line) :
    Finds l l.text (Scan.text cs line) := by
  -- along the scan, whose branches are those of the lexer wherever characters are left
  fun_induction Scan.text cs line generalizing l with
  | case1 line =>
    rw [text_def, peek?_of_nil h]
    exact .here h hline _
  | case2 cs line hd =>
    rw [text_def, peek?_of_cons h, peekSecond?_of_cons h, Option.map_some, if_pos hd]
    exact .here h hline _
  | case3 cs line hd =>
    rw [text_def, peek?_of_cons h, peekSecond?_of_cons h, Option.map_some, if_neg hd]
    exact .here h hline _
  | case4 line =>
    have hpast := remaining?_past h
    rw [text_def, peek?_of_cons h]
    simp only [bump?_of_nil hpast]
    exact .behind h hline (by decide) _
  | case5 line e cs he _ ih =>
    have hpast := remaining?_past h
    have hne : e ≠ '\n' := by
      rintro rfl
      cases he
    rw [text_def, peek?_of_cons h]
    simp only [bump?_of_cons hpast, he]
    exact (ih (remaining?_past hpast) (line_past_of_ne hline hne)).of_past.of_past.map _
  | case6 line e cs he _ =>
    have hpast := remaining?_past h
    rw [text_def, peek?_of_cons h]
    simp only [bump?_of_cons hpast, he]
    exact (Finds.here (remaining?_past hpast) (line_past hline) _).of_past.of_past
  | case7 c cs line hb hs ih =>
    rw [text_def, peek?_of_cons h]
    simp only [hb, hs, if_false]
    exact (ih (remaining?_past h) (line_past hline)).of_past.map _

theorem string_def (l : ByteLexer) :
    l.string = match l.bump? with
      | none => none
      | some (none, l') => some (.error .unterminatedString, l')
      | some (some c, l') =>
        if c = '"' then some (.ok [], l')
        else if c = '\\' then
          match l'.bump? with
          | none => none
          | some (none, l'') => some (.error .unterminatedString, l'')
          | some (some e, l'') =>
            match Scan.unescape? e with
            | some d => (string l'').map (Step.map (d :: ·))
            | none => some (.error (.invalidEscape e), l'')
        else (string l').map (Step.map (c :: ·)) := by
  rw [string.eq_def]
  rcases l.bump? with _ | ⟨_ | c, l'⟩
  · rfl
  · rfl
  · dsimp only
    rcases l'.bump? with _ | ⟨_ | e, l''⟩ <;> rfl

theorem string_finds {line : Nat} (h : l.remaining? = some cs) (hline : l.line = line) :
    Finds l l.string (Scan.string cs line) := by
  fun_induction Scan.string cs line generalizing l with
  | case1 line =>
    rw [string_def, bump?_of_nil h]
    exact .here h hline _
  | case2 cs line =>
    rw [string_def, bump?_of_cons h]
    exact .behind h hline (by decide) _
  | case3 line =>
    have hpast := remaining?_past h
    rw [string_def, bump?_of_cons h]
    simp only [bump?_of_nil hpast]
    exact .behind h hline (by decide) _
  | case4 line e cs d hd _ ih =>
    have hpast := remaining?_past h
    have hne : e ≠ '\n' := by
      rintro rfl
      cases hd
    rw [string_def, bump?_of_cons h]
    simp only [bump?_of_cons hpast, hd]
    exact (ih (remaining?_past hpast) (line_past_of_ne hline hne)).of_past.of_past.map _
  | case5 line e cs hd _ =>
    have hpast := remaining?_past h
    rw [string_def, bump?_of_cons h]
    simp only [bump?_of_cons hpast, hd]
    exact (Finds.here (remaining?_past hpast) (line_past hline) _).of_past.of_past
  | case6 c cs line hq hb ih =>
    rw [string_def, bump?_of_cons h]
    simp only [hq, hb, if_false]
    exact (ih (remaining?_past h) (line_past hline)).of_past.map _

theorem skipBlanks?_def (l : ByteLexer) :
    l.skipBlanks? = match l.peek? with
      | none => none
      | some none => some l
      | some (some c) => if Text.isBlank c then skipBlanks? (l.past c) else some l := by
  rw [skipBlanks?.eq_def]
  rcases l.peek? with _ | _ | c <;> rfl

/-- The blanks are skipped that the scan skips. -/
theorem exists_skipBlanks? {line : Nat} (h : l.remaining? = some cs) (hline : l.line = line) :
    ∃ p, l.skipBlanks? =
        some { l with cursor := p, line := (Scan.afterBlanks cs line).2 } ∧
      Text.charsFrom? l.template p = some (Scan.afterBlanks cs line).1 := by
  induction cs generalizing l line with
  | nil =>
    rw [skipBlanks?_def, peek?_of_nil h]
    exact ⟨l.cursor, by rw [Scan.afterBlanks, ← hline], h⟩
  | cons c cs ih =>
    rw [skipBlanks?_def, peek?_of_cons h, Scan.afterBlanks]
    dsimp only
    split
    · exact ih (remaining?_past h) (line_past hline)
    · exact ⟨l.cursor, by rw [← hline], h⟩

theorem word_finds {line : Nat} (h : l.remaining? = some cs) (hline : l.line = line) :
    Finds l l.word ⟨.ok (Scan.word cs), Scan.afterWord cs, line⟩ := by
  have happend : Scan.word cs ++ Scan.afterWord cs = cs := List.takeWhile_append_dropWhile
  rw [word, h, ← hline]
  exact ⟨_, rfl, remaining?_skip (h.trans (congrArg some happend.symm))⟩

theorem beginsNumber?_of_cons (h : l.remaining? = some (c :: cs)) :
    l.beginsNumber? c = some (Scan.beginsNumber (c :: cs)) := by
  rw [beginsNumber?]
  by_cases hc : c = '-'
  · subst hc
    rw [if_pos rfl, peekSecond?_of_cons h]
    rfl
  · rw [if_neg hc]
    simp [Scan.beginsNumber, hc]

/-- The number is measured on its bytes, and these are the characters of the literal. -/
theorem number_finds {line : Nat} (h : l.remaining? = some cs) (hline : l.line = line) :
    Finds l l.number
      ⟨Scan.numberToken (Number.literalParts cs).isDouble (Number.literal cs),
        cs.drop (Number.literal cs).length, line⟩ := by
  have happend : Number.literal cs ++ cs.drop (Number.literal cs).length = cs :=
    List.prefix_iff_eq_append.1 (Number.literal_isPrefix cs)
  have hsize := (Number.allNarrow_literal cs).utf8Len
  have hliteral : Text.charsTo? (String.ofList cs) ⟨(Number.literal cs).length⟩ =
      some (Number.literal cs) := by
    rw [← hsize]
    exact Text.charsTo?_eq_some (String.toList_ofList.trans happend.symm)
  have hskip := remaining?_skip (h.trans (congrArg some happend.symm))
  rw [hsize] at hskip
  refine ⟨_, ?_, hskip⟩
  simp only [number, h, Option.bind_eq_bind, Option.bind_some, Number.literalSize?_bytes, hliteral]
  rw [← hline]
  rfl

/-! ## Tokens -/

theorem textToken_finds {line : Nat} (h : l.remaining? = some cs) (hline : l.line = line) :
    Finds { l with expectsName := l.expectsName || ['{', '$'].isPrefixOf cs } l.textToken
      (Scan.textToken cs line) := by
  simp only [textToken, h, Option.bind_eq_bind, Option.bind_some]
  split
  · rename_i hempty
    obtain rfl := List.isEmpty_iff.1 hempty
    exact ⟨l.cursor, by simp [Scan.textToken, ← hline], h⟩
  split
  · rename_i hopen
    obtain ⟨rest, rfl⟩ := List.isPrefixOf_iff_prefix.1 hopen
    have hskip : (l.skip 2).remaining? = some rest := remaining?_skip h
    exact ⟨_, by simp [Scan.textToken, skip, ← hline], hskip⟩
  · rename_i hempty hopen
    have htext : Scan.textToken cs line =
        (Scan.text cs line).map fun s => .text (String.ofList s) := by
      unfold Scan.textToken
      split
      · exact absurd rfl hempty
      · exact absurd rfl hopen
      · rfl
    rw [htext, Bool.eq_false_iff.2 hopen, Bool.or_false]
    exact (text_finds h hline).map _

theorem tagTokenAt_finds {line : Nat} (h : l.remaining? = some (c :: cs)) (hline : l.line = line)
    (expectsName : Bool) :
    Finds l (tagTokenAt expectsName c l) (Scan.tagToken expectsName c cs line) := by
  have hpast := remaining?_past h
  -- both ask for the kinds of tokens in the same order
  unfold tagTokenAt Scan.tagToken
  by_cases h₁ : expectsName = true ∧ c = '='
  · have hne : c ≠ '\n' := by
      rw [h₁.2]
      decide
    rw [if_pos h₁, if_pos h₁]
    exact .behind h hline hne _
  rw [if_neg h₁, if_neg h₁]
  by_cases h₂ : expectsName = true ∧ Text.isLetter c = true
  · rw [if_pos h₂, if_pos h₂]
    exact (word_finds h hline).map _
  rw [if_neg h₂, if_neg h₂]
  by_cases h₃ : c = '$'
  · have hline' : (l.past c).line = line := line_past_of_ne hline (by rw [h₃]; decide)
    rw [if_pos h₃, if_pos h₃, peek?_of_remaining hpast, Option.map_some]
    by_cases hhead : cs.head? = some '}'
    · obtain ⟨rest, rfl⟩ := List.head?_eq_some_iff.1 hhead
      exact (Finds.behind hpast hline' (by decide) _).of_past
    · rw [if_neg hhead]
      split
      · exact absurd rfl hhead
      · exact (Finds.here hpast hline' _).of_past
  rw [if_neg h₃, if_neg h₃]
  by_cases h₄ : c = '"'
  · have hline' : (l.past c).line = line := line_past_of_ne hline (by rw [h₄]; decide)
    rw [if_pos h₄, if_pos h₄]
    exact (string_finds hpast hline').of_past.map _
  rw [if_neg h₄, if_neg h₄]
  by_cases h₅ : c = '@'
  · have hline' : (l.past c).line = line := line_past_of_ne hline (by rw [h₅]; decide)
    rw [if_pos h₅, if_pos h₅, peek?_of_remaining hpast]
    simp only [Option.bind_eq_bind, Option.bind_some]
    by_cases hd : cs.head?.any Text.isLetter = true
    · rw [if_pos hd, if_pos hd]
      exact (word_finds hpast hline').of_past.map _
    · rw [if_neg hd, if_neg hd]
      exact (Finds.here hpast hline' _).of_past
  rw [if_neg h₅, if_neg h₅, beginsNumber?_of_cons h]
  by_cases h₆ : Scan.beginsNumber (c :: cs) = true
  · simp only [Option.bind_eq_bind, Option.bind_some, if_pos h₆]
    exact number_finds h hline
  simp only [Option.bind_eq_bind, Option.bind_some, if_neg h₆]
  by_cases h₇ : Text.isLetter c = true
  · rw [if_pos h₇, if_pos h₇]
    exact (word_finds h hline).map _
  rw [if_neg h₇, if_neg h₇]
  cases ho : Operator.ofSymbol? c with
  | none => exact .here h hline _
  | some op =>
    obtain rfl := Operator.ofSymbol?_eq_some_iff.1 ho
    have hne : op.symbol ≠ '\n' := by cases op <;> decide
    exact .behind h hline hne _

/-- Behind the blanks the token is read where a character is left, and then no name is expected
any more. -/
theorem tagToken_finds {line : Nat} (h : l.remaining? = some cs) (hline : l.line = line) :
    Finds { l with expectsName := l.expectsName && (Scan.afterBlanks cs line).1.isEmpty } l.tagToken
      (match Scan.afterBlanks cs line with
        | ([], line) => ⟨.error .unclosedTag, [], line⟩
        | (c :: cs, line) => Scan.tagToken l.expectsName c cs line) := by
  obtain ⟨p, hblanks, hp⟩ := exists_skipBlanks? h hline
  simp only [tagToken, hblanks, Option.bind_eq_bind, Option.bind_some]
  generalize Scan.afterBlanks cs line = behind at hp ⊢
  obtain ⟨cs, line⟩ := behind
  have hpeek : peek? { l with cursor := p, line := line } = some cs.head? := peek?_of_remaining hp
  rw [hpeek, Option.bind_some]
  cases cs with
  | nil =>
    rw [List.isEmpty_nil, Bool.and_true]
    exact ⟨p, rfl, hp⟩
  | cons c cs =>
    rw [List.isEmpty_cons, Bool.and_false]
    exact tagTokenAt_finds (l := { l with cursor := p, line := line, expectsName := false }) hp rfl _

/-! ## Side by side -/

/-- Both lexers have the same characters left and agree on everything else. -/
structure Mirrors (l : ByteLexer) (v : Lexer) : Prop where
  remaining : l.remaining? = some v.rest
  line : l.line = v.line
  mode : l.mode = v.mode
  current : l.current = v.current
  expectsName : l.expectsName = v.expectsName

theorem mirrors_ofString (s : String) : Mirrors (ofString s) (Lexer.ofString s) where
  remaining := remaining?_eq_some_iff.2 ⟨[], rfl, rfl⟩
  line := rfl
  mode := rfl
  current := rfl
  expectsName := rfl

/-- The scan of the next token is the same in both modes. -/
theorem Mirrors.scan_finds {v : Lexer} (h : Mirrors l v) :
    Finds { l with expectsName := v.expectsNameAfter } l.scan v.scan := by
  cases hmode : v.mode with
  | text =>
    have hscan : l.scan = l.textToken := by rw [scan, h.mode, hmode]
    have hv : v.scan = Scan.textToken v.rest v.line := by rw [Lexer.scan, hmode]
    have hname : v.expectsNameAfter = (l.expectsName || ['{', '$'].isPrefixOf v.rest) := by
      rw [Lexer.expectsNameAfter, hmode, h.expectsName]
    rw [hscan, hv, hname]
    exact textToken_finds h.remaining h.line
  | tag =>
    have hscan : l.scan = l.tagToken := by rw [scan, h.mode, hmode]
    have hname : v.expectsNameAfter =
        (l.expectsName && (Scan.afterBlanks v.rest v.line).1.isEmpty) := by
      rw [Lexer.expectsNameAfter, hmode, h.expectsName]
    rw [hscan, Lexer.scan, hmode, hname, ← h.expectsName]
    exact tagToken_finds h.remaining h.line

/-- Both read the same token, or meet the same error, and stand at the same place then. -/
theorem Mirrors.next {v : Lexer} (h : Mirrors l v) :
    ∃ l', l.next = some (v.next.1, l') ∧ Mirrors l' v.next.2 ∧ l'.template = l.template := by
  obtain ⟨p, hscan, hp⟩ := h.scan_finds
  unfold ByteLexer.next
  rw [h.current, hscan]
  by_cases heof : v.current = some .eof
  · rw [if_pos heof, Lexer.next_of_eof heof]
    exact ⟨l, rfl, h, rfl⟩
  · rw [if_neg heof, Lexer.next_eq heof, Option.map_some]
    cases v.scan.result with
    | ok t => exact ⟨_, rfl, ⟨hp, rfl, h.mode, rfl, rfl⟩, rfl⟩
    | error e => exact ⟨_, rfl, ⟨hp, rfl, h.mode, h.current, rfl⟩, rfl⟩

theorem Mirrors.withMode {v : Lexer} (h : Mirrors l v) (m : Mode) :
    Mirrors { l with mode := m } (v.withMode m) :=
  ⟨h.remaining, h.line, rfl, h.current, h.expectsName⟩

theorem Mirrors.obey {v : Lexer} (h : Mirrors l v) (c : Lexer.Command) :
    ∃ l', l.obey? c = some l' ∧ Mirrors l' (v.obey c) ∧ l'.template = l.template := by
  cases c with
  | next =>
    obtain ⟨l', hnext, hmirrors, htemplate⟩ := h.next
    exact ⟨l', by rw [obey?, hnext]; rfl, hmirrors, htemplate⟩
  | switch m => exact ⟨_, rfl, h.withMode m, rfl⟩

theorem Mirrors.run {v : Lexer} (h : Mirrors l v) (cs : List Lexer.Command) :
    ∃ l', l.run? cs = some l' ∧ Mirrors l' (v.run cs) ∧ l'.template = l.template := by
  induction cs generalizing l v with
  | nil => exact ⟨l, rfl, h, rfl⟩
  | cons c cs ih =>
    obtain ⟨l₁, hobey, hmirrors, htemplate⟩ := h.obey c
    obtain ⟨l', hrun, hmirrors', htemplate'⟩ := ih hmirrors
    refine ⟨l', ?_, hmirrors', htemplate'.trans htemplate⟩
    rw [run?, List.foldlM_cons, hobey]
    exact hrun

theorem Mirrors.log?_eq {v : Lexer} (h : Mirrors l v) (cs : List Lexer.Command) :
    l.log? cs = some (v.log cs) := by
  induction cs generalizing l v with
  | nil => rfl
  | cons c cs ih =>
    cases c with
    | next =>
      obtain ⟨l', hnext, hmirrors, -⟩ := h.next
      rw [log?, hnext, Option.bind_some, ih hmirrors, hmirrors.line]
      rfl
    | switch m => exact ih (h.withMode m)

/-- The cursor cuts no character. -/
theorem Mirrors.isValid {v : Lexer} (h : Mirrors l v) : l.cursor.IsValid l.template := by
  obtain ⟨read, hsplit, hcursor⟩ := remaining?_eq_some_iff.1 h.remaining
  obtain ⟨hvalid, -⟩ := Text.exists_splits hsplit
  exact hcursor ▸ hvalid

/-- The cursor is the size of what was read. -/
theorem Mirrors.cursor_eq {v : Lexer} (h : Mirrors l v) :
    l.cursor = Lexer.cursor l.template v := by
  obtain ⟨read, hsplit, hcursor⟩ := remaining?_eq_some_iff.1 h.remaining
  have hsize : l.template.utf8ByteSize = String.utf8Len read + String.utf8Len v.rest := by
    rw [← String.utf8Len_toList, hsplit, String.utf8Len_append]
  rw [hcursor, Lexer.cursor, String.utf8ByteSize_ofList, hsize, Nat.add_sub_cancel]

/-- Whatever a lexer on bytes is told, it never cuts a character: it goes through to the same place
as the lexer on characters, and its answers and the lines of them are the same. -/
theorem exists_run? (s : String) (cs : List Lexer.Command) :
    ∃ l, (ofString s).run? cs = some l ∧
      (ofString s).log? cs = some ((Lexer.ofString s).log cs) ∧
      Mirrors l ((Lexer.ofString s).run cs) ∧
      l.cursor = Lexer.cursor s ((Lexer.ofString s).run cs) ∧
      l.cursor.IsValid s := by
  have h := mirrors_ofString s
  obtain ⟨l, hrun, hmirrors, htemplate⟩ := h.run cs
  have hcursor : l.cursor = Lexer.cursor s ((Lexer.ofString s).run cs) := by
    rw [hmirrors.cursor_eq, htemplate, ofString]
  have hvalid := hmirrors.isValid
  rw [htemplate] at hvalid
  exact ⟨l, hrun, h.log?_eq cs, hmirrors, hcursor, hvalid⟩

end Stencil.ByteLexer
