import Stencil.Node
import Stencil.Proofs.Scan.Line
set_option autoImplicit false

/-!
# Escapes in text

Text outside tags spells characters: a backslash and a brace need a backslash in front
of them, a closing brace may have one.  A place of a text is escaped when the run of
backslashes in front of it is odd.  What cannot be read as text is said in terms of
such places alone (`Scan.FaultAt`), and the scan of text without a tag finds the
characters that are spelled or the leftmost fault (`Scan.described_text`).
-/

namespace Stencil.Scan

/-! ## Spellings -/

/-- The characters stand for the one character in text. -/
inductive Spells (c : Char) : List Char → Prop where
  | plain (hb : c ≠ '{') (hs : c ≠ '\\') : Spells c [c]
  | escape (he : isTextEscape c = true) : Spells c ['\\', c]

/-- The characters stand for the ones in a row. -/
inductive SpellsAll : List Char → List Char → Prop where
  | nil : SpellsAll [] []
  | cons {c : Char} {p s cs : List Char} (hc : Spells c p) (hs : SpellsAll s cs) :
    SpellsAll (c :: s) (p ++ cs)

theorem spells_escapedChar (c : Char) : Spells c (Node.escapedChar c) := by
  unfold Node.escapedChar
  split
  · rename_i h
    subst h
    exact .escape rfl
  split
  · rename_i h
    subst h
    exact .escape rfl
  · rename_i hs hb
    exact .plain hb hs

theorem spellsAll_escaped (s : List Char) : SpellsAll s (s.flatMap Node.escapedChar) := by
  induction s with
  | nil => exact .nil
  | cons c s ih => exact .cons (spells_escapedChar c) ih

theorem lineAfter_eq (line : Nat) (c : Char) : lineAfter line c = line + newlines [c] := by
  have h := line_lineAfter line c []
  rwa [newlines_nil, Nat.add_zero] at h

theorem Spells.lineAfter_eq {c : Char} {p : List Char} (h : Spells c p) (line : Nat) :
    lineAfter line c = line + newlines p := by
  cases h with
  | plain hb hs => exact Scan.lineAfter_eq line c
  | escape he => rw [newlines_cons_of_ne (by decide), Scan.lineAfter_eq]

theorem lineAfter_of_isTextEscape {c : Char} (he : isTextEscape c = true) (line : Nat) :
    lineAfter line c = line := by
  refine if_neg ?_
  rintro rfl
  cases he

/-- A spelled character is scanned as the character. -/
theorem Spells.text_append {c : Char} {p : List Char} (h : Spells c p) (cs : List Char)
    (line : Nat) : text (p ++ cs) line = (text cs (lineAfter line c)).map (c :: ·) := by
  cases h with
  | plain hb hs => exact text_plain hb hs cs line
  | escape he =>
    rw [lineAfter_of_isTextEscape he]
    exact text_escape he cs line

/-- What is spelled is scanned to its end. -/
theorem SpellsAll.text_eq {s cs : List Char} (h : SpellsAll s cs) (line : Nat) :
    ∃ line', text cs line = ⟨.ok s, [], line'⟩ := by
  induction h generalizing line with
  | nil => exact ⟨line, rfl⟩
  | @cons c p s cs hc _ ih =>
    obtain ⟨line', hline⟩ := ih (lineAfter line c)
    rw [hc.text_append, hline]
    exact ⟨line', rfl⟩

/-- The text with each escape replaced by the character that it stands for. -/
def resolved : List Char → List Char
  | [] => []
  | [c] => [c]
  | c :: e :: cs => if c = '\\' then e :: resolved cs else c :: resolved (e :: cs)

theorem Spells.resolved_append {c : Char} {p : List Char} (h : Spells c p) (cs : List Char) :
    resolved (p ++ cs) = c :: resolved cs := by
  cases h with
  | plain hb hs =>
    cases cs with
    | nil => rfl
    | cons d cs => exact if_neg hs
  | escape he => exact if_pos rfl

theorem SpellsAll.resolved_eq {s cs : List Char} (h : SpellsAll s cs) : resolved cs = s := by
  induction h with
  | nil => rfl
  | cons hc hs ih => rw [hc.resolved_append, ih]

theorem SpellsAll.eq_nil_iff {s cs : List Char} (h : SpellsAll s cs) : s = [] ↔ cs = [] := by
  cases h with
  | nil => exact Iff.rfl
  | cons hc hs => cases hc <;> simp

/-! ## Escaped places -/

/-- How many backslashes stand directly in front of a place, behind the given characters. -/
def backslashes (before : List Char) : Nat := (before.reverse.takeWhile (· == '\\')).length

/-- The place behind the characters is not escaped: the backslashes in front of it escape each
other. -/
def Unescaped (before : List Char) : Prop := backslashes before % 2 = 0

instance (before : List Char) : Decidable (Unescaped before) :=
  inferInstanceAs (Decidable (_ = _))

theorem unescaped_nil : Unescaped [] := rfl

theorem not_unescaped_backslash : ¬Unescaped ['\\'] := by decide

theorem backslashes_append (p before : List Char) :
    backslashes (p ++ before) =
      if backslashes before = before.length then before.length + backslashes p
      else backslashes before := by
  unfold backslashes
  rw [List.reverse_append, List.takeWhile_append, List.length_reverse]
  split
  · rw [List.length_append, List.length_reverse]
  · rfl

/-- A spelled character escapes nothing behind it. -/
theorem Spells.unescaped_append {c : Char} {p : List Char} (h : Spells c p) (before : List Char) :
    Unescaped (p ++ before) ↔ Unescaped before := by
  have hp : backslashes p % 2 = 0 := by
    cases h with
    | plain hb hs => simp [backslashes, hs]
    | escape he =>
      by_cases hc : c = '\\'
      · rw [hc]
        decide
      · simp [backslashes, hc]
  unfold Unescaped
  rw [backslashes_append]
  split <;> omega

/-- An unescaped place of a text that begins with a spelled character is at its beginning or behind
that character. -/
theorem Spells.split {c : Char} {p : List Char} (h : Spells c p) {cs before after : List Char}
    (hsplit : p ++ cs = before ++ after) (hu : Unescaped before) :
    before = [] ∨ ∃ more, before = p ++ more ∧ cs = more ++ after ∧ Unescaped more := by
  cases before with
  | nil => exact .inl rfl
  | cons b before =>
    right
    cases h with
    | plain hb hs =>
      obtain ⟨rfl, hcs⟩ := List.cons.inj hsplit
      exact ⟨before, rfl, hcs, ((Spells.plain hb hs).unescaped_append before).1 hu⟩
    | escape he =>
      obtain ⟨rfl, htail⟩ := List.cons.inj hsplit
      cases before with
      | nil => exact absurd hu not_unescaped_backslash
      | cons d before =>
        obtain ⟨rfl, hcs⟩ := List.cons.inj htail
        exact ⟨before, rfl, hcs, ((Spells.escape he).unescaped_append before).1 hu⟩

/-! ## Faults -/

/-- Text cannot go on here, and these are the characters for which it cannot. -/
inductive Fault : List Char → List Char → LexError → Prop where
  | brace (after : List Char) : Fault ('{' :: after) ['{'] .braceWithoutDollar
  | escape {c : Char} (hc : isTextEscape c = false) (after : List Char) :
    Fault ('\\' :: c :: after) ['\\', c] (.invalidEscape c)
  | trailing : Fault ['\\'] ['\\'] .trailingBackslash

/-- At an unescaped place the text has a fault, up to whose last character it is `read`. -/
def FaultAt (cs read : List Char) (e : LexError) : Prop :=
  ∃ before after bad, cs = before ++ after ∧ Unescaped before ∧ Fault after bad e ∧
    read = before ++ bad

/-- The fault is the leftmost one. -/
structure IsLeftmost (cs read : List Char) (e : LexError) : Prop where
  fault : FaultAt cs read e
  least : ∀ read' e', FaultAt cs read' e' → read.length ≤ read'.length

/-- No tag is opened at an unescaped place. -/
def NoTag (cs : List Char) : Prop :=
  ∀ before after, cs = before ++ '{' :: '$' :: after → ¬Unescaped before

/-- What text without a tag has to keep to: no opening brace is unescaped, and behind an unescaped
backslash stands a character that can be escaped. -/
structure Faultless (cs : List Char) : Prop where
  brace : ∀ before after, cs = before ++ '{' :: after → ¬Unescaped before
  backslash : ∀ before after, cs = before ++ '\\' :: after → Unescaped before →
    ∃ c rest, after = c :: rest ∧ (c = '\\' ∨ c = '{' ∨ c = '}')

theorem Faultless.noTag {cs : List Char} (h : Faultless cs) : NoTag cs :=
  fun before after hsplit => h.brace before ('$' :: after) hsplit

theorem NoTag.not_opening {cs : List Char} (h : NoTag cs) (r : List Char) : cs ≠ '{' :: '$' :: r :=
  fun heq => h [] r heq unescaped_nil

/-- A token is a text where the template neither ends nor opens a tag. -/
theorem NoTag.textToken_eq {cs : List Char} (h : NoTag cs) (hne : cs ≠ []) (line : Nat) :
    textToken cs line = (text cs line).map fun s => .text (String.ofList s) := by
  unfold textToken
  split
  · exact absurd rfl hne
  · exact absurd rfl (h.not_opening _)
  · rfl

/-! ### At the beginning -/

variable {cs bad read : List Char} {e : LexError}

theorem Fault.not_spelled {c : Char} {p : List Char} (h : Spells c p) :
    ¬Fault (p ++ cs) bad e := by
  intro hfault
  cases h with
  | plain hb hs =>
    cases hfault with
    | brace => exact hb rfl
    | escape => exact hs rfl
    | trailing => exact hs rfl
  | escape he =>
    cases hfault with
    | escape hc =>
      rw [he] at hc
      cases hc

/-- What is at fault at a place is determined by what stands there. -/
theorem Fault.bad_eq {bad' : List Char} {e' : LexError} (h : Fault cs bad e)
    (h' : Fault cs bad' e') : bad = bad' := by
  cases h <;> cases h' <;> rfl

theorem Fault.length_bad (h : Fault cs bad e) : 0 < bad.length ∧ bad.length ≤ 2 := by
  cases h <;> simp

/-- A fault at the beginning is the leftmost. -/
theorem Fault.isLeftmost (h : Fault cs bad e) : IsLeftmost cs bad e := by
  refine ⟨⟨[], cs, bad, rfl, unescaped_nil, h, rfl⟩, ?_⟩
  rintro read' e' ⟨before, after, bad', hsplit, -, hfault, rfl⟩
  cases before with
  | nil =>
    obtain rfl : cs = after := hsplit
    rw [h.bad_eq hfault]
    exact Nat.le_refl _
  | cons b before =>
    have := h.length_bad
    have := hfault.length_bad
    simp only [List.cons_append, List.length_cons, List.length_append]
    omega

/-! ### Behind a spelled character -/

section

variable {c : Char} {p : List Char} (h : Spells c p)
include h

theorem Spells.noTag (hn : NoTag (p ++ cs)) : NoTag cs := by
  rintro before after rfl hu
  exact hn (p ++ before) after (List.append_assoc ..).symm ((h.unescaped_append before).2 hu)

theorem Spells.faultAt_append_iff :
    FaultAt (p ++ cs) read e ↔ ∃ more, read = p ++ more ∧ FaultAt cs more e := by
  constructor
  · rintro ⟨before, after, bad, hsplit, hu, hfault, rfl⟩
    rcases h.split hsplit hu with rfl | ⟨more, rfl, rfl, hmore⟩
    · rw [List.nil_append] at hsplit
      exact absurd (hsplit ▸ hfault) (Fault.not_spelled h)
    · exact ⟨more ++ bad, List.append_assoc .., more, after, bad, rfl, hmore, hfault, rfl⟩
  · rintro ⟨more, rfl, before, after, bad, rfl, hu, hfault, rfl⟩
    exact ⟨p ++ before, after, bad, (List.append_assoc ..).symm, (h.unescaped_append before).2 hu,
      hfault, (List.append_assoc ..).symm⟩

theorem Spells.isLeftmost (hl : IsLeftmost cs read e) : IsLeftmost (p ++ cs) (p ++ read) e := by
  refine ⟨h.faultAt_append_iff.2 ⟨read, rfl, hl.fault⟩, fun read' e' hfault => ?_⟩
  obtain ⟨more, rfl, hmore⟩ := h.faultAt_append_iff.1 hfault
  rw [List.length_append, List.length_append]
  exact Nat.add_le_add_left (hl.least more e' hmore) _

end

/-- What is spelled has no fault. -/
theorem SpellsAll.not_faultAt {s : List Char} (h : SpellsAll s cs) : ¬FaultAt cs read e := by
  induction h generalizing read with
  | nil =>
    rintro ⟨before, after, bad, hsplit, -, hfault, -⟩
    obtain ⟨-, rfl⟩ := List.append_eq_nil_iff.1 hsplit.symm
    cases hfault
  | cons hc hs ih =>
    intro hfault
    obtain ⟨more, -, hmore⟩ := hc.faultAt_append_iff.1 hfault
    exact ih hmore

theorem SpellsAll.noTag {s : List Char} (h : SpellsAll s cs) : NoTag cs := by
  intro before after hsplit hu
  exact h.not_faultAt ⟨before, _, _, hsplit, hu, .brace _, rfl⟩

theorem faultless_iff : Faultless cs ↔ ∀ read e, ¬FaultAt cs read e := by
  constructor
  · rintro h _ _ ⟨before, after, bad, hsplit, hu, hfault, -⟩
    cases hfault with
    | brace after => exact h.brace before after hsplit hu
    | @escape c hc after =>
      obtain ⟨d, rest, heq, hd⟩ := h.backslash before (c :: after) hsplit hu
      obtain ⟨rfl, -⟩ := List.cons.inj heq
      rcases hd with rfl | rfl | rfl <;> cases hc
    | trailing =>
      obtain ⟨d, rest, heq, -⟩ := h.backslash before [] hsplit hu
      cases heq
  · refine fun h => ⟨fun before after hsplit hu => ?_, fun before after hsplit hu => ?_⟩
    · exact h _ _ ⟨before, _, _, hsplit, hu, .brace after, rfl⟩
    · cases after with
      | nil => exact absurd ⟨before, _, _, hsplit, hu, .trailing, rfl⟩ (h _ _)
      | cons c after =>
        refine ⟨c, after, rfl, ?_⟩
        cases hc : isTextEscape c with
        | true => simpa [isTextEscape, or_assoc] using hc
        | false => exact absurd ⟨before, _, _, hsplit, hu, .escape hc after, rfl⟩ (h _ _)

/-! ## The scan -/

/-- What is said of the scan of text without a tag: it finds the characters that the text spells, to
its end, or the leftmost fault, on the line on which that ends. -/
def Described (cs : List Char) (line : Nat) (found : Scan (List Char)) : Prop :=
  match found.result with
  | .ok s => SpellsAll s cs ∧ found.rest = []
  | .error e => ∃ read, IsLeftmost cs read e ∧ found.line = line + newlines read

theorem Spells.described {c : Char} {p : List Char} (h : Spells c p) {line : Nat}
    {found : Scan (List Char)} (hf : Described cs (lineAfter line c) found) :
    Described (p ++ cs) line (found.map (c :: ·)) := by
  obtain ⟨result, rest, line'⟩ := found
  cases result with
  | ok s => exact ⟨.cons h hf.1, hf.2⟩
  | error e =>
    obtain ⟨read, hread, hline⟩ := hf
    refine ⟨p ++ read, h.isLeftmost hread, ?_⟩
    have hafter := h.lineAfter_eq line
    rw [newlines_append]
    simp only [line_map] at hline ⊢
    omega

/-- The scan of text without a tag. -/
theorem described_text (cs : List Char) (line : Nat) (hn : NoTag cs) :
    Described cs line (text cs line) := by
  fun_induction text cs line with
  | case1 line => exact ⟨.nil, rfl⟩
  | case2 cs line hd =>
    obtain ⟨r, rfl⟩ := List.head?_eq_some_iff.1 hd
    exact absurd unescaped_nil (hn [] r rfl)
  | case3 cs line hd => exact ⟨_, (Fault.brace cs).isLeftmost, rfl⟩
  | case4 line => exact ⟨_, Fault.trailing.isLeftmost, rfl⟩
  | case5 line e cs he hne ih =>
    have hspells : Spells e ['\\', e] := .escape he
    refine hspells.described ?_
    rw [lineAfter_of_isTextEscape he]
    exact ih (hspells.noTag hn)
  | case6 line e cs he hne =>
    refine ⟨_, (Fault.escape (by simpa using he) cs).isLeftmost, ?_⟩
    rw [newlines_cons_of_ne (by decide)]
    exact lineAfter_eq line e
  | case7 c cs line hb hs ih =>
    have hspells : Spells c [c] := .plain hb hs
    exact hspells.described (ih (hspells.noTag hn))

end Stencil.Scan
