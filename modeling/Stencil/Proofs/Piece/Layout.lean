import Stencil.Proofs.Scan.Escapes
import Stencil.Proofs.Scan.Source
import Stencil.Proofs.Piece.Tokens
set_option autoImplicit false

/-!
# Layouts of a piece

A piece can be written in many ways: blanks may stand around every token of a tag and
have to stand only between elements and behind the name of a loop tag, each letter of
a name is in either case, and a closing brace of a text may be escaped.
`Piece.Layout` lists these ways.  All of them have the tokens of the piece
(`Lexer.yields_layout`).
-/

namespace Stencil

/-- The header can be written: its variable is a word, and its arguments can be written and stand
for values. -/
structure LoopHeader.IsWritable (h : LoopHeader) : Prop where
  name : Text.IsWord h.name.toList
  arguments : ∀ e ∈ h.arguments, e.IsWritable
  operands : h.HasOperands

theorem LoopHeader.IsWritable.elements {h : LoopHeader} (hh : h.IsWritable) :
    ∀ e ∈ .var h.name :: h.arguments, e.IsWritable :=
  List.forall_mem_cons.2 ⟨hh.name, hh.arguments⟩

/-- The characters are the elements in a row, blanks behind each.  Only behind the last of them
there may be none. -/
inductive Element.RowLayout : List Element → List Char → Prop where
  | nil : RowLayout [] []
  | cons {e : Element} {es : List Element} {gap row : List Char} (hgap : Text.IsBlanks gap)
    (hsep : es ≠ [] → gap ≠ []) (hrow : RowLayout es row) :
    RowLayout (e :: es) (e.sourceChars ++ (gap ++ row))

namespace Piece

/-- What the piece is made of can be written. -/
def IsWritable : Piece → Prop
  | text _ | closing => True
  | echo es => ∀ e ∈ es, e.IsWritable
  | opening h => h.IsWritable

/-- The characters stand for the piece. -/
inductive Layout : Piece → List Char → Prop where
  | text {s : String} {cs : List Char} (hs : Scan.SpellsAll s.toList cs) : Layout (text s) cs
  | echo {es : List Element} {front gap row : List Char} (hfront : Text.IsBlanks front)
    (hgap : Text.IsBlanks gap) (hrow : Element.RowLayout es row) :
    Layout (echo es) ('{' :: '$' :: (front ++ '=' :: (gap ++ (row ++ ['$', '}']))))
  | opening {h : LoopHeader} {front name gap row : List Char} (hfront : Text.IsBlanks front)
    (hname : Text.AnyCase ['f', 'o', 'r'] name) (hgap : Text.IsBlanks gap) (hsep : gap ≠ [])
    (hrow : Element.RowLayout (.var h.name :: h.arguments) row) :
    Layout (opening h) ('{' :: '$' :: (front ++ (name ++ (gap ++ (row ++ ['$', '}'])))))
  | closing {front name gap : List Char} (hfront : Text.IsBlanks front)
    (hname : Text.AnyCase ['e', 'n', 'd'] name) (hgap : Text.IsBlanks gap) :
    Layout closing ('{' :: '$' :: (front ++ (name ++ (gap ++ ['$', '}']))))

theorem hasOperands_of_isWritable {p : Piece} (hp : p.IsWritable) : p.HasOperands := by
  cases p with
  | opening h => exact hp.operands
  | _ => trivial

end Piece

/-! ## Blanks in front of a token -/

namespace Scan

open Text (IsBlanks)

theorem afterBlanks_of_not_blank {c : Char} (hc : Text.isBlank c = false) (cs : List Char)
    (line : Nat) : afterBlanks (c :: cs) line = (c :: cs, line) := by
  simp [afterBlanks, hc]

theorem afterBlanks_blanks {bs : List Char} (hb : IsBlanks bs) (cs : List Char) (line : Nat) :
    afterBlanks (bs ++ cs) line = afterBlanks cs (line + newlines bs) := by
  induction bs generalizing line with
  | nil => rfl
  | cons b bs ih =>
    obtain ⟨hblank, hb⟩ := List.forall_mem_cons.1 hb
    have hline := line_lineAfter line b bs
    rw [List.cons_append, afterBlanks, if_pos hblank, ih hb, hline]

namespace TagScan

variable {expectsName : Bool} {line : Nat} {cs : List Char} {s : Scan Token}

/-- Blanks in front of a token are skipped. -/
theorem afterBlanks_append {bs : List Char} (hb : IsBlanks bs)
    (h : TagScan expectsName (line + newlines bs) cs s) :
    afterBlanks (bs ++ cs) line = (cs, line + newlines bs) := by
  obtain ⟨c, r, rfl, hc⟩ := h.head_not_blank
  rw [afterBlanks_blanks hb, afterBlanks_of_not_blank hc]

theorem afterBlanks_eq (h : TagScan expectsName line cs s) : afterBlanks cs line = (cs, line) :=
  TagScan.afterBlanks_append Text.isBlanks_nil h

end TagScan

/-- A break stands behind blanks, and where no blank stands. -/
theorem exists_isBreak {bs cs : List Char} (hb : IsBlanks bs)
    (h : bs = [] → ∃ d r, cs = d :: r ∧ IsBreak d) : ∃ d r, bs ++ cs = d :: r ∧ IsBreak d := by
  cases bs with
  | nil => exact h rfl
  | cons b bs => exact ⟨b, bs ++ cs, rfl, isBreak_of_isBlank (List.forall_mem_cons.1 hb).1⟩

end Scan

namespace Lexer

/-! ## Tokens of a tag -/

/-- These are all tokens up to the end of the template. -/
def Yields (l : Lexer) (ts : List Token) : Prop := ∃ lts, l.tokens = .ok lts ∧ lts.map (·.2) = ts

theorem Yields.cons {l l' : Lexer} {t : Token} {ts : List Token} (ht : l.token = .ok (t, l'))
    (hne : t ≠ .eof) (h : (l'.withMode (l'.mode.after t)).Yields ts) : l.Yields (t :: ts) := by
  obtain ⟨lts, hl', hts⟩ := h
  refine ⟨(l.line, t) :: lts, ?_, by rw [List.map_cons, hts]⟩
  rw [tokens_eq, ht]
  dsimp only
  rw [if_neg hne, hl']

/-- Where nothing is left, only the end is read. -/
theorem Ready.yields_eof {l : Lexer} (hl : l.Ready) (h : l.rest = []) : l.Yields [.eof] := by
  have hscan : l.scan.result = .ok .eof := by
    rw [hl.scan, h]
    rfl
  have ht : l.token = .ok (.eof, l.advance .eof) :=
    token_eq_ok_iff.2 ⟨hl.unfinished, hscan, rfl⟩
  refine ⟨[(l.line, .eof)], ?_, rfl⟩
  rw [tokens_eq, ht]
  exact if_pos rfl

/-- The lexer that has just read the opening of a tag. -/
def opened (cs : List Char) (line : Nat) : Lexer :=
  { rest := cs, line, mode := .tag, current := some .tagOpen, expectsName := true }

/-- The lexer within a tag, behind the token `t`. -/
def within (t : Token) (cs : List Char) (line : Nat) : Lexer :=
  { rest := cs, line, mode := .tag, current := some t }

theorem token_of_tagScan {l : Lexer} (hm : l.mode = .tag) (hcur : l.current ≠ some .eof)
    {cs : List Char} {line : Nat} (hb : Scan.afterBlanks l.rest l.line = (cs, line))
    {s : Scan Token} (h : Scan.TagScan l.expectsName line cs s) {t : Token}
    (ht : s.result = .ok t) : l.token = .ok (t, within t s.rest s.line) := by
  obtain ⟨c, r, rfl, hs⟩ := h.tagToken_eq
  have hscan : l.scan = s := by
    simp only [scan, hm, hb]
    exact hs
  have hname : l.expectsNameAfter = false := by simp [expectsNameAfter, hm, hb]
  refine token_eq_ok_iff.2 ⟨hcur, hscan ▸ ht, ?_⟩
  simp only [advance, hscan, hname, hm]
  rfl

/-- A token of a tag, behind blanks. -/
theorem token_within {t : Token} (hne : t ≠ .eof) {bs : List Char} (hb : Text.IsBlanks bs)
    {cs : List Char} {line : Nat} {s : Scan Token}
    (h : Scan.TagScan false (line + newlines bs) cs s) {u : Token} (hu : s.result = .ok u) :
    (within t (bs ++ cs) line).token = .ok (u, within u s.rest s.line) :=
  token_of_tagScan rfl (by simpa [within] using hne) (h.afterBlanks_append hb) h hu

theorem yields_close {t : Token} (hne : t ≠ .eof) {gap : List Char} (hgap : Text.IsBlanks gap)
    (line : Nat) : (within t (gap ++ ['$', '}']) line).Yields [.tagClose, .eof] := by
  refine .cons (token_within hne hgap (.close []) rfl) nofun ?_
  exact Ready.yields_eof ⟨rfl, rfl, nofun⟩ rfl

/-- The elements of a row are read up to the end of their tag. -/
theorem yields_row {es : List Element} {row : List Char} (hrow : Element.RowLayout es row)
    (hes : ∀ e ∈ es, e.IsWritable) {t : Token} (hne : t ≠ .eof) {gap : List Char}
    (hgap : Text.IsBlanks gap) (line : Nat) :
    (within t (gap ++ (row ++ ['$', '}'])) line).Yields
      (es.map .element ++ [.tagClose, .eof]) := by
  induction hrow generalizing t gap line with
  | nil => exact yields_close hne hgap line
  | @cons e es next row hnext hsep hrow ih =>
    obtain ⟨he, hes⟩ := List.forall_mem_cons.1 hes
    -- an element ends where the blanks behind it begin, the last one also at the end of the tag
    have hlast : next = [] → ∃ d r, row ++ ['$', '}'] = d :: r ∧ Scan.IsBreak d := by
      intro hnil
      cases hrow with
      | nil => exact ⟨'$', ['}'], rfl, Scan.isBreak_dollar⟩
      | cons => exact absurd hnil (hsep nofun)
    obtain ⟨d, r, hd, hbreak⟩ := Scan.exists_isBreak hnext hlast
    have hscan : Scan.TagScan false (line + newlines gap) (e.sourceChars ++ d :: r) _ :=
      .source hbreak he r
    rw [← hd] at hscan
    rw [List.append_assoc, List.append_assoc]
    exact .cons (token_within hne hgap hscan rfl) nofun (ih hes (t := .element e) nofun hnext _)

/-! ## Names of tags -/

/-- The name of a tag, in front of a break. -/
theorem tagScan_name {letters name : List Char} (hname : Text.AnyCase letters name)
    (hletters : ∀ l ∈ letters, l ∈ Text.nameLetters) (hne : letters ≠ []) {d : Char}
    (hd : Scan.IsBreak d) (zs : List Char) (line : Nat) :
    Scan.TagScan true line (name ++ d :: zs)
      ⟨.ok (.tagName (String.ofList letters)), d :: zs, line⟩ := by
  have hw := Text.isWord_of_anyCase hname hletters hne
  obtain ⟨c, cs, rfl, hc⟩ := hw.eq_cons
  have h : Scan.TagScan true line (c :: (cs ++ d :: zs)) _ := .name rfl hc _
  rw [← List.cons_append, hw.word_append hd, hw.afterWord_append hd,
    Text.lowercase_of_anyCase hname hletters] at h
  exact h

/-- A tag is read from its name. -/
theorem yields_tag {front : List Char} (hfront : Text.IsBlanks front) {cs rest : List Char}
    {name : String} (line : Nat)
    (hscan : Scan.TagScan true (line + newlines front) cs
      ⟨.ok (.tagName name), rest, line + newlines front⟩)
    {ts : List Token} (hrest : (within (.tagName name) rest (line + newlines front)).Yields ts) :
    (fresh ('{' :: '$' :: (front ++ cs)) line).Yields (.tagOpen :: .tagName name :: ts) := by
  have hopen : (fresh ('{' :: '$' :: (front ++ cs)) line).token = .ok (.tagOpen, _) :=
    token_eq_ok_iff.2 ⟨nofun, rfl, rfl⟩
  have htoken := token_of_tagScan (l := opened (front ++ cs) line) rfl (by simp [opened])
    (hscan.afterBlanks_append hfront) hscan rfl
  exact .cons hopen nofun (.cons htoken nofun hrest)

/-- A layout of a piece has the tokens of the piece. -/
theorem yields_layout {p : Piece} {cs : List Char} (h : p.Layout cs) (hp : p.IsWritable)
    (hne : p ≠ .text "") (line : Nat) : (fresh cs line).Yields (p.tokens ++ [.eof]) := by
  cases h with
  | @text s _ hs =>
    have hcs : cs ≠ [] := fun hnil =>
      hne (congrArg Piece.text (String.toList_inj.1 (hs.eq_nil_iff.2 hnil)))
    obtain ⟨line', htext⟩ := hs.text_eq line
    have hscan : (fresh cs line).scan = ⟨.ok (.text s), [], line'⟩ := by
      have h := hs.noTag.textToken_eq hcs line
      rw [htext] at h
      exact h.trans (by simp [Scan.map, Except.map])
    have htoken : (fresh cs line).token = .ok (.text s, (fresh cs line).advance (.text s)) :=
      token_eq_ok_iff.2 ⟨(ready_fresh cs line).unfinished, by rw [hscan], rfl⟩
    have hready := (ready_fresh cs line).piece (piece_eq_ok_some_iff.2 (.inl ⟨s, rfl, htoken⟩))
    exact .cons htoken (by simp) (Ready.yields_eof hready (congrArg Scan.rest hscan))
  | echo hfront hgap hrow =>
    have htag := yields_tag hfront line (.equals rfl _)
      (yields_row hrow hp (t := .tagName "=") (by simp) hgap _)
    simpa [Piece.tokens] using htag
  | @opening k front name gap row hfront hname hgap hsep hrow =>
    obtain ⟨d, r, hd, hbreak⟩ : ∃ d r, gap ++ (row ++ ['$', '}']) = d :: r ∧ Scan.IsBreak d :=
      Scan.exists_isBreak hgap fun hnil => absurd hnil hsep
    have hscan := tagScan_name hname (by simp [Text.nameLetters]) (by simp) hbreak r
      (line + newlines front)
    rw [← hd] at hscan
    have htag := yields_tag hfront line hscan
      (yields_row hrow (LoopHeader.IsWritable.elements hp) (t := .tagName "for") (by simp) hgap _)
    simpa [Piece.tokens] using htag
  | @closing front name gap hfront hname hgap =>
    obtain ⟨d, r, hd, hbreak⟩ := Scan.exists_isBreak hgap
      fun _ => ⟨'$', ['}'], rfl, Scan.isBreak_dollar⟩
    have hscan := tagScan_name hname (by simp [Text.nameLetters]) (by simp) hbreak r
      (line + newlines front)
    rw [← hd] at hscan
    exact yields_tag hfront line hscan (yields_close (t := .tagName "end") (by simp) hgap _)

end Lexer

end Stencil
