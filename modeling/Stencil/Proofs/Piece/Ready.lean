import Stencil.Proofs.Piece.Line
set_option autoImplicit false

/-!
# Between two pieces

A lexer that has read a piece cannot be told from one that begins with what is
left: it reads text, waits for no name of a tag, and looks at its latest token only
to see whether that was the end.  `Lexer.Ready` says this of a lexer, a piece that
is read keeps it (`Lexer.Ready.piece`), and a ready lexer reads what a fresh one
reads (`Reading.ofLexer_eq_fresh`).
-/

namespace Stencil

namespace Lexer

/-- The lexer stands between two pieces. -/
structure Ready (l : Lexer) : Prop where
  mode : l.mode = .text
  unnamed : l.expectsName = false
  unfinished : l.current ≠ some .eof

/-- The lexer that begins with the given characters on the given line. -/
def fresh (cs : List Char) (line : Nat) : Lexer := { rest := cs, line }

theorem ofString_eq_fresh (s : String) : ofString s = fresh s.toList 1 := rfl

theorem ready_fresh (cs : List Char) (line : Nat) : (fresh cs line).Ready := ⟨rfl, rfl, nofun⟩

theorem fresh_later (cs : List Char) (line k : Nat) :
    fresh cs (line + k) = (fresh cs line).later k := rfl

/-! ## Tokens keep the mode -/

theorem mode_of_token {l l' : Lexer} {t : Token} (h : l.token = .ok (t, l')) :
    l'.mode = l.mode := by
  obtain ⟨-, -, rfl⟩ := token_eq_ok_iff.1 h
  rfl

theorem current_of_token {l l' : Lexer} {t : Token} (h : l.token = .ok (t, l')) :
    l'.current = some t := by
  obtain ⟨-, -, rfl⟩ := token_eq_ok_iff.1 h
  rfl

theorem rest_suffix_of_token {l l' : Lexer} {t : Token} (h : l.token = .ok (t, l')) :
    l'.rest <:+ l.rest := by
  obtain ⟨-, -, rfl⟩ := token_eq_ok_iff.1 h
  exact rest_scan_suffix l

/-- In a tag, a token that is read is one of the list, behind the blanks. -/
theorem tagScan_of_token {l l' : Lexer} {t : Token} (hm : l.mode = .tag)
    (h : l.token = .ok (t, l')) :
    l.scan.result = .ok t ∧ Scan.TagScan l.expectsName (Scan.afterBlanks l.rest l.line).2
      (Scan.afterBlanks l.rest l.line).1 l.scan := by
  obtain ⟨-, hs, -⟩ := token_eq_ok_iff.1 h
  refine ⟨hs, ?_⟩
  rcases hb : Scan.afterBlanks l.rest l.line with ⟨_ | ⟨c, cs⟩, line⟩
  · simp [scan, hm, hb] at hs
  · have hscan : l.scan = Scan.tagToken l.expectsName c cs line := by simp only [scan, hm, hb]
    rw [hscan] at hs ⊢
    exact Scan.TagScan.of_result_eq_ok hs

/-- Behind the first token of a tag no name is expected. -/
theorem expectsName_of_token {l l' : Lexer} {t : Token} (hm : l.mode = .tag)
    (h : l.token = .ok (t, l')) : l'.expectsName = false := by
  obtain ⟨-, hscan⟩ := tagScan_of_token hm h
  obtain ⟨c, r, hc, -⟩ := hscan.tagToken_eq
  obtain ⟨-, -, rfl⟩ := token_eq_ok_iff.1 h
  simp [advance, expectsNameAfter, hm, hc]

/-! ## Tags are read to their end -/

/-- The lexer has just read the end of a tag. -/
structure Closed (l : Lexer) : Prop where
  unnamed : l.expectsName = false
  current : l.current = some .tagClose

theorem closed_of_token {l l' : Lexer} (hm : l.mode = .tag)
    (h : l.token = .ok (.tagClose, l')) : l'.Closed :=
  ⟨expectsName_of_token hm h, current_of_token h⟩

theorem closed_of_elements {l l' : Lexer} {es : List Element} (hm : l.mode = .tag)
    (h : l.elements = .ok (es, l')) : l'.Closed := by
  induction es generalizing l with
  | nil =>
    rcases elements_eq_ok_iff.1 h with ⟨-, ht⟩ | ⟨e, es, l₁, hes, -⟩
    · exact closed_of_token hm ht
    · simp at hes
  | cons e es ih =>
    rcases elements_eq_ok_iff.1 h with ⟨hes, -⟩ | ⟨e, es', l₁, hes, ht, h'⟩
    · simp at hes
    · obtain ⟨rfl, rfl⟩ := List.cons.inj hes
      exact ih ((mode_of_token ht).trans hm) h'

theorem closed_of_tagBody {line : Nat} {name : String} {l l' : Lexer} {p : Piece}
    (hm : l.mode = .tag) (h : tagBody line name l = .ok (p, l')) : l'.Closed := by
  rcases tagBody_eq_ok_iff.1 h with ⟨-, es, -, he⟩ | ⟨-, k, l₁, -, -, ht, he⟩ | ⟨-, -, ht⟩
  · exact closed_of_elements hm he
  · exact closed_of_elements ((mode_of_token ht).trans hm) he
  · exact closed_of_token hm ht

theorem ready_of_tag {l l' : Lexer} {p : Piece} (h : l.tag = .ok (p, l')) : l'.Ready := by
  obtain ⟨name, l₁, l₂, ht, hb, rfl⟩ := tag_eq_ok_iff.1 h
  have hc := closed_of_tagBody (mode_of_token ht) hb
  refine ⟨rfl, hc.unnamed, ?_⟩
  have : (l₂.withMode .text).current = some .tagClose := hc.current
  simp [this]

/-- A tag is not a text. -/
theorem ne_text_of_tag {l l' : Lexer} {p : Piece} (h : l.tag = .ok (p, l')) (s : String) :
    p ≠ .text s := by
  obtain ⟨name, l₁, l₂, -, hb, -⟩ := tag_eq_ok_iff.1 h
  rcases tagBody_eq_ok_iff.1 hb with ⟨-, es, rfl, -⟩ | ⟨-, k, l₃, rfl, -⟩ | ⟨-, rfl, -⟩ <;> simp

/-! ## Texts -/

theorem Ready.scan {l : Lexer} (hl : l.Ready) : l.scan = Scan.textToken l.rest l.line := by
  simp only [Lexer.scan, hl.mode]

/-- The state in which the next token is looked for, where text is expected. -/
theorem Ready.advance {l : Lexer} (hl : l.Ready) {c : Char} {r : List Char}
    (hr : l.rest = c :: r) (hc : c ≠ '{') (t : Token) :
    l.advance t =
      { rest := l.scan.rest, line := l.scan.line, mode := .text, current := some t } := by
  have hn : l.expectsNameAfter = false := by
    simp [expectsNameAfter, hl.mode, hl.unnamed, hr, List.isPrefixOf, hc.symm]
  simp only [Lexer.advance, hn, hl.mode]

/-- A text is read where the template goes on with something other than a brace. -/
theorem Ready.text_of_token {l l' : Lexer} (hl : l.Ready) {s : String}
    (h : l.token = .ok (.text s, l')) :
    ∃ c r, l.rest = c :: r ∧ c ≠ '{' ∧ (Scan.text l.rest l.line).result = .ok s.toList ∧
      l' = { rest := (Scan.text l.rest l.line).rest, line := (Scan.text l.rest l.line).line,
             mode := .text, current := some (.text s) } := by
  obtain ⟨-, hs, rfl⟩ := token_eq_ok_iff.1 h
  rw [hl.scan] at hs
  rcases Scan.textToken_eq_ok hs with ⟨ht, -⟩ | ⟨ht, -⟩ | ⟨c, r, u, hr, hc, ht, hu⟩
  · simp at ht
  · simp at ht
  · obtain rfl := Token.text.inj ht
    refine ⟨c, r, hr, hc, by simpa using hu, ?_⟩
    rw [hl.advance hr hc, hl.scan, hr, Scan.textToken_of_ne_brace hc]
    rfl

theorem Ready.piece {l l' : Lexer} (hl : l.Ready) {p : Piece} (h : l.piece = .ok (some p, l')) :
    l'.Ready := by
  rcases piece_eq_ok_some_iff.1 h with ⟨s, -, ht⟩ | ⟨l₁, -, hp⟩
  · obtain ⟨c, r, -, -, -, rfl⟩ := hl.text_of_token ht
    exact ⟨rfl, rfl, nofun⟩
  · exact ready_of_tag hp

/-! ## Fresh lexers -/

theorem Ready.token_eq_fresh {l : Lexer} (hl : l.Ready) :
    l.token = (fresh l.rest l.line).token := by
  obtain ⟨rest, line, mode, current, expectsName⟩ := l
  obtain ⟨rfl, rfl, hc⟩ := hl
  rw [token_eq hc, token_eq (l := fresh rest line) nofun]
  rfl

theorem Ready.piece_eq_fresh {l : Lexer} (hl : l.Ready) :
    l.piece = (fresh l.rest l.line).piece := by
  unfold Lexer.piece
  rw [hl.token_eq_fresh]

end Lexer

namespace Reading

/-- A ready lexer reads what a fresh one reads. -/
theorem ofLexer_eq_fresh {l : Lexer} (hl : l.Ready) :
    ofLexer l = ofLexer (Lexer.fresh l.rest l.line) := by
  have hp := hl.piece_eq_fresh
  rcases h : l.piece with e | ⟨_ | p, l'⟩
  · rw [ofLexer_of_error h, ofLexer_of_error (hp.symm.trans h)]
  · rw [ofLexer_of_end h, ofLexer_of_end (hp.symm.trans h)]
  · rw [ofLexer_of_piece h, ofLexer_of_piece (hp.symm.trans h)]
    rfl

/-- Nothing is read where nothing is left. -/
theorem ofLexer_of_rest_eq_nil {l : Lexer} (hl : l.Ready) (h : l.rest = []) :
    ofLexer l = ⟨[], .ok l.line⟩ := by
  have hs : l.scan = ⟨.ok .eof, [], l.line⟩ := by
    rw [hl.scan, h]
    rfl
  have ht : l.token = .ok (.eof, l.advance .eof) :=
    Lexer.token_eq_ok_iff.2 ⟨hl.unfinished, by rw [hs], rfl⟩
  rw [ofLexer_of_end (Lexer.piece_eq_ok_none_iff.2 ht)]
  simp [Lexer.advance, hs]

theorem rest_eq_nil_of_pieces_eq_nil {l : Lexer} {line : Nat} (hp : (ofLexer l).pieces = [])
    (h : (ofLexer l).ending = .ok line) : l.rest = [] := by
  rcases hpiece : l.piece with e | ⟨_ | p, l'⟩
  · simp [ofLexer_of_error hpiece] at h
  · obtain ⟨-, hs, -⟩ := Lexer.token_eq_ok_iff.1 (Lexer.piece_eq_ok_none_iff.1 hpiece)
    exact (Lexer.scan_of_eof hs).2
  · simp [ofLexer_of_piece hpiece] at hp

/-- Where the first piece is a text, a text is the first token. -/
theorem token_of_head_text {l : Lexer} {line : Nat} {s : String}
    (h : (line, .text s) ∈ (ofLexer l).pieces.head?) : ∃ l', l.token = .ok (.text s, l') := by
  rcases hp : l.piece with e | ⟨_ | p, l'⟩
  · simp [ofLexer_of_error hp] at h
  · simp [ofLexer_of_end hp] at h
  · simp only [ofLexer_of_piece hp, List.head?_cons, Option.mem_def, Option.some.injEq,
      Prod.mk.injEq] at h
    obtain ⟨-, rfl⟩ := h
    rcases Lexer.piece_eq_ok_some_iff.1 hp with ⟨s', hs, ht⟩ | ⟨l₁, -, htag⟩
    · obtain rfl := Piece.text.inj hs
      exact ⟨l', ht⟩
    · exact absurd rfl (Lexer.ne_text_of_tag htag s)

end Reading

end Stencil
