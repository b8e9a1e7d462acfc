import Stencil.Proofs.Lexer.Reads
import Stencil.Proofs.Lexer.Use
set_option autoImplicit false

/-!
# Pieces as rows of tokens

A piece that is read takes its tokens and no others (`Lexer.reads_piece`), so behind
any of the pieces that are read the lexer stands behind their tokens
(`Reading.exists_reads`).  Where the tokens of pieces in a row are read, these pieces
are (`Reading.pieces_of_reads`).  Within a tag only a token that cannot be read stops
the elements (`Lexer.At.elements_eq_error`).
-/

namespace Stencil

theorem bind_eq_error_iff {ε α β : Type} {x : Except ε α} {f : α → Except ε β} {e : ε} :
    x >>= f = .error e ↔ x = .error e ∨ ∃ a, x = .ok a ∧ f a = .error e := by
  cases x <;> simp [bind, Except.bind]

namespace Lexer

/-! ## Pieces that are read -/

theorem reads_elements {l l' : Lexer} {es : List Element} (h : l.elements = .ok (es, l')) :
    l.Reads (es.map .element ++ [.tagClose]) (l'.withMode .text) := by
  induction es generalizing l with
  | nil =>
    rcases elements_eq_ok_iff.1 h with ⟨-, ht⟩ | ⟨e, es, l₁, hes, -⟩
    · exact .token ht nofun
    · cases hes
  | cons e es ih =>
    rcases elements_eq_ok_iff.1 h with ⟨hes, -⟩ | ⟨e, es', l₁, hes, ht, h'⟩
    · cases hes
    · obtain ⟨rfl, rfl⟩ := List.cons.inj hes
      exact .cons ht nofun (ih h')

/-- A piece is read from its tokens. -/
theorem reads_piece {l l' : Lexer} {p : Piece} (h : l.piece = .ok (some p, l')) :
    l.Reads p.tokens l' := by
  rcases piece_eq_ok_some_iff.1 h with ⟨s, rfl, ht⟩ | ⟨l₁, hopen, htag⟩
  · exact .token ht nofun
  obtain ⟨name, l₂, l₃, hname, hbody, rfl⟩ := tag_eq_ok_iff.1 htag
  rcases tagBody_eq_ok_iff.1 hbody with
    ⟨rfl, es, rfl, he⟩ | ⟨rfl, k, l₄, rfl, -, hvar, he⟩ | ⟨rfl, rfl, hclose⟩
  · exact .cons hopen nofun (.cons hname nofun (reads_elements he))
  · exact .cons hopen nofun (.cons hname nofun (.cons hvar nofun (reads_elements he)))
  · exact .cons hopen nofun (.cons hname nofun (.token hclose nofun))

theorem hasOperands_of_piece {l l' : Lexer} {p : Piece} (h : l.piece = .ok (some p, l')) :
    p.HasOperands := by
  rcases piece_eq_ok_some_iff.1 h with ⟨s, rfl, -⟩ | ⟨l₁, -, htag⟩
  · trivial
  obtain ⟨name, l₂, l₃, -, hbody, -⟩ := tag_eq_ok_iff.1 htag
  rcases tagBody_eq_ok_iff.1 hbody with ⟨-, es, rfl, -⟩ | ⟨-, k, l₄, rfl, hk, -⟩ | ⟨-, rfl, -⟩
  · trivial
  · exact hk
  · trivial

end Lexer

/-- Behind some of the pieces that are read stands a lexer that reads the others. -/
theorem Reading.exists_reads {l : Lexer} (hl : l.Ready) {before after : List (Nat × Piece)}
    (h : (ofLexer l).pieces = before ++ after) :
    ∃ l', l.Reads ((before.map (·.2)).flatMap Piece.tokens) l' ∧
      (∀ p ∈ before.map (·.2), p.HasOperands) ∧ l'.Ready ∧
      ofLexer l' = ⟨after, (ofLexer l).ending⟩ := by
  induction before generalizing l with
  | nil => exact ⟨l, .nil l, nofun, hl, by rw [← h.trans (List.nil_append after)]⟩
  | cons p before ih =>
    rcases hpiece : l.piece with e | ⟨_ | q, l₁⟩
    · simp [ofLexer_of_error hpiece] at h
    · simp [ofLexer_of_end hpiece] at h
    · rw [ofLexer_of_piece hpiece] at h ⊢
      obtain ⟨rfl, hrest⟩ := List.cons.inj h
      obtain ⟨l', hreads, hps, hready, hl'⟩ := ih (hl.piece hpiece) hrest
      exact ⟨l', (Lexer.reads_piece hpiece).append hreads,
        List.forall_mem_cons.2 ⟨Lexer.hasOperands_of_piece hpiece, hps⟩, hready, hl'⟩

/-- A reading without pieces stops at a piece that cannot be read or at the end. -/
theorem Reading.of_ofLexer_nil {l : Lexer} {ending : Except ParseError Nat}
    (h : ofLexer l = ⟨[], ending⟩) :
    (∃ e, ending = .error e ∧ l.piece = .error e) ∨
      ∃ l', ending = .ok l'.line ∧ l.token = .ok (.eof, l') := by
  rcases hpiece : l.piece with e | ⟨_ | p, l'⟩
  · rw [ofLexer_of_error hpiece] at h
    exact .inl ⟨e, (Reading.mk.inj h).2.symm, rfl⟩
  · rw [ofLexer_of_end hpiece] at h
    exact .inr ⟨l', (Reading.mk.inj h).2.symm, Lexer.piece_eq_ok_none_iff.1 hpiece⟩
  · simp [ofLexer_of_piece hpiece] at h

theorem Reading.of_ofLexer_cons {l : Lexer} {line : Nat} {p : Piece} {ps : List (Nat × Piece)}
    {ending : Except ParseError Nat} (h : ofLexer l = ⟨(line, p) :: ps, ending⟩) :
    line = l.line ∧ ∃ l', l.piece = .ok (some p, l') := by
  rcases hpiece : l.piece with e | ⟨_ | q, l'⟩
  · simp [ofLexer_of_error hpiece] at h
  · simp [ofLexer_of_end hpiece] at h
  · rw [ofLexer_of_piece hpiece] at h
    obtain ⟨hhead, -⟩ := List.cons.inj (Reading.mk.inj h).1
    obtain ⟨rfl, rfl⟩ := Prod.mk.inj hhead
    exact ⟨rfl, l', rfl⟩

namespace Lexer

/-! ## Tokens of pieces -/

theorem Reads.elements {l l' : Lexer} {es : List Element} {us : List Token}
    (h : l.Reads (es.map .element ++ .tagClose :: us) l') :
    ∃ l₁, l.elements = .ok (es, l₁) ∧ (l₁.withMode .text).Reads us l' := by
  induction es generalizing l with
  | nil =>
    cases h with
    | cons ht _ hus => exact ⟨_, elements_eq_ok_iff.2 (.inl ⟨rfl, ht⟩), hus⟩
  | cons e es ih =>
    cases h with
    | cons ht _ hes =>
      obtain ⟨l₁, he, hus⟩ := ih hes
      exact ⟨l₁, elements_eq_ok_iff.2 (.inr ⟨e, es, _, rfl, ht, he⟩), hus⟩

/-- Where the tokens of a piece are read, the piece is. -/
theorem Reads.piece {l l' : Lexer} {p : Piece} {us : List Token}
    (h : l.Reads (p.tokens ++ us) l') (hp : p.HasOperands) :
    ∃ l₁, l.piece = .ok (some p, l₁) ∧ l₁.Reads us l' := by
  cases p with
  | text s =>
    obtain _ | ⟨ht, -, hus⟩ := h
    exact ⟨_, piece_eq_ok_some_iff.2 (.inl ⟨s, rfl, ht⟩), hus⟩
  | closing =>
    obtain _ | ⟨hopen, -, _ | ⟨hname, -, _ | ⟨hclose, -, hus⟩⟩⟩ := h
    exact ⟨_, piece_of_body hopen hname (tagBody_eq_ok_iff.2 (.inr (.inr ⟨rfl, rfl, hclose⟩))), hus⟩
  | echo es =>
    simp only [Piece.tokens, List.cons_append, List.append_assoc, List.nil_append] at h
    obtain _ | ⟨hopen, -, _ | ⟨hname, -, hes⟩⟩ := h
    obtain ⟨l₁, he, hus⟩ := hes.elements
    exact ⟨_, piece_of_body hopen hname (tagBody_eq_ok_iff.2 (.inl ⟨rfl, es, rfl, he⟩)), hus⟩
  | opening k =>
    simp only [Piece.tokens, List.cons_append, List.append_assoc, List.nil_append] at h
    obtain _ | ⟨hopen, -, _ | ⟨hname, -, _ | ⟨hvar, -, hes⟩⟩⟩ := h
    obtain ⟨l₁, he, hus⟩ := hes.elements
    exact ⟨_, piece_of_body hopen hname
      (tagBody_eq_ok_iff.2 (.inr (.inl ⟨rfl, k, _, rfl, hp, hvar, he⟩))), hus⟩

end Lexer

/-- Where the tokens of pieces in a row are read, these pieces are. -/
theorem Reading.pieces_of_reads {l l' : Lexer} (hl : l.Ready) {ps : List Piece} {us : List Token}
    (h : l.Reads (ps.flatMap Piece.tokens ++ us) l') (hps : ∀ p ∈ ps, p.HasOperands) :
    ∃ l₁ before, l₁.Ready ∧ l₁.Reads us l' ∧ before.map (·.2) = ps ∧
      ofLexer l = ⟨before ++ (ofLexer l₁).pieces, (ofLexer l₁).ending⟩ := by
  induction ps generalizing l with
  | nil => exact ⟨l, [], hl, h, rfl, rfl⟩
  | cons p ps ih =>
    obtain ⟨hp, hps⟩ := List.forall_mem_cons.1 hps
    rw [List.flatMap_cons, List.append_assoc] at h
    obtain ⟨l₁, hpiece, hrest⟩ := h.piece hp
    obtain ⟨l₂, before, hl₂, hus, rfl, hread⟩ := ih (hl.piece hpiece) hrest hps
    exact ⟨l₂, (l.line, p) :: before, hl₂, hus, rfl, by rw [ofLexer_of_piece hpiece, hread]; rfl⟩

namespace Lexer

/-! ## Tags that cannot be read -/

theorem token_eq_error_iff {l : Lexer} {e : ParseError} :
    l.token = .error e ↔
      ∃ cause l', l.next = (.error cause, l') ∧ e = ⟨l'.line, .lex cause⟩ := by
  unfold token
  rcases l.next with ⟨_ | t, l'⟩ <;> simp [eq_comm]

/-- Only a token that cannot be read stops the elements of a tag. -/
theorem At.elements_eq_error {l : Lexer} {e : ParseError} (hl : l.At .inside)
    (h : l.elements = .error e) :
    ∃ (es : List Element) (l' : Lexer), l.Reads (es.map .element) l' ∧
      l'.token = .error e := by
  fun_induction elements l generalizing e with
  | case1 l e' ht =>
    obtain rfl := Except.error.inj h
    exact ⟨[], l, .nil l, ht⟩
  | case2 => cases h
  | case3 l a l₁ ht e' he ih =>
    obtain rfl := Except.error.inj h
    obtain ⟨es, l', hreads, hl'⟩ := ih ((hl.token ht).2 (by simp)) he
    exact ⟨a :: es, l', .cons ht (by simp) hreads, hl'⟩
  | case4 => cases h
  | case5 l t l₁ hclose helement ht =>
    rcases Place.admits_inside_iff.1 (hl.token ht).1 with ⟨a, rfl⟩ | rfl
    · exact absurd rfl (helement a)
    · exact absurd rfl hclose

/-- The number of the arguments is looked at first, then each of them. -/
theorem header_eq_error_iff {line : Nat} {name : String} {arguments : List Element}
    {e : ParseError} :
    header line name arguments = .error e ↔
      (arguments.length ≠ 2 ∧ arguments.length ≠ 3 ∧
        e = ⟨line, .loopArity arguments.length⟩) ∨
      ((arguments.length = 2 ∨ arguments.length = 3) ∧
        ∃ a, arguments.find? (!·.isOperand) = some a ∧ e = ⟨line, .loopArgument a⟩) := by
  have hchecked (k : LoopHeader) : checked line k = .error e ↔
      ∃ a, k.arguments.find? (!·.isOperand) = some a ∧ e = ⟨line, .loopArgument a⟩ := by
    unfold checked
    cases k.arguments.find? (!·.isOperand) <;> simp [eq_comm]
  unfold header
  split
  · simp [hchecked, LoopHeader.arguments]
  · simp [hchecked, LoopHeader.arguments]
  · rename_i htwo hthree
    have h₂ : arguments.length ≠ 2 := by
      intro h
      obtain ⟨a, b, rfl⟩ := List.length_eq_two.1 h
      exact htwo a b rfl
    have h₃ : arguments.length ≠ 3 := by
      intro h
      obtain ⟨a, b, c, rfl⟩ := List.length_eq_three.1 h
      exact hthree a b c rfl
    simp [h₂, h₃, eq_comm]

end Lexer

end Stencil
