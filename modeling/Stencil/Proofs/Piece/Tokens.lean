import Stencil.Proofs.Piece.Ready
set_option autoImplicit false

/-!
# Tokens of a template

`Lexer.tokens` cuts a template into tokens as a reader of pieces does: what follows
the opening of a tag is read as part of a tag, what follows its end as text.  Where
the tokens are those of some pieces in a row, exactly these pieces are read
(`Reading.ofLexer_of_tokens`).
-/

namespace Stencil

/-- How the token after the given one is read. -/
def Mode.after (m : Mode) : Token → Mode
  | .tagOpen => .tag
  | .tagClose => .text
  | _ => m

namespace Lexer

/-- All tokens up to the end of the template, each with the line on which the lexer stood before
it, or the error for which the next token cannot be read. -/
def tokens (l : Lexer) : Except ParseError (List (Nat × Token)) :=
  match _h : l.token with
  | .error e => .error e
  | .ok (t, l') =>
    if t = .eof then .ok [(l.line, .eof)]
    else
      match tokens (l'.withMode (l'.mode.after t)) with
      | .error e => .error e
      | .ok ts => .ok ((l.line, t) :: ts)
termination_by l.rest.length
decreasing_by
  have hlt : l'.rest.length < l.rest.length := length_rest_lt_of_token _h ‹_›
  exact hlt

/-- The tokens from the first of them. -/
theorem tokens_eq (l : Lexer) :
    l.tokens = match l.token with
      | .error e => .error e
      | .ok (t, l') =>
        if t = .eof then .ok [(l.line, .eof)]
        else
          match tokens (l'.withMode (l'.mode.after t)) with
          | .error e => .error e
          | .ok ts => .ok ((l.line, t) :: ts) := by
  rw [tokens.eq_def]
  rcases l.token with e | ⟨t, l'⟩ <;> rfl

end Lexer

/-- The tokens that a piece is read from. -/
def Piece.tokens : Piece → List Token
  | text s => [.text s]
  | echo es => .tagOpen :: .tagName "=" :: (es.map .element ++ [.tagClose])
  | opening h =>
    .tagOpen :: .tagName "for" :: .element (.var h.name) ::
      (h.arguments.map .element ++ [.tagClose])
  | closing => [.tagOpen, .tagName "end", .tagClose]

/-- Where the piece begins a loop, the arguments of the loop stand for values. -/
def Piece.HasOperands : Piece → Prop
  | opening h => h.HasOperands
  | _ => True

namespace Lexer

/-- The first of the tokens, and those behind it. -/
theorem token_of_tokens {l : Lexer} {ts : List (Nat × Token)} (h : l.tokens = .ok ts) {t : Token}
    {us : List Token} (hts : ts.map (·.2) = t :: us) (ht : t ≠ .eof) :
    ∃ l' ts', l.token = .ok (t, l') ∧ ts = (l.line, t) :: ts' ∧
      (l'.withMode (l'.mode.after t)).tokens = .ok ts' ∧ ts'.map (·.2) = us := by
  rw [tokens_eq] at h
  rcases htok : l.token with e | ⟨t', l'⟩
  · simp [htok] at h
  rw [htok] at h
  dsimp only at h
  split at h
  · rename_i heof
    obtain rfl := Except.ok.inj h
    exact absurd (List.cons.inj hts).1.symm ht
  rcases hrest : (l'.withMode (l'.mode.after t')).tokens with e | ts'
  · simp [hrest] at h
  rw [hrest] at h
  obtain rfl := Except.ok.inj h
  obtain ⟨rfl, rfl⟩ := List.cons.inj hts
  exact ⟨l', ts', rfl, rfl, hrest, rfl⟩

/-- The end is the last of the tokens. -/
theorem token_of_tokens_eof {l : Lexer} {ts : List (Nat × Token)} (h : l.tokens = .ok ts)
    (hts : ts.map (·.2) = [.eof]) : ∃ l', l.token = .ok (.eof, l') := by
  rw [tokens_eq] at h
  rcases htok : l.token with e | ⟨t, l'⟩
  · simp [htok] at h
  rw [htok] at h
  dsimp only at h
  split at h
  · rename_i heof
    exact ⟨l', by rw [heof]⟩
  rename_i heof
  rcases hrest : (l'.withMode (l'.mode.after t)).tokens with e | ts'
  · simp [hrest] at h
  rw [hrest] at h
  obtain rfl := Except.ok.inj h
  exact absurd (List.cons.inj hts).1 heof

/-- Elements and the end of their tag. -/
theorem elements_of_tokens {l : Lexer} {ts : List (Nat × Token)} (h : l.tokens = .ok ts)
    {es : List Element} {us : List Token}
    (hts : ts.map (·.2) = es.map .element ++ .tagClose :: us) :
    ∃ l' here ts', l.elements = .ok (es, l') ∧ ts = here ++ ts' ∧ here.length = es.length + 1 ∧
      (l'.withMode .text).tokens = .ok ts' ∧ ts'.map (·.2) = us := by
  induction es generalizing l ts with
  | nil =>
    obtain ⟨l', ts', ht, rfl, hl', hus⟩ := token_of_tokens h hts (by simp)
    exact ⟨l', [_], ts', elements_eq_ok_iff.2 (.inl ⟨rfl, ht⟩), rfl, rfl, hl', hus⟩
  | cons e es ih =>
    obtain ⟨l₁, ts₁, ht, rfl, hl₁, hts₁⟩ := token_of_tokens h hts (by simp)
    obtain ⟨l', here, ts', he, rfl, hlen, hl', hus⟩ := ih hl₁ hts₁
    refine ⟨l', (l.line, .element e) :: here, ts', ?_, rfl, by simp [hlen], hl', hus⟩
    exact elements_eq_ok_iff.2 (.inr ⟨e, es, l₁, rfl, ht, he⟩)

/-- A tag is read from its name and its body. -/
theorem piece_of_body {l l₁ l₂ l₃ : Lexer} {name : String} {p : Piece}
    (hopen : l.token = .ok (.tagOpen, l₁))
    (hname : (l₁.withMode .tag).token = .ok (.tagName name, l₂))
    (hbody : tagBody l₁.line name l₂ = .ok (p, l₃)) :
    l.piece = .ok (some p, l₃.withMode .text) :=
  piece_eq_ok_some_iff.2 (.inr ⟨l₁, hopen, tag_eq_ok_iff.2 ⟨name, l₂, l₃, hname, hbody, rfl⟩⟩)

/-- A piece is read from its tokens. -/
theorem piece_of_tokens {l : Lexer} {ts : List (Nat × Token)} (h : l.tokens = .ok ts)
    {p : Piece} (hp : p.HasOperands) {us : List Token} (hts : ts.map (·.2) = p.tokens ++ us) :
    ∃ l' here ts', l.piece = .ok (some p, l') ∧ ts = here ++ ts' ∧
      here.length = p.tokens.length ∧ here.head?.map (·.1) = some l.line ∧
      l'.tokens = .ok ts' ∧ ts'.map (·.2) = us := by
  cases p with
  | text s =>
    obtain ⟨l', ts', ht, rfl, hl', hus⟩ := token_of_tokens h hts (by simp)
    exact ⟨l', [_], ts', piece_eq_ok_some_iff.2 (.inl ⟨s, rfl, ht⟩), rfl, rfl, rfl, hl', hus⟩
  | closing =>
    obtain ⟨l₁, ts₁, hopen, rfl, hl₁, hts₁⟩ := token_of_tokens h hts (by simp)
    obtain ⟨l₂, ts₂, hname, rfl, hl₂, hts₂⟩ := token_of_tokens hl₁ hts₁ (by simp)
    obtain ⟨l₃, ts₃, hclose, rfl, hl₃, hus⟩ := token_of_tokens hl₂ hts₂ (by simp)
    have hbody : tagBody l₁.line "end" l₂ = .ok (.closing, l₃) :=
      tagBody_eq_ok_iff.2 (.inr (.inr ⟨rfl, rfl, hclose⟩))
    exact ⟨_, [_, _, _], ts₃, piece_of_body hopen hname hbody, rfl, rfl, rfl, hl₃, hus⟩
  | echo es =>
    obtain ⟨l₁, ts₁, hopen, rfl, hl₁, hts₁⟩ := token_of_tokens h hts (by simp)
    obtain ⟨l₂, ts₂, hname, rfl, hl₂, hts₂⟩ := token_of_tokens hl₁ hts₁ (by simp)
    obtain ⟨l₃, here, ts₃, he, rfl, hlen, hl₃, hus⟩ :=
      elements_of_tokens hl₂ (hts₂.trans (List.append_assoc ..))
    have hbody : tagBody l₁.line "=" l₂ = .ok (.echo es, l₃) :=
      tagBody_eq_ok_iff.2 (.inl ⟨rfl, es, rfl, he⟩)
    exact ⟨_, _ :: _ :: here, ts₃, piece_of_body hopen hname hbody, rfl,
      by simp [Piece.tokens, hlen], rfl, hl₃, hus⟩
  | opening k =>
    obtain ⟨l₁, ts₁, hopen, rfl, hl₁, hts₁⟩ := token_of_tokens h hts (by simp)
    obtain ⟨l₂, ts₂, hname, rfl, hl₂, hts₂⟩ := token_of_tokens hl₁ hts₁ (by simp)
    obtain ⟨l₃, ts₃, hvar, rfl, hl₃, hts₃⟩ := token_of_tokens hl₂ hts₂ (by simp)
    obtain ⟨l₄, here, ts₄, he, rfl, hlen, hl₄, hus⟩ :=
      elements_of_tokens hl₃ (hts₃.trans (List.append_assoc ..))
    have hbody : tagBody l₁.line "for" l₂ = .ok (.opening k, l₄) :=
      tagBody_eq_ok_iff.2 (.inr (.inl ⟨rfl, k, l₃, rfl, hp, hvar, he⟩))
    exact ⟨_, _ :: _ :: _ :: here, ts₄, piece_of_body hopen hname hbody, rfl,
      by simp [Piece.tokens, hlen], rfl, hl₄, hus⟩

end Lexer

namespace Reading

/-- Where the tokens are those of pieces in a row, these pieces are read, each on the line of its
first token. -/
theorem ofLexer_of_tokens {l : Lexer} {ts : List (Nat × Token)} (h : l.tokens = .ok ts)
    {ps : List Piece} (hps : ∀ p ∈ ps, p.HasOperands)
    (hts : ts.map (·.2) = ps.flatMap Piece.tokens ++ [.eof]) :
    ∃ line lps, ofLexer l = ⟨lps, .ok line⟩ ∧ lps.map (·.2) = ps ∧
      ∀ before k p after, lps = before ++ (k, p) :: after →
        (ts[((before.map (·.2)).flatMap Piece.tokens).length]?).map (·.1) = some k := by
  induction ps generalizing l ts with
  | nil =>
    obtain ⟨l', ht⟩ := Lexer.token_of_tokens_eof h hts
    refine ⟨l'.line, [], ofLexer_of_end (Lexer.piece_eq_ok_none_iff.2 ht), rfl, ?_⟩
    intro before k p after hnil
    simp at hnil
  | cons p ps ih =>
    rw [List.flatMap_cons, List.append_assoc] at hts
    obtain ⟨l', here, ts', hpiece, rfl, hlen, hline, hl', hus⟩ :=
      Lexer.piece_of_tokens h (hps p List.mem_cons_self) hts
    obtain ⟨line, lps, hread, hmap, hlines⟩ :=
      ih hl' (fun q hq => hps q (List.mem_cons_of_mem _ hq)) hus
    refine ⟨line, (l.line, p) :: lps, ?_, by rw [List.map_cons, hmap], ?_⟩
    · rw [ofLexer_of_piece hpiece, hread]
    · intro before k q after heq
      cases before with
      | nil =>
        obtain ⟨hkq, -⟩ := List.cons.inj heq
        obtain ⟨rfl, rfl⟩ := Prod.mk.inj hkq
        cases here with
        | nil => simp at hline
        | cons u here => exact hline
      | cons b before =>
        obtain ⟨rfl, rfl⟩ := List.cons.inj heq
        have hk := hlines before k q after rfl
        simp only [List.map_cons, List.flatMap_cons, List.length_append]
        rw [← hlen, List.getElem?_append_right (Nat.le_add_right _ _), Nat.add_sub_cancel_left]
        exact hk

end Reading

end Stencil
