import Mathlib
import Stencil.Reading
set_option autoImplicit false

/-!
# What reading a piece consists of

For each reader of the lexer, from one token to a whole piece, one statement says
what a successful reading is made of.  Proofs about readers use these and leave the
readers closed.
-/

namespace Stencil

theorem bind_eq_ok_iff {ε α β : Type} {x : Except ε α} {f : α → Except ε β} {b : β} :
    x >>= f = .ok b ↔ ∃ a, x = .ok a ∧ f a = .ok b := by
  cases x <;> simp [bind, Except.bind]

/-- Every argument of a loop stands for a value of its own. -/
def LoopHeader.HasOperands (h : LoopHeader) : Prop := ∀ e ∈ h.arguments, e.isOperand = true

namespace Lexer

/-- The lexer after the scan of the next token, where the token is `t`. -/
def advance (l : Lexer) (t : Token) : Lexer :=
  { l with
    rest := l.scan.rest
    line := l.scan.line
    current := some t
    expectsName := l.expectsNameAfter }

theorem next_of_eof {l : Lexer} (h : l.current = some .eof) : l.next = (.error .exhausted, l) :=
  if_pos h

/-- Unless the end was read, the next token is what the scan finds. -/
theorem next_eq {l : Lexer} (h : l.current ≠ some .eof) :
    l.next = match l.scan.result with
      | .ok t => (.ok t, l.advance t)
      | .error e => (.error e, { l.advance .eof with current := l.current }) := by
  unfold next
  rw [if_neg h]
  dsimp only
  cases l.scan.result <;> rfl

theorem token_eq {l : Lexer} (h : l.current ≠ some .eof) :
    l.token = match l.scan.result with
      | .ok t => .ok (t, l.advance t)
      | .error e => .error ⟨l.scan.line, .lex e⟩ := by
  rw [token, next_eq h]
  cases l.scan.result <;> rfl

theorem token_of_eof {l : Lexer} (h : l.current = some .eof) :
    l.token = .error ⟨l.line, .lex .exhausted⟩ := by
  rw [token, next_of_eof h]

theorem token_eq_ok_iff {l l' : Lexer} {t : Token} :
    l.token = .ok (t, l') ↔
      l.current ≠ some .eof ∧ l.scan.result = .ok t ∧ l' = l.advance t := by
  by_cases h : l.current = some .eof
  · simp [token_of_eof h, h]
  · rw [token_eq h]
    cases hs : l.scan.result with
    | error e => simp
    | ok s =>
      simp only [Except.ok.injEq, Prod.mk.injEq, ne_eq, h, not_false_iff, true_and]
      constructor
      · rintro ⟨rfl, rfl⟩
        exact ⟨rfl, rfl⟩
      · rintro ⟨rfl, rfl⟩
        exact ⟨rfl, rfl⟩

theorem next_of_token {l l' : Lexer} {t : Token} (h : l.token = .ok (t, l')) :
    l.next = (.ok t, l') := by
  unfold token at h
  split at h
  · rename_i hnext
    obtain ⟨rfl, rfl⟩ := Prod.mk.inj (Except.ok.inj h)
    exact hnext
  · cases h

/-- The elements of a tag from their first token. -/
theorem elements_eq (l : Lexer) :
    l.elements = match l.token with
      | .error e => .error e
      | .ok (.tagClose, l') => .ok ([], l')
      | .ok (.element e, l') =>
        match l'.elements with
        | .error e => .error e
        | .ok (es, l'') => .ok (e :: es, l'')
      | .ok (t, l') => .error ⟨l'.line, .tagNotClosed t⟩ := by
  rw [elements.eq_def]
  rcases l.token with e | ⟨t, l'⟩
  · rfl
  · cases t <;> rfl

/-- The elements of a tag are one element and the others, or the tag ends. -/
theorem elements_eq_ok_iff {l l' : Lexer} {es : List Element} :
    l.elements = .ok (es, l') ↔
      (es = [] ∧ l.token = .ok (.tagClose, l')) ∨
        ∃ e es' l₁, es = e :: es' ∧ l.token = .ok (.element e, l₁) ∧
          l₁.elements = .ok (es', l') := by
  rw [elements_eq]
  rcases l.token with e | ⟨t, l₁⟩
  · simp
  · cases t with
    | element e =>
      rcases h : l₁.elements with e' | ⟨es', l₂⟩
      · simp [h]
      · simp only [h, Except.ok.injEq, Prod.mk.injEq, Token.element.injEq, reduceCtorEq,
          false_and, and_false, false_or]
        constructor
        · rintro ⟨rfl, rfl⟩
          exact ⟨e, es', l₁, rfl, ⟨rfl, rfl⟩, h⟩
        · rintro ⟨e₁, es₁, l₃, rfl, ⟨rfl, rfl⟩, hes⟩
          rw [h] at hes
          obtain ⟨rfl, rfl⟩ := Prod.mk.inj (Except.ok.inj hes)
          exact ⟨rfl, rfl⟩
    | _ => simp [eq_comm]

theorem checked_eq_ok_iff {line : Nat} {h k : LoopHeader} :
    checked line h = .ok k ↔ h = k ∧ h.HasOperands := by
  unfold checked
  cases hf : h.arguments.find? (!·.isOperand) with
  | some e =>
    have hm := List.mem_of_find?_eq_some hf
    have hn : e.isOperand = false := by simpa using List.find?_some hf
    simp only [reduceCtorEq, false_iff, not_and]
    intro _ ho
    rw [ho e hm] at hn
    cases hn
  | none =>
    have ho : h.HasOperands := by simpa [LoopHeader.HasOperands] using hf
    simp [ho]

/-- A loop header is made of two or three arguments that stand for values. -/
theorem header_eq_ok_iff {line : Nat} {name : String} {arguments : List Element}
    {h : LoopHeader} :
    header line name arguments = .ok h ↔
      h.name = name ∧ arguments = h.arguments ∧ h.HasOperands := by
  constructor
  · intro hh
    unfold header at hh
    split at hh
    · obtain ⟨rfl, ho⟩ := checked_eq_ok_iff.1 hh
      exact ⟨rfl, rfl, ho⟩
    · obtain ⟨rfl, ho⟩ := checked_eq_ok_iff.1 hh
      exact ⟨rfl, rfl, ho⟩
    · simp at hh
  · rintro ⟨rfl, rfl, ho⟩
    obtain ⟨name, start, stop, step⟩ := h
    cases step with
    | none => exact checked_eq_ok_iff.2 ⟨rfl, ho⟩
    | some step => exact checked_eq_ok_iff.2 ⟨rfl, ho⟩

/-- The body of a tag is that of an echo, of the beginning of a loop or of its end. -/
theorem tagBody_eq_ok_iff {line : Nat} {name : String} {l l' : Lexer} {p : Piece} :
    tagBody line name l = .ok (p, l') ↔
      (name = "=" ∧ ∃ es, p = .echo es ∧ l.elements = .ok (es, l')) ∨
      (name = "for" ∧ ∃ h l₁, p = .opening h ∧ h.HasOperands ∧
        l.token = .ok (.element (.var h.name), l₁) ∧ l₁.elements = .ok (h.arguments, l')) ∨
      (name = "end" ∧ p = .closing ∧ l.token = .ok (.tagClose, l')) := by
  unfold tagBody
  constructor
  · intro h
    split at h
    · rename_i hn
      obtain ⟨⟨es, l₁⟩, he, h⟩ := bind_eq_ok_iff.1 h
      obtain ⟨rfl, rfl⟩ := Prod.mk.inj (Except.ok.inj h)
      exact .inl ⟨hn, es, rfl, he⟩
    split at h
    · rename_i hn
      obtain ⟨⟨t, l₁⟩, ht, h⟩ := bind_eq_ok_iff.1 h
      split at h
      · rename_i counter l₂ heq
        obtain ⟨rfl, rfl⟩ := Prod.mk.inj heq
        obtain ⟨⟨arguments, l₃⟩, he, h⟩ := bind_eq_ok_iff.1 h
        obtain ⟨k, hk, h⟩ := bind_eq_ok_iff.1 h
        obtain ⟨rfl, rfl⟩ := Prod.mk.inj (Except.ok.inj h)
        obtain ⟨rfl, rfl, ho⟩ := header_eq_ok_iff.1 hk
        exact .inr (.inl ⟨hn, k, l₁, rfl, ho, ht, he⟩)
      · simp [throw, throwThe, MonadExceptOf.throw] at h
    split at h
    · rename_i hn
      obtain ⟨⟨t, l₁⟩, ht, h⟩ := bind_eq_ok_iff.1 h
      split at h
      · rename_i heq
        obtain ⟨rfl, rfl⟩ := Prod.mk.inj heq
        obtain ⟨rfl, rfl⟩ := Prod.mk.inj (Except.ok.inj h)
        exact .inr (.inr ⟨hn, rfl, ht⟩)
      · simp [throw, throwThe, MonadExceptOf.throw] at h
    · simp [throw, throwThe, MonadExceptOf.throw] at h
  · rintro (⟨rfl, es, rfl, he⟩ | ⟨rfl, k, l₁, rfl, ho, ht, he⟩ | ⟨rfl, rfl, ht⟩)
    · rw [if_pos rfl, he]
      rfl
    · rw [if_neg (by decide), if_pos rfl, ht]
      have hk : header l.line k.name k.arguments = .ok k := header_eq_ok_iff.2 ⟨rfl, rfl, ho⟩
      simp only [bind, Except.bind, he, hk]
      rfl
    · rw [if_neg (by decide), if_neg (by decide), if_pos rfl, ht]
      rfl

/-- A tag is its name and its body. -/
theorem tag_eq_ok_iff {l l' : Lexer} {p : Piece} :
    l.tag = .ok (p, l') ↔
      ∃ name l₁ l₂, (l.withMode .tag).token = .ok (.tagName name, l₁) ∧
        tagBody l.line name l₁ = .ok (p, l₂) ∧ l' = l₂.withMode .text := by
  unfold tag
  constructor
  · intro h
    obtain ⟨⟨t, l₁⟩, ht, h⟩ := bind_eq_ok_iff.1 h
    split at h
    · rename_i name l₂ heq
      obtain ⟨rfl, rfl⟩ := Prod.mk.inj heq
      obtain ⟨⟨q, l₃⟩, hb, h⟩ := bind_eq_ok_iff.1 h
      obtain ⟨rfl, rfl⟩ := Prod.mk.inj (Except.ok.inj h)
      exact ⟨name, l₁, l₃, ht, hb, rfl⟩
    · simp [throw, throwThe, MonadExceptOf.throw] at h
  · rintro ⟨name, l₁, l₂, ht, hb, rfl⟩
    rw [ht]
    simp only [bind, Except.bind, hb]
    rfl

theorem piece_eq_ok_none_iff {l l' : Lexer} :
    l.piece = .ok (none, l') ↔ l.token = .ok (.eof, l') := by
  unfold piece
  constructor
  · intro h
    obtain ⟨⟨t, l₁⟩, ht, h⟩ := bind_eq_ok_iff.1 h
    split at h
    · rename_i heq
      obtain ⟨rfl, rfl⟩ := Prod.mk.inj heq
      obtain ⟨-, rfl⟩ := Prod.mk.inj (Except.ok.inj h)
      exact ht
    · exact absurd (Prod.mk.inj (Except.ok.inj h)).1 (by simp)
    · obtain ⟨⟨q, l₃⟩, -, h⟩ := bind_eq_ok_iff.1 h
      exact absurd (Prod.mk.inj (Except.ok.inj h)).1 (by simp)
    · simp [throw, throwThe, MonadExceptOf.throw] at h
  · intro ht
    rw [ht]
    rfl

theorem piece_of_token_error {l : Lexer} {e : ParseError} (h : l.token = .error e) :
    l.piece = .error e := by
  unfold piece
  rw [h]
  rfl

/-- A piece is a text or a tag. -/
theorem piece_eq_ok_some_iff {l l' : Lexer} {p : Piece} :
    l.piece = .ok (some p, l') ↔
      (∃ s, p = .text s ∧ l.token = .ok (.text s, l')) ∨
        ∃ l₁, l.token = .ok (.tagOpen, l₁) ∧ l₁.tag = .ok (p, l') := by
  unfold piece
  constructor
  · intro h
    obtain ⟨⟨t, l₁⟩, ht, h⟩ := bind_eq_ok_iff.1 h
    split at h
    · exact absurd (Prod.mk.inj (Except.ok.inj h)).1 (by simp)
    · rename_i s l₂ heq
      obtain ⟨rfl, rfl⟩ := Prod.mk.inj heq
      obtain ⟨hp, rfl⟩ := Prod.mk.inj (Except.ok.inj h)
      exact .inl ⟨s, (Option.some.inj hp).symm, ht⟩
    · rename_i l₂ heq
      obtain ⟨rfl, rfl⟩ := Prod.mk.inj heq
      obtain ⟨⟨q, l₃⟩, hq, h⟩ := bind_eq_ok_iff.1 h
      obtain ⟨hp, rfl⟩ := Prod.mk.inj (Except.ok.inj h)
      obtain rfl := Option.some.inj hp
      exact .inr ⟨l₁, ht, hq⟩
    · simp [throw, throwThe, MonadExceptOf.throw] at h
  · rintro (⟨s, rfl, ht⟩ | ⟨l₁, ht, hp⟩)
    · rw [ht]
      rfl
    · rw [ht]
      simp only [bind, Except.bind, hp]
      rfl

/-- A text that the scan finds is a piece. -/
theorem piece_of_scan_text {l : Lexer} (hcur : l.current ≠ some .eof) {s : String}
    (h : l.scan.result = .ok (.text s)) :
    l.piece = .ok (some (.text s), l.advance (.text s)) :=
  piece_eq_ok_some_iff.2 (.inl ⟨s, rfl, token_eq_ok_iff.2 ⟨hcur, h, rfl⟩⟩)

end Lexer

/-! ## Rows of pieces -/

namespace Reading

theorem ofLexer_of_end {l l' : Lexer} (h : l.piece = .ok (none, l')) :
    ofLexer l = ⟨[], .ok l'.line⟩ := by
  rw [ofLexer.eq_def]
  split <;> simp_all

theorem ofLexer_of_error {l : Lexer} {e : ParseError} (h : l.piece = .error e) :
    ofLexer l = ⟨[], .error e⟩ := by
  rw [ofLexer.eq_def]
  split <;> simp_all

theorem ofLexer_of_piece {l l' : Lexer} {p : Piece} (h : l.piece = .ok (some p, l')) :
    ofLexer l = ⟨(l.line, p) :: (ofLexer l').pieces, (ofLexer l').ending⟩ := by
  rw [ofLexer.eq_def]
  split <;> simp_all

end Reading

end Stencil
