import Stencil.Proofs.Scan.Line
import Stencil.Proofs.Piece.Steps
set_option autoImplicit false

/-!
# Lines of pieces

Readers pass lines on and never look at them: on lines that are `k` further down,
the same pieces are read and the same errors arise, `k` lines further down
(`Reading.ofLexer_later`).  A lexer that reads on keeps the sum of its line and the
line breaks it has left (`Lexer.bottom`), which is the last line of the template.
-/

namespace Stencil

/-- The error on a line that is `k` lines further down. -/
def ParseError.later (e : ParseError) (k : Nat) : ParseError := { e with line := e.line + k }

namespace Lexer

/-- The lexer on a line that is `k` lines further down. -/
def later (l : Lexer) (k : Nat) : Lexer := { l with line := l.line + k }

/-- What is read, on lines that are `k` further down. -/
def laterRead {α : Type} (k : Nat) :
    Except ParseError (α × Lexer) → Except ParseError (α × Lexer)
  | .ok (a, l) => .ok (a, l.later k)
  | .error e => .error (e.later k)

theorem laterRead_bind {α β : Type} {k : Nat} {x : Except ParseError (α × Lexer)}
    {f g : α × Lexer → Except ParseError (β × Lexer)}
    (h : ∀ a l, g (a, l.later k) = laterRead k (f (a, l))) :
    laterRead k x >>= g = laterRead k (x >>= f) := by
  cases x with
  | error e => rfl
  | ok r => exact h r.1 r.2

theorem scan_later (l : Lexer) (k : Nat) : (l.later k).scan = l.scan.later k := by
  obtain ⟨rest, line, mode, current, expectsName⟩ := l
  cases mode with
  | text => exact Scan.textToken_add ..
  | tag =>
    rcases hb : Scan.afterBlanks rest line with ⟨cs, line'⟩
    cases cs with
    | nil => simp [scan, later, Scan.afterBlanks_add, hb, Scan.later]
    | cons c cs =>
      simp only [scan, later, Scan.afterBlanks_add, hb]
      exact Scan.tagToken_add ..

theorem advance_later (l : Lexer) (k : Nat) (t : Token) :
    (l.later k).advance t = (l.advance t).later k := by
  have hs := scan_later l k
  have he : (l.later k).expectsNameAfter = l.expectsNameAfter := by
    simp only [expectsNameAfter, later, Scan.afterBlanks_add]
  simp only [advance, hs, he]
  rfl

theorem token_later (l : Lexer) (k : Nat) : (l.later k).token = laterRead k l.token := by
  by_cases h : l.current = some .eof
  · rw [token_of_eof h, token_of_eof (l := l.later k) h]
    rfl
  · rw [token_eq h, token_eq (l := l.later k) h, scan_later]
    cases hs : l.scan.result with
    | error e => simp [Scan.later, hs, laterRead, ParseError.later]
    | ok t => simp [Scan.later, hs, laterRead, advance_later]

theorem elements_later (l : Lexer) (k : Nat) : (l.later k).elements = laterRead k l.elements := by
  rw [elements_eq, token_later]
  fun_induction elements l with
  | case1 l e h => rw [h]; rfl
  | case2 l l' h => rw [h]; rfl
  | case3 l e l₁ h error he ih =>
    rw [h]
    simp only [laterRead]
    rw [elements_eq, token_later, ih, he]
    rfl
  | case4 l e l₁ h es l₂ he ih =>
    rw [h]
    simp only [laterRead]
    rw [elements_eq, token_later, ih, he]
    rfl
  | case5 l t l₁ hc he h =>
    rw [h]
    cases t with
    | tagClose => exact absurd rfl hc
    | element e => exact absurd rfl (he e)
    | _ => rfl

theorem checked_later (line k : Nat) (h : LoopHeader) :
    checked (line + k) h = (checked line h).mapError (·.later k) := by
  unfold checked
  cases h.arguments.find? (!·.isOperand) <;> rfl

theorem header_later (line k : Nat) (name : String) (arguments : List Element) :
    header (line + k) name arguments = (header line name arguments).mapError (·.later k) := by
  unfold header
  split
  · exact checked_later ..
  · exact checked_later ..
  · rfl

theorem tagBody_later (line : Nat) (name : String) (l : Lexer) (k : Nat) :
    tagBody (line + k) name (l.later k) = laterRead k (tagBody line name l) := by
  unfold tagBody
  split
  · rw [elements_later]
    exact laterRead_bind fun _ _ => rfl
  split
  · rw [token_later]
    apply laterRead_bind
    intro t l'
    split
    · rename_i counter l₁ heq
      obtain ⟨rfl, rfl⟩ := Prod.mk.inj heq
      dsimp only
      rw [elements_later]
      apply laterRead_bind
      intro arguments l₂
      have hh : header (l.later k).line counter arguments = _ :=
        header_later l.line k counter arguments
      rw [hh]
      cases header l.line counter arguments <;> rfl
    · rename_i t₁ l₁ hne heq
      obtain ⟨rfl, rfl⟩ := Prod.mk.inj heq
      split
      · rename_i counter l₂ heq'
        obtain ⟨rfl, rfl⟩ := Prod.mk.inj heq'
        exact (hne counter rfl).elim
      · rename_i heq'
        obtain ⟨rfl, rfl⟩ := Prod.mk.inj heq'
        rfl
  split
  · rw [token_later]
    apply laterRead_bind
    intro t l'
    cases t <;> rfl
  · rfl

theorem tag_later (l : Lexer) (k : Nat) : (l.later k).tag = laterRead k l.tag := by
  have ht : ((l.later k).withMode .tag).token = laterRead k (l.withMode .tag).token :=
    token_later (l.withMode .tag) k
  unfold tag
  rw [ht]
  apply laterRead_bind
  intro t l'
  cases t with
  | tagName name =>
    dsimp only
    have hb : tagBody (l.later k).line name (l'.later k) = _ := tagBody_later l.line name l' k
    rw [hb]
    exact laterRead_bind fun _ _ => rfl
  | _ => rfl

theorem piece_later (l : Lexer) (k : Nat) : (l.later k).piece = laterRead k l.piece := by
  unfold piece
  rw [token_later]
  apply laterRead_bind
  intro t l'
  cases t with
  | tagOpen =>
    dsimp only
    rw [tag_later]
    exact laterRead_bind fun _ _ => rfl
  | _ => rfl

/-! ## The last line -/

/-- The line on which the template ends. -/
def bottom (l : Lexer) : Nat := l.line + newlines l.rest

theorem bottom_scan (l : Lexer) : l.scan.line + newlines l.scan.rest = l.bottom := by
  obtain ⟨rest, line, mode, current, expectsName⟩ := l
  cases mode with
  | text => exact Scan.line_textToken ..
  | tag =>
    have hb := Scan.line_afterBlanks rest line
    rcases ha : Scan.afterBlanks rest line with ⟨cs, line'⟩
    rw [ha] at hb
    cases cs with
    | nil => simpa [scan, ha, bottom] using hb
    | cons c cs =>
      simp only [scan, ha, bottom]
      rw [Scan.line_tagToken]
      exact hb

theorem bottom_token {l l' : Lexer} {t : Token} (h : l.token = .ok (t, l')) :
    l'.bottom = l.bottom := by
  obtain ⟨-, -, rfl⟩ := token_eq_ok_iff.1 h
  exact bottom_scan l

theorem bottom_elements {l l' : Lexer} {es : List Element} (h : l.elements = .ok (es, l')) :
    l'.bottom = l.bottom := by
  induction es generalizing l with
  | nil =>
    rcases elements_eq_ok_iff.1 h with ⟨-, ht⟩ | ⟨e, es, l₁, hes, -⟩
    · exact bottom_token ht
    · simp at hes
  | cons e es ih =>
    rcases elements_eq_ok_iff.1 h with ⟨hes, -⟩ | ⟨e, es', l₁, hes, ht, h'⟩
    · simp at hes
    · obtain ⟨rfl, rfl⟩ := List.cons.inj hes
      exact (ih h').trans (bottom_token ht)

theorem bottom_tagBody {line : Nat} {name : String} {l l' : Lexer} {p : Piece}
    (h : tagBody line name l = .ok (p, l')) : l'.bottom = l.bottom := by
  rcases tagBody_eq_ok_iff.1 h with ⟨-, es, -, he⟩ | ⟨-, k, l₁, -, -, ht, he⟩ | ⟨-, -, ht⟩
  · exact bottom_elements he
  · exact (bottom_elements he).trans (bottom_token ht)
  · exact bottom_token ht

theorem bottom_tag {l l' : Lexer} {p : Piece} (h : l.tag = .ok (p, l')) :
    l'.bottom = l.bottom := by
  obtain ⟨name, l₁, l₂, ht, hb, rfl⟩ := tag_eq_ok_iff.1 h
  have hl : l₁.bottom = (l.withMode .tag).bottom := bottom_token ht
  exact (bottom_tagBody hb).trans hl

theorem bottom_piece {l l' : Lexer} {p : Piece} (h : l.piece = .ok (some p, l')) :
    l'.bottom = l.bottom := by
  rcases piece_eq_ok_some_iff.1 h with ⟨s, -, ht⟩ | ⟨l₁, ht, hp⟩
  · exact bottom_token ht
  · exact (bottom_tag hp).trans (bottom_token ht)

theorem scan_of_eof {l : Lexer} (h : l.scan.result = .ok .eof) : l.mode = .text ∧ l.rest = [] := by
  unfold scan at h
  split at h
  · rename_i hm
    rcases Scan.textToken_eq_ok h with ⟨-, hr⟩ | ⟨ht, -⟩ | ⟨c, r, s, -, -, ht, -⟩
    · exact ⟨hm, hr⟩
    · simp at ht
    · simp at ht
  · split at h
    · simp at h
    · rcases (Scan.TagScan.of_result_eq_ok h).result_cases with ⟨-, n, hn⟩ | hc | ⟨e, he⟩
      · simp [hn] at h
      · simp [hc] at h
      · simp [he] at h

/-- The end is read where nothing is left. -/
theorem rest_of_token_eof {l l' : Lexer} (h : l.token = .ok (.eof, l')) : l'.rest = [] := by
  obtain ⟨-, hs, rfl⟩ := token_eq_ok_iff.1 h
  obtain ⟨hm, hr⟩ := scan_of_eof hs
  simp [advance, scan, hm, hr, Scan.textToken]

end Lexer

/-! ## Rows of pieces -/

namespace Reading

/-- The reading on lines that are `k` further down. -/
def later (r : Reading) (k : Nat) : Reading where
  pieces := r.pieces.map fun (line, p) => (line + k, p)
  ending :=
    match r.ending with
    | .ok line => .ok (line + k)
    | .error e => .error (e.later k)

theorem ofLexer_later (l : Lexer) (k : Nat) : ofLexer (l.later k) = (ofLexer l).later k := by
  fun_induction ofLexer l with
  | case1 l e h =>
    have hk : (l.later k).piece = .error (e.later k) := by rw [Lexer.piece_later, h]; rfl
    rw [ofLexer_of_error hk]
    rfl
  | case2 l l' h =>
    have hk : (l.later k).piece = .ok (none, l'.later k) := by rw [Lexer.piece_later, h]; rfl
    rw [ofLexer_of_end hk]
    rfl
  | case3 l p l' h r ih =>
    have hk : (l.later k).piece = .ok (some p, l'.later k) := by
      rw [Lexer.piece_later, h]
      rfl
    rw [ofLexer_of_piece hk, ih]
    rfl

/-- A template that can be read to its end ends on its last line. -/
theorem ending_ofLexer {l : Lexer} {line : Nat} (h : (ofLexer l).ending = .ok line) :
    line = l.bottom := by
  fun_induction ofLexer l with
  | case1 => simp at h
  | case2 l l' hp =>
    have ht := Lexer.piece_eq_ok_none_iff.1 hp
    rw [← Lexer.bottom_token ht, Lexer.bottom, Lexer.rest_of_token_eof ht]
    exact (Except.ok.inj h).symm
  | case3 l p l' hp r ih => rw [ih h, Lexer.bottom_piece hp]

end Reading

end Stencil
