import Stencil.Scan.Rest
set_option autoImplicit false

/-!
# The lexer

A lexer cuts a template into tokens, one at a time.  Its mode says whether the
next token is read from text or within a tag, and is switched from outside.  It
goes on after an error from where the scan stopped.  Once the end of the template
was read, nothing is read any more.  `length_rest_lt_of_next` says that every
token but the end shortens what is left, so that reading on ends.

The place of a lexer is what is left to it; a lexer that keeps the template and the
byte at which it stands, `ByteLexer`, goes side by side with it.
-/

namespace Stencil

/-- How the next token is read. -/
inductive Mode where
  /-- as text outside tags -/
  | text
  /-- as part of a tag -/
  | tag
  deriving DecidableEq, Repr

/-- The state of reading a template. -/
structure Lexer where
  /-- the characters not yet read -/
  rest : List Char
  /-- the line on which they begin, counted from one -/
  line : Nat := 1
  mode : Mode := .text
  /-- the latest token -/
  current : Option Token := none
  /-- a tag was opened and no token read in it yet -/
  expectsName : Bool := false
  deriving DecidableEq

namespace Lexer

/-- The lexer at the beginning of a template. -/
def ofString (s : String) : Lexer := { rest := s.toList }

/-- The lexer with another mode. -/
def withMode (l : Lexer) (m : Mode) : Lexer := { l with mode := m }

/-- The scan of the next token. -/
def scan (l : Lexer) : Scan Token :=
  match l.mode with
  | .text => Scan.textToken l.rest l.line
  | .tag =>
    match Scan.afterBlanks l.rest l.line with
    | ([], line) => ⟨.error .unclosedTag, [], line⟩
    | (c :: cs, line) => Scan.tagToken l.expectsName c cs line

/-- Whether the name of a tag is expected after the scan of the next token: the opening of a tag
asks for it, and any character read in the tag ends the wait. -/
def expectsNameAfter (l : Lexer) : Bool :=
  match l.mode with
  | .text => l.expectsName || ['{', '$'].isPrefixOf l.rest
  | .tag => l.expectsName && (Scan.afterBlanks l.rest l.line).1.isEmpty

/-- The next token, and the lexer after it. -/
def next (l : Lexer) : Except LexError Token × Lexer :=
  if l.current = some .eof then (.error .exhausted, l)
  else
    let s := l.scan
    let after := { l with rest := s.rest, line := s.line, expectsName := l.expectsNameAfter }
    match s.result with
    | .ok t => (.ok t, { after with current := some t })
    | .error e => (.error e, after)

/-! ## Progress -/

theorem rest_scan_suffix (l : Lexer) : l.scan.rest <:+ l.rest := by
  unfold scan
  split
  · exact Scan.textToken_suffix ..
  · have h := Scan.afterBlanks_suffix l.rest l.line
    split
    · exact List.nil_suffix
    · rename_i hs
      rw [hs] at h
      exact (Scan.tagToken_suffix ..).trans h

theorem length_rest_scan_lt {l : Lexer} {t : Token} (ht : t ≠ .eof)
    (h : l.scan.result = .ok t) : l.scan.rest.length < l.rest.length := by
  unfold scan at h ⊢
  split at h
  · exact Scan.length_lt_of_textToken_eq_ok ht h
  · have hb := (Scan.afterBlanks_suffix l.rest l.line).length_le
    split at h
    · simp at h
    · rename_i hs
      rw [hs] at hb
      exact Nat.lt_of_lt_of_le (Scan.length_lt_of_tagToken_eq_ok h) hb

theorem rest_next_suffix (l : Lexer) : l.next.2.rest <:+ l.rest := by
  unfold next
  split
  · exact List.suffix_refl _
  · dsimp only
    split <;> exact rest_scan_suffix l

/-- A token other than the end leaves fewer characters. -/
theorem length_rest_lt_of_next {l l' : Lexer} {t : Token} (h : l.next = (.ok t, l'))
    (ht : t ≠ .eof) : l'.rest.length < l.rest.length := by
  unfold next at h
  split at h
  · simp at h
  · dsimp only at h
    split at h
    · rename_i hr
      simp only [Prod.mk.injEq, Except.ok.injEq] at h
      obtain ⟨rfl, rfl⟩ := h
      exact length_rest_scan_lt ht hr
    · simp at h

end Lexer

end Stencil
