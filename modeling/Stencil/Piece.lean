import Stencil.Lexer
import Stencil.ParseError
import Stencil.Node
set_option autoImplicit false

/-!
# Pieces of a template

A template is a row of pieces: texts and tags.  A piece is read from the lexer as
a whole; an echo or a loop is read up to the end of its tag.
-/

namespace Stencil

/-- A text or a tag of a template. -/
inductive Piece where
  | text (s : String)
  | echo (elements : List Element)
  /-- the tag that begins a loop -/
  | opening (header : LoopHeader)
  /-- the tag that ends a loop -/
  | closing
  deriving DecidableEq

namespace Lexer

/-- The next token, with an error reported for the line on which reading stopped. -/
def token (l : Lexer) : Except ParseError (Token × Lexer) :=
  match l.next with
  | (.ok t, l') => .ok (t, l')
  | (.error e, l') => .error ⟨l'.line, .lex e⟩

theorem length_rest_lt_of_token {l l' : Lexer} {t : Token} (h : l.token = .ok (t, l'))
    (ht : t ≠ .eof) : l'.rest.length < l.rest.length := by
  unfold token at h
  split at h
  · rename_i hn
    simp only [Except.ok.injEq, Prod.mk.injEq] at h
    obtain ⟨rfl, rfl⟩ := h
    exact length_rest_lt_of_next hn ht
  · simp at h

/-- The elements up to the end of the tag. -/
def elements (l : Lexer) : Except ParseError (List Element × Lexer) :=
  match _h : l.token with
  | .error e => .error e
  | .ok (.tagClose, l') => .ok ([], l')
  | .ok (.element e, l') =>
    match elements l' with
    | .error e => .error e
    | .ok (es, l'') => .ok (e :: es, l'')
  | .ok (t, l') => .error ⟨l'.line, .tagNotClosed t⟩
termination_by l.rest.length
decreasing_by exact length_rest_lt_of_token _h nofun

/-- The header, when every argument stands for a value of its own; the first that does not is
reported for the line. -/
def checked (line : Nat) (h : LoopHeader) : Except ParseError LoopHeader :=
  match h.arguments.find? (!·.isOperand) with
  | some e => .error ⟨line, .loopArgument e⟩
  | none => .ok h

/-- The header of a loop with the given arguments, on the line of the name of its tag. -/
def header (line : Nat) (name : String) (arguments : List Element) :
    Except ParseError LoopHeader :=
  match arguments with
  | [start, stop] => checked line ⟨name, start, stop, none⟩
  | [start, stop, step] => checked line ⟨name, start, stop, some step⟩
  | _ => .error ⟨line, .loopArity arguments.length⟩

/-- The piece that a tag of the given name is, where the tag was opened on the given line. -/
def tagBody (line : Nat) (name : String) (l : Lexer) : Except ParseError (Piece × Lexer) :=
  if name = "=" then do
    let (es, l) ← l.elements
    return (.echo es, l)
  else if name = "for" then do
    match ← l.token with
    | (.element (.var counter), l') =>
      let (arguments, l'') ← l'.elements
      return (.opening (← header l.line counter arguments), l'')
    | (t, _) => throw ⟨l.line, .loopVariable t⟩
  else if name = "end" then do
    match ← l.token with
    | (.tagClose, l') => return (.closing, l')
    | (t, l') => throw ⟨l'.line, .tagNotClosed t⟩
  else throw ⟨line, .unknownTag name⟩

/-- The piece that the tag opened just before is. -/
def tag (l : Lexer) : Except ParseError (Piece × Lexer) := do
  match ← (l.withMode .tag).token with
  | (.tagName name, l') =>
    let (p, l'') ← tagBody l.line name l'
    return (p, l''.withMode .text)
  | (t, _) => throw ⟨l.line, .missingTagName t⟩

/-- The next piece, or nothing at the end of the template. -/
def piece (l : Lexer) : Except ParseError (Option Piece × Lexer) := do
  match ← l.token with
  | (.eof, l') => return (none, l')
  | (.text s, l') => return (some (.text s), l')
  | (.tagOpen, l') =>
    let (p, l'') ← l'.tag
    return (some p, l'')
  | (t, l') => throw ⟨l'.line, .tagNotClosed t⟩

end Lexer

end Stencil
