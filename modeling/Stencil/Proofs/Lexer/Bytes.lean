import Stencil.Proofs.Lexer.Commands
import Stencil.Proofs.Number.Bytes
set_option autoImplicit false

/-!
# A lexer on bytes

A second lexer keeps the whole template and a cursor, the number of the byte at which it
stands.  It moves the cursor by the size of a character, by the two bytes that open a tag,
by the size of a word, or by what was measured on the bytes of a number.  Each time it looks
at the template it takes the characters from the cursor on, which are there only when the
cursor cuts no character: otherwise the step has no result at all.  That this never happens,
so that both lexers are the same, is shown for them side by side.
-/

namespace Stencil

/-- The state of reading a template by its bytes. -/
structure ByteLexer where
  template : String
  /-- the byte at which the lexer stands -/
  cursor : String.Pos.Raw := ⟨0⟩
  /-- the line of the cursor, counted from one -/
  line : Nat := 1
  mode : Mode := .text
  /-- the latest token -/
  current : Option Token := none
  /-- a tag was opened and no token read in it yet -/
  expectsName : Bool := false

namespace ByteLexer

/-- What a step finds, and the lexer after it. -/
abbrev Step (α : Type) : Type := Except LexError α × ByteLexer

/-- The step with a function applied to what it found. -/
def Step.map {α β : Type} (f : α → β) (r : Step α) : Step β := (Except.map f r.1, r.2)

/-- The lexer at the beginning of a template. -/
def ofString (s : String) : ByteLexer := { template := s }

/-! ## Looking at the template -/

/-- The characters from the cursor on. -/
def remaining? (l : ByteLexer) : Option (List Char) := Text.charsFrom? l.template l.cursor

/-- The next character, if there is one. -/
def peek? (l : ByteLexer) : Option (Option Char) := l.remaining?.map List.head?

/-- The character behind the next, if there is one. -/
def peekSecond? (l : ByteLexer) : Option (Option Char) := l.remaining?.map (·[1]?)

/-! ## Moving the cursor -/

/-- The lexer a number of bytes further on, on the same line. -/
def skip (l : ByteLexer) (n : Nat) : ByteLexer := { l with cursor := ⟨l.cursor.byteIdx + n⟩ }

/-- The lexer behind a character. -/
def past (l : ByteLexer) (c : Char) : ByteLexer :=
  { l.skip c.utf8Size with line := Scan.lineAfter l.line c }

/-- The next character and the lexer behind it. -/
def bump? (l : ByteLexer) : Option (Option Char × ByteLexer) :=
  l.peek?.map fun
    | none => (none, l)
    | some c => (some c, l.past c)

/-- The bytes from the cursor on. -/
def left (l : ByteLexer) : Nat := l.template.utf8ByteSize - l.cursor.byteIdx

theorem remaining?_eq_some_iff {l : ByteLexer} {cs : List Char} :
    l.remaining? = some cs ↔
      ∃ read, l.template.toList = read ++ cs ∧ l.cursor = ⟨String.utf8Len read⟩ :=
  Text.charsFrom?_eq_some_iff

/-- Behind characters that are left, the others are left. -/
theorem remaining?_skip {l : ByteLexer} {taken cs : List Char}
    (h : l.remaining? = some (taken ++ cs)) :
    (l.skip (String.utf8Len taken)).remaining? = some cs := by
  obtain ⟨read, hsplit, hcursor⟩ := remaining?_eq_some_iff.1 h
  refine remaining?_eq_some_iff.2 ⟨read ++ taken, hsplit.trans (List.append_assoc ..).symm, ?_⟩
  rw [skip, hcursor, String.utf8Len_append]

theorem remaining?_past {l : ByteLexer} {c : Char} {cs : List Char}
    (h : l.remaining? = some (c :: cs)) : (l.past c).remaining? = some cs := by
  have hskip : (l.skip (String.utf8Len [c])).remaining? = some cs := remaining?_skip h
  rwa [String.utf8Len_cons, String.utf8Len_nil, Nat.zero_add] at hskip

theorem left_skip_lt {l : ByteLexer} {c : Char} {cs : List Char}
    (h : l.remaining? = some (c :: cs)) : (l.past c).left < l.left := by
  obtain ⟨read, hsplit, hcursor⟩ := remaining?_eq_some_iff.1 h
  have hsize : l.template.utf8ByteSize =
      String.utf8Len read + (String.utf8Len cs + c.utf8Size) := by
    rw [← String.utf8Len_toList, hsplit, String.utf8Len_append, String.utf8Len_cons]
  have hpos := c.utf8Size_pos
  simp only [left, past, skip, hcursor, hsize]
  omega

theorem exists_remaining_of_peek {l : ByteLexer} {c : Char} (h : l.peek? = some (some c)) :
    ∃ cs, l.remaining? = some (c :: cs) := by
  obtain ⟨cs, hcs, hhead⟩ := Option.map_eq_some_iff.1 h
  obtain ⟨rest, rfl⟩ := List.head?_eq_some_iff.1 hhead
  exact ⟨rest, hcs⟩

theorem left_past_lt {l : ByteLexer} {c : Char} (h : l.peek? = some (some c)) :
    (l.past c).left < l.left :=
  left_skip_lt (exists_remaining_of_peek h).choose_spec

theorem left_bump_lt {l l' : ByteLexer} {c : Char} (h : l.bump? = some (some c, l')) :
    l'.left < l.left := by
  obtain ⟨d, hd, hmap⟩ := Option.map_eq_some_iff.1 h
  cases d with
  | none => cases hmap
  | some d =>
    cases hmap
    exact left_past_lt hd

/-! ## Text outside tags -/

/-- Text up to the next tag or to the end, with its escapes resolved. -/
def text (l : ByteLexer) : Option (Step (List Char)) :=
  match _h : l.peek? with
  | none => none
  | some none => some (.ok [], l)
  | some (some c) =>
    if c = '{' then
      l.peekSecond?.map fun d =>
        (if d = some '$' then .ok [] else .error .braceWithoutDollar, l)
    else if c = '\\' then
      match _h' : (l.past c).bump? with
      | none => none
      | some (none, l') => some (.error .trailingBackslash, l')
      | some (some e, l') =>
        if Scan.isTextEscape e then (text l').map (Step.map (e :: ·))
        else some (.error (.invalidEscape e), l')
    else (text (l.past c)).map (Step.map (c :: ·))
termination_by l.left
decreasing_by
  · exact (left_bump_lt _h').trans (left_past_lt _h)
  · exact left_past_lt _h

/-- The token that begins where text is expected. -/
def textToken (l : ByteLexer) : Option (Step Token) := do
  let cs ← l.remaining?
  if cs.isEmpty then some (.ok .eof, l)
  else if ['{', '$'].isPrefixOf cs then some (.ok .tagOpen, { l.skip 2 with expectsName := true })
  else l.text.map (Step.map fun s => .text (String.ofList s))

/-! ## Tags -/

/-- The lexer behind the blanks at the cursor. -/
def skipBlanks? (l : ByteLexer) : Option ByteLexer :=
  match _h : l.peek? with
  | none => none
  | some none => some l
  | some (some c) => if Text.isBlank c then skipBlanks? (l.past c) else some l
termination_by l.left
decreasing_by exact left_past_lt _h

/-- The word at the cursor. -/
def word (l : ByteLexer) : Option (Step (List Char)) :=
  l.remaining?.map fun cs => (.ok (Scan.word cs), l.skip (String.utf8Len (Scan.word cs)))

/-- A text constant after its opening quote, with its escapes resolved. -/
def string (l : ByteLexer) : Option (Step (List Char)) :=
  match _h : l.bump? with
  | none => none
  | some (none, l') => some (.error .unterminatedString, l')
  | some (some c, l') =>
    if c = '"' then some (.ok [], l')
    else if c = '\\' then
      match _h' : l'.bump? with
      | none => none
      | some (none, l'') => some (.error .unterminatedString, l'')
      | some (some e, l'') =>
        match Scan.unescape? e with
        | some d => (string l'').map (Step.map (d :: ·))
        | none => some (.error (.invalidEscape e), l'')
    else (string l').map (Step.map (c :: ·))
termination_by l.left
decreasing_by
  · exact (left_bump_lt _h').trans (left_bump_lt _h)
  · exact left_bump_lt _h

/-- The number at the cursor, which is measured on its bytes. -/
def number (l : ByteLexer) : Option (Step Token) := do
  let cs ← l.remaining?
  let (size, isDouble) ← Number.literalSize? (Text.bytes cs)
  let literal ← Text.charsTo? (String.ofList cs) ⟨size⟩
  return (Scan.numberToken isDouble literal, l.skip size)

/-- A number begins at the cursor with the character `c`. -/
def beginsNumber? (l : ByteLexer) (c : Char) : Option Bool :=
  if c = '-' then l.peekSecond?.map (·.any Char.isDigit) else some c.isDigit

/-- The token of a tag that begins with `c` at the cursor; where the name of the tag is expected, an
equals sign or a word is that name. -/
def tagTokenAt (expectsName : Bool) (c : Char) (l : ByteLexer) : Option (Step Token) :=
  if expectsName ∧ c = '=' then some (.ok (.tagName "="), l.past c)
  else if expectsName ∧ Text.isLetter c then
    l.word.map (Step.map fun w => .tagName (String.ofList (Text.lowercase w)))
  else if c = '$' then
    (l.past c).peek?.map fun d =>
      if d = some '}' then (.ok .tagClose, (l.past c).past '}')
      else (.error .dollarWithoutBrace, l.past c)
  else if c = '"' then
    (l.past c).string.map (Step.map fun s => .element (.text (String.ofList s)))
  else if c = '@' then do
    if (← (l.past c).peek?).any Text.isLetter then
      (l.past c).word.map (Step.map fun w => .element (.call (String.ofList w)))
    else some (.error (.illegalCharacter c), l.past c)
  else do
    if ← l.beginsNumber? c then l.number
    else if Text.isLetter c then
      l.word.map (Step.map fun w => .element (.var (String.ofList w)))
    else
      match Operator.ofSymbol? c with
      | some op => some (.ok (.element (.operator op)), l.past c)
      | none => some (.error (.illegalCharacter c), l)

/-- The token that begins where a tag goes on.  Any character ends the wait for the name. -/
def tagToken (l : ByteLexer) : Option (Step Token) := do
  let l ← l.skipBlanks?
  match ← l.peek? with
  | none => some (.error .unclosedTag, l)
  | some c => tagTokenAt l.expectsName c { l with expectsName := false }

/-! ## Tokens and commands -/

/-- The scan of the next token. -/
def scan (l : ByteLexer) : Option (Step Token) :=
  match l.mode with
  | .text => l.textToken
  | .tag => l.tagToken

/-- The next token, and the lexer after it. -/
def next (l : ByteLexer) : Option (Step Token) :=
  if l.current = some .eof then some (.error .exhausted, l)
  else
    l.scan.map fun
      | (.ok t, l') => (.ok t, { l' with current := some t })
      | (.error e, l') => (.error e, l')

/-- The lexer after a command. -/
def obey? (l : ByteLexer) : Lexer.Command → Option ByteLexer
  | .next => l.next.map (·.2)
  | .switch m => some { l with mode := m }

/-- The lexer after commands in a row. -/
def run? (l : ByteLexer) (cs : List Lexer.Command) : Option ByteLexer := cs.foldlM obey? l

/-- What the lexer answers to the commands to read a token, each answer with the line on which the
lexer then stands. -/
def log? (l : ByteLexer) : List Lexer.Command → Option (List (Except LexError Token × Nat))
  | [] => some []
  | .next :: cs => l.next.bind fun x => (log? x.2 cs).map ((x.1, x.2.line) :: ·)
  | .switch m :: cs => log? { l with mode := m } cs

end ByteLexer

end Stencil
