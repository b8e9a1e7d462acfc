import Stencil.Token
import Stencil.Text.Word
import Stencil.Text.Blank
import Stencil.Text.Lowercase
set_option autoImplicit false

/-!
# Scanning characters

One token is scanned from the characters that are left of a template.  A scan says
what it found, which characters are then left, and on which line they begin; also
a failed scan leaves the characters from where it stopped.
-/

namespace Stencil

/-- What a scan found, and where it stopped. -/
structure Scan (α : Type) where
  result : Except LexError α
  rest : List Char
  line : Nat

namespace Scan

/-- The scan with a function applied to what it found. -/
def map {α β : Type} (f : α → β) (s : Scan α) : Scan β := ⟨s.result.map f, s.rest, s.line⟩

@[simp] theorem rest_map {α β : Type} (f : α → β) (s : Scan α) : (s.map f).rest = s.rest := rfl

@[simp] theorem line_map {α β : Type} (f : α → β) (s : Scan α) : (s.map f).line = s.line := rfl

@[simp] theorem map_id {α : Type} (s : Scan α) : s.map (fun a => a) = s := by
  obtain ⟨r, rest, line⟩ := s
  cases r <;> rfl

@[simp] theorem map_map {α β γ : Type} (f : α → β) (g : β → γ) (s : Scan α) :
    (s.map f).map g = s.map fun a => g (f a) := by
  obtain ⟨r, rest, line⟩ := s
  cases r <;> rfl

theorem result_map_eq_ok {α β : Type} {f : α → β} {s : Scan α} {b : β} :
    (s.map f).result = .ok b ↔ ∃ a, s.result = .ok a ∧ f a = b := by
  cases h : s.result <;> simp [map, Except.map, h]

/-- The line on which the character after `c` stands, where `c` stands on the given one. -/
def lineAfter (line : Nat) (c : Char) : Nat := if c = '\n' then line + 1 else line

/-! ## Text outside tags -/

/-- The characters that a backslash escapes in text. -/
def isTextEscape (c : Char) : Bool := c == '\\' || c == '{' || c == '}'

/-- Text up to the next tag or to the end, with its escapes resolved. -/
def text : List Char → Nat → Scan (List Char)
  | [], line => ⟨.ok [], [], line⟩
  | c :: cs, line =>
    if c = '{' then
      if cs.head? = some '$' then ⟨.ok [], c :: cs, line⟩
      else ⟨.error .braceWithoutDollar, c :: cs, line⟩
    else if c = '\\' then
      match cs with
      | [] => ⟨.error .trailingBackslash, [], line⟩
      | e :: cs =>
        if isTextEscape e then (text cs line).map (e :: ·)
        else ⟨.error (.invalidEscape e), cs, lineAfter line e⟩
    else (text cs (lineAfter line c)).map (c :: ·)

theorem text_opening (cs : List Char) (line : Nat) :
    text ('{' :: '$' :: cs) line = ⟨.ok [], '{' :: '$' :: cs, line⟩ := by
  simp [text.eq_def]

theorem text_escape {e : Char} (he : isTextEscape e = true) (cs : List Char) (line : Nat) :
    text ('\\' :: e :: cs) line = (text cs line).map (e :: ·) := by
  rw [text.eq_def]
  simp [he]

theorem text_plain {c : Char} (hb : c ≠ '{') (hs : c ≠ '\\') (cs : List Char) (line : Nat) :
    text (c :: cs) line = (text cs (lineAfter line c)).map (c :: ·) := by
  rw [text.eq_def]
  simp [hb, hs]

/-- The token that begins where text is expected. -/
def textToken (cs : List Char) (line : Nat) : Scan Token :=
  match cs with
  | [] => ⟨.ok .eof, [], line⟩
  | '{' :: '$' :: cs => ⟨.ok .tagOpen, cs, line⟩
  | cs => (text cs line).map fun s => .text (String.ofList s)

/-! ## Tags -/

/-- The character that an escape in a text constant stands for. -/
def unescape? (c : Char) : Option Char :=
  if c = '\\' then some '\\'
  else if c = '"' then some '"'
  else if c = 'n' then some '\n'
  else if c = 't' then some '\t'
  else if c = 'r' then some '\r'
  else none

/-- A text constant after its opening quote, with its escapes resolved. -/
def string : List Char → Nat → Scan (List Char)
  | [], line => ⟨.error .unterminatedString, [], line⟩
  | c :: cs, line =>
    if c = '"' then ⟨.ok [], cs, line⟩
    else if c = '\\' then
      match cs with
      | [] => ⟨.error .unterminatedString, [], line⟩
      | e :: cs =>
        match unescape? e with
        | some d => (string cs line).map (d :: ·)
        | none => ⟨.error (.invalidEscape e), cs, lineAfter line e⟩
    else (string cs (lineAfter line c)).map (c :: ·)

theorem string_quote (cs : List Char) (line : Nat) : string ('"' :: cs) line = ⟨.ok [], cs, line⟩ := by
  rw [string.eq_def]
  simp

theorem string_escape {e d : Char} (hd : unescape? e = some d) (cs : List Char) (line : Nat) :
    string ('\\' :: e :: cs) line = (string cs line).map (d :: ·) := by
  rw [string.eq_def]
  simp [hd]

theorem string_plain {c : Char} (hq : c ≠ '"') (hb : c ≠ '\\') (cs : List Char) (line : Nat) :
    string (c :: cs) line = (string cs (lineAfter line c)).map (c :: ·) := by
  rw [string.eq_def]
  simp [hq, hb]

/-- The token of a number literal that is a double, which has to be finite, or an integer, which has
to be in range. -/
def numberToken (isDouble : Bool) (literal : List Char) : Except LexError Token :=
  if isDouble then
    match Number.decimal? literal with
    | some (negative, d) =>
      let x := d.toFloat negative
      if x.isFinite then .ok (.element (.double x))
      else .error (.numberOutOfRange (String.ofList literal))
    | none => .error (.numberOutOfRange (String.ofList literal))
  else
    match (Number.integer? literal).bind toInt64? with
    | some n => .ok (.element (.integer n))
    | none => .error (.numberOutOfRange (String.ofList literal))

/-- The word at the beginning of the characters. -/
def word (cs : List Char) : List Char := cs.takeWhile Text.isWordChar

/-- What is left after the word at the beginning. -/
def afterWord (cs : List Char) : List Char := cs.dropWhile Text.isWordChar

/-- A number literal begins here: a digit, or a minus sign and a digit. -/
def beginsNumber (cs : List Char) : Bool :=
  match cs with
  | [] => false
  | c :: cs => c.isDigit || (c == '-' && cs.head?.any Char.isDigit)

/-- The token of a tag that begins with `c`; where the name of the tag is expected, `expectsName`,
an equals sign or a word is that name. -/
def tagToken (expectsName : Bool) (c : Char) (cs : List Char) (line : Nat) : Scan Token :=
  if expectsName ∧ c = '=' then ⟨.ok (.tagName "="), cs, line⟩
  else if expectsName ∧ Text.isLetter c then
    ⟨.ok (.tagName (String.ofList (Text.lowercase (word (c :: cs))))), afterWord (c :: cs), line⟩
  else if c = '$' then
    match cs with
    | '}' :: cs => ⟨.ok .tagClose, cs, line⟩
    | cs => ⟨.error .dollarWithoutBrace, cs, line⟩
  else if c = '"' then (string cs line).map fun s => .element (.text (String.ofList s))
  else if c = '@' then
    if cs.head?.any Text.isLetter then
      ⟨.ok (.element (.call (String.ofList (word cs)))), afterWord cs, line⟩
    else ⟨.error (.illegalCharacter c), cs, line⟩
  else if beginsNumber (c :: cs) then
    let parts := Number.literalParts (c :: cs)
    ⟨numberToken parts.isDouble parts.text, (c :: cs).drop parts.text.length, line⟩
  else if Text.isLetter c then
    ⟨.ok (.element (.var (String.ofList (word (c :: cs))))), afterWord (c :: cs), line⟩
  else
    match Operator.ofSymbol? c with
    | some op => ⟨.ok (.element (.operator op)), cs, line⟩
    | none => ⟨.error (.illegalCharacter c), c :: cs, line⟩

/-- What is left after the blanks at the beginning, and its line. -/
def afterBlanks : List Char → Nat → List Char × Nat
  | [], line => ([], line)
  | c :: cs, line => if Text.isBlank c then afterBlanks cs (lineAfter line c) else (c :: cs, line)

end Scan

end Stencil
