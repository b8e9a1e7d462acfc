import Stencil.Element
import Stencil.Text.Quoted
set_option autoImplicit false

/-!
# Tokens

The tokens that a template is cut into, and the causes for which the cutting
fails.
-/

namespace Stencil

/-- A token of a template. -/
inductive Token where
  /-- the end of the template -/
  | eof
  /-- text outside tags, with its escapes resolved -/
  | text (s : String)
  /-- the two characters that open a tag -/
  | tagOpen
  /-- the two characters that close a tag -/
  | tagClose
  /-- the first word of a tag in lower case, or an equals sign -/
  | tagName (name : String)
  /-- an element of the body of a tag -/
  | element (e : Element)
  deriving DecidableEq

/-- What messages call the token.  A double is shown in positional notation, and a text constant
quoted with its invisible characters made visible. -/
def Token.describe : Token → String
  | eof => "end of input"
  | text _ => "text"
  | tagOpen => "`\x7b$`"
  | tagClose => "`$\x7d`"
  | tagName name => "tag name `" ++ name ++ "`"
  | element (.text s) => "string " ++ Text.quoted s
  | element (.double x) => "number " ++ String.ofList (Number.plainText x)
  | element e => e.describe

/-- Why the next token cannot be read. -/
inductive LexError where
  /-- the character after a backslash is not one that can be escaped there -/
  | invalidEscape (c : Char)
  /-- the template ends with a backslash -/
  | trailingBackslash
  /-- an opening brace in text neither opens a tag nor is escaped -/
  | braceWithoutDollar
  /-- a dollar sign in a tag does not close it -/
  | dollarWithoutBrace
  /-- the template ends within a text constant -/
  | unterminatedString
  /-- the template ends within a tag -/
  | unclosedTag
  /-- no token of a tag begins with the character -/
  | illegalCharacter (c : Char)
  /-- no number has the value of the literal -/
  | numberOutOfRange (literal : String)
  /-- the end of the template was already read -/
  | exhausted
  deriving DecidableEq, Repr

/-- The wording of a cause. -/
def LexError.message : LexError → String
  | invalidEscape c => "invalid escape sequence `\\" ++ String.singleton c ++ "`"
  | trailingBackslash => "backslash at end of input"
  | braceWithoutDollar =>
    "`\x7b` must be followed by `$` (write `\\\x7b` for a literal brace)"
  | dollarWithoutBrace => "`$` must be followed by `\x7d` inside a tag"
  | unterminatedString => "unterminated string literal"
  | unclosedTag => "tag is not closed before end of input"
  | illegalCharacter c => "illegal character `" ++ String.singleton c ++ "` inside tag"
  | numberOutOfRange literal => "numeric literal `" ++ literal ++ "` is out of range"
  | exhausted => "lexer already produced end of input"

end Stencil
