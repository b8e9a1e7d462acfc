import Stencil.Text.Visible
set_option autoImplicit false

/-!
# Quoted text

A text shown in a message stands between double quotes.  Quotes, backslashes,
tabs, line breaks and NUL are escaped by a backslash, and a character that does
not show on its own is given by its code point in lower-case hexadecimal digits
between braces.
-/

namespace Stencil.Text

/-- The written form of one character of a quoted text. -/
def quotedChar (c : Char) : List Char :=
  if c = '\x00' then ['\\', '0']
  else if c = '\t' then ['\\', 't']
  else if c = '\r' then ['\\', 'r']
  else if c = '\n' then ['\\', 'n']
  else if c = '"' then ['\\', '"']
  else if c = '\\' then ['\\', '\\']
  else if isVisible c then [c]
  else ['\\', 'u', '{'] ++ Nat.toDigits 16 c.toNat ++ ['}']

/-- The text between double quotes, with its characters escaped. -/
def quoted (s : String) : String :=
  String.ofList ('"' :: s.toList.flatMap quotedChar ++ ['"'])

end Stencil.Text
