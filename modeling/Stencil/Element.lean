import Stencil.Operator
import Stencil.Number
import Stencil.Number.Display
set_option autoImplicit false

/-!
# Elements of a tag

What stands in the body of a tag: constants, names of variables, calls of
functions, operators.  `Element.source` is the written form that a template has
for an element.
-/

namespace Stencil

/-- An element of the body of a tag. -/
inductive Element where
  /-- a text constant -/
  | text (s : String)
  /-- an integer constant -/
  | integer (n : Int64)
  /-- a double constant -/
  | double (x : Float)
  /-- the value of a variable -/
  | var (name : String)
  /-- a call of a built-in function -/
  | call (name : String)
  /-- a binary operator -/
  | operator (op : Operator)
  deriving DecidableEq

namespace Element

/-- The written form of a character of a text constant. -/
def escapedChar (c : Char) : List Char :=
  if c = '\\' then ['\\', '\\']
  else if c = '"' then ['\\', '"']
  else if c = '\n' then ['\\', 'n']
  else if c = '\t' then ['\\', 't']
  else if c = '\r' then ['\\', 'r']
  else [c]

/-- The characters of the written form of an element. -/
def sourceChars : Element → List Char
  | text s => '"' :: s.toList.flatMap escapedChar ++ ['"']
  | integer n => Number.integerText n.toInt
  | double x => Number.doubleText x
  | var name => name.toList
  | call name => '@' :: name.toList
  | operator op => [op.symbol]

/-- The written form of an element. -/
def source (e : Element) : String := String.ofList e.sourceChars

/-- What messages call the element. -/
def describe : Element → String
  | text s => "string " ++ (text s).source
  | integer n => "number " ++ (integer n).source
  | double x => "number " ++ (double x).source
  | var name => "variable `" ++ name ++ "`"
  | call name => "function `@" ++ name ++ "`"
  | operator op => "operator `" ++ (operator op).source ++ "`"

/-- How near two double constants have to be to count as the same. -/
def tolerance : Float := 1e-9

/-- The elements are of one kind and have the same content, doubles up to the tolerance. -/
def agrees : Element → Element → Bool
  | text a, text b => a == b
  | integer a, integer b => a == b
  | double a, double b => a == b || (a - b).abs < tolerance
  | var a, var b => a == b
  | call a, call b => a == b
  | operator a, operator b => a == b
  | _, _ => false

/-- The element stands for a value of its own, so that it can bound a loop. -/
def isOperand : Element → Bool
  | call _ | operator _ => false
  | _ => true

end Element

end Stencil
