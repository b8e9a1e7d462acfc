import Stencil.Element
set_option autoImplicit false

/-!
# Nodes

The tree of a template: documents and loops hold nodes, texts and echoes are
leaves.  `Node.source` is the written form that a template has for a node.
-/

namespace Stencil

/-- What a loop says about its counter. -/
structure LoopHeader where
  /-- the variable that counts -/
  name : String
  /-- the first counter -/
  start : Element
  /-- the bound that no counter exceeds -/
  stop : Element
  /-- what is added after each iteration; one when left out -/
  step : Option Element
  deriving DecidableEq

namespace LoopHeader

/-- The elements that a loop has behind its variable. -/
def arguments (h : LoopHeader) : List Element := h.start :: h.stop :: h.step.toList

/-- Both headers count alike, doubles up to the tolerance of elements. -/
def agrees (a b : LoopHeader) : Bool :=
  a.name == b.name && a.start.agrees b.start && a.stop.agrees b.stop &&
    match a.step, b.step with
    | none, none => true
    | some s, some t => s.agrees t
    | _, _ => false

/-- The tag that begins a loop. -/
def sourceChars (h : LoopHeader) : List Char :=
  "\x7b$ FOR ".toList ++ h.name.toList ++ ' ' :: h.start.sourceChars ++ ' ' :: h.stop.sourceChars ++
    (match h.step with
      | none => []
      | some s => ' ' :: s.sourceChars) ++ " $\x7d".toList

end LoopHeader

/-- A node of the tree of a template. -/
inductive Node where
  | document (children : List Node)
  /-- text that is written as it is -/
  | text (s : String)
  | loop (header : LoopHeader) (body : List Node)
  /-- an expression in postfix order, whose values are written -/
  | echo (elements : List Element)

namespace Node

/-- The nodes directly below a node. -/
def children : Node → List Node
  | document cs => cs
  | loop _ body => body
  | text _ | echo _ => []

/-! ## Comparison -/

mutual

/-- The trees have one shape and agreeing elements. -/
def agrees : Node → Node → Bool
  | document as, document bs => allAgree as bs
  | text a, text b => a == b
  | loop h as, loop k bs => h.agrees k && allAgree as bs
  | echo as, echo bs => as.length == bs.length && (as.zip bs).all fun (a, b) => a.agrees b
  | _, _ => false

/-- The lists have one length and agreeing nodes. -/
def allAgree : List Node → List Node → Bool
  | [], [] => true
  | a :: as, b :: bs => agrees a b && allAgree as bs
  | _, _ => false

end

/-! ## Written form -/

/-- The written form of a character of text outside tags. -/
def escapedChar (c : Char) : List Char :=
  if c = '\\' then ['\\', '\\']
  else if c = '{' then ['\\', '{']
  else [c]

mutual

/-- The characters of the written form of a node. -/
def sourceChars : Node → List Char
  | document cs => sourceCharsAll cs
  | text s => s.toList.flatMap escapedChar
  | loop h body => h.sourceChars ++ sourceCharsAll body ++ "\x7b$END$\x7d".toList
  | echo es => "\x7b$=".toList ++ es.flatMap (fun e => ' ' :: e.sourceChars) ++ " $\x7d".toList

/-- The characters of the written form of nodes in a row. -/
def sourceCharsAll : List Node → List Char
  | [] => []
  | n :: ns => sourceChars n ++ sourceCharsAll ns

end

/-- The written form of a node. -/
def source (n : Node) : String := String.ofList n.sourceChars

end Node

end Stencil
