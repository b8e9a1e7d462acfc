import Stencil.Proofs.Parse.Faults
set_option autoImplicit false

/-!
# A parser with guards

A second parser keeps the open nodes on a stack, the document at the bottom, and adds
every node to the one on top.  It goes wrong openly where a parser relies on what it
has done before: a token that cannot stand at its place, a node on top that holds no
others, arguments that were counted and are not there.  Such a branch is a `Breach`
and no error of the template.  That no template takes one, so that both parsers are
the same, is shown for them side by side.
-/

namespace Stencil

namespace Guarded

/-- A branch that is never to be taken. -/
inductive Breach where
  /-- a token is asked for behind the end of the template -/
  | exhausted
  /-- the token does not stand at such a place -/
  | misplaced (p : Place) (t : Token)
  /-- no node that can hold the node is on top of the stack -/
  | lost (n : Node)
  /-- two or three arguments were counted, and two of them are not there -/
  | noBounds
  /-- an open loop was counted, and it is not there -/
  | noLoop
  /-- the document alone was counted, and it is not there -/
  | noDocument

/-- Why the parser stops. -/
inductive Stop where
  /-- the template is refused -/
  | refused (e : ParseError)
  | breach (b : Breach)

/-! ## Tokens -/

/-- The next token, which has to be one that the place admits. -/
def token (p : Place) (l : Lexer) : Except Stop (Token × Lexer) :=
  match l.next with
  | (.error .exhausted, _) => .error (.breach .exhausted)
  | (.error cause, l') => .error (.refused ⟨l'.line, .lex cause⟩)
  | (.ok t, l') => if p.admits t then .ok (t, l') else .error (.breach (.misplaced p t))

theorem token_eq_ok {p : Place} {l l' : Lexer} {t : Token} (h : token p l = .ok (t, l')) :
    l.token = .ok (t, l') := by
  unfold token at h
  unfold Lexer.token
  split at h
  · cases h
  · cases h
  · rename_i hnext
    rw [hnext]
    split at h
    · exact congrArg Except.ok (Except.ok.inj h)
    · cases h

/-- The elements up to the end of the tag. -/
def elements (l : Lexer) : Except Stop (List Element × Lexer) :=
  match _h : token .inside l with
  | .error s => .error s
  | .ok (.tagClose, l') => .ok ([], l')
  | .ok (.element e, l') =>
    match elements l' with
    | .error s => .error s
    | .ok (es, l'') => .ok (e :: es, l'')
  | .ok (t, _) => .error (.breach (.misplaced .inside t))
termination_by l.rest.length
decreasing_by exact Lexer.length_rest_lt_of_token (token_eq_ok _h) nofun

/-- The end of a tag. -/
def tagClose (l : Lexer) : Except Stop Lexer := do
  match ← token .inside l with
  | (.tagClose, l') => return l'
  | (t, l') => throw (.refused ⟨l'.line, .tagNotClosed t⟩)

/-! ## Loop tags -/

/-- The header of a loop.  The arguments are counted, looked at one by one, and then taken. -/
def header (line : Nat) (name : String) (arguments : List Element) : Except Stop LoopHeader :=
  if 2 ≤ arguments.length ∧ arguments.length ≤ 3 then
    match arguments.find? (!·.isOperand) with
    | some e => .error (.refused ⟨line, .loopArgument e⟩)
    | none =>
      match arguments[0]?, arguments[1]? with
      | some start, some stop => .ok ⟨name, start, stop, arguments[2]?⟩
      | _, _ => .error (.breach .noBounds)
  else .error (.refused ⟨line, .loopArity arguments.length⟩)

/-- The header of a loop behind the name of its tag. -/
def loopTag (l : Lexer) : Except Stop (LoopHeader × Lexer) := do
  match ← token .inside l with
  | (.element (.var counter), l') =>
    let (arguments, l'') ← elements l'
    return (← header l.line counter arguments, l'')
  | (t, _) => throw (.refused ⟨l.line, .loopVariable t⟩)

/-! ## The stack -/

/-- The node with one more below it; only a document and a loop hold others. -/
def withChild? (n : Node) : Node → Option Node
  | .document children => some (.document (children ++ [n]))
  | .loop h body => some (.loop h (body ++ [n]))
  | .text _ | .echo _ => none

/-- The stack with a node added to the one on top. -/
def append (n : Node) (stack : List Node) : Except Stop (List Node) :=
  match stack with
  | [] => .error (.breach (.lost n))
  | top :: below =>
    match withChild? n top with
    | some top' => .ok (top' :: below)
    | none => .error (.breach (.lost n))

/-- The stack with the innermost loop closed by an end tag on the line. -/
def close (line : Nat) (stack : List Node) : Except Stop (List Node) :=
  if stack.length < 2 then .error (.refused ⟨line, .unmatchedEnd⟩)
  else
    match stack with
    | closed :: below => append closed below
    | [] => .error (.breach .noLoop)

/-- The document that is left on the stack where the template ends. -/
def finish (line : Nat) (stack : List Node) : Except Stop Node :=
  if stack.length = 1 then
    match stack with
    | document :: _ => .ok document
    | [] => .error (.breach .noDocument)
  else .error (.refused ⟨line, .unclosedLoops (stack.length - 1)⟩)

/-! ## Tags -/

/-- The tag of the given name, where the tag was opened on the given line. -/
def tagBody (line : Nat) (name : String) (stack : List Node) (l : Lexer) :
    Except Stop (List Node × Lexer) :=
  if name = "=" then do
    let (es, l') ← elements l
    return (← append (.echo es) stack, l')
  else if name = "for" then do
    let (h, l') ← loopTag l
    return (.loop h [] :: stack, l')
  else if name = "end" then do
    let l' ← tagClose l
    return (← close line stack, l')
  else throw (.refused ⟨line, .unknownTag name⟩)

/-- The tag that was opened just before. -/
def tag (stack : List Node) (l : Lexer) : Except Stop (List Node × Lexer) := do
  match ← token .front l with
  | (.tagName name, l') => tagBody l.line name stack l'
  | (t, _) => throw (.refused ⟨l.line, .missingTagName t⟩)

/-! ## The whole template -/

theorem elements_eq_ok {l l' : Lexer} {es : List Element} (h : elements l = .ok (es, l')) :
    l.elements = .ok (es, l') := by
  fun_induction elements l generalizing es l' with
  | case1 => cases h
  | case2 l l₁ ht =>
    obtain ⟨rfl, rfl⟩ := Prod.mk.inj (Except.ok.inj h)
    exact Lexer.elements_eq_ok_iff.2 (.inl ⟨rfl, token_eq_ok ht⟩)
  | case3 => cases h
  | case4 l e l₁ ht es₁ l₂ hes ih =>
    obtain ⟨rfl, rfl⟩ := Prod.mk.inj (Except.ok.inj h)
    exact Lexer.elements_eq_ok_iff.2 (.inr ⟨e, es₁, l₁, rfl, token_eq_ok ht, ih hes⟩)
  | case5 => cases h

theorem length_rest_tagClose_lt {l l' : Lexer} (h : tagClose l = .ok l') :
    l'.rest.length < l.rest.length := by
  obtain ⟨⟨t, l₁⟩, ht, h⟩ := bind_eq_ok_iff.1 h
  split at h
  · rename_i heq
    obtain ⟨rfl, rfl⟩ := Prod.mk.inj heq
    obtain rfl := Except.ok.inj h
    exact Lexer.length_rest_lt_of_token (token_eq_ok ht) nofun
  · cases h

theorem length_rest_loopTag_lt {l l' : Lexer} {h : LoopHeader} (hh : loopTag l = .ok (h, l')) :
    l'.rest.length < l.rest.length := by
  obtain ⟨⟨t, l₁⟩, ht, hh⟩ := bind_eq_ok_iff.1 hh
  split at hh
  · rename_i heq
    obtain ⟨rfl, rfl⟩ := Prod.mk.inj heq
    obtain ⟨⟨arguments, l₂⟩, hes, hh⟩ := bind_eq_ok_iff.1 hh
    obtain ⟨k, -, hh⟩ := bind_eq_ok_iff.1 hh
    obtain ⟨rfl, rfl⟩ := Prod.mk.inj (Except.ok.inj hh)
    exact (Lexer.length_rest_elements_lt (elements_eq_ok hes)).trans
      (Lexer.length_rest_lt_of_token (token_eq_ok ht) nofun)
  · cases hh

theorem length_rest_tagBody_lt {line : Nat} {name : String} {stack stack' : List Node}
    {l l' : Lexer} (h : tagBody line name stack l = .ok (stack', l')) :
    l'.rest.length < l.rest.length := by
  unfold tagBody at h
  split at h
  · obtain ⟨⟨es, l₁⟩, hes, h⟩ := bind_eq_ok_iff.1 h
    obtain ⟨stack₁, -, h⟩ := bind_eq_ok_iff.1 h
    obtain ⟨rfl, rfl⟩ := Prod.mk.inj (Except.ok.inj h)
    exact Lexer.length_rest_elements_lt (elements_eq_ok hes)
  split at h
  · obtain ⟨⟨k, l₁⟩, hk, h⟩ := bind_eq_ok_iff.1 h
    obtain ⟨rfl, rfl⟩ := Prod.mk.inj (Except.ok.inj h)
    exact length_rest_loopTag_lt hk
  split at h
  · obtain ⟨l₁, hclose, h⟩ := bind_eq_ok_iff.1 h
    obtain ⟨stack₁, -, h⟩ := bind_eq_ok_iff.1 h
    obtain ⟨rfl, rfl⟩ := Prod.mk.inj (Except.ok.inj h)
    exact length_rest_tagClose_lt hclose
  · cases h

theorem length_rest_tag_lt {stack stack' : List Node} {l l' : Lexer}
    (h : tag stack l = .ok (stack', l')) : l'.rest.length < l.rest.length := by
  obtain ⟨⟨t, l₁⟩, ht, h⟩ := bind_eq_ok_iff.1 h
  split at h
  · rename_i heq
    obtain ⟨rfl, rfl⟩ := Prod.mk.inj heq
    exact (length_rest_tagBody_lt h).trans
      (Lexer.length_rest_lt_of_token (token_eq_ok ht) nofun)
  · cases h

/-- The document that is read onto the stack. -/
def run (stack : List Node) (l : Lexer) : Except Stop Node :=
  match _h : token .outside l with
  | .error s => .error s
  | .ok (.eof, l') => finish l'.line stack
  | .ok (.text s, l') =>
    match append (.text s) stack with
    | .error s => .error s
    | .ok stack' => run stack' l'
  | .ok (.tagOpen, l') =>
    match _h' : tag stack (l'.withMode .tag) with
    | .error s => .error s
    | .ok (stack', l'') => run stack' (l''.withMode .text)
  | .ok (t, _) => .error (.breach (.misplaced .outside t))
termination_by l.rest.length
decreasing_by
  · exact Lexer.length_rest_lt_of_token (token_eq_ok _h) nofun
  · have htoken := Lexer.length_rest_lt_of_token (token_eq_ok _h) nofun
    have htag := length_rest_tag_lt _h'
    exact Nat.lt_trans htag htoken

/-- The document of a template, read onto a stack that holds an empty document. -/
def parse (source : String) : Except Stop Node := run [.document []] (Lexer.ofString source)

end Guarded

end Stencil
