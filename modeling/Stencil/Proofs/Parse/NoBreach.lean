import Stencil.Proofs.Parse.Guarded
set_option autoImplicit false

/-!
# Guards that never fail

Every reader of the guarded parser does what the reader without guards does, where the
lexer stands at the place for it (`Guarded.token_eq` up to `Guarded.tag_eq`).  What an
assembly holds is a stack with a document at the bottom and loops above it
(`Assembly.stack`), so that a node always finds a place.  Both together carry one
piece after the other, and so the whole template (`Guarded.parse_without_breach`).
-/

namespace Stencil

/-! ## The stack of an assembly -/

/-- The open nodes, the innermost first. -/
def Assembly.stackOf : List (LoopHeader × List Node) → List Node → List Node
  | [], nodes => [.document nodes.reverse]
  | (h, before) :: opened, nodes => .loop h nodes.reverse :: stackOf opened before

/-- The open nodes, the innermost first. -/
def Assembly.stack (a : Assembly) : List Node := stackOf a.opened a.nodes

theorem Assembly.length_stackOf (opened : List (LoopHeader × List Node)) (nodes : List Node) :
    (stackOf opened nodes).length = opened.length + 1 := by
  induction opened generalizing nodes with
  | nil => rfl
  | cons o opened ih => exact congrArg (· + 1) (ih o.2)

namespace Guarded

/-- What a parser without guards returns. -/
def refuse {α : Type} (x : Except ParseError α) : Except Stop α := x.mapError .refused

@[simp] theorem refuse_ok {α : Type} (a : α) : refuse (.ok a) = .ok a := rfl

@[simp] theorem refuse_error {α : Type} (e : ParseError) :
    refuse (α := α) (.error e) = .error (.refused e) := rfl

theorem append_stackOf (n : Node) (opened : List (LoopHeader × List Node)) (nodes : List Node) :
    append n (Assembly.stackOf opened nodes) = .ok (Assembly.stackOf opened (n :: nodes)) := by
  cases opened with
  | nil => simp [append, withChild?, Assembly.stackOf]
  | cons o opened => simp [append, withChild?, Assembly.stackOf]

theorem close_stack (line : Nat) (a : Assembly) :
    close line a.stack = refuse ((a.pushAll [(line, .closing)]).map Assembly.stack) := by
  obtain ⟨opened, nodes⟩ := a
  cases opened with
  | nil => rfl
  | cons o opened =>
    have hlength := Assembly.length_stackOf opened o.2
    have happend := append_stackOf (.loop o.1 nodes.reverse) opened o.2
    have htwo : ¬(Assembly.stackOf opened o.2).length + 1 < 2 := by omega
    simp only [close, Assembly.stack, Assembly.stackOf, List.length_cons, htwo, if_false, happend]
    rfl

theorem finish_stack (line : Nat) (a : Assembly) :
    finish line a.stack = refuse (a.finish line) := by
  obtain ⟨opened, nodes⟩ := a
  cases opened with
  | nil => rfl
  | cons o opened =>
    have hlength := Assembly.length_stackOf opened o.2
    simp [finish, Assembly.finish, Assembly.stack, Assembly.stackOf, hlength]

/-! ## Readers -/

variable {l : Lexer}

theorem token_eq {p : Place} (hl : l.At p) : token p l = refuse l.token := by
  have hexhausted := Lexer.next_ne_exhausted hl.unfinished
  have hadmits (t : Token) (l' : Lexer) (h : l.next = (.ok t, l')) : p.admits t := by
    have ht : l.token = .ok (t, l') := by
      unfold Lexer.token
      rw [h]
    exact (hl.token ht).1
  unfold token Lexer.token
  rcases hnext : l.next with ⟨cause | t, l'⟩
  · rw [hnext] at hexhausted
    cases cause <;> first | rfl | exact absurd rfl hexhausted
  · exact if_pos (hadmits t l' hnext)

theorem elements_def (l : Lexer) :
    elements l = match token .inside l with
      | .error s => .error s
      | .ok (.tagClose, l') => .ok ([], l')
      | .ok (.element e, l') =>
        match elements l' with
        | .error s => .error s
        | .ok (es, l'') => .ok (e :: es, l'')
      | .ok (t, _) => .error (.breach (.misplaced .inside t)) := by
  rw [elements.eq_def]
  rcases token .inside l with s | ⟨t, l'⟩
  · rfl
  · cases t <;> rfl

theorem elements_eq (hl : l.At .inside) : elements l = refuse l.elements := by
  rw [elements_def, token_eq hl]
  fun_induction Lexer.elements l with
  | case1 l e ht => rw [ht]; rfl
  | case2 l l' ht => rw [ht]; rfl
  | case3 l a l₁ ht e he ih =>
    have hl₁ : l₁.At .inside := (hl.token ht).2 (by simp)
    rw [ht]
    dsimp only [refuse_ok]
    rw [elements_def, token_eq hl₁, ih hl₁, he]
    rfl
  | case4 l a l₁ ht es l₂ he ih =>
    have hl₁ : l₁.At .inside := (hl.token ht).2 (by simp)
    rw [ht]
    dsimp only [refuse_ok]
    rw [elements_def, token_eq hl₁, ih hl₁, he]
    rfl
  | case5 l t l₁ hclose helement ht =>
    rcases Place.admits_inside_iff.1 (hl.token ht).1 with ⟨a, rfl⟩ | rfl
    · exact absurd rfl (helement a)
    · exact absurd rfl hclose

/-- Two or three arguments that are counted are there. -/
theorem header_eq (line : Nat) (name : String) (arguments : List Element) :
    header line name arguments = refuse (Lexer.header line name arguments) := by
  match arguments with
  | [] | [_] => rfl
  | [a, b] =>
    simp only [header, Lexer.header, Lexer.checked, LoopHeader.arguments, Option.toList_none]
    cases [a, b].find? (!·.isOperand) <;> rfl
  | [a, b, c] =>
    simp only [header, Lexer.header, Lexer.checked, LoopHeader.arguments, Option.toList_some]
    cases [a, b, c].find? (!·.isOperand) <;> rfl
  | a :: b :: c :: d :: rest => simp [header, Lexer.header]

theorem tagClose_eq (hl : l.At .inside) (line : Nat) :
    (tagClose l).map (fun l' => (Piece.closing, l')) = refuse (Lexer.tagBody line "end" l) := by
  rw [tagClose, token_eq hl, Lexer.tagBody_closing]
  rcases l.token with e | ⟨t, l'⟩
  · rfl
  · cases t <;> rfl

theorem loopTag_eq (hl : l.At .inside) (line : Nat) :
    (loopTag l).map (fun r => (Piece.opening r.1, r.2)) =
      refuse (Lexer.tagBody line "for" l) := by
  rw [loopTag, token_eq hl, Lexer.tagBody_opening]
  rcases ht : l.token with e | ⟨t, l'⟩
  · rfl
  cases t with
  | element a =>
    cases a with
    | var counter =>
      have hl' : l'.At .inside := (hl.token ht).2 nofun
      simp only [refuse_ok, bind, Except.bind, elements_eq hl']
      rcases l'.elements with e | ⟨arguments, l''⟩
      · rfl
      · simp only [refuse_ok, header_eq]
        cases Lexer.header l.line counter arguments <;> rfl
    | _ => rfl
  | _ => rfl

/-- What `f` makes of a result is what a parser without guards returns, so it returns the same or
stops for the same error. -/
theorem eq_of_map_eq_refuse {α β : Type} {x : Except Stop α} {f : α → β}
    {y : Except ParseError β} (h : x.map f = refuse y) :
    (∃ e, x = .error (.refused e) ∧ y = .error e) ∨ ∃ a, x = .ok a ∧ y = .ok (f a) := by
  cases x with
  | error s =>
    cases y with
    | error e => exact .inl ⟨e, congrArg Except.error (Except.error.inj h), rfl⟩
    | ok b => cases h
  | ok a =>
    cases y with
    | error e => cases h
    | ok b => exact .inr ⟨a, rfl, congrArg Except.ok (Except.ok.inj h).symm⟩

/-- A tag behind its name: what is read goes onto the stack. -/
theorem tagBody_eq (hl : l.At .inside) (a : Assembly) (line : Nat) (name : String) :
    tagBody line name a.stack l = refuse (Lexer.tagBody line name l >>= fun r =>
      (a.pushAll [(line, r.1)]).map fun a' => (a'.stack, r.2)) := by
  by_cases hecho : name = "="
  · subst hecho
    rw [tagBody, if_pos rfl, elements_eq hl, Lexer.tagBody_echo]
    rcases l.elements with e | ⟨es, l'⟩
    · rfl
    · simp only [refuse_ok, bind, Except.bind, Assembly.stack, append_stackOf]
      rfl
  by_cases hfor : name = "for"
  · subst hfor
    rw [tagBody, if_neg (by decide), if_pos rfl]
    obtain ⟨e, hx, hy⟩ | ⟨r, hx, hy⟩ := eq_of_map_eq_refuse (loopTag_eq hl line) <;>
      rw [hx, hy] <;> rfl
  by_cases hend : name = "end"
  · subst hend
    rw [tagBody, if_neg (by decide), if_neg (by decide), if_pos rfl]
    obtain ⟨e, hx, hy⟩ | ⟨l', hx, hy⟩ := eq_of_map_eq_refuse (tagClose_eq hl line)
    · rw [hx, hy]
      rfl
    · rw [hx, hy]
      simp only [bind, Except.bind, close_stack]
      cases a.pushAll [(line, Piece.closing)] <;> rfl
  · rw [tagBody, if_neg hecho, if_neg hfor, if_neg hend, Lexer.tagBody_unknown hecho hfor hend]
    rfl

theorem tag_eq (hl : (l.withMode .tag).At .front) (a : Assembly) :
    (tag a.stack (l.withMode .tag)).map (fun r => (r.1, r.2.withMode .text)) =
      refuse (l.tag >>= fun r => (a.pushAll [(l.line, r.1)]).map fun a' => (a'.stack, r.2)) := by
  rw [tag, token_eq hl, Lexer.tag_eq_bind]
  rcases ht : (l.withMode .tag).token with e | ⟨t, l'⟩
  · rfl
  cases t with
  | tagName name =>
    have hl' : l'.At .inside := (hl.token ht).2 nofun
    have hbody := tagBody_eq hl' a l.line name
    simp only [refuse_ok, bind, Except.bind] at hbody ⊢
    rw [show (l.withMode .tag).line = l.line from rfl, hbody]
    rcases Lexer.tagBody l.line name l' with e | ⟨p, l''⟩
    · rfl
    · dsimp only
      cases a.pushAll [(l.line, p)] <;> rfl
  | _ => rfl

/-! ## One piece after the other -/

theorem run_def (stack : List Node) (l : Lexer) :
    run stack l = match token .outside l with
      | .error s => .error s
      | .ok (.eof, l') => finish l'.line stack
      | .ok (.text s, l') => append (.text s) stack >>= fun stack' => run stack' l'
      | .ok (.tagOpen, l') => tag stack (l'.withMode .tag) >>= fun r =>
          run r.1 (r.2.withMode .text)
      | .ok (t, _) => .error (.breach (.misplaced .outside t)) := by
  rw [run.eq_def]
  rcases token .outside l with s | ⟨t, l'⟩
  · rfl
  · cases t with
    | text s =>
      dsimp only
      cases append (.text s) stack <;> rfl
    | tagOpen =>
      dsimp only
      cases tag stack (l'.withMode .tag) <;> rfl
    | _ => rfl

/-- The guarded parser goes on with what the next piece makes of the assembly. -/
theorem run_eq (hl : l.Ready) (a : Assembly) :
    run a.stack l = refuse l.piece >>= fun r => match r.1 with
      | none => refuse (a.finish r.2.line)
      | some p => refuse (a.pushAll [(l.line, p)]) >>= fun a' => run a'.stack r.2 := by
  have hplace := Lexer.ready_iff_at.1 hl
  rw [run_def, token_eq hplace, Lexer.piece_eq_bind]
  rcases ht : l.token with e | ⟨t, l'⟩
  · rfl
  obtain rfl | ⟨s, rfl⟩ | rfl := Place.admits_outside_iff.1 (hplace.token ht).1
  · exact finish_stack l'.line a
  · simp only [refuse_ok, Assembly.stack, append_stackOf]
    rfl
  · have htag := tag_eq ((hplace.token ht).2 nofun) a
    rw [hl.line_of_tagOpen ht] at htag
    calc tag a.stack (l'.withMode .tag) >>= (fun r => run r.1 (r.2.withMode .text))
      _ = (tag a.stack (l'.withMode .tag)).map (fun r => (r.1, r.2.withMode .text)) >>=
            fun r => run r.1 r.2 := by
        cases tag a.stack (l'.withMode .tag) <;> rfl
      _ = refuse (l'.tag >>= fun r =>
            (a.pushAll [(l.line, r.1)]).map fun a' => (a'.stack, r.2)) >>=
            fun r => run r.1 r.2 := by rw [htag]
      _ = _ := by
        dsimp only [bind, Except.bind]
        rcases l'.tag with e | ⟨p, l''⟩
        · rfl
        · dsimp only [refuse_ok]
          cases a.pushAll [(l.line, p)] <;> rfl

theorem run_ofLexer (hl : l.Ready) (a : Assembly) :
    run a.stack l = refuse (a.pushAll (Reading.ofLexer l).pieces >>= fun a' =>
      (Reading.ofLexer l).ending >>= fun line => a'.finish line) := by
  fun_induction Reading.ofLexer l generalizing a with
  | case1 l e hpiece => rw [run_eq hl, hpiece]; rfl
  | case2 l l' hpiece => rw [run_eq hl, hpiece]; rfl
  | case3 l p l' hpiece r ih =>
    rw [run_eq hl, hpiece]
    have hcons : a.pushAll ((l.line, p) :: r.pieces) =
        a.pushAll [(l.line, p)] >>= fun a' => a'.pushAll r.pieces :=
      Assembly.pushAll_append a [(l.line, p)] r.pieces
    simp only [hcons, refuse_ok, bind, Except.bind]
    cases a.pushAll [(l.line, p)] with
    | error e => rfl
    | ok a' => exact ih (hl.piece hpiece) a'

/-- The guarded parser is the parser, so it takes no breach. -/
theorem parse_eq_refuse (x : String) : parse x = refuse (Node.parse x) :=
  run_ofLexer (Lexer.ready_ofString x) {}

/-- No template asks for a token behind its end. -/
theorem ne_exhausted {x : String} {line : Nat} :
    Node.parse x ≠ .error ⟨line, .lex .exhausted⟩ := by
  intro h
  obtain ⟨read, hfault, -⟩ := Node.hasFault_of_parse h
  cases hfault with
  | @lex _ l _ _ _ hts hnext =>
    have hexhausted := Lexer.next_ne_exhausted hts.place_ofString.unfinished
    rw [hnext] at hexhausted
    exact hexhausted rfl

/-- On no template is a breach taken: with and without guards the parser returns the same, so every
token stands at its place, every node is added to a document or a loop, and every argument and node
that was counted is there.  The end is read once.  Texts, the openings of tags and the end are
found outside tags and nowhere else, and a name only right behind the opening of a tag.  A tag
that goes on where it has to end is one that ends a loop. -/
theorem parse_without_breach (x : String) :
    (∀ b, parse x ≠ .error (.breach b)) ∧
    parse x = (Node.parse x).mapError .refused ∧
    (∀ line, Node.parse x ≠ .error ⟨line, .lex .exhausted⟩) ∧
    (∀ ts l t l', (Lexer.ofString x).Reads ts l → l.token = .ok (t, l') →
      (l.mode = .text → t = .eof ∨ (∃ s, t = .text s) ∨ t = .tagOpen) ∧
      (l.mode = .tag → (∃ name, t = .tagName name) ∨ (∃ e, t = .element e) ∨ t = .tagClose) ∧
      ∀ name, t = .tagName name → ts.getLast? = some .tagOpen) ∧
    ∀ line t, Node.parse x = .error ⟨line, .tagNotClosed t⟩ →
      ∃ read ps l l₁ l', TagAt x read ps l ∧ l.Reads [.tagName "end"] l₁ ∧
        l₁.token = .ok (t, l') ∧ t ≠ .tagClose := by
  refine ⟨fun b h => ?_, parse_eq_refuse x, fun line => ne_exhausted, ?_, fun line t h => ?_⟩
  · rw [parse_eq_refuse] at h
    cases hparse : Node.parse x <;> rw [hparse] at h <;> cases h
  · intro ts l t l' hreads ht
    exact hreads.token_of_ofString ht
  · obtain ⟨read, hfault, -⟩ := Node.hasFault_of_parse h
    cases hfault with
    | @tagNotClosed ps l l₁ l' _ before _ htag hend ht hopen =>
      exact ⟨before, ps, l, l₁, l', htag, hend, ht, hopen⟩

/-- An end tag that goes on behind its name. -/
theorem parse_without_breach_end :
    (∃ ts l l', (Lexer.ofString "\x7b$END x$\x7d").Reads ts l ∧
      l.token = .ok (.tagName "end", l') ∧ ts.getLast? = some .tagOpen) ∧
    Node.parse "\x7b$END x$\x7d" = .error ⟨1, .tagNotClosed (.element (.var "x"))⟩ ∧
    ∃ read ps l l₁ l', TagAt "\x7b$END x$\x7d" read ps l ∧ l.Reads [.tagName "end"] l₁ ∧
      l₁.token = .ok (.element (.var "x"), l') ∧ Token.element (.var "x") ≠ .tagClose := by
  obtain ⟨-, -, -, htokens, hclosed⟩ := parse_without_breach "\x7b$END x$\x7d"
  have hpiece : (Lexer.ofString "\x7b$END x$\x7d").piece =
      .error ⟨1, .tagNotClosed (.element (.var "x"))⟩ := by cbv
  have hparse : Node.parse "\x7b$END x$\x7d" =
      .error ⟨1, .tagNotClosed (.element (.var "x"))⟩ := by
    rw [Node.parse, Reading.ofString, Reading.ofLexer_of_error hpiece]
    rfl
  obtain ⟨read, ps, l, l₁, l', htag, hend, -⟩ := hclosed _ _ hparse
  cases hend with
  | cons hname hne hnil =>
    exact ⟨⟨_, l, _, htag.reads, hname, (htokens _ _ _ _ htag.reads hname).2.2 _ rfl⟩, hparse,
      hclosed _ _ hparse⟩

end Guarded

end Stencil
