import Stencil.Proofs.Node.Normal
import Stencil.Proofs.Piece.Source
set_option autoImplicit false

/-!
# Layouts of a tree

A layout of a tree is made of layouts of its texts and tags (`Node.Layout`).  The
written form is one of them, and all layouts of a tree denote the same tree, which is
its normal form (`Node.parse_layout`).
-/

namespace Stencil

/-! ## Pieces of a layout -/

namespace Reading

theorem lists_nil : (ofString (String.ofList [])).Lists [] := by
  rw [ofString, Lexer.ofString_eq_fresh, String.toList_ofList,
    ofLexer_of_rest_eq_nil (Lexer.ready_fresh [] 1) rfl]
  exact ⟨⟨_, rfl⟩, rfl⟩

/-- From a layout of a piece, the piece is read. -/
theorem lists_piece {p : Piece} {cs : List Char} (h : p.Layout cs) (hp : p.IsWritable)
    (hne : p ≠ .text "") : (ofString (String.ofList cs)).Lists [p] := by
  obtain ⟨lts, htokens, hts⟩ := Lexer.yields_layout h hp hne 1
  have hoperands : ∀ q ∈ [p], q.HasOperands :=
    List.forall_mem_singleton.2 (Piece.hasOperands_of_isWritable hp)
  obtain ⟨line, lps, hread, hlps, -⟩ := ofLexer_of_tokens htokens hoperands (by simpa using hts)
  rw [ofString, Lexer.ofString_eq_fresh, String.toList_ofList, hread]
  exact ⟨⟨line, rfl⟩, hlps⟩

theorem Lists.ofList_append {xs ys : List Char} {ps qs : List Piece}
    (hx : (ofString (String.ofList xs)).Lists ps) (hy : (ofString (String.ofList ys)).Lists qs) :
    (ofString (String.ofList (xs ++ ys))).Lists (joinWith Piece.glue? ps qs) := by
  rw [String.ofList_append]
  exact hx.append hy

/-- The pieces of a loop, written as its two tags around the body. -/
theorem lists_loop {h : LoopHeader} (hh : h.IsWritable) {front body back : List Char}
    {ps : List Piece} (hfront : (Piece.opening h).Layout front)
    (hbody : (ofString (String.ofList body)).Lists ps) (hback : Piece.closing.Layout back) :
    (ofString (String.ofList (front ++ body ++ back))).Lists
      (.opening h :: (ps ++ [.closing])) := by
  have hopen := lists_piece hfront hh nofun
  have hclose := lists_piece hback trivial nofun
  have hloop := hopen.ofList_append hbody
  rw [joinWith_singleton (Piece.glue?_eq_none_of_left (p := .opening h) fun _ => nofun)] at hloop
  have hall := hloop.ofList_append hclose
  have hglue : ∀ p ∈ (.opening h :: ps).getLast?, ∀ q ∈ [Piece.closing].head?,
      p.glue? q = none := by
    intro p _ q hq
    obtain rfl := Option.some.inj hq
    exact Piece.glue?_eq_none_of_right (q := .closing) (fun _ => nofun) p
  rw [joinWith_eq_append hglue] at hall
  exact hall

end Reading

namespace Node

mutual

/-- The characters stand for the node. -/
def Layout : Node → List Char → Prop
  | document ns, cs => LayoutAll ns cs
  | text s, cs => (Piece.text s).Layout cs
  | loop h body, cs => ∃ front inner back, (Piece.opening h).Layout front ∧
      LayoutAll body inner ∧ Piece.closing.Layout back ∧ cs = front ++ inner ++ back
  | echo es, cs => (Piece.echo es).Layout cs

/-- The characters stand for the nodes in a row. -/
def LayoutAll : List Node → List Char → Prop
  | [], cs => cs = []
  | n :: ns, cs => ∃ first others, Layout n first ∧ LayoutAll ns others ∧ cs = first ++ others

end

mutual

/-- The written form of a node is a layout of the node. -/
theorem layout_source (n : Node) : n.Layout n.sourceChars := by
  cases n with
  | document cs => exact layoutAll_source cs
  | text s => exact Piece.layout_source (.text s)
  | loop h body =>
    exact ⟨_, _, _, Piece.layout_source (.opening h), layoutAll_source body,
      Piece.layout_source .closing, rfl⟩
  | echo es => exact Piece.layout_source (.echo es)

theorem layoutAll_source (ns : List Node) : LayoutAll ns (sourceCharsAll ns) := by
  cases ns with
  | nil => rfl
  | cons n ns => exact ⟨_, _, layout_source n, layoutAll_source ns, rfl⟩

end

mutual

/-- From a layout of a node, the pieces of its normal form are read. -/
theorem lists_layout {n : Node} {cs : List Char} (h : n.Layout cs) (hn : n.IsWritable) :
    (Reading.ofString (String.ofList cs)).Lists (piecesAll n.normal) := by
  cases n with
  | document ns => exact lists_layoutAll h hn
  | text s =>
    rw [normal]
    split
    · rename_i hs
      subst hs
      cases h with
      | text hs =>
        cases hs
        exact Reading.lists_nil
    · rename_i hs
      exact Reading.lists_piece h trivial fun heq => hs (Piece.text.inj heq)
  | loop k body =>
    obtain ⟨front, inner, back, hfront, hinner, hback, rfl⟩ := h
    have hpieces : piecesAll (normal (loop k body)) =
        .opening k :: (piecesAll (normalAll body) ++ [.closing]) := by
      simp [normal, piecesAll, pieces]
    rw [hpieces]
    exact Reading.lists_loop hn.1 hfront (lists_layoutAll hinner hn.2) hback
  | echo es => exact Reading.lists_piece h hn nofun

/-- From a layout of a row of nodes, the pieces of its normal form are read. -/
theorem lists_layoutAll {ns : List Node} {cs : List Char} (h : LayoutAll ns cs)
    (hns : AllWritable ns) :
    (Reading.ofString (String.ofList cs)).Lists (piecesAll (normalAll ns)) := by
  cases ns with
  | nil =>
    obtain rfl : cs = [] := h
    exact Reading.lists_nil
  | cons n ns =>
    obtain ⟨first, others, hfirst, hothers, rfl⟩ := h
    have hrow := (lists_layout hfirst hns.1).ofList_append (lists_layoutAll hothers hns.2)
    rw [← piecesAll_join (allFlat_normal n) (allFlat_normalAll ns)] at hrow
    exact hrow

end

/-- A layout of a tree denotes the normal form of the tree. -/
theorem parse_of_layout {t : Node} {cs : List Char} (h : t.Layout cs) (ht : t.IsWritable) :
    parse (String.ofList cs) = .ok (.document t.normal) :=
  parse_eq_ok_iff.2 ⟨t.normal, rfl, allFlat_normal t, lists_layout h ht⟩

/-- The written form of a tree denotes the normal form of the tree. -/
theorem parse_source {t : Node} (ht : t.IsWritable) : parse t.source = .ok (.document t.normal) :=
  parse_of_layout (layout_source t) ht

/-- A layout of a tag or of a text has the tokens of that piece and no others.  Every layout of a
tree denotes what the written form of the tree denotes, the normal form of the tree. -/
theorem parse_layout :
    (∀ (p : Piece) (cs : List Char), p.Layout cs → p.IsWritable → p ≠ .text "" →
      (Lexer.ofString (String.ofList cs)).Yields (p.tokens ++ [.eof])) ∧
    ∀ (t : Node) (cs : List Char), t.Layout cs → t.IsWritable →
      parse (String.ofList cs) = parse t.source ∧
        parse (String.ofList cs) = .ok (.document t.normal) := by
  refine ⟨fun p cs h hp hne => ?_, fun t cs h ht => ?_⟩
  · rw [Lexer.ofString_eq_fresh, String.toList_ofList]
    exact Lexer.yields_layout h hp hne 1
  · have hparse := parse_of_layout h ht
    exact ⟨hparse.trans (parse_source ht).symm, hparse⟩

/-- A loop in mixed case with line breaks and other blanks in its tags, behind an escaped closing
brace. -/
theorem parse_layout_blanks :
    let header : LoopHeader := ⟨"i", .integer 1, .var "n", none⟩
    let elements := [.var "i", .integer (-12), .operator .sub]
    let brace := ['\\', '}']
    let front := ['{', '$', '\n', 'f', 'O', 'r', '\u00A0', 'i', ' ', '\t', '1', '\n', 'n', '$', '}']
    let tag := ['{', '$', '=', 'i', '\n', '-', '1', '2', '\u2003', '-', '$', '}']
    let back := ['{', '$', ' ', 'e', 'N', 'D', ' ', '$', '}']
    let t := document [text "\x7d", loop header [echo elements]]
    (Piece.echo elements).Layout tag ∧
      (Lexer.ofString (String.ofList tag)).Yields ((Piece.echo elements).tokens ++ [.eof]) ∧
      t.Layout (brace ++ (front ++ tag ++ back)) ∧
      parse (String.ofList (brace ++ (front ++ tag ++ back))) = parse t.source ∧
      parse (String.ofList (brace ++ (front ++ tag ++ back))) = .ok t := by
  intro header elements brace front tag back t
  have hname : Text.IsWord "i".toList := ⟨by decide, List.forall_mem_nil _⟩
  have hbound : Text.IsWord "n".toList := ⟨by decide, List.forall_mem_nil _⟩
  have hheader : header.IsWritable := by
    refine ⟨hname, ?_, ?_⟩
    · exact List.forall_mem_cons.2 ⟨trivial, List.forall_mem_singleton.2 hbound⟩
    · simp [header, LoopHeader.HasOperands, LoopHeader.arguments, Element.isOperand]
  have helements : (Piece.echo elements).IsWritable :=
    List.forall_mem_cons.2
      ⟨hname, List.forall_mem_cons.2 ⟨trivial, List.forall_mem_singleton.2 trivial⟩⟩
  have hnewline : Text.IsBlanks ['\n'] := Text.isBlanks_singleton (by decide)
  have hwide : Text.IsBlanks ['\u2003'] := Text.isBlanks_singleton (by decide)
  have hfixed : Text.IsBlanks ['\u00A0'] := Text.isBlanks_singleton (by decide)
  have htwo : Text.IsBlanks [' ', '\t'] :=
    List.forall_mem_cons.2 ⟨by decide, Text.isBlanks_singleton (by decide)⟩
  have htag : (Piece.echo elements).Layout tag :=
    .echo Text.isBlanks_nil Text.isBlanks_nil
      (.cons hnewline (by simp) (.cons hwide (by simp) (.cons Text.isBlanks_nil (by simp) .nil)))
  have hfor : Text.AnyCase ['f', 'o', 'r'] ['f', 'O', 'r'] :=
    .cons (.inl rfl) (.cons (.inr rfl) (.cons (.inl rfl) .nil))
  have hend : Text.AnyCase ['e', 'n', 'd'] ['e', 'N', 'D'] :=
    .cons (.inl rfl) (.cons (.inr rfl) (.cons (.inr rfl) .nil))
  have hrow : Element.RowLayout [.var "i", .integer 1, .var "n"]
      ['i', ' ', '\t', '1', '\n', 'n'] :=
    .cons htwo (by simp) (.cons hnewline (by simp) (.cons Text.isBlanks_nil (by simp) .nil))
  have hfront : (Piece.opening header).Layout front :=
    .opening (h := header) hnewline hfor hfixed (by simp) hrow
  have hback : Piece.closing.Layout back :=
    .closing Text.isBlanks_space hend Text.isBlanks_space
  have hbrace : (Piece.text "\x7d").Layout brace := .text (.cons (.escape rfl) .nil)
  have hlayout : t.Layout (brace ++ (front ++ tag ++ back)) :=
    ⟨brace, _, hbrace, ⟨_, [], ⟨front, tag, back, hfront, ⟨tag, [], htag, rfl, by simp⟩, hback, rfl⟩,
      rfl, by simp⟩, rfl⟩
  have ht : t.IsWritable := ⟨trivial, ⟨hheader, helements, trivial⟩, trivial⟩
  exact ⟨htag, parse_layout.1 _ tag htag helements (by simp), hlayout,
    parse_layout.2 t _ hlayout ht⟩

end Node

end Stencil
