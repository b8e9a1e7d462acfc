import Stencil.Proofs.Node.Depth
set_option autoImplicit false

/-!
# Templates in a row

A template that has a document can be followed by any other template: the two
together are refused exactly when the other one is, for the same reason and on a
line that is further down by the lines of the first; and otherwise their document
has the nodes of both, with the texts that meet joined (`Node.parse_append`).
-/

namespace Stencil

namespace Node

/-- Two texts make one text; other nodes are not glued. -/
def glue? : Node → Node → Option Node
  | text s, text t => some (text (s ++ t))
  | _, _ => none

/-- The nodes of the first row and then those of the second, with the texts that meet joined. -/
def join : List Node → List Node → List Node := joinWith glue?

/-! ## Pieces of rows that are joined -/

theorem allFlat_join {as bs : List Node} (ha : AllFlat as) (hb : AllFlat bs) :
    AllFlat (join as bs) := by
  unfold join
  rcases List.eq_nil_or_concat as with rfl | ⟨as, a, rfl⟩
  · simpa using hb
  · rw [List.concat_eq_append] at ha ⊢
    obtain ⟨has, ha, -⟩ := (allFlat_append _ _).1 ha
    rw [joinWith_append, allFlat_append]
    refine ⟨has, ?_⟩
    cases bs with
    | nil => exact ⟨ha, trivial⟩
    | cons b bs =>
      simp only [joinWith]
      cases hg : glue? a b with
      | none => exact ⟨ha, hb⟩
      | some c =>
        cases a <;> cases b <;> simp only [glue?, reduceCtorEq] at hg
        obtain rfl := Option.some.inj hg
        exact ⟨trivial, hb.2⟩

/-- The pieces of a flat node other than a text end with a piece that is no text. -/
theorem pieces_eq_append {n : Node} (hn : n.IsFlat) (ht : ∀ s, n ≠ text s) :
    ∃ ps p, n.pieces = ps ++ [p] ∧ ∀ s, p ≠ .text s := by
  cases n with
  | document cs => exact hn.elim
  | text s => exact absurd rfl (ht s)
  | loop h body => exact ⟨.opening h :: piecesAll body, .closing, rfl, nofun⟩
  | echo es => exact ⟨[], .echo es, rfl, nofun⟩

/-- A text and a row of flat nodes are joined as their pieces are. -/
theorem piecesAll_join_text (s : String) {bs : List Node} (hb : AllFlat bs) :
    piecesAll (joinWith glue? [text s] bs) =
      joinWith Piece.glue? [.text s] (piecesAll bs) := by
  cases bs with
  | nil => rfl
  | cons b bs =>
    cases b with
    | document cs => exact hb.1.elim
    | text t => rfl
    | loop h body => rfl
    | echo es => rfl

/-- Behind a node other than a text nothing is joined, neither nodes nor pieces. -/
theorem piecesAll_join_of_ne_text {a : Node} (ha : a.IsFlat) (ht : ∀ s, a ≠ text s)
    (bs : List Node) :
    piecesAll (joinWith glue? [a] bs) = joinWith Piece.glue? (piecesAll [a]) (piecesAll bs) := by
  obtain ⟨ps, p, hps, hp⟩ := pieces_eq_append ha ht
  have hglue : ∀ b, glue? a b = none := by
    intro b
    cases a with
    | text s => exact absurd rfl (ht s)
    | _ => rfl
  have hpieces : piecesAll [a] = ps ++ [p] := by simp [piecesAll, hps]
  rw [joinWith_singleton hglue, hpieces, joinWith_append,
    joinWith_singleton (Piece.glue?_eq_none_of_left hp)]
  simp [piecesAll, hps]

theorem pieces_ne_nil {n : Node} (hn : n.IsFlat) : n.pieces ≠ [] := by
  cases n with
  | document cs => exact hn.elim
  | _ => simp [pieces]

theorem piecesAll_join {as bs : List Node} (ha : AllFlat as) (hb : AllFlat bs) :
    piecesAll (join as bs) = joinWith Piece.glue? (piecesAll as) (piecesAll bs) := by
  unfold join
  rcases List.eq_nil_or_concat as with rfl | ⟨as, a, rfl⟩
  · simp [piecesAll]
  rw [List.concat_eq_append] at ha ⊢
  obtain ⟨-, ha, -⟩ := (allFlat_append _ _).1 ha
  have hne : piecesAll [a] ≠ [] := by simpa [piecesAll] using pieces_ne_nil ha
  have hlast : piecesAll (joinWith glue? [a] bs) =
      joinWith Piece.glue? (piecesAll [a]) (piecesAll bs) := by
    by_cases ht : ∃ s, a = text s
    · obtain ⟨s, rfl⟩ := ht
      exact piecesAll_join_text s hb
    · exact piecesAll_join_of_ne_text ha (fun s hs => ht ⟨s, hs⟩) bs
  rw [joinWith_append, piecesAll_append, piecesAll_append, joinWith_append_of_ne_nil _ hne, hlast]

end Node

/-! ## Readings -/

/-- The reading of two templates in a row, the first of which can be read to its end. -/
theorem Reading.ofString_append {x : String} {line : Nat} (h : (ofString x).ending = .ok line)
    (y : String) :
    ofString (x ++ y) =
        ⟨joinWith glue? (ofString x).pieces ((ofString y).later (newlines x.toList)).pieces,
          ((ofString y).later (newlines x.toList)).ending⟩ ∨
      ∃ e ps k s, (ofString y).later (newlines x.toList) = ⟨[], .error e⟩ ∧
        (ofString x).pieces = ps ++ [(k, .text s)] ∧ ofString (x ++ y) = ⟨ps, .error e⟩ := by
  have hline : line = 1 + newlines x.toList := ending_ofLexer h
  have hy : ofLexer (Lexer.fresh y.toList line) = (ofString y).later (newlines x.toList) := by
    rw [hline, Lexer.fresh_later, ofLexer_later]
    rfl
  have hxy : ofString (x ++ y) = ofLexer ((Lexer.ofString x).followedBy y.toList) := by
    unfold ofString Lexer.ofString
    rw [String.toList_append]
    rfl
  have happ := ofLexer_followedBy (Lexer.ready_fresh x.toList 1) h y.toList
  rw [hy] at happ
  rw [hxy]
  exact happ

theorem Reading.map_joinWith (ps qs : List (Nat × Piece)) :
    (joinWith glue? ps qs).map (·.2) = joinWith Piece.glue? (ps.map (·.2)) (qs.map (·.2)) := by
  apply Stencil.map_joinWith
  intro a b
  simp [glue?, Option.map_map, Function.comp_def]

theorem Reading.pieces_later (r : Reading) (k : Nat) :
    (r.later k).pieces.map (·.2) = r.pieces.map (·.2) := by
  simp [later, Function.comp_def]

/-- The template can be read to its end, and its pieces are `ps`. -/
structure Reading.Lists (r : Reading) (ps : List Piece) : Prop where
  ending : ∃ line, r.ending = .ok line
  pieces : r.pieces.map (·.2) = ps

/-- Of two templates in a row the pieces are read in a row. -/
theorem Reading.Lists.append {x y : String} {ps qs : List Piece} (hx : (ofString x).Lists ps)
    (hy : (ofString y).Lists qs) : (ofString (x ++ y)).Lists (joinWith Piece.glue? ps qs) := by
  obtain ⟨⟨line, hlx⟩, rfl⟩ := hx
  obtain ⟨⟨line', hly⟩, rfl⟩ := hy
  rcases ofString_append hlx y with hxy | ⟨e, ps, k, s, herr, -⟩
  · rw [hxy]
    refine ⟨⟨line' + newlines x.toList, ?_⟩, ?_⟩
    · simp [later, hly]
    · rw [map_joinWith, pieces_later]
  · have hend := congrArg Reading.ending herr
    simp [later, hly] at hend

/-! ## Documents -/

theorem Node.parse_eq_ok_iff {x : String} {n : Node} :
    parse x = .ok n ↔
      ∃ cs, n = .document cs ∧ AllFlat cs ∧ (Reading.ofString x).Lists (piecesAll cs) := by
  refine Reading.document_eq_ok_iff.trans ⟨?_, ?_⟩
  · rintro ⟨hend, cs, rfl, hcs, hps⟩
    exact ⟨cs, rfl, hcs, hend, hps.symm⟩
  · rintro ⟨cs, rfl, hcs, hend, hps⟩
    exact ⟨hend, cs, rfl, hcs, hps.symm⟩

/-- Two templates that have documents have one together. -/
theorem Node.parse_append_of_ok {x y : String} {n m : Node} (hx : parse x = .ok n)
    (hy : parse y = .ok m) :
    parse (x ++ y) = .ok (.document (join n.children m.children)) := by
  obtain ⟨cs, rfl, hcs, hlx⟩ := parse_eq_ok_iff.1 hx
  obtain ⟨ds, rfl, hds, hly⟩ := parse_eq_ok_iff.1 hy
  have hxy := hlx.append hly
  rw [← piecesAll_join hcs hds] at hxy
  exact parse_eq_ok_iff.2 ⟨_, rfl, allFlat_join hcs hds, hxy⟩

/-- A template that has a document leaves no loop open. -/
theorem Reading.depthAfter_of_document {r : Reading} {n : Node} (h : r.document = .ok n) :
    depthAfter 0 r.pieces = .ok 0 := by
  have hc := r.check_eq
  obtain ⟨⟨line, hl⟩, -⟩ := document_eq_ok_iff.1 h
  rw [h] at hc
  unfold check at hc
  cases hd : depthAfter 0 r.pieces with
  | error e => simp [hd, bind, Except.bind, Except.map] at hc
  | ok depth =>
    simp only [hd, hl, bind, Except.bind, Except.map] at hc
    split at hc
    · rename_i h0
      rw [h0]
    · simp at hc

/-- A template behind one that has a document is refused as it is on its own. -/
theorem Node.parse_append_of_error {x y : String} {n : Node} (hx : parse x = .ok n)
    {e : ParseError} (hy : parse y = .error e) :
    parse (x ++ y) = .error (e.later (newlines x.toList)) := by
  obtain ⟨⟨line, hlx⟩, -⟩ := Reading.document_eq_ok_iff.1 hx
  have hdx := Reading.depthAfter_of_document hx
  have hcy : ((Reading.ofString y).later (newlines x.toList)).check =
      .error (e.later (newlines x.toList)) := by
    rw [Reading.check_later, Reading.document_eq_error_iff.1 hy]
    rfl
  refine Reading.document_eq_error_iff.2 ?_
  rcases Reading.ofString_append hlx y with hxy | ⟨e', ps, k, s, herr, hps, hxy⟩
  · rw [hxy]
    unfold Reading.check at hcy ⊢
    dsimp only at hcy ⊢
    rw [depthAfter_joinWith, hdx]
    exact hcy
  · rw [herr] at hcy
    rw [hps, depthAfter_append] at hdx
    rw [hxy]
    unfold Reading.check at hcy ⊢
    cases hd : depthAfter 0 ps with
    | error e => simp [hd, bind, Except.bind] at hdx
    | ok d => exact hcy

/-- Templates are parsed one behind the other. -/
theorem Node.parse_append {x : String} {n : Node} (hx : parse x = .ok n) (y : String) :
    parse (x ++ y) =
      match parse y with
      | .ok m => .ok (.document (join n.children m.children))
      | .error e => .error ⟨e.line + newlines x.toList, e.fault⟩ := by
  cases hy : parse y with
  | ok m => exact parse_append_of_ok hx hy
  | error e => exact parse_append_of_error hx hy

theorem Node.parse_append_texts :
    parse "a\n" = .ok (.document [.text "a\n"]) ∧
      parse ("a\n" ++ "b") = .ok (.document [.text "a\nb"]) :=
  ⟨by cbv, (parse_append (n := .document [.text "a\n"]) (by cbv) "b").trans (by cbv)⟩

end Stencil
