import Stencil.Proofs.Join
import Stencil.Proofs.Piece.Ready
set_option autoImplicit false

/-!
# Templates in a row

A template that can be read to its end is read in the same way when another one
follows it, and the other one is then read from a fresh start.  Only a text at the
end of the first goes on into a text at the beginning of the second
(`Reading.ofLexer_followedBy`).
-/

namespace Stencil

namespace Lexer

/-- The lexer of a template that goes on with `ys`. -/
def followedBy (l : Lexer) (ys : List Char) : Lexer := { l with rest := l.rest ++ ys }

/-! ## Tokens of a tag -/

theorem token_followedBy_of_tag {l l' : Lexer} {t : Token} (hm : l.mode = .tag)
    (h : l.token = .ok (t, l')) (hb : t = .tagClose ∨ '$' ∈ l'.rest) (ys : List Char) :
    (l.followedBy ys).token = .ok (t, l'.followedBy ys) := by
  obtain ⟨hs, hscan⟩ := tagScan_of_token hm h
  obtain ⟨hcur, -, rfl⟩ := token_eq_ok_iff.1 h
  have hne : (Scan.afterBlanks l.rest l.line).1 ≠ [] := by
    obtain ⟨c, r, hc, -⟩ := hscan.tagToken_eq
    simp [hc]
  have hbreak : l.scan.result = .ok .tagClose ∨ ∃ d ∈ l.scan.rest, Scan.IsBreak d := by
    rcases hb with rfl | hd
    · exact .inl hs
    · exact .inr ⟨'$', hd, Scan.isBreak_dollar⟩
  have hblanks := Scan.afterBlanks_append hne ys
  have hlonger : (l.followedBy ys).scan = l.scan.followedBy ys := by
    obtain ⟨c, r, hc, htag⟩ := (hscan.followedBy hbreak ys).tagToken_eq
    rw [← htag]
    simp only [scan, followedBy, hm, hblanks, hc]
  have hname : (l.followedBy ys).expectsNameAfter = l.expectsNameAfter := by
    have h₁ : ((Scan.afterBlanks l.rest l.line).1 ++ ys).isEmpty = false := by simp [hne]
    have h₂ : (Scan.afterBlanks l.rest l.line).1.isEmpty = false := by simp [hne]
    simp only [expectsNameAfter, followedBy, hm, hblanks, h₁, h₂]
  refine token_eq_ok_iff.2 ⟨hcur, ?_, ?_⟩
  · rw [hlonger]
    exact hs
  · simp only [advance, hlonger, hname]
    rfl

/-- The end of a tag begins with a dollar sign. -/
theorem dollar_mem_of_token_tagClose {l l' : Lexer} (hm : l.mode = .tag)
    (h : l.token = .ok (.tagClose, l')) : '$' ∈ l.rest := by
  obtain ⟨hs, hscan⟩ := tagScan_of_token hm h
  have hmem : '$' ∈ (Scan.afterBlanks l.rest l.line).1 := by
    revert hscan
    generalize (Scan.afterBlanks l.rest l.line).1 = cs
    generalize l.scan = s at hs
    intro hscan
    cases hscan with
    | close cs => exact List.mem_cons_self
    | number hb ht => exact absurd (ht.trans (hs ▸ rfl)) (Scan.literalToken_ne_tagClose _)
    | _ => simp at hs
  exact (Scan.afterBlanks_suffix l.rest l.line).subset hmem

theorem dollar_mem_of_elements {l l' : Lexer} {es : List Element} (hm : l.mode = .tag)
    (h : l.elements = .ok (es, l')) : '$' ∈ l.rest := by
  induction es generalizing l with
  | nil =>
    rcases elements_eq_ok_iff.1 h with ⟨-, ht⟩ | ⟨e, es, l₁, hes, -⟩
    · exact dollar_mem_of_token_tagClose hm ht
    · simp at hes
  | cons e es ih =>
    rcases elements_eq_ok_iff.1 h with ⟨hes, -⟩ | ⟨e, es', l₁, hes, ht, h'⟩
    · simp at hes
    · obtain ⟨rfl, rfl⟩ := List.cons.inj hes
      exact (rest_suffix_of_token ht).subset (ih ((mode_of_token ht).trans hm) h')

theorem elements_followedBy {l l' : Lexer} {es : List Element} (hm : l.mode = .tag)
    (h : l.elements = .ok (es, l')) (ys : List Char) :
    (l.followedBy ys).elements = .ok (es, l'.followedBy ys) := by
  induction es generalizing l with
  | nil =>
    rcases elements_eq_ok_iff.1 h with ⟨-, ht⟩ | ⟨e, es, l₁, hes, -⟩
    · exact elements_eq_ok_iff.2 (.inl ⟨rfl, token_followedBy_of_tag hm ht (.inl rfl) ys⟩)
    · simp at hes
  | cons e es ih =>
    rcases elements_eq_ok_iff.1 h with ⟨hes, -⟩ | ⟨e, es', l₁, hes, ht, h'⟩
    · simp at hes
    · obtain ⟨rfl, rfl⟩ := List.cons.inj hes
      have hm₁ := (mode_of_token ht).trans hm
      have ht' := token_followedBy_of_tag hm ht (.inr (dollar_mem_of_elements hm₁ h')) ys
      exact elements_eq_ok_iff.2 (.inr ⟨e, es, _, rfl, ht', ih hm₁ h'⟩)

/-- The body of a tag is read to the end of the tag. -/
theorem dollar_mem_of_tagBody {line : Nat} {name : String} {l l' : Lexer} {p : Piece}
    (hm : l.mode = .tag) (h : tagBody line name l = .ok (p, l')) : '$' ∈ l.rest := by
  rcases tagBody_eq_ok_iff.1 h with ⟨-, es, -, he⟩ | ⟨-, k, l₁, -, -, ht, he⟩ | ⟨-, -, ht⟩
  · exact dollar_mem_of_elements hm he
  · have hd := dollar_mem_of_elements ((mode_of_token ht).trans hm) he
    exact (rest_suffix_of_token ht).subset hd
  · exact dollar_mem_of_token_tagClose hm ht

theorem tagBody_followedBy {line : Nat} {name : String} {l l' : Lexer} {p : Piece}
    (hm : l.mode = .tag) (h : tagBody line name l = .ok (p, l')) (ys : List Char) :
    tagBody line name (l.followedBy ys) = .ok (p, l'.followedBy ys) := by
  rcases tagBody_eq_ok_iff.1 h with ⟨hn, es, rfl, he⟩ | ⟨hn, k, l₁, rfl, ho, ht, he⟩ |
    ⟨hn, rfl, ht⟩
  · exact tagBody_eq_ok_iff.2 (.inl ⟨hn, es, rfl, elements_followedBy hm he ys⟩)
  · have hm₁ := (mode_of_token ht).trans hm
    have ht' := token_followedBy_of_tag hm ht (.inr (dollar_mem_of_elements hm₁ he)) ys
    have he' := elements_followedBy hm₁ he ys
    exact tagBody_eq_ok_iff.2 (.inr (.inl ⟨hn, k, _, rfl, ho, ht', he'⟩))
  · have ht' := token_followedBy_of_tag hm ht (.inl rfl) ys
    exact tagBody_eq_ok_iff.2 (.inr (.inr ⟨hn, rfl, ht'⟩))

theorem tag_followedBy {l l' : Lexer} {p : Piece} (h : l.tag = .ok (p, l')) (ys : List Char) :
    (l.followedBy ys).tag = .ok (p, l'.followedBy ys) := by
  obtain ⟨name, l₁, l₂, ht, hb, rfl⟩ := tag_eq_ok_iff.1 h
  have hm₁ : l₁.mode = .tag := mode_of_token ht
  have ht' := token_followedBy_of_tag rfl ht (.inr (dollar_mem_of_tagBody hm₁ hb)) ys
  exact tag_eq_ok_iff.2 ⟨name, _, _, ht', tagBody_followedBy hm₁ hb ys, rfl⟩

/-! ## Pieces -/

/-- A piece is read as before when more follows, unless it is a text that goes on. -/
theorem piece_followedBy {l l' : Lexer} (hl : l.Ready) {p : Piece}
    (h : l.piece = .ok (some p, l')) (hp : l'.rest ≠ [] ∨ ∀ s, p ≠ .text s) (ys : List Char) :
    (l.followedBy ys).piece = .ok (some p, l'.followedBy ys) := by
  rcases piece_eq_ok_some_iff.1 h with ⟨s, rfl, ht⟩ | ⟨l₁, ht, hq⟩
  · obtain ⟨c, r, hr, hc, hs, rfl⟩ := hl.text_of_token ht
    have hne := hp.resolve_right fun hs => hs s rfl
    have hy : (l.followedBy ys).Ready := ⟨hl.mode, hl.unnamed, hl.unfinished⟩
    have hry : (l.followedBy ys).rest = c :: (r ++ ys) := by simp [followedBy, hr]
    have htext := Scan.text_append_of_rest_ne_nil hs hne ys
    have hscan : (l.followedBy ys).scan =
        ((Scan.text l.rest l.line).followedBy ys).map fun u => .text (String.ofList u) := by
      rw [hy.scan, hry, Scan.textToken_of_ne_brace hc, ← hry]
      exact congrArg _ htext
    refine piece_eq_ok_some_iff.2 (.inl ⟨s, rfl, token_eq_ok_iff.2 ⟨hl.unfinished, ?_, ?_⟩⟩)
    · rw [hscan]
      exact Scan.result_map_eq_ok.2 ⟨s.toList, hs, by simp⟩
    · rw [hy.advance hry hc, hscan]
      rfl
  · obtain ⟨hcur, hs, rfl⟩ := token_eq_ok_iff.1 ht
    rw [hl.scan] at hs
    rcases Scan.textToken_eq_ok hs with ⟨ht', -⟩ | ⟨-, r, hr⟩ | ⟨c, r, u, -, -, ht', -⟩
    · simp at ht'
    · have hopen : (l.followedBy ys).token =
          .ok (.tagOpen, (l.advance .tagOpen).followedBy ys) := by
        refine token_eq_ok_iff.2 ⟨hcur, ?_, ?_⟩
        · simp [scan, followedBy, hl.mode, hr, Scan.textToken]
        · simp [advance, scan, followedBy, expectsNameAfter, hl.mode, hr, Scan.textToken]
      exact piece_eq_ok_some_iff.2 (.inr ⟨_, hopen, tag_followedBy hq ys⟩)
    · simp at ht'

/-- A text that ends with the template goes on into what follows. -/
theorem scan_followedBy_of_text {l l' : Lexer} (hl : l.Ready) {s : String}
    (h : l.token = .ok (.text s, l')) (hr : l'.rest = []) (ys : List Char) :
    (l.followedBy ys).scan =
      (Scan.text ys l'.line).map fun u => .text (String.ofList (s.toList ++ u)) := by
  obtain ⟨c, r, hcs, hc, hs, rfl⟩ := hl.text_of_token h
  have hy : (l.followedBy ys).Ready := ⟨hl.mode, hl.unnamed, hl.unfinished⟩
  have hry : (l.followedBy ys).rest = c :: (r ++ ys) := by simp [followedBy, hcs]
  have htext := Scan.text_append_of_rest_eq_nil hs hr ys
  rw [hy.scan, hry, Scan.textToken_of_ne_brace hc, ← hry]
  exact (congrArg _ htext).trans (Scan.map_map ..)

/-- The lexer after a scan of text, whatever the text was put behind. -/
theorem advance_followedBy_of_text {l l' : Lexer} (hl : l.Ready) {s : String}
    (h : l.token = .ok (.text s, l')) (hr : l'.rest = []) (ys : List Char) (t : Token) :
    (l.followedBy ys).advance t =
      { rest := (Scan.text ys l'.line).rest, line := (Scan.text ys l'.line).line, mode := .text,
        current := some t } := by
  have hy : (l.followedBy ys).Ready := ⟨hl.mode, hl.unnamed, hl.unfinished⟩
  have hscan := scan_followedBy_of_text hl h hr ys
  obtain ⟨c, r, hcs, hc, -, -⟩ := hl.text_of_token h
  have hry : (l.followedBy ys).rest = c :: (r ++ ys) := by simp [followedBy, hcs]
  rw [hy.advance hry hc, hscan]
  rfl

end Lexer

/-! ## Readings -/

/-- Two texts make one text; other pieces are not glued. -/
def Piece.glue? : Piece → Piece → Option Piece
  | .text s, .text t => some (.text (s ++ t))
  | _, _ => none

theorem Piece.glue?_eq_none_of_left {p : Piece} (h : ∀ s, p ≠ .text s) (q : Piece) :
    p.glue? q = none := by
  cases p with
  | text s => exact absurd rfl (h s)
  | _ => rfl

theorem Piece.glue?_eq_none_of_right {q : Piece} (h : ∀ s, q ≠ .text s) (p : Piece) :
    p.glue? q = none := by
  cases q with
  | text s => exact absurd rfl (h s)
  | _ => cases p <;> rfl

namespace Reading

open Lexer (fresh Ready)

/-- Pieces with their lines are glued like pieces, on the line of the first. -/
def glue? (a b : Nat × Piece) : Option (Nat × Piece) := (a.2.glue? b.2).map fun p => (a.1, p)

section

/-! ### A text at the end of the first template -/

variable {l l' : Lexer} (hl : l.Ready) {s : String} (h : l.token = .ok (.text s, l'))
  (hr : l'.rest = []) (ys : List Char)
include hl h hr

theorem ready_advance_followedBy (t : String) : ((l.followedBy ys).advance (.text t)).Ready := by
  rw [Lexer.advance_followedBy_of_text hl h hr ys]
  exact ⟨rfl, rfl, by simp⟩

/-- Where no text follows, the text stays as it is. -/
theorem ofLexer_followedBy_of_no_text (hnone : Scan.text ys l'.line = ⟨.ok [], ys, l'.line⟩) :
    ofLexer (l.followedBy ys) =
      ⟨joinWith glue? [(l.line, .text s)] (ofLexer (fresh ys l'.line)).pieces,
        (ofLexer (fresh ys l'.line)).ending⟩ := by
  have hcur : (l.followedBy ys).current ≠ some .eof := hl.unfinished
  have hpiece : (l.followedBy ys).piece =
      .ok (some (.text s), (l.followedBy ys).advance (.text s)) := by
    apply Lexer.piece_of_scan_text hcur
    rw [Lexer.scan_followedBy_of_text hl h hr ys, hnone]
    simp [Scan.map, Except.map]
  have hrest : ofLexer ((l.followedBy ys).advance (.text s)) = ofLexer (fresh ys l'.line) := by
    rw [ofLexer_eq_fresh (ready_advance_followedBy hl h hr ys s),
      Lexer.advance_followedBy_of_text hl h hr ys, hnone]
  have hglue : ∀ b ∈ (ofLexer (fresh ys l'.line)).pieces.head?,
      glue? (l.line, .text s) b = none := by
    rintro ⟨k, p⟩ hb
    have hp : ∀ u, p ≠ .text u := by
      rintro u rfl
      obtain ⟨l₁, hu⟩ := token_of_head_text hb
      obtain ⟨c, r, hc, hne, hok, -⟩ := (Lexer.ready_fresh ys l'.line).text_of_token hu
      have hys : (Scan.text ys l'.line).rest = c :: r := (congrArg Scan.rest hnone).trans hc
      rcases Scan.rest_text_of_result_eq_ok hok with hrest | ⟨r', hrest⟩
      · exact absurd (hys.symm.trans hrest) (by simp)
      · exact hne (List.cons.inj (hys.symm.trans hrest)).1
    simp [glue?, Piece.glue?_eq_none_of_right hp]
  rw [ofLexer_of_piece hpiece, hrest, joinWith_eq_append (by simpa using hglue)]
  rfl

/-- Where text follows, the two texts are read as one, or neither of them. -/
theorem ofLexer_followedBy_of_more_text (hsome : Scan.textToken ys l'.line =
      (Scan.text ys l'.line).map fun u => .text (String.ofList u)) :
    ofLexer (l.followedBy ys) =
        ⟨joinWith glue? [(l.line, .text s)] (ofLexer (fresh ys l'.line)).pieces,
          (ofLexer (fresh ys l'.line)).ending⟩ ∨
      ∃ e, ofLexer (fresh ys l'.line) = ⟨[], .error e⟩ ∧
        ofLexer (l.followedBy ys) = ⟨[], .error e⟩ := by
  have hy := Lexer.ready_fresh ys l'.line
  have hscan := Lexer.scan_followedBy_of_text hl h hr ys
  have hscan' : (fresh ys l'.line).scan =
      (Scan.text ys l'.line).map fun u => .text (String.ofList u) := hy.scan.trans hsome
  have hcur : (l.followedBy ys).current ≠ some .eof := hl.unfinished
  rcases hu : (Scan.text ys l'.line).result with e | u
  · refine .inr ⟨⟨(Scan.text ys l'.line).line, .lex e⟩, ?_, ?_⟩
    · apply ofLexer_of_error
      apply Lexer.piece_of_token_error
      rw [Lexer.token_eq hy.unfinished, hscan']
      simp [Scan.map, hu, Except.map]
    · apply ofLexer_of_error
      apply Lexer.piece_of_token_error
      rw [Lexer.token_eq hcur, hscan]
      simp [Scan.map, hu, Except.map]
  · have hfirst : (fresh ys l'.line).piece = .ok (some (.text (String.ofList u)),
        (fresh ys l'.line).advance (.text (String.ofList u))) := by
      apply Lexer.piece_of_scan_text hy.unfinished
      rw [hscan', Scan.result_map_of_ok hu]
    have hboth : (l.followedBy ys).piece = .ok (some (.text (String.ofList (s.toList ++ u))),
        (l.followedBy ys).advance (.text (String.ofList (s.toList ++ u)))) := by
      apply Lexer.piece_of_scan_text hcur
      rw [hscan, Scan.result_map_of_ok hu]
    have hrest : ofLexer ((l.followedBy ys).advance (.text (String.ofList (s.toList ++ u)))) =
        ofLexer ((fresh ys l'.line).advance (.text (String.ofList u))) := by
      rw [ofLexer_eq_fresh (ready_advance_followedBy hl h hr ys _),
        ofLexer_eq_fresh (hy.piece hfirst), Lexer.advance_followedBy_of_text hl h hr ys]
      simp only [Lexer.advance, hscan', Scan.rest_map, Scan.line_map]
    left
    rw [ofLexer_of_piece hboth, ofLexer_of_piece hfirst, hrest]
    simp [joinWith, glue?, Piece.glue?, String.ofList_append, Lexer.followedBy]

/-- What is read where a text and the end of the template have been replaced by the same text and
another template. -/
theorem ofLexer_followedBy_of_text :
    ofLexer (l.followedBy ys) =
        ⟨joinWith glue? [(l.line, .text s)] (ofLexer (fresh ys l'.line)).pieces,
          (ofLexer (fresh ys l'.line)).ending⟩ ∨
      ∃ e, ofLexer (fresh ys l'.line) = ⟨[], .error e⟩ ∧
        ofLexer (l.followedBy ys) = ⟨[], .error e⟩ := by
  rcases Scan.text_or_textToken ys l'.line with hnone | hsome
  · exact .inl (ofLexer_followedBy_of_no_text hl h hr ys hnone)
  · exact ofLexer_followedBy_of_more_text hl h hr ys hsome

end

/-- A template that can be read to its end, followed by another one, is read as the two of them,
with the texts that meet joined; but where the other begins with a text that cannot be read, a
text in front of it is not read either. -/
theorem ofLexer_followedBy {l : Lexer} (hl : l.Ready) {line : Nat}
    (h : (ofLexer l).ending = .ok line) (ys : List Char) :
    ofLexer (l.followedBy ys) =
        ⟨joinWith glue? (ofLexer l).pieces (ofLexer (fresh ys line)).pieces,
          (ofLexer (fresh ys line)).ending⟩ ∨
      ∃ e ps k s, ofLexer (fresh ys line) = ⟨[], .error e⟩ ∧
        (ofLexer l).pieces = ps ++ [(k, .text s)] ∧
        ofLexer (l.followedBy ys) = ⟨ps, .error e⟩ := by
  fun_induction ofLexer l with
  | case1 => simp at h
  | case2 l l' hp =>
    have hend := ofLexer_of_end hp
    have hr := rest_eq_nil_of_pieces_eq_nil (by rw [hend]) (by rw [hend])
    have hline : l.line = line := by
      have hnil := ofLexer_of_rest_eq_nil hl hr
      rw [hend] at hnil
      exact (Except.ok.inj (congrArg Reading.ending hnil)).symm.trans (Except.ok.inj h)
    have hready : (l.followedBy ys).Ready := ⟨hl.mode, hl.unnamed, hl.unfinished⟩
    refine .inl ?_
    rw [ofLexer_eq_fresh hready, joinWith_nil_left, ← hline]
    simp only [Lexer.followedBy, hr, List.nil_append]
  | case3 l p l' hp r ih =>
    have hl' := hl.piece hp
    by_cases hopen : l'.rest ≠ [] ∨ ∀ s, p ≠ .text s
    · -- the piece stays as it is
      have hlonger := ofLexer_of_piece (Lexer.piece_followedBy hl hp hopen ys)
      rcases ih hl' h with hjoin | ⟨e, ps, k, s, hy, hps, herr⟩
      · refine .inl ?_
        rw [hlonger, hjoin]
        by_cases hnil : r.pieces = []
        · have hp' := hopen.resolve_left (not_not_intro (rest_eq_nil_of_pieces_eq_nil hnil h))
          have hglue : ∀ b, glue? (l.line, p) b = none := by
            intro b
            simp [glue?, Piece.glue?_eq_none_of_left hp']
          rw [hnil, joinWith_singleton hglue, joinWith_nil_left]
          rfl
        · rw [joinWith_cons_of_ne_nil _ hnil]
          rfl
      · refine .inr ⟨e, (l.line, p) :: ps, k, s, hy, ?_, ?_⟩
        · rw [hps, List.cons_append]
        · rw [hlonger, herr]
          rfl
    · -- the piece is the text with which the template ends
      obtain ⟨hr, hs⟩ := not_or.1 hopen
      obtain ⟨s, hs⟩ := Classical.not_forall.1 hs
      obtain rfl := Classical.not_not.1 hs
      have hr := Classical.not_not.1 hr
      rcases Lexer.piece_eq_ok_some_iff.1 hp with ⟨s', hs', ht⟩ | ⟨l₁, -, htag⟩
      · obtain rfl := Piece.text.inj hs'
        have hnil : r = ⟨[], .ok l'.line⟩ := ofLexer_of_rest_eq_nil hl' hr
        have hline : l'.line = line := by
          rw [hnil] at h
          exact Except.ok.inj h
        rw [hnil, ← hline]
        rcases ofLexer_followedBy_of_text hl ht hr ys with hjoin | ⟨e, hy, herr⟩
        · exact .inl hjoin
        · exact .inr ⟨e, [], l.line, s, hy, rfl, herr⟩
      · exact absurd rfl (Lexer.ne_text_of_tag htag s)

end Reading

end Stencil
