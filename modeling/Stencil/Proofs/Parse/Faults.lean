import Stencil.Proofs.Parse.Brackets
import Stencil.Proofs.Piece.Reads
import Stencil.Proofs.Text.Words
set_option autoImplicit false

/-!
# Where a template is faulty

`FaultAt x fault read` says that the template has the fault behind the characters
`read`.  A token that cannot be read is reported where the lexer stopped, a fault in
the choice of a tag in front of the tag, a fault in the header of a loop in front of
the name of its tag, another token than the end of a tag behind this token, and a
loop that is left open at the end of the template.  A template that is refused has the
fault that is reported, and the line is the one on which these characters end
(`Node.hasFault_of_parse`).
-/

namespace Stencil

open Piece (openings closings)

/-! ## Faults -/

/-- The lexer stands right behind the opening of a tag, in front of which stand the pieces and the
characters `read`. -/
structure TagAt (x : String) (read : List Char) (ps : List Piece) (l : Lexer) : Prop where
  reads : (Lexer.ofString x).Reads (ps.flatMap Piece.tokens ++ [.tagOpen]) l
  operands : ∀ p ∈ ps, p.HasOperands
  split : x.toList = read ++ '{' :: '$' :: l.rest

/-- The lexer stands right behind the name of a tag that begins a loop, and the characters `read`
stand in front of this name. -/
structure LoopTagAt (x : String) (read : List Char) (ps : List Piece) (l : Lexer) : Prop where
  reads : (Lexer.ofString x).Reads (ps.flatMap Piece.tokens ++ [.tagOpen, .tagName "for"]) l
  operands : ∀ p ∈ ps, p.HasOperands
  split : ∃ before gap name, read = before ++ '{' :: '$' :: gap ∧ Text.IsBlanks gap ∧
    Text.lowercase name = "for".toList ∧ '\n' ∉ name ∧ x.toList = read ++ (name ++ l.rest)

/-- The template has the fault, which is reported behind the given characters. -/
inductive FaultAt (x : String) : SyntaxFault → List Char → Prop where
  /-- behind all that the lexer took until it stopped -/
  | lex {ts : List Token} {l l' : Lexer} {cause : LexError} {read : List Char}
    (hts : (Lexer.ofString x).Reads ts l) (hnext : l.next = (.error cause, l'))
    (hread : x.toList = read ++ l'.rest) : FaultAt x (.lex cause) read
  /-- in front of the tag -/
  | missingTagName {ps : List Piece} {l l' : Lexer} {t : Token} {read : List Char}
    (htag : TagAt x read ps l) (ht : l.token = .ok (t, l')) (hname : ∀ name, t ≠ .tagName name) :
    FaultAt x (.missingTagName t) read
  /-- in front of the tag -/
  | unknownTag {ps : List Piece} {l l' : Lexer} {name : String} {read : List Char}
    (htag : TagAt x read ps l) (ht : l.token = .ok (.tagName name, l'))
    (hname : name ∉ ["=", "for", "end"]) : FaultAt x (.unknownTag name) read
  /-- in front of the tag, where no loop is open -/
  | unmatchedEnd {ps : List Piece} {l l' : Lexer} {read : List Char} (htag : TagAt x read ps l)
    (hend : l.Reads [.tagName "end", .tagClose] l') (hcovers : Covers 0 ps)
    (hclosed : closings ps = openings ps) : FaultAt x .unmatchedEnd read
  /-- in front of the name of the tag -/
  | loopVariable {ps : List Piece} {l l' : Lexer} {t : Token} {read : List Char}
    (hloop : LoopTagAt x read ps l) (ht : l.token = .ok (t, l'))
    (hvar : ∀ name, t ≠ .element (.var name)) : FaultAt x (.loopVariable t) read
  /-- in front of the name of the tag -/
  | loopArity {ps : List Piece} {l l' : Lexer} {name : String} {arguments : List Element}
    {read : List Char} (hloop : LoopTagAt x read ps l)
    (hbody : l.Reads (.element (.var name) :: (arguments.map .element ++ [.tagClose])) l')
    (htwo : arguments.length ≠ 2) (hthree : arguments.length ≠ 3) :
    FaultAt x (.loopArity arguments.length) read
  /-- in front of the name of the tag -/
  | loopArgument {ps : List Piece} {l l' : Lexer} {name : String} {arguments : List Element}
    {a : Element} {read : List Char} (hloop : LoopTagAt x read ps l)
    (hbody : l.Reads (.element (.var name) :: (arguments.map .element ++ [.tagClose])) l')
    (hcount : arguments.length = 2 ∨ arguments.length = 3)
    (hfirst : arguments.find? (!·.isOperand) = some a) : FaultAt x (.loopArgument a) read
  /-- behind the token that stands where the tag has to end -/
  | tagNotClosed {ps : List Piece} {l l₁ l' : Lexer} {t : Token} {before read : List Char}
    (htag : TagAt x before ps l) (hend : l.Reads [.tagName "end"] l₁)
    (ht : l₁.token = .ok (t, l')) (hopen : t ≠ .tagClose) (hread : x.toList = read ++ l'.rest) :
    FaultAt x (.tagNotClosed t) read
  /-- behind the whole template -/
  | unclosedLoops {ps : List Piece} {l l' : Lexer}
    (hreads : (Lexer.ofString x).Reads (ps.flatMap Piece.tokens) l)
    (hps : ∀ p ∈ ps, p.HasOperands) (heof : l.token = .ok (.eof, l')) (hcovers : Covers 0 ps)
    (hopen : closings ps < openings ps) :
    FaultAt x (.unclosedLoops (openings ps - closings ps)) x.toList

/-- The error is a fault of the template and reported for its line. -/
def HasFault (x : String) (e : ParseError) : Prop :=
  ∃ read, FaultAt x e.fault read ∧ e.line = 1 + newlines read

theorem FaultAt.read_prefix {x : String} {fault : SyntaxFault} {read : List Char}
    (h : FaultAt x fault read) : read <+: x.toList := by
  cases h with
  | lex _ _ hread | tagNotClosed _ _ _ _ hread => exact ⟨_, hread.symm⟩
  | missingTagName htag | unknownTag htag | unmatchedEnd htag => exact ⟨_, htag.split.symm⟩
  | loopVariable hloop | loopArity hloop | loopArgument hloop =>
    obtain ⟨before, gap, name, -, -, -, -, hsplit⟩ := hloop.split
    exact ⟨_, hsplit.symm⟩
  | unclosedLoops => exact List.prefix_refl _

namespace Scan.TagScan

/-- The name of a tag is a row of characters without line breaks, shown in lower case. -/
theorem split_tagName {expectsName : Bool} {line : Nat} {cs : List Char} {s : Scan Token}
    (h : TagScan expectsName line cs s) {name : String} (hn : s.result = .ok (.tagName name)) :
    ∃ word, cs = word ++ s.rest ∧ Text.lowercase word = name.toList ∧ '\n' ∉ word := by
  cases h with
  | equals he cs =>
    obtain rfl := Token.tagName.inj (Except.ok.inj hn)
    exact ⟨['='], rfl, by decide, by decide⟩
  | @name he c hc cs =>
    obtain rfl := Token.tagName.inj (Except.ok.inj hn)
    refine ⟨word (c :: cs), List.takeWhile_append_dropWhile.symm, by simp, fun hm => ?_⟩
    exact absurd (List.all_eq_true.1 List.all_takeWhile _ hm) (by decide)
  | number hb ht =>
    rcases literalToken_eq_ok ht with ⟨n, -, rfl⟩ | ⟨d, -, -, rfl⟩ <;> cases hn
  | _ => cases hn

end Scan.TagScan

/-- The blanks at the beginning are skipped. -/
theorem Scan.exists_blanks (cs : List Char) (line : Nat) :
    ∃ gap, Text.IsBlanks gap ∧ cs = gap ++ (afterBlanks cs line).1 := by
  induction cs generalizing line with
  | nil => exact ⟨[], Text.isBlanks_nil, rfl⟩
  | cons c cs ih =>
    unfold afterBlanks
    split
    · rename_i hc
      obtain ⟨gap, hgap, hsplit⟩ := ih (lineAfter line c)
      exact ⟨c :: gap, List.forall_mem_cons.2 ⟨hc, hgap⟩, congrArg (c :: ·) hsplit⟩
    · exact ⟨[], Text.isBlanks_nil, rfl⟩

section Lines

variable {x : String} {ps : List Piece} {ts : List Token} {l l₁ : Lexer} {read : List Char}
  {e : ParseError}

/-! ## Places and lines -/

theorem Lexer.Reads.line (h : (ofString x).Reads ts l) (hsplit : x.toList = read ++ l.rest) :
    l.line = 1 + newlines read :=
  (HasRead.of_bottom hsplit h.bottom).line

theorem Lexer.Reads.place_ofString (h : (ofString x).Reads ts l) :
    l.At (ts.foldl Place.after .outside) :=
  h.place (ready_iff_at.1 (ready_ofString x))

namespace TagAt

theorem of_token (hreads : (Lexer.ofString x).Reads (ps.flatMap Piece.tokens) l)
    (hps : ∀ p ∈ ps, p.HasOperands) (hl : l.Ready) (ht : l.token = .ok (.tagOpen, l₁)) :
    ∃ read, TagAt x read ps (l₁.withMode .tag) ∧ l.line = 1 + newlines read := by
  obtain ⟨read, hread⟩ := hreads.exists_hasRead
  refine ⟨read, ⟨hreads.append (.token ht nofun), hps, ?_⟩, hread.line⟩
  rw [hread.split, (hl.tagOpen_of_token ht).1]
  rfl

variable (h : TagAt x read ps l)
include h

theorem place : l.At .front := by
  have hplace := h.reads.place_ofString
  rwa [List.foldl_append] at hplace

/-- The opening of a tag has no line break. -/
theorem line : l.line = 1 + newlines read := by
  have hsplit : x.toList = (read ++ ['{', '$']) ++ l.rest := by simp [h.split]
  have hline := h.reads.line hsplit
  simpa [newlines_cons] using hline

end TagAt

namespace LoopTagAt

theorem of_token (htag : TagAt x read ps l) (ht : l.token = .ok (.tagName "for", l₁)) :
    ∃ read, LoopTagAt x read ps l₁ := by
  obtain ⟨hs, hscan⟩ := Lexer.tagScan_of_token htag.place.mode ht
  obtain ⟨gap, hgap, hrest⟩ := Scan.exists_blanks l.rest l.line
  obtain ⟨name, hname, hlower, hline⟩ := hscan.split_tagName hs
  obtain ⟨-, -, rfl⟩ := Lexer.token_eq_ok_iff.1 ht
  have hreads := htag.reads.append (.token ht nofun)
  rw [List.append_assoc] at hreads
  refine ⟨read ++ '{' :: '$' :: gap, hreads, htag.operands, read, gap, name, rfl, hgap, hlower, hline, ?_⟩
  rw [htag.split, hrest, hname]
  simp [Lexer.advance]

variable (h : LoopTagAt x read ps l)
include h

theorem place : l.At .inside := by
  have hplace := h.reads.place_ofString
  rwa [List.foldl_append] at hplace

/-- The name of a tag has no line break. -/
theorem line : l.line = 1 + newlines read := by
  obtain ⟨before, gap, name, -, -, -, hname, hsplit⟩ := h.split
  rw [← List.append_assoc] at hsplit
  have hline := h.reads.line hsplit
  rwa [newlines_append, newlines_eq_zero_iff.2 hname, Nat.add_zero] at hline

end LoopTagAt

/-! ## Readers -/

theorem hasFault_of_token (hts : (Lexer.ofString x).Reads ts l) (h : l.token = .error e) :
    HasFault x e := by
  obtain ⟨cause, l', hnext, rfl⟩ := Lexer.token_eq_error_iff.1 h
  have hsuffix := l.rest_next_suffix
  have hbottom := l.bottom_next
  rw [hnext] at hsuffix hbottom
  obtain ⟨read, hread⟩ :=
    Lexer.exists_hasRead_of_suffix (hsuffix.trans hts.rest_suffix) (hbottom.trans hts.bottom)
  exact ⟨read, .lex hts hnext hread.split, hread.line⟩

theorem hasFault_of_elements (hts : (Lexer.ofString x).Reads ts l) (hl : l.At .inside)
    (h : l.elements = .error e) : HasFault x e := by
  obtain ⟨es, l', hes, herror⟩ := hl.elements_eq_error h
  exact hasFault_of_token (hts.append hes) herror

/-- The faults behind the name of a tag that begins a loop. -/
theorem hasFault_of_opening (hloop : LoopTagAt x read ps l) {line : Nat}
    (h : Lexer.tagBody line "for" l = .error e) : HasFault x e := by
  rw [Lexer.tagBody_opening, bind_eq_error_iff] at h
  obtain h | ⟨⟨t, l₁⟩, ht, h⟩ := h
  · exact hasFault_of_token hloop.reads h
  dsimp only at h
  split at h
  · rename_i name _
    rw [bind_eq_error_iff] at h
    obtain h | ⟨⟨arguments, l₂⟩, hes, h⟩ := h
    · exact hasFault_of_elements (hloop.reads.append (.token ht nofun))
        ((hloop.place.token ht).2 nofun) h
    rw [bind_eq_error_iff] at h
    obtain h | ⟨k, -, h⟩ := h
    · have hbody := Lexer.Reads.cons ht nofun (Lexer.reads_elements hes)
      obtain ⟨htwo, hthree, rfl⟩ | ⟨hcount, a, hfirst, rfl⟩ := Lexer.header_eq_error_iff.1 h
      · exact ⟨read, .loopArity hloop hbody htwo hthree, hloop.line⟩
      · exact ⟨read, .loopArgument hloop hbody hcount hfirst, hloop.line⟩
    · cases h
  · rename_i hvar
    obtain rfl := Except.error.inj h
    exact ⟨read, .loopVariable hloop ht hvar, hloop.line⟩

/-- The faults behind the name of a tag that ends a loop. -/
theorem hasFault_of_closing (htag : TagAt x read ps l)
    (hname : l.token = .ok (.tagName "end", l₁)) {line : Nat}
    (h : Lexer.tagBody line "end" l₁ = .error e) : HasFault x e := by
  have hend := htag.reads.append (.token hname nofun)
  rw [Lexer.tagBody_closing, bind_eq_error_iff] at h
  obtain h | ⟨⟨t, l'⟩, ht, h⟩ := h
  · exact hasFault_of_token hend h
  dsimp only at h
  split at h
  · cases h
  · rename_i hopen
    obtain rfl := Except.error.inj h
    have hsuffix := (Lexer.rest_suffix_of_token ht).trans hend.rest_suffix
    have hbottom := (Lexer.bottom_token ht).trans hend.bottom
    obtain ⟨behind, hbehind⟩ := Lexer.exists_hasRead_of_suffix hsuffix hbottom
    exact ⟨behind, .tagNotClosed htag (.token hname nofun) ht hopen hbehind.split, hbehind.line⟩

theorem hasFault_of_tagBody (htag : TagAt x read ps l) {name : String}
    (hname : l.token = .ok (.tagName name, l₁)) (h : Lexer.tagBody l.line name l₁ = .error e) :
    HasFault x e := by
  by_cases hecho : name = "="
  · subst hecho
    rw [Lexer.tagBody_echo, bind_eq_error_iff] at h
    obtain h | ⟨r, -, h⟩ := h
    · exact hasFault_of_elements (htag.reads.append (.token hname nofun))
        ((htag.place.token hname).2 nofun) h
    · cases h
  by_cases hfor : name = "for"
  · subst hfor
    obtain ⟨read', hloop⟩ := LoopTagAt.of_token htag hname
    exact hasFault_of_opening hloop h
  by_cases hend : name = "end"
  · subst hend
    exact hasFault_of_closing htag hname h
  · rw [Lexer.tagBody_unknown hecho hfor hend] at h
    obtain rfl := Except.error.inj h
    exact ⟨read, .unknownTag htag hname (by simp [hecho, hfor, hend]), htag.line⟩

theorem hasFault_of_tag (htag : TagAt x read ps (l.withMode .tag)) (h : l.tag = .error e) :
    HasFault x e := by
  rw [Lexer.tag_eq_bind, bind_eq_error_iff] at h
  obtain h | ⟨⟨t, l₁⟩, ht, h⟩ := h
  · exact hasFault_of_token htag.reads h
  dsimp only at h
  split at h
  · rw [bind_eq_error_iff] at h
    obtain h | ⟨r, -, h⟩ := h
    · exact hasFault_of_tagBody htag ht h
    · cases h
  · rename_i hname
    obtain rfl := Except.error.inj h
    exact ⟨read, .missingTagName htag ht hname, htag.line⟩

theorem hasFault_of_piece (hreads : (Lexer.ofString x).Reads (ps.flatMap Piece.tokens) l)
    (hps : ∀ p ∈ ps, p.HasOperands) (hl : l.Ready) (h : l.piece = .error e) : HasFault x e := by
  rw [Lexer.piece_eq_bind, bind_eq_error_iff] at h
  obtain h | ⟨⟨t, l₁⟩, ht, h⟩ := h
  · exact hasFault_of_token hreads h
  -- outside tags no other tokens are found
  obtain rfl | ⟨s, rfl⟩ | rfl :=
    Place.admits_outside_iff.1 ((Lexer.ready_iff_at.1 hl).token ht).1
  · cases h
  · cases h
  · obtain ⟨read, htag, -⟩ := TagAt.of_token hreads hps hl ht
    rw [bind_eq_error_iff] at h
    obtain h | ⟨r, -, h⟩ := h
    · exact hasFault_of_tag htag h
    · cases h

end Lines

/-! ## The whole template -/

/-- A closing tag that is one too many. -/
theorem hasFault_of_surplus {x : String} {before after : List (Nat × Piece)} {line : Nat}
    (hps : (Reading.ofString x).pieces = before ++ (line, .closing) :: after)
    (hcovers : Covers 0 (before.map (·.2)))
    (hclosed : closings (before.map (·.2)) = openings (before.map (·.2))) :
    HasFault x ⟨line, .unmatchedEnd⟩ := by
  obtain ⟨l, hreads, hbefore, hl, hrest⟩ := Reading.exists_reads (Lexer.ready_ofString x) hps
  obtain ⟨rfl, l', hpiece⟩ := Reading.of_ofLexer_cons hrest
  cases Lexer.reads_piece hpiece with
  | cons hopen _ hend =>
    obtain ⟨read, htag, hline⟩ := TagAt.of_token hreads hbefore hl hopen
    exact ⟨read, .unmatchedEnd htag hend hcovers hclosed, hline⟩

/-- What stands behind all pieces that are read: something that cannot be read, or the end. -/
theorem hasFault_or_eof (x : String) :
    ∃ l, (Lexer.ofString x).Reads (((Reading.ofString x).pieces.map (·.2)).flatMap Piece.tokens) l ∧
      (∀ p ∈ (Reading.ofString x).pieces.map (·.2), p.HasOperands) ∧
      ((∃ e, (Reading.ofString x).ending = .error e ∧ HasFault x e) ∨
        ∃ l', (Reading.ofString x).ending = .ok l'.line ∧ l.token = .ok (.eof, l')) := by
  obtain ⟨l, hreads, hps, hl, hrest⟩ := Reading.exists_reads (Lexer.ready_ofString x)
    (List.append_nil (Reading.ofString x).pieces).symm
  refine ⟨l, hreads, hps, ?_⟩
  obtain ⟨e, he, hpiece⟩ | hend := Reading.of_ofLexer_nil hrest
  · exact .inl ⟨e, he, hasFault_of_piece hreads hps hl hpiece⟩
  · exact .inr hend

/-- A template that is refused has the fault that is reported. -/
theorem Node.hasFault_of_parse {x : String} {e : ParseError} (h : parse x = .error e) :
    HasFault x e := by
  rw [parse, Reading.document_eq_error_iff, Reading.check, bind_eq_error_iff] at h
  obtain h | ⟨depth, hdepth, h⟩ := h
  · obtain ⟨before, line, after, hps, hbefore, rfl⟩ := depthAfter_eq_error_iff.1 h
    obtain ⟨hcovers, hclosed⟩ := depthAfter_eq_ok_iff.1 hbefore
    exact hasFault_of_surplus hps hcovers (by omega)
  obtain ⟨hcovers, hsurplus⟩ := depthAfter_eq_ok_iff.1 hdepth
  obtain ⟨l, hreads, hps, ⟨e', hending, hfault⟩ | ⟨l', hending, heof⟩⟩ := hasFault_or_eof x
  · rw [hending] at h
    obtain rfl := Except.error.inj h
    exact hfault
  · have hline : l'.line = 1 + newlines x.toList := Reading.ending_ofLexer hending
    rw [hending, hline] at h
    dsimp only [bind, Except.bind] at h
    split at h
    · cases h
    · obtain rfl := Except.error.inj h
      have hdepth : depth = openings ((Reading.ofString x).pieces.map (·.2)) -
          closings ((Reading.ofString x).pieces.map (·.2)) := by omega
      subst hdepth
      exact ⟨x.toList, .unclosedLoops hreads hps heof hcovers (by omega), rfl⟩

end Stencil
