import Stencil.Proofs.Parse.Faults
set_option autoImplicit false

/-!
# The line of an error

A template has a fault on one line only, since nothing is read behind a tag that is
refused, and so no tag behind it is at fault (`FaultAt.newlines_unique`).  The line of
an error is this line (`Node.line_of_parse_error`).
-/

namespace Stencil

open Piece (openings closings)

namespace Lexer

theorem piece_of_tag_error {l l₁ : Lexer} {e : ParseError} (hopen : l.token = .ok (.tagOpen, l₁))
    (h : l₁.tag = .error e) : l.piece = .error e := by
  rw [piece_eq_bind, hopen]
  simp only [bind, Except.bind, h]

theorem tag_of_tagBody_error {l l₁ : Lexer} {name : String} {e : ParseError}
    (hname : (l.withMode .tag).token = .ok (.tagName name, l₁))
    (h : tagBody l.line name l₁ = .error e) : l.tag = .error e := by
  rw [tag_eq_bind, hname]
  simp only [bind, Except.bind, h]

theorem tagBody_of_not_closed {l l' : Lexer} {t : Token} (ht : l.token = .ok (t, l'))
    (hclose : t ≠ .tagClose) (line : Nat) :
    tagBody line "end" l = .error ⟨l'.line, .tagNotClosed t⟩ := by
  rw [tagBody_closing, ht]
  cases t with
  | tagClose => exact absurd rfl hclose
  | _ => rfl

/-- Tokens are read up to one error and no other. -/
theorem Reads.error_unique {l l₁ l₂ k₁ k₂ : Lexer} {ts us : List Token} {c d : LexError}
    (h₁ : l.Reads ts l₁) (he₁ : l₁.next = (.error c, k₁)) (h₂ : l.Reads us l₂)
    (he₂ : l₂.next = (.error d, k₂)) : k₁ = k₂ := by
  induction h₁ generalizing us with
  | nil l =>
    cases h₂ with
    | nil => exact congrArg Prod.snd (he₁.symm.trans he₂)
    | cons ht => cases he₁.symm.trans (next_of_token ht)
  | cons ht _ _ ih =>
    cases h₂ with
    | nil => cases he₂.symm.trans (next_of_token ht)
    | cons hu _ hus =>
      obtain ⟨rfl, rfl⟩ := Prod.mk.inj (Except.ok.inj (ht.symm.trans hu))
      exact ih he₁ hus

end Lexer

variable {x : String} {ps : List Piece} {us : List Token} {l : Lexer} {fault : SyntaxFault}
  {read read' : List Char} {e : ParseError}

/-- Behind pieces that are read, a piece that cannot be read ends the reading. -/
theorem ending_of_piece_error
    (hreads : (Lexer.ofString x).Reads (ps.flatMap Piece.tokens ++ us) l)
    (hps : ∀ p ∈ ps, p.HasOperands) (h : ∀ k : Lexer, k.Reads us l → k.piece = .error e) :
    (Reading.ofString x).ending = .error e := by
  obtain ⟨k, before, -, hus, -, hread⟩ :=
    Reading.pieces_of_reads (Lexer.ready_ofString x) hreads hps
  rw [Reading.ofString, hread, Reading.ofLexer_of_error (h k hus)]

theorem TagAt.ending (htag : TagAt x read ps l)
    (h : ∀ k : Lexer, k.withMode .tag = l → k.tag = .error ⟨l.line, fault⟩) :
    (Reading.ofString x).ending = .error ⟨1 + newlines read, fault⟩ := by
  rw [← htag.line]
  refine ending_of_piece_error htag.reads htag.operands fun k hk => ?_
  obtain _ | ⟨hopen, -, hnil⟩ := hk
  cases hnil
  exact Lexer.piece_of_tag_error hopen (h _ rfl)

theorem LoopTagAt.ending (hloop : LoopTagAt x read ps l)
    (h : ∀ line, Lexer.tagBody line "for" l = .error ⟨l.line, fault⟩) :
    (Reading.ofString x).ending = .error ⟨1 + newlines read, fault⟩ := by
  rw [← hloop.line]
  refine ending_of_piece_error hloop.reads hloop.operands fun k hk => ?_
  obtain _ | ⟨hopen, -, _ | ⟨hname, -, hnil⟩⟩ := hk
  cases hnil
  exact Lexer.piece_of_tag_error hopen (Lexer.tag_of_tagBody_error hname (h _))

/-- The arguments of a loop are refused when all of them are read. -/
theorem tagBody_of_header_error {l' : Lexer} {name : String} {arguments : List Element}
    (hbody : l.Reads (.element (.var name) :: (arguments.map .element ++ [.tagClose])) l')
    (h : Lexer.header l.line name arguments = .error e) (line : Nat) :
    Lexer.tagBody line "for" l = .error e := by
  cases hbody with
  | @cons _ l₁ _ _ _ hvar _ hes =>
    obtain ⟨l₂, he, -⟩ := Lexer.Reads.elements hes
    have helements : l₁.elements = .ok (arguments, l₂) := he
    rw [Lexer.tagBody_opening, hvar]
    simp only [bind, Except.bind, helements, h]

/-- A tag that is refused ends the reading with its fault. -/
theorem FaultAt.ending (h : FaultAt x fault read) (hlex : ∀ cause, fault ≠ .lex cause)
    (hend : fault ≠ .unmatchedEnd) (hopen : ∀ count, fault ≠ .unclosedLoops count) :
    (Reading.ofString x).ending = .error ⟨1 + newlines read, fault⟩ := by
  cases h with
  | lex => exact absurd rfl (hlex _)
  | unmatchedEnd => exact absurd rfl hend
  | unclosedLoops => exact absurd rfl (hopen _)
  | @missingTagName _ _ _ t _ htag ht hname =>
    refine htag.ending fun k hk => ?_
    subst hk
    rw [Lexer.tag_eq_bind, ht]
    cases t with
    | tagName name => exact absurd rfl (hname name)
    | _ => rfl
  | unknownTag htag ht hname =>
    refine htag.ending fun k hk => ?_
    subst hk
    simp only [List.mem_cons, List.not_mem_nil, or_false, not_or] at hname
    exact Lexer.tag_of_tagBody_error ht (Lexer.tagBody_unknown hname.1 hname.2.1 hname.2.2 _ _)
  | @loopVariable _ _ _ t _ hloop ht hvar =>
    refine hloop.ending fun line => ?_
    rw [Lexer.tagBody_opening, ht]
    cases t with
    | element a =>
      cases a with
      | var name => exact absurd rfl (hvar name)
      | _ => rfl
    | _ => rfl
  | loopArity hloop hbody htwo hthree =>
    exact hloop.ending (tagBody_of_header_error hbody
      (Lexer.header_eq_error_iff.2 (.inl ⟨htwo, hthree, rfl⟩)))
  | loopArgument hloop hbody hcount hfirst =>
    exact hloop.ending (tagBody_of_header_error hbody
      (Lexer.header_eq_error_iff.2 (.inr ⟨hcount, _, hfirst, rfl⟩)))
  | @tagNotClosed _ _ l₁ l' t _ _ htag hname ht hclose hread =>
    have hreads := htag.reads.append hname
    have hline := Lexer.HasRead.of_bottom hread ((Lexer.bottom_token ht).trans hreads.bottom)
    rw [← hline.line]
    rw [List.append_assoc] at hreads
    refine ending_of_piece_error hreads htag.operands fun k hk => ?_
    obtain _ | ⟨hopen, -, _ | ⟨hend, -, hnil⟩⟩ := hk
    cases hnil
    exact Lexer.piece_of_tag_error hopen
      (Lexer.tag_of_tagBody_error hend (Lexer.tagBody_of_not_closed ht hclose _))

/-- An end tag that is one too many is the first such tag. -/
theorem depthAfter_of_unmatchedEnd {l' : Lexer} (htag : TagAt x read ps l)
    (hend : l.Reads [.tagName "end", .tagClose] l') (hcovers : Covers 0 ps)
    (hclosed : closings ps = openings ps) :
    depthAfter 0 (Reading.ofString x).pieces = .error ⟨1 + newlines read, .unmatchedEnd⟩ := by
  obtain ⟨k, before, hk, hus, rfl, hread⟩ :=
    Reading.pieces_of_reads (Lexer.ready_ofString x) htag.reads htag.operands
  obtain _ | ⟨hopen, -, hnil⟩ := hus
  cases hnil
  have hline : k.line = 1 + newlines read := (hk.line_of_tagOpen hopen).symm.trans htag.line
  have hclosing : k.Reads (Piece.closing.tokens ++ []) l' := .cons hopen nofun hend
  obtain ⟨k', hpiece, -⟩ := hclosing.piece trivial
  have hpieces : (Reading.ofString x).pieces = _ := congrArg Reading.pieces hread
  rw [Reading.ofLexer_of_piece hpiece] at hpieces
  refine depthAfter_eq_error_iff.2 ⟨before, k.line, _, hpieces, ?_, by rw [hline]⟩
  exact depthAfter_eq_ok_iff.2 ⟨hcovers, by omega⟩

/-- Open loops are reported behind the whole template. -/
theorem FaultAt.eq_of_unclosedLoops {count : Nat} (h : FaultAt x (.unclosedLoops count) read) :
    read = x.toList := by
  cases h
  rfl

/-- A template has each of its faults on one line. -/
theorem FaultAt.newlines_unique (h : FaultAt x fault read) (h' : FaultAt x fault read') :
    newlines read = newlines read' := by
  by_cases hlex : ∃ cause, fault = .lex cause
  · obtain ⟨cause, rfl⟩ := hlex
    cases h with
    | lex hts hnext hread =>
      cases h' with
      | lex hts' hnext' hread' =>
        rw [hts.error_unique hnext hts' hnext'] at hread
        rw [List.append_cancel_right (hread.symm.trans hread')]
  by_cases hopen : ∃ count, fault = .unclosedLoops count
  · obtain ⟨count, rfl⟩ := hopen
    rw [h.eq_of_unclosedLoops, h'.eq_of_unclosedLoops]
  by_cases hend : fault = .unmatchedEnd
  · subst hend
    cases h with
    | unmatchedEnd htag hend hcovers hclosed =>
      cases h' with
      | unmatchedEnd htag' hend' hcovers' hclosed' =>
        have hline := (depthAfter_of_unmatchedEnd htag hend hcovers hclosed).symm.trans
          (depthAfter_of_unmatchedEnd htag' hend' hcovers' hclosed')
        simpa using hline
  · have hending := h.ending (fun c hc => hlex ⟨c, hc⟩) hend (fun c hc => hopen ⟨c, hc⟩)
    have hending' := h'.ending (fun c hc => hlex ⟨c, hc⟩) hend (fun c hc => hopen ⟨c, hc⟩)
    simpa using hending.symm.trans hending'

namespace Node

/-- A template that is refused has the fault that is reported, behind a beginning of the template,
and wherever it is said to have this fault, the line is the one on which the characters in front of
it end.  So this is a line of the template. -/
theorem line_of_parse_error {x : String} {e : ParseError} (h : parse x = .error e) :
    (∃ read, read <+: x.toList ∧ FaultAt x e.fault read) ∧
      (∀ read, FaultAt x e.fault read → e.line = 1 + newlines read) ∧
      1 ≤ e.line ∧ e.line ≤ 1 + newlines x.toList := by
  obtain ⟨read, hfault, hline⟩ := hasFault_of_parse h
  have hle : newlines read ≤ newlines x.toList := hfault.read_prefix.sublist.count_le _
  refine ⟨⟨read, hfault.read_prefix, hfault⟩, fun read' hfault' => ?_, by omega, by omega⟩
  rw [hline, hfault.newlines_unique hfault']

/-- A loop tag that goes over four lines, with its name on the second of them. -/
theorem line_of_parse_error_loop :
    parse "\x7b$\nFOR i\n1 2 @f\n$\x7d" = .error ⟨2, .loopArgument (.call "f")⟩ ∧
      (∃ read, read <+: "\x7b$\nFOR i\n1 2 @f\n$\x7d".toList ∧
        FaultAt "\x7b$\nFOR i\n1 2 @f\n$\x7d" (.loopArgument (.call "f")) read) ∧
      (∀ read, FaultAt "\x7b$\nFOR i\n1 2 @f\n$\x7d" (.loopArgument (.call "f")) read →
        2 = 1 + newlines read) ∧
      1 ≤ 2 ∧ 2 ≤ 1 + newlines "\x7b$\nFOR i\n1 2 @f\n$\x7d".toList := by
  have hpiece : (Lexer.ofString "\x7b$\nFOR i\n1 2 @f\n$\x7d").piece =
      .error ⟨2, .loopArgument (.call "f")⟩ := by cbv
  have hparse : parse "\x7b$\nFOR i\n1 2 @f\n$\x7d" =
      .error ⟨2, .loopArgument (.call "f")⟩ := by
    rw [parse, Reading.ofString, Reading.ofLexer_of_error hpiece]
    rfl
  exact ⟨hparse, line_of_parse_error hparse⟩

end Node

end Stencil
