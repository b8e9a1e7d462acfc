import Stencil.Proofs.Node.Depth
import Stencil.Proofs.Piece.Tokens
set_option autoImplicit false

/-!
# Matched tags of loops

A template whose tokens are those of texts and tags in a row has a document exactly
when its opening and closing tags match; the document then lists these texts and
tags.  Else the first closing tag that is one too many is reported, or the surplus
of the opening tags at the end (`Node.parse_of_tokens`).
-/

namespace Stencil

open Piece (openings closings)

/-- The outcome for a template that can be read to its end. -/
theorem Reading.check_of_ending {r : Reading} {line : Nat} (h : r.ending = .ok line) :
    r.check = depthAfter 0 r.pieces >>= fun depth =>
      if depth = 0 then .ok () else .error ⟨line, .unclosedLoops depth⟩ := by
  unfold check
  rw [h]
  rfl

theorem Reading.document_isOk_iff {r : Reading} :
    (∃ n, r.document = .ok n) ↔ r.check = .ok () := by
  rw [← check_eq]
  cases r.document <;> simp [Except.map]

theorem Reading.document_isOk_iff_covers {r : Reading} {line : Nat} (h : r.ending = .ok line) :
    (∃ n, r.document = .ok n) ↔
      Covers 0 (r.pieces.map (·.2)) ∧
        closings (r.pieces.map (·.2)) = openings (r.pieces.map (·.2)) := by
  have hd : depthAfter 0 r.pieces = .ok 0 ↔ _ := depthAfter_eq_ok_iff
  rw [Nat.zero_add, Nat.zero_add] at hd
  rw [document_isOk_iff, check_of_ending h, ← hd]
  cases depthAfter 0 r.pieces with
  | error e => simp [bind, Except.bind]
  | ok depth =>
    simp only [bind, Except.bind, Except.ok.injEq]
    split <;> simp_all

theorem Reading.document_of_surplus {r : Reading} {line : Nat} (h : r.ending = .ok line)
    (hc : Covers 0 (r.pieces.map (·.2)))
    (hlt : closings (r.pieces.map (·.2)) < openings (r.pieces.map (·.2))) :
    r.document = .error ⟨line, .unclosedLoops
      (openings (r.pieces.map (·.2)) - closings (r.pieces.map (·.2)))⟩ := by
  have hd : depthAfter 0 r.pieces =
      .ok (openings (r.pieces.map (·.2)) - closings (r.pieces.map (·.2))) :=
    depthAfter_eq_ok_iff.2 ⟨hc, by omega⟩
  rw [document_eq_error_iff, check_of_ending h, hd]
  simp only [bind, Except.bind]
  rw [if_neg (by omega)]

/-- The first closing tag that is one too many is reported. -/
theorem Reading.document_of_not_covers {r : Reading} (h : ¬Covers 0 (r.pieces.map (·.2))) :
    ∃ before line after, r.pieces = before ++ (line, .closing) :: after ∧
      Covers 0 (before.map (·.2)) ∧
      closings (before.map (·.2)) = openings (before.map (·.2)) ∧
      r.document = .error ⟨line, .unmatchedEnd⟩ := by
  cases hd : depthAfter 0 r.pieces with
  | ok depth => exact absurd (depthAfter_eq_ok_iff.1 hd).1 h
  | error e =>
    obtain ⟨before, line, after, hps, hbefore, rfl⟩ := depthAfter_eq_error_iff.1 hd
    obtain ⟨hc, heq⟩ := depthAfter_eq_ok_iff.1 hbefore
    refine ⟨before, line, after, hps, hc, by omega, ?_⟩
    rw [document_eq_error_iff]
    unfold check
    rw [hd]
    rfl

/-- A template whose tokens are those of the pieces `ps`.  It has a document exactly when no
beginning of the pieces has more closing tags than opening ones and there are as many of both; the
document then lists the pieces.  Otherwise the first closing tag that is one too many is reported
for its line, and if there is none, the surplus of the opening tags for the last line. -/
theorem Node.parse_of_tokens {x : String} {ts : List (Nat × Token)}
    (h : (Lexer.ofString x).tokens = .ok ts) {ps : List Piece}
    (hts : ts.map (·.2) = ps.flatMap Piece.tokens ++ [.eof])
    (hps : ∀ p ∈ ps, p.HasOperands) :
    ((∃ n, parse x = .ok n) ↔ Covers 0 ps ∧ closings ps = openings ps) ∧
    (∀ n, parse x = .ok n → n.pieces = ps) ∧
    (¬Covers 0 ps →
      ∃ before after line, ps = before ++ .closing :: after ∧
        Covers 0 before ∧ closings before = openings before ∧
        ts[(before.flatMap Piece.tokens).length]? = some (line, .tagOpen) ∧
        parse x = .error ⟨line, .unmatchedEnd⟩) ∧
    (Covers 0 ps → closings ps < openings ps →
      parse x =
        .error ⟨1 + newlines x.toList, .unclosedLoops (openings ps - closings ps)⟩) := by
  obtain ⟨line, lps, hread, rfl, hlines⟩ := Reading.ofLexer_of_tokens h hps hts
  have hend : (Reading.ofString x).ending = .ok line := congrArg Reading.ending hread
  have hpieces : (Reading.ofString x).pieces = lps := congrArg Reading.pieces hread
  have hline : line = 1 + newlines x.toList := Reading.ending_ofLexer hend
  refine ⟨?_, ?_, ?_, ?_⟩
  · rw [← hpieces]
    exact Reading.document_isOk_iff_covers hend
  · intro n hn
    obtain ⟨-, cs, rfl, -, hcs⟩ := Reading.document_eq_ok_iff.1 hn
    rw [← hpieces]
    exact hcs
  · intro hc
    rw [← hpieces] at hc
    obtain ⟨before, k, after, hsplit, hcovers, heq, herr⟩ := Reading.document_of_not_covers hc
    rw [hpieces] at hsplit
    refine ⟨before.map (·.2), after.map (·.2), k, ?_, hcovers, heq, ?_, herr⟩
    · simp [hsplit]
    · have hk := hlines before k .closing after hsplit
      have htok : (ts.map (·.2))[((before.map (·.2)).flatMap Piece.tokens).length]? =
          some .tagOpen := by
        rw [hts, hsplit]
        simp [Piece.tokens]
      obtain ⟨⟨k', t⟩, htk, rfl⟩ := Option.map_eq_some_iff.1 hk
      rw [List.getElem?_map, htk] at htok
      rw [htk]
      exact congrArg (fun t => some (k', t)) (Option.some.inj htok)
  · intro hc hlt
    rw [← hpieces] at hc hlt ⊢
    rw [← hline]
    exact Reading.document_of_surplus hend hc hlt

theorem Node.parse_of_tokens_loop :
    ∃ n, parse "\x7b$FOR i 1 3$\x7d\n\x7b$END$\x7d" = .ok n ∧
      n.pieces = [.opening ⟨"i", .integer 1, .integer 3, none⟩, .text "\n", .closing] := by
  have htokens : (Lexer.ofString "\x7b$FOR i 1 3$\x7d\n\x7b$END$\x7d").tokens =
      .ok [(1, .tagOpen), (1, .tagName "for"), (1, .element (.var "i")),
        (1, .element (.integer 1)), (1, .element (.integer 3)), (1, .tagClose), (1, .text "\n"),
        (2, .tagOpen), (2, .tagName "end"), (2, .tagClose), (2, .eof)] := by cbv
  have hops : ∀ p ∈ [.opening ⟨"i", .integer 1, .integer 3, none⟩, .text "\n", .closing],
      Piece.HasOperands p := by
    simp [Piece.HasOperands, LoopHeader.HasOperands, LoopHeader.arguments, Element.isOperand]
  obtain ⟨hok, hlist, -⟩ := parse_of_tokens htokens rfl hops
  have hcovers : Covers 0 [.opening ⟨"i", .integer 1, .integer 3, none⟩, .text "\n", .closing] :=
    covers_opening.2 ((covers_other rfl rfl).2 (covers_closing.2 (covers_nil 0)))
  obtain ⟨n, hn⟩ := hok.2 ⟨hcovers, by decide⟩
  exact ⟨n, hn, hlist n hn⟩

end Stencil
