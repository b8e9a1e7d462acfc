import Stencil.Proofs.Piece.Append
import Stencil.Proofs.Piece.Layout
set_option autoImplicit false

/-!
# What is read is well formed

Every piece that is read can be written again: the names in it are words, its
doubles are finite, and the arguments of a loop stand for values
(`Reading.isWritable_of_mem`).  No text that is read is empty
(`Reading.ne_empty_of_mem`), and no two texts are read one after the other
(`Reading.unglued_pieces`), since a text goes on up to a tag or to the end.
-/

namespace Stencil

namespace Lexer

/-! ## Elements -/

theorem isWritable_of_token {l l' : Lexer} {e : Element} (hm : l.mode = .tag)
    (h : l.token = .ok (.element e, l')) : e.IsWritable := by
  obtain ⟨hs, hscan⟩ := tagScan_of_token hm h
  exact hscan.isWritable hs

theorem isWritable_of_elements {l l' : Lexer} {es : List Element} (hm : l.mode = .tag)
    (h : l.elements = .ok (es, l')) : ∀ e ∈ es, e.IsWritable := by
  induction es generalizing l with
  | nil => nofun
  | cons e es ih =>
    rcases elements_eq_ok_iff.1 h with ⟨hes, -⟩ | ⟨e, es', l₁, hes, ht, h'⟩
    · simp at hes
    · obtain ⟨rfl, rfl⟩ := List.cons.inj hes
      have hrest := ih ((mode_of_token ht).trans hm) h'
      exact List.forall_mem_cons.2 ⟨isWritable_of_token hm ht, hrest⟩

/-! ## Pieces -/

theorem isWritable_of_tagBody {line : Nat} {name : String} {l l' : Lexer} {p : Piece}
    (hm : l.mode = .tag) (h : tagBody line name l = .ok (p, l')) : p.IsWritable := by
  rcases tagBody_eq_ok_iff.1 h with ⟨-, es, rfl, he⟩ | ⟨-, k, l₁, rfl, ho, ht, he⟩ | ⟨-, rfl, -⟩
  · exact isWritable_of_elements hm he
  · have hname : Text.IsWord k.name.toList := isWritable_of_token hm ht
    exact ⟨hname, isWritable_of_elements ((mode_of_token ht).trans hm) he, ho⟩
  · trivial

theorem isWritable_of_piece {l l' : Lexer} {p : Piece} (h : l.piece = .ok (some p, l')) :
    p.IsWritable := by
  rcases piece_eq_ok_some_iff.1 h with ⟨s, rfl, -⟩ | ⟨l₁, -, htag⟩
  · trivial
  · obtain ⟨name, l₂, l₃, ht, hb, -⟩ := tag_eq_ok_iff.1 htag
    exact isWritable_of_tagBody (mode_of_token ht) hb

/-- A text that is read has a character. -/
theorem Ready.ne_empty_of_piece {l l' : Lexer} (hl : l.Ready) {p : Piece}
    (h : l.piece = .ok (some p, l')) : p ≠ .text "" := by
  rcases piece_eq_ok_some_iff.1 h with ⟨s, rfl, ht⟩ | ⟨l₁, -, htag⟩
  · obtain ⟨c, r, hr, hc, hs, -⟩ := hl.text_of_token ht
    intro hempty
    obtain rfl := Piece.text.inj hempty
    rw [hr] at hs
    exact Scan.text_ne_nil hc hs rfl
  · exact ne_text_of_tag htag ""

/-- No text is read behind a text. -/
theorem Ready.ne_text_of_text {l l₁ l₂ : Lexer} (hl : l.Ready) {s t : String}
    (h₁ : l.token = .ok (.text s, l₁)) (h₂ : l₁.token = .ok (.text t, l₂)) : False := by
  have hready : l₁.Ready := hl.piece (piece_eq_ok_some_iff.2 (.inl ⟨s, rfl, h₁⟩))
  obtain ⟨c, r, -, -, hs, rfl⟩ := hl.text_of_token h₁
  obtain ⟨d, r', hd, hne, -⟩ := hready.text_of_token h₂
  rcases Scan.rest_text_of_result_eq_ok hs with hnil | ⟨r'', htag⟩
  · exact absurd (hd.symm.trans hnil) nofun
  · exact hne (List.cons.inj (hd.symm.trans htag)).1

end Lexer

/-! ## Readings -/

namespace Reading

theorem isWritable_of_mem {l : Lexer} {k : Nat} {p : Piece} (h : (k, p) ∈ (ofLexer l).pieces) :
    p.IsWritable := by
  fun_induction ofLexer l with
  | case1 => simp at h
  | case2 => simp at h
  | case3 l q l' hq r ih =>
    rcases List.mem_cons.1 h with hp | hp
    · obtain ⟨-, rfl⟩ := Prod.mk.inj hp
      exact Lexer.isWritable_of_piece hq
    · exact ih hp

theorem ne_empty_of_mem {l : Lexer} (hl : l.Ready) {k : Nat} {p : Piece}
    (h : (k, p) ∈ (ofLexer l).pieces) : p ≠ .text "" := by
  fun_induction ofLexer l with
  | case1 => simp at h
  | case2 => simp at h
  | case3 l q l' hq r ih =>
    rcases List.mem_cons.1 h with hp | hp
    · obtain ⟨-, rfl⟩ := Prod.mk.inj hp
      exact hl.ne_empty_of_piece hq
    · exact ih (hl.piece hq) hp

/-- No two texts are read one after the other. -/
theorem unglued_pieces {l : Lexer} (hl : l.Ready) :
    Unglued Piece.glue? ((ofLexer l).pieces.map (·.2)) := by
  fun_induction ofLexer l with
  | case1 => trivial
  | case2 => trivial
  | case3 l p l' hp r ih =>
    refine ⟨?_, ih (hl.piece hp)⟩
    intro q hq
    rw [List.head?_map] at hq
    obtain ⟨⟨k, q⟩, hhead, rfl⟩ := Option.map_eq_some_iff.1 hq
    rcases Lexer.piece_eq_ok_some_iff.1 hp with ⟨s, rfl, ht⟩ | ⟨l₁, -, htag⟩
    · apply Piece.glue?_eq_none_of_right
      rintro t rfl
      obtain ⟨l₂, ht₂⟩ := token_of_head_text hhead
      exact hl.ne_text_of_text ht ht₂
    · exact Piece.glue?_eq_none_of_left (Lexer.ne_text_of_tag htag) q

end Reading

end Stencil
