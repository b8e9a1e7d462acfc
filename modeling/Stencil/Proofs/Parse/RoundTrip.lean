import Stencil.Proofs.Parse.Layout
import Stencil.Proofs.Piece.WellFormed
set_option autoImplicit false

/-!
# Written templates

A tree that can be written is read again from its written form, in normal form
(`Node.parse_source`).  A tree that a template denotes is in normal form already
(`Node.allNormal_of_parse`), so that reading its written form gives back the same
tree, with all bits of its doubles.
-/

namespace Stencil.Node

/-- The tree that a template denotes can be written. -/
theorem isWritable_of_parse {x : String} {n : Node} (h : parse x = .ok n) : n.IsWritable := by
  obtain ⟨cs, rfl, -, -, hps⟩ := parse_eq_ok_iff.1 h
  apply allWritable_of_pieces
  intro p hp
  rw [← hps] at hp
  obtain ⟨⟨k, p⟩, hmem, rfl⟩ := List.mem_map.1 hp
  exact Reading.isWritable_of_mem hmem

/-- The tree that a template denotes is a document in normal form. -/
theorem allNormal_of_parse {x : String} {n : Node} (h : parse x = .ok n) :
    ∃ cs, n = .document cs ∧ AllNormal cs := by
  obtain ⟨cs, rfl, hcs, -, hps⟩ := parse_eq_ok_iff.1 h
  have hready : (Lexer.ofString x).Ready := Lexer.ready_fresh x.toList 1
  have hu := Reading.unglued_pieces hready
  refine ⟨cs, rfl, allNormal_of_pieces hcs ?_ (hps ▸ hu)⟩
  intro p hp
  rw [← hps] at hp
  obtain ⟨⟨k, p⟩, hmem, rfl⟩ := List.mem_map.1 hp
  exact Reading.ne_empty_of_mem hready hmem

/-- The tree that a template denotes is read again from its written form. -/
theorem parse_source_of_parse {x : String} {n : Node} (h : parse x = .ok n) :
    parse n.source = .ok n := by
  have hsource := parse_source (isWritable_of_parse h)
  obtain ⟨cs, rfl, hnormal⟩ := allNormal_of_parse h
  rw [hsource, normal, normalAll_of_allNormal hnormal]

/-- Writing a tree and reading it again gives the normal form of the tree, and gives the tree
itself when a template denotes it. -/
theorem parse_source_normal :
    (∀ t : Node, t.IsWritable → parse t.source = .ok (.document t.normal)) ∧
      ∀ (x : String) (n : Node), parse x = .ok n → parse n.source = .ok n :=
  ⟨fun _ ht => parse_source ht, fun _ _ h => parse_source_of_parse h⟩

/-- A brace at the end of a text is not taken for the opening of a tag with the dollar sign at the
beginning of the next text. -/
theorem parse_source_normal_brace :
    let loop := loop ⟨"i", .integer (-1), .double 1e-9, none⟩ [echo [.var "i", .operator .sub]]
    let t := document [text "\x7b", document [text "", text "$"], loop]
    let n := document [text "\x7b$", loop]
    t.IsWritable ∧ parse t.source = .ok n ∧ parse n.source = .ok n := by
  intro loop t n
  have hname : Text.IsWord "i".toList := ⟨by decide, List.forall_mem_nil _⟩
  have hheader : LoopHeader.IsWritable ⟨"i", .integer (-1), .double 1e-9, none⟩ := by
    refine ⟨hname, ?_, ?_⟩
    · simp only [LoopHeader.arguments, List.forall_mem_cons, Element.IsWritable]
      exact ⟨trivial, by decide, List.forall_mem_nil _⟩
    · simp [LoopHeader.HasOperands, LoopHeader.arguments, Element.isOperand]
  have hecho : IsWritable (echo [.var "i", .operator .sub]) :=
    List.forall_mem_cons.2 ⟨hname, List.forall_mem_cons.2 ⟨trivial, List.forall_mem_nil _⟩⟩
  have ht : t.IsWritable :=
    ⟨trivial, ⟨trivial, trivial, trivial⟩, ⟨hheader, hecho, trivial⟩, trivial⟩
  have hparse : parse t.source = .ok n := parse_source_normal.1 t ht
  exact ⟨ht, hparse, parse_source_normal.2 t.source n hparse⟩

end Stencil.Node
