import Stencil.Proofs.Parse.RoundTrip
set_option autoImplicit false

/-!
# The trees of templates

The trees that templates denote are exactly the well-formed ones: documents in
normal form, with words for names, finite doubles, and loops bounded by values
(`Node.exists_parse_iff_isWellFormed`).  Of every tree that is not well formed the
written form denotes another tree, or is refused.
-/

namespace Stencil.Node

/-- The tree is as the tree of a template has to be. -/
structure IsWellFormed (n : Node) : Prop where
  /-- it is a document and holds no other, no text in it is empty, and no two texts in it stand
  side by side, also within loops -/
  isNormal : ∃ cs, n = document cs ∧ AllNormal cs
  /-- names of variables and functions are words, doubles are finite, and no call and no operator
  is an argument of a loop -/
  isWritable : n.IsWritable

/-- The tree that a template denotes is well formed. -/
theorem isWellFormed_of_parse {x : String} {n : Node} (h : parse x = .ok n) : n.IsWellFormed :=
  ⟨allNormal_of_parse h, isWritable_of_parse h⟩

/-- A well-formed tree is denoted by its written form. -/
theorem IsWellFormed.parse_source {n : Node} (h : n.IsWellFormed) : parse n.source = .ok n := by
  obtain ⟨cs, hn, hcs⟩ := h.isNormal
  have hnormal : document n.normal = n := by
    rw [hn, normal, normalAll_of_allNormal hcs]
  rw [Node.parse_source h.isWritable, hnormal]

/-- A tree is denoted by some template exactly when it is well formed. -/
theorem exists_parse_iff_isWellFormed (n : Node) :
    (∃ x, parse x = .ok n) ↔ n.IsWellFormed := by
  constructor
  · rintro ⟨x, h⟩
    exact isWellFormed_of_parse h
  · intro h
    exact ⟨n.source, h.parse_source⟩

end Stencil.Node
