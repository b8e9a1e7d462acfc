import Stencil.Proofs.Parse.Append
import Stencil.Proofs.Piece.Layout
set_option autoImplicit false

/-!
# Normal form of a tree

In normal form no node of a document is itself a document, no text is empty and no
two texts stand side by side.  `Node.normal` brings a node to this form: the nodes
of a document within a row take its place, empty texts are left out and texts side
by side are joined, also in the bodies of loops (`Node.allNormal_normalAll`).  A row
in normal form stays as it is (`Node.normalAll_of_allNormal`).
-/

namespace Stencil.Node

mutual

/-- What the node is made of can be written: the names are words, the doubles are finite, and the
arguments of loops stand for values. -/
def IsWritable : Node → Prop
  | document cs => AllWritable cs
  | text _ => True
  | loop h body => h.IsWritable ∧ AllWritable body
  | echo es => ∀ e ∈ es, e.IsWritable

/-- What the nodes are made of can be written. -/
def AllWritable : List Node → Prop
  | [] => True
  | n :: ns => IsWritable n ∧ AllWritable ns

end

mutual

/-- The normal form of a node, which is a row of nodes. -/
def normal : Node → List Node
  | document cs => normalAll cs
  | text s => if s = "" then [] else [text s]
  | loop h body => [loop h (normalAll body)]
  | echo es => [echo es]

/-- The normal form of nodes in a row. -/
def normalAll : List Node → List Node
  | [] => []
  | n :: ns => join (normal n) (normalAll ns)

end

mutual

/-- The node may stand in a row in normal form. -/
def IsNormal : Node → Prop
  | document _ => False
  | text s => s ≠ ""
  | loop _ body => AllNormal body
  | echo _ => True

/-- The row is in normal form. -/
def AllNormal : List Node → Prop
  | [] => True
  | n :: ns => IsNormal n ∧ (∀ m ∈ ns.head?, glue? n m = none) ∧ AllNormal ns

end

/-! ## Normal forms hold no documents -/

mutual

theorem allFlat_normal (n : Node) : AllFlat n.normal := by
  cases n with
  | document cs => exact allFlat_normalAll cs
  | text s =>
    rw [normal]
    split
    · trivial
    · exact ⟨trivial, trivial⟩
  | loop h body => exact ⟨allFlat_normalAll body, trivial⟩
  | echo es => exact ⟨trivial, trivial⟩

theorem allFlat_normalAll (ns : List Node) : AllFlat (normalAll ns) := by
  cases ns with
  | nil => trivial
  | cons n ns => exact allFlat_join (allFlat_normal n) (allFlat_normalAll ns)

end

/-! ## Rows in normal form -/

theorem allNormal_iff {ns : List Node} :
    AllNormal ns ↔ (∀ n ∈ ns, n.IsNormal) ∧ Unglued glue? ns := by
  induction ns with
  | nil => exact iff_of_true trivial ⟨List.forall_mem_nil _, trivial⟩
  | cons n ns ih =>
    rw [AllNormal, ih, List.forall_mem_cons, Unglued]
    constructor
    · rintro ⟨hn, hhead, hns, hu⟩
      exact ⟨⟨hn, hns⟩, hhead, hu⟩
    · rintro ⟨⟨hn, hns⟩, hhead, hu⟩
      exact ⟨hn, hhead, hns, hu⟩

theorem glue?_eq_some_iff {n m k : Node} :
    glue? n m = some k ↔ ∃ s t, n = text s ∧ m = text t ∧ k = text (s ++ t) := by
  cases n <;> cases m <;> simp [glue?, eq_comm]

/-- A text made of two is joined to its neighbours where the two were. -/
theorem gluesLikeParts : GluesLikeParts glue? where
  left := by
    intro n m k hk x hx
    obtain ⟨s, t, rfl, rfl, rfl⟩ := glue?_eq_some_iff.1 hk
    cases x <;> first | rfl | simp [glue?] at hx
  right := by
    intro n m k hk x hx
    obtain ⟨s, t, rfl, rfl, rfl⟩ := glue?_eq_some_iff.1 hk
    cases x <;> first | rfl | simp [glue?] at hx

theorem allNormal_join {as bs : List Node} (ha : AllNormal as) (hb : AllNormal bs) :
    AllNormal (join as bs) := by
  rw [allNormal_iff] at ha hb ⊢
  refine ⟨?_, ha.2.joinWith gluesLikeParts hb.2⟩
  intro n hn
  rcases mem_joinWith hn with h | h | ⟨a, hmem, b, -, hg⟩
  · exact ha.1 n h
  · exact hb.1 n h
  · obtain ⟨s, t, rfl, rfl, rfl⟩ := glue?_eq_some_iff.1 hg
    have hs : s ≠ "" := ha.1 (text s) hmem
    intro hempty
    exact hs (String.append_eq_empty_iff.1 hempty).1

mutual

/-- The normal form of a node is in normal form. -/
theorem allNormal_normal (n : Node) : AllNormal n.normal := by
  cases n with
  | document cs => exact allNormal_normalAll cs
  | text s =>
    rw [normal]
    split
    · trivial
    · rename_i hs
      exact ⟨hs, nofun, trivial⟩
  | loop h body => exact ⟨allNormal_normalAll body, nofun, trivial⟩
  | echo es => exact ⟨trivial, nofun, trivial⟩

theorem allNormal_normalAll (ns : List Node) : AllNormal (normalAll ns) := by
  cases ns with
  | nil => trivial
  | cons n ns => exact allNormal_join (allNormal_normal n) (allNormal_normalAll ns)

end

mutual

theorem normal_of_isNormal {n : Node} (h : n.IsNormal) : n.normal = [n] := by
  cases n with
  | document cs => exact h.elim
  | text s => exact if_neg h
  | loop k body =>
    have hbody : AllNormal body := h
    rw [normal, normalAll_of_allNormal hbody]
  | echo es => rfl

/-- A row in normal form is its own normal form. -/
theorem normalAll_of_allNormal {ns : List Node} (h : AllNormal ns) : normalAll ns = ns := by
  cases ns with
  | nil => rfl
  | cons n ns =>
    obtain ⟨hn, hhead, hns⟩ := h
    rw [normalAll, normal_of_isNormal hn, normalAll_of_allNormal hns]
    exact joinWith_eq_append (by simpa using hhead)

end

/-! ## Trees and their pieces -/

mutual

/-- A tree whose pieces can be written can be written. -/
theorem isWritable_of_pieces {n : Node} (h : ∀ p ∈ n.pieces, p.IsWritable) : n.IsWritable := by
  cases n with
  | document cs => exact allWritable_of_pieces h
  | text s => trivial
  | loop k body =>
    obtain ⟨hk, hrest⟩ := List.forall_mem_cons.1 h
    exact ⟨hk, allWritable_of_pieces fun p hp => hrest p (List.mem_append_left _ hp)⟩
  | echo es => exact h (.echo es) List.mem_cons_self

theorem allWritable_of_pieces {ns : List Node} (h : ∀ p ∈ piecesAll ns, p.IsWritable) :
    AllWritable ns := by
  cases ns with
  | nil => trivial
  | cons n ns =>
    exact ⟨isWritable_of_pieces fun p hp => h p (List.mem_append_left _ hp),
      allWritable_of_pieces fun p hp => h p (List.mem_append_right _ hp)⟩

end

mutual

theorem isNormal_of_pieces {n : Node} (hflat : n.IsFlat) (htext : ∀ p ∈ n.pieces, p ≠ .text "")
    (hu : Unglued Piece.glue? n.pieces) : n.IsNormal := by
  cases n with
  | document cs => exact hflat.elim
  | text s =>
    intro hs
    exact htext (.text s) List.mem_cons_self (congrArg Piece.text hs)
  | loop k body =>
    obtain ⟨-, hrest⟩ := List.forall_mem_cons.1 htext
    exact allNormal_of_pieces hflat (fun p hp => hrest p (List.mem_append_left _ hp))
      hu.2.of_append.1
  | echo es => trivial

/-- Nodes are in normal form where no piece is an empty text and no two texts are neighbours. -/
theorem allNormal_of_pieces {ns : List Node} (hflat : AllFlat ns)
    (htext : ∀ p ∈ piecesAll ns, p ≠ .text "") (hu : Unglued Piece.glue? (piecesAll ns)) :
    AllNormal ns := by
  cases ns with
  | nil => trivial
  | cons n ns =>
    obtain ⟨hn, hns⟩ := hu.of_append
    refine ⟨isNormal_of_pieces hflat.1 (fun p hp => htext p (List.mem_append_left _ hp)) hn, ?_,
      allNormal_of_pieces hflat.2 (fun p hp => htext p (List.mem_append_right _ hp)) hns⟩
    intro m hm
    obtain ⟨ns', rfl⟩ := List.head?_eq_some_iff.1 hm
    cases n with
    | text s =>
      cases m with
      | text t => exact absurd (hu.1 (.text t) rfl) nofun
      | _ => rfl
    | _ => rfl

end

end Stencil.Node
