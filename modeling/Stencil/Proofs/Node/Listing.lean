import Mathlib
import Stencil.Node.Assembly
set_option autoImplicit false

/-!
# Trees and their pieces

The pieces of a tree, listed in their order, are what a template is read as.
Putting pieces together and listing them are inverse to each other: an assembly
lists exactly the pieces that were put to it (`Assembly.pieces_pushAll`), and the
pieces of nodes, put to an assembly, add these nodes (`Assembly.pushAll_pieces`).
So a reading has a document exactly when its pieces are those of a document
(`Reading.document_eq_ok_iff`).
-/

namespace Stencil

namespace Node

mutual

/-- The pieces of a node in their order; a loop has its body between its two tags. -/
def pieces : Node → List Piece
  | document cs => piecesAll cs
  | text s => [.text s]
  | loop h body => .opening h :: (piecesAll body ++ [.closing])
  | echo es => [.echo es]

/-- The pieces of nodes in a row. -/
def piecesAll : List Node → List Piece
  | [] => []
  | n :: ns => pieces n ++ piecesAll ns

end

mutual

/-- The node is no document and holds none. -/
def IsFlat : Node → Prop
  | document _ => False
  | text _ | echo _ => True
  | loop _ body => AllFlat body

/-- The nodes are no documents and hold none. -/
def AllFlat : List Node → Prop
  | [] => True
  | n :: ns => IsFlat n ∧ AllFlat ns

end

@[simp] theorem piecesAll_append (as bs : List Node) :
    piecesAll (as ++ bs) = piecesAll as ++ piecesAll bs := by
  induction as with
  | nil => rfl
  | cons a as ih => simp [piecesAll, ih]

@[simp] theorem allFlat_append (as bs : List Node) :
    AllFlat (as ++ bs) ↔ AllFlat as ∧ AllFlat bs := by
  induction as with
  | nil => simp [AllFlat]
  | cons a as ih => simp [AllFlat, ih, and_assoc]

@[simp] theorem allFlat_reverse (ns : List Node) : AllFlat ns.reverse ↔ AllFlat ns := by
  induction ns with
  | nil => rfl
  | cons n ns ih => simp [AllFlat, ih, and_comm]

end Node

namespace Assembly

/-! ## The pieces put together -/

/-- The pieces in front of the innermost open loop, with the tag that opens it. -/
def openedPieces : List (LoopHeader × List Node) → List Piece
  | [] => []
  | (h, before) :: opened =>
    openedPieces opened ++ Node.piecesAll before.reverse ++ [.opening h]

/-- The pieces put together so far. -/
def pieces (a : Assembly) : List Piece := openedPieces a.opened ++ Node.piecesAll a.nodes.reverse

/-- All nodes put together so far are flat. -/
structure IsFlat (a : Assembly) : Prop where
  opened : ∀ o ∈ a.opened, Node.AllFlat o.2
  nodes : Node.AllFlat a.nodes

theorem isFlat_empty : IsFlat {} := ⟨by simp, trivial⟩

theorem pieces_push? {a a' : Assembly} {p : Piece} (h : a.push? p = some a') :
    a'.pieces = a.pieces ++ [p] := by
  obtain ⟨opened, nodes⟩ := a
  cases p with
  | text s | echo es =>
    obtain rfl := Option.some.inj h
    simp [pieces, Node.piecesAll, Node.pieces]
  | opening k =>
    obtain rfl := Option.some.inj h
    simp [pieces, openedPieces, Node.piecesAll]
  | closing =>
    cases opened with
    | nil => simp [push?] at h
    | cons o opened =>
      obtain rfl := Option.some.inj h
      simp [pieces, openedPieces, Node.piecesAll, Node.pieces]

theorem isFlat_push? {a a' : Assembly} (ha : a.IsFlat) {p : Piece} (h : a.push? p = some a') :
    a'.IsFlat := by
  obtain ⟨opened, nodes⟩ := a
  cases p with
  | text s | echo es =>
    obtain rfl := Option.some.inj h
    exact ⟨ha.opened, trivial, ha.nodes⟩
  | opening k =>
    obtain rfl := Option.some.inj h
    refine ⟨?_, trivial⟩
    intro o ho
    rcases List.mem_cons.1 ho with rfl | ho
    · exact ha.nodes
    · exact ha.opened o ho
  | closing =>
    cases opened with
    | nil => simp [push?] at h
    | cons o opened =>
      obtain rfl := Option.some.inj h
      have hbody : Node.AllFlat nodes.reverse := (Node.allFlat_reverse nodes).2 ha.nodes
      exact ⟨fun o' ho' => ha.opened o' (List.mem_cons_of_mem _ ho'),
        hbody, ha.opened o List.mem_cons_self⟩

theorem pushAll_cons {a a' : Assembly} {p : Piece} (h : a.push? p = some a') (line : Nat)
    (ps : List (Nat × Piece)) : a.pushAll ((line, p) :: ps) = a'.pushAll ps := by
  simp only [pushAll, h]

theorem pushAll_append (a : Assembly) (ps qs : List (Nat × Piece)) :
    a.pushAll (ps ++ qs) = a.pushAll ps >>= fun b => b.pushAll qs := by
  induction ps generalizing a with
  | nil => rfl
  | cons p ps ih =>
    obtain ⟨line, p⟩ := p
    cases h : a.push? p with
    | none => simp [pushAll, h, bind, Except.bind]
    | some a' => rw [List.cons_append, pushAll_cons h, pushAll_cons h, ih]

/-- An assembly lists exactly the pieces that were put to it, and stays flat. -/
theorem pieces_pushAll {a b : Assembly} (ha : a.IsFlat) {ps : List (Nat × Piece)}
    (h : a.pushAll ps = .ok b) : b.IsFlat ∧ b.pieces = a.pieces ++ ps.map (·.2) := by
  induction ps generalizing a with
  | nil =>
    obtain rfl := Except.ok.inj h
    exact ⟨ha, by simp⟩
  | cons p ps ih =>
    obtain ⟨line, p⟩ := p
    cases hp : a.push? p with
    | none => simp [pushAll, hp] at h
    | some a' =>
      rw [pushAll_cons hp] at h
      obtain ⟨hb, hpieces⟩ := ih (isFlat_push? ha hp) h
      exact ⟨hb, by simp [hpieces, pieces_push? hp]⟩

/-! ## The pieces of nodes -/

mutual

/-- The pieces of a node, put to an assembly, add the node. -/
theorem pushAll_pieces_node {n : Node} (hn : n.IsFlat) (a : Assembly) {ps : List (Nat × Piece)}
    (h : ps.map (·.2) = n.pieces) : a.pushAll ps = .ok { a with nodes := n :: a.nodes } := by
  cases n with
  | document cs => exact hn.elim
  | text s =>
    obtain ⟨⟨line, p⟩, rfl, rfl⟩ := List.map_eq_singleton_iff.1 h
    rfl
  | echo es =>
    obtain ⟨⟨line, p⟩, rfl, rfl⟩ := List.map_eq_singleton_iff.1 h
    rfl
  | loop k body =>
    obtain ⟨⟨line, p⟩, ps', rfl, rfl, h'⟩ := List.map_eq_cons_iff.1 h
    obtain ⟨qs, rs, rfl, hqs, hrs⟩ := List.map_eq_append_iff.1 h'
    obtain ⟨⟨line', p'⟩, rfl, rfl⟩ := List.map_eq_singleton_iff.1 hrs
    have hopen : a.push? (.opening k) = some ⟨(k, a.nodes) :: a.opened, []⟩ := rfl
    have hbody : Assembly.pushAll ⟨(k, a.nodes) :: a.opened, []⟩ qs =
        .ok ⟨(k, a.nodes) :: a.opened, body.reverse ++ []⟩ := pushAll_pieces hn _ hqs
    rw [pushAll_cons hopen, pushAll_append, hbody]
    simp [bind, Except.bind, pushAll, push?]

/-- The pieces of nodes, put to an assembly, add these nodes. -/
theorem pushAll_pieces {ns : List Node} (hns : Node.AllFlat ns) (a : Assembly)
    {ps : List (Nat × Piece)} (h : ps.map (·.2) = Node.piecesAll ns) :
    a.pushAll ps = .ok { a with nodes := ns.reverse ++ a.nodes } := by
  cases ns with
  | nil =>
    obtain rfl := List.map_eq_nil_iff.1 h
    rfl
  | cons n ns =>
    obtain ⟨qs, rs, rfl, hqs, hrs⟩ := List.map_eq_append_iff.1 h
    have hn : a.pushAll qs = .ok { a with nodes := n :: a.nodes } :=
      pushAll_pieces_node hns.1 a hqs
    have hrest : Assembly.pushAll { a with nodes := n :: a.nodes } rs =
        .ok { a with nodes := ns.reverse ++ n :: a.nodes } := pushAll_pieces hns.2 _ hrs
    rw [pushAll_append, hn]
    simpa [bind, Except.bind] using hrest

end

end Assembly

/-! ## Documents -/

theorem Reading.document_eq_ok_iff {r : Reading} {n : Node} :
    r.document = .ok n ↔ (∃ line, r.ending = .ok line) ∧
      ∃ cs, n = .document cs ∧ Node.AllFlat cs ∧ Node.piecesAll cs = r.pieces.map (·.2) := by
  unfold document
  constructor
  · intro h
    cases ha : Assembly.pushAll {} r.pieces with
    | error e => simp [ha, bind, Except.bind] at h
    | ok a =>
      cases he : r.ending with
      | error e => simp [ha, he, bind, Except.bind] at h
      | ok line =>
        simp only [ha, he, bind, Except.bind, Assembly.finish] at h
        obtain ⟨hflat, hpieces⟩ := Assembly.pieces_pushAll Assembly.isFlat_empty ha
        obtain ⟨opened, nodes⟩ := a
        cases opened with
        | cons o opened => simp at h
        | nil =>
          obtain rfl := Except.ok.inj h
          refine ⟨⟨line, rfl⟩, nodes.reverse, rfl, ?_, ?_⟩
          · exact (Node.allFlat_reverse nodes).2 hflat.nodes
          · simpa [Assembly.pieces, Assembly.openedPieces, Node.piecesAll] using hpieces
  · rintro ⟨⟨line, he⟩, cs, rfl, hflat, hpieces⟩
    rw [Assembly.pushAll_pieces hflat {} hpieces.symm, he]
    simp [bind, Except.bind, Assembly.finish]

end Stencil
