import Stencil.Proofs.Piece.Append
import Stencil.Proofs.Node.Listing
set_option autoImplicit false

/-!
# Open loops

Whether pieces make a document depends on how many loops are open after each of
them and on nothing else (`Reading.check_eq`).  This number is the surplus of the
opening tags over the closing ones, as long as no closing tag is one too many
(`depthAfter_eq_ok_iff`).
-/

namespace Stencil

/-- The number of loops that are open behind the pieces, where `depth` loops are open in front of
them; an end tag too many is reported for its line. -/
def depthAfter : (depth : Nat) → List (Nat × Piece) → Except ParseError Nat
  | depth, [] => .ok depth
  | depth, (_, .opening _) :: ps => depthAfter (depth + 1) ps
  | 0, (line, .closing) :: _ => .error ⟨line, .unmatchedEnd⟩
  | depth + 1, (_, .closing) :: ps => depthAfter depth ps
  | depth, (_, .text _) :: ps => depthAfter depth ps
  | depth, (_, .echo _) :: ps => depthAfter depth ps

theorem Assembly.depth_pushAll (a : Assembly) (ps : List (Nat × Piece)) :
    (a.pushAll ps).map (·.opened.length) = depthAfter a.opened.length ps := by
  induction ps generalizing a with
  | nil => simp [pushAll, depthAfter, Except.map]
  | cons p ps ih =>
    obtain ⟨line, p⟩ := p
    obtain ⟨opened, nodes⟩ := a
    cases p with
    | text s => exact ih ⟨opened, .text s :: nodes⟩
    | echo es => exact ih ⟨opened, .echo es :: nodes⟩
    | opening h => exact ih ⟨(h, nodes) :: opened, []⟩
    | closing =>
      cases opened with
      | nil => rfl
      | cons o opened => exact ih ⟨opened, .loop o.1 nodes.reverse :: o.2⟩

/-- The reading has a document, or the error for which it has none. -/
def Reading.check (r : Reading) : Except ParseError Unit := do
  let depth ← depthAfter 0 r.pieces
  let line ← r.ending
  if depth = 0 then .ok () else .error ⟨line, .unclosedLoops depth⟩

theorem Reading.check_eq (r : Reading) : r.document.map (fun _ => ()) = r.check := by
  have hd := Assembly.depth_pushAll {} r.pieces
  unfold document check
  rw [show (({} : Assembly).opened.length) = 0 from rfl] at hd
  rw [← hd]
  cases Assembly.pushAll {} r.pieces with
  | error e => rfl
  | ok a =>
    cases r.ending with
    | error e => rfl
    | ok line =>
      simp only [bind, Except.bind, Except.map, Assembly.finish]
      cases a.opened <;> simp

theorem Reading.document_eq_error_iff {r : Reading} {e : ParseError} :
    r.document = .error e ↔ r.check = .error e := by
  rw [← check_eq]
  cases r.document <;> simp [Except.map]

/-! ## Rows of pieces -/

theorem depthAfter_append (depth : Nat) (ps qs : List (Nat × Piece)) :
    depthAfter depth (ps ++ qs) = depthAfter depth ps >>= fun d => depthAfter d qs := by
  induction ps generalizing depth with
  | nil => rfl
  | cons p ps ih =>
    obtain ⟨line, p⟩ := p
    cases p with
    | closing =>
      cases depth with
      | zero => rfl
      | succ depth => exact ih depth
    | opening h => exact ih (depth + 1)
    | text s | echo es => exact ih depth

/-- Texts that are joined change no depth. -/
theorem depthAfter_joinWith (depth : Nat) (ps qs : List (Nat × Piece)) :
    depthAfter depth (joinWith Reading.glue? ps qs) =
      depthAfter depth ps >>= fun d => depthAfter d qs := by
  rcases List.eq_nil_or_concat ps with rfl | ⟨ps, ⟨line, p⟩, rfl⟩
  · rw [joinWith_nil_left]
    rfl
  · rw [List.concat_eq_append, joinWith_append, depthAfter_append, depthAfter_append]
    cases depthAfter depth ps with
    | error e => rfl
    | ok d =>
      simp only [bind, Except.bind]
      cases qs with
      | nil => cases p <;> cases d <;> rfl
      | cons q qs =>
        obtain ⟨line', q⟩ := q
        cases p with
        | text s => cases q <;> rfl
        | echo es => rfl
        | opening h => rfl
        | closing => cases d <;> rfl

theorem depthAfter_later (depth k : Nat) (ps : List (Nat × Piece)) :
    depthAfter depth (ps.map fun (line, p) => (line + k, p)) =
      (depthAfter depth ps).mapError (·.later k) := by
  induction ps generalizing depth with
  | nil => rfl
  | cons p ps ih =>
    obtain ⟨line, p⟩ := p
    cases p with
    | closing =>
      cases depth with
      | zero => rfl
      | succ depth => exact ih depth
    | opening h => exact ih (depth + 1)
    | text s | echo es => exact ih depth

theorem Reading.check_later (r : Reading) (k : Nat) :
    (r.later k).check = r.check.mapError (·.later k) := by
  unfold check later
  dsimp only
  rw [depthAfter_later]
  cases depthAfter 0 r.pieces with
  | error e => rfl
  | ok depth =>
    cases r.ending with
    | error e => rfl
    | ok line =>
      simp only [bind, Except.bind, Except.mapError]
      split <;> rfl

/-! ## Counting tags -/

namespace Piece

/-- The piece begins a loop. -/
def isOpening : Piece → Bool
  | opening _ => true
  | _ => false

/-- The piece ends a loop. -/
def isClosing : Piece → Bool
  | closing => true
  | _ => false

/-- The number of tags that begin a loop. -/
def openings (ps : List Piece) : Nat := ps.countP isOpening

/-- The number of tags that end a loop. -/
def closings (ps : List Piece) : Nat := ps.countP isClosing

end Piece

open Piece (openings closings)

/-- No beginning of the pieces has more closing tags than there are loops to close. -/
def Covers (depth : Nat) (ps : List Piece) : Prop :=
  ∀ qs, qs <+: ps → closings qs ≤ depth + openings qs

theorem covers_nil (depth : Nat) : Covers depth [] := by
  intro qs hqs
  rw [List.prefix_nil.1 hqs]
  exact Nat.zero_le _

/-- Only longer beginnings can have a closing tag too many. -/
theorem covers_cons {depth : Nat} {p : Piece} {ps : List Piece} :
    Covers depth (p :: ps) ↔
      ∀ qs, qs <+: ps → closings (p :: qs) ≤ depth + openings (p :: qs) := by
  constructor
  · intro h qs hqs
    exact h _ (List.cons_prefix_cons.2 ⟨rfl, hqs⟩)
  · intro h qs hqs
    cases qs with
    | nil => exact Nat.zero_le _
    | cons q qs =>
      obtain ⟨rfl, hqs'⟩ := List.cons_prefix_cons.1 hqs
      exact h qs hqs'

theorem closings_closing (ps : List Piece) : closings (.closing :: ps) = closings ps + 1 :=
  List.countP_cons_of_pos rfl

theorem closings_cons {p : Piece} (hp : p.isClosing = false) (ps : List Piece) :
    closings (p :: ps) = closings ps :=
  List.countP_cons_of_neg (by simp [hp])

theorem openings_opening (h : LoopHeader) (ps : List Piece) :
    openings (.opening h :: ps) = openings ps + 1 :=
  List.countP_cons_of_pos rfl

theorem openings_cons {p : Piece} (hp : p.isOpening = false) (ps : List Piece) :
    openings (p :: ps) = openings ps :=
  List.countP_cons_of_neg (by simp [hp])

/-- A piece that is no tag of a loop does not matter. -/
theorem covers_other {depth : Nat} {p : Piece} (ho : p.isOpening = false)
    (hc : p.isClosing = false) {ps : List Piece} : Covers depth (p :: ps) ↔ Covers depth ps := by
  rw [covers_cons]
  refine forall_congr' fun qs => imp_congr_right fun _ => ?_
  rw [closings_cons hc, openings_cons ho]

theorem covers_opening {depth : Nat} {h : LoopHeader} {ps : List Piece} :
    Covers depth (.opening h :: ps) ↔ Covers (depth + 1) ps := by
  rw [covers_cons]
  refine forall_congr' fun qs => imp_congr_right fun _ => ?_
  rw [closings_cons rfl, openings_opening]
  omega

theorem covers_closing {depth : Nat} {ps : List Piece} :
    Covers (depth + 1) (.closing :: ps) ↔ Covers depth ps := by
  rw [covers_cons]
  refine forall_congr' fun qs => imp_congr_right fun _ => ?_
  rw [openings_cons rfl, closings_closing]
  omega

theorem not_covers_closing (ps : List Piece) : ¬Covers 0 (.closing :: ps) := by
  intro h
  exact absurd (h [.closing] (List.cons_prefix_cons.2 ⟨rfl, List.nil_prefix⟩)) (by decide)

/-- The depth is the surplus of the opening tags, where no closing tag is one too many. -/
theorem depthAfter_eq_ok_iff {depth d : Nat} {ps : List (Nat × Piece)} :
    depthAfter depth ps = .ok d ↔
      Covers depth (ps.map (·.2)) ∧
        d + closings (ps.map (·.2)) = depth + openings (ps.map (·.2)) := by
  induction ps generalizing depth with
  | nil =>
    have hd : depthAfter depth [] = .ok d ↔ d + 0 = depth + 0 := by
      rw [depthAfter, Except.ok.injEq]
      exact eq_comm
    rw [hd]
    exact (and_iff_right (covers_nil depth)).symm
  | cons p ps ih =>
    obtain ⟨line, p⟩ := p
    rw [List.map_cons]
    cases p with
    | text s | echo es =>
      refine ih.trans (and_congr (covers_other rfl rfl).symm ?_)
      rw [closings_cons rfl, openings_cons rfl]
    | opening h =>
      refine ih.trans (and_congr covers_opening.symm ?_)
      rw [closings_cons rfl, openings_opening]
      omega
    | closing =>
      cases depth with
      | zero => simp [depthAfter, not_covers_closing]
      | succ depth =>
        refine ih.trans (and_congr covers_closing.symm ?_)
        rw [openings_cons rfl, closings_closing]
        omega

/-- An end tag is one too many where it stands behind pieces that leave no loop open. -/
theorem depthAfter_eq_error_iff {depth : Nat} {ps : List (Nat × Piece)} {e : ParseError} :
    depthAfter depth ps = .error e ↔
      ∃ before line after, ps = before ++ (line, .closing) :: after ∧
        depthAfter depth before = .ok 0 ∧ e = ⟨line, .unmatchedEnd⟩ := by
  constructor
  · intro h
    induction ps generalizing depth with
    | nil => simp [depthAfter] at h
    | cons p ps ih =>
      obtain ⟨line, p⟩ := p
      cases p with
      | closing =>
        cases depth with
        | zero => exact ⟨[], line, ps, rfl, rfl, (Except.error.inj h).symm⟩
        | succ depth =>
          obtain ⟨before, k, after, rfl, hd, he⟩ := ih h
          exact ⟨(line, .closing) :: before, k, after, rfl, hd, he⟩
      | opening header =>
        obtain ⟨before, k, after, rfl, hd, he⟩ := ih h
        exact ⟨(line, .opening header) :: before, k, after, rfl, hd, he⟩
      | text s =>
        obtain ⟨before, k, after, rfl, hd, he⟩ := ih h
        exact ⟨(line, .text s) :: before, k, after, rfl, by cases depth <;> exact hd, he⟩
      | echo es =>
        obtain ⟨before, k, after, rfl, hd, he⟩ := ih h
        exact ⟨(line, .echo es) :: before, k, after, rfl, by cases depth <;> exact hd, he⟩
  · rintro ⟨before, line, after, rfl, hd, rfl⟩
    rw [depthAfter_append, hd]
    rfl

end Stencil
