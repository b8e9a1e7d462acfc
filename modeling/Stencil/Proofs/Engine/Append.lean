import Stencil.Proofs.Engine.Normal
import Stencil.Proofs.Engine.Refinement
import Stencil.Render
set_option autoImplicit false

/-!
# Rendering in a row

A run that succeeds leaves no counter behind, and a text that is joined where two
templates meet is taken as its two parts are.  So two templates in a row render as
the first one does and then, on what it has left, the second one
(`render_append`).
-/

namespace Stencil

namespace Engine

variable {σ : Type} [Host σ] [Host.JoinsTexts σ]

/-- The document of two documents that are joined runs as the first and then as the second, which
finds no counter of the first. -/
theorem execute_join (b : Bounds) (cs ds : List Node) (host : σ) :
    execute b (.document (Node.join cs ds)) host =
      match execute b (.document cs) host with
      | (.ok (), host) => execute b (.document ds) host
      | (.error s, host) => (.error s, host) := by
  obtain ⟨-, hvars⟩ := refines_run b (.document cs) ⟨{}, host⟩
  unfold execute
  rw [run] at hvars ⊢
  rw [run, run, runAll_join]
  unfold seq
  dsimp only
  rcases hrun : (runAll b cs ⟨{}, host⟩ : Except Stop Unit × Machine σ) with ⟨s | u, m⟩
  · rfl
  · rw [hrun] at hvars
    obtain ⟨vars, host'⟩ := m
    obtain rfl : vars = {} := hvars rfl
    rfl

end Engine

theorem render_of_parse {σ : Type} [Host σ] {x : String} {n : Node} (hx : Node.parse x = .ok n)
    (b : Bounds) (host : σ) :
    render b x host =
      ((Engine.execute b n host).1.mapError .stopped, (Engine.execute b n host).2) := by
  unfold render
  rw [hx]

/-- Two templates in a row render on a page as the first and, where it does not end early, then as
the second on the page that the first has left: with the same result, the same output, the same
parameters and the same mime type. -/
theorem render_append {x y : String} {n m : Node} (hx : Node.parse x = .ok n)
    (hy : Node.parse y = .ok m) (b : Bounds) (p : Page) :
    render b (x ++ y) p =
      match render b x p with
      | (.ok (), p) => render b y p
      | (.error e, p) => (.error e, p) := by
  have hxy := Node.parse_append_of_ok hx hy
  obtain ⟨cs, rfl, -⟩ := Node.parse_eq_ok_iff.1 hx
  obtain ⟨ds, rfl, -⟩ := Node.parse_eq_ok_iff.1 hy
  rw [render_of_parse hxy, render_of_parse hx]
  simp only [render_of_parse hy]
  have hrun := Engine.execute_join b cs ds p
  simp only [Node.children, hrun]
  rcases Engine.execute b (.document cs) p with ⟨s | u, p'⟩
  · rfl
  · rfl

/-- The text in which the two templates meet is joined from a text of each, and cut by the end of
the sink within the part that comes from the second. -/
theorem render_append_full :
    let p : Page := { sink := { capacity := some 3 } }
    Node.parse "ab" = .ok (.document [.text "ab"]) ∧ Node.parse "cd" = .ok (.document [.text "cd"]) ∧
      (render ⟨none, 0⟩ "ab" p).1 = .ok () ∧
      render ⟨none, 0⟩ ("ab" ++ "cd") p = render ⟨none, 0⟩ "cd" (render ⟨none, 0⟩ "ab" p).2 ∧
      (render ⟨none, 0⟩ ("ab" ++ "cd") p).1 = .error (.stopped (.failed (.output .sinkFull))) := by
  intro p
  have hab : Node.parse "ab" = .ok (.document [.text "ab"]) := by cbv
  have hcd : Node.parse "cd" = .ok (.document [.text "cd"]) := by cbv
  have hfirst : render ⟨none, 0⟩ "ab" p = (.ok (), (render ⟨none, 0⟩ "ab" p).2) := by
    rw [render_of_parse hab]
    rfl
  have hrow : render ⟨none, 0⟩ ("ab" ++ "cd") p = render ⟨none, 0⟩ "cd" (render ⟨none, 0⟩ "ab" p).2 := by
    rw [render_append hab hcd, hfirst]
  refine ⟨hab, hcd, congrArg Prod.fst hfirst, hrow, ?_⟩
  rw [hrow, render_of_parse hcd, render_of_parse hab]
  rfl

end Stencil
