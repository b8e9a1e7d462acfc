import Stencil.Proofs.Piece.Layout
set_option autoImplicit false

/-!
# The written form of a piece

Of all layouts of a piece the written form is the one with one space in front of every
element and of the end of a tag, with the names of loop tags in capitals
(`Piece.layout_source`).
-/

namespace Stencil

/-- The written form of elements in a row, a space in front of each. -/
def Element.rowChars (es : List Element) : List Char := es.flatMap fun e => ' ' :: e.sourceChars

/-- With one more space behind them, the elements are a row behind a space. -/
theorem Element.exists_rowLayout (es : List Element) :
    ∃ row, RowLayout es row ∧ ∀ zs, rowChars es ++ ' ' :: zs = ' ' :: (row ++ zs) := by
  induction es with
  | nil => exact ⟨[], .nil, fun _ => rfl⟩
  | cons e es ih =>
    obtain ⟨row, hrow, heq⟩ := ih
    refine ⟨_, .cons Text.isBlanks_space nofun hrow, fun zs => ?_⟩
    calc rowChars (e :: es) ++ ' ' :: zs
        = ' ' :: (e.sourceChars ++ (rowChars es ++ ' ' :: zs)) := by simp [rowChars]
      _ = ' ' :: (e.sourceChars ++ ([' '] ++ row) ++ zs) := by rw [heq]; simp

namespace Piece

/-- The written form of a piece. -/
def sourceChars : Piece → List Char
  | text s => s.toList.flatMap Node.escapedChar
  | echo es => "\x7b$=".toList ++ Element.rowChars es ++ " $\x7d".toList
  | opening h => h.sourceChars
  | closing => "\x7b$END$\x7d".toList

/-! ## The characters of tags -/

theorem toList_echoOpening : "\x7b$=".toList = ['{', '$', '='] := rfl

theorem toList_loopOpening : "\x7b$ FOR ".toList = ['{', '$', ' ', 'F', 'O', 'R', ' '] := rfl

theorem toList_tagClosing : " $\x7d".toList = [' ', '$', '}'] := rfl

theorem sourceChars_echo (es : List Element) :
    (echo es).sourceChars = '{' :: '$' :: '=' :: (Element.rowChars es ++ [' ', '$', '}']) := by
  have h : ∀ front back, front = ['{', '$', '='] → back = [' ', '$', '}'] →
      front ++ Element.rowChars es ++ back =
        '{' :: '$' :: '=' :: (Element.rowChars es ++ [' ', '$', '}']) := by
    rintro _ _ rfl rfl
    simp
  exact h _ _ toList_echoOpening toList_tagClosing

theorem sourceChars_opening (h : LoopHeader) :
    (opening h).sourceChars = '{' :: '$' :: ' ' :: (['F', 'O', 'R'] ++
      (Element.rowChars (.var h.name :: h.arguments) ++ [' ', '$', '}'])) := by
  obtain ⟨name, start, stop, step⟩ := h
  unfold sourceChars LoopHeader.sourceChars
  -- the literals are replaced as variables, since rewriting would compare them by evaluation
  generalize hopen : "\x7b$ FOR ".toList = front
  generalize hclose : " $\x7d".toList = back
  obtain rfl := hopen.symm.trans toList_loopOpening
  obtain rfl := hclose.symm.trans toList_tagClosing
  cases step with
  | none => simp [Element.rowChars, LoopHeader.arguments, Element.sourceChars]
  | some step => simp [Element.rowChars, LoopHeader.arguments, Element.sourceChars]

/-! ## The written form is a layout -/

theorem anyCase_for : Text.AnyCase ['f', 'o', 'r'] ['F', 'O', 'R'] :=
  .cons (.inr rfl) (.cons (.inr rfl) (.cons (.inr rfl) .nil))

theorem anyCase_end : Text.AnyCase ['e', 'n', 'd'] ['E', 'N', 'D'] :=
  .cons (.inr rfl) (.cons (.inr rfl) (.cons (.inr rfl) .nil))

theorem layout_source (p : Piece) : p.Layout p.sourceChars := by
  cases p with
  | text s => exact .text (Scan.spellsAll_escaped s.toList)
  | echo es =>
    obtain ⟨row, hrow, heq⟩ := Element.exists_rowLayout es
    rw [sourceChars_echo, heq]
    exact .echo Text.isBlanks_nil Text.isBlanks_space hrow
  | opening h =>
    obtain ⟨row, hrow, heq⟩ := Element.exists_rowLayout (.var h.name :: h.arguments)
    rw [sourceChars_opening, heq]
    exact .opening Text.isBlanks_space anyCase_for Text.isBlanks_space nofun hrow
  | closing => exact .closing Text.isBlanks_nil anyCase_end Text.isBlanks_nil

end Piece

end Stencil
