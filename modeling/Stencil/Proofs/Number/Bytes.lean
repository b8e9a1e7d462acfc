import Stencil.Proofs.Number.Literal
import Stencil.Proofs.Text.Bytes
set_option autoImplicit false

/-!
# Number literals among bytes

A number literal can be measured on the bytes of a text, part by part: `literalSize?` gives
its size and whether it is one of a double.  It looks at no byte beyond the end, and the
literal that it measures is the longest one among the characters, of the same kind
(`literalSize?_bytes`).
-/

namespace Stencil.Number

open Text (bytes AllNarrow ByteClass)

/-! ## Classes -/

/-- The byte of a digit. -/
def isDigitByte (b : UInt8) : Bool := '0'.toUInt8 ≤ b && b ≤ '9'.toUInt8

/-- The byte of a sign. -/
def isSignByte (b : UInt8) : Bool := b == '+'.toUInt8 || b == '-'.toUInt8

/-- The byte of a character that begins an exponent. -/
def isMarkByte (b : UInt8) : Bool := b == 'e'.toUInt8 || b == 'E'.toUInt8

theorem byteClass_digit : ByteClass isDigitByte Char.isDigit where
  narrow {c} h := by
    simp only [Char.isDigit, Bool.and_eq_true, decide_eq_true_eq, ge_iff_le,
      UInt32.le_iff_toNat_le] at h
    exact Char.utf8Size_eq_one_iff.2 (Nat.le_trans h.2 (by decide))
  low {b} h := by
    simp only [isDigitByte, Bool.and_eq_true, decide_eq_true_eq, UInt8.le_iff_toNat_le] at h
    exact Nat.lt_of_le_of_lt h.2 (by decide)
  same {c} hc := by
    have hc := Text.toNat_toUInt8 hc
    simp only [isDigitByte, Char.isDigit, UInt8.le_iff_toNat_le, ge_iff_le, UInt32.le_iff_toNat_le,
      hc]
    rfl

theorem byteClass_sign : ByteClass isSignByte fun c => c == '+' || c == '-' :=
  (ByteClass.char (by decide)).or (ByteClass.char (by decide))

theorem byteClass_mark : ByteClass isMarkByte isExponentMark :=
  (ByteClass.char (by decide)).or (ByteClass.char (by decide))

/-! ## Measuring -/

/-- The bytes from one on; none beyond the end. -/
def bytesFrom? (bs : List UInt8) (n : Nat) : Option (List UInt8) :=
  if n ≤ bs.length then some (bs.drop n) else none

/-- The number of digits at the beginning. -/
def countDigits (bs : List UInt8) : Nat := (bs.takeWhile isDigitByte).length

/-- Where the fraction ends that begins at the byte, and whether there is one. -/
def fractionFrom? (bs : List UInt8) (n : Nat) : Option (Nat × Bool) :=
  if bs[n]?.any (· == '.'.toUInt8) ∧ bs[n + 1]?.any isDigitByte then
    (bytesFrom? bs (n + 1)).map fun ds => (n + 1 + countDigits ds, true)
  else some (n, false)

/-- Where the exponent ends that begins at the byte, and whether there is one. -/
def exponentFrom? (bs : List UInt8) (n : Nat) : Option (Nat × Bool) :=
  let sign := if bs[n + 1]?.any isSignByte then 1 else 0
  if bs[n]?.any isMarkByte ∧ bs[n + 1 + sign]?.any isDigitByte then
    (bytesFrom? bs (n + 1 + sign)).map fun ds => (n + 1 + sign + countDigits ds, true)
  else some (n, false)

/-- The size of the number literal at the beginning, and whether it is one of a double. -/
def literalSize? (bs : List UInt8) : Option (Nat × Bool) := do
  let minus := if bs[0]?.any (· == '-'.toUInt8) then 1 else 0
  let ds ← bytesFrom? bs minus
  let (n, hasFraction) ← fractionFrom? bs (minus + countDigits ds)
  let (n, hasExponent) ← exponentFrom? bs n
  return (n, hasFraction || hasExponent)

/-! ## Behind narrow characters -/

/-- Behind characters of one byte each, the bytes of the others begin at the number of these
characters. -/
theorem bytesFrom?_append {w : List Char} (hw : AllNarrow w) (r : List Char) :
    bytesFrom? (bytes (w ++ r)) w.length = some (bytes r) := by
  rw [bytesFrom?, Text.bytes_append, List.length_append, hw.length_bytes,
    if_pos (Nat.le_add_right ..), ← hw.length_bytes, List.drop_left]

theorem getElem?_bytes_append {w : List Char} (hw : AllNarrow w) (r : List Char) (k : Nat) :
    (bytes (w ++ r))[w.length + k]? = (bytes r)[k]? := by
  rw [Text.bytes_append, ← hw.length_bytes, List.getElem?_append_right (Nat.le_add_right ..),
    Nat.add_sub_cancel_left]

/-- The first byte behind them is in a class when the next character is. -/
theorem any_getElem?_bytes {ofByte : UInt8 → Bool} {ofChar : Char → Bool}
    (h : ByteClass ofByte ofChar) {w : List Char} (hw : AllNarrow w) (r : List Char) :
    (bytes (w ++ r))[w.length]?.any ofByte = r.head?.any ofChar := by
  rw [← h.head?_bytes, List.head?_eq_getElem?, ← getElem?_bytes_append hw r 0, Nat.add_zero]

theorem countDigits_bytes (cs : List Char) : countDigits (bytes cs) = (digitRun cs).length :=
  byteClass_digit.length_takeWhile_bytes cs

theorem digitRun_ne_nil_iff {cs : List Char} :
    digitRun cs ≠ [] ↔ cs.head?.any Char.isDigit = true := by
  cases cs with
  | nil => simp [digitRun]
  | cons c cs => simp [digitRun, List.takeWhile_cons]

theorem length_signPart (cs : List Char) :
    (signPart cs).length = if cs.head?.any (fun c => c == '+' || c == '-') then 1 else 0 := by
  cases cs with
  | nil => rfl
  | cons c cs =>
    by_cases hc : c = '+' ∨ c = '-' <;> simp [signPart, hc]

/-! ## Part by part -/

theorem allNarrow_digitRun (cs : List Char) : AllNarrow (digitRun cs) :=
  fun _ hc => byteClass_digit.narrow (isDigit_of_mem_digitRun hc)

theorem IsSign.allNarrow {sign : List Char} (h : IsSign sign) : AllNarrow sign := by
  cases h with
  | none => exact nofun
  | plus | minus => exact List.forall_mem_singleton.2 (by decide)

theorem allNarrow_signPart (cs : List Char) : AllNarrow (signPart cs) :=
  (isSign_signPart cs).allNarrow

theorem allNarrow_minusPart (cs : List Char) : AllNarrow (minusPart cs) := by
  obtain ⟨negative, h⟩ := exists_minusPart cs
  rw [h]
  exact (isSign_signText negative).allNarrow

theorem length_minusPart (cs : List Char) :
    (minusPart cs).length = if cs.head?.any (· == '-') then 1 else 0 := by
  cases cs with
  | nil => rfl
  | cons c cs => by_cases hc : c = '-' <;> simp [minusPart, hc]

/-- A point with a digit behind it is found among the bytes where it stands among the characters. -/
theorem point_iff {w : List Char} (hw : AllNarrow w) {r : List Char} :
    ((bytes (w ++ r))[w.length]?.any (· == '.'.toUInt8) = true ∧
        (bytes (w ++ r))[w.length + 1]?.any isDigitByte = true) ↔
      ∃ cs, r = '.' :: cs ∧ digitRun cs ≠ [] := by
  have hpoint := any_getElem?_bytes (ByteClass.char (d := '.') (by decide)) hw r
  have hdigit (cs : List Char) (hcs : r = '.' :: cs) :
      (bytes (w ++ r))[w.length + 1]?.any isDigitByte = true ↔ digitRun cs ≠ [] := by
    have hw' : AllNarrow (w ++ ['.']) := hw.append (List.forall_mem_singleton.2 (by decide))
    have hany := any_getElem?_bytes byteClass_digit hw' cs
    rw [← List.append_cons, List.length_append, List.length_singleton, ← hcs] at hany
    rw [hany, digitRun_ne_nil_iff]
  constructor
  · rintro ⟨h, hrun⟩
    rw [hpoint] at h
    cases r with
    | nil => cases h
    | cons c cs =>
      obtain rfl : c = '.' := eq_of_beq h
      exact ⟨cs, rfl, (hdigit cs rfl).1 hrun⟩
  · rintro ⟨cs, hcs, hrun⟩
    exact ⟨hpoint.trans (by rw [hcs]; rfl), (hdigit cs hcs).2 hrun⟩

theorem fractionPart_of_point {cs : List Char} (h : digitRun cs ≠ []) :
    fractionPart ('.' :: cs) = '.' :: digitRun cs := if_pos ⟨rfl, h⟩

theorem fractionPart_of_no_point {r : List Char} (h : ¬∃ cs, r = '.' :: cs ∧ digitRun cs ≠ []) :
    fractionPart r = [] := by
  cases r with
  | nil => rfl
  | cons c cs =>
    refine if_neg ?_
    rintro ⟨rfl, hrun⟩
    exact h ⟨cs, rfl, hrun⟩

/-- The fraction is measured behind what was measured before. -/
theorem fractionFrom?_bytes {w : List Char} (hw : AllNarrow w) (r : List Char) :
    fractionFrom? (bytes (w ++ r)) w.length =
      some ((w ++ fractionPart r).length, !(fractionPart r).isEmpty) := by
  unfold fractionFrom?
  by_cases h : ∃ cs, r = '.' :: cs ∧ digitRun cs ≠ []
  · rw [if_pos ((point_iff hw).2 h)]
    obtain ⟨cs, rfl, hrun⟩ := h
    have hw' : AllNarrow (w ++ ['.']) := hw.append (List.forall_mem_singleton.2 (by decide))
    have hfrom := bytesFrom?_append hw' cs
    rw [← List.append_cons, List.length_append, List.length_singleton] at hfrom
    rw [hfrom, fractionPart_of_point hrun, Option.map_some, countDigits_bytes, List.length_append,
      List.length_cons, Nat.add_assoc, Nat.add_comm 1]
    rfl
  · rw [if_neg (mt (point_iff hw).1 h), fractionPart_of_no_point h, List.append_nil]
    rfl

theorem sign_bytes {w : List Char} (hw : AllNarrow w) (r : List Char) :
    (if (bytes (w ++ r))[w.length]?.any isSignByte then 1 else 0) = (signPart r).length := by
  rw [any_getElem?_bytes byteClass_sign hw, length_signPart]

/-- Behind the mark of an exponent and its sign, the bytes are those of the characters there. -/
theorem behind_mark {w : List Char} (hw : AllNarrow w) {c : Char} (hc : isExponentMark c = true)
    (cs : List Char) :
    let w' := w ++ c :: signPart cs
    AllNarrow w' ∧ w ++ c :: cs = w' ++ cs.drop (signPart cs).length ∧
      w.length + 1 + (if (bytes (w ++ c :: cs))[w.length + 1]?.any isSignByte then 1 else 0) =
        w'.length := by
  have hmark : AllNarrow (w ++ [c]) :=
    hw.append (List.forall_mem_singleton.2 (byteClass_mark.narrow hc))
  have hsign := sign_bytes hmark cs
  rw [← List.append_cons, List.length_append, List.length_singleton] at hsign
  intro w'
  have hw' : w' = (w ++ [c]) ++ signPart cs := List.append_cons ..
  refine ⟨hw' ▸ hmark.append (allNarrow_signPart cs), ?_, ?_⟩
  · rw [hw', List.append_assoc, signPart_append_drop, ← List.append_cons]
  · rw [hsign, hw', List.length_append, List.length_append, List.length_singleton]

/-- A mark with a digit behind it, or behind its sign, is found among the bytes where it stands among
the characters. -/
theorem mark_iff {w : List Char} (hw : AllNarrow w) {r : List Char} :
    ((bytes (w ++ r))[w.length]?.any isMarkByte = true ∧
        (bytes (w ++ r))[w.length + 1 +
          if (bytes (w ++ r))[w.length + 1]?.any isSignByte then 1 else 0]?.any isDigitByte =
            true) ↔
      ∃ c cs, r = c :: cs ∧ isExponentMark c = true ∧
        digitRun (cs.drop (signPart cs).length) ≠ [] := by
  have hmark := any_getElem?_bytes byteClass_mark hw r
  have hdigit {c : Char} {cs : List Char} (hr : r = c :: cs) (hc : isExponentMark c = true) :
      (bytes (w ++ r))[w.length + 1 +
          if (bytes (w ++ r))[w.length + 1]?.any isSignByte then 1 else 0]?.any isDigitByte = true ↔
        digitRun (cs.drop (signPart cs).length) ≠ [] := by
    obtain ⟨hw', happend, hlength⟩ := behind_mark hw hc cs
    rw [hr, hlength, happend, any_getElem?_bytes byteClass_digit hw', digitRun_ne_nil_iff]
  constructor
  · rintro ⟨h, hrun⟩
    rw [hmark] at h
    cases r with
    | nil => cases h
    | cons c cs => exact ⟨c, cs, rfl, h, (hdigit rfl h).1 hrun⟩
  · rintro ⟨c, cs, hr, hc, hrun⟩
    exact ⟨hmark.trans (by rw [hr]; exact hc), (hdigit hr hc).2 hrun⟩

theorem exponentPart_of_mark {c : Char} {cs : List Char} (hc : isExponentMark c = true)
    (h : digitRun (cs.drop (signPart cs).length) ≠ []) :
    exponentPart (c :: cs) = c :: signPart cs ++ digitRun (cs.drop (signPart cs).length) :=
  if_pos ⟨hc, h⟩

theorem exponentPart_of_no_mark {r : List Char}
    (h : ¬∃ c cs, r = c :: cs ∧ isExponentMark c = true ∧
      digitRun (cs.drop (signPart cs).length) ≠ []) : exponentPart r = [] := by
  cases r with
  | nil => rfl
  | cons c cs => exact if_neg fun hc => h ⟨c, cs, rfl, hc⟩

/-- The exponent is measured behind what was measured before. -/
theorem exponentFrom?_bytes {w : List Char} (hw : AllNarrow w) (r : List Char) :
    exponentFrom? (bytes (w ++ r)) w.length =
      some ((w ++ exponentPart r).length, !(exponentPart r).isEmpty) := by
  unfold exponentFrom?
  dsimp only
  by_cases h : ∃ c cs, r = c :: cs ∧ isExponentMark c = true ∧
      digitRun (cs.drop (signPart cs).length) ≠ []
  · rw [if_pos ((mark_iff hw).2 h)]
    obtain ⟨c, cs, rfl, hc, hrun⟩ := h
    obtain ⟨hw', happend, hlength⟩ := behind_mark hw hc cs
    rw [hlength, happend, bytesFrom?_append hw', exponentPart_of_mark hc hrun, Option.map_some,
      countDigits_bytes, ← List.length_append, List.append_assoc]
    rfl
  · rw [if_neg (mt (mark_iff hw).1 h), exponentPart_of_no_mark h, List.append_nil]
    rfl

/-! ## The literal -/

theorem allNarrow_fractionPart (cs : List Char) : AllNarrow (fractionPart cs) := by
  obtain ⟨f, hf, hpart⟩ := exists_fraction cs
  rw [hpart]
  cases f with
  | none => exact nofun
  | some ds =>
    exact List.forall_mem_cons.2
      ⟨by decide, fun c hc => byteClass_digit.narrow ((hf ds rfl).digits c hc)⟩

theorem allNarrow_exponentPart (cs : List Char) : AllNarrow (exponentPart cs) := by
  by_cases h : ∃ c r, cs = c :: r ∧ isExponentMark c = true ∧
      digitRun (r.drop (signPart r).length) ≠ []
  · obtain ⟨c, r, rfl, hc, hrun⟩ := h
    rw [exponentPart_of_mark hc hrun]
    exact List.forall_mem_cons.2 ⟨byteClass_mark.narrow hc,
      (allNarrow_signPart r).append (allNarrow_digitRun _)⟩
  · rw [exponentPart_of_no_mark h]
    exact nofun

/-- Every character of a literal is one byte. -/
theorem allNarrow_literal (cs : List Char) : AllNarrow (literal cs) :=
  (((allNarrow_minusPart _).append (allNarrow_digitRun _)).append
    (allNarrow_fractionPart _)).append (allNarrow_exponentPart _)

/-- The literal that is measured is the longest at the beginning, and is of the same kind. -/
theorem literalSize?_bytes (cs : List Char) :
    literalSize? (bytes cs) = some ((literal cs).length, (literalParts cs).isDouble) := by
  obtain ⟨r₁, hr₁⟩ : ∃ r, r = cs.drop (minusPart cs).length := ⟨_, rfl⟩
  obtain ⟨r₂, hr₂⟩ : ∃ r, r = r₁.drop (digitRun r₁).length := ⟨_, rfl⟩
  obtain ⟨r₃, hr₃⟩ : ∃ r, r = r₂.drop (fractionPart r₂).length := ⟨_, rfl⟩
  have hparts : literalParts cs =
      ⟨minusPart cs, digitRun r₁, fractionPart r₂, exponentPart r₃⟩ := by
    rw [hr₃, hr₂, hr₁]
    rfl
  have hcs₁ : minusPart cs ++ r₁ = cs := by
    rw [hr₁, List.prefix_iff_eq_append.1 (minusPart_isPrefix cs)]
  have hcs₂ : (minusPart cs ++ digitRun r₁) ++ r₂ = cs := by
    rw [hr₂, List.append_assoc, digitRun_append_drop, hcs₁]
  have hcs₃ : ((minusPart cs ++ digitRun r₁) ++ fractionPart r₂) ++ r₃ = cs := by
    rw [hr₃, List.append_assoc, List.prefix_iff_eq_append.1 (fractionPart_isPrefix r₂), hcs₂]
  have hw₁ := allNarrow_minusPart cs
  have hw₂ := hw₁.append (allNarrow_digitRun r₁)
  have hw₃ := hw₂.append (allNarrow_fractionPart r₂)
  have hminus : (if (bytes cs)[0]?.any (· == '-'.toUInt8) then 1 else 0) =
      (minusPart cs).length := by
    have hany := any_getElem?_bytes (ByteClass.char (d := '-') (by decide)) (w := []) nofun cs
    rw [length_minusPart, ← hany]
    rfl
  have hfrom := bytesFrom?_append hw₁ r₁
  have hfraction := fractionFrom?_bytes hw₂ r₂
  have hexponent := exponentFrom?_bytes hw₃ r₃
  rw [hcs₁] at hfrom
  rw [hcs₂, List.length_append] at hfraction
  rw [hcs₃] at hexponent
  simp only [literalSize?, hminus, hfrom, countDigits_bytes, bind, Option.bind, hfraction, hexponent,
    literal, hparts]
  rfl

end Stencil.Number
