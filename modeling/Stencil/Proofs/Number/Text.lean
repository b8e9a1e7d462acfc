import Stencil.Proofs.Number.Bits
import Stencil.Proofs.Number.Digits
import Stencil.Proofs.Number.Numeral
set_option autoImplicit false

/-!
# Numbers that are read back

The written form of a number is a literal, and it is read as this number: every
integer as itself (`ofText?_integerText`), and every finite double with all its
bits (`ofText?_doubleText`).
-/

namespace Stencil.Number

/-! ## Integers -/

theorem toInt64?_toInt (n : Int64) : toInt64? n.toInt = some n := by
  unfold toInt64?
  rw [if_pos ⟨Int64.le_iff_toInt_le.1 (Int64.minValue_le n),
    Int64.le_iff_toInt_le.1 (Int64.le_maxValue n)⟩, Int64.ofInt_toInt]

theorem ofText?_integerText (n : Int64) :
    ofText? (integerText n.toInt) = some (.integer n) := by
  rw [← Literal.text_ofInt, Literal.ofText?_text, Literal.integer_ofInt, toInt64?_toInt]
  rfl

/-! ## Parts of the text of a double -/

namespace Decimal

variable (d : Decimal)

theorem isDigits_zero : IsDigits ['0'] := ⟨by simp, List.forall_mem_singleton.2 (by decide)⟩

theorem isDigit_zeros (k : Nat) : ∀ c ∈ List.replicate k '0', c.isDigit = true := by
  intro c hc
  rw [List.eq_of_mem_replicate hc]
  decide

theorem isDigits_wholePart : IsDigits d.wholePart := by
  unfold wholePart
  by_cases hp : d.point ≤ 0
  · rw [if_pos hp]
    exact isDigits_zero
  · rw [if_neg hp]
    refine ⟨List.length_pos_iff.1 ?_, ?_⟩
    · rw [List.length_append, List.length_take, List.length_replicate]
      omega
    · intro c hc
      rcases List.mem_append.1 hc with hc | hc
      · exact d.isDigit_significant c (List.mem_of_mem_take hc)
      · exact isDigit_zeros _ c hc

theorem isDigits_shownFraction : IsDigits d.shownFraction := by
  unfold shownFraction
  split
  · exact isDigits_zero
  · rename_i hne
    refine ⟨fun hnil => hne (List.isEmpty_iff.2 hnil), ?_⟩
    intro c hc
    unfold fractionPart at hc
    split at hc
    · rcases List.mem_append.1 hc with hc | hc
      · exact isDigit_zeros _ c hc
      · exact d.isDigit_significant c hc
    · exact d.isDigit_significant c (List.mem_of_mem_drop hc)

theorem isDigits_shownMore : IsDigits d.shownMore := by
  unfold shownMore
  split
  · exact isDigits_zero
  · rename_i hne
    exact ⟨fun hnil => hne (List.isEmpty_iff.2 hnil), fun c hc =>
      d.isDigit_significant c (List.mem_of_mem_drop hc)⟩

variable {d}

theorem isDigits_first (h : d.digits ≠ 0) : IsDigits (d.significant.take 1) := by
  refine ⟨List.length_pos_iff.1 ?_, fun c hc => d.isDigit_significant c (List.mem_of_mem_take hc)⟩
  have hpos : 0 < d.significant.length := List.length_pos_iff.2 (significant_ne_nil h)
  rw [List.length_take]
  omega

end Decimal

/-! ## Doubles -/

theorem not_isNaN_of_isFinite {x : Float} (h : x.isFinite = true) : x.isNaN = false := by
  unfold Float.isFinite Float.Model.isFinite at h
  unfold Float.isNaN Float.Model.isNaN
  cases hu : x.toModel.unpack <;> rw [hu] at h
  case notANumber => cases h
  all_goals rfl

theorem not_isInf_of_isFinite {x : Float} (h : x.isFinite = true) : x.isInf = false := by
  unfold Float.isFinite Float.Model.isFinite at h
  unfold Float.isInf Float.Model.isInf
  cases hu : x.toModel.unpack <;> rw [hu] at h
  case infinity s => exact absurd h (by simp [Float.Model.UnpackedFloat.isFinite])
  all_goals rfl

/-- What is not beyond infinity is not NaN. -/
theorem not_isNaN_of_magnitude_le {x : Float}
    (h : Binary64.magnitude x ≤ Binary64.infinityMagnitude) : x.isNaN = false := by
  rcases Nat.lt_or_eq_of_le h with hlt | heq
  · exact not_isNaN_of_isFinite ((Binary64.isFinite_iff x).2 hlt)
  · have hx : x = Binary64.ofMagnitude (Binary64.isNegative x) Binary64.infinityMagnitude :=
      Binary64.eq_of_magnitude_eq (Binary64.isNegative_ofMagnitude _ le_rfl).symm
        (heq.trans (Binary64.magnitude_ofMagnitude _ le_rfl).symm)
    rw [hx]
    cases Binary64.isNegative x <;> decide +kernel

/-- The text of a finite double is a numeral whose value is nearest to this double. -/
theorem doubleText_eq_numeral {x : Float} (h : x.isFinite = true) :
    ∃ whole fraction exponent, IsDigits whole ∧ IsDigits fraction ∧
      doubleText x = numeral (Binary64.isNegative x) whole fraction exponent ∧
      Decimal.magnitude ⟨digitsValue (whole ++ fraction), exponent.getD 0 - fraction.length⟩ =
        Binary64.magnitude x := by
  obtain ⟨d, hd⟩ : ∃ d, d = Shortest.decimal (Binary64.magnitude x) := ⟨_, rfl⟩
  have hm : d.magnitude = Binary64.magnitude x := by
    rw [hd]
    exact Shortest.magnitude_decimal ((Binary64.isFinite_iff x).1 h)
  have htext : doubleText x = signText (Binary64.isNegative x) ++
      if d.isModerate then d.positional else d.scientific := by
    unfold doubleText doubleTextWith
    rw [not_isNaN_of_isFinite h, not_isInf_of_isFinite h, ← hd]
    rfl
  by_cases hmod : d.isModerate = true
  · refine ⟨d.wholePart, d.shownFraction, none, d.isDigits_wholePart, d.isDigits_shownFraction,
      ?_, ?_⟩
    · rw [htext, if_pos hmod, d.positional_eq]
      simp [numeral, exponentText]
    · rw [← hm, ← d.magnitude_positional]
      congr 2
      exact Int.zero_sub _
  · have hne : d.digits ≠ 0 := by
      intro hzero
      exact hmod (by simp [Decimal.isModerate, hzero])
    refine ⟨d.significant.take 1, d.shownMore, some (d.point - 1), Decimal.isDigits_first hne,
      d.isDigits_shownMore, ?_, ?_⟩
    · rw [htext, if_neg hmod, d.scientific_eq]
      simp [numeral, exponentText]
    · rw [← hm]
      exact Decimal.magnitude_scientific hne

theorem literal_doubleText {x : Float} (h : x.isFinite = true) :
    literal (doubleText x) = doubleText x := by
  obtain ⟨whole, fraction, exponent, hw, hf, htext, -⟩ := doubleText_eq_numeral h
  rw [htext, ← Literal.text_ofParts hw hf, Literal.literal_text]

/-- A finite double is read with all its bits. -/
theorem ofText?_doubleText {x : Float} (h : x.isFinite = true) :
    ofText? (doubleText x) = some (.double x) := by
  obtain ⟨whole, fraction, exponent, hw, hf, htext, hm⟩ := doubleText_eq_numeral h
  rw [htext, ← Literal.text_ofParts hw hf, Literal.ofText?_text, Literal.decimal_ofParts]
  simp only [Decimal.toFloat, hm]
  exact congrArg (some <| double ·) (Binary64.ofMagnitude_magnitude h)

end Stencil.Number
