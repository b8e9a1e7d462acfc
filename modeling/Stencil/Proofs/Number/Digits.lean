import Stencil.Number.Display
import Stencil.Number.Numeral
import Stencil.Proofs.Number.Magnitude
set_option autoImplicit false

/-!
# Digits that are read back

The digits that a decimal is written with denote the decimal again, wherever its
point stands and however many zeros are written to reach it.
-/

namespace Stencil.Number

/-! ## The value of digits -/

theorem digitsValue_append (as bs : List Char) :
    digitsValue (as ++ bs) = digitsValue as * 10 ^ bs.length + digitsValue bs := by
  unfold digitsValue
  rw [Nat.ofDigitChars_append, Nat.ofDigitChars_eq_ofDigitChars_zero, Nat.mul_comm]

theorem digitsValue_zeros (k : Nat) : digitsValue (List.replicate k '0') = 0 :=
  Nat.ofDigitChars_replicate_zero

/-- Zeros in front of digits do not matter. -/
theorem digitsValue_zeros_append (k : Nat) (ds : List Char) :
    digitsValue (List.replicate k '0' ++ ds) = digitsValue ds := by
  rw [digitsValue_append, digitsValue_zeros, Nat.zero_mul, Nat.zero_add]

/-- Zeros behind digits make them denote a multiple of a power of ten. -/
theorem digitsValue_append_zeros (ds : List Char) (k : Nat) :
    digitsValue (ds ++ List.replicate k '0') = digitsValue ds * 10 ^ k := by
  rw [digitsValue_append, digitsValue_zeros, List.length_replicate, Nat.add_zero]

/-! ## Zeros at the ends -/

theorem exists_zeros_append (ds : List Char) :
    ∃ k, ds = List.replicate k '0' ++ ds.dropWhile (· == '0') := by
  have hzeros : ds.takeWhile (· == '0') = List.replicate (ds.takeWhile (· == '0')).length '0' := by
    refine List.eq_replicate_iff.2 ⟨rfl, ?_⟩
    intro c hc
    simpa using List.all_eq_true.1 List.all_takeWhile c hc
  refine ⟨(ds.takeWhile (· == '0')).length, ?_⟩
  rw [← hzeros, List.takeWhile_append_dropWhile]

theorem withoutTrailingZeros_append (ds : List Char) :
    ∃ k, ds = withoutTrailingZeros ds ++ List.replicate k '0' := by
  obtain ⟨k, hk⟩ := exists_zeros_append ds.reverse
  refine ⟨k, ?_⟩
  rw [withoutTrailingZeros, ← List.reverse_replicate, ← List.reverse_append, ← hk,
    List.reverse_reverse]

namespace Decimal

/-- The digits of a decimal are its significant digits and zeros behind them. -/
theorem toDigits_eq_significant (d : Decimal) :
    ∃ k, Nat.toDigits 10 d.digits = d.significant ++ List.replicate k '0' :=
  withoutTrailingZeros_append _

theorem isDigit_significant (d : Decimal) : ∀ c ∈ d.significant, c.isDigit = true := by
  intro c hc
  obtain ⟨k, hk⟩ := d.toDigits_eq_significant
  have hmem : c ∈ Nat.toDigits 10 d.digits := by
    rw [hk]
    exact List.mem_append_left _ hc
  exact Nat.isDigit_of_mem_toDigits (by decide) (by decide) hmem

/-- The significant digits, with the last of them right in front of its place, denote a decimal for
the same double. -/
theorem magnitude_significant (d : Decimal) :
    magnitude ⟨digitsValue d.significant, d.point - d.significant.length⟩ = d.magnitude := by
  obtain ⟨k, hk⟩ := d.toDigits_eq_significant
  have hdigits : d.digits = digitsValue d.significant * 10 ^ k := by
    rw [← digitsValue_append_zeros, ← hk]
    exact Nat.ofDigitChars_ten_toDigits.symm
  have hpoint : d.point - d.significant.length = d.exponent + k := by
    unfold point
    rw [hk, List.length_append, List.length_replicate]
    omega
  rw [hpoint, ← magnitude_mul_pow, ← hdigits]

theorem significant_ne_nil {d : Decimal} (h : d.digits ≠ 0) : d.significant ≠ [] := by
  intro hnil
  obtain ⟨k, hk⟩ := d.toDigits_eq_significant
  have hzero : d.digits = 0 := by
    rw [← Nat.ofDigitChars_ten_toDigits (n := d.digits), hk, hnil]
    exact digitsValue_zeros k
  exact h hzero

theorem magnitude_of_digits_eq_zero {n : Nat} (h : n = 0) (e : Int) : magnitude ⟨n, e⟩ = 0 := by
  simp [magnitude, h]

/-! ## Positional notation -/

/-- The digits written after the point in positional notation, at least one. -/
def shownFraction (d : Decimal) : List Char :=
  if d.fractionPart.isEmpty then ['0'] else d.fractionPart

theorem positional_eq (d : Decimal) : d.positional = d.wholePart ++ '.' :: d.shownFraction := rfl

/-- Zeros lead to the first digit, and denote nothing where no digit follows. -/
theorem magnitude_positional_of_nonpos {d : Decimal} (hp : d.point ≤ 0) :
    magnitude ⟨digitsValue (d.wholePart ++ d.shownFraction), -d.shownFraction.length⟩ =
      magnitude ⟨digitsValue d.significant, d.point - d.significant.length⟩ := by
  unfold shownFraction wholePart fractionPart
  simp only [if_pos hp]
  split
  · rename_i hempty
    have hnil : List.replicate (-d.point).toNat '0' ++ d.significant = [] :=
      List.isEmpty_iff.1 hempty
    have hsig : d.significant = [] := (List.append_eq_nil_iff.1 hnil).2
    rw [hsig]
    exact (magnitude_of_digits_eq_zero rfl _).trans (magnitude_of_digits_eq_zero rfl _).symm
  · have hvalue : digitsValue (['0'] ++ (List.replicate (-d.point).toNat '0' ++ d.significant)) =
        digitsValue d.significant := by
      rw [← List.append_assoc]
      exact digitsValue_zeros_append ((-d.point).toNat + 1) d.significant
    have hlen : -((List.replicate (-d.point).toNat '0' ++ d.significant).length : Int) =
        d.point - d.significant.length := by
      rw [List.length_append, List.length_replicate]
      omega
    rw [hvalue, hlen]

/-- The point stands among the digits, or zeros lead to it and one stands behind it. -/
theorem magnitude_positional_of_pos {d : Decimal} (hp : ¬d.point ≤ 0) :
    magnitude ⟨digitsValue (d.wholePart ++ d.shownFraction), -d.shownFraction.length⟩ =
      magnitude ⟨digitsValue d.significant, d.point - d.significant.length⟩ := by
  unfold shownFraction wholePart fractionPart
  simp only [if_neg hp]
  split
  · rename_i hempty
    have hle : d.significant.length ≤ d.point.toNat :=
      List.drop_eq_nil_iff.1 (List.isEmpty_iff.1 hempty)
    have hvalue : digitsValue (d.significant.take d.point.toNat ++
          List.replicate (d.point.toNat - d.significant.length) '0' ++ ['0']) =
        digitsValue d.significant * 10 ^ (d.point.toNat - d.significant.length + 1) := by
      rw [List.take_of_length_le hle, List.append_assoc, ← List.replicate_succ']
      exact digitsValue_append_zeros ..
    have hexp : -(([ '0' ] : List Char).length : Int) +
          (d.point.toNat - d.significant.length + 1 : Nat) =
        d.point - d.significant.length := by
      simp only [List.length_singleton]
      omega
    rw [hvalue, magnitude_mul_pow, hexp]
  · rename_i hrest
    have hlt : d.point.toNat < d.significant.length := by
      apply Nat.lt_of_not_le
      intro hle
      apply hrest
      rw [List.drop_eq_nil_iff.2 hle]
      rfl
    have hzeros : d.point.toNat - d.significant.length = 0 := by omega
    have hlen : -((d.significant.drop d.point.toNat).length : Int) =
        d.point - d.significant.length := by
      rw [List.length_drop]
      omega
    rw [hzeros, List.replicate_zero, List.append_nil, List.take_append_drop, hlen]

/-- The digits written in positional notation denote the same double. -/
theorem magnitude_positional (d : Decimal) :
    magnitude ⟨digitsValue (d.wholePart ++ d.shownFraction), -d.shownFraction.length⟩ =
      d.magnitude := by
  rw [← d.magnitude_significant]
  by_cases hp : d.point ≤ 0
  · exact magnitude_positional_of_nonpos hp
  · exact magnitude_positional_of_pos hp

/-! ## Scientific notation -/

/-- The digits written after the point in scientific notation, at least one. -/
def shownMore (d : Decimal) : List Char :=
  if (d.significant.drop 1).isEmpty then ['0'] else d.significant.drop 1

theorem scientific_eq (d : Decimal) :
    d.scientific =
      d.significant.take 1 ++ '.' :: d.shownMore ++ 'E' :: integerText (d.point - 1) := rfl

/-- The digits written in scientific notation denote the same double. -/
theorem magnitude_scientific {d : Decimal} (h : d.digits ≠ 0) :
    magnitude ⟨digitsValue (d.significant.take 1 ++ d.shownMore),
      d.point - 1 - d.shownMore.length⟩ = d.magnitude := by
  rw [← d.magnitude_significant]
  have hpos : 0 < d.significant.length := List.length_pos_iff.2 (significant_ne_nil h)
  unfold shownMore
  split
  · rename_i hempty
    have hle : d.significant.length ≤ 1 := List.drop_eq_nil_iff.1 (List.isEmpty_iff.1 hempty)
    have hvalue : digitsValue (d.significant.take 1 ++ ['0']) =
        digitsValue d.significant * 10 ^ 1 := by
      rw [List.take_of_length_le hle]
      exact digitsValue_append_zeros _ 1
    have hexp : d.point - 1 - (([ '0' ] : List Char).length : Int) + (1 : Nat) =
        d.point - d.significant.length := by
      simp only [List.length_singleton]
      omega
    rw [hvalue, magnitude_mul_pow, hexp]
  · have hlen : d.point - 1 - ((d.significant.drop 1).length : Int) =
        d.point - d.significant.length := by
      rw [List.length_drop]
      omega
    rw [List.take_append_drop, hlen]

end Decimal

end Stencil.Number
