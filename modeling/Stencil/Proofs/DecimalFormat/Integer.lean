import Stencil.Proofs.DecimalFormat.Pattern
import Stencil.Proofs.DecimalFormat.Shown
import Stencil.Proofs.Number.Numeral
set_option autoImplicit false

/-!
# Integers shown by a pattern

An integer is shown with all its digits, those of its product with the scale, and the
product fits in a word of 128 bits (`apply_integer`).
-/

namespace Stencil.DecimalFormat

open Number

/-- The decimal digits of a number; zero has none. -/
def significantDigits (n : Nat) : List Char := if n = 0 then [] else Nat.toDigits 10 n

/-- The digits of a number behind as many zeros as the format requires digits. -/
def paddedDigits (f : DecimalFormat) (n : Nat) : List Char :=
  List.replicate (f.minInteger - (significantDigits n).length) '0' ++ significantDigits n

/-- The digits of a positive number do not begin with a zero. -/
theorem head?_toDigits {n : Nat} (hn : n ≠ 0) : (Nat.toDigits 10 n).head? ≠ some '0' := by
  induction n using Nat.strongRecOn with
  | ind n ih =>
    by_cases hlt : n < 10
    · rw [Nat.toDigits_of_lt_base hlt]
      intro hzero
      apply hn
      rw [← Nat.ofDigitChars_ten_toDigits (n := n), Nat.toDigits_of_lt_base hlt,
        Option.some.inj hzero]
      rfl
    · rw [Nat.toDigits_of_base_le (by decide) (Nat.not_lt.1 hlt),
        List.head?_append_of_ne_nil _ Nat.toDigits_ne_nil]
      exact ih (n / 10) (by omega) (by omega)

theorem dropWhile_toDigits (n : Nat) :
    (Nat.toDigits 10 n).dropWhile (· == '0') = significantDigits n := by
  unfold significantDigits
  split
  · rename_i hn
    rw [hn]
    rfl
  · rename_i hn
    have hhead := head?_toDigits hn
    cases hdigits : Nat.toDigits 10 n with
    | nil => rfl
    | cons c cs =>
      rw [hdigits] at hhead
      exact List.dropWhile_cons_of_neg (by simpa using hhead)

theorem integerDigits_toDigits (f : DecimalFormat) (n : Nat) :
    f.integerDigits (Nat.toDigits 10 n) = f.paddedDigits n := by
  rw [integerDigits, dropWhile_toDigits]
  rfl

/-- The integer times the scale, in a word of 128 bits. -/
def scaledWord (f : DecimalFormat) (n : Int64) : BitVec 128 :=
  n.toBitVec.signExtend 128 * BitVec.ofNat 128 f.scale

theorem toInt_signExtend (n : Int64) : (n.toBitVec.signExtend 128).toInt = n.toInt :=
  BitVec.toInt_signExtend_of_le (by decide)

/-- The product of an integer with a scale is far from the ends of a word. -/
theorem Proper.scaled_bounds {f : DecimalFormat} (h : f.Proper) (n : Int64) :
    -(2 ^ 127) < n.toInt * f.scale ∧ n.toInt * f.scale < 2 ^ 127 := by
  have hlow : -(2 ^ 63) ≤ n.toInt := Int64.le_toInt n
  have hhigh : n.toInt < 2 ^ 63 := Int64.toInt_lt n
  have hscale := h.scale_mem
  simp only [List.mem_cons, List.not_mem_nil, or_false] at hscale
  rcases hscale with hscale | hscale | hscale <;> rw [hscale] <;> omega

theorem toNat_abs_eq (x : BitVec 128) : x.abs.toNat = x.toInt.natAbs := by
  have hlt := x.isLt
  rw [BitVec.toNat_abs, BitVec.toInt_eq_msb_cond]
  split <;> omega

/-- The product in the word is the product. -/
theorem Proper.scaledWord_exact {f : DecimalFormat} (h : f.Proper) (n : Int64) :
    (n.toBitVec.signExtend 128).smulOverflow (BitVec.ofNat 128 f.scale) = false ∧
      (f.scaledWord n).toInt = n.toInt * f.scale ∧
      (f.scaledWord n).abs.toNat = (n.toInt * f.scale).natAbs := by
  have hscale : (BitVec.ofNat 128 f.scale).toInt = f.scale := by
    have := h.scale_mem
    simp only [List.mem_cons, List.not_mem_nil, or_false] at this
    rcases this with hscale | hscale | hscale <;> rw [hscale] <;> rfl
  obtain ⟨hlow, hhigh⟩ := h.scaled_bounds n
  have hfits : (n.toBitVec.signExtend 128).smulOverflow (BitVec.ofNat 128 f.scale) = false := by
    rw [BitVec.smulOverflow, toInt_signExtend, hscale, Bool.or_eq_false_iff,
      decide_eq_false_iff_not, decide_eq_false_iff_not]
    omega
  have hexact : (f.scaledWord n).toInt = n.toInt * f.scale := by
    rw [scaledWord, BitVec.toInt_mul_of_not_smulOverflow (by simp [hfits]), toInt_signExtend,
      hscale]
  exact ⟨hfits, hexact, by rw [toNat_abs_eq, hexact]⟩

/-- An integer is shown with the sign and all the digits of its product with the scale, in front of
the zeros that the fraction requires. -/
theorem apply_integer {pattern : String} {f : DecimalFormat} (h : Describes pattern.toList f)
    (n : Int64) :
    ∃ s : Shown f.group,
      apply pattern (.integer n) = .ok (String.ofList (f.before ++ s.text ++ f.after)) ∧
      (s.negative = true ↔ n < 0) ∧
      s.integer =
        (if f.paddedDigits (n.toInt * f.scale).natAbs = [] ∧ f.minFraction = 0 then ['0']
          else f.paddedDigits (n.toInt * f.scale).natAbs) ∧
      s.fraction = List.replicate f.minFraction '0' ∧
      (n.toBitVec.signExtend 128).smulOverflow (BitVec.ofNat 128 f.scale) = false ∧
      (f.scaledWord n).abs.toNat = (n.toInt * f.scale).natAbs := by
  obtain ⟨k, hk⟩ : ∃ k, k = (n.toInt * f.scale).natAbs := ⟨_, rfl⟩
  have hproper := h.proper
  obtain ⟨hfits, -, habs⟩ := hproper.scaledWord_exact n
  have hnil : ∀ c ∈ ([] : List Char), c.isDigit = true := nofun
  have hshown := layout_eq_shown hproper.group_pos (isDigits_toDigits k).digits
    hnil (decide (n.toInt < 0))
  have hlayout : f.showNumber (.integer n) = f.layout (n.toInt < 0) (Nat.toDigits 10 k) [] := by
    rw [hk, Int.natAbs_mul, Int.natAbs_natCast]
    rfl
  rw [← hk] at habs ⊢
  refine ⟨_, (h.apply_eq _).trans (by rw [hlayout, hshown]), ?_, ?_, ?_, hfits, habs⟩
  · rw [negative_shown_iff, decide_eq_true_eq, fractionValue_nil, add_zero, digitsValue_toDigits,
      Nat.cast_ne_zero, Int64.lt_iff_toInt_lt]
    refine and_iff_left_of_imp fun hneg => ?_
    rw [hk, Int.natAbs_ne_zero]
    exact Int.mul_ne_zero hneg.ne (Int.natCast_ne_zero.2 hproper.scale_pos.ne')
  · rw [integer_shown, wholeDigits, integerDigits_toDigits, fractionDigits_nil]
    simp [List.isEmpty_iff]
  · exact fractionDigits_nil f

/-- The least integer in per mille. -/
theorem apply_integer_least :
    Describes "#,##0.0‰".toList ⟨[], ['‰'], 1, some 3, 1, 1, 1000⟩ ∧
      ∃ s : Shown (some 3),
        apply "#,##0.0‰" (.integer Int64.minValue) = .ok (String.ofList (s.text ++ ['‰'])) ∧
        s.negative = true ∧ s.integer = "9223372036854775808000".toList ∧ s.fraction = ['0'] := by
  have h : Describes "#,##0.0‰".toList ⟨[], ['‰'], 1, some 3, 1, 1, 1000⟩ :=
    ofPattern?_eq_some_iff.1 (by decide +kernel)
  obtain ⟨s, happly, hnegative, hinteger, hfraction, -⟩ := apply_integer h Int64.minValue
  exact ⟨h, s, happly, hnegative.2 (by decide), hinteger.trans (by decide +kernel), hfraction⟩

end Stencil.DecimalFormat
