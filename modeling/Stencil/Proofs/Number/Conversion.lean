import Stencil.Number
import Stencil.Proofs.Number.Closest
set_option autoImplicit false

/-!
# Integers as doubles

The double that an integer is converted to is the nearest one: a larger integer is converted
to no smaller double (`rank_floatOfInt_mono`), and an integer that is not beyond 2⁵³ is the
value of its double (`value_floatOfInt`).  A double whose value is an integer is given by this
integer, up to the sign of zero (`units_magnitude_of_value_eq`, `isNegative_of_value_eq`).
-/

namespace Stencil.Number.Binary64

/-! ## Converted integers -/

theorem magnitude_floatOfInt (n : ℤ) : magnitude (floatOfInt n) = nearest n.natAbs 1 :=
  magnitude_ofMagnitude _ (nearest_le_infinity ..)

theorem isNegative_floatOfInt (n : ℤ) : isNegative (floatOfInt n) = decide (n < 0) :=
  isNegative_ofMagnitude _ (nearest_le_infinity ..)

theorem rank_floatOfInt (n : ℤ) :
    rank (floatOfInt n) = if n < 0 then -(nearest n.natAbs 1 : ℤ) else nearest n.natAbs 1 := by
  rw [rank, magnitude_floatOfInt, isNegative_floatOfInt]
  simp only [decide_eq_true_eq]

/-- A larger integer is not converted to a smaller double. -/
theorem rank_floatOfInt_mono : Monotone fun n : ℤ => rank (floatOfInt n) := by
  intro m n hle
  have hmono {j k : ℕ} (hjk : j ≤ k) : (nearest j 1 : ℤ) ≤ nearest k 1 := by
    exact_mod_cast nearest_le_nearest hjk
  simp only [rank_floatOfInt]
  split
  · split
    · exact neg_le_neg (hmono (by omega))
    · exact (neg_nonpos.2 (Int.natCast_nonneg _)).trans (Int.natCast_nonneg _)
  · rw [if_neg (by omega)]
    exact hmono (by omega)

theorem nearest_ne_zero {n : ℕ} (hn : n ≠ 0) : nearest n 1 ≠ 0 := by
  have hone : 1023 * 2 ^ 52 ≤ nearest n 1 := le_nearest Nat.one_pos (Nat.one_le_iff_ne_zero.2 hn)
  omega

/-- Only zero is converted to a zero. -/
theorem rank_floatOfInt_eq_zero_iff {n : ℤ} : rank (floatOfInt n) = 0 ↔ n = 0 := by
  rw [rank_floatOfInt]
  constructor
  · intro h
    by_contra hn
    have hne := nearest_ne_zero (Int.natAbs_ne_zero.2 hn)
    split at h <;> omega
  · rintro rfl
    decide +kernel

/-- Doubles with the same place in the order are the same, unless they are zeros. -/
theorem eq_of_rank_eq {x y : Float} (h : rank x = rank y) (hne : rank x ≠ 0) : x = y := by
  cases hx : isNegative x <;> cases hy : isNegative y <;>
    simp only [rank, hx, hy, if_true, Bool.false_eq_true, if_false] at h hne
  · exact eq_of_magnitude_eq (hx.trans hy.symm) (Int.natCast_inj.1 h)
  · omega
  · omega
  · exact eq_of_magnitude_eq (hx.trans hy.symm) (Int.natCast_inj.1 (neg_inj.1 h))

/-- An integer that is not beyond 2⁵³ is the value of its double. -/
theorem value_floatOfInt {n : ℤ} (hn : n.natAbs ≤ 2 ^ 53) :
    (floatOfInt n).isFinite = true ∧ value (floatOfInt n) = n := by
  obtain ⟨hfinite, hunits⟩ := units_nearest hn
  have hone : (one : ℚ) ≠ 0 := by exact_mod_cast one_pos.ne'
  have hsize : size (nearest n.natAbs 1) = n.natAbs := by
    rw [size, hunits, Nat.cast_mul, mul_div_cancel_right₀ _ hone]
  constructor
  · rw [isFinite_iff, magnitude_floatOfInt]
    exact hfinite
  · rw [value, isNegative_floatOfInt, magnitude_floatOfInt, hsize, Nat.cast_natAbs]
    simp only [decide_eq_true_eq]
    split
    · rename_i hneg
      rw [abs_of_neg hneg, Int.cast_neg, neg_neg]
    · rename_i hneg
      rw [abs_of_nonneg (Int.not_lt.1 hneg)]

/-! ## Doubles that are integers -/

section

variable {x : Float} {n : ℤ} (h : value x = n)
include h

theorem units_magnitude_of_value_eq : units (magnitude x) = n.natAbs * one := by
  have hone : (one : ℚ) ≠ 0 := by exact_mod_cast one_pos.ne'
  have habs : |value x| = size (magnitude x) := by
    unfold value
    split
    · rw [abs_neg, abs_of_nonneg (size_nonneg _)]
    · rw [abs_of_nonneg (size_nonneg _)]
  rw [h, ← Int.cast_abs, ← Nat.cast_natAbs, size, eq_div_iff hone] at habs
  exact_mod_cast habs.symm

theorem isNegative_of_value_eq (hne : n ≠ 0) : isNegative x = decide (n < 0) := by
  have hnonneg := size_nonneg (magnitude x)
  unfold value at h
  split at h
  · rename_i hneg
    have hle : n ≤ 0 := by
      have : (n : ℚ) ≤ 0 := by linarith
      exact_mod_cast this
    rw [hneg, decide_eq_true (lt_of_le_of_ne hle hne)]
  · rename_i hpos
    have hle : 0 ≤ n := by
      have : (0 : ℚ) ≤ n := by linarith
      exact_mod_cast this
    rw [Bool.not_eq_true] at hpos
    rw [hpos, decide_eq_false (not_lt.2 hle)]

end

end Stencil.Number.Binary64
