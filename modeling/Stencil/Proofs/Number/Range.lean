import Stencil.Proofs.Number.Bits
import Stencil.Proofs.Number.Magnitude
set_option autoImplicit false

/-!
# The range of the doubles

The nearest double is infinite from half a step beyond the largest finite double on
(`Binary64.nearest_eq_infinity_iff`).  Decimals that are decided by their decimal point
are decided as their value demands (`Decimal.magnitude_eq_nearest`).
-/

namespace Stencil.Number

/-- Halfway above an odd number it is rounded up. -/
theorem succ_le_roundHalfEven_iff {n num den : Nat} (hden : 0 < den) (hodd : n % 2 = 1) :
    n + 1 ≤ roundHalfEven num den ↔ (2 * n + 1) * den ≤ 2 * num := by
  have hmod := Nat.mod_lt num hden
  have hdiv : den * (num / den) + num % den = num := Nat.div_add_mod num den
  rcases Nat.lt_trichotomy (num / den) n with hlt | heq | hgt
  · have hle := roundHalfEven_le num den
    have hmul : den * (num / den + 1) ≤ den * n := Nat.mul_le_mul_left _ hlt
    rw [Nat.mul_add, Nat.mul_one] at hmul
    rw [Nat.add_mul, Nat.mul_assoc, Nat.mul_comm n]
    omega
  · have hmul : (2 * n + 1) * den = 2 * (den * n) + den := by ring
    rw [hmul]
    unfold roundHalfEven
    rw [heq] at hdiv ⊢
    split
    · omega
    · split <;> omega
  · have hle := le_roundHalfEven num den
    have hmul : den * (n + 1) ≤ den * (num / den) := Nat.mul_le_mul_left _ hgt
    rw [Nat.mul_add, Nat.mul_one] at hmul
    rw [Nat.add_mul, Nat.mul_assoc, Nat.mul_comm n]
    omega

namespace Binary64

/-- The least value of which infinity is the nearest double: half a step beyond the largest finite
double. -/
def infinityBound : Nat := (2 ^ 54 - 1) * Nat.pow 2 970

theorem nearest_eq (num den : Nat) :
    nearest num den = min infinityMagnitude (((num * one / den).log2 - 52) * 2 ^ 52 +
      roundHalfEven (num * one) (den * 2 ^ ((num * one / den).log2 - 52))) := rfl

theorem nearest_le_infinity (num den : Nat) : nearest num den ≤ infinityMagnitude :=
  Nat.min_le_left ..

theorem infinityBound_mul_one {e : Nat} (he : e = 2044) :
    infinityBound * one = (2 ^ 54 - 1) * Nat.pow 2 e := by
  subst he
  decide +kernel

section

variable {num den q : Nat} (hq : q = num * one / den)
include hq

/-- The first binary digits of a value, as many as its scale leaves in front of the point. -/
theorem div_scale_eq (s : Nat) : num * one / (den * 2 ^ s) = q / 2 ^ s := by
  rw [hq, Nat.div_div_eq_div_mul]

/-- Above the scales of the finite doubles. -/
theorem nearest_eq_infinity_of_log2 (h : 2098 ≤ q.log2) : nearest num den = infinityMagnitude := by
  have hne : q ≠ 0 := by
    rintro rfl
    exact absurd h (by decide)
  have hround : 2 ^ 52 ≤ roundHalfEven (num * one) (den * 2 ^ (q.log2 - 52)) := by
    refine Nat.le_trans ?_ (le_roundHalfEven _ _)
    rw [div_scale_eq hq, Nat.le_div_iff_mul_le (Nat.two_pow_pos _), ← Nat.pow_add]
    exact (Nat.le_log2 hne).1 (by omega)
  have hinf : infinityMagnitude = 2047 * 2 ^ 52 := rfl
  rw [nearest_eq, ← hq]
  omega

/-- Below the scale of the largest doubles. -/
theorem nearest_lt_infinity_of_log2 (h : q.log2 < 2097) : nearest num den < infinityMagnitude := by
  have hround : roundHalfEven (num * one) (den * 2 ^ (q.log2 - 52)) ≤ 2 ^ 53 := by
    refine Nat.le_trans (roundHalfEven_le _ _) ?_
    rw [div_scale_eq hq, Nat.succ_le_iff, Nat.div_lt_iff_lt_mul (Nat.two_pow_pos _), ← Nat.pow_add]
    exact Nat.lt_of_lt_of_le Nat.lt_log2_self (Nat.pow_le_pow_right (by decide) (by omega))
  have hinf : infinityMagnitude = 2047 * 2 ^ 52 := rfl
  rw [nearest_eq, ← hq]
  omega

/-- On the scale of the largest doubles the last step is rounded up from its middle on. -/
theorem nearest_eq_infinity_iff_of_log2 (hden : 0 < den) {e : Nat} (h : q.log2 - 52 = e + 1)
    (he : e = 2044) :
    nearest num den = infinityMagnitude ↔ (2 ^ 54 - 1) * (den * 2 ^ e) ≤ num * one := by
  have hround : 2 ^ 53 ≤ roundHalfEven (num * one) (den * 2 ^ (e + 1)) ↔
      (2 * (2 ^ 53 - 1) + 1) * (den * 2 ^ (e + 1)) ≤ 2 * (num * one) :=
    succ_le_roundHalfEven_iff (Nat.mul_pos hden (Nat.two_pow_pos _)) (by decide)
  have hdouble : den * 2 ^ (e + 1) = 2 * (den * 2 ^ e) := by
    rw [Nat.pow_succ]
    ring
  have hstep : (e + 1) * 2 ^ 52 = 2045 * 2 ^ 52 := by rw [he]
  have hinf : infinityMagnitude = 2047 * 2 ^ 52 := rfl
  clear he
  rw [nearest_eq, ← hq, h, hstep, hinf]
  rw [hdouble] at hround ⊢
  omega

end

/-- The bound in units, where `e` binary digits lie behind the first 54 of them. -/
theorem infinityBound_mul_le_iff {num den e : Nat} (he : e = 2044) :
    infinityBound * den ≤ num ↔ (2 ^ 54 - 1) * (den * 2 ^ e) ≤ num * one := by
  rw [← Nat.mul_le_mul_right_iff one_pos, Nat.mul_right_comm, infinityBound_mul_one he, Nat.pow_eq,
    Nat.mul_assoc, Nat.mul_comm (2 ^ e)]

/-- From half a step beyond the largest finite double on, infinity is the nearest. -/
theorem nearest_eq_infinity_iff {num den : Nat} (hden : 0 < den) :
    nearest num den = infinityMagnitude ↔ infinityBound * den ≤ num := by
  obtain ⟨q, hq⟩ : ∃ q, q = num * one / den := ⟨_, rfl⟩
  obtain ⟨e, he⟩ : ∃ e, e = 2044 := ⟨_, rfl⟩
  have hle : den * q ≤ num * one := hq ▸ Nat.mul_div_le ..
  have hlt : num * one < den * (q + 1) := hq ▸ Nat.lt_mul_div_succ _ hden
  rw [infinityBound_mul_le_iff he]
  rcases Nat.lt_trichotomy (q.log2 - 52) (e + 1) with hlog | hlog | hlog
  · have hsmall := nearest_lt_infinity_of_log2 hq (by omega)
    have hq' : q + 1 ≤ 2 ^ 53 * 2 ^ e := by
      rw [← Nat.pow_add]
      exact Nat.lt_of_lt_of_le Nat.lt_log2_self (Nat.pow_le_pow_right (by decide) (by omega))
    refine iff_of_false hsmall.ne (Nat.not_le.2 (Nat.lt_of_lt_of_le hlt ?_))
    calc den * (q + 1) ≤ den * (2 ^ 53 * 2 ^ e) := Nat.mul_le_mul_left _ hq'
      _ = 2 ^ 53 * (den * 2 ^ e) := by ring
      _ ≤ (2 ^ 54 - 1) * (den * 2 ^ e) := Nat.mul_le_mul_right _ (by decide)
  · exact nearest_eq_infinity_iff_of_log2 hq hden hlog he
  · have hlarge := nearest_eq_infinity_of_log2 hq (by omega)
    have hne : q ≠ 0 := by
      rintro rfl
      exact absurd hlog (Nat.not_lt_zero _)
    have hq' : 2 ^ 54 * 2 ^ e ≤ q := by
      rw [← Nat.pow_add]
      exact (Nat.le_log2 hne).1 (by omega)
    refine iff_of_true hlarge ?_
    calc (2 ^ 54 - 1) * (den * 2 ^ e) ≤ 2 ^ 54 * (den * 2 ^ e) :=
          Nat.mul_le_mul_right _ (by decide)
      _ = den * (2 ^ 54 * 2 ^ e) := by ring
      _ ≤ den * q := Nat.mul_le_mul_left _ hq'
      _ ≤ num * one := hle

theorem infinityBound_le_ten_pow {k : Nat} (hk : k = 310) : infinityBound ≤ 10 ^ k := by
  subst hk
  decide +kernel

theorem one_lt_ten_pow {k : Nat} (hk : k = 331) : 2 * one < 10 ^ k := by
  subst hk
  decide +kernel

/-- Less than half a unit is rounded to zero. -/
theorem nearest_eq_zero {num den : Nat} (h : 2 * (num * one) < den) : nearest num den = 0 := by
  have hq : num * one / den = 0 := Nat.div_eq_of_lt (by omega)
  have hscale : (num * one / den).log2 - 52 = 0 := by
    rw [hq]
    rfl
  have hround : roundHalfEven (num * one) den = 0 := by
    rw [roundHalfEven, Nat.mod_eq_of_lt (by omega), if_pos h, hq]
  rw [nearest_eq, hscale, Nat.pow_zero, Nat.mul_one, hround]
  exact Nat.min_zero _

end Binary64

namespace Decimal

theorem lt_ten_pow_length (n : Nat) : n < 10 ^ (Nat.toDigits 10 n).length := by
  have hpos : 0 < (Nat.toDigits 10 n).length := List.length_pos_iff.2 Nat.toDigits_ne_nil
  exact (Nat.length_toDigits_le_iff (by decide) hpos).1 (Nat.le_refl _)

theorem ten_pow_length_le {n : Nat} (hn : n ≠ 0) : 10 ^ ((Nat.toDigits 10 n).length - 1) ≤ n := by
  rcases Nat.eq_zero_or_pos ((Nat.toDigits 10 n).length - 1) with hzero | hpos
  · rw [hzero]
    exact Nat.pos_of_ne_zero hn
  · refine Nat.not_lt.1 fun hlt => ?_
    have := (Nat.length_toDigits_le_iff (by decide) hpos).2 hlt
    omega

/-- A decimal is the quotient of its numerator and its denominator. -/
def numerator (d : Decimal) : Nat := d.digits * 10 ^ d.exponent.toNat

/-- See `numerator`. -/
def denominator (d : Decimal) : Nat := 10 ^ (-d.exponent).toNat

theorem denominator_pos (d : Decimal) : 0 < d.denominator := Nat.pow_pos (by decide)

/-- With the decimal point that far to the right the value is beyond the doubles. -/
theorem infinityBound_le_of_point {d : Decimal} (hne : d.digits ≠ 0) (h : 310 < d.point) :
    Binary64.infinityBound * d.denominator ≤ d.numerator := by
  obtain ⟨len, hlen⟩ : ∃ len, len = (Nat.toDigits 10 d.digits).length := ⟨_, rfl⟩
  obtain ⟨k, hk⟩ : ∃ k, k = 310 := ⟨_, rfl⟩
  have hlow : 10 ^ (len - 1) ≤ d.digits := hlen ▸ ten_pow_length_le hne
  have hlength : 0 < len := hlen ▸ List.length_pos_iff.2 Nat.toDigits_ne_nil
  have hpoint : d.point = len + d.exponent := hlen ▸ rfl
  calc Binary64.infinityBound * 10 ^ (-d.exponent).toNat
    _ ≤ 10 ^ k * 10 ^ (-d.exponent).toNat :=
        Nat.mul_le_mul_right _ (Binary64.infinityBound_le_ten_pow hk)
    _ = 10 ^ (k + (-d.exponent).toNat) := (Nat.pow_add ..).symm
    _ ≤ 10 ^ (len - 1 + d.exponent.toNat) := Nat.pow_le_pow_right (by decide) (by omega)
    _ = 10 ^ (len - 1) * 10 ^ d.exponent.toNat := Nat.pow_add ..
    _ ≤ d.digits * 10 ^ d.exponent.toNat := Nat.mul_le_mul_right _ hlow

/-- With the decimal point that far to the left the value is less than half a unit. -/
theorem numerator_lt_of_point {d : Decimal} (h : d.point < -330) :
    2 * (d.numerator * Binary64.one) < d.denominator := by
  obtain ⟨len, hlen⟩ : ∃ len, len = (Nat.toDigits 10 d.digits).length := ⟨_, rfl⟩
  obtain ⟨k, hk⟩ : ∃ k, k = 331 := ⟨_, rfl⟩
  have hhigh : d.digits < 10 ^ len := hlen ▸ lt_ten_pow_length d.digits
  have hpoint : d.point = len + d.exponent := hlen ▸ rfl
  have hexponent : d.exponent.toNat = 0 := by omega
  rw [numerator, hexponent, Nat.pow_zero, Nat.mul_one]
  calc 2 * (d.digits * Binary64.one) = d.digits * (2 * Binary64.one) := by ring
    _ < 10 ^ len * 10 ^ k := Nat.mul_lt_mul'' hhigh (Binary64.one_lt_ten_pow hk)
    _ = 10 ^ (len + k) := (Nat.pow_add ..).symm
    _ ≤ 10 ^ (-d.exponent).toNat := Nat.pow_le_pow_right (by decide) (by omega)

/-- The double nearest to a decimal is nearest to its value: where the decimal point decides, it
decides the same. -/
theorem magnitude_eq_nearest (d : Decimal) :
    d.magnitude = Binary64.nearest d.numerator d.denominator := by
  rw [magnitude_eq]
  split
  · rename_i hzero
    have hnumerator : d.numerator = 0 := by rw [numerator, hzero, Nat.zero_mul]
    rw [hnumerator]
    exact (Binary64.nearest_eq_zero (by simpa using d.denominator_pos)).symm
  rename_i hne
  split
  · rename_i hlarge
    exact ((Binary64.nearest_eq_infinity_iff d.denominator_pos).2
      (infinityBound_le_of_point hne hlarge)).symm
  split
  · rename_i hsmall
    exact (Binary64.nearest_eq_zero (numerator_lt_of_point hsmall)).symm
  split
  · rename_i hexponent
    have hneg : (-d.exponent).toNat = 0 := by omega
    rw [numerator, denominator, hneg, Nat.pow_zero]
  · rename_i hexponent
    have hneg : d.exponent.toNat = 0 := by omega
    rw [numerator, denominator, hneg, Nat.pow_zero, Nat.mul_one]

theorem magnitude_le (d : Decimal) : d.magnitude ≤ Binary64.infinityMagnitude := by
  rw [magnitude_eq_nearest]
  exact Binary64.nearest_le_infinity ..

/-- The double nearest to a decimal is finite when the value is below the bound. -/
theorem isFinite_toFloat_iff (negative : Bool) (d : Decimal) :
    (d.toFloat negative).isFinite = true ↔
      d.numerator < Binary64.infinityBound * d.denominator := by
  rw [toFloat, Binary64.isFinite_ofMagnitude negative d.magnitude_le, magnitude_eq_nearest,
    ← Nat.not_le]
  exact not_congr (Binary64.nearest_eq_infinity_iff d.denominator_pos)

end Decimal

end Stencil.Number
