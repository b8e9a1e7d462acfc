import Stencil.Number.Shortest
import Stencil.Proofs.Number.Nearest
set_option autoImplicit false

/-!
# Decimals that stand for a double

The double nearest to a decimal depends on the value of the decimal alone: zeros at
the end of the digits make up for a smaller exponent (`Decimal.magnitude_mul_pow`).
The shortest decimal of a double stands for this double
(`Shortest.magnitude_decimal`).
-/

namespace Stencil.Number

/-- A multiple of a power of ten ends with zeros. -/
theorem toDigits_mul_pow {n : Nat} (hn : 0 < n) (k : Nat) :
    Nat.toDigits 10 (n * 10 ^ k) = Nat.toDigits 10 n ++ List.replicate k '0' := by
  induction k with
  | zero => simp
  | succ k ih =>
    have hpos : 0 < n * 10 ^ k := Nat.mul_pos hn (Nat.pow_pos (by decide))
    have happ := Nat.toDigits_append_toDigits (b := 10) (by decide) hpos (d := 0) (by decide)
    have hmul : n * 10 ^ (k + 1) = 10 * (n * 10 ^ k) + 0 := by
      rw [Nat.pow_succ, ← Nat.mul_assoc]
      omega
    rw [hmul, ← happ, ih, Nat.toDigits_zero, List.append_assoc, List.replicate_succ']

namespace Decimal

theorem magnitude_eq (d : Decimal) :
    d.magnitude =
      if d.digits = 0 then 0
      else if 310 < d.point then Binary64.infinityMagnitude
      else if d.point < -330 then 0
      else if 0 ≤ d.exponent then Binary64.nearest (d.digits * 10 ^ d.exponent.toNat) 1
      else Binary64.nearest d.digits (10 ^ (-d.exponent).toNat) := rfl

theorem point_mul_pow {n : Nat} (hn : 0 < n) (k : Nat) (e : Int) :
    point ⟨n * 10 ^ k, e⟩ = point ⟨n, e + k⟩ := by
  unfold point
  simp only [toDigits_mul_pow hn, List.length_append, List.length_replicate]
  omega

/-- Zeros at the end of the digits make up for a smaller exponent. -/
theorem magnitude_mul_pow (n k : Nat) (e : Int) :
    magnitude ⟨n * 10 ^ k, e⟩ = magnitude ⟨n, e + k⟩ := by
  rcases Nat.eq_zero_or_pos n with rfl | hn
  · simp [magnitude]
  have hten : ∀ j, 0 < 10 ^ j := fun j => Nat.pow_pos (by decide)
  have hne : n * 10 ^ k ≠ 0 := Nat.ne_of_gt (Nat.mul_pos hn (hten k))
  have hne' : n ≠ 0 := Nat.ne_of_gt hn
  rw [magnitude_eq, magnitude_eq, point_mul_pow hn]
  simp only [if_neg hne, if_neg hne']
  by_cases he : 0 ≤ e
  · have he' : 0 ≤ e + k := by omega
    have hk : (e + k).toNat = k + e.toNat := by omega
    simp only [if_pos he, if_pos he', hk, Nat.pow_add, Nat.mul_assoc]
  · by_cases he' : 0 ≤ e + k
    · have hk : k = (e + k).toNat + (-e).toNat := by omega
      have hnum : n * 10 ^ k = n * 10 ^ (e + k).toNat * 10 ^ (-e).toNat := by
        rw [Nat.mul_assoc, ← Nat.pow_add, ← hk]
      have hnear := Binary64.nearest_mul_mul (n * 10 ^ (e + k).toNat) 1 (hten (-e).toNat)
      rw [← hnum, Nat.one_mul] at hnear
      simp only [if_neg he, if_pos he', hnear]
    · have hk : (-e).toNat = (-(e + k)).toNat + k := by omega
      simp only [if_neg he, if_neg he', hk, Nat.pow_add]
      rw [Binary64.nearest_mul_mul _ _ (hten _)]

end Decimal

namespace Shortest

open Binary64

theorem scale_le {m : Nat} (h : m < infinityMagnitude) : scale m ≤ 2045 := by
  have hm : m < 2047 * 2 ^ 52 := h
  rw [scale_eq]
  omega

theorem units_lt {m e : Nat} (he : scale m ≤ e) : units m < 2 ^ 53 * 2 ^ e := by
  have hdigits : m - scale m * 2 ^ 52 < 2 ^ 53 := by
    rw [scale_eq]
    omega
  have hlow : units m < 2 ^ 53 * 2 ^ scale m :=
    (Nat.mul_lt_mul_right (Nat.two_pow_pos _)).2 hdigits
  have hhigh : 2 ^ scale m ≤ 2 ^ e := Nat.pow_le_pow_right (by decide) he
  exact Nat.lt_of_lt_of_le hlow (Nat.mul_le_mul_left _ hhigh)

theorem units_pos {m : Nat} (h : 0 < m) : 0 < units m := by
  have hdigits : 0 < m - scale m * 2 ^ 52 := by
    rw [scale_eq]
    omega
  exact Nat.mul_pos hdigits (Nat.two_pow_pos _)

/-- The number of decimal digits, from a power of ten on either side. -/
theorem length_toDigits_between {a b n : Nat} (ha : 0 < a) (hb : 0 < b) (hlow : 10 ^ a ≤ n)
    (hhigh : n < 10 ^ b) : a < (Nat.toDigits 10 n).length ∧ (Nat.toDigits 10 n).length ≤ b := by
  refine ⟨Nat.not_le.1 ?_, ?_⟩
  · rw [Nat.length_toDigits_le_iff (by decide) ha]
    exact Nat.not_lt.2 hlow
  · rw [Nat.length_toDigits_le_iff (by decide) hb]
    exact hhigh

theorem point_exact {m : Nat} (hpos : 0 < m) (h : m < infinityMagnitude) :
    -330 ≤ (exact m).point ∧ (exact m).point ≤ 310 := by
  obtain ⟨five, hfive, hpositive⟩ : ∃ five, five = Nat.pow 5 1074 ∧ 0 < five :=
    ⟨_, rfl, by decide +kernel⟩
  have hlow : 10 ^ 743 ≤ units m * five := by
    have hten : 10 ^ 743 ≤ five := by
      rw [hfive]
      decide +kernel
    exact Nat.le_trans hten (Nat.le_mul_of_pos_left _ (units_pos hpos))
  have hhigh : units m * five < 10 ^ 1384 := by
    have hten : 2 ^ 53 * 2 ^ 2045 * five ≤ 10 ^ 1384 := by
      rw [hfive]
      decide +kernel
    exact Nat.lt_of_lt_of_le (Nat.mul_lt_mul_of_pos_right (units_lt (scale_le h)) hpositive) hten
  obtain ⟨hmore, hless⟩ := length_toDigits_between (by decide) (by decide) hlow hhigh
  unfold Decimal.point exact
  dsimp only
  rw [← hfive]
  omega

/-- The exact value of a double stands for it. -/
theorem magnitude_exact {m : Nat} (hpos : 0 < m) (h : m < infinityMagnitude) :
    (exact m).magnitude = m := by
  obtain ⟨hlow, hhigh⟩ := point_exact hpos h
  have hne : (exact m).digits ≠ 0 :=
    Nat.ne_of_gt (Nat.mul_pos (units_pos hpos) (by decide +kernel))
  have hten : 10 ^ 1074 = one * Nat.pow 5 1074 := by decide +kernel
  have hexp : ¬0 ≤ (exact m).exponent := show ¬(0 : Int) ≤ -1074 by decide
  have hdigits : (exact m).digits = units m * Nat.pow 5 1074 := rfl
  have hplaces : (-(exact m).exponent).toNat = 1074 := rfl
  rw [Decimal.magnitude_eq, if_neg hne, if_neg (by omega), if_neg (by omega), if_neg hexp, hdigits,
    hplaces]
  calc nearest (units m * Nat.pow 5 1074) (10 ^ 1074)
    _ = nearest (units m * Nat.pow 5 1074) (one * Nat.pow 5 1074) := by rw [hten]
    _ = nearest (units m) one := nearest_mul_mul _ _ (by decide +kernel)
    _ = m := nearest_units h

theorem magnitude_of_onGrid? {m : Nat} {place : Int} {d : Decimal}
    (h : onGrid? m place = some d) : d.magnitude = m := by
  have hf := List.find?_some h
  exact eq_of_beq hf

/-- The shortest decimal of a double stands for this double. -/
theorem magnitude_decimal {m : Nat} (h : m < infinityMagnitude) : (decimal m).magnitude = m := by
  unfold decimal
  by_cases h0 : m = 0
  · rw [if_pos h0, h0]
    rfl
  · rw [if_neg h0]
    dsimp only
    cases hd : (List.range 17).findSome? fun (n : Nat) =>
        onGrid? m (leadingPlace (units m) one - n) with
    | none => exact magnitude_exact (Nat.pos_of_ne_zero h0) h
    | some d =>
      obtain ⟨n, -, hn⟩ := List.exists_of_findSome?_eq_some hd
      exact magnitude_of_onGrid? hn

end Shortest

end Stencil.Number
