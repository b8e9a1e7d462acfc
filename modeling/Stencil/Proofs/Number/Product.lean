import Stencil.Proofs.Number.Mantissa
import Stencil.Proofs.Number.Range
set_option autoImplicit false

/-!
# Products of doubles

The product of two finite doubles is the double nearest to the product of their values
(`hasBits_mul`), and infinite where it is not finite (`isInf_mul`).
-/

namespace Stencil.Number.Binary64

open Float.Model.UnpackedFloat

/-! ## Products -/

theorem log2_mul_two_pow {n : Nat} (hn : 0 < n) (k : Nat) : (n * 2 ^ k).log2 = n.log2 + k := by
  induction k with
  | zero => rw [Nat.pow_zero, Nat.mul_one, Nat.add_zero]
  | succ k ih =>
    have hne : n * 2 ^ k ≠ 0 := Nat.ne_of_gt (Nat.mul_pos hn (Nat.two_pow_pos k))
    rw [Nat.pow_succ, ← Nat.mul_assoc, Nat.log2_eq_log_two, Nat.log_mul_base (by decide) hne,
      ← Nat.log2_eq_log_two, ih, Nat.add_assoc]

theorem log2_div_two_pow (n k : Nat) : (n / 2 ^ k).log2 = n.log2 - k := by
  rw [Nat.log2_eq_log_two, Nat.log2_eq_log_two, Nat.log_div_base_pow]

theorem one_eq {k : Nat} (hk : k = 1074) : one = 2 ^ k := by
  subst hk
  decide +kernel

theorem nearest_parts {m₁ t₁ m₂ t₂ s : Nat} (hm : 0 < m₁ * m₂)
    (hs : s = (m₁ * m₂).log2 + (t₁ + t₂) - 1074 - 52) (hle : t₁ + t₂ ≤ s + 1074) :
    nearest (m₁ * 2 ^ t₁ * (m₂ * 2 ^ t₂)) (one * one) =
      min infinityMagnitude
        (s * 2 ^ 52 + roundHalfEven (m₁ * m₂) (2 ^ (s + 1074 - (t₁ + t₂)))) := by
  obtain ⟨k, hk⟩ : ∃ k, k = 1074 := ⟨_, rfl⟩
  have hone : one = 2 ^ k := one_eq hk
  have hnum : m₁ * 2 ^ t₁ * (m₂ * 2 ^ t₂) = m₁ * m₂ * 2 ^ (t₁ + t₂) := by
    rw [Nat.pow_add]
    ring
  have hlog : (m₁ * m₂ * 2 ^ (t₁ + t₂) * one / (one * one)).log2 - 52 = s := by
    rw [Nat.mul_div_mul_right _ _ one_pos, hone, log2_div_two_pow, log2_mul_two_pow hm, hs, hk]
  have hround : roundHalfEven (m₁ * m₂ * 2 ^ (t₁ + t₂) * one) (one * one * 2 ^ s) =
      roundHalfEven (m₁ * m₂) (2 ^ (s + k - (t₁ + t₂))) := by
    have hden : one * one * 2 ^ s = 2 ^ (s + k - (t₁ + t₂)) * 2 ^ (t₁ + t₂) * one := by
      have hexp : s + k - (t₁ + t₂) + (t₁ + t₂) = s + k := by omega
      rw [← Nat.pow_add, hexp, Nat.pow_add, hone]
      ring
    rw [hden, roundHalfEven_mul_mul _ _ one_pos, roundHalfEven_mul_mul _ _ (Nat.two_pow_pos _)]
  unfold nearest
  simp only [Nat.pow_eq]
  rw [hnum, hlog, hround, hk]

theorem nearest_zero : nearest 0 (one * one) = 0 := by
  refine nearest_eq_zero ?_
  rw [Nat.zero_mul]
  exact Nat.mul_pos one_pos one_pos

/-- The exponent of a product of mantissas is not above the one that it is rounded to. -/
theorem add_le_scale_mul {m₁ t₁ m₂ t₂ : Nat} (hm : 0 < m₁ * m₂) (h₁ : t₁ = 0 ∨ 2 ^ 52 ≤ m₁)
    (h₂ : t₂ = 0 ∨ 2 ^ 52 ≤ m₂) :
    t₁ + t₂ ≤ (m₁ * m₂).log2 + (t₁ + t₂) - 1074 - 52 + 1074 := by
  have hne : m₁ * m₂ ≠ 0 := Nat.ne_of_gt hm
  have hlong : t₁ + t₂ = 0 ∨ 2 ^ 52 ≤ m₁ * m₂ := by
    rcases h₁ with rfl | h₁
    · rcases h₂ with rfl | h₂
      · exact .inl rfl
      · exact .inr (Nat.le_trans h₂ (Nat.le_mul_of_pos_left _ (Nat.pos_of_mul_pos_right hm)))
    · exact .inr (Nat.le_trans h₁ (Nat.le_mul_of_pos_right _ (Nat.pos_of_mul_pos_left hm)))
  rw [← Nat.le_log2 hne] at hlong
  omega

/-- A mantissa that is rounded to a scale above the least keeps all its digits. -/
theorem normal_roundHalfEven {m k s : Nat} (hm : 0 < m) (hk : s = 0 ∨ m.log2 = k + 52) :
    s = 0 ∨ 2 ^ 52 ≤ roundHalfEven m (2 ^ k) := by
  refine hk.imp_right fun hlog => Nat.le_trans ?_ (le_roundHalfEven _ _)
  rw [Nat.le_div_iff_mul_le (Nat.two_pow_pos _), ← Nat.pow_add, ← Nat.le_log2 (Nat.ne_of_gt hm)]
  omega

theorem hasBits_pack_mul (s : Sign) {magnitude₁ magnitude₂ m₁ t₁ m₂ t₂ : Nat}
    (h₁ : HasParts magnitude₁ m₁ t₁) (h₂ : HasParts magnitude₂ m₂ t₂) :
    HasBits ⟨.pack (roundWithAccuracy format s (m₁ * m₂) (t₁ - 1074 + (t₂ - 1074)) .exact)⟩ s
      (nearest (units magnitude₁ * units magnitude₂) (one * one)) := by
  have hm : 0 < m₁ * m₂ := Nat.mul_pos h₁.mantissa_pos h₂.mantissa_pos
  obtain ⟨scale, hscale⟩ : ∃ scale, scale = (m₁ * m₂).log2 + (t₁ + t₂) - 1074 - 52 := ⟨_, rfl⟩
  have hle : t₁ + t₂ ≤ scale + 1074 := hscale ▸ add_le_scale_mul hm h₁.normal h₂.normal
  obtain ⟨k, hk⟩ : ∃ k, k = scale + 1074 - (t₁ + t₂) := ⟨_, rfl⟩
  obtain ⟨r, hr⟩ : ∃ r, r = roundHalfEven (m₁ * m₂) (2 ^ k) := ⟨_, rfl⟩
  have hnormal : scale = 0 ∨ 2 ^ 52 ≤ r := hr ▸ normal_roundHalfEven hm (by omega)
  have hcarry : r ≤ 2 ^ 53 := hr ▸ roundHalfEven_le_carry (by omega)
  have hexp : ((scale : Int) - 1074 - (t₁ - 1074 + (t₂ - 1074))).toNat = k := by omega
  rw [h₁.units_eq, h₂.units_eq, nearest_parts hm hscale hle, ← hk, ← hr,
    roundWithAccuracy_exact s (t := scale - 1074) (r := r) (by omega) (by omega) (by rw [hexp, hr])]
  split
  · rename_i hzero
    have : scale = 0 := by omega
    rw [this, hzero]
    exact hasBits_pack_zero s
  split
  · rename_i hfull
    have hnext : (scale : Int) - 1074 + 1 = (scale + 1 : Nat) - 1074 := by omega
    have hsteps : (scale + 1) * 2 ^ 52 + 2 ^ 52 = scale * 2 ^ 52 + 2 ^ 53 := by omega
    simp only [hnext]
    rw [hfull, ← hsteps]
    exact hasBits_pack s _ (by decide) (.inr (Nat.le_refl _))
  · rename_i hpos hne
    exact hasBits_pack s (Nat.pos_of_ne_zero hpos) (by omega) hnormal

/-- The product of two finite doubles is the double nearest to the product of their values. -/
theorem hasBits_mul {x y : Float} (hx : x.isFinite = true) (hy : y.isFinite = true) :
    HasBits (x * y) (sign x * sign y)
      (nearest (units (magnitude x) * units (magnitude y)) (one * one)) := by
  have hmul : x * y = ⟨.pack (mul format x.toModel.unpack y.toModel.unpack)⟩ := rfl
  have hzero : units 0 = 0 := rfl
  rw [hmul]
  rcases unpack_cases hx with ⟨hs₁, h₁⟩ | ⟨m₁, t₁, h₁, hs₁⟩ <;>
    rcases unpack_cases hy with ⟨hs₂, h₂⟩ | ⟨m₂, t₂, h₂, hs₂⟩ <;> rw [hs₁, hs₂]
  · rw [h₁, hzero, Nat.zero_mul, nearest_zero]
    exact hasBits_pack_zero _
  · rw [h₁, hzero, Nat.zero_mul, nearest_zero]
    exact hasBits_pack_zero _
  · rw [h₂, hzero, Nat.mul_zero, nearest_zero]
    exact hasBits_pack_zero _
  · exact hasBits_pack_mul _ h₁ h₂

theorem magnitude_mul {x y : Float} (hx : x.isFinite = true) (hy : y.isFinite = true) :
    magnitude (x * y) = nearest (units (magnitude x) * units (magnitude y)) (one * one) :=
  (hasBits_mul hx hy).magnitude_eq

theorem magnitude_mul_le {x y : Float} (hx : x.isFinite = true) (hy : y.isFinite = true) :
    magnitude (x * y) ≤ infinityMagnitude := by
  rw [magnitude_mul hx hy]
  exact nearest_le_infinity ..

/-- The product of two finite doubles is infinite if it is not finite. -/
theorem isInf_mul {x y : Float} (hx : x.isFinite = true) (hy : y.isFinite = true)
    (h : ¬(x * y).isFinite = true) : (x * y).isInf = true := by
  have hle := magnitude_mul_le hx hy
  rw [isFinite_iff] at h
  rw [isInf_iff]
  omega

/-! ## Values of at least one -/

theorem le_log2_of_one_le {q : Nat} (h : one ≤ q) : 1074 ≤ q.log2 := by
  obtain ⟨k, hk⟩ : ∃ k, k = 1074 := ⟨_, rfl⟩
  rw [one_eq hk] at h
  have hne : q ≠ 0 := Nat.ne_of_gt (Nat.lt_of_lt_of_le (Nat.two_pow_pos k) h)
  exact hk ▸ (Nat.le_log2 hne).2 h

/-- The double nearest to a value of at least one is at least one. -/
theorem le_nearest {num den : Nat} (hden : 0 < den) (h : den ≤ num) :
    1023 * 2 ^ 52 ≤ nearest num den := by
  obtain ⟨q, hq⟩ : ∃ q, q = num * one / den := ⟨_, rfl⟩
  have hone : one ≤ q := by
    rw [hq, Nat.le_div_iff_mul_le hden, Nat.mul_comm]
    exact Nat.mul_le_mul_right _ h
  have hlog : 1074 ≤ q.log2 := le_log2_of_one_le hone
  have hne : q ≠ 0 := Nat.ne_of_gt (Nat.lt_of_lt_of_le one_pos hone)
  have hround : 2 ^ 52 ≤ roundHalfEven (num * one) (den * 2 ^ (q.log2 - 52)) := by
    refine Nat.le_trans ?_ (le_roundHalfEven _ _)
    rw [div_scale_eq hq, Nat.le_div_iff_mul_le (Nat.two_pow_pos _), ← Nat.pow_add]
    exact (Nat.le_log2 hne).1 (by omega)
  have hinf : infinityMagnitude = 2047 * 2 ^ 52 := rfl
  rw [nearest_eq, ← hq]
  omega

/-- A magnitude not below that of one has a value of at least one. -/
theorem one_le_units {m : Nat} (h : 1023 * 2 ^ 52 ≤ m) : one ≤ units m := by
  obtain ⟨k, hk⟩ : ∃ k, k = 1074 := ⟨_, rfl⟩
  have hscale : 1022 ≤ scale m := by
    rw [scale_eq]
    omega
  have hdigits : 2 ^ 52 ≤ m - scale m * 2 ^ 52 := by
    rw [scale_eq]
    omega
  rw [one_eq hk, units_eq]
  calc 2 ^ k = 2 ^ 52 * 2 ^ (k - 52) := by
        rw [← Nat.pow_add]
        congr 1
        omega
    _ ≤ (m - scale m * 2 ^ 52) * 2 ^ scale m :=
        Nat.mul_le_mul hdigits (Nat.pow_le_pow_right (by decide) (by omega))

/-- Values of at least one have a product of at least one. -/
theorem one_le_units_mul {x y : Float} (hx : x.isFinite = true) (hy : y.isFinite = true)
    (hx₁ : one ≤ units (magnitude x)) (hy₁ : one ≤ units (magnitude y)) :
    one ≤ units (magnitude (x * y)) := by
  refine one_le_units ?_
  rw [magnitude_mul hx hy]
  exact le_nearest (Nat.mul_pos one_pos one_pos) (Nat.mul_le_mul hx₁ hy₁)

/-- A zero makes the product zero. -/
theorem magnitude_mul_of_zero {x y : Float} (hx : x.isFinite = true) (hy : y.isFinite = true)
    (h : magnitude x = 0) : magnitude (x * y) = 0 := by
  have hzero : units 0 = 0 := rfl
  rw [magnitude_mul hx hy, h, hzero, Nat.zero_mul, nearest_zero]

end Stencil.Number.Binary64
