import Stencil.Proofs.Number.Bits
import Stencil.Proofs.Number.Nearest
set_option autoImplicit false

/-!
# Mantissas

The operations on doubles round a mantissa by two more bits, which say how what is left
behind it compares with one half.  That is rounding half to even
(`Holds.roundedMantissa`), and a rounded mantissa with its scale is packed as its magnitude
(`hasBits_pack`).
-/

namespace Stencil.Number.Binary64

open Float.Model (Format)
open Float.Model.UnpackedFloat

/-! ## Rounding by two more bits -/

/-- The mantissa is the whole part of a quotient, and the bits behind it say how the rest compares
with one half. -/
structure Holds (em : ExtendedMantissa) (num den : Nat) : Prop where
  mantissa : em.mantissa = num / den
  roundBit : em.roundBit = true ↔ den ≤ 2 * (num % den)
  stickyBit : em.stickyBit = true ↔ num % den ≠ 0 ∧ 2 * (num % den) ≠ den

theorem holds_exact (m : Nat) : Holds (.ofMantissaAndAccuracy m .exact) m 1 := by
  constructor <;> simp [ExtendedMantissa.ofMantissaAndAccuracy, Nat.mod_one]

theorem Holds.shiftRightOne {em : ExtendedMantissa} {num den : Nat} (h : Holds em num den)
    (hden : 0 < den) : Holds em.shiftRightOne num (den * 2) := by
  have hmod : num % (den * 2) = num % den + den * (num / den % 2) := Nat.mod_mul
  have hlt : num % den < den := Nat.mod_lt _ hden
  constructor
  · rw [← Nat.div_div_eq_div_mul, ← h.mantissa]
    rfl
  · have hbit : em.shiftRightOne.roundBit = true ↔ num / den % 2 ≠ 0 := by
      simp [ExtendedMantissa.shiftRightOne, h.mantissa]
    rw [hbit, hmod]
    rcases Nat.mod_two_eq_zero_or_one (num / den) with h2 | h2 <;> rw [h2] <;> omega
  · have hbit : em.shiftRightOne.stickyBit = true ↔
        den ≤ 2 * (num % den) ∨ num % den ≠ 0 ∧ 2 * (num % den) ≠ den := by
      simp only [ExtendedMantissa.shiftRightOne, Bool.or_eq_true, h.roundBit, h.stickyBit]
    rw [hbit, hmod]
    rcases Nat.mod_two_eq_zero_or_one (num / den) with h2 | h2 <;> rw [h2] <;> omega

theorem Holds.shiftRight {em : ExtendedMantissa} {num den : Nat} (h : Holds em num den)
    (hden : 0 < den) (k : Nat) : Holds (em >>> k) num (den * 2 ^ k) := by
  change Holds (k.repeat ExtendedMantissa.shiftRightOne em) _ _
  induction k with
  | zero => simpa [Nat.repeat] using h
  | succ k ih =>
    rw [Nat.repeat, Nat.pow_succ, ← Nat.mul_assoc]
    exact ih.shiftRightOne (Nat.mul_pos hden (Nat.two_pow_pos k))

/-- The rounded mantissa is the quotient rounded half to even. -/
theorem Holds.roundedMantissa {em : ExtendedMantissa} {num den : Nat} (h : Holds em num den)
    (hden : 0 < den) : em.roundedMantissa = roundHalfEven num den := by
  obtain ⟨m, round, sticky⟩ := em
  obtain ⟨rfl, hround, hsticky⟩ := h
  unfold roundHalfEven
  cases round <;> cases sticky <;>
    simp only [ExtendedMantissa.roundedMantissa, ExtendedMantissa.accuracy,
      Accuracy.roundToNearestEven] <;>
    simp only [Bool.false_eq_true, false_iff, true_iff, not_and_or, not_not] at hround hsticky
  · rw [if_pos (by omega)]
  · rw [if_pos (by omega)]
  · rw [if_neg (by omega), if_neg (by omega)]
  · rw [if_neg (by omega), if_pos (by omega)]

/-! ## Rounding to a double -/

/-- The exponent that a mantissa of 53 bits has, at least the least one. -/
theorem targetExponent_eq (m : Nat) (e : Int) :
    format.targetExponent (Float.Model.totalExponent m e) = max (m.log2 + e - 52) (-1074) := by
  have hbits : (format.mantissaBits : Int) = 53 := rfl
  have hleast : format.minExponent = -1074 := by decide
  unfold Format.targetExponent Float.Model.totalExponent
  rw [hbits, hleast]
  omega

theorem shiftToTargetExponent_eq {m : Nat} {e : Int} {k : Nat}
    (hk : k = (max (m.log2 + e - 52) (-1074) - e).toNat) :
    shiftToTargetExponent format m e .exact =
      (ExtendedMantissa.ofMantissaAndAccuracy m .exact >>> k, e + k) := by
  unfold shiftToTargetExponent
  rw [targetExponent_eq, hk]
  rfl

theorem shiftToTargetExponent_exact {m : Nat} {e t : Int} (ht : t = max (m.log2 + e - 52) (-1074))
    (he : e ≤ t) :
    Holds (shiftToTargetExponent format m e .exact).1 m (2 ^ (t - e).toNat) ∧
      (shiftToTargetExponent format m e .exact).2 = t := by
  have h := (holds_exact m).shiftRight Nat.one_pos (t - e).toNat
  rw [Nat.one_mul] at h
  rw [shiftToTargetExponent_eq (k := (t - e).toNat) (by rw [← ht])]
  exact ⟨h, show e + ((t - e).toNat : Int) = t by omega⟩

/-- A mantissa that is not too long stays as it is. -/
theorem shiftToTargetExponent_of_le {m : Nat} {e : Int}
    (h : max (m.log2 + e - 52) (-1074) ≤ e) :
    shiftToTargetExponent format m e .exact = (⟨m, false, false⟩, e) := by
  rw [shiftToTargetExponent_eq (k := 0) (by omega)]
  exact Prod.ext rfl (Int.add_zero e)

/-- A mantissa of one bit too many loses its last bit. -/
theorem shiftToTargetExponent_carry {e : Int} (he : -1074 ≤ e) :
    shiftToTargetExponent format (2 ^ 53) e .exact = (⟨2 ^ 52, false, false⟩, e + 1) := by
  have hlog : (2 ^ 53).log2 = 53 := Nat.log2_two_pow
  rw [shiftToTargetExponent_eq (k := 1) (by omega)]
  rfl

theorem roundHalfEven_le_carry {m k : Nat} (hk : m.log2 ≤ k + 52) :
    roundHalfEven m (2 ^ k) ≤ 2 ^ 53 := by
  refine Nat.le_trans (roundHalfEven_le _ _) (Nat.succ_le_iff.2 ?_)
  rw [Nat.div_lt_iff_lt_mul (Nat.two_pow_pos _), ← Nat.pow_add]
  exact Nat.lt_of_lt_of_le Nat.lt_log2_self (Nat.pow_le_pow_right (by decide) (by omega))

/-- Rounding once to the target exponent; where that makes the mantissa one bit too long, its
exponent grows by one. -/
theorem roundWithAccuracy_exact (s : Sign) {m : Nat} {e t : Int}
    (ht : t = max (m.log2 + e - 52) (-1074)) (he : e ≤ t) {r : Nat}
    (hr : r = roundHalfEven m (2 ^ (t - e).toNat)) :
    roundWithAccuracy format s m e .exact =
      if h : r = 0 then .zero s
      else if r = 2 ^ 53 then .finite s (2 ^ 52) (t + 1) (Nat.two_pow_pos 52)
      else .finite s r t (Nat.pos_of_ne_zero h) := by
  obtain ⟨hholds, hexp⟩ := shiftToTargetExponent_exact ht he
  have hround := hholds.roundedMantissa (Nat.two_pow_pos _)
  have hle : r ≤ 2 ^ 53 := hr ▸ roundHalfEven_le_carry (by omega)
  unfold roundWithAccuracy
  rw [← hr] at hround
  simp only [hexp, hround]
  by_cases hcarry : r = 2 ^ 53
  · subst hcarry
    simp only [shiftToTargetExponent_carry (e := t) (by omega)]
    rw [dif_neg (by decide), dif_neg (by decide), if_pos trivial]
  · have hlog : r.log2 ≤ 52 := by
      rcases Nat.eq_zero_or_pos r with rfl | hpos
      · decide
      · have := (Nat.log2_lt (k := 53) (Nat.ne_of_gt hpos)).2 (by omega)
        omega
    simp only [shiftToTargetExponent_of_le (m := r) (e := t) (by omega), if_neg hcarry]

/-! ## The bits of a rounded mantissa -/

theorem toNat_packedInfinity (s : Sign) :
    (packedInfinity format s).toNat = s.toBitVec.toNat * 2 ^ 63 + infinityMagnitude := by
  cases s <;> rfl

/-- The bits of a mantissa are its sign and its magnitude: the mantissa behind as many steps of 2⁵²
as its exponent says. -/
theorem toNat_pack_finite (s : Sign) {m t : Nat} (hpos : 0 < m) (hlt : m < 2 ^ 53)
    (ht : t = 0 ∨ 2 ^ 52 ≤ m) :
    (pack format (.finite s m (t - 1074) hpos)).toNat =
      s.toBitVec.toNat * 2 ^ 63 + min infinityMagnitude (t * 2 ^ 52 + m) := by
  have hinf : infinityMagnitude = 2047 * 2 ^ 52 := rfl
  have hbias : ((t : Int) - 1074 + format.exponentBias + format.mantissaBitsWithoutImplicit).toNat =
      t + 1 := by
    have h₁ : (format.exponentBias : Int) = 1023 := rfl
    have h₂ : (format.mantissaBitsWithoutImplicit : Int) = 52 := rfl
    omega
  have hmax : (2 ^ format.exponentBits : Nat) = 2048 := rfl
  have hbits : m.log2 + 1 = format.mantissaBits ↔ 2 ^ 52 ≤ m := by
    have hfull : format.mantissaBits = 53 := rfl
    have hlog := Nat.log2_lt (k := 53) (Nat.ne_of_gt hpos)
    rw [hfull, ← Nat.le_log2 (Nat.ne_of_gt hpos)]
    omega
  unfold pack
  simp only [hbias, hmax]
  by_cases hover : 2048 ≤ t + 1 + 1
  · rw [if_pos hover, toNat_packedInfinity]
    omega
  · rw [if_neg hover]
    by_cases hnormal : 2 ^ 52 ≤ m
    · rw [if_pos (hbits.2 hnormal), toNat_packComponents, BitVec.toNat_ofNat, BitVec.toNat_ofNat]
      omega
    · rw [if_neg (mt hbits.1 hnormal), toNat_packComponents]
      have hzero : (0#11).toNat = 0 := rfl
      have hm : (BitVec.ofNat 52 m).toNat = m := Nat.mod_eq_of_lt (by omega)
      omega

/-! ## The parts of a double -/

/-- The mantissa `m` and the scale `t` of a positive finite magnitude. -/
structure HasParts (magnitude m t : Nat) : Prop where
  mantissa_pos : 0 < m
  mantissa_lt : m < 2 ^ 53
  normal : t = 0 ∨ 2 ^ 52 ≤ m
  eq : magnitude = t * 2 ^ 52 + m

theorem HasParts.units_eq {magnitude m t : Nat} (h : HasParts magnitude m t) :
    units magnitude = m * 2 ^ t := by
  obtain ⟨hpos, hlt, hnormal, rfl⟩ := h
  have hscale : scale (t * 2 ^ 52 + m) = t := by
    rw [scale_eq]
    omega
  rw [Binary64.units_eq, hscale, Nat.add_sub_cancel_left]

/-- The sign of a double. -/
def sign (x : Float) : Sign := if isNegative x then .negative else .positive

theorem sign_eq_ofBitVec (x : Float) :
    sign x = Sign.ofBitVec (@unpackSign format x.toBits.toBitVec) := by
  have hbit : (@unpackSign format x.toBits.toBitVec).toNat = x.toBits.toNat / 2 ^ 63 :=
    toNat_unpackSign _
  have hlt : x.toBits.toNat < 2 ^ 64 := x.toBits.toNat_lt
  unfold sign isNegative
  simp only [Nat.pow_eq, decide_eq_true_eq]
  split
  · have hone : @unpackSign format x.toBits.toBitVec = 1#1 := by
      have hbit₁ : x.toBits.toNat / 2 ^ 63 = 1 := by omega
      exact BitVec.eq_of_toNat_eq (hbit.trans hbit₁)
    rw [hone]
    rfl
  · have hzero : @unpackSign format x.toBits.toBitVec = 0#1 := by
      have hbit₀ : x.toBits.toNat / 2 ^ 63 = 0 := by omega
      exact BitVec.eq_of_toNat_eq (hbit.trans hbit₀)
    rw [hzero]
    rfl

/-- A finite double is a zero, or has a mantissa and an exponent. -/
theorem unpack_cases {x : Float} (h : x.isFinite = true) :
    (x.toModel.unpack = .zero (sign x) ∧ magnitude x = 0) ∨
      ∃ m t, ∃ hparts : HasParts (magnitude x) m t,
        x.toModel.unpack = .finite (sign x) m (t - 1074) hparts.mantissa_pos := by
  have hsign := sign_eq_ofBitVec x
  obtain ⟨b, hb⟩ : ∃ b : BitVec 64, b = x.toBits.toBitVec := ⟨_, rfl⟩
  have hne : @unpackExponent format b ≠ -1#_ := hb ▸ (isFinite_unpack _).1 h
  have hunpack : x.toModel.unpack = unpack format b := hb ▸ rfl
  have hmagnitude : magnitude x = (@unpackExponent format b).toNat * 2 ^ 52 +
      (@unpackMantissa format b).toNat := by
    have hmod : magnitude x = b.toNat % 2 ^ 63 := hb ▸ rfl
    rw [hmod, toNat_unpackExponent, toNat_unpackMantissa]
    omega
  have hlt : (@unpackMantissa format b).toNat < 2 ^ 52 := (@unpackMantissa format b).isLt
  rw [← hb] at hsign
  rw [hunpack, hmagnitude, hsign]
  unfold unpack
  simp only [if_neg hne]
  by_cases h0 : @unpackExponent format b = 0#_
  · by_cases hm : @unpackMantissa format b = 0#_
    · exact .inl ⟨by rw [if_pos h0, dif_pos hm], by rw [h0, hm]; rfl⟩
    · right
      have hpos : 0 < (@unpackMantissa format b).toNat :=
        Nat.pos_of_ne_zero fun hzero => hm (BitVec.eq_of_toNat_eq hzero)
      have hzero : (@unpackExponent format b).toNat = 0 := congrArg BitVec.toNat h0
      refine ⟨(@unpackMantissa format b).toNat, 0,
        ⟨hpos, Nat.lt_trans hlt (by decide), .inl rfl, by omega⟩, ?_⟩
      rw [if_pos h0, dif_neg hm]
      congr 1
      have h₁ : (format.exponentBias : Int) = 1023 := rfl
      have h₂ : (format.mantissaBitsWithoutImplicit : Int) = 52 := rfl
      omega
  · right
    have he : (@unpackExponent format b).toNat ≠ 0 := fun hzero =>
      h0 (BitVec.eq_of_toNat_eq hzero)
    have hone := toNat_one_append (@unpackMantissa format b)
    refine ⟨(1#1 ++ @unpackMantissa format b).toNat,
      (@unpackExponent format b).toNat - 1, ⟨by omega, by omega, .inr (by omega), by omega⟩, ?_⟩
    rw [if_neg h0]
    congr 1
    have h₁ : (format.exponentBias : Int) = 1023 := rfl
    have h₂ : (format.mantissaBitsWithoutImplicit : Int) = 52 := rfl
    omega

/-- The bits of a double are a sign and a magnitude. -/
structure HasBits (x : Float) (s : Sign) (m : Nat) : Prop where
  le : m ≤ infinityMagnitude
  toNat_eq : x.toBits.toNat = s.toBitVec.toNat * 2 ^ 63 + m

theorem HasBits.magnitude_eq {x : Float} {s : Sign} {m : Nat} (h : HasBits x s m) :
    magnitude x = m := by
  have hle := h.le
  have hinf : infinityMagnitude = 2047 * 2 ^ 52 := rfl
  unfold magnitude
  rw [h.toNat_eq, Nat.pow_eq]
  omega

theorem HasBits.sign_eq {x : Float} {s : Sign} {m : Nat} (h : HasBits x s m) : sign x = s := by
  have hle := h.le
  have hinf : infinityMagnitude = 2047 * 2 ^ 52 := rfl
  unfold sign isNegative
  rw [h.toNat_eq, Nat.pow_eq]
  cases s with
  | negative =>
    rw [if_pos]
    exact decide_eq_true (Nat.le_add_right (1 * 2 ^ 63) m)
  | positive =>
    have hzero : Sign.positive.toBitVec.toNat = 0 := rfl
    rw [hzero, if_neg]
    rw [decide_eq_true_eq]
    omega

theorem hasBits_pack_zero (s : Sign) : HasBits ⟨.pack (.zero s)⟩ s 0 := by
  cases s <;> constructor <;> decide +kernel

/-- A mantissa and a scale are packed as their magnitude. -/
theorem hasBits_pack {m t : Nat} (s : Sign) (hpos : 0 < m) (hlt : m < 2 ^ 53)
    (ht : t = 0 ∨ 2 ^ 52 ≤ m) :
    HasBits ⟨.pack (.finite s m (t - 1074) hpos)⟩ s (min infinityMagnitude (t * 2 ^ 52 + m)) :=
  ⟨Nat.min_le_left .., toNat_pack_finite s hpos hlt ht⟩

/-- Without its sign, a double keeps its magnitude. -/
theorem hasBits_abs {x : Float} (h : x.isFinite = true) :
    HasBits x.abs .positive (magnitude x) := by
  have habs : x.abs = ⟨.pack x.toModel.unpack.abs⟩ := rfl
  rw [habs]
  rcases unpack_cases h with ⟨hs, hzero⟩ | ⟨m, t, hparts, hs⟩
  · rw [hs, hzero]
    exact hasBits_pack_zero _
  · have hfinite := (isFinite_iff x).1 h
    have hmin : min infinityMagnitude (t * 2 ^ 52 + m) = magnitude x := by
      rw [← hparts.eq]
      omega
    have hpack := hasBits_pack .positive hparts.mantissa_pos hparts.mantissa_lt hparts.normal
    rw [hmin] at hpack
    rw [hs]
    exact hpack

theorem magnitude_abs {x : Float} (h : x.isFinite = true) : magnitude x.abs = magnitude x :=
  (hasBits_abs h).magnitude_eq

/-! ## Infinity -/

theorem isInf_iff (x : Float) : x.isInf = true ↔ magnitude x = infinityMagnitude := by
  obtain ⟨b, hb⟩ : ∃ b : BitVec 64, b = x.toBits.toBitVec := ⟨_, rfl⟩
  have hisInf : x.isInf = (unpack format b).isInf := hb ▸ rfl
  have hmod : magnitude x = b.toNat % 2 ^ 63 := hb ▸ rfl
  have hinf : infinityMagnitude = 2047 * 2 ^ 52 := rfl
  have hexp := unpackExponent_eq_neg_one_iff b
  have hmantissa : @unpackMantissa format b = 0#_ ↔ b.toNat % 2 ^ 52 = 0 := by
    rw [← BitVec.toNat_inj, toNat_unpackMantissa]
    rfl
  rw [hisInf, hmod]
  unfold unpack
  by_cases h : @unpackExponent format b = -1#_
  · simp only [if_pos h]
    by_cases hm : @unpackMantissa format b = 0#_
    · have he := hexp.1 h
      have hzero := hmantissa.1 hm
      rw [if_pos hm]
      exact iff_of_true rfl (by omega)
    · have hzero := mt hmantissa.2 hm
      rw [if_neg hm]
      exact iff_of_false nofun (by omega)
  · simp only [if_neg h]
    have he := mt hexp.2 h
    refine iff_of_false ?_ (by omega)
    split
    · split <;> simp [isInf]
    · simp [isInf]

end Stencil.Number.Binary64
