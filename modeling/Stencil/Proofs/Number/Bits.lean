import Mathlib
import Stencil.Number.Binary64
set_option autoImplicit false

/-!
# The bits of a double

A double is given by its bits, and these by its sign and its magnitude
(`eq_of_magnitude_eq`, `ofMagnitude_magnitude`).  The bits are those of the logical model of
doubles, whose packed form is a sign, an exponent and a mantissa side by side.
-/

namespace Stencil.Number.Binary64

open Float.Model (Format)
open Float.Model.UnpackedFloat

/-- The format of doubles. -/
abbrev format : Format := .binary64

/-! ## Packed components -/

theorem toNat_packComponents (s : Sign) (e : BitVec 11) (m : BitVec 52) :
    (packComponents format s e m).toNat = s.toBitVec.toNat * 2 ^ 63 + e.toNat * 2 ^ 52 + m.toNat := by
  have hm : m.toNat < 2 ^ 52 := m.isLt
  have he : e.toNat < 2 ^ 11 := e.isLt
  unfold packComponents
  rw [BitVec.toNat_append, BitVec.toNat_append, ← Nat.shiftLeft_add_eq_or_of_lt hm,
    ← Nat.shiftLeft_add_eq_or_of_lt he, Nat.shiftLeft_eq, Nat.shiftLeft_eq]
  omega

theorem toNat_unpackMantissa (b : BitVec 64) :
    (@unpackMantissa format b).toNat = b.toNat % 2 ^ 52 := by
  simp [unpackMantissa, BitVec.extractLsb, BitVec.extractLsb']

theorem toNat_unpackExponent (b : BitVec 64) :
    (@unpackExponent format b).toNat = b.toNat / 2 ^ 52 % 2 ^ 11 := by
  simp [unpackExponent, BitVec.extractLsb, BitVec.extractLsb', Nat.shiftRight_eq_div_pow]

theorem toNat_unpackSign (b : BitVec 64) :
    (@unpackSign format b).toNat = b.toNat / 2 ^ 63 := by
  have hb : b.toNat < 2 ^ 64 := b.isLt
  simp [unpackSign, BitVec.extractLsb, BitVec.extractLsb', Nat.shiftRight_eq_div_pow]
  omega

theorem toBitVec_ofBitVec (v : BitVec 1) : (Sign.ofBitVec v).toBitVec = v := by
  revert v
  decide

/-- The three components make up the bits. -/
theorem packComponents_unpack (b : BitVec 64) :
    packComponents format (Sign.ofBitVec (@unpackSign format b))
      (@unpackExponent format b) (@unpackMantissa format b) = b := by
  apply BitVec.eq_of_toNat_eq
  have hb : b.toNat < 2 ^ 64 := b.isLt
  rw [toNat_packComponents, toBitVec_ofBitVec, toNat_unpackSign, toNat_unpackExponent,
    toNat_unpackMantissa]
  omega

/-- A mantissa with its leading one. -/
theorem toNat_one_append (m : BitVec 52) : (1#1 ++ m).toNat = 2 ^ 52 + m.toNat := by
  rw [BitVec.toNat_append, ← Nat.shiftLeft_add_eq_or_of_lt m.isLt]
  rfl

/-! ## What bits stand for -/

/-- The exponent that infinity and NaN have. -/
theorem unpackExponent_eq_neg_one_iff (b : BitVec 64) :
    @unpackExponent format b = -1#_ ↔ b.toNat / 2 ^ 52 % 2 ^ 11 = 2047 := by
  rw [← BitVec.toNat_inj, toNat_unpackExponent]
  rfl

/-- The bits of a double are finite when their exponent is not that of infinity and NaN. -/
theorem isFinite_unpack (b : BitVec 64) :
    (unpack format b).isFinite = true ↔ @unpackExponent format b ≠ -1#_ := by
  unfold unpack
  by_cases h : @unpackExponent format b = -1#_
  · refine iff_of_false ?_ (not_not_intro h)
    simp only [if_pos h]
    split <;> simp [isFinite]
  · refine iff_of_true ?_ h
    simp only [if_neg h]
    split
    · split <;> rfl
    · rfl

/-- A mantissa without a leading one has the exponent zero. -/
theorem pack_subnormal (s : Sign) (m : BitVec 52) (h : 0 < m.toNat) :
    pack format (.finite s m.toNat (-1074) h) = packComponents format s 0#_ m := by
  have hlt : m.toNat < 2 ^ 52 := m.isLt
  have hlog : m.toNat.log2 < 52 := (Nat.log2_lt (by omega)).2 hlt
  have hbias : ((-1074 : Int) + format.exponentBias + format.mantissaBitsWithoutImplicit).toNat =
      1 := by decide
  have hbits : ¬m.toNat.log2 + 1 = format.mantissaBits := by
    have : format.mantissaBits = 53 := rfl
    omega
  unfold pack
  simp only [hbias, if_neg hbits]
  rw [if_neg (by decide), BitVec.ofNat_toNat, BitVec.setWidth_eq]

/-- A mantissa with a leading one keeps its exponent. -/
theorem pack_normal (s : Sign) (e : BitVec 11) (m : BitVec 52) (he : e.toNat ≠ 2047)
    (h : 0 < (1#1 ++ m).toNat) :
    pack format (.finite s (1#1 ++ m).toNat (e.toNat - 1075) h) = packComponents format s e m := by
  have hlt : m.toNat < 2 ^ 52 := m.isLt
  have helt : e.toNat < 2 ^ 11 := e.isLt
  have hlog : (1#1 ++ m).toNat.log2 = 52 := by
    rw [toNat_one_append]
    exact (Nat.log2_eq_iff (by omega)).2 ⟨by omega, by omega⟩
  have hbias : ((e.toNat : Int) - 1075 + format.exponentBias +
      format.mantissaBitsWithoutImplicit).toNat = e.toNat := by
    have h₁ : (format.exponentBias : Int) = 1023 := rfl
    have h₂ : (format.mantissaBitsWithoutImplicit : Int) = 52 := rfl
    omega
  have hbits : (1#1 ++ m).toNat.log2 + 1 = format.mantissaBits := by
    rw [hlog]
    rfl
  have hsmall : ¬2 ^ format.exponentBits ≤ e.toNat + 1 := by
    have : 2 ^ format.exponentBits = 2048 := rfl
    omega
  unfold pack
  simp only [hbias, if_pos hbits, if_neg hsmall]
  congr 1
  · exact BitVec.eq_of_toNat_eq (by simp)
  · apply BitVec.eq_of_toNat_eq
    rw [BitVec.toNat_ofNat, toNat_one_append]
    omega

/-- The bits of something finite are packed again as they were. -/
theorem pack_unpack {b : BitVec 64} (h : @unpackExponent format b ≠ -1#_) :
    pack format (unpack format b) = b := by
  have hparts := packComponents_unpack b
  unfold unpack
  simp only [if_neg h]
  by_cases h0 : @unpackExponent format b = 0#_
  · rw [if_pos h0]
    rw [h0] at hparts
    by_cases hm : @unpackMantissa format b = 0#_
    · rw [dif_pos hm]
      rw [hm] at hparts
      exact hparts
    · rw [dif_neg hm, h0]
      exact (pack_subnormal _ _ _).trans hparts
  · rw [if_neg h0]
    have he : (@unpackExponent format b).toNat ≠ 2047 := fun he =>
      h (BitVec.eq_of_toNat_eq he)
    exact (pack_normal _ _ _ he _).trans hparts

/-! ## Sign and magnitude -/

theorem isFinite_iff (x : Float) : x.isFinite = true ↔ magnitude x < infinityMagnitude := by
  have h : x.isFinite = true ↔ x.toBits.toNat / 2 ^ 52 % 2 ^ 11 ≠ 2047 :=
    (isFinite_unpack x.toBits.toBitVec).trans
      (not_congr (unpackExponent_eq_neg_one_iff x.toBits.toBitVec))
  have hlt : x.toBits.toNat < 2 ^ 64 := x.toBits.toNat_lt
  rw [h]
  unfold magnitude infinityMagnitude
  simp only [Nat.pow_eq]
  omega

theorem toNat_toBits (x : Float) :
    x.toBits.toNat = if isNegative x then 2 ^ 63 + magnitude x else magnitude x := by
  have hlt : x.toBits.toNat < 2 ^ 64 := x.toBits.toNat_lt
  unfold isNegative magnitude
  simp only [Nat.pow_eq, decide_eq_true_eq]
  split <;> omega

/-- A double is given by its sign and its magnitude. -/
theorem eq_of_magnitude_eq {x y : Float} (hsign : isNegative x = isNegative y)
    (hmagnitude : magnitude x = magnitude y) : x = y := by
  rw [← Float.toBits_inj, ← UInt64.toNat_inj, toNat_toBits, toNat_toBits, hsign, hmagnitude]

/-- Bits that stand for something finite are kept. -/
theorem toBits_ofBits {b : UInt64} (h : b.toNat / 2 ^ 52 % 2 ^ 11 ≠ 2047) :
    (Float.ofBits b).toBits = b := by
  have hpack := pack_unpack ((not_congr (unpackExponent_eq_neg_one_iff b.toBitVec)).2 h)
  simp only [Float.ofBits, Float.toBits, Float.Model.ofBits, Float.Model.pack] at hpack ⊢
  exact congrArg UInt64.ofBitVec hpack

section

variable (negative : Bool) {m : Nat} (h : m ≤ infinityMagnitude)
include h

theorem toNat_toBits_ofMagnitude :
    (ofMagnitude negative m).toBits.toNat = if negative then 2 ^ 63 + m else m := by
  have hinf : infinityMagnitude = 2047 * 2 ^ 52 := rfl
  rcases Nat.lt_or_eq_of_le h with hlt | rfl
  · have hbits : (UInt64.ofNat (if negative then Nat.pow 2 63 + m else m)).toNat =
        if negative then 2 ^ 63 + m else m := by
      rw [UInt64.toNat_ofNat', Nat.pow_eq]
      apply Nat.mod_eq_of_lt
      split <;> omega
    rw [ofMagnitude, toBits_ofBits, hbits]
    rw [hbits]
    split <;> omega
  · cases negative <;> decide +kernel

theorem isNegative_ofMagnitude : isNegative (ofMagnitude negative m) = negative := by
  have hinf : infinityMagnitude = 2047 * 2 ^ 52 := rfl
  rw [isNegative, toNat_toBits_ofMagnitude negative h, Nat.pow_eq]
  cases negative with
  | true => exact decide_eq_true (Nat.le_add_right (2 ^ 63) m)
  | false =>
    refine decide_eq_false ?_
    rw [if_neg Bool.false_ne_true]
    omega

theorem magnitude_ofMagnitude : magnitude (ofMagnitude negative m) = m := by
  have hinf : infinityMagnitude = 2047 * 2 ^ 52 := rfl
  rw [magnitude, toNat_toBits_ofMagnitude negative h, Nat.pow_eq]
  split <;> omega

/-- Up to the magnitude of infinity, a double is finite when it stands below it. -/
theorem isFinite_ofMagnitude :
    (ofMagnitude negative m).isFinite = true ↔ m ≠ infinityMagnitude := by
  rw [isFinite_iff, magnitude_ofMagnitude negative h]
  omega

end

/-- A finite double is given by its sign and its magnitude. -/
theorem ofMagnitude_magnitude {x : Float} (h : x.isFinite = true) :
    ofMagnitude (isNegative x) (magnitude x) = x := by
  have hle : magnitude x ≤ infinityMagnitude := Nat.le_of_lt ((isFinite_iff x).1 h)
  exact eq_of_magnitude_eq (isNegative_ofMagnitude _ hle) (magnitude_ofMagnitude _ hle)

end Stencil.Number.Binary64
