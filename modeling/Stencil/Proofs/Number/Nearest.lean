import Mathlib
import Stencil.Number.Binary64
set_option autoImplicit false

/-!
# The nearest double

`nearest` depends on the value of a quotient and not on how it is written
(`nearest_mul_mul`), and the double nearest to the value of a double is this double
(`nearest_units`).
-/

namespace Stencil.Number

theorem roundHalfEven_mul_mul (num den : Nat) {c : Nat} (hc : 0 < c) :
    roundHalfEven (num * c) (den * c) = roundHalfEven num den := by
  have hlt : ∀ a b : Nat, a * c < b * c ↔ a < b := fun a b => Nat.mul_lt_mul_right hc
  unfold roundHalfEven
  simp only [Nat.mul_mod_mul_right, Nat.mul_div_mul_right _ _ hc, ← Nat.mul_assoc, hlt]

namespace Binary64

theorem one_pos : 0 < one := by decide +kernel

theorem scale_eq (m : Nat) : scale m = m / 2 ^ 52 - 1 := rfl

theorem units_eq (m : Nat) : units m = (m - scale m * 2 ^ 52) * 2 ^ scale m := rfl

theorem nearest_mul_mul (num den : Nat) {c : Nat} (hc : 0 < c) :
    nearest (num * c) (den * c) = nearest num den := by
  have hnum : num * c * one = num * one * c := Nat.mul_right_comm ..
  have hden : ∀ s, den * c * Nat.pow 2 s = den * Nat.pow 2 s * c := fun s => Nat.mul_right_comm ..
  unfold nearest
  simp only [hnum, hden, Nat.mul_div_mul_right _ _ hc, roundHalfEven_mul_mul _ _ hc]

/-- A magnitude is its scale and the first digits of its units. -/
theorem nearest_units {m : Nat} (h : m < infinityMagnitude) : nearest (units m) one = m := by
  have hround : ∀ s, roundHalfEven (units m * one) (one * 2 ^ s) =
      roundHalfEven (units m) (2 ^ s) := by
    intro s
    rw [Nat.mul_comm one, roundHalfEven_mul_mul _ _ one_pos]
  unfold nearest
  simp only [Nat.pow_eq, Nat.mul_div_cancel _ one_pos, hround]
  by_cases hsmall : m < 2 ^ 53
  · -- the units are the magnitude itself
    have hscale : scale m = 0 := by
      rw [scale_eq]
      omega
    have hunits : units m = m := by simp [units, hscale]
    have hlog : m.log2 - 52 = 0 := by
      rcases Nat.eq_zero_or_pos m with rfl | hm
      · rfl
      · have := (Nat.log2_lt (k := 53) (by omega)).2 hsmall
        omega
    have hm : roundHalfEven m (2 ^ 0) = m := by
      have := roundHalfEven_mul m 1 Nat.one_pos
      rwa [Nat.mul_one] at this
    rw [hunits, hlog, hm, Nat.zero_mul, Nat.zero_add]
    exact Nat.min_eq_right (Nat.le_of_lt h)
  · -- the units are 53 digits in front of as many zeros as the scale says
    obtain ⟨f, hf⟩ : ∃ f, f = m - scale m * 2 ^ 52 := ⟨_, rfl⟩
    have hbounds : 2 ^ 52 ≤ f ∧ f < 2 ^ 53 ∧ m = scale m * 2 ^ 52 + f := by
      rw [scale_eq] at hf ⊢
      omega
    obtain ⟨hle, hlt, hm⟩ := hbounds
    have hunits : units m = f * 2 ^ scale m := by rw [units_eq, ← hf]
    have hpow : 0 < 2 ^ scale m := Nat.two_pow_pos _
    have hlog : (f * 2 ^ scale m).log2 - 52 = scale m := by
      have h₁ : f * 2 ^ scale m ≠ 0 := Nat.mul_ne_zero (by omega) (by omega)
      have h₂ : (f * 2 ^ scale m).log2 = 52 + scale m := by
        refine (Nat.log2_eq_iff h₁).2 ⟨?_, ?_⟩
        · rw [Nat.pow_add]
          exact Nat.mul_le_mul_right _ hle
        · rw [Nat.add_right_comm, Nat.pow_add]
          exact (Nat.mul_lt_mul_right hpow).2 hlt
      omega
    rw [hunits, hlog, roundHalfEven_mul f _ hpow, ← hm]
    exact Nat.min_eq_right (Nat.le_of_lt h)

end Binary64

end Stencil.Number
