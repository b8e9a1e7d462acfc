set_option autoImplicit false

/-!
# Rounding a quotient to a whole number

`roundHalfEven` gives the whole number nearest to a quotient and the even one of
two that are equally near.  Its laws say that the error is at most one half, that
a tie goes to the even neighbour, and that a whole quotient is kept.
-/

namespace Stencil.Number

/-- The whole number nearest to `num / den`; of two equally near ones the even one. -/
def roundHalfEven (num den : Nat) : Nat :=
  if 2 * (num % den) < den then num / den
  else if den < 2 * (num % den) then num / den + 1
  else num / den + (num / den) % 2

theorem roundHalfEven_mul (n den : Nat) (h : 0 < den) : roundHalfEven (n * den) den = n := by
  simp [roundHalfEven, Nat.mul_mod_left, Nat.mul_div_cancel _ h, h]

theorem le_roundHalfEven (num den : Nat) : num / den ≤ roundHalfEven num den := by
  unfold roundHalfEven
  split
  · exact Nat.le_refl _
  · split <;> omega

theorem roundHalfEven_le (num den : Nat) : roundHalfEven num den ≤ num / den + 1 := by
  unfold roundHalfEven
  split
  · omega
  · split <;> omega

/-- Twice the error is at most one unit of the divisor. -/
theorem roundHalfEven_error (num den : Nat) (h : 0 < den) :
    2 * (roundHalfEven num den * den) ≤ 2 * num + den ∧
      2 * num ≤ 2 * (roundHalfEven num den * den) + den := by
  have hm := Nat.mod_lt num h
  have hd : den * (num / den) + num % den = num := Nat.div_add_mod num den
  have hc : num / den * den = den * (num / den) := Nat.mul_comm _ _
  unfold roundHalfEven
  split
  · rw [hc]; omega
  · split
    · rw [Nat.add_mul, hc]; omega
    · rcases Nat.mod_two_eq_zero_or_one (num / den) with h0 | h0 <;>
        rw [h0, Nat.add_mul, hc] <;> omega

/-- A quotient halfway between two whole numbers goes to the even one. -/
theorem roundHalfEven_tie (num den : Nat) (h : 2 * (num % den) = den) :
    roundHalfEven num den % 2 = 0 := by
  simp only [roundHalfEven, h, Nat.lt_irrefl, if_false]
  omega

end Stencil.Number
