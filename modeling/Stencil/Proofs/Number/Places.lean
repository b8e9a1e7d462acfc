import Mathlib.Algebra.Order.Field.Rat
import Mathlib.Tactic.FieldSimp
import Mathlib.Tactic.Linarith
import Mathlib.Tactic.Ring
import Stencil.Number.Fixed
import Stencil.Proofs.Number.Digits
import Stencil.Proofs.Number.Mantissa
set_option autoImplicit false

/-!
# Numbers rounded to decimal places

A finite double has a value (`Binary64.value`), digits have a value behind a point
(`fractionValue`), and the digits of a double with a fixed number of places have the
rounded value of the double (`Fixed.isRounding`).
-/

namespace Stencil.Number

/-! ## Rounding -/

/-- The whole number nearest to a number; of two equally near ones the even one. -/
structure IsNearest (x : ℚ) (n : ℤ) : Prop where
  error : |x - n| ≤ 1 / 2
  even : |x - n| = 1 / 2 → Even n

theorem IsNearest.not_lt {x : ℚ} {m n : ℤ} (hm : IsNearest x m) (hn : IsNearest x n) : ¬m < n := by
  intro hlt
  obtain ⟨-, hmle⟩ := abs_le.1 hm.error
  obtain ⟨hnle, -⟩ := abs_le.1 hn.error
  have hone : (m : ℚ) + 1 ≤ n := by exact_mod_cast hlt
  -- both are half away from `x`, one on each side
  have hmhalf : x - m = 1 / 2 := by linarith
  have hnhalf : x - n = -(1 / 2) := by linarith
  have hsucc : n = m + 1 := by
    have : (n : ℚ) = m + 1 := by linarith
    exact_mod_cast this
  have hmeven := hm.even (by rw [hmhalf, abs_of_pos (by norm_num)])
  have hneven := hn.even (by rw [hnhalf, abs_neg, abs_of_pos (by norm_num)])
  rw [hsucc, Int.even_add_one] at hneven
  exact hneven hmeven

theorem IsNearest.unique {x : ℚ} {m n : ℤ} (hm : IsNearest x m) (hn : IsNearest x n) : m = n :=
  Int.le_antisymm (Int.not_lt.1 (hn.not_lt hm)) (Int.not_lt.1 (hm.not_lt hn))

/-- A quotient half away from a whole number leaves half its divisor as a rest. -/
theorem mod_of_half {num den n : ℕ} (hden : 0 < den)
    (h : 2 * num = 2 * (n * den) + den ∨ 2 * num + den = 2 * (n * den)) :
    2 * (num % den) = den := by
  obtain ⟨k, hk⟩ : ∃ k, 2 * num = den * (2 * k + 1) := by
    rcases h with h | h
    · exact ⟨n, by rw [h]; ring⟩
    · obtain ⟨k, rfl⟩ : ∃ k, n = k + 1 := ⟨n - 1, by cases n <;> omega⟩
      have hsucc : 2 * ((k + 1) * den) = den * (2 * k + 1) + den := by ring
      exact ⟨k, by omega⟩
  have hmod : 2 * num % (2 * den) = den := by
    rw [hk, Nat.mul_comm 2 den, Nat.mul_mod_mul_left, Nat.mul_add_mod]
    simp
  rwa [Nat.mul_mod_mul_left] at hmod

theorem isNearest_roundHalfEven (num : ℕ) {den : ℕ} (hden : 0 < den) :
    IsNearest (num / den) (roundHalfEven num den) := by
  obtain ⟨n, hn⟩ : ∃ n, n = roundHalfEven num den := ⟨_, rfl⟩
  have hpos : (0 : ℚ) < den := by exact_mod_cast hden
  obtain ⟨habove, hbelow⟩ := roundHalfEven_error num den hden
  rw [← hn] at habove hbelow ⊢
  have hdiff : (num / den : ℚ) - (n : ℤ) = (num - n * den) / den := by
    rw [Int.cast_natCast]
    field_simp
  constructor
  · have h₁ : (2 * (n * den) : ℚ) ≤ 2 * num + den := by exact_mod_cast habove
    have h₂ : (2 * num : ℚ) ≤ 2 * (n * den) + den := by exact_mod_cast hbelow
    rw [hdiff, abs_le, le_div_iff₀ hpos, div_le_iff₀ hpos]
    constructor <;> linarith
  · intro hhalf
    have hmod : 2 * (num % den) = den := by
      refine mod_of_half (n := n) hden ?_
      rw [hdiff, abs_eq (by norm_num), div_eq_iff hpos.ne', div_eq_iff hpos.ne'] at hhalf
      refine hhalf.imp (fun h => ?_) fun h => ?_
      · have : (2 * num : ℚ) = 2 * (n * den) + den := by linarith
        exact_mod_cast this
      · have : (2 * num + den : ℚ) = 2 * (n * den) := by linarith
        exact_mod_cast this
    have heven : n % 2 = 0 := hn ▸ roundHalfEven_tie num den hmod
    exact_mod_cast Nat.even_iff.2 heven

/-- A number rounded to a number of decimal places: nearest to it among the numbers with as many
places, and with an even last digit if there are two of them. -/
def IsRounding (x : ℚ) (places : ℕ) (y : ℚ) : Prop :=
  ∃ n : ℤ, IsNearest (x * 10 ^ places) n ∧ y = n / 10 ^ places

theorem IsRounding.unique {x y z : ℚ} {places : ℕ} (hy : IsRounding x places y)
    (hz : IsRounding x places z) : y = z := by
  obtain ⟨m, hm, rfl⟩ := hy
  obtain ⟨n, hn, rfl⟩ := hz
  rw [hm.unique hn]

/-! ## Values -/

namespace Binary64

/-- The value of a finite magnitude. -/
def size (m : ℕ) : ℚ := units m / one

/-- The value of a finite double. -/
def value (x : Float) : ℚ :=
  if isNegative x then -size (magnitude x) else size (magnitude x)

theorem size_nonneg (m : ℕ) : 0 ≤ size m := by
  unfold size
  positivity

theorem one_le_size_iff {m : ℕ} : 1 ≤ size m ↔ one ≤ units m := by
  have hpos : (0 : ℚ) < one := by exact_mod_cast one_pos
  rw [size, le_div_iff₀ hpos, one_mul, Nat.cast_le]

theorem size_pos {m : ℕ} (h : m ≠ 0) : 0 < size m := by
  have hunits : (0 : ℚ) < units m := by exact_mod_cast Shortest.units_pos (Nat.pos_of_ne_zero h)
  have hone : (0 : ℚ) < one := by exact_mod_cast one_pos
  exact div_pos hunits hone

theorem value_of_positive {x : Float} (h : sign x = .positive) : value x = size (magnitude x) := by
  unfold sign at h
  unfold value
  split at h
  · cases h
  · rename_i hneg
    rw [if_neg hneg]

theorem value_neg_iff {x : Float} : value x < 0 ↔ isNegative x = true ∧ magnitude x ≠ 0 := by
  have hnonneg := size_nonneg (magnitude x)
  unfold value
  split
  · rename_i hneg
    rw [and_iff_right hneg, neg_lt_zero]
    refine ⟨fun hpos hzero => ?_, size_pos⟩
    rw [hzero] at hpos
    exact absurd hpos (by decide +kernel)
  · rename_i hneg
    exact iff_of_false (not_lt.2 hnonneg) fun h => hneg h.1

theorem value_le_neg_one_iff {x : Float} :
    value x ≤ -1 ↔ isNegative x = true ∧ one ≤ units (magnitude x) := by
  have hnonneg := size_nonneg (magnitude x)
  unfold value
  split
  · rename_i hneg
    rw [and_iff_right hneg, neg_le_neg_iff, one_le_size_iff]
  · rename_i hneg
    exact iff_of_false (by linarith) fun h => hneg h.1

end Binary64

/-- The value of digits behind a point. -/
def fractionValue (ds : List Char) : ℚ := digitsValue ds / 10 ^ ds.length

theorem fractionValue_nil : fractionValue [] = 0 := by
  simp [fractionValue, digitsValue]

/-- Zeros at the end of a fraction do not matter. -/
theorem fractionValue_append_zeros (ds : List Char) (k : ℕ) :
    fractionValue (ds ++ List.replicate k '0') = fractionValue ds := by
  unfold fractionValue
  rw [digitsValue_append_zeros, List.length_append, List.length_replicate]
  push_cast
  rw [pow_add]
  field_simp

theorem toDigits_mod_ten (n : ℕ) : Nat.toDigits 10 (n % 10) = [Nat.digitChar (n % 10)] :=
  Nat.toDigits_of_lt_base (Nat.mod_lt _ (by decide))

theorem digitsValue_lastDigits (width n : ℕ) :
    digitsValue (lastDigits width n) = n % 10 ^ width := by
  induction width generalizing n with
  | zero => simp [lastDigits, digitsValue, Nat.mod_one]
  | succ width ih =>
    have hdigit : digitsValue [Nat.digitChar (n % 10)] = n % 10 := by
      rw [← toDigits_mod_ten]
      exact Nat.ofDigitChars_ten_toDigits
    rw [lastDigits, digitsValue_append, ih, hdigit, List.length_singleton, Nat.pow_one,
      Nat.pow_succ', Nat.mod_mul]
    ring

theorem isDigit_lastDigits (width n : ℕ) : ∀ c ∈ lastDigits width n, c.isDigit = true := by
  induction width generalizing n with
  | zero => nofun
  | succ width ih =>
    intro c hc
    rw [lastDigits, List.mem_append, List.mem_singleton] at hc
    rcases hc with hc | rfl
    · exact ih _ c hc
    · have hmem : Nat.digitChar (n % 10) ∈ Nat.toDigits 10 (n % 10) := by
        rw [toDigits_mod_ten]
        exact List.mem_singleton_self _
      exact Nat.isDigit_of_mem_toDigits (by decide) (by decide) hmem

namespace Fixed

/-- The digits before and behind the point together have the rounded value. -/
theorem value_digits (m places : ℕ) :
    digitsValue (digits m places).1 + fractionValue (digits m places).2 =
      (rounded m places : ℚ) / 10 ^ places := by
  unfold digits fractionValue
  simp only [Nat.pow_eq, length_lastDigits, digitsValue_lastDigits]
  have hwhole : digitsValue (Nat.toDigits 10 (rounded m places / 10 ^ places)) =
      rounded m places / 10 ^ places := Nat.ofDigitChars_ten_toDigits
  have hsplit : (rounded m places : ℚ) =
      10 ^ places * (rounded m places / 10 ^ places : ℕ) +
        (rounded m places % 10 ^ places : ℕ) := by
    exact_mod_cast (Nat.div_add_mod (rounded m places) (10 ^ places)).symm
  rw [hwhole, eq_div_iff (by positivity), add_mul, div_mul_cancel₀ _ (by positivity), hsplit,
    mul_comm]

theorem rounded_zero (places : ℕ) : rounded 0 places = 0 := by
  have hunits : Binary64.units 0 = 0 := rfl
  rw [rounded, hunits, Nat.zero_mul]
  simp [roundHalfEven, Binary64.one_pos]

/-- A value of at least one is not rounded to zero. -/
theorem rounded_pos {m : ℕ} (h : Binary64.one ≤ Binary64.units m) (places : ℕ) :
    0 < rounded m places := by
  refine Nat.lt_of_lt_of_le ?_ (le_roundHalfEven _ _)
  have hpow : 0 < Nat.pow 10 places := Nat.pow_pos (by decide)
  exact Nat.div_pos (Nat.le_trans h (Nat.le_mul_of_pos_right _ hpow)) Binary64.one_pos

/-- The digits of a fixed number of places show the rounded value. -/
theorem isRounding (m places : ℕ) :
    IsRounding (Binary64.size m) places
      (digitsValue (digits m places).1 + fractionValue (digits m places).2) := by
  refine ⟨rounded m places, ?_, by rw [value_digits, Int.cast_natCast]⟩
  have hscaled : Binary64.size m * 10 ^ places =
      ((Binary64.units m * 10 ^ places : ℕ) : ℚ) / (Binary64.one : ℕ) := by
    rw [Binary64.size, div_mul_eq_mul_div]
    push_cast
    rfl
  rw [hscaled]
  exact isNearest_roundHalfEven _ Binary64.one_pos

end Fixed

end Stencil.Number
