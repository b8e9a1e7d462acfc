import Stencil.Proofs.Number.Places
import Stencil.Proofs.Number.Product
set_option autoImplicit false

/-!
# Correct rounding

Of the finite doubles none is closer to a quotient than the nearest one, which is the even
one of two equally close ones (`isClosest_nearest`), and so it is for decimals
(`Decimal.isClosest_magnitude`).  A larger value has no smaller closest double
(`IsClosest.le_of_le`), so that each value has one.  Integers of at most 2⁵³ are doubles
themselves (`units_nearest`).
-/

namespace Stencil.Number

namespace Binary64

/-! ## The steps between doubles -/

theorem units_succ (m : ℕ) : units (m + 1) = units m + 2 ^ scale m := by
  have hstep : scale (m + 1) = scale m ∨
      scale (m + 1) = scale m + 1 ∧ m + 1 = (scale m + 2) * 2 ^ 52 := by
    rw [scale_eq, scale_eq]
    omega
  have hle : scale m * 2 ^ 52 ≤ m := by
    rw [scale_eq]
    omega
  rw [units_eq, units_eq]
  rcases hstep with hsame | ⟨hnext, hm⟩
  · rw [hsame, Nat.sub_add_comm hle, Nat.add_mul, Nat.one_mul]
  · -- the digits go from the largest of one scale to the least of the next
    have hlast : m - scale m * 2 ^ 52 = 2 ^ 53 - 1 := by omega
    have hfirst : m + 1 - (scale m + 1) * 2 ^ 52 = 2 ^ 52 := by omega
    rw [hnext, hfirst, hlast, Nat.pow_succ 2 (scale m)]
    omega

theorem units_strictMono : StrictMono units :=
  strictMono_nat_of_lt_succ fun m => by
    rw [units_succ]
    exact Nat.lt_add_of_pos_right (Nat.two_pow_pos _)

theorem size_strictMono : StrictMono size := fun _ _ hlt =>
  div_lt_div_of_pos_right (by exact_mod_cast units_strictMono hlt) (by exact_mod_cast one_pos)

/-- The value of a rounded mantissa, which may be one bit too long. -/
theorem units_add {s r : ℕ} (hr : r ≤ 2 ^ 53) (hs : s = 0 ∨ 2 ^ 52 ≤ r) :
    units (s * 2 ^ 52 + r) = r * 2 ^ s := by
  rw [units_eq]
  rcases Nat.lt_or_eq_of_le hr with hlt | rfl
  · have hscale : scale (s * 2 ^ 52 + r) = s := by
      rw [scale_eq]
      omega
    rw [hscale, Nat.add_sub_cancel_left]
  · have hscale : scale (s * 2 ^ 52 + 2 ^ 53) = s + 1 := by
      rw [scale_eq]
      omega
    have hdigits : s * 2 ^ 52 + 2 ^ 53 - (s + 1) * 2 ^ 52 = 2 ^ 52 := by omega
    rw [hscale, hdigits, Nat.pow_succ]
    omega

/-! ## The closest double -/

/-- The double closest to a value: infinity from half a step beyond the largest finite double on,
and below that a finite double to which no other is closer, the even one of two that are equally
close. -/
structure IsClosest (q : ℚ) (m : ℕ) : Prop where
  le_infinity : m ≤ infinityMagnitude
  eq_infinity_iff : m = infinityMagnitude ↔ infinityBound ≤ q
  error_le : m < infinityMagnitude → ∀ k < infinityMagnitude, |size m - q| ≤ |size k - q|
  even : m < infinityMagnitude → ∀ k < infinityMagnitude, k ≠ m → |size k - q| = |size m - q| →
    Even m

section

variable {a b q : ℚ} (hab : a < b)
include hab

/-- What lies closer to the lesser of two numbers lies below their middle. -/
theorem abs_sub_le_iff_le_middle : |a - q| ≤ |b - q| ↔ 2 * q ≤ a + b := by
  rcases abs_cases (a - q) with ha | ha <;> rcases abs_cases (b - q) with hb | hb <;>
    constructor <;> intro <;> linarith

theorem abs_sub_le_iff_middle_le : |b - q| ≤ |a - q| ↔ a + b ≤ 2 * q := by
  rcases abs_cases (a - q) with ha | ha <;> rcases abs_cases (b - q) with hb | hb <;>
    constructor <;> intro <;> linarith

end

/-- A larger value has no smaller closest double. -/
theorem IsClosest.le_of_le {q q' : ℚ} {m m' : ℕ} (h : IsClosest q m) (h' : IsClosest q' m')
    (hle : q ≤ q') : m ≤ m' := by
  by_contra hnot
  have hlt : m' < m := Nat.not_le.1 hnot
  have hm' : m' < infinityMagnitude := Nat.lt_of_lt_of_le hlt h.le_infinity
  have hm : m < infinityMagnitude := by
    refine Nat.lt_of_le_of_ne h.le_infinity fun heq => hm'.ne ?_
    exact h'.eq_infinity_iff.2 ((h.eq_infinity_iff.1 heq).trans hle)
  have hsize := size_strictMono hlt
  -- the smaller value lies on the middle between both doubles or above it, the larger one below
  have habove := (abs_sub_le_iff_middle_le hsize).1 (h.error_le hm m' hm')
  have hbelow := (abs_sub_le_iff_le_middle hsize).1 (h'.error_le hm' m hm)
  have hmiddle : size m' + size m = 2 * q := by linarith
  obtain rfl : q = q' := by linarith
  have htie : |size m' - q| = |size m - q| :=
    le_antisymm ((abs_sub_le_iff_le_middle hsize).2 hmiddle.ge)
      ((abs_sub_le_iff_middle_le hsize).2 hmiddle.le)
  have heven := h.even hm m' hm' hlt.ne htie
  have heven' := h'.even hm' m hm hlt.ne' htie.symm
  -- of two even numbers the smaller has a successor below the larger one
  have hbetween : m' + 1 < m := by
    rw [Nat.even_iff] at heven heven'
    omega
  have hclose := h.error_le hm (m' + 1) (hbetween.trans hm)
  have hlow := size_strictMono (Nat.lt_succ_self m')
  have hmore := (abs_sub_le_iff_middle_le (size_strictMono hbetween)).1 hclose
  linarith

theorem IsClosest.unique {q : ℚ} {m m' : ℕ} (h : IsClosest q m) (h' : IsClosest q m') : m = m' :=
  Nat.le_antisymm (h.le_of_le h' le_rfl) (h'.le_of_le h le_rfl)

/-! ## The nearest double is the closest -/

theorem cast_units_lt {k m : ℕ} (hlt : k < m) : (units k : ℚ) < units m := by
  exact_mod_cast units_strictMono hlt

theorem cast_units_le {k m : ℕ} (hle : k ≤ m) : (units k : ℚ) ≤ units m := by
  exact_mod_cast units_strictMono.monotone hle

/-- A value in units lies within half a step of a magnitude, on either side, and where it is half a
step away the magnitude is even. -/
structure IsWithinHalfStep (a : ℚ) (m : ℕ) : Prop where
  above : 2 * a ≤ units m + units (m + 1)
  even_above : 2 * a = units m + units (m + 1) → Even m
  below : ∀ k, m = k + 1 → (units k + units m : ℚ) ≤ 2 * a
  even_below : ∀ k, m = k + 1 → (units k + units m : ℚ) = 2 * a → Even m

namespace IsWithinHalfStep

variable {a : ℚ} {m k : ℕ} (h : IsWithinHalfStep a m)
include h

theorem middle_above (hlt : m < k) :
    2 * a ≤ units m + units k ∧ (2 * a = units m + units k → Even m) := by
  have hk := cast_units_le (Nat.succ_le_of_lt hlt)
  have habove := h.above
  exact ⟨by linarith, fun heq => h.even_above (by linarith)⟩

theorem middle_below (hlt : k < m) :
    (units k + units m : ℚ) ≤ 2 * a ∧ ((units k + units m : ℚ) = 2 * a → Even m) := by
  obtain ⟨j, rfl⟩ : ∃ j, m = j + 1 := ⟨m - 1, by omega⟩
  have hk := cast_units_le (Nat.le_of_lt_succ hlt)
  have hbelow := h.below j rfl
  exact ⟨by linarith, fun heq => h.even_below j rfl (by linarith)⟩

theorem error_le (k : ℕ) : |(units m : ℚ) - a| ≤ |(units k : ℚ) - a| := by
  rcases Nat.lt_trichotomy k m with hlt | rfl | hlt
  · exact (abs_sub_le_iff_middle_le (cast_units_lt hlt)).2 (h.middle_below hlt).1
  · exact le_rfl
  · exact (abs_sub_le_iff_le_middle (cast_units_lt hlt)).2 (h.middle_above hlt).1

theorem even (hne : k ≠ m) (htie : |(units k : ℚ) - a| = |(units m : ℚ) - a|) : Even m := by
  rcases Nat.lt_or_gt_of_ne hne with hlt | hlt
  · have hle := (abs_sub_le_iff_le_middle (cast_units_lt hlt)).1 htie.le
    have hmiddle := h.middle_below hlt
    exact hmiddle.2 (le_antisymm hmiddle.1 hle)
  · have hle := (abs_sub_le_iff_middle_le (cast_units_lt hlt)).1 htie.le
    have hmiddle := h.middle_above hlt
    exact hmiddle.2 (le_antisymm hmiddle.1 hle)

end IsWithinHalfStep

theorem sub_eq_div_pow (a : ℚ) (s r : ℕ) :
    a / 2 ^ s - (r : ℤ) = (a - r * 2 ^ s) / 2 ^ s := by
  have hpow : (2 : ℚ) ^ s ≠ 0 := by positivity
  rw [Int.cast_natCast, sub_div, mul_div_cancel_right₀ _ hpow]

section Rounded

variable {a : ℚ} {s r : ℕ} (hnearest : IsNearest (a / 2 ^ s) r)
include hnearest

theorem error_of_isNearest :
    2 * (r * 2 ^ s) - 2 ^ s ≤ 2 * a ∧ 2 * a ≤ 2 * (r * 2 ^ s) + 2 ^ s := by
  have hpow : (0 : ℚ) < 2 ^ s := by positivity
  have herror := hnearest.error
  rw [sub_eq_div_pow, abs_le, le_div_iff₀ hpow, div_le_iff₀ hpow] at herror
  constructor <;> linarith

theorem even_of_isNearest (h : 2 * a = 2 * (r * 2 ^ s) + 2 ^ s ∨ 2 * a = 2 * (r * 2 ^ s) - 2 ^ s) :
    Even (s * 2 ^ 52 + r) := by
  have hpow : (0 : ℚ) < 2 ^ s := by positivity
  have hhalf : |a / 2 ^ s - (r : ℤ)| = 1 / 2 := by
    rw [sub_eq_div_pow, abs_eq (by norm_num), div_eq_iff hpow.ne', div_eq_iff hpow.ne']
    exact h.imp (fun h => by linarith) fun h => by linarith
  have heven : Even r := by exact_mod_cast hnearest.even hhalf
  exact (Even.mul_left (by decide) s).add heven

/-- A value whose mantissa is rounded on its scale is within half a step of the result. -/
theorem isWithinHalfStep_of_isNearest (hr : r ≤ 2 ^ 53)
    (hs : s = 0 ∨ 2 ^ 52 ≤ r ∧ 2 ^ 52 * 2 ^ s ≤ a) : IsWithinHalfStep a (s * 2 ^ 52 + r) := by
  obtain ⟨hlow, hhigh⟩ := error_of_isNearest hnearest
  have heven := even_of_isNearest hnearest
  obtain ⟨m, hm⟩ : ∃ m, m = s * 2 ^ 52 + r := ⟨_, rfl⟩
  have hunits : (units m : ℚ) = r * 2 ^ s := by
    rw [hm, units_add hr (hs.imp_right And.left)]
    push_cast
    rfl
  have hsucc (k : ℕ) : (units (k + 1) : ℚ) = units k + 2 ^ scale k := by
    rw [units_succ]
    push_cast
    rfl
  have hscale : (2 : ℚ) ^ s ≤ 2 ^ scale m := by
    refine pow_le_pow_right₀ one_le_two ?_
    rw [scale_eq]
    omega
  -- below the first mantissa of a scale the steps are smaller, and the value is not there
  have hbefore (k : ℕ) (hk : m = k + 1) :
      (2 : ℚ) ^ scale k = 2 ^ s ∨ (r * 2 ^ s ≤ a ∧ (0 : ℚ) < 2 ^ scale k) := by
    by_cases hfirst : s ≠ 0 ∧ r = 2 ^ 52
    · obtain ⟨hpos, rfl⟩ := hfirst
      right
      have ha := (hs.resolve_left hpos).2
      exact ⟨by push_cast; exact ha, by positivity⟩
    · left
      have hsame : scale k = s := by
        rw [scale_eq]
        omega
      rw [hsame]
  rw [← hm] at heven ⊢
  constructor
  · rw [hsucc]
    linarith
  · rw [hsucc]
    exact fun h => heven (.inl (by linarith))
  · rintro k rfl
    have := hsucc k
    rcases hbefore k rfl with hk | ⟨hk, hpos⟩ <;> linarith
  · rintro k rfl h
    have := hsucc k
    rcases hbefore k rfl with hk | ⟨hk, hpos⟩
    · exact heven (.inr (by linarith))
    · linarith

end Rounded

/-- The nearest magnitude is a scale and a mantissa that is rounded on it. -/
theorem exists_rounded_parts (num : ℕ) {den : ℕ} (hden : 0 < den) :
    ∃ s r, nearest num den = min infinityMagnitude (s * 2 ^ 52 + r) ∧
      IsNearest ((num * one / den : ℚ) / 2 ^ s) r ∧ r ≤ 2 ^ 53 ∧
      (s = 0 ∨ 2 ^ 52 ≤ r ∧ 2 ^ 52 * 2 ^ s ≤ (num * one / den : ℚ)) := by
  obtain ⟨q, hq⟩ : ∃ q, q = num * one / den := ⟨_, rfl⟩
  obtain ⟨s, hs⟩ : ∃ s, s = q.log2 - 52 := ⟨_, rfl⟩
  have hdigits := div_scale_eq hq s
  refine ⟨s, roundHalfEven (num * one) (den * 2 ^ s), by rw [nearest_eq, ← hq, ← hs], ?_, ?_, ?_⟩
  · have hround := isNearest_roundHalfEven (num * one) (Nat.mul_pos hden (Nat.two_pow_pos s))
    push_cast at hround
    rwa [div_div]
  · refine Nat.le_trans (roundHalfEven_le _ _) (Nat.succ_le_iff.2 ?_)
    rw [hdigits, Nat.div_lt_iff_lt_mul (Nat.two_pow_pos _), ← Nat.pow_add]
    exact Nat.lt_of_lt_of_le Nat.lt_log2_self (Nat.pow_le_pow_right (by decide) (by omega))
  · refine or_iff_not_imp_left.2 fun hpos => ?_
    have hne : q ≠ 0 := by
      rintro rfl
      exact hpos hs
    have hle : 2 ^ 52 * 2 ^ s ≤ q := by
      rw [← Nat.pow_add, ← Nat.le_log2 hne]
      omega
    constructor
    · refine Nat.le_trans ?_ (le_roundHalfEven _ _)
      rwa [hdigits, Nat.le_div_iff_mul_le (Nat.two_pow_pos _)]
    · have hmul : 2 ^ 52 * 2 ^ s * den ≤ num * one := (Nat.le_div_iff_mul_le hden).1 (hq ▸ hle)
      rw [le_div_iff₀ (by exact_mod_cast hden)]
      exact_mod_cast hmul

theorem abs_size_sub (k : ℕ) (q : ℚ) : |size k - q| = |(units k : ℚ) - q * one| / one := by
  have hone : (0 : ℚ) < one := by exact_mod_cast one_pos
  rw [← abs_of_pos hone, ← abs_div, abs_of_pos hone, sub_div, mul_div_cancel_right₀ _ hone.ne',
    size]

/-- The nearest double is the closest one. -/
theorem isClosest_nearest (num : ℕ) {den : ℕ} (hden : 0 < den) :
    IsClosest (num / den) (nearest num den) := by
  have hone : (0 : ℚ) < one := by exact_mod_cast one_pos
  have hpos : (0 : ℚ) < den := by exact_mod_cast hden
  obtain ⟨s, r, heq, hnearest, hr, hs⟩ := exists_rounded_parts num hden
  have hwithin (hfinite : nearest num den < infinityMagnitude) :
      IsWithinHalfStep (num / den * one) (nearest num den) := by
    have hmin : nearest num den = s * 2 ^ 52 + r := by omega
    rw [hmin, div_mul_eq_mul_div]
    exact isWithinHalfStep_of_isNearest hnearest hr hs
  constructor
  · exact nearest_le_infinity ..
  · rw [nearest_eq_infinity_iff hden, le_div_iff₀ hpos]
    exact_mod_cast Iff.rfl
  · intro hfinite k _
    rw [abs_size_sub, abs_size_sub]
    exact div_le_div_of_nonneg_right ((hwithin hfinite).error_le k) hone.le
  · intro hfinite k _ hne htie
    rw [abs_size_sub, abs_size_sub, div_left_inj' hone.ne'] at htie
    exact (hwithin hfinite).even hne htie

/-- A larger quotient has no smaller nearest double. -/
theorem nearest_le_nearest {m n : ℕ} (h : m ≤ n) : nearest m 1 ≤ nearest n 1 := by
  refine (isClosest_nearest m Nat.one_pos).le_of_le (isClosest_nearest n Nat.one_pos) ?_
  rw [Nat.cast_one, div_one, div_one]
  exact_mod_cast h

/-! ## Exact integers -/

/-- A positive integer of at most 2⁵³, its binary digits brought to the length of a mantissa. -/
theorem exists_mantissa {n : ℕ} (hpos : 0 < n) (hn : n ≤ 2 ^ 53) :
    ∃ j ≤ 52, 2 ^ 52 ≤ n * 2 ^ j ∧ n * 2 ^ j ≤ 2 ^ 53 := by
  have hne : n ≠ 0 := hpos.ne'
  refine ⟨52 - n.log2, Nat.sub_le .., ?_, ?_⟩
  · have hlow : 2 ^ n.log2 ≤ n := Nat.log2_self_le hne
    calc 2 ^ 52 ≤ 2 ^ (n.log2 + (52 - n.log2)) := Nat.pow_le_pow_right (by decide) (by omega)
      _ = 2 ^ n.log2 * 2 ^ (52 - n.log2) := Nat.pow_add ..
      _ ≤ n * 2 ^ (52 - n.log2) := Nat.mul_le_mul_right _ hlow
  · rcases Nat.lt_or_eq_of_le hn with hlt | rfl
    · have hlog : n.log2 < 53 := (Nat.log2_lt hne).2 hlt
      have hhigh : n < 2 ^ (n.log2 + 1) := Nat.lt_log2_self
      calc n * 2 ^ (52 - n.log2) ≤ 2 ^ (n.log2 + 1) * 2 ^ (52 - n.log2) :=
            Nat.mul_le_mul_right _ hhigh.le
        _ = 2 ^ 53 := by rw [← Nat.pow_add]; congr 1; omega
    · have hlog : (2 ^ 53).log2 = 53 := Nat.log2_two_pow
      rw [hlog]
      decide

theorem exists_units_eq {n : ℕ} (hn : n ≤ 2 ^ 53) :
    ∃ k < infinityMagnitude, units k = n * one := by
  have hinf : infinityMagnitude = 2047 * 2 ^ 52 := rfl
  rcases Nat.eq_zero_or_pos n with rfl | hpos
  · exact ⟨0, by omega, by rw [Nat.zero_mul]; rfl⟩
  · obtain ⟨j, hj, hlow, hhigh⟩ := exists_mantissa hpos hn
    obtain ⟨places, hplaces⟩ : ∃ places, places = 1074 := ⟨_, rfl⟩
    refine ⟨(places - j) * 2 ^ 52 + n * 2 ^ j, by omega, ?_⟩
    have hexp : j + (places - j) = places := by omega
    rw [units_add hhigh (.inr hlow), Nat.mul_assoc, ← Nat.pow_add, hexp, one_eq hplaces]

/-- An integer of at most 2⁵³ is the value of its nearest double. -/
theorem units_nearest {n : ℕ} (hn : n ≤ 2 ^ 53) :
    nearest n 1 < infinityMagnitude ∧ units (nearest n 1) = n * one := by
  obtain ⟨k, hk, hunits⟩ := exists_units_eq hn
  have hnearest : nearest n 1 = k := by
    rw [← nearest_mul_mul n 1 one_pos, ← hunits, Nat.one_mul, nearest_units hk]
  rw [hnearest]
  exact ⟨hk, hunits⟩

end Binary64

namespace Decimal

/-! ## Decimals -/

/-- The number that a decimal stands for. -/
def value (d : Decimal) : ℚ := d.digits * 10 ^ d.exponent

theorem value_eq_div (d : Decimal) : d.value = d.numerator / d.denominator := by
  obtain ⟨digits, exponent⟩ := d
  unfold value numerator denominator
  obtain ⟨k, rfl | rfl⟩ := exponent.eq_nat_or_neg
  · simp
  · simp [div_eq_mul_inv]

/-- The double that a decimal is read as is the closest one to its value. -/
theorem isClosest_magnitude (d : Decimal) : Binary64.IsClosest d.value d.magnitude := by
  rw [value_eq_div, magnitude_eq_nearest]
  exact Binary64.isClosest_nearest _ d.denominator_pos

end Decimal

end Stencil.Number
