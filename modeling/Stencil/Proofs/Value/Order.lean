import Stencil.Proofs.Number.Conversion
import Stencil.Proofs.Value.Exact
set_option autoImplicit false

/-!
# The order of values

Values that count as numbers are compared the same way from both sides.  Being not greater
carries over from one pair to the next except in one case (`Value.order_swap_trans`): a
double in the middle does not tell two integers apart that are both converted to it.
-/

namespace Stencil

namespace Number

open Binary64

/-- The double in the middle is what both integers are converted to, of which the first is the
larger one. -/
inductive Merges : Number → Number → Number → Prop where
  | intro {m n : Int64} {x : Float} (hlt : n.toInt < m.toInt) (hm : floatOfInt m.toInt = x)
    (hn : floatOfInt n.toInt = x) : Merges (.integer m) (.double x) (.integer n)

theorem order_swap (x y : Number) : y.order x = (x.order y).swap := by
  cases x <;> cases y <;> simp only [order] <;> exact Std.OrientedOrd.eq_swap

theorem order_integer_ne_gt_iff {m n : Int64} :
    (integer m).order (integer n) ≠ .gt ↔ m.toInt ≤ n.toInt := compare_le_iff_le

/-- With a double among them, numbers are compared as doubles. -/
theorem order_ne_gt_iff_of_double {x y : Number}
    (h : (∃ z, x = .double z) ∨ ∃ z, y = .double z) :
    x.order y ≠ .gt ↔ rank x.toFloat ≤ rank y.toFloat := by
  rcases h with ⟨z, rfl⟩ | ⟨z, rfl⟩
  · exact compare_le_iff_le
  · cases x <;> exact compare_le_iff_le

/-- What is not greater is not greater as a double. -/
theorem rank_le_of_order_ne_gt {x y : Number} (h : x.order y ≠ .gt) :
    rank x.toFloat ≤ rank y.toFloat := by
  cases x with
  | double z => exact (order_ne_gt_iff_of_double (.inl ⟨z, rfl⟩)).1 h
  | integer m =>
    cases y with
    | double z => exact (order_ne_gt_iff_of_double (.inr ⟨z, rfl⟩)).1 h
    | integer n => exact rank_floatOfInt_mono (order_integer_ne_gt_iff.1 h)

/-- Integers that are converted to one double are converted to each double between. -/
theorem merges_of_rank_le {m n : Int64} {z : Float} (hlt : n.toInt < m.toInt)
    (hm : rank (floatOfInt m.toInt) ≤ rank z) (hn : rank z ≤ rank (floatOfInt n.toInt)) :
    Merges (.integer m) (.double z) (.integer n) := by
  have hmono : rank (floatOfInt n.toInt) ≤ rank (floatOfInt m.toInt) :=
    rank_floatOfInt_mono hlt.le
  have hmz : rank (floatOfInt m.toInt) = rank z := by omega
  have hnz : rank (floatOfInt n.toInt) = rank z := by omega
  -- both integers would be zero if the double were one
  have hne : rank z ≠ 0 := by
    intro hzero
    have hm0 := rank_floatOfInt_eq_zero_iff.1 (hmz.trans hzero)
    have hn0 := rank_floatOfInt_eq_zero_iff.1 (hnz.trans hzero)
    omega
  exact .intro hlt (eq_of_rank_eq hmz (hmz ▸ hne)) (eq_of_rank_eq hnz (hnz ▸ hne))

/-- The integers are not both exact as doubles. -/
theorem Merges.beyond {m n : Int64} {y : Number} (h : Merges (.integer m) y (.integer n)) :
    2 ^ 53 < m.toInt.natAbs ∨ 2 ^ 53 < n.toInt.natAbs := by
  cases h with
  | intro hlt hm hn =>
    by_contra hnot
    obtain ⟨hmle, hnle⟩ := not_or.1 hnot
    have hvalue := (value_floatOfInt (Nat.not_lt.1 hmle)).2
    rw [hm, ← hn, (value_floatOfInt (Nat.not_lt.1 hnle)).2, Int.cast_inj] at hvalue
    omega

/-- Not being greater carries over, unless the number in the middle merges the other two. -/
theorem order_eq_gt_iff_merges {x y z : Number} (hxy : x.order y ≠ .gt) (hyz : y.order z ≠ .gt) :
    x.order z = .gt ↔ Merges x y z := by
  have hle := (rank_le_of_order_ne_gt hxy).trans (rank_le_of_order_ne_gt hyz)
  constructor
  · intro hgt
    have hboth : ¬((∃ w, x = .double w) ∨ ∃ w, z = .double w) := fun h =>
      (order_ne_gt_iff_of_double h).2 hle hgt
    cases x with
    | double w => exact absurd (.inl ⟨w, rfl⟩) hboth
    | integer m =>
      cases z with
      | double w => exact absurd (.inr ⟨w, rfl⟩) hboth
      | integer n =>
        have hlt : n.toInt < m.toInt := by
          rw [← Int.not_le, ← order_integer_ne_gt_iff, not_not]
          exact hgt
        cases y with
        | double w =>
          have hm := rank_le_of_order_ne_gt hxy
          have hn := rank_le_of_order_ne_gt hyz
          exact merges_of_rank_le hlt hm hn
        | integer k =>
          have hmk := order_integer_ne_gt_iff.1 hxy
          have hkn := order_integer_ne_gt_iff.1 hyz
          omega
  · rintro ⟨hlt, -, -⟩
    by_contra hgt
    have := order_integer_ne_gt_iff.1 hgt
    omega

end Number

namespace Value

variable {a b c : Value} {x y z : Number}

theorem order_of_toNumber (ha : a.toNumber = .ok x) (hb : b.toNumber = .ok y) :
    order a b = .ok (x.order y) := by
  rw [order, operands_of_ok ha hb]
  rfl

/-- Of values that count as numbers, the order from one side is the reverse of the order from the
other.  If the first is not greater than the second, and this not greater than the third, then the
first is greater than the third only where they are integers that are both converted to the double
in the middle, and one of them is beyond 2⁵³. -/
theorem order_swap_trans (ha : a.toNumber = .ok x) (hb : b.toNumber = .ok y)
    (hc : c.toNumber = .ok z) :
    ∃ ab bc ac, order a b = .ok ab ∧ order b c = .ok bc ∧ order a c = .ok ac ∧
      order b a = .ok ab.swap ∧
      (ab ≠ .gt → bc ≠ .gt → (ac = .gt ↔ x.Merges y z)) ∧
      (x.Merges y z → ∃ m n, x = .integer m ∧ z = .integer n ∧
        (2 ^ 53 < m.toInt.natAbs ∨ 2 ^ 53 < n.toInt.natAbs)) := by
  refine ⟨_, _, _, order_of_toNumber ha hb, order_of_toNumber hb hc, order_of_toNumber ha hc, ?_,
    Number.order_eq_gt_iff_merges, ?_⟩
  · rw [order_of_toNumber hb ha, ← Number.order_swap]
  · intro h
    cases h with
    | intro hlt hm hn => exact ⟨_, _, rfl, rfl, (Number.Merges.intro hlt hm hn).beyond⟩

/-- Nothing, a text and an integer beyond 2⁵³: the text is in the middle and does not merge them. -/
theorem order_swap_trans_half :
    let n : Value := integer 9007199254740993
    absent.toNumber = .ok (.integer 0) ∧ (text "0.5").toNumber = .ok (.double 0.5) ∧
      n.toNumber = .ok (.integer 9007199254740993) ∧
      order absent (text "0.5") = .ok .lt ∧ order (text "0.5") absent = .ok .gt ∧
      order (text "0.5") n = .ok .lt ∧ order absent n ≠ .ok .gt := by
  intro n
  have ha : absent.toNumber = .ok (.integer 0) := rfl
  have hb : (text "0.5").toNumber = .ok (.double 0.5) := by decide +kernel
  have hc : n.toNumber = .ok (.integer 9007199254740993) := rfl
  have hlow : order absent (text "0.5") = .ok .lt := by decide +kernel
  have hhigh : order (text "0.5") n = .ok .lt := by decide +kernel
  obtain ⟨ab, bc, ac, hab, hbc, hac, hba, htrans, -⟩ := order_swap_trans ha hb hc
  obtain rfl := Except.ok.inj (hlow.symm.trans hab)
  obtain rfl := Except.ok.inj (hhigh.symm.trans hbc)
  refine ⟨ha, hb, hc, hlow, hba, hhigh, fun hgt => ?_⟩
  obtain rfl := Except.ok.inj (hac.symm.trans hgt)
  have hmerges : Number.Merges (.integer 0) (.double 0.5) (.integer 9007199254740993) :=
    (htrans nofun nofun).1 rfl
  cases hmerges with
  | intro hlt => exact absurd hlt (by decide)

/-- 2⁵³ + 1 is not greater than the double 2⁵³, which is not greater than the integer 2⁵³, but
2⁵³ + 1 is greater than 2⁵³. -/
theorem not_order_transitive :
    ¬∀ (a b c : Value) (x y z : Number), a.toNumber = .ok x → b.toNumber = .ok y →
      c.toNumber = .ok z → x.toFloat.isNaN = false → y.toFloat.isNaN = false →
      z.toFloat.isNaN = false → order a b ≠ .ok .gt → order b c ≠ .ok .gt →
      order a c ≠ .ok .gt := by
  intro h
  let above := integer 9007199254740993
  let middle := double (Float.ofBits 0x4340000000000000)
  let below := integer 9007199254740992
  have hlow : order above middle = .ok .eq := by decide +kernel
  have hhigh : order middle below = .ok .eq := by decide +kernel
  have hgt : order above below = .ok .gt := by decide +kernel
  refine h above middle below _ _ _ rfl rfl rfl ?_ ?_ ?_ ?_ ?_ hgt
  · decide +kernel
  · decide +kernel
  · decide +kernel
  · rw [hlow]
    nofun
  · rw [hhigh]
    nofun

end Value

end Stencil
