import Stencil.Proofs.DecimalFormat.Double
import Stencil.Proofs.DecimalFormat.Integer
import Stencil.Proofs.Number.Conversion
import Stencil.Proofs.Value.ReadBack
set_option autoImplicit false

/-!
# Integers and doubles shown alike

A double whose value is an integer is shown as the integer, as long as the scaled number is
not beyond 2⁵³ (`showNumber_double_eq_integer`): scaling is exact then, rounding leaves zeros
behind the point, and the format takes away or adds the same zeros as for the integer.  So it
makes no difference to a pattern whether a number is an integer, a double or a text of
either (`apply_equal`).
-/

namespace Stencil

open Number Number.Binary64

namespace DecimalFormat

/-! ## Zeros behind the point -/

theorem lastDigits_mul_pow (n places : ℕ) :
    lastDigits places (n * 10 ^ places) = List.replicate places '0' := by
  induction places with
  | zero => rfl
  | succ places ih =>
    have hmul : n * 10 ^ (places + 1) = n * 10 ^ places * 10 := by rw [Nat.pow_succ, Nat.mul_assoc]
    rw [lastDigits, hmul, Nat.mul_div_cancel _ (by decide), Nat.mul_mod_left, ih,
      List.replicate_succ']
    rfl

/-- A whole number is shown with zeros behind the point. -/
theorem digits_of_units_eq {m n : ℕ} (h : units m = n * one) (places : ℕ) :
    Fixed.digits m places = (Nat.toDigits 10 n, List.replicate places '0') := by
  have hrounded : Fixed.rounded m places = n * 10 ^ places := by
    rw [Fixed.rounded, h, Nat.pow_eq, Nat.mul_right_comm, roundHalfEven_mul _ _ Binary64.one_pos]
  rw [Fixed.digits, hrounded, Nat.pow_eq, Nat.mul_div_cancel _ (Nat.pow_pos (by decide)),
    lastDigits_mul_pow]

theorem withoutTrailingZeros_zeros (k : ℕ) : withoutTrailingZeros (List.replicate k '0') = [] := by
  simp [withoutTrailingZeros]

/-- The zeros that a fraction has are shown as far as the format requires zeros. -/
theorem fractionDigits_replicate {f : DecimalFormat} {places : ℕ} (h : f.minFraction ≤ places) :
    f.fractionDigits (List.replicate places '0') = f.fractionDigits [] := by
  rw [fractionDigits_nil, fractionDigits, List.take_replicate, List.drop_replicate,
    withoutTrailingZeros_zeros, List.length_replicate, Nat.min_eq_left h,
    Nat.sub_eq_zero_of_le h, List.replicate_zero, List.append_nil, List.append_nil]

theorem layout_congr {f : DecimalFormat} {fraction fraction' : List Char} (negative : Bool)
    (integer : List Char) (h : f.fractionDigits fraction = f.fractionDigits fraction') :
    f.layout negative integer fraction = f.layout negative integer fraction' := by
  simp only [layout, h]

/-- A zero is shown without a sign. -/
theorem layout_zero (f : DecimalFormat) (negative : Bool) :
    f.layout negative ['0'] [] = f.layout false ['0'] [] := by
  have hdigit : ∀ c ∈ f.wholeDigits ['0'] [] ++ f.fractionDigits [], c.isDigit = true := by
    intro c hc
    exact (List.mem_append.1 hc).elim (f.isDigit_wholeDigits (by simp) c)
      (f.isDigit_fractionDigits (by simp) c)
  have hvalue : digitsValue (f.wholeDigits ['0'] [] ++ f.fractionDigits []) = 0 := by
    rw [fractionDigits_nil, digitsValue_append_zeros, digitsValue_wholeDigits]
    exact Nat.zero_mul _
  have hnone : showsNonzero (f.wholeDigits ['0'] [] ++ f.fractionDigits []) = false := by
    rw [← Bool.not_eq_true, showsNonzero_iff hdigit, not_not]
    exact hvalue
  rw [layout_eq, layout_eq, hnone, Bool.and_false, Bool.and_false]

/-! ## Exact scaling -/

section

variable {f : DecimalFormat} (hf : f.Proper) {x : Float} (hx : x.isFinite = true)
include hf hx

/-- Scaling is exact as long as the scaled number is not beyond 2⁵³. -/
theorem units_scaled {k : ℕ} (hunits : units (magnitude x) = k * one) (hk : k * f.scale ≤ 2 ^ 53) :
    (f.scaled x).isFinite = true ∧ units (magnitude (f.scaled x)) = k * f.scale * one := by
  have hscale : f.scale ≤ 2 ^ 53 := by
    have hmem := hf.scale_mem
    simp only [List.mem_cons, List.not_mem_nil, or_false] at hmem
    omega
  have hunits_scale : units (magnitude (floatOfInt f.scale)) = f.scale * one := by
    rw [magnitude_floatOfInt]
    exact (units_nearest hscale).2
  have hmagnitude : magnitude (f.scaled x) = nearest (k * f.scale) 1 := by
    have hproduct : k * one * (f.scale * one) = k * f.scale * (one * one) := by ring
    calc magnitude (f.scaled x)
      _ = nearest (units (magnitude x.abs) * units (magnitude (floatOfInt f.scale)))
            (one * one) := magnitude_mul (isFinite_abs hx) hf.scale_double.1
      _ = nearest (k * f.scale * (one * one)) (1 * (one * one)) := by
        rw [magnitude_abs hx, hunits, hunits_scale, hproduct, Nat.one_mul]
      _ = nearest (k * f.scale) 1 :=
        nearest_mul_mul _ _ (Nat.mul_pos Binary64.one_pos Binary64.one_pos)
  rw [isFinite_iff, hmagnitude]
  exact units_nearest hk

/-- A double whose value is an integer is shown as the integer. -/
theorem showNumber_double_eq_integer {n : Int64} (hvalue : value x = n.toInt)
    (hn : (n.toInt * f.scale).natAbs ≤ 2 ^ 53) :
    f.showNumber (.double x) = f.showNumber (.integer n) := by
  have hunits := units_magnitude_of_value_eq hvalue
  rw [Int.natAbs_mul, Int.natAbs_natCast] at hn
  obtain ⟨hfinite, hscaled⟩ := units_scaled hf hx hunits hn
  have hdigits := digits_of_units_eq hscaled f.maxFraction
  calc f.showNumber (.double x)
    _ = f.layout (isNegative x) (Nat.toDigits 10 (n.toInt.natAbs * f.scale))
          (List.replicate f.maxFraction '0') := by
        rw [showNumber_double_eq_layout hx hfinite, roundedDigits, hdigits]
    _ = f.layout (isNegative x) (Nat.toDigits 10 (n.toInt.natAbs * f.scale)) [] :=
        layout_congr _ _ (fractionDigits_replicate hf.minFraction_le)
    _ = f.layout (n.toInt < 0) (Nat.toDigits 10 (n.toInt.natAbs * f.scale)) [] := by
        by_cases hzero : n.toInt = 0
        · rw [hzero, Int.natAbs_zero, Nat.zero_mul]
          exact (f.layout_zero _).trans (f.layout_zero _).symm
        · rw [isNegative_of_value_eq hvalue hzero]

end

end DecimalFormat

/-! ## Texts of integers -/

namespace Number

/-- An integer with a point and a zero behind it is its double. -/
theorem ofText?_integerText_point (n : ℤ) :
    ofText? (integerText n ++ ['.', '0']) = some (.double (floatOfInt n)) := by
  let l := Literal.ofParts (isDigits_toDigits n.natAbs) Decimal.isDigits_zero (n < 0) none
  have htext : l.text = integerText n ++ ['.', '0'] := by
    rw [Literal.text_ofParts, integerText_eq, List.append_assoc]
    rfl
  have hmagnitude : l.decimal.magnitude = nearest n.natAbs 1 := by
    have hten : digitsValue (Nat.toDigits 10 n.natAbs ++ ['0']) = n.natAbs * 10 ^ 1 := by
      rw [digitsValue_append, digitsValue_toDigits]
      rfl
    have hsame : l.decimal.magnitude = Decimal.magnitude ⟨n.natAbs, 0⟩ := by
      rw [Literal.decimal_ofParts, hten]
      exact Decimal.magnitude_mul_pow ..
    rw [hsame, Decimal.magnitude_eq_nearest]
    exact congrArg₂ nearest (Nat.mul_one _) rfl
  have hdecimal : l.isInteger = false := rfl
  rw [← htext, l.ofText?_text, hdecimal, if_neg Bool.false_ne_true, Decimal.toFloat, hmagnitude]
  rfl

end Number

namespace Value

/-- The value counts as the integer, or as a double with its value. -/
inductive CountsAs (v : Value) (n : Int64) : Prop where
  | integer (h : v.toNumber = .ok (.integer n))
  | double {x : Float} (h : v.toNumber = .ok (.double x)) (hfinite : x.isFinite = true)
    (hvalue : value x = n.toInt)

theorem countsAs_text_display (n : Int64) : (text (Value.integer n).display).CountsAs n :=
  .integer (toNumber_text_display (n := .integer n) trivial)

theorem countsAs_text_point {n : Int64} (hn : n.toInt.natAbs ≤ 2 ^ 53) :
    (text ((Value.integer n).display ++ ".0")).CountsAs n := by
  obtain ⟨hfinite, hvalue⟩ := value_floatOfInt hn
  refine .double (x := floatOfInt n.toInt) ?_ hfinite hvalue
  have htext : ((Value.integer n).display ++ ".0").toList = integerText n.toInt ++ ['.', '0'] := by
    rw [String.toList_append, display, String.toList_ofList]
    rfl
  rw [toNumber, htext, ofText?_integerText_point]

end Value

namespace DecimalFormat

section

variable {σ : Type} [Host σ]

/-- The function for decimal formats pushes what the pattern shows. -/
theorem run_call_of_apply {p v : Value} {n : Number} {shown : String} (hv : v.toNumber = .ok n)
    (h : apply p.display n = .ok shown) (below : List Value) (host : σ) :
    (Builtin.call "decfmt").run ⟨p :: v :: below, host⟩ =
      (.ok (), ⟨.text shown :: below, host⟩) := by
  have hname : "decfmt" = Builtin.decimalFormat.name := rfl
  rw [hname, Builtin.run_call_decimalFormat, hv]
  change (do Step.push (.text (← apply p.display n)) : Step σ Unit).run ⟨below, host⟩ = _
  rw [h]
  rfl

end

/-- A pattern shows an integer and its double alike as long as the scaled integer is not beyond 2⁵³,
and so the function for decimal formats pushes the same text for every value that counts as the
integer or as a double with its value: the integer, its double, the text of the integer, and that
text with a point and a zero. -/
theorem apply_equal {pattern : String} {f : DecimalFormat} (h : Describes pattern.toList f)
    {n : Int64} (hn : (n.toInt * f.scale).natAbs ≤ 2 ^ 53) :
    ∃ shown, apply pattern (.integer n) = .ok shown ∧
      apply pattern (.double (floatOfInt n.toInt)) = .ok shown ∧
      (∀ v : Value, v.CountsAs n → ∀ (σ : Type) [Host σ] (host : σ) (p : Value)
        (below : List Value), p.display = pattern →
        (Builtin.call "decfmt").run ⟨p :: v :: below, host⟩ =
          (.ok (), ⟨.text shown :: below, host⟩)) ∧
      ∀ v ∈ [Value.integer n, .double (floatOfInt n.toInt), .text (Value.integer n).display,
        .text ((Value.integer n).display ++ ".0")], v.CountsAs n := by
  have hf := h.proper
  have hle : n.toInt.natAbs ≤ 2 ^ 53 := by
    rw [Int.natAbs_mul, Int.natAbs_natCast] at hn
    exact Nat.le_trans (Nat.le_mul_of_pos_right _ hf.scale_pos) hn
  obtain ⟨hfinite, hvalue⟩ := value_floatOfInt hle
  have hdouble {x : Float} (hx : x.isFinite = true) (hxn : value x = n.toInt) :
      apply pattern (.double x) = .ok (String.ofList (f.showNumber (.integer n))) := by
    rw [h.apply_eq, showNumber_double_eq_integer hf hx hxn hn]
  refine ⟨_, h.apply_eq _, hdouble hfinite hvalue, ?_, ?_⟩
  · intro v hv σ _ host p below hp
    cases hv with
    | integer hv => exact run_call_of_apply hv (hp ▸ h.apply_eq _) below host
    | double hv hx hxn => exact run_call_of_apply hv (hp ▸ hdouble hx hxn) below host
  · intro v hv
    simp only [List.mem_cons, List.not_mem_nil, or_false] at hv
    rcases hv with rfl | rfl | rfl | rfl
    · exact .integer rfl
    · exact .double rfl hfinite hvalue
    · exact Value.countsAs_text_display n
    · exact Value.countsAs_text_point hle

/-- A negative integer in percent, with groups and a required zero behind the point. -/
theorem apply_equal_percent :
    Describes "#,##0.0#%".toList ⟨[], ['%'], 1, some 3, 1, 2, 100⟩ ∧
      ((-42 : Int64).toInt * (100 : ℕ)).natAbs ≤ 2 ^ 53 ∧
      apply "#,##0.0#%" (.integer (-42)) = .ok "-4,200.0%" ∧
      apply "#,##0.0#%" (.double (-42)) = .ok "-4,200.0%" ∧
      ∀ v ∈ [Value.integer (-42), .double (-42), .text "-42", .text "-42.0"],
        (Builtin.call "decfmt").run ⟨[.text "#,##0.0#%", v], ({} : Page)⟩ =
          (.ok (), ⟨[.text "-4,200.0%"], {}⟩) := by
  have h : Describes "#,##0.0#%".toList ⟨[], ['%'], 1, some 3, 1, 2, 100⟩ :=
    ofPattern?_eq_some_iff.1 (by decide +kernel)
  have hn : ((-42 : Int64).toInt * (100 : ℕ)).natAbs ≤ 2 ^ 53 := by decide
  have hshown : apply "#,##0.0#%" (.integer (-42)) = .ok "-4,200.0%" := by decide +kernel
  have hfloat : floatOfInt (-42 : Int64).toInt = -42 := by decide +kernel
  have hdisplay : (Value.integer (-42)).display = "-42" := by decide +kernel
  obtain ⟨shown, hinteger, hdouble, hcall, hvalues⟩ := apply_equal h hn
  obtain rfl := Except.ok.inj (hshown.symm.trans hinteger)
  rw [hfloat] at hdouble hvalues
  rw [hdisplay] at hvalues
  exact ⟨h, hn, hshown, hdouble, fun v hv => hcall v (hvalues v hv) Page {} _ [] rfl⟩

end DecimalFormat

end Stencil
