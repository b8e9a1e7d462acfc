import Stencil.Proofs.Number.Conversion
import Stencil.Proofs.Number.Grammar
import Stencil.Proofs.Value.Exact
set_option autoImplicit false

/-!
# Texts that count as numbers

A text counts as a number only where it is one of the grammar: an integer is written with
a sign or none and digits, a double is a numeral that has a point or an exponent, and
every other text is refused (`Value.numeric_text`).  The double is the closest one to the
value of the numeral, so that no text counts as NaN.
-/

namespace Stencil

namespace Number

open Binary64

/-- The text is written with a sign or none and digits, and denotes the integer. -/
def DenotesInteger (cs : List Char) (n : Int) : Prop :=
  ∃ t : SignedDigits, t.text = cs ∧ t.value = n

/-- The text is a numeral with a point or an exponent. -/
def IsDecimal (cs : List Char) : Prop :=
  (∃ c ∈ cs, c = '.' ∨ c = 'e' ∨ c = 'E') ∧ ∃ t : Numeral, t.text = cs

/-- The double has the sign of the numeral, and no double is closer to its value. -/
structure Numeral.IsRounded (t : Numeral) (x : Float) : Prop where
  isNegative : isNegative x = t.negative
  isClosest : IsClosest t.decimal.value (magnitude x)

/-- The double to which a numeral is rounded. -/
theorem Numeral.isRounded_iff {t : Numeral} {x : Float} :
    t.IsRounded x ↔ x = t.decimal.toFloat t.negative := by
  have hle := t.decimal.magnitude_le
  have hclosest := t.decimal.isClosest_magnitude
  constructor
  · intro h
    refine eq_of_magnitude_eq (h.isNegative.trans (isNegative_ofMagnitude _ hle).symm) ?_
    exact (h.isClosest.unique hclosest).trans (magnitude_ofMagnitude _ hle).symm
  · rintro rfl
    refine ⟨isNegative_ofMagnitude _ hle, ?_⟩
    rwa [Decimal.toFloat, magnitude_ofMagnitude _ hle]

variable {cs : List Char}

theorem DenotesInteger.noDecimalMark {n : Int} (h : DenotesInteger cs n) :
    hasDecimalMark cs = false := by
  obtain ⟨t, rfl, -⟩ := h
  exact t.noDecimalMark

/-- A text denotes one integer only. -/
theorem DenotesInteger.unique {m n : Int} (hm : DenotesInteger cs m) (hn : DenotesInteger cs n) :
    m = n :=
  Option.some.inj ((integer?_eq_some_iff.2 hm).symm.trans (integer?_eq_some_iff.2 hn))

theorem ofText?_eq_integer_iff {n : Int64} :
    ofText? cs = some (.integer n) ↔ DenotesInteger cs n.toInt := by
  constructor
  · intro h
    unfold ofText? at h
    split at h
    · obtain ⟨d, -, hd⟩ := Option.map_eq_some_iff.1 h
      cases hd
    · obtain ⟨m, hm, hn⟩ := Option.bind_eq_some_iff.1 h
      obtain ⟨k, hk, hkn⟩ := Option.map_eq_some_iff.1 hn
      obtain rfl := Number.integer.inj hkn
      rw [toInt64?_eq_some_iff.1 hk]
      exact integer?_eq_some_iff.1 hm
  · intro h
    have hread : integer? cs = some n.toInt := integer?_eq_some_iff.2 h
    rw [ofText?, h.noDecimalMark, hread]
    exact congrArg (Option.map Number.integer) (toInt64?_eq_some_iff.2 rfl)

theorem ofText?_eq_double_iff {x : Float} :
    ofText? cs = some (.double x) ↔
      (∃ c ∈ cs, c = '.' ∨ c = 'e' ∨ c = 'E') ∧ ∃ t : Numeral, t.text = cs ∧ t.IsRounded x := by
  rw [← hasDecimalMark_iff]
  constructor
  · intro h
    unfold ofText? at h
    split at h
    · rename_i hmark
      obtain ⟨⟨negative, d⟩, hd, hx⟩ := Option.map_eq_some_iff.1 h
      obtain ⟨t, rfl, rfl, rfl⟩ := decimal?_eq_some_iff.1 hd
      exact ⟨hmark, t, rfl, Numeral.isRounded_iff.2 (Number.double.inj hx).symm⟩
    · obtain ⟨m, -, hn⟩ := Option.bind_eq_some_iff.1 h
      obtain ⟨k, -, hk⟩ := Option.map_eq_some_iff.1 hn
      cases hk
  · rintro ⟨hmark, t, rfl, hx⟩
    rw [ofText?, hmark, t.decimal?_text, Numeral.isRounded_iff.1 hx]
    rfl

theorem exists_ofText?_eq_double_iff :
    (∃ x, ofText? cs = some (.double x)) ↔ IsDecimal cs := by
  constructor
  · rintro ⟨x, hx⟩
    obtain ⟨hmark, t, ht, -⟩ := ofText?_eq_double_iff.1 hx
    exact ⟨hmark, t, ht⟩
  · rintro ⟨hmark, t, ht⟩
    exact ⟨_, ofText?_eq_double_iff.2 ⟨hmark, t, ht, Numeral.isRounded_iff.2 rfl⟩⟩

/-- No text denotes NaN. -/
theorem not_isNaN_of_ofText? {n : Number} (h : ofText? cs = some n) : n.toFloat.isNaN = false := by
  cases n with
  | integer n =>
    refine not_isNaN_of_magnitude_le ?_
    rw [toFloat, magnitude_floatOfInt]
    exact nearest_le_infinity ..
  | double x =>
    obtain ⟨-, t, -, hx⟩ := ofText?_eq_double_iff.1 h
    exact not_isNaN_of_magnitude_le hx.isClosest.le_infinity

/-- A text that is neither an integer in range nor a decimal is no number. -/
theorem ofText?_eq_none_iff :
    ofText? cs = none ↔ (∀ n : Int64, ¬DenotesInteger cs n.toInt) ∧ ¬IsDecimal cs := by
  rw [← exists_ofText?_eq_double_iff, not_exists]
  simp only [← ofText?_eq_integer_iff]
  constructor
  · intro h
    rw [h]
    exact ⟨nofun, nofun⟩
  · rintro ⟨hinteger, hdouble⟩
    cases hn : ofText? cs with
    | none => rfl
    | some n =>
      cases n with
      | integer n => exact absurd hn (hinteger n)
      | double x => exact absurd hn (hdouble x)

end Number

namespace Value

open Number

variable {s : String}

/-- What is made of the number that a text counts as. -/
theorem map_toNumber_text_eq_ok_iff {α : Type} {f : Number → α} {a : α} :
    (text s).toNumber.map f = .ok a ↔ ∃ n, ofText? s.toList = some n ∧ f n = a := by
  rw [toNumber]
  cases ofText? s.toList with
  | none => simp [Except.map]
  | some n => simp [Except.map]

theorem numeric_text_eq_integer_iff {n : Int64} :
    (text s).numeric = .ok (integer n) ↔ ofText? s.toList = some (.integer n) := by
  rw [numeric, map_toNumber_text_eq_ok_iff]
  constructor
  · rintro ⟨⟨m⟩ | _, hm, hv⟩
    · rwa [← Value.integer.inj hv]
    · cases hv
  · exact fun h => ⟨_, h, rfl⟩

theorem numeric_text_eq_double_iff {x : Float} :
    (text s).numeric = .ok (double x) ↔ ofText? s.toList = some (.double x) := by
  rw [numeric, map_toNumber_text_eq_ok_iff]
  constructor
  · rintro ⟨_ | ⟨y⟩, hy, hv⟩
    · cases hv
    · rwa [← Value.double.inj hv]
  · exact fun h => ⟨_, h, rfl⟩

theorem numeric_text_eq_error_iff {e : EvalError} :
    (text s).numeric = .error e ↔ ofText? s.toList = none ∧ e = .invalidNumber s := by
  rw [numeric, toNumber]
  cases ofText? s.toList with
  | none => simp [Except.map, eq_comm]
  | some n => simp [Except.map]

/-- What a text counts as. -/
structure IsCoercion (s : String) (r : Except EvalError Value) : Prop where
  /-- an integer in range exactly where it is written with a sign or none and digits -/
  integer_iff (n : Int64) : r = .ok (integer n) ↔ DenotesInteger s.toList n.toInt
  /-- a double exactly where it is a numeral with a point or an exponent -/
  double_iff : (∃ x, r = .ok (double x)) ↔ IsDecimal s.toList
  /-- with the sign of the numeral and closest to its value -/
  rounded (x : Float) : r = .ok (double x) ↔
    IsDecimal s.toList ∧ ∃ t : Numeral, t.text = s.toList ∧ t.IsRounded x
  /-- every other text is refused -/
  error_iff (e : EvalError) : r = .error e ↔
    (∀ n : Int64, ¬DenotesInteger s.toList n.toInt) ∧ ¬IsDecimal s.toList ∧ e = .invalidNumber s
  /-- an integer out of range too -/
  outOfRange (n : Int) : DenotesInteger s.toList n → (∀ i : Int64, i.toInt ≠ n) →
    r = .error (.invalidNumber s)
  /-- no other character is accepted than digits, signs and marks -/
  mem (v : Value) : r = .ok v → ∀ c ∈ s.toList, c.isDigit = true ∨ c ∈ ['+', '-', '.', 'e', 'E']

/-- Each character of a text that counts as a number is a digit, a sign or a mark. -/
theorem mem_of_numeric_text {v : Value} (h : (text s).numeric = .ok v) {c : Char}
    (hc : c ∈ s.toList) : c.isDigit = true ∨ c ∈ ['+', '-', '.', 'e', 'E'] := by
  obtain ⟨n, hn, -⟩ := map_toNumber_text_eq_ok_iff.1 h
  cases n with
  | integer n =>
    obtain ⟨t, ht, -⟩ := ofText?_eq_integer_iff.1 hn
    exact t.mem_text (ht ▸ hc)
  | double x =>
    obtain ⟨-, t, ht, -⟩ := ofText?_eq_double_iff.1 hn
    exact t.mem_text (ht ▸ hc)

/-- A text counts as an integer or a double where it is written as one, and is refused otherwise.
No text counts as NaN. -/
theorem numeric_text (s : String) :
    IsCoercion s (text s).numeric ∧ ∀ x, (text s).toFloat = .ok x → x.isNaN = false := by
  have hinteger (n : Int64) :
      (text s).numeric = .ok (integer n) ↔ DenotesInteger s.toList n.toInt :=
    numeric_text_eq_integer_iff.trans ofText?_eq_integer_iff
  have hdecimal : (∃ x, (text s).numeric = .ok (double x)) ↔ IsDecimal s.toList :=
    (exists_congr fun _ => numeric_text_eq_double_iff).trans exists_ofText?_eq_double_iff
  have herror (e : EvalError) : (text s).numeric = .error e ↔
      (∀ n : Int64, ¬DenotesInteger s.toList n.toInt) ∧ ¬IsDecimal s.toList ∧
        e = .invalidNumber s := by
    rw [numeric_text_eq_error_iff, ofText?_eq_none_iff, and_assoc]
  refine ⟨⟨hinteger, hdecimal, fun x => ?_, herror, fun n hn hrange => ?_,
    fun v hv c => mem_of_numeric_text hv⟩, fun x hx => ?_⟩
  · rw [numeric_text_eq_double_iff, ofText?_eq_double_iff]
    exact ⟨fun h => ⟨⟨h.1, h.2.imp fun _ ht => ht.1⟩, h.2⟩, fun h => ⟨h.1.1, h.2⟩⟩
  · refine (herror _).2 ⟨fun i hi => hrange i (hi.unique hn), fun hdecimal => ?_, rfl⟩
    exact Bool.false_ne_true (hn.noDecimalMark.symm.trans (hasDecimalMark_iff.2 hdecimal.1))
  · obtain ⟨n, hn, rfl⟩ := map_toNumber_text_eq_ok_iff.1 hx
    exact not_isNaN_of_ofText? hn

/-- A numeral that is too large is infinite, and an integer that is too large is refused. -/
example : (text "1e400").numeric = .ok (double (Float.ofBits 0x7FF0000000000000)) ∧
    (text "9223372036854775808").numeric =
      .error (.invalidNumber "9223372036854775808") := by decide +kernel

end Value

end Stencil
