import Stencil.Proofs.DecimalFormat.Pattern
import Stencil.Proofs.DecimalFormat.Shown
import Stencil.Proofs.Number.Product
import Stencil.Proofs.Number.Text
set_option autoImplicit false

/-!
# Doubles shown by a pattern

A finite double is scaled and rounded to the places of the format, and shown without
needless zeros (`apply_double`).  Where the scaled double is not finite, letters stand in
place of the digits and a sign is lost, and only there (`showsPlain_iff`).
-/

namespace Stencil.DecimalFormat

open Number Number.Binary64

/-! ## The scaled double -/

/-- The double without its sign, scaled. -/
def scaled (f : DecimalFormat) (x : Float) : Float := x.abs * floatOfInt f.scale

section Scaled

variable {f : DecimalFormat} {x : Float} (hf : f.Proper) (hx : x.isFinite = true)

include hf in
theorem Proper.scale_double :
    (floatOfInt f.scale).isFinite = true ∧ sign (floatOfInt f.scale) = .positive ∧
      one ≤ units (magnitude (floatOfInt f.scale)) := by
  have hscale := hf.scale_mem
  simp only [List.mem_cons, List.not_mem_nil, or_false] at hscale
  rcases hscale with hscale | hscale | hscale <;> rw [hscale] <;>
    exact ⟨by decide +kernel, if_neg (by decide +kernel), by decide +kernel⟩

include hx in
theorem isFinite_abs : x.abs.isFinite = true := by
  rw [isFinite_iff, magnitude_abs hx]
  exact (isFinite_iff x).1 hx

include hf hx

theorem sign_scaled : sign (f.scaled x) = .positive := by
  have hmul := (hasBits_mul (isFinite_abs hx) hf.scale_double.1).sign_eq
  rw [(hasBits_abs hx).sign_eq, hf.scale_double.2.1] at hmul
  exact hmul

theorem magnitude_scaled_of_zero (hzero : magnitude x = 0) : magnitude (f.scaled x) = 0 :=
  magnitude_mul_of_zero (isFinite_abs hx) hf.scale_double.1 ((magnitude_abs hx).trans hzero)

theorem one_le_units_scaled (hone : one ≤ units (magnitude x)) :
    one ≤ units (magnitude (f.scaled x)) := by
  refine one_le_units_mul (isFinite_abs hx) hf.scale_double.1 ?_ hf.scale_double.2.2
  rwa [magnitude_abs hx]

theorem isInf_scaled (h : ¬(f.scaled x).isFinite = true) : (f.scaled x).isInf = true :=
  isInf_mul (isFinite_abs hx) hf.scale_double.1 h

end Scaled

/-! ## Rounded doubles -/

/-- The digits of the scaled double, rounded to the places of the format. -/
def roundedDigits (f : DecimalFormat) (x : Float) : List Char × List Char :=
  Fixed.digits (magnitude (f.scaled x)) f.maxFraction

/-- A shown number has the digits that the format requires, and no zeros at its ends beyond them; a
zero alone may stand for a number without digits. -/
structure Fits (f : DecimalFormat) (s : Shown f.group) : Prop where
  minFraction_le : f.minFraction ≤ s.fraction.length
  le_maxFraction : s.fraction.length ≤ f.maxFraction
  no_zero_behind : f.minFraction < s.fraction.length → s.fraction.getLast? ≠ some '0'
  minInteger_le : f.minInteger ≤ s.integer.length
  no_zero_before : f.minInteger < s.integer.length → s.integer.head? = some '0' →
    s.integer = ['0'] ∧ s.fraction = []

section Rounded

variable {f : DecimalFormat} {x : Float} (hf : f.Proper) (hx : x.isFinite = true)

theorem isDigit_roundedDigits (f : DecimalFormat) (x : Float) :
    (∀ c ∈ (f.roundedDigits x).1, c.isDigit = true) ∧
      ∀ c ∈ (f.roundedDigits x).2, c.isDigit = true :=
  ⟨(isDigits_toDigits _).digits, isDigit_lastDigits _ _⟩

/-- The number that is shown for a double. -/
def shownDouble (x : Float) : Shown f.group :=
  shown hf.group_pos (isDigit_roundedDigits f x).1 (isDigit_roundedDigits f x).2 (isNegative x)

include hx in
theorem showNumber_double_eq_layout (hscaled : (f.scaled x).isFinite = true) :
    f.showNumber (.double x) =
      f.layout (isNegative x) (f.roundedDigits x).1 (f.roundedDigits x).2 := by
  have hinf : (x.abs * floatOfInt f.scale).isInf = false := not_isInf_of_isFinite hscaled
  simp only [showNumber, showDouble, not_isNaN_of_isFinite hx, not_isInf_of_isFinite hx, hinf]
  rfl

include hx in
theorem showNumber_double (hscaled : (f.scaled x).isFinite = true) :
    f.showNumber (.double x) = f.before ++ (shownDouble hf x).text ++ f.after :=
  (showNumber_double_eq_layout hx hscaled).trans (layout_eq_shown ..)

theorem value_shownDouble :
    (shownDouble hf x).value =
      (Fixed.rounded (magnitude (f.scaled x)) f.maxFraction : ℚ) / 10 ^ f.maxFraction :=
  (value_shown ..).trans (Fixed.value_digits _ _)

theorem shownDouble_negative_iff :
    (shownDouble hf x).negative = true ↔
      isNegative x = true ∧ (shownDouble hf x).value ≠ 0 := by
  rw [shownDouble, value_shown]
  exact negative_shown_iff ..

include hx in
/-- The shown number is the scaled double, rounded. -/
theorem isRounding_shownDouble :
    IsRounding (value (f.scaled x)) f.maxFraction (shownDouble hf x).value := by
  rw [value_of_positive (sign_scaled hf hx), value_shownDouble, ← Fixed.value_digits]
  exact Fixed.isRounding _ _

theorem fits_shownDouble : f.Fits (shownDouble hf x) := by
  have hinteger : (shownDouble hf x).integer =
      f.wholeDigits (f.roundedDigits x).1 (f.roundedDigits x).2 := integer_shown ..
  have hfraction : (shownDouble hf x).fraction = f.fractionDigits (f.roundedDigits x).2 := rfl
  have hlength : (f.roundedDigits x).2.length = f.maxFraction := length_lastDigits _ _
  constructor
  · exact f.minFraction_le_length_fractionDigits _
  · rw [hfraction]
    refine Nat.le_trans (f.length_fractionDigits_le _) ?_
    rw [hlength]
    exact Nat.max_le.2 ⟨hf.minFraction_le, Nat.le_refl _⟩
  · exact f.getLast?_fractionDigits _
  · rw [hinteger]
    exact f.minInteger_le_length_wholeDigits _ _
  · rw [hinteger, hfraction]
    exact f.head?_wholeDigits _ _

end Rounded

variable {pattern : String} {f : DecimalFormat}

/-- A finite double whose scaled value is finite is shown rounded half to even to the places of the
format, without needless zeros, and with a sign if it is negative and does not count as zero. -/
theorem apply_double (h : Describes pattern.toList f) {x : Float} (hx : x.isFinite = true)
    (hscaled : (f.scaled x).isFinite = true) :
    ∃ s : Shown f.group,
      apply pattern (.double x) = .ok (String.ofList (f.before ++ s.text ++ f.after)) ∧
      (∀ y, IsRounding (value (f.scaled x)) f.maxFraction y ↔ y = s.value) ∧
      f.Fits s ∧
      (s.negative = true ↔ value x < 0 ∧ s.value ≠ 0) := by
  have hf := h.proper
  have hrounding := isRounding_shownDouble hf hx
  refine ⟨shownDouble hf x, ?_, fun y => ⟨fun hy => hy.unique hrounding, ?_⟩,
    fits_shownDouble hf, ?_⟩
  · rw [h.apply_eq, showNumber_double hf hx hscaled]
  · rintro rfl
    exact hrounding
  · rw [shownDouble_negative_iff, value_neg_iff, and_assoc]
    refine and_congr_right fun _ => (and_iff_right_of_imp fun hvalue hzero => hvalue ?_).symm
    rw [value_shownDouble, magnitude_scaled_of_zero hf hx hzero, Fixed.rounded_zero]
    simp

/-- A tie in the third place goes to the even digit, and the sign stays. -/
theorem apply_double_tie :
    Describes "#,##0.00".toList ⟨[], [], 1, some 3, 2, 2, 1⟩ ∧
      (Float.ofBits 0xbfc0000000000000).isFinite = true ∧
      value (Float.ofBits 0xbfc0000000000000) = -1 / 8 ∧
      ∃ s : Shown (some 3),
        apply "#,##0.00" (.double (Float.ofBits 0xbfc0000000000000)) = .ok (String.ofList s.text) ∧
        s.negative = true ∧ s.value = 12 / 100 := by
  have h : Describes "#,##0.00".toList ⟨[], [], 1, some 3, 2, 2, 1⟩ :=
    ofPattern?_eq_some_iff.1 (by decide +kernel)
  have hx : (Float.ofBits 0xbfc0000000000000).isFinite = true := by decide +kernel
  have hvalue : value (Float.ofBits 0xbfc0000000000000) = -1 / 8 := by decide +kernel
  have hscaled : value (scaled ⟨[], [], 1, some 3, 2, 2, 1⟩ (Float.ofBits 0xbfc0000000000000)) =
      1 / 8 := by decide +kernel
  obtain ⟨s, happly, hrounding, -, hnegative⟩ := apply_double h hx (by decide +kernel)
  have hs : 12 / 100 = s.value := by
    refine (hrounding _).1 ⟨12, ?_, by norm_num⟩
    rw [hscaled]
    exact ⟨by norm_num [abs_le], fun _ => by decide⟩
  refine ⟨h, hx, hvalue, s, ?_, hnegative.2 ⟨?_, ?_⟩, hs.symm⟩
  · simpa using happly
  · rw [hvalue]
    norm_num
  · rw [← hs]
    norm_num

/-! ## Plain texts -/

/-- What is shown between the literals is plain: behind a sign, if there is one, only digits, commas
and one point at most, or the sign of infinity. -/
inductive IsPlain : List Char → Prop where
  | digits (negative : Bool) {cs : List Char}
    (h : ∀ c ∈ cs, c.isDigit = true ∨ c = ',' ∨ c = '.') (hpoint : cs.count '.' ≤ 1) :
    IsPlain (signText negative ++ cs)
  | infinity (negative : Bool) : IsPlain (signText negative ++ ['∞'])

/-- A double is shown as a plain text, which begins with a sign if the double is minus one or
less. -/
def ShowsPlain (pattern : String) (f : DecimalFormat) (x : Float) : Prop :=
  ∃ text, apply pattern (.double x) = .ok (String.ofList (f.before ++ text ++ f.after)) ∧
    IsPlain text ∧ (value x ≤ -1 → text.head? = some '-')

theorem letter_not_mem_of_isPlain {cs : List Char} (h : IsPlain cs) : 'i' ∉ cs := by
  intro hmem
  cases h with
  | digits negative h =>
    rcases List.mem_append.1 hmem with hsign | hmem
    · cases negative <;> simp [signText] at hsign
    · rcases h _ hmem with hc | hc | hc <;> cases hc
  | infinity negative => cases negative <;> simp [signText] at hmem

namespace Shown

variable {group : Option Nat} (s : Shown group)

theorem mem_whole {c : Char} (hc : c ∈ s.whole) : c.isDigit = true ∨ c = ',' := by
  by_cases hcomma : c = ','
  · exact .inr hcomma
  · have hmem : c ∈ s.whole.filter (· != ',') := List.mem_filter.2 ⟨hc, by simpa using hcomma⟩
    exact .inl (s.isDigit c (List.mem_append_left _ hmem))

theorem isPlain_text : IsPlain s.text := by
  have hfraction : ∀ c ∈ s.fraction, c.isDigit = true := fun c hc =>
    s.isDigit c (List.mem_append_right _ hc)
  have hwhole : s.whole.count '.' = 0 := List.count_eq_zero.2 fun hmem => by
    rcases s.mem_whole hmem with hc | hc <;> cases hc
  have hpoint : s.fraction.count '.' = 0 := List.count_eq_zero.2 fun hmem => by
    cases hfraction _ hmem
  rw [text, List.append_assoc]
  refine .digits s.negative (fun c hc => ?_) ?_
  · rcases List.mem_append.1 hc with hc | hc
    · exact (s.mem_whole hc).imp_right .inl
    · unfold pointed at hc
      split at hc
      · cases hc
      · rcases List.mem_cons.1 hc with rfl | hc
        · exact .inr (.inr rfl)
        · exact .inl (hfraction c hc)
  · unfold pointed
    split <;> simp [hwhole, hpoint]

end Shown

/-! ## Doubles that scaling makes infinite -/

/-- What is shown where the scaled double is infinite. -/
def overflowText (f : DecimalFormat) : List Char :=
  withCommas f.group (f.wholeDigits ['i', 'n', 'f'] []) ++ pointed (f.fractionDigits [])

theorem wholeDigits_letters (f : DecimalFormat) :
    f.wholeDigits ['i', 'n', 'f'] [] =
      List.replicate (f.minInteger - 3) '0' ++ ['i', 'n', 'f'] := by
  simp [wholeDigits, integerDigits]

/-- No digit but zero is shown, and so no sign. -/
theorem layout_letters (f : DecimalFormat) (negative : Bool) :
    f.layout negative ['i', 'n', 'f'] [] = f.before ++ f.overflowText ++ f.after := by
  have hnone : showsNonzero (f.wholeDigits ['i', 'n', 'f'] [] ++ f.fractionDigits []) = false := by
    rw [wholeDigits_letters, fractionDigits_nil]
    simp [showsNonzero, List.any_append, List.any_replicate]
  rw [layout_eq, hnone, Bool.and_false]
  rfl

theorem not_isPlain_overflowText (f : DecimalFormat) : ¬IsPlain f.overflowText := by
  intro h
  refine letter_not_mem_of_isPlain h (List.mem_append_left _ (mem_withCommas (by decide) ?_))
  rw [wholeDigits_letters]
  simp

theorem filter_overflowText (f : DecimalFormat) :
    f.overflowText.filter (· != ',') =
      List.replicate (f.minInteger - 3) '0' ++ ['i', 'n', 'f'] ++
        pointed (List.replicate f.minFraction '0') := by
  have hcomma : ',' ∉ f.wholeDigits ['i', 'n', 'f'] [] := by
    rw [wholeDigits_letters]
    simp
  have hpointed : (pointed (List.replicate f.minFraction '0')).filter (· != ',') =
      pointed (List.replicate f.minFraction '0') := by
    unfold pointed
    split <;> simp
  rw [overflowText, List.filter_append, filter_withCommas hcomma, wholeDigits_letters,
    fractionDigits_nil, hpointed]

theorem showNumber_double_of_isInf {f : DecimalFormat} {x : Float} (hx : x.isFinite = true)
    (hinf : (f.scaled x).isInf = true) :
    f.showNumber (.double x) = f.before ++ f.overflowText ++ f.after := by
  have hlayout : f.showNumber (.double x) = f.layout (isNegative x) ['i', 'n', 'f'] [] := by
    have hinf' : (x.abs * floatOfInt f.scale).isInf = true := hinf
    simp only [showNumber, showDouble, not_isNaN_of_isFinite hx, not_isInf_of_isFinite hx, hinf']
    rfl
  rw [hlayout, layout_letters]

/-- A double of at least one is shown with its sign. -/
theorem shownDouble_negative {f : DecimalFormat} (hf : f.Proper) {x : Float}
    (hx : x.isFinite = true) (hle : value x ≤ -1) : (shownDouble hf x).negative = true := by
  obtain ⟨hneg, hone⟩ := value_le_neg_one_iff.1 hle
  have hpos := Fixed.rounded_pos (one_le_units_scaled hf hx hone) f.maxFraction
  rw [shownDouble_negative_iff, value_shownDouble]
  refine ⟨hneg, div_ne_zero ?_ (by positivity)⟩
  exact_mod_cast hpos.ne'

/-- A finite double is shown as a plain text, with its sign if it is minus one or less, exactly if
its scaled value is finite; where it is not, the letters `inf` are shown, without a sign. -/
theorem showsPlain_iff (h : Describes pattern.toList f) {x : Float} (hx : x.isFinite = true) :
    (ShowsPlain pattern f x ↔ (f.scaled x).isFinite = true) ∧
    (¬(f.scaled x).isFinite = true →
      ∃ text, apply pattern (.double x) = .ok (String.ofList (f.before ++ text ++ f.after)) ∧
        text.filter (· != ',') =
          List.replicate (f.minInteger - 3) '0' ++ ['i', 'n', 'f'] ++
            pointed (List.replicate f.minFraction '0')) := by
  have hf := h.proper
  by_cases hscaled : (f.scaled x).isFinite = true
  · refine ⟨iff_of_true ?_ hscaled, fun hinf => absurd hscaled hinf⟩
    refine ⟨(shownDouble hf x).text, ?_, Shown.isPlain_text _, fun hle => ?_⟩
    · rw [h.apply_eq, showNumber_double hf hx hscaled]
    · rw [Shown.text, shownDouble_negative hf hx hle]
      rfl
  · have happly : apply pattern (.double x) =
        .ok (String.ofList (f.before ++ f.overflowText ++ f.after)) := by
      rw [h.apply_eq, showNumber_double_of_isInf hx (isInf_scaled hf hx hscaled)]
    refine ⟨iff_of_false ?_ hscaled, fun _ => ⟨_, happly, f.filter_overflowText⟩⟩
    rintro ⟨text, htext, hplain, -⟩
    have hsame := String.ofList_injective (Except.ok.inj (happly.symm.trans htext))
    obtain rfl := List.append_cancel_left (List.append_cancel_right hsame)
    exact f.not_isPlain_overflowText hplain

/-- Minus one in percent keeps its sign. -/
theorem showsPlain_iff_minus_one :
    Describes "0%".toList ⟨[], ['%'], 1, none, 0, 0, 100⟩ ∧
      (Float.ofBits 0xbff0000000000000).isFinite = true ∧
      value (Float.ofBits 0xbff0000000000000) = -1 ∧
      ShowsPlain "0%" ⟨[], ['%'], 1, none, 0, 0, 100⟩ (Float.ofBits 0xbff0000000000000) := by
  have h : Describes "0%".toList ⟨[], ['%'], 1, none, 0, 0, 100⟩ :=
    ofPattern?_eq_some_iff.1 (by decide +kernel)
  have hx : (Float.ofBits 0xbff0000000000000).isFinite = true := by decide +kernel
  exact ⟨h, hx, by decide +kernel, (showsPlain_iff h hx).1.2 (by decide +kernel)⟩

/-- The double nearest to -10³⁰⁸ is finite and below minus one; in percent the letters `inf` are
shown for it. -/
theorem not_showsPlain_percent :
    Describes "0%".toList ⟨[], ['%'], 1, none, 0, 0, 100⟩ ∧
      (Float.ofBits 0xffe1ccf385ebc8a0).isFinite = true ∧
      value (Float.ofBits 0xffe1ccf385ebc8a0) ≤ -1 ∧
      apply "0%" (.double (Float.ofBits 0xffe1ccf385ebc8a0)) =
        .ok (String.ofList ['i', 'n', 'f', '%']) ∧
      ¬ShowsPlain "0%" ⟨[], ['%'], 1, none, 0, 0, 100⟩ (Float.ofBits 0xffe1ccf385ebc8a0) := by
  have h : Describes "0%".toList ⟨[], ['%'], 1, none, 0, 0, 100⟩ :=
    ofPattern?_eq_some_iff.1 (by decide +kernel)
  have happly := h.apply_eq (.double (Float.ofBits 0xffe1ccf385ebc8a0))
  have hshown : showNumber ⟨[], ['%'], 1, none, 0, 0, 100⟩
      (.double (Float.ofBits 0xffe1ccf385ebc8a0)) = ['i', 'n', 'f'] ++ ['%'] := by decide +kernel
  rw [hshown] at happly
  refine ⟨h, by decide +kernel, by decide +kernel, happly, ?_⟩
  rintro ⟨text, htext, hplain, -⟩
  have hsame := String.ofList_injective (Except.ok.inj (happly.symm.trans htext))
  obtain rfl := List.append_cancel_right hsame
  exact letter_not_mem_of_isPlain hplain List.mem_cons_self

end Stencil.DecimalFormat
