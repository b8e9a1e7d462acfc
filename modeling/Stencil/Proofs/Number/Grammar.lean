import Mathlib
import Stencil.Number
set_option autoImplicit false

/-!
# The grammar of numbers

The texts that denote numbers are put together from a sign, runs of digits and an exponent.
An integer is read from `SignedDigits` and from no other text (`integer?_eq_some_iff`), and
a decimal from a `Numeral`, whose point may stand in front of its digits, among them or
behind them (`decimal?_eq_some_iff`).
-/

namespace Stencil.Number

/-! ## Beginnings -/

theorem signPart_isPrefix (cs : List Char) : signPart cs <+: cs := by
  cases cs with
  | nil => exact List.prefix_refl _
  | cons c cs =>
    simp only [signPart]
    split
    · exact ⟨cs, rfl⟩
    · exact List.nil_prefix

theorem digitRun_isPrefix (cs : List Char) : digitRun cs <+: cs := List.takeWhile_prefix _

theorem signPart_append_drop (cs : List Char) : signPart cs ++ cs.drop (signPart cs).length = cs :=
  List.prefix_append_drop (signPart_isPrefix cs) |>.symm

theorem digitRun_append_drop (cs : List Char) : digitRun cs ++ cs.drop (digitRun cs).length = cs :=
  List.prefix_append_drop (digitRun_isPrefix cs) |>.symm

/-! ## Digits -/

/-- One or more digits. -/
structure IsDigits (ds : List Char) : Prop where
  nonempty : ds ≠ []
  digits : ∀ c ∈ ds, c.isDigit = true

theorem isDigits_toDigits (n : Nat) : IsDigits (Nat.toDigits 10 n) :=
  ⟨Nat.toDigits_ne_nil, fun _ hc => Nat.isDigit_of_mem_toDigits (by decide) (by decide) hc⟩

theorem isDigit_of_mem_digitRun {cs : List Char} {c : Char} (hc : c ∈ digitRun cs) :
    c.isDigit = true :=
  List.all_eq_true.1 List.all_takeWhile c hc

theorem isDigits_digitRun {cs : List Char} (h : digitRun cs ≠ []) : IsDigits (digitRun cs) :=
  ⟨h, fun _ => isDigit_of_mem_digitRun⟩

/-- A digit is no sign. -/
theorem ne_sign_of_isDigit {c : Char} (hc : c.isDigit = true) : c ≠ '+' ∧ c ≠ '-' := by
  constructor <;> rintro rfl <;> exact absurd hc (by decide)

/-- The number goes no further with digits. -/
def EndsDigits (rest : List Char) : Prop := ∀ c ∈ rest.head?, c.isDigit = false

theorem endsDigits_nil : EndsDigits [] := nofun

theorem endsDigits_cons {c : Char} (h : c.isDigit = false) (rest : List Char) :
    EndsDigits (c :: rest) := by
  intro d hd
  obtain rfl := Option.some.inj hd
  exact h

theorem digitRun_append {ds rest : List Char} (h : ∀ c ∈ ds, c.isDigit = true)
    (hr : EndsDigits rest) : digitRun (ds ++ rest) = ds := by
  unfold digitRun
  rw [List.takeWhile_append_of_pos h]
  cases rest with
  | nil => simp
  | cons c rest => simp [hr c rfl]

namespace IsDigits

variable {ds : List Char} (h : IsDigits ds)
include h

theorem isPrefix_digitRun (rest : List Char) : ds <+: digitRun (ds ++ rest) := by
  unfold digitRun
  rw [List.takeWhile_append_of_pos h.digits]
  exact List.prefix_append ..

theorem digitRun_ne_nil (rest : List Char) : digitRun (ds ++ rest) ≠ [] := by
  intro hnil
  exact h.nonempty (List.prefix_nil.1 (hnil ▸ h.isPrefix_digitRun rest))

theorem noDecimalMark : hasDecimalMark ds = false := by
  refine List.any_eq_false.2 fun c hc hm => ?_
  have hd := h.digits c hc
  simp only [isExponentMark, Bool.or_eq_true, beq_iff_eq] at hm
  rcases hm with rfl | rfl | rfl <;> exact absurd hd (by decide)

end IsDigits

/-! ## Signs -/

/-- The sign written in front of a number. -/
def signText (negative : Bool) : List Char := if negative then ['-'] else []

/-- A sign or none. -/
inductive IsSign : List Char → Prop where
  | none : IsSign []
  | plus : IsSign ['+']
  | minus : IsSign ['-']

namespace IsSign

variable {sign : List Char} (h : IsSign sign)
include h

theorem mem {c : Char} (hc : c ∈ sign) : c ∈ ['+', '-'] := by
  cases h with
  | none => cases hc
  | plus => exact List.mem_append_left ['-'] hc
  | minus => exact List.mem_cons_of_mem _ hc

theorem noDecimalMark : hasDecimalMark sign = false := by cases h <;> rfl

/-- The sign in front of a text that does not begin with one. -/
theorem signPart_append {rest : List Char} (hr : ∀ c ∈ rest.head?, c ≠ '+' ∧ c ≠ '-') :
    signPart (sign ++ rest) = sign := by
  cases h with
  | none =>
    cases rest with
    | nil => rfl
    | cons c rest =>
      have hc := hr c rfl
      simp [signPart, hc.1, hc.2]
  | plus => rfl
  | minus => rfl

end IsSign

theorem isSign_signText (negative : Bool) : IsSign (signText negative) := by
  cases negative with
  | true => exact .minus
  | false => exact .none

theorem isSign_signPart (cs : List Char) : IsSign (signPart cs) := by
  cases cs with
  | nil => exact .none
  | cons c cs =>
    simp only [signPart]
    split
    · rename_i h
      rcases h with rfl | rfl
      · exact .plus
      · exact .minus
    · exact .none

theorem IsDigits.signPart_append {ds sign : List Char} (h : IsDigits ds) (hs : IsSign sign)
    (rest : List Char) : signPart (sign ++ (ds ++ rest)) = sign := by
  obtain ⟨c, cs, rfl⟩ := List.exists_cons_of_ne_nil h.nonempty
  refine hs.signPart_append fun d hd => ?_
  obtain rfl := Option.some.inj hd
  exact ne_sign_of_isDigit (h.digits _ List.mem_cons_self)

/-! ## Integers -/

/-- A sign or none, and digits. -/
structure SignedDigits where
  sign : List Char
  digits : List Char
  isSign : IsSign sign
  isDigits : IsDigits digits

namespace SignedDigits

variable (t : SignedDigits)

/-- The sign and the digits as they are written. -/
def text : List Char := t.sign ++ t.digits

/-- The integer that they denote. -/
def value : Int := if t.sign = ['-'] then -digitsValue t.digits else digitsValue t.digits

theorem integer?_text : integer? t.text = some t.value := by
  have hpart := t.isDigits.signPart_append t.isSign []
  rw [List.append_nil] at hpart
  simp only [integer?, text, hpart, List.drop_left]
  exact if_pos ⟨t.isDigits.nonempty, List.all_eq_true.2 t.isDigits.digits⟩

theorem noDecimalMark : hasDecimalMark t.text = false := by
  have hsign := t.isSign.noDecimalMark
  have hdigits := t.isDigits.noDecimalMark
  unfold hasDecimalMark at hsign hdigits ⊢
  rw [text, List.any_append, hsign, hdigits, Bool.or_false]

end SignedDigits

/-- An integer is read from a sign or none and digits, and from no other text. -/
theorem integer?_eq_some_iff {cs : List Char} {n : Int} :
    integer? cs = some n ↔ ∃ t : SignedDigits, t.text = cs ∧ t.value = n := by
  constructor
  · intro h
    simp only [integer?] at h
    split at h
    · rename_i hdigits
      have hall := List.all_eq_true.1 hdigits.2
      exact ⟨⟨signPart cs, _, isSign_signPart cs, ⟨hdigits.1, hall⟩⟩, signPart_append_drop cs,
        Option.some.inj h⟩
    · cases h
  · rintro ⟨t, rfl, rfl⟩
    exact t.integer?_text

/-! ## Exponents -/

/-- An exponent: its mark, a sign or none, and digits. -/
structure Exponent where
  mark : Char
  sign : List Char
  digits : List Char
  isMark : isExponentMark mark = true
  isSign : IsSign sign
  isDigits : IsDigits digits

namespace Exponent

variable (e : Exponent)

/-- The exponent as it is written. -/
def text : List Char := e.mark :: (e.sign ++ e.digits)

/-- The power of ten. -/
def value : Int :=
  if e.sign = ['-'] then -(digitsValue e.digits : Int) else digitsValue e.digits

theorem mark_eq : e.mark = 'e' ∨ e.mark = 'E' := by
  have h := e.isMark
  simpa only [isExponentMark, Bool.or_eq_true, beq_iff_eq] using h

theorem mark_not_digit : e.mark.isDigit = false := by
  rcases e.mark_eq with h | h <;> rw [h] <;> decide

theorem mark_ne_point : e.mark ≠ '.' := by
  rcases e.mark_eq with h | h <;> rw [h] <;> decide

theorem endsDigits_elim (e : Option Exponent) : EndsDigits (e.elim [] text) := by
  cases e with
  | none => exact endsDigits_nil
  | some e => exact endsDigits_cons e.mark_not_digit _

theorem head?_elim (e : Option Exponent) : (e.elim [] text).head? ≠ some '.' := by
  cases e with
  | none => nofun
  | some e => exact fun h => e.mark_ne_point (Option.some.inj h)

/-- What follows the mark, as it would stand for itself. -/
def signedDigits : SignedDigits := ⟨e.sign, e.digits, e.isSign, e.isDigits⟩

theorem exponent?_elim (e : Option Exponent) :
    exponent? (e.elim [] text) = some (e.elim 0 value) := by
  cases e with
  | none => rfl
  | some e => exact (if_pos e.isMark).trans e.signedDigits.integer?_text

end Exponent

/-- The end of a numeral is an exponent or nothing. -/
theorem exponent?_eq_some_iff {cs : List Char} {n : Int} :
    exponent? cs = some n ↔
      ∃ e : Option Exponent, e.elim [] Exponent.text = cs ∧ e.elim 0 Exponent.value = n := by
  constructor
  · intro h
    cases cs with
    | nil => exact ⟨none, rfl, Option.some.inj h⟩
    | cons c cs =>
      simp only [exponent?] at h
      split at h
      · rename_i hmark
        obtain ⟨t, rfl, rfl⟩ := integer?_eq_some_iff.1 h
        exact ⟨some ⟨c, t.sign, t.digits, hmark, t.isSign, t.isDigits⟩, rfl, rfl⟩
      · cases h
  · rintro ⟨e, rfl, rfl⟩
    exact Exponent.exponent?_elim e

/-! ## Decimals -/

/-- A sign or none, digits with a point or none in front of them, among them or behind them, and an
exponent or none. -/
structure Numeral where
  sign : List Char
  whole : List Char
  /-- the digits behind the point -/
  fraction : Option (List Char)
  exponent : Option Exponent
  isSign : IsSign sign
  isDigits : IsDigits (whole ++ fraction.getD [])

namespace Numeral

variable (t : Numeral)

/-- The point and the digits behind it. -/
def pointText : List Char := t.fraction.elim [] ('.' :: ·)

/-- The exponent as it is written, if there is one. -/
def exponentText : List Char := t.exponent.elim [] Exponent.text

/-- The numeral as it is written. -/
def text : List Char := t.sign ++ (t.whole ++ (t.pointText ++ t.exponentText))

/-- The sign is a minus sign. -/
def negative : Bool := t.sign == ['-']

/-- The value without its sign: all digits, with the power of ten of the last one. -/
def decimal : Decimal where
  digits := digitsValue (t.whole ++ t.fraction.getD [])
  exponent := t.exponent.elim 0 Exponent.value - (t.fraction.getD []).length

theorem isDigit_of_mem_whole {c : Char} (hc : c ∈ t.whole) : c.isDigit = true :=
  t.isDigits.digits c (List.mem_append_left _ hc)

theorem isDigit_of_mem_fraction {c : Char} (hc : c ∈ t.fraction.getD []) : c.isDigit = true :=
  t.isDigits.digits c (List.mem_append_right _ hc)

theorem endsDigits_tail : EndsDigits (t.pointText ++ t.exponentText) := by
  unfold pointText
  cases t.fraction with
  | none => exact Exponent.endsDigits_elim _
  | some ds => exact endsDigits_cons (by decide) _

/-- Behind the sign stands a digit or a point. -/
theorem head?_unsigned {c : Char}
    (hc : c ∈ (t.whole ++ (t.pointText ++ t.exponentText)).head?) : c ≠ '+' ∧ c ≠ '-' := by
  obtain ⟨sign, whole, fraction, exponent, hsign, hdigits⟩ := t
  cases whole with
  | cons d ds =>
    obtain rfl := Option.some.inj hc
    exact ne_sign_of_isDigit (hdigits.digits _ List.mem_cons_self)
  | nil =>
    cases fraction with
    | none => exact absurd rfl hdigits.nonempty
    | some ds =>
      obtain rfl := Option.some.inj hc
      decide

theorem decimal?_text : decimal? t.text = some (t.negative, t.decimal) := by
  have hsign := t.isSign.signPart_append fun _ => t.head?_unsigned
  have hwhole := digitRun_append (fun _ => t.isDigit_of_mem_whole) t.endsDigits_tail
  have hne := t.isDigits.nonempty
  have hexponent := Exponent.exponent?_elim t.exponent
  simp only [decimal?, text, hsign, List.drop_left, hwhole]
  cases hfraction : t.fraction with
  | none =>
    have htail : t.pointText ++ t.exponentText = t.exponent.elim [] Exponent.text := by
      rw [pointText, hfraction]
      rfl
    rw [hfraction, Option.getD_none] at hne
    simp only [htail, if_neg (Exponent.head?_elim _), if_neg hne, hexponent, decimal, hfraction]
    rfl
  | some ds =>
    have htail : t.pointText ++ t.exponentText =
        '.' :: (ds ++ t.exponent.elim [] Exponent.text) := by
      rw [pointText, hfraction]
      rfl
    have hdigits : ∀ c ∈ ds, c.isDigit = true := by
      simpa [hfraction] using fun c => t.isDigit_of_mem_fraction (c := c)
    have hrun := digitRun_append hdigits (Exponent.endsDigits_elim t.exponent)
    rw [hfraction, Option.getD_some] at hne
    simp only [htail, List.head?_cons, if_true, List.drop_succ_cons, List.drop_zero, hrun,
      if_neg hne, Nat.add_comm 1, List.drop_left, hexponent, decimal, hfraction]
    rfl

/-- The characters of a numeral are digits, signs and marks. -/
theorem mem_text {c : Char} (hc : c ∈ t.text) :
    c.isDigit = true ∨ c ∈ ['+', '-', '.', 'e', 'E'] := by
  have hsign {sign : List Char} (hs : IsSign sign) (h : c ∈ sign) :
      c.isDigit = true ∨ c ∈ ['+', '-', '.', 'e', 'E'] :=
    .inr (List.mem_append_left ['.', 'e', 'E'] (hs.mem h))
  simp only [text, List.mem_append] at hc
  rcases hc with hc | hc | hc | hc
  · exact hsign t.isSign hc
  · exact .inl (t.isDigit_of_mem_whole hc)
  · unfold pointText at hc
    cases hfraction : t.fraction with
    | none => rw [hfraction] at hc; cases hc
    | some ds =>
      rw [hfraction] at hc
      rcases List.mem_cons.1 hc with rfl | hc
      · simp
      · exact .inl (t.isDigit_of_mem_fraction (by rw [hfraction]; exact hc))
  · unfold exponentText at hc
    cases hexponent : t.exponent with
    | none => rw [hexponent] at hc; cases hc
    | some e =>
      rw [hexponent] at hc
      rcases List.mem_cons.1 hc with rfl | hc
      · rcases e.mark_eq with h | h <;> simp [h]
      rcases List.mem_append.1 hc with hc | hc
      · exact hsign e.isSign hc
      · exact .inl (e.isDigits.digits c hc)

end Numeral

/-- The characters of an integer are digits and a sign. -/
theorem SignedDigits.mem_text (t : SignedDigits) {c : Char} (hc : c ∈ t.text) :
    c.isDigit = true ∨ c ∈ ['+', '-', '.', 'e', 'E'] := by
  rcases List.mem_append.1 hc with hc | hc
  · exact .inr (List.mem_append_left ['.', 'e', 'E'] (t.isSign.mem hc))
  · exact .inl (t.isDigits.digits c hc)

/-- What is read as a decimal is a numeral. -/
theorem exists_numeral {cs : List Char} {r : Bool × Decimal} (h : decimal? cs = some r) :
    ∃ t : Numeral, t.text = cs := by
  have hsign := signPart_append_drop cs
  simp only [decimal?] at h
  generalize cs.drop (signPart cs).length = unsigned at h hsign
  have hwhole := digitRun_append_drop unsigned
  generalize unsigned.drop (digitRun unsigned).length = tail at h hwhole
  by_cases hpoint : tail.head? = some '.'
  · obtain ⟨behind, rfl⟩ := List.head?_eq_some_iff.1 hpoint
    have hfraction := digitRun_append_drop behind
    simp only [List.head?_cons, if_true, Nat.add_comm 1, List.drop_succ_cons, List.drop_zero] at h
    split at h
    · cases h
    rename_i hne
    obtain ⟨n, hn, -⟩ := Option.map_eq_some_iff.1 h
    obtain ⟨e, he, -⟩ := exponent?_eq_some_iff.1 hn
    have hdigits : ∀ c ∈ digitRun unsigned ++ digitRun behind, c.isDigit = true := fun c hc =>
      (List.mem_append.1 hc).elim isDigit_of_mem_digitRun isDigit_of_mem_digitRun
    refine ⟨⟨signPart cs, digitRun unsigned, some (digitRun behind), e, isSign_signPart cs,
      hne, hdigits⟩, ?_⟩
    calc signPart cs ++ (digitRun unsigned ++ ('.' :: digitRun behind ++ e.elim [] Exponent.text))
      _ = signPart cs ++ (digitRun unsigned ++ '.' :: behind) := by
        rw [he, List.cons_append, hfraction]
      _ = cs := by rw [hwhole, hsign]
  · simp only [if_neg hpoint, List.append_nil] at h
    split at h
    · cases h
    rename_i hne
    obtain ⟨n, hn, -⟩ := Option.map_eq_some_iff.1 h
    obtain ⟨e, rfl, -⟩ := exponent?_eq_some_iff.1 hn
    refine ⟨⟨signPart cs, digitRun unsigned, none, e, isSign_signPart cs, ?_⟩, ?_⟩
    · rw [Option.getD_none, List.append_nil]
      exact isDigits_digitRun hne
    · exact (congrArg _ hwhole).trans hsign

/-- A decimal is read from a numeral, and from no other text. -/
theorem decimal?_eq_some_iff {cs : List Char} {negative : Bool} {d : Decimal} :
    decimal? cs = some (negative, d) ↔
      ∃ t : Numeral, t.text = cs ∧ t.negative = negative ∧ t.decimal = d := by
  constructor
  · intro h
    obtain ⟨t, rfl⟩ := exists_numeral h
    obtain ⟨hnegative, hdecimal⟩ := Prod.mk.inj (Option.some.inj (t.decimal?_text.symm.trans h))
    exact ⟨t, rfl, hnegative, hdecimal⟩
  · rintro ⟨t, rfl, rfl, rfl⟩
    exact t.decimal?_text

/-- The marks of a decimal are a point and the mark of an exponent. -/
theorem hasDecimalMark_iff {cs : List Char} :
    hasDecimalMark cs = true ↔ ∃ c ∈ cs, c = '.' ∨ c = 'e' ∨ c = 'E' := by
  simp only [hasDecimalMark, List.any_eq_true, isExponentMark, Bool.or_eq_true, beq_iff_eq]

end Stencil.Number
