import Stencil.DecimalFormat
import Stencil.Proofs.Number.Literal
import Stencil.Proofs.Number.Places
set_option autoImplicit false

/-!
# Shown numbers

Between the literals of a format stands a sign, an integer part in groups and a fraction
(`Shown`).  The layout of digits shows such a number (`layout_eq_shown`), and it has the value
of the digits (`value_shown`), however many zeros the format adds to them or takes away.
-/

namespace Stencil.DecimalFormat

open Number

/-! ## Groups -/

/-- Digits with commas between groups of a size, where the first group may be shorter; without a
size there are no commas. -/
inductive Grouped : Option Nat → List Char → Prop where
  | ungrouped {ds : List Char} (h : ',' ∉ ds) : Grouped none ds
  | empty {size : Nat} : Grouped (some size) []
  | groups {size : Nat} {first : List Char} {rest : List (List Char)} (hpos : 0 < first.length)
    (hle : first.length ≤ size) (hrest : ∀ g ∈ rest, g.length = size)
    (hcomma : ∀ g ∈ first :: rest, ',' ∉ g) :
    Grouped (some size) (first ++ rest.flatMap (',' :: ·))

/-- The first group has what is left when groups of the size are taken from the end. -/
theorem exists_groups {size : Nat} (hsize : 0 < size) {c : Char} {cs : List Char}
    (hcs : ',' ∉ c :: cs) :
    ∃ first rest, grouped size (c :: cs) = first ++ rest.flatMap (',' :: ·) ∧
      first.length = cs.length % size + 1 ∧ (∀ g ∈ rest, g.length = size) ∧
      ∀ g ∈ first :: rest, ',' ∉ g := by
  induction cs generalizing c with
  | nil => exact ⟨[c], [], by simp [grouped], by simp, by simp, by simpa using hcs⟩
  | cons d ds ih =>
    have hc : ',' ≠ c := List.ne_of_not_mem_cons hcs
    obtain ⟨first, rest, heq, hlength, hrest, hcomma⟩ := ih (List.not_mem_of_not_mem_cons hcs)
    have hmod := Nat.mod_lt ds.length hsize
    have hsucc : (d :: ds).length % size = (ds.length % size + 1) % size := by
      rw [List.length_cons, Nat.mod_add_mod]
    by_cases hfull : (d :: ds).length % size = 0
    · -- the group behind `c` is full, and `c` begins a group of its own
      have hfirst : first.length = size := by
        rw [hsucc] at hfull
        have := Nat.le_of_dvd (Nat.succ_pos _) (Nat.dvd_of_mod_eq_zero hfull)
        omega
      refine ⟨[c], first :: rest, ?_, by rw [hfull]; rfl, ?_, ?_⟩
      · rw [grouped, if_pos ⟨List.cons_ne_nil _ _, hfull⟩, heq]
        rfl
      · exact List.forall_mem_cons.2 ⟨hfirst, hrest⟩
      · exact List.forall_mem_cons.2 ⟨by simpa using hc, hcomma⟩
    · have hlt : ds.length % size + 1 < size := by
        rcases Nat.lt_or_eq_of_le (Nat.succ_le_of_lt hmod) with hlt | heq
        · exact hlt
        · rw [hsucc, ← Nat.succ_eq_add_one, heq, Nat.mod_self] at hfull
          exact absurd rfl hfull
      refine ⟨c :: first, rest, ?_, ?_, hrest, ?_⟩
      · rw [grouped, if_neg fun h => hfull h.2, heq]
        rfl
      · rw [List.length_cons, hlength, hsucc, Nat.mod_eq_of_lt hlt]
      · obtain ⟨hfirst, hrest⟩ := List.forall_mem_cons.1 hcomma
        exact List.forall_mem_cons.2 ⟨List.not_mem_cons_of_ne_of_not_mem hc hfirst, hrest⟩

/-- The digits with the commas that a format asks for. -/
def withCommas (group : Option Nat) (ds : List Char) : List Char :=
  match group with
  | some size => grouped size ds
  | none => ds

section WithCommas

variable {group : Option Nat} {ds : List Char}

theorem grouped_withCommas (hgroup : ∀ size ∈ group, 0 < size) (h : ',' ∉ ds) :
    Grouped group (withCommas group ds) := by
  cases group with
  | none => exact .ungrouped h
  | some size =>
    cases ds with
    | nil => exact .empty
    | cons c cs =>
      have hsize := hgroup size rfl
      obtain ⟨first, rest, heq, hlength, hrest, hcomma⟩ := exists_groups hsize h
      have hmod := Nat.mod_lt cs.length hsize
      rw [withCommas, heq]
      exact .groups (by omega) (by omega) hrest hcomma

theorem filter_withCommas (h : ',' ∉ ds) : (withCommas group ds).filter (· != ',') = ds := by
  have hds : ds.filter (· != ',') = ds := by
    rw [List.filter_eq_self]
    intro c hc
    simpa using fun heq : c = ',' => h (heq ▸ hc)
  cases group with
  | none => exact hds
  | some size => exact (filter_grouped size ds).trans hds

theorem mem_withCommas {c : Char} (hc : c ≠ ',') (h : c ∈ ds) : c ∈ withCommas group ds := by
  cases group with
  | none => exact h
  | some size =>
    have hmem : c ∈ ds.filter (· != ',') := List.mem_filter.2 ⟨h, by simpa using hc⟩
    rw [← filter_grouped size] at hmem
    exact List.mem_of_mem_filter hmem

end WithCommas

/-! ## Numbers between literals -/

/-- The fraction with the point in front, if there is one. -/
def pointed (fraction : List Char) : List Char :=
  if fraction.isEmpty then [] else '.' :: fraction

/-- A number as it is shown: at least one digit, with commas in the integer part as the size of the
groups says. -/
structure Shown (group : Option Nat) where
  negative : Bool
  /-- the integer part with its commas -/
  whole : List Char
  fraction : List Char
  grouped : Grouped group whole
  isDigit : ∀ c ∈ whole.filter (· != ',') ++ fraction, c.isDigit = true
  ne_nil : whole.filter (· != ',') ++ fraction ≠ []

namespace Shown

variable {group : Option Nat} (s : Shown group)

/-- The number as it is written. -/
def text : List Char := signText s.negative ++ s.whole ++ pointed s.fraction

/-- The digits of the integer part. -/
def integer : List Char := s.whole.filter (· != ',')

/-- The value without the sign. -/
def value : ℚ := digitsValue s.integer + fractionValue s.fraction

theorem value_eq_zero_iff : s.value = 0 ↔ digitsValue (s.integer ++ s.fraction) = 0 := by
  have hpow : (10 : ℚ) ^ s.fraction.length ≠ 0 := by positivity
  have hvalue : s.value * 10 ^ s.fraction.length = (digitsValue (s.integer ++ s.fraction) : ℕ) := by
    rw [value, fractionValue, add_mul, div_mul_cancel₀ _ hpow, digitsValue_append]
    push_cast
    rfl
  rw [← Nat.cast_eq_zero (R := ℚ), ← hvalue, mul_eq_zero, or_iff_left hpow]

end Shown

/-! ## The digits that are shown -/

section Digits

variable (f : DecimalFormat) (integer fraction : List Char)

/-- The digits of the integer part that a format shows. -/
def wholeDigits : List Char :=
  if (f.integerDigits integer).isEmpty && (f.fractionDigits fraction).isEmpty then ['0']
  else f.integerDigits integer

theorem layout_eq (negative : Bool) :
    f.layout negative integer fraction = f.before ++
      (signText (negative && showsNonzero (f.wholeDigits integer fraction ++
          f.fractionDigits fraction)) ++
        withCommas f.group (f.wholeDigits integer fraction) ++
        pointed (f.fractionDigits fraction)) ++ f.after := by
  simp only [layout, wholeDigits, signText, pointed, List.append_assoc]
  cases f.group <;> rfl

theorem digitsValue_integerDigits :
    digitsValue (f.integerDigits integer) = digitsValue integer := by
  obtain ⟨k, hk⟩ := exists_zeros_append integer
  have hdrop := congrArg digitsValue hk
  rw [digitsValue_zeros_append] at hdrop
  rw [hdrop]
  exact digitsValue_zeros_append _ _

theorem digitsValue_wholeDigits :
    digitsValue (f.wholeDigits integer fraction) = digitsValue integer := by
  rw [← f.digitsValue_integerDigits integer, wholeDigits]
  split
  · rename_i h
    rw [Bool.and_eq_true, List.isEmpty_iff] at h
    rw [h.1]
    rfl
  · rfl

theorem fractionDigits_nil : f.fractionDigits [] = List.replicate f.minFraction '0' := by
  simp [fractionDigits, withoutTrailingZeros]

/-- Up to zeros at the end, the digits of the fraction stay. -/
theorem fractionDigits_zeros :
    ∃ j k, f.fractionDigits fraction ++ List.replicate j '0' =
      fraction ++ List.replicate k '0' := by
  obtain ⟨j, hj⟩ := withoutTrailingZeros_append (fraction.drop f.minFraction)
  rcases Nat.le_total f.minFraction fraction.length with hle | hle
  · refine ⟨j, 0, ?_⟩
    rw [fractionDigits, Nat.sub_eq_zero_of_le hle, List.replicate_zero, List.append_nil,
      List.append_assoc, ← hj, List.take_append_drop, List.append_nil]
  · refine ⟨0, f.minFraction - fraction.length, ?_⟩
    rw [fractionDigits, List.take_of_length_le hle, List.drop_of_length_le hle]
    simp [withoutTrailingZeros]

theorem fractionValue_fractionDigits :
    fractionValue (f.fractionDigits fraction) = fractionValue fraction := by
  obtain ⟨j, k, h⟩ := f.fractionDigits_zeros fraction
  rw [← fractionValue_append_zeros _ j, h, fractionValue_append_zeros]

/-- Not fewer digits than required are shown, and not more than there are. -/
theorem length_fractionDigits_le :
    (f.fractionDigits fraction).length ≤ max f.minFraction fraction.length := by
  obtain ⟨j, hj⟩ := withoutTrailingZeros_append (fraction.drop f.minFraction)
  have hlength := congrArg List.length hj
  simp only [List.length_append, List.length_drop, List.length_replicate] at hlength
  simp only [fractionDigits, List.length_append, List.length_take, List.length_replicate]
  omega

theorem getLast?_withoutTrailingZeros (ds : List Char) :
    (withoutTrailingZeros ds).getLast? ≠ some '0' := by
  rw [withoutTrailingZeros, List.getLast?_reverse]
  intro h
  have := List.head?_dropWhile_not (· == '0') ds.reverse
  rw [h] at this
  simp at this

/-- Behind the required digits no zero is at the end. -/
theorem getLast?_fractionDigits (h : f.minFraction < (f.fractionDigits fraction).length) :
    (f.fractionDigits fraction).getLast? ≠ some '0' := by
  have hne : withoutTrailingZeros (fraction.drop f.minFraction) ≠ [] := by
    intro hnil
    rw [fractionDigits, hnil] at h
    simp only [List.length_append, List.length_take, List.length_replicate, List.length_nil] at h
    omega
  rw [fractionDigits, List.getLast?_append_of_ne_nil _ hne]
  exact getLast?_withoutTrailingZeros _

theorem minInteger_le_length_wholeDigits :
    f.minInteger ≤ (f.wholeDigits integer fraction).length := by
  have hmin := f.minInteger_le_length_integerDigits integer
  rw [wholeDigits]
  split
  · rename_i h
    rw [Bool.and_eq_true, List.isEmpty_iff] at h
    rw [h.1] at hmin
    exact Nat.le_trans hmin (Nat.zero_le _)
  · exact hmin

/-- In front of the required digits stands no zero, unless it is the only digit. -/
theorem head?_wholeDigits (h : f.minInteger < (f.wholeDigits integer fraction).length)
    (hzero : (f.wholeDigits integer fraction).head? = some '0') :
    f.wholeDigits integer fraction = ['0'] ∧ f.fractionDigits fraction = [] := by
  unfold wholeDigits at *
  split at h
  · rename_i hempty
    rw [Bool.and_eq_true, List.isEmpty_iff, List.isEmpty_iff] at hempty
    exact ⟨if_pos (by simp [hempty]), hempty.2⟩
  · rename_i hempty
    rw [if_neg hempty] at hzero
    have hnone : f.minInteger - (integer.dropWhile (· == '0')).length = 0 := by
      simp only [integerDigits, List.length_append, List.length_replicate] at h
      omega
    have hdrop := List.head?_dropWhile_not (· == '0') integer
    rw [integerDigits, hnone, List.replicate_zero, List.nil_append] at hzero
    rw [hzero] at hdrop
    simp at hdrop

variable {integer fraction}

theorem isDigit_wholeDigits (h : ∀ c ∈ integer, c.isDigit = true) :
    ∀ c ∈ f.wholeDigits integer fraction, c.isDigit = true := by
  intro c hc
  unfold wholeDigits at hc
  split at hc
  · obtain rfl := List.mem_singleton.1 hc
    rfl
  · rw [integerDigits, List.mem_append, List.mem_replicate] at hc
    rcases hc with ⟨-, rfl⟩ | hc
    · rfl
    · exact h c (List.dropWhile_subset _ hc)

theorem isDigit_fractionDigits (h : ∀ c ∈ fraction, c.isDigit = true) :
    ∀ c ∈ f.fractionDigits fraction, c.isDigit = true := by
  intro c hc
  obtain ⟨j, k, heq⟩ := f.fractionDigits_zeros fraction
  have hmem : c ∈ fraction ++ List.replicate k '0' := heq ▸ List.mem_append_left _ hc
  rw [List.mem_append, List.mem_replicate] at hmem
  rcases hmem with hmem | ⟨-, rfl⟩
  · exact h c hmem
  · rfl

theorem wholeDigits_append_ne_nil :
    f.wholeDigits integer fraction ++ f.fractionDigits fraction ≠ [] := by
  intro hnil
  obtain ⟨hwhole, hfraction⟩ := List.append_eq_nil_iff.1 hnil
  unfold wholeDigits at hwhole
  rw [hfraction] at hwhole
  split at hwhole
  · cases hwhole
  · rename_i h
    rw [hwhole] at h
    exact h rfl

end Digits

/-! ## The layout of digits -/

theorem digitsValue_singleton_eq_zero_iff {c : Char} (hc : c.isDigit = true) :
    digitsValue [c] = 0 ↔ c = '0' := by
  have hlow : 48 ≤ c.toNat := by
    rw [Char.isDigit, Bool.and_eq_true, decide_eq_true_eq] at hc
    exact hc.1
  have hvalue : digitsValue [c] = c.toNat - 48 := by
    simp [digitsValue, Nat.ofDigitChars]
  rw [hvalue, ← Char.toNat_inj]
  have hzero : '0'.toNat = 48 := rfl
  omega

/-- Digits have a value unless all of them are zeros. -/
theorem showsNonzero_iff {ds : List Char} (h : ∀ c ∈ ds, c.isDigit = true) :
    showsNonzero ds = true ↔ digitsValue ds ≠ 0 := by
  induction ds with
  | nil => exact iff_of_false Bool.false_ne_true (not_not_intro rfl)
  | cons c cs ih =>
    obtain ⟨hc, hcs⟩ := List.forall_mem_cons.1 h
    have hcons : digitsValue (c :: cs) = digitsValue [c] * 10 ^ cs.length + digitsValue cs :=
      digitsValue_append [c] cs
    have hnonzero : showsNonzero (c :: cs) = true ↔ c ≠ '0' ∨ showsNonzero cs = true := by
      simp [showsNonzero, hc]
    rw [hnonzero, ih hcs, hcons, ne_eq, ne_eq, ne_eq, Nat.add_eq_zero_iff, Nat.mul_eq_zero,
      digitsValue_singleton_eq_zero_iff hc, or_iff_left (Nat.pow_pos (by decide)).ne', not_and_or]

section Layout

variable {f : DecimalFormat} {integer fraction : List Char}
  (hgroup : ∀ size ∈ f.group, 0 < size) (hinteger : ∀ c ∈ integer, c.isDigit = true)
  (hfraction : ∀ c ∈ fraction, c.isDigit = true) (negative : Bool)

include hinteger in
theorem comma_not_mem_wholeDigits : ',' ∉ f.wholeDigits integer fraction :=
  fun hmem => by cases f.isDigit_wholeDigits hinteger _ hmem

/-- The number that a layout of digits shows. -/
def shown : Shown f.group where
  negative := negative && showsNonzero (f.wholeDigits integer fraction ++ f.fractionDigits fraction)
  whole := withCommas f.group (f.wholeDigits integer fraction)
  fraction := f.fractionDigits fraction
  grouped := grouped_withCommas hgroup (comma_not_mem_wholeDigits hinteger)
  isDigit := by
    rw [filter_withCommas (comma_not_mem_wholeDigits hinteger)]
    intro c hc
    exact (List.mem_append.1 hc).elim (f.isDigit_wholeDigits hinteger c)
      (f.isDigit_fractionDigits hfraction c)
  ne_nil := by
    rw [filter_withCommas (comma_not_mem_wholeDigits hinteger)]
    exact f.wholeDigits_append_ne_nil

theorem layout_eq_shown :
    f.layout negative integer fraction =
      f.before ++ (shown hgroup hinteger hfraction negative).text ++ f.after := layout_eq ..

theorem integer_shown :
    (shown hgroup hinteger hfraction negative).integer = f.wholeDigits integer fraction :=
  filter_withCommas (comma_not_mem_wholeDigits hinteger)

theorem value_shown :
    (shown hgroup hinteger hfraction negative).value =
      digitsValue integer + fractionValue fraction := by
  rw [Shown.value, integer_shown, digitsValue_wholeDigits]
  exact congrArg _ (f.fractionValue_fractionDigits fraction)

/-- A sign is shown with a negative number that does not count as zero. -/
theorem negative_shown_iff :
    (shown hgroup hinteger hfraction negative).negative = true ↔
      negative = true ∧ (digitsValue integer + fractionValue fraction : ℚ) ≠ 0 := by
  obtain ⟨s, hs⟩ : ∃ s, s = shown hgroup hinteger hfraction negative := ⟨_, rfl⟩
  have hdigits : showsNonzero (s.integer ++ s.fraction) = true ↔ s.value ≠ 0 :=
    (showsNonzero_iff s.isDigit).trans (not_congr s.value_eq_zero_iff.symm)
  rw [← value_shown hgroup hinteger hfraction negative, ← hs, ← hdigits, hs, integer_shown,
    ← Bool.and_eq_true]
  rfl

end Layout

end Stencil.DecimalFormat
