import Stencil.Proofs.Value.Exact
set_option autoImplicit false

/-!
# Counting

Counting goes from a value on in steps of another, by adding, as long as the counter is
within a bound (`Value.Counting`).  On integers the counters are whole numbers in even
steps (`Value.Counts`), and such numbers are counted where all of them have 64 bits
(`Value.counting_of_counts`).
-/

namespace Stencil

namespace Value

/-- The counter can be compared with the bound and is not beyond it. -/
def IsWithin (stop counter : Value) : Prop := ∃ o, counter.order stop = .ok o ∧ o ≠ .gt

/-- Counting from a value in the given steps gives the counters `cs`, all of them within the bound,
and then a last value. -/
inductive Counting (stop step : Value) : Value → List Value → Value → Prop
  | nil (c : Value) : Counting stop step c [] c
  | cons {c next last : Value} {cs : List Value} (hc : IsWithin stop c)
      (hadd : c.add step = .ok next) (hrest : Counting stop step next cs last) :
      Counting stop step c (c :: cs) last

/-! ## Integers in even steps -/

/-- The integers go from the first number on in steps of the second. -/
def Counts (first step : Int) (cs : List Int64) : Prop :=
  ∀ (k : Nat) (hk : k < cs.length), cs[k].toInt = first + k * step

variable {first step : Int} {c : Int64} {cs : List Int64}

theorem add_succ_steps (first step : Int) (k : Nat) :
    first + (k + 1 : Nat) * step = first + step + k * step := by
  push_cast
  ring

theorem counts_nil : Counts first step [] := fun _ hk => absurd hk (Nat.not_lt_zero _)

theorem counts_cons :
    Counts first step (c :: cs) ↔ c.toInt = first ∧ Counts (first + step) step cs := by
  constructor
  · intro h
    refine ⟨by simpa using h 0 (Nat.succ_pos _), fun k hk => ?_⟩
    rw [← add_succ_steps]
    exact h (k + 1) (Nat.succ_lt_succ hk)
  · rintro ⟨hc, hcs⟩ (_ | k) hk
    · simpa using hc
    · rw [add_succ_steps]
      exact hcs k (Nat.lt_of_succ_lt_succ hk)

theorem counts_concat :
    Counts first step (cs ++ [c]) ↔
      Counts first step cs ∧ c.toInt = first + cs.length * step := by
  induction cs generalizing first with
  | nil => simp [counts_cons, counts_nil]
  | cons d cs ih =>
    rw [List.cons_append, counts_cons, ih, counts_cons, and_assoc, List.length_cons,
      add_succ_steps]

/-- Numbers in even steps that all have 64 bits and are within the bound. -/
theorem exists_counts {b : Int64} {n : Nat}
    (h : ∀ k < n, -2 ^ 63 ≤ first + (k : Nat) * step ∧ first + (k : Nat) * step ≤ b.toInt) :
    ∃ cs, cs.length = n ∧ Counts first step cs ∧ ∀ c ∈ cs, c ≤ b := by
  induction n with
  | zero => exact ⟨[], rfl, counts_nil, List.forall_mem_nil _⟩
  | succ n ih =>
    obtain ⟨cs, hlength, hcs, hle⟩ := ih fun k hk => h k (Nat.lt_succ_of_lt hk)
    obtain ⟨hlow, hhigh⟩ := h n (Nat.lt_succ_self n)
    have hc : (Int64.ofInt (first + n * step)).toInt = first + n * step :=
      Int64.toInt_ofInt_of_le hlow (hhigh.trans_lt b.toInt_lt)
    refine ⟨cs ++ [Int64.ofInt (first + n * step)], ?_, ?_, ?_⟩
    · rw [List.length_append, hlength, List.length_singleton]
    · exact counts_concat.2 ⟨hcs, hlength ▸ hc⟩
    · refine List.forall_mem_append.2 ⟨hle, List.forall_mem_singleton.2 ?_⟩
      rwa [Int64.le_iff_toInt_le, hc]

/-- The steps with which no more than a distance is gone. -/
theorem lt_steps_iff {distance : Int} (hstep : 0 < step) (k : Nat) :
    k < (distance / step + 1).toNat ↔ k * step ≤ distance := by
  rw [Int.lt_toNat, Int.lt_add_one_iff, Int.le_ediv_iff_mul_le hstep]

theorem toNat_steps {distance : Int} (hdistance : 0 ≤ distance) (hstep : 0 ≤ step) :
    ((distance / step + 1).toNat : Int) = distance / step + 1 :=
  Int.toNat_of_nonneg (Int.add_nonneg (Int.ediv_nonneg hdistance hstep) Int.one_nonneg)

/-- How many integers there are from the first up to the second in steps of the third. -/
def numberUp (a b s : Int64) : Nat := ((b.toInt - a.toInt) / s.toInt + 1).toNat

/-! ## Counting integers -/

variable {a b s : Int64}

theorem order_integers (c b : Int64) :
    (integer c).order (integer b) = .ok (compare c.toInt b.toInt) := rfl

theorem isWithin_integer (h : c ≤ b) : IsWithin (.integer b) (.integer c) := by
  refine ⟨_, order_integers c b, fun hgt => ?_⟩
  exact absurd (Int64.le_iff_toInt_le.1 h) (Int.not_le.2 (compare_gt_iff_gt.1 hgt))

theorem order_integer_of_lt (h : b < c) : (integer c).order (integer b) = .ok .gt := by
  rw [order_integers, compare_gt_iff_gt.2 (Int64.lt_iff_toInt_lt.1 h)]

theorem isExact_add_integers (c s : Int64) :
    IsExact .add (c.toInt + s.toInt) ((integer c).add (integer s)) := by
  unfold add
  rw [combine_of_integers .add _ _ rfl rfl]
  exact isExact_exactInteger _ _

/-- Integers in even steps are counted one after another. -/
theorem counting_of_counts {next : Int64} (hle : ∀ c ∈ cs, c ≤ b)
    (hcounts : Counts a.toInt s.toInt (cs ++ [next])) :
    Counting (.integer b) (.integer s) (.integer a) (cs.map .integer) (.integer next) := by
  induction cs generalizing a with
  | nil =>
    obtain rfl := Int64.toInt_inj.1 (counts_cons.1 hcounts).1
    exact .nil _
  | cons c cs ih =>
    rw [List.cons_append] at hcounts
    obtain ⟨hc, hrest⟩ := counts_cons.1 hcounts
    obtain rfl := Int64.toInt_inj.1 hc
    obtain ⟨hcb, hle⟩ := List.forall_mem_cons.1 hle
    -- the counter behind `c` is the next one or the first of `cs`
    obtain ⟨second, more, hsecond⟩ := List.exists_cons_of_ne_nil
      (List.append_ne_nil_of_right_ne_nil cs (List.cons_ne_nil next []))
    have hsum : second.toInt = c.toInt + s.toInt := by
      have hbehind : Counts (c.toInt + s.toInt) s.toInt (second :: more) := hsecond ▸ hrest
      exact (counts_cons.1 hbehind).1
    refine .cons (isWithin_integer hcb) ((isExact_add_integers c s).eq_ok hsum) (ih hle ?_)
    rwa [hsum]

end Value

end Stencil
