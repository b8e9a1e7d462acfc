import Mathlib
import Stencil.Value.Arithmetic
import Stencil.Proofs.Number.Text
set_option autoImplicit false

/-!
# Exact arithmetic

Operators on integers are exact or refused.  `Value.IsExact` says of a result that it
is a given whole number, or an overflow where no 64-bit integer is this number; the
operators on two integers give such results, powers for every exponent that is not
negative (`Value.isExact_power`).  Where an operator fails in place, the value that
it was to change stays as it is.
-/

namespace Stencil

/-! ## 64-bit integers -/

theorem toInt64?_eq_some_iff {n : Int} {i : Int64} : toInt64? n = some i ↔ i.toInt = n := by
  constructor
  · intro h
    unfold toInt64? at h
    split at h
    · rename_i hn
      obtain rfl := Option.some.inj h
      exact Int64.toInt_ofInt_of_le hn.1 (Int.lt_of_le_of_lt hn.2 (by decide))
    · cases h
  · rintro rfl
    exact Number.toInt64?_toInt i

theorem forall_toInt_ne_iff {n : Int} : (∀ i : Int64, i.toInt ≠ n) ↔ n < -2 ^ 63 ∨ 2 ^ 63 ≤ n := by
  constructor
  · intro h
    by_contra hrange
    exact h (Int64.ofInt n) (Int64.toInt_ofInt_of_le (by omega) (by omega))
  · rintro h i rfl
    have hlow := i.le_toInt
    have hhigh := i.toInt_lt
    omega

/-- What the operator does to doubles. -/
def Operator.onDoubles : Operator → Float → Float → Float
  | add => (· + ·)
  | sub => (· - ·)
  | mul => (· * ·)
  | div => (· / ·)
  | pow => Float.pow

namespace Value

/-- The result is the whole number, or an overflow of the operator where no 64-bit integer is this
number. -/
def IsExact (op : Operator) (n : Int) (r : Except EvalError Value) : Prop :=
  (∃ i : Int64, i.toInt = n ∧ r = .ok (.integer i)) ∨
    (∀ i : Int64, i.toInt ≠ n) ∧ r = .error (.overflow op)

theorem isExact_exactInteger (op : Operator) (n : Int) : IsExact op n (exactInteger op n) := by
  unfold exactInteger
  cases h : toInt64? n with
  | some i => exact .inl ⟨i, toInt64?_eq_some_iff.1 h, rfl⟩
  | none =>
    refine .inr ⟨fun i hi => ?_, rfl⟩
    rw [toInt64?_eq_some_iff.2 hi] at h
    cases h

theorem IsExact.eq_overflow_iff {op : Operator} {n : Int} {r : Except EvalError Value}
    (h : IsExact op n r) : r = .error (.overflow op) ↔ ∀ i : Int64, i.toInt ≠ n := by
  rcases h with ⟨i, hi, rfl⟩ | ⟨hn, rfl⟩
  · exact ⟨nofun, fun hn => absurd hi (hn i)⟩
  · exact ⟨fun _ => hn, fun _ => rfl⟩

/-- Where a 64-bit integer is the number, the result is this integer. -/
theorem IsExact.eq_ok {op : Operator} {n : Int} {r : Except EvalError Value} (h : IsExact op n r)
    {i : Int64} (hi : i.toInt = n) : r = .ok (.integer i) := by
  rcases h with ⟨j, hj, rfl⟩ | ⟨hn, -⟩
  · rw [Int64.toInt_inj.1 (hi.trans hj.symm)]
  · exact absurd hi (hn i)

/-! ## Operands -/

/-- Only a text is no number. -/
theorem toNumber_eq_error_iff {v : Value} {e : EvalError} :
    v.toNumber = .error e ↔
      ∃ s, v = .text s ∧ Number.ofText? s.toList = none ∧ e = .invalidNumber s := by
  constructor
  · intro h
    cases v with
    | text s =>
      unfold toNumber at h
      cases hs : Number.ofText? s.toList with
      | some x => simp [hs] at h
      | none =>
        simp only [hs, Except.error.injEq] at h
        exact ⟨s, rfl, hs, h.symm⟩
    | _ => cases h
  · rintro ⟨s, rfl, hs, rfl⟩
    simp [toNumber, hs]

variable {a b : Value} {x y : Number} {m n : Int64} {e : EvalError}

theorem operands_of_ok (ha : a.toNumber = .ok x) (hb : b.toNumber = .ok y) :
    operands a b = .ok (x, y) := by
  unfold operands
  rw [ha, hb]
  rfl

theorem operands_of_left (ha : a.toNumber = .error e) (b : Value) : operands a b = .error e := by
  unfold operands
  rw [ha]
  rfl

theorem operands_of_right (ha : a.toNumber = .ok x) (hb : b.toNumber = .error e) :
    operands a b = .error e := by
  unfold operands
  rw [ha, hb]
  rfl

section

variable (op : Operator) (onIntegers : Int → Int → Int) (onDoubles : Float → Float → Float)

theorem combine_of_error (h : operands a b = .error e) :
    combine op onIntegers onDoubles a b = .error e := by
  unfold combine
  rw [h]
  rfl

theorem combine_of_integers (ha : a.toNumber = .ok (.integer m))
    (hb : b.toNumber = .ok (.integer n)) :
    combine op onIntegers onDoubles a b = exactInteger op (onIntegers m.toInt n.toInt) := by
  unfold combine
  rw [operands_of_ok ha hb]
  rfl

theorem combine_of_double (ha : a.toNumber = .ok x) (hb : b.toNumber = .ok y)
    (h : (∃ z, x = .double z) ∨ ∃ z, y = .double z) :
    combine op onIntegers onDoubles a b = .ok (.double (onDoubles x.toFloat y.toFloat)) := by
  unfold combine
  rw [operands_of_ok ha hb]
  rcases h with ⟨z, rfl⟩ | ⟨z, rfl⟩
  · rfl
  · cases x <;> rfl

end

/-! ## Quotients -/

/-- The value counts as zero. -/
def IsZero (v : Value) : Prop := ∃ x, v.toNumber = .ok x ∧ x.isZero = true

theorem divide_of_isZero (a : Value) (hb : b.IsZero) : divide a b = .error .divisionByZero := by
  obtain ⟨y, hy, hzero⟩ := hb
  unfold divide
  rw [hy]
  simp [bind, Except.bind, hzero, throw, throwThe, MonadExceptOf.throw]

theorem divide_of_not_isZero (a : Value) (hb : b.toNumber = .ok y) (hzero : ¬ b.IsZero) :
    divide a b = combine .div Int.tdiv (· / ·) a b := by
  have hy : y.isZero = false := Bool.eq_false_iff.2 fun h => hzero ⟨y, hb, h⟩
  unfold divide
  rw [hb]
  simp [bind, Except.bind, hy]

/-- The divisor is looked at before the dividend. -/
theorem divide_of_right (a : Value) (hb : b.toNumber = .error e) : divide a b = .error e := by
  unfold divide
  rw [hb]
  rfl

/-- A quotient is out of range only where it is the opposite of the least integer. -/
theorem forall_toInt_ne_tdiv_iff (hn : n ≠ 0) :
    (∀ i : Int64, i.toInt ≠ m.toInt.tdiv n.toInt) ↔ m = Int64.minValue ∧ n = -1 := by
  rw [forall_toInt_ne_iff]
  constructor
  · intro h
    have hle := Int.natAbs_tdiv_le_natAbs m.toInt n.toInt
    have hlow := m.le_toInt
    have hhigh := m.toInt_lt
    have hm : m.toInt = -2 ^ 63 := by omega
    have hn' : n.toInt ≠ 0 := fun h0 => hn (Int64.toInt_inj.1 h0)
    -- a divisor other than one and its opposite makes the dividend smaller
    have hone : n.toInt.natAbs < 2 := by
      by_contra htwo
      have hhalf : (m.toInt.tdiv n.toInt).natAbs ≤ m.toInt.natAbs / 2 := by
        rw [Int.natAbs_tdiv]
        exact Nat.div_le_div_left (Nat.le_of_not_lt htwo) (by decide)
      omega
    have hneg : n.toInt ≠ 1 := by
      intro h1
      rw [h1, Int.tdiv_one] at h
      omega
    have hminus : n.toInt = -1 := by omega
    exact ⟨Int64.toInt_inj.1 hm, Int64.toInt_inj.1 hminus⟩
  · rintro ⟨rfl, rfl⟩
    exact .inr (by decide)

theorem isExact_divide (ha : a.toNumber = .ok (.integer m)) (hb : b.toNumber = .ok (.integer n))
    (hn : n ≠ 0) : IsExact .div (m.toInt.tdiv n.toInt) (divide a b) := by
  have hzero : ¬ b.IsZero := by
    rintro ⟨y, hy, hzero⟩
    rw [hb] at hy
    obtain rfl := Except.ok.inj hy
    exact hn (by simpa [Number.isZero] using hzero)
  rw [divide_of_not_isZero a hb hzero, combine_of_integers _ _ _ ha hb]
  exact isExact_exactInteger _ _

/-! ## Powers -/

/-- Of the exponent of 0, 1 and -1 only the parity counts, and whether it is zero. -/
theorem pow_parity {base : Int} (h : base.natAbs ≤ 1) (exponent : Nat) :
    base ^ (if exponent = 0 then 0 else 2 - exponent % 2) = base ^ exponent := by
  by_cases h0 : exponent = 0
  · rw [if_pos h0, h0]
  · rw [if_neg h0]
    obtain rfl | rfl | rfl : base = 0 ∨ base = 1 ∨ base = -1 := by omega
    · rw [zero_pow h0, zero_pow (by omega)]
    · rw [one_pow, one_pow]
    · have hparity : (2 - exponent % 2) % 2 = exponent % 2 := by omega
      rw [neg_one_pow_eq_pow_mod_two (R := Int), hparity, ← neg_one_pow_eq_pow_mod_two]

theorem integerPower_eq_some {base r : Int} {exponent : Nat}
    (h : integerPower base exponent = some r) : r = base ^ exponent := by
  unfold integerPower at h
  split at h
  · rename_i hbase
    obtain rfl := Option.some.inj h
    exact pow_parity hbase exponent
  · split at h
    · exact (Option.some.inj h).symm
    · cases h

/-- From 2 on, a power with an exponent of 64 or more has more than 64 bits. -/
theorem forall_toInt_ne_of_integerPower_eq_none {base : Int} {exponent : Nat}
    (h : integerPower base exponent = none) (i : Int64) : i.toInt ≠ base ^ exponent := by
  unfold integerPower at h
  split at h
  · cases h
  · rename_i hbase
    split at h
    · cases h
    · rename_i hexponent
      have hlarge : 2 ^ 64 ≤ (base ^ exponent).natAbs := by
        rw [Int.natAbs_pow]
        calc 2 ^ 64 ≤ 2 ^ exponent := Nat.pow_le_pow_right (by decide) (Nat.le_of_not_lt hexponent)
          _ ≤ base.natAbs ^ exponent := Nat.pow_le_pow_left (by omega) exponent
      exact forall_toInt_ne_iff.2 (by omega) i

theorem isExact_power (ha : a.toNumber = .ok (.integer m)) (hb : b.toNumber = .ok (.integer n))
    (hn : 0 ≤ n.toInt) : IsExact .pow (m.toInt ^ n.toInt.toNat) (power a b) := by
  have hpower : power a b =
      (integerPower m.toInt n.toInt.toNat).elim (.error (.overflow .pow)) (exactInteger .pow) := by
    unfold power
    rw [operands_of_ok ha hb]
    simp only [bind, Except.bind, if_pos hn]
    cases integerPower m.toInt n.toInt.toNat <;> rfl
  rw [hpower]
  cases h : integerPower m.toInt n.toInt.toNat with
  | some r =>
    rw [← integerPower_eq_some h]
    exact isExact_exactInteger _ _
  | none => exact .inr ⟨forall_toInt_ne_of_integerPower_eq_none h, rfl⟩

theorem power_of_neg (ha : a.toNumber = .ok (.integer m)) (hb : b.toNumber = .ok (.integer n))
    (hn : n.toInt < 0) :
    power a b = .ok (.double (Float.pow (floatOfInt m.toInt) (floatOfInt n.toInt))) := by
  unfold power
  rw [operands_of_ok ha hb]
  exact if_neg (Int.not_le.2 hn)

theorem power_of_double (ha : a.toNumber = .ok x) (hb : b.toNumber = .ok y)
    (h : (∃ z, x = .double z) ∨ ∃ z, y = .double z) :
    power a b = .ok (.double (Float.pow x.toFloat y.toFloat)) := by
  unfold power
  rw [operands_of_ok ha hb]
  rcases h with ⟨z, rfl⟩ | ⟨z, rfl⟩
  · rfl
  · cases x <;> rfl

theorem power_of_error (h : operands a b = .error e) : power a b = .error e := by
  unfold power
  rw [h]
  rfl

/-! ## All operators -/

theorem apply_of_error (op : Operator)
    (h : (∃ e, a.toNumber = .error e) ∨ ∃ e, b.toNumber = .error e)
    (hzero : ¬ (op = .div ∧ b.IsZero)) :
    ∃ e, (a.toNumber = .error e ∨ b.toNumber = .error e) ∧ apply op a b = .error e := by
  have hoperands : ∃ e, (a.toNumber = .error e ∨ b.toNumber = .error e) ∧
      operands a b = .error e := by
    cases ha : a.toNumber with
    | error e => exact ⟨e, .inl rfl, operands_of_left ha b⟩
    | ok x =>
      obtain ⟨e, he⟩ := h.resolve_left fun ⟨e, he⟩ => by rw [ha] at he; cases he
      exact ⟨e, .inr he, operands_of_right ha he⟩
  cases op with
  | add | sub | mul =>
    obtain ⟨e, he, hoperands⟩ := hoperands
    exact ⟨e, he, combine_of_error _ _ _ hoperands⟩
  | pow =>
    obtain ⟨e, he, hoperands⟩ := hoperands
    exact ⟨e, he, power_of_error hoperands⟩
  | div =>
    cases hb : b.toNumber with
    | error e => exact ⟨e, .inr rfl, divide_of_right a hb⟩
    | ok y =>
      obtain ⟨e, he, hoperands⟩ := hoperands
      have hdivide := divide_of_not_isZero a hb fun hz => hzero ⟨rfl, hz⟩
      exact ⟨e, hb ▸ he, hdivide.trans (combine_of_error _ _ _ hoperands)⟩

/-- With a double among the operands the result is a double. -/
theorem apply_of_double (op : Operator) (ha : a.toNumber = .ok x) (hb : b.toNumber = .ok y)
    (h : (∃ z, x = .double z) ∨ ∃ z, y = .double z) (hzero : ¬ (op = .div ∧ b.IsZero)) :
    apply op a b = .ok (.double (op.onDoubles x.toFloat y.toFloat)) := by
  cases op with
  | add | sub | mul => exact combine_of_double _ _ _ ha hb h
  | div =>
    have hdivide := divide_of_not_isZero a hb fun hz => hzero ⟨rfl, hz⟩
    exact hdivide.trans (combine_of_double _ _ _ ha hb h)
  | pow => exact power_of_double ha hb h

theorem run_assign (op : Operator) (a b : Value) :
    (assign op b).run a =
      (do let w ← apply op a b; set w : ExceptT EvalError (StateM Value) Unit).run a :=
  rfl

theorem run_assign_of_ok {op : Operator} {v : Value} (h : apply op a b = .ok v) :
    (assign op b).run a = (.ok (), v) := by
  rw [run_assign, h]
  rfl

/-- An operator that fails leaves the value as it is. -/
theorem run_assign_of_error {op : Operator} (h : apply op a b = .error e) :
    (assign op b).run a = (.error e, a) := by
  rw [run_assign, h]
  rfl

/-- Every operator with every two values.  An operand that is no number is named in the error, but
dividing by zero is refused whatever the dividend is.  Two integers give the exact result or an
overflow, and for a power with a negative exponent a double; with a double among the operands the
result is a double.  Where an operator fails in place, the value stays as it is. -/
theorem apply_exact (a b : Value) :
    (∀ op, (∃ e, a.toNumber = .error e) ∨ (∃ e, b.toNumber = .error e) →
      ¬ (op = .div ∧ b.IsZero) →
      ∃ s, (a = .text s ∨ b = .text s) ∧ Number.ofText? s.toList = none ∧
        apply op a b = .error (.invalidNumber s)) ∧
    (b.IsZero → apply .div a b = .error .divisionByZero) ∧
    (∀ m n, a.toNumber = .ok (.integer m) → b.toNumber = .ok (.integer n) →
      IsExact .add (m.toInt + n.toInt) (apply .add a b) ∧
      IsExact .sub (m.toInt - n.toInt) (apply .sub a b) ∧
      IsExact .mul (m.toInt * n.toInt) (apply .mul a b) ∧
      (n ≠ 0 → IsExact .div (m.toInt.tdiv n.toInt) (apply .div a b) ∧
        (apply .div a b = .error (.overflow .div) ↔ m = Int64.minValue ∧ n = -1)) ∧
      (0 ≤ n.toInt → IsExact .pow (m.toInt ^ n.toInt.toNat) (apply .pow a b)) ∧
      (n.toInt < 0 → apply .pow a b =
        .ok (.double (Float.pow (floatOfInt m.toInt) (floatOfInt n.toInt))))) ∧
    (∀ op x y, a.toNumber = .ok x → b.toNumber = .ok y →
      (∃ z, x = .double z) ∨ (∃ z, y = .double z) → ¬ (op = .div ∧ b.IsZero) →
      apply op a b = .ok (.double (op.onDoubles x.toFloat y.toFloat))) ∧
    (∀ op v, apply op a b = .ok v → (assign op b).run a = (.ok (), v)) ∧
    (∀ op e, apply op a b = .error e → (assign op b).run a = (.error e, a)) := by
  refine ⟨?_, divide_of_isZero a, ?_, fun op x y => apply_of_double op,
    fun op v => run_assign_of_ok, fun op e => run_assign_of_error⟩
  · intro op h hzero
    obtain ⟨e, ha | hb, hresult⟩ := apply_of_error op h hzero
    · obtain ⟨s, hs, hnone, rfl⟩ := toNumber_eq_error_iff.1 ha
      exact ⟨s, .inl hs, hnone, hresult⟩
    · obtain ⟨s, hs, hnone, rfl⟩ := toNumber_eq_error_iff.1 hb
      exact ⟨s, .inr hs, hnone, hresult⟩
  · intro m n ha hb
    have hexact : ∀ op f g, IsExact op (f m.toInt n.toInt) (combine op f g a b) := by
      intro op f g
      rw [combine_of_integers op f g ha hb]
      exact isExact_exactInteger op _
    refine ⟨hexact _ _ _, hexact _ _ _, hexact _ _ _, ?_, isExact_power ha hb, power_of_neg ha hb⟩
    intro hn
    have hdivide := isExact_divide ha hb hn
    exact ⟨hdivide, hdivide.eq_overflow_iff.trans (forall_toInt_ne_tdiv_iff hn)⟩

/-- At the ends of the range: the opposite of the least integer overflows, and the odd power that is
the least integer does not; -1 has a power with the largest exponent.  A text that is no number is
not divided by zero, and stays what it is when something is added to it. -/
theorem apply_exact_at_ends :
    let least := text "-9223372036854775808"
    let largest := integer Int64.maxValue
    apply .div least (integer (-1)) = .error (.overflow .div) ∧
      apply .pow (integer (-2)) (text "63") = .ok (integer Int64.minValue) ∧
      apply .pow (integer (-1)) largest = .ok (integer (-1)) ∧
      apply .add largest absent = .ok largest ∧
      (∃ x, apply .pow largest (integer (-1)) = .ok (double x)) ∧
      (∃ x, apply .mul largest (double 0.5) = .ok (double x)) ∧
      apply .div (text "ten") (double (-0.0)) = .error .divisionByZero ∧
      (assign .add (integer 1)).run (text "ten") = (.error (.invalidNumber "ten"), text "ten") := by
  intro least largest
  have hleast : least.toNumber = .ok (.integer Int64.minValue) := by cbv
  have hmax : Int64.maxValue.toInt = 2 ^ 63 - 1 := Int64.toInt_maxValue
  have hodd : Odd Int64.maxValue.toInt.toNat := ⟨2 ^ 62 - 1, by omega⟩
  have hzero : (double (-0.0)).IsZero := ⟨_, rfl, by decide⟩
  obtain ⟨-, -, hquotient, -⟩ := apply_exact least (integer (-1))
  obtain ⟨-, -, hroot, -⟩ := apply_exact (integer (-2)) (text "63")
  obtain ⟨-, -, hminus, -⟩ := apply_exact (integer (-1)) largest
  obtain ⟨-, -, hsum, -⟩ := apply_exact largest absent
  obtain ⟨-, -, hinverse, -⟩ := apply_exact largest (integer (-1))
  obtain ⟨-, -, -, hdouble, -⟩ := apply_exact largest (double 0.5)
  obtain ⟨-, hdivide, -⟩ := apply_exact (text "ten") (double (-0.0))
  obtain ⟨hrefused, -, -, -, -, hassign⟩ := apply_exact (text "ten") (integer 1)
  refine ⟨?_, ?_, ?_, ?_, ?_, ?_, hdivide hzero, ?_⟩
  · exact ((hquotient _ _ hleast rfl).2.2.2.1 (by decide)).2.2 ⟨rfl, rfl⟩
  · exact ((hroot (-2) 63 rfl (by cbv)).2.2.2.2.1 (by decide)).eq_ok (by decide)
  · exact ((hminus _ _ rfl rfl).2.2.2.2.1 (by omega)).eq_ok hodd.neg_one_pow.symm
  · exact (hsum _ 0 rfl rfl).1.eq_ok (by decide)
  · exact ⟨_, (hinverse _ _ rfl rfl).2.2.2.2.2 (by decide)⟩
  · exact ⟨_, hdouble .mul _ _ rfl rfl (.inr ⟨_, rfl⟩) (by simp)⟩
  · obtain ⟨s, hs, -, hresult⟩ := hrefused .add (.inl ⟨_, by cbv⟩) (by simp)
    obtain rfl : "ten" = s := by simpa using hs
    exact hassign _ _ hresult

end Value

end Stencil
