import Stencil.Page
import Stencil.Proofs.Engine.Formulas
import Stencil.Proofs.Engine.Unlimited
set_option autoImplicit false

/-!
# Loops over integers

A loop from an integer to an integer in steps of an integer, over a body that succeeds
each time.  Its counters are whole numbers in even steps (`Value.Counts`), as many of
them as there are within the bound and within 64 bits (`Engine.makes_integers`).  The
step is added before the next counter is looked at, so the loop fails behind its last
iteration where the next counter would have more than 64 bits
(`Engine.makes_integers_up`).
-/

namespace Stencil

namespace Engine

open Value (Counts numberUp)

variable {σ : Type} [Host σ]

/-! ## Bodies that succeed -/

/-- The body succeeds for all integers counted from the first counter on within the bound, one after
another. -/
def Succeeds (name : String) (body : List Node) (m : Machine σ) (a b s : Int64) : Prop :=
  ∀ cs : List Int64, Counts a.toInt s.toInt cs → (∀ c ∈ cs, c ≤ b) →
    ∃ host, WithFuel fun fuel =>
      Turns name (runAll { fuel } body) m.vars (cs.map .integer) m.host host

/-- A body that succeeds for every counter, whatever the host, succeeds for counters in a row. -/
theorem exists_turns {name : String} {body : List Node} {vars : Stacks}
    (hbody : ∀ (c : Value) (host : σ), ∃ m, WithFuel fun fuel =>
      runAll { fuel } body ⟨vars.push name c, host⟩ = (.ok (), m))
    (cs : List Value) (host : σ) :
    ∃ host', WithFuel fun fuel => Turns name (runAll { fuel } body) vars cs host host' := by
  induction cs generalizing host with
  | nil => exact ⟨host, .of_forall fun _ => .nil host⟩
  | cons c cs ih =>
    obtain ⟨m, hturn⟩ := hbody c host
    obtain ⟨host', hrest⟩ := ih m.host
    exact ⟨host', (hturn.and hrest).mono fun _ ⟨hturn, hrest⟩ => .cons hturn hrest⟩

/-- A body that keeps the counter as a parameter succeeds, whatever the host. -/
theorem succeeds_set (name key : String) (m : Machine σ) (a b s : Int64) :
    Succeeds name [.echo [.var name, .text key, .call "tparamSet"]] m a b s := by
  intro cs _ _
  refine exists_turns (fun c host => ?_) (cs.map .integer) m.host
  refine ⟨⟨m.vars.push name c, (Host.answer (.set .transient key c.display) host).2⟩,
    .of_forall fun fuel => ?_⟩
  have hvalue : (Element.var name).value (m.vars.push name c) = .ok c := Stacks.peek_push ..
  have hsteps : (Expression.steps (m.vars.push name c)
        [.var name, .text key, .call "tparamSet"]).run ⟨[], host⟩ =
      (.ok (), ⟨[], (Host.answer (.set .transient key c.display) host).2⟩) := by
    rw [Expression.steps, Step.run_bind, Expression.run_step_of_isOperand _ rfl, hvalue]
    rfl
  simp only [runAll, run, onHost, Expression.echo, hsteps]
  rfl

/-! ## Loops that end -/

section

variable {h : LoopHeader} {body : List Node} {m : Machine σ} {a b s : Int64}

section

variable {cs : List Int64} {host : σ}
  (hrange : range m.vars h = .ok (.integer a, .integer b, .integer s))
  (hcounts : Counts a.toInt s.toInt cs) (hle : ∀ c ∈ cs, c ≤ b)
  (hturns : WithFuel fun fuel =>
    Turns h.name (runAll { fuel } body) m.vars (cs.map .integer) m.host host)

include hrange hcounts hle hturns

/-- The loop ends where the next counter has 64 bits and is beyond the bound. -/
theorem makes_of_counts {next : Int64} (hnext : next.toInt = a.toInt + cs.length * s.toInt)
    (hbeyond : b < next) : Makes h body m (cs.map .integer) (.ok (), ⟨m.vars, host⟩) :=
  makes_of_beyond hrange
    (Value.counting_of_counts hle (Value.counts_concat.2 ⟨hcounts, hnext⟩))
    (Value.order_integer_of_lt hbeyond) hturns

/-- The loop fails behind its last iteration where the next counter has more than 64 bits. -/
theorem makes_of_counts_overflow
    (hnext : ∀ i : Int64, i.toInt ≠ a.toInt + cs.length * s.toInt) :
    ∃ vars, Makes h body m (cs.map .integer)
      (.error (.failed (.overflow .add)), ⟨vars, host⟩) := by
  -- there are counters, because the first one has 64 bits
  have hne : cs ≠ [] := by
    rintro rfl
    exact hnext a (by simp)
  obtain ⟨before, last, rfl⟩ := (List.eq_nil_or_concat' cs).resolve_left hne
  obtain ⟨-, hlast⟩ := Value.counts_concat.1 hcounts
  have hsum : last.toInt + s.toInt = a.toInt + (before ++ [last]).length * s.toInt := by
    rw [hlast, List.length_append, List.length_singleton]
    push_cast
    ring
  have hadd : (Value.integer last).add (.integer s) = .error (.overflow .add) :=
    (Value.isExact_add_integers last s).eq_overflow_iff.2 (hsum ▸ hnext)
  rw [List.map_append] at hturns ⊢
  refine ⟨_, makes_of_last hrange (Value.counting_of_counts ?_ hcounts)
    (Value.isWithin_integer (hle last (by simp))) hadd hturns⟩
  exact fun c hc => hle c (List.mem_append_left _ hc)

end

section

variable (hrange : range m.vars h = .ok (.integer a, .integer b, .integer s))
  (hbody : Succeeds h.name body m a b s)

include hrange hbody

omit hbody in
/-- From beyond the bound there is no iteration. -/
theorem makes_of_lt (hba : b < a) : Makes h body m [] (.ok (), m) :=
  makes_of_beyond hrange (.nil _) (Value.order_integer_of_lt hba) (.of_forall fun _ => .nil _)

/-- A loop that counts up has the counters up to the bound, and the next counter settles how it
ends. -/
theorem exists_makes_up (hs : 0 < s) :
    ∃ cs host, Counts a.toInt s.toInt cs ∧
      cs.length = numberUp a b s ∧ (∀ c ∈ cs, c ≤ b) ∧ b.toInt < a.toInt + cs.length * s.toInt ∧
      (a.toInt + cs.length * s.toInt < 2 ^ 63 →
        Makes h body m (cs.map .integer) (.ok (), ⟨m.vars, host⟩)) ∧
      (2 ^ 63 ≤ a.toInt + cs.length * s.toInt →
        ∃ vars, Makes h body m (cs.map .integer)
          (.error (.failed (.overflow .add)), ⟨vars, host⟩)) := by
  have hlow := a.le_toInt
  have hpos : 0 < s.toInt := Int64.lt_iff_toInt_lt.1 hs
  have hsteps : ∀ k : Nat, k < numberUp a b s ↔ k * s.toInt ≤ b.toInt - a.toInt :=
    Value.lt_steps_iff hpos
  -- of the number of iterations only `hsteps` is needed
  generalize numberUp a b s = n at hsteps ⊢
  have hwithin : ∀ k < n, -2 ^ 63 ≤ a.toInt + k * s.toInt ∧ a.toInt + k * s.toInt ≤ b.toInt := by
    intro k hk
    have hgone := (hsteps k).1 hk
    have hnonneg : 0 ≤ k * s.toInt := by positivity
    omega
  have hbeyond : b.toInt < a.toInt + n * s.toInt := by
    have hgone := mt (hsteps n).2 (Nat.lt_irrefl n)
    omega
  obtain ⟨cs, rfl, hcounts, hle⟩ := Value.exists_counts hwithin
  obtain ⟨host, hturns⟩ := hbody cs hcounts hle
  refine ⟨cs, host, hcounts, rfl, hle, hbeyond, fun hnext => ?_, fun hnext => ?_⟩
  · obtain ⟨next, heq⟩ : ∃ next : Int64, next.toInt = a.toInt + cs.length * s.toInt :=
      ⟨_, Int64.toInt_ofInt_of_le (b.le_toInt.trans hbeyond.le) hnext⟩
    have hlt : b < next := Int64.lt_iff_toInt_lt.2 (heq ▸ hbeyond)
    exact makes_of_counts hrange hcounts hle hturns heq hlt
  · exact makes_of_counts_overflow hrange hcounts hle hturns (forall_toInt_ne_iff.2 (.inr hnext))

/-- From within the bound, a loop that counts up has all counters up to the bound. -/
theorem exists_makes_of_pos (hab : a ≤ b) (hs : 0 < s) :
    ∃ cs r, Counts a.toInt s.toInt cs ∧
      (cs.length : Int) = (b.toInt - a.toInt) / s.toInt + 1 ∧
      Makes h body m (cs.map .integer) r ∧
      (r.1 = .ok () ∨ r.1 = .error (.failed (.overflow .add))) := by
  obtain ⟨cs, host, hcounts, hlength, -, -, hok, hover⟩ := exists_makes_up hrange hbody hs
  have hlength : (cs.length : Int) = (b.toInt - a.toInt) / s.toInt + 1 := by
    rw [hlength]
    exact Value.toNat_steps (Int.sub_nonneg.2 (Int64.le_iff_toInt_le.1 hab))
      (Int64.lt_iff_toInt_lt.1 hs).le
  by_cases hnext : a.toInt + cs.length * s.toInt < 2 ^ 63
  · exact ⟨cs, _, hcounts, hlength, hok hnext, .inl rfl⟩
  · obtain ⟨vars, hmakes⟩ := hover (Int.not_lt.1 hnext)
    exact ⟨cs, _, hcounts, hlength, hmakes, .inr rfl⟩

/-- From within the bound, a loop that counts down has all counters down to the least integer, and
fails there. -/
theorem exists_makes_of_neg (hab : a ≤ b) (hs : s < 0) :
    ∃ cs r, Counts a.toInt s.toInt cs ∧
      (cs.length : Int) = (a.toInt - Int64.minValue.toInt) / |s.toInt| + 1 ∧
      Makes h body m (cs.map .integer) r ∧ r.1 = .error (.failed (.overflow .add)) := by
  have hle : a.toInt ≤ b.toInt := Int64.le_iff_toInt_le.1 hab
  have hleast : Int64.minValue.toInt = -2 ^ 63 := rfl
  have hneg : s.toInt < 0 := Int64.lt_iff_toInt_lt.1 hs
  have hdistance : 0 ≤ a.toInt - Int64.minValue.toInt := Int.sub_nonneg.2 a.le_toInt
  rw [← Value.toNat_steps hdistance (abs_nonneg _)]
  have hsteps : ∀ k : Nat, k < ((a.toInt - Int64.minValue.toInt) / |s.toInt| + 1).toNat ↔
      k * |s.toInt| ≤ a.toInt - Int64.minValue.toInt := Value.lt_steps_iff (abs_pos.2 hneg.ne)
  generalize ((a.toInt - Int64.minValue.toInt) / |s.toInt| + 1).toNat = n at hsteps ⊢
  rw [abs_of_neg hneg] at hsteps
  have hwithin : ∀ k < n, -2 ^ 63 ≤ a.toInt + k * s.toInt ∧ a.toInt + k * s.toInt ≤ b.toInt := by
    intro k hk
    have hgone := (hsteps k).1 hk
    have hnonneg : 0 ≤ k * -s.toInt := Int.mul_nonneg (Int.natCast_nonneg k) (neg_pos.2 hneg).le
    rw [mul_neg] at hgone hnonneg
    omega
  have hbelow : a.toInt + n * s.toInt < -2 ^ 63 := by
    have hgone := mt (hsteps n).2 (Nat.lt_irrefl n)
    rw [mul_neg] at hgone
    omega
  obtain ⟨cs, rfl, hcounts, hcb⟩ := Value.exists_counts hwithin
  obtain ⟨host, hturns⟩ := hbody cs hcounts hcb
  obtain ⟨vars, hmakes⟩ :=
    makes_of_counts_overflow hrange hcounts hcb hturns (forall_toInt_ne_iff.2 (.inl hbelow))
  exact ⟨cs, _, hcounts, rfl, hmakes, rfl⟩

end

/-- How a loop ends with enough fuel is settled. -/
theorem makes_unique {cs cs' : List Value} {r r' : Except Stop Unit × Machine σ}
    (hmakes : Makes h body m cs r) (hmakes' : Makes h body m cs' r') : r = r' := by
  obtain ⟨enough, hrun⟩ := hmakes.run.and hmakes'.run
  obtain ⟨hr, hr'⟩ := hrun enough le_rfl
  exact hr.symm.trans hr'

/-- A loop that ends with enough fuel does not run out of every fuel. -/
theorem not_outOfFuel_of_makes {cs : List Value} {r : Except Stop Unit × Machine σ}
    (hmakes : Makes h body m cs r) (hr : r.1 ≠ .error .outOfFuel) :
    ¬ ∀ fuel, (run { fuel } (.loop h body) m).1 = .error .outOfFuel := by
  obtain ⟨enough, hrun⟩ := hmakes.run
  intro hout
  rw [← hrun enough le_rfl] at hr
  exact hr (hout enough)

end

/-! ## Loops over integers -/

section

variable {h : LoopHeader} {body : List Node} {m : Machine (Recorded σ)} {a b s : Int64}

/-- Without a step the loop stays at its first counter. -/
theorem outOfFuel_of_zero (hrange : range m.vars h = .ok (.integer a, .integer b, .integer 0))
    (hbody : Succeeds h.name body m a b 0) (hab : a ≤ b) (fuel : Nat) :
    (run { fuel } (.loop h body) m).1 = .error .outOfFuel := by
  refine outOfFuel_of_counting hrange (fun n => ?_) fuel
  have hstay (k : Nat) : a.toInt + k * (0 : Int64).toInt = a.toInt :=
    (congrArg (a.toInt + ·) (mul_zero (k : Int))).trans (Int.add_zero _)
  have hwithin : ∀ k < n, -2 ^ 63 ≤ a.toInt + k * (0 : Int64).toInt ∧
      a.toInt + k * (0 : Int64).toInt ≤ b.toInt := by
    intro k _
    rw [hstay]
    exact ⟨a.le_toInt, Int64.le_iff_toInt_le.1 hab⟩
  obtain ⟨cs, hlength, hcounts, hle⟩ := Value.exists_counts hwithin
  obtain ⟨host, hturns⟩ := hbody cs hcounts hle
  refine ⟨cs.map .integer, .integer a, host, by rw [List.length_map, hlength], ?_,
    Value.isWithin_integer hab, hturns⟩
  exact Value.counting_of_counts hle (Value.counts_concat.2 ⟨hcounts, (hstay _).symm⟩)

theorem outOfFuel_iff (hrange : range m.vars h = .ok (.integer a, .integer b, .integer s))
    (hbody : Succeeds h.name body m a b s) :
    (∀ fuel, (run { fuel } (.loop h body) m).1 = .error .outOfFuel) ↔ a ≤ b ∧ s = 0 := by
  constructor
  · -- in all other cases the loop ends
    intro hout
    by_contra hother
    rcases Int.lt_or_le b.toInt a.toInt with hba | hab
    · exact not_outOfFuel_of_makes (makes_of_lt hrange (Int64.lt_iff_toInt_lt.2 hba)) nofun hout
    · have hab : a ≤ b := Int64.le_iff_toInt_le.2 hab
      have hne : s.toInt ≠ (0 : Int64).toInt := fun h0 => hother ⟨hab, Int64.toInt_inj.1 h0⟩
      rcases hne.lt_or_gt with hs | hs
      · obtain ⟨cs, r, -, -, hmakes, hr⟩ :=
          exists_makes_of_neg hrange hbody hab (Int64.lt_iff_toInt_lt.2 hs)
        exact not_outOfFuel_of_makes hmakes (by rw [hr]; nofun) hout
      · obtain ⟨cs, r, -, -, hmakes, hr | hr⟩ :=
          exists_makes_of_pos hrange hbody hab (Int64.lt_iff_toInt_lt.2 hs)
        · exact not_outOfFuel_of_makes hmakes (by rw [hr]; nofun) hout
        · exact not_outOfFuel_of_makes hmakes (by rw [hr]; nofun) hout
  · rintro ⟨hab, rfl⟩
    exact outOfFuel_of_zero hrange hbody hab

/-- A loop over integers whose body succeeds each time.  From beyond the bound it makes no iteration.
Counting up it makes those up to the bound, counting down those down to the least integer and then
fails with an overflow; the `k`-th counter is the first one and `k` steps.  No fuel is enough exactly
if the step is zero within the bound. -/
theorem makes_integers (hrange : range m.vars h = .ok (.integer a, .integer b, .integer s))
    (hbody : Succeeds h.name body m a b s) :
    (b < a → Makes h body m [] (.ok (), m)) ∧
    (a ≤ b → 0 < s → ∃ cs r, Counts a.toInt s.toInt cs ∧
      (cs.length : Int) = (b.toInt - a.toInt) / s.toInt + 1 ∧
      Makes h body m (cs.map .integer) r ∧
      (r.1 = .ok () ∨ r.1 = .error (.failed (.overflow .add)))) ∧
    (a ≤ b → s < 0 → ∃ cs r, Counts a.toInt s.toInt cs ∧
      (cs.length : Int) = (a.toInt - Int64.minValue.toInt) / |s.toInt| + 1 ∧
      Makes h body m (cs.map .integer) r ∧ r.1 = .error (.failed (.overflow .add))) ∧
    ((∀ fuel, (run { fuel } (.loop h body) m).1 = .error .outOfFuel) ↔ a ≤ b ∧ s = 0) :=
  ⟨makes_of_lt hrange, exists_makes_of_pos hrange hbody, exists_makes_of_neg hrange hbody,
    outOfFuel_iff hrange hbody⟩

/-- A loop from beyond the bound; three steps over more than 64 bits; two steps down to the least
integer; and a loop that stays where it is. -/
theorem makes_integers_spans :
    let loop (a b s : Int64) : LoopHeader := ⟨"i", .integer a, .integer b, some (.integer s)⟩
    let body : List Node := [.echo [.var "i", .text "k", .call "tparamSet"]]
    let m : Machine (Recorded Page) := ⟨{}, ⟨{}, []⟩⟩
    let least := Int64.minValue
    let largest := Int64.maxValue
    Makes (loop 3 1 1) body m [] (.ok (), m) ∧
      (∃ r, Makes (loop least largest largest) body m
        [.integer least, .integer (-1), .integer (largest - 1)] r) ∧
      (∃ r, Makes (loop (least + 1) 5 (-1)) body m [.integer (least + 1), .integer least] r ∧
        r.1 = .error (.failed (.overflow .add))) ∧
      ∀ fuel, (run { fuel } (.loop (loop 1 1 0) body) m).1 = .error .outOfFuel := by
  intro loop body m least largest
  have hbody (a b s : Int64) : Succeeds "i" body m a b s := succeeds_set "i" "k" m a b s
  have hmakes (a b s : Int64) := makes_integers (h := loop a b s) rfl (hbody a b s)
  refine ⟨(hmakes 3 1 1).1 (by decide), ?_, ?_, (hmakes 1 1 0).2.2.2.2 (by decide)⟩
  · obtain ⟨cs, r, hcounts, hlength, hmakes, -⟩ :=
      (hmakes least largest largest).2.1 (by decide) (by decide)
    have hthree : cs.length = 3 := Int.ofNat.inj (hlength.trans (by decide))
    obtain ⟨c, d, e, rfl⟩ := List.length_eq_three.1 hthree
    obtain ⟨hc, hrest⟩ := Value.counts_cons.1 hcounts
    obtain ⟨hd, hrest⟩ := Value.counts_cons.1 hrest
    obtain ⟨he, -⟩ := Value.counts_cons.1 hrest
    obtain rfl : c = least := Int64.toInt_inj.1 hc
    obtain rfl : d = -1 := Int64.toInt_inj.1 (hd.trans (by decide))
    obtain rfl : e = largest - 1 := Int64.toInt_inj.1 (he.trans (by decide))
    exact ⟨r, hmakes⟩
  · obtain ⟨cs, r, hcounts, hlength, hmakes, hr⟩ :=
      (hmakes (least + 1) 5 (-1)).2.2.1 (by decide) (by decide)
    have htwo : cs.length = 2 := Int.ofNat.inj (hlength.trans (by decide))
    obtain ⟨c, d, rfl⟩ := List.length_eq_two.1 htwo
    obtain ⟨hc, hrest⟩ := Value.counts_cons.1 hcounts
    obtain ⟨hd, -⟩ := Value.counts_cons.1 hrest
    obtain rfl : c = least + 1 := Int64.toInt_inj.1 hc
    obtain rfl : d = least := Int64.toInt_inj.1 hd
    exact ⟨r, hmakes, hr⟩

end

/-! ## The end of counting up -/

section

variable {h : LoopHeader} {body : List Node} {m : Machine σ} {a b s : Int64}

/-- The loop counts up to the last integer that the bound allows, ends behind it, and leaves the
stacks as they were. -/
def CompletesUp (h : LoopHeader) (body : List Node) (m : Machine σ) (a b s : Int64) : Prop :=
  ∃ (cs : List Int64) (host : σ), Counts a.toInt s.toInt cs ∧ (∀ c ∈ cs, c ≤ b) ∧
    b.toInt < a.toInt + cs.length * s.toInt ∧
    Makes h body m (cs.map .integer) (.ok (), ⟨m.vars, host⟩)

/-- A loop that counts up over a body that succeeds each time completes exactly if the first number
beyond the bound still has 64 bits.  Else it makes the same iterations and fails behind the last of
them. -/
theorem makes_integers_up (hrange : range m.vars h = .ok (.integer a, .integer b, .integer s))
    (hbody : Succeeds h.name body m a b s) (hs : 0 < s) :
    (CompletesUp h body m a b s ↔ a.toInt + numberUp a b s * s.toInt < 2 ^ 63) ∧
    (2 ^ 63 ≤ a.toInt + numberUp a b s * s.toInt →
      ∃ cs r, Counts a.toInt s.toInt cs ∧ cs.length = numberUp a b s ∧ (∀ c ∈ cs, c ≤ b) ∧
        Makes h body m (cs.map .integer) r ∧ r.1 = .error (.failed (.overflow .add))) := by
  obtain ⟨cs, host, hcounts, hlength, hle, hbeyond, hok, hover⟩ := exists_makes_up hrange hbody hs
  rw [← hlength]
  constructor
  · constructor
    · rintro ⟨cs', host', -, -, -, hmakes⟩
      by_contra hnext
      obtain ⟨vars, hmakes'⟩ := hover (Int.not_lt.1 hnext)
      cases makes_unique hmakes hmakes'
    · exact fun hnext => ⟨cs, host, hcounts, hle, hbeyond, hok hnext⟩
  · intro hnext
    obtain ⟨vars, hmakes⟩ := hover hnext
    exact ⟨cs, _, hcounts, rfl, hle, hmakes, rfl⟩

/-- Up to 10 in steps of 3, and up to the largest integer in steps of 2: the first loop completes,
the second one fails behind both of its iterations. -/
theorem makes_integers_up_ends :
    let loop (a b s : Int64) : LoopHeader := ⟨"i", .integer a, .integer b, some (.integer s)⟩
    let body : List Node := [.echo [.var "i", .text "k", .call "tparamSet"]]
    let m : Machine (Recorded Page) := ⟨{}, ⟨{}, []⟩⟩
    let largest := Int64.maxValue
    CompletesUp (loop 1 10 3) body m 1 10 3 ∧
      ∃ r, Makes (loop (largest - 3) largest 2) body m
          [.integer (largest - 3), .integer (largest - 1)] r ∧
        r.1 = .error (.failed (.overflow .add)) := by
  intro loop body m largest
  have hbody (a b s : Int64) : Succeeds "i" body m a b s := succeeds_set "i" "k" m a b s
  have hmakes (a b s : Int64) := makes_integers_up (h := loop a b s) rfl (hbody a b s)
  refine ⟨(hmakes 1 10 3 (by decide)).1.2 (by decide), ?_⟩
  obtain ⟨cs, r, hcounts, hlength, -, hmakes, hr⟩ :=
    (hmakes (largest - 3) largest 2 (by decide)).2 (by decide)
  have htwo : cs.length = 2 := hlength.trans (by decide)
  obtain ⟨c, d, rfl⟩ := List.length_eq_two.1 htwo
  obtain ⟨hc, hrest⟩ := Value.counts_cons.1 hcounts
  obtain ⟨hd, -⟩ := Value.counts_cons.1 hrest
  obtain rfl : c = largest - 3 := Int64.toInt_inj.1 hc
  obtain rfl : d = largest - 1 := Int64.toInt_inj.1 (hd.trans (by decide))
  exact ⟨r, hmakes, hr⟩

/-- Up to the largest integer in steps of one: the body succeeds for the only counter, and the loop
fails behind it. -/
theorem not_completesUp_to_largest :
    let largest := Int64.maxValue
    let h : LoopHeader := ⟨"i", .integer largest, .integer largest, none⟩
    let body : List Node := [.echo [.var "i", .text "k", .call "tparamSet"]]
    let m : Machine (Recorded Page) := ⟨{}, ⟨{}, []⟩⟩
    range m.vars h = .ok (.integer largest, .integer largest, .integer 1) ∧
      Succeeds h.name body m largest largest 1 ∧ ¬ CompletesUp h body m largest largest 1 ∧
      ∃ r, Makes h body m [.integer largest] r ∧ r.1 = .error (.failed (.overflow .add)) := by
  intro largest h body m
  have hbody := succeeds_set "i" "k" m largest largest 1
  obtain ⟨cs, host, hcounts, hlength, -, -, -, hover⟩ :=
    exists_makes_up (h := h) rfl hbody (by decide)
  have hone : cs.length = 1 := hlength.trans (by decide)
  obtain ⟨vars, hmakes⟩ := hover (by rw [hone]; decide)
  obtain ⟨c, rfl⟩ := List.length_eq_one_iff.1 hone
  obtain rfl : c = largest := Int64.toInt_inj.1 (Value.counts_cons.1 hcounts).1
  refine ⟨rfl, hbody, ?_, _, hmakes, rfl⟩
  rintro ⟨cs', host', -, -, -, hmakes'⟩
  cases makes_unique hmakes hmakes'

end

end Engine

end Stencil
