set_option autoImplicit false

/-!
# Ranges of code points

A property of characters is kept as a table: a list of ranges of code points in
ascending order.  A code point is looked up until a range begins beyond it, which
finds it if it is in one of the ranges (`CodeTable.covers_iff`); that a list is
ascending is shown by one pass over it (`ascending_of_ascendsFrom`).
-/

namespace Stencil.Text

/-- The code points from `first` to `last`, both included. -/
structure CodeRange where
  first : Nat
  last : Nat
  deriving DecidableEq, Repr

namespace CodeRange

/-- The code point lies in the range. -/
def Mem (n : Nat) (r : CodeRange) : Prop := r.first ≤ n ∧ n ≤ r.last

instance (n : Nat) (r : CodeRange) : Decidable (r.Mem n) :=
  inferInstanceAs (Decidable (_ ∧ _))

/-- The code point lies in one of the ranges, which are in ascending order. -/
def covers : List CodeRange → Nat → Bool
  | [], _ => false
  | r :: rs, n => if n < r.first then false else n ≤ r.last || covers rs n

/-- Each range is nonempty and begins beyond the end of the one before. -/
def Ascending (rs : List CodeRange) : Prop :=
  (∀ r ∈ rs, r.first ≤ r.last) ∧ rs.Pairwise fun a b => a.last < b.first

theorem covers_iff {rs : List CodeRange} (h : Ascending rs) (n : Nat) :
    covers rs n = true ↔ ∃ r ∈ rs, r.Mem n := by
  induction rs with
  | nil => simp [covers]
  | cons r rs ih =>
    obtain ⟨hne, hp⟩ := h
    rw [List.pairwise_cons] at hp
    have ih := ih ⟨fun x hx => hne x (List.mem_cons_of_mem _ hx), hp.2⟩
    simp only [covers, List.mem_cons, exists_eq_or_imp]
    by_cases hn : n < r.first
    · simp only [hn, if_true, Bool.false_eq_true, false_iff, not_or]
      refine ⟨fun hm => absurd hm.1 (by omega), ?_⟩
      rintro ⟨x, hx, hm⟩
      have := hp.1 x hx
      have := hne r (List.mem_cons_self ..)
      have := hm.1
      omega
    · simp only [hn, if_false, Bool.or_eq_true, decide_eq_true_eq, ih]
      constructor
      · rintro (h | h)
        · exact .inl ⟨by omega, h⟩
        · exact .inr h
      · rintro (h | h)
        · exact .inl h.2
        · exact .inr h

/-- Below the first range nothing is covered. -/
theorem covers_cons_of_lt_first {r : CodeRange} {n : Nat} (h : n < r.first) (rs : List CodeRange) :
    covers (r :: rs) n = false := if_pos h

/-- The code point of the first range is covered. -/
theorem covers_cons_of_mem {r : CodeRange} {n : Nat} (h : r.Mem n) (rs : List CodeRange) :
    covers (r :: rs) n = true := by
  simp [covers, Nat.not_lt.2 h.1, h.2]

/-- A code point beyond the first range is looked up in the others. -/
theorem covers_cons_of_lt {r : CodeRange} {n : Nat} (hr : r.first ≤ r.last) (h : r.last < n)
    (rs : List CodeRange) : covers (r :: rs) n = covers rs n := by
  have : ¬ n < r.first := by omega
  simp [covers, this, Nat.not_le.2 h]

/-! ## Ascending lists -/

/-- The ranges are in ascending order and begin at the bound or beyond it, which one pass over
the list decides. -/
def ascendsFrom : Nat → List CodeRange → Bool
  | _, [] => true
  | bound, r :: rs => bound ≤ r.first && r.first ≤ r.last && ascendsFrom (r.last + 1) rs

theorem ascending_of_ascendsFrom {b : Nat} {rs : List CodeRange}
    (h : ascendsFrom b rs = true) : Ascending rs ∧ ∀ r ∈ rs, b ≤ r.first := by
  induction rs generalizing b with
  | nil => exact ⟨⟨by simp, .nil⟩, by simp⟩
  | cons r rs ih =>
    simp only [ascendsFrom, Bool.and_eq_true, decide_eq_true_eq] at h
    obtain ⟨⟨hbound, hne⟩, hrest⟩ := h
    obtain ⟨⟨hnes, hp⟩, hfrom⟩ := ih hrest
    refine ⟨⟨?_, .cons (fun a ha => hfrom a ha) hp⟩, ?_⟩
    · simpa using ⟨hne, hnes⟩
    · refine List.forall_mem_cons.2 ⟨hbound, fun a ha => ?_⟩
      have := hfrom a ha
      omega

end CodeRange

/-- Ranges in ascending order. -/
structure CodeTable where
  ranges : List CodeRange
  ascends : CodeRange.ascendsFrom 0 ranges = true := by decide +kernel

namespace CodeTable

/-- The code point lies in one of the ranges. -/
def covers (t : CodeTable) (n : Nat) : Bool := CodeRange.covers t.ranges n

theorem covers_iff (t : CodeTable) (n : Nat) : t.covers n = true ↔ ∃ r ∈ t.ranges, r.Mem n :=
  CodeRange.covers_iff (CodeRange.ascending_of_ascendsFrom t.ascends).1 n

end CodeTable

end Stencil.Text
