import Mathlib
set_option autoImplicit false

/-!
# Rows that are joined

Two rows are put one behind the other, and where they meet, the last member of the
first and the first member of the second are glued together if they can be.
-/

namespace Stencil

variable {α β : Type}

/-- The first row and then the second, with the two members that meet replaced by what they are
glued to. -/
def joinWith (glue? : α → α → Option α) : List α → List α → List α
  | [], bs => bs
  | [a], [] => [a]
  | [a], b :: bs =>
    match glue? a b with
    | some c => c :: bs
    | none => a :: b :: bs
  | a :: a' :: as, bs => a :: joinWith glue? (a' :: as) bs

section

variable {glue? : α → α → Option α}

@[simp] theorem joinWith_nil_left (bs : List α) : joinWith glue? [] bs = bs := by
  cases bs <;> rfl

theorem joinWith_cons_of_ne_nil (a : α) {as : List α} (h : as ≠ []) (bs : List α) :
    joinWith glue? (a :: as) bs = a :: joinWith glue? as bs := by
  obtain ⟨a', as', rfl⟩ := List.exists_cons_of_ne_nil h
  rw [joinWith]

@[simp] theorem joinWith_nil_right (as : List α) : joinWith glue? as [] = as := by
  induction as with
  | nil => rfl
  | cons a as ih =>
    by_cases h : as = []
    · rw [h]
      rfl
    · rw [joinWith_cons_of_ne_nil a h, ih]

/-- Only the members that meet matter. -/
theorem joinWith_append (as : List α) (a : α) (bs : List α) :
    joinWith glue? (as ++ [a]) bs = as ++ joinWith glue? [a] bs := by
  induction as with
  | nil => rfl
  | cons a' as ih =>
    rw [List.cons_append, joinWith_cons_of_ne_nil a' (by simp), ih, List.cons_append]

theorem joinWith_append_of_ne_nil (as : List α) {bs : List α} (h : bs ≠ []) (cs : List α) :
    joinWith glue? (as ++ bs) cs = as ++ joinWith glue? bs cs := by
  rcases List.eq_nil_or_concat bs with rfl | ⟨bs, b, rfl⟩
  · exact absurd rfl h
  · rw [List.concat_eq_append, ← List.append_assoc, joinWith_append, joinWith_append,
      List.append_assoc]

/-- A member that is glued to none is just put in front. -/
theorem joinWith_singleton {a : α} (h : ∀ b, glue? a b = none) (bs : List α) :
    joinWith glue? [a] bs = a :: bs := by
  cases bs with
  | nil => rfl
  | cons b bs => simp [joinWith, h]

theorem joinWith_eq_append {as bs : List α}
    (h : ∀ a ∈ as.getLast?, ∀ b ∈ bs.head?, glue? a b = none) :
    joinWith glue? as bs = as ++ bs := by
  rcases List.eq_nil_or_concat as with rfl | ⟨as, a, rfl⟩
  · simp
  · rw [List.concat_eq_append] at h ⊢
    rw [joinWith_append, List.append_assoc]
    cases bs with
    | nil => rfl
    | cons b bs => simp [joinWith, h a (by simp) b rfl]

/-- A member of two rows that are joined is a member of one of them, or made of one of each. -/
theorem mem_joinWith {as bs : List α} {c : α} (h : c ∈ joinWith glue? as bs) :
    c ∈ as ∨ c ∈ bs ∨ ∃ a ∈ as, ∃ b ∈ bs, glue? a b = some c := by
  rcases List.eq_nil_or_concat as with rfl | ⟨as, a, rfl⟩
  · rw [joinWith_nil_left] at h
    exact .inr (.inl h)
  rw [List.concat_eq_append] at h ⊢
  rw [joinWith_append] at h
  rcases List.mem_append.1 h with h | h
  · exact .inl (List.mem_append_left _ h)
  have ha : a ∈ as ++ [a] := List.mem_append_right _ List.mem_cons_self
  cases bs with
  | nil =>
    obtain rfl := List.mem_singleton.1 h
    exact .inl ha
  | cons b bs =>
    simp only [joinWith] at h
    cases hg : glue? a b with
    | none =>
      rw [hg] at h
      rcases List.mem_cons.1 h with rfl | h
      · exact .inl ha
      · exact .inr (.inl h)
    | some d =>
      rw [hg] at h
      rcases List.mem_cons.1 h with rfl | h
      · exact .inr (.inr ⟨a, ha, b, List.mem_cons_self, hg⟩)
      · exact .inr (.inl (List.mem_cons_of_mem _ h))

/-- A map that keeps what is glued to what keeps what is joined to what. -/
theorem map_joinWith {glueImage? : β → β → Option β} {f : α → β}
    (hf : ∀ a b, glueImage? (f a) (f b) = (glue? a b).map f) (as bs : List α) :
    (joinWith glue? as bs).map f = joinWith glueImage? (as.map f) (bs.map f) := by
  rcases List.eq_nil_or_concat as with rfl | ⟨as, a, rfl⟩
  · simp
  · rw [List.concat_eq_append, joinWith_append, List.map_append, List.map_append, List.map_singleton,
      joinWith_append]
    cases bs with
    | nil => rfl
    | cons b bs =>
      simp only [joinWith, List.map_cons, hf]
      cases glue? a b <;> rfl

/-! ## Rows in which nothing can be glued -/

/-- No two neighbours can be glued together. -/
def Unglued (glue? : α → α → Option α) : List α → Prop
  | [] => True
  | a :: as => (∀ b ∈ as.head?, glue? a b = none) ∧ Unglued glue? as

/-- Neighbours in a part of the row are neighbours in the row. -/
theorem Unglued.of_append {as bs : List α} (h : Unglued glue? (as ++ bs)) :
    Unglued glue? as ∧ Unglued glue? bs := by
  induction as with
  | nil => exact ⟨trivial, h⟩
  | cons a as ih =>
    obtain ⟨hhead, htail⟩ := h
    obtain ⟨has, hbs⟩ := ih htail
    refine ⟨⟨fun b hb => hhead b ?_, has⟩, hbs⟩
    obtain ⟨as', rfl⟩ := List.head?_eq_some_iff.1 hb
    rfl

/-- What is glued together takes the place of its parts: it is glued to a neighbour on the left
only where the first part is, and to one on the right only where the second part is. -/
structure GluesLikeParts (glue? : α → α → Option α) : Prop where
  left : ∀ {a b c : α}, glue? a b = some c → ∀ {x}, glue? x a = none → glue? x c = none
  right : ∀ {a b c : α}, glue? a b = some c → ∀ {x}, glue? b x = none → glue? c x = none

theorem Unglued.joinWith (hglue : GluesLikeParts glue?) {as bs : List α}
    (ha : Unglued glue? as) (hb : Unglued glue? bs) : Unglued glue? (joinWith glue? as bs) := by
  induction as with
  | nil => simpa using hb
  | cons a as ih =>
    obtain ⟨hhead, has⟩ := ha
    cases as with
    | nil =>
      cases bs with
      | nil => exact ⟨hhead, trivial⟩
      | cons b bs =>
        simp only [Stencil.joinWith]
        cases hc : glue? a b with
        | none =>
          refine ⟨?_, hb⟩
          intro x hx
          obtain rfl := Option.some.inj hx
          exact hc
        | some c =>
          refine ⟨?_, hb.2⟩
          intro x hx
          exact hglue.right hc (hb.1 x hx)
    | cons a' as =>
      refine ⟨?_, ih has⟩
      have hnext : glue? a a' = none := hhead a' rfl
      intro x hx
      cases as with
      | cons a'' as =>
        obtain rfl := Option.some.inj hx
        exact hnext
      | nil =>
        cases bs with
        | nil =>
          obtain rfl := Option.some.inj hx
          exact hnext
        | cons b bs =>
          simp only [Stencil.joinWith] at hx
          cases hc : glue? a' b with
          | none =>
            rw [hc] at hx
            obtain rfl := Option.some.inj hx
            exact hnext
          | some c =>
            rw [hc] at hx
            obtain rfl := Option.some.inj hx
            exact hglue.left hc hnext

end

end Stencil
