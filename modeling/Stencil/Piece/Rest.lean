import Stencil.Piece
set_option autoImplicit false

/-!
# What pieces leave

A piece that is read leaves fewer characters than there were.
-/

namespace Stencil.Lexer

theorem length_rest_elements_lt {l l' : Lexer} {es : List Element}
    (h : l.elements = .ok (es, l')) : l'.rest.length < l.rest.length := by
  fun_induction elements l generalizing es l' with
  | case1 => simp at h
  | case2 l l₁ ht =>
    simp only [Except.ok.injEq, Prod.mk.injEq] at h
    exact h.2 ▸ length_rest_lt_of_token ht nofun
  | case3 => simp at h
  | case4 l e l₁ ht es₁ l₂ hs ih =>
    simp only [Except.ok.injEq, Prod.mk.injEq] at h
    have := ih hs
    have := length_rest_lt_of_token ht nofun
    have := h.2
    subst this
    omega
  | case5 => simp at h

theorem length_rest_tagBody_le {line : Nat} {name : String} {l l' : Lexer} {p : Piece}
    (h : tagBody line name l = .ok (p, l')) : l'.rest.length ≤ l.rest.length := by
  unfold tagBody at h
  split at h
  · cases he : l.elements with
    | error e => simp [he, bind, Except.bind] at h
    | ok r =>
      simp only [he, bind, Except.bind, pure, Except.pure, Except.ok.injEq, Prod.mk.injEq] at h
      have : r.2.rest.length < l.rest.length := length_rest_elements_lt he
      rw [← h.2]
      omega
  split at h
  · cases ht : l.token with
    | error e => simp [ht, bind, Except.bind] at h
    | ok r =>
      obtain ⟨t, l₁⟩ := r
      simp only [ht, bind, Except.bind] at h
      split at h
      · rename_i heq
        simp only [Prod.mk.injEq] at heq
        obtain ⟨rfl, rfl⟩ := heq
        have h₁ := length_rest_lt_of_token ht nofun
        cases he : l₁.elements with
        | error e => simp [he] at h
        | ok r =>
          obtain ⟨es, l₂⟩ := r
          have h₂ := length_rest_elements_lt he
          simp only [he] at h
          split at h
          · simp at h
          · simp only [pure, Except.pure, Except.ok.injEq, Prod.mk.injEq] at h
            rw [← h.2]
            omega
      · simp [throw, throwThe, MonadExceptOf.throw] at h
  split at h
  · cases ht : l.token with
    | error e => simp [ht, bind, Except.bind] at h
    | ok r =>
      obtain ⟨t, l₁⟩ := r
      simp only [ht, bind, Except.bind] at h
      split at h
      · rename_i heq
        simp only [Prod.mk.injEq] at heq
        obtain ⟨rfl, rfl⟩ := heq
        have := length_rest_lt_of_token ht nofun
        simp only [pure, Except.pure, Except.ok.injEq, Prod.mk.injEq] at h
        rw [← h.2]
        omega
      · simp [throw, throwThe, MonadExceptOf.throw] at h
  · simp [throw, throwThe, MonadExceptOf.throw] at h

theorem length_rest_tag_lt {l l' : Lexer} {p : Piece} (h : l.tag = .ok (p, l')) :
    l'.rest.length < l.rest.length := by
  unfold tag at h
  cases ht : (l.withMode .tag).token with
  | error e => simp [ht, bind, Except.bind] at h
  | ok r =>
    obtain ⟨t, l₁⟩ := r
    simp only [ht, bind, Except.bind] at h
    split at h
    · rename_i heq
      simp only [Prod.mk.injEq] at heq
      obtain ⟨rfl, rfl⟩ := heq
      have h₁ := length_rest_lt_of_token ht nofun
      split at h
      · simp at h
      · rename_i hb
        have h₂ := length_rest_tagBody_le hb
        simp only [pure, Except.pure, Except.ok.injEq, Prod.mk.injEq] at h
        rw [← h.2]
        exact Nat.lt_of_le_of_lt h₂ h₁
    · simp [throw, throwThe, MonadExceptOf.throw] at h

/-- A piece takes at least one character. -/
theorem length_rest_piece_lt {l l' : Lexer} {p : Piece} (h : l.piece = .ok (some p, l')) :
    l'.rest.length < l.rest.length := by
  unfold piece at h
  cases ht : l.token with
  | error e => simp [ht, bind, Except.bind] at h
  | ok r =>
    obtain ⟨t, l₁⟩ := r
    simp only [ht, bind, Except.bind] at h
    split at h
    · simp [pure, Except.pure] at h
    · rename_i heq
      simp only [Prod.mk.injEq] at heq
      obtain ⟨rfl, rfl⟩ := heq
      have h₁ := length_rest_lt_of_token ht nofun
      simp only [pure, Except.pure, Except.ok.injEq, Prod.mk.injEq] at h
      rw [← h.2]
      exact h₁
    · rename_i heq
      simp only [Prod.mk.injEq] at heq
      obtain ⟨rfl, rfl⟩ := heq
      have h₁ := length_rest_lt_of_token ht nofun
      split at h
      · simp at h
      · rename_i hb
        have h₂ := length_rest_tag_lt hb
        simp only [pure, Except.pure, Except.ok.injEq, Prod.mk.injEq] at h
        rw [← h.2]
        omega
    · simp [throw, throwThe, MonadExceptOf.throw] at h

end Stencil.Lexer
