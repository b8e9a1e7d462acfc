import Stencil.Proofs.Scan.Break
set_option autoImplicit false

/-!
# Scans of a text that goes on

What a scan finds at the beginning of a text, it finds there also when more text
follows, once enough was read: a text constant up to its closing quote, any other
token of a tag up to a break behind it.  Text outside tags ends in front of a tag;
where it ends with the template instead, it goes on into what follows.
-/

namespace Stencil.Scan

/-- The scan of a text that goes on with `ys`, where the scan itself stops as before. -/
def followedBy {α : Type} (s : Scan α) (ys : List Char) : Scan α := { s with rest := s.rest ++ ys }

theorem map_followedBy {α β : Type} (f : α → β) (s : Scan α) (ys : List Char) :
    (s.followedBy ys).map f = (s.map f).followedBy ys := rfl

theorem result_map_of_ok {α β : Type} {f : α → β} {s : Scan α} {a : α} (h : s.result = .ok a) :
    s.map f = ⟨.ok (f a), s.rest, s.line⟩ := by
  simp [map, h, Except.map]

/-! ## Text constants and blanks -/

theorem string_append {cs : List Char} {line : Nat} {s : List Char}
    (h : (string cs line).result = .ok s) (ys : List Char) :
    string (cs ++ ys) line = (string cs line).followedBy ys := by
  fun_induction string cs line generalizing s with
  | case1 => simp at h
  | case2 => exact string_quote ..
  | case3 => simp at h
  | case4 line e cs d hd _ ih =>
    obtain ⟨s', hs', -⟩ := result_map_eq_ok.1 h
    rw [← map_followedBy, ← ih hs']
    exact string_escape hd ..
  | case5 => simp at h
  | case6 c cs line hq hb ih =>
    obtain ⟨s', hs', -⟩ := result_map_eq_ok.1 h
    rw [← map_followedBy, ← ih hs']
    exact string_plain hq hb ..

theorem afterBlanks_append {cs : List Char} {line : Nat} (h : (afterBlanks cs line).1 ≠ [])
    (ys : List Char) :
    afterBlanks (cs ++ ys) line = ((afterBlanks cs line).1 ++ ys, (afterBlanks cs line).2) := by
  induction cs generalizing line with
  | nil => simp [afterBlanks] at h
  | cons c cs ih =>
    unfold afterBlanks at h ⊢
    by_cases hc : Text.isBlank c
    · simp only [hc, if_true, List.cons_append] at h ⊢
      exact ih h
    · simp [hc]

/-! ## Text outside tags -/

theorem text_append_of_rest_ne_nil {cs : List Char} {line : Nat} {s : List Char}
    (h : (text cs line).result = .ok s) (hr : (text cs line).rest ≠ []) (ys : List Char) :
    text (cs ++ ys) line = (text cs line).followedBy ys := by
  fun_induction text cs line generalizing s with
  | case1 => simp at hr
  | case2 cs line hd =>
    obtain ⟨r, rfl⟩ := List.head?_eq_some_iff.1 hd
    exact text_opening ..
  | case3 => simp at h
  | case4 => simp at h
  | case5 line e cs he _ ih =>
    obtain ⟨s', hs', -⟩ := result_map_eq_ok.1 h
    rw [← map_followedBy, ← ih hs' hr]
    exact text_escape he ..
  | case6 => simp at h
  | case7 c cs line hb hs ih =>
    obtain ⟨s', hs', -⟩ := result_map_eq_ok.1 h
    rw [← map_followedBy, ← ih hs' hr]
    exact text_plain hb hs ..

/-- Text that ends with the template goes on into what follows. -/
theorem text_append_of_rest_eq_nil {cs : List Char} {line : Nat} {s : List Char}
    (h : (text cs line).result = .ok s) (hr : (text cs line).rest = []) (ys : List Char) :
    text (cs ++ ys) line = (text ys (text cs line).line).map (s ++ ·) := by
  fun_induction text cs line generalizing s with
  | case1 line =>
    simp only [Except.ok.injEq] at h
    subst h
    simp
  | case2 => simp at hr
  | case3 => simp at h
  | case4 => simp at h
  | case5 line e cs he _ ih =>
    obtain ⟨s', hs', rfl⟩ := result_map_eq_ok.1 h
    rw [List.cons_append, List.cons_append, text_escape he, ih hs' hr, map_map]
    rfl
  | case6 => simp at h
  | case7 c cs line hb hs ih =>
    obtain ⟨s', hs', rfl⟩ := result_map_eq_ok.1 h
    rw [List.cons_append, text_plain hb hs, ih hs' hr, map_map]
    rfl

/-- Text in front of a tag or at the end: what a scan of text that succeeds leaves. -/
theorem rest_text_of_result_eq_ok {cs : List Char} {line : Nat} {s : List Char}
    (h : (text cs line).result = .ok s) :
    (text cs line).rest = [] ∨ ∃ r, (text cs line).rest = '{' :: '$' :: r := by
  fun_induction text cs line generalizing s with
  | case1 => exact .inl rfl
  | case2 cs line hd =>
    obtain ⟨r, rfl⟩ := List.head?_eq_some_iff.1 hd
    exact .inr ⟨r, rfl⟩
  | case3 => simp at h
  | case4 => simp at h
  | case5 line e cs he _ ih =>
    obtain ⟨s', hs', -⟩ := result_map_eq_ok.1 h
    exact ih hs'
  | case6 => simp at h
  | case7 c cs line hb hs ih =>
    obtain ⟨s', hs', -⟩ := result_map_eq_ok.1 h
    exact ih hs'

/-- Text that does not begin with a brace has a character. -/
theorem text_ne_nil {c : Char} (hc : c ≠ '{') {cs : List Char} {line : Nat} {s : List Char}
    (h : (text (c :: cs) line).result = .ok s) : s ≠ [] := by
  rw [text.eq_def] at h
  simp only [hc, if_false] at h
  split at h
  · cases cs with
    | nil => simp at h
    | cons e r =>
      simp only at h
      split at h
      · obtain ⟨u, -, rfl⟩ := result_map_eq_ok.1 h
        exact List.cons_ne_nil e u
      · simp at h
  · obtain ⟨u, -, rfl⟩ := result_map_eq_ok.1 h
    exact List.cons_ne_nil c u

theorem textToken_of_ne_brace {c : Char} (hc : c ≠ '{') (cs : List Char) (line : Nat) :
    textToken (c :: cs) line =
      (text (c :: cs) line).map fun s => .text (String.ofList s) := by
  unfold textToken
  split
  · rename_i heq
    simp at heq
  · rename_i heq
    exact absurd (List.cons.inj heq).1 hc
  · rfl

/-- What is found at the beginning of a text outside tags. -/
theorem textToken_eq_ok {cs : List Char} {line : Nat} {t : Token}
    (h : (textToken cs line).result = .ok t) :
    (t = .eof ∧ cs = []) ∨ (t = .tagOpen ∧ ∃ r, cs = '{' :: '$' :: r) ∨
      ∃ c r s, cs = c :: r ∧ c ≠ '{' ∧ t = .text (String.ofList s) ∧
        (text cs line).result = .ok s := by
  unfold textToken at h
  split at h
  · exact .inl ⟨(Except.ok.inj h).symm, rfl⟩
  · exact .inr (.inl ⟨(Except.ok.inj h).symm, _, rfl⟩)
  · rename_i hnil hopen
    obtain ⟨s, hs, rfl⟩ := result_map_eq_ok.1 h
    obtain ⟨c, r, rfl⟩ := List.exists_cons_of_ne_nil hnil
    refine .inr (.inr ⟨c, r, s, rfl, ?_, rfl, hs⟩)
    rintro rfl
    rw [text.eq_def] at hs
    by_cases hd : r.head? = some '$'
    · obtain ⟨r', rfl⟩ := List.head?_eq_some_iff.1 hd
      exact hopen r' rfl
    · simp [hd] at hs

/-- Text begins here, or a tag, or the template ends. -/
theorem text_or_textToken (cs : List Char) (line : Nat) :
    text cs line = ⟨.ok [], cs, line⟩ ∨
      textToken cs line = (text cs line).map fun s => .text (String.ofList s) := by
  unfold textToken
  split
  · exact .inl rfl
  · exact .inl (text_opening ..)
  · exact .inr rfl

end Stencil.Scan
