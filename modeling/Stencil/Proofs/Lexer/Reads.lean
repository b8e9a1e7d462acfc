import Stencil.Proofs.Lexer.Commands
set_option autoImplicit false

/-!
# Rows of tokens

`Lexer.Reads` says that a reader of pieces gets these tokens in a row and where the
lexer then stands.  Which token can come next is settled by the place it has in the
template (`Place.admits`): outside tags, right behind the opening of a tag, where a
name can stand, or further on in a tag.  A lexer that stands at a place finds a token
that the place admits, and then stands at the place behind it (`Lexer.At.token`,
`Lexer.Reads.place`).
-/

namespace Stencil

/-! ## Places -/

/-- Where a token stands. -/
inductive Place where
  /-- between two tags -/
  | outside
  /-- right behind the opening of a tag -/
  | front
  /-- further on in a tag -/
  | inside
  deriving DecidableEq, Repr

namespace Place

/-- How tokens are read there. -/
def mode : Place → Mode
  | outside => .text
  | front | inside => .tag

/-- The tokens that can stand there. -/
def admits : Place → Token → Bool
  | outside, .eof | outside, .text _ | outside, .tagOpen => true
  | front, .tagName _ | front, .tagClose | front, .element _ => true
  | inside, .tagClose | inside, .element _ => true
  | _, _ => false

/-- The place behind a token. -/
def after (p : Place) : Token → Place
  | .eof | .text _ => p
  | .tagOpen => front
  | .tagClose => outside
  | .tagName _ | .element _ => inside

theorem mode_after {p : Place} {t : Token} (h : p.admits t) :
    (p.after t).mode = p.mode.after t := by
  cases p <;> cases t <;> first | rfl | cases h

/-- A name stands only right behind the opening of a tag. -/
theorem eq_front_of_admits {p : Place} {name : String} (h : p.admits (.tagName name)) :
    p = front := by
  cases p <;> first | rfl | cases h

/-- Outside tags stand the end, texts and the openings of tags. -/
theorem admits_outside_iff {t : Token} :
    outside.admits t ↔ t = .eof ∨ (∃ s, t = .text s) ∨ t = .tagOpen := by
  cases t <;> simp [admits]

/-- In a tag stand its name, its elements and its end. -/
theorem admits_of_ne_outside {p : Place} (hp : p ≠ outside) {t : Token} (h : p.admits t) :
    (∃ name, t = .tagName name) ∨ (∃ e, t = .element e) ∨ t = .tagClose := by
  cases p with
  | outside => exact absurd rfl hp
  | _ => cases t <;> simp [admits] at h ⊢

theorem admits_inside_iff {t : Token} :
    inside.admits t ↔ (∃ e, t = .element e) ∨ t = .tagClose := by
  cases t <;> simp [admits]

end Place

/-! ## Scans are never exhausted -/

namespace Scan

theorem result_map_eq_error {α β : Type} {f : α → β} {s : Scan α} {e : LexError} :
    (s.map f).result = .error e ↔ s.result = .error e := by
  cases h : s.result <;> simp [map, Except.map, h]

theorem text_ne_exhausted (cs : List Char) (line : Nat) :
    (text cs line).result ≠ .error .exhausted := by
  fun_induction text cs line with
  | case5 _ _ _ _ _ ih | case7 _ _ _ _ _ ih => exact fun h => ih (result_map_eq_error.1 h)
  | _ => simp

theorem string_ne_exhausted (cs : List Char) (line : Nat) :
    (string cs line).result ≠ .error .exhausted := by
  fun_induction string cs line with
  | case4 _ _ _ _ _ _ ih | case6 _ _ _ _ _ ih => exact fun h => ih (result_map_eq_error.1 h)
  | _ => simp

theorem textToken_ne_exhausted (cs : List Char) (line : Nat) :
    (textToken cs line).result ≠ .error .exhausted := by
  unfold textToken
  split
  · nofun
  · nofun
  · exact fun h => text_ne_exhausted _ _ (result_map_eq_error.1 h)

theorem numberToken_ne_exhausted (isDouble : Bool) (literal : List Char) :
    numberToken isDouble literal ≠ .error .exhausted := by
  unfold numberToken
  split
  · split
    · dsimp only
      split <;> nofun
    · nofun
  · split <;> nofun

theorem tagToken_ne_exhausted (expectsName : Bool) (c : Char) (cs : List Char) (line : Nat) :
    (tagToken expectsName c cs line).result ≠ .error .exhausted := by
  unfold tagToken
  split
  · nofun
  split
  · nofun
  split
  · split <;> nofun
  split
  · exact fun h => string_ne_exhausted _ _ (result_map_eq_error.1 h)
  split
  · split <;> nofun
  split
  · exact numberToken_ne_exhausted _ _
  split
  · nofun
  split <;> nofun

end Scan

namespace Lexer

/-- A lexer is exhausted only behind the end of the template. -/
theorem next_ne_exhausted {l : Lexer} (h : l.current ≠ some .eof) :
    l.next.1 ≠ .error .exhausted := by
  have hscan : l.scan.result ≠ .error .exhausted := by
    unfold scan
    split
    · exact Scan.textToken_ne_exhausted _ _
    · split
      · nofun
      · exact Scan.tagToken_ne_exhausted _ _ _ _
  rw [next_eq h]
  cases hs : l.scan.result with
  | ok t => nofun
  | error e =>
    rw [hs] at hscan
    exact fun he => hscan he

/-- The lexer stands at the place. -/
structure At (l : Lexer) (p : Place) : Prop where
  mode : l.mode = p.mode
  expectsName : l.expectsName = (p == .front)
  unfinished : l.current ≠ some .eof

theorem ready_ofString (x : String) : (ofString x).Ready := ready_fresh _ _

theorem ready_iff_at {l : Lexer} : l.Ready ↔ l.At .outside :=
  ⟨fun h => ⟨h.mode, h.unnamed, h.unfinished⟩, fun h => ⟨h.mode, h.expectsName, h.unfinished⟩⟩

/-! ## One token -/

/-- Outside tags the opening of a tag is the next token where it stands, and the name of the tag is
expected behind it. -/
theorem Ready.tagOpen_of_token {l l' : Lexer} (hl : l.Ready) (h : l.token = .ok (.tagOpen, l')) :
    l.rest = '{' :: '$' :: l'.rest ∧ l'.expectsName = true := by
  obtain ⟨-, hs, rfl⟩ := token_eq_ok_iff.1 h
  rw [hl.scan] at hs
  rcases Scan.textToken_eq_ok hs with ⟨ht, -⟩ | ⟨-, r, hr⟩ | ⟨c, r, u, -, -, ht, -⟩
  · simp at ht
  · refine ⟨?_, ?_⟩
    · simp [Lexer.advance, hl.scan, hr, Scan.textToken]
    · simp [Lexer.advance, expectsNameAfter, hl.mode, hr, List.isPrefixOf]
  · simp at ht

/-- The opening of a tag has no line break. -/
theorem Ready.line_of_tagOpen {l l' : Lexer} (hl : l.Ready) (h : l.token = .ok (.tagOpen, l')) :
    l'.line = l.line := by
  have hbottom := bottom_token h
  simp only [bottom, (hl.tagOpen_of_token h).1] at hbottom
  rw [newlines_cons_of_ne (by decide), newlines_cons_of_ne (by decide)] at hbottom
  omega

theorem Ready.at_of_token {l l' : Lexer} {t : Token} (hl : l.Ready) (h : l.token = .ok (t, l')) :
    Place.outside.admits t ∧
      (t ≠ .eof → (l'.withMode (l'.mode.after t)).At (Place.outside.after t)) := by
  cases t with
  | eof => exact ⟨rfl, fun hne => absurd rfl hne⟩
  | text s =>
    obtain ⟨c, r, -, -, -, rfl⟩ := hl.text_of_token h
    exact ⟨rfl, fun _ => ⟨rfl, rfl, nofun⟩⟩
  | tagOpen =>
    have hcurrent := current_of_token h
    exact ⟨rfl, fun _ => ⟨rfl, (hl.tagOpen_of_token h).2, by simp [withMode, hcurrent]⟩⟩
  | _ =>
    obtain ⟨-, hs, -⟩ := token_eq_ok_iff.1 h
    rw [hl.scan] at hs
    rcases Scan.textToken_eq_ok hs with ⟨ht, -⟩ | ⟨ht, -⟩ | ⟨c, r, u, -, -, ht, -⟩ <;> cases ht

/-- In a tag a name is found only where it is expected, and behind any token it is not. -/
theorem At.of_token_of_ne_outside {l l' : Lexer} {p : Place} {t : Token} (hl : l.At p)
    (hp : p ≠ .outside) (h : l.token = .ok (t, l')) :
    p.admits t ∧ (l'.withMode (l'.mode.after t)).At (p.after t) := by
  have hmode : l.mode = .tag := by
    rw [hl.mode]
    cases p with
    | outside => exact absurd rfl hp
    | _ => rfl
  obtain ⟨hs, hscan⟩ := tagScan_of_token hmode h
  have hmode' : l'.mode = .tag := (mode_of_token h).trans hmode
  have hname : l'.expectsName = false := expectsName_of_token hmode h
  have hcurrent : l'.current = some t := current_of_token h
  -- the tokens of a tag, of which only a name needs its place
  have hadmits : p.admits t := by
    rcases hscan.result_cases with ⟨he, name, hn⟩ | hc | ⟨e, he⟩
    · obtain rfl := Except.ok.inj (hs.symm.trans hn)
      rw [hl.expectsName, beq_iff_eq] at he
      rw [he]
      rfl
    · obtain rfl := Except.ok.inj (hs.symm.trans hc)
      cases p <;> first | rfl | exact absurd rfl hp
    · obtain rfl := Except.ok.inj (hs.symm.trans he)
      cases p <;> first | rfl | exact absurd rfl hp
  refine ⟨hadmits, ?_, ?_, ?_⟩
  · rw [Place.mode_after hadmits, ← hl.mode, hmode, ← hmode']
    rfl
  · refine hname.trans ?_
    rcases Place.admits_of_ne_outside hp hadmits with ⟨name, rfl⟩ | ⟨e, rfl⟩ | rfl <;> rfl
  · rcases Place.admits_of_ne_outside hp hadmits with ⟨name, rfl⟩ | ⟨e, rfl⟩ | rfl <;>
      simp [withMode, hcurrent]

/-- The next token is one that the place admits, and the place behind it is reached. -/
theorem At.token {l l' : Lexer} {p : Place} {t : Token} (hl : l.At p)
    (h : l.token = .ok (t, l')) :
    p.admits t ∧ (t ≠ .eof → (l'.withMode (l'.mode.after t)).At (p.after t)) := by
  by_cases hp : p = .outside
  · subst hp
    exact (ready_iff_at.2 hl).at_of_token h
  · have hnext := hl.of_token_of_ne_outside hp h
    exact ⟨hnext.1, fun _ => hnext.2⟩

/-! ## Tokens in a row -/

/-- The tokens are the next ones, where the mode is switched as a reader of pieces switches it, and
`l'` is the lexer behind them. -/
inductive Reads : Lexer → List Token → Lexer → Prop where
  | nil (l : Lexer) : Reads l [] l
  | cons {l l₁ l' : Lexer} {t : Token} {ts : List Token} (ht : l.token = .ok (t, l₁))
    (hne : t ≠ .eof) (hts : Reads (l₁.withMode (l₁.mode.after t)) ts l') : Reads l (t :: ts) l'

namespace Reads

variable {l l₁ l' : Lexer} {t : Token} {ts us : List Token}

theorem token (ht : l.token = .ok (t, l₁)) (hne : t ≠ .eof) :
    l.Reads [t] (l₁.withMode (l₁.mode.after t)) := .cons ht hne (.nil _)

theorem append (hts : l.Reads ts l₁) (hus : l₁.Reads us l') : l.Reads (ts ++ us) l' := by
  induction hts with
  | nil => exact hus
  | cons ht hne _ ih => exact .cons ht hne (ih hus)

theorem place {p : Place} (h : l.Reads ts l') (hl : l.At p) : l'.At (ts.foldl Place.after p) := by
  induction h generalizing p with
  | nil => exact hl
  | cons ht hne _ ih => exact ih ((hl.token ht).2 hne)

theorem rest_suffix (h : l.Reads ts l') : l'.rest <:+ l.rest := by
  induction h with
  | nil => exact List.suffix_refl _
  | cons ht _ _ ih =>
    have hstep := rest_suffix_of_token ht
    exact ih.trans hstep

theorem bottom (h : l.Reads ts l') : l'.bottom = l.bottom := by
  induction h with
  | nil => rfl
  | cons ht _ _ ih =>
    have hstep := bottom_token ht
    exact ih.trans hstep

/-- A lexer stands on the line behind what it has read. -/
theorem exists_hasRead {x : String} (h : (ofString x).Reads ts l) :
    ∃ read, HasRead x read l :=
  exists_hasRead_of_suffix h.rest_suffix h.bottom

/-- The place right behind the opening of a tag is reached in one way only. -/
theorem getLast?_of_front {p : Place} (h : l.Reads ts l') (hl : l.At p)
    (hfront : ts.foldl Place.after p = .front) :
    (ts = [] ∧ p = .front) ∨ ts.getLast? = some .tagOpen := by
  induction h generalizing p with
  | nil => exact .inl ⟨rfl, hfront⟩
  | @cons _ _ _ t ts ht hne _ ih =>
    obtain ⟨hadmits, hnext⟩ := hl.token ht
    obtain ⟨rfl, hafter⟩ | hlast := ih (hnext hne) hfront
    · cases t with
      | tagOpen => exact .inr rfl
      | eof => exact absurd rfl hne
      | text s =>
        obtain rfl : p = .front := hafter
        cases hadmits
      | _ => cases hafter
    · exact .inr (by rw [List.getLast?_cons, hlast]; rfl)

/-- Outside tags only the end, texts and the openings of tags are found, and in a tag none of
these; a name is found only right behind the opening of a tag. -/
theorem token_of_ofString {x : String} (h : (ofString x).Reads ts l) (ht : l.token = .ok (t, l')) :
    (l.mode = .text → t = .eof ∨ (∃ s, t = .text s) ∨ t = .tagOpen) ∧
    (l.mode = .tag → (∃ name, t = .tagName name) ∨ (∃ e, t = .element e) ∨ t = .tagClose) ∧
    ∀ name, t = .tagName name → ts.getLast? = some .tagOpen := by
  have hstart : (ofString x).At .outside := ready_iff_at.1 (ready_ofString x)
  have hl := h.place hstart
  have hadmits := (hl.token ht).1
  refine ⟨fun hmode => ?_, fun hmode => ?_, fun name hname => ?_⟩
  · have hplace : ts.foldl Place.after .outside = .outside := by
      rw [hl.mode] at hmode
      cases hp : ts.foldl Place.after .outside <;> rw [hp] at hmode <;> first | rfl | cases hmode
    rw [hplace] at hadmits
    exact Place.admits_outside_iff.1 hadmits
  · refine Place.admits_of_ne_outside (fun hp => ?_) hadmits
    rw [hl.mode, hp] at hmode
    cases hmode
  · rw [hname] at hadmits
    obtain ⟨-, hp⟩ | hlast := h.getLast?_of_front hstart (Place.eq_front_of_admits hadmits)
    · cases hp
    · exact hlast

end Reads

end Lexer

end Stencil
