import Stencil.Node.Assembly
import Stencil.Proofs.Piece.Tokens
import Stencil.Proofs.Text.Bytes
set_option autoImplicit false

/-!
# Commanding a lexer

A lexer can be told to read the next token and to switch its mode, in any order and
also after errors.  Whatever it is told, it has read a beginning of the template and
counted its lines, it never goes back, and its latest token is the last that it
found.  Every token but the end takes a character and nothing is found behind the
end, so that a lexer finds at most one token more than the template has characters
(`Lexer.exists_account`).
-/

namespace Stencil

namespace Lexer

/-- What a lexer is told to do. -/
inductive Command where
  /-- to read the next token -/
  | next
  /-- to read on in the mode -/
  | switch (m : Mode)
  deriving DecidableEq, Repr

/-- The lexer after a command. -/
def obey (l : Lexer) : Command → Lexer
  | .next => l.next.2
  | .switch m => l.withMode m

/-- The lexer after commands in a row. -/
def run (l : Lexer) (cs : List Command) : Lexer := cs.foldl obey l

/-- What the lexer answers to the commands to read a token, each answer with the line on which the
lexer then stands. -/
def log (l : Lexer) : List Command → List (Except LexError Token × Nat)
  | [] => []
  | .next :: cs => (l.next.1, l.next.2.line) :: log l.next.2 cs
  | .switch m :: cs => log (l.withMode m) cs

/-- The tokens among the answers. -/
def found (l : Lexer) (cs : List Command) : List Token := (l.log cs).filterMap (·.1.toOption)

@[simp] theorem run_nil (l : Lexer) : l.run [] = l := rfl

@[simp] theorem run_cons (l : Lexer) (c : Command) (cs : List Command) :
    l.run (c :: cs) = (l.obey c).run cs := rfl

@[simp] theorem run_append (l : Lexer) (as bs : List Command) :
    l.run (as ++ bs) = (l.run as).run bs := List.foldl_append ..

theorem found_next (l : Lexer) (cs : List Command) :
    l.found (.next :: cs) = l.next.1.toOption.toList ++ l.next.2.found cs := by
  rw [found, log, List.filterMap_cons]
  cases l.next.1 <;> rfl

@[simp] theorem found_switch (l : Lexer) (m : Mode) (cs : List Command) :
    l.found (.switch m :: cs) = (l.withMode m).found cs := rfl

/-! ## One token -/

/-- The line and the line breaks that are left make up the last line, also after an error. -/
theorem bottom_next (l : Lexer) : l.next.2.bottom = l.bottom := by
  by_cases h : l.current = some .eof
  · rw [next_of_eof h]
  · rw [next_eq h]
    cases l.scan.result with
    | ok t => exact bottom_scan l
    | error e => exact bottom_scan l

theorem current_next_of_ok {l : Lexer} {t : Token} (h : l.next.1 = .ok t) :
    l.next.2.current = some t := by
  by_cases hc : l.current = some .eof
  · rw [next_of_eof hc] at h
    cases h
  · rw [next_eq hc] at h ⊢
    cases hs : l.scan.result with
    | ok u =>
      rw [hs] at h
      obtain rfl := Except.ok.inj h
      rfl
    | error e =>
      rw [hs] at h
      cases h

theorem current_next_of_error {l : Lexer} {e : LexError} (h : l.next.1 = .error e) :
    l.next.2.current = l.current := by
  by_cases hc : l.current = some .eof
  · rw [next_of_eof hc]
  · rw [next_eq hc] at h ⊢
    cases hs : l.scan.result with
    | ok t =>
      rw [hs] at h
      cases h
    | error e => rfl

/-- The end is read in text and where nothing is left, and nothing is left behind it. -/
theorem of_next_eof {l : Lexer} (h : l.next.1 = .ok .eof) :
    l.mode = .text ∧ l.rest = [] ∧ l.next.2.current = some .eof := by
  have hcurrent := current_next_of_ok h
  by_cases hc : l.current = some .eof
  · rw [next_of_eof hc] at h
    cases h
  · rw [next_eq hc] at h
    cases hs : l.scan.result with
    | ok t =>
      rw [hs] at h
      obtain rfl := Except.ok.inj h
      obtain ⟨hmode, hrest⟩ := scan_of_eof hs
      exact ⟨hmode, hrest, hcurrent⟩
    | error e =>
      rw [hs] at h
      cases h

/-- Nothing is read any more: the next token is refused, and that changes nothing. -/
def Ended (l : Lexer) : Prop := l.next = (.error .exhausted, l)

theorem length_rest_next_lt {l : Lexer} {t : Token} (h : l.next.1 = .ok t) (ht : t ≠ .eof) :
    l.next.2.rest.length < l.rest.length := by
  have hnext : l.next = (.ok t, l.next.2) := Prod.ext h rfl
  exact length_rest_lt_of_next hnext ht

/-! ## Any command -/

theorem rest_obey_suffix (l : Lexer) (c : Command) : (l.obey c).rest <:+ l.rest := by
  cases c with
  | next => exact rest_next_suffix l
  | switch m => exact List.suffix_refl _

theorem bottom_obey (l : Lexer) (c : Command) : (l.obey c).bottom = l.bottom := by
  cases c with
  | next => exact bottom_next l
  | switch m => rfl

theorem rest_run_suffix (l : Lexer) (cs : List Command) : (l.run cs).rest <:+ l.rest := by
  induction cs generalizing l with
  | nil => exact List.suffix_refl _
  | cons c cs ih => exact (ih (l.obey c)).trans (rest_obey_suffix l c)

theorem bottom_run (l : Lexer) (cs : List Command) : (l.run cs).bottom = l.bottom := by
  induction cs generalizing l with
  | nil => rfl
  | cons c cs ih => exact (ih (l.obey c)).trans (bottom_obey l c)

/-! ## The cursor -/

/-- The byte of the template at which the characters begin that the lexer has not read. -/
def cursor (s : String) (l : Lexer) : String.Pos.Raw :=
  ⟨s.utf8ByteSize - (String.ofList l.rest).utf8ByteSize⟩

/-- The lexer has read these characters of the template: it stands where they end, between two
characters, and on the line behind them. -/
structure HasRead (s : String) (read : List Char) (l : Lexer) : Prop where
  split : s.toList = read ++ l.rest
  cursor_eq : cursor s l = (String.ofList read).rawEndPos
  isValid : (cursor s l).IsValid s
  line : l.line = 1 + newlines read

/-- The line is right where it makes up the last line with what is left. -/
theorem HasRead.of_bottom {s : String} {read : List Char} {l : Lexer}
    (hsplit : s.toList = read ++ l.rest) (hbottom : l.bottom = (ofString s).bottom) :
    HasRead s read l := by
  have happend := Text.eq_append_of_toList hsplit
  have hsize : s.utf8ByteSize =
      (String.ofList read).utf8ByteSize + (String.ofList l.rest).utf8ByteSize := by
    rw [← String.utf8ByteSize_append, ← happend]
  have hcursor : cursor s l = (String.ofList read).rawEndPos := by
    rw [String.Pos.Raw.ext_iff, String.byteIdx_rawEndPos]
    exact Nat.sub_eq_of_eq_add hsize
  refine ⟨hsplit, hcursor, ?_, ?_⟩
  · exact String.Pos.Raw.isValid_iff_exists_append.2 ⟨_, _, happend, hcursor⟩
  · have hall : newlines s.toList = newlines read + newlines l.rest := by
      rw [hsplit, newlines_append]
    simp only [bottom, ofString] at hbottom
    omega

theorem exists_hasRead_of_suffix {s : String} {l : Lexer} (hsuffix : l.rest <:+ s.toList)
    (hbottom : l.bottom = (ofString s).bottom) : ∃ read, HasRead s read l := by
  obtain ⟨read, hread⟩ := hsuffix
  exact ⟨read, .of_bottom hread.symm hbottom⟩

theorem exists_hasRead (s : String) (cs : List Command) :
    ∃ read, HasRead s read ((ofString s).run cs) :=
  exists_hasRead_of_suffix (rest_run_suffix (ofString s) cs) (bottom_run (ofString s) cs)

/-- A command reads on from where the lexer stands. -/
theorem HasRead.obey {s : String} {read : List Char} {l : Lexer} (h : HasRead s read l)
    (hbottom : l.bottom = (ofString s).bottom) {c : Command} {taken : List Char}
    (htaken : taken ++ (l.obey c).rest = l.rest) : HasRead s (read ++ taken) (l.obey c) := by
  refine .of_bottom ?_ ((bottom_obey l c).trans hbottom)
  rw [List.append_assoc, htaken, h.split]

theorem HasRead.cursor_le {s : String} {read taken : List Char} {l l' : Lexer}
    (h : HasRead s read l) (h' : HasRead s (read ++ taken) l') : cursor s l ≤ cursor s l' := by
  rw [h.cursor_eq, h'.cursor_eq, String.Pos.Raw.le_iff, String.byteIdx_rawEndPos,
    String.byteIdx_rawEndPos, String.ofList_append, String.utf8ByteSize_append]
  exact Nat.le_add_right ..

/-! ## The latest token -/

/-- The latest token is the last that was found. -/
theorem current_run (l : Lexer) (cs : List Command) :
    (l.run cs).current = (l.found cs).getLast?.or l.current := by
  induction cs generalizing l with
  | nil => rfl
  | cons c cs ih =>
    rw [run_cons, ih]
    cases c with
    | switch m => rfl
    | next =>
      rw [found_next, List.getLast?_append, Option.or_assoc]
      congr 1
      cases h : l.next.1 with
      | ok t => exact current_next_of_ok h
      | error e => exact current_next_of_error h

/-- Behind the end a lexer changes nothing but its mode. -/
theorem run_of_eof {l : Lexer} (h : l.current = some .eof) (cs : List Command) :
    (l.run cs).Ended ∧ ∃ m, l.run cs = l.withMode m := by
  induction cs generalizing l with
  | nil => exact ⟨next_of_eof h, l.mode, rfl⟩
  | cons c cs ih =>
    cases c with
    | next =>
      have hnext : l.obey .next = l := congrArg Prod.snd (next_of_eof h)
      rw [run_cons, hnext]
      exact ih h
    | switch m => exact ih (l := l.withMode m) h

/-! ## The number of tokens -/

/-- How many tokens the lexer can still find: one for every character, and the end. -/
def supply (l : Lexer) : Nat := if l.current = some .eof then 0 else l.rest.length + 1

theorem supply_next_of_ok {l : Lexer} {t : Token} (h : l.next.1 = .ok t) :
    l.next.2.supply + 1 ≤ l.supply := by
  have hcurrent : l.current ≠ some .eof := by
    intro hc
    rw [next_of_eof hc] at h
    cases h
  unfold supply
  rw [if_neg hcurrent, current_next_of_ok h]
  by_cases ht : t = .eof
  · rw [if_pos (congrArg some ht)]
    omega
  · have hlt := length_rest_next_lt h ht
    rw [if_neg (by simpa using ht)]
    omega

theorem supply_next_of_error {l : Lexer} {e : LexError} (h : l.next.1 = .error e) :
    l.next.2.supply ≤ l.supply := by
  have hle := (rest_next_suffix l).length_le
  unfold supply
  rw [current_next_of_error h]
  split <;> omega

theorem length_found_le (l : Lexer) (cs : List Command) : (l.found cs).length ≤ l.supply := by
  induction cs generalizing l with
  | nil => exact Nat.zero_le _
  | cons c cs ih =>
    cases c with
    | switch m => exact ih (l.withMode m)
    | next =>
      have hrest := ih l.next.2
      rw [found_next, List.length_append]
      cases h : l.next.1 with
      | ok t =>
        have := supply_next_of_ok h
        simp only [Except.toOption, Option.toList_some, List.length_singleton]
        omega
      | error e =>
        have := supply_next_of_error h
        simp only [Except.toOption, Option.toList_none, List.length_nil]
        omega

theorem supply_ofString (s : String) : (ofString s).supply = s.length + 1 := by
  simp [supply, ofString, String.length_toList]

theorem length_found_ofString_le (s : String) (cs : List Command) :
    ((ofString s).found cs).length ≤ s.length + 1 :=
  (length_found_le _ cs).trans_eq (supply_ofString s)

/-- All tokens up to the end are found by commands. -/
theorem exists_found_of_tokens {l : Lexer} {ts : List (Nat × Token)} (h : l.tokens = .ok ts) :
    ∃ cs, l.found cs = ts.map (·.2) := by
  fun_induction tokens l generalizing ts with
  | case1 => cases h
  | case2 l l' htoken =>
    obtain rfl := Except.ok.inj h
    refine ⟨[.next], ?_⟩
    rw [found_next, next_of_token htoken]
    rfl
  | case3 => cases h
  | case4 l t l' htoken ht ts' hrest ih =>
    obtain rfl := Except.ok.inj h
    obtain ⟨cs, hcs⟩ := ih hrest
    refine ⟨.next :: .switch (l'.mode.after t) :: cs, ?_⟩
    rw [found_next, next_of_token htoken, found_switch, hcs]
    rfl

/-! ## All commands -/

/-- What holds of a lexer on the template that was told the commands and has read the given
characters. -/
structure Account (s : String) (cs : List Command) (read : List Char) : Prop where
  hasRead : HasRead s read ((ofString s).run cs)
  current : ((ofString s).run cs).current = ((ofString s).found cs).getLast?
  length_found_le : ((ofString s).found cs).length ≤ s.length + 1
  /-- no command takes it back -/
  forward : ∀ c, ∃ taken, HasRead s (read ++ taken) ((ofString s).run (cs ++ [c])) ∧
    cursor s ((ofString s).run cs) ≤ cursor s ((ofString s).run (cs ++ [c]))
  /-- a token takes a character -/
  progress : ∀ t, ((ofString s).run cs).next.1 = .ok t → t ≠ .eof →
    ∃ c taken, HasRead s (read ++ c :: taken) ((ofString s).run (cs ++ [.next]))
  /-- the end is found in text, where everything was read, and is the last that is found -/
  ended : ((ofString s).run cs).next.1 = .ok .eof →
    ((ofString s).run cs).mode = .text ∧ read = s.toList ∧
    ∀ more, ((ofString s).run (cs ++ .next :: more)).Ended ∧
      ∃ m, (ofString s).run (cs ++ .next :: more) = ((ofString s).run (cs ++ [.next])).withMode m

theorem exists_account (s : String) (cs : List Command) : ∃ read, Account s cs read := by
  obtain ⟨read, hread⟩ := exists_hasRead s cs
  have hforward (c : Command) {taken : List Char}
      (h : taken ++ (((ofString s).run cs).obey c).rest = ((ofString s).run cs).rest) :
      HasRead s (read ++ taken) ((ofString s).run (cs ++ [c])) := by
    rw [run_append]
    exact hread.obey (bottom_run _ cs) h
  refine ⟨read, hread, ?_, length_found_ofString_le s cs, fun c => ?_, fun t ht hne => ?_,
    fun heof => ?_⟩
  · rw [current_run]
    exact Option.or_none
  · obtain ⟨taken, htaken⟩ := rest_obey_suffix ((ofString s).run cs) c
    exact ⟨taken, hforward c htaken, hread.cursor_le (hforward c htaken)⟩
  · obtain ⟨taken, htaken⟩ := rest_obey_suffix ((ofString s).run cs) .next
    cases taken with
    | nil => exact absurd (congrArg List.length htaken) (length_rest_next_lt ht hne).ne
    | cons c taken => exact ⟨c, taken, hforward .next htaken⟩
  · obtain ⟨hmode, hrest, hcurrent⟩ := of_next_eof heof
    refine ⟨hmode, ?_, fun more => ?_⟩
    · rw [hread.split, hrest, List.append_nil]
    · rw [run_append, run_append]
      exact run_of_eof hcurrent more

end Lexer

end Stencil
