import Mathlib.Data.List.Basic
import Mathlib.Tactic.Tauto
import Stencil.DecimalFormat.Apply
import Stencil.Proofs.Number.Digits
set_option autoImplicit false

/-!
# What patterns describe

A pattern is read as marks by its quotes (`Mark.Reads`), and the marks make up a format if
they are literals, the slots of a number and literals again (`Describes`).  A format is
read from a pattern exactly if the pattern describes it (`ofPattern?_eq_some_iff`), so each
pattern shows every number in one format or none at all (`apply_described`).
-/

namespace Stencil.DecimalFormat

/-! ## Quotes -/

namespace Mark

/-- The part of a character outside quotes. -/
inductive Unquoted : Char → Mark → Prop where
  | slot {c : Char} (hc : c ∈ ['#', '0', ',', '.']) : Unquoted c (slot c)
  | scaling {c : Char} (hc : c ∈ ['%', '‰']) : Unquoted c (scaling c)
  | literal {c : Char} (hc : c ∉ ['#', '0', ',', '.', '%', '‰']) : Unquoted c (literal c)

theorem unquoted_iff {c : Char} {m : Mark} : Unquoted c m ↔ m = ofUnquoted c := by
  unfold ofUnquoted
  constructor
  · intro h
    cases h with
    | slot hc => rw [if_pos (by simpa using hc)]
    | scaling hc =>
      rw [if_neg, if_pos (by simpa using hc)]
      rcases List.mem_pair.1 hc with rfl | rfl <;> decide
    | literal hc =>
      simp only [List.mem_cons, List.not_mem_nil, or_false, not_or] at hc
      rw [if_neg (by tauto), if_neg (by tauto)]
  · rintro rfl
    split
    · exact .slot (by simpa using ‹_›)
    split
    · exact .scaling (by simpa using ‹_›)
    · exact .literal (by simp only [List.mem_cons, List.not_mem_nil, or_false]; tauto)

/-- The reading of a pattern from within quotes or outside them: two quotes in a row are an
apostrophe, any other quote begins or ends literal text, and the pattern ends outside quotes. -/
inductive Reads : Bool → List Char → List Mark → Prop where
  | done : Reads false [] []
  | apostrophe {quoted : Bool} {cs : List Char} {ms : List Mark} (h : Reads quoted cs ms) :
    Reads quoted ('\'' :: '\'' :: cs) (literal '\'' :: ms)
  | quote {quoted : Bool} {cs : List Char} {ms : List Mark} (hcs : cs.head? ≠ some '\'')
    (h : Reads (!quoted) cs ms) : Reads quoted ('\'' :: cs) ms
  | quoted {c : Char} {cs : List Char} {ms : List Mark} (hc : c ≠ '\'') (h : Reads true cs ms) :
    Reads true (c :: cs) (literal c :: ms)
  | unquoted {c : Char} {m : Mark} {cs : List Char} {ms : List Mark} (hc : c ≠ '\'')
    (hm : Unquoted c m) (h : Reads false cs ms) : Reads false (c :: cs) (m :: ms)

variable {quoted : Bool} {c : Char} {cs : List Char} {ms : List Mark}

theorem decode?_apostrophe :
    decode? quoted ('\'' :: '\'' :: cs) = (decode? quoted cs).map (literal '\'' :: ·) := by
  simp [decode?]

theorem decode?_quote (hcs : cs.head? ≠ some '\'') :
    decode? quoted ('\'' :: cs) = decode? (!quoted) cs := by
  cases cs with
  | nil => rfl
  | cons d ds =>
    have hd : d ≠ '\'' := fun h => hcs (congrArg some h)
    simp [decode?, hd]

theorem decode?_cons (hc : c ≠ '\'') :
    decode? quoted (c :: cs) =
      (decode? quoted cs).map ((if quoted then literal c else ofUnquoted c) :: ·) := by
  rw [decode?.eq_def]
  exact if_neg hc

theorem Reads.decode?_eq (h : Reads quoted cs ms) : decode? quoted cs = some ms := by
  induction h with
  | done => rfl
  | apostrophe _ ih => rw [decode?_apostrophe, ih, Option.map_some]
  | quote hcs _ ih => rw [decode?_quote hcs, ih]
  | quoted hc _ ih => rw [decode?_cons hc, ih, Option.map_some, if_pos rfl]
  | unquoted hc hm _ ih => rw [decode?_cons hc, ih, Option.map_some, unquoted_iff.1 hm]; rfl

theorem reads_of_decode? (h : decode? quoted cs = some ms) : Reads quoted cs ms := by
  fun_induction decode? quoted cs generalizing ms with
  | case1 => cases h
  | case2 quoted hq =>
    obtain rfl := Option.some.inj h
    obtain rfl : quoted = false := by simpa using hq
    exact .done
  | case3 quoted ih => exact .quote nofun (ih h)
  | case4 quoted ds ih =>
    obtain ⟨ms, hms, rfl⟩ := Option.map_eq_some_iff.1 h
    exact .apostrophe (ih hms)
  | case5 quoted d ds hd ih => exact .quote (by simpa using hd) (ih h)
  | case6 quoted c cs hc ih =>
    obtain ⟨ms, hms, rfl⟩ := Option.map_eq_some_iff.1 h
    cases quoted with
    | true => exact .quoted hc (ih hms)
    | false => exact .unquoted hc (unquoted_iff.2 rfl) (ih hms)

theorem decode?_eq_some_iff : decode? quoted cs = some ms ↔ Reads quoted cs ms :=
  ⟨reads_of_decode?, Reads.decode?_eq⟩

/-- Quotes are balanced when their number is even. -/
theorem exists_reads_iff :
    (∃ ms, Reads quoted cs ms) ↔ (cs.count '\'' + quoted.toNat) % 2 = 0 := by
  simp only [← decode?_eq_some_iff, ← Option.isSome_iff_exists]
  fun_induction decode? quoted cs with
  | case1 => simp
  | case2 quoted hq =>
    obtain rfl : quoted = false := by simpa using hq
    simp
  | case3 quoted ih => cases quoted <;> simpa using ih
  | case4 quoted ds ih =>
    rw [Option.isSome_map, ih, List.count_cons_self, List.count_cons_self]
    omega
  | case5 quoted d ds hd ih =>
    have hone : (!quoted).toNat + quoted.toNat = 1 := by cases quoted <;> rfl
    rw [ih, List.count_cons_self]
    omega
  | case6 quoted c cs hc ih =>
    rw [Option.isSome_map, ih, List.count_cons_of_ne hc]

/-- What a pattern is read as is literal, or has its part outside quotes. -/
theorem Reads.mem (h : Reads quoted cs ms) {m : Mark} (hm : m ∈ ms) :
    (∃ c, m = literal c) ∨ ∃ c, Unquoted c m := by
  induction h with
  | done => cases hm
  | apostrophe _ ih =>
    rcases List.mem_cons.1 hm with rfl | hm
    · exact .inl ⟨_, rfl⟩
    · exact ih hm
  | quote _ _ ih => exact ih hm
  | quoted _ _ ih =>
    rcases List.mem_cons.1 hm with rfl | hm
    · exact .inl ⟨_, rfl⟩
    · exact ih hm
  | unquoted _ hc _ ih =>
    rcases List.mem_cons.1 hm with rfl | hm
    · exact .inr ⟨_, hc⟩
    · exact ih hm

theorem Reads.mem_of_slot (h : Reads quoted cs ms) (hc : slot c ∈ ms) :
    c ∈ ['#', '0', ',', '.'] := by
  rcases h.mem hc with ⟨d, hd⟩ | ⟨d, hd⟩
  · cases hd
  · cases hd with
    | slot hc => exact hc

theorem Reads.mem_of_scaling (h : Reads quoted cs ms) (hc : scaling c ∈ ms) : c ∈ ['%', '‰'] := by
  rcases h.mem hc with ⟨d, hd⟩ | ⟨d, hd⟩
  · cases hd
  · cases hd with
    | scaling hc => exact hc

end Mark

/-! ## Formats -/

/-- The slots of a number: those of the integer part, and behind a point, if there is one, required
digits and then optional ones. -/
structure Slots where
  integer : List Char
  /-- how many required and how many optional digits stand behind the point -/
  fraction : Option (Nat × Nat)
  mem_integer : ∀ c ∈ integer, c = '#' ∨ c = '0' ∨ c = ','
  getLast?_integer : integer.getLast? ≠ some ','

namespace Slots

variable (s : Slots)

/-- The slots as they are written. -/
def text : List Char :=
  s.integer ++
    match s.fraction with
    | none => []
    | some (required, optional) =>
      '.' :: (List.replicate required '0' ++ List.replicate optional '#')

/-- How many digits of the fraction are required. -/
def required : Nat := (s.fraction.map Prod.fst).getD 0

/-- How many digits of the fraction are optional. -/
def optional : Nat := (s.fraction.map Prod.snd).getD 0

theorem ne_point : ∀ c ∈ s.integer, (c != '.') = true := by
  intro c hc
  rcases s.mem_integer c hc with rfl | rfl | rfl <;> rfl

theorem integerSlots_text : integerSlots s.text = s.integer := by
  unfold integerSlots text
  rw [List.takeWhile_append_of_pos s.ne_point]
  split <;> simp

theorem fractionSlots_text :
    fractionSlots s.text = List.replicate s.required '0' ++ List.replicate s.optional '#' := by
  unfold fractionSlots text required optional
  rw [List.dropWhile_append_of_pos s.ne_point]
  split <;> rename_i h <;> simp [h]

theorem count_fractionSlots : (fractionSlots s.text).count '0' = s.required := by
  simp [s.fractionSlots_text, List.count_replicate]

theorem length_fractionSlots : (fractionSlots s.text).length = s.required + s.optional := by
  simp [s.fractionSlots_text]

theorem isNumber_text (h : ∃ c ∈ s.text, c = '#' ∨ c = '0') : isNumber s.text = true := by
  obtain ⟨c, hc, hdigit⟩ := h
  have hany : s.text.any (fun c => c == '#' || c == '0') = true :=
    List.any_eq_true.2 ⟨c, hc, by simpa using hdigit⟩
  have hlast : (s.integer.getLast? != some ',') = true := by simpa using s.getLast?_integer
  have hdrop : (List.replicate s.required '0' ++ List.replicate s.optional '#').dropWhile
      (· == '0') = List.replicate s.optional '#' := by
    rw [List.dropWhile_append_of_pos (by simp)]
    cases s.optional <;> simp [List.replicate_succ]
  unfold isNumber
  rw [s.integerSlots_text, s.fractionSlots_text, hany, hlast, hdrop]
  simp

end Slots

theorem exists_eq_replicate {cs : List Char}
    (h : (cs.dropWhile (· == '0')).all (· == '#') = true) :
    ∃ required optional, cs = List.replicate required '0' ++ List.replicate optional '#' := by
  obtain ⟨required, hzeros⟩ := Number.exists_zeros_append cs
  have hhashes : cs.dropWhile (· == '0') = List.replicate (cs.dropWhile (· == '0')).length '#' :=
    List.eq_replicate_iff.2 ⟨rfl, fun c hc => by simpa using List.all_eq_true.1 h c hc⟩
  rw [hhashes] at hzeros
  exact ⟨required, _, hzeros⟩

/-- A row of slots that is a number has its parts. -/
theorem exists_slots {cs : List Char} (hcs : ∀ c ∈ cs, c ∈ ['#', '0', ',', '.'])
    (h : isNumber cs = true) : ∃ s : Slots, s.text = cs ∧ ∃ c ∈ cs, c = '#' ∨ c = '0' := by
  simp only [isNumber, Bool.and_eq_true, bne_iff_ne, ne_eq] at h
  obtain ⟨⟨hany, hlast⟩, hall⟩ := h
  obtain ⟨required, optional, hfraction⟩ := exists_eq_replicate hall
  have hmem : ∀ c ∈ integerSlots cs, c = '#' ∨ c = '0' ∨ c = ',' := by
    intro c hc
    have hpoint : c ≠ '.' := by simpa using List.all_eq_true.1 List.all_takeWhile c hc
    have hslot := hcs c (List.takeWhile_subset _ hc)
    simp only [List.mem_cons, List.not_mem_nil, or_false] at hslot
    tauto
  have hsplit : integerSlots cs ++ cs.dropWhile (· != '.') = cs := List.takeWhile_append_dropWhile
  have hdigit : ∃ c ∈ cs, c = '#' ∨ c = '0' := by simpa using hany
  cases hrest : cs.dropWhile (· != '.') with
  | nil =>
    rw [hrest] at hsplit
    exact ⟨⟨integerSlots cs, none, hmem, hlast⟩, hsplit, hdigit⟩
  | cons c rest =>
    have hc : c = '.' := by
      have := List.head?_dropWhile_not (· != '.') cs
      rw [hrest] at this
      simpa using this
    have hfraction' : rest = List.replicate required '0' ++ List.replicate optional '#' := by
      rw [← hfraction, fractionSlots, hrest, List.drop_one, List.tail_cons]
    refine ⟨⟨integerSlots cs, some (required, optional), hmem, hlast⟩, ?_, hdigit⟩
    rw [hrest, hc, hfraction'] at hsplit
    exact hsplit

/-- The size of the groups: the number of slots behind the last comma, if there is one. -/
inductive Groups : List Char → Option Nat → Prop where
  | none {integer : List Char} (h : ',' ∉ integer) : Groups integer none
  | some {before behind : List Char} (h : ',' ∉ behind) :
    Groups (before ++ ',' :: behind) (some behind.length)

theorem groupOf_of_mem {before behind : List Char} (h : ',' ∉ behind) :
    groupOf (before ++ ',' :: behind) = some behind.length := by
  have hall : ∀ c ∈ behind.reverse, (c != ',') = true := by
    intro c hc
    simpa using fun heq : c = ',' => h (heq ▸ List.mem_reverse.1 hc)
  unfold groupOf
  rw [if_pos (by simp), List.reverse_append, List.reverse_cons, List.append_assoc,
    List.takeWhile_append_of_pos hall]
  simp

theorem groups_iff {integer : List Char} {group : Option Nat} :
    Groups integer group ↔ group = groupOf integer := by
  constructor
  · intro h
    cases h with
    | none h =>
      rw [groupOf, if_neg (by simpa using h)]
    | some h => exact (groupOf_of_mem h).symm
  · rintro rfl
    by_cases h : ',' ∈ integer
    · obtain ⟨behind, before, hsplit, hbehind⟩ := List.eq_append_cons_of_mem (List.mem_reverse.2 h)
      obtain rfl : integer = before.reverse ++ ',' :: behind.reverse := by
        rw [← List.reverse_reverse integer, hsplit]
        simp
      have hnot : ',' ∉ behind.reverse := fun hmem => hbehind (List.mem_reverse.1 hmem)
      rw [groupOf_of_mem hnot]
      exact .some hnot
    · rw [groupOf, if_neg (by simpa using h)]
      exact .none h

/-- The factor of the only scaling sign; one without a sign. -/
inductive Scales (ms : List Mark) : Nat → Prop where
  | none (h : ms.filter (·.isScaling) = []) : Scales ms 1
  | percent (h : ms.filter (·.isScaling) = [.scaling '%']) : Scales ms 100
  | perMille (h : ms.filter (·.isScaling) = [.scaling '‰']) : Scales ms 1000

theorem scales_iff {ms : List Mark} (h : ∀ c, Mark.scaling c ∈ ms → c ∈ ['%', '‰']) {scale : Nat} :
    Scales ms scale ↔
      (ms.filter (·.isScaling)).length ≤ 1 ∧ scale = scaleOf (ms.filter (·.isScaling)) := by
  constructor
  · intro hs
    cases hs with
    | none hs => rw [hs]; exact ⟨Nat.zero_le _, rfl⟩
    | percent hs => rw [hs]; exact ⟨Nat.le_refl _, rfl⟩
    | perMille hs => rw [hs]; exact ⟨Nat.le_refl _, rfl⟩
  · rintro ⟨hlength, rfl⟩
    cases hsigns : ms.filter (·.isScaling) with
    | nil => exact .none hsigns
    | cons m more =>
      obtain rfl : more = [] := by
        rw [hsigns] at hlength
        simpa using hlength
      have hm : m ∈ ms ∧ m.isScaling = true := by
        rw [← List.mem_filter, hsigns]
        exact List.mem_singleton_self m
      cases m with
      | literal c => cases hm.2
      | slot c => cases hm.2
      | scaling c =>
        rcases List.mem_pair.1 (h c hm.1) with rfl | rfl
        · exact .percent hsigns
        · exact .perMille hsigns

/-- A pattern describes a format: it reads as literals, slots of a number, at least one of them for
a digit, and literals again, with one scaling sign at most. -/
inductive Describes (pattern : List Char) : DecimalFormat → Prop where
  | intro {before after : List Mark} (slots : Slots) {group : Option Nat} {scale : Nat}
    (reads : Mark.Reads false pattern (before ++ slots.text.map Mark.slot ++ after))
    (digit : ∃ c ∈ slots.text, c = '#' ∨ c = '0')
    (literals : ∀ m ∈ before ++ after, m.isSlot = false)
    (groups : Groups slots.integer group) (scales : Scales (before ++ after) scale) :
    Describes pattern {
      before := before.map (·.char)
      after := after.map (·.char)
      minInteger := slots.integer.count '0'
      group := group
      minFraction := slots.required
      maxFraction := slots.required + slots.optional
      scale := scale }

/-- The literals, the slots and the literals again are found again. -/
theorem takeWhile_marks {before : List Mark} {slots : List Char} (hslots : slots ≠ [])
    (hbefore : ∀ m ∈ before, m.isSlot = false) (after : List Mark) :
    (before ++ slots.map Mark.slot ++ after).takeWhile (!·.isSlot) = before ∧
      (before ++ slots.map Mark.slot ++ after).dropWhile (!·.isSlot) =
        slots.map Mark.slot ++ after := by
  have hall : ∀ m ∈ before, (!m.isSlot) = true := by
    intro m hm
    rw [hbefore m hm]
    rfl
  obtain ⟨c, cs, rfl⟩ := List.exists_cons_of_ne_nil hslots
  rw [List.append_assoc, List.takeWhile_append_of_pos hall, List.dropWhile_append_of_pos hall]
  simp [Mark.isSlot]

theorem takeWhile_slots {after : List Mark} (slots : List Char)
    (hafter : ∀ m ∈ after, m.isSlot = false) :
    (slots.map Mark.slot ++ after).takeWhile (·.isSlot) = slots.map Mark.slot ∧
      (slots.map Mark.slot ++ after).dropWhile (·.isSlot) = after := by
  have hall : ∀ m ∈ slots.map Mark.slot, m.isSlot = true := by
    intro m hm
    obtain ⟨c, -, rfl⟩ := List.mem_map.1 hm
    rfl
  rw [List.takeWhile_append_of_pos hall, List.dropWhile_append_of_pos hall]
  cases after with
  | nil => simp
  | cons m after => simp [hafter m List.mem_cons_self]

theorem map_char_slot (cs : List Char) : (cs.map Mark.slot).map (·.char) = cs := by
  rw [List.map_map]
  exact List.map_id cs

theorem filter_isScaling_slot (before after : List Mark) (cs : List Char) :
    (before ++ cs.map Mark.slot ++ after).filter (·.isScaling) =
      (before ++ after).filter (·.isScaling) := by
  have hnone : (cs.map Mark.slot).filter (·.isScaling) = [] := by
    rw [List.filter_eq_nil_iff]
    intro m hm
    obtain ⟨c, -, rfl⟩ := List.mem_map.1 hm
    exact Bool.false_ne_true
  rw [List.filter_append, List.filter_append, hnone, List.append_nil, ← List.filter_append]

theorem Mark.Reads.mem_of_scaling_literals {quoted : Bool} {cs slots : List Char}
    {before after : List Mark} (h : Mark.Reads quoted cs (before ++ slots.map Mark.slot ++ after))
    {c : Char} (hc : Mark.scaling c ∈ before ++ after) : c ∈ ['%', '‰'] := by
  refine h.mem_of_scaling (c := c) ?_
  rcases List.mem_append.1 hc with hc | hc <;> simp [hc]

variable {pattern : List Char} {f : DecimalFormat}

theorem Describes.ofPattern?_eq (h : Describes pattern f) : ofPattern? pattern = some f := by
  obtain @⟨before, after, slots, group, scale, reads, digit, literals, groups, scales⟩ := h
  have hne : slots.text ≠ [] := by
    obtain ⟨c, hc, -⟩ := digit
    exact List.ne_nil_of_mem hc
  obtain ⟨hbefore, hfrom⟩ := takeWhile_marks hne
    (fun m hm => literals m (List.mem_append_left _ hm)) after
  have hafter : ∀ m ∈ after, m.isSlot = false := fun m hm => literals m (List.mem_append_right _ hm)
  obtain ⟨hslots, hrest⟩ := takeWhile_slots slots.text hafter
  obtain ⟨hlength, hscale⟩ := (scales_iff fun c hc => reads.mem_of_scaling_literals hc).1 scales
  rw [ofPattern?, reads.decode?_eq, Option.bind_some]
  simp only [ofMarks?, hbefore, hfrom, hslots, hrest, map_char_slot, filter_isScaling_slot,
    slots.isNumber_text digit, slots.integerSlots_text, slots.count_fractionSlots,
    slots.length_fractionSlots, ← groups_iff.1 groups, ← hscale]
  refine if_pos ?_
  simp only [Bool.and_eq_true, List.all_eq_true, decide_eq_true_eq]
  exact ⟨⟨fun m hm => by simp [hafter m hm], trivial⟩, hlength⟩

/-- Literals, slots and the rest make up the marks. -/
theorem marks_eq (ms : List Mark) :
    ms.takeWhile (!·.isSlot) ++
        (((ms.dropWhile (!·.isSlot)).takeWhile (·.isSlot)).map (·.char)).map Mark.slot ++
      (ms.dropWhile (!·.isSlot)).dropWhile (·.isSlot) = ms := by
  have hslots : ∀ m ∈ (ms.dropWhile (!·.isSlot)).takeWhile (·.isSlot), Mark.slot m.char = m := by
    intro m hm
    have hslot : m.isSlot = true := List.all_eq_true.1 List.all_takeWhile m hm
    cases m with
    | slot c => rfl
    | literal c => cases hslot
    | scaling c => cases hslot
  have hmap : (((ms.dropWhile (!·.isSlot)).takeWhile (·.isSlot)).map (·.char)).map Mark.slot =
      (ms.dropWhile (!·.isSlot)).takeWhile (·.isSlot) := by
    rw [List.map_map]
    exact (List.map_congr_left hslots).trans (List.map_id _)
  rw [hmap, List.append_assoc, List.takeWhile_append_dropWhile, List.takeWhile_append_dropWhile]

theorem describes_of_ofPattern? (h : ofPattern? pattern = some f) : Describes pattern f := by
  obtain ⟨ms, hms, hf⟩ := Option.bind_eq_some_iff.1 h
  have reads := Mark.reads_of_decode? hms
  have hsplit := marks_eq ms
  simp only [ofMarks?] at hf
  -- the parts get names before the condition is read, which speaks of `before` and `after` only
  obtain ⟨before, hbefore⟩ : ∃ before, before = ms.takeWhile (!·.isSlot) := ⟨_, rfl⟩
  obtain ⟨after, hafter⟩ : ∃ after, after = (ms.dropWhile (!·.isSlot)).dropWhile (·.isSlot) :=
    ⟨_, rfl⟩
  obtain ⟨cs, hcs⟩ : ∃ cs, cs = ((ms.dropWhile (!·.isSlot)).takeWhile (·.isSlot)).map (·.char) :=
    ⟨_, rfl⟩
  rw [← hbefore, ← hcs, ← hafter] at hsplit hf
  split at hf
  · rename_i hcond
    simp only [Bool.and_eq_true, decide_eq_true_eq] at hcond
    obtain ⟨⟨hall, hnumber⟩, hsigns⟩ := hcond
    subst hsplit
    have hslots : ∀ c ∈ cs, c ∈ ['#', '0', ',', '.'] := by
      intro c hc
      exact reads.mem_of_slot (by simp [hc])
    obtain ⟨slots, rfl, hdigit⟩ := exists_slots hslots hnumber
    have literals : ∀ m ∈ before ++ after, m.isSlot = false := by
      intro m hm
      rcases List.mem_append.1 hm with hm | hm
      · rw [hbefore] at hm
        simpa using List.all_eq_true.1 List.all_takeWhile m hm
      · simpa using List.all_eq_true.1 hall m hm
    obtain rfl := Option.some.inj hf
    rw [filter_isScaling_slot] at hsigns ⊢
    rw [slots.integerSlots_text, slots.count_fractionSlots, slots.length_fractionSlots]
    exact .intro slots reads hdigit literals (groups_iff.2 rfl)
      ((scales_iff fun c hc => reads.mem_of_scaling_literals hc).2 ⟨hsigns, rfl⟩)
  · cases hf

/-- A format is read from a pattern exactly if the pattern describes it. -/
theorem ofPattern?_eq_some_iff : ofPattern? pattern = some f ↔ Describes pattern f :=
  ⟨describes_of_ofPattern?, Describes.ofPattern?_eq⟩

/-- A pattern that describes a format shows every number in it. -/
theorem Describes.apply_eq {pattern : String} (h : Describes pattern.toList f) (n : Number) :
    apply pattern n = .ok (String.ofList (f.showNumber n)) := by
  rw [apply, h.ofPattern?_eq]

/-- What holds of every format that a pattern describes. -/
structure Proper (f : DecimalFormat) : Prop where
  group_pos : ∀ size ∈ f.group, 0 < size
  minFraction_le : f.minFraction ≤ f.maxFraction
  scale_mem : f.scale ∈ [1, 100, 1000]

theorem Proper.scale_pos (h : f.Proper) : 0 < f.scale := by
  have hscale := h.scale_mem
  simp only [List.mem_cons, List.not_mem_nil, or_false] at hscale
  omega

theorem Describes.proper (h : Describes pattern f) : f.Proper := by
  obtain @⟨before, after, slots, group, scale, -, -, -, groups, scales⟩ := h
  refine ⟨?_, Nat.le_add_right .., ?_⟩
  · intro size hsize
    obtain rfl : group = some size := hsize
    obtain ⟨integer, hinteger⟩ : ∃ integer, integer = slots.integer := ⟨_, rfl⟩
    have hlast := slots.getLast?_integer
    rw [← hinteger] at groups hlast
    cases groups with
    | some hbehind =>
      refine List.length_pos_iff.2 fun hnil => hlast ?_
      rw [hnil]
      simp
  · cases scales <;> simp

/-- The grammar of patterns: a pattern has a reading exactly if its quotes are balanced, one that
describes a format describes no other and shows every number in it, and one that describes none is
refused for every number. -/
theorem apply_described (pattern : String) :
    ((∃ ms, Mark.Reads false pattern.toList ms) ↔ pattern.toList.count '\'' % 2 = 0) ∧
    (∀ f, Describes pattern.toList f →
      (∀ n, apply pattern n = .ok (String.ofList (f.showNumber n))) ∧
        ∀ f', Describes pattern.toList f' → f' = f) ∧
    ((∀ f, ¬Describes pattern.toList f) →
      ∀ n, apply pattern n = .error (.invalidFormat pattern)) := by
  refine ⟨Mark.exists_reads_iff, fun f hf => ⟨fun n => ?_, fun f' hf' => ?_⟩, fun hnone n => ?_⟩
  · exact hf.apply_eq n
  · exact Option.some.inj (hf'.ofPattern?_eq.symm.trans hf.ofPattern?_eq)
  · have hrefused : ofPattern? pattern.toList = none :=
      Option.eq_none_iff_forall_ne_some.2 fun f hf => hnone f (describes_of_ofPattern? hf)
    rw [apply, hrefused]

/-- Quotes around zeros and apostrophes, and slots that quotes tear apart. -/
theorem apply_described_quotes :
    Describes "'0'''#,##0.0#' %'%".toList ⟨['0', '\''], [' ', '%', '%'], 1, some 3, 1, 2, 100⟩ ∧
      (∀ n, apply "'0'''#,##0.0#' %'%" n = .ok (String.ofList
        ((⟨['0', '\''], [' ', '%', '%'], 1, some 3, 1, 2, 100⟩ : DecimalFormat).showNumber n))) ∧
      ∀ n, apply "0' '0" n = .error (.invalidFormat "0' '0") := by
  have h : Describes "'0'''#,##0.0#' %'%".toList
      ⟨['0', '\''], [' ', '%', '%'], 1, some 3, 1, 2, 100⟩ :=
    ofPattern?_eq_some_iff.1 (by decide +kernel)
  have hnone : ∀ f, ¬Describes "0' '0".toList f := by
    intro f hf
    have hrefused : ofPattern? "0' '0".toList = none := by decide +kernel
    rw [hf.ofPattern?_eq] at hrefused
    cases hrefused
  exact ⟨h, ((apply_described _).2.1 _ h).1, (apply_described _).2.2 hnone⟩

end Stencil.DecimalFormat
