import Mathlib
set_option autoImplicit false

/-!
# Bytes of a text

A text is kept as its bytes in UTF-8, and a place in it is the number of the bytes in front
of it.  Characters can be taken from a place on, or up to one, only where it cuts no
character (`charsFrom?_eq_some_iff`, `charsTo?_eq_some`).  The characters of one byte are
known by this byte: no byte of another character is below 128, so a class of such characters
can be looked for among the bytes (`ByteClass`).
-/

namespace Stencil.Text

/-! ## Places -/

/-- The characters of a text from a place on; none where the place cuts a character or is beyond
the end. -/
def charsFrom? (s : String) (p : String.Pos.Raw) : Option (List Char) :=
  if h : p.IsValid s then some (s.sliceFrom ⟨p, h⟩).copy.toList else none

/-- The characters of a text up to a place; none where the place cuts a character or is beyond the
end. -/
def charsTo? (s : String) (p : String.Pos.Raw) : Option (List Char) :=
  if h : p.IsValid s then some (s.sliceTo ⟨p, h⟩).copy.toList else none

theorem eq_append_of_toList {s : String} {read rest : List Char} (h : s.toList = read ++ rest) :
    s = String.ofList read ++ String.ofList rest := by
  rw [← String.ofList_append, ← h, String.ofList_toList]

theorem rawEndPos_ofList (cs : List Char) :
    (String.ofList cs).rawEndPos = ⟨String.utf8Len cs⟩ := by
  rw [String.Pos.Raw.ext_iff, String.byteIdx_rawEndPos, String.utf8ByteSize_ofList]

/-- A place behind some of the characters cuts none, and splits the text there. -/
theorem exists_splits {s : String} {read rest : List Char} (h : s.toList = read ++ rest) :
    ∃ hvalid : String.Pos.Raw.IsValid s ⟨String.utf8Len read⟩,
      String.Pos.Splits (⟨_, hvalid⟩ : s.Pos) (String.ofList read) (String.ofList rest) := by
  have happend := eq_append_of_toList h
  have hend := (rawEndPos_ofList read).symm
  exact ⟨String.Pos.Raw.isValid_iff_exists_append.2 ⟨_, _, happend, hend⟩, happend, hend⟩

theorem charsFrom?_eq_some_iff {s : String} {p : String.Pos.Raw} {rest : List Char} :
    charsFrom? s p = some rest ↔
      ∃ read, s.toList = read ++ rest ∧ p = ⟨String.utf8Len read⟩ := by
  constructor
  · intro h
    unfold charsFrom? at h
    split at h
    · rename_i hvalid
      have hsplits := (⟨p, hvalid⟩ : s.Pos).splits
      obtain rfl := Option.some.inj h
      refine ⟨_, (congrArg String.toList hsplits.eq_append).trans String.toList_append, ?_⟩
      rw [String.utf8Len_toList]
      exact hsplits.offset_eq_rawEndPos
    · cases h
  · rintro ⟨read, h, rfl⟩
    obtain ⟨hvalid, hsplits⟩ := exists_splits h
    rw [charsFrom?, dif_pos hvalid, (⟨_, hvalid⟩ : s.Pos).splits.eq_right hsplits,
      String.toList_ofList]

theorem charsTo?_eq_some {s : String} {read rest : List Char} (h : s.toList = read ++ rest) :
    charsTo? s ⟨String.utf8Len read⟩ = some read := by
  obtain ⟨hvalid, hsplits⟩ := exists_splits h
  rw [charsTo?, dif_pos hvalid, (⟨_, hvalid⟩ : s.Pos).splits.eq_left hsplits, String.toList_ofList]

/-! ## Bytes -/

/-- The bytes of characters. -/
def bytes (cs : List Char) : List UInt8 := cs.flatMap String.utf8EncodeChar

theorem bytes_append (as bs : List Char) : bytes (as ++ bs) = bytes as ++ bytes bs :=
  List.flatMap_append

theorem length_bytes (cs : List Char) : (bytes cs).length = String.utf8Len cs := by
  induction cs with
  | nil => rfl
  | cons c cs ih =>
    rw [bytes, List.flatMap_cons, List.length_append, String.length_utf8EncodeChar,
      String.utf8Len_cons, ← ih, bytes, Nat.add_comm]

/-- Each of the characters is one byte. -/
def AllNarrow (cs : List Char) : Prop := ∀ c ∈ cs, c.utf8Size = 1

theorem AllNarrow.utf8Len {cs : List Char} (h : AllNarrow cs) : String.utf8Len cs = cs.length := by
  induction cs with
  | nil => rfl
  | cons c cs ih =>
    obtain ⟨hc, hcs⟩ := List.forall_mem_cons.1 h
    rw [String.utf8Len_cons, ih hcs, hc, List.length_cons]

theorem AllNarrow.length_bytes {cs : List Char} (h : AllNarrow cs) :
    (bytes cs).length = cs.length := (Text.length_bytes cs).trans h.utf8Len

theorem AllNarrow.append {as bs : List Char} (ha : AllNarrow as) (hb : AllNarrow bs) :
    AllNarrow (as ++ bs) := List.forall_mem_append.2 ⟨ha, hb⟩

/-- A character of more than one byte begins with one that is not below 128. -/
theorem exists_utf8EncodeChar {c : Char} (h : c.utf8Size ≠ 1) :
    ∃ b bs, String.utf8EncodeChar c = b :: bs ∧ 128 ≤ b.toNat := by
  have hc : ¬c.val.toNat ≤ 127 := fun hle => h (Char.utf8Size_eq_one_iff.2 hle)
  unfold String.utf8EncodeChar
  simp only [hc, if_false]
  split
  · exact ⟨_, _, rfl, by simp; omega⟩
  split
  · exact ⟨_, _, rfl, by simp; omega⟩
  · exact ⟨_, _, rfl, by simp; omega⟩

/-! ## Classes of characters of one byte -/

/-- The bytes are those of the characters of the class, and each of these is one byte. -/
structure ByteClass (ofByte : UInt8 → Bool) (ofChar : Char → Bool) : Prop where
  narrow : ∀ {c}, ofChar c = true → c.utf8Size = 1
  low : ∀ {b}, ofByte b = true → b.toNat < 128
  same : ∀ {c : Char}, c.utf8Size = 1 → ofByte c.toUInt8 = ofChar c

theorem toNat_toUInt8 {c : Char} (h : c.utf8Size = 1) : c.toUInt8.toNat = c.toNat := by
  have hle : c.val.toNat ≤ 127 := Char.utf8Size_eq_one_iff.1 h
  change c.val.toNat % 256 = c.val.toNat
  omega

namespace ByteClass

variable {ofByte ofByte' : UInt8 → Bool} {ofChar ofChar' : Char → Bool}

/-- The class of one character. -/
theorem char {d : Char} (hd : d.utf8Size = 1) : ByteClass (· == d.toUInt8) (· == d) where
  narrow h := by rw [eq_of_beq h, hd]
  low h := by
    have hle : d.val.toNat ≤ 127 := Char.utf8Size_eq_one_iff.1 hd
    rw [eq_of_beq h, toNat_toUInt8 hd]
    exact Nat.lt_succ_of_le hle
  same {c} hc := by
    rw [Bool.eq_iff_iff, beq_iff_eq, beq_iff_eq, UInt8.ext_iff, toNat_toUInt8 hc, toNat_toUInt8 hd,
      Char.toNat_inj]

theorem or (h : ByteClass ofByte ofChar) (h' : ByteClass ofByte' ofChar') :
    ByteClass (fun b => ofByte b || ofByte' b) (fun c => ofChar c || ofChar' c) where
  narrow hc := ((Bool.or_eq_true ..).mp hc).elim h.narrow h'.narrow
  low hb := ((Bool.or_eq_true ..).mp hb).elim h.low h'.low
  same hc := by rw [h.same hc, h'.same hc]

variable (h : ByteClass ofByte ofChar)
include h

/-- The first byte of a character is in the class when the character is. -/
theorem head?_utf8EncodeChar (c : Char) :
    (String.utf8EncodeChar c).head?.any ofByte = ofChar c := by
  by_cases hc : c.utf8Size = 1
  · rw [String.utf8EncodeChar_eq_singleton hc]
    exact h.same hc
  · obtain ⟨b, bs, hb, hhigh⟩ := exists_utf8EncodeChar hc
    have hbyte : ofByte b = false := Bool.eq_false_iff.2 fun hlow => by
      have := h.low hlow
      omega
    have hchar : ofChar c = false := Bool.eq_false_iff.2 fun hlow => hc (h.narrow hlow)
    rw [hb, List.head?_cons, Option.any_some, hbyte, hchar]

theorem head?_bytes (cs : List Char) : (bytes cs).head?.any ofByte = cs.head?.any ofChar := by
  cases cs with
  | nil => rfl
  | cons c cs =>
    have hne : String.utf8EncodeChar c ≠ [] := by
      rw [← List.length_pos_iff, String.length_utf8EncodeChar]
      exact c.utf8Size_pos
    rw [bytes, List.flatMap_cons, List.head?_append_of_ne_nil _ hne, h.head?_utf8EncodeChar]
    rfl

/-- A run of the class has as many bytes as characters. -/
theorem length_takeWhile_bytes (cs : List Char) :
    ((bytes cs).takeWhile ofByte).length = (cs.takeWhile ofChar).length := by
  induction cs with
  | nil => rfl
  | cons c cs ih =>
    rw [List.takeWhile_cons]
    cases hc : ofChar c with
    | true =>
      have hone := h.narrow hc
      have hbyte : ofByte c.val.toUInt8 = true := (h.same hone).trans hc
      rw [bytes, List.flatMap_cons, String.utf8EncodeChar_eq_singleton hone, List.singleton_append,
        List.takeWhile_cons, if_pos hbyte]
      exact congrArg (· + 1) ih
    | false =>
      have hhead : (bytes (c :: cs)).head?.any ofByte = false := (h.head?_bytes _).trans hc
      cases hbytes : bytes (c :: cs) with
      | nil => rfl
      | cons b bs =>
        rw [hbytes] at hhead
        have hbyte : ¬ofByte b = true := ne_true_of_eq_false hhead
        rw [List.takeWhile_cons, if_neg hbyte]
        rfl

end ByteClass

end Stencil.Text
