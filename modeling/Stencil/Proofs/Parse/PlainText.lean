import Stencil.Proofs.Engine.Append
import Stencil.Proofs.Parse.Layout
set_option autoImplicit false

/-!
# Templates without a tag

A template in which no tag is opened is one text: the characters that it spells, which
are written as they are.  Where it cannot be read, the leftmost fault is reported
(`Node.parse_plain`).
-/

namespace Stencil

/-! ## Reading one text -/

namespace Node

/-- A template that spells some characters is the text of them. -/
theorem parse_of_spellsAll {s : String} {d : List Char} (h : Scan.SpellsAll d s.toList) :
    parse s = .ok (.document (if s = "" then [] else [.text (String.ofList d)])) := by
  have hlayout : (Node.text (String.ofList d)).Layout s.toList :=
    Piece.Layout.text (by rwa [String.toList_ofList])
  have hparse := parse_of_layout hlayout trivial
  have hempty : String.ofList d = "" ↔ s = "" := by
    rw [← String.toList_inj, ← String.toList_inj, String.toList_ofList]
    exact h.eq_nil_iff
  rw [String.ofList_toList, normal] at hparse
  simpa only [hempty] using hparse

/-- A template without a tag that cannot be scanned as text is refused for that. -/
theorem parse_of_text_error {s : String} (hs : Scan.NoTag s.toList) {e : LexError}
    (herror : (Scan.text s.toList 1).result = .error e) :
    parse s = .error ⟨(Scan.text s.toList 1).line, .lex e⟩ := by
  have hne : s.toList ≠ [] := by
    intro hnil
    rw [hnil] at herror
    cases herror
  have hscan : (Lexer.ofString s).scan =
      (Scan.text s.toList 1).map fun d => .text (String.ofList d) := hs.textToken_eq hne 1
  have hresult : (Lexer.ofString s).scan.result = .error e := by
    rw [hscan, Scan.map, herror]
    rfl
  have hcur : (Lexer.ofString s).current ≠ some .eof := by simp [Lexer.ofString]
  have htoken : (Lexer.ofString s).token = .error ⟨(Scan.text s.toList 1).line, .lex e⟩ := by
    rw [Lexer.token_eq hcur, hresult, hscan]
    rfl
  have hreading : Reading.ofString s = ⟨[], .error ⟨(Scan.text s.toList 1).line, .lex e⟩⟩ :=
    Reading.ofLexer_of_error (Lexer.piece_of_token_error htoken)
  rw [parse, hreading]
  rfl

theorem parse_empty : parse "" = .ok (.document []) := by
  have hreading : Reading.ofString "" = ⟨[], .ok 1⟩ :=
    Reading.ofLexer_of_rest_eq_nil (Lexer.ready_fresh [] 1) rfl
  rw [parse, hreading]
  rfl

end Node

/-! ## Running one text -/

/-- The run of a text is one request to write it. -/
theorem Engine.execute_text {σ : Type} [Host σ] (b : Bounds) (s : String) (host : σ) :
    execute b (.document [.text s]) host =
      ((Host.answer (.write s) host).1.mapError fun e => .failed (.output e),
        (Host.answer (.write s) host).2) := by
  unfold execute
  simp only [run, runAll, write, onHost]
  rcases Host.answer (.write s) host with ⟨_ | _, host'⟩ <;> rfl

/-- What was written as one text is this text. -/
theorem Sink.textOf_toUTF8 (s : String) : textOf s.toUTF8 = s := by
  have hwhole : s.toUTF8.extract 0 (s.toUTF8.size - 0) = s.toUTF8 := ByteArray.extract_zero_size
  have hread : String.fromUTF8? s.toUTF8 = some s := dif_pos s.isValidUTF8
  unfold textOf
  rw [List.findSome?_cons, hwhole, hread]
  rfl

theorem render_of_parse_text {σ : Type} [Host σ] {x s : String}
    (h : Node.parse x = .ok (.document [.text s])) (b : Bounds) (host : σ) :
    render b x host =
      ((Host.answer (.write s) host).1.mapError fun e => .stopped (.failed (.output e)),
        (Host.answer (.write s) host).2) := by
  rw [render_of_parse h, Engine.execute_text]
  cases (Host.answer (.write s) host).1 <;> rfl

/-- On an empty page a text is the whole output. -/
theorem renderToString_of_parse_text {x s : String} (h : Node.parse x = .ok (.document [.text s]))
    (b : Bounds) : renderToString b x = .ok s := by
  have hwrite : Host.answer (.write s) ({} : Page) =
      (.ok (), { sink := { bytes := .empty ++ s.toUTF8 } }) := rfl
  rw [renderToString, render_of_parse_text h, hwrite]
  simp only [Except.mapError, Page.output, Sink.text, ByteArray.empty_append, Sink.textOf_toUTF8]

theorem render_empty {σ : Type} [Host σ] (b : Bounds) (host : σ) :
    render b "" host = (.ok (), host) := by
  rw [render_of_parse Node.parse_empty]
  rfl

theorem renderToString_empty (b : Bounds) : renderToString b "" = .ok "" := by
  rw [renderToString, render_empty]
  exact congrArg Except.ok (Sink.textOf_toUTF8 "")

/-! ## Templates without a tag -/

namespace Node

/-- A template without a tag spells some characters, or is refused for its leftmost fault. -/
theorem spellsAll_or_parse_eq_error {s : String} (hs : Scan.NoTag s.toList) :
    (∃ d, Scan.SpellsAll d s.toList) ∨
      ∃ read e, Scan.IsLeftmost s.toList read e ∧
        parse s = .error ⟨1 + newlines read, .lex e⟩ := by
  have hdescribed := Scan.described_text s.toList 1 hs
  unfold Scan.Described at hdescribed
  cases hresult : (Scan.text s.toList 1).result with
  | ok d =>
    rw [hresult] at hdescribed
    exact .inl ⟨d, hdescribed.1⟩
  | error e =>
    rw [hresult] at hdescribed
    obtain ⟨read, hread, hline⟩ := hdescribed
    refine .inr ⟨read, e, hread, ?_⟩
    rw [parse_of_text_error hs hresult, hline]

theorem renderToString_of_spellsAll {s : String} {d : List Char}
    (h : Scan.SpellsAll d s.toList) (b : Bounds) :
    renderToString b s = .ok (String.ofList d) := by
  have hparse := parse_of_spellsAll h
  by_cases hempty : s = ""
  · subst hempty
    rw [renderToString_empty, ← h.resolved_eq]
    rfl
  · rw [if_neg hempty] at hparse
    exact renderToString_of_parse_text hparse b

/-- A template without a tag has a tree exactly when no opening brace is unescaped in it and every
unescaped backslash stands in front of a character that can be escaped.  Then it is the text with
each escape resolved, or nothing where it is empty, and exactly this text is written, with one
request.  Otherwise the leftmost fault is reported, for the line on which it ends.  In particular the
escaped characters of any text are a template for this text. -/
theorem parse_plain :
    (∀ s : String, Scan.NoTag s.toList →
      let text := String.ofList (Scan.resolved s.toList)
      ((∃ n, parse s = .ok n) ↔ Scan.Faultless s.toList) ∧
      (Scan.Faultless s.toList →
        parse s = .ok (.document (if s = "" then [] else [.text text])) ∧
        (∀ b, renderToString b s = .ok text) ∧
        ∀ (σ : Type) [Host σ] (b : Bounds) (host : σ),
          render b s host =
            if s = "" then (.ok (), host)
            else ((Host.answer (.write text) host).1.mapError fun e => .stopped (.failed (.output e)),
              (Host.answer (.write text) host).2)) ∧
      (¬Scan.Faultless s.toList → ∃ read e, Scan.IsLeftmost s.toList read e ∧
        parse s = .error ⟨1 + newlines read, .lex e⟩)) ∧
    ∀ (s : String) (b : Bounds),
      renderToString b (String.ofList (s.toList.flatMap escapedChar)) = .ok s := by
  refine ⟨fun s hs => ?_, fun s b => ?_⟩
  · rcases spellsAll_or_parse_eq_error hs with ⟨d, hd⟩ | ⟨read, e, hread, hparse⟩
    · have hfaultless : Scan.Faultless s.toList := Scan.faultless_iff.2 fun _ _ => hd.not_faultAt
      have hparse := parse_of_spellsAll hd
      rw [hd.resolved_eq]
      refine ⟨iff_of_true ⟨_, hparse⟩ hfaultless, fun _ => ?_, fun h => absurd hfaultless h⟩
      refine ⟨hparse, renderToString_of_spellsAll hd, fun σ _ b host => ?_⟩
      by_cases hempty : s = ""
      · rw [if_pos hempty, hempty, render_empty]
      · rw [if_neg hempty] at hparse ⊢
        exact render_of_parse_text hparse b host
    · have hfaulty : ¬Scan.Faultless s.toList := fun h => Scan.faultless_iff.1 h read e hread.fault
      refine ⟨iff_of_false ?_ hfaulty, fun h => absurd h hfaulty, fun _ => ⟨read, e, hread, hparse⟩⟩
      rintro ⟨n, hn⟩
      rw [hparse] at hn
      cases hn
  · have hspells : Scan.SpellsAll s.toList
        (String.ofList (s.toList.flatMap escapedChar)).toList := by
      rw [String.toList_ofList]
      exact Scan.spellsAll_escaped s.toList
    rw [renderToString_of_spellsAll hspells, String.ofList_toList]

/-- An escaped backslash in front of an escaped brace; and a line break behind a backslash, to the
left of a brace that is at fault as well. -/
theorem parse_plain_escapes :
    let s := String.ofList ['\\', '\\', '\\', '{', '}', '$']
    let t := String.ofList ['a', '\\', '{', '\n', '\\', '\n', 'b', '{']
    Scan.Faultless s.toList ∧
      renderToString ⟨none, 0⟩ s = .ok (String.ofList ['\\', '{', '}', '$']) ∧
      Scan.NoTag t.toList ∧
      ∃ read, Scan.IsLeftmost t.toList read (.invalidEscape '\n') ∧ newlines read = 2 := by
  intro s t
  have hspells : Scan.SpellsAll ['\\', '{', '}', '$'] s.toList := by
    rw [String.toList_ofList]
    exact .cons (.escape rfl) (.cons (.escape rfl) (.cons (.plain (c := '}') (by decide) (by decide))
      (.cons (.plain (c := '$') (by decide) (by decide)) .nil)))
  have hs : Scan.Faultless s.toList := Scan.faultless_iff.2 fun _ _ => hspells.not_faultAt
  have ht : Scan.NoTag t.toList := by
    intro before after hsplit
    have hmem : '$' ∈ t.toList := by
      rw [hsplit]
      simp
    exact absurd hmem (by decide)
  obtain ⟨-, hwritten, -⟩ := parse_plain.1 s hs.noTag
  rw [hspells.resolved_eq] at hwritten
  obtain ⟨htree, -, hfault⟩ := parse_plain.1 t ht
  have hparse : parse t = .error ⟨3, .lex (.invalidEscape '\n')⟩ := by cbv
  obtain ⟨read, e, hread, hreport⟩ := hfault fun h => by
    obtain ⟨n, hn⟩ := htree.2 h
    rw [hparse] at hn
    cases hn
  rw [hparse] at hreport
  obtain ⟨hline, he⟩ := ParseError.mk.inj (Except.error.inj hreport)
  obtain rfl := SyntaxFault.lex.inj he
  exact ⟨hs, (hwritten hs).2.1 ⟨none, 0⟩, ht, read, hread, by omega⟩

end Node

end Stencil
