import Stencil.Proofs.Lexer.Commands
set_option autoImplicit false

/-!
# What a reader asks of the lexer

A reader sees of a template what the lexer answers, and nothing else: its result is
settled by the answers to the commands that it gave (`Lexer.Settles`).  It gives no
further command once one was refused.  So a template is read with finitely many
commands, and every token but the end that they find takes a character of it
(`Lexer.run_ofString`).
-/

namespace Stencil

namespace Lexer

/-! ## The same answers -/

theorem log_append (l : Lexer) (as bs : List Command) :
    l.log (as ++ bs) = l.log as ++ (l.run as).log bs := by
  induction as generalizing l with
  | nil => rfl
  | cons a as ih =>
    cases a with
    | next => exact congrArg _ (ih l.next.2)
    | switch m => exact ih (l.withMode m)

theorem length_log (l : Lexer) (cs : List Command) : (l.log cs).length = cs.count .next := by
  induction cs generalizing l with
  | nil => rfl
  | cons c cs ih =>
    cases c with
    | next => rw [log, List.length_cons, ih, List.count_cons_self]
    | switch m => exact (ih _).trans (List.count_cons_of_ne (by simp)).symm

/-- The lexer `k` stands on the line of `l` and gives the same answers to the commands. -/
def Agrees (cs : List Command) (l k : Lexer) : Prop := k.line = l.line ∧ k.log cs = l.log cs

/-- Lexers with the same answers stand on the same line behind them. -/
theorem Agrees.line_run {cs : List Command} {l k : Lexer} (h : Agrees cs l k) :
    (k.run cs).line = (l.run cs).line := by
  induction cs generalizing l k with
  | nil => exact h.1
  | cons c cs ih =>
    cases c with
    | next =>
      obtain ⟨hhead, htail⟩ := List.cons.inj h.2
      exact ih ⟨congrArg Prod.snd hhead, htail⟩
    | switch m => exact ih (l := l.withMode m) (k := k.withMode m) h

theorem Agrees.append {as bs : List Command} {l k : Lexer} (h : Agrees (as ++ bs) l k) :
    Agrees as l k ∧ Agrees bs (l.run as) (k.run as) := by
  have hlog := h.2
  rw [log_append, log_append] at hlog
  obtain ⟨has, hbs⟩ := List.append_inj hlog (by rw [length_log, length_log])
  have hfirst : Agrees as l k := ⟨h.1, has⟩
  exact ⟨hfirst, hfirst.line_run, hbs⟩

/-! ## Commands that settle a result -/

/-- Of the answers to the commands at most the last is an error. -/
def Unbroken (cs : List Command) (l : Lexer) : Prop := ∀ a ∈ (l.log cs).dropLast, a.1.isOk

theorem Unbroken.append {as bs : List Command} {l : Lexer} (has : ∀ a ∈ l.log as, a.1.isOk)
    (hbs : Unbroken bs (l.run as)) : Unbroken (as ++ bs) l := by
  intro a ha
  rw [log_append, List.dropLast_append] at ha
  split at ha
  · exact has a (List.dropLast_subset _ ha)
  · rcases List.mem_append.1 ha with ha | ha
    · exact has a ha
    · exact hbs a ha

/-- What the reader returns is settled by the answers to the commands: it returns the same on every
lexer with the same answers, and leaves it as the commands do. -/
structure Settles {α : Type} (cs : List Command) (R : Lexer → Except ParseError (α × Lexer))
    (l : Lexer) : Prop where
  unbroken : Unbroken cs l
  accepted : (R l).isOk → ∀ a ∈ l.log cs, a.1.isOk
  same : ∀ k, Agrees cs l k → R k = (R l).map fun r => (r.1, k.run cs)

theorem Settles.of_ok {α : Type} {cs : List Command}
    {R : Lexer → Except ParseError (α × Lexer)} {l l' : Lexer} {a : α} (h : Settles cs R l)
    (hR : R l = .ok (a, l')) : l' = l.run cs ∧ (∀ b ∈ l.log cs, b.1.isOk) ∧
      ∀ k, Agrees cs l k → R k = .ok (a, k.run cs) := by
  have hself := h.same l ⟨rfl, rfl⟩
  rw [hR] at hself
  refine ⟨(Prod.mk.inj (Except.ok.inj hself)).2, h.accepted (by rw [hR]; rfl), fun k hk => ?_⟩
  rw [h.same k hk, hR]
  rfl

theorem Settles.of_error {α : Type} {cs : List Command}
    {R : Lexer → Except ParseError (α × Lexer)} {l k : Lexer} {e : ParseError}
    (h : Settles cs R l) (hR : R l = .error e) (hk : Agrees cs l k) : R k = .error e := by
  rw [h.same k hk, hR]
  rfl

/-- Some commands settle what the reader returns. -/
def Settled {α : Type} (R : Lexer → Except ParseError (α × Lexer)) (l : Lexer) : Prop :=
  ∃ cs, Settles cs R l

variable {α β : Type} {R R' : Lexer → Except ParseError (α × Lexer)} {l : Lexer}

theorem Settled.congr (h : Settled R' l) (hR : ∀ k, k.line = l.line → R k = R' k) :
    Settled R l := by
  obtain ⟨cs, h⟩ := h
  refine ⟨cs, h.unbroken, ?_, fun k hk => ?_⟩
  · rw [hR l rfl]
    exact h.accepted
  · rw [hR k hk.1, hR l rfl]
    exact h.same k hk

theorem settled_pure (a : α) (l : Lexer) : Settled (fun l => .ok (a, l)) l :=
  ⟨[], nofun, nofun, fun _ _ => rfl⟩

theorem settled_error (e : ParseError) (l : Lexer) : Settled (α := α) (fun _ => .error e) l :=
  ⟨[], nofun, nofun, fun _ _ => rfl⟩

theorem Settled.withMode {m : Mode} (h : Settled R (l.withMode m)) :
    Settled (fun l => R (l.withMode m)) l := by
  obtain ⟨cs, h⟩ := h
  exact ⟨.switch m :: cs, h.unbroken, h.accepted, fun k hk => h.same (k.withMode m) hk⟩

theorem settled_token (l : Lexer) : Settled token l := by
  refine ⟨[.next], nofun, ?_, ?_⟩
  · intro h a ha
    obtain rfl := List.mem_singleton.1 ha
    unfold token at h
    rcases hnext : l.next with ⟨_ | _, l'⟩
    · rw [hnext] at h
      cases h
    · rfl
  · rintro k ⟨-, hlog⟩
    obtain ⟨hanswer, -⟩ := List.cons.inj hlog
    obtain ⟨hresult, hline⟩ := Prod.mk.inj hanswer
    simp only [token, run_cons, obey, run_nil]
    rcases hk : k.next with ⟨_ | _, k'⟩ <;> rcases hl : l.next with ⟨_ | _, l'⟩ <;>
      simp_all [Except.map]

/-- A reader that goes on with what another one returned. -/
theorem Settled.bind {f : α → Lexer → Except ParseError (β × Lexer)} (h : Settled R l)
    (hf : ∀ a l', R l = .ok (a, l') → Settled (f a) l') :
    Settled (fun l => R l >>= fun r => f r.1 r.2) l := by
  obtain ⟨as, h⟩ := h
  rcases hR : R l with e | ⟨a, l'⟩
  · refine ⟨as, h.unbroken, ?_, fun k hk => ?_⟩
    · rw [hR]
      nofun
    · rw [hR, h.of_error hR hk]
      rfl
  · obtain ⟨rfl, has, hsame⟩ := h.of_ok hR
    obtain ⟨bs, hb⟩ := hf a _ hR
    refine ⟨as ++ bs, .append has hb.unbroken, ?_, fun k hk => ?_⟩
    · intro hok x hx
      rw [hR] at hok
      rw [log_append] at hx
      exact (List.mem_append.1 hx).elim (has x) (hb.accepted hok x)
    · obtain ⟨hkas, hkbs⟩ := hk.append
      rw [hsame k hkas, hR, run_append]
      exact hb.same (k.run as) hkbs

/-! ## The readers -/

/-- The elements of a tag as a reader that goes on after each token. -/
theorem elements_eq_bind (l : Lexer) :
    l.elements = l.token >>= fun r => match r.1 with
      | .tagClose => .ok ([], r.2)
      | .element e => r.2.elements >>= fun r' => .ok (e :: r'.1, r'.2)
      | t => .error ⟨r.2.line, .tagNotClosed t⟩ := by
  rw [elements_eq]
  rcases l.token with e | ⟨t, l'⟩
  · rfl
  · cases t with
    | element e =>
      simp only [bind, Except.bind]
      cases l'.elements <;> rfl
    | _ => rfl

theorem settled_tagNotClosed (t : Token) (l : Lexer) :
    Settled (α := α) (fun l => .error ⟨l.line, .tagNotClosed t⟩) l :=
  (settled_error ⟨l.line, .tagNotClosed t⟩ l).congr fun k hk => by rw [hk]

theorem settled_elements (l : Lexer) : Settled elements l := by
  induction hn : l.rest.length using Nat.strong_induction_on generalizing l with
  | _ n ih =>
    refine (Settled.bind (settled_token l) (f := fun t l' => match t with
      | .tagClose => .ok ([], l')
      | .element e => l'.elements >>= fun r' => .ok (e :: r'.1, r'.2)
      | t => .error ⟨l'.line, .tagNotClosed t⟩) ?_).congr fun k _ => elements_eq_bind k
    intro t l' ht
    cases t with
    | tagClose => exact settled_pure ..
    | element e =>
      have hlt := length_rest_lt_of_token ht nofun
      exact (ih _ (hn ▸ hlt) l' rfl).bind fun es l'' _ => settled_pure ..
    | _ => exact settled_tagNotClosed ..

/-- The tag that ends a loop has nothing behind its name. -/
theorem settled_closing (l : Lexer) :
    Settled (fun l => l.token >>= fun r => match r.1 with
      | .tagClose => .ok (Piece.closing, r.2)
      | t => .error ⟨r.2.line, .tagNotClosed t⟩) l :=
  (settled_token l).bind (f := fun t l => match t with
    | .tagClose => .ok (Piece.closing, l)
    | t => .error ⟨l.line, .tagNotClosed t⟩) fun t l' _ => by
      cases t with
      | tagClose => exact settled_pure ..
      | _ => exact settled_tagNotClosed ..

/-- The arguments of a loop are checked when all of them are read. -/
theorem settled_header (line : Nat) (counter : String) (l : Lexer) :
    Settled (fun l => l.elements >>= fun r => header line counter r.1 >>= fun h =>
      .ok (Piece.opening h, r.2)) l :=
  (settled_elements l).bind (f := fun arguments l => header line counter arguments >>= fun h =>
    .ok (Piece.opening h, l)) fun arguments l' _ => by
      cases header line counter arguments with
      | error e => exact settled_error ..
      | ok h => exact settled_pure ..

theorem settled_opening (l : Lexer) :
    Settled (fun l => l.token >>= fun r => match r.1 with
      | .element (.var counter) => r.2.elements >>= fun r' =>
          header l.line counter r'.1 >>= fun h => .ok (Piece.opening h, r'.2)
      | t => .error ⟨l.line, .loopVariable t⟩) l := by
  refine ((settled_token l).bind (f := fun t l' => match t with
      | .element (.var counter) => l'.elements >>= fun r' =>
          header l.line counter r'.1 >>= fun h => .ok (Piece.opening h, r'.2)
      | t => .error ⟨l.line, .loopVariable t⟩) fun t l' _ => ?_).congr fun k hk => by rw [hk]
  split
  · exact settled_header ..
  · exact settled_error ..

theorem tagBody_echo (line : Nat) (l : Lexer) :
    tagBody line "=" l = l.elements >>= fun r => .ok (.echo r.1, r.2) := by
  rw [tagBody, if_pos rfl]
  rfl

theorem tagBody_opening (line : Nat) (l : Lexer) :
    tagBody line "for" l = l.token >>= fun r => match r.1 with
      | .element (.var counter) => r.2.elements >>= fun r' =>
          header l.line counter r'.1 >>= fun h => .ok (.opening h, r'.2)
      | t => .error ⟨l.line, .loopVariable t⟩ := by
  rw [tagBody, if_neg (by decide), if_pos rfl]
  congr 1
  funext r
  obtain ⟨t, l'⟩ := r
  cases t with
  | element e => cases e <;> rfl
  | _ => rfl

theorem tagBody_closing (line : Nat) (l : Lexer) :
    tagBody line "end" l = l.token >>= fun r => match r.1 with
      | .tagClose => .ok (.closing, r.2)
      | t => .error ⟨r.2.line, .tagNotClosed t⟩ := by
  rw [tagBody, if_neg (by decide), if_neg (by decide), if_pos rfl]
  congr 1
  funext r
  obtain ⟨t, l'⟩ := r
  cases t <;> rfl

/-- The name of a tag that is none of the three names. -/
theorem tagBody_unknown {name : String} (hecho : name ≠ "=") (hfor : name ≠ "for")
    (hend : name ≠ "end") (line : Nat) (l : Lexer) :
    tagBody line name l = .error ⟨line, .unknownTag name⟩ := by
  rw [tagBody, if_neg hecho, if_neg hfor, if_neg hend]
  rfl

theorem settled_tagBody (line : Nat) (name : String) (l : Lexer) :
    Settled (tagBody line name) l := by
  by_cases hecho : name = "="
  · subst hecho
    exact ((settled_elements l).bind (f := fun es l => .ok (Piece.echo es, l))
      fun _ _ _ => settled_pure ..).congr fun k _ => tagBody_echo line k
  by_cases hfor : name = "for"
  · subst hfor
    exact (settled_opening l).congr fun k _ => tagBody_opening line k
  by_cases hend : name = "end"
  · subst hend
    exact (settled_closing l).congr fun k _ => tagBody_closing line k
  · exact (settled_error ⟨line, .unknownTag name⟩ l).congr fun k _ =>
      tagBody_unknown hecho hfor hend line k

theorem tag_eq_bind (l : Lexer) :
    l.tag = (l.withMode .tag).token >>= fun r => match r.1 with
      | .tagName name => tagBody l.line name r.2 >>= fun r' => .ok (r'.1, r'.2.withMode .text)
      | t => .error ⟨l.line, .missingTagName t⟩ := by
  rw [tag]
  congr 1
  funext r
  obtain ⟨t, l'⟩ := r
  cases t <;> rfl

theorem settled_tag (l : Lexer) : Settled tag l := by
  refine (Settled.bind (settled_token (l.withMode .tag)).withMode (f := fun t l' => match t with
      | .tagName name => tagBody l.line name l' >>= fun r => .ok (r.1, r.2.withMode .text)
      | t => .error ⟨l.line, .missingTagName t⟩) fun t l' _ => ?_).congr fun k hk => ?_
  · cases t with
    | tagName name =>
      exact (settled_tagBody l.line name l').bind (f := fun p l => .ok (p, l.withMode .text))
        fun p l'' _ => (settled_pure p (l''.withMode .text)).withMode
    | _ => exact settled_error ..
  · rw [tag_eq_bind, hk]

theorem piece_eq_bind (l : Lexer) :
    l.piece = l.token >>= fun r => match r.1 with
      | .eof => .ok (none, r.2)
      | .text s => .ok (some (.text s), r.2)
      | .tagOpen => r.2.tag >>= fun r' => .ok (some r'.1, r'.2)
      | t => .error ⟨r.2.line, .tagNotClosed t⟩ := by
  rw [piece]
  congr 1
  funext r
  obtain ⟨t, l'⟩ := r
  cases t <;> rfl

theorem settled_piece (l : Lexer) : Settled piece l := by
  refine (Settled.bind (settled_token l) (f := fun t l' => match t with
      | .eof => .ok (none, l')
      | .text s => .ok (some (.text s), l')
      | .tagOpen => l'.tag >>= fun r => .ok (some r.1, r.2)
      | t => .error ⟨l'.line, .tagNotClosed t⟩) fun t l' _ => ?_).congr fun k _ => piece_eq_bind k
  cases t with
  | eof | text s => exact settled_pure ..
  | tagOpen =>
    exact (settled_tag l').bind (f := fun p l => .ok (some p, l)) fun _ _ _ => settled_pure ..
  | _ => exact settled_tagNotClosed ..

end Lexer

/-! ## The whole template -/

open Lexer in
/-- The pieces of a template are settled by the answers to some commands. -/
theorem Reading.settled_ofLexer (l : Lexer) :
    ∃ cs, Unbroken cs l ∧ ∀ k, Agrees cs l k → ofLexer k = ofLexer l := by
  fun_induction ofLexer l with
  | case1 l e hpiece =>
    obtain ⟨cs, h⟩ := settled_piece l
    exact ⟨cs, h.unbroken, fun k hk => ofLexer_of_error (h.of_error hpiece hk)⟩
  | case2 l l' hpiece =>
    obtain ⟨cs, h⟩ := settled_piece l
    obtain ⟨rfl, -, hsame⟩ := h.of_ok hpiece
    refine ⟨cs, h.unbroken, fun k hk => ?_⟩
    rw [ofLexer_of_end (hsame k hk), hk.line_run]
  | case3 l p l' hpiece r ih =>
    obtain ⟨as, h⟩ := settled_piece l
    obtain ⟨rfl, has, hsame⟩ := h.of_ok hpiece
    obtain ⟨bs, hunbroken, hrest⟩ := ih
    refine ⟨as ++ bs, .append has hunbroken, fun k hk => ?_⟩
    obtain ⟨hkas, hkbs⟩ := hk.append
    rw [ofLexer_of_piece (hsame k hkas), hrest _ hkbs, hk.1]

namespace Lexer

/-- Whatever a lexer on a template is told, also after errors, `Lexer.Account` holds of it.  So all
tokens of a template are at most one more than it has characters, and its tree is settled by the
answers to commands that find at most that many and of which only the last can be refused. -/
theorem run_ofString (s : String) :
    (∀ cs, ∃ read, Account s cs read) ∧
    (∀ ts, (ofString s).tokens = .ok ts → ts.length ≤ s.length + 1) ∧
    ∃ cs, ((ofString s).found cs).length ≤ s.length + 1 ∧ Unbroken cs (ofString s) ∧
      ∀ x, (ofString x).log cs = (ofString s).log cs → Node.parse x = Node.parse s := by
  refine ⟨exists_account s, fun ts hts => ?_, ?_⟩
  · obtain ⟨cs, hcs⟩ := exists_found_of_tokens hts
    rw [← List.length_map, ← hcs]
    exact length_found_ofString_le s cs
  · obtain ⟨cs, hunbroken, hsame⟩ := Reading.settled_ofLexer (ofString s)
    refine ⟨cs, length_found_ofString_le s cs, hunbroken, fun x hx => ?_⟩
    have hreading : Reading.ofString x = Reading.ofString s := hsame (ofString x) ⟨rfl, hx⟩
    rw [Node.parse, Node.parse, hreading]

end Lexer

end Stencil
