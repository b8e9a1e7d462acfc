import Stencil.Proofs.Engine.Steps
import Stencil.Proofs.Host.Texts
import Stencil.Proofs.Parse.RoundTrip
set_option autoImplicit false

/-!
# Runs of the normal form

The normal form of a tree has fewer texts than the tree and longer ones.  On a host
that takes texts in a row as it takes them joined both run alike, from every state
and within every bound (`Engine.run_normal`).  So the written form of a tree denotes
a tree that every page runs as the tree itself (`Engine.execute_parse_source`).
-/

namespace Stencil.Engine

/-! ## Texts in a row -/

variable {σ : Type} [Host σ] [Host.JoinsTexts σ]

theorem write_empty : (write "" : Run σ) = skip := by
  funext m
  unfold write onHost
  dsimp only
  rw [Host.JoinsTexts.write_empty]
  rfl

theorem write_append (s t : String) : (write (s ++ t) : Run σ) = seq (write s) (write t) := by
  funext m
  unfold seq write onHost
  dsimp only
  rw [Host.JoinsTexts.write_append]
  rcases Host.answer (.write s) m.host with ⟨_ | _, host⟩
  · rfl
  · rfl

/-- Rows that are joined run as the rows do one after the other. -/
theorem runAll_join (b : Bounds) (as bs : List Node) :
    (runAll b (Node.join as bs) : Run σ) = seq (runAll b as) (runAll b bs) := by
  unfold Node.join
  rcases List.eq_nil_or_concat as with rfl | ⟨as, a, rfl⟩
  · rw [joinWith_nil_left, runAll_nil, skip_seq]
  rw [List.concat_eq_append, joinWith_append, runAll_append, runAll_append, seq_assoc]
  refine congrArg (seq (runAll b as)) ?_
  cases bs with
  | nil => rw [joinWith_nil_right, runAll_nil, seq_skip]
  | cons n bs =>
    cases hglue : Node.glue? a n with
    | none => rw [joinWith_eq_append (by simp [hglue]), runAll_append]
    | some k =>
      obtain ⟨s, t, rfl, rfl, rfl⟩ := Node.glue?_eq_some_iff.1 hglue
      have htexts : (run b (.text (s ++ t)) : Run σ) = seq (run b (.text s)) (run b (.text t)) := by
        simp only [run, write_append]
      simp only [joinWith, hglue]
      rw [runAll_cons, htexts, runAll_singleton, runAll_cons, seq_assoc]

/-! ## Normal forms -/

mutual

/-- A node runs as its normal form does. -/
theorem run_normal (b : Bounds) (n : Node) : (runAll b n.normal : Run σ) = run b n := by
  cases n with
  | document cs =>
    rw [Node.normal, run]
    exact runAll_normalAll b cs
  | text s =>
    rw [Node.normal]
    split
    · rename_i hs
      rw [hs, runAll_nil, run, write_empty]
    · exact runAll_singleton b (.text s)
  | loop h body => rw [Node.normal, runAll_singleton, run, run, runAll_normalAll b body]
  | echo es => exact runAll_singleton b (.echo es)

/-- Nodes in a row run as their normal form does. -/
theorem runAll_normalAll (b : Bounds) (ns : List Node) :
    (runAll b (Node.normalAll ns) : Run σ) = runAll b ns := by
  cases ns with
  | nil => rfl
  | cons n ns => rw [Node.normalAll, runAll_join, run_normal b n, runAll_normalAll b ns, runAll_cons]

end

/-! ## Written trees -/

/-- Where the normal form of a tree is a document, the document runs as the tree does. -/
theorem execute_normal (b : Bounds) (t : Node) (host : σ) :
    execute b (.document t.normal) host = execute b t host := by
  unfold execute
  rw [run, run_normal]

/-- The written form of a tree denotes a tree that runs on every page as the tree does: with the
same result, and with the same page behind it, that is the same output, parameters and mime type. -/
theorem execute_parse_source {t : Node} (ht : t.IsWritable) :
    ∃ n, Node.parse t.source = .ok n ∧
      ∀ (b : Bounds) (p : Page), execute b n p = execute b t p :=
  ⟨.document t.normal, Node.parse_source ht, fun b p => execute_normal b t p⟩

/-- Two texts that are written as one end in the same byte of a sink that has no room for both. -/
theorem execute_parse_source_full :
    let loop := Node.loop ⟨"i", .integer 1, .integer 3, none⟩ [.echo [.var "i"], .text "é"]
    let t := Node.document [.text "a", .document [.text "", .text "é"], loop]
    let p : Page := { sink := { capacity := some 2 } }
    t.IsWritable ∧ (execute ⟨none, 9⟩ t p).1 = .error (.failed (.output .sinkFull)) ∧
      ∃ n, Node.parse t.source = .ok n ∧ execute ⟨none, 9⟩ n p = execute ⟨none, 9⟩ t p := by
  intro loop t p
  have hname : Text.IsWord "i".toList := ⟨by decide, List.forall_mem_nil _⟩
  have hheader : LoopHeader.IsWritable ⟨"i", .integer 1, .integer 3, none⟩ := by
    refine ⟨hname, ?_, ?_⟩
    · simp only [LoopHeader.arguments, List.forall_mem_cons, Element.IsWritable]
      exact ⟨trivial, trivial, List.forall_mem_nil _⟩
    · simp [LoopHeader.HasOperands, LoopHeader.arguments, Element.isOperand]
  have hecho : Node.IsWritable (.echo [.var "i"]) :=
    List.forall_mem_cons.2 ⟨hname, List.forall_mem_nil _⟩
  have ht : t.IsWritable :=
    ⟨trivial, ⟨trivial, trivial, trivial⟩, ⟨hheader, hecho, trivial, trivial⟩, trivial⟩
  obtain ⟨n, hn, hrun⟩ := execute_parse_source ht
  exact ⟨ht, by cbv, n, hn, hrun ⟨none, 9⟩ p⟩

end Stencil.Engine
