import Stencil.Proofs.Engine.Dialogue
import Stencil.Proofs.Host.Texts
set_option autoImplicit false

/-!
# Bounded sinks

A page whose sink has a capacity sees the beginning of what a page without one
sees.  As long as the output fits, both answer alike.  The first text that does not
fit is taken up to the capacity and ends the run, so that nothing is asked of the
page behind it (`Dialogue.play_cut`, `Engine.execute_bounded`).
-/

namespace Stencil

/-- The host after it was asked the calls in a row. -/
def Host.after {σ : Type} [Host σ] (host : σ) (cs : List Call) : σ :=
  cs.foldl (fun host c => (Host.answer c host).2) host

theorem Host.after_cons {σ : Type} [Host σ] (host : σ) (c : Call) (cs : List Call) :
    Host.after host (c :: cs) = Host.after (Host.answer c host).2 cs :=
  rfl

/-- A text that exceeds the capacity, cut there, is what the capacity cuts off of all output. -/
theorem Sink.extract_append_of_lt {bytes : ByteArray} {text : String} {c : Nat}
    (hc : bytes.size ≤ c) (h : c - bytes.size < text.utf8ByteSize) (more : ByteArray) :
    (bytes ++ text.toUTF8 ++ more).extract 0 c =
      bytes ++ text.toUTF8.extract 0 (c - bytes.size) := by
  have hsize : c - (bytes ++ text.toUTF8).size = 0 := by
    rw [ByteArray.size_append, size_toUTF8]
    omega
  rw [ByteArray.extract_append, hsize, Nat.zero_sub, ByteArray.extract_same,
    ByteArray.append_empty, ByteArray.extract_append, Nat.zero_sub, extract_of_size_le hc]

namespace Page

/-- The page with nothing written on it, and with the given capacity of its sink. -/
def unwritten (p : Page) (capacity : Option Nat) : Page := { p with sink := { capacity } }

/-- The page with another capacity of its sink. -/
def withCapacity (p : Page) (capacity : Option Nat) : Page :=
  { p with sink := { p.sink with capacity } }

/-- The page with a text behind its output. -/
def withText (p : Page) (text : String) : Page :=
  { p with sink := { p.sink with bytes := p.sink.bytes ++ text.toUTF8 } }

theorem size_withText (p : Page) (text : String) :
    (p.withText text).sink.bytes.size = p.sink.bytes.size + text.utf8ByteSize := by
  rw [withText, ByteArray.size_append, Sink.size_toUTF8]

/-- A page without a capacity takes every text. -/
theorem answer_write {p : Page} (hp : p.sink.capacity = none) (text : String) :
    Host.answer (.write text) p = (.ok (), p.withText text) := by
  have hfits : p.sink.fits text = true := by simp [Sink.fits, hp]
  simp only [Host.answer, Sink.write_of_fits hfits]
  rfl

theorem answer_write_withCapacity {p : Page} {text : String} {c : Nat}
    (h : text.utf8ByteSize ≤ c - p.sink.bytes.size) :
    Host.answer (.write text) (p.withCapacity (some c)) =
      (.ok (), (p.withText text).withCapacity (some c)) := by
  have hfits : (p.withCapacity (some c)).sink.fits text = true := decide_eq_true h
  simp only [Host.answer, Sink.write_of_fits hfits]
  rfl

/-- Of a text that does not fit a page takes as much as it has room for. -/
theorem answer_write_withCapacity_of_lt {p : Page} {text : String} {c : Nat}
    (h : c - p.sink.bytes.size < text.utf8ByteSize) :
    Host.answer (.write text) (p.withCapacity (some c)) =
      (.error .sinkFull,
        { p with sink := ⟨p.sink.bytes ++ text.toUTF8.extract 0 (c - p.sink.bytes.size), some c⟩ }) := by
  have hfits : ¬ (p.withCapacity (some c)).sink.fits text = true :=
    Sink.not_fits_iff.2 ⟨c, rfl, h⟩
  simp only [Host.answer, Sink.write_of_not_fits hfits]
  rfl

/-- Other calls than writes do not depend on the sink, and leave it as it is. -/
theorem answer_withCapacity {c : Call} (hc : ∀ text, c ≠ .write text) (p : Page)
    (capacity : Option Nat) :
    (Host.answer c p).2.sink = p.sink ∧
      Host.answer c (p.withCapacity capacity) =
        ((Host.answer c p).1, (Host.answer c p).2.withCapacity capacity) := by
  cases c with
  | write text => exact absurd rfl (hc text)
  | lookup scope name =>
    cases scope with
    | request => exact ⟨rfl, rfl⟩
    | store s => cases s <;> exact ⟨rfl, rfl⟩
  | set store name value => cases store <;> exact ⟨rfl, rfl⟩
  | delete store name => cases store <;> exact ⟨rfl, rfl⟩
  | setMime type => exact ⟨rfl, rfl⟩

end Page

namespace Dialogue

variable {α : Type}

/-- A page without a capacity keeps its output. -/
theorem bytes_play (d : Dialogue α) {p : Page} (hp : p.sink.capacity = none) :
    ∃ more, (d.play p).2.sink.bytes = p.sink.bytes ++ more := by
  induction d generalizing p with
  | done result => exact ⟨.empty, ByteArray.append_empty.symm⟩
  | write text next ih =>
    obtain ⟨more, hmore⟩ := ih (p := p.withText text) hp
    refine ⟨text.toUTF8 ++ more, ?_⟩
    simp only [play, Page.answer_write hp]
    rw [hmore, ← ByteArray.append_assoc]
    rfl
  | ask c hc next ih =>
    obtain ⟨hsink, -⟩ := Page.answer_withCapacity hc p none
    rw [← hsink] at hp ⊢
    exact ih (Host.answer c p).1 hp

theorem size_le_play (d : Dialogue α) {p : Page} (hp : p.sink.capacity = none) :
    p.sink.bytes.size ≤ (d.play p).2.sink.bytes.size := by
  obtain ⟨more, hmore⟩ := d.bytes_play hp
  rw [hmore, ByteArray.size_append]
  exact Nat.le_add_right _ _

/-- Where all output fits, the capacity makes no difference. -/
theorem play_withCapacity (d : Dialogue α) {p : Page} (hp : p.sink.capacity = none) {c : Nat}
    (hc : (d.play p).2.sink.bytes.size ≤ c) :
    d.play (p.withCapacity (some c)) = ((d.play p).1, (d.play p).2.withCapacity (some c)) ∧
      d.calls (p.withCapacity (some c)) = d.calls p := by
  induction d generalizing p with
  | done result => exact ⟨rfl, rfl⟩
  | write text next ih =>
    simp only [play, calls, Page.answer_write hp] at hc ⊢
    have hsize := next.size_le_play (p := p.withText text) hp
    rw [Page.size_withText] at hsize
    have hroom : text.utf8ByteSize ≤ c - p.sink.bytes.size := by omega
    simp only [Page.answer_write_withCapacity hroom]
    obtain ⟨hplay, hcalls⟩ := ih (p := p.withText text) hp hc
    exact ⟨hplay, congrArg (Call.write text :: ·) hcalls⟩
  | ask a ha next ih =>
    obtain ⟨hsink, hanswer⟩ := Page.answer_withCapacity ha p (some c)
    simp only [play, calls, hanswer] at hc ⊢
    rw [← hsink] at hp
    obtain ⟨hplay, hcalls⟩ := ih (Host.answer a p).1 hp hc
    exact ⟨hplay, congrArg (a :: ·) hcalls⟩

/-- Where the output does not fit, the dialogue ends with the text that exceeds the capacity. -/
theorem play_cut (d : Dialogue α) {p : Page} (hp : p.sink.capacity = none) {c : Nat}
    (hc : p.sink.bytes.size ≤ c) (hlt : c < (d.play p).2.sink.bytes.size) :
    (d.play (p.withCapacity (some c))).1 = .error (.failed (.output .sinkFull)) ∧
      ∃ (before : List Call) (text : String) (rest : List Call),
        d.calls (p.withCapacity (some c)) = before ++ [.write text] ∧
        d.calls p = before ++ .write text :: rest ∧
        (Host.answer (.write text) (Host.after (p.withCapacity (some c)) before)).1 =
          .error .sinkFull ∧
        (d.play (p.withCapacity (some c))).2 =
          { Host.after p (before ++ [.write text]) with
            sink := ⟨(d.play p).2.sink.bytes.extract 0 c, some c⟩ } := by
  induction d generalizing p with
  | done result => exact absurd hlt (Nat.not_lt.2 hc)
  | write text next ih =>
    simp only [play, calls, Page.answer_write hp] at hlt ⊢
    by_cases hroom : text.utf8ByteSize ≤ c - p.sink.bytes.size
    · have hsize : (p.withText text).sink.bytes.size ≤ c := by
        rw [Page.size_withText]
        omega
      obtain ⟨hresult, before, last, rest, hcut, hcalls, hfails, hhost⟩ :=
        ih (p := p.withText text) hp hsize hlt
      have hanswer := Page.answer_write_withCapacity hroom
      simp only [hanswer]
      refine ⟨hresult, .write text :: before, last, rest, congrArg (_ :: ·) hcut,
        congrArg (_ :: ·) hcalls, ?_, ?_⟩
      · rw [Host.after_cons, hanswer]
        exact hfails
      · rw [List.cons_append, Host.after_cons, Page.answer_write hp]
        exact hhost
    · have hanswer := Page.answer_write_withCapacity_of_lt (Nat.lt_of_not_le hroom)
      have hbytes : (next.play (p.withText text)).2.sink.bytes.extract 0 c =
          p.sink.bytes ++ text.toUTF8.extract 0 (c - p.sink.bytes.size) := by
        obtain ⟨more, hmore⟩ := next.bytes_play (p := p.withText text) hp
        rw [hmore]
        exact Sink.extract_append_of_lt hc (Nat.lt_of_not_le hroom) more
      simp only [hanswer]
      refine ⟨trivial, [], text, next.calls (p.withText text), rfl, rfl, ?_, ?_⟩
      · exact congrArg Prod.fst hanswer
      · rw [hbytes, List.nil_append, Host.after_cons, Page.answer_write hp]
        rfl
  | ask a ha next ih =>
    obtain ⟨hsink, hanswer⟩ := Page.answer_withCapacity ha p (some c)
    simp only [play, calls, hanswer] at hlt ⊢
    rw [← hsink] at hp hc
    obtain ⟨hresult, before, last, rest, hcut, hcalls, hfails, hhost⟩ :=
      ih (Host.answer a p).1 hp hc hlt
    refine ⟨hresult, a :: before, last, rest, congrArg (_ :: ·) hcut, congrArg (_ :: ·) hcalls,
      ?_, ?_⟩
    · rw [Host.after_cons, hanswer]
      exact hfails
    · rw [List.cons_append, Host.after_cons]
      exact hhost

end Dialogue

/-- A run on a sink with a capacity is the run on a sink without one as long as the output fits.
Else it fails with the text that exceeds the capacity: what is written are the first bytes of the
other output, the calls are the first calls of the other run up to this text, and the parameters
and the mime type are those behind these calls. -/
theorem Engine.execute_bounded (b : Bounds) (n : Node) (p : Page) (c : Nat) :
    let full := execute b n (⟨p.unwritten none, []⟩ : Recorded Page)
    let cut := execute b n (⟨p.unwritten (some c), []⟩ : Recorded Page)
    (full.2.host.sink.bytes.size ≤ c →
      cut.1 = full.1 ∧ cut.2.calls = full.2.calls ∧
        cut.2.host = full.2.host.withCapacity (some c)) ∧
    (c < full.2.host.sink.bytes.size →
      cut.1 = .error (.failed (.output .sinkFull)) ∧
      ∃ (before : List Call) (text : String) (rest : List Call),
        cut.2.calls = before ++ [.write text] ∧ full.2.calls = before ++ .write text :: rest ∧
        (Host.answer (.write text) (Host.after (p.unwritten (some c)) before)).1 =
          .error .sinkFull ∧
        cut.2.host =
          { Host.after (p.unwritten none) (before ++ [.write text]) with
            sink := ⟨full.2.host.sink.bytes.extract 0 c, some c⟩ }) := by
  intro full cut
  obtain ⟨d, hd⟩ := exists_dialogue b n
  have hrun : ∀ q : Page, execute b n (⟨q, []⟩ : Recorded Page) =
      ((d.play q).1, ⟨(d.play q).2, (d.calls q).reverse⟩) := by
    intro q
    rw [hd, Dialogue.play_recorded, List.append_nil]
  have hfull : full = _ := hrun (p.unwritten none)
  have hcut : cut = _ := hrun ((p.unwritten none).withCapacity (some c))
  rw [hfull, hcut]
  simp only [Recorded.calls, List.reverse_reverse]
  constructor
  · intro hc
    obtain ⟨hplay, hcalls⟩ := d.play_withCapacity (p := p.unwritten none) rfl hc
    rw [hplay]
    exact ⟨rfl, hcalls, rfl⟩
  · intro hc
    exact d.play_cut (p := p.unwritten none) rfl (Nat.zero_le c) hc

/-- A sink of four bytes has room for the texts of both iterations.  One of a single byte ends the
run within the text of the first, before the second sets its parameter. -/
theorem Engine.execute_bounded_loop :
    let t := Node.loop ⟨"i", .integer 1, .integer 2, none⟩
      [.echo [.var "i", .text "k", .call "tparamSet"], .text "é"]
    let run (capacity : Option Nat) :=
      execute ⟨none, 9⟩ t (⟨({} : Page).unwritten capacity, []⟩ : Recorded Page)
    (run none).2.host.sink.bytes.size = 4 ∧ (run (some 4)).1 = (run none).1 ∧
      (run (some 1)).1 = .error (.failed (.output .sinkFull)) ∧
      (run (some 1)).2.host.sink.bytes = (run none).2.host.sink.bytes.extract 0 1 ∧
      (run (some 1)).2.calls = [.set .transient "k" "1", .write "é"] := by
  intro t run
  have hsize : (run none).2.host.sink.bytes.size = 4 := by cbv
  have hlt : 1 < (run none).2.host.sink.bytes.size := by
    rw [hsize]
    decide
  obtain ⟨hwhole, -⟩ := execute_bounded ⟨none, 9⟩ t {} 4
  obtain ⟨-, hcut⟩ := execute_bounded ⟨none, 9⟩ t {} 1
  obtain ⟨hresult, -⟩ := hwhole hsize.le
  obtain ⟨hfailed, before, text, rest, -, -, -, hbytes⟩ := hcut hlt
  refine ⟨hsize, hresult, hfailed, ?_, by cbv⟩
  exact congrArg (·.sink.bytes) hbytes

end Stencil
