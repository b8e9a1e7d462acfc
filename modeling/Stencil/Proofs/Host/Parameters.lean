import Stencil.Proofs.Host.Bounded
set_option autoImplicit false

/-!
# Parameters of a page

A page keeps its parameters in scopes that do not meet: a call changes the parameter
that it names, in the scope that it names, and no other (`Page.get?_answer`).  So the
last call that sets or deletes a parameter settles what it is behind a run
(`Page.get?_after`), and a run goes the same way on two pages that agree on the
parameters it looks up (`Dialogue.play_of_agreesOn`).
-/

namespace Stencil

namespace Call

/-- The changeable scope in which the call sets or deletes a parameter. -/
def changes? : Call → Option Store
  | set store _ _ | delete store _ => some store
  | write _ | lookup _ _ | setMime _ => none

/-- What a call that sets or deletes the parameter leaves there: a text, or none. -/
def leaves? (scope : Scope) (name : String) : Call → Option (Option String)
  | set store other value =>
    if .store store = scope ∧ other = name then some (some value) else none
  | delete store other => if .store store = scope ∧ other = name then some none else none
  | write _ | lookup _ _ | setMime _ => none

/-- What the last of the calls that sets or deletes the parameter leaves there, if one does. -/
def lastLeft? (scope : Scope) (name : String) (cs : List Call) : Option (Option String) :=
  cs.reverse.findSome? (leaves? scope name)

/-- A call counts where none behind it sets or deletes the parameter. -/
theorem lastLeft?_cons (scope : Scope) (name : String) (c : Call) (cs : List Call) :
    lastLeft? scope name (c :: cs) = (lastLeft? scope name cs).or (c.leaves? scope name) := by
  simp [lastLeft?, List.findSome?_append]

end Call

namespace Table

theorem get?_insert (t : Table) (changed value name : String) :
    (t.insert changed value).get? name = if changed = name then some value else t.get? name := by
  by_cases h : changed = name
  · rw [if_pos h, h, get?_insert_self]
  · rw [if_neg h, get?_insert_of_ne (Ne.symm h)]

theorem get?_erase (t : Table) (changed name : String) :
    (t.erase changed).get? name = if changed = name then none else t.get? name := by
  by_cases h : changed = name
  · rw [if_pos h, h, get?_erase_self]
  · rw [if_neg h, get?_erase_of_ne (Ne.symm h)]

end Table

namespace Page

/-! ## One call -/

theorem scope_withStore (p : Page) (store : Store) (t : Table) (scope : Scope) :
    (p.withStore store t).scope scope = if .store store = scope then t else p.scope scope := by
  cases scope with
  | request => cases store <;> rfl
  | store s => cases store <;> cases s <;> rfl

theorem store_withStore_of_ne (p : Page) {store other : Store} (h : store ≠ other) (t : Table) :
    (p.withStore store t).store other = p.store other := by
  have hscope := p.scope_withStore store t (.store other)
  rwa [if_neg fun hs => h (Scope.store.inj hs)] at hscope

/-- A table that differs from that of its scope in one parameter. -/
theorem get?_withStore (p : Page) {store : Store} {t : Table} {changed : String}
    {left : Option String}
    (ht : ∀ name, t.get? name = if changed = name then left else (p.store store).get? name)
    (scope : Scope) (name : String) :
    ((p.withStore store t).scope scope).get? name =
      (if .store store = scope ∧ changed = name then some left else none).getD
        ((p.scope scope).get? name) := by
  rw [scope_withStore]
  by_cases hscope : .store store = scope
  · subst hscope
    rw [if_pos rfl, ht]
    by_cases hname : changed = name
    · rw [if_pos hname, if_pos ⟨rfl, hname⟩]
      rfl
    · rw [if_neg hname, if_neg fun h => hname h.2]
      rfl
  · rw [if_neg hscope, if_neg fun h => hscope h.1]
    rfl

/-- A call changes the parameter that it sets or deletes, and no other. -/
theorem get?_answer (c : Call) (p : Page) (scope : Scope) (name : String) :
    ((Host.answer c p).2.scope scope).get? name =
      (c.leaves? scope name).getD ((p.scope scope).get? name) := by
  cases c with
  | set store changed value =>
    exact p.get?_withStore ((p.store store).get?_insert changed value) scope name
  | delete store changed =>
    exact p.get?_withStore ((p.store store).get?_erase changed) scope name
  | lookup _ _ => rfl
  | write _ | setMime _ =>
    cases scope with
    | request => rfl
    | store s => cases s <;> rfl

/-- A call leaves the scopes in which it sets or deletes nothing as they are. -/
theorem store_answer_of_ne {c : Call} {store : Store} (h : c.changes? ≠ some store) (p : Page) :
    (Host.answer c p).2.store store = p.store store := by
  cases c with
  | set changed _ _ | delete changed _ =>
    exact p.store_withStore_of_ne (fun heq => h (congrArg some heq)) _
  | lookup _ _ => rfl
  | write _ | setMime _ => cases store <;> rfl

theorem request_answer (c : Call) (p : Page) : (Host.answer c p).2.request = p.request := by
  cases c with
  | set store _ _ | delete store _ => cases store <;> rfl
  | _ => rfl

/-! ## Calls in a row -/

theorem request_after (p : Page) (cs : List Call) : (Host.after p cs).request = p.request := by
  induction cs generalizing p with
  | nil => rfl
  | cons c cs ih => rw [Host.after_cons, ih, request_answer]

/-- Behind calls in a row a parameter is what the last of them that sets or deletes it leaves, and
what it was where none does. -/
theorem get?_after (p : Page) (cs : List Call) (scope : Scope) (name : String) :
    ((Host.after p cs).scope scope).get? name =
      (Call.lastLeft? scope name cs).getD ((p.scope scope).get? name) := by
  induction cs generalizing p with
  | nil => rfl
  | cons c cs ih =>
    rw [Host.after_cons, ih, get?_answer, Call.lastLeft?_cons]
    cases Call.lastLeft? scope name cs <;> rfl

/-! ## Two pages -/

/-- The pages agree on every parameter that one of the calls looks up. -/
def AgreesOn (cs : List Call) (p q : Page) : Prop :=
  ∀ scope name, .lookup scope name ∈ cs → (p.scope scope).get? name = (q.scope scope).get? name

variable {c : Call} {cs : List Call} {p q : Page}

/-- The answer to a call depends on the sink and on the parameter that is looked up. -/
theorem AgreesOn.answer_eq (h : AgreesOn (c :: cs) p q) (hsink : p.sink = q.sink) :
    (Host.answer c p).1 = (Host.answer c q).1 ∧
      (Host.answer c p).2.sink = (Host.answer c q).2.sink := by
  cases c with
  | write text =>
    simp only [Host.answer, hsink]
    exact ⟨trivial, trivial⟩
  | lookup scope name => exact ⟨h scope name List.mem_cons_self, hsink⟩
  | set store _ _ | delete store _ => cases store <;> exact ⟨rfl, hsink⟩
  | setMime type => exact ⟨rfl, hsink⟩

/-- Behind a call the pages agree as before, also on the parameter that the call sets or deletes. -/
theorem AgreesOn.answer (h : AgreesOn (c :: cs) p q) :
    AgreesOn cs (Host.answer c p).2 (Host.answer c q).2 := by
  intro scope name hmem
  rw [get?_answer, get?_answer, h scope name (List.mem_cons_of_mem c hmem)]

end Page

namespace Dialogue

variable {α : Type}

/-- A dialogue leaves the host as its calls do. -/
theorem host_play {σ : Type} [Host σ] (d : Dialogue α) (host : σ) :
    (d.play host).2 = Host.after host (d.calls host) := by
  induction d generalizing host with
  | done result => rfl
  | write text next ih =>
    simp only [play, calls, Host.after_cons]
    rcases Host.answer (.write text) host with ⟨_ | _, host'⟩
    · rfl
    · exact ih host'
  | ask c hc next ih => exact ih _ _

/-- On pages that agree on the parameters that are looked up, a dialogue goes the same way. -/
theorem play_of_agreesOn (d : Dialogue α) {p q : Page} (hsink : p.sink = q.sink)
    (h : Page.AgreesOn (d.calls p) p q) :
    (d.play p).1 = (d.play q).1 ∧ d.calls p = d.calls q ∧
      (d.play p).2.sink = (d.play q).2.sink := by
  induction d generalizing p q with
  | done result => exact ⟨rfl, rfl, hsink⟩
  | write text next ih =>
    obtain ⟨hanswer, hsink'⟩ := h.answer_eq hsink
    have hrest := h.answer
    simp only [play, calls] at hrest ⊢
    rcases hp : Host.answer (.write text) p with ⟨r, p'⟩
    rcases hq : Host.answer (.write text) q with ⟨r', q'⟩
    rw [hp, hq] at hanswer hsink' hrest
    obtain rfl : r = r' := hanswer
    cases r with
    | error e => exact ⟨rfl, rfl, hsink'⟩
    | ok u =>
      obtain ⟨hresult, hcalls, hlast⟩ := ih hsink' hrest
      exact ⟨hresult, congrArg (_ :: ·) hcalls, hlast⟩
  | ask c hc next ih =>
    obtain ⟨hanswer, hsink'⟩ := h.answer_eq hsink
    obtain ⟨hresult, hcalls, hlast⟩ := ih (Host.answer c p).1 hsink' h.answer
    simp only [play, calls]
    rw [← hanswer]
    exact ⟨hresult, congrArg (c :: ·) hcalls, hlast⟩

end Dialogue

namespace Engine

/-- What a run does with a recorded host is a dialogue with the host itself, and its calls are on
record. -/
theorem exists_dialogue_recorded (b : Bounds) (n : Node) :
    ∃ d : Dialogue Unit, ∀ (σ : Type) [Host σ] (host : σ),
      execute b n (⟨host, []⟩ : Recorded σ) =
        ((d.play host).1, ⟨(d.play host).2, (d.calls host).reverse⟩) := by
  obtain ⟨d, hd⟩ := exists_dialogue b n
  refine ⟨d, fun σ _ host => ?_⟩
  rw [hd, Dialogue.play_recorded, List.append_nil]

/-- Scopes of parameters are local and independent.  On two pages with the same sink that agree on
the parameters the run looks up, it makes the same calls, writes the same output and ends with the
same result.  However it ends, it leaves the parameters of the request as they were and every other
parameter as the last call left it that set or deleted it, or as it was; and a call that sets or
deletes a parameter changes no scope but its own. -/
theorem execute_parameters (b : Bounds) (n : Node) (p : Page) :
    let r := execute b n (⟨p, []⟩ : Recorded Page)
    (∀ q : Page, p.sink = q.sink → Page.AgreesOn r.2.calls p q →
      let s := execute b n (⟨q, []⟩ : Recorded Page)
      r.1 = s.1 ∧ r.2.calls = s.2.calls ∧ r.2.host.sink = s.2.host.sink) ∧
    r.2.host.request = p.request ∧
    (∀ store name, (r.2.host.store store).get? name =
      (Call.lastLeft? (.store store) name r.2.calls).getD ((p.store store).get? name)) ∧
    ∀ (c : Call) (q : Page), (Host.answer c q).2.request = q.request ∧
      ∀ store, c.changes? ≠ some store → (Host.answer c q).2.store store = q.store store := by
  intro r
  obtain ⟨d, hd⟩ := exists_dialogue_recorded b n
  have hr : r = _ := hd Page p
  rw [hr]
  simp only [Recorded.calls, List.reverse_reverse]
  refine ⟨?_, ?_, ?_, fun c q => ⟨Page.request_answer c q, fun _ hne => Page.store_answer_of_ne hne q⟩⟩
  · intro q hsink hagree
    rw [hd Page q]
    simp only [List.reverse_reverse]
    exact d.play_of_agreesOn hsink hagree
  · rw [d.host_play]
    exact Page.request_after p _
  · intro store name
    rw [d.host_play]
    exact Page.get?_after p (d.calls p) (.store store) name

/-- The parameter `k` is set in both iterations, found there, and deleted behind the loop; the pages
differ in parameters that are not looked up and in the mime type. -/
theorem execute_parameters_loop :
    let t := Node.document [
      .loop ⟨"i", .integer 1, .integer 2, none⟩
        [.echo [.var "i", .text "k", .call "tparamSet", .text "k", .text "?", .call "tparamGet"]],
      .echo [.text "k", .call "tparamDel", .text "user", .text "?", .call "paramGet"]]
    let p : Page := { request := ⟨[("user", "ann")]⟩, transient := ⟨[("k", "0"), ("l", "1")]⟩ }
    let q : Page :=
      { request := ⟨[("k", "2"), ("user", "ann")]⟩, persistent := ⟨[("k", "3")]⟩,
        transient := ⟨[("k", "0")]⟩, mime := some "text/plain" }
    let run (page : Page) := execute ⟨none, 9⟩ t (⟨page, []⟩ : Recorded Page)
    (run p).2.host.output = "12ann" ∧ (run p).1 = (run q).1 ∧
      (run p).2.calls = (run q).2.calls ∧ (run p).2.host.sink = (run q).2.host.sink ∧
      (run p).2.host.request = p.request ∧
      ((run p).2.host.store .transient).get? "k" = none ∧
      ((run p).2.host.store .transient).get? "l" = some "1" ∧
      (Host.answer (.set .transient "k" "4") q).2.store .persistent = q.persistent := by
  intro t p q run
  have hcalls : (run p).2.calls = [
      .set .transient "k" "1", .lookup (.store .transient) "k", .write "1",
      .set .transient "k" "2", .lookup (.store .transient) "k", .write "2",
      .delete .transient "k", .lookup .request "user", .write "ann"] := by
    decide +kernel
  have hagree : Page.AgreesOn (run p).2.calls p q := by
    intro scope name hmem
    rw [hcalls] at hmem
    obtain ⟨rfl, rfl⟩ | ⟨rfl, rfl⟩ :
        (scope = .store .transient ∧ name = "k") ∨ (scope = .request ∧ name = "user") := by
      simpa using hmem
    · rfl
    · decide
  have houtput : (run p).2.host.output = "12ann" := by decide +kernel
  have hrun : ∀ page, execute ⟨none, 9⟩ t (⟨page, []⟩ : Recorded Page) = run page := fun _ => rfl
  obtain ⟨htwo, hrequest, hlast, hcall⟩ := execute_parameters ⟨none, 9⟩ t p
  simp only [hrun] at htwo hrequest hlast
  obtain ⟨hresult, hsame, hsink⟩ := htwo q rfl hagree
  have hk : ((run p).2.host.store .transient).get? "k" = none := by
    rw [hlast, hcalls]
    rfl
  have hl : ((run p).2.host.store .transient).get? "l" = some "1" := by
    rw [hlast, hcalls]
    rfl
  exact ⟨houtput, hresult, hsame, hsink, hrequest, hk, hl,
    (hcall (.set .transient "k" "4") q).2 .persistent nofun⟩

end Engine

end Stencil
