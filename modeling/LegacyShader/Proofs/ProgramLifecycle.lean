import LegacyShader.Program
import LegacyShader.Proofs.LinkSteps

/-!
# The life of a program

A program takes calls to bind attributes and to link.  Before the first link it
collects bindings, and the last one of each name counts (`after_bindCalls`,
`Pins.get?_ofBinds`).  The first link sets its status.  From then on calls change
nothing but the log (`foldl_next_of_isSome_status`), whether the link succeeded or not.

What a program shows follows from its status and from what it has linked.  A program
that has linked nothing is `Blank`, and one that took part in a link is `Decided` by
the outcome.  `blank_or_decided_by_first_link` says of every sequence of calls which
of the two it leaves.
-/

namespace LegacyShader

/-! ## Pins as a map -/

namespace Pins

theorem get?_cons (pins : Pins) (bound name : String) (location : Nat) :
    get? ((bound, location) :: pins) name =
      if bound = name then some location else pins.get? name := by
  rw [get?, List.lookup_cons]
  by_cases h : bound = name
  · rw [h, beq_self_eq_true, if_pos rfl]
  · rw [beq_false_of_ne (Ne.symm h), if_neg h]
    rfl

/-- Removing the pins of a name does not change those of others. -/
theorem get?_filter_of_ne {bound name : String} (h : bound ≠ name) (pins : Pins) :
    get? (pins.filter fun p => p.1 != bound) name = pins.get? name := by
  induction pins with
  | nil => rfl
  | cons p pins ih =>
      obtain ⟨other, location⟩ := p
      by_cases hother : other = bound
      · rw [List.filter_cons_of_neg (by simp [hother]), ih, get?_cons, if_neg (hother ▸ h)]
      · rw [List.filter_cons_of_pos (by simp [hother]), get?_cons, get?_cons, ih]

theorem get?_insert (pins : Pins) (bound name : String) (location : Nat) :
    (pins.insert bound location).get? name =
      if bound = name then some location else pins.get? name := by
  rw [insert, get?_cons]
  by_cases h : bound = name
  · rw [if_pos h, if_pos h]
  · rw [if_neg h, if_neg h, get?_filter_of_ne h]

end Pins

/-- The location that a name is bound to last. -/
def lastBound? (binds : List (String × Nat)) (name : String) : Option Nat :=
  (binds.reverse.find? fun b => b.1 == name).map Prod.snd

theorem lastBound?_cons (b : String × Nat) (binds : List (String × Nat)) (name : String) :
    lastBound? (b :: binds) name =
      (lastBound? binds name).or (if b.1 = name then some b.2 else none) := by
  simp only [lastBound?, List.reverse_cons, List.find?_append, Option.map_or, List.find?_singleton,
    beq_iff_eq]
  split <;> rfl

/-- The pins that some bindings leave, in turn. -/
def Pins.ofBinds (binds : List (String × Nat)) : Pins :=
  binds.foldl (fun pins b => pins.insert b.1 b.2) []

/-- Binding in turn leaves the last location of each name. -/
theorem Pins.get?_ofBinds (binds : List (String × Nat)) (name : String) :
    (ofBinds binds).get? name = lastBound? binds name := by
  have h : ∀ pins : Pins,
      get? (binds.foldl (fun pins b => pins.insert b.1 b.2) pins) name =
        (lastBound? binds name).or (pins.get? name) := by
    induction binds with
    | nil => exact fun _ => rfl
    | cons b binds ih =>
        intro pins
        rw [List.foldl_cons, ih, get?_insert, lastBound?_cons, Option.or_assoc]
        split <;> simp
  rw [ofBinds, h, show get? [] name = none from rfl, Option.or_none]

/-! ## Calls -/

/-- A call on a program. -/
inductive ProgramCall where
  /-- Binds an attribute. -/
  | bind (name : String) (location : Nat)
  /-- Links the program. -/
  | link (vertex fragment : Shader)

/-- Calls that bind attributes. -/
def bindCalls (binds : List (String × Nat)) : List ProgramCall :=
  binds.map fun b => .bind b.1 b.2

/-- Calls are all to bind, or they are up to a first link. -/
theorem bindCalls_or_link (calls : List ProgramCall) :
    (∃ binds, calls = bindCalls binds) ∨
      ∃ binds vertex fragment later, calls = bindCalls binds ++ .link vertex fragment :: later := by
  induction calls with
  | nil => exact .inl ⟨[], rfl⟩
  | cons c calls ih =>
      cases c with
      | link vertex fragment => exact .inr ⟨[], vertex, fragment, calls, rfl⟩
      | bind name location =>
          obtain ⟨binds, rfl⟩ | ⟨binds, vertex, fragment, later, rfl⟩ := ih
          · exact .inl ⟨(name, location) :: binds, rfl⟩
          · exact .inr ⟨(name, location) :: binds, vertex, fragment, later, rfl⟩

/-- What a call returns. -/
inductive ProgramReply where
  /-- The result of binding. -/
  | bound (result : Except BindError Unit)
  /-- Whether the program linked. -/
  | linked (succeeded : Bool)

/-- The status of a link. -/
def LinkOutcome.status (outcome : LinkOutcome) : LinkStatus :=
  match outcome.result with
  | .ok _ => .success
  | .error e => e.status

theorem LinkError.status_ne_success (e : LinkError) : e.status ≠ .success := by
  cases e with
  | placement error => cases error <;> simp [status]
  | _ => simp [status]

theorem LinkOutcome.status_eq_success_iff {outcome : LinkOutcome} :
    outcome.status = .success ↔ ∃ linked, outcome.result = .ok linked := by
  unfold status
  cases outcome.result with
  | ok linked => simp
  | error e => simp [e.status_ne_success]

namespace Program

/-- What a call returns, and the program behind it. -/
def call (backend : Backend) (p : Program) : ProgramCall → ProgramReply × Program
  | .bind name location =>
      match p.bindAttrib name location with
      | .ok bound => (.bound (.ok ()), bound)
      | .error e => (.bound (.error e), p)
  | .link vertex fragment =>
      let outcome := p.link backend vertex fragment
      (.linked outcome.succeeded, outcome.program)

/-- The program behind a call. -/
def next (backend : Backend) (p : Program) (c : ProgramCall) : Program := (p.call backend c).2

/-- The new program of some options after some calls. -/
def after (backend : Backend) (options : LinkOptions) (calls : List ProgramCall) : Program :=
  calls.foldl (next backend) { options }

theorem after_append (backend : Backend) (options : LinkOptions) (calls more : List ProgramCall) :
    after backend options (calls ++ more) =
      more.foldl (next backend) (after backend options calls) :=
  List.foldl_append

/-! ## What a call does -/

theorem call_bind_of_status_eq_none (backend : Backend) {p : Program} (h : p.status = none)
    (name : String) (location : Nat) :
    p.call backend (.bind name location) =
      (.bound (.ok ()), { p with pins := p.pins.insert name location }) := by
  rw [call, bindAttrib, h]
  rfl

theorem call_bind_of_isSome_status (backend : Backend) {p : Program} (h : p.status.isSome)
    (name : String) (location : Nat) :
    p.call backend (.bind name location) = (.bound (.error .alreadyLinked), p) := by
  rw [call, bindAttrib, if_pos h]

theorem exists_log_logError (p : Program) (message : String) :
    ∃ log, p.logError message = { p with log := p.log ++ log } := by
  refine ⟨"error: " ++ message ++ "\n", ?_⟩
  rw [logError, appendLog, String.append_assoc]

/-- The first link leaves the status of its outcome and the linked program. -/
theorem call_link_of_status_eq_none (backend : Backend) {p : Program} (h : p.status = none)
    (vertex fragment : Shader) {outcome : LinkOutcome}
    (houtcome : LegacyShader.link backend vertex.compiled fragment.compiled p.pins p.options =
      outcome) :
    ∃ log, p.next backend (.link vertex fragment) =
      { p with
        status := some outcome.status
        linked := outcome.result.toOption.or p.linked
        log := p.log ++ log } := by
  have hcall : p.next backend (.link vertex fragment) =
      (match outcome.result with
      | .ok linked => { p with status := some .success, linked := some linked }
      | .error e => { p with status := some e.status }.logError e.message) := by
    simp only [next, call, link, h, houtcome, Option.isSome_none, Bool.false_eq_true, if_false]
    cases outcome.result <;> rfl
  rw [hcall, LinkOutcome.status]
  cases outcome.result with
  | ok linked => exact ⟨"", by rw [String.append_empty]; rfl⟩
  | error e => exact exists_log_logError { p with status := some e.status } e.message

theorem call_link_of_isSome_status (backend : Backend) {p : Program} (h : p.status.isSome)
    (vertex fragment : Shader) :
    ∃ log, p.call backend (.link vertex fragment) =
      (.linked false, { p with log := p.log ++ log }) := by
  obtain ⟨log, hlog⟩ := exists_log_logError p "program is already linked"
  exact ⟨log, by rw [call, link, if_pos h, hlog]⟩

/-- A call on a program that has its status changes nothing but the log. -/
theorem next_of_isSome_status (backend : Backend) {p : Program} (h : p.status.isSome)
    (c : ProgramCall) : ∃ log, p.next backend c = { p with log := p.log ++ log } := by
  cases c with
  | bind name location =>
      refine ⟨"", ?_⟩
      rw [next, call_bind_of_isSome_status backend h, String.append_empty]
  | link vertex fragment =>
      obtain ⟨log, hlog⟩ := call_link_of_isSome_status backend h vertex fragment
      exact ⟨log, by rw [next, hlog]⟩

/-- Neither do any number of calls. -/
theorem foldl_next_of_isSome_status (backend : Backend) {p : Program} (h : p.status.isSome)
    (calls : List ProgramCall) :
    ∃ log, calls.foldl (next backend) p = { p with log := p.log ++ log } := by
  induction calls generalizing p with
  | nil => exact ⟨"", by rw [String.append_empty]; rfl⟩
  | cons c calls ih =>
      obtain ⟨first, hfirst⟩ := next_of_isSome_status backend h c
      obtain ⟨rest, hrest⟩ := ih (p := { p with log := p.log ++ first }) h
      exact ⟨first ++ rest, by rw [List.foldl_cons, hfirst, hrest, String.append_assoc]⟩

/-- A call only adds to the log. -/
theorem exists_log_next (backend : Backend) (p : Program) (c : ProgramCall) :
    ∃ log, (p.next backend c).log = p.log ++ log := by
  cases hstatus : p.status with
  | some status =>
      obtain ⟨log, hlog⟩ := next_of_isSome_status backend (Option.isSome_of_eq_some hstatus) c
      exact ⟨log, by rw [hlog]⟩
  | none =>
      cases c with
      | bind name location =>
          refine ⟨"", ?_⟩
          rw [next, call_bind_of_status_eq_none backend hstatus, String.append_empty]
      | link vertex fragment =>
          obtain ⟨log, hlog⟩ := call_link_of_status_eq_none backend hstatus vertex fragment rfl
          exact ⟨log, by rw [hlog]⟩

/-- Each log begins with every earlier one. -/
theorem exists_log_foldl_next (backend : Backend) (p : Program) (calls : List ProgramCall) :
    ∃ log, (calls.foldl (next backend) p).log = p.log ++ log := by
  induction calls generalizing p with
  | nil => exact ⟨"", String.append_empty.symm⟩
  | cons c calls ih =>
      obtain ⟨first, hfirst⟩ := exists_log_next backend p c
      obtain ⟨rest, hrest⟩ := ih (p.next backend c)
      exact ⟨first ++ rest, by rw [List.foldl_cons, hrest, hfirst, String.append_assoc]⟩

/-- Before the first link a program collects what it is told to bind.  The induction is over
all programs without a status, since each binding leaves other pins. -/
theorem after_bindCalls (backend : Backend) (options : LinkOptions) (binds : List (String × Nat)) :
    after backend options (bindCalls binds) = { options, pins := Pins.ofBinds binds } := by
  have h : ∀ p : Program, p.status = none →
      (bindCalls binds).foldl (next backend) p =
        { p with pins := binds.foldl (fun pins b => pins.insert b.1 b.2) p.pins } := by
    induction binds with
    | nil => exact fun _ _ => rfl
    | cons b binds ih =>
        intro p hp
        rw [bindCalls, List.map_cons, List.foldl_cons, next,
          call_bind_of_status_eq_none backend hp]
        exact ih { p with pins := p.pins.insert b.1 b.2 } hp
  exact h { options } rfl

/-- The first link sets the status for good, by the pins collected so far. -/
theorem after_link (backend : Backend) (options : LinkOptions) (binds : List (String × Nat))
    (vertex fragment : Shader) (later : List ProgramCall) {outcome : LinkOutcome}
    (houtcome : LegacyShader.link backend vertex.compiled fragment.compiled (Pins.ofBinds binds)
      options = outcome) :
    ∃ log, after backend options (bindCalls binds ++ .link vertex fragment :: later) =
      { options
        pins := Pins.ofBinds binds
        status := some outcome.status
        linked := outcome.result.toOption
        log } := by
  rw [after_append, after_bindCalls, List.foldl_cons]
  obtain ⟨first, hfirst⟩ := call_link_of_status_eq_none backend
    (p := { options, pins := Pins.ofBinds binds }) rfl vertex fragment houtcome
  rw [hfirst, Option.or_none]
  exact (foldl_next_of_isSome_status backend rfl later).imp' _ fun _ h => h

/-! ## What a program shows -/

/-- A program shows nothing. -/
structure Blank (p : Program) : Prop where
  /-- It is not linked. -/
  isLinked : p.isLinked = false
  /-- It has no words. -/
  words : ∀ stage, p.words stage = []
  /-- It has no text. -/
  wgsl : ∀ stage, p.wgsl? stage = none
  /-- It has no reflection. -/
  reflection : p.reflection = .error .notLinked
  /-- All counts are zero. -/
  count : ∀ {α : Type} (entries : ProgramReflection → List α), p.count entries = 0
  /-- No entry can be told. -/
  entry : ∀ {α : Type} (entries : ProgramReflection → List α) (index : Nat),
    p.entry entries index = .error .notLinked

/-- A program shows a linked program. -/
structure Shows (p : Program) (linked : LinkedProgram) : Prop where
  /-- It is linked. -/
  isLinked : p.isLinked = true
  /-- The words of both stages. -/
  words : p.words .vertex = linked.vertex.words ∧ p.words .fragment = linked.fragment.words
  /-- The texts of both stages. -/
  wgsl : p.wgsl? .vertex = linked.vertex.wgsl ∧ p.wgsl? .fragment = linked.fragment.wgsl
  /-- The reflection. -/
  reflection : p.reflection = .ok linked.reflection

theorem blank_of_linked_eq_none {p : Program} (h : p.linked = none) : p.Blank where
  isLinked := by simp [isLinked, h]
  words := by simp [words, stage?, h]
  wgsl := by simp [wgsl?, stage?, h]
  reflection := by simp [reflection, h]
  count := by simp [count, reflection, h]
  entry := by
    intro α entries index
    rw [entry, reflection, h]
    rfl

theorem shows_of_linked_eq_some {p : Program} {linked : LinkedProgram}
    (h : p.linked = some linked) : p.Shows linked where
  isLinked := by simp [isLinked, h]
  words := by simp [words, stage?, h]
  wgsl := by simp [wgsl?, stage?, h]
  reflection := by simp [reflection, h]

/-! ## Decided programs -/

/-- A program is decided by the outcome of a link. -/
structure Decided (backend : Backend) (p : Program) (outcome : LinkOutcome) : Prop where
  /-- It has the status of the link. -/
  status : p.status = some outcome.status
  /-- It is linked exactly if that is a success. -/
  isLinked : p.isLinked = true ↔ outcome.status = .success
  /-- Then it shows what was linked. -/
  shows : ∀ linked, outcome.result = .ok linked → p.Shows linked
  /-- Otherwise it shows nothing. -/
  blank : outcome.status ≠ .success → p.Blank
  /-- Binding is refused and changes nothing. -/
  bind : ∀ name location,
    p.call backend (.bind name location) = (.bound (.error .alreadyLinked), p)
  /-- Linking is refused and changes nothing but the log. -/
  link : ∀ vertex fragment, ∃ log,
    p.call backend (.link vertex fragment) = (.linked false, { p with log := p.log ++ log })

/-- Status and linked program decide the rest. -/
theorem decided_of_status {backend : Backend} {p : Program} {outcome : LinkOutcome}
    (hstatus : p.status = some outcome.status) (hlinked : p.linked = outcome.result.toOption) :
    p.Decided backend outcome := by
  have hisSome : p.status.isSome := Option.isSome_of_eq_some hstatus
  have hshows : ∀ linked, outcome.result = .ok linked → p.Shows linked := by
    intro linked hok
    rw [hok] at hlinked
    exact shows_of_linked_eq_some hlinked
  have hblank : outcome.status ≠ .success → p.Blank := by
    intro hne
    apply blank_of_linked_eq_none
    rw [hlinked]
    cases hresult : outcome.result with
    | ok linked => exact absurd (LinkOutcome.status_eq_success_iff.mpr ⟨linked, hresult⟩) hne
    | error e => rfl
  refine ⟨hstatus, ⟨fun hp => ?_, fun hs => ?_⟩, hshows, hblank,
    call_bind_of_isSome_status backend hisSome, call_link_of_isSome_status backend hisSome⟩
  · by_contra hne
    exact Bool.false_ne_true ((hblank hne).isLinked.symm.trans hp)
  · obtain ⟨linked, hok⟩ := LinkOutcome.status_eq_success_iff.mp hs
    exact (hshows linked hok).isLinked

/-- For any sequence of calls.  Without a link among them, there is no status and nothing is
shown.  Otherwise the first link decides the program, with the last location that each name
was bound to before it, and no later call changes that.  How the pins are listed does not
matter.  Each log begins with every earlier one. -/
theorem blank_or_decided_by_first_link (backend : Backend) (options : LinkOptions)
    (calls : List ProgramCall) :
    let p := after backend options calls
    ((∃ binds, calls = bindCalls binds ∧ p.status = none ∧ p.Blank) ∨
      ∃ binds vertex fragment later,
        calls = bindCalls binds ++ .link vertex fragment :: later ∧
        (∀ name, p.pins.get? name = lastBound? binds name) ∧
        ∀ pins : Pins, (∀ name, pins.get? name = lastBound? binds name) →
          p.Decided backend
            (LegacyShader.link backend vertex.compiled fragment.compiled pins options)) ∧
    ∀ more, ∃ log, (after backend options (calls ++ more)).log = p.log ++ log := by
  intro p
  refine ⟨?_, fun more => ?_⟩
  · obtain ⟨binds, hcalls⟩ | ⟨binds, vertex, fragment, later, hcalls⟩ := bindCalls_or_link calls
    · have hp : p = _ := hcalls ▸ after_bindCalls backend options binds
      exact .inl ⟨binds, hcalls, by rw [hp], blank_of_linked_eq_none (by rw [hp])⟩
    · obtain ⟨log, hafter⟩ := after_link backend options binds vertex fragment later rfl
      have hp : p = _ := hcalls ▸ hafter
      refine .inr ⟨binds, vertex, fragment, later, hcalls, fun name => ?_, fun pins hget => ?_⟩
      · rw [hp]
        exact Pins.get?_ofBinds binds name
      · have hsame : ∀ name, pins.get? name = (Pins.ofBinds binds).get? name :=
          fun name => (hget name).trans (Pins.get?_ofBinds binds name).symm
        rw [link_congr_pins hsame]
        exact decided_of_status (by rw [hp]) (by rw [hp])
  · rw [after_append]
    exact exists_log_foldl_next backend p more

end Program

end LegacyShader
