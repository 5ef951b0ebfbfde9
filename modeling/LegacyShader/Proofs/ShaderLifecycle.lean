import LegacyShader.Shader

/-!
# The life of a shader

A shader takes calls to compile a source for a stage.  The first call modernizes the
source and hands the modern form to the front end, and either may turn it down.
`FrontEnd.Judges` says what the front end makes of a modern source, and `Shader.Settled`
what the first call leaves of a new shader in each of the ways it can end.

Whichever way that was, the shader has its stage from then on and refuses every later
call.  A refused call leaves one line in the log and nothing else
(`foldl_next_of_isSome_stage`), so the first call decides what a shader shows
(`settled_by_first_compile`).
-/

namespace LegacyShader

/-! ## Logs -/

/-- The log of some messages, a line for each. -/
def logOf : List String → String
  | [] => ""
  | message :: messages => message ++ "\n" ++ logOf messages

theorem append_logOf_cons (log message : String) (messages : List String) :
    log ++ logOf (message :: messages) = appendLog log message ++ logOf messages := by
  simp only [logOf, appendLog, String.append_assoc]

/-- The log of messages is made of the logs of its parts. -/
theorem logOf_append (messages more : List String) :
    logOf (messages ++ more) = logOf messages ++ logOf more := by
  induction messages with
  | nil => exact String.empty_append.symm
  | cons message messages ih => simp only [List.cons_append, logOf, ih, String.append_assoc]

/-! ## The front end -/

/-- What a front end makes of a modern source: it cannot read it, finds no entry point in
it, refuses its module under provisional numbers, or passes that module. -/
inductive FrontEnd.Judges (front : FrontEnd) (stage : Stage) (source : List Char) :
    Except CompileError CompiledShader → Prop
  | unreadable {report : String} : front.parse stage source = .error report →
      Judges front stage source (.error (.parse stage report))
  | noEntry {m : ShaderModule} : front.parse stage source = .ok m →
      StageInterface.collect? m = none →
      Judges front stage source (.error (.missingEntryPoint stage))
  | invalid {m : ShaderModule} {i : StageInterface} {message : String} :
      front.parse stage source = .ok m → StageInterface.collect? m = some i →
      front.validate (assignProvisional m i).1 = .error message →
      Judges front stage source (.error (.validation stage message))
  | valid {m : ShaderModule} {i : StageInterface} : front.parse stage source = .ok m →
      StageInterface.collect? m = some i → front.validate (assignProvisional m i).1 = .ok () →
      Judges front stage source (.ok ⟨stage, (assignProvisional m i).1⟩)

section

variable {ε ε' α β : Type}

theorem ok_mapError_bind (a : α) (f : ε → ε') (k : α → Except ε' β) :
    ((Except.ok a).mapError f >>= k) = k a := rfl

theorem error_mapError_bind (e : ε) (f : ε → ε') (k : α → Except ε' β) :
    ((Except.error e).mapError f >>= k) = .error (f e) := rfl

end

/-- The front end judges a source by the first of its steps that fails. -/
theorem FrontEnd.judges_compileModern (front : FrontEnd) (stage : Stage) (source : List Char) :
    front.Judges stage source (compileModern front stage source) := by
  rw [compileModern]
  cases hparse : front.parse stage source with
  | error report =>
      rw [error_mapError_bind]
      exact .unreadable hparse
  | ok m =>
      rw [ok_mapError_bind]
      cases hcollect : StageInterface.collect? m with
      | none => exact .noEntry hparse hcollect
      | some i =>
          show front.Judges stage source
            ((front.validate (assignProvisional m i).1).mapError (.validation stage) >>= fun _ =>
              .ok ⟨stage, (assignProvisional m i).1⟩)
          cases hvalidate : front.validate (assignProvisional m i).1 with
          | error message =>
              rw [error_mapError_bind]
              exact .invalid hparse hcollect hvalidate
          | ok _ =>
              rw [ok_mapError_bind]
              exact .valid hparse hcollect hvalidate

/-! ## Calls -/

/-- A call to compile a shader. -/
structure CompileCall where
  /-- The stage to compile for. -/
  stage : Stage
  /-- The legacy source. -/
  source : List Char

namespace Shader

/-- The shader behind a call. -/
def next (front : FrontEnd) (s : Shader) (c : CompileCall) : Shader :=
  (s.compile front c.stage c.source).shader

/-- What calls return, in turn. -/
def replies (front : FrontEnd) : Shader → List CompileCall → List Bool
  | _, [] => []
  | s, c :: calls =>
      (s.compile front c.stage c.source).succeeded :: replies front (s.next front c) calls

/-- The new shader after some calls. -/
def after (front : FrontEnd) (calls : List CompileCall) : Shader := calls.foldl (next front) {}

/-! ## The first call -/

/-- The messages about the limitations of a modern source. -/
def limitationMessages (m : Modern.Modernized) : List String :=
  m.limitations.map fun l => "warning: " ++ l.message

/-- The message about an error. -/
def errorMessage (e : CompileError) : String := "error: " ++ e.message

/-- What the first call returns and leaves of a new shader.  A source that cannot be
modernized leaves no modern source.  One that the front end turns down does, and its
limitations are logged before the error.  Only one that passes has a module. -/
inductive Settled (front : FrontEnd) (c : CompileCall) : Bool → Shader → Prop
  | unmodernized {e : Modern.PreprocessError} : Modern.modernize c.source c.stage = .error e →
      Settled front c false
        { stage := some c.stage, log := logOf [errorMessage (.modernize c.stage e)] }
  | rejected {m : Modern.Modernized} {e : CompileError} :
      Modern.modernize c.source c.stage = .ok m → front.Judges c.stage m.source (.error e) →
      Settled front c false
        { stage := some c.stage
          modernSource := m.source
          log := logOf (limitationMessages m ++ [errorMessage e]) }
  | accepted {m : Modern.Modernized} {compiled : CompiledShader} :
      Modern.modernize c.source c.stage = .ok m →
      front.Judges c.stage m.source (.ok compiled) →
      Settled front c true
        { stage := some c.stage
          compiled := some compiled
          modernSource := m.source
          log := logOf (limitationMessages m) }

/-- Each limitation adds a warning to the log, in order. -/
theorem foldl_logLimitation (s : Shader) (limitations : List Modern.Limitation) :
    limitations.foldl logLimitation s =
      { s with log := s.log ++ logOf (limitations.map fun l => "warning: " ++ l.message) } := by
  induction limitations generalizing s with
  | nil => simp [logOf]
  | cons l limitations ih =>
      rw [List.foldl_cons, ih, List.map_cons, append_logOf_cons]
      rfl

/-- The first call settles the shader. -/
theorem settled_compile (front : FrontEnd) (c : CompileCall) :
    Settled front c (compile front {} c.stage c.source).succeeded (next front {} c) := by
  unfold next compile
  cases hmodernize : Modern.modernize c.source c.stage with
  | error e =>
      have h : Settled front c false _ := .unmodernized hmodernize
      simpa [logError, append, logOf, appendLog, errorMessage] using h
  | ok m =>
      have hjudges := front.judges_compileModern c.stage m.source
      simp only [compileModernized, foldl_logLimitation]
      cases hcompile : compileModern front c.stage m.source with
      | error e =>
          rw [hcompile] at hjudges
          have h : Settled front c false _ := .rejected hmodernize hjudges
          simpa [logError, append, logOf_append, logOf, appendLog, errorMessage,
            limitationMessages, String.append_assoc] using h
      | ok compiled =>
          rw [hcompile] at hjudges
          have h : Settled front c true _ := .accepted hmodernize hjudges
          simpa [limitationMessages] using h

section

variable {front : FrontEnd} {c : CompileCall} {succeeded : Bool} {s : Shader}

theorem Settled.stage (h : Settled front c succeeded s) : s.stage = some c.stage := by
  cases h <;> rfl

theorem Settled.isCompiled (h : Settled front c succeeded s) : s.isCompiled = succeeded := by
  cases h <;> rfl

/-- The module of a shader is one of its stage. -/
theorem Settled.stage_compiled (h : Settled front c succeeded s) {compiled : CompiledShader}
    (hcompiled : s.compiled = some compiled) : s.stage = some compiled.stage := by
  cases h with
  | unmodernized => cases hcompiled
  | rejected => cases hcompiled
  | accepted _ hjudges =>
      cases hcompiled
      cases hjudges
      rfl

end

/-! ## Later calls -/

/-- The message about a call that is refused. -/
def refusal : String := CompileError.alreadyCompiled.message

/-- A later call is refused and leaves only a message. -/
theorem compile_of_isSome_stage (front : FrontEnd) {s : Shader} (h : s.stage.isSome)
    (c : CompileCall) :
    s.compile front c.stage c.source = ⟨false, { s with log := appendLog s.log refusal }, []⟩ := by
  rw [compile, if_pos h]
  rfl

/-- Calls on a shader that has its stage are refused, and leave a line each. -/
theorem foldl_next_of_isSome_stage (front : FrontEnd) {s : Shader} (h : s.stage.isSome)
    (calls : List CompileCall) :
    replies front s calls = List.replicate calls.length false ∧
      calls.foldl (next front) s =
        { s with log := s.log ++ logOf (List.replicate calls.length refusal) } := by
  induction calls generalizing s with
  | nil => simp [replies, logOf]
  | cons c calls ih =>
      have hcall := compile_of_isSome_stage front h c
      obtain ⟨hreplies, hshader⟩ := ih (s := { s with log := appendLog s.log refusal }) h
      constructor
      · simp only [replies, next, hcall, hreplies, List.length_cons, List.replicate_succ]
      · simp only [List.foldl_cons, next, hcall, List.length_cons, List.replicate_succ,
          append_logOf_cons]
        exact hshader

/-! ## All calls -/

/-- For any sequence of calls.  The first one settles the shader in one of three ways.
Every later one is refused and adds one line to the log, and nothing else changes.  So
the shader is compiled exactly if the first call said so, and then its module is one of
its stage. -/
theorem settled_by_first_compile (front : FrontEnd) (first : CompileCall)
    (later : List CompileCall) :
    let s := after front (first :: later)
    ∃ succeeded once, Settled front first succeeded once ∧
      replies front {} (first :: later) = succeeded :: List.replicate later.length false ∧
      s = { once with log := once.log ++ logOf (List.replicate later.length refusal) } ∧
      s.stage = some first.stage ∧ s.isCompiled = succeeded ∧
      (∀ compiled, s.compiled = some compiled → s.stage = some compiled.stage) ∧
      ∀ c : CompileCall, s.compile front c.stage c.source =
        ⟨false, { s with log := s.log ++ logOf [refusal] }, []⟩ := by
  intro s
  have hsettled := settled_compile front first
  have hstage : (next front {} first).stage.isSome := by simp [hsettled.stage]
  obtain ⟨hreplies, hshader⟩ := foldl_next_of_isSome_stage front hstage later
  have hs : s = _ := hshader
  refine ⟨_, _, hsettled, ?_, hs, ?_, ?_, ?_, ?_⟩
  · rw [replies, hreplies]
  · rw [hs]
    exact hsettled.stage
  · rw [hs]
    exact hsettled.isCompiled
  · rw [hs]
    exact fun _ hcompiled => hsettled.stage_compiled hcompiled
  · intro c
    have hisSome : s.stage.isSome := by
      rw [hs]
      exact hstage
    rw [compile_of_isSome_stage front hisSome, append_logOf_cons, logOf, String.append_empty]

end Shader

end LegacyShader
