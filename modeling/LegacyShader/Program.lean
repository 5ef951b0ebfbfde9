import LegacyShader.Shader

/-!
# Programs

A *program* is a unit of linking for a vertex and a fragment shader.  Attributes are
bound to locations first, and then the program is linked once.  The first link
decides its status for good: later bindings are refused, and later links only leave
a line in its log.
-/

namespace LegacyShader

/-! ## Errors -/

/-- Why an attribute cannot be bound. -/
inductive BindError where
  /-- The program has been linked. -/
  | alreadyLinked
  deriving DecidableEq, Repr, Inhabited

/-- The text of an error. -/
def BindError.message : BindError → String
  | .alreadyLinked => "attribute locations cannot change after the program is linked"

/-- Why something about a program cannot be told. -/
inductive AccessError where
  /-- The program has not been linked, or not with success. -/
  | notLinked
  /-- There are not so many entries. -/
  | indexOutOfRange (index count : Nat)
  deriving DecidableEq, Repr, Inhabited

/-- The text of an error. -/
def AccessError.message : AccessError → String
  | .notLinked => "program is not linked"
  | .indexOutOfRange index count =>
      "index " ++ toString index ++ " is out of range; " ++ toString count ++ " entries available"

/-! ## Programs -/

/-- A program. -/
structure Program where
  /-- The limits and targets of its link. -/
  options : LinkOptions := {}
  /-- The attributes that are bound to locations. -/
  pins : Pins := []
  /-- How its link ended, once it has been linked. -/
  status : Option LinkStatus := none
  /-- The linked program, if the link succeeded. -/
  linked : Option LinkedProgram := none
  /-- What has been logged, one message per line. -/
  log : String := ""
  deriving Repr, Inhabited

/-- The outcome of a call to link a program. -/
structure ProgramLink where
  /-- Whether the program linked. -/
  succeeded : Bool
  /-- The program afterwards. -/
  program : Program
  /-- The warnings, in order. -/
  warnings : List String := []
  deriving Repr, Inhabited

namespace Program

/-- Whether a program is linked. -/
def isLinked (p : Program) : Bool := p.linked.isSome

/-- The program with an error logged. -/
def logError (p : Program) (message : String) : Program :=
  { p with log := appendLog p.log ("error: " ++ message) }

/-- Binds an attribute to a location for the link to come. -/
def bindAttrib (p : Program) (name : String) (location : Nat) : Except BindError Program :=
  if p.status.isSome then .error .alreadyLinked
  else .ok { p with pins := p.pins.insert name location }

/-- Links a program. -/
def link (backend : Backend) (p : Program) (vertex fragment : Shader) : ProgramLink :=
  if p.status.isSome then ⟨false, p.logError "program is already linked", []⟩
  else
    let outcome := LegacyShader.link backend vertex.compiled fragment.compiled p.pins p.options
    match outcome.result with
    | .ok linked =>
        ⟨true, { p with status := some .success, linked := some linked }, outcome.warnings⟩
    | .error e =>
        ⟨false, { p with status := some e.status }.logError e.message, outcome.warnings⟩

/-! ## Stages -/

/-- A linked stage. -/
def stage? (p : Program) (stage : Stage) : Option EmittedStage :=
  p.linked.map fun l =>
    match stage with
    | .vertex => l.vertex
    | .fragment => l.fragment

/-- The words of a stage, none unless the program is linked. -/
def words (p : Program) (stage : Stage) : List UInt32 := ((p.stage? stage).map (·.words)).getD []

/-- The text of a stage in WGSL, if there is one. -/
def wgsl? (p : Program) (stage : Stage) : Option String := (p.stage? stage).bind (·.wgsl)

/-! ## Reflection -/

/-- What a linked program takes. -/
def reflection (p : Program) : Except AccessError ProgramReflection :=
  match p.linked with
  | some l => .ok l.reflection
  | none => .error .notLinked

/-- The number of entries of a list of the reflection, zero unless the program is
linked. -/
def count {α : Type} (p : Program) (entries : ProgramReflection → List α) : Nat :=
  match p.reflection with
  | .ok r => (entries r).length
  | .error _ => 0

/-- An entry of a list of the reflection. -/
def entry {α : Type} (p : Program) (entries : ProgramReflection → List α) (index : Nat) :
    Except AccessError α := do
  let all := entries (← p.reflection)
  match all[index]? with
  | some a => return a
  | none => throw (.indexOutOfRange index all.length)

/-- The number of active attributes. -/
def attribCount (p : Program) : Nat := p.count (·.attribs)

/-- The number of active uniform blocks. -/
def uniformBlockCount (p : Program) : Nat := p.count (·.uniformBlocks)

/-- The number of active uniforms. -/
def uniformCount (p : Program) : Nat := p.count (·.uniforms)

/-- An active attribute. -/
def attrib (p : Program) (index : Nat) : Except AccessError AttribInfo := p.entry (·.attribs) index

/-- An active uniform block. -/
def uniformBlock (p : Program) (index : Nat) : Except AccessError UniformBlockInfo :=
  p.entry (·.uniformBlocks) index

/-- An active uniform. -/
def uniform (p : Program) (index : Nat) : Except AccessError UniformInfo :=
  p.entry (·.uniforms) index

end Program

end LegacyShader
