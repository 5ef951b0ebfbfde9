import LegacyShader.Glsl.Module
import LegacyShader.Linker
import LegacyShader.Modern.Modernize

/-!
# Shaders

A *shader* is a unit of compilation for one stage.  It is compiled once: the first
call decides its stage, its module and its modern source, and later calls only
leave a line in its log.

What reads and checks modern source is a parameter, the *front end*.
-/

namespace LegacyShader

/-! ## Errors -/

/-- Why a shader does not compile. -/
inductive CompileError where
  /-- It has been compiled before. -/
  | alreadyCompiled
  /-- It cannot be modernized. -/
  | modernize (stage : Stage) (error : Modern.PreprocessError)
  /-- Its modern source cannot be read. -/
  | parse (stage : Stage) (report : String)
  /-- It has no entry point. -/
  | missingEntryPoint (stage : Stage)
  /-- Its module is not valid. -/
  | validation (stage : Stage) (message : String)
  deriving DecidableEq, Repr, Inhabited

/-- The text of an error. -/
def CompileError.message : CompileError → String
  | .alreadyCompiled => "shader is already compiled"
  | .modernize stage error => "failed to translate " ++ stage.word ++ " shader: " ++ error.message
  | .parse stage report => "failed to parse " ++ stage.word ++ " shader:\n" ++ report
  | .missingEntryPoint stage => stage.word ++ " shader has no entry point"
  | .validation stage message => stage.word ++ " shader failed validation: " ++ message

/-! ## Front ends -/

/-- What reads and checks modern source. -/
structure FrontEnd where
  /-- Reads a source, or reports on it. -/
  parse : Stage → List Char → Except String ShaderModule
  /-- Checks a module. -/
  validate : ShaderModule → Except String Unit

/-- The front end of this library. -/
def FrontEnd.standard : FrontEnd :=
  ⟨fun stage source => (Glsl.compile stage source).mapError (Glsl.report source),
    fun m => m.validate.mapError (·.message)⟩

/-- Compiles modern source.  Locations and bindings are provisional until a link
gives the final ones. -/
def compileModern (front : FrontEnd) (stage : Stage) (source : List Char) :
    Except CompileError CompiledShader := do
  let parsed ← (front.parse stage source).mapError (.parse stage)
  let some interface := StageInterface.collect? parsed | throw (.missingEntryPoint stage)
  let (shader, _) := assignProvisional parsed interface
  (front.validate shader).mapError (.validation stage)
  return ⟨stage, shader⟩

/-! ## Shaders -/

/-- A shader. -/
structure Shader where
  /-- Its stage, once it has been compiled. -/
  stage : Option Stage := none
  /-- Its compiled form, if it compiled. -/
  compiled : Option CompiledShader := none
  /-- Its modern source, once there is one. -/
  modernSource : List Char := []
  /-- What has been logged, one message per line. -/
  log : String := ""
  deriving Repr, Inhabited

/-- The outcome of compiling. -/
structure CompileOutcome where
  /-- Whether the shader compiled. -/
  succeeded : Bool
  /-- The shader afterwards. -/
  shader : Shader
  /-- The warnings, in order. -/
  warnings : List String := []
  deriving Repr, Inhabited

/-- A log with one more message. -/
def appendLog (log message : String) : String := log ++ message ++ "\n"

namespace Shader

/-- Whether a shader compiled. -/
def isCompiled (s : Shader) : Bool := s.compiled.isSome

/-- The shader with one more message. -/
def append (s : Shader) (message : String) : Shader := { s with log := appendLog s.log message }

/-- The shader with an error logged. -/
def logError (s : Shader) (e : CompileError) : Shader := s.append ("error: " ++ e.message)

/-- The shader with a limitation logged. -/
def logLimitation (s : Shader) (l : Modern.Limitation) : Shader :=
  s.append ("warning: " ++ l.message)

/-- The warning about a limitation. -/
def limitationWarning (stage : Stage) (l : Modern.Limitation) : String :=
  stage.word ++ " shader: " ++ l.message

/-- Compiles the modern form of a shader. -/
def compileModernized (front : FrontEnd) (s : Shader) (stage : Stage) (m : Modern.Modernized) :
    Bool × Shader :=
  let s := { m.limitations.foldl logLimitation s with modernSource := m.source }
  match compileModern front stage m.source with
  | .ok c => (true, { s with compiled := some c })
  | .error e => (false, s.logError e)

/-- Compiles a legacy source for a stage. -/
def compile (front : FrontEnd) (s : Shader) (stage : Stage) (source : List Char) : CompileOutcome :=
  if s.stage.isSome then ⟨false, s.append CompileError.alreadyCompiled.message, []⟩
  else
    let s := { s with stage := some stage }
    match Modern.modernize source stage with
    | .error e => ⟨false, s.logError (.modernize stage e), []⟩
    | .ok m =>
        let (succeeded, s) := compileModernized front s stage m
        ⟨succeeded, s, m.limitations.map (limitationWarning stage)⟩

end Shader

end LegacyShader
