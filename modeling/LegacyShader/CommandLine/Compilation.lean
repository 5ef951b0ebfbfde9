import LegacyShader.CommandLine.Arguments
import LegacyShader.CommandLine.Failure
import LegacyShader.CommandLine.Metadata
import LegacyShader.Program
import LegacyShader.ProgramFile
import LegacyShader.Reflection.Json

/-!
# Compilation

A compilation has two halves.  The first turns the texts that were found into a
*product*, a linked program and where it goes, and only adds to the log.  The second
is the list of steps that deliver a product, the files to write among them.  So no
file is written unless there is a product.
-/

namespace LegacyShader.CommandLine

/-- The path of the output, unless one is given. -/
def CompileArguments.outputPath (a : CompileArguments) (workingDirectory : Path) : Path :=
  a.output.getD (workingDirectory.child "program.res".toList)

/-- What is found where the arguments point to. -/
structure Findings where
  /-- The path of the working directory. -/
  workingDirectory : Path
  /-- Whether anything is at the path of the output. -/
  outputIsThere : Bool
  /-- The text of the metadata. -/
  metadata : Except FileError (List Char)
  /-- The text of the vertex shader. -/
  vertex : Except FileError (List Char)
  /-- The text of the fragment shader. -/
  fragment : Except FileError (List Char)

/-- A linked program and where it goes. -/
structure Product where
  /-- The program. -/
  program : LinkedProgram
  /-- The path of the program file. -/
  output : Path
  /-- The path of the reflection, if it shall be written. -/
  reflection : Option Path
  /-- Whether the stages shall be written in WGSL too. -/
  emitWgsl : Bool
  deriving Repr, Inhabited

/-! ## The product -/

/-- A computation that adds to the log and may fail. -/
abbrev Logged := EStateM Failure (List Record)

/-- Adds a record to the log. -/
def record (level : Level) (message : String) : Logged Unit :=
  modify (· ++ [⟨level, message⟩])

/-- Warns about the output, if its path is not given or something is there. -/
def warnOfOutput (a : CompileArguments) (found : Findings) : Logged Unit := do
  let path := marked (a.outputPath found.workingDirectory)
  if a.output.isNone then
    record .warn ("the output path is not specified, defaulting to " ++ path ++ ".")
  if found.outputIsThere then
    record .warn ("the output path " ++ path ++ " already exists, it will be overwritten.")

/-- The metadata of a vertex shader, the default where there is none. -/
def readMetadata (vertex : Path) (text : Except FileError (List Char)) : Logged Metadata := do
  let path := metadataPath vertex
  match text with
  | .error .notFound => return {}
  | .error e =>
      record .warn ("failed to read the metadata " ++ marked path ++ ": " ++ e.message)
      return {}
  | .ok text =>
      match Metadata.parse text with
      | .ok m => return m
      | .error e => throw (.metadata path e)

/-- Compiles the shader at a path. -/
def compileShader (front : FrontEnd) (stage : Stage) (path : Path)
    (source : Except FileError (List Char)) : Logged Shader := do
  match source with
  | .error e => throw (.read stage path e)
  | .ok source =>
      let outcome := Shader.compile front {} stage source
      outcome.warnings.forM (record .warn)
      if outcome.succeeded then return outcome.shader
      else throw (.compile stage path outcome.shader.log)

/-- Links two shaders. -/
def linkShaders (backend : Backend) (a : CompileArguments) (program : Program)
    (vertex fragment : Shader) : Logged LinkedProgram := do
  let outcome := program.link backend vertex fragment
  outcome.warnings.forM (record .warn)
  match outcome.program.linked with
  | some linked => return linked
  | none => throw (.link a.vertex a.fragment outcome.program.status outcome.program.log)

/-- The record about a linked program. -/
def linkedMessage (r : ProgramReflection) : String :=
  "linked: " ++ toString r.attribs.length ++ " attrib(s), " ++
    toString r.uniformBlocks.length ++ " uniform block(s), " ++
    toString r.uniforms.length ++ " uniform(s)."

/-- Makes the product that the arguments ask for. -/
def makeProduct (front : FrontEnd) (backend : Backend) (a : CompileArguments)
    (found : Findings) : Logged Product := do
  record .info "compiling program."
  warnOfOutput a found
  let metadata ← readMetadata a.vertex found.metadata
  let emitWgsl := a.emitWgsl || metadata.emitWgsl
  let vertex ← compileShader front .vertex a.vertex found.vertex
  let fragment ← compileShader front .fragment a.fragment found.fragment
  let program ← linkShaders backend a
    { options := { emitWgsl }, pins := metadata.attribLocations } vertex fragment
  record .info (linkedMessage program.reflection)
  return ⟨program, a.outputPath found.workingDirectory, a.reflection, emitWgsl⟩

/-! ## The delivery -/

/-- A step of a delivery. -/
inductive Step where
  /-- A record for the log. -/
  | log (record : Record)
  /-- A file to store. -/
  | store (purpose : Purpose) (path : Path) (bytes : List UInt8)
  deriving DecidableEq, Repr, Inhabited

namespace Product

/-- A stage of the program. -/
def stage (p : Product) : Stage → EmittedStage
  | .vertex => p.program.vertex
  | .fragment => p.program.fragment

/-- The extension of the file of a stage in WGSL. -/
def wgslExtension : Stage → List Char
  | .vertex => "vert.wgsl".toList
  | .fragment => "frag.wgsl".toList

/-- The path of a stage in WGSL. -/
def wgslPath (p : Product) (stage : Stage) : Path :=
  p.output.withExtension (wgslExtension stage)

/-- The program file. -/
def file (p : Product) : ProgramFile :=
  ⟨.v1, p.program.vertex.words, p.program.fragment.words, p.program.reflection⟩

/-- The steps that deliver the reflection. -/
def reflectionSteps (p : Product) : List Step :=
  match p.reflection with
  | some path => [.store .reflection path (Text.encodeUtf8 p.program.reflection.pretty)]
  | none => []

/-- The step that delivers a stage in WGSL. -/
def wgslStep (p : Product) (stage : Stage) : Step :=
  match (p.stage stage).wgsl with
  | some text => .store (.wgsl stage) (p.wgslPath stage) (Text.encodeUtf8 text.toList)
  | none => .log ⟨.warn, "no WGSL was produced for the " ++ stage.word ++ " shader."⟩

/-- The steps that deliver the stages in WGSL. -/
def wgslSteps (p : Product) : List Step :=
  if p.emitWgsl then Stage.all.map p.wgslStep else []

/-- The number of bytes of a stage. -/
def byteCount (p : Product) (stage : Stage) : Nat := 4 * (p.stage stage).words.length

/-- The record about a delivered product. -/
def finishedMessage (p : Product) : String :=
  "compilation finished (" ++ toString (p.byteCount .vertex) ++ " + " ++
    toString (p.byteCount .fragment) ++ " bytes of SPIR-V)."

/-- The steps that deliver a product. -/
def steps (p : Product) : List Step :=
  p.reflectionSteps ++ p.wgslSteps ++
    [.store .programFile p.output p.file.encode, .log ⟨.info, p.finishedMessage⟩]

end Product

end LegacyShader.CommandLine
