import LegacyShader.Linker.Placement
import LegacyShader.Reflection.Stage
import LegacyShader.ShaderModule.Validation
import LegacyShader.Spirv.Interface
import LegacyShader.Wgsl

/-!
# Linking

Two compiled stages become a program: their variables are numbered, the numbers
are written into the modules, the modules are checked and written out, and the
program is reflected.

What checks and writes modules is a parameter, the *backend*.  Nothing else here
depends on how it works.
-/

namespace LegacyShader

/-! ## Options and errors -/

/-- The limits and targets of a link. -/
structure LinkOptions where
  /-- The number of attribute locations. -/
  attribCapacity : Nat := 2147483647
  /-- The number of varying locations. -/
  varyingCapacity : Nat := 2147483647
  /-- The version of the words that are written. -/
  spirvVersion : Spirv.Version := ⟨1, 0⟩
  /-- Whether WGSL is written too. -/
  emitWgsl : Bool := false
  deriving DecidableEq, Repr, Inhabited

/-- How a link ended. -/
inductive LinkStatus where
  | success
  | vertexParseFail
  | fragmentParseFail
  | unresolvedVarying
  | backendLinkFail
  deriving DecidableEq, Repr, Inhabited

/-- The name of a status. -/
def LinkStatus.name : LinkStatus → String
  | .success => "Success"
  | .vertexParseFail => "VertexParseFail"
  | .fragmentParseFail => "FragmentParseFail"
  | .unresolvedVarying => "UnresolvedVarying"
  | .backendLinkFail => "BackendLinkFail"

/-- Why a link failed. -/
inductive LinkError where
  /-- There is no compiled vertex stage. -/
  | vertexParseFail
  /-- There is no compiled fragment stage. -/
  | fragmentParseFail
  /-- A variable cannot be numbered. -/
  | placement (error : PlacementError)
  /-- A linked module is not valid. -/
  | validation (stage : Stage) (message : String)
  /-- A linked module cannot be written. -/
  | spirv (stage : Stage) (message : String)
  deriving DecidableEq, Repr, Inhabited

namespace LinkError

/-- The status of a failed link. -/
def status : LinkError → LinkStatus
  | .vertexParseFail => .vertexParseFail
  | .fragmentParseFail => .fragmentParseFail
  | .placement (.unresolvedVarying _) => .unresolvedVarying
  | _ => .backendLinkFail

/-- The text of an error. -/
def message : LinkError → String
  | .vertexParseFail => "vertex shader is not a successfully compiled vertex stage"
  | .fragmentParseFail => "fragment shader is not a successfully compiled fragment stage"
  | .placement (.unresolvedVarying name) =>
      "fragment input `" ++ name ++ "` does not match any vertex output"
  | .placement (.attribUnavailable name location) =>
      "attribute `" ++ name ++ "` cannot be placed at location " ++ toString location
  | .placement (.exhausted space name) => "no " ++ space.words ++ " left for `" ++ name ++ "`"
  | .validation stage message =>
      "linked " ++ stage.word ++ " shader failed validation: " ++ message
  | .spirv stage message =>
      "failed to emit SPIR-V for the " ++ stage.word ++ " shader: " ++ message

end LinkError

/-! ## Backends -/

/-- What checks and writes modules. -/
structure Backend where
  /-- Checks a module. -/
  validate : ShaderModule → Except String Unit
  /-- Writes a module as words. -/
  spirv : Spirv.Version → ShaderModule → Except String (List UInt32)
  /-- Writes a module as text. -/
  wgsl : ShaderModule → Except String String

/-- The backend of this library. -/
def Backend.standard : Backend :=
  ⟨fun m => m.validate.mapError (·.message), Spirv.write, Wgsl.outline⟩

/-! ## Stages -/

/-- A stage that has been compiled. -/
structure CompiledShader where
  /-- The stage. -/
  stage : Stage
  /-- Its module. -/
  shader : ShaderModule
  deriving Repr, Inhabited

/-- The interface of a compiled shader, if it is one of a stage. -/
def CompiledShader.interface? (s : CompiledShader) (stage : Stage) : Option StageInterface :=
  if s.stage = stage then
    (StageInterface.collect? s.shader).map fun i => i.markActivity s.shader
  else none

/-- A stage of a link: its module and its interface. -/
structure LinkStage where
  /-- The stage. -/
  stage : Stage
  /-- Its module. -/
  shader : ShaderModule
  /-- Its interface. -/
  interface : StageInterface
  deriving Repr, Inhabited

/-- The stage of a link that a compiled shader makes. -/
def LinkStage.ofCompiled? (shader : Option CompiledShader) (stage : Stage) : Option LinkStage := do
  let s ← shader
  let interface ← s.interface? stage
  return ⟨stage, s.shader, interface⟩

/-- The module with the locations of the interface written into it. -/
def LinkStage.patched (s : LinkStage) : ShaderModule :=
  (s.shader.applyLocations s.interface.inputs).applyLocations s.interface.outputs

/-- Two stages whose variables are numbered. -/
structure PlacedProgram where
  /-- The vertex stage. -/
  vertex : LinkStage
  /-- The fragment stage. -/
  fragment : LinkStage
  deriving Repr, Inhabited

/-- Numbers the variables of two stages. -/
def placeProgram (vertex fragment : LinkStage) (pins : Pins) (options : LinkOptions) :
    Except PlacementError PlacedProgram := do
  let inputs ← placeAttribs pins options.attribCapacity vertex.interface.inputs
  let (pool, outputs) ← placeVaryings options.varyingCapacity vertex.interface.outputs
  let fragmentInputs ← resolveInputs outputs pool fragment.interface.inputs
  let vertexInterface := { vertex.interface with inputs, outputs }
  let fragmentInterface := { fragment.interface with inputs := fragmentInputs }
  let modules ←
    placeBindings ⟨vertex.shader, fragment.shader⟩ vertexInterface fragmentInterface
  return ⟨⟨.vertex, modules.vertex, vertexInterface⟩,
    ⟨.fragment, modules.fragment, fragmentInterface⟩⟩

/-! ## Linking -/

/-- A stage that has been written out. -/
structure EmittedStage where
  /-- Its words. -/
  words : List UInt32
  /-- Its text in WGSL, if there is one. -/
  wgsl : Option String
  deriving DecidableEq, Repr, Inhabited

/-- A linked program. -/
structure LinkedProgram where
  /-- The vertex stage. -/
  vertex : EmittedStage
  /-- The fragment stage. -/
  fragment : EmittedStage
  /-- What the program takes. -/
  reflection : ProgramReflection
  deriving DecidableEq, Repr, Inhabited

/-- The outcome of a link: what it warns about, and its result. -/
structure LinkOutcome where
  /-- The warnings, in order. -/
  warnings : List String
  /-- The program, or why there is none. -/
  result : Except LinkError LinkedProgram

/-- The warning about a stage that cannot be written as WGSL. -/
def wgslWarning (stage : Stage) (message : String) : String :=
  "failed to write the " ++ stage.word ++ " shader as WGSL: " ++ message

/-- Writes a numbered stage out.  A stage that cannot be written as WGSL only
leads to a warning. -/
def emitStage (backend : Backend) (options : LinkOptions) (s : LinkStage) :
    Except LinkError (List String × EmittedStage) := do
  let shader := s.patched
  (backend.validate shader).mapError (.validation s.stage)
  let words ← (backend.spirv options.spirvVersion shader).mapError (.spirv s.stage)
  if options.emitWgsl then
    match backend.wgsl shader with
    | .ok text => return ([], ⟨words, some text⟩)
    | .error message => return ([wgslWarning s.stage message], ⟨words, none⟩)
  else return ([], ⟨words, none⟩)

/-- The reflection of a numbered program. -/
def PlacedProgram.reflection (p : PlacedProgram) : ProgramReflection :=
  (ProgramReflection.addStage {} .vertex p.vertex.patched p.vertex.interface).addStage .fragment
    p.fragment.patched p.fragment.interface

/-- Writes a numbered program out, the vertex stage first. -/
def emitProgram (backend : Backend) (options : LinkOptions) (p : PlacedProgram) : LinkOutcome :=
  match emitStage backend options p.vertex with
  | .error e => ⟨[], .error e⟩
  | .ok (vertexWarnings, vertex) =>
      match emitStage backend options p.fragment with
      | .error e => ⟨vertexWarnings, .error e⟩
      | .ok (fragmentWarnings, fragment) =>
          ⟨vertexWarnings ++ fragmentWarnings, .ok ⟨vertex, fragment, p.reflection⟩⟩

/-- Finds the two stages of a link and numbers their variables. -/
def prepareLink (vertex fragment : Option CompiledShader) (pins : Pins) (options : LinkOptions) :
    Except LinkError PlacedProgram := do
  let some vertex := LinkStage.ofCompiled? vertex .vertex | throw .vertexParseFail
  let some fragment := LinkStage.ofCompiled? fragment .fragment | throw .fragmentParseFail
  (placeProgram vertex fragment pins options).mapError .placement

/-- Links two compiled stages. -/
def link (backend : Backend) (vertex fragment : Option CompiledShader) (pins : Pins)
    (options : LinkOptions) : LinkOutcome :=
  match prepareLink vertex fragment pins options with
  | .error e => ⟨[], .error e⟩
  | .ok p => emitProgram backend options p

end LegacyShader
