import LegacyShader.AddressSpace
import LegacyShader.Code.Node
import LegacyShader.ShaderType
import LegacyShader.Stage

/-!
# Shader modules

A *module* is one compiled stage.  It has global variables, functions, and an
entry point with the inputs and outputs of the stage.  Most steps ask only which
globals a function reads or writes and which functions it calls.  The code itself is
kept for the check that a module is valid.

Every input and output also has a private global of the same name.  The entry
point copies inputs into their globals, calls `main`, and copies the globals of
the outputs back.
-/

namespace LegacyShader

/-- A value that the pipeline provides or takes without a location. -/
inductive BuiltIn where
  | position
  | viewIndex
  | clipDistance
  | cullDistance
  | instanceIndex
  | pointSize
  | vertexIndex
  | baseInstance
  | baseVertex
  | fragDepth
  | pointCoord
  | frontFacing
  | primitiveIndex
  | sampleIndex
  | sampleMask
  | globalInvocationId
  | localInvocationId
  | localInvocationIndex
  | workGroupId
  | workGroupSize
  | numWorkGroups
  deriving DecidableEq, Repr, Inhabited

/-- The name of a built-in value in messages. -/
def BuiltIn.name : BuiltIn → String
  | .position => "Position"
  | .viewIndex => "ViewIndex"
  | .clipDistance => "ClipDistance"
  | .cullDistance => "CullDistance"
  | .instanceIndex => "InstanceIndex"
  | .pointSize => "PointSize"
  | .vertexIndex => "VertexIndex"
  | .baseInstance => "BaseInstance"
  | .baseVertex => "BaseVertex"
  | .fragDepth => "FragDepth"
  | .pointCoord => "PointCoord"
  | .frontFacing => "FrontFacing"
  | .primitiveIndex => "PrimitiveIndex"
  | .sampleIndex => "SampleIndex"
  | .sampleMask => "SampleMask"
  | .globalInvocationId => "GlobalInvocationId"
  | .localInvocationId => "LocalInvocationId"
  | .localInvocationIndex => "LocalInvocationIndex"
  | .workGroupId => "WorkGroupId"
  | .workGroupSize => "WorkGroupSize"
  | .numWorkGroups => "NumWorkGroups"

/-- What connects an input or output with the rest of the pipeline. -/
inductive Decoration where
  /-- A numbered location. -/
  | location (number : Nat)
  /-- A built-in value. -/
  | builtIn (value : BuiltIn)
  deriving DecidableEq, Repr, Inhabited

namespace Decoration

/-- The number of a location. -/
def location? : Decoration → Option Nat
  | .location number => some number
  | .builtIn _ => none

/-- The decoration with another location, if it is one. -/
def withLocation (number : Nat) : Decoration → Decoration
  | .location _ => .location number
  | .builtIn value => .builtIn value

end Decoration

/-- The group and the number by which a resource is bound. -/
structure ResourceBinding where
  /-- The group. -/
  group : Nat
  /-- The number in the group. -/
  binding : Nat
  deriving DecidableEq, Repr, Inhabited

/-- A global variable. -/
structure GlobalVariable where
  /-- Its name, if it has one. -/
  name : Option String
  /-- Its type. -/
  type : ShaderType
  /-- Where it lives. -/
  space : AddressSpace
  /-- How it is bound, if it is a resource. -/
  binding : Option ResourceBinding
  deriving Repr, Inhabited

/-- How a value between the stages is found for a fragment. -/
inductive Interpolation where
  /-- As its type asks for: numbers with a fraction are interpolated, others are not. -/
  | byType
  /-- It is not interpolated. -/
  | flat
  /-- It is interpolated. -/
  | smooth
  deriving DecidableEq, Repr, Inhabited

/-- An input of an entry point. -/
structure EntryArgument where
  /-- Its name, if it has one. -/
  name : Option String
  /-- Its type. -/
  type : ShaderType
  /-- Where it comes from. -/
  decoration : Decoration
  /-- How it is found for a fragment. -/
  interpolation : Interpolation := .byType
  deriving Repr, Inhabited

/-- One output among several of an entry point. -/
structure ResultMember where
  /-- Its name, if it has one. -/
  name : Option String
  /-- Its type. -/
  type : ShaderType
  /-- Its byte offset in the result. -/
  offset : Nat
  /-- Where it goes to. -/
  decoration : Decoration
  /-- How it is found for a fragment. -/
  interpolation : Interpolation := .byType
  deriving Repr, Inhabited

/-- What an entry point returns. -/
inductive EntryResult where
  /-- Nothing. -/
  | none
  /-- One output. -/
  | value (type : ShaderType) (decoration : Decoration)
  /-- Several outputs as one struct of `span` bytes. -/
  | struct (members : List ResultMember) (span : Nat)
  deriving Repr, Inhabited

/-- A function, as far as most steps ask about it. -/
structure ShaderFunction where
  /-- Its name. -/
  name : String
  /-- The globals that it reads or writes itself, by index. -/
  touched : List Nat
  /-- The globals that it asks for their size itself, by index. -/
  asked : List Nat
  /-- The functions that it calls itself, by index. -/
  calls : List Nat
  deriving Repr, Inhabited

/-- The entry point of a stage. -/
structure EntryPoint where
  /-- The stage. -/
  stage : Stage
  /-- The inputs. -/
  arguments : List EntryArgument
  /-- The outputs. -/
  result : EntryResult
  /-- What the entry point does itself. -/
  body : ShaderFunction
  /-- Whether fragments are tested before the stage runs. -/
  earlyTests : Bool := false
  /-- The size of a group of invocations, which only stages without a pipeline have. -/
  groupSize : Nat × Nat × Nat := (0, 0, 0)
  deriving Repr, Inhabited

/-- The code of a module. -/
structure ModuleCode where
  /-- The types and constants. -/
  definitions : Code.Definitions := {}
  /-- The nodes with the first values of the globals that have one, by index. -/
  initializers : List (Nat × Code.Ref) := []
  /-- The functions other than the entry point. -/
  functions : List Code.Function := []
  /-- The entry point. -/
  entry : Option Code.Function := none
  deriving Repr, Inhabited

/-- A compiled stage. -/
structure ShaderModule where
  /-- The global variables. -/
  globals : List GlobalVariable
  /-- The functions other than the entry point. -/
  functions : List ShaderFunction
  /-- The entry point, if there is one. -/
  entry : Option EntryPoint
  /-- The code, as far as it is known. -/
  code : ModuleCode := {}
  deriving Repr, Inhabited

namespace ShaderModule

/-! ## Lookup -/

/-- The first global that satisfies a test. -/
def findGlobal? (m : ShaderModule) (test : GlobalVariable → Bool) : Option Nat :=
  m.globals.findIdx? test

/-- The first global of a name. -/
def globalNamed? (m : ShaderModule) (name : String) : Option Nat :=
  m.findGlobal? fun g => g.name == some name

/-- The first private global of a name. -/
def privateNamed? (m : ShaderModule) (name : String) : Option Nat :=
  m.findGlobal? fun g => g.space == .perInvocation && g.name == some name

/-- The first function of a name. -/
def functionNamed? (m : ShaderModule) (name : String) : Option ShaderFunction :=
  m.functions.find? fun f => f.name == name

/-- The type of a global. -/
def globalType? (m : ShaderModule) (index : Nat) : Option ShaderType :=
  (m.globals[index]?).map (·.type)

/-- How a global is bound. -/
def binding? (m : ShaderModule) (index : Nat) : Option ResourceBinding :=
  (m.globals[index]?).bind (·.binding)

/-! ## Use of globals -/

/-- The functions that some functions call, directly or in at most `steps` more
calls, by index. -/
def reachable (m : ShaderModule) : Nat → List Nat → List Nat
  | 0, seen => seen
  | steps + 1, seen =>
      let called := seen.flatMap fun i => ((m.functions[i]?).map (·.calls)).getD []
      reachable m steps (seen ++ called.filter fun i => !seen.contains i)

/-- All functions that a function calls, directly or not. -/
def callees (m : ShaderModule) (f : ShaderFunction) : List ShaderFunction :=
  (m.reachable m.functions.length f.calls).filterMap fun i => m.functions[i]?

/-- Whether a function reads or writes a global, itself or through a call. -/
def uses (m : ShaderModule) (f : ShaderFunction) (global : Nat) : Bool :=
  (f :: m.callees f).any fun g => g.touched.contains global

/-- Whether a function reads, writes or asks a global, itself or through a call. -/
def mentions (m : ShaderModule) (f : ShaderFunction) (global : Nat) : Bool :=
  m.uses f global || (f :: m.callees f).any fun g => g.asked.contains global

/-- The function whose uses of globals count: `main`, or the entry point if there
is no function of that name. -/
def mainFunction? (m : ShaderModule) : Option ShaderFunction :=
  m.functionNamed? "main" <|> m.entry.map (·.body)

/-- Whether a global is in use. -/
def isUsed (m : ShaderModule) (global : Nat) : Bool :=
  m.mainFunction?.any fun f => m.uses f global

/-! ## Changes -/

/-- The module with one of its globals bound. -/
def bindGlobal (m : ShaderModule) (index group binding : Nat) : ShaderModule :=
  { m with globals := m.globals.modify index fun g => { g with binding := some ⟨group, binding⟩ } }

/-- The module with a change to its entry point. -/
def mapEntry (m : ShaderModule) (f : EntryPoint → EntryPoint) : ShaderModule :=
  { m with entry := m.entry.map f }

end ShaderModule

end LegacyShader
