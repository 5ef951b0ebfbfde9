import LegacyShader.Code.ConstantValidity
import LegacyShader.ShaderModule

/-!
# Valid modules

A module is checked before it is used and again after linking.  Types have to exist, constants
have to have their types, and globals have to fit the place they live in.  The nodes and
statements of functions have to go together.  The inputs and outputs of an entry point have to
be of types that stages can exchange, no two of them may share a location, and built-in values
belong to certain stages.  A vertex stage has to write a position.  The resources that an entry
point mentions have different bindings.

A module whose code is not known is checked without it.
-/

namespace LegacyShader

/-- What is wrong with a module. -/
inductive ValidationError where
  /-- A reference leads nowhere. -/
  | reference (bad : Code.BadReference)
  /-- A type cannot exist. -/
  | type (index : Nat) (name : String)
  /-- A node of the constants is none of a constant. -/
  | constantNode (index : Nat)
  /-- A constant does not have its type. -/
  | constant (index : Nat) (name : String)
  /-- A global does not fit the place it lives in. -/
  | globalVariable (index : Nat) (name : String)
  /-- The code of a function does not go together. -/
  | function (index : Nat) (name : String)
  /-- The entry point is not one of its stage. -/
  | entryPoint (stage : Stage)
  deriving DecidableEq, Repr, Inhabited

/-- The text of an error about something with a number and a name. -/
def invalidShown (what : String) (index : Nat) (name : String) : String :=
  what ++ " " ++ numberShown index ++ " '" ++ name ++ "' is invalid"

/-- The text of an error. -/
def ValidationError.message : ValidationError → String
  | .reference bad => bad.message
  | .type index name => invalidShown "Type" index name
  | .constantNode index => "Constant expression " ++ numberShown index ++ " is invalid"
  | .constant index name => invalidShown "Constant" index name
  | .globalVariable index name => invalidShown "Global variable" index name
  | .function index name => invalidShown "Function" index name
  | .entryPoint stage => "Entry point main at " ++ stage.name ++ " is invalid"

/-! ## Globals -/

/-- Whether a global fits the place it lives in. -/
def GlobalVariable.isValid (g : GlobalVariable) : Bool :=
  match g.space with
  | .handle =>
      g.binding.isSome &&
        match g.type with
        | .image .. | .sampler _ => true
        | _ => false
  | .uniform =>
      g.binding.isSome && g.type.hostShareable && g.type.constructible &&
        g.type.uniformAlignment?.isSome
  | .storage load store =>
      g.binding.isSome && g.type.isData && g.type.hostShareable && (load || !store)
  | .pushConstant => g.binding.isNone && g.type.constructible && g.type.hostShareable
  | .workGroup => g.binding.isNone && g.type.isData && g.type.isSized
  | .perInvocation => g.binding.isNone && g.type.constructible
  | .function => false

/-! ## Inputs and outputs -/

/-- Whether a built-in value belongs to the inputs, or the outputs, of a stage. -/
def BuiltIn.belongsTo (stage : Stage) (output : Bool) : BuiltIn → Bool
  | .vertexIndex | .instanceIndex | .baseVertex | .baseInstance => stage == .vertex && !output
  | .pointSize | .clipDistance | .cullDistance => stage == .vertex && output
  | .position => (stage == .vertex && output) || (stage == .fragment && !output)
  | .fragDepth => stage == .fragment && output
  | .pointCoord | .frontFacing | .primitiveIndex | .sampleIndex => stage == .fragment && !output
  | .sampleMask => stage == .fragment
  | .viewIndex => !output
  | .globalInvocationId | .localInvocationId | .localInvocationIndex | .workGroupId
  | .workGroupSize | .numWorkGroups => false

/-- An input or output, as far as its validity asks. -/
structure Varying where
  /-- Its type. -/
  type : ShaderType
  /-- How it is connected. -/
  decoration : Decoration
  /-- How it is found for a fragment. -/
  interpolation : Interpolation := .byType
  deriving Repr, Inhabited

namespace Varying

/-- Whether only whole numbers would be interpolated. -/
def isStepped (v : Varying) : Bool :=
  match v.type with
  | .scalar s | .vector _ s => s.kind != .float
  | _ => false

/-- Whether an input or output can be one of a stage.  Between the stages whole numbers are not
interpolated. -/
def isValid (stage : Stage) (output : Bool) (v : Varying) : Bool :=
  match v.decoration with
  | .location _ =>
      let between := output == (stage == .vertex)
      v.type.interfaceShareable && !(between && v.isStepped && v.interpolation == .smooth)
  | .builtIn value => value.belongsTo stage output

end Varying

/-- The outputs of an entry point. -/
def EntryResult.outputs : EntryResult → List Varying
  | .none => []
  | .value type decoration => [{ type, decoration }]
  | .struct members _ => members.map fun m => ⟨m.type, m.decoration, m.interpolation⟩

/-- The inputs of an entry point. -/
def EntryPoint.inputs (e : EntryPoint) : List Varying :=
  e.arguments.map fun a => ⟨a.type, a.decoration, a.interpolation⟩

/-- Whether the inputs, or the outputs, of a stage are valid together: each one
is, and no decoration occurs twice. -/
def validVaryings (stage : Stage) (output : Bool) (vars : List Varying) : Bool :=
  vars.all (·.isValid stage output) && decide (vars.map (·.decoration)).Nodup

/-- Whether a vertex stage writes a position. -/
def EntryPoint.writesPosition (e : EntryPoint) : Bool :=
  e.stage != .vertex || (e.result.outputs.map (·.decoration)).contains (.builtIn .position)

/-- Whether the settings of an entry point are those of its stage: only fragments are tested,
and there are no groups of invocations. -/
def EntryPoint.validSettings (e : EntryPoint) : Bool :=
  (!e.earlyTests || e.stage == .fragment) && e.groupSize == (0, 0, 0)

/-- The globals that an entry point mentions, with their numbers. -/
def ShaderModule.mentioned (m : ShaderModule) (e : EntryPoint) : List (GlobalVariable × Nat) :=
  m.globals.zipIdx.filter fun (_, i) => m.mentions e.body i

/-- Whether the globals that an entry point mentions go together: those that it uses can be read,
no two share a binding, and there is at most one block that comes with each command. -/
def ShaderModule.validMentions (m : ShaderModule) (e : EntryPoint) : Bool :=
  let globals := m.mentioned e
  (globals.all fun (g, i) => g.space.readable || !m.uses e.body i) &&
    decide (globals.filterMap fun (g, _) => g.binding).Nodup &&
    decide ((globals.filter fun (g, _) => g.space == .pushConstant).length ≤ 1)

/-- Whether an entry point is one of its stage. -/
def ShaderModule.validEntry (m : ShaderModule) (e : EntryPoint) : Bool :=
  e.validSettings && validVaryings e.stage false e.inputs &&
    validVaryings e.stage true e.result.outputs && e.writesPosition && m.validMentions e

/-! ## Code -/

/-- The name of a type, which only structs have. -/
def ShaderType.nameShown : ShaderType → String
  | .struct name _ _ => name.getD ""
  | _ => ""

/-- An error for the first element of a list that fails a test. -/
def firstFailing? {α : Type} (as : List α) (test : α → Bool) (error : Nat → α → ValidationError) :
    Option ValidationError :=
  (as.zipIdx.find? fun (a, _) => !test a).map fun (a, i) => error i a

namespace ModuleCode

/-- The first bad reference.  The entry point comes first. -/
def badReference? (c : ModuleCode) : Option ValidationError :=
  (c.entry.bind (·.badReference? none) <|>
    c.functions.zipIdx.findSome? fun (f, i) => f.badReference? (some i)).map .reference

/-- The first type that cannot exist. -/
def invalidType? (c : ModuleCode) : Option ValidationError :=
  firstFailing? c.definitions.types.toList (·.isValid) fun i type => .type i type.nameShown

/-- The first constant, or node of one, that is not valid. -/
def invalidConstant? (c : ModuleCode) (types : Array Code.NodeType) : Option ValidationError :=
  firstFailing? c.definitions.nodes.toList (·.isConstant types) (fun i _ => .constantNode i) <|>
    firstFailing? c.definitions.constants.toList (·.isValid types) fun i k => .constant i k.name

/-- Whether the first value of a global has its type. -/
def validInitializer (c : ModuleCode) (types : Array Code.NodeType) (g : GlobalVariable)
    (index : Nat) : Bool :=
  (c.initializers.lookup index).all fun r =>
    types[r]?.any fun t => t.equivalent (.ofType g.type)

end ModuleCode

/-! ## Modules -/

namespace ShaderModule

/-- The first global that is not valid. -/
def invalidGlobal? (m : ShaderModule) (types : Array Code.NodeType) : Option ValidationError :=
  (m.globals.zipIdx.find? fun (g, i) =>
    !(g.isValid && m.code.validInitializer types g i)).map fun (g, i) =>
      .globalVariable i (g.name.getD "")

/-- The module as the check of its functions sees it. -/
def checked (m : ShaderModule) (types : Array Code.NodeType) : Code.CheckedModule :=
  ⟨m.code.definitions, types, (m.globals.map fun g => (g.type, g.space)).toArray,
    m.code.functions.toArray⟩

/-- The stages in which each function can run, behind some functions for which they are
known. -/
def functionStages (m : ShaderModule) (c : Code.CheckedModule) (known : Array StageSet) :
    List Code.Function → Except ValidationError (Array StageSet)
  | [] => .ok known
  | f :: fs =>
      match c.functionStages? known f with
      | some stages => m.functionStages c (known.push stages) fs
      | none =>
          .error (.function known.size (((m.functions[known.size]?).map (·.name)).getD ""))

/-- Whether the code of the entry point goes together and can run in a stage. -/
def validEntryCode (m : ShaderModule) (c : Code.CheckedModule) (known : Array StageSet)
    (stage : Stage) : Bool :=
  m.code.entry.all fun f => (c.functionStages? known f).any (·.contains stage)

/-- Checks the functions and the entry point. -/
def validateCode (m : ShaderModule) (types : Array Code.NodeType) : Except ValidationError Unit := do
  let c := m.checked types
  let known ← m.functionStages c #[] m.code.functions
  match m.entry with
  | some e =>
      if m.validEntryCode c known e.stage && m.validEntry e then return
      else throw (.entryPoint e.stage)
  | none => return

/-- Fails with an error, if there is one. -/
def rejectIf (e : Option ValidationError) : Except ValidationError Unit :=
  match e with
  | some e => .error e
  | none => .ok ()

/-- Checks a module. -/
def validate (m : ShaderModule) : Except ValidationError Unit := do
  rejectIf m.code.badReference?
  rejectIf m.code.invalidType?
  let types ← match m.code.definitions.nodeTypes with
    | .ok types => pure types
    | .error r => throw (.constantNode r)
  rejectIf (m.code.invalidConstant? types)
  rejectIf (m.invalidGlobal? types)
  m.validateCode types

end ShaderModule

end LegacyShader
