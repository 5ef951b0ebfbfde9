import LegacyShader.Glsl.Draft

/-!
# Writing code

Steps that write the code of the body: nodes and their types, conversions,
statements and blocks, and the names of globals.

Names of globals mean nodes of their own in each body, so a new body starts with the
nodes of all globals that have been declared.  A constant is read in a body of its
own, whose nodes for globals still stand among those of the function.
-/

namespace LegacyShader.Glsl

open Code (LocalVariable Node NodeType Ref Statement Workbench)

/-! ## Nodes -/

/-- Adds a node that comes from a place. -/
def add (n : Node) (place : Place) : Read Ref := do
  let r ← modifyGet fun d =>
    let (r, body) := d.body.add n place
    (r, { d with body })
  match r with
  | .ok r => return r
  | .error e => fail (.folding e) place

/-- Notes a type. -/
def intern (type : ShaderType) : Read Unit := modifyBench (·.withType type)

/-- The types of all nodes of the list that is written to. -/
def growTypes (place : Place) : Read (Array NodeType) := do
  let d ← get
  let b := d.body
  let before := if b.bench.constant then b.constantTypes else b.types
  let nodes := b.bench.current
  let new := nodes.extract before.size nodes.size
  match Code.extendTypes d.surroundings before new.toList with
  | .error e => fail (.typing e) place
  | .ok types =>
      modifyBody fun b =>
        if b.bench.constant then { b with constantTypes := types } else { b with types }
      return types

/-- The type of a node. -/
def typeOf (r : Ref) (place : Place) : Read NodeType := do
  let b ← body
  let known := if b.bench.constant then b.constantTypes else b.types
  match known[r]? with
  | some type => return type
  | none =>
      match (← growTypes place)[r]? with
      | some type => return type
      | none => fail (.typing .missing) place

/-- The node of a number in the list that is written to. -/
def nodeAt? (r : Ref) : Read (Option Node) := return (← body).bench.node? r

/-- The type of a node as a type of variables. -/
def plainType (t : NodeType) : ShaderType :=
  match t with
  | .value type => type
  | .pointer base _ => .pointer base
  | .component size s _ => .pointer (Code.sizedType size s)

/-! ## Conversions -/

/-- The scalar that a node is made of. -/
def scalarOf (r : Ref) (place : Place) : Read (Option Scalar) :=
  return (← typeOf r place).componentScalar?

/-- Converts a node. -/
def convert (r : Ref) (place : Place) (s : Scalar) : Read Ref :=
  add (.cast r s.kind (some s.width)) place

/-- Converts a node to a scalar of higher rank. -/
def raise (r : Ref) (place : Place) (s : Scalar) : Read Ref := do
  match ← scalarOf r place with
  | some t => if t.convertsTo s then convert r place s else return r
  | none => return r

/-- Converts a node to the scalar of a type, if that is of higher rank. -/
def raiseToType (r : Ref) (place : Place) (type : ShaderType) : Read Ref :=
  match type.scalar? with
  | some s => raise r place s
  | none => return r

/-- Converts a node to another scalar. -/
def force (r : Ref) (place : Place) (s : Scalar) : Read Ref := do
  match ← scalarOf r place with
  | some t => if t = s then return r else convert r place s
  | none => return r

/-- Converts the one of two nodes that has the lower rank. -/
def balance (left : Ref) (leftPlace : Place) (right : Ref) (rightPlace : Place) :
    Read (Ref × Ref) := do
  match ← scalarOf left leftPlace, ← scalarOf right rightPlace with
  | some s, some t =>
      if s.convertsTo t then return (← convert left leftPlace t, right)
      else if t.convertsTo s then return (left, ← convert right rightPlace s)
      else return (left, right)
  | _, _ => return (left, right)

/-- Spreads a scalar over a vector, if there is one. -/
def spread (r : Ref) (place : Place) (size : Option VectorSize) : Read Ref := do
  match ← typeOf r place, size with
  | .value (.scalar _), some n => add (.splat n r) place
  | _, _ => return r

/-- The first components of a vector. -/
def resize (size : VectorSize) (vector : Ref) (place : Place) : Read Ref :=
  add (.swizzle size vector [0, 1, 2, 3]) place

/-! ## Statements -/

/-- Writes the statement for the pending nodes, and starts with new ones. -/
def flush : Read Unit := modifyBench (·.flush)

/-- Adds a statement. -/
def push (s : Statement) : Read Unit := modifyBench (·.push s)

/-- Adds a statement behind the pending nodes. -/
def pushBehind (s : Statement) : Read Unit := do
  flush
  push s

/-- Writes into another block, and gives what it becomes. -/
def inBlock {α : Type} (block : Array Statement) (write : Read α) :
    Read (Array Statement × α) := do
  flush
  let outer := (← body).bench.block
  modifyBench fun w => { w with block }
  let a ← write
  flush
  let done := (← body).bench.block
  modifyBench fun w => { w with block := outer }
  return (done, a)

/-- Adds a local variable without a name, and gives its node. -/
def addLocal (type : ShaderType) (init : Option Ref) (place : Place) : Read Ref := do
  let index := (← body).locals.size
  modifyBody fun b => { b with locals := b.locals.push ⟨type, init⟩ }
  add (.localVariable index) place

/-- Stores a value.  Of a vector whose components have been chosen, each one is
stored on its own. -/
def store (pointer value : Ref) (place : Place) : Read Unit := do
  match ← nodeAt? pointer with
  | some (.swizzle size vector pattern) => do
      let vector := match ← nodeAt? vector with
        | some (.load inner) => inner
        | _ => vector
      for (component, i) in (pattern.take size.count).zipIdx do
        let target ← add (.accessIndex vector component) place
        let source ← add (.accessIndex value i) place
        pushBehind (.store target source)
  | _ => pushBehind (.store pointer value)

/-! ## Names of globals -/

/-- Whether an array has a length that is not known. -/
def isUnsized : ShaderType → Bool
  | .array _ none _ => true
  | _ => false

/-- Whether a member of a global has to be loaded from memory. -/
def memberIsStored (type : ShaderType) (member : Nat) : Bool :=
  match type with
  | .struct _ members _ => !(members[member]?.any fun m => isUnsized m.type)
  | _ => true

/-- What a global name stands for in the body. -/
def GlobalName.meaning (n : GlobalName) : Read Variable := do
  let d ← get
  match n.target with
  | .whole index =>
      let node ← add (.globalVariable index) none
      let stored := d.globals[index]?.any fun g => g.space != .handle
      return { node, stored, writable := n.writable }
  | .member index member =>
      let base ← add (.globalVariable index) none
      let node ← add (.accessIndex base member) none
      let stored := d.globals[index]?.all fun g => memberIsStored g.type member
      return { node, stored, writable := n.writable }
  | .constant index type =>
      let node ← add (.constant index) none
      return { node, stored := false, writable := n.writable, constant := some (index, type) }

/-- Declares a global name in the body. -/
def GlobalName.declare (n : GlobalName) : Read Unit := do
  let v ← n.meaning
  modifyBody fun b => b.declare n.name v

/-- Declares a global name. -/
def declareGlobal (n : GlobalName) : Read Unit := do
  modify fun d => { d with names := d.names.push n }
  n.declare

/-! ## Bodies -/

/-- Reads with a new body, and gives that body too. -/
def withNewBody {α : Type} (constant : Bool) (read : Read α) : Read (α × Body) := do
  let d ← get
  let outer := d.body
  let fresh : Workbench := { definitions := outer.bench.definitions }
  modifyBody fun _ => { bench := fresh.startPending }
  d.names.forM fun n => n.declare
  modifyBench fun w => { w with constant }
  let a ← read
  let inner ← body
  modifyBody fun _ =>
    { outer with bench := { outer.bench with definitions := inner.bench.definitions } }
  return (a, inner)

/-- Reads a constant. -/
def inConstant {α : Type} (read : Read α) : Read α := return (← withNewBody true read).1

/-- Reads with the body marked as a constant, or not. -/
def readingConstant {α : Type} (constant : Bool) (read : Read α) : Read α := do
  let before := (← body).bench.constant
  modifyBench fun w => { w with constant }
  let a ← read
  modifyBench fun w => { w with constant := before }
  return a

/-! ## Built-in values -/

/-- A built-in value of a name: its type, what it is, and whether it is an
output. -/
def builtInValue? : String → Option (ShaderType × BuiltIn × Bool)
  | "gl_Position" => some (.vector .four .f32, .position, true)
  | "gl_FragCoord" => some (.vector .four .f32, .position, false)
  | "gl_PointCoord" => some (.vector .two .f32, .pointCoord, false)
  | "gl_FrontFacing" => some (.scalar .bool, .frontFacing, false)
  | "gl_PointSize" => some (.scalar .f32, .pointSize, true)
  | "gl_FragDepth" => some (.scalar .f32, .fragDepth, true)
  | "gl_ClipDistance" => some (.array (.scalar .f32) none 4, .clipDistance, true)
  | "gl_CullDistance" => some (.array (.scalar .f32) none 4, .cullDistance, true)
  | "gl_BaseVertex" => some (.scalar .u32, .baseVertex, false)
  | "gl_BaseInstance" => some (.scalar .u32, .baseInstance, false)
  | "gl_PrimitiveID" => some (.scalar .u32, .primitiveIndex, false)
  | "gl_InstanceIndex" => some (.scalar .u32, .instanceIndex, false)
  | "gl_VertexIndex" => some (.scalar .u32, .vertexIndex, false)
  | "gl_SampleID" => some (.scalar .u32, .sampleIndex, false)
  | "gl_LocalInvocationIndex" => some (.scalar .u32, .localInvocationIndex, false)
  | "gl_GlobalInvocationID" => some (.vector .three .u32, .globalInvocationId, false)
  | "gl_NumWorkGroups" => some (.vector .three .u32, .numWorkGroups, false)
  | "gl_WorkGroupSize" => some (.vector .three .u32, .workGroupSize, false)
  | "gl_WorkGroupID" => some (.vector .three .u32, .workGroupId, false)
  | "gl_LocalInvocationID" => some (.vector .three .u32, .localInvocationId, false)
  | _ => none

/-- Whether a built-in value that is an output can be written in a stage.  Distances can be
written only for vertices. -/
def writableIn (stage : Stage) : BuiltIn → Bool
  | .clipDistance | .cullDistance => stage == .vertex
  | _ => true

/-- Notes the types of a built-in value. -/
def internBuiltIn (type : ShaderType) : Read Unit := do
  match type with
  | .array base _ _ => intern base
  | _ => pure ()
  intern type

/-- What a name stands for.  The first mention of a built-in value declares it. -/
def lookupVariable? (name : String) (place : Place) : Read (Option Variable) := do
  match (← body).lookup? name with
  | some v => return some v
  | none =>
      match builtInValue? name with
      | none => return none
      | some (type, value, output) =>
          internBuiltIn type
          let global ← addGlobal ⟨some name, type, .perInvocation, none⟩
          addInterface { name := none, decoration := .builtIn value, global, output }
          let writable := output && writableIn (← get).stage value
          modify fun d => { d with names := d.names.push ⟨name, .whole global, writable⟩ }
          let node ← add (.globalVariable global) place
          let v : Variable := { node, stored := true, writable }
          modifyBody fun b => b.declareOutside name v
          return some v

end LegacyShader.Glsl
