import LegacyShader.Modern.Names
import LegacyShader.ShaderModule
import LegacyShader.ShaderType.Footprint

/-!
# Stage interfaces

The *interface* of a module is what linking works on: its located inputs and
outputs, its textures and its uniform blocks, each in the order of the module.  A
variable knows where in the module its location is written, so that a new location
can be written back.

A texture and the sampler that belongs to it are one resource, under the legacy
name that both are named after.
-/

namespace LegacyShader

/-- Where in an entry point the location of a variable is written. -/
inductive LocationSlot where
  /-- At an argument. -/
  | argument (index : Nat)
  /-- At the one result. -/
  | result
  /-- At a member of the result. -/
  | resultMember (index : Nat)
  deriving DecidableEq, Repr, Inhabited

/-- A located input or output. -/
structure InterfaceVar where
  /-- Its name. -/
  name : String
  /-- Its type. -/
  type : ShaderType
  /-- Where its location is written. -/
  slot : LocationSlot
  /-- Its location. -/
  location : Nat
  /-- Whether the shader uses it. -/
  active : Bool
  deriving Repr, Inhabited

/-- The locations that a variable occupies, at least one. -/
def InterfaceVar.footprint (v : InterfaceVar) : Nat := max v.type.footprint 1

/-- A texture or a uniform block. -/
structure ResourceVar where
  /-- Its legacy name. -/
  name : String
  /-- The index of its global. -/
  global : Nat
  /-- The index of the global of its sampler, if it has one. -/
  sampler : Option Nat
  /-- Whether the shader uses it. -/
  active : Bool
  deriving DecidableEq, Repr, Inhabited

/-- The interface of a module. -/
structure StageInterface where
  /-- The located inputs. -/
  inputs : List InterfaceVar
  /-- The located outputs. -/
  outputs : List InterfaceVar
  /-- The textures. -/
  textures : List ResourceVar
  /-- The uniform blocks. -/
  uniformBlocks : List ResourceVar
  deriving Repr, Inhabited

namespace StageInterface

/-! ## Collecting -/

/-- A variable for a decoration that is a location. -/
def located (name : Option String) (type : ShaderType) (slot : LocationSlot) (d : Decoration) :
    Option InterfaceVar :=
  d.location?.map fun number => ⟨name.getD "", type, slot, number, true⟩

/-- The located inputs of an entry point. -/
def inputsOf (e : EntryPoint) : List InterfaceVar :=
  (e.arguments.zipIdx).filterMap fun (a, i) => located a.name a.type (.argument i) a.decoration

/-- The located outputs of an entry point.  A single result has no name. -/
def outputsOf (e : EntryPoint) : List InterfaceVar :=
  match e.result with
  | .none => []
  | .value type decoration => (located none type .result decoration).toList
  | .struct members _ =>
      (members.zipIdx).filterMap fun (m, i) => located m.name m.type (.resultMember i) m.decoration

/-- The text behind a mark in front of it. -/
def afterMark? (mark name : String) : Option String :=
  if mark.toList.isPrefixOf name.toList then
    some (String.ofList (name.toList.drop mark.toList.length))
  else none

/-- The resource of a texture: under its own name, or under the legacy name with
the sampler of that name. -/
def textureOf (m : ShaderModule) (g : GlobalVariable) (index : Nat) : ResourceVar :=
  let declared := g.name.getD ""
  match afterMark? Modern.textureMark declared with
  | some name => ⟨name, index, m.globalNamed? (Modern.samplerMark ++ name), true⟩
  | none => ⟨declared, index, none, true⟩

/-- The resource of a uniform block: under its own name or that of its type. -/
def blockOf (g : GlobalVariable) (index : Nat) : ResourceVar :=
  ⟨(g.name <|> g.type.name?).getD "", index, none, true⟩

/-- The textures of a module. -/
def texturesOf (m : ShaderModule) : List ResourceVar :=
  (m.globals.zipIdx).filterMap fun (g, i) =>
    if g.space = .handle ∧ g.type.isImage then some (textureOf m g i) else none

/-- The uniform blocks of a module. -/
def blocksOf (m : ShaderModule) : List ResourceVar :=
  (m.globals.zipIdx).filterMap fun (g, i) =>
    if g.space = .uniform then some (blockOf g i) else none

/-- The interface of a module with an entry point, all of it active. -/
def collect? (m : ShaderModule) : Option StageInterface :=
  m.entry.map fun e =>
    { inputs := inputsOf e
      outputs := outputsOf e
      textures := texturesOf m
      uniformBlocks := blocksOf m }

/-! ## Activity -/

/-- Whether a located variable is used: whether its private global is. -/
def variableActive (m : ShaderModule) (v : InterfaceVar) : Bool :=
  match m.privateNamed? v.name with
  | some global => m.isUsed global
  | none => true

/-- Whether a resource is used: whether one of its globals is. -/
def resourceActive (m : ShaderModule) (r : ResourceVar) : Bool :=
  m.isUsed r.global || r.sampler.any m.isUsed

/-- The interface with only that active what the shader uses. -/
def markActivity (i : StageInterface) (m : ShaderModule) : StageInterface :=
  { inputs := i.inputs.map fun v => { v with active := variableActive m v }
    outputs := i.outputs.map fun v => { v with active := variableActive m v }
    textures := i.textures.map fun r => { r with active := resourceActive m r }
    uniformBlocks := i.uniformBlocks.map fun r => { r with active := m.isUsed r.global } }

end StageInterface

/-! ## Writing back -/

/-- Writes the location of a variable into an entry point. -/
def EntryPoint.setLocation (e : EntryPoint) (v : InterfaceVar) : EntryPoint :=
  match v.slot with
  | .argument index =>
      { e with
        arguments := e.arguments.modify index fun a =>
          { a with decoration := a.decoration.withLocation v.location } }
  | .result =>
      match e.result with
      | .value type decoration => { e with result := .value type (decoration.withLocation v.location) }
      | _ => e
  | .resultMember index =>
      match e.result with
      | .struct members span =>
          { e with
            result := .struct (members.modify index fun m =>
              { m with decoration := m.decoration.withLocation v.location }) span }
      | _ => e

/-- Writes the locations of variables into a module. -/
def ShaderModule.applyLocations (m : ShaderModule) (vars : List InterfaceVar) : ShaderModule :=
  m.mapEntry fun e => vars.foldl EntryPoint.setLocation e

/-- The group of samplers.  A texture is in group zero and shares its number with
its sampler. -/
def samplerGroup : Nat := 1

/-- Binds the globals of a resource. -/
def ShaderModule.applyBinding (m : ShaderModule) (r : ResourceVar) (binding : Nat) :
    ShaderModule :=
  let m := m.bindGlobal r.global 0 binding
  match r.sampler with
  | some sampler => m.bindGlobal sampler samplerGroup binding
  | none => m

/-! ## Provisional numbers -/

/-- Numbers variables one after the other from a location on. -/
def consecutive (start : Nat) : List InterfaceVar → List InterfaceVar
  | [] => []
  | v :: vs => { v with location := start } :: consecutive (cappedAdd start v.footprint) vs

/-- Binds resources one after the other from a number on. -/
def bindFrom (m : ShaderModule) (next : Nat) : List ResourceVar → ShaderModule
  | [] => m
  | r :: rs => bindFrom (m.applyBinding r next) (next + 1) rs

/-- Gives every input, every output that is not a fragment output, and every
resource a number of its own, so that the module is valid on its own. -/
def assignProvisional (m : ShaderModule) (i : StageInterface) : ShaderModule × StageInterface :=
  let isFragment := m.entry.any fun e => e.stage == .fragment
  let inputs := consecutive 0 i.inputs
  let outputs := if isFragment then i.outputs else consecutive 0 i.outputs
  let placed := (m.applyLocations inputs).applyLocations outputs
  (bindFrom placed 0 (i.textures ++ i.uniformBlocks), { i with inputs, outputs })

end LegacyShader
