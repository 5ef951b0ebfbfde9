import LegacyShader.Reflection.Flatten

/-!
# Reflecting a stage

The part of a reflection that one linked stage contributes: its active textures,
its first active uniform block with all members, and the active attributes of a
vertex stage.
-/

namespace LegacyShader

namespace ProgramReflection

/-- The entry of a texture. -/
def textureUniform (stage : Stage) (m : ShaderModule) (r : ResourceVar) : UniformInfo :=
  { name := r.name
    kind := ((m.globalType? r.global).map VariableKind.ofType).getD .unknown
    arraySize := 1
    blockIndex := none
    blockOffset := 0
    binding := (m.binding? r.global).map fun b => b.binding.toUInt32
    arrayStride := 0
    matrixStride := 0
    stage }

/-- The entry of an attribute. -/
def attribOf (v : InterfaceVar) : AttribInfo :=
  ⟨v.name, .ofType v.type, v.location.toUInt32⟩

/-- Adds the textures of a stage. -/
def addTextures (r : ProgramReflection) (stage : Stage) (m : ShaderModule)
    (i : StageInterface) : ProgramReflection :=
  { r with
    uniforms := r.uniforms ++ (i.textures.filter (·.active)).map (textureUniform stage m) }

/-- Adds the first active block of a stage with its members. -/
def addBlock (r : ProgramReflection) (stage : Stage) (m : ShaderModule) (i : StageInterface) :
    ProgramReflection :=
  match i.uniformBlocks.find? (·.active) with
  | none => r
  | some block =>
      match m.globalType? block.global with
      | some (.struct _ members span) =>
          let index := r.uniformBlocks.length
          let binding := (m.binding? block.global).elim 0 fun b => b.binding.toUInt32
          let info : UniformBlockInfo := ⟨binding, span.toUInt32, stage⟩
          { r with
            uniformBlocks := r.uniformBlocks ++ [info]
            uniforms := r.uniforms ++
              (FlatMember.ofMembers "" 0 members).map fun f => f.toUniform stage index }
      | _ => r

/-- Adds the attributes of a vertex stage. -/
def addAttribs (r : ProgramReflection) (stage : Stage) (i : StageInterface) :
    ProgramReflection :=
  if stage = .vertex then
    { r with attribs := r.attribs ++ (i.inputs.filter (·.active)).map attribOf }
  else r

/-- Adds what a linked stage contributes. -/
def addStage (r : ProgramReflection) (stage : Stage) (m : ShaderModule) (i : StageInterface) :
    ProgramReflection :=
  ((r.addTextures stage m i).addBlock stage m i).addAttribs stage i

end ProgramReflection

end LegacyShader
