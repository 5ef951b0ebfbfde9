import LegacyShader.Stage
import LegacyShader.VariableKind

/-!
# Reflections

A *reflection* tells a renderer what a linked program takes: its attributes, its
uniform blocks and its uniforms.  Entries of the vertex stage stand before those
of the fragment stage.
-/

namespace LegacyShader

/-- An attribute of a program. -/
structure AttribInfo where
  /-- Its name. -/
  name : String
  /-- Its kind. -/
  kind : VariableKind
  /-- Its location. -/
  location : UInt32
  deriving DecidableEq, Repr, Inhabited

/-- A uniform block of a program. -/
structure UniformBlockInfo where
  /-- The number it is bound to. -/
  binding : UInt32
  /-- Its size in bytes. -/
  size : UInt32
  /-- The stage it belongs to. -/
  stage : Stage
  deriving DecidableEq, Repr, Inhabited

/-- A uniform of a program. -/
structure UniformInfo where
  /-- Its name. -/
  name : String
  /-- Its kind. -/
  kind : VariableKind
  /-- The number of its elements. -/
  arraySize : UInt32
  /-- The index of its block, unless it is a texture. -/
  blockIndex : Option UInt32
  /-- Its byte offset in the block. -/
  blockOffset : UInt32
  /-- The number it is bound to, if it is a texture. -/
  binding : Option UInt32
  /-- The byte distance of its elements. -/
  arrayStride : UInt32
  /-- The byte distance of its matrix columns. -/
  matrixStride : UInt32
  /-- The stage it belongs to. -/
  stage : Stage
  deriving DecidableEq, Repr, Inhabited

/-- What a program takes. -/
structure ProgramReflection where
  /-- The attributes. -/
  attribs : List AttribInfo := []
  /-- The uniform blocks. -/
  uniformBlocks : List UniformBlockInfo := []
  /-- The uniforms. -/
  uniforms : List UniformInfo := []
  deriving DecidableEq, Repr, Inhabited

namespace ProgramReflection

/-- The attribute of a name. -/
def findAttrib? (r : ProgramReflection) (name : String) : Option AttribInfo :=
  r.attribs.find? fun a => a.name == name

/-- The uniform of a name. -/
def findUniform? (r : ProgramReflection) (name : String) : Option UniformInfo :=
  r.uniforms.find? fun u => u.name == name

/-- The uniforms of a block. -/
def blockUniforms (r : ProgramReflection) (index : UInt32) : List UniformInfo :=
  r.uniforms.filter fun u => u.blockIndex == some index

end ProgramReflection

end LegacyShader
