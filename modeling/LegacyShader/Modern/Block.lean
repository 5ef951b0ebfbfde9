import LegacyShader.Modern.Names
import LegacyShader.Modern.UniformDecl

/-!
# The uniform block

Modern source has no loose uniforms.  They become the members of one block, in
the order of their declarations, which takes the place of the last of them.  The
other declarations vanish, and those of textures move to the preamble.
-/

namespace LegacyShader.Modern

/-- The type that stores a matrix of two columns with the column stride of the
block layout. -/
def mat2Storage : String := "mat2x4"

/-- The member of the block that stores a uniform. -/
def memberText (d : UniformDecl) : List Char :=
  if d.isMat2 then mat2Storage.toList ++ ' ' :: mat2Mark.toList ++ d.name
  else d.type ++ ' ' :: d.name ++ d.suffix

/-- The line of a uniform in the block. -/
def memberLine (d : UniformDecl) : List Char := '\t' :: memberText d ++ [';', '\n']

/-- The block of some uniforms, or nothing if there are none. -/
def blockText (stage : Stage) (loose : List UniformDecl) : List Char :=
  if loose.isEmpty then []
  else
    ("layout(std140, binding = 0) uniform " ++ blockName stage ++ "\n\x7b\n").toList ++
      loose.flatMap memberLine ++ "\x7d;\n".toList

/-- Puts a block in place of the last loose declaration and removes the others.
`text` starts at the offset `start`. -/
def spliceFrom (block : List Char) (start : Nat) (text : List Char) :
    List UniformDecl → List Char
  | [] => text
  | d :: rest =>
      let isLast := !d.isOpaque && rest.all (·.isOpaque)
      text.take (d.offset - start) ++ (if isLast then block else []) ++
        spliceFrom block d.stop (text.drop (d.stop - start)) rest

/-- The source with its declarations replaced by the block. -/
def spliceDecls (source : List Char) (decls : List UniformDecl) (stage : Stage) : List Char :=
  spliceFrom (blockText stage (decls.filter (!·.isOpaque))) 0 source decls

end LegacyShader.Modern
