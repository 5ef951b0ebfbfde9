import LegacyShader.Modern.Names
import LegacyShader.Modern.UniformDecl

/-!
# The preamble

What stands in front of modernized source: the version, the textures and
samplers, and macros that give legacy words a modern meaning.
-/

namespace LegacyShader.Modern

/-- The version of the shading language that is written. -/
def targetVersion : Nat := 450

/-- Legacy sampling functions and their modern counterparts. -/
def samplingMacros : List (String × String) :=
  [("texture2D", "texture"), ("texture2DLod", "textureLod"), ("texture2DProj", "textureProj"),
    ("textureCube", "texture"), ("textureCubeLod", "textureLod")]

/-- The line that defines a macro. -/
def defineLine (name meaning : List Char) : List Char :=
  "#define ".toList ++ name ++ ' ' :: meaning ++ ['\n']

/-- The texture type of a combined sampler. -/
def textureType (d : UniformDecl) : String :=
  if d.type = "samplerCube".toList then "textureCube" else "texture2D"

/-- The lines that declare the two halves of a combined sampler. -/
def pairLines (d : UniformDecl) : List Char :=
  ("layout(set = 0, binding = 0) uniform " ++ textureType d ++ " " ++ textureMark).toList ++
    d.name ++ ";\n".toList ++
    ("layout(set = 1, binding = 0) uniform sampler " ++ samplerMark).toList ++
    d.name ++ ";\n".toList

/-- The line that joins the two halves under the legacy name. -/
def pairMacro (d : UniformDecl) : List Char :=
  defineLine d.name
    (d.type ++ '(' :: textureMark.toList ++ d.name ++ ", ".toList ++ samplerMark.toList ++ d.name ++
      [')'])

/-- The line that reads a stored matrix under the legacy name. -/
def mat2Macro (d : UniformDecl) : List Char :=
  defineLine d.name ("mat2(".toList ++ mat2Mark.toList ++ d.name ++ [')'])

/-- The lines that depend on the stage. -/
def stageLines : Stage → List Char
  | .vertex =>
      ("#define attribute layout(location = 0) in\n" ++
        "#define varying layout(location = 0) out\n").toList
  | .fragment =>
      ("#define varying layout(location = 0) in\n" ++
        "#define gl_FragColor " ++ colorOutput ++ "\n" ++
        "layout(location = 0) out vec4 " ++ colorOutput ++ ";\n").toList

/-- The preamble for the uniforms of a stage.  The pairs come first, since the
words of their types are macros further down. -/
def preamble (stage : Stage) (decls : List UniformDecl) : List Char :=
  let opaques := decls.filter (·.isOpaque)
  let loose := decls.filter (!·.isOpaque)
  ("#version " ++ toString targetVersion ++ "\n").toList ++
    opaques.flatMap pairLines ++
    samplingMacros.flatMap (fun (legacy, modern) => defineLine legacy.toList modern.toList) ++
    stageLines stage ++
    opaques.flatMap pairMacro ++
    (loose.filter (·.isMat2)).flatMap mat2Macro

end LegacyShader.Modern
