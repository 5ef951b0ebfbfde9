import LegacyShader.ShaderType

/-!
# Type words

The names of the types that need no declaration.  Most are put together from a
letter for the scalar, a stem (`vec`, `mat`, `texture` or `image`) and a size.
What stands behind a second stem in one word does not count.
-/

namespace LegacyShader.Glsl

/-! ## Words in parts -/

/-- What stands in front of a stem, and behind it if the stem occurs. -/
def cutAt (stem : List Char) : List Char → List Char × Option (List Char)
  | [] => ([], none)
  | c :: cs =>
      if stem.isPrefixOf (c :: cs) then ([], some ((c :: cs).drop stem.length))
      else ((c :: (cutAt stem cs).1), (cutAt stem cs).2)

/-- The parts of a word around a stem. -/
def partsAround? (stem : String) (word : List Char) : Option (String × String) :=
  match cutAt stem.toList word with
  | (front, some rest) => some (String.ofList front, String.ofList (cutAt stem.toList rest).1)
  | (_, none) => none

/-- The scalar of a letter. -/
def scalarOf? : String → Option Scalar
  | "" => some .f32
  | "b" => some .bool
  | "i" => some .i32
  | "u" => some .u32
  | "d" => some .f64
  | _ => none

/-- The kind of texel of a letter. -/
def texelOf? : String → Option ScalarKind
  | "" => some .float
  | "i" => some .sint
  | "u" => some .uint
  | _ => none

/-- The size of a digit. -/
def sizeOf? : Char → Option VectorSize
  | '2' => some .two
  | '3' => some .three
  | '4' => some .four
  | _ => none

/-- The columns and rows of a matrix size. -/
def matrixSize? (size : String) : Option (VectorSize × VectorSize) :=
  match size.toList with
  | [c] => (sizeOf? c).map fun n => (n, n)
  | [c, 'x', r] => do
      let columns ← sizeOf? c
      let rows ← sizeOf? r
      return (columns, rows)
  | _ => none

/-- The shape of an image, and whether it has layers. -/
def imageShape? : String → Option (ImageDim × Bool)
  | "1D" => some (.d1, false)
  | "1DArray" => some (.d1, true)
  | "2D" => some (.d2, false)
  | "2DArray" => some (.d2, true)
  | "3D" => some (.d3, false)
  | "Cube" => some (.cube, false)
  | "CubeArray" => some (.cube, true)
  | _ => none

/-! ## Types -/

/-- The vector type of a word. -/
def vectorWord? (word : List Char) : Option ShaderType := do
  let (letter, size) ← partsAround? "vec" word
  let scalar ← scalarOf? letter
  match size.toList with
  | [c] => return .vector (← sizeOf? c) scalar
  | _ => none

/-- The matrix type of a word. -/
def matrixWord? (word : List Char) : Option ShaderType := do
  let (letter, size) ← partsAround? "mat" word
  let scalar ← scalarOf? letter
  let (columns, rows) ← matrixSize? size
  return .matrix columns rows scalar

/-- The texture type of a word. -/
def textureWord? (word : List Char) : Option ShaderType := do
  let (letter, size) ← partsAround? "texture" word
  let kind ← texelOf? letter
  match size with
  | "2DMS" => return .image .d2 false (.sampled kind true)
  | "2DMSArray" => return .image .d2 true (.sampled kind true)
  | _ => do
      let (dim, arrayed) ← imageShape? size
      return .image dim arrayed (.texels kind)

/-- The format that an image has until its declaration says otherwise. -/
def unstatedFormat : TexelFormat := .equal .r .bits8 .uint

/-- The type of an image that is accessed by texel. -/
def imageWord? (word : List Char) : Option ShaderType := do
  let (letter, size) ← partsAround? "image" word
  let _ ← texelOf? letter
  let (dim, arrayed) ← imageShape? size
  if dim = .cube then none else some (.image dim arrayed (.storage unstatedFormat true true))

/-- The type that a word names. -/
def typeOfWord? (word : String) : Option ShaderType :=
  match word with
  | "bool" => some (.scalar .bool)
  | "float" => some (.scalar .f32)
  | "double" => some (.scalar .f64)
  | "int" => some (.scalar .i32)
  | "uint" => some (.scalar .u32)
  | "sampler" => some (.sampler false)
  | "samplerShadow" => some (.sampler true)
  | _ =>
      let cs := word.toList
      vectorWord? cs <|> matrixWord? cs <|> textureWord? cs <|> imageWord? cs

end LegacyShader.Glsl
