import LegacyShader.ShaderType

/-!
# Kinds of reflected variables

A reflection names the type of an attribute or uniform by one of eighteen kinds.
The kinds are those of the legacy dialect.  Every type that the dialect does not
have, such as an unsigned or a 64-bit vector, is `unknown`.
-/

namespace LegacyShader

/-- The kind of a reflected variable. -/
inductive VariableKind where
  | unknown
  | bool
  | boolVec2
  | boolVec3
  | boolVec4
  | int
  | intVec2
  | intVec3
  | intVec4
  | float
  | floatVec2
  | floatVec3
  | floatVec4
  | floatMat2
  | floatMat3
  | floatMat4
  | sampler2D
  | samplerCube
  deriving DecidableEq, Repr, Inhabited

namespace VariableKind

/-- The name of a kind in stored reflections. -/
def name : VariableKind → String
  | .unknown => "Unknown"
  | .bool => "Bool"
  | .boolVec2 => "BoolVec2"
  | .boolVec3 => "BoolVec3"
  | .boolVec4 => "BoolVec4"
  | .int => "Int"
  | .intVec2 => "IntVec2"
  | .intVec3 => "IntVec3"
  | .intVec4 => "IntVec4"
  | .float => "Float"
  | .floatVec2 => "FloatVec2"
  | .floatVec3 => "FloatVec3"
  | .floatVec4 => "FloatVec4"
  | .floatMat2 => "FloatMat2"
  | .floatMat3 => "FloatMat3"
  | .floatMat4 => "FloatMat4"
  | .sampler2D => "Sampler2D"
  | .samplerCube => "SamplerCube"

/-- The kinds in the order of their index in a program file. -/
def all : List VariableKind :=
  [.unknown, .bool, .boolVec2, .boolVec3, .boolVec4, .int, .intVec2, .intVec3, .intVec4,
    .float, .floatVec2, .floatVec3, .floatVec4, .floatMat2, .floatMat3, .floatMat4,
    .sampler2D, .samplerCube]

/-- The kind of a scalar, given as the single entry of a vector, or of a vector
with two to four entries. -/
def ofVector (s : Scalar) (components : Nat) : VariableKind :=
  if s.kind ≠ .bool ∧ s.width ≠ 4 then .unknown
  else
    match s.kind, components with
    | .bool, 1 => .bool
    | .bool, 2 => .boolVec2
    | .bool, 3 => .boolVec3
    | .bool, 4 => .boolVec4
    | .sint, 1 => .int
    | .sint, 2 => .intVec2
    | .sint, 3 => .intVec3
    | .sint, 4 => .intVec4
    | .float, 1 => .float
    | .float, 2 => .floatVec2
    | .float, 3 => .floatVec3
    | .float, 4 => .floatVec4
    | _, _ => .unknown

/-- The kind of a matrix: only square matrices of `float` have one. -/
def ofMatrix (columns rows : VectorSize) (s : Scalar) : VariableKind :=
  if s = .f32 ∧ columns = rows then
    match columns with
    | .two => .floatMat2
    | .three => .floatMat3
    | .four => .floatMat4
  else .unknown

/-- The kind of an image: only single plane and cube images have one. -/
def ofImage (dim : ImageDim) (arrayed : Bool) : VariableKind :=
  if arrayed then .unknown
  else
    match dim with
    | .d2 => .sampler2D
    | .cube => .samplerCube
    | _ => .unknown

/-- The kind of a variable of a given type.  An array has the kind of its
elements. -/
def ofType : ShaderType → VariableKind
  | .scalar s => ofVector s 1
  | .vector size s => ofVector s size.count
  | .matrix columns rows s => ofMatrix columns rows s
  | .array base _ _ => ofType base
  | .image dim arrayed _ => ofImage dim arrayed
  | _ => .unknown

end VariableKind

end LegacyShader
