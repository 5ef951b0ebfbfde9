import LegacyShader.AddressSpace
import LegacyShader.ShaderType
import LegacyShader.Text.Quoted

/-!
# Types in messages

How messages show a type.  The types inside an array or a struct are shown by their
numbers, so showing a type needs to know the number of each.
-/

namespace LegacyShader

/-- The name of a kind of scalar in messages. -/
def ScalarKind.shown : ScalarKind → String
  | .float => "Float"
  | .sint => "Sint"
  | .uint => "Uint"
  | .bool => "Bool"

/-- A scalar in messages. -/
def Scalar.shown (s : Scalar) : String :=
  "Scalar \x7b kind: " ++ s.kind.shown ++ ", width: " ++ toString s.width ++ " \x7d"

/-- A size in messages. -/
def VectorSize.shown : VectorSize → String
  | .two => "Bi"
  | .three => "Tri"
  | .four => "Quad"

/-- The shape of an image in messages. -/
def ImageDim.shown : ImageDim → String
  | .d1 => "D1"
  | .d2 => "D2"
  | .d3 => "D3"
  | .cube => "Cube"

/-- A truth value in messages. -/
def boolShown (b : Bool) : String := if b then "true" else "false"

/-- The access of an image in messages. -/
def ImageClass.shown : ImageClass → String
  | .sampled kind multi =>
      "Sampled \x7b kind: " ++ kind.shown ++ ", multi: " ++ boolShown multi ++ " \x7d"
  | .depth multi => "Depth \x7b multi: " ++ boolShown multi ++ " \x7d"
  | .storage format load store =>
      "Storage \x7b format: " ++ format.shown ++ ", access: " ++
        AddressSpace.accessShown load store ++ " \x7d"

/-- A number of something in messages, counted from one. -/
def numberShown (index : Nat) : String := "[" ++ toString (index + 1) ++ "]"

/-- A pointer in messages. -/
def pointerShown (base : String) (space : AddressSpace) : String :=
  "Pointer \x7b base: " ++ base ++ ", space: " ++ space.shown ++ " \x7d"

/-- A member of a struct in messages. -/
def StructMember.shown (index : ShaderType → Nat) (m : StructMember) : String :=
  let name := match m.name with
    | some n => "Some(" ++ Text.quoted n ++ ")"
    | none => "None"
  "StructMember \x7b name: " ++ name ++ ", ty: " ++ numberShown (index m.type) ++
    ", binding: None, offset: " ++ toString m.offset ++ " \x7d"

/-- A type in messages, where `index` gives the index of each type. -/
def ShaderType.shown (index : ShaderType → Nat) : ShaderType → String
  | .scalar s => "Scalar(" ++ s.shown ++ ")"
  | .vector size s => "Vector \x7b size: " ++ size.shown ++ ", scalar: " ++ s.shown ++ " \x7d"
  | .matrix columns rows s =>
      "Matrix \x7b columns: " ++ columns.shown ++ ", rows: " ++ rows.shown ++
        ", scalar: " ++ s.shown ++ " \x7d"
  | .array base length stride =>
      let size := match length with
        | some n => "Constant(" ++ toString n ++ ")"
        | none => "Dynamic"
      "Array \x7b base: " ++ numberShown (index base) ++ ", size: " ++ size ++ ", stride: " ++
        toString stride ++ " \x7d"
  | .struct _ members span =>
      "Struct \x7b members: [" ++ ", ".intercalate (members.map (·.shown index)) ++ "], span: " ++
        toString span ++ " \x7d"
  | .image dim arrayed access =>
      "Image \x7b dim: " ++ dim.shown ++ ", arrayed: " ++ boolShown arrayed ++ ", class: " ++
        access.shown ++ " \x7d"
  | .sampler comparison => "Sampler \x7b comparison: " ++ boolShown comparison ++ " \x7d"
  | .atomic s => "Atomic(" ++ s.shown ++ ")"
  | .pointer base => pointerShown (numberShown (index base)) .function

end LegacyShader
