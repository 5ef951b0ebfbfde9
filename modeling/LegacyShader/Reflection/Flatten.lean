import LegacyShader.Modern.Names
import LegacyShader.Reflection
import LegacyShader.StageInterface

/-!
# Flattened block members

A reflection lists the members of a uniform block one by one.  A struct is
replaced by its members, under its name and a point.  An array of structs is
replaced by its elements, each under its index.  Any other array is one entry,
which is named after its first element.

A matrix that modern source stores in a wider type is reported under its legacy
name and kind.
-/

namespace LegacyShader

/-- A member of a block that is not a struct, at its offset in the block. -/
structure FlatMember where
  /-- Its name. -/
  name : String
  /-- Its type, or that of its elements. -/
  type : ShaderType
  /-- Its byte offset in the block. -/
  offset : Nat
  /-- The number of its elements. -/
  arraySize : Nat
  /-- The byte distance of its elements, or zero if it is not an array. -/
  arrayStride : Nat
  deriving Repr, Inhabited

namespace FlatMember

/-- The name of a member inside of what is named `outer`. -/
def memberName (outer : String) (name : Option String) : String :=
  if outer = "" then name.getD "" else outer ++ "." ++ name.getD ""

/-- The name of an element of an array. -/
def elementName (name : String) (index : Nat) : String := name ++ "[" ++ toString index ++ "]"

mutual

/-- The entries of a variable of a type at an offset. -/
def ofType (name : String) (offset : Nat) : ShaderType → List FlatMember
  | .struct _ members _ => ofMembers name offset members
  | .array base length stride => ofArray name offset (length.getD 0) stride base
  | type => [⟨name, type, offset, 1, 0⟩]

/-- The entries of an array with elements of a type. -/
def ofArray (name : String) (offset count stride : Nat) : ShaderType → List FlatMember
  | .struct _ members _ =>
      (List.range count).flatMap fun i =>
        ofMembers (elementName name i) (offset + i * stride) members
  | type => [⟨elementName name 0, type, offset, count, stride⟩]

/-- The entries of the members of a struct at an offset. -/
def ofMembers (outer : String) (base : Nat) : List StructMember → List FlatMember
  | [] => []
  | m :: ms => ofMember outer base m ++ ofMembers outer base ms

/-- The entries of one member of a struct at an offset. -/
def ofMember (outer : String) (base : Nat) : StructMember → List FlatMember
  | .mk name type offset => ofType (memberName outer name) (base + offset) type

end

/-- The byte distance of the columns of a matrix. -/
def matrixStride : ShaderType → Nat
  | .matrix _ rows s => rows.padded * s.width
  | _ => 0

/-- The entry of a member in a reflection. -/
def toUniform (m : FlatMember) (stage : Stage) (blockIndex : Nat) : UniformInfo :=
  let (name, kind) :=
    match StageInterface.afterMark? Modern.mat2Mark m.name with
    | some legacy => (legacy, VariableKind.floatMat2)
    | none => (m.name, VariableKind.ofType m.type)
  { name, kind
    arraySize := m.arraySize.toUInt32
    blockIndex := some blockIndex.toUInt32
    blockOffset := m.offset.toUInt32
    binding := none
    arrayStride := m.arrayStride.toUInt32
    matrixStride := (matrixStride m.type).toUInt32
    stage }

end FlatMember

end LegacyShader
