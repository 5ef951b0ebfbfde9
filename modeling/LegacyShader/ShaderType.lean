import LegacyShader.TexelFormat

/-!
# Shader types

The types of variables that a shader module declares.  A struct type carries the
byte offset of each member and its own size, and an array type carries the byte
distance of its elements, so a type is also a memory layout.

Structs nest through a list of members.  Recursive functions over types come in
pairs, one for types and one for member lists, and both are structural.
-/

namespace LegacyShader

/-- What the bits of a scalar mean. -/
inductive ScalarKind where
  /-- A floating point number. -/
  | float
  /-- A signed integer. -/
  | sint
  /-- An unsigned integer. -/
  | uint
  /-- A truth value. -/
  | bool
  deriving DecidableEq, Repr, Inhabited

/-- A scalar: its kind and its width in bytes. -/
structure Scalar where
  /-- The kind of number. -/
  kind : ScalarKind
  /-- The width in bytes. -/
  width : Nat
  deriving DecidableEq, Repr, Inhabited

namespace Scalar

/-- The scalar of `float`. -/
def f32 : Scalar := ⟨.float, 4⟩

/-- The scalar of `double`. -/
def f64 : Scalar := ⟨.float, 8⟩

/-- The scalar of `int`. -/
def i32 : Scalar := ⟨.sint, 4⟩

/-- The scalar of `uint`. -/
def u32 : Scalar := ⟨.uint, 4⟩

/-- The scalar of `bool`. -/
def bool : Scalar := ⟨.bool, 1⟩

end Scalar

/-- The number of components of a vector, or of rows or columns of a matrix. -/
inductive VectorSize where
  /-- Two components. -/
  | two
  /-- Three components. -/
  | three
  /-- Four components. -/
  | four
  deriving DecidableEq, Repr, Inhabited

namespace VectorSize

/-- The size as a number. -/
def count : VectorSize → Nat
  | .two => 2
  | .three => 3
  | .four => 4

/-- The size with a given number of components. -/
def ofCount? : Nat → Option VectorSize
  | 2 => some .two
  | 3 => some .three
  | 4 => some .four
  | _ => none

/-- The number of components after padding to a power of two. -/
def padded : VectorSize → Nat
  | .two => 2
  | .three => 4
  | .four => 4

end VectorSize

/-- The shape of an image. -/
inductive ImageDim where
  /-- A row of texels. -/
  | d1
  /-- A rectangle of texels. -/
  | d2
  /-- A box of texels. -/
  | d3
  /-- The six faces of a cube. -/
  | cube
  deriving DecidableEq, Repr, Inhabited

/-- How an image is accessed. -/
inductive ImageClass where
  /-- Sampled, with texels of the given kind, each of which can have several samples. -/
  | sampled (kind : ScalarKind) (multi : Bool)
  /-- Sampled with a depth comparison.  A texel can have several samples. -/
  | depth (multi : Bool)
  /-- Accessed by texel, with what may be done to a texel. -/
  | storage (format : TexelFormat) (load store : Bool)
  deriving DecidableEq, Repr, Inhabited

/-- The kind of number that a channel is read as. -/
def TexelCoding.kind : TexelCoding → ScalarKind
  | .unorm | .snorm | .float => .float
  | .uint => .uint
  | .sint => .sint

/-- The kind of number that a texel is read as. -/
def TexelFormat.kind (f : TexelFormat) : ScalarKind := f.coding.kind

namespace ImageClass

/-- Texels of one sample of the given kind. -/
def texels (kind : ScalarKind) : ImageClass := .sampled kind false

/-- Whether a texel has several samples. -/
def isMulti : ImageClass → Bool
  | .sampled _ multi | .depth multi => multi
  | .storage .. => false

end ImageClass

mutual

/-- The type of a shader variable. -/
inductive ShaderType where
  /-- A single scalar. -/
  | scalar (scalar : Scalar)
  /-- A vector of scalars. -/
  | vector (size : VectorSize) (scalar : Scalar)
  /-- A matrix, stored column by column. -/
  | matrix (columns rows : VectorSize) (scalar : Scalar)
  /-- An array; without a length its size is known only at run time. -/
  | array (base : ShaderType) (length : Option Nat) (stride : Nat)
  /-- A struct with its size in bytes. -/
  | struct (name : Option String) (members : List StructMember) (span : Nat)
  /-- An image. -/
  | image (dim : ImageDim) (arrayed : Bool) (access : ImageClass)
  /-- A sampler, possibly one that compares depths. -/
  | sampler (comparison : Bool)
  /-- A scalar that is updated atomically. -/
  | atomic (scalar : Scalar)
  /-- A pointer to a variable. -/
  | pointer (base : ShaderType)

/-- A member of a struct. -/
inductive StructMember where
  /-- A member with its byte offset in the struct. -/
  | mk (name : Option String) (type : ShaderType) (offset : Nat)

end

deriving instance Repr for ShaderType
deriving instance Repr for StructMember

instance : Inhabited ShaderType := ⟨.scalar default⟩

instance : Inhabited StructMember := ⟨.mk none default 0⟩

namespace StructMember

/-- The name of a member. -/
def name : StructMember → Option String
  | .mk name _ _ => name

/-- The type of a member. -/
def type : StructMember → ShaderType
  | .mk _ type _ => type

/-- The byte offset of a member. -/
def offset : StructMember → Nat
  | .mk _ _ offset => offset

end StructMember

/-! ## Equality -/

mutual

/-- Equality of types, layout included. -/
def ShaderType.same : ShaderType → ShaderType → Bool
  | .scalar s, .scalar t => decide (s = t)
  | .vector n s, .vector m t => decide (n = m) && decide (s = t)
  | .matrix c r s, .matrix c' r' t => decide (c = c') && decide (r = r') && decide (s = t)
  | .array b n k, .array b' n' k' => b.same b' && decide (n = n') && decide (k = k')
  | .struct n ms k, .struct n' ms' k' =>
      decide (n = n') && StructMember.sameAll ms ms' && decide (k = k')
  | .image d a c, .image d' a' c' => decide (d = d') && decide (a = a') && decide (c = c')
  | .sampler c, .sampler c' => decide (c = c')
  | .atomic s, .atomic t => decide (s = t)
  | .pointer b, .pointer b' => b.same b'
  | _, _ => false

/-- Equality of members. -/
def StructMember.same : StructMember → StructMember → Bool
  | .mk n t o, .mk n' t' o' => decide (n = n') && t.same t' && decide (o = o')

/-- Equality of member lists. -/
def StructMember.sameAll : List StructMember → List StructMember → Bool
  | [], [] => true
  | m :: ms, n :: ns => m.same n && StructMember.sameAll ms ns
  | _, _ => false

end

instance : BEq ShaderType := ⟨ShaderType.same⟩

namespace ShaderType

/-- The name of a struct type. -/
def name? : ShaderType → Option String
  | .struct name _ _ => name
  | _ => none

/-- Whether a type is an image. -/
def isImage : ShaderType → Bool
  | .image .. => true
  | _ => false

end ShaderType

end LegacyShader
