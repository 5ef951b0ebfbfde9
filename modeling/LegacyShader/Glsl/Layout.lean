import LegacyShader.ShaderType.Alignment

/-!
# Block layout

Where the members of a block or a struct lie.  A scalar is aligned to its size, a
vector to its size with three components counted as four.  The columns of a matrix
and the elements of an array are aligned to at least sixteen bytes, unless the layout
is packed.  A struct is aligned like its most aligned member.

The layout of a type is also a type: arrays get the distance of their elements,
and structs the offsets of their members.  Matrices of two rows and types without
a layout are counted, and are laid out all the same.  A packed layout has nothing
against matrices of two rows.
-/

namespace LegacyShader.Glsl

/-- What a layout cannot express. -/
inductive LayoutFlaw where
  /-- A matrix of two rows. -/
  | narrowMatrix
  /-- A type without a layout. -/
  | memberType
  deriving DecidableEq, Repr, Inhabited

/-- A type with its layout. -/
structure Laid where
  /-- The type, with offsets and distances filled in. -/
  type : ShaderType
  /-- Its alignment. -/
  alignment : Nat
  /-- Its size in bytes. -/
  span : Nat
  /-- What is wrong with it, in order. -/
  flaws : List LayoutFlaw
  deriving Repr, Inhabited

/-- Members with their layout. -/
structure LaidMembers where
  /-- The members, with their offsets. -/
  members : List StructMember := []
  /-- The largest alignment. -/
  alignment : Nat := 1
  /-- The end of the last member. -/
  stop : Nat := 0
  /-- What is wrong with them, in order. -/
  flaws : List LayoutFlaw := []
  deriving Repr, Inhabited

namespace LaidMembers

/-- Adds a member behind the others. -/
def push (ms : LaidMembers) (name : Option String) (l : Laid) : LaidMembers :=
  let offset := roundUp ms.stop l.alignment
  ⟨ms.members ++ [.mk name l.type offset], max l.alignment ms.alignment, offset + l.span,
    ms.flaws ++ l.flaws⟩

/-- The size of a struct of these members. -/
def span (ms : LaidMembers) : Nat := roundUp ms.stop ms.alignment

end LaidMembers

/-- The alignment of columns and elements. -/
def leastAlignment (packed : Bool) (alignment : Nat) : Nat :=
  if packed then alignment else max alignment uniformUnit

mutual

/-- The layout of a type, which can be packed. -/
def layOut (packed : Bool) : ShaderType → Laid
  | .scalar s => ⟨.scalar s, s.width, s.width, []⟩
  | .vector size s => ⟨.vector size s, size.padded * s.width, size.count * s.width, []⟩
  | .matrix columns rows s =>
      let alignment := leastAlignment packed (rows.padded * s.width)
      ⟨.matrix columns rows s, alignment, alignment * columns.count,
        if rows = .two ∧ ¬packed then [.narrowMatrix] else []⟩
  | .array base length _ =>
      let l := layOut packed base
      let alignment := leastAlignment packed l.alignment
      let stride := roundUp l.span alignment
      ⟨.array l.type length stride, alignment, length.getD 1 * stride, l.flaws⟩
  | .struct name members _ =>
      let ms := layOutAll packed {} members
      ⟨.struct name ms.members ms.span, ms.alignment, ms.span, ms.flaws⟩
  | type => ⟨type, 1, 0, [.memberType]⟩

/-- The layout of a member. -/
def layOutMember (packed : Bool) : StructMember → Laid
  | .mk _ type _ => layOut packed type

/-- The layout of members behind others. -/
def layOutAll (packed : Bool) (done : LaidMembers) : List StructMember → LaidMembers
  | [] => done
  | m :: ms => layOutAll packed (done.push m.name (layOutMember packed m)) ms

end

/-- An array of a type in the memory of one invocation. -/
def arrayOf (base : ShaderType) (length : Option Nat) : ShaderType :=
  .array base length (roundUp base.byteSize base.alignment)

end LegacyShader.Glsl
