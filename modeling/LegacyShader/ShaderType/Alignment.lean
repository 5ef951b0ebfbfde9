import LegacyShader.ShaderType

/-!
# Alignment of types

In memory a value starts at a multiple of the alignment of its type.  A uniform
block asks for more: arrays and structs start at multiples of sixteen, elements of
an array lie a multiple of sixteen apart, and nothing follows a struct within the
sixteen bytes that it ends in.
-/

namespace LegacyShader

/-- The least multiple of `alignment` that is not below `n`. -/
def roundUp (n alignment : Nat) : Nat := (n + alignment - 1) / alignment * alignment

/-- The least alignment of an array or a struct in a uniform block. -/
def uniformUnit : Nat := 16

mutual

/-- The alignment of a type. -/
def ShaderType.alignment : ShaderType → Nat
  | .scalar s => s.width
  | .vector size s => size.padded * s.width
  | .matrix _ rows s => rows.padded * s.width
  | .array base _ _ => base.alignment
  | .struct _ members _ => StructMember.alignmentOf members
  | .atomic s => s.width
  | _ => 1

/-- The alignment of a member. -/
def StructMember.alignment : StructMember → Nat
  | .mk _ type _ => type.alignment

/-- The largest alignment of the members. -/
def StructMember.alignmentOf : List StructMember → Nat
  | [] => 1
  | m :: ms => max m.alignment (StructMember.alignmentOf ms)

end

/-- The size of a type in bytes. -/
def ShaderType.byteSize : ShaderType → Nat
  | .scalar s => s.width
  | .vector size s => size.count * s.width
  | .matrix columns rows s => columns.count * (rows.padded * s.width)
  | .array _ length stride => length.getD 1 * stride
  | .struct _ _ span => span
  | .atomic s => s.width
  | _ => 0

mutual

/-- Whether values of a type can be shared with the host.  A single truth value cannot, but a
vector of them can. -/
def ShaderType.hostShareable : ShaderType → Bool
  | .scalar s => s.kind != .bool
  | .vector .. | .matrix .. | .atomic _ => true
  | .array base _ _ => base.hostShareable
  | .struct _ members _ => StructMember.allHostShareable members
  | _ => false

/-- Whether values of a member can be shared with the host. -/
def StructMember.hostShareable : StructMember → Bool
  | .mk _ type _ => type.hostShareable

/-- Whether values of all members can be shared with the host. -/
def StructMember.allHostShareable : List StructMember → Bool
  | [] => true
  | m :: ms => m.hostShareable && StructMember.allHostShareable ms

end

mutual

/-- Whether values of a type can be built up from parts. -/
def ShaderType.constructible : ShaderType → Bool
  | .scalar _ | .vector .. | .matrix .. => true
  | .array base length _ => length.isSome && base.constructible
  | .struct _ members _ => StructMember.allConstructible members
  | _ => false

/-- Whether values of a member can be built up from parts. -/
def StructMember.constructible : StructMember → Bool
  | .mk _ type _ => type.constructible

/-- Whether values of all members can be built up from parts. -/
def StructMember.allConstructible : List StructMember → Bool
  | [] => true
  | m :: ms => m.constructible && StructMember.allConstructible ms

end

/-- Whether a type can be an input or an output.  A single truth value cannot, but a vector of
them can. -/
def ShaderType.interfaceShareable : ShaderType → Bool
  | .scalar s => s.kind != .bool
  | .vector .. => true
  | _ => false

/-- Whether a struct ends, rounded up, before the next member of its parent. -/
def StructMember.clears (next : Option StructMember) : StructMember → Bool
  | .mk _ (.struct _ _ span) offset =>
      next.all fun n => decide (offset + roundUp span uniformUnit ≤ n.offset)
  | _ => true

mutual

/-- The alignment of a type in a uniform block, if its layout fits one. -/
def ShaderType.uniformAlignment? : ShaderType → Option Nat
  | .array base _ stride =>
      match base.uniformAlignment? with
      | some a =>
          let a := max a uniformUnit
          if stride % a = 0 then some a else none
      | none => none
  | .struct name members span =>
      if span % (ShaderType.struct name members span).alignment = 0 then
        StructMember.uniformAlignment? uniformUnit members
      else none
  | type => if type.hostShareable then some type.alignment else none

/-- The alignment of a member in a uniform block, if its layout and its offset
fit one. -/
def StructMember.uniformAlignmentOf? : StructMember → Option Nat
  | .mk _ type offset =>
      match type.uniformAlignment? with
      | some a => if offset % a = 0 then some a else none
      | none => none

/-- The alignment of a struct with some members in a uniform block, if all of them
fit. -/
def StructMember.uniformAlignment? (alignment : Nat) : List StructMember → Option Nat
  | [] => some alignment
  | m :: ms =>
      match m.uniformAlignmentOf? with
      | some a =>
          if m.clears ms.head? then StructMember.uniformAlignment? (max alignment a) ms else none
      | none => none

end

end LegacyShader
