import LegacyShader.ShaderType

/-!
# Location footprints

Each location of a stage interface holds sixteen bytes.  The *footprint* of a
type is the number of consecutive locations a value of it occupies.  Lengths of
arrays are arbitrary 32-bit numbers, so a footprint stops growing at the largest
one of those.
-/

namespace LegacyShader

/-- The largest 32-bit number. -/
def wordMax : Nat := 4294967295

/-- A sum that stops at the largest 32-bit number. -/
def cappedAdd (a b : Nat) : Nat := min (a + b) wordMax

/-- A product that stops at the largest 32-bit number. -/
def cappedMul (a b : Nat) : Nat := min (a * b) wordMax

/-- The bytes in one location. -/
def bytesPerLocation : Nat := 16

/-- The width of a scalar at a stage interface, where a truth value takes four
bytes. -/
def Scalar.interfaceWidth (s : Scalar) : Nat :=
  match s.kind with
  | .bool => 4
  | _ => s.width

/-- The locations that `components` scalars of `width` bytes occupy. -/
def locationsFor (width components : Nat) : Nat :=
  (width * components + bytesPerLocation - 1) / bytesPerLocation

mutual

/-- The locations a value of a type occupies, at most the largest 32-bit
number. -/
def ShaderType.footprint : ShaderType → Nat
  | .scalar s => locationsFor s.interfaceWidth 1
  | .vector size s => locationsFor s.interfaceWidth size.count
  | .matrix columns rows s => columns.count * locationsFor s.width rows.count
  | .array base length _ => cappedMul (length.getD 1) base.footprint
  | .struct _ members _ => StructMember.footprintFrom 0 members
  | _ => 0

/-- The footprint of a single member. -/
def StructMember.footprint : StructMember → Nat
  | .mk _ type _ => type.footprint

/-- The footprints of the members added up, on top of `sum`. -/
def StructMember.footprintFrom (sum : Nat) : List StructMember → Nat
  | [] => sum
  | m :: ms => StructMember.footprintFrom (cappedAdd sum m.footprint) ms

end

end LegacyShader
