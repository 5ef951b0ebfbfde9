import LegacyShader.ShaderType

/-!
# Implicit conversions

Numbers convert upward: signed integers to unsigned ones, both to floats, and
floats to doubles.  Vectors convert like their components if they have equally
many, and matrices likewise.
-/

namespace LegacyShader

namespace Scalar

/-- The rank of a number among the types it converts to.  Truth values have
none. -/
def rank? (s : Scalar) : Option Nat :=
  match s.kind with
  | .sint => some 0
  | .uint => some 1
  | .float => some (if s.width = 4 then 2 else 3)
  | .bool => none

/-- Whether a scalar converts to one of higher rank. -/
def convertsTo (source target : Scalar) : Bool :=
  match source.rank?, target.rank? with
  | some a, some b => decide (a < b)
  | _, _ => false

end Scalar

namespace ShaderType

/-- The scalar that a value is made of. -/
def scalar? : ShaderType → Option Scalar
  | .scalar s | .vector _ s | .matrix _ _ s => some s
  | _ => none

/-- The type of the same shape with another scalar. -/
def withScalar (s : Scalar) : ShaderType → ShaderType
  | .scalar _ => .scalar s
  | .vector size _ => .vector size s
  | .matrix columns rows _ => .matrix columns rows s
  | type => type

/-- The type after an implicit conversion to a scalar, where there is one. -/
def raisedTo (target : Scalar) (type : ShaderType) : ShaderType :=
  match type.scalar? with
  | some s => if s.convertsTo target then type.withScalar target else type
  | none => type

/-- Two types after the implicit conversion of the lower one to the higher one. -/
def balanced (a b : ShaderType) : ShaderType × ShaderType :=
  match a.scalar?, b.scalar? with
  | some s, some t => (a.raisedTo t, b.raisedTo s)
  | _, _ => (a, b)

/-- Whether two types have the same shape of scalars. -/
def sameShape : ShaderType → ShaderType → Bool
  | .scalar _, .scalar _ => true
  | .vector n _, .vector m _ => decide (n = m)
  | .matrix c r _, .matrix c' r' _ => decide (c = c' ∧ r = r')
  | _, _ => false

end ShaderType

namespace Glsl

/-- How an argument fits a parameter. -/
inductive Conversion where
  /-- Nothing has been tried yet. -/
  | untried
  /-- The types are equal. -/
  | exact
  /-- A float becomes a double. -/
  | floatToDouble
  /-- An integer becomes a float. -/
  | intToFloat
  /-- An integer becomes a double. -/
  | intToDouble
  /-- Any other conversion. -/
  | other
  deriving DecidableEq, Repr, Inhabited

/-- Whether an argument made of a scalar fits a parameter made of another one.  Truth values
fit every parameter, since they are below all ranks. -/
def fitsInto (source target : Scalar) : Bool :=
  match source.rank?, target.rank? with
  | some a, some b => decide (a ≤ b)
  | some _, none => false
  | none, _ => true

/-- The kind of conversion between two scalars. -/
def Conversion.between (source target : Scalar) : Conversion :=
  if target = .f64 ∧ source = .f32 then .floatToDouble
  else if source.kind = .sint ∨ source.kind = .uint then
    if target = .f64 then .intToDouble else if target = .f32 then .intToFloat else .other
  else .other

/-- The conversion of a type to another one, if there is one. -/
def conversion? (target source : ShaderType) : Option Conversion :=
  match source.scalar?, target.scalar? with
  | some s, some t =>
      if source.sameShape target && fitsInto s t then some (.between s t) else none
  | _, _ => none

end Glsl

end LegacyShader
