import LegacyShader.Code.Typing
import LegacyShader.Glsl.Conversion
import LegacyShader.ShaderType.Validity

/-!
# Overloads

Several functions can share a name.  A call goes to the one whose parameters fit
its arguments best: one that fits exactly, or else one that no other beats at any
argument.  If two of them each have the better fit somewhere, the call is
ambiguous.
-/

namespace LegacyShader.Glsl

open Code (BinaryOp MathFunction RelationalFunction UnaryOp)

/-- How values pass through a parameter. -/
inductive Passing where
  /-- Into the function. -/
  | input
  /-- Into the function, which cannot change it. -/
  | constant
  /-- Out of the function. -/
  | output
  /-- Both ways. -/
  | both
  deriving DecidableEq, Repr, Inhabited

/-- Whether the argument of a parameter is written. -/
def Passing.writes : Passing → Bool
  | .output | .both => true
  | .input | .constant => false

/-- A parameter of a function. -/
structure Parameter where
  /-- Its type. -/
  type : ShaderType
  /-- How values pass through it. -/
  passing : Passing := .input
  /-- Whether the function compares depths in it, if it is a texture. -/
  depth : Bool := false
  deriving Repr, Inhabited

/-- How a sampling function finds the level of detail. -/
inductive Level where
  /-- From neighboring fragments. -/
  | implicit
  /-- From an argument. -/
  | lod
  /-- From the rates of change of the coordinates. -/
  | grad
  deriving DecidableEq, Repr, Inhabited

/-- What the call of a built-in function comes to. -/
inductive BuiltInCall where
  /-- A texture, joined with a sampler. -/
  | pair
  /-- A texture of depths, joined with a sampler that compares them. -/
  | depthPair
  /-- A texture that is sampled.  The last coordinate can divide the others, there can be an
  offset, and depths can be compared. -/
  | sample (proj offset depth : Bool) (level : Level)
  /-- The size of an image. -/
  | imageSize (arrayed : Bool)
  /-- A texel, or one of its samples. -/
  | fetch (multi : Bool)
  /-- A texel that is written. -/
  | storeTexel
  /-- A function of numbers. -/
  | math (function : MathFunction)
  /-- A function of unsigned numbers whose result is signed. -/
  | signedResult (function : MathFunction)
  /-- Some bits of a number. -/
  | extractBits
  /-- A number with some bits replaced. -/
  | insertBits
  /-- A test. -/
  | relational (function : RelationalFunction)
  /-- An operator with one operand. -/
  | unary (op : UnaryOp)
  /-- An operator with two operands. -/
  | binary (op : BinaryOp)
  /-- A remainder that has the sign of the divisor, which is spread over a vector. -/
  | floorMod (size : Option VectorSize)
  /-- A function of numbers, one argument of which is spread over a vector. -/
  | splatted (function : MathFunction) (size : Option VectorSize) (index : Nat)
  /-- A choice between two values. -/
  | choice
  /-- A value within limits, which are spread over a vector. -/
  | clamp (size : Option VectorSize)
  /-- A value between two edges, which are spread over a vector. -/
  | smoothStep (size : Option VectorSize)
  /-- The bits of a number as another kind of number. -/
  | bitCast (kind : ScalarKind)
  /-- A rate of change. -/
  | derivative
  /-- A wait for other invocations. -/
  | barrier
  deriving DecidableEq, Repr, Inhabited

/-- What a call of a function does. -/
inductive Target where
  /-- A built-in function. -/
  | builtIn (call : BuiltInCall)
  /-- A function of the module, by index. -/
  | function (index : Nat)
  deriving DecidableEq, Repr, Inhabited

/-- One of the functions of a name. -/
structure Overload where
  /-- Its parameters. -/
  parameters : List Parameter
  /-- What a call does. -/
  target : Target
  /-- Whether it has no result. -/
  void : Bool := false
  /-- Whether the source gives it a body. -/
  defined : Bool := false
  deriving Repr, Inhabited

namespace Overload

/-- Whether the parameters have the given types. -/
def accepts (o : Overload) (types : List ShaderType) : Bool :=
  o.parameters.length == types.length &&
    (o.parameters.zip types).all fun (p, type) => p.type.alike type

end Overload

/-! ## Choosing one -/

/-- The comparison of an overload with the best one before it. -/
structure Comparison where
  /-- Whether every argument fits exactly so far. -/
  exact : Bool := true
  /-- Whether this overload is the better one, if that is known. -/
  better : Option Bool := none
  /-- How its arguments fit. -/
  fits : List Conversion := []
  /-- Whether each overload has had a better fit somewhere. -/
  ambiguous : Bool := false
  deriving DecidableEq, Repr, Inhabited

/-- Whether a conversion is better than that of the best overload at the same
argument, if one of them is. -/
def Conversion.isBetter? : Conversion → Conversion → Option Bool
  | _, .exact => some false
  | _, .untried => some true
  | .floatToDouble, _ => some true
  | _, .floatToDouble => some false
  | .intToFloat, .intToDouble => some true
  | .intToDouble, .intToFloat => some false
  | _, _ => none

namespace Comparison

/-- Takes in an argument that fits exactly. -/
def fitExactly (c : Comparison) : Comparison := { c with fits := c.fits ++ [.exact] }

/-- Takes in an argument that has to be converted. -/
def fit (c : Comparison) (new old : Conversion) : Comparison :=
  let c := { c with exact := false }
  match new.isBetter? old, c.better with
  | some true, some false | some false, some true =>
      { c with ambiguous := true, fits := c.fits ++ [.untried] }
  | some true, _ => { c with better := some true, fits := c.fits ++ [new] }
  | some false, _ => { c with better := some false, fits := c.fits ++ [.untried] }
  | none, _ => { c with fits := c.fits ++ [.untried] }

end Comparison

/-- The conversion between an argument and a parameter that it does not fit
exactly, if there is one. -/
def Parameter.conversion? (p : Parameter) (argument : ShaderType) : Option Conversion :=
  match p.passing with
  | .both => none
  | .output => Glsl.conversion? argument p.type
  | .input | .constant => Glsl.conversion? p.type argument

/-- The choice among the overloads that have been looked at. -/
structure Choice where
  /-- The best overload. -/
  best : Option Overload := none
  /-- How its arguments fit. -/
  fits : List Conversion
  /-- Whether another one fits equally well. -/
  ambiguous : Bool := false
  deriving Repr, Inhabited

namespace Choice

/-- The choice before any overload has been looked at. -/
def initial (count : Nat) : Choice := { fits := List.replicate count .untried }

/-- Takes in an overload that has been compared with the best one, and whether its arguments
fit. -/
def take (c : Choice) (o : Overload) (found : Comparison) (fits : Bool) : Choice :=
  let ambiguous := c.ambiguous || found.ambiguous
  if !fits then { c with ambiguous }
  else if found.exact then ⟨some o, c.fits, false⟩
  else
    match found.better with
    | some true => ⟨some o, found.fits, ambiguous⟩
    | some false => { c with ambiguous }
    | none => ⟨some o, c.fits, true⟩

end Choice

end LegacyShader.Glsl
