import LegacyShader.Code.Literal

/-!
# Code

The code of a function.  Values are computed by *nodes*, which stand in one list
and refer to earlier nodes of it by number.  *Statements* say what happens: which
nodes are computed when, what is stored, what is called, and where control goes.

Some nodes, such as literals and variables, exist from the start.  All others are
computed by a statement that names them, and can be used behind it in its block.
-/

namespace LegacyShader.Code

/-- The number of a node. -/
abbrev Ref := Nat

/-! ## Functions of numbers -/

/-- A function that only computes. -/
inductive MathFunction where
  | abs | min | max | clamp
  | cos | cosh | sin | sinh | tan | tanh | acos | asin | atan | atan2 | asinh | acosh | atanh
  | radians | degrees | ceil | floor | round | fract | trunc | ldexp
  | exp | exp2 | log | log2 | pow
  | dot | outer | cross | distance | length | normalize | faceForward | reflect | refract
  | sign | fma | mix | step | smoothStep | sqrt | inverseSqrt | transpose | determinant | inverse
  | countOneBits | reverseBits | extractBits | insertBits | findLsb | findMsb
  | pack4x8snorm | pack4x8unorm | pack2x16snorm | pack2x16unorm | pack2x16float
  | unpack4x8snorm | unpack4x8unorm | unpack2x16snorm | unpack2x16unorm | unpack2x16float
  deriving DecidableEq, Repr, Inhabited

/-- The name of a function in messages. -/
def MathFunction.name : MathFunction → String
  | .abs => "Abs" | .min => "Min" | .max => "Max" | .clamp => "Clamp"
  | .cos => "Cos" | .cosh => "Cosh" | .sin => "Sin" | .sinh => "Sinh" | .tan => "Tan"
  | .tanh => "Tanh" | .acos => "Acos" | .asin => "Asin" | .atan => "Atan" | .atan2 => "Atan2"
  | .asinh => "Asinh" | .acosh => "Acosh" | .atanh => "Atanh"
  | .radians => "Radians" | .degrees => "Degrees" | .ceil => "Ceil" | .floor => "Floor"
  | .round => "Round" | .fract => "Fract" | .trunc => "Trunc" | .ldexp => "Ldexp"
  | .exp => "Exp" | .exp2 => "Exp2" | .log => "Log" | .log2 => "Log2" | .pow => "Pow"
  | .dot => "Dot" | .outer => "Outer" | .cross => "Cross" | .distance => "Distance"
  | .length => "Length" | .normalize => "Normalize" | .faceForward => "FaceForward"
  | .reflect => "Reflect" | .refract => "Refract"
  | .sign => "Sign" | .fma => "Fma" | .mix => "Mix" | .step => "Step"
  | .smoothStep => "SmoothStep" | .sqrt => "Sqrt" | .inverseSqrt => "InverseSqrt"
  | .transpose => "Transpose" | .determinant => "Determinant" | .inverse => "Inverse"
  | .countOneBits => "CountOneBits" | .reverseBits => "ReverseBits"
  | .extractBits => "ExtractBits" | .insertBits => "InsertBits"
  | .findLsb => "FindLsb" | .findMsb => "FindMsb"
  | .pack4x8snorm => "Pack4x8snorm" | .pack4x8unorm => "Pack4x8unorm"
  | .pack2x16snorm => "Pack2x16snorm" | .pack2x16unorm => "Pack2x16unorm"
  | .pack2x16float => "Pack2x16float"
  | .unpack4x8snorm => "Unpack4x8snorm" | .unpack4x8unorm => "Unpack4x8unorm"
  | .unpack2x16snorm => "Unpack2x16snorm" | .unpack2x16unorm => "Unpack2x16unorm"
  | .unpack2x16float => "Unpack2x16float"

/-- A test of a vector or a number. -/
inductive RelationalFunction where
  | all | any | isNan | isInf
  deriving DecidableEq, Repr, Inhabited

/-- The name of a test in messages. -/
def RelationalFunction.name : RelationalFunction → String
  | .all => "All"
  | .any => "Any"
  | .isNan => "IsNan"
  | .isInf => "IsInf"

/-! ## Nodes -/

/-- The level of detail at which a texture is sampled. -/
inductive SampleLevel where
  /-- It follows from neighboring fragments. -/
  | auto
  /-- It is zero. -/
  | zero
  /-- It is given. -/
  | exact (level : Ref)
  /-- It follows from neighboring fragments and is moved. -/
  | bias (bias : Ref)
  /-- It follows from given rates of change. -/
  | gradient (x y : Ref)
  deriving DecidableEq, Repr, Inhabited

/-- A question about a texture. -/
inductive ImageQuery where
  /-- Its size, at a level. -/
  | size (level : Option Ref)
  /-- The number of its layers. -/
  | layers
  deriving DecidableEq, Repr, Inhabited

/-- A step of a computation, with its value. -/
inductive Node where
  /-- A literal. -/
  | literal (value : Literal)
  /-- A constant of the module. -/
  | constant (index : Nat)
  /-- A value put together from parts. -/
  | compose (type : ShaderType) (components : List Ref)
  /-- A vector of equal components. -/
  | splat (size : VectorSize) (value : Ref)
  /-- An element at a computed index. -/
  | access (base index : Ref)
  /-- A part at a known index. -/
  | accessIndex (base : Ref) (index : Nat)
  /-- Some components of a vector. -/
  | swizzle (size : VectorSize) (vector : Ref) (pattern : List Nat)
  /-- An argument of the function. -/
  | argument (index : Nat)
  /-- A global variable. -/
  | globalVariable (index : Nat)
  /-- A local variable. -/
  | localVariable (index : Nat)
  /-- A value loaded from memory. -/
  | load (pointer : Ref)
  /-- A texture that is sampled. -/
  | sample (image sampler coordinate : Ref) (layer offset : Option Ref) (level : SampleLevel)
      (depth : Option Ref)
  /-- A texel that is read, or the sample of it with some index. -/
  | fetch (image coordinate : Ref) (layer index level : Option Ref)
  /-- A question about a texture. -/
  | query (image : Ref) (query : ImageQuery)
  /-- An operator with one operand. -/
  | unary (op : UnaryOp) (operand : Ref)
  /-- An operator with two operands. -/
  | binary (op : BinaryOp) (left right : Ref)
  /-- A choice between two values. -/
  | select (condition accept reject : Ref)
  /-- A rate of change across neighboring fragments. -/
  | derivative (operand : Ref)
  /-- A test. -/
  | relational (test : RelationalFunction) (operand : Ref)
  /-- A function of numbers. -/
  | math (function : MathFunction) (arguments : List Ref)
  /-- A conversion.  Without a width the bits stay as they are. -/
  | cast (operand : Ref) (kind : ScalarKind) (width : Option Nat)
  /-- The result of a call. -/
  | callResult (function : Nat)
  /-- The length of an array. -/
  | arrayLength (array : Ref)
  deriving Repr, Inhabited

/-- Whether a node exists from the start. -/
def Node.preexists : Node → Bool
  | .literal _ | .constant _ | .argument _ | .globalVariable _ | .localVariable _ => true
  | _ => false

/-! ## Statements -/

/-- The value of a case label. -/
inductive CaseValue where
  /-- A signed number. -/
  | sint (value : Int)
  /-- An unsigned number. -/
  | uint (value : Nat)
  /-- All other values. -/
  | otherwise
  deriving DecidableEq, Repr, Inhabited

mutual

/-- A statement. -/
inductive Statement where
  /-- Computes the nodes from a number up to another. -/
  | emit (start stop : Ref)
  /-- A block. -/
  | block (body : List Statement)
  /-- A branch. -/
  | branch (condition : Ref) (accept reject : List Statement)
  /-- A choice by value. -/
  | switch (selector : Ref) (cases : List SwitchCase)
  /-- A loop, with what happens between two rounds. -/
  | loop (body continuing : List Statement)
  /-- Leaves a loop or a switch. -/
  | leave
  /-- Starts the next round of a loop. -/
  | next
  /-- Returns from the function. -/
  | finish (value : Option Ref)
  /-- Gives up the fragment. -/
  | kill
  /-- Waits for other invocations. -/
  | barrier
  /-- Stores a value. -/
  | store (pointer value : Ref)
  /-- Stores a texel. -/
  | storeTexel (image coordinate : Ref) (layer : Option Ref) (value : Ref)
  /-- Calls a function. -/
  | call (function : Nat) (arguments : List Ref) (result : Option Ref)

/-- A case of a switch. -/
inductive SwitchCase where
  /-- A case with its label, its statements, and whether it goes on to the next. -/
  | mk (value : CaseValue) (body : List Statement) (fallsThrough : Bool)

end

deriving instance Repr for Statement
deriving instance Repr for SwitchCase

instance : Inhabited Statement := ⟨.kill⟩

instance : Inhabited SwitchCase := ⟨.mk .otherwise [] false⟩

namespace SwitchCase

/-- The label of a case. -/
def value : SwitchCase → CaseValue
  | .mk value _ _ => value

/-- The statements of a case. -/
def body : SwitchCase → List Statement
  | .mk _ body _ => body

/-- Whether a case goes on to the next one. -/
def fallsThrough : SwitchCase → Bool
  | .mk _ _ fallsThrough => fallsThrough

/-- The case, not going on to another one. -/
def closed : SwitchCase → SwitchCase
  | .mk value body _ => .mk value body false

end SwitchCase

/-! ## Missing returns -/

mutual

/-- The statements of a function with a return at the end of each path that has
none.  A path that ends in computed nodes is left as it is. -/
def ensureReturns : List Statement → List Statement
  | [] => [.finish none]
  | [s] => s.withReturn
  | s :: rest => s :: ensureReturns rest

/-- The last statement of a function, with a return behind it if it has to have
one. -/
def Statement.withReturn : Statement → List Statement
  | .block body => [.block (ensureReturns body)]
  | .branch condition accept reject =>
      [.branch condition (ensureReturns accept) (ensureReturns reject)]
  | .switch selector cases => [.switch selector (ensureCaseReturns cases)]
  | .emit start stop => [.emit start stop]
  | .leave => [.leave]
  | .next => [.next]
  | .finish value => [.finish value]
  | .kill => [.kill]
  | s => [s, .finish none]

/-- The cases of a last switch, with returns. -/
def ensureCaseReturns : List SwitchCase → List SwitchCase
  | [] => []
  | c :: cs => c.withReturn :: ensureCaseReturns cs

/-- A case of a last switch, with a return if it does not go on to the next one. -/
def SwitchCase.withReturn : SwitchCase → SwitchCase
  | .mk value body false => .mk value (ensureReturns body) false
  | .mk value body true => .mk value body true

end

/-! ## Functions -/

/-- A local variable. -/
structure LocalVariable where
  /-- Its type. -/
  type : ShaderType
  /-- The node with its first value, if it has one. -/
  init : Option Ref
  deriving Repr, Inhabited

/-- The code of a function. -/
structure Function where
  /-- The types of its arguments. -/
  arguments : List ShaderType := []
  /-- The type of its result, if it has one. -/
  result : Option ShaderType := none
  /-- Its local variables. -/
  locals : List LocalVariable := []
  /-- Its nodes. -/
  nodes : Array Node := #[]
  /-- Its statements. -/
  body : List Statement := []
  deriving Repr, Inhabited

/-! ## Constants -/

/-- A constant of a module. -/
structure Constant where
  /-- Its name. -/
  name : String
  /-- Its type. -/
  type : ShaderType
  /-- The node with its value. -/
  init : Ref
  deriving BEq, Repr, Inhabited

/-- What the functions of a module share: its types, in the order in which they
came up, and its constants with the nodes of their values. -/
structure Definitions where
  /-- The types. -/
  types : Array ShaderType := #[]
  /-- The nodes of constants. -/
  nodes : Array Node := #[]
  /-- The constants. -/
  constants : Array Constant := #[]
  deriving Repr, Inhabited

namespace Definitions

/-- The index of a type, which is one behind all of them if it is none of them. -/
def typeIndex (d : Definitions) (type : ShaderType) : Nat :=
  (d.types.findIdx? (· == type)).getD d.types.size

/-- The definitions with a type among them. -/
def withType (d : Definitions) (type : ShaderType) : Definitions :=
  if d.types.any (· == type) then d else { d with types := d.types.push type }

/-- The literal that a node of the constants is. -/
def literal? (d : Definitions) (nodes : Array Node) (node : Ref) : Option Literal :=
  match nodes[node]? with
  | some (.literal l) => some l
  | some (.constant c) =>
      match (d.constants[c]?).bind fun k => d.nodes[k.init]? with
      | some (.literal l) => some l
      | _ => none
  | _ => none

end Definitions

end LegacyShader.Code
