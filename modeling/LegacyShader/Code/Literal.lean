import LegacyShader.Decimal.Power
import LegacyShader.Decimal.Shortest
import LegacyShader.ShaderType.Shown

/-!
# Literals

The scalar values that a source can spell out, and what operators make of them.
Whole numbers have 32 bits.  Their sums, differences and products have to fit, while
shifts and bitwise operators work on the bits.

An operator that has no value is a cause of its own, a *fold error*.
-/

namespace LegacyShader.Code

open Decimal (FloatFormat Number)

/-! ## Operators -/

/-- An operator with two operands. -/
inductive BinaryOp where
  | add | subtract | multiply | divide | modulo | equal | notEqual | less | lessEqual | greater
  | greaterEqual | bitAnd | bitXor | bitOr | logicalAnd | logicalOr | shiftLeft | shiftRight
  deriving DecidableEq, Repr, Inhabited

/-- An operator with one operand. -/
inductive UnaryOp where
  | negate | logicalNot | bitwiseNot
  deriving DecidableEq, Repr, Inhabited

/-- Whether an operator compares its operands. -/
def BinaryOp.compares : BinaryOp → Bool
  | .equal | .notEqual | .less | .lessEqual | .greater | .greaterEqual => true
  | _ => false

/-- The name of an operator in messages. -/
def BinaryOp.shown : BinaryOp → String
  | .add => "Add"
  | .subtract => "Subtract"
  | .multiply => "Multiply"
  | .divide => "Divide"
  | .modulo => "Modulo"
  | .equal => "Equal"
  | .notEqual => "NotEqual"
  | .less => "Less"
  | .lessEqual => "LessEqual"
  | .greater => "Greater"
  | .greaterEqual => "GreaterEqual"
  | .bitAnd => "And"
  | .bitXor => "ExclusiveOr"
  | .bitOr => "InclusiveOr"
  | .logicalAnd => "LogicalAnd"
  | .logicalOr => "LogicalOr"
  | .shiftLeft => "ShiftLeft"
  | .shiftRight => "ShiftRight"

/-- The name of an operator in messages. -/
def UnaryOp.shown : UnaryOp → String
  | .negate => "Negate"
  | .logicalNot => "LogicalNot"
  | .bitwiseNot => "BitwiseNot"

/-! ## Errors -/

/-- Why an expression has no constant value. -/
inductive FoldError where
  /-- A part of it is no constant. -/
  | notConstant
  /-- It is an argument of a function. -/
  | argument
  /-- It is a global variable. -/
  | globalVariable
  /-- It is a local variable. -/
  | localVariable
  /-- It is loaded from memory. -/
  | load
  /-- It is the result of a call. -/
  | call
  /-- It depends on neighboring fragments. -/
  | derivative
  /-- It depends on a texture. -/
  | image
  /-- It is a function without constant values. -/
  | notImplemented (what : String)
  /-- It is the length of something else than an array. -/
  | notAnArray
  /-- It is the length of an array of unknown length. -/
  | unknownLength
  /-- It is a part of something without parts. -/
  | accessBase
  /-- It is a part that does not exist. -/
  | accessIndex
  /-- It is a part at an index that is no unsigned number. -/
  | accessIndexType
  /-- It is a conversion that does not exist. -/
  | cast (source : String) (target : Scalar)
  /-- An operator does not apply to its operand. -/
  | unaryOperand
  /-- An operator does not apply to its operands. -/
  | binaryOperands
  /-- A function does not apply to its arguments. -/
  | mathArgument
  /-- The limits of a clamp are in the wrong order. -/
  | clampLimits
  /-- Something else than a scalar is spread over a vector. -/
  | splatOperand
  /-- Components are chosen of something else than a vector. -/
  | swizzleOperand
  /-- A component is chosen that does not exist. -/
  | swizzleComponent
  /-- The value of an operation does not fit. -/
  | overflow (operation : String)
  /-- A division by zero. -/
  | divisionByZero
  /-- A remainder by zero. -/
  | remainderByZero
  /-- A shift by too many bits. -/
  | shiftDistance
  /-- A value that is not a number. -/
  | notANumber
  /-- A value that is infinite. -/
  | infinite
  deriving DecidableEq, Repr, Inhabited

/-- The text of an error. -/
def FoldError.message : FoldError → String
  | .notConstant => "Subexpression(s) are not constant"
  | .argument => "Constants cannot access function arguments"
  | .globalVariable => "Constants cannot access global variables"
  | .localVariable => "Constants cannot access local variables"
  | .load => "Constants don't support load expressions"
  | .call => "Constants cannot call functions"
  | .derivative => "Constants don't support derivative functions"
  | .image => "Constants don't support image expressions"
  | .notImplemented what => "Not implemented as constant expression: " ++ what ++ " built-in function"
  | .notAnArray => "Cannot get the array length of a non array type"
  | .unknownLength => "Constants cannot get the array length of a dynamically sized array"
  | .accessBase => "Cannot access the type"
  | .accessIndex => "Cannot access at the index"
  | .accessIndexType => "Cannot access with index of type"
  | .cast source target =>
      "Cannot cast scalar components of expression `" ++ source ++ "` to type `" ++
        target.shown ++ "`"
  | .unaryOperand => "Cannot apply the unary op to the argument"
  | .binaryOperands => "Cannot apply the binary op to the arguments"
  | .mathArgument => "Cannot apply math function to type"
  | .clampLimits => "value of `low` is greater than `high` for clamp built-in function"
  | .splatOperand => "Splat is defined only on scalar values"
  | .swizzleOperand => "Can only swizzle vector constants"
  | .swizzleComponent => "swizzle component not present in source expression"
  | .overflow operation => operation ++ " operation overflowed"
  | .divisionByZero => "Division by zero"
  | .remainderByZero => "Remainder by zero"
  | .shiftDistance => "RHS of shift operation is greater than or equal to 32"
  | .notANumber => "Float literal is NaN"
  | .infinite => "Float literal is infinite"

/-! ## Literals -/

/-- A scalar value. -/
inductive Literal where
  /-- A number of single precision. -/
  | float (value : Number)
  /-- A number of double precision. -/
  | double (value : Number)
  /-- A signed whole number. -/
  | sint (value : Int)
  /-- An unsigned whole number. -/
  | uint (value : Nat)
  /-- A truth value. -/
  | bool (value : Bool)
  deriving DecidableEq, Repr, Inhabited

/-- The number of values of a word. -/
def wordCount : Nat := 4294967296

/-- The least signed number. -/
def leastSigned : Int := -2147483648

/-- The largest signed number. -/
def mostSigned : Int := 2147483647

namespace Literal

/-- The scalar type of a literal. -/
def scalar : Literal → Scalar
  | .float _ => .f32
  | .double _ => .f64
  | .sint _ => .i32
  | .uint _ => .u32
  | .bool _ => .bool

/-- A small whole number of a scalar type of numbers. -/
def ofSmall? (n : Nat) (s : Scalar) : Option Literal :=
  if s = .f32 then some (.float (.ofInt .single n))
  else if s = .f64 then some (.double (.ofInt .double n))
  else if s = .i32 then some (.sint n)
  else if s = .u32 then some (.uint n)
  else none

/-- The value of a literal that is a whole number. -/
def whole? : Literal → Option Int
  | .sint value => some value
  | .uint value => some value
  | _ => none

/-- Whether a literal has a value that can be written. -/
def check : Literal → Except FoldError Unit
  | .float .notANumber | .double .notANumber => .error .notANumber
  | .float (.signed _ .infinite) | .double (.signed _ .infinite) => .error .infinite
  | _ => .ok ()

/-! ## One operand -/

/-- The value of an operator with one operand. -/
def unary (op : UnaryOp) (a : Literal) : Except FoldError Literal :=
  match op, a with
  | .negate, .sint value => .ok (.sint (Int.bmod (-value) wordCount))
  | .negate, .float value => .ok (.float value.negate)
  | .logicalNot, .bool value => .ok (.bool !value)
  | .bitwiseNot, .sint value => .ok (.sint (-value - 1))
  | .bitwiseNot, .uint value => .ok (.uint (wordCount - 1 - value))
  | _, _ => .error .unaryOperand

/-- The literal converted to a scalar type, if there is such a conversion. -/
def cast? (target : Scalar) (a : Literal) : Option Literal :=
  if target = .i32 then
    match a with
    | .sint value => some (.sint value)
    | .uint value => some (.sint (Int.bmod value wordCount))
    | .float value => some (.sint (value.truncate .single leastSigned mostSigned))
    | .bool value => some (.sint value.toNat)
    | .double _ => none
  else if target = .u32 then
    match a with
    | .sint value => some (.uint (value % wordCount).toNat)
    | .uint value => some (.uint value)
    | .float value => some (.uint (value.truncate .single 0 (wordCount - 1)).toNat)
    | .bool value => some (.uint value.toNat)
    | .double _ => none
  else if target = .f32 then
    match a with
    | .sint value => some (.float (.ofInt .single value))
    | .uint value => some (.float (.ofInt .single value))
    | .float value => some (.float value)
    | .bool value => some (.float (.ofInt .single value.toNat))
    | .double _ => none
  else if target = .f64 then
    match a with
    | .sint value => some (.double (.ofInt .double value))
    | .uint value => some (.double (.ofInt .double value))
    | .float value => some (.double (value.convert .single .double))
    | .double value => some (.double value)
    | .bool value => some (.double (.ofInt .double value.toNat))
  else if target = .bool then
    match a with
    | .sint value => some (.bool (value != 0))
    | .uint value => some (.bool (value != 0))
    | .float value => some (.bool (value.units? != some 0))
    | .bool value => some (.bool value)
    | .double _ => none
  else none

/-! ## Two operands -/

/-- A signed number that fits, as the value of an operation. -/
def signedIn (operation : String) (value : Int) : Except FoldError Literal :=
  if leastSigned ≤ value ∧ value ≤ mostSigned then .ok (.sint value)
  else .error (.overflow operation)

/-- An unsigned number that fits, as the value of an operation. -/
def unsignedIn (operation : String) (value : Int) : Except FoldError Literal :=
  if 0 ≤ value ∧ value < wordCount then .ok (.uint value.toNat)
  else .error (.overflow operation)

/-- The bits of a signed number. -/
def bitsOf (value : Int) : Nat := (value % wordCount).toNat

/-- The signed number of some bits. -/
def ofBits (bits : Nat) : Literal := .sint (Int.bmod bits wordCount)

/-- The value of an operator on two signed numbers. -/
def signedBinary (op : BinaryOp) (a b : Int) : Except FoldError Literal :=
  match op with
  | .add => signedIn "addition" (a + b)
  | .subtract => signedIn "subtraction" (a - b)
  | .multiply => signedIn "multiplication" (a * b)
  | .divide => if b = 0 then .error .divisionByZero else signedIn "division" (a.tdiv b)
  | .modulo =>
      if b = 0 then .error .remainderByZero
      else if a = leastSigned ∧ b = -1 then .error (.overflow "remainder")
      else .ok (.sint (a.tmod b))
  | .bitAnd => .ok (ofBits (bitsOf a &&& bitsOf b))
  | .bitXor => .ok (ofBits (bitsOf a ^^^ bitsOf b))
  | .bitOr => .ok (ofBits (bitsOf a ||| bitsOf b))
  | _ => .error .binaryOperands

/-- The value of an operator on two unsigned numbers. -/
def unsignedBinary (op : BinaryOp) (a b : Nat) : Except FoldError Literal :=
  match op with
  | .add => unsignedIn "addition" (a + b)
  | .subtract => unsignedIn "subtraction" ((a : Int) - b)
  | .multiply => unsignedIn "multiplication" (a * b)
  | .divide => if b = 0 then .error .divisionByZero else .ok (.uint (a / b))
  | .modulo => if b = 0 then .error .remainderByZero else .ok (.uint (a % b))
  | .bitAnd => .ok (.uint (a &&& b))
  | .bitXor => .ok (.uint (a ^^^ b))
  | .bitOr => .ok (.uint (a ||| b))
  | .shiftLeft => if b < 32 then .ok (.uint (a * Nat.pow 2 b % wordCount)) else .error .shiftDistance
  | .shiftRight => if b < 32 then .ok (.uint (a / Nat.pow 2 b)) else .error .shiftDistance
  | _ => .error .binaryOperands

/-- The value of a shift of a signed number. -/
def shift (op : BinaryOp) (a : Int) (b : Nat) : Except FoldError Literal :=
  match op with
  | .shiftLeft =>
      if b < 32 then .ok (.sint (Int.bmod (a * Nat.pow 2 b) wordCount)) else .error .shiftDistance
  | .shiftRight => if b < 32 then .ok (.sint (a.fdiv (Nat.pow 2 b))) else .error .shiftDistance
  | _ => .error .binaryOperands

/-- The value of an operator on two numbers of single precision. -/
def floatBinary (op : BinaryOp) (a b : Number) : Except FoldError Literal :=
  match op with
  | .add => .ok (.float (a.add .single b))
  | .subtract => .ok (.float (a.subtract .single b))
  | .multiply => .ok (.float (a.multiply .single b))
  | .divide => .ok (.float (a.divide .single b))
  | .modulo => .ok (.float (a.remainder .single b))
  | _ => .error .binaryOperands

/-- The order of two literals of one type. -/
def compare? : Literal → Literal → Option Ordering
  | .float a, .float b => a.compare? b
  | .double a, .double b => a.compare? b
  | .sint a, .sint b => some (compare a b)
  | .uint a, .uint b => some (compare a b)
  | .bool a, .bool b => some (compare a.toNat b.toNat)
  | _, _ => none

/-- The outcome of a comparison. -/
def comparison (op : BinaryOp) (a b : Literal) : Bool :=
  match op with
  | .equal => decide (a = b)
  | .notEqual => decide (a ≠ b)
  | .less => (compare? a b).any (· == .lt)
  | .lessEqual => (compare? a b).any (· != .gt)
  | .greater => (compare? a b).any (· == .gt)
  | .greaterEqual => (compare? a b).any (· != .lt)
  | _ => false

/-- The value of an operator with two operands. -/
def binary (op : BinaryOp) (a b : Literal) : Except FoldError Literal :=
  if op.compares then .ok (.bool (comparison op a b))
  else
    match a, b with
    | .sint a, .sint b => signedBinary op a b
    | .sint a, .uint b => shift op a b
    | .uint a, .uint b => unsignedBinary op a b
    | .float a, .float b => floatBinary op a b
    | .bool a, .bool b =>
        match op with
        | .logicalAnd => .ok (.bool (a && b))
        | .logicalOr => .ok (.bool (a || b))
        | _ => .error .binaryOperands
    | _, _ => .error .binaryOperands

/-! ## Functions -/

/-- The value of a power. -/
def power : Literal → Literal → Except FoldError Literal
  | .float a, .float b => .ok (.float (a.power .single b))
  | _, _ => .error .mathArgument

/-- A value within two limits. -/
def clamp (a low high : Literal) : Except FoldError Literal :=
  if a.scalar = low.scalar ∧ a.scalar = high.scalar ∧ a.scalar ≠ .bool ∧ a.scalar ≠ .f64 then
    if comparison .greater low high then .error .clampLimits
    else if comparison .less a low then .ok low
    else if comparison .greater a high then .ok high
    else .ok a
  else .error .mathArgument

/-! ## Text -/

/-- A number in messages. -/
def numberShown (f : FloatFormat) : Number → String
  | .notANumber => "NaN"
  | .signed negative m =>
      (if negative then "-" else "") ++
        match m with
        | .infinite => "inf"
        | .finite mantissa scale => Decimal.literalStyle.write (Decimal.shortest f mantissa scale)

/-- A literal in messages. -/
def shown : Literal → String
  | .float value => "F32(" ++ numberShown .single value ++ ")"
  | .double value => "F64(" ++ numberShown .double value ++ ")"
  | .sint value => "I32(" ++ toString value ++ ")"
  | .uint value => "U32(" ++ toString value ++ ")"
  | .bool value => "Bool(" ++ boolShown value ++ ")"

end Literal

end LegacyShader.Code
