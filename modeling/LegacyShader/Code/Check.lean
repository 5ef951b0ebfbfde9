import LegacyShader.Code.Typing
import LegacyShader.ShaderType.Validity

/-!
# Valid nodes

Which operands go together.  A node is checked against the types of the nodes it
refers to, and a list of nodes is valid if each of its nodes has a type and passes
its check.
-/

namespace LegacyShader.Code

/-! ## Types -/

namespace NodeType

/-- A pointer to a scalar or a vector in the form of a pointer to a component. -/
def canonical : NodeType → NodeType
  | .pointer (.scalar s) space => .component none s space
  | .pointer (.vector size s) space => .component (some size) s space
  | type => type

/-- Equality of types apart from the names of structs and the form of pointers. -/
def equivalent (a b : NodeType) : Bool :=
  match a.canonical, b.canonical with
  | .value a, .value b => a.alike b
  | .pointer a space, .pointer b space' => a == b && decide (space = space')
  | .component size s space, .component size' s' space' =>
      decide (size = size' ∧ s = s' ∧ space = space')
  | _, _ => false

/-- Whether both are values of one type. -/
def agrees : NodeType → NodeType → Bool
  | .value a, .value b => a.alike b
  | .pointer a space, .pointer b space' => a == b && decide (space = space')
  | .component size s space, .component size' s' space' =>
      decide (size = size' ∧ s = s' ∧ space = space')
  | _, _ => false

/-- The kind of number of a scalar or a vector. -/
def numberKind? : NodeType → Option ScalarKind
  | .value (.scalar s) | .value (.vector _ s) => some s.kind
  | _ => none

/-- Whether a value is a scalar or a vector of one of some kinds. -/
def isOf (kinds : List ScalarKind) (t : NodeType) : Bool :=
  t.numberKind?.any fun k => kinds.contains k

/-- Whether a value is a scalar of one of some kinds. -/
def isScalarOf (kinds : List ScalarKind) : NodeType → Bool
  | .value (.scalar s) => kinds.contains s.kind
  | _ => false

/-- Whether a value is a vector of one of some kinds. -/
def isVectorOf (kinds : List ScalarKind) : NodeType → Bool
  | .value (.vector _ s) => kinds.contains s.kind
  | _ => false

/-- Whether a value has as many components of a kind as a number says. -/
def isCoordinate (count : Nat) (kind : ScalarKind) : NodeType → Bool
  | .value (.scalar s) => s.kind == kind && count == 1
  | .value (.vector size s) => s.kind == kind && size.count == count
  | _ => false

end NodeType

/-- The kinds of whole numbers. -/
def wholeKinds : List ScalarKind := [.sint, .uint]

/-- The kinds of numbers. -/
def numberKinds : List ScalarKind := [.sint, .uint, .float]

/-! ## Values from parts -/

/-- The number of components that a part adds to a vector. -/
def componentCount? (s : Scalar) : NodeType → Option Nat
  | .value (.scalar t) => if t = s then some 1 else none
  | .value (.vector size t) => if t = s then some size.count else none
  | _ => none

/-- Whether a value can be put together from parts. -/
def validCompose (type : ShaderType) (parts : List NodeType) : Bool :=
  match type with
  | .vector size s =>
      (parts.mapM (componentCount? s)).any fun counts => counts.foldl Nat.add 0 == size.count
  | .matrix columns rows s =>
      parts.length == columns.count && parts.all fun p => p.agrees (.value (.vector rows s))
  | .array base (some count) _ =>
      parts.length == count && parts.all fun p => p.equivalent (.ofType base)
  | .struct _ members _ =>
      parts.length == members.length &&
        (members.zip parts).all fun (m, p) => p.equivalent (.ofType m.type)
  | _ => false

/-! ## Parts -/

/-- The number of elements, if it is known, of something with elements. -/
def elementCount? : NodeType → Option (Option Nat)
  | .value type | .pointer type _ =>
      match type with
      | .vector size _ => some (some size.count)
      | .matrix columns _ _ => some (some columns.count)
      | .array _ length _ => some length
      | _ => none
  | .component (some size) _ _ => some (some size.count)
  | _ => none

/-- The number of parts of something with parts. -/
def partCount? : NodeType → Option Nat
  | .value type | .pointer type _ =>
      match type with
      | .vector size _ => some size.count
      | .matrix columns _ _ => some columns.count
      | .array _ length _ => some (length.getD 4294967295)
      | .struct _ members _ => some members.length
      | _ => none
  | .component (some size) _ _ => some size.count
  | _ => none

/-- Whether an index is known without running the code. -/
def isFixed : Option Node → Bool
  | some (.literal _) | some (.constant _) => true
  | _ => false

/-- Whether only a fixed index can lead into a value. -/
def needsFixedIndex : NodeType → Bool
  | .value (.matrix ..) | .value (.array ..) => true
  | _ => false

/-- Whether an index, if its value is known, lies below a bound. -/
def indexFits (value : Option Literal) (bound : Option Nat) : Bool :=
  match value.bind Literal.whole?, bound with
  | some v, some n => decide (0 ≤ v ∧ v < n)
  | _, _ => true

/-! ## Operators -/

/-- Whether a product exists. -/
def validProduct (left right : NodeType) : Bool :=
  let shapes := match left, right with
    | .value (.scalar s), .value (.scalar t)
    | .value (.vector _ s), .value (.scalar t)
    | .value (.scalar s), .value (.vector _ t) => decide (s = t)
    | .value (.scalar s), .value (.matrix ..) => s.kind == .float
    | .value (.matrix ..), .value (.scalar s) => s.kind == .float
    | .value (.vector n s), .value (.vector m t) => decide (n = m ∧ s = t)
    | .value (.matrix columns _ _), .value (.vector n s) => s.kind == .float && decide (columns = n)
    | .value (.vector n s), .value (.matrix _ rows _) => s.kind == .float && decide (n = rows)
    | .value (.matrix columns _ _), .value (.matrix _ rows _) => decide (columns = rows)
    | _, _ => false
  let width (t : NodeType) : Nat := (t.scalar?.map (·.width)).getD 0
  (left.scalar?.any fun s => numberKinds.contains s.kind) && shapes && width left == width right

/-- Whether a shift exists. -/
def validShift : NodeType → NodeType → Bool
  | .value (.scalar s), .value (.scalar t) => wholeKinds.contains s.kind && t.kind == .uint
  | .value (.vector n s), .value (.vector m t) =>
      wholeKinds.contains s.kind && t.kind == .uint && decide (n = m)
  | _, _ => false

/-- Whether an operator can have two operands. -/
def BinaryOp.accepts (op : BinaryOp) (left right : NodeType) : Bool :=
  match op with
  | .add | .subtract =>
      match left with
      | .value (.matrix ..) => left.agrees right
      | _ => left.isOf numberKinds && left.agrees right
  | .divide | .modulo | .less | .lessEqual | .greater | .greaterEqual =>
      left.isOf numberKinds && left.agrees right
  | .multiply => validProduct left right
  | .equal | .notEqual => (left.type?.any (·.isSized)) && left.agrees right
  | .logicalAnd | .logicalOr => left.isOf [.bool] && left.agrees right
  | .bitAnd | .bitOr => left.isOf [.bool, .sint, .uint] && left.agrees right
  | .bitXor => left.isOf wholeKinds && left.agrees right
  | .shiftLeft | .shiftRight => validShift left right

/-- Whether an operator can have an operand. -/
def UnaryOp.accepts (op : UnaryOp) (operand : NodeType) : Bool :=
  operand.scalar?.any fun s =>
    match op with
    | .negate => s.kind == .float || s.kind == .sint
    | .logicalNot => s.kind == .bool
    | .bitwiseNot => wholeKinds.contains s.kind

/-- Whether a choice between two values exists. -/
def validSelect (condition accept reject : NodeType) : Bool :=
  (match condition, accept with
    | .value (.scalar s), .value (.scalar _) | .value (.scalar s), .value (.vector ..) =>
        s.kind == .bool
    | .value (.vector n s), .value (.vector m _) => s.kind == .bool && decide (n = m)
    | _, _ => false) && accept.agrees reject

/-- Whether a test can have an operand. -/
def RelationalFunction.accepts (f : RelationalFunction) (operand : NodeType) : Bool :=
  match f with
  | .all | .any => operand.isVectorOf [.bool]
  | .isNan | .isInf => operand.isOf [.float]

/-- Whether a conversion exists. -/
def validCast (kind : ScalarKind) (width : Option Nat) (operand : NodeType) : Bool :=
  operand.scalar?.any fun s =>
    let width := width.getD s.width
    match kind with
    | .bool => width == 1
    | .float => width == 4 || width == 8
    | .sint | .uint => width == 4

/-! ## Functions -/

/-- Whether an argument is a square matrix. -/
def isSquare : NodeType → Bool
  | .value (.matrix columns rows _) => decide (columns = rows)
  | _ => false

/-- Whether an argument is a matrix. -/
def isMatrix : NodeType → Bool
  | .value (.matrix ..) => true
  | _ => false

/-- Whether the exponent of a number has its shape. -/
def validExponent : NodeType → NodeType → Bool
  | .value (.scalar s), .value (.scalar t) => s.kind == .float && t.kind == .sint
  | .value (.vector n s), .value (.vector m t) =>
      s.kind == .float && t.kind == .sint && decide (n = m)
  | _, _ => false

/-- Whether a weight is a scalar of the width of a value, or a value of its type. -/
def validWeight (value weight : NodeType) : Bool :=
  weight.agrees value ||
    match weight with
    | .value (.scalar s) => value.scalar?.any fun t => s.kind == .float && s.width == t.width
    | _ => false

/-- Whether a function can have some arguments. -/
def MathFunction.accepts (f : MathFunction) (arguments : List NodeType) : Bool :=
  let same (rest : List NodeType) (a : NodeType) : Bool := rest.all fun b => b.agrees a
  match f, arguments with
  | .abs, [a] => a.isOf numberKinds
  | .min, [a, b] | .max, [a, b] => a.isOf numberKinds && same [b] a
  | .clamp, [a, b, c] => a.isOf numberKinds && same [b, c] a
  | .sign, [a] => a.isOf [.float, .sint]
  | .atan2, [a, b] | .pow, [a, b] | .distance, [a, b] | .step, [a, b] =>
      a.isOf [.float] && same [b] a
  | .ldexp, [a, b] => validExponent a b
  | .dot, [a, b] => a.isVectorOf numberKinds && same [b] a
  | .outer, [a, b] | .cross, [a, b] | .reflect, [a, b] => a.isVectorOf [.float] && same [b] a
  | .refract, [a, b, c] =>
      a.isVectorOf [.float] && same [b] a && c.isScalarOf [.float] &&
        c.scalar?.map (·.width) == a.scalar?.map (·.width)
  | .normalize, [a] => a.isVectorOf [.float]
  | .faceForward, [a, b, c] | .fma, [a, b, c] | .smoothStep, [a, b, c] =>
      a.isOf [.float] && same [b, c] a
  | .mix, [a, b, c] => a.isOf [.float] && same [b] a && validWeight a c
  | .inverse, [a] | .determinant, [a] => isSquare a
  | .transpose, [a] => isMatrix a
  | .countOneBits, [a] | .reverseBits, [a] | .findLsb, [a] | .findMsb, [a] => a.isOf wholeKinds
  | .insertBits, [a, b, c, d] =>
      a.isOf wholeKinds && same [b] a && c.isScalarOf [.uint] && d.isScalarOf [.uint]
  | .extractBits, [a, b, c] => a.isOf wholeKinds && b.isScalarOf [.uint] && c.isScalarOf [.uint]
  | .pack2x16snorm, [a] | .pack2x16unorm, [a] | .pack2x16float, [a] => a.isCoordinate 2 .float
  | .pack4x8snorm, [a] | .pack4x8unorm, [a] => a.isCoordinate 4 .float
  | .unpack4x8snorm, [a] | .unpack4x8unorm, [a] | .unpack2x16snorm, [a] | .unpack2x16unorm, [a]
  | .unpack2x16float, [a] => a.isScalarOf [.uint]
  | _, [a] => a.isOf [.float]
  | _, _ => false

end LegacyShader.Code
