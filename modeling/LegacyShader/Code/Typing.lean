import LegacyShader.Code.Node

/-!
# Types of nodes

Each node has a type that follows from the types of the nodes it refers to.  A node
can be a value, or a pointer: to a variable or a part of one, or to a vector inside
a matrix or a scalar inside a vector.

The type says less than validity.  Operands that do not go together are refused only
where no type could be told at all.
-/

namespace LegacyShader.Code

/-! ## Types -/

/-- The type of a node. -/
inductive NodeType where
  /-- A value. -/
  | value (type : ShaderType)
  /-- A pointer to something of a type. -/
  | pointer (base : ShaderType) (space : AddressSpace)
  /-- A pointer to a vector inside a matrix, or to a scalar inside a vector. -/
  | component (size : Option VectorSize) (scalar : Scalar) (space : AddressSpace)
  deriving Repr, Inhabited

/-- A vector of some size, or a scalar. -/
def sizedType (size : Option VectorSize) (s : Scalar) : ShaderType :=
  match size with
  | some n => .vector n s
  | none => .scalar s

namespace NodeType

/-- The type of a node whose value has a type.  A pointer as a value points into
the memory of a function. -/
def ofType : ShaderType → NodeType
  | .pointer base => .pointer base .function
  | type => .value type

/-- The memory that a pointer points into. -/
def space? : NodeType → Option AddressSpace
  | .value _ => none
  | .pointer _ space | .component _ _ space => some space

/-- The type of what a pointer points to. -/
def pointee? : NodeType → Option ShaderType
  | .value _ => none
  | .pointer base _ => some base
  | .component size s _ => some (sizedType size s)

/-- The type of a value. -/
def type? : NodeType → Option ShaderType
  | .value type => some type
  | _ => none

/-- The scalar of a value. -/
def scalar? : NodeType → Option Scalar
  | .value (.scalar s) | .value (.vector _ s) | .value (.matrix _ _ s) => some s
  | _ => none

/-- The scalar of a value, or of what a pointer to a component points to. -/
def componentScalar? : NodeType → Option Scalar
  | .component _ s _ => some s
  | type => type.scalar?

end NodeType

/-! ## Surroundings -/

/-- What the nodes of a function refer to. -/
structure Surroundings where
  /-- The types and constants of the module. -/
  definitions : Definitions
  /-- The global variables. -/
  globals : Array (ShaderType × AddressSpace)
  /-- The results of the functions of the module. -/
  results : Array (Option ShaderType)
  /-- The arguments of the function. -/
  arguments : Array ShaderType
  /-- The local variables of the function. -/
  locals : Array ShaderType
  deriving Inhabited

/-! ## Errors -/

/-- Why a node has no type.  Nodes are given by number. -/
inductive TypeError where
  /-- A part that does not exist. -/
  | outOfBounds (node : Ref) (index : Nat)
  /-- A part of something without parts, in memory: the index of its type. -/
  | pointeeParts (type : Nat) (known : Bool)
  /-- A part of something without parts. -/
  | parts (node : Ref) (known : Bool)
  /-- Something else than a scalar is spread over a vector. -/
  | notScalar (node : Ref)
  /-- Components are chosen of something else than a vector. -/
  | notVector (node : Ref)
  /-- Something else than a pointer is loaded from. -/
  | notPointer (node : Ref)
  /-- Something else than a texture is sampled. -/
  | notImage (node : Ref)
  /-- The result of a function without one. -/
  | noResult
  /-- Operands without a joint type: the operation in the form of a message. -/
  | operands (shown : String)
  /-- A variable or an argument that does not exist. -/
  | missing
  deriving DecidableEq, Repr, Inhabited

/-- The type of a node in messages. -/
def NodeType.shown (d : Definitions) : NodeType → String
  | .value type => type.shown d.typeIndex
  | .pointer base space => pointerShown (numberShown (d.typeIndex base)) space
  | .component size s space =>
      let size := match size with
        | some n => "Some(" ++ n.shown ++ ")"
        | none => "None"
      "ValuePointer \x7b size: " ++ size ++ ", scalar: " ++ s.shown ++ ", space: " ++ space.shown ++
        " \x7d"

/-- The fields of an error about parts, in messages. -/
def partsShown (field : String) (index : Nat) (known : Bool) : String :=
  " \x7b " ++ field ++ ": " ++ numberShown index ++ ", indexed: " ++ boolShown known ++ " \x7d"

/-- An error in messages. -/
def TypeError.shown : TypeError → String
  | .outOfBounds node index =>
      "OutOfBoundsIndex \x7b expr: " ++ numberShown node ++ ", index: " ++ toString index ++ " \x7d"
  | .pointeeParts type known => "InvalidSubAccess" ++ partsShown "ty" type known
  | .parts node known => "InvalidAccess" ++ partsShown "expr" node known
  | .notScalar node => "InvalidScalar(" ++ numberShown node ++ ")"
  | .notVector node => "InvalidVector(" ++ numberShown node ++ ")"
  | .notPointer node => "InvalidPointer(" ++ numberShown node ++ ")"
  | .notImage node => "InvalidImage(" ++ numberShown node ++ ")"
  | .noResult => "FunctionReturnsVoid"
  | .operands shown => "IncompatibleOperands(" ++ Text.quoted shown ++ ")"
  | .missing => "FunctionArgumentNotFound(0)"

/-! ## Parts -/

/-- The type of an element at a computed index, of the node `base`. -/
def elementType (d : Definitions) (base : Ref) : NodeType → Except TypeError NodeType
  | .value (.array element _ _) => .ok (.ofType element)
  | .value (.matrix _ rows s) => .ok (.value (.vector rows s))
  | .value (.vector _ s) => .ok (.value (.scalar s))
  | .component (some _) s space => .ok (.component none s space)
  | .pointer (.array element _ _) space => .ok (.pointer element space)
  | .pointer (.vector _ s) space => .ok (.component none s space)
  | .pointer (.matrix _ rows s) space => .ok (.component (some rows) s space)
  | .pointer type _ => .error (.pointeeParts (d.typeIndex type) false)
  | _ => .error (.parts base false)

/-- The member of a struct at an index, of the node `base`. -/
def memberAt (base : Ref) (index : Nat) (members : List StructMember) :
    Except TypeError ShaderType :=
  match members[index]? with
  | some m => .ok m.type
  | none => .error (.outOfBounds base index)

/-- Refuses an index that is not below a size. -/
def within {α : Type} (base : Ref) (index : Nat) (size : VectorSize) (type : α) :
    Except TypeError α :=
  if index < size.count then .ok type else .error (.outOfBounds base index)

/-- The type of a part at a known index, of the node `base`. -/
def partType (d : Definitions) (base : Ref) (index : Nat) : NodeType → Except TypeError NodeType
  | .value (.vector size s) => within base index size (.value (.scalar s))
  | .value (.matrix columns rows s) => within base index columns (.value (.vector rows s))
  | .value (.array element _ _) => .ok (.ofType element)
  | .value (.struct _ members _) => (memberAt base index members).map .ofType
  | .component (some size) s space => within base index size (.component none s space)
  | .pointer (.array element _ _) space => .ok (.pointer element space)
  | .pointer (.vector size s) space => within base index size (.component none s space)
  | .pointer (.matrix columns rows s) space =>
      within base index columns (.component (some rows) s space)
  | .pointer (.struct _ members _) space =>
      (memberAt base index members).map fun type => .pointer type space
  | .pointer type _ => .error (.pointeeParts (d.typeIndex type) true)
  | _ => .error (.parts base true)

/-! ## Operators -/

/-- The type of a product. -/
def productType (d : Definitions) (left right : NodeType) : Except TypeError NodeType :=
  match left, right with
  | .value (.matrix _ rows s), .value (.matrix columns _ _) => .ok (.value (.matrix columns rows s))
  | .value (.matrix _ rows s), .value (.vector ..) => .ok (.value (.vector rows s))
  | .value (.vector ..), .value (.matrix columns _ s) => .ok (.value (.vector columns s))
  | .value (.scalar _), _ => .ok right
  | _, .value (.scalar _) => .ok left
  | .value (.vector ..), .value (.vector ..) => .ok left
  | _, _ => .error (.operands (left.shown d ++ " * " ++ right.shown d))

/-- The type of a test of each component. -/
def testType? : NodeType → Option NodeType
  | .value (.scalar _) => some (.value (.scalar .bool))
  | .value (.vector size _) => some (.value (.vector size .bool))
  | _ => none

/-- The type of an operator with two operands. -/
def BinaryOp.type (op : BinaryOp) (d : Definitions) (left right : NodeType) :
    Except TypeError NodeType :=
  match op with
  | .multiply => productType d left right
  | .equal | .notEqual | .less | .lessEqual | .greater | .greaterEqual | .logicalAnd
  | .logicalOr =>
      match testType? left with
      | some type => .ok type
      | none => .error (.operands (op.shown ++ "(" ++ left.shown d ++ ", _)"))
  | _ => .ok left

/-- The type of a conversion. -/
def castType (d : Definitions) (kind : ScalarKind) (width : Option Nat) :
    NodeType → Except TypeError NodeType
  | .value (.scalar s) => .ok (.value (.scalar ⟨kind, width.getD s.width⟩))
  | .value (.vector size s) => .ok (.value (.vector size ⟨kind, width.getD s.width⟩))
  | .value (.matrix columns rows s) =>
      .ok (.value (.matrix columns rows ⟨s.kind, width.getD s.width⟩))
  | type => .error (.operands (type.shown d ++ " as " ++ kind.shown))

/-! ## Functions -/

/-- The type of a function of numbers, by its first two arguments. -/
def MathFunction.type (f : MathFunction) (d : Definitions) (first : NodeType)
    (second : Option NodeType) : Except TypeError NodeType :=
  let refuse (rest : String) : Except TypeError NodeType :=
    .error (.operands (f.name ++ "(" ++ first.shown d ++ rest ++ ")"))
  match f with
  | .dot =>
      match first with
      | .value (.vector _ s) => .ok (.value (.scalar s))
      | _ => refuse ", _"
  | .outer =>
      match first, second with
      | .value (.vector columns s), some (.value (.vector rows _)) =>
          .ok (.value (.matrix columns rows s))
      | _, some other => refuse (", " ++ other.shown d)
      | _, none => refuse ""
  | .distance | .length =>
      match first with
      | .value (.scalar s) | .value (.vector _ s) => .ok (.value (.scalar s))
      | _ => refuse ""
  | .transpose =>
      match first with
      | .value (.matrix columns rows s) => .ok (.value (.matrix rows columns s))
      | _ => refuse ""
  | .inverse =>
      match first with
      | .value (.matrix columns rows s) =>
          if columns = rows then .ok (.value (.matrix columns rows s)) else refuse ""
      | _ => refuse ""
  | .determinant =>
      match first with
      | .value (.matrix _ _ s) => .ok (.value (.scalar s))
      | _ => refuse ""
  | .countOneBits | .reverseBits | .extractBits | .insertBits | .findLsb | .findMsb =>
      match first with
      | .value (.scalar s) | .value (.vector _ s) =>
          if s.kind = .sint ∨ s.kind = .uint then .ok first else refuse ""
      | _ => refuse ""
  | .pack4x8snorm | .pack4x8unorm | .pack2x16snorm | .pack2x16unorm | .pack2x16float =>
      .ok (.value (.scalar .u32))
  | .unpack4x8snorm | .unpack4x8unorm => .ok (.value (.vector .four .f32))
  | .unpack2x16snorm | .unpack2x16unorm | .unpack2x16float => .ok (.value (.vector .two .f32))
  | _ => .ok first

/-- The type of a test. -/
def RelationalFunction.type (f : RelationalFunction) (d : Definitions) (operand : NodeType) :
    Except TypeError NodeType :=
  match f with
  | .all | .any => .ok (.value (.scalar .bool))
  | .isNan | .isInf =>
      match testType? operand with
      | some type => .ok type
      | none => .error (.operands (f.name ++ "(" ++ operand.shown d ++ ")"))

/-- The type of a texel. -/
def texelType : ImageClass → ShaderType
  | .depth _ => .scalar .f32
  | .sampled kind _ => .vector .four ⟨kind, 4⟩
  | .storage format _ _ => .vector .four ⟨format.kind, 4⟩

/-- The type of the size of an image. -/
def extentType : ImageDim → ShaderType
  | .d1 => .scalar .u32
  | .d2 | .cube => .vector .two .u32
  | .d3 => .vector .three .u32

/-! ## Nodes -/

/-- The type of a node, by the types of the nodes before it. -/
def Node.type (s : Surroundings) (types : Array NodeType) (n : Node) : Except TypeError NodeType :=
  let d := s.definitions
  let at_ (node : Ref) : Except TypeError NodeType :=
    match types[node]? with
    | some type => .ok type
    | none => .error .missing
  match n with
  | .literal value => .ok (.value (.scalar value.scalar))
  | .constant index =>
      match d.constants[index]? with
      | some c => .ok (.ofType c.type)
      | none => .error .missing
  | .compose type _ => .ok (.ofType type)
  | .splat size value => do
      match ← at_ value with
      | .value (.scalar s) => .ok (.value (.vector size s))
      | _ => .error (.notScalar value)
  | .access base _ => do elementType d base (← at_ base)
  | .accessIndex base index => do partType d base index (← at_ base)
  | .swizzle size vector _ => do
      match ← at_ vector with
      | .value (.vector _ s) => .ok (.value (.vector size s))
      | _ => .error (.notVector vector)
  | .argument index =>
      match s.arguments[index]? with
      | some type => .ok (.ofType type)
      | none => .error .missing
  | .globalVariable index =>
      match s.globals[index]? with
      | some (type, .handle) => .ok (.ofType type)
      | some (type, space) => .ok (.pointer type space)
      | none => .error .missing
  | .localVariable index =>
      match s.locals[index]? with
      | some type => .ok (.pointer type .function)
      | none => .error .missing
  | .load pointer => do
      match (← at_ pointer).pointee? with
      | some (.atomic s) => .ok (.value (.scalar s))
      | some type => .ok (.ofType type)
      | none => .error (.notPointer pointer)
  | .sample image _ _ _ _ _ _ | .fetch image _ _ _ _ => do
      match ← at_ image with
      | .value (.image _ _ texels) => .ok (.value (texelType texels))
      | _ => .error (.notImage image)
  | .query image (.size _) => do
      match ← at_ image with
      | .value (.image dim _ _) => .ok (.value (extentType dim))
      | _ => .error (.notImage image)
  | .query _ .layers | .arrayLength _ => .ok (.value (.scalar .u32))
  | .unary _ operand | .derivative operand => at_ operand
  | .binary op left right => do op.type d (← at_ left) (← at_ right)
  | .select _ accept _ => at_ accept
  | .relational f operand => do f.type d (← at_ operand)
  | .math f (first :: rest) => do
      let second ← rest.head?.mapM at_
      f.type d (← at_ first) second
  | .math _ [] => .error .missing
  | .cast operand kind width => do castType d kind width (← at_ operand)
  | .callResult function =>
      match s.results[function]? with
      | some (some type) => .ok (.ofType type)
      | _ => .error .noResult

/-- Extends the types of the first nodes to those of some more, one after another. -/
def extendTypes (s : Surroundings) (types : Array NodeType) : List Node →
    Except TypeError (Array NodeType)
  | [] => .ok types
  | n :: rest => do extendTypes s (types.push (← n.type s types)) rest

/-- The types of all nodes of a list. -/
def typesOf (s : Surroundings) (nodes : Array Node) : Except TypeError (Array NodeType) :=
  extendTypes s #[] nodes.toList

end LegacyShader.Code
