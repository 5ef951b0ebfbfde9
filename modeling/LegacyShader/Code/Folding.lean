import LegacyShader.Code.Workbench

/-!
# Constant folding

A node whose operands have known values is replaced by its own value: a literal, a
vector of equal components, or a value put together from such.  *Folding* a node
adds the nodes of its value to a workbench, or fails with the reason why the node
has none.  Nodes that were added on the way to a failure stay.

A function sees a constant of the module as a node of its own, and folding copies
the nodes of the value of the constant.
-/

namespace LegacyShader.Code

/-- A computation on a workbench that can fail. -/
abbrev Fold := EStateM FoldError Workbench

namespace Fold

/-- A node of the list that is written to. -/
def node (r : Ref) : Fold Node := do
  match (← get).node? r with
  | some n => return n
  | none => throw .notConstant

/-- Adds a node with a known value. -/
def register (n : Node) : Fold Ref := do
  match n with
  | .literal value =>
      match value.check with
      | .ok () => pure ()
      | .error e => throw e
  | _ => pure ()
  let (r, w) := (← get).append n true
  set w
  return r

/-- Notes a type. -/
def intern (type : ShaderType) : Fold Unit := modify (·.withType type)

/-! ## Operands -/

/-- Copies a value of the constants into the function. -/
def copy : Nat → Ref → Fold Ref
  | 0, _ => throw .notConstant
  | n + 1, r => do
      match (← get).definitions.nodes[r]? with
      | some (.literal value) => register (.literal value)
      | some (.constant index) => register (.constant index)
      | some (.compose type components) => do
          register (.compose type (← components.mapM (copy n)))
      | some (.splat size value) => do register (.splat size (← copy n value))
      | _ => throw .notConstant

/-- An operand with a known value. -/
def operand (r : Ref) : Fold Ref := do
  let w ← get
  match w.node? r with
  | some (.constant index) =>
      match w.definitions.constants[index]? with
      | some c => if w.constant then return c.init else copy (w.definitions.nodes.size + 1) c.init
      | none => throw .notConstant
  | _ => if w.constant ∨ w.known[r]? = some true then return r else throw .notConstant

/-- A vector of equal components, put together from them. -/
def spelledOut (r : Ref) : Fold Ref := do
  match ← node r with
  | .splat size value =>
      match ← node value with
      | .literal l => do
          let type := ShaderType.vector size l.scalar
          intern type
          register (.compose type (List.replicate size.count value))
      | _ => throw .splatOperand
  | _ => return r

/-- The parts of a value that is put together from parts. -/
def parts (w : Workbench) (r : Ref) : List Ref :=
  match w.node? r with
  | some (.compose _ components) => components
  | some (.splat size value) => List.replicate size.count value
  | _ => [r]

/-- The components of a value.  Those of a vector can come from smaller vectors. -/
def flattened (type : ShaderType) (components : List Ref) : Fold (List Ref) := do
  let w ← get
  match type with
  | .vector size _ => return ((components.flatMap (parts w)).flatMap (parts w)).take size.count
  | _ => return components

/-! ## Parts -/

/-- Whether a type has a known number of parts. -/
def hasParts : ShaderType → Bool
  | .vector .. | .matrix .. | .struct .. | .array _ (some _) _ => true
  | _ => false

/-- A part of a value. -/
def part (base : Ref) (index : Nat) : Fold Ref := do
  match ← node base with
  | .splat size value => if index < size.count then return value else throw .accessBase
  | .compose type components =>
      if hasParts type then
        match (← flattened type components)[index]? with
        | some r => return r
        | none => throw .accessIndex
      else throw .accessBase
  | _ => throw .accessBase

/-- The value of an index. -/
def index (r : Ref) : Fold Nat := do
  match ← node r with
  | .literal (.uint value) => return value
  | _ => throw .accessIndexType

/-- Some components of a vector. -/
def swizzle (size : VectorSize) (vector : Ref) (pattern : List Nat) : Fold Ref := do
  match ← node vector with
  | .splat _ value => register (.splat size value)
  | .compose (.vector n s) components => do
      let type := ShaderType.vector size s
      intern type
      let all ← flattened (.vector n s) components
      let chosen ← (pattern.take size.count).mapM fun i =>
        match all[i]? with
        | some r => pure r
        | none => throw .swizzleComponent
      register (.compose type chosen)
  | _ => throw .swizzleOperand

/-! ## Operators -/

/-- The value of an operation on literals, or the reason why it has none. -/
def literal (value : Except FoldError Literal) : Fold Ref :=
  match value with
  | .ok l => register (.literal l)
  | .error e => throw e

/-- The value of an operator with one operand. -/
def unary : Nat → UnaryOp → Ref → Fold Ref
  | 0, _, _ => throw .unaryOperand
  | n + 1, op, r => do
      match ← node (← spelledOut r) with
      | .literal value => literal (value.unary op)
      | .compose type components =>
          match type with
          | .vector .. | .matrix .. => register (.compose type (← components.mapM (unary n op)))
          | _ => throw .unaryOperand
      | _ => throw .unaryOperand

/-- The type of an operator on two vectors. -/
def vectorResult (op : BinaryOp) (size : VectorSize) (type : ShaderType) : ShaderType :=
  if op.compares then .vector size .bool else type

/-- The value of an operator with two operands. -/
def binary : Nat → BinaryOp → Ref → Ref → Fold Ref
  | 0, _, _, _ => throw .binaryOperands
  | n + 1, op, left, right => do
      let left ← spelledOut left
      let right ← spelledOut right
      match ← node left, ← node right with
      | .literal a, .literal b => literal (a.binary op b)
      | .compose type components, .literal _ => do
          register (.compose type (← components.mapM fun c => binary n op c right))
      | .literal _, .compose type components => do
          register (.compose type (← components.mapM fun c => binary n op left c))
      | .compose type components, .compose type' components' =>
          match type, type' with
          | .vector size _, .vector size' _ =>
              if size = size' then do
                let pairs := (← flattened type components).zip (← flattened type' components')
                let result := vectorResult op size type
                if op.compares then intern result
                register (.compose result (← pairs.mapM fun (a, b) => binary n op a b))
              else throw .binaryOperands
          | _, _ => throw .binaryOperands
      | _, _ => throw .binaryOperands

/-! ## Functions -/

/-- Whether a type is a vector of floats. -/
def isFloatVector : ShaderType → Bool
  | .vector _ s => s.kind == .float
  | _ => false

/-- The value of a power. -/
def power : Nat → Ref → Ref → Fold Ref
  | 0, _, _ => throw .mathArgument
  | n + 1, a, b => do
      let a ← spelledOut a
      let b ← spelledOut b
      match ← node a, ← node b with
      | .literal a, .literal b => literal (a.power b)
      | .compose type components, .compose type' components' => do
          if type == type' && isFloatVector type then
            let pairs := (← flattened type components).zip (← flattened type components')
            register (.compose type (← pairs.mapM fun (a, b) => power n a b))
          else throw .mathArgument
      | _, _ => throw .mathArgument

/-- A value within two limits. -/
def clamp : Nat → Ref → Ref → Ref → Fold Ref
  | 0, _, _, _ => throw .mathArgument
  | n + 1, a, low, high => do
      let a ← spelledOut a
      let low ← spelledOut low
      let high ← spelledOut high
      match ← node a, ← node low, ← node high with
      | .literal a, .literal low, .literal high => literal (a.clamp low high)
      | .compose type as, .compose type' lows, .compose type'' highs => do
          if type == type' && type == type'' && isFloatVector type then
            let limits := (← flattened type lows).zip (← flattened type highs)
            let triples := (← flattened type as).zip limits
            register (.compose type (← triples.mapM fun (a, low, high) => clamp n a low high))
          else throw .mathArgument
      | _, _, _ => throw .mathArgument

/-- The value of a function of numbers. -/
def math (fuel : Nat) (f : MathFunction) (arguments : List Ref) : Fold Ref :=
  match f, arguments with
  | .pow, [a, b] => power fuel a b
  | .clamp, [a, low, high] => clamp fuel a low high
  | _, _ => throw (.notImplemented f.name)

/-! ## Conversions -/

/-- A node in messages. -/
def nodeShown (d : Definitions) : Node → String
  | .literal value => "Literal(" ++ value.shown ++ ")"
  | .compose type components =>
      "Compose \x7b ty: " ++ numberShown (d.typeIndex type) ++
        ", components: [" ++ ", ".intercalate (components.map numberShown) ++ "] \x7d"
  | .splat size value =>
      "Splat \x7b size: " ++ size.shown ++ ", value: " ++ numberShown value ++ " \x7d"
  | _ => ""

/-- The reason why a node cannot be converted. -/
def refuseCast (r : Ref) (target : Scalar) : Fold Ref := do
  throw (.cast (numberShown r ++ " " ++ nodeShown (← get).definitions (← node r)) target)

/-- The value of a conversion. -/
def cast : Nat → Scalar → Ref → Fold Ref
  | 0, target, r => refuseCast r target
  | n + 1, target, r => do
      match ← node r with
      | .literal value =>
          match value.cast? target with
          | some l => register (.literal l)
          | none => refuseCast r target
      | .splat size value => do register (.splat size (← cast n target value))
      | .compose type components => do
          let result ← match type with
            | .vector size _ => pure (ShaderType.vector size target)
            | .matrix columns rows _ => pure (.matrix columns rows target)
            | _ => do
                let _ ← refuseCast r target
                pure type
          let components ← components.mapM (cast n target)
          intern result
          register (.compose result components)
      | _ => refuseCast r target

/-- The length of an array. -/
def arrayLength (r : Ref) : Fold Ref := do
  match ← node r with
  | .compose (.array _ (some length) _) _ => register (.literal (.uint length))
  | .compose (.array _ none _) _ => throw .unknownLength
  | _ => throw .notAnArray

/-! ## Nodes -/

/-- The value of a node. -/
def fold (n : Node) : Fold Ref := do
  let w ← get
  let fuel := w.current.size + w.definitions.nodes.size + 1
  match n with
  | .constant index =>
      match w.definitions.constants[index]? with
      | some c => if w.constant then return c.init else register n
      | none => register n
  | .literal _ => register n
  | .compose type components => do register (.compose type (← components.mapM operand))
  | .splat size value => do register (.splat size (← operand value))
  | .accessIndex base index => do part (← operand base) index
  | .access base i => do
      let base ← operand base
      part base (← index (← operand i))
  | .swizzle size vector pattern => do swizzle size (← operand vector) pattern
  | .unary op e => do unary fuel op (← operand e)
  | .binary op left right => do
      let left ← operand left
      binary fuel op left (← operand right)
  | .math f arguments => do math fuel f (← arguments.mapM operand)
  | .cast e kind width => do
      let e ← operand e
      match width with
      | some width => cast fuel ⟨kind, width⟩ e
      | none => throw (.notImplemented "bitcast")
  | .select .. => throw (.notImplemented "select")
  | .relational f _ => throw (.notImplemented f.name)
  | .arrayLength e => do arrayLength (← operand e)
  | .load _ => throw .load
  | .localVariable _ => throw .localVariable
  | .derivative _ => throw .derivative
  | .callResult _ => throw .call
  | .argument _ => throw .argument
  | .globalVariable _ => throw .globalVariable
  | .sample .. | .fetch .. | .query .. => throw .image

end Fold

/-- Adds a node to a workbench, as its value if that is known.  A constant has to
have a value. -/
def Workbench.add (w : Workbench) (n : Node) : Except FoldError Ref × Workbench :=
  match Fold.fold n w with
  | .ok r w => (.ok r, w)
  | .error e w =>
      if w.constant then (.error e, w)
      else
        let (r, w) := w.append n false
        (.ok r, w)

/-! ## Copies into constants -/

/-- A computation that copies nodes.  It fails at a node without a known value. -/
abbrev Lift := EStateM Ref Workbench

namespace Lift

/-- Adds a node to the nodes of constants. -/
def put (n : Node) : Lift Ref := do
  let w ← get
  let d := w.definitions
  set { w with definitions := { d with nodes := d.nodes.push n } }
  return d.nodes.size

/-- Copies a node of the function, and all it refers to, into the nodes of
constants.  What was copied before a failure stays. -/
def lift : Nat → Ref → Lift Ref
  | 0, r => throw r
  | n + 1, r => do
      match (← get).nodes[r]? with
      | some (.literal value) => put (.literal value)
      | some (.constant index) => put (.constant index)
      | some (.compose type components) => do put (.compose type (← components.mapM (lift n)))
      | some (.splat size value) => do put (.splat size (← lift n value))
      | _ => throw r

end Lift

/-- Copies a node of the function into the nodes of constants, or gives the first
node that has no known value. -/
def Workbench.lift (w : Workbench) (r : Ref) : Except Ref Ref × Workbench :=
  match Lift.lift (w.nodes.size + 1) r w with
  | .ok r w => (.ok r, w)
  | .error r w => (.error r, w)

end LegacyShader.Code
