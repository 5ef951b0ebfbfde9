import LegacyShader.Glsl.Constructor

/-!
# Operators

What an operator writes.  The code knows no division and no comparison of matrices,
and no sum of a scalar with something larger, so these are spelled out: matrices
column by column, and scalars spread over vectors.
-/

namespace LegacyShader.Glsl

open Code (BinaryOp NodeType Ref RelationalFunction)

/-! ## Columns -/

/-- Applies an operator to each column of a matrix and gives the new matrix. -/
def mapColumns (columns rows : VectorSize) (s : Scalar) (place : Place) (column : Nat → Read Ref) :
    Read Ref := do
  let parts ← (List.range columns.count).mapM column
  let type := ShaderType.matrix columns rows s
  intern type
  add (.compose type parts) place

/-- Applies an operator to the columns of two matrices at an index. -/
def columnPair (op : BinaryOp) (left right : Ref) (place : Place) (index : Nat) : Read Ref := do
  let a ← add (.accessIndex left index) place
  let b ← add (.accessIndex right index) place
  add (.binary op a b) place

/-- How the comparisons of the components of two values are put together. -/
def comparisonTest? : BinaryOp → Option (BinaryOp × RelationalFunction)
  | .equal => some (.logicalAnd, .all)
  | .notEqual => some (.logicalOr, .any)
  | _ => none

/-- Compares two matrices column by column, from some column on. -/
def compareColumns (op combine : BinaryOp) (test : RelationalFunction) (left right : Ref)
    (place : Place) : List Nat → Option Ref → Read Ref
  | [], found => return found.getD left
  | i :: is, found => do
      let column ← columnPair op left right place i
      let compared ← add (.relational test column) place
      let found ← match found with
        | some before => add (.binary combine compared before) place
        | none => pure compared
      compareColumns op combine test left right place is (some found)

/-! ## Shapes -/

/-- An operator on two matrices. -/
def matrixPair (op : BinaryOp) (left right : Ref) (columns rows : VectorSize) (s : Scalar)
    (place : Place) : Read Ref :=
  match op, comparisonTest? op with
  | .divide, _ => mapColumns columns rows s place (columnPair .divide left right place)
  | _, some (combine, test) =>
      compareColumns op combine test left right place (List.range columns.count) none
  | _, none => add (.binary op left right) place

/-- An operator on two vectors. -/
def vectorPair (op : BinaryOp) (left right : Ref) (place : Place) : Read Ref := do
  let result ← add (.binary op left right) place
  match comparisonTest? op with
  | some (_, test) => add (.relational test result) place
  | none => return result

/-- Whether an operator on a vector takes no scalar on its left. -/
def spreadsLeft : BinaryOp → Bool
  | .add | .subtract | .divide | .bitAnd | .bitXor | .bitOr => true
  | _ => false

/-- Whether an operator on a vector takes no scalar on its right. -/
def spreadsRight (op : BinaryOp) : Bool :=
  spreadsLeft op || op == .shiftLeft || op == .shiftRight

/-- Whether an operator on a matrix takes no scalar. -/
def spreadsOverMatrix : BinaryOp → Bool
  | .add | .subtract | .divide => true
  | _ => false

/-- An operator on a scalar and a matrix. -/
def scalarMatrix (op : BinaryOp) (left right : Ref) (columns rows : VectorSize) (s : Scalar)
    (place : Place) : Read Ref := do
  if spreadsOverMatrix op then
    let vector ← add (.splat rows left) place
    mapColumns columns rows s place fun i => do
      let column ← add (.accessIndex right i) place
      add (.binary op vector column) place
  else add (.binary op left right) place

/-- An operator on a matrix and a scalar. -/
def matrixScalar (op : BinaryOp) (left right : Ref) (columns rows : VectorSize) (s : Scalar)
    (place : Place) : Read Ref := do
  if spreadsOverMatrix op then
    let vector ← add (.splat rows right) place
    mapColumns columns rows s place fun i => do
      let column ← add (.accessIndex left i) place
      add (.binary op column vector) place
  else add (.binary op left right) place

/-! ## Operators -/

/-- Whether two matrices can be the operands of an operator, by their sizes. -/
def dimensionsFit (op : BinaryOp) (columns rows columns' rows' : VectorSize) : Bool :=
  if op = .multiply then columns = rows' else columns = columns' ∧ rows = rows'

/-- The value of an operator on operands that have been converted. -/
def combine (op : BinaryOp) (left right : Ref) (a b : NodeType) (place : Place) : Read Ref := do
  let mismatch : Read Unit := note (.operandMismatch (plainType a) (plainType b)) place
  match a, b with
  | .value (.matrix c r s), .value (.matrix c' r' s') => do
      unless dimensionsFit op c r c' r' && decide (s = s') do mismatch
      matrixPair op left right c r s place
  | .value (.vector ..), .value (.vector ..) => vectorPair op left right place
  | .value (.vector size _), .value (.scalar _) =>
      if spreadsRight op then do
        let right ← add (.splat size right) place
        add (.binary op left right) place
      else add (.binary op left right) place
  | .value (.scalar _), .value (.vector size _) =>
      if spreadsLeft op then do
        let left ← add (.splat size left) place
        add (.binary op left right) place
      else add (.binary op left right) place
  | .value (.scalar s), .value (.matrix c r s') => do
      unless s = s' do mismatch
      scalarMatrix op left right c r s place
  | .value (.matrix c r s), .value (.scalar s') => do
      unless s = s' do mismatch
      matrixScalar op left right c r s place
  | _, _ => add (.binary op left right) place

/-- The value of an operator.  The operand of lower rank is converted, but the right
one of a shift becomes unsigned. -/
def operate (op : BinaryOp) (left right : Argument) (place : Place) : Read Ref := do
  let (l, r) ←
    if op = .shiftLeft ∨ op = .shiftRight then
      pure (left.1, ← raise right.1 right.2 .u32)
    else balance left.1 left.2 right.1 right.2
  let a ← typeOf l left.2
  let b ← typeOf r right.2
  combine op l r a b place

/-! ## Steps -/

/-- The number one of a type, if it has one. -/
def addUnit? (type : NodeType) (place : Place) : Read (Option Ref) := do
  match type with
  | .value (.scalar s) =>
      match Code.Literal.ofSmall? 1 s with
      | some value => return some (← add (.literal value) place)
      | none => return none
  | .value (.vector size s) =>
      match Code.Literal.ofSmall? 1 s with
      | some value => do
          let unit ← add (.literal value) place
          return some (← add (.splat size unit) place)
      | none => return none
  | .value (.matrix columns rows s) =>
      match Code.Literal.ofSmall? 1 s with
      | some value => do
          let unit ← add (.literal value) place
          let column ← add (.splat rows unit) place
          let type := ShaderType.matrix columns rows s
          intern type
          return some (← add (.compose type (List.replicate columns.count column)) place)
      | none => return none
  | _ => return none

/-- The value of a step up or down of something that is written. -/
def stepBy (op : BinaryOp) (behind : Bool) (target : Ref) (place : Place) : Read Ref := do
  let left ← match ← nodeAt? target with
    | some (.swizzle ..) => pure target
    | _ => add (.load target) place
  match ← addUnit? (← typeOf left place) place with
  | none => do
      note .stepOperand place
      return left
  | some unit => do
      let value ← add (.binary op left unit) place
      store target value place
      return if behind then left else value

end LegacyShader.Glsl
