import LegacyShader.Glsl.Builder

/-!
# Constructors

A constructor makes a value of its type out of its arguments.  Scalars convert and
spread over vectors and along the diagonal of matrices.  Vectors and matrices give up
their components one by one, until there are enough.  A truth value becomes nought or
one by a choice between the two.
-/

namespace LegacyShader.Glsl

open Code (Literal Node NodeType Ref)

/-- A value and the place it comes from. -/
abbrev Argument := Ref × Place

/-! ## Small literals -/

/-- Adds a small whole number of a scalar type.  Truth values have none. -/
def addSmall (n : Nat) (s : Scalar) (place : Place) : Read Ref :=
  add (.literal ((Literal.ofSmall? n s).getD (.bool (n != 0)))) place

/-! ## Parts -/

/-- The parts of a value at the indices below a number. -/
def partsBelow (base : Ref) (count : Nat) (place : Place) : Read (List Ref) :=
  (List.range count).mapM fun i => add (.accessIndex base i) place

/-- The components of a value, column by column. -/
def componentsOf (r : Ref) (place : Place) : Read (List Ref) := do
  match ← typeOf r place with
  | .value (.matrix columns rows _) =>
      let perColumn ← (List.range columns.count).mapM fun c => do
        let column ← add (.accessIndex r c) place
        partsBelow column rows.count place
      return perColumn.flatten
  | .value (.vector size _) => partsBelow r size.count place
  | _ => return [r]

/-- The components that some arguments give, until there are at least `count`.  The
argument behind the last one is still converted. -/
def gather (count : Nat) (s : Scalar) : List Argument → List Ref → Read (List Ref)
  | [], done => return done
  | (r, place) :: rest, done => do
      let r ← force r place s
      if count ≤ done.length then return done
      else gather count s rest (done ++ (← componentsOf r place))

/-- A vector made of the components of some arguments. -/
def vectorOf (size : VectorSize) (s : Scalar) (arguments : List Argument) (place : Place) :
    Read Ref := do
  let components ← gather size.count s arguments []
  add (.compose (.vector size s) (components.take size.count)) place

/-! ## Matrices -/

/-- A column of a matrix with a value on the diagonal and another one elsewhere. -/
def diagonalColumn (column : Nat) (rows : VectorSize) (s : Scalar) (value other : Ref)
    (place : Place) : Read Ref :=
  add (.compose (.vector rows s)
    ((List.range rows.count).map fun r => if r = column then value else other)) place

/-- A column of a matrix with more rows.  The missing ones are those of the
identity. -/
def extendedColumn (column : Nat) (vector : Ref) (before rows : VectorSize) (s : Scalar)
    (nought unit : Ref) (place : Place) : Read Ref := do
  let components ← (List.range rows.count).mapM fun r =>
    if r < before.count then add (.accessIndex vector r) place
    else pure (if r = column then unit else nought)
  add (.compose (.vector rows s) components) place

/-- The columns of a matrix with the components of another one, and those of the
identity elsewhere. -/
def resizedColumns (value : Ref) (columnsBefore rowsBefore columns rows : VectorSize) (s : Scalar)
    (place : Place) : Read (List Ref) := do
  let nought ← addSmall 0 s place
  let unit ← addSmall 1 s place
  intern (.vector rows s)
  (List.range columns.count).mapM fun i => do
    if i < columnsBefore.count then
      let vector ← add (.accessIndex value i) place
      if rowsBefore.count < rows.count then
        extendedColumn i vector rowsBefore rows s nought unit place
      else if rowsBefore = rows then return vector
      else resize rows vector place
    else diagonalColumn i rows s unit nought place

/-- A matrix made of one argument. -/
def matrixOf (columns rows : VectorSize) (s : Scalar) (argument : Argument) (place : Place) :
    Read Ref := do
  let value ← force argument.1 argument.2 s
  let components ← match ← typeOf value argument.2 with
    | .value (.scalar _) => do
        intern (.vector rows s)
        let nought ← addSmall 0 s place
        (List.range columns.count).mapM fun i => diagonalColumn i rows s value nought place
    | .value (.matrix columnsBefore rowsBefore _) =>
        resizedColumns value columnsBefore rowsBefore columns rows s place
    | _ => pure (List.replicate columns.count value)
  add (.compose (.matrix columns rows s) components) place

/-- The components of some arguments of a matrix.  Only vectors give up theirs. -/
def flattenVectors (s : Scalar) (arguments : List Argument) : Read (List Ref) := do
  let parts ← arguments.mapM fun (r, place) => do
    let r ← force r place s
    match ← typeOf r place with
    | .value (.vector size _) => partsBelow r size.count place
    | _ => return [r]
  return parts.flatten

/-- A list in pieces of a size; the last one can be shorter.  There are at most
`pieces`. -/
def chunks (size : Nat) : Nat → List Ref → List (List Ref)
  | 0, _ => []
  | pieces + 1, rs =>
      if rs.isEmpty then [] else rs.take size :: chunks size pieces (rs.drop size)

/-- The columns of a matrix made of several arguments. -/
def columnsOf (rows : VectorSize) (s : Scalar) (arguments : List Argument) (place : Place) :
    Read (List Ref) := do
  let components ← flattenVectors s arguments
  intern (.vector rows s)
  (chunks rows.count components.length components).mapM fun chunk =>
    add (.compose (.vector rows s) chunk) place

/-! ## One argument -/

/-- The kind of the scalars of a value. -/
def isBool (t : NodeType) : Bool := t.scalar?.any fun s => s.kind == .bool

/-- The size of a vector. -/
def vectorSize? : NodeType → Option VectorSize
  | .value (.vector size _) => some size
  | _ => none

/-- Zero or one, by a truth value or each component of a vector of them. -/
def numberOfBool (s : Scalar) (argument : Argument) (size : Option VectorSize) (place : Place) :
    Read Ref := do
  let (condition, source) := argument
  let s : Scalar := { s with width := 4 }
  let reject ← addSmall 0 s source
  let accept ← addSmall 1 s source
  let reject ← spread reject place size
  let accept ← spread accept place size
  add (.select condition accept reject) source

/-- A scalar made of one argument: its first component. -/
def scalarFrom (s : Scalar) (argument : Argument) (place : Place) : Read Ref := do
  let (value, source) := argument
  let part ← match ← typeOf value source with
    | .value (.vector ..) => add (.accessIndex value 0) place
    | .value (.matrix ..) => do
        let column ← add (.accessIndex value 0) place
        add (.accessIndex column 0) place
    | _ => pure value
  add (.cast part s.kind (some s.width)) place

/-- The value of a constructor with one argument. -/
def constructFromOne (type : ShaderType) (argument : Argument) (place : Place) : Read Ref := do
  let (value, source) := argument
  let given ← typeOf value source
  let size := vectorSize? given
  match type.scalar? with
  | some s =>
      if isBool given && s.kind != .bool then return ← numberOfBool s argument size place
  | none => pure ()
  match type with
  | .vector n s =>
      match size with
      | none => do
          let value ← force value source s
          match ← typeOf value source with
          | .value (.scalar _) => add (.splat n value) place
          | _ => vectorOf n s [(value, source)] place
      | some m => do
          let value ← if m = n then pure value else resize n value source
          add (.cast value s.kind (some s.width)) place
  | .scalar s => scalarFrom s argument place
  | .matrix columns rows s => matrixOf columns rows s argument place
  | .struct _ members _ => do
      let value ← match members.head? with
        | some m => raiseToType value source m.type
        | none => pure value
      add (.compose type [value]) place
  | .array base _ _ => do
      let value ← raiseToType value source base
      add (.compose type [value]) place
  | _ => do
      note .noConstructor place
      return value

/-! ## Several arguments -/

/-- The value of a constructor with several arguments, or none. -/
def constructFromMany (type : ShaderType) (arguments : List Argument) (place : Place) :
    Read Ref := do
  match type with
  | .matrix _ rows s => do
      let columns ← columnsOf rows s arguments place
      add (.compose type columns) place
  | .vector size s => vectorOf size s arguments place
  | .array base _ _ => do
      let parts ← arguments.mapM fun (r, p) => raiseToType r p base
      add (.compose type parts) place
  | .struct _ members _ => do
      let parts ← (arguments.zip members).mapM fun ((r, p), m) => raiseToType r p m.type
      add (.compose type parts) place
  | _ => fail .constructorArguments place

/-- The value of a constructor. -/
def construct (type : ShaderType) (arguments : List Argument) (place : Place) : Read Ref :=
  match arguments with
  | [a] => constructFromOne type a place
  | _ => constructFromMany type arguments place

end LegacyShader.Glsl
