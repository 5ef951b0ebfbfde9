import LegacyShader.Glsl.Call
import LegacyShader.Glsl.Operation

/-!
# Expressions as code

Writes the code of an expression and gives the node of its value, if it has one.

The arguments of a function are written twice: first as values, to choose among the
functions of the name, and then in the positions that the chosen one asks for.
-/

namespace LegacyShader.Glsl

open Code (Literal NodeType Ref)

/-! ## Variables and elements -/

/-- Writes a variable.  An element of a constant at an index that is not known is read from a
local variable. -/
def lowerVariable (v : Variable) (pos : Position) (place : Place) : Read Ref := do
  match pos with
  | .write => do
      unless v.writable do note .notWritable place
      return v.node
  | .base false =>
      match v.constant with
      | some (_, type) => do
          let pointer ← addLocal type none none
          pushBehind (.store pointer v.node)
          return pointer
      | none => return v.node
  | .base true => return v.node
  | .read => do
      match if (← body).bench.constant then v.constant else none with
      | some (index, _) => add (.constant index) place
      | none => if v.stored then add (.load v.node) place else return v.node

/-- An index, if it is known. -/
def knownIndex? (index : Ref) : Read (Option Nat) := do
  let b ← body
  return match b.bench.definitions.literal? b.bench.nodes index with
    | some (.uint n) => some n
    | some (.sint i) => i.toNat?
    | _ => none

/-- Writes an element of something. -/
def lowerElement (pos : Position) (base index : Ref) (known : Option Nat) (place : Place) :
    Read Ref := do
  let part ← match known with
    | some i => add (.accessIndex base i) place
    | none => add (.access base index) place
  if pos = .read ∧ (← typeOf part place).space?.isSome then add (.load part) place
  else return part

/-! ## Choices -/

/-- A block, and the value that it computes. -/
structure Branch where
  /-- The block. -/
  block : Array Code.Statement
  /-- The value. -/
  value : Argument
  deriving Inhabited

/-- Converts the value of a branch. -/
def Branch.convert (b : Branch) (s : Scalar) : Read Branch := do
  let (block, r) ← inBlock b.block (Glsl.convert b.value.1 b.value.2 s)
  return ⟨block, (r, b.value.2)⟩

/-- Converts the value of lower rank of two branches. -/
def balanceBranches (accept reject : Branch) : Read (Branch × Branch) := do
  match ← scalarOf accept.value.1 accept.value.2, ← scalarOf reject.value.1 reject.value.2 with
  | some s, some t =>
      if s.convertsTo t then return (← accept.convert t, reject)
      else if t.convertsTo s then return (accept, ← reject.convert s)
      else return (accept, reject)
  | _, _ => return (accept, reject)

/-- Writes a choice between two values. -/
def lowerChoice (condition : Ref) (accept reject : Branch) (place : Place) : Read Ref := do
  let (accept, reject) ← balanceBranches accept reject
  let type := plainType (← typeOf accept.value.1 accept.value.2)
  intern type
  let result ← addLocal type none place
  let stored (b : Branch) := (b.block.push (.store result b.value.1)).toList
  push (.branch condition (stored accept) (stored reject))
  add (.load result) place

/-! ## Assignments and lengths -/

/-- Writes an assignment. -/
def lowerAssignment (target value : Argument) (place : Place) : Read Ref := do
  let (type, _) := heldType (← typeOf target.1 target.2)
  let value ← match type.componentScalar? with
    | some s => raise value.1 value.2 s
    | none => pure value.1
  store target.1 value place
  return value

/-- Writes the length of an array. -/
def lowerLength (object : Ref) (place : Place) : Read Ref := do
  match ← typeOf object place with
  | .value (.array _ (some n) _) => do
      let length ← add (.literal (.uint n)) place
      force length place .i32
  | _ => do
      let length ← add (.arrayLength object) place
      convert length place .i32

/-! ## Expressions -/

/-- The node of an expression whose value is needed. -/
def needed (r : Option Ref) (place : Place) : Read Ref :=
  match r with
  | some r => return r
  | none => fail .voidExpression place

/-- Fails if something that is no variable is written. -/
def notWritten (e : Expr) (pos : Position) : Read Unit := do
  if pos = .write then fail (.notAssignable (e.shown (← definitions))) e.place

mutual

/-- Writes an expression, and gives its node if it has a value. -/
def lower (pos : Position) (e : Expr) : Read (Option Ref) := do
  match e with
  | .var v o => some <$> lowerVariable v pos o.place
  | .access base index o => do
      let i ← needed (← lower .read index) index.place
      let known ← if pos = .write then pure none else knownIndex? i
      let b ← needed (← lower (pos.ofBase known.isSome) base) base.place
      some <$> lowerElement pos b i known o.place
  | .select base field o => do
      let b ← needed (← lower pos base) base.place
      some <$> fieldOf pos b field o.place
  | .literal value o => do
      notWritten e pos
      some <$> add (.literal value) o.place
  | .unary op operand o => do
      notWritten e pos
      let a ← needed (← lower .read operand) operand.place
      some <$> add (.unary op a) o.place
  | .binary op left right o => do
      notWritten e pos
      let l ← needed (← lower .read left) left.place
      let r ← needed (← lower .read right) right.place
      some <$> operate op (l, left.place) (r, right.place) o.place
  | .conditional condition accept reject o => do
      notWritten e pos
      let c ← needed (← lower .read condition) condition.place
      let (acceptBlock, a) ← inBlock #[] (do needed (← lower pos accept) accept.place)
      let (rejectBlock, r) ← inBlock #[] (do needed (← lower pos reject) reject.place)
      some <$> lowerChoice c ⟨acceptBlock, (a, accept.place)⟩ ⟨rejectBlock, (r, reject.place)⟩ o.place
  | .assign target value o => do
      notWritten e pos
      let t ← needed (← lower .write target) target.place
      let v ← needed (← lower .read value) value.place
      some <$> lowerAssignment (t, target.place) (v, value.place) o.place
  | .step op behind operand o => do
      notWritten e pos
      let t ← needed (← lower .write operand) operand.place
      some <$> stepBy op behind t o.place
  | .method object name arguments o => do
      notWritten e pos
      let given ← lowerAll arguments
      if name = "length" then
        unless given.isEmpty do note .lengthArguments o.place
        let r ← needed (← lower pos object) object.place
        some <$> lowerLength r o.place
      else fail (.unknownMethod name) o.place
  | .call callee arguments o => do
      notWritten e pos
      let values ← lowerAll arguments
      match callee with
      | .constructor type => some <$> construct type values o.place
      | .function name => do
          let f ← chooseFunction name values o.place
          let passed ← lowerPassed f.parameters values arguments
          callOverload f (passed.map (·.1)) (passed.flatMap (·.2)) o.place

/-- Writes the values of some expressions. -/
def lowerAll : List Expr → Read (List Argument)
  | [] => return []
  | e :: es => do
      let r ← needed (← lower .read e) e.place
      return (r, e.place) :: (← lowerAll es)

/-- Writes the arguments of a function as its parameters ask for, with what is copied behind
the call.  Their values have been written before. -/
def lowerPassed (parameters : List Parameter) (values : List Argument) :
    List Expr → Read (List (Ref × List Copy))
  | [] => return []
  | e :: es => do
      match parameters, values with
      | p :: ps, v :: vs => do
          let pos : Position := if p.passing.writes then .write else .read
          let r ← needed (← lower pos e) e.place
          let passed ←
            if p.passing.writes then passWritten p (r, e.place) v
            else pure (← passRead p (r, e.place), [])
          return passed :: (← lowerPassed ps vs es)
      | _, _ => return []

end

/-- Writes an expression whose value is needed. -/
def lowerValue (pos : Position) (e : Expr) : Read Ref := do needed (← lower pos e) e.place

end LegacyShader.Glsl
