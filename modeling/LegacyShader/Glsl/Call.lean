import LegacyShader.Glsl.BuiltInCode
import LegacyShader.Glsl.Field

/-!
# Calls

A call goes to the function that fits its arguments best.  An argument that the function
writes is passed as a pointer into the memory of functions.  If it lies elsewhere, or has
another type, then the function writes to a variable of the call, and what it has written is
copied behind the call.
-/

namespace LegacyShader.Glsl

open Code (Node NodeType Ref)

/-! ## Choosing a function -/

/-- Whether the format of an image fits that of a parameter.  Built-in functions take all formats
of a kind. -/
def formatFits (o : Overload) (parameter argument : TexelFormat) : Bool :=
  parameter == argument ||
    match o.target with
    | .builtIn _ => parameter.kind == argument.kind
    | .function _ => false

/-- How an argument fits a parameter, if it does.  An image that is accessed by texel fits even if
its declaration does not give the access that the function needs, which is noted. -/
def fitOf (name : String) (o : Overload) (p : Parameter) (argument : Argument) (place : Place) :
    Read (Option Conversion) := do
  if p.depth then makeDepth argument.1 argument.2
  let type := plainType (← typeOf argument.1 argument.2)
  match p.type, type with
  | .image dim arrayed (.storage format load store),
      .image dim' arrayed' (.storage format' load' store') =>
      if dim = dim' ∧ arrayed = arrayed' ∧ formatFits o format format' then
        if (load && !load') || (store && !store') then
          note (.imageAccess name (load, store) (load', store')) place
        return some .exact
      else return none
  | _, _ => return if p.type.alike type then some .exact else p.conversion? type

/-- Compares an overload with the best one before it, argument by argument.  The second component
tells whether all arguments fit. -/
def compareWith (name : String) (o : Overload) (place : Place) :
    Comparison → List Parameter → List Argument → List Conversion → Read (Comparison × Bool)
  | c, [], [], _ => return (c, true)
  | c, p :: ps, a :: args, old => do
      match ← fitOf name o p a place with
      | some .exact => compareWith name o place c.fitExactly ps args old.tail
      | some new => compareWith name o place (c.fit new (old.headD .untried)) ps args old.tail
      | none => return (c, false)
  | c, _, _, _ => return (c, false)

/-- Goes through overloads in order, until one fits exactly. -/
def chooseAmong (name : String) (arguments : List Argument) (place : Place) :
    Choice → List Overload → Read Choice
  | c, [] => return c
  | c, o :: os => do
      if o.parameters.length = arguments.length then
        let (found, fits) ← compareWith name o place {} o.parameters arguments c.fits
        let c := c.take o found fits
        if fits && found.exact then return c else chooseAmong name arguments place c os
      else chooseAmong name arguments place c os

/-- Chooses the function that a call goes to, by the values of its arguments. -/
def chooseFunction (name : String) (arguments : List Argument) (place : Place) : Read Overload := do
  let types ← arguments.mapM fun (r, p) => return plainType (← typeOf r p)
  let (family, new) ← familyFor name types
  for o in new do
    o.parameters.forM fun p => intern p.type
  setFamily name family
  let choice ← chooseAmong name arguments place (.initial arguments.length) family.overloads
  if choice.ambiguous then note (.ambiguousCall name) place
  match choice.best with
  | some o => return o
  | none => fail (.unknownFunction name) place

/-! ## Arguments that are written -/

/-- Something that is copied behind a call. -/
structure Copy where
  /-- Where it goes. -/
  target : Ref
  /-- Where it comes from. -/
  source : Ref
  /-- The scalar that it is converted to. -/
  scalar : Option Scalar
  deriving Repr, Inhabited

/-- The type of the variable that stands for an argument which is no pointer into the
memory of functions. -/
def spillType? : NodeType → Option ShaderType
  | .value (.vector size s) => some (.vector size s)
  | .pointer base space => if space = .function then none else some base
  | .component size s space => if space = .function then none else some (Code.sizedType size s)
  | _ => none

/-- The copies of a variable back to the argument that it stands for. -/
def copiesBack (argument variable_ : Ref) (scalar : Option Scalar) : Read (List Copy) := do
  match ← nodeAt? argument with
  | some (.swizzle size vector pattern) => do
      let vector := match ← nodeAt? vector with
        | some (.load inner) => inner
        | _ => vector
      (pattern.take size.count).zipIdx.mapM fun (component, i) => do
        let target ← add (.accessIndex vector component) none
        let source ← add (.accessIndex variable_ i) none
        return ⟨target, source, scalar⟩
  | _ => return [⟨argument, variable_, scalar⟩]

/-- Passes an argument that is written: what is passed, and the copies behind the call.  The
second argument is its value, which decides about conversions. -/
def passWritten (p : Parameter) (argument value : Argument) : Read (Ref × List Copy) := do
  let (target, place) := argument
  let type ← typeOf target place
  let spill := spillType? type
  match type with
  | .value (.vector ..) | .component .. => spill.forM intern
  | _ => pure ()
  let held ← if type.space?.isSome then add (.load target) none else pure target
  let given ← typeOf value.1 value.2
  let scalar := given.componentScalar?
  let converted := !(plainType given).alike p.type
  match if converted then some p.type else spill with
  | none => return (target, [])
  | some type => do
      let variable_ ← addLocal type none none
      if p.passing = .both then push (.store variable_ held)
      let back ← copiesBack target variable_ (if converted then scalar else none)
      return (variable_, back)

/-- Passes an argument that is read. -/
def passRead (p : Parameter) (argument : Argument) : Read Ref :=
  raiseToType argument.1 argument.2 p.type

/-! ## The call -/

/-- Writes the call of a function of the module. -/
def callFunction (index : Nat) (void : Bool) (arguments : List Ref) (copies : List Copy)
    (place : Place) : Read (Option Ref) := do
  modifyBench (·.finishPending)
  let result ← if void then pure none else some <$> add (.callResult index) place
  push (.call index arguments result)
  modifyBench (·.startPending)
  for c in copies do
    let value ← add (.load c.source) place
    let value ← match c.scalar with
      | some s => convert value place s
      | none => pure value
    pushBehind (.store c.target value)
  return result

/-- Writes the call of a function. -/
def callOverload (o : Overload) (arguments : List Ref) (copies : List Copy) (place : Place) :
    Read (Option Ref) :=
  match o.target with
  | .function index => callFunction index o.void arguments copies place
  | .builtIn call => call.code arguments place

end LegacyShader.Glsl
