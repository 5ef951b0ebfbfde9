import LegacyShader.LocationPool
import LegacyShader.StageInterface

/-!
# Placement

Linking numbers the variables of a program.  Attributes come from one namespace,
varyings from a second, and the bindings of both stages from a third.  Numbers
are handed out in declaration order, to active variables first, so that an unused
variable never moves a used one.

Attributes that the caller has pinned take their places before all others.
-/

namespace LegacyShader

/-- The namespace that a number is taken from. -/
inductive Namespace where
  /-- Locations of attributes. -/
  | attributes
  /-- Locations of varyings. -/
  | varyings
  /-- Bindings of resources. -/
  | bindings
  deriving DecidableEq, Repr, Inhabited

/-- The words for a namespace in messages. -/
def Namespace.words : Namespace → String
  | .attributes => "attribute locations"
  | .varyings => "varying locations"
  | .bindings => "bindings"

/-- Why a variable cannot be numbered. -/
inductive PlacementError where
  /-- An active fragment input that no vertex output has the name of. -/
  | unresolvedVarying (name : String)
  /-- A pinned attribute whose place is not free. -/
  | attribUnavailable (name : String) (location : Nat)
  /-- No room is left. -/
  | exhausted (space : Namespace) (name : String)
  deriving DecidableEq, Repr, Inhabited

/-- The locations that the caller has pinned, by name. -/
abbrev Pins := List (String × Nat)

namespace Pins

/-- The pinned location of a name. -/
def get? (pins : Pins) (name : String) : Option Nat := pins.lookup name

/-- Pins a name, in place of an earlier pin of it. -/
def insert (pins : Pins) (name : String) (location : Nat) : Pins :=
  (name, location) :: pins.filter fun p => p.1 != name

end Pins

/-! ## Attributes -/

/-- Takes the places of the pinned variables. -/
def reservePins (pins : Pins) :
    LocationPool → List InterfaceVar → Except PlacementError (LocationPool × List InterfaceVar)
  | pool, [] => .ok (pool, [])
  | pool, v :: vs =>
      match pins.get? v.name with
      | none => do
          let (pool, vs) ← reservePins pins pool vs
          return (pool, v :: vs)
      | some location =>
          match pool.reserve? location v.footprint with
          | none => .error (.attribUnavailable v.name location)
          | some pool => do
              let (pool, vs) ← reservePins pins pool vs
              return (pool, { v with location } :: vs)

/-- Finds places for the variables that satisfy a test, in order. -/
def placeWhere (space : Namespace) (test : InterfaceVar → Bool) :
    LocationPool → List InterfaceVar → Except PlacementError (LocationPool × List InterfaceVar)
  | pool, [] => .ok (pool, [])
  | pool, v :: vs =>
      if test v then
        match pool.allocate? v.footprint with
        | none => .error (.exhausted space v.name)
        | some (location, pool) => do
            let (pool, vs) ← placeWhere space test pool vs
            return (pool, { v with location } :: vs)
      else do
        let (pool, vs) ← placeWhere space test pool vs
        return (pool, v :: vs)

/-- Places vertex inputs: the pinned ones, then the active ones, then the rest. -/
def placeAttribs (pins : Pins) (capacity : Nat) (inputs : List InterfaceVar) :
    Except PlacementError (List InterfaceVar) := do
  let free (v : InterfaceVar) : Bool := (pins.get? v.name).isNone
  let (pool, inputs) ← reservePins pins (.ofCapacity capacity) inputs
  let (pool, inputs) ← placeWhere .attributes (fun v => free v && v.active) pool inputs
  let (_, inputs) ← placeWhere .attributes (fun v => free v && !v.active) pool inputs
  return inputs

/-! ## Varyings -/

/-- Places vertex outputs: the active ones, then the rest. -/
def placeVaryings (capacity : Nat) (outputs : List InterfaceVar) :
    Except PlacementError (LocationPool × List InterfaceVar) := do
  let (pool, outputs) ← placeWhere .varyings (·.active) (.ofCapacity capacity) outputs
  placeWhere .varyings (!·.active) pool outputs

/-- The order in which variables are placed. -/
def placementOrder (vars : List InterfaceVar) : List InterfaceVar :=
  vars.filter (·.active) ++ vars.filter (!·.active)

/-- The location of the last variable of a name, in the order of placement. -/
def varyingLocation? (outputs : List InterfaceVar) (name : String) : Option Nat :=
  ((placementOrder outputs).reverse.find? fun v => v.name == name).map (·.location)

/-- Gives each fragment input the location of the vertex output of its name.  An
inactive one without such an output gets a free location. -/
def resolveInputs (outputs : List InterfaceVar) :
    LocationPool → List InterfaceVar → Except PlacementError (List InterfaceVar)
  | _, [] => .ok []
  | pool, v :: vs =>
      match varyingLocation? outputs v.name with
      | some location => do
          return { v with location } :: (← resolveInputs outputs pool vs)
      | none =>
          if v.active then .error (.unresolvedVarying v.name)
          else
            match pool.allocate? v.footprint with
            | none => .error (.exhausted .varyings v.name)
            | some (location, pool) => do
                return { v with location } :: (← resolveInputs outputs pool vs)

/-! ## Bindings -/

/-- The resources of an interface, textures first. -/
def StageInterface.resources (i : StageInterface) : List ResourceVar :=
  i.textures ++ i.uniformBlocks

/-- The modules of the two stages. -/
structure ModulePair where
  /-- The vertex module. -/
  vertex : ShaderModule
  /-- The fragment module. -/
  fragment : ShaderModule
  deriving Repr, Inhabited

/-- The pair with the module of one stage changed. -/
def ModulePair.modify (p : ModulePair) (stage : Stage) (f : ShaderModule → ShaderModule) :
    ModulePair :=
  match stage with
  | .vertex => { p with vertex := f p.vertex }
  | .fragment => { p with fragment := f p.fragment }

/-- The resources of both stages in the order in which they are bound. -/
def bindingOrder (vertex fragment : StageInterface) : List (Stage × ResourceVar) :=
  [true, false].flatMap fun active =>
    ((vertex.resources.filter (·.active == active)).map fun r => (Stage.vertex, r)) ++
      (fragment.resources.filter (·.active == active)).map fun r => (Stage.fragment, r)

/-- Binds resources in order. -/
def bindResources : LocationPool → ModulePair → List (Stage × ResourceVar) →
    Except PlacementError ModulePair
  | _, p, [] => .ok p
  | pool, p, (stage, r) :: rest =>
      match pool.allocate? 1 with
      | none => .error (.exhausted .bindings r.name)
      | some (binding, pool) =>
          bindResources pool (p.modify stage fun m => m.applyBinding r binding) rest

/-- Binds the resources of both stages. -/
def placeBindings (p : ModulePair) (vertex fragment : StageInterface) :
    Except PlacementError ModulePair :=
  bindResources (.ofCapacity wordMax) p (bindingOrder vertex fragment)

end LegacyShader
