import LegacyShader.Glsl.Qualifiers

/-!
# Declarations of variables

A variable at global level becomes a global of the module, an input, an output or a
constant.  A block becomes one global, and each of its members a name of its own.
Inside a function a variable becomes a local variable.

The initial value of a global has to be a constant.  Any other one is computed, but not
stored.  The initial value of a local variable is stored where the declaration stands, unless
it is known and the declaration runs only once.
-/

namespace LegacyShader.Glsl

open Code (Ref)

/-! ## Global variables -/

/-- Adds a global with an initial value, if there is one. -/
def addGlobalWith (g : GlobalVariable) (init : Option Ref) : Read Nat := do
  let index ← addGlobal g
  init.forM fun r => modify fun d => { d with initializers := d.initializers ++ [(index, r)] }
  return index

/-- Adds an input or an output. -/
def addInOut (q : Qualifiers) (output : Bool) (name : Option String) (type : ShaderType)
    (init : Option Ref) : Read (Nat × Qualifiers) := do
  let (location, q) ← q.takeNumber "location"
  let (interpolation, q) := q.takeInterpolation
  let global ← addGlobalWith ⟨name, type, .perInvocation, none⟩ init
  addInterface ⟨name, .location (location.getD 0), global, output, interpolation⟩
  return (global, q)

/-- Whether variables of a type are handles of resources. -/
def isHandle : ShaderType → Bool
  | .image .. | .sampler _ => true
  | _ => false

/-- The type of a resource.  An image that is accessed by texel has its format and its access
from the qualifiers. -/
def resourceType (q : Qualifiers) (type : ShaderType) (place : Place) :
    Read (ShaderType × Qualifiers) := do
  match q.storage, type with
  | .uniform, .image dim arrayed (.storage unstated load store) => do
      let (access, q) := q.takeAccess
      let (format, q) := q.takeFormat
      if format.isNone then note .missingFormat place
      let (load, store) := access.getD (load, store)
      let type := ShaderType.image dim arrayed (.storage (format.getD unstated) load store)
      intern type
      return (type, q)
  | _, _ => return (type, q)

/-- Where a resource lives. -/
def resourceSpace (q : Qualifiers) (type : ShaderType) : Read (AddressSpace × Qualifiers) := do
  match q.storage with
  | .buffer =>
      let (access, q) := q.takeAccess
      let (load, store) := access.getD (true, true)
      return (.storage load store, q)
  | .workGroup => return (.workGroup, q)
  | _ =>
      if isHandle type then return (.handle, q)
      else
        let (pushed, q) ← q.takeFlag "push_constant"
        return (if pushed then .pushConstant else .uniform, q)

/-- Whether what lives in a space is bound. -/
def isBound : AddressSpace → Bool
  | .uniform | .storage .. | .handle => true
  | _ => false

/-- Takes the binding of a resource out of its qualifiers. -/
def takeBinding (q : Qualifiers) (place : Place) : Read (Option ResourceBinding × Qualifiers) := do
  let (binding, q) ← q.takeNumber "binding"
  if binding.isNone then note .missingBinding place
  let (set, q) ← q.takeNumber "set"
  return (binding.map fun b => ⟨set.getD 0, b⟩, q)

/-- Adds a resource. -/
def addResource (q : Qualifiers) (name : Option String) (type : ShaderType) (init : Option Ref)
    (place : Place) : Read (Nat × Qualifiers) := do
  let (type, q) ← resourceType q type place
  let (space, q) ← resourceSpace q type
  let (binding, q) ← if isBound space then takeBinding q place else pure (none, q)
  return (← addGlobalWith ⟨name, type, space, binding⟩ init, q)

/-- Adds a constant, and gives its index. -/
def addConstant (k : Code.Constant) : Read Nat := do
  let d ← definitions
  match d.constants.findIdx? (· == k) with
  | some index => return index
  | none => do
      modifyBench fun w =>
        { w with definitions := { w.definitions with constants := w.definitions.constants.push k } }
      return d.constants.size

/-- Declares a global variable or a constant. -/
def declareAtTop (q : Qualifiers) (name : Option String) (type : ShaderType)
    (init : Option Ref) (place : Place) : Read (GlobalTarget × Qualifiers) := do
  let (target, writable, q) ← match q.storage with
    | .input => do
        let (g, q) ← addInOut q false name type init
        pure (GlobalTarget.whole g, false, q)
    | .output => do
        let (g, q) ← addInOut q true name type init
        pure (GlobalTarget.whole g, true, q)
    | .uniform | .buffer | .workGroup => do
        let (g, q) ← addResource q name type init place
        pure (GlobalTarget.whole g, true, q)
    | .unspecified => do
        let g ← addGlobalWith ⟨name, type, .perInvocation, none⟩ init
        pure (GlobalTarget.whole g, true, q)
    | .constant =>
        match init with
        | none => fail .constantWithoutValue place
        | some r => do
            let k ← addConstant ⟨name.getD "", type, r⟩
            pure (GlobalTarget.constant k type, false, q)
  name.forM fun n => declareGlobal ⟨n, target, writable⟩
  q.noteUnused
  return (target, q)

/-! ## Local variables -/

/-- Declares a local variable, and gives its node. -/
def declareLocal (q : Qualifiers) (name : String) (type : ShaderType) (init : Option Ref)
    (place : Place) : Read Ref := do
  unless q.storage = .unspecified ∨ q.storage = .constant do note .localStorage q.storagePlace
  let node ← addLocal type init place
  if (← body).declares name then note (.redeclared name) place
  modifyBody fun b => b.declare name { node, stored := true, writable := q.storage != .constant }
  q.noteUnused
  return node

/-! ## Initializers -/

/-- The type that an item of a list of initial values has. -/
def itemType (type : ShaderType) (index : Nat) : Read ShaderType := do
  match type with
  | .vector _ s => do
      intern (.scalar s)
      return .scalar s
  | .matrix _ rows s => do
      intern (.vector rows s)
      return .vector rows s
  | .array base _ _ => return base
  | .struct _ members _ => return (members[index]?.map (·.type)).getD type
  | _ => return type

mutual

/-- Reads an initial value: an expression, or a list of initial values in
braces. -/
def initializerAt : Nat → ShaderType → Read (Ref × Place)
  | 0, _ => fail .endOfFile none
  | n + 1, type => do
      match ← bumpIf? .leftBrace with
      | some l => do
          let (items, close) ← initializersAt n type []
          let place := l.place.join close
          return (← add (.compose type items) place, place)
      | none => do
          let e ← readAssignment
          let r ← lowerValue .read e
          return (← raiseToType r e.place type, e.place)

/-- Reads the initial values of a list, and gives the place of the closing
brace. -/
def initializersAt : Nat → ShaderType → List Ref → Read (List Ref × Place)
  | 0, _, _ => fail .endOfFile none
  | n + 1, type, done => do
      let (item, _) ← initializerAt n (← itemType type done.length)
      let done := done ++ [item]
      let l ← bump
      match l.lexeme with
      | .punct .comma =>
          match ← bumpIf? .rightBrace with
          | some close => return (done, close.place)
          | none => initializersAt n type done
      | .punct .rightBrace => return (done, l.place)
      | _ => unexpected l [.punct .comma, .punct .rightBrace]

end

/-- Reads an initial value. -/
def readInitializer (type : ShaderType) : Read (Ref × Place) := do
  initializerAt (← depthBound) type

/-- Copies the initial value of a global into the constants, if it is one. -/
def liftInitializer (r : Ref) : Read (Option Ref) := do
  let (lifted, w) := (← body).bench.lift r
  modifyBench fun _ => w
  return lifted.toOption

/-- Declares a local variable with an initial value. -/
def declareInitialized (q : Qualifiers) (name : String) (type : ShaderType) (init : Ref)
    (place : Place) : Read Unit := do
  let b ← body
  if b.looping || !(b.bench.known[init]?).getD false then
    let pointer ← declareLocal q name type none place
    pushBehind (.store pointer init)
  else
    let _ ← declareLocal q name type (some init) place

/-! ## Lists of names -/

/-- Declares a name at global level.  The declaration writes one more node. -/
def declareTopName (q : Qualifiers) (name : String) (type : ShaderType) (init : Option Ref)
    (place : Place) : Read Qualifiers := do
  let init ← match q.storage, init with
    | .constant, init => pure init
    | _, some r => liftInitializer r
    | _, none => pure none
  let (target, q) ← declareAtTop q (some name) type init place
  let _ ← add (match target with
    | .whole index | .member index _ => .globalVariable index
    | .constant index _ => .constant index) place
  return q

/-- Declares a name inside a function. -/
def declareLocalName (q : Qualifiers) (name : String) (type : ShaderType) (init : Option Ref)
    (place : Place) : Read Qualifiers := do
  match init with
  | some r => declareInitialized q name type r place
  | none => do
      let _ ← declareLocal q name type none place
  return q

/-- Reads the names of a declaration, with their lengths and initial values, up to
the semicolon.  A length also counts for the names behind it. -/
def readDeclarators (top : Bool) : Nat → Qualifiers → ShaderType → Read Unit
  | 0, _, _ => fail .endOfFile none
  | n + 1, q, type => do
      let l ← bump
      match l.lexeme with
      | .punct .semicolon => return
      | .identifier name => do
          let type ← readArray type
          let (init, place) ← do
            if ← bumpIf .equal then
              let (r, p) ← readingConstant (top && q.storage == .constant) do
                let (r, p) ← readInitializer type
                return (← raiseToType r p type, p)
              pure (some r, l.place.join p)
            else pure (none, l.place)
          let q ← if top then declareTopName q name type init place
            else declareLocalName q name type init place
          let l ← bump
          match l.lexeme with
          | .punct .semicolon => return
          | .punct .comma => readDeclarators top n q type
          | _ => unexpected l [.punct .comma, .punct .semicolon]
      | _ => unexpected l [.identifier, .punct .semicolon]

/-- Reads the names of a declaration behind its type.  A comma may lead. -/
def readNames (top : Bool) (q : Qualifiers) (type : ShaderType) : Read Unit := do
  let _ ← bumpIf .comma
  readDeclarators top ((← get).rest.length + 1) q type

/-! ## Blocks -/

/-- Declares the members of a block as names. -/
def declareMembers (target : GlobalTarget) (members : List StructMember) : Read Unit :=
  members.zipIdx.forM fun (m, i) =>
    m.name.forM fun name =>
      declareGlobal
        { name
          target := match target with
            | .whole index | .member index _ => .member index i
            | .constant index _ => .constant index m.type
          writable := true }

/-- Reads a block behind its opening brace. -/
def readBlock (q : Qualifiers) (typeName : String) (place : Place) : Read Unit := do
  let (packed, q) := q.takePacking
  let ms ← readMembers packed
  let _ ← expect .rightBrace
  let type := ShaderType.struct (some typeName) ms.members ms.span
  intern type
  let l ← bump
  let (name, type) ← match l.lexeme with
    | .punct .semicolon => pure (none, type)
    | .identifier name => do
        let type ← readArray type
        let _ ← expect .semicolon
        pure (some name, type)
    | _ => unexpected l [.identifier, .punct .semicolon]
  let (target, _) ← declareAtTop q name type none (place.join l.place)
  declareMembers target ms.members

/-! ## Other declarations -/

/-- Reads a precision statement behind its word. -/
def readPrecision : Read Unit := do
  let l ← bump
  match l.lexeme with
  | .keyword .highp | .keyword .mediump | .keyword .lowp =>
      let (type, place) ← readValueType
      unless type == .scalar .f32 || type == .scalar .f64 || type == .scalar .i32 do
        note .precisionType place
      let _ ← expect .semicolon
  | _ => unexpected l [.keyword .highp, .keyword .mediump, .keyword .lowp]

/-- Reads a declaration of qualifiers without a type, behind the qualifiers. -/
def readUntyped (q : Qualifiers) : Read Unit := do
  let l ← bump
  match l.lexeme with
  | .identifier name =>
      if ← bumpIf .leftBrace then readBlock q name l.place
      else if q.invariant.isSome then
        let _ ← lookupVariable? name l.place
        { q with invariant := none }.noteUnused
        let _ ← expect .semicolon
      else fail .qualifierDeclaration l.place
  | .punct .semicolon => do
      let (x, q) ← q.takeNumber "local_size_x"
      let (y, q) ← q.takeNumber "local_size_y"
      let (z, q) ← q.takeNumber "local_size_z"
      let (early, q) ← q.takeFlag "early_fragment_tests"
      modify fun d =>
        { d with
          earlyTests := d.earlyTests || early
          groupSize := (x.getD d.groupSize.1, y.getD d.groupSize.2.1, z.getD d.groupSize.2.2) }
      q.noteUnused
  | _ => unexpected l [.identifier, .punct .semicolon]

end LegacyShader.Glsl
