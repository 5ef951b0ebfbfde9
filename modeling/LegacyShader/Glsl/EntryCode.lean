import LegacyShader.Glsl.Draft

/-!
# The entry point

The entry point of a stage fills the globals of the inputs, computes what the initial values
of globals need, calls `main`, and returns the globals of the outputs as one struct.

An array of inputs or outputs is split into its elements and a struct into its members, and
each part has a location of its own.
-/

namespace LegacyShader.Glsl

open Code (Node Ref Statement)

/-! ## Splitting inputs and outputs -/

/-- A part of an input or output that has a location of its own. -/
structure InterfacePart where
  /-- Its name, if it has one. -/
  name : Option String
  /-- Its type. -/
  type : ShaderType
  /-- Its location. -/
  location : Nat
  /-- The indices of the elements and members that lead to it. -/
  path : List Nat
  deriving Repr, Inhabited

mutual

/-- The parts of a variable at a location. -/
def partsOf (name : Option String) (location : Nat) (path : List Nat) :
    ShaderType → List InterfacePart
  | .array base (some length) _ =>
      (List.range length).flatMap fun i => partsOf name (location + i) (path ++ [i]) base
  | .struct _ members _ => memberParts location path 0 members
  | type => [⟨name, type, location, path⟩]

/-- The parts of a member at a location. -/
def memberPart (location : Nat) (path : List Nat) : StructMember → List InterfacePart
  | .mk name type _ => partsOf name location path type

/-- The parts of members from an index on. -/
def memberParts (location : Nat) (path : List Nat) (index : Nat) :
    List StructMember → List InterfacePart
  | [] => []
  | m :: ms =>
      memberPart (location + index) (path ++ [index]) m ++ memberParts location path (index + 1) ms

end

/-- Whether a type has parts. -/
def hasParts : ShaderType → Bool
  | .array _ (some _) _ | .struct .. => true
  | _ => false

/-- An input or output of the entry point. -/
structure EntryPart where
  /-- What it is. -/
  argument : EntryArgument
  /-- The global that holds it. -/
  global : Nat
  /-- The indices that lead to it in the global. -/
  path : List Nat
  deriving Repr, Inhabited

/-- The inputs or outputs of the entry point for a declared one. -/
def InterfaceDecl.parts (i : InterfaceDecl) (type : ShaderType) : List EntryPart :=
  match i.decoration with
  | .location location =>
      (partsOf i.name location [] type).map fun p =>
        let interpolation := if p.path.isEmpty then i.interpolation else .byType
        ⟨⟨p.name, p.type, .location p.location, interpolation⟩, i.global, p.path⟩
  | .builtIn value =>
      if hasParts type then [] else [⟨⟨i.name, type, .builtIn value, .byType⟩, i.global, []⟩]

/-- The inputs, or the outputs, of the entry point. -/
def Draft.varyings (d : Draft) (output : Bool) : List EntryPart :=
  (d.interface.filter fun i => i.output == output).flatMap fun i =>
    ((d.globals[i.global]?).map fun g => i.parts g.type).getD []

/-! ## The result -/

/-- The outputs of an entry point as the members of one struct, from an offset
on. -/
def resultMembers : Nat → List EntryPart → List ResultMember × Nat
  | offset, [] => ([], offset)
  | offset, p :: ps =>
      let a := p.argument
      let (members, span) := resultMembers (offset + a.type.byteSize) ps
      (⟨a.name, a.type, offset, a.decoration, a.interpolation⟩ :: members, span)

/-- The result of an entry point with some outputs. -/
def resultOf : List EntryPart → EntryResult
  | [] => .none
  | outputs => .struct (resultMembers 0 outputs).1 (resultMembers 0 outputs).2

/-- The type of a result. -/
def resultType? : EntryResult → Option ShaderType
  | .none => none
  | .value type _ => some type
  | .struct members span =>
      some (.struct none (members.map fun m => .mk m.name m.type m.offset) span)

/-! ## The code -/

/-- The nodes and statements of the entry point. -/
structure EntryCode where
  /-- The nodes. -/
  nodes : Array Node
  /-- The statements. -/
  block : Array Statement := #[]
  deriving Inhabited

/-- Writes code of the entry point. -/
abbrev WriteEntry := StateM EntryCode

namespace WriteEntry

/-- Adds a node. -/
def node (n : Node) : WriteEntry Ref := do
  let c ← get
  set { c with nodes := c.nodes.push n }
  return c.nodes.size

/-- Adds a node and the statement that computes it. -/
def computed (n : Node) : WriteEntry Ref := do
  let r ← node n
  modify fun c => { c with block := c.block.push (.emit r (r + 1)) }
  return r

/-- Adds a statement. -/
def statement (s : Statement) : WriteEntry Unit :=
  modify fun c => { c with block := c.block.push s }

/-- Adds the pointer to a part of a global. -/
def pointer (p : EntryPart) : WriteEntry Ref := do
  p.path.foldlM (fun base i => node (.accessIndex base i)) (← node (.globalVariable p.global))

/-- Fills the global of an input with an argument. -/
def input (p : EntryPart) (index : Nat) : WriteEntry Unit := do
  let target ← pointer p
  let value ← node (.argument index)
  statement (.store target value)

/-- Loads an output. -/
def output (p : EntryPart) : WriteEntry Ref := do computed (.load (← pointer p))

/-- Writes the whole entry point around a function.  The statements are those of initial
values. -/
def whole (inputs outputs : List EntryPart) (initial : Array Statement) (main : Nat)
    (result : Option ShaderType) : WriteEntry Unit := do
  inputs.zipIdx.forM fun (p, i) => input p i
  modify fun c => { c with block := c.block ++ initial }
  statement (.call main [] none)
  let loaded ← outputs.mapM output
  let value ← result.mapM fun type => computed (.compose type loaded)
  statement (.finish value)

end WriteEntry

/-- The code of the entry point around a function. -/
def Draft.entryCode (d : Draft) (main : Nat) : Code.Function :=
  let inputs := d.varyings false
  let outputs := d.varyings true
  let result := resultType? (resultOf outputs)
  let bench := d.body.bench
  let ((), code) := (WriteEntry.whole inputs outputs bench.block main result).run ⟨bench.nodes, #[]⟩
  { arguments := inputs.map fun p => p.argument.type
    result
    nodes := code.nodes
    body := code.block.toList }

end LegacyShader.Glsl
