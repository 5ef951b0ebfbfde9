import LegacyShader.Code.Folding
import LegacyShader.Code.Typing
import LegacyShader.Glsl.BuiltInFunction
import LegacyShader.Glsl.Expr
import LegacyShader.ShaderModule

/-!
# Modules in the making

A source is read from front to back, and a *draft* holds all that is known so far:
what is left to read, the diagnostics, the names that have been declared, and the
parts of the module.  The *body* of a draft is what has been read of the function
that is being read, or of the initializers of global variables.

Reading is a computation on drafts.  It can end early with a diagnostic, and the
draft at that point is kept, since it holds the diagnostics before it.
-/

namespace LegacyShader.Glsl

open Code (LocalVariable Node NodeType Ref Statement Surroundings Workbench)

/-! ## Bodies -/

/-- A list of names and what they stand for, the latest one first. -/
abbrev Scope := List (String × Variable)

/-- What has been read of a function. -/
structure Body where
  /-- The scopes, the innermost one first.  The last one also holds the names of
  globals. -/
  scopes : List Scope := [[]]
  /-- Its code, with the types and constants of the module. -/
  bench : Workbench := {}
  /-- The places of its nodes. -/
  places : Array Place := #[]
  /-- The types of its first nodes. -/
  types : Array NodeType := #[]
  /-- The types of the first nodes of constants. -/
  constantTypes : Array NodeType := #[]
  /-- Its local variables. -/
  locals : Array LocalVariable := #[]
  /-- The types of its arguments. -/
  arguments : Array ShaderType := #[]
  /-- The arguments, by index, that turned out to be textures of depths. -/
  depthArguments : List Nat := []
  /-- The textures that have been joined with samplers, both by node. -/
  pairs : List (Ref × Ref) := []
  /-- The number of expressions of the statement. -/
  count : Nat := 0
  /-- Whether a loop is being read. -/
  looping : Bool := false
  deriving Inhabited

namespace Body

/-- Declares a name in the innermost scope. -/
def declare (b : Body) (name : String) (v : Variable) : Body :=
  match b.scopes with
  | [] => { b with scopes := [[(name, v)]] }
  | s :: ss => { b with scopes := ((name, v) :: s) :: ss }

/-- Declares a name in the outermost scope. -/
def declareOutside (b : Body) (name : String) (v : Variable) : Body :=
  match b.scopes.reverse with
  | [] => { b with scopes := [[(name, v)]] }
  | s :: ss => { b with scopes := (((name, v) :: s) :: ss).reverse }

/-- Whether the innermost scope declares a name. -/
def declares (b : Body) (name : String) : Bool :=
  (b.scopes.headD []).any fun (n, _) => n == name

/-- What a name stands for. -/
def lookup? (b : Body) (name : String) : Option Variable :=
  b.scopes.findSome? fun s => s.lookup name

/-- The body with another workbench.  New nodes of the function come from a
place. -/
def withBench (b : Body) (w : Workbench) (place : Place) : Body :=
  { b with
    bench := w
    places := b.places ++ Array.replicate (w.nodes.size - b.places.size) place }

/-- Adds a node that comes from a place. -/
def add (b : Body) (n : Node) (place : Place) : Except Code.FoldError Ref × Body :=
  let (r, w) := b.bench.add n
  (r, b.withBench w place)

end Body

/-! ## Drafts -/

/-- A lexeme at its place. -/
structure Located where
  /-- The lexeme. -/
  lexeme : Lexeme
  /-- The place it is read from. -/
  place : Place
  deriving Repr, Inhabited

/-- An input or output of the stage, before it is split into located parts. -/
structure InterfaceDecl where
  /-- Its name.  Built-in values have none. -/
  name : Option String
  /-- How it is connected. -/
  decoration : Decoration
  /-- The global that holds it. -/
  global : Nat
  /-- Whether it is an output. -/
  output : Bool
  /-- How it is found for a fragment. -/
  interpolation : Interpolation := .byType
  deriving Repr, Inhabited

/-- What a global name stands for. -/
inductive GlobalTarget where
  /-- A global variable. -/
  | whole (index : Nat)
  /-- A member of a global variable. -/
  | member (index member : Nat)
  /-- A constant, with its type. -/
  | constant (index : Nat) (type : ShaderType)
  deriving Repr, Inhabited

/-- A global name. -/
structure GlobalName where
  /-- The name. -/
  name : String
  /-- What it stands for. -/
  target : GlobalTarget
  /-- Whether it can be written. -/
  writable : Bool
  deriving Repr, Inhabited

/-- The functions of a name. -/
structure FunctionFamily where
  /-- The overloads, in the order of their declaration. -/
  overloads : List Overload
  /-- Which built-in ones are among them. -/
  variations : Variations := {}
  deriving Repr, Inhabited

/-- A function of the module. -/
structure NamedFunction where
  /-- Its name. -/
  name : String
  /-- Its code. -/
  code : Code.Function
  deriving Inhabited

/-- A module in the making. -/
structure Draft where
  /-- The stage of the module. -/
  stage : Stage
  /-- What is left to read. -/
  rest : List (Except Preprocess.Fault Located)
  /-- The place of the last lexeme that was read. -/
  last : Place := none
  /-- The diagnostics, the latest one first. -/
  diagnostics : List Diagnostic := []
  /-- The types that have been declared. -/
  types : List (String × ShaderType) := []
  /-- The global names that have been declared, in order. -/
  names : Array GlobalName := #[]
  /-- The functions that have been declared or called. -/
  families : List (String × FunctionFamily) := []
  /-- The global variables. -/
  globals : Array GlobalVariable := #[]
  /-- The nodes with the first values of globals, by index. -/
  initializers : List (Nat × Ref) := []
  /-- The inputs and outputs. -/
  interface : List InterfaceDecl := []
  /-- Whether fragments are tested before the stage runs. -/
  earlyTests : Bool := false
  /-- The size of a group of invocations. -/
  groupSize : Nat × Nat × Nat := (0, 0, 0)
  /-- The functions. -/
  functions : Array NamedFunction := #[]
  /-- What is being read. -/
  body : Body := {}
  deriving Inhabited

/-- What the nodes of the body refer to. -/
def Draft.surroundings (d : Draft) : Surroundings :=
  ⟨d.body.bench.definitions, d.globals.map fun g => (g.type, g.space),
    d.functions.map (·.code.result), d.body.arguments, d.body.locals.map (·.type)⟩

/-- A computation that reads. -/
abbrev Read := EStateM Diagnostic Draft

/-- Ends the reading. -/
def fail {α : Type} (cause : Cause) (place : Place) : Read α := throw ⟨cause, place⟩

/-- Notes what is wrong and goes on. -/
def note (cause : Cause) (place : Place) : Read Unit :=
  modify fun d => { d with diagnostics := ⟨cause, place⟩ :: d.diagnostics }

/-- The body that is being read. -/
def body : Read Body := return (← get).body

/-- Changes the body that is being read. -/
def modifyBody (f : Body → Body) : Read Unit := modify fun d => { d with body := f d.body }

/-- Changes the code that is being written. -/
def modifyBench (f : Workbench → Workbench) : Read Unit :=
  modifyBody fun b => { b with bench := f b.bench }

/-- Reads in a new scope. -/
def inScope {α : Type} (read : Read α) : Read α := do
  modifyBody fun b => { b with scopes := [] :: b.scopes }
  let a ← read
  modifyBody fun b => { b with scopes := b.scopes.tail }
  return a

/-- The number of the next expression of the statement, at a place. -/
def originAt (place : Place) : Read Origin := do
  let b ← body
  modifyBody fun b => { b with count := b.count + 1 }
  return ⟨place, b.count⟩

/-- The types and constants of the module. -/
def definitions : Read Code.Definitions := return (← body).bench.definitions

/-! ## Globals -/

/-- Adds a global variable and gives its index. -/
def addGlobal (g : GlobalVariable) : Read Nat := do
  let d ← get
  set { d with globals := d.globals.push g }
  return d.globals.size

/-- Adds an input or output. -/
def addInterface (i : InterfaceDecl) : Read Unit :=
  modify fun d => { d with interface := d.interface ++ [i] }

/-! ## Functions -/

/-- The functions of a name.  The first mention of a name declares the built-in ones that every
shader has, and others follow where the given types need them.  Those that are new come
second. -/
def familyFor (name : String) (types : List ShaderType) :
    Read (FunctionFamily × List Overload) := do
  let known := (← get).families.lookup name
  let found := known.getD ⟨[], {}⟩
  let wanted := (Variations.ofTypes types).join { plain := known.isNone }
  let new := builtInFunctions (wanted.without found.variations) name
  return (⟨found.overloads ++ new, found.variations.join wanted⟩, new)

/-- Keeps the functions of a name. -/
def setFamily (name : String) (f : FunctionFamily) : Read Unit :=
  modify fun d => { d with families := (name, f) :: d.families.filter fun (n, _) => n != name }

end LegacyShader.Glsl
