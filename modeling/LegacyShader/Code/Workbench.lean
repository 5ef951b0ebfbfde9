import LegacyShader.Code.Node

/-!
# Code in the making

A *workbench* holds the code that is being written: the nodes so far, which of them
have known values, and the statements of the current block.

Nodes are computed by a statement, but that statement is not written for each node.
The nodes from some number on are *pending*, and one statement for all of them is
written when something else has to come behind it.  A node that exists from the
start interrupts the pending ones.

The nodes of constants stand in a list of their own, which needs no statements.  A
workbench writes to that list while a constant is being read.
-/

namespace LegacyShader.Code

/-- Code in the making. -/
structure Workbench where
  /-- The types and constants of the module. -/
  definitions : Definitions := {}
  /-- Whether a constant is being read. -/
  constant : Bool := false
  /-- The nodes of the function. -/
  nodes : Array Node := #[]
  /-- Which of these nodes have known values. -/
  known : Array Bool := #[]
  /-- The first pending node, unless nothing can be pending. -/
  pending : Option Ref := none
  /-- The statements of the current block. -/
  block : Array Statement := #[]
  deriving Inhabited

namespace Workbench

/-- The list of nodes that is written to. -/
def current (w : Workbench) : Array Node := if w.constant then w.definitions.nodes else w.nodes

/-- A node of the list that is written to. -/
def node? (w : Workbench) (r : Ref) : Option Node := w.current[r]?

/-- Adds a statement. -/
def push (w : Workbench) (s : Statement) : Workbench := { w with block := w.block.push s }

/-- Writes the statement for the pending nodes. -/
def finishPending (w : Workbench) : Workbench :=
  match w.pending with
  | some start =>
      let w := { w with pending := none }
      if start < w.nodes.size then w.push (.emit start w.nodes.size) else w
  | none => w

/-- Lets nodes become pending from here on. -/
def startPending (w : Workbench) : Workbench := { w with pending := some w.nodes.size }

/-- Writes the statement for the pending nodes, and starts with new ones. -/
def flush (w : Workbench) : Workbench := w.finishPending.startPending

/-- Adds a node to the function. -/
def appendToFunction (w : Workbench) (n : Node) (known : Bool) : Workbench :=
  let add (w : Workbench) : Workbench :=
    { w with nodes := w.nodes.push n, known := w.known.push known }
  if n.preexists ∧ w.pending.isSome then (add w.finishPending).startPending else add w

/-- Adds a node, and gives its number. -/
def append (w : Workbench) (n : Node) (known : Bool) : Ref × Workbench :=
  if w.constant then
    let d := w.definitions
    (d.nodes.size, { w with definitions := { d with nodes := d.nodes.push n } })
  else (w.nodes.size, w.appendToFunction n known)

/-- The workbench with a type among its definitions. -/
def withType (w : Workbench) (type : ShaderType) : Workbench :=
  { w with definitions := w.definitions.withType type }

end Workbench

end LegacyShader.Code
