import LegacyShader.Code.Usage

/-!
# Nodes that are written out

A text in a shading language names the value of a node where it is computed if the value is used
often enough, and otherwise writes the node where it is used.  A node that nothing uses
and that has no name is not written at all.  Here all that is written of a function comes in the
order of the text.
-/

namespace LegacyShader.Code

/-- The nodes that a node refers to. -/
def Node.references : Node → List Ref
  | .access base index => [base, index]
  | .accessIndex base _ | .arrayLength base => [base]
  | .query image (.size level) => image :: level.toList
  | .query image .layers => [image]
  | n => n.operands

/-- How often each node of a function is referred to, by its nodes and statements. -/
def Function.referenceCounts (f : Function) : Array Nat :=
  (f.nodes.toList.flatMap Node.references ++ (usesOf f.body).1).foldl
    (fun counts r => counts.modify r (· + 1)) (Array.replicate f.nodes.size 0)

/-- Whether a node that is referred to so many times has a name. -/
def Node.isNamed (count : Nat) : Node → Bool
  | .access .. | .accessIndex .. => false
  | .query .. | .sample .. | .fetch .. | .callResult _ => true
  | .derivative _ | .load _ => decide (1 ≤ count)
  | _ => decide (2 ≤ count)

/-- A piece of the text of a function. -/
inductive Piece where
  /-- A node. -/
  | node (n : Node)
  /-- A case that is not empty and goes on to the next one. -/
  | fallThrough
  deriving Repr, Inhabited

/-- The nodes that a node refers to, in the order of the text. -/
def Node.textOrder : Node → List Ref
  | .select condition accept reject => [reject, accept, condition]
  | n => n.references

/-- The nodes of a function, and which of them have names. -/
structure Naming where
  /-- The nodes. -/
  nodes : Array Node
  /-- Which of them have names. -/
  named : Array Bool
  deriving Inhabited

namespace Naming

/-- The text of a node in full, in at most `fuel` levels. -/
def full (w : Naming) : Nat → Ref → List Piece
  | 0, _ => []
  | fuel + 1, r =>
      match w.nodes[r]? with
      | none => []
      | some n => .node n :: n.textOrder.flatMap fun a =>
          if w.named.getD a false then [] else w.full fuel a

/-- The text of a node where its value is computed.  Each node refers only to nodes in front of
it. -/
def whole (w : Naming) (r : Ref) : List Piece := w.full (r + 1) r

/-- The text of a node where its value is used. -/
def use (w : Naming) (r : Ref) : List Piece := if w.named.getD r false then [] else w.whole r

mutual

/-- The text of a statement. -/
def statement (w : Naming) : Statement → List Piece
  | .emit start stop =>
      (List.range' start (stop - start)).flatMap fun r =>
        if w.named.getD r false then w.whole r else []
  | .block body => w.statements body
  | .branch condition accept reject =>
      w.use condition ++ w.statements accept ++ w.statements reject
  | .switch selector cases => w.use selector ++ w.cases cases
  | .loop body continuing => w.statements body ++ w.statements continuing
  | .store pointer value => w.use pointer ++ w.use value
  | .storeTexel image coordinate layer value =>
      ([image, coordinate] ++ layer.toList ++ [value]).flatMap w.use
  | .finish value => value.toList.flatMap w.use
  | .call _ arguments _ => arguments.flatMap w.use
  | .leave | .next | .kill | .barrier => []

/-- The text of some statements. -/
def statements (w : Naming) : List Statement → List Piece
  | [] => []
  | s :: rest => w.statement s ++ w.statements rest

/-- The text of a case. -/
def switchCase (w : Naming) : SwitchCase → List Piece
  | .mk _ body fallsThrough =>
      (if fallsThrough && !body.isEmpty then [.fallThrough] else []) ++ w.statements body

/-- The text of some cases. -/
def cases (w : Naming) : List SwitchCase → List Piece
  | [] => []
  | c :: rest => w.switchCase c ++ w.cases rest

end

end Naming

/-- The names in the text of a function. -/
def Function.naming (f : Function) : Naming :=
  ⟨f.nodes, (f.nodes.zip f.referenceCounts).map fun (n, count) => n.isNamed count⟩

/-- The text of a function.  The first values of its variables are plain and left out. -/
def Function.text (f : Function) : List Piece := f.naming.statements f.body

end LegacyShader.Code
