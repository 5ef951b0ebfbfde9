import LegacyShader.Code.Node
import LegacyShader.StageSet

/-!
# Use of globals

Which globals the code of a function reads or writes itself, and which functions it
calls.  A global is read where a pointer to it or to a part of it is an operand of a
node, whether or not the node is ever computed.  The question for the size of a
texture or an array does not read it, but is kept on its own.
-/

namespace LegacyShader.Code

/-- The globals that nodes lead to: themselves, or as parts. -/
def globalRoots (nodes : Array Node) : Array (Option Nat) :=
  nodes.foldl (fun roots n =>
    roots.push (match n with
      | .globalVariable index => some index
      | .access base _ | .accessIndex base _ => (roots[base]?).join
      | _ => none)) #[]

/-- The nodes that a level of detail reads. -/
def SampleLevel.operands : SampleLevel → List Ref
  | .auto | .zero => []
  | .exact level => [level]
  | .bias amount => [amount]
  | .gradient x y => [x, y]

/-- The nodes that a node reads.  A part does not read what it is a part of. -/
def Node.operands : Node → List Ref
  | .literal _ | .constant _ | .argument _ | .globalVariable _ | .localVariable _
  | .accessIndex .. | .callResult _ | .arrayLength _ => []
  | .compose _ components => components
  | .splat _ value => [value]
  | .access _ index => [index]
  | .swizzle _ vector _ => [vector]
  | .load pointer => [pointer]
  | .sample image sampler coordinate layer _ level depth =>
      [image, sampler, coordinate] ++ layer.toList ++ level.operands ++ depth.toList
  | .fetch image coordinate layer index level =>
      [image, coordinate] ++ layer.toList ++ index.toList ++ level.toList
  | .query _ (.size level) => level.toList
  | .query _ .layers => []
  | .unary _ operand | .derivative operand | .relational _ operand | .cast operand _ _ => [operand]
  | .binary _ left right => [left, right]
  | .select condition accept reject => [condition, accept, reject]
  | .math _ arguments => arguments

/-- The node that a node asks for its size. -/
def Node.asked? : Node → Option Ref
  | .query image _ => some image
  | .arrayLength array => some array
  | _ => none

mutual

/-- The nodes that a statement reads or writes through, and the functions that it
calls. -/
def Statement.uses : Statement → List Ref × List Nat
  | .emit .. | .leave | .next | .kill | .barrier | .finish none => ([], [])
  | .block body => usesOf body
  | .branch condition accept reject =>
      let (a, f) := usesOf accept
      let (b, g) := usesOf reject
      (condition :: a ++ b, f ++ g)
  | .switch selector cases =>
      let (a, f) := caseUses cases
      (selector :: a, f)
  | .loop body continuing =>
      let (a, f) := usesOf body
      let (b, g) := usesOf continuing
      (a ++ b, f ++ g)
  | .finish (some value) => ([value], [])
  | .store pointer value => ([pointer, value], [])
  | .storeTexel image coordinate layer value =>
      ([image, coordinate] ++ layer.toList ++ [value], [])
  | .call function arguments _ => (arguments, [function])

/-- What some statements use. -/
def usesOf : List Statement → List Ref × List Nat
  | [] => ([], [])
  | s :: rest =>
      let (a, f) := s.uses
      let (b, g) := usesOf rest
      (a ++ b, f ++ g)

/-- What a case uses. -/
def SwitchCase.uses : SwitchCase → List Ref × List Nat
  | .mk _ body _ => usesOf body

/-- What some cases use. -/
def caseUses : List SwitchCase → List Ref × List Nat
  | [] => ([], [])
  | c :: rest =>
      let (a, f) := c.uses
      let (b, g) := caseUses rest
      (a ++ b, f ++ g)

end

namespace Function

/-- The globals that a function reads or writes itself. -/
def touched (f : Function) : List Nat :=
  let roots := globalRoots f.nodes
  let refs := f.nodes.toList.flatMap Node.operands ++ (usesOf f.body).1
  (refs.filterMap fun r => (roots[r]?).join).eraseDups

/-- The globals that a function asks for their size itself. -/
def asked (f : Function) : List Nat :=
  let roots := globalRoots f.nodes
  ((f.nodes.toList.filterMap Node.asked?).filterMap fun r => (roots[r]?).join).eraseDups

/-- The functions that a function calls itself. -/
def calls (f : Function) : List Nat := (usesOf f.body).2.eraseDups

end Function

end LegacyShader.Code
