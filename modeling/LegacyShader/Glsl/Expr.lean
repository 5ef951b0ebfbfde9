import LegacyShader.Code.Node
import LegacyShader.Glsl.Diagnostic

/-!
# Expressions

Expressions as they are read.  Names of variables are already looked up, since a
name has to be declared in front of its use.  What a call refers to is settled
later, when the types of its arguments are known.

The expressions of a statement are numbered in the order in which they are complete.
-/

namespace LegacyShader.Glsl

open Code (BinaryOp Literal Ref UnaryOp)

/-- What a name stands for. -/
structure Variable where
  /-- Its node in the code of the function. -/
  node : Ref
  /-- Whether it has to be loaded from memory. -/
  stored : Bool
  /-- Whether it can be written. -/
  writable : Bool
  /-- The constant of the module that it is, and its type. -/
  constant : Option (Nat × ShaderType) := none
  deriving Repr, Inhabited

/-- The literal of a whole number.  Only the low 32 bits count. -/
def integerLiteral (n : Preprocess.IntegerLiteral) : Literal :=
  if n.signed then .sint (Int.bmod n.value Code.wordCount) else .uint (n.value % Code.wordCount)

/-- What a call names. -/
inductive Callee where
  /-- A type, whose constructor is called. -/
  | constructor (type : ShaderType)
  /-- A function. -/
  | function (name : String)
  deriving Repr, Inhabited

/-- Where an expression comes from. -/
structure Origin where
  /-- The place it is read from. -/
  place : Place
  /-- Its number in the statement. -/
  number : Nat
  deriving Repr, Inhabited

/-- An expression, with its origin. -/
inductive Expr where
  /-- A literal. -/
  | literal (value : Literal) (origin : Origin)
  /-- A variable. -/
  | var (v : Variable) (origin : Origin)
  /-- An element. -/
  | access (base index : Expr) (origin : Origin)
  /-- A member or a swizzle. -/
  | select (base : Expr) (field : String) (origin : Origin)
  /-- An operator with one operand. -/
  | unary (op : UnaryOp) (operand : Expr) (origin : Origin)
  /-- An operator with two operands. -/
  | binary (op : BinaryOp) (left right : Expr) (origin : Origin)
  /-- A call. -/
  | call (callee : Callee) (arguments : List Expr) (origin : Origin)
  /-- A call of a method. -/
  | method (object : Expr) (name : String) (arguments : List Expr) (origin : Origin)
  /-- A choice. -/
  | conditional (condition accept reject : Expr) (origin : Origin)
  /-- An assignment. -/
  | assign (target value : Expr) (origin : Origin)
  /-- A step up or down, whose value is that before or behind it. -/
  | step (op : BinaryOp) (behind : Bool) (operand : Expr) (origin : Origin)
  deriving Repr, Inhabited

namespace Expr

/-- Where an expression comes from. -/
def origin : Expr → Origin
  | .literal _ o | .var _ o | .access _ _ o | .select _ _ o | .unary _ _ o | .binary _ _ _ o
  | .call _ _ o | .method _ _ _ o | .conditional _ _ _ o | .assign _ _ o | .step _ _ _ o => o

/-- The place of an expression. -/
def place (e : Expr) : Place := e.origin.place

/-! ## Expressions in messages -/

/-- The number of an expression in messages. -/
def numberShown (e : Expr) : String := LegacyShader.numberShown e.origin.number

/-- The numbers of expressions in messages. -/
def numbersShown (es : List Expr) : String := "[" ++ ", ".intercalate (es.map numberShown) ++ "]"

/-- Fields of something in messages. -/
def fieldsShown (name : String) (fields : List (String × String)) : String :=
  name ++ " \x7b " ++ ", ".intercalate (fields.map fun (f, v) => f ++ ": " ++ v) ++ " \x7d"


/-- What a call names, in messages. -/
def calleeShown (d : Code.Definitions) : Callee → String
  | .constructor type =>
      "TypeConstructor(" ++ LegacyShader.numberShown (d.typeIndex type) ++ ")"
  | .function name => "Function(" ++ Text.quoted name ++ ")"

/-- The kind of an expression in messages. -/
def kindShown (d : Code.Definitions) : Expr → String
  | .literal value _ => "Literal(" ++ value.shown ++ ")"
  | .var .. => "Variable"
  | .access base index _ =>
      fieldsShown "Access" [("base", base.numberShown), ("index", index.numberShown)]
  | .select base field _ =>
      fieldsShown "Select" [("base", base.numberShown), ("field", Text.quoted field)]
  | .unary op operand _ =>
      fieldsShown "Unary" [("op", op.shown), ("expr", operand.numberShown)]
  | .binary op left right _ =>
      fieldsShown "Binary"
        [("left", left.numberShown), ("op", op.shown), ("right", right.numberShown)]
  | .call callee arguments _ =>
      "Call(" ++
        fieldsShown "FunctionCall"
          [("kind", calleeShown d callee), ("args", numbersShown arguments)] ++ ")"
  | .method object name arguments _ =>
      fieldsShown "Method"
        [("expr", object.numberShown), ("name", Text.quoted name), ("args", numbersShown arguments)]
  | .conditional condition accept reject _ =>
      fieldsShown "Conditional"
        [("condition", condition.numberShown), ("accept", accept.numberShown),
          ("reject", reject.numberShown)]
  | .assign target value _ =>
      fieldsShown "Assign" [("tgt", target.numberShown), ("value", value.numberShown)]
  | .step op behind operand _ =>
      fieldsShown "PrePostfix"
        [("op", op.shown), ("postfix", boolShown behind), ("expr", operand.numberShown)]

/-- A place in messages. -/
def placeShown (p : Place) : String :=
  let s := p.getD ⟨0, 0⟩
  fieldsShown "Span" [("start", toString s.start), ("end", toString s.stop)]

/-- An expression in messages. -/
def shown (d : Code.Definitions) (e : Expr) : String :=
  fieldsShown "HirExpr" [("kind", e.kindShown d), ("meta", placeShown e.place)]

end Expr

end LegacyShader.Glsl
