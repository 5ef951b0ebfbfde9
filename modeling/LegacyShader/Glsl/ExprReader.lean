import LegacyShader.Glsl.Cursor
import LegacyShader.Glsl.Layout
import LegacyShader.Glsl.Lowering

/-!
# Reading types and expressions

Types and expressions contain each other: the length of an array is an expression,
and a constructor starts with a type.  So they are read by one family of functions,
each for one rule of the grammar.

Every step takes a number that bounds how deep the rules may still nest.  Each rule
reads at least one lexeme before it comes back to itself, so a multiple of the
number of lexemes that are left is enough, and the bound is never felt.
-/

namespace LegacyShader.Glsl

open Code (BinaryOp Literal Ref UnaryOp)
open Preprocess (Punct)

/-! ## Operators -/

/-- The operator of a mark, and how strongly it binds. -/
def binaryOp? : Punct → Option (BinaryOp × Nat)
  | .logicalOr => some (.logicalOr, 1)
  | .logicalXor => some (.notEqual, 3)
  | .logicalAnd => some (.logicalAnd, 5)
  | .pipe => some (.bitOr, 7)
  | .caret => some (.bitXor, 9)
  | .ampersand => some (.bitAnd, 11)
  | .equalEqual => some (.equal, 13)
  | .notEqual => some (.notEqual, 13)
  | .greaterEqual => some (.greaterEqual, 15)
  | .lessEqual => some (.lessEqual, 15)
  | .leftAngle => some (.less, 15)
  | .rightAngle => some (.greater, 15)
  | .leftShift => some (.shiftLeft, 17)
  | .rightShift => some (.shiftRight, 17)
  | .plus => some (.add, 19)
  | .minus => some (.subtract, 19)
  | .star => some (.multiply, 21)
  | .slash => some (.divide, 21)
  | .percent => some (.modulo, 21)
  | _ => none

/-- The operator of a lexeme, and how strongly it binds. -/
def operatorOf? : Lexeme → Option (BinaryOp × Nat)
  | .punct mark => binaryOp? mark
  | _ => none

/-- The operator of a mark that assigns its result. -/
def assignmentOp? : Punct → Option BinaryOp
  | .orAssign => some .bitOr
  | .andAssign => some .bitAnd
  | .addAssign => some .add
  | .divAssign => some .divide
  | .modAssign => some .modulo
  | .subAssign => some .subtract
  | .mulAssign => some .multiply
  | .leftShiftAssign => some .shiftLeft
  | .rightShiftAssign => some .shiftRight
  | .xorAssign => some .bitXor
  | _ => none

/-! ## Small steps -/

/-- The literal of a lexeme. -/
def literalOf? : Lexeme → Option Literal
  | .integer n => some (integerLiteral n)
  | .float m => some (.float (.signed false m))
  | .bool b => some (.bool b)
  | _ => none

/-- Reads a literal. -/
def readLiteral (l : Located) : Read Expr := do
  match literalOf? l.lexeme with
  | some value => return .literal value (← originAt l.place)
  | none => unexpected l [.punct .leftParen, .integer, .float, .bool]

/-- The value of a constant where an unsigned one is needed. -/
def unsignedValue (constant : Ref) (place : Place) : Read Nat := do
  let d ← definitions
  match d.literal? d.nodes constant with
  | some (.uint n) => return n
  | some (.sint i) => if i < 0 then fail .negativeConstant place else return i.toNat
  | _ => fail .notUnsignedConstant place

mutual

/-- Notes the types that a layout has changed. -/
def internLaid : ShaderType → Read Unit
  | .array base length stride => do
      internLaid base
      intern (.array base length stride)
  | .struct name members span => do
      internMembers members
      intern (.struct name members span)
  | _ => return

/-- Notes the types of a member that a layout has changed. -/
def internMember : StructMember → Read Unit
  | .mk _ type _ => internLaid type

/-- Notes the types of members that a layout has changed. -/
def internMembers : List StructMember → Read Unit
  | [] => return
  | m :: ms => do
      internMember m
      internMembers ms

end

/-- Notes what a layout cannot express. -/
def noteFlaws (flaws : List LayoutFlaw) (place : Place) : Read Unit :=
  flaws.forM fun flaw =>
    note (match flaw with
      | .narrowMatrix => .narrowMatrix
      | .memberType => .memberType) place

/-- An array constructor without a length has one element for each argument. -/
def lengthenedBy (count : Nat) (place : Place) : ShaderType → Read ShaderType
  | .array base none stride =>
      if count = 0 then fail .emptyConstructor place
      else do
        let type := ShaderType.array base (some count) stride
        intern type
        return type
  | type => return type

/-- Declares a struct type. -/
def declareType (name : String) (type : ShaderType) : Read Unit :=
  modify fun d => { d with types := (name, type) :: d.types }

/-- The call of a name: of a constructor if the name is one of a type. -/
def calleeOf (name : String) : Read Callee := do
  match (← get).types.lookup name with
  | some type => return .constructor type
  | none => return .function name

/-- The variable of a name, which has to be declared. -/
def readVariable (name : String) (place : Place) : Read Expr := do
  match ← lookupVariable? name place with
  | some v => return .var v (← originAt place)
  | none => fail (.unknownVariable name) place

/-! ## The grammar -/

mutual

/-- Reads a type.  `void` is no type of values. -/
def typeAt : Nat → Read (Option ShaderType × Place)
  | 0 => fail .endOfFile none
  | n + 1 => do
      let l ← bump
      let type ← match l.lexeme with
        | .keyword .void => return (none, l.place)
        | .typeName type => do
            intern type
            pure type
        | .keyword .struct => structAt n
        | .identifier name =>
            match (← get).types.lookup name with
            | some type => pure type
            | none => fail (.unknownType name) l.place
        | _ => unexpected l [.keyword .void, .keyword .struct, .typeName]
      return (some (← arrayAt n type), l.place)

/-- Reads a type of values. -/
def valueTypeAt : Nat → Read (ShaderType × Place)
  | 0 => fail .endOfFile none
  | n + 1 => do
      let (type, place) ← typeAt n
      match type with
      | some type => return (type, place)
      | none => fail .voidType place

/-- Reads the rest of a struct type. -/
def structAt : Nat → Read ShaderType
  | 0 => fail .endOfFile none
  | n + 1 => do
      let (name, _) ← expectName
      let _ ← expect .leftBrace
      let ms ← membersAt n false {}
      let _ ← expect .rightBrace
      let type := ShaderType.struct (some name) ms.members ms.span
      intern type
      declareType name type
      return type

/-- Reads members of a struct or a block, up to the closing brace. -/
def membersAt : Nat → Bool → LaidMembers → Read LaidMembers
  | 0, _, _ => fail .endOfFile none
  | n + 1, packed, done => do
      let (type, place) ← valueTypeAt n
      let done ← memberNamesAt n packed type place done
      let _ ← expect .semicolon
      if (← expectPeek).isPunct .rightBrace then return done else membersAt n packed done

/-- Reads the names of members of one type. -/
def memberNamesAt : Nat → Bool → ShaderType → Place → LaidMembers → Read LaidMembers
  | 0, _, _, _, _ => fail .endOfFile none
  | n + 1, packed, base, place, done => do
      let (name, namePlace) ← expectName
      let place := place.join namePlace
      let laid := layOut packed (← arrayAt n base)
      internLaid laid.type
      noteFlaws laid.flaws place
      let done := done.push (some name) laid
      if ← bumpIf .comma then memberNamesAt n packed base place done else return done

/-- Reads the lengths behind a type or a name.  Each one makes an array of what
stands in front of it. -/
def arrayAt : Nat → ShaderType → Read ShaderType
  | 0, _ => fail .endOfFile none
  | n + 1, base => do
      if ← bumpIf .leftBracket then
        let length ←
          if ← bumpIf .rightBracket then pure none
          else do
            let (length, place) ← unsignedAt n
            if length = 0 then fail .emptyArray place
            let _ ← expect .rightBracket
            pure (some length)
        let type := arrayOf base length
        intern type
        arrayAt n type
      else return base

/-- Reads a constant that is an unsigned number. -/
def unsignedAt : Nat → Read (Nat × Place)
  | 0 => fail .endOfFile none
  | n + 1 => do
      let (r, place) ← constantAt n
      return (← unsignedValue r place, place)

/-- Reads a constant. -/
def constantAt : Nat → Read (Ref × Place)
  | 0 => fail .endOfFile none
  | n + 1 => inConstant do
      let e ← conditionalAt n (← unaryAt n)
      return (← lowerValue .read e, e.place)

/-- Reads an expression.  Of several with commas between them the last one
counts. -/
def expressionAt : Nat → Read Expr
  | 0 => fail .endOfFile none
  | n + 1 => do
      let e ← assignmentAt n
      if (← expectPeek).isPunct .comma then
        let _ ← bump
        expressionAt n
      else return e

/-- Reads an assignment, or an expression that is none. -/
def assignmentAt : Nat → Read Expr
  | 0 => fail .endOfFile none
  | n + 1 => do
      let target ← unaryAt n
      match ← expectPeek with
      | .punct .equal => do
          let _ ← bump
          let value ← assignmentAt n
          return .assign target value (← originAt (target.place.join value.place))
      | .punct mark =>
          match assignmentOp? mark with
          | some op => do
              let _ ← bump
              let right ← assignmentAt n
              let place := target.place.join right.place
              let value := Expr.binary op target right (← originAt place)
              return .assign target value (← originAt place)
          | none => conditionalAt n target
      | _ => conditionalAt n target

/-- Reads a choice whose first operand has been read. -/
def conditionalAt : Nat → Expr → Read Expr
  | 0, _ => fail .endOfFile none
  | n + 1, first => do
      let condition ← operatorsAt n 0 first
      if ← bumpIf .question then
        let accept ← expressionAt n
        let _ ← expect .colon
        let reject ← assignmentAt n
        return .conditional condition accept reject
          (← originAt (condition.place.join reject.place))
      else return condition

/-- Reads operators that bind at least as strongly as given, behind their left
operand. -/
def operatorsAt : Nat → Nat → Expr → Read Expr
  | 0, _, _ => fail .endOfFile none
  | n + 1, least, left => do
      match operatorOf? (← expectPeek) with
      | some (op, strength) =>
          if strength < least then return left
          else
            let _ ← bump
            let right ← operatorsAt n (strength + 1) (← unaryAt n)
            operatorsAt n least
              (.binary op left right (← originAt (left.place.join right.place)))
      | none => return left

/-- Reads an operand with the operators in front of it. -/
def unaryAt : Nat → Read Expr
  | 0 => fail .endOfFile none
  | n + 1 => do
      match ← expectPeek with
      | .punct .plus => do
          let _ ← bump
          unaryAt n
      | .punct .minus => signedAt n .negate
      | .punct .bang => signedAt n .logicalNot
      | .punct .tilde => signedAt n .bitwiseNot
      | .punct .increment => stepAt n .add
      | .punct .decrement => stepAt n .subtract
      | _ => postfixAt n

/-- Reads a step and the operand behind it. -/
def stepAt : Nat → BinaryOp → Read Expr
  | 0, _ => fail .endOfFile none
  | n + 1, op => do
      let l ← bump
      let e ← unaryAt n
      return .step op false e (← originAt l.place)

/-- Reads an operator and the operand behind it. -/
def signedAt : Nat → UnaryOp → Read Expr
  | 0, _ => fail .endOfFile none
  | n + 1, op => do
      let l ← bump
      let e ← unaryAt n
      return .unary op e (← originAt (l.place.join e.place))

/-- Reads an operand with what stands behind it. -/
def postfixAt : Nat → Read Expr
  | 0 => fail .endOfFile none
  | n + 1 => do
      let base ← if ← peekType then constructorAt n else
        match ← expectPeek with
        | .identifier _ => do
            let (name, place) ← expectName
            if ← bumpIf .leftParen then
              let (arguments, place) ← argumentsAt n place
              return ← partsAt n (.call (← calleeOf name) arguments (← originAt place))
            readVariable name place
        | _ => primaryAt n
      partsAt n base

/-- Reads a constructor and its arguments. -/
def constructorAt : Nat → Read Expr
  | 0 => fail .endOfFile none
  | n + 1 => do
      let (type, place) ← valueTypeAt n
      let _ ← expect .leftParen
      let (arguments, place) ← argumentsAt n place
      let type ← lengthenedBy arguments.length place type
      return .call (.constructor type) arguments (← originAt place)

/-- Reads a literal, or an expression in parentheses. -/
def primaryAt : Nat → Read Expr
  | 0 => fail .endOfFile none
  | n + 1 => do
      let l ← bump
      if l.lexeme.isPunct .leftParen then
        let e ← expressionAt n
        let _ ← expect .rightParen
        return e
      else readLiteral l

/-- Reads the members, elements and steps behind an operand. -/
def partsAt : Nat → Expr → Read Expr
  | 0, _ => fail .endOfFile none
  | n + 1, base => do
      match ← expectPeek with
      | .punct .leftBracket => do
          let l ← bump
          let index ← expressionAt n
          let close ← expect .rightBracket
          partsAt n (.access base index (← originAt (l.place.join close.place)))
      | .punct .dot => do
          let l ← bump
          let (field, fieldPlace) ← expectName
          if ← bumpIf .leftParen then
            let (arguments, place) ← argumentsAt n l.place
            partsAt n (.method base field arguments (← originAt place))
          else partsAt n (.select base field (← originAt (l.place.join fieldPlace)))
      | .punct .increment => do
          let l ← bump
          partsAt n (.step .add true base (← originAt l.place))
      | .punct .decrement => do
          let l ← bump
          partsAt n (.step .subtract true base (← originAt l.place))
      | _ => return base

/-- Reads the arguments of a call behind the opening parenthesis, and gives the
place of the whole call. -/
def argumentsAt : Nat → Place → Read (List Expr × Place)
  | 0, _ => fail .endOfFile none
  | n + 1, place => do
      match ← bumpIf? .rightParen with
      | some l => return ([], place.join l.place)
      | none => moreArgumentsAt n place []

/-- Reads arguments of a call behind others. -/
def moreArgumentsAt : Nat → Place → List Expr → Read (List Expr × Place)
  | 0, _, _ => fail .endOfFile none
  | n + 1, place, done => do
      let e ← assignmentAt n
      let l ← bump
      match l.lexeme with
      | .punct .comma => moreArgumentsAt n place (done ++ [e])
      | .punct .rightParen => return (done ++ [e], place.join l.place)
      | _ => unexpected l [.punct .comma, .punct .rightParen]

end

/-! ## Entry points -/

/-- A bound for the nesting of what is left to read. -/
def depthBound : Read Nat := return 24 * ((← get).rest.length + 1)

/-- Reads a type. -/
def readType : Read (Option ShaderType × Place) := do typeAt (← depthBound)

/-- Reads a type of values. -/
def readValueType : Read (ShaderType × Place) := do valueTypeAt (← depthBound)

/-- Reads the members of a block, up to the closing brace. -/
def readMembers (packed : Bool) : Read LaidMembers := do membersAt (← depthBound) packed {}

/-- Reads the lengths behind a name. -/
def readArray (base : ShaderType) : Read ShaderType := do arrayAt (← depthBound) base

/-- Reads a constant. -/
def readConstant : Read (Ref × Place) := do constantAt (← depthBound)

/-- Reads a constant that is an unsigned number. -/
def readUnsigned : Read (Nat × Place) := do unsignedAt (← depthBound)

/-- Starts to number expressions anew. -/
def startStatement : Read Unit := modifyBody fun b => { b with count := 0 }

/-- Reads an expression. -/
def readExpression : Read Expr := do
  startStatement
  expressionAt (← depthBound)

/-- Reads an expression without commas outside parentheses. -/
def readAssignment : Read Expr := do
  startStatement
  assignmentAt (← depthBound)

end LegacyShader.Glsl
