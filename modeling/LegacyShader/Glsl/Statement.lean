import LegacyShader.Glsl.FunctionDecl

/-!
# Statements

Each statement is written to the current block as it is read.  What stands behind a jump in a
block can never run and is cut off at the end of the block.  So readers of statements take and
give the number of statements up to the first jump of the block, if there has been one.

A loop has no condition of its own: it starts with a branch that leaves it.
-/

namespace LegacyShader.Glsl

open Code (CaseValue Ref Statement SwitchCase)

/-! ## Blocks and jumps -/

/-- Where a block ends: behind its first jump, if there has been one. -/
abbrev Ending := Option Nat

/-- The ending of a block whose last statement jumps. -/
def Ending.orHere (e : Ending) : Read Ending := do
  match e with
  | some n => return some n
  | none => return some (← body).bench.block.size

/-- Cuts off what stands behind the ending of the block. -/
def cutBlock (e : Ending) : Read Unit :=
  e.forM fun n => modifyBench fun w => { w with block := w.block.extract 0 n }

/-- Reads the rest of a jump, which is not delayed until pending nodes are computed. -/
def readJump (jump : Statement) (e : Ending) : Read Ending := do
  let _ ← bump
  push jump
  let e ← e.orHere
  let _ ← expect .semicolon
  return e

/-- Reads what stands behind `return`. -/
def readReturn (e : Ending) : Read Ending := do
  let value ← if (← expectPeek).isPunct .semicolon then do
      let _ ← bump
      pure none
    else do
      let value ← readExpression
      let _ ← expect .semicolon
      pure (some (← lowerValue .read value))
  pushBehind (.finish value)
  e.orHere

/-- Reads an expression for its effects. -/
def readEffects : Read Unit := do
  let _ ← lower .read (← readExpression)

/-- Leaves the loop unless a condition holds. -/
def leaveUnless (condition : Ref) (place : Place) : Read Unit := do
  let done ← add (.unary .logicalNot condition) place
  pushBehind (.branch done [.leave] [])

/-- Reads as a part of a loop. -/
def inLoop {α : Type} (read : Read α) : Read α := do
  let before := (← body).looping
  modifyBody fun b => { b with looping := true }
  let a ← read
  modifyBody fun b => { b with looping := before }
  return a

/-! ## Heads of statements -/

/-- Whether a declaration is next: a qualifier, or a type that no constructor call
starts with. -/
def peekDeclaration : Read Bool := do
  if ← peekQualifier then return true
  if ← peekType then
    let l ← bump
    let next ← expectPeek
    putBack l
    return !next.isPunct .leftParen
  return false

/-- Reads the first part of a `for`. -/
def readForStart : Read Unit := do
  unless ← bumpIf .semicolon do
    if (← peekType) || (← peekQualifier) then
      let _ ← readLocalDeclaration
    else
      readEffects
      let _ ← expect .semicolon

/-- Reads the condition of a `for`, which may declare a variable. -/
def readForCondition : Read Unit := do
  unless ← bumpIf .semicolon do
    let (condition, place) ←
      if (← peekType) || (← peekQualifier) then do
        let q ← Qualifiers.read
        let (type, place) ← readValueType
        let (name, _) ← expectName
        let _ ← expect .equal
        let (value, stop) ← readInitializer type
        let pointer ← declareLocal q name type none (place.join stop)
        pushBehind (.store pointer value)
        pure (value, stop)
      else do
        let e ← readExpression
        pure (← lowerValue .read e, e.place)
    leaveUnless condition place
    let _ ← expect .semicolon

/-- Reads the last part of a `for`. -/
def readForStep : Read Unit := do
  unless (← expectPeek).isPunct .rightParen do readEffects

/-- Reads a condition in parentheses. -/
def readCondition : Read Argument := do
  let _ ← expect .leftParen
  let e ← readExpression
  let r ← lowerValue .read e
  let _ ← expect .rightParen
  return (r, e.place)

/-- Reads the condition of a loop in parentheses, which counts once it is complete. -/
def readLoopCondition : Read Unit := do
  let _ ← expect .leftParen
  let e ← readExpression
  let _ ← expect .rightParen
  let r ← lowerValue .read e
  leaveUnless r e.place

/-- Reads the selector of a switch, and tells whether it is unsigned. -/
def readSelector : Read (Ref × Bool) := do
  let _ ← expect .leftParen
  let e ← readExpression
  let r ← lowerValue .read e
  let type ← typeOf r e.place
  let _ ← expect .rightParen
  flush
  let _ ← expect .leftBrace
  return (r, type.scalar?.any fun s => s.kind == .uint)

/-! ## Labels -/

/-- The label of a case. -/
inductive CaseLabel where
  /-- Behind the label come its statements. -/
  | label (value : CaseValue)
  /-- There is no further case. -/
  | finished
  deriving Repr, Inhabited

/-- The value of a label.  For an unsigned selector the bits of a number count. -/
def labelValue (unsigned : Bool) (constant : Ref) (place : Place) : Read CaseValue := do
  match (← definitions).nodes[constant]? with
  | some (.literal (.sint i)) =>
      return if unsigned then .uint (i % Code.wordCount).toNat else .sint i
  | some (.literal (.uint n)) => return .uint n
  | _ => do
      note .caseLabel place
      return .sint 0

/-- Reads the label of a case, or the end of the switch. -/
def readCaseLabel (unsigned : Bool) : Read CaseLabel := do
  let l ← bump
  match l.lexeme with
  | .keyword .caseLabel => do
      let (r, place) ← readConstant
      let value ← labelValue unsigned r place
      let _ ← expect .colon
      return .label value
  | .keyword .defaultLabel => do
      let _ ← expect .colon
      return .label .otherwise
  | .punct .rightBrace => return .finished
  | _ => unexpected l [.keyword .caseLabel, .keyword .defaultLabel, .punct .rightBrace]

/-- Whether a lexeme ends the statements of a case. -/
def endsCase : Lexeme → Bool
  | .keyword .caseLabel | .keyword .defaultLabel | .punct .rightBrace => true
  | _ => false

/-- Ends the statements of a case.  One that leaves the switch does not go on to the next
case, and gives `false`. -/
def closeCase (e : Ending) : Read Bool := do
  match e with
  | none => return true
  | some n => do
      let leaves := match (← body).bench.block[n - 1]? with
        | some .leave => true
        | _ => false
      cutBlock (some (if leaves then n - 1 else n))
      return !leaves

/-- The cases of a switch with its last one closed, which has to have statements, and with a
default. -/
def closeCases (cases : List SwitchCase) (place : Place) : Read (List SwitchCase) := do
  let closed ← match cases.getLast? with
    | none => pure []
    | some last => do
        if last.body.isEmpty && last.fallsThrough then note .lastCaseEmpty place
        pure (cases.dropLast ++ [last.closed])
  let complete := cases.any fun c => c.value == .otherwise
  return if complete then closed else closed ++ [.mk .otherwise [] false]

/-! ## The grammar -/

mutual

/-- Reads a statement. -/
def statementAt : Nat → Ending → Read Ending
  | 0, _ => fail .endOfFile none
  | n + 1, ending => do
      if ← peekDeclaration then
        let _ ← readLocalDeclaration
        return ending
      match ← expectPeek with
      | .keyword .continueJump => readJump .next ending
      | .keyword .breakJump => readJump .leave ending
      | .keyword .discardJump => readJump .kill ending
      | .keyword .returnJump => do
          let _ ← bump
          readReturn ending
      | .keyword .ifBranch => do
          let _ ← bump
          let (condition, _) ← readCondition
          let (accept, _) ← inBlock #[] (statementAt n none)
          let (reject, _) ← inBlock #[] do
            if ← bumpIfKeyword .elseBranch then
              let _ ← statementAt n none
          push (.branch condition accept.toList reject.toList)
          return ending
      | .keyword .switchBranch => do
          let l ← bump
          let (selector, unsigned) ← readSelector
          let cases ← closeCases (← casesAt n unsigned []) l.place
          push (.switch selector cases)
          return ending
      | .keyword .whileLoop => do
          let _ ← bump
          let (block, _) ← inBlock #[] do
            readLoopCondition
            inLoop (statementAt n none)
          push (.loop block.toList [])
          return ending
      | .keyword .doLoop => do
          let _ ← bump
          let (block, _) ← inBlock #[] do
            let inner ← inLoop (statementAt n none)
            let _ ← expectKeyword .whileLoop
            readLoopCondition
            cutBlock inner
          push (.loop block.toList [])
          return ending
      | .keyword .forLoop => do
          let _ ← bump
          inScope do
            let _ ← expect .leftParen
            readForStart
            let (head, _) ← inBlock #[] readForCondition
            let (continuing, _) ← inBlock #[] readForStep
            let _ ← expect .rightParen
            let (block, _) ← inBlock head (inLoop (statementAt n none))
            push (.loop block.toList continuing.toList)
          return ending
      | .punct .leftBrace => do
          let _ ← bump
          let (block, inner) ← inBlock #[] (blockAt n none)
          push (.block block.toList)
          if inner.isSome then ending.orHere else return ending
      | .punct .semicolon => do
          let _ ← bump
          return ending
      | _ => do
          readEffects
          let _ ← expect .semicolon
          return ending

/-- Reads a block behind its opening brace. -/
def blockAt : Nat → Ending → Read Ending
  | 0, _ => fail .endOfFile none
  | n + 1, ending => inScope do
      let ending ← blockItemsAt n ending
      cutBlock ending
      return ending

/-- Reads the statements of a block, up to the closing brace. -/
def blockItemsAt : Nat → Ending → Read Ending
  | 0, _ => fail .endOfFile none
  | n + 1, ending => do
      if ← bumpIf .rightBrace then return ending
      else blockItemsAt n (← statementAt n ending)

/-- Reads the cases of a switch, up to the closing brace. -/
def casesAt : Nat → Bool → List SwitchCase → Read (List SwitchCase)
  | 0, _, _ => fail .endOfFile none
  | n + 1, unsigned, done => do
      match ← readCaseLabel unsigned with
      | .finished => return done
      | .label value => do
          let (block, fallsThrough) ← inBlock #[] (do closeCase (← caseItemsAt n none))
          casesAt n unsigned (done ++ [.mk value block.toList fallsThrough])

/-- Reads the statements of a case. -/
def caseItemsAt : Nat → Ending → Read Ending
  | 0, _ => fail .endOfFile none
  | n + 1, ending => do
      if endsCase (← expectPeek) then return ending
      else caseItemsAt n (← statementAt n ending)

end

/-- Reads the body of a function behind its opening brace. -/
def readFunctionBody : Read Unit := do
  let _ ← blockAt (← depthBound) none

end LegacyShader.Glsl
