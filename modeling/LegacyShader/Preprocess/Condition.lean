import LegacyShader.Preprocess.Expander

/-!
# Conditions

The expression behind `#if` and `#elif`, and those behind `#line`, are made of
whole numbers of 64 bits, signs, and the usual operators.  Names are expanded
while the expression is read.  Both sides of every operator are evaluated.

Operators bind in ten levels.  Each level looks at the next token anew.  Such a
look yields nothing when an invocation has just ended, and a level that sees
nothing gives up.  So directly behind a macro the tightest levels are passed over:
with `#define A 1`, `A + 1` is read as a sum but `A * 2` is not a product.
-/

namespace LegacyShader.Preprocess.Condition

/-! ## Operators -/

/-- Whether a number fits in 64 bits. -/
def fits (x : Int) : Bool :=
  let limit : Int := Nat.pow 2 63
  decide (-limit ≤ x) && decide (x < limit)

/-- A result that has to fit. -/
def checked (x : Int) : Except Cause Int :=
  if fits x then .ok x else .error .integerOverflow

/-- A number taken modulo the 64 bits. -/
def wrapped (x : Int) : Int := Int.bmod x (Nat.pow 2 64)

/-- The number of a truth value. -/
def truth (b : Bool) : Int := if b then 1 else 0

/-- An operation on the bits of two numbers. -/
def bitwise (f : BitVec 64 → BitVec 64 → BitVec 64) (a b : Int) : Int :=
  (f (BitVec.ofInt 64 a) (BitVec.ofInt 64 b)).toInt

/-- Whether a division has a result: the divisor is not zero, and the quotient
fits. -/
def divides (a b : Int) : Bool := b != 0 && fits (Int.tdiv a b)

/-- The result of a binary operator. -/
def binary? (mark : Punct) (a b : Int) : Except Cause Int :=
  match mark with
  | .logicalOr => .ok (truth (a != 0 || b != 0))
  | .logicalAnd => .ok (truth (a != 0 && b != 0))
  | .pipe => .ok (bitwise (· ||| ·) a b)
  | .caret => .ok (bitwise (· ^^^ ·) a b)
  | .ampersand => .ok (bitwise (· &&& ·) a b)
  | .equalEqual => .ok (truth (a == b))
  | .notEqual => .ok (truth (a != b))
  | .leftAngle => .ok (truth (decide (a < b)))
  | .rightAngle => .ok (truth (decide (b < a)))
  | .lessEqual => .ok (truth (decide (a ≤ b)))
  | .greaterEqual => .ok (truth (decide (b ≤ a)))
  | .leftShift =>
      if b < 0 ∨ 64 ≤ b then .error .integerOverflow else .ok (wrapped (a * Nat.pow 2 b.toNat))
  | .rightShift =>
      if b < 0 ∨ 64 ≤ b then .error .integerOverflow else .ok (Int.fdiv a (Nat.pow 2 b.toNat))
  | .plus => checked (a + b)
  | .minus => checked (a - b)
  | .star => checked (a * b)
  | .slash => if divides a b then .ok (Int.tdiv a b) else .error .divisionByZero
  | .percent => if divides a b then .ok (Int.tmod a b) else .error .divisionByZero
  | _ => .error .unexpectedEnd

/-- The operators that bind equally. -/
abbrev Level := List Punct

/-- The levels of binary operators, the loosest first. -/
def levels : List Level :=
  [[.logicalOr], [.logicalAnd], [.pipe], [.caret], [.ampersand], [.equalEqual, .notEqual],
    [.leftAngle, .rightAngle, .lessEqual, .greaterEqual], [.leftShift, .rightShift],
    [.plus, .minus], [.star, .slash, .percent]]

/-! ## Reading -/

/-- A condition in the middle of its evaluation. -/
structure State where
  /-- Where tokens come from. -/
  expander : Expander Empty
  /-- A token that was looked at and put back. -/
  carry : Option Token

/-- What does not change while a condition is read. -/
structure Context where
  /-- The place of the directive. -/
  span : Span
  /-- The macros that are defined. -/
  macros : MacroTable
  /-- Whether a name without a meaning is zero. -/
  undefinedIsZero : Bool

/-- An evaluation step. -/
abbrev Eval := ReaderT Context (StateT State (Except Fault))

/-- No live reader is read from here. -/
def noReading : Reading Empty := ⟨Empty.elim, Empty.elim, Empty.elim⟩

/-- Takes the next token, without expansion. -/
def rawNext : Eval (Option Token) := do
  let state ← get
  match state.carry with
  | some t => do
      set { state with carry := none }
      return some t
  | none =>
      let (step, expander) := state.expander.step noReading
      set { state with expander }
      match step with
      | .token t => return some t
      | .failed fault => throw fault
      | .again | .finished => return none

/-- Takes the next token with names expanded.  A name without a meaning is a zero,
or a fault. -/
def nextWithin : Nat → Eval (Option Token)
  | 0 => return none
  | fuel + 1 => do
      match ← rawNext with
      | none => return none
      | some t =>
          match t.value with
          | .ident "defined" => return some t
          | .ident name =>
              let state ← get
              let (started, expander) := state.expander.start noReading Expander.stepBound name t
              set { state with expander }
              match started with
              | .error fault => throw fault
              | .ok true => nextWithin fuel
              | .ok false =>
                  if (← read).undefinedIsZero then
                    return some { t with value := .integer { value := 0, signed := true, width := 64 } }
                  else throw ⟨.unexpectedToken t.value, t.span⟩
          | _ => return some t

/-- Takes the next token with names expanded. -/
def next : Eval (Option Token) := nextWithin Expander.stepBound

/-- Looks at the next token. -/
def peek : Eval (Option Token) := do
  let found ← next
  modify fun state => { state with carry := found }
  return found

/-- A token that has to be there. -/
def require (found : Option Token) : Eval Token := do
  match found with
  | some t => return t
  | none => throw ⟨.unexpectedEnd, (← read).span⟩

/-- The fault of a token that does not belong here. -/
def unexpected (t : Token) : Fault := ⟨.unexpectedToken t.value, t.span⟩

/-- Takes a closing parenthesis. -/
def closeParen : Eval Unit := do
  let t ← require (← next)
  unless t.value = .punct .rightParen do throw (unexpected t)

/-- Whether a name is a macro. -/
def isDefined (name : String) : Eval Int := do
  return truth ((← read).macros.get? name).isSome

/-- What stands behind `defined`. -/
def definedOperand : Eval Int := do
  let t ← require (← rawNext)
  match t.value with
  | .ident name => isDefined name
  | .punct .leftParen =>
      let t ← require (← rawNext)
      match t.value with
      | .ident name =>
          let answer ← isDefined name
          closeParen
          return answer
      | _ => throw (unexpected t)
  | _ => throw (unexpected t)

/-- Reports a cause at the directive. -/
def located (result : Except Cause Int) : Eval Int := do
  match result with
  | .ok x => return x
  | .error cause => throw ⟨cause, (← read).span⟩

mutual

/-- Evaluates an expression of the given levels. -/
def level : Nat → List Level → Eval Int
  | 0, _ => do throw ⟨.unexpectedEnd, (← read).span⟩
  | fuel + 1, [] => unary fuel
  | fuel + 1, marks :: tighter => do
      let left ← level fuel tighter
      operators fuel marks tighter left

/-- Goes on with an expression while an operator of its level follows. -/
def operators : Nat → Level → List Level → Int → Eval Int
  | 0, _, _, _ => do throw ⟨.unexpectedEnd, (← read).span⟩
  | fuel + 1, marks, tighter, left => do
      match ← peek with
      | some ⟨.punct mark, _, _⟩ =>
          if marks.contains mark then
            let _ ← next
            let right ← level fuel tighter
            let result ← located (binary? mark left right)
            operators fuel marks tighter result
          else return left
      | _ => return left

/-- Evaluates an operand with the signs in front of it. -/
def unary : Nat → Eval Int
  | 0 => do throw ⟨.unexpectedEnd, (← read).span⟩
  | fuel + 1 => do
      let t ← require (← peek)
      match t.value with
      | .punct .plus =>
          let _ ← next
          unary fuel
      | .punct .minus =>
          let _ ← next
          located (checked (-(← unary fuel)))
      | .punct .bang =>
          let _ ← next
          return truth ((← unary fuel) == 0)
      | .punct .tilde =>
          let _ ← next
          return -(← unary fuel) - 1
      | _ => atom fuel

/-- Evaluates a number, `defined`, or an expression in parentheses. -/
def atom : Nat → Eval Int
  | 0 => do throw ⟨.unexpectedEnd, (← read).span⟩
  | fuel + 1 => do
      let t ← require (← next)
      match t.value with
      | .integer n => return wrapped n.value
      | .punct .leftParen =>
          let x ← level fuel levels
          closeParen
          return x
      | .ident "defined" => definedOperand
      | _ => throw (unexpected t)

end

/-- Evaluates one expression. -/
def expression : Eval Int := level Expander.stepBound levels

/-- Nothing may be left of the line. -/
def endOfLine : Eval Unit := do
  match ← peek with
  | none => return ()
  | some t => throw (unexpected t)

/-- Runs an evaluation on the tokens of a line. -/
def run {α : Type} (action : Eval α) (context : Context) (tokens : List Token) : Except Fault α :=
  (action context).run' ⟨.ofSource (.fixed tokens context.macros), none⟩

/-- Whether the condition of an `#if` holds. -/
def holds (macros : MacroTable) (span : Span) (tokens : List Token) : Except Fault Bool :=
  run (do
    let x ← expression
    endOfLine
    return x != 0) ⟨span, macros, true⟩ tokens

/-- The line number of a `#line`.  A second number may follow and is not used. -/
def lineNumber (macros : MacroTable) (span : Span) (tokens : List Token) : Except Fault Nat :=
  run (do
    let line ← expression
    if line < 0 ∨ Expander.lineLimit ≤ line then throw ⟨.lineOverflow, span⟩
    if let some _ ← peek then
      let _ ← expression
    endOfLine
    return line.toNat) ⟨span, macros, false⟩ tokens

end LegacyShader.Preprocess.Condition
