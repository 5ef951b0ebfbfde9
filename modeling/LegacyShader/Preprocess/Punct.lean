/-!
# Punctuation

The marks of the shading language that are made of one to three special
characters.  Each has its spelling, and a name by which messages speak of it.
-/

namespace LegacyShader.Preprocess

/-- A punctuation mark. -/
inductive Punct where
  | addAssign | subAssign | mulAssign | divAssign | modAssign | leftShiftAssign
  | rightShiftAssign | andAssign | xorAssign | orAssign | increment | decrement
  | logicalAnd | logicalOr | logicalXor | lessEqual | greaterEqual | equalEqual | notEqual
  | leftShift | rightShift | leftBrace | rightBrace | leftParen | rightParen | leftBracket
  | rightBracket | leftAngle | rightAngle | semicolon | comma | colon | dot | equal | bang
  | minus | tilde | plus | star | slash | percent | pipe | caret | ampersand | question
  deriving DecidableEq, Repr, Inhabited

namespace Punct

/-- Every punctuation mark, a longer spelling before the shorter ones it starts
with. -/
def all : List Punct := [
  .leftShiftAssign, .rightShiftAssign, .addAssign, .subAssign, .mulAssign, .divAssign,
  .modAssign, .andAssign, .xorAssign, .orAssign, .increment, .decrement, .logicalAnd,
  .logicalOr, .logicalXor, .lessEqual, .greaterEqual, .equalEqual, .notEqual, .leftShift,
  .rightShift, .leftBrace, .rightBrace, .leftParen, .rightParen, .leftBracket,
  .rightBracket, .leftAngle, .rightAngle, .semicolon, .comma, .colon, .dot, .equal, .bang,
  .minus, .tilde, .plus, .star, .slash, .percent, .pipe, .caret, .ampersand, .question]

/-- The spelling of a mark. -/
def text : Punct → String
  | .addAssign => "+="
  | .subAssign => "-="
  | .mulAssign => "*="
  | .divAssign => "/="
  | .modAssign => "%="
  | .leftShiftAssign => "<<="
  | .rightShiftAssign => ">>="
  | .andAssign => "&="
  | .xorAssign => "^="
  | .orAssign => "|="
  | .increment => "++"
  | .decrement => "--"
  | .logicalAnd => "&&"
  | .logicalOr => "||"
  | .logicalXor => "^^"
  | .lessEqual => "<="
  | .greaterEqual => ">="
  | .equalEqual => "=="
  | .notEqual => "!="
  | .leftShift => "<<"
  | .rightShift => ">>"
  | .leftBrace => "\x7b"
  | .rightBrace => "\x7d"
  | .leftParen => "("
  | .rightParen => ")"
  | .leftBracket => "["
  | .rightBracket => "]"
  | .leftAngle => "<"
  | .rightAngle => ">"
  | .semicolon => ";"
  | .comma => ","
  | .colon => ":"
  | .dot => "."
  | .equal => "="
  | .bang => "!"
  | .minus => "-"
  | .tilde => "~"
  | .plus => "+"
  | .star => "*"
  | .slash => "/"
  | .percent => "%"
  | .pipe => "|"
  | .caret => "^"
  | .ampersand => "&"
  | .question => "?"

/-- The name of a mark in messages. -/
def name : Punct → String
  | .addAssign => "AddAssign"
  | .subAssign => "SubAssign"
  | .mulAssign => "MulAssign"
  | .divAssign => "DivAssign"
  | .modAssign => "ModAssign"
  | .leftShiftAssign => "LeftShiftAssign"
  | .rightShiftAssign => "RightShiftAssign"
  | .andAssign => "AndAssign"
  | .xorAssign => "XorAssign"
  | .orAssign => "OrAssign"
  | .increment => "Increment"
  | .decrement => "Decrement"
  | .logicalAnd => "LogicalAnd"
  | .logicalOr => "LogicalOr"
  | .logicalXor => "LogicalXor"
  | .lessEqual => "LessEqual"
  | .greaterEqual => "GreaterEqual"
  | .equalEqual => "EqualEqual"
  | .notEqual => "NotEqual"
  | .leftShift => "LeftShift"
  | .rightShift => "RightShift"
  | .leftBrace => "LeftBrace"
  | .rightBrace => "RightBrace"
  | .leftParen => "LeftParen"
  | .rightParen => "RightParen"
  | .leftBracket => "LeftBracket"
  | .rightBracket => "RightBracket"
  | .leftAngle => "LeftAngle"
  | .rightAngle => "RightAngle"
  | .semicolon => "Semicolon"
  | .comma => "Comma"
  | .colon => "Colon"
  | .dot => "Dot"
  | .equal => "Equal"
  | .bang => "Bang"
  | .minus => "Minus"
  | .tilde => "Tilde"
  | .plus => "Plus"
  | .star => "Star"
  | .slash => "Slash"
  | .percent => "Percent"
  | .pipe => "Pipe"
  | .caret => "Caret"
  | .ampersand => "Ampersand"
  | .question => "Question"

/-- The longest mark that a text starts with. -/
def longest? (cs : List Char) : Option Punct :=
  all.find? fun p => p.text.toList.isPrefixOf cs

end Punct

end LegacyShader.Preprocess
