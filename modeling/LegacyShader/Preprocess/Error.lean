import LegacyShader.Preprocess.Token

/-!
# Faults of preprocessing

Each way in which a text cannot be preprocessed, with the place it is reported
at.  A fault of a single lexeme is reported at the start of the text.
-/

namespace LegacyShader.Preprocess

/-- Why a text cannot be preprocessed. -/
inductive Cause where
  /-- A character that starts no token. -/
  | unexpectedCharacter
  /-- A whole number that does not fit, or arithmetic that leaves its range. -/
  | integerOverflow
  /-- A float literal without the digits of its exponent. -/
  | floatMalformed
  /-- A literal of 64 bits. -/
  | literal64
  /-- A literal of 16 bits. -/
  | literal16
  /-- A token where another one is required. -/
  | unexpectedToken (value : TokenValue)
  /-- The end of a line where a token is required. -/
  | unexpectedNewLine
  /-- A hash that starts no directive. -/
  | unexpectedHash
  /-- The end of the text, or of a condition, where a token is required. -/
  | unexpectedEnd
  /-- An `#error` directive. -/
  | errorDirective
  /-- A directive of an unknown name. -/
  | unknownDirective
  /-- A macro defined again with another meaning. -/
  | defineRedefined
  /-- A parameter named twice. -/
  | duplicateParameter
  /-- `#elif` without an open block. -/
  | elifOutsideBlock
  /-- `#else` without an open block. -/
  | elseOutsideBlock
  /-- `#endif` without an open block. -/
  | endifOutsideBlock
  /-- `#elif` behind `#else`. -/
  | elifAfterElse
  /-- A second `#else` in a block. -/
  | secondElse
  /-- A block that is never closed. -/
  | unfinishedBlock
  /-- A line number outside its range. -/
  | lineOverflow
  /-- A division by zero in a condition. -/
  | divisionByZero
  /-- More arguments than parameters. -/
  | tooManyArguments
  /-- Fewer arguments than parameters. -/
  | tooFewArguments
  deriving DecidableEq, Repr, Inhabited

/-- The text of a cause in messages. -/
def Cause.message : Cause → String
  | .unexpectedCharacter => "UnexpectedCharacter"
  | .integerOverflow => "IntegerOverflow"
  | .floatMalformed => "FloatParsingError"
  | .literal64 => "NotSupported64BitLiteral"
  | .literal16 => "NotSupported16BitLiteral"
  | .unexpectedToken value => "UnexpectedToken(" ++ value.shown ++ ")"
  | .unexpectedNewLine => "UnexpectedNewLine"
  | .unexpectedHash => "UnexpectedHash"
  | .unexpectedEnd => "UnexpectedEndOfInput"
  | .errorDirective => "ErrorDirective"
  | .unknownDirective => "UnknownDirective"
  | .defineRedefined => "DefineRedefined"
  | .duplicateParameter => "DuplicateParameter"
  | .elifOutsideBlock => "ElifOutsideOfBlock"
  | .elseOutsideBlock => "ElseOutsideOfBlock"
  | .endifOutsideBlock => "EndifOutsideOfBlock"
  | .elifAfterElse => "ElifAfterElse"
  | .secondElse => "MoreThanOneElse"
  | .unfinishedBlock => "UnfinishedBlock"
  | .lineOverflow => "LineOverflow"
  | .divisionByZero => "DivisionByZero"
  | .tooManyArguments => "TooManyDefineArguments"
  | .tooFewArguments => "TooFewDefineArguments"

/-- A fault and the bytes it is reported at. -/
structure Fault where
  /-- What is wrong. -/
  cause : Cause
  /-- Where it is reported. -/
  span : Span
  deriving DecidableEq, Repr, Inhabited

end LegacyShader.Preprocess
