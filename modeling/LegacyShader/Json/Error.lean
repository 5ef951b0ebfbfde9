import LegacyShader.Json.Value
import LegacyShader.Text.Quoted

/-!
# Errors of JSON readers

What can be wrong with a JSON text, and what can be wrong with a value that is
read as something else.  An error of a text also has a place.
-/

namespace LegacyShader.Json

/-- What stands where something else is expected. -/
inductive Unexpected where
  /-- The value `null`. -/
  | null
  /-- A truth value. -/
  | bool (b : Bool)
  /-- A whole number. -/
  | integer (n : Int)
  /-- A number with a fraction. -/
  | float (negative : Bool) (magnitude : Decimal.Magnitude)
  /-- A text. -/
  | string (s : String)
  /-- A list. -/
  | array
  /-- An object. -/
  | object
  deriving DecidableEq, Repr, Inhabited

/-- The words for something unexpected. -/
def Unexpected.words : Unexpected → String
  | .null => "null"
  | .bool b => "boolean `" ++ (if b then "true" else "false") ++ "`"
  | .integer n => "integer `" ++ toString n ++ "`"
  | .float negative magnitude => "floating point `" ++ floatText negative magnitude ++ "`"
  | .string s => "string " ++ Text.quoted s
  | .array => "sequence"
  | .object => "map"

/-- What a value is, where something else is expected. -/
def Value.unexpected : Value → Unexpected
  | .null => .null
  | .bool b => .bool b
  | .integer n => .integer n
  | .float negative magnitude => .float negative magnitude
  | .string s => .string s
  | .array _ => .array
  | .object _ => .object

/-- What is wrong. -/
inductive Cause where
  | eofList
  | eofObject
  | eofString
  | eofValue
  | expectedColon
  | expectedListCommaOrEnd
  | expectedObjectCommaOrEnd
  | expectedIdent
  | expectedValue
  | invalidEscape
  | invalidNumber
  | numberOutOfRange
  | controlCharacter
  | keyNotString
  | loneSurrogate
  | trailingComma
  | trailingCharacters
  | hexEscapeEnd
  | recursionLimit
  /-- A value of another type. -/
  | invalidType (found : Unexpected) (expected : String)
  /-- A value out of range. -/
  | invalidValue (found : Unexpected) (expected : String)
  /-- A list of another length. -/
  | invalidLength (length : Nat) (expected : String)
  /-- A word that names nothing. -/
  | unknownVariant (name : String) (expected : List String)
  /-- A member that is missing. -/
  | missingField (name : String)
  /-- A member that occurs twice. -/
  | duplicateField (name : String)
  deriving DecidableEq, Repr, Inhabited

/-- The words for a list of names that are possible. -/
def alternatives (names : List String) : String :=
  let marked := names.map fun n => "`" ++ n ++ "`"
  match marked with
  | [] => "there are no variants"
  | [a] => "expected " ++ a
  | [a, b] => "expected " ++ a ++ " or " ++ b
  | _ => "expected one of " ++ ", ".intercalate marked

/-- The text of a cause. -/
def Cause.message : Cause → String
  | .eofList => "EOF while parsing a list"
  | .eofObject => "EOF while parsing an object"
  | .eofString => "EOF while parsing a string"
  | .eofValue => "EOF while parsing a value"
  | .expectedColon => "expected `:`"
  | .expectedListCommaOrEnd => "expected `,` or `]`"
  | .expectedObjectCommaOrEnd => "expected `,` or `\x7d`"
  | .expectedIdent => "expected ident"
  | .expectedValue => "expected value"
  | .invalidEscape => "invalid escape"
  | .invalidNumber => "invalid number"
  | .numberOutOfRange => "number out of range"
  | .controlCharacter => "control character (\\u0000-\\u001F) found while parsing a string"
  | .keyNotString => "key must be a string"
  | .loneSurrogate => "lone leading surrogate in hex escape"
  | .trailingComma => "trailing comma"
  | .trailingCharacters => "trailing characters"
  | .hexEscapeEnd => "unexpected end of hex escape"
  | .recursionLimit => "recursion limit exceeded"
  | .invalidType found expected => "invalid type: " ++ found.words ++ ", expected " ++ expected
  | .invalidValue found expected => "invalid value: " ++ found.words ++ ", expected " ++ expected
  | .invalidLength length expected =>
      "invalid length " ++ toString length ++ ", expected " ++ expected
  | .unknownVariant name expected => "unknown variant `" ++ name ++ "`, " ++ alternatives expected
  | .missingField name => "missing field `" ++ name ++ "`"
  | .duplicateField name => "duplicate field `" ++ name ++ "`"

/-- A place in a text. -/
structure Position where
  /-- The line, counted from one. -/
  line : Nat
  /-- The number of bytes of the line in front of the place. -/
  column : Nat
  deriving DecidableEq, Repr, Inhabited

/-- An error of a text. -/
structure ReadError where
  /-- What is wrong. -/
  cause : Cause
  /-- Where. -/
  position : Position
  deriving DecidableEq, Repr, Inhabited

/-- The text of an error. -/
def ReadError.message (e : ReadError) : String :=
  e.cause.message ++ " at line " ++ toString e.position.line ++ " column " ++
    toString e.position.column

end LegacyShader.Json
