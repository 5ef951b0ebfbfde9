import LegacyShader.Decimal.Shortest
import LegacyShader.Preprocess.Punct
import LegacyShader.Text.Quoted

/-!
# Tokens

What is left of a shader text once conditionals are resolved and macros are
expanded: words, numbers and punctuation, each with the bytes it was read from.
The directives that only speak to a compiler (`#version`, `#extension` and
`#pragma`) also leave a token behind, which holds nothing.
-/

namespace LegacyShader.Preprocess

/-- The bytes a token was read from. -/
structure Span where
  /-- The offset of the first byte. -/
  start : Nat
  /-- The offset after the last byte. -/
  stop : Nat
  deriving DecidableEq, Repr, Inhabited

/-- A whole number as it was written. -/
structure IntegerLiteral where
  /-- The number. -/
  value : Nat
  /-- Whether it has no `u` behind it. -/
  signed : Bool
  /-- The number of bits it stands for. -/
  width : Nat := 32
  deriving DecidableEq, Repr, Inhabited

/-- What a token is. -/
inductive TokenValue where
  /-- A word. -/
  | ident (name : String)
  /-- A whole number. -/
  | integer (literal : IntegerLiteral)
  /-- A number with a fraction or an exponent. -/
  | float (value : Decimal.Magnitude)
  /-- A punctuation mark. -/
  | punct (mark : Punct)
  /-- A directive for the compiler. -/
  | directive
  deriving DecidableEq, Repr, Inhabited

/-- A token at its place. -/
structure Token where
  /-- What the token is. -/
  value : TokenValue
  /-- The bytes it was read from. -/
  span : Span
  /-- The line of its last character. -/
  line : Nat
  deriving DecidableEq, Repr, Inhabited

namespace TokenValue

/-- The text of a token in the shading language. -/
def text : TokenValue → String
  | .ident name => name
  | .integer n => if n.signed then toString n.value else toString n.value ++ "u"
  | .float x => x.literal
  | .punct mark => mark.text
  | .directive => ""

/-- A token as messages show it. -/
def shown : TokenValue → String
  | .ident name => "Ident(" ++ Text.quoted name ++ ")"
  | .integer n =>
      "Integer(Integer \x7b value: " ++ toString n.value ++ ", signed: " ++
        (if n.signed then "true" else "false") ++ ", width: " ++ toString n.width ++ " \x7d)"
  | .float x => "Float(Float \x7b value: " ++ x.literal ++ ", width: 32 \x7d)"
  | .punct mark => "Punct(" ++ mark.name ++ ")"
  | .directive => "Directive"

end TokenValue

end LegacyShader.Preprocess
