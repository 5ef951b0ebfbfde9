import LegacyShader.Glsl.Keyword
import LegacyShader.Glsl.TypeWord
import LegacyShader.Preprocess.Token
import LegacyShader.ShaderType.Shown

/-!
# Lexemes

The tokens of modern source as the grammar sees them: a word is a reserved word,
the name of a type, a truth value, or else an identifier.
-/

namespace LegacyShader.Glsl

open Preprocess (Punct IntegerLiteral TokenValue Token Span)

/-- A token of the grammar. -/
inductive Lexeme where
  /-- A name. -/
  | identifier (name : String)
  /-- The name of a type. -/
  | typeName (type : ShaderType)
  /-- A reserved word. -/
  | keyword (word : Keyword)
  /-- A truth value. -/
  | bool (value : Bool)
  /-- A whole number. -/
  | integer (literal : IntegerLiteral)
  /-- A number with a fraction or an exponent. -/
  | float (value : Decimal.Magnitude)
  /-- A punctuation mark. -/
  | punct (mark : Punct)
  deriving Repr, Inhabited

namespace Lexeme

/-- The lexeme of a word. -/
def ofWord (word : String) : Lexeme :=
  match Keyword.ofText? word with
  | some k => .keyword k
  | none =>
      if word = "true" then .bool true
      else if word = "false" then .bool false
      else
        match typeOfWord? word with
        | some type => .typeName type
        | none => .identifier word

/-- The lexeme of a token, if the grammar has one for it. -/
def ofToken? : TokenValue → Option Lexeme
  | .ident name => some (ofWord name)
  | .integer literal => some (.integer literal)
  | .float value => some (.float value)
  | .punct mark => some (.punct mark)
  | .directive => none

/-- The name of a mark in messages. -/
def markShown : Punct → String
  | .equal => "Assign"
  | .equalEqual => "Equal"
  | .minus => "Dash"
  | .pipe => "VerticalBar"
  | mark => mark.name

/-- A lexeme as messages show it. -/
def shown : Lexeme → String
  | .identifier name => "Identifier(" ++ Text.quoted name ++ ")"
  | .typeName type => "TypeName(Type \x7b name: None, inner: " ++ type.shown (fun _ => 0) ++ " \x7d)"
  | .keyword word => word.name
  | .bool value => "BoolConstant(" ++ (if value then "true" else "false") ++ ")"
  | .integer n =>
      "IntConstant(Integer \x7b value: " ++ toString n.value ++ ", signed: " ++
        (if n.signed then "true" else "false") ++ ", width: " ++ toString n.width ++ " \x7d)"
  | .float x => "FloatConstant(Float \x7b value: " ++ x.literal ++ ", width: 32 \x7d)"
  | .punct mark => markShown mark

/-- Whether a lexeme is a mark. -/
def isPunct (mark : Punct) : Lexeme → Bool
  | .punct m => decide (m = mark)
  | _ => false

/-- Whether a lexeme is a reserved word. -/
def isKeyword (word : Keyword) : Lexeme → Bool
  | .keyword k => decide (k = word)
  | _ => false

end Lexeme

end LegacyShader.Glsl
