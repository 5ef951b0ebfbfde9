import LegacyShader.Preprocess.Lexer

/-!
# Macros

A macro is a name that stands for tokens.  One with parameters is used with
arguments in parentheses behind the name.  A name has at most one meaning at a
time, and may be defined again only with the same one.
-/

namespace LegacyShader.Preprocess

/-- The meaning of a macro. -/
structure Macro where
  /-- The parameters, if the macro takes arguments. -/
  params : Option (List String)
  /-- The tokens it stands for. -/
  body : List Token
  deriving Repr, Inhabited

/-- Whether two macros mean the same, wherever they were defined. -/
def Macro.same (a b : Macro) : Bool :=
  a.params == b.params && a.body.map (·.value) == b.body.map (·.value)

/-- The macros that are defined, by name. -/
abbrev MacroTable := List (String × Macro)

namespace MacroTable

/-- The meaning of a name. -/
def get? (table : MacroTable) (name : String) : Option Macro := table.lookup name

/-- Forgets a name. -/
def erase (table : MacroTable) (name : String) : MacroTable :=
  table.filter fun entry => entry.1 != name

/-- Gives a name a meaning. -/
def insert (table : MacroTable) (name : String) (meaning : Macro) : MacroTable :=
  (name, meaning) :: table.erase name

end MacroTable

/-- The tokens among the lexemes, without line ends, hashes and faults. -/
def tokensOf (items : List LexItem) : List Token :=
  items.filterMap fun item =>
    match item with
    | .ok ⟨.value value, span, line, _, _⟩ => some ⟨value, span, line⟩
    | _ => none

/-- A macro without parameters that stands for the tokens of a text of its own. -/
def Macro.ofText (body : String) : Macro := ⟨none, tokensOf (lexemes body.toList)⟩

end LegacyShader.Preprocess
