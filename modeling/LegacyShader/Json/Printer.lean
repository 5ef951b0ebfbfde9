import LegacyShader.Json.Value

/-!
# Printing JSON

A value is printed over several lines.  Each level is indented by two blanks, an
empty list or object stays on one line, and members keep their order.  In texts
only quotes, backslashes and control characters are escaped.
-/

namespace LegacyShader.Json

/-- A hexadecimal digit. -/
def hexDigit (n : Nat) : Char := Nat.digitChar n

/-- A character as it stands in a text. -/
def escapeChar (c : Char) : List Char :=
  match c with
  | '"' => ['\\', '"']
  | '\\' => ['\\', '\\']
  | '\n' => ['\\', 'n']
  | '\r' => ['\\', 'r']
  | '\t' => ['\\', 't']
  | '\x08' => ['\\', 'b']
  | '\x0c' => ['\\', 'f']
  | c =>
      if c.toNat < 32 then
        ['\\', 'u', '0', '0', hexDigit (c.toNat / 16), hexDigit (c.toNat % 16)]
      else [c]

/-- A text between quotes. -/
def printString (s : String) : List Char :=
  '"' :: s.toList.flatMap escapeChar ++ ['"']

/-- A new line at a level. -/
def newLine (level : Nat) : List Char := '\n' :: List.replicate (2 * level) ' '

/-- A number of double precision. -/
def printFloat (negative : Bool) (magnitude : Decimal.Magnitude) : List Char :=
  match magnitude with
  | .infinite => "null".toList
  | m => (floatText negative m).toList

mutual

/-- Prints a value at a level. -/
def printAt (level : Nat) : Value → List Char
  | .null => "null".toList
  | .bool b => (if b then "true" else "false").toList
  | .integer n => (toString n).toList
  | .float negative magnitude => printFloat negative magnitude
  | .string s => printString s
  | .array [] => ['[', ']']
  | .array (v :: vs) =>
      '[' :: newLine (level + 1) ++ printAt (level + 1) v ++ printItems (level + 1) vs ++
        newLine level ++ [']']
  | .object [] => ['\x7b', '\x7d']
  | .object (m :: ms) =>
      '\x7b' :: newLine (level + 1) ++ printMember (level + 1) m ++ printMembers (level + 1) ms ++
        newLine level ++ ['\x7d']

/-- Prints the items of a list behind the first one. -/
def printItems (level : Nat) : List Value → List Char
  | [] => []
  | v :: vs => ',' :: newLine level ++ printAt level v ++ printItems level vs

/-- Prints a member of an object. -/
def printMember (level : Nat) : Member → List Char
  | .mk name value => printString name ++ [':', ' '] ++ printAt level value

/-- Prints the members of an object behind the first one. -/
def printMembers (level : Nat) : List Member → List Char
  | [] => []
  | m :: ms => ',' :: newLine level ++ printMember level m ++ printMembers level ms

end

/-- Prints a value. -/
def print (v : Value) : List Char := printAt 0 v

end LegacyShader.Json
