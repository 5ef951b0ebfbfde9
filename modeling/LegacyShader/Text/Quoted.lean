import LegacyShader.Text.CombiningTable
import LegacyShader.Text.Identifier
import LegacyShader.Text.UnseenTable

/-!
# Quoted text

Messages show a word between double quotes.  Quotes and backslashes are escaped,
and so are the characters that could not be seen on their own: controls, blanks of
unusual width, unassigned code points and combining characters, each by its code
point in hexadecimal.
-/

namespace LegacyShader.Text

/-- The digits of a number in lower case hexadecimal. -/
def hexDigits (n : Nat) : List Char := Nat.toDigits 16 n

/-- Whether a character is shown by its code point. -/
def isHidden (c : Char) : Bool :=
  if c.toNat < 127 then decide (c.toNat < 32)
  else inRanges unseenRanges c.toNat || inRanges combiningRanges c.toNat

/-- A character as it stands between quotes. -/
def quoteChar (c : Char) : List Char :=
  match c with
  | '"' => ['\\', '"']
  | '\\' => ['\\', '\\']
  | '\n' => ['\\', 'n']
  | '\r' => ['\\', 'r']
  | '\t' => ['\\', 't']
  | '\x00' => ['\\', '0']
  | c => if isHidden c then ['\\', 'u', '\x7b'] ++ hexDigits c.toNat ++ ['\x7d'] else [c]

/-- A text between double quotes. -/
def quoted (s : String) : String :=
  "\"" ++ String.ofList (s.toList.flatMap quoteChar) ++ "\""

end LegacyShader.Text
