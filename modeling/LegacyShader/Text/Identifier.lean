import LegacyShader.Text.IdentifierTable

/-!
# Identifiers

An identifier starts with a letter or an underscore and goes on with letters,
digits, underscores and combining characters.  Letters are those of Unicode.
-/

namespace LegacyShader.Text

/-- Whether a code point lies in one of the ranges. -/
def inRanges (ranges : List (Nat × Nat)) (code : Nat) : Bool :=
  ranges.any fun (low, high) => decide (low ≤ code) && decide (code ≤ high)

/-- Whether a character is an ASCII letter, an ASCII digit or an underscore. -/
def isWordChar (c : Char) : Bool := c.isAlphanum || c == '_'

/-- Whether a character may start an identifier. -/
def isIdentStart (c : Char) : Bool :=
  if c.toNat < 128 then c.isAlpha || c == '_' else inRanges identStartRanges c.toNat

/-- Whether a character may continue an identifier. -/
def isIdentTail (c : Char) : Bool :=
  if c.toNat < 128 then isWordChar c
  else inRanges identStartRanges c.toNat || inRanges identTailRanges c.toNat

end LegacyShader.Text
