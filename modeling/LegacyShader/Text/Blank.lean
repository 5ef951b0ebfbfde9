/-!
# White space

The characters with the Unicode property `White_Space`, and the removal of them
from the ends of a text.  Texts are lists of characters.
-/

namespace LegacyShader.Text

/-- The code point ranges of white space. -/
def blankRanges : List (Nat × Nat) :=
  [(0x9, 0xD), (0x20, 0x20), (0x85, 0x85), (0xA0, 0xA0), (0x1680, 0x1680), (0x2000, 0x200A),
    (0x2028, 0x2029), (0x202F, 0x202F), (0x205F, 0x205F), (0x3000, 0x3000)]

/-- Whether a character is white space. -/
def isBlank (c : Char) : Bool :=
  blankRanges.any fun (low, high) => decide (low ≤ c.toNat) && decide (c.toNat ≤ high)

/-- A text without the white space at its end. -/
def trimEnd (cs : List Char) : List Char := (cs.reverse.dropWhile isBlank).reverse

/-- A text without the white space at either end. -/
def trim (cs : List Char) : List Char := trimEnd (cs.dropWhile isBlank)

end LegacyShader.Text
