/-!
# Byte offsets into a text

A source text is a list of characters.  Places in it are *byte offsets*: the
number of bytes before the place in the UTF-8 form of the text.  An offset in the
middle of a character, or past the end, is no place of the text.
-/

namespace LegacyShader.Text

/-- The number of bytes of a text. -/
def byteLength : List Char → Nat
  | [] => 0
  | c :: cs => c.utf8Size + byteLength cs

/-- The text in front of a byte offset, if the offset is a place of the text. -/
def takeBytes? : Nat → List Char → Option (List Char)
  | 0, _ => some []
  | _ + 1, [] => none
  | n + 1, c :: cs =>
      if c.utf8Size ≤ n + 1 then (takeBytes? (n + 1 - c.utf8Size) cs).map (c :: ·) else none
termination_by structural _ cs => cs

/-- The text from a byte offset on, if the offset is a place of the text. -/
def dropBytes? : Nat → List Char → Option (List Char)
  | 0, cs => some cs
  | _ + 1, [] => none
  | n + 1, c :: cs =>
      if c.utf8Size ≤ n + 1 then dropBytes? (n + 1 - c.utf8Size) cs else none
termination_by structural _ cs => cs

/-- The text between two byte offsets, if both are places of the text and in
order. -/
def slice? (cs : List Char) (start stop : Nat) : Option (List Char) :=
  if start ≤ stop then dropBytes? start cs >>= takeBytes? (stop - start) else none

/-- The number of line feeds in a text. -/
def lineFeeds (cs : List Char) : Nat := cs.count '\n'

/-- The line of a byte offset, counted from one.  An offset that is no place of
the text is on the first line. -/
def lineAt (cs : List Char) (offset : Nat) : Nat :=
  match takeBytes? offset cs with
  | some front => lineFeeds front + 1
  | none => 1

end LegacyShader.Text
