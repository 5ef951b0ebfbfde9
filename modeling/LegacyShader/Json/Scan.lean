import LegacyShader.Json.Error
import LegacyShader.Text.Offset
import LegacyShader.Text.Utf8

/-!
# Scanning JSON

Readers take a text and give what they have read and the rest of the text.  An
error remembers the rest of the text near the place it is reported at, and by how
many bytes the place is behind the start of that rest.  The line and the column
follow from the bytes in front of the place, since columns count bytes: a place can
lie inside a character of several bytes.
-/

namespace LegacyShader.Json

/-! ## Faults and places -/

/-- What is wrong, and where. -/
structure Fault where
  /-- What is wrong. -/
  cause : Cause
  /-- The rest of the text near the place. -/
  rest : List Char
  /-- The number of bytes of the rest in front of the place. -/
  ahead : Nat
  deriving Repr, Inhabited

/-- A reader. -/
abbrev Read (α : Type) := List Char → Except Fault (α × List Char)

/-- Reports a fault at a place. -/
def fail {α : Type} (cause : Cause) (rest : List Char) : Except Fault α :=
  .error ⟨cause, rest, 0⟩

/-- Reports a fault behind the next byte. -/
def failAhead {α : Type} (cause : Cause) (rest : List Char) : Except Fault α :=
  .error ⟨cause, rest, 1⟩

/-- The byte that ends a line. -/
def lineFeed : UInt8 := 10

/-- The place behind some bytes. -/
def Position.after (bytes : List UInt8) : Position :=
  bytes.foldl (fun p b => if b = lineFeed then ⟨p.line + 1, 0⟩ else ⟨p.line, p.column + 1⟩) ⟨1, 0⟩

/-- The place of a fault in a text.  Behind the end there is no place. -/
def Fault.position (f : Fault) (text : List Char) : Position :=
  let bytes := Text.encodeUtf8 text
  .after (bytes.take (bytes.length - Text.byteLength f.rest + f.ahead))

/-! ## Words -/

/-- Whether a character is white space. -/
def isSpace (c : Char) : Bool := c == ' ' || c == '\n' || c == '\t' || c == '\r'

/-- The text behind white space. -/
def skipSpace (cs : List Char) : List Char := cs.dropWhile isSpace

/-- Reads the given characters. -/
def readWord : List Char → List Char → Except Fault (List Char)
  | [], cs => .ok cs
  | _ :: _, [] => fail .eofValue []
  | w :: ws, c :: cs => if w = c then readWord ws cs else failAhead .expectedIdent (c :: cs)

/-! ## Texts -/

/-- The value of a hexadecimal digit. -/
def hexValue? (c : Char) : Option Nat :=
  if c.isDigit then some (c.toNat - '0'.toNat)
  else if 'a' ≤ c ∧ c ≤ 'f' then some (c.toNat - 'a'.toNat + 10)
  else if 'A' ≤ c ∧ c ≤ 'F' then some (c.toNat - 'A'.toNat + 10)
  else none

/-- The number of four hexadecimal digits at the start of a text, and the rest. -/
def hexDigits? : List Char → Option (Nat × List Char)
  | a :: b :: c :: d :: rest => do
      return ((((← hexValue? a) * 16 + (← hexValue? b)) * 16 + (← hexValue? c)) * 16 +
        (← hexValue? d), rest)
  | _ => none

/-- Reads four hexadecimal digits.  Four bytes are taken before they are looked
at. -/
def readHex : Read Nat := fun cs =>
  match hexDigits? cs with
  | some found => .ok found
  | none => if Text.byteLength cs < 4 then fail .eofString [] else .error ⟨.invalidEscape, cs, 4⟩

/-- Reads the second half of a pair of escapes. -/
def readLowSurrogate (high : Nat) : Read Char
  | '\\' :: 'u' :: rest =>
      match readHex rest with
      | .error f => .error f
      | .ok (low, rest) =>
          if 0xDC00 ≤ low ∧ low ≤ 0xDFFF then
            .ok (Char.ofNat (0x10000 + (high - 0xD800) * 1024 + (low - 0xDC00)), rest)
          else fail .loneSurrogate rest
  | ['\\'] => fail .eofString []
  | '\\' :: rest => failAhead .hexEscapeEnd rest
  | [] => fail .eofString []
  | rest => failAhead .hexEscapeEnd rest

/-- Reads what stands behind `\u`. -/
def readUnicode : Read Char := fun cs =>
  match readHex cs with
  | .error f => .error f
  | .ok (n, rest) =>
      if 0xDC00 ≤ n ∧ n ≤ 0xDFFF then fail .loneSurrogate rest
      else if 0xD800 ≤ n ∧ n ≤ 0xDBFF then readLowSurrogate n rest
      else .ok (Char.ofNat n, rest)

/-- The character that a letter behind a backslash stands for. -/
def escaped? : Char → Option Char
  | '"' => some '"'
  | '\\' => some '\\'
  | '/' => some '/'
  | 'b' => some '\x08'
  | 'f' => some '\x0c'
  | 'n' => some '\n'
  | 'r' => some '\r'
  | 't' => some '\t'
  | _ => none

/-- Reads what stands behind a backslash. -/
def readEscape : Read Char
  | [] => fail .eofString []
  | 'u' :: rest => readUnicode rest
  | c :: rest =>
      match escaped? c with
      | some e => .ok (e, rest)
      | none => failAhead .invalidEscape (c :: rest)

/-- Whether a character has to be escaped. -/
def isControl (c : Char) : Bool := decide (c.toNat < 32)

/-- Reads a text behind its opening quote.  Each step takes a character at least,
so as many steps as characters suffice. -/
def readChars : Nat → Read (List Char)
  | 0, _ => fail .eofString []
  | _ + 1, [] => fail .eofString []
  | steps + 1, c :: rest =>
      if c = '"' then .ok ([], rest)
      else if c = '\\' then
        match readEscape rest with
        | .error f => .error f
        | .ok (c, rest) =>
            match readChars steps rest with
            | .error f => .error f
            | .ok (cs, rest) => .ok (c :: cs, rest)
      else if isControl c then fail .controlCharacter rest
      else
        match readChars steps rest with
        | .error f => .error f
        | .ok (cs, rest) => .ok (c :: cs, rest)

/-- Reads a text behind its opening quote. -/
def readText : Read String := fun cs =>
  (readChars (cs.length + 1) cs).map fun (s, rest) => (String.ofList s, rest)

end LegacyShader.Json
