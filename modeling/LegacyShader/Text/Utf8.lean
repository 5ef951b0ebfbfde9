/-!
# UTF-8

A text as bytes, and bytes as a text.  A reader of bytes that are not a text says
where they go wrong: how many bytes form characters, and how many bytes behind
them are certainly wrong, unless the bytes only end too early.
-/

namespace LegacyShader.Text

/-! ## Writing -/

/-- The continuation byte with the low six bits of a number. -/
def continuation (n : Nat) : UInt8 := (128 + n % 64).toUInt8

/-- The bytes of a character. -/
def encodeChar (c : Char) : List UInt8 :=
  let n := c.toNat
  if n < 0x80 then [n.toUInt8]
  else if n < 0x800 then [(192 + n / 64).toUInt8, continuation n]
  else if n < 0x10000 then
    [(224 + n / 4096).toUInt8, continuation (n / 64), continuation n]
  else
    [(240 + n / 262144).toUInt8, continuation (n / 4096), continuation (n / 64), continuation n]

/-- The bytes of a text. -/
def encodeUtf8 (cs : List Char) : List UInt8 := cs.flatMap encodeChar

/-! ## Reading -/

/-- Bytes that are not a text. -/
structure Utf8Error where
  /-- The number of bytes in front that are a text. -/
  validUpTo : Nat
  /-- The number of wrong bytes behind them, or nothing if the bytes end too
  early. -/
  length : Option Nat
  deriving DecidableEq, Repr, Inhabited

/-- The text of an error. -/
def Utf8Error.message (e : Utf8Error) : String :=
  match e.length with
  | some n =>
      "invalid utf-8 sequence of " ++ toString n ++ " bytes from index " ++ toString e.validUpTo
  | none => "incomplete utf-8 byte sequence from index " ++ toString e.validUpTo

/-- Whether a byte continues a character. -/
def isContinuation (b : UInt8) : Bool := 128 ≤ b.toNat && b.toNat < 192

/-- The second bytes that may follow a first byte. -/
def secondRange (first : Nat) : Nat × Nat :=
  if first = 0xE0 then (0xA0, 0xBF)
  else if first = 0xED then (0x80, 0x9F)
  else if first = 0xF0 then (0x90, 0xBF)
  else if first = 0xF4 then (0x80, 0x8F)
  else (0x80, 0xBF)

/-- Whether a second byte may follow a first byte. -/
def isSecond (first : Nat) (b : UInt8) : Bool :=
  let (low, high) := secondRange first
  decide (low ≤ b.toNat) && decide (b.toNat ≤ high)

/-- The character of the payload bits of a byte sequence. -/
def charOf (lead : Nat) (rest : List UInt8) : Char :=
  Char.ofNat (rest.foldl (fun n b => n * 64 + b.toNat % 64) lead)

/-- Reads the rest of a character of two bytes. -/
def decodeTwo (first : Nat) : List UInt8 → Except (Option Nat) Char
  | [] => .error none
  | b₁ :: _ => if isContinuation b₁ then .ok (charOf (first % 32) [b₁]) else .error (some 1)

/-- Reads the rest of a character of three bytes. -/
def decodeThree (first : Nat) : List UInt8 → Except (Option Nat) Char
  | [] => .error none
  | [b₁] => if isSecond first b₁ then .error none else .error (some 1)
  | b₁ :: b₂ :: _ =>
      if !isSecond first b₁ then .error (some 1)
      else if !isContinuation b₂ then .error (some 2)
      else .ok (charOf (first % 16) [b₁, b₂])

/-- Reads the rest of a character of four bytes. -/
def decodeFour (first : Nat) : List UInt8 → Except (Option Nat) Char
  | [] => .error none
  | [b₁] => if isSecond first b₁ then .error none else .error (some 1)
  | [b₁, b₂] =>
      if !isSecond first b₁ then .error (some 1)
      else if !isContinuation b₂ then .error (some 2)
      else .error none
  | b₁ :: b₂ :: b₃ :: _ =>
      if !isSecond first b₁ then .error (some 1)
      else if !isContinuation b₂ then .error (some 2)
      else if !isContinuation b₃ then .error (some 3)
      else .ok (charOf (first % 8) [b₁, b₂, b₃])

/-- Reads the character that starts with a byte: the character and the number of
its bytes behind the first, or the number of wrong bytes. -/
def decodeChar (b : UInt8) (rest : List UInt8) : Except (Option Nat) (Char × Nat) :=
  let first := b.toNat
  if first < 0x80 then .ok (Char.ofNat first, 0)
  else if first < 0xC2 then .error (some 1)
  else if first < 0xE0 then (decodeTwo first rest).map (·, 1)
  else if first < 0xF0 then (decodeThree first rest).map (·, 2)
  else if first < 0xF5 then (decodeFour first rest).map (·, 3)
  else .error (some 1)

/-- Reads bytes as a text, given the number of bytes before them. -/
def decodeFrom (index : Nat) (bytes : List UInt8) : Except Utf8Error (List Char) :=
  match bytes with
  | [] => .ok []
  | b :: rest =>
      match decodeChar b rest with
      | .error length => .error ⟨index, length⟩
      | .ok (c, more) => (decodeFrom (index + more + 1) (rest.drop more)).map (c :: ·)
termination_by bytes.length
decreasing_by simp only [List.length_cons, List.length_drop]; omega

/-- Reads bytes as a text. -/
def decodeUtf8 (bytes : List UInt8) : Except Utf8Error (List Char) := decodeFrom 0 bytes

end LegacyShader.Text
