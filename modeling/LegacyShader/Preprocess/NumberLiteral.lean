import LegacyShader.Preprocess.Error

/-!
# Number literals

A number starts with a digit, or with a point and a digit.  `0x` starts a
hexadecimal number, a zero in front of another digit an octal one.  A point or an
exponent makes a float, whatever came before.

The reader takes as many characters as belong to the number, and then says
whether they are a number: it gives the count of characters with the value or the
cause.
-/

namespace LegacyShader.Preprocess

/-- The base of a whole number. -/
inductive Radix where
  /-- Base eight. -/
  | octal
  /-- Base ten. -/
  | decimal
  /-- Base sixteen. -/
  | hexadecimal
  deriving DecidableEq, Repr

/-- The base as a number. -/
def Radix.base : Radix → Nat
  | .octal => 8
  | .decimal => 10
  | .hexadecimal => 16

/-- Whether a character is a hexadecimal digit. -/
def isHexDigit (c : Char) : Bool :=
  c.isDigit || ('a' ≤ c && c ≤ 'f') || ('A' ≤ c && c ≤ 'F')

/-- The value of a hexadecimal digit. -/
def digitValue (c : Char) : Nat :=
  if c.isDigit then c.toNat - '0'.toNat
  else if 'a' ≤ c then c.toNat - 'a'.toNat + 10
  else c.toNat - 'A'.toNat + 10

/-- The number that digits stand for in a base. -/
def digitsValue (base : Nat) (digits : List Char) : Nat :=
  digits.foldl (fun n c => n * base + digitValue c) 0

/-- The parts of a number as they were written. -/
structure NumberText where
  /-- The base of the whole part. -/
  radix : Radix
  /-- The digits of the whole part. -/
  whole : List Char
  /-- The digits behind the point, if there is a point. -/
  fraction : Option (List Char)
  /-- The sign and the digits of the exponent, if there is one. -/
  exponent : Option (Bool × List Char)
  deriving Repr

namespace NumberText

/-- Whether the number is a float. -/
def isFloat (n : NumberText) : Bool := n.fraction.isSome || n.exponent.isSome

/-- The largest whole number is below this one. -/
def wholeLimit : Nat := Nat.pow 2 64

/-- The whole number, if its digits are digits of its base and it fits. -/
def toInteger (n : NumberText) (signed : Bool) : Except Cause TokenValue :=
  let value := digitsValue n.radix.base n.whole
  if n.whole = [] ∨ n.whole.any (fun c => decide (n.radix.base ≤ digitValue c)) ∨
      wholeLimit ≤ value then
    .error .integerOverflow
  else .ok (.integer { value, signed })

/-- The single precision number, if all its digits are decimal and its exponent
has some. -/
def toFloat (n : NumberText) : Except Cause TokenValue :=
  let digits := n.whole ++ n.fraction.getD []
  let places := (n.fraction.getD []).length
  let (negative, power) := n.exponent.getD (false, ['0'])
  if digits = [] ∨ !digits.all Char.isDigit ∨ power = [] then
    .error .floatMalformed
  else
    let power : Int := digitsValue 10 power
    let exponent := (if negative then -power else power) - places
    .ok (.float (.ofDecimal .single (digitsValue 10 digits) digits.length exponent))

end NumberText

/-- Takes the digits at the start of a text. -/
def takeDigits (cs : List Char) : List Char × List Char :=
  (cs.takeWhile Char.isDigit, cs.dropWhile Char.isDigit)

/-- Takes the whole part of a number. -/
def takeWhole (cs : List Char) : Radix × List Char × List Char :=
  match cs with
  | '0' :: x :: rest =>
      if x = 'x' ∨ x = 'X' then
        (.hexadecimal, rest.takeWhile isHexDigit, rest.dropWhile isHexDigit)
      else if x.isDigit then
        let (digits, rest) := takeDigits (x :: rest)
        (.octal, '0' :: digits, rest)
      else (.decimal, ['0'], x :: rest)
  | cs =>
      let (digits, rest) := takeDigits cs
      (.decimal, digits, rest)

/-- Takes a point and the digits behind it. -/
def takeFraction (cs : List Char) : Option (List Char) × List Char :=
  match cs with
  | '.' :: rest =>
      let (digits, rest) := takeDigits rest
      (some digits, rest)
  | cs => (none, cs)

/-- Takes an exponent. -/
def takeExponent (cs : List Char) : Option (Bool × List Char) × List Char :=
  match cs with
  | e :: rest =>
      if e = 'e' ∨ e = 'E' then
        let (negative, rest) := match rest with
          | '-' :: rest => (true, rest)
          | '+' :: rest => (false, rest)
          | rest => (false, rest)
        let (digits, rest) := takeDigits rest
        (some (negative, digits), rest)
      else (none, cs)
  | [] => (none, [])

/-- Takes the parts of a number. -/
def takeNumber (cs : List Char) : NumberText × List Char :=
  let (radix, whole, rest) := takeWhole cs
  let (fraction, rest) := takeFraction rest
  let (exponent, rest) :=
    if radix = .hexadecimal ∧ fraction = none then (none, rest) else takeExponent rest
  -- the zero of a hexadecimal mark belongs to the digits of a float
  let whole := if radix = .hexadecimal ∧ fraction.isSome then '0' :: whole else whole
  ({ radix, whole, fraction, exponent }, rest)

/-- Whether the next character is one of two. -/
def startsWithEither (a b : Char) : List Char → Bool
  | c :: _ => c == a || c == b
  | [] => false

/-- Reads the number at the start of a text.  The result is the number or the
fault in it, and the text behind it. -/
def readNumber (cs : List Char) : Except Cause TokenValue × List Char :=
  let (number, rest) := takeNumber cs
  if number.isFloat then
    if startsWithEither 'l' 'L' rest then (.error .literal64, rest)
    else if startsWithEither 'h' 'H' rest then (.error .literal16, rest)
    else (number.toFloat, if startsWithEither 'f' 'F' rest then rest.drop 1 else rest)
  else
    let signed := !startsWithEither 'u' 'U' rest
    let rest := if signed then rest else rest.drop 1
    if startsWithEither 'l' 'L' rest then (.error .literal64, rest)
    else if startsWithEither 's' 'S' rest then (.error .literal16, rest)
    else (number.toInteger signed, rest)

end LegacyShader.Preprocess
