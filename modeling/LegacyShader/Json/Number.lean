import LegacyShader.Json.Scan

/-!
# Numbers of JSON

A number without a fraction and an exponent is a whole number if it fits in 64 bits.
All others are of double precision, and they are not the nearest ones.  Digits are
taken into a whole number of 64 bits as long as they fit.  That number is rounded to
double precision, and then multiplied with a power of ten or divided by one, which
rounds again.  Digits that do not fit only count as powers of ten in front of the
point, and not at all behind it.
-/

namespace LegacyShader.Json

open Decimal (Magnitude)

/-- A number that has been read. -/
inductive Number where
  /-- A whole number. -/
  | integer (n : Int)
  /-- A number of double precision. -/
  | float (negative : Bool) (magnitude : Magnitude)
  deriving DecidableEq, Repr, Inhabited

/-- The value of a number. -/
def Number.value : Number → Value
  | .integer n => .integer n
  | .float negative magnitude => .float negative magnitude

/-! ## Digits -/

/-- The value of a decimal digit. -/
def digitOf (c : Char) : Nat := c.toNat - '0'.toNat

/-- The digits at the start of a text. -/
def takeDigits (cs : List Char) : List Char × List Char :=
  (cs.takeWhile Char.isDigit, cs.dropWhile Char.isDigit)

/-- Appends digits to a number as long as it stays below a limit, and gives the
digits that are left. -/
def appendDigits (limit : Nat) (n : Nat) : List Char → Nat × List Char
  | [] => (n, [])
  | d :: ds =>
      let next := n * 10 + digitOf d
      if next < limit then appendDigits limit next ds else (n, d :: ds)

/-- Significant digits stay below this number. -/
def significandLimit : Nat := Nat.pow 2 64

/-- Exponents stay below this number. -/
def exponentLimit : Nat := Nat.pow 2 31

/-- The largest power of ten of double precision. -/
def largestPower : Nat := 308

/-! ## Values -/

/-- A number multiplied with a power of ten, if it stays finite.  A power that is too
small is applied in steps. -/
def scaled? (m : Magnitude) (exponent : Int) : Option Magnitude :=
  if exponent.natAbs ≤ largestPower then
    let power := Magnitude.powerOfTen .double exponent.natAbs
    if exponent < 0 then some (m.divide .double power)
    else
      match m.multiply .double power with
      | .infinite => none
      | product => some product
  else if m = .finite 0 0 then some m
  else if _h : 0 ≤ exponent then none
  else scaled? (m.divide .double (.powerOfTen .double largestPower)) (exponent + largestPower)
termination_by exponent.natAbs
decreasing_by simp only [largestPower] at *; omega

/-- A whole number, or the nearest one of double precision if it does not fit in 64
bits.  A negative zero does not fit either. -/
def wholeNumber (negative : Bool) (n : Nat) : Number :=
  if negative then
    if 0 < n ∧ n ≤ Nat.pow 2 63 then .integer (-n) else .float true (.ofNat .double n)
  else .integer n

/-- The number of significant digits and a power of ten, read up to the given rest of
the text. -/
def floatNumber (negative : Bool) (significand : Nat) (exponent : Int) : Read Number := fun rest =>
  match scaled? (.ofNat .double significand) exponent with
  | some m => .ok (.float negative m, rest)
  | none => fail .numberOutOfRange rest

/-! ## Reading -/

/-- Reads a sign, if there is one. -/
def takeSign : List Char → Bool × List Char
  | '-' :: rest => (true, rest)
  | '+' :: rest => (false, rest)
  | cs => (false, cs)

/-- Reads what stands behind the mark of an exponent, and gives the number.  `base`
is the power of ten that the significant digits already have. -/
def readExponent (negative : Bool) (significand : Nat) (base : Int) : Read Number := fun cs =>
  let (small, cs) := takeSign cs
  match takeDigits cs with
  | ([], []) => fail .eofValue []
  | ([], rest) => failAhead .invalidNumber rest
  | (digits, rest) =>
      match appendDigits exponentLimit 0 digits with
      | (n, []) => floatNumber negative significand (if small then base - n else base + n) rest
      | (_, left) =>
          if significand ≠ 0 ∧ ¬small then fail .numberOutOfRange (left.drop 1 ++ rest)
          else .ok (.float negative (.finite 0 0), rest)

/-- Reads the exponent, if there is one, and gives the number. -/
def readExponent? (negative : Bool) (significand : Nat) (base : Int) : Read Number := fun cs =>
  match cs with
  | 'e' :: rest | 'E' :: rest => readExponent negative significand base rest
  | _ => floatNumber negative significand base cs

/-- Reads the digits behind the point and what follows, and gives the number. -/
def readFraction (negative : Bool) (significand : Nat) (base : Int) : Read Number := fun cs =>
  match takeDigits cs with
  | ([], []) => fail .eofValue []
  | ([], rest) => failAhead .invalidNumber rest
  | (digits, rest) =>
      let (significand, left) := appendDigits significandLimit significand digits
      readExponent? negative significand (base - (digits.length - left.length : Nat)) rest

/-- Reads what stands behind the whole digits, and gives the number. -/
def finishNumber (negative : Bool) (whole : List Char) : Read Number := fun cs =>
  let (significand, left) := appendDigits significandLimit 0 whole
  match cs, left with
  | '.' :: rest, _ => readFraction negative significand left.length rest
  | 'e' :: rest, _ | 'E' :: rest, _ => readExponent negative significand left.length rest
  | _, [] => .ok (wholeNumber negative significand, cs)
  | _, _ => floatNumber negative significand left.length cs

/-- Reads a number behind its sign. -/
def readUnsigned (negative : Bool) : Read Number
  | [] => fail .eofValue []
  | '0' :: rest =>
      if rest.head?.any Char.isDigit then failAhead .invalidNumber rest
      else finishNumber negative ['0'] rest
  | cs =>
      match takeDigits cs with
      | ([], rest) => failAhead .invalidNumber rest
      | (digits, rest) => finishNumber negative digits rest

/-- Reads a number. -/
def readNumber : Read Number
  | '-' :: rest => readUnsigned true rest
  | cs => readUnsigned false cs

/-- Whether a number starts with a character. -/
def startsNumber (c : Char) : Bool := c == '-' || c.isDigit

end LegacyShader.Json
