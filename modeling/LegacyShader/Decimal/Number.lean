import LegacyShader.Decimal.Magnitude

/-!
# Signed numbers of a binary format

A magnitude with a sign, or no number at all.  Sums, products, quotients and
remainders are those of the exact numbers, rounded once to the nearest number of
the format.  A zero keeps its sign, and what has no value, such as zero by zero, is
not a number.

The magnitude of a finite number is counted in units of the least positive number,
so sums and remainders are those of whole numbers.
-/

namespace LegacyShader.Decimal

/-- A number of a binary format. -/
inductive Number where
  /-- A magnitude with its sign. -/
  | signed (negative : Bool) (magnitude : Magnitude)
  /-- The outcome of an operation without a value. -/
  | notANumber
  deriving DecidableEq, Repr, Inhabited

namespace Magnitude

/-- The same magnitude in another format, rounded to the nearest. -/
def convert (source target : FloatFormat) : Magnitude → Magnitude
  | .finite m s => ofFraction target (units m s) source.unitsPerOne
  | .infinite => .infinite

/-- Whether a magnitude is zero. -/
def isZero : Magnitude → Bool
  | .finite m _ => decide (m = 0)
  | .infinite => false

end Magnitude

namespace Number

/-! ## Whole numbers and units -/

/-- The number nearest to a whole number. -/
def ofInt (f : FloatFormat) (n : Int) : Number :=
  .signed (decide (n < 0)) (.ofNat f n.natAbs)

/-- The units of a finite number, with its sign. -/
def units? : Number → Option Int
  | .signed negative (.finite m s) =>
      some (if negative then -(Magnitude.units m s : Int) else Magnitude.units m s)
  | _ => none

/-- The number of so many units.  A zero takes the given sign. -/
def ofUnits (f : FloatFormat) (zeroNegative : Bool) (units : Int) : Number :=
  if units = 0 then .signed zeroNegative (.finite 0 0)
  else .signed (decide (units < 0)) (.ofFraction f units.natAbs f.unitsPerOne)

/-- The number without its fraction, within two limits.  What is not a number
counts as zero. -/
def truncate (f : FloatFormat) (least most : Int) : Number → Int
  | .notANumber => 0
  | .signed true .infinite => least
  | .signed false .infinite => most
  | .signed negative (.finite m s) =>
      let whole : Int := (Magnitude.units m s / f.unitsPerOne : Nat)
      max least (min most (if negative then -whole else whole))

/-- The same number in another format. -/
def convert (source target : FloatFormat) : Number → Number
  | .signed negative m => .signed negative (m.convert source target)
  | .notANumber => .notANumber

/-! ## Arithmetic -/

/-- The number with the other sign. -/
def negate : Number → Number
  | .signed negative m => .signed (!negative) m
  | .notANumber => .notANumber

/-- The number nearest to a sum. -/
def add (f : FloatFormat) : Number → Number → Number
  | .signed n .infinite, .signed n' .infinite =>
      if n = n' then .signed n .infinite else .notANumber
  | .signed n .infinite, .signed .. => .signed n .infinite
  | .signed .., .signed n' .infinite => .signed n' .infinite
  | .signed n (.finite m s), .signed n' (.finite m' s') =>
      let a : Int := Magnitude.units m s
      let b : Int := Magnitude.units m' s'
      ofUnits f (n && n') ((if n then -a else a) + (if n' then -b else b))
  | _, _ => .notANumber

/-- The number nearest to a difference. -/
def subtract (f : FloatFormat) (a b : Number) : Number := add f a b.negate

/-- The number nearest to a product. -/
def multiply (f : FloatFormat) : Number → Number → Number
  | .signed n a, .signed n' b =>
      if (a = .infinite ∧ b.isZero) ∨ (a.isZero ∧ b = .infinite) then .notANumber
      else .signed (n != n') (.multiply f a b)
  | _, _ => .notANumber

/-- The number nearest to a quotient. -/
def divide (f : FloatFormat) : Number → Number → Number
  | .signed n a, .signed n' b =>
      if (a.isZero ∧ b.isZero) ∨ (a = .infinite ∧ b = .infinite) then .notANumber
      else .signed (n != n') (.divide f a b)
  | _, _ => .notANumber

/-- What is left of the first number after taking the second one off as often as it
fits.  The sign is that of the first number. -/
def remainder (f : FloatFormat) : Number → Number → Number
  | .signed n (.finite m s), .signed _ (.finite m' s') =>
      if m' = 0 then .notANumber
      else
        let rest : Int := (Magnitude.units m s % Magnitude.units m' s' : Nat)
        ofUnits f n (if n then -rest else rest)
  | .signed n (.finite m s), .signed _ .infinite => .signed n (.finite m s)
  | _, _ => .notANumber

/-! ## Order -/

/-- The place of a number on a line with two ends. -/
def rank : Bool → Magnitude → Int × Int
  | true, .infinite => (-1, 0)
  | false, .infinite => (1, 0)
  | true, .finite m s => (0, -(Magnitude.units m s : Int))
  | false, .finite m s => (0, Magnitude.units m s)

/-- The order of two numbers.  The zeros of both signs are equal. -/
def compare? : Number → Number → Option Ordering
  | .signed n a, .signed n' b =>
      let (r, u) := rank n a
      let (r', u') := rank n' b
      some ((compare r r').then (compare u u'))
  | _, _ => none

end Number

end LegacyShader.Decimal
