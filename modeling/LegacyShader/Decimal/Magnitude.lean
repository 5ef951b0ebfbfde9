/-!
# Binary magnitudes

A literal with a fraction or an exponent stands for the nearest number of a binary
format.  Signs are kept elsewhere, so only the numbers from zero up are needed.  A
finite one is `mantissa * 2 ^ scale` in units of the least positive number of the
format.  The mantissa has at most `precision` bits, and exactly that many when the
scale is positive.

All arithmetic is on natural numbers.  A decimal far outside the range of a format
is decided by its exponent alone, so no huge power is built.
-/

namespace LegacyShader.Decimal

/-- A binary format for numbers. -/
structure FloatFormat where
  /-- The number of bits of a full mantissa. -/
  precision : Nat
  /-- The least positive number is two to the minus this. -/
  unitExponent : Nat
  /-- The largest scale of a finite number. -/
  maxScale : Nat
  /-- A decimal from ten to this on is infinite, and one below ten to the minus
  this is zero. -/
  decimalRange : Nat
  /-- So many decimal digits tell all numbers apart. -/
  decimalDigits : Nat
  deriving DecidableEq, Repr, Inhabited

namespace FloatFormat

/-- Single precision. -/
def single : FloatFormat := ⟨24, 149, 253, 60, 9⟩

/-- Double precision. -/
def double : FloatFormat := ⟨53, 1074, 2045, 400, 17⟩

/-- The number of least positive units in one. -/
def unitsPerOne (f : FloatFormat) : Nat := Nat.pow 2 f.unitExponent

end FloatFormat

/-- A number of a binary format without a sign. -/
inductive Magnitude where
  /-- So many units of the format. -/
  | finite (mantissa scale : Nat)
  /-- Too large for a finite number. -/
  | infinite
  deriving DecidableEq, Repr, Inhabited

/-- The quotient rounded to the nearest whole number, a half to the even
neighbour. -/
def roundDiv (num den : Nat) : Nat :=
  let q := num / den
  let r := num % den
  if 2 * r < den then q
  else if den < 2 * r then q + 1
  else if q % 2 = 0 then q else q + 1

namespace Magnitude

/-- The number nearest to a fraction, a tie going to the even mantissa. -/
def ofFraction (f : FloatFormat) (num den : Nat) : Magnitude :=
  let units := num * f.unitsPerOne
  let bits := if units / den = 0 then 0 else Nat.log2 (units / den) + 1
  let scale := bits - f.precision
  let mantissa := roundDiv units (den * Nat.pow 2 scale)
  let full := decide (mantissa = Nat.pow 2 f.precision)
  let mantissa := if full then Nat.pow 2 (f.precision - 1) else mantissa
  let scale := if full then scale + 1 else scale
  if f.maxScale < scale then .infinite else .finite mantissa scale

/-- The number nearest to `digits * 10 ^ exponent`, where `digits` has
`length` decimal digits. -/
def ofDecimal (f : FloatFormat) (digits length : Nat) (exponent : Int) : Magnitude :=
  if digits = 0 then .finite 0 0
  else if exponent + length < -f.decimalRange then .finite 0 0
  else if f.decimalRange < exponent then .infinite
  else if exponent < 0 then ofFraction f digits (Nat.pow 10 exponent.natAbs)
  else ofFraction f (digits * Nat.pow 10 exponent.natAbs) 1

/-- The number nearest to a whole number. -/
def ofNat (f : FloatFormat) (n : Nat) : Magnitude := ofFraction f n 1

/-- The number nearest to a power of ten. -/
def powerOfTen (f : FloatFormat) (exponent : Nat) : Magnitude :=
  ofNat f (Nat.pow 10 exponent)

/-- The number of least positive units in a finite number. -/
def units (mantissa scale : Nat) : Nat := mantissa * Nat.pow 2 scale

/-- The number nearest to a product. -/
def multiply (f : FloatFormat) : Magnitude → Magnitude → Magnitude
  | .finite m s, .finite m' s' =>
      ofFraction f (units m s * units m' s') (f.unitsPerOne * f.unitsPerOne)
  | _, _ => .infinite

/-- The number nearest to a quotient.  A quotient by zero is too large, and one by
something too large is zero. -/
def divide (f : FloatFormat) : Magnitude → Magnitude → Magnitude
  | .finite m s, .finite m' s' =>
      if m' = 0 then .infinite else ofFraction f (units m s) (units m' s')
  | .finite .., .infinite => .finite 0 0
  | .infinite, _ => .infinite

end Magnitude

end LegacyShader.Decimal
