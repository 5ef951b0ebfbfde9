import LegacyShader.Decimal.Number

/-!
# Powers

A power with a small whole exponent is computed exactly and rounded once.  Any
other power is the exponential of a logarithm, in fixed point with many more bits
than a number has, so that rounding it gives the nearest number.

Fixed point means whole numbers in units of `2 ^ -bits`.
-/

namespace LegacyShader.Decimal

namespace FixedPoint

/-- The number of bits behind the point. -/
def bits : Nat := 192

/-- One in fixed point. -/
def one : Nat := Nat.pow 2 bits

/-- The product of two numbers. -/
def mul (a b : Int) : Int := (a * b).fdiv one

/-- The sum of `z ^ (2 k + 1) / (2 k + 1)` over the next terms, where `power` is
the power of the first one. -/
def artanhFrom (square : Int) : Nat → Nat → Int → Int
  | 0, _, _ => 0
  | terms + 1, k, power =>
      power.tdiv (2 * k + 1) + artanhFrom square terms (k + 1) (mul power square)

/-- The natural logarithm of a fraction between one and two. -/
def logFraction (num den : Nat) : Int :=
  let z : Int := ((num - den) * one / (num + den) : Nat)
  2 * artanhFrom (mul z z) 70 0 z

/-- The natural logarithm of two. -/
def logTwo : Int := logFraction 2 1

/-- The natural logarithm of a positive fraction. -/
def log (num den : Nat) : Int :=
  let shift : Int := (Nat.log2 num : Int) - Nat.log2 den
  let (num, den) :=
    if 0 ≤ shift then (num, den * Nat.pow 2 shift.natAbs)
    else (num * Nat.pow 2 shift.natAbs, den)
  if num < den then (shift - 1) * logTwo + logFraction (2 * num) den
  else shift * logTwo + logFraction num den

/-- The sum of `x ^ k / k!` over the next terms, where `term` is the first one. -/
def expFrom (x : Int) : Nat → Nat → Int → Int
  | 0, _, _ => 0
  | terms + 1, k, term => term + expFrom x terms (k + 1) ((mul term x).tdiv (k + 1))

end FixedPoint

namespace Magnitude

open FixedPoint in
/-- The magnitude nearest to the exponential of a number in fixed point. -/
def ofExp (f : FloatFormat) (x : Int) : Magnitude :=
  let doublings := x.fdiv logTwo
  if doublings < -(f.unitExponent + 2 : Nat) then .finite 0 0
  else if (f.maxScale + f.precision : Nat) < doublings then .infinite
  else
    let fraction := (expFrom (x - doublings * logTwo) 60 0 one).toNat
    if 0 ≤ doublings then ofFraction f (fraction * Nat.pow 2 doublings.natAbs) one
    else ofFraction f fraction (one * Nat.pow 2 doublings.natAbs)

/-- Whole exponents up to this one are computed exactly. -/
def exactExponent : Nat := 64

/-- The magnitude nearest to a power of a positive fraction.  The exponent counts
units. -/
def power (f : FloatFormat) (num den : Nat) (exponent : Int) : Magnitude :=
  let whole := exponent.natAbs / f.unitsPerOne
  if exponent.natAbs % f.unitsPerOne = 0 ∧ whole ≤ exactExponent then
    if exponent < 0 then ofFraction f (Nat.pow den whole) (Nat.pow num whole)
    else ofFraction f (Nat.pow num whole) (Nat.pow den whole)
  else ofExp f ((FixedPoint.log num den * exponent).fdiv f.unitsPerOne)

end Magnitude

namespace Number

/-- Whether so many units are an odd whole number. -/
def isOdd (f : FloatFormat) (units : Nat) : Bool :=
  decide (units % f.unitsPerOne = 0 ∧ units / f.unitsPerOne % 2 = 1)

/-- The power of an infinite or a zero base: the base itself or its inverse, with a
sign only for odd exponents. -/
def extremePower (negative grows odd : Bool) : Number :=
  .signed (negative && odd) (if grows then .infinite else .finite 0 0)

/-- A power of a finite base with a finite exponent. -/
def finitePower (f : FloatFormat) (negative : Bool) (base : Nat) (exponent : Int) : Number :=
  let odd := isOdd f exponent.natAbs
  if exponent = 0 then ofInt f 1
  else if base = 0 then extremePower negative (decide (exponent < 0)) odd
  else if negative ∧ exponent.natAbs % f.unitsPerOne ≠ 0 then .notANumber
  else .signed (negative && odd) (.power f base f.unitsPerOne exponent)

/-- The number nearest to a power. -/
def power (f : FloatFormat) : Number → Number → Number
  | .signed n (.finite m s), .signed n' (.finite m' s') =>
      let e : Int := Magnitude.units m' s'
      finitePower f n (Magnitude.units m s) (if n' then -e else e)
  | .signed n .infinite, .signed n' (.finite m' s') =>
      let e := Magnitude.units m' s'
      if e = 0 then ofInt f 1 else extremePower n (!n') (isOdd f e)
  | .signed n (.finite m s), .signed n' .infinite =>
      match Ord.compare (Magnitude.units m s) f.unitsPerOne with
      | .eq => ofInt f 1
      | .lt => extremePower n n' false
      | .gt => extremePower n (!n') false
  | .signed _ .infinite, .signed n' .infinite => extremePower false (!n') false
  | a, _ => if a = ofInt f 1 then a else .notANumber

end Number

end LegacyShader.Decimal
