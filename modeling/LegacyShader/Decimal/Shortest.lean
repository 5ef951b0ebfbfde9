import LegacyShader.Decimal.Magnitude

/-!
# Shortest decimals

The text of a binary number has the fewest significant digits that still read back
as the same number, and of these digits the ones nearest to it.

The decimals that read back as a number form an interval around it, which
contains its ends when the mantissa is even.  For one, two and more digits the two
decimals next to the number are tested against the interval, in whole units: the
interval and the grid are scaled to a common denominator.
-/

namespace LegacyShader.Decimal

/-- The decimal `digits * 10 ^ exponent`. -/
structure Numeral where
  /-- The significant digits as one number. -/
  digits : Nat
  /-- The power of ten. -/
  exponent : Int
  deriving DecidableEq, Repr, Inhabited

/-- The decimals that read back as a given number: all of
`value - below` to `value + above`, each over `scale`. -/
structure Interval where
  /-- The number itself. -/
  value : Nat
  /-- The distance to the lower end. -/
  below : Nat
  /-- The distance to the upper end. -/
  above : Nat
  /-- The common denominator. -/
  scale : Nat
  /-- Whether the ends belong to the interval. -/
  closed : Bool
  deriving Repr, Inhabited

namespace Interval

/-- The interval of a finite number.  Below a power of two the numbers lie twice as
close. -/
def ofFinite (f : FloatFormat) (mantissa scale : Nat) : Interval :=
  let narrow := decide (mantissa = Nat.pow 2 (f.precision - 1))
  { value := 4 * mantissa * Nat.pow 2 scale
    below := if narrow then Nat.pow 2 scale else 2 * Nat.pow 2 scale
    above := 2 * Nat.pow 2 scale
    scale := 4 * f.unitsPerOne
    closed := mantissa % 2 = 0 }

/-- Whether a fraction over the same denominator lies in the interval. -/
def contains (i : Interval) (num : Nat) : Bool :=
  if num ≤ i.value then
    if i.closed then decide (i.value ≤ num + i.below) else decide (i.value < num + i.below)
  else
    if i.closed then decide (num ≤ i.value + i.above) else decide (num < i.value + i.above)

/-- The interval over a denominator that is `factor` times as large. -/
def refine (i : Interval) (factor : Nat) : Interval :=
  { i with
    value := i.value * factor
    below := i.below * factor
    above := i.above * factor
    scale := i.scale * factor }

/-- The decimal on the grid of step `10 ^ exponent` that reads back as the
number, the nearer one if both neighbours do and the upper one on a tie. -/
def onGrid? (i : Interval) (exponent : Int) : Option Numeral :=
  let i := if exponent < 0 then i.refine (Nat.pow 10 exponent.natAbs) else i
  let step := if exponent < 0 then i.scale / Nat.pow 10 exponent.natAbs
    else i.scale * Nat.pow 10 exponent.natAbs
  let low := i.value / step
  let lowFits := i.contains (low * step)
  let highFits := i.contains ((low + 1) * step)
  if highFits && (!lowFits || decide (step ≤ 2 * (i.value % step))) then
    some ⟨low + 1, exponent⟩
  else if lowFits then some ⟨low, exponent⟩
  else none

end Interval

/-- The least power of ten above a positive fraction: the least `k` with
`num / den < 10 ^ k`, searched upwards from `k` for at most `steps` steps. -/
def powerFrom (num den : Nat) (steps : Nat) (k : Int) : Int :=
  match steps with
  | 0 => k
  | steps + 1 =>
      let fits :=
        if k < 0 then decide (num * Nat.pow 10 k.natAbs < den)
        else decide (num < den * Nat.pow 10 k.natAbs)
      if fits then k else powerFrom num den steps (k + 1)

/-- The least power of ten above a positive number of a format. -/
def powerAbove (f : FloatFormat) (i : Interval) : Int :=
  powerFrom i.value i.scale (2 * f.decimalRange) (-f.decimalRange)

/-- The shortest decimal on the grids with `count`, `count + 1`, and so on
significant digits. -/
def shortestFrom (i : Interval) (top : Int) : Nat → Nat → Option Numeral
  | 0, _ => none
  | more + 1, count =>
      match i.onGrid? (top - count) with
      | some d => some d
      | none => shortestFrom i top more (count + 1)

/-- Removes zeros from the end of the digits. -/
def stripZeros : Nat → Numeral → Numeral
  | 0, d => d
  | steps + 1, d =>
      if d.digits ≠ 0 ∧ d.digits % 10 = 0 then
        stripZeros steps ⟨d.digits / 10, d.exponent + 1⟩
      else d

/-- The shortest decimal that reads back as a finite number. -/
def shortest (f : FloatFormat) (mantissa scale : Nat) : Numeral :=
  if mantissa = 0 then ⟨0, 0⟩
  else
    let i := Interval.ofFinite f mantissa scale
    stripZeros (f.decimalDigits + 1)
      ((shortestFrom i (powerAbove f i) f.decimalDigits 1).getD ⟨0, 0⟩)

/-! ## Text -/

namespace Numeral

/-- The digits as characters. -/
def digitChars (d : Numeral) : List Char := (toString d.digits).toList

/-- The power of ten of the first digit. -/
def leading (d : Numeral) : Int := d.exponent + (d.digitChars.length - 1 : Nat)

/-- The text in positional notation, with at least one decimal place. -/
def positional (d : Numeral) : String :=
  let digits := d.digitChars
  if 0 ≤ d.exponent then
    String.ofList (digits ++ List.replicate d.exponent.natAbs '0') ++ ".0"
  else
    let places := d.exponent.natAbs
    if digits.length ≤ places then
      "0." ++ String.ofList (List.replicate (places - digits.length) '0' ++ digits)
    else
      String.ofList (digits.take (digits.length - places)) ++ "." ++
        String.ofList (digits.drop (digits.length - places))

/-- The text in scientific notation, with the given sign in front of an exponent
that is not negative. -/
def scientific (d : Numeral) (plus : String) : String :=
  let fraction := String.ofList (d.digitChars.drop 1)
  String.ofList (d.digitChars.take 1) ++ (if fraction = "" then "" else "." ++ fraction) ++ "e" ++
    (if d.leading < 0 then "" else plus) ++ toString d.leading

end Numeral

/-- How a format writes decimals.  Zero is positional, and so are the numbers whose
first digit has a power of ten from `least` up to but not including `limit`. -/
structure NumeralStyle where
  /-- The least power. -/
  least : Int
  /-- The first power that is written in scientific notation again. -/
  limit : Int
  /-- The sign of an exponent that is not negative. -/
  plus : String
  deriving DecidableEq, Repr, Inhabited

/-- The text of a decimal. -/
def NumeralStyle.write (style : NumeralStyle) (d : Numeral) : String :=
  if d.digits = 0 ∨ (style.least ≤ d.leading ∧ d.leading < style.limit) then d.positional
  else d.scientific style.plus

/-- Float literals in shader text are positional from `1e-4` up to `1e16`. -/
def literalStyle : NumeralStyle := ⟨-4, 16, ""⟩

/-- The text of a number as a float literal of single precision. -/
def Magnitude.literal : Magnitude → String
  | .infinite => "inf"
  | .finite mantissa scale => literalStyle.write (shortest .single mantissa scale)

end LegacyShader.Decimal
