import LegacyShader.Decimal.Shortest

/-!
# JSON values

The values of the data format in which reflections and settings are exchanged.
Whole numbers are kept apart from numbers with a fraction, since a reader treats
them differently.  The members of an object keep their order.
-/

namespace LegacyShader.Json

mutual

/-- A value. -/
inductive Value where
  /-- The value `null`. -/
  | null
  /-- A truth value. -/
  | bool (b : Bool)
  /-- A whole number. -/
  | integer (n : Int)
  /-- A number of double precision. -/
  | float (negative : Bool) (magnitude : Decimal.Magnitude)
  /-- A text. -/
  | string (s : String)
  /-- A list of values. -/
  | array (items : List Value)
  /-- A list of named values. -/
  | object (members : List Member)

/-- A member of an object. -/
inductive Member where
  /-- A name and its value. -/
  | mk (name : String) (value : Value)

end

deriving instance Repr for Value
deriving instance Repr for Member

instance : Inhabited Value := ⟨.null⟩

instance : Inhabited Member := ⟨.mk "" .null⟩

namespace Member

/-- The name of a member. -/
def name : Member → String
  | .mk name _ => name

/-- The value of a member. -/
def value : Member → Value
  | .mk _ value => value

end Member

/-- Numbers of double precision in messages are positional from `1e-5` up to
`1e16`, and every exponent has a sign. -/
def messageStyle : Decimal.NumeralStyle := ⟨-5, 16, "+"⟩

/-- The text of a number of double precision in messages. -/
def floatText (negative : Bool) (magnitude : Decimal.Magnitude) : String :=
  let digits := match magnitude with
    | .infinite => "inf"
    | .finite mantissa scale => messageStyle.write (Decimal.shortest .double mantissa scale)
  if negative then "-" ++ digits else digits

end LegacyShader.Json
