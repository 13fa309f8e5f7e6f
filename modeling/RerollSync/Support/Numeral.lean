import RerollSync.Support.IsoFormat
import Mathlib.Algebra.Order.Field.Rat

/-!
# Decimal literals and floats

What `float` makes of the digits of a literal.  A float is kept as the number it stands
for: the range of doubles matters here, at both of its ends, and the rounding between
neighbours inside of it does not.
-/

namespace RerollSync.Support

/-- A Python float. -/
inductive PyFloat
  | nan
  | inf (negative : Bool)
  | finite (q : ℚ)

/-- The least number that rounds to an infinity. -/
def floatOverflow : ℚ := 2 ^ 1024 - 2 ^ 970

/-- The greatest number that rounds to zero. -/
def floatUnderflow : ℚ := 1 / 2 ^ 1075

/-- The float of a number `q` that is not negative, with a sign. -/
def PyFloat.ofRat (negative : Bool) (q : ℚ) : PyFloat :=
  if floatOverflow ≤ q then .inf negative
  else if q ≤ floatUnderflow then .finite 0
  else .finite (if negative then -q else q)

/-- The digits before and after the point, and the exponent. -/
structure Numeral where
  negative : Bool
  integer : List Char
  fraction : List Char
  exponent : ℤ

/-- The number without its sign. -/
def Numeral.magnitude (x : Numeral) : ℚ :=
  digitsValue (x.integer ++ x.fraction) * 10 ^ (x.exponent - x.fraction.length)

/-- `float` of the literal. -/
def Numeral.toFloat (x : Numeral) : PyFloat := .ofRat x.negative x.magnitude

/-- `bool` of a float. -/
def PyFloat.truthy : PyFloat → Bool
  | .nan | .inf _ => true
  | .finite q => q ≠ 0

end RerollSync.Support
