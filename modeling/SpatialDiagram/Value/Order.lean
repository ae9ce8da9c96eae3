import SpatialDiagram.Decimal.Binary64
import SpatialDiagram.Value.Basic

/-!
# The order of keys

Numbers are compared by their exact amounts, texts by their characters. Other
keys have no order, and a key of one kind has none with a key of another. In a
list of complaints, though, a whole number goes before every key that is none,
and a text before every key that is neither.
-/

namespace SpatialDiagram

namespace Decimal

namespace Parts

/-- The integer that the power of two below a number is counted with. -/
def numerator (p : Parts) : Int :=
  (if p.negative then -(p.mantissa : Int) else p.mantissa) * Nat.pow 2 p.exponent.toNat

/-- The integer that the power of two of a number is divided by. -/
def denominator (p : Parts) : Nat := Nat.pow 2 (-p.exponent).toNat

end Parts

/-- Whether a floating-point number is below an integer. -/
def isBelowInt (x : Float) (n : Int) : Bool :=
  if x.isFinite then (parts x).numerator < n * (parts x).denominator else x < 0.0

/-- Whether a floating-point number is above an integer. -/
def isAboveInt (x : Float) (n : Int) : Bool :=
  if x.isFinite then n * (parts x).denominator < (parts x).numerator else 0.0 < x

end Decimal

namespace Number

/-- Whether one number is less than another; a NaN is not less and not greater than any. -/
def isLess : Number → Number → Bool
  | int a, int b => a < b
  | int n, float x => Decimal.isAboveInt x n
  | float x, int n => Decimal.isBelowInt x n
  | float x, float y => x < y

end Number

namespace Value

/-- The number that a key counts as; a truth value counts as one or zero. -/
def number? : Value → Option Number
  | bool b => some (.int (if b then 1 else 0))
  | int n => some (.int n)
  | float x => some (.float x)
  | _ => none

/-- A key that is a text. -/
def isText : Value → Bool
  | str _ => true
  | _ => false

/-- An integer or a truth value. -/
def isWhole : Value → Bool
  | bool _ => true
  | int _ => true
  | _ => false

/-- Whether one key is less than another, if the two have an order. -/
def isLess? : Value → Value → Option Bool
  | str a, str b => some (a < b)
  | a, b => do return (← a.number?).isLess (← b.number?)

/-- Whether one key goes before another in a list of complaints. -/
def goesBefore? (a b : Value) : Option Bool :=
  if (a.isWhole && !b.isWhole) || (a.isText && !b.isText) then some true else a.isLess? b

end Value

end SpatialDiagram
