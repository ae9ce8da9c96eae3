/-!
# The exact value of a floating-point number

A finite number is a sign, a mantissa below `2 ^ 53` and an exponent of two,
read off its bits. Rounding, shortest text and range checks work on these three
in exact arithmetic.
-/

namespace SpatialDiagram

namespace Decimal

/-- A finite number stands for `mantissa * 2 ^ exponent`, negated when `negative` holds. -/
structure Parts where
  negative : Bool
  mantissa : Nat
  exponent : Int
deriving DecidableEq, Repr

/-- The sign, mantissa and exponent of a finite number. -/
def parts (x : Float) : Parts :=
  let bits : Nat := x.toBits.toNat
  let fraction : Nat := bits % Nat.pow 2 52
  let biased : Nat := bits / Nat.pow 2 52 % Nat.pow 2 11
  { negative := Nat.pow 2 63 ≤ bits
    mantissa := if biased = 0 then fraction else Nat.pow 2 52 + fraction
    exponent := if biased = 0 then -1074 else (biased : Int) - 1075 }

/-- The nearest integer to `num / den`; a half goes to the even neighbour. -/
def roundHalfEven (num den : Nat) : Nat :=
  let down := num / den
  let twice := 2 * (num % den)
  if twice < den then down
  else if den < twice then down + 1
  else if down % 2 = 0 then down else down + 1

/-- The number nearest to `± digits * 10 ^ exponent`. Exponents so large or so
small that the answer is an infinity or a zero are settled without computing the power. -/
def ofDecimal (negative : Bool) (digits : Nat) (exponent : Int) : Float :=
  let top := (digits.log2 : Int) * 30103 / 100000 + exponent
  let magnitude : Float :=
    if digits = 0 || top < -340 then 0.0
    else if 320 < top then 1.0 / 0.0
    else if 0 ≤ exponent then Float.ofScientific digits false exponent.toNat
    else Float.ofScientific digits true (-exponent).toNat
  if negative then -magnitude else magnitude

/-- The nearest number with `places` decimal places; a half goes to the even
neighbour, measured on the exact value. -/
def round (places : Nat) (x : Float) : Float :=
  if x.isFinite then
    let p := parts x
    if 0 ≤ p.exponent then x
    else ofDecimal p.negative
      (roundHalfEven (p.mantissa * Nat.pow 10 places) (Nat.pow 2 (-p.exponent).toNat))
      (-(places : Int))
  else x

end Decimal

end SpatialDiagram
