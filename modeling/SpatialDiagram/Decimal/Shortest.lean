import SpatialDiagram.Decimal.Binary64

/-!
# The shortest decimal text of a number

Among the decimals that read back as a given number the text takes one with the
fewest digits, and of those the nearest. On the grid of decimals with a given
number of digits it is enough to try the two neighbours of the number: if the
interval of reals that round to it holds a point of the grid, it holds one of
the two.
-/

namespace SpatialDiagram

namespace Decimal

/-- Stands for `digits * 10 ^ exponent`. -/
structure Digits where
  digits : Nat
  exponent : Int
deriving DecidableEq, Repr

/-- The interval of reals that round to a positive number, in quarters of its
unit in the last place, and the number itself. -/
structure Basin where
  low : Nat
  mid : Nat
  high : Nat
  closed : Bool

/-- The bounds of the basin of a number, in quarters of its last place. -/
def basin (p : Parts) : Basin :=
  { low := if p.mantissa = Nat.pow 2 52 ∧ p.exponent ≠ -1074 then 4 * p.mantissa - 1
           else 4 * p.mantissa - 2
    mid := 4 * p.mantissa
    high := 4 * p.mantissa + 2
    closed := p.mantissa % 2 = 0 }

/-- The decimal on the grid `10 ^ k` that reads back as the number, if there is one. -/
def onGrid? (p : Parts) (k : Int) : Option Digits :=
  let b := basin p
  let unit := Nat.pow 2 (p.exponent - 2).toNat * Nat.pow 10 (-k).toNat
  let step := Nat.pow 10 k.toNat * Nat.pow 2 (2 - p.exponent).toNat
  let below := b.mid * unit / step
  let fits (d : Nat) : Bool :=
    if b.closed then b.low * unit ≤ d * step && d * step ≤ b.high * unit
    else b.low * unit < d * step && d * step < b.high * unit
  let lack := b.mid * unit - below * step
  let excess := (below + 1) * step - b.mid * unit
  match fits below, fits (below + 1) with
  | false, false => none
  | true, false => some ⟨below, k⟩
  | false, true => some ⟨below + 1, k⟩
  | true, true =>
      if lack < excess || (lack = excess && below % 2 = 0) then some ⟨below, k⟩
      else some ⟨below + 1, k⟩

/-- The exponent of the leading decimal digit of a positive number. -/
def leadingExponent (p : Parts) : Int :=
  let guess := ((p.mantissa.log2 : Int) + p.exponent) * 30103 / 100000 - 1
  let reaches (e : Int) : Bool :=
    Nat.pow 10 e.toNat * Nat.pow 2 (-p.exponent).toNat ≤
      p.mantissa * Nat.pow 2 p.exponent.toNat * Nat.pow 10 (-e).toNat
  if reaches (guess + 2) then guess + 2 else if reaches (guess + 1) then guess + 1 else guess

/-- Moves trailing zeros into the exponent. -/
def dropZeros : (fuel : Nat) → Digits → Digits
  | 0, d => d
  | fuel + 1, d =>
      if d.digits ≠ 0 ∧ d.digits % 10 = 0 then dropZeros fuel ⟨d.digits / 10, d.exponent + 1⟩ else d

/-- The shortest decimal of a positive finite number. -/
def shortest (p : Parts) : Digits :=
  let top := leadingExponent p
  let found := (List.range 17).findSome? fun (n : Nat) => onGrid? p (top - n)
  dropZeros 20 (found.getD ⟨p.mantissa, 0⟩)

/-- The names of the values that are no number on the line. -/
structure Names where
  nan : String
  infinity : String

/-- Digits stand in place for exponents from -4 to 15, with `.0` behind a whole
number; other exponents are written with a sign and at least two digits. -/
def positional (d : Digits) : String :=
  let ds := toString d.digits
  let point := (ds.length : Int) + d.exponent
  let zeros (n : Int) : String := "".pushn '0' n.toNat
  if -4 < point ∧ point ≤ 16 then
    if point ≤ 0 then "0." ++ zeros (-point) ++ ds
    else if d.exponent ≥ 0 then ds ++ zeros d.exponent ++ ".0"
    else (ds.take point.toNat).toString ++ "." ++ (ds.drop point.toNat).toString
  else
    let lead := (ds.take 1).toString ++ (if ds.length = 1 then "" else "." ++ (ds.drop 1).toString)
    let e := point - 1
    let es := toString e.natAbs
    lead ++ "e" ++ (if e < 0 then "-" else "+") ++ (if es.length < 2 then "0" ++ es else es)

/-- The shortest text of a number. -/
def text (names : Names) (x : Float) : String :=
  if x.isNaN then names.nan
  else
    let p := parts x
    let magnitude :=
      if x.isInf then names.infinity
      else if p.mantissa = 0 then "0.0"
      else positional (shortest p)
    if p.negative then "-" ++ magnitude else magnitude

end Decimal

end SpatialDiagram
