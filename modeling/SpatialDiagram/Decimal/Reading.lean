import SpatialDiagram.Decimal.Binary64
import SpatialDiagram.Text.Digit
import SpatialDiagram.Text.Folding
import SpatialDiagram.Text.Scan

/-!
# Reading numbers from text

A number may stand between blanks, carry a sign, use the decimal digits of any
script and have single underscores between digits. A floating-point number has
digits before or after a point and an optional power of ten; the words `inf`,
`infinity` and `nan` are numbers in any case. The result is the number nearest
to the decimal that was written.
-/

namespace SpatialDiagram

namespace Decimal

/-- The value of a run of plain digits. -/
def ofDigits (cs : List Char) : Nat := cs.foldl (fun n c => n * 10 + (c.toNat - 48)) 0

/-- One of the ten digits of ASCII. -/
def isPlainDigit (c : Char) : Bool := c.isDigit

/-- Removes underscores, each of which has to stand between two digits. -/
def dropUnderscores? : (previous : Char) → List Char → Option (List Char)
  | previous, [] => if previous = '_' then none else some []
  | previous, c :: cs =>
      if c = '_' then
        if isPlainDigit previous then dropUnderscores? c cs else none
      else if previous = '_' && !isPlainDigit c then none
      else (dropUnderscores? c cs).map (c :: ·)

/-- Whether a text has a minus sign, and what follows its sign. -/
def sign? : List Char → Bool × List Char
  | '-' :: cs => (true, cs)
  | '+' :: cs => (false, cs)
  | cs => (false, cs)

/-- A sign is read off a text that has none of its own. -/
theorem sign_append {sign cs : List Char} (hsign : sign ∈ [[], ['+'], ['-']])
    (hcs : ∀ c, cs.head? = some c → c ∉ ['+', '-']) :
    sign? (sign ++ cs) = (decide (sign = ['-']), cs) := by
  simp only [List.mem_cons, List.not_mem_nil, or_false] at hsign
  rcases hsign with rfl | rfl | rfl
  · rw [List.nil_append, sign?.eq_def]
    split
    · exact absurd (by decide) (hcs '-' rfl)
    · exact absurd (by decide) (hcs '+' rfl)
    · rfl
  · rfl
  · rfl

/-- The power of ten at the end of a number: nothing, or `e` with digits that run to the end. -/
def power? : List Char → Option Int
  | [] => some 0
  | c :: cs =>
      if c = 'e' || c = 'E' then
        let (negative, rest) := sign? cs
        let (ds, rest) := Text.run isPlainDigit rest
        if ds.isEmpty || !rest.isEmpty then none
        else some (if negative then -(ofDigits ds : Int) else ofDigits ds)
      else none

/-- A decimal without sign: whole digits, an optional fraction and an optional power of ten. -/
def unsigned? (negative : Bool) (cs : List Char) : Option Float :=
  let (whole, rest) := Text.run isPlainDigit cs
  let (fraction, rest) := match rest with
    | '.' :: rest => Text.run isPlainDigit rest
    | rest => ([], rest)
  if whole.isEmpty && fraction.isEmpty then none
  else (power? rest).map fun e =>
    ofDecimal negative (ofDigits (whole ++ fraction)) (e - fraction.length)

/-- The floating-point number that a text spells. -/
def readFloat? (cs : List Char) : Option Float := do
  let plain := (Text.stripWhile Text.isPadding cs).map Text.toPlainDigit
  let body ← dropUnderscores? ' ' plain
  let (negative, body) := sign? body
  let word := Text.lower body
  if word = "inf".toList || word = "infinity".toList then
    some (if negative then -(1.0 / 0.0) else 1.0 / 0.0)
  else if word = "nan".toList then some (0.0 / 0.0)
  else unsigned? negative body

/-- The integer spelled by an optional sign and decimal digits. -/
def readInt (cs : List Char) : Int :=
  let (negative, body) := sign? ((Text.stripWhile Text.isPadding cs).map Text.toPlainDigit)
  if negative then -(ofDigits body : Int) else ofDigits body

end Decimal

end SpatialDiagram
