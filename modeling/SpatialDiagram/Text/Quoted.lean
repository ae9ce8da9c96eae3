import SpatialDiagram.Text.Printable

/-!
# Quoted text

A text is shown between single quotes, or between double quotes when it holds
a single quote and no double one. The chosen quote and the backslash are
escaped; line feed, carriage return and tab have short escapes; every other
unprintable character is written by its code in two, four or eight hexadecimal
digits.
-/

namespace SpatialDiagram

namespace Text

/-- The hexadecimal digit of a number below sixteen. -/
def hexDigit (n : Nat) : Char := Char.ofNat (if n < 10 then 48 + n else 87 + n)

/-- The lowest `width` hexadecimal digits of a number. -/
def hex : (width : Nat) → Nat → List Char
  | 0, _ => []
  | w + 1, n => hex w (n / 16) ++ [hexDigit (n % 16)]

/-- A character as it stands between quotes of a kind. -/
def quoteChar (quote c : Char) : List Char :=
  if c = quote || c = '\\' then ['\\', c]
  else if c = '\n' then ['\\', 'n']
  else if c = '\r' then ['\\', 'r']
  else if c = '\t' then ['\\', 't']
  else if isPrintable c then [c]
  else if c.toNat < 0x100 then '\\' :: 'x' :: hex 2 c.toNat
  else if c.toNat < 0x10000 then '\\' :: 'u' :: hex 4 c.toNat
  else '\\' :: 'U' :: hex 8 c.toNat

/-- The double quote for texts in which only single ones occur. -/
def chooseQuote (cs : List Char) : Char :=
  if cs.contains '\'' && !cs.contains '"' then '"' else '\''

/-- A text between quotes, with escapes where they are needed. -/
def quoted (s : String) : String :=
  let q := chooseQuote s.toList
  String.ofList (q :: s.toList.flatMap (quoteChar q) ++ [q])

end Text

end SpatialDiagram
