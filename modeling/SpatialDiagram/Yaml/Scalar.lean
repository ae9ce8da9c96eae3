import SpatialDiagram.Decimal.Reading
import SpatialDiagram.Text.Scan
import SpatialDiagram.Value.Basic

/-!
# Plain scalars

What a word without quotes stands for: nothing, a truth value, an integer in
one of several bases, a floating-point number, a date, or itself as text. Each
form has a recogniser and a reader; underscores may stand among the digits.
-/

namespace SpatialDiagram

namespace Yaml

/-- What a plain scalar stands for. -/
inductive Scalar where
  | value (v : Value)
  /-- The key under which other mappings are merged in. -/
  | merge
  /-- The word that stands for a value of its own and is not supported. -/
  | default

/-- The spellings of null. -/
def nullWords : List String := ["~", "null", "Null", "NULL", ""]

/-- The spellings of the truth value that holds. -/
def trueWords : List String :=
  ["yes", "Yes", "YES", "true", "True", "TRUE", "on", "On", "ON"]

/-- The spellings of the truth value that does not hold. -/
def falseWords : List String :=
  ["no", "No", "NO", "false", "False", "FALSE", "off", "Off", "OFF"]

/-- A digit or a low line, which may stand between digits. -/
def isDigitOrLine (c : Char) : Bool := c.isDigit || c = '_'

/-- A number without the low lines between its digits. -/
def withoutLines (cs : List Char) : List Char := cs.filter (· ≠ '_')

/-- The value of a hexadecimal digit. -/
def hexDigit? (c : Char) : Option Nat :=
  if c.isDigit then some (c.toNat - 48)
  else if 'a' ≤ c ∧ c ≤ 'f' then some (c.toNat - 87)
  else if 'A' ≤ c ∧ c ≤ 'F' then some (c.toNat - 55)
  else none

/-- The number that digits of a base spell; underscores are passed over. -/
def inBase? (base : Nat) (cs : List Char) : Option Nat :=
  if cs.isEmpty then none
  else (withoutLines cs).foldlM (fun n c => do
    let d ← hexDigit? c
    if d < base then some (n * base + d) else none) 0

/-- Pieces between colons. -/
def colonPieces (cs : List Char) : List (List Char) :=
  cs.foldr (fun c ps => if c = ':' then [] :: ps else (c :: ps.headD []) :: ps.tail) [[]]

/-- A number below sixty with one or two digits. -/
def isSixtieth (cs : List Char) : Bool :=
  match cs with
  | [a] => a.isDigit
  | [a, b] => a.isDigit && a < '6' && b.isDigit
  | _ => false

/-- A number of base sixty with at least two places. -/
def sixties? (cs : List Char) : Option Nat :=
  match colonPieces cs with
  | first :: more =>
      if more.isEmpty || !(more.all isSixtieth) || !((first.head?.map Char.isDigit).getD false)
          || !(first.all isDigitOrLine) then none
      else some (more.foldl (fun n p => n * 60 + Decimal.ofDigits p)
        (Decimal.ofDigits (withoutLines first)))
  | [] => none

/-- An integer without its sign. -/
def natural? (cs : List Char) : Option Nat :=
  match cs with
  | ['0'] => some 0
  | '0' :: 'b' :: ds => inBase? 2 ds
  | '0' :: 'x' :: ds => inBase? 16 ds
  | '0' :: ds => inBase? 8 ds
  | c :: _ =>
      if !c.isDigit then none
      else if cs.all isDigitOrLine then some (Decimal.ofDigits (withoutLines cs))
      else sixties? cs
  | [] => none

/-- An integer in one of the notations, with an optional sign. -/
def integer? (cs : List Char) : Option Int :=
  let (negative, body) := Decimal.sign? cs
  (natural? body).map fun n => if negative then -(n : Int) else n

/-- A power of ten whose sign is written out, at the end of a number. -/
def isPower (cs : List Char) : Bool :=
  match cs with
  | [] => true
  | e :: s :: ds =>
      (e = 'e' || e = 'E') && (s = '+' || s = '-') && !ds.isEmpty && ds.all Char.isDigit
  | _ => false

/-- Digits, a point, more digits and a power of ten. -/
def isFraction (signed : Bool) (cs : List Char) : Bool :=
  let (whole, rest) := Text.run isDigitOrLine cs
  match rest with
  | '.' :: rest =>
      let (places, rest) := Text.run isDigitOrLine rest
      let starts (ds : List Char) : Bool := (ds.head?.map Char.isDigit).getD false
      isPower rest && (if whole.isEmpty then !signed && starts places else starts whole)
  | _ => false

/-- A number of base sixty whose last place has a fraction, without its sign. -/
def sixtiesFraction? (cs : List Char) : Option Float :=
  let (whole, rest) := Text.run (· ≠ '.') cs
  if (sixties? whole).isNone || rest.isEmpty || !(rest.tail.all isDigitOrLine) then none
  else
    let places := (colonPieces (withoutLines cs)).reverse.map fun p =>
      (Decimal.unsigned? false p).getD 0.0
    some (places.foldl (fun s p => (s.1 + p * s.2, s.2 * 60.0)) (0.0, 1.0)).1

/-- A floating-point number with an optional sign. -/
def float? (cs : List Char) : Option Float :=
  let signed := cs.head? = some '+' || cs.head? = some '-'
  let (negative, body) := Decimal.sign? cs
  let word := String.ofList body
  if word ∈ [".inf", ".Inf", ".INF"] then some (if negative then -(1.0 / 0.0) else 1.0 / 0.0)
  else if !signed && word ∈ [".nan", ".NaN", ".NAN"] then some (0.0 / 0.0)
  else if isFraction signed body then Decimal.unsigned? negative (withoutLines body)
  else (sixtiesFraction? body).map fun x => if negative then -x else x

/-- A year, a month and a day. -/
def isDate (cs : List Char) : Bool :=
  match cs with
  | [a, b, c, d, '-', e, f, '-', g, h] => [a, b, c, d, e, f, g, h].all Char.isDigit
  | _ => false

/-- What a word without quotes stands for. A date is neither text nor number; it is kept as a list
of its one text. -/
def resolve (cs : List Char) : Scalar :=
  let word := String.ofList cs
  if word ∈ nullWords then .value .null
  else if word ∈ trueWords then .value (.bool true)
  else if word ∈ falseWords then .value (.bool false)
  else if word = "<<" then .merge
  else if word = "=" then .default
  else if isDate cs then .value (.list [.str word])
  else
    match integer? cs, float? cs with
    | some n, _ => .value (.int n)
    | none, some x => .value (.float x)
    | none, none => .value (.str word)

end Yaml

end SpatialDiagram
