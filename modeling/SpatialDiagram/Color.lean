import SpatialDiagram.Text.Digit
import SpatialDiagram.Text.Folding
import SpatialDiagram.Text.Scan
import SpatialDiagram.Value.Basic

/-!
# Colours

A colour is written as three or six hexadecimal digits after a `#`, as the
function `rgb` or `rgba` of three numbers and an optional fourth, or by one of
the basic names in any case. The numbers are not checked against a range.
-/

namespace SpatialDiagram

namespace Color

/-- The names that are known in any case. -/
def names : List String :=
  ["red", "green", "blue", "yellow", "orange", "purple", "pink", "brown",
   "black", "white", "gray", "grey", "cyan", "magenta", "lime", "navy",
   "maroon", "olive", "aqua", "teal", "silver", "fuchsia"]

/-- A digit or one of the letters from a to f, in either case. -/
def isHexDigit (c : Char) : Bool := c.isDigit || ('a' ≤ c && c ≤ 'f') || ('A' ≤ c && c ≤ 'F')

/-- A number sign with three or six hexadecimal digits. -/
def isHex (cs : List Char) : Bool :=
  match cs with
  | '#' :: ds => ds.all isHexDigit && (ds.length = 3 || ds.length = 6)
  | _ => false

/-- An integer between blanks. -/
def afterNumber? (cs : List Char) : Option (List Char) :=
  (Text.afterRun? Text.isDecimal (Text.skipBlanks cs)).map Text.skipBlanks

/-- A comma and a run of digits and points, if a comma follows. -/
def afterFourth? (cs : List Char) : Option (List Char) :=
  match cs with
  | ',' :: rest =>
      (Text.afterRun? (fun c => Text.isDecimal c || c = '.') (Text.skipBlanks rest)).map
        Text.skipBlanks
  | _ => some cs

/-- The notation with the amounts of red, green and blue, and possibly an opacity, in parentheses.
-/
def isFunction (cs : List Char) : Bool :=
  let read : Option (List Char) := do
    let rest ← Text.after? "rgb".toList cs
    let rest ← Text.after? ['('] ((Text.after? ['a'] rest).getD rest)
    let rest ← Text.after? [','] (← afterNumber? rest)
    let rest ← Text.after? [','] (← afterNumber? rest)
    Text.after? [')'] (← afterFourth? (← afterNumber? rest))
  read = some []

/-- A text without the line feed at its end, if it has one. -/
def withoutFinalFeed (cs : List Char) : List Char :=
  if cs.getLast? = some '\n' then cs.dropLast else cs

/-- Whether a text is a colour. A line feed may follow a colour that is not written by name. -/
def isColor (cs : List Char) : Bool :=
  let plain := withoutFinalFeed cs
  isHex plain || isFunction plain || names.contains (String.ofList (Text.lower cs))

end Color

/-- Whether a value is a text that is a colour. -/
def Value.isColor : Value → Bool
  | str s => Color.isColor s.toList
  | _ => false

end SpatialDiagram
