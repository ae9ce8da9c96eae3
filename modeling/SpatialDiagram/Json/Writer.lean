import SpatialDiagram.Decimal.Shortest
import SpatialDiagram.Text.Quoted
import SpatialDiagram.Value.Basic

/-!
# Writing JSON text

The text is plain ASCII: every other character is escaped by its UTF-16 code
units. Floating-point numbers have their shortest text; `NaN`, `Infinity` and
`-Infinity` stand for the values that JSON lacks. Without an indentation all
stands on one line; with one, every item starts a line of its own.
-/

namespace SpatialDiagram

namespace Json

/-- The escape of a code unit. -/
def unitEscape (n : Nat) : List Char := '\\' :: 'u' :: Text.hex 4 n

/-- A character inside a string. -/
def escaped (c : Char) : List Char :=
  if c = '"' then ['\\', '"']
  else if c = '\\' then ['\\', '\\']
  else if c = '\n' then ['\\', 'n']
  else if c = '\r' then ['\\', 'r']
  else if c = '\t' then ['\\', 't']
  else if c = '\x0c' then ['\\', 'f']
  else if c = '\x08' then ['\\', 'b']
  else if 0x20 ≤ c.toNat ∧ c.toNat < 0x7f then [c]
  else if c.toNat < 0x10000 then unitEscape c.toNat
  else
    let n := c.toNat - 0x10000
    unitEscape (0xd800 + n / 0x400) ++ unitEscape (0xdc00 + n % 0x400)

/-- A text in quotes, with escapes where they are needed. -/
def writeString (s : String) : String :=
  String.ofList ('"' :: s.toList.flatMap escaped ++ ['"'])

/-- How numbers without digits are called. -/
def floatNames : Decimal.Names := ⟨"NaN", "Infinity"⟩

/-- A floating-point number with as few digits as tell it from all others. -/
def writeFloat (x : Float) : String := Decimal.text floatNames x

/-- A scalar key as the name of a member. -/
def keyText : Value → String
  | .str s => s
  | .int n => toString n
  | .float x => writeFloat x
  | .bool b => if b then "true" else "false"
  | _ => "null"

/-- How items are set apart: what follows an opening bracket or a comma, and
what precedes a closing bracket, at a given depth. -/
structure Layout where
  indent : Option String

namespace Layout

/-- The line break in front of an item, if lines are broken. -/
def newline (l : Layout) (depth : Nat) : String :=
  match l.indent with
  | none => ""
  | some unit => "\n" ++ String.join (List.replicate depth unit)

/-- What stands between two items. -/
def comma (l : Layout) (depth : Nat) : String :=
  match l.indent with
  | none => ", "
  | some _ => "," ++ l.newline depth

end Layout

/-- Items between brackets; without items the brackets stand side by side. -/
def enclosed (l : Layout) (depth : Nat) (opener closer : String) (items : List String) : String :=
  if items.isEmpty then opener ++ closer
  else opener ++ l.newline (depth + 1) ++ (l.comma (depth + 1)).intercalate items ++
    l.newline depth ++ closer

mutual

/-- A value at a depth of nesting. -/
def writeAt (l : Layout) (depth : Nat) : Value → String
  | .null => "null"
  | .bool b => if b then "true" else "false"
  | .int n => toString n
  | .float x => writeFloat x
  | .str s => writeString s
  | .list vs => enclosed l depth "[" "]" (writeItems l (depth + 1) vs)
  | .mapping es => enclosed l depth "\x7b" "\x7d" (writeMembers l (depth + 1) es)

/-- The items of a list. -/
def writeItems (l : Layout) (depth : Nat) : List Value → List String
  | [] => []
  | v :: vs => writeAt l depth v :: writeItems l depth vs

/-- The entries of a mapping. -/
def writeMembers (l : Layout) (depth : Nat) : List (Value × Value) → List String
  | [] => []
  | (k, v) :: es =>
      (writeString (keyText k) ++ ": " ++ writeAt l depth v) :: writeMembers l depth es

end

/-- The text of a value, on one line or with the given indentation. -/
def write (indent : Option String) (v : Value) : String := writeAt ⟨indent⟩ 0 v

end Json

end SpatialDiagram
