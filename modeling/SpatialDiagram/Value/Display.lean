import SpatialDiagram.Decimal.Shortest
import SpatialDiagram.Text.Quoted
import SpatialDiagram.Value.Basic

/-!
# Values in messages

A message shows a text as it is and any other value in its written form: texts
inside collections are quoted, items are separated by a comma and a blank, and
an entry joins its key and value by a colon.
-/

namespace SpatialDiagram

/-- How numbers without digits are shown. -/
def floatNames : Decimal.Names := ⟨"nan", "inf"⟩

/-- The shortest text of a floating-point number in a message. -/
def floatText (x : Float) : String := Decimal.text floatNames x

namespace Value

mutual

/-- The written form of a value. -/
def written : Value → String
  | null => "None"
  | bool b => if b then "True" else "False"
  | int n => toString n
  | float x => floatText x
  | str s => Text.quoted s
  | list items => "[" ++ ", ".intercalate (writtenItems items) ++ "]"
  | mapping entries => "\x7b" ++ ", ".intercalate (writtenEntries entries) ++ "\x7d"

/-- The items of a list as they are shown inside it. -/
def writtenItems : List Value → List String
  | [] => []
  | v :: vs => written v :: writtenItems vs

/-- The entries of a mapping as they are shown inside it. -/
def writtenEntries : List (Value × Value) → List String
  | [] => []
  | (k, v) :: es => (written k ++ ": " ++ written v) :: writtenEntries es

end

/-- A value as a message shows it. -/
def display : Value → String
  | str s => s
  | v => written v

@[simp] theorem display_str (s : String) : (str s).display = s := rfl

end Value

end SpatialDiagram
