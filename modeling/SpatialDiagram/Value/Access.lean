import SpatialDiagram.Decimal.Reading
import SpatialDiagram.Failure

/-!
# Taking values apart

Reading a document asks a value for a field, a number, a sequence or a mapping.
Each question says what it accepts and which failure it gives otherwise.
-/

namespace SpatialDiagram

namespace Value

/-- A field that a mapping must have. -/
def require (v : Value) (name : String) : Except Failure Value :=
  match v with
  | mapping entries =>
      match entries.lookup (str name) with
      | some x => .ok x
      | none => .error (.missingKey (str name))
  | _ => .error .wrongType

/-- A field that a mapping may lack. -/
def optional (v : Value) (name : String) (default : Value) : Except Failure Value :=
  match v with
  | mapping entries => .ok ((entries.lookup (str name)).getD default)
  | v => .error (.noField v.typeName "get")

/-- A number, a truth value or a text that spells a number. -/
def asFloat : Value → Except Failure Float
  | int n =>
      match Number.intToFloat? n with
      | some x => .ok x
      | none => .error .tooLarge
  | bool b => .ok (if b then 1.0 else 0.0)
  | float x => .ok x
  | str s =>
      match Decimal.readFloat? s.toList with
      | some x => .ok x
      | none => .error (.notNumeric s)
  | _ => .error .wrongType

/-- The items of a list, the keys of a mapping or the characters of a text. -/
def asItems : Value → Except Failure (List Value)
  | list items => .ok items
  | mapping entries => .ok (entries.map Prod.fst)
  | str s => .ok (s.toList.map fun c => str (String.singleton c))
  | _ => .error .wrongType

/-- Fills a table from items, each of which has to be a pair of a scalar key and a value. -/
def putPairs (t : Table Value Value) (index : Nat) : List Value → Except Failure (Table Value Value)
  | [] => .ok t
  | item :: rest => do
      match ← asItems item with
      | [k, v] => if k.isScalar then putPairs (t.put k v) (index + 1) rest else .error .wrongType
      | other => .error (.entryLength index other.length)

/-- A mapping, or a sequence of pairs. -/
def asTable : Value → Except Failure (Table Value Value)
  | mapping entries => .ok ⟨entries⟩
  | v => do putPairs .empty 0 (← asItems v)

/-- A value that can be a key. -/
def asKey (v : Value) : Except Failure Value := if v.isScalar then .ok v else .error .wrongType

/-- A required entry is looked up by its name, and its absence is reported by its name. -/
theorem require_mapping (entries : List (Value × Value)) (name : String) :
    (mapping entries).require name =
      match entries.lookup (str name) with
      | some x => .ok x
      | none => .error (.missingKey (str name)) := rfl

end Value

end SpatialDiagram
