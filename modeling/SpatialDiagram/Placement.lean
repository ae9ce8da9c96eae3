import SpatialDiagram.Decimal.Reading
import SpatialDiagram.Failure
import SpatialDiagram.Geometry.Transform

/-!
# Placement properties

A scale is one positive number for all axes or three of them; a position is
three numbers. Both may be given as numbers in a list or as text with commas.
Values that cannot be read so count as unreadable; only an integer beyond all
floating-point numbers is a failure.
-/

namespace SpatialDiagram

namespace Placement

/-- The floating-point number nearest to a number. -/
def toFloat (n : Number) : Except Failure Float :=
  match n.toFloat? with
  | some x => .ok x
  | none => .error .tooLarge

/-- The pieces of a text between its commas. -/
def pieces (cs : List Char) : List (List Char) :=
  cs.foldr (fun c ps => if c = ',' then [] :: ps else (c :: ps.headD []) :: ps.tail) [[]]

/-- The numbers that a value lists, unless it lists something else. -/
def components? : Value → Except Failure (Option (List Float))
  | .list items =>
      match items.mapM Number.ofValue? with
      | none => .ok none
      | some ns => (ns.mapM toFloat).map some
  | .str s => .ok ((pieces s.toList).mapM Decimal.readFloat?)
  | v =>
      match Number.ofValue? v with
      | none => .ok none
      | some n => (toFloat n).map fun x => some [x]

/-- Reads a scale, every component of which has to be positive and finite. -/
def scale? (v : Value) : Except Failure (Option (Vec Float)) := do
  let read : Option (Vec Float) := match ← components? v with
    | some [s] => some ⟨s, s, s⟩
    | some [x, y, z] => some ⟨x, y, z⟩
    | _ => none
  return read.filter Transform.isUsable

/-- Reads a position, every component of which has to be finite. -/
def position? (v : Value) : Except Failure (Option (Vec Float)) := do
  let read : Option (Vec Float) := match ← components? v with
    | some [x, y, z] => some ⟨x, y, z⟩
    | _ => none
  return read.filter fun p => p.components.all Float.isFinite

end Placement

end SpatialDiagram
