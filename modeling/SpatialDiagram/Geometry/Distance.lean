import SpatialDiagram.Geometry.Power
import SpatialDiagram.Geometry.Vec

/-!
# Distances

The distance of two points is the root of the sum of the squared differences.
It does not exist when the square of a finite difference is beyond all
floating-point numbers.
-/

namespace SpatialDiagram

/-- The square of a number, unless it overflows. -/
def square? (d : Float) : Option Float :=
  let s := power d 2.0
  if s.isInf && d.isFinite then none else some s

namespace Vec

/-- Whether all components are zero. -/
def isOrigin (v : Vec Float) : Bool := v.x == 0.0 && v.y == 0.0 && v.z == 0.0

/-- Component by component, with `0.0` equal to `-0.0` and nothing equal to a NaN. -/
def sameNumbers (v w : Vec Float) : Bool := v.x == w.x && v.y == w.y && v.z == w.z

/-- The distance of two points, unless a square on the way is too large. -/
def distance? (v w : Vec Float) : Option Float := do
  let dx ← square? (w.x - v.x)
  let dy ← square? (w.y - v.y)
  let dz ← square? (w.z - v.z)
  some (dx + dy + dz).sqrt

/-- The length of a path through the points in turn. -/
def pathLength? : List (Vec Float) → Option Float
  | v :: w :: rest => go 0.0 v (w :: rest)
  | _ => some 0.0
where
  go (sum : Float) (v : Vec Float) : List (Vec Float) → Option Float
    | [] => some sum
    | w :: rest => do
        let d ← v.distance? w
        go (sum + d) w rest

end Vec

end SpatialDiagram
