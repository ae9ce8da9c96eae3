import SpatialDiagram.Geometry.Face
import SpatialDiagram.Layout.Layers

/-!
# Arrangements in rows

Both the layered layout and the grid place members side by side at equal
distances. A layer is a row along the first axis, centred on the second one, at
a height that grows by twice the spacing. The grid fills a square row by row in
the plane of the first and the third axis, centred on the origin.
-/

namespace SpatialDiagram

namespace Arrangement

variable {ι α : Type} [DecidableEq ι] [Scalar α]

/-- A natural number among the numbers of the geometry. -/
def ofNat (n : Nat) : α := Scalar.ofInt n

/-- The least spacing of rows and grids. -/
def leastSpacing : α := Scalar.ofInt 30

/-- A spacing that is at least the least one. -/
def clamped (spacing : α) : α := Scalar.max spacing leastSpacing

/-- One row: its members side by side in their order, centred on zero. -/
def row (spacing : α) (layer : Nat) (members : List ι) : List (ι × Vec α) :=
  let start := Scalar.ofInt (-((members.length : Int) - 1)) * spacing / Scalar.two
  members.zipIdx.map fun m =>
    (m.1, ⟨start + ofNat m.2 * spacing, ofNat layer * spacing * Scalar.two, Scalar.zero⟩)

/-- A row for each layer. -/
def rows (spacing : α) (layerOf : ι → Nat) (lowest : Nat) (members : List ι) :
    List (ι × Vec α) :=
  (List.range (lowest + 1)).flatMap fun l =>
    row spacing l (members.filter fun u => layerOf u = l)

/-- The least number of columns that make a square with room for all. -/
def side (count : Nat) : Nat :=
  ((List.range (count + 1)).find? fun s => count ≤ s * s).getD count

/-- The cells of a square in turn, row by row. -/
def grid (spacing : α) (members : List ι) : List (ι × Vec α) :=
  let columns := side members.length
  let offset := Scalar.ofInt ((columns : Int) - 1) * spacing / Scalar.two
  members.zipIdx.map fun m =>
    (m.1, ⟨ofNat (m.2 % columns) * spacing - offset, Scalar.zero,
      ofNat (m.2 / columns) * spacing - offset⟩)

/-- The radius of a circle on which neighbours are about one spacing apart. -/
def radius (spacing : Float) (count : Nat) : Float :=
  Scalar.max (spacing * Float.ofNat count / Face.twoPi) (spacing * 2.0)

/-- Points on a circle around the second axis at equal angles, from the first axis on. -/
def circle (spacing : Float) (members : List ι) : List (ι × Vec Float) :=
  let count := members.length
  let r := radius spacing count
  members.zipIdx.map fun m =>
    let angle := Float.ofNat m.2 * Face.twoPi / Float.ofNat count
    (m.1, ⟨angle.cos * r, 0.0, angle.sin * r⟩)

end Arrangement

end SpatialDiagram
