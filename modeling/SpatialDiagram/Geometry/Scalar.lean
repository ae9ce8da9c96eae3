/-!
# Scalars

Boxes, faces and the grid and layer layouts use nothing of their numbers but
the four operations, whole-number constants and a comparison, so they are
stated over any type that has these. The running program takes floating-point
numbers.
-/

namespace SpatialDiagram

/-- What the geometry asks of its numbers, which are floating-point or exact ones. -/
class Scalar (α : Type) extends Add α, Sub α, Mul α, Div α where
  ofInt : Int → α
  less : α → α → Bool

instance : Scalar Float where
  ofInt := Float.ofInt
  less a b := a < b

namespace Scalar

variable {α : Type} [Scalar α]

/-- The number zero. -/
def zero : α := ofInt 0

/-- The number one. -/
def one : α := ofInt 1

/-- The number two. -/
def two : α := ofInt 2

/-- The greater of two numbers, the first one unless it is less. -/
def max (a b : α) : α := if less a b then b else a

end Scalar

end SpatialDiagram
