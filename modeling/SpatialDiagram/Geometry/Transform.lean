import SpatialDiagram.Geometry.Vec

/-!
# Transforms and boxes

A transform places a node: its position, its rotation and its extent along each
axis. The extents have to be positive and finite; `Transform.make?` refuses all
others. A box is given by its two extreme corners, its centre and its size.
-/

namespace SpatialDiagram

/-- Where a node is, how it is turned and how far it is stretched. -/
structure Transform (α : Type) where
  position : Vec α
  rotation : Vec α
  scale : Vec α
deriving DecidableEq, Repr

/-- A box along the axes, with its centre and its size. -/
structure Box (α : Type) where
  min : Vec α
  max : Vec α
  center : Vec α
  size : Vec α
deriving DecidableEq, Repr

namespace Transform

variable {α : Type} [Scalar α]

/-- At the origin, unrotated, with extent one along each axis. -/
def unit : Transform α := ⟨Vec.zero, Vec.zero, Vec.one⟩

/-- A scale along each axis that a node can have. -/
def isUsable (scale : Vec Float) : Bool := scale.components.all fun c => c.isFinite && 0.0 < c

/-- A transform with a scale that a node can have. -/
def make? (position rotation scale : Vec Float) : Option (Transform Float) :=
  if isUsable scale then some ⟨position, rotation, scale⟩ else none

/-- A transform is made exactly of a usable scale, and keeps what it was given. -/
theorem make_eq_some_iff (position rotation scale : Vec Float) (t : Transform Float) :
    make? position rotation scale = some t ↔
      isUsable scale = true ∧ t = ⟨position, rotation, scale⟩ := by
  by_cases h : isUsable scale = true <;> simp [make?, h, eq_comm]

end Transform

namespace Box

variable {α : Type} [Scalar α]

/-- The box of a node before it has a transform. -/
def empty : Box α := ⟨Vec.zero, Vec.zero, Vec.zero, Vec.zero⟩

/-- Centred on the position and half the scale wide to each side. -/
def ofTransform (t : Transform α) : Box α :=
  { min := t.position - t.scale.half
    max := t.position + t.scale.half
    center := t.position
    size := t.scale }

/-- The box that holds one point. -/
def ofPoint (p : Vec α) : Box α := ⟨p, p, p, Vec.zero⟩

/-- The lesser number; a NaN wins over every number. -/
def lower (a b : Float) : Float := if a.isNaN then a else if b.isNaN || b < a then b else a

/-- The greater number; a NaN wins over every number. -/
def upper (a b : Float) : Float := if a.isNaN then a else if b.isNaN || a < b then b else a

/-- The smallest box around all of the boxes; the empty box around none. -/
def enclosing : List (Box Float) → Box Float
  | [] => empty
  | b :: bs =>
      let low := bs.foldl (fun v c => v.zip lower c.min) b.min
      let high := bs.foldl (fun v c => v.zip upper c.max) b.max
      { min := low, max := high, center := (low + high).half, size := high - low }

/-- Whether two boxes, each widened by a margin on every side, have a point in common. -/
def intersects (a b : Box Float) (margin : Float) : Bool :=
  let out (v : Vec Float) := v.map (· + margin)
  let into (v : Vec Float) := v.map (· - margin)
  (((into a.min).zip (fun l h => decide (l ≤ h)) (out b.max)).components.all id) &&
    (((out a.max).zip (fun h l => decide (l ≤ h)) (into b.min)).components.all id)

end Box

end SpatialDiagram
