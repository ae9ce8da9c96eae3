import SpatialDiagram.Geometry.Transform

/-!
# Faces

A node offers named faces to which connections attach. A box has six, a plate
has one, and the many-faced solid has twelve, spread evenly around a circle in
the plane of the first two axes. Centres and corners are absolute, so the list
is computed anew whenever the transform changes.
-/

namespace SpatialDiagram

/-- The family of solids a node is drawn as. -/
inductive Shape where
  | box
  | manyFaced
  | plate
deriving DecidableEq, Repr

namespace Shape

/-- The shapes in the order in which they are defined. -/
def all : List Shape := [box, manyFaced, plate]

/-- The name under which a shape is stored. -/
def name : Shape → String
  | box => "cube"
  | manyFaced => "dodecahedron"
  | plate => "plane"

/-- The shape that is stored under a name. -/
def ofName? (s : String) : Option Shape := all.find? fun k => k.name = s

/-- Every shape is found by its own name. -/
theorem ofName_name (k : Shape) : ofName? k.name = some k := by cases k <;> decide

end Shape

/-- A face of a node: a polygon with its centre and the direction it looks in. -/
structure Face (α : Type) where
  id : String
  normal : Vec α
  center : Vec α
  vertices : List (Vec α)
deriving DecidableEq, Repr

namespace Face

variable {α : Type} [Scalar α]

/-- The corners of a square in the order in which a face lists them. -/
def corners : List (α × α) :=
  let m : α := Scalar.ofInt (-1)
  let p : α := Scalar.one
  [(m, m), (p, m), (p, p), (m, p)]

/-- The rectangle around a centre, spanned by two axes; `flip` reverses its winding. -/
def quad (center half : Vec α) (u v : Axis) (flip : Bool) : List (Vec α) :=
  (if flip then corners.reverse else corners).map fun c =>
    (center.modify u (· + c.1 * half.get u)).modify v (· + c.2 * half.get v)

/-- The face of a box that looks along an axis, forwards or backwards. -/
def ofBox (t : Transform α) (id : String) (axis : Axis) (forward : Bool) : Face α :=
  let half := t.scale.half
  let normal := Vec.along axis (Scalar.ofInt (if forward then 1 else -1))
  let center := t.position + normal.mul half
  { id, normal, center
    vertices := quad center half axis.others.1 axis.others.2 (!forward) }

/-- The six faces of a box. -/
def boxFaces (t : Transform α) : List (Face α) :=
  [ofBox t "front" .z true, ofBox t "back" .z false,
   ofBox t "top" .y true, ofBox t "bottom" .y false,
   ofBox t "right" .x true, ofBox t "left" .x false]

/-- The one face of a plate lies in the plane of the first two axes through its centre. -/
def plateFaces (t : Transform α) : List (Face α) :=
  [{ id := "front"
     normal := Vec.along .z Scalar.one
     center := t.position
     vertices := quad t.position t.scale.half .x .y false }]

/-- The floating-point number nearest to a full turn. -/
def twoPi : Float := 6.283185307179586

/-- The number of faces of the many-faced solid. -/
def facets : Nat := 12

/-- The direction in which the faces of the many-faced solid look. -/
def facetNormal (i : Nat) : Vec Float :=
  let angle := Float.ofNat i * twoPi / Float.ofNat facets
  ⟨angle.cos, angle.sin, 0.0⟩

/-- The faces around a node with many of them, at equal angles. -/
def manyFacedFaces (t : Transform Float) : List (Face Float) :=
  let radius := Scalar.max (Scalar.max t.scale.x t.scale.y) t.scale.z / 2.0
  (List.range facets).map fun i =>
    { id := "face_" ++ toString i
      normal := facetNormal i
      center := t.position + (facetNormal i).scaled radius
      vertices := [] }

/-- The faces that a solid of the given family has under a transform. -/
def generate (shape : Shape) (t : Transform Float) : List (Face Float) :=
  match shape with
  | .box => boxFaces t
  | .manyFaced => manyFacedFaces t
  | .plate => plateFaces t

/-- The names of the faces of a family of solids. -/
def idsOf (shape : Shape) : List String := (generate shape Transform.unit).map Face.id

/-- The ids of the faces depend on the shape alone. -/
theorem ids_generate (shape : Shape) (t : Transform Float) :
    (generate shape t).map Face.id = idsOf shape := by
  cases shape <;> simp [idsOf, generate, boxFaces, plateFaces, manyFacedFaces, ofBox]

end Face

end SpatialDiagram
