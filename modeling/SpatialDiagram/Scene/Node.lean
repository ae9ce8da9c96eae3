import SpatialDiagram.Category
import SpatialDiagram.Failure
import SpatialDiagram.Geometry.Face
import SpatialDiagram.Value.Display

/-!
# Nodes

A node is a solid at a place. Its box and its faces follow from its shape and
its transform and are computed anew by every operation that moves it. The lists
of children and parents record the direction of connections; neither takes an
entry twice.
-/

namespace SpatialDiagram

namespace Transform

/-- A transform whose scale no node can have is refused. -/
def checked (position rotation scale : Vec Float) : Except Failure (Transform Float) :=
  match make? position rotation scale with
  | some t => .ok t
  | none => .error (.diagnosed (.transform scale
      "Every scale component must be a positive, finite number."))

end Transform

/-- How a node is drawn. -/
structure NodeStyle where
  color : Value := .str neutralGray
  opacity : Number := .float 0.9
  wireframe : Bool := false
deriving DecidableEq, Repr

/-- What is known about a node besides its place among the others: extra entries by key. -/
abbrev Annotations := Table Value Value

/-- A node of a graph, with the names of the nodes that it is connected to. -/
structure Node where
  id : Value
  category : NodeCategory
  name : Value
  description : Value := .null
  shape : Shape
  style : NodeStyle
  annotations : Annotations := .empty
  children : List Value := []
  parents : List Value := []
  transform : Transform Float
  box : Box Float
  faces : List (Face Float)
deriving DecidableEq, Repr

/-- Appends an entry that the list does not hold yet. -/
def addOnce (x : Value) (xs : List Value) : List Value := if x ∈ xs then xs else xs ++ [x]

@[simp] theorem mem_addOnce (x y : Value) (xs : List Value) :
    y ∈ addOnce x xs ↔ y ∈ xs ∨ y = x := by
  by_cases h : x ∈ xs
  · simp only [addOnce, if_pos h]
    exact ⟨Or.inl, fun hy => hy.elim id fun he => he ▸ h⟩
  · simp [addOnce, if_neg h]

namespace Node

/-- A new node in the colour of its category, without connections. -/
def make (id : Value) (category : NodeCategory) (name : Value) (shape : Shape)
    (transform : Transform Float) : Node :=
  { id, category, name, shape, transform
    style := { color := .str category.color }
    box := .ofTransform transform
    faces := Face.generate shape transform }

/-- Where a node is. -/
def position (n : Node) : Vec Float := n.transform.position

/-- Moves a node; box and faces follow. -/
def place (n : Node) (t : Transform Float) : Node :=
  { n with transform := t, box := .ofTransform t, faces := Face.generate n.shape t }

/-- Moves a node; its box and its faces move along. -/
def setPosition (n : Node) (p : Vec Float) : Node := n.place { n.transform with position := p }

/-- Stretches a node to a scale that a node can have. -/
def setScale (n : Node) (s : Vec Float) : Except Failure Node :=
  (Transform.checked n.transform.position n.transform.rotation s).map n.place

/-- The face of a name. -/
def face? (n : Node) (id : Value) : Option (Face Float) := n.faces.find? fun f => .str f.id = id

/-- The centres of the faces. -/
def anchorPoints (n : Node) : List (Vec Float) := n.faces.map Face.center

/-- Enters a child that is not listed yet. -/
def addChild (n : Node) (id : Value) : Node := { n with children := addOnce id n.children }

/-- Enters a parent that is not listed yet. -/
def addParent (n : Node) (id : Value) : Node := { n with parents := addOnce id n.parents }

/-- Takes a child out of the list. -/
def removeChild (n : Node) (id : Value) : Node :=
  { n with children := n.children.filter (· ≠ id) }

/-- Takes a parent out of the list. -/
def removeParent (n : Node) (id : Value) : Node :=
  { n with parents := n.parents.filter (· ≠ id) }

/-- The node on one line. -/
def summary (n : Node) : String :=
  "Node(id=" ++ n.id.written ++ ", type=" ++ (Value.str n.category.name).written ++
    ", position=(" ++ ", ".intercalate (n.position.components.map floatText) ++ "))"

@[simp] theorem id_place (n : Node) (t : Transform Float) : (n.place t).id = n.id := rfl

@[simp] theorem id_setPosition (n : Node) (p : Vec Float) : (n.setPosition p).id = n.id := rfl

@[simp] theorem id_addChild (n : Node) (id : Value) : (n.addChild id).id = n.id := rfl

@[simp] theorem id_addParent (n : Node) (id : Value) : (n.addParent id).id = n.id := rfl

@[simp] theorem id_removeChild (n : Node) (id : Value) : (n.removeChild id).id = n.id := rfl

@[simp] theorem id_removeParent (n : Node) (id : Value) : (n.removeParent id).id = n.id := rfl

end Node

end SpatialDiagram
