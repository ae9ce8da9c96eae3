import SpatialDiagram.Geometry.Distance
import SpatialDiagram.Scene.Node

/-!
# Connections

A connection leads from one node to another, possibly through waypoints. Each
end may name a face and holds the anchor that was last computed for it; the
anchor does not follow the node when the node moves.
-/

namespace SpatialDiagram

/-- One end of a connection; a face that is null means the centre of the node. -/
structure Terminal where
  node : Value
  face : Value := .null
  anchor : Option (Vec Float) := none
deriving DecidableEq, Repr

/-- A text at a connection. -/
structure Label where
  text : Value
  size : Value := .int 12
  color : Value := .str "#FFFFFF"
  position : Vec Float := Vec.zero
deriving DecidableEq, Repr

/-- How a connection is drawn. -/
structure ConnectionStyle where
  color : Value := .str neutralGray
  opacity : Float := 0.8
  label : Option Label := none
deriving DecidableEq, Repr

/-- A connection between two nodes. -/
structure Connection where
  id : Value
  category : ConnectionCategory
  source : Terminal
  target : Terminal
  style : ConnectionStyle
  annotations : Annotations := .empty
  waypoints : List (Vec Float) := []
deriving DecidableEq, Repr

namespace Connection

/-- A new connection in the colour of its category, without waypoints. -/
def make (id : Value) (category : ConnectionCategory) (source target : Terminal) : Connection :=
  { id, category, source, target, style := { color := .str category.color } }

/-- The text of the label, or null. -/
def labelText (c : Connection) : Value := (c.style.label.map Label.text).getD .null

/-- Whether the connection leads from one given node to another. -/
def joins (c : Connection) (source target : Value) : Bool :=
  c.source.node = source && c.target.node = target

/-- Whether a node is an end of the connection. -/
def touches (c : Connection) (node : Value) : Bool := c.source.node = node || c.target.node = node

/-- Adds a point that the connection passes, behind the others. -/
def addWaypoint (c : Connection) (p : Vec Float) : Connection :=
  { c with waypoints := c.waypoints ++ [p] }

/-- Puts the ends of the connection at two points. -/
def setAnchors (c : Connection) (source target : Vec Float) : Connection :=
  { c with source.anchor := some source, target.anchor := some target }

/-- The anchors that are known, with the waypoints between them. -/
def path (c : Connection) : List (Vec Float) :=
  c.source.anchor.toList ++ c.waypoints ++ c.target.anchor.toList

/-- The length of the path; zero without an anchor at the source. -/
def pathLength (c : Connection) : Except Failure Float :=
  if c.source.anchor.isNone then .ok 0.0
  else
    match Vec.pathLength? c.path with
    | some l => .ok l
    | none => .error .tooLarge

/-- The box around the path. -/
def box (c : Connection) : Box Float := Box.enclosing (c.path.map Box.ofPoint)

/-- Whether the boxes of two paths overlap; a path of fewer than two points has no extent. -/
def overlaps (c d : Connection) : Bool :=
  2 ≤ c.path.length && 2 ≤ d.path.length && c.box.intersects d.box 0.0

/-- The connection on one line. -/
def summary (c : Connection) : String :=
  "Connection(id=" ++ c.id.written ++ ", " ++ c.source.node.written ++ " -> " ++
    c.target.node.written ++ ", type=" ++ (Value.str c.category.name).written ++ ")"

end Connection

end SpatialDiagram
