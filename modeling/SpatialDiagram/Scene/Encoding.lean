import SpatialDiagram.Json.Writer
import SpatialDiagram.Scene.Structure

/-!
# Graphs as values

The record form of a graph and its parts. Absent descriptions, faces, anchors
and labels have no field; box, faces and bounds are written for the reader's
convenience although they follow from the rest.
-/

namespace SpatialDiagram

namespace Vec

/-- The record form of a vector. -/
def toValue (v : Vec Float) : Value :=
  .record [("x", .float v.x), ("y", .float v.y), ("z", .float v.z)]

end Vec

namespace Transform

/-- The record form of a transform. -/
def toValue (t : Transform Float) : Value :=
  .record [("position", t.position.toValue), ("rotation", t.rotation.toValue),
    ("scale", t.scale.toValue)]

end Transform

namespace Box

/-- The record form of a box. -/
def toValue (b : Box Float) : Value :=
  .record [("min", b.min.toValue), ("max", b.max.toValue), ("center", b.center.toValue),
    ("size", b.size.toValue)]

end Box

namespace Face

/-- The record form of a face. -/
def toValue (f : Face Float) : Value :=
  .record [("id", .str f.id), ("normal", f.normal.toValue), ("center", f.center.toValue),
    ("vertices", .list (f.vertices.map Vec.toValue))]

end Face

/-- A field for a value that is not null. -/
def presentField (name : String) (v : Value) : List (String × Value) :=
  if v = .null then [] else [(name, v)]

namespace NodeStyle

/-- The record form of the style of a node. -/
def toValue (s : NodeStyle) : Value :=
  .record [("color", s.color), ("opacity", s.opacity.toValue), ("wireframe", .bool s.wireframe)]

end NodeStyle

namespace Node

/-- The record form of a node, with the faces and the box that follow from its transform. -/
def toValue (n : Node) : Value :=
  .record ([("id", n.id), ("type", .str n.category.name), ("name", n.name),
    ("geometry", .str n.shape.name), ("transform", n.transform.toValue),
    ("boundingBox", n.box.toValue), ("faces", .list (n.faces.map Face.toValue)),
    ("visual", n.style.toValue), ("metadata", .mapping n.annotations.entries),
    ("children", .list n.children), ("parents", .list n.parents)] ++
    presentField "description" n.description)

end Node

namespace Terminal

/-- The record form of the end of a connection; an anchor that is not there is left out. -/
def toValue (t : Terminal) : Value :=
  .record ([("nodeId", t.node)] ++ presentField "faceId" t.face ++
    match t.anchor with
    | some p => [("anchor", p.toValue)]
    | none => [])

end Terminal

namespace Label

/-- The record form of a label. -/
def toValue (l : Label) : Value :=
  .record [("text", l.text), ("size", l.size), ("color", l.color), ("position", l.position.toValue)]

end Label

namespace ConnectionStyle

/-- The record form of the style of a connection. -/
def toValue (s : ConnectionStyle) : Value :=
  .record ([("color", s.color), ("opacity", .float s.opacity)] ++
    match s.label with
    | some l => [("label", l.toValue)]
    | none => [])

end ConnectionStyle

namespace Connection

/-- The record form of a connection. -/
def toValue (c : Connection) : Value :=
  .record [("id", c.id), ("type", .str c.category.name), ("source", c.source.toValue),
    ("target", c.target.toValue), ("visual", c.style.toValue),
    ("metadata", .mapping c.annotations.entries),
    ("waypoints", .list (c.waypoints.map Vec.toValue))]

end Connection

namespace Graph

/-- The record form of a graph. -/
def toValue (g : Graph) : Value :=
  .record ([("id", g.id), ("name", g.name), ("nodes", .list (g.nodes.map Node.toValue)),
    ("connections", .list (g.connections.map Connection.toValue)),
    ("metadata", .mapping g.annotations.entries), ("bounds", g.bounds.toValue)] ++
    presentField "description" g.description)

/-- The JSON text of a graph. -/
def toJson (g : Graph) (indent : Option String) : String := Json.write indent g.toValue

end Graph

end SpatialDiagram
