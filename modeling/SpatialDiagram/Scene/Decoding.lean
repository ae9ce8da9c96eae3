import SpatialDiagram.Scene.Encoding
import SpatialDiagram.Value.Access

/-!
# Graphs from values

Reads the record form back. Missing optional fields take their defaults; box,
faces and bounds are computed anew, and connections enter their nodes in each
other's lists once more. Fields are read in a fixed order, so that of several
faults the first one in that order is reported.
-/

namespace SpatialDiagram

namespace Vec

/-- Reads a vector from its three fields. -/
def ofValue (v : Value) : Except Failure (Vec Float) := do
  let x ← (← v.require "x").asFloat
  let y ← (← v.require "y").asFloat
  let z ← (← v.require "z").asFloat
  return ⟨x, y, z⟩

end Vec

namespace Transform

/-- Reads a transform, whose scale has to be one that a node can have. -/
def ofValue (v : Value) : Except Failure (Transform Float) := do
  let position ← Vec.ofValue (← v.require "position")
  let rotation ← Vec.ofValue (← v.require "rotation")
  let scale ← Vec.ofValue (← v.require "scale")
  checked position rotation scale

end Transform

/-- A member of a family of names, which only a text can be. -/
def memberOf {α : Type} (family : String) (ofName? : String → Option α) (v : Value) :
    Except Failure α :=
  let found := match v with
    | .str s => ofName? s
    | _ => none
  match found with
  | some x => .ok x
  | none => .error (.notMember v family)

namespace NodeCategory

/-- Reads the category of a node by its name. -/
def ofValue (v : Value) : Except Failure NodeCategory := memberOf "NodeType" ofName? v

end NodeCategory

namespace ConnectionCategory

/-- Reads the category of a connection by its name. -/
def ofValue (v : Value) : Except Failure ConnectionCategory :=
  memberOf "ConnectionType" ofName? v

end ConnectionCategory

namespace Shape

/-- Reads a shape by its name. -/
def ofValue (v : Value) : Except Failure Shape := memberOf "GeometryClass" ofName? v

end Shape

/-- The record without fields. -/
def emptyRecord : Value := .mapping []

namespace NodeStyle

/-- Reads the style of a node, with defaults for what is missing. -/
def ofValue (v : Value) : Except Failure NodeStyle := do
  let color ← v.optional "color" (.str neutralGray)
  let opacity ← (← v.optional "opacity" (.float 0.9)).asFloat
  let wireframe ← v.optional "wireframe" (.bool false)
  return { color, opacity := .float opacity, wireframe := wireframe.isPresent }

end NodeStyle

namespace Node

/-- Reads a node; its box and its faces follow from its transform. -/
def ofValue (v : Value) : Except Failure Node := do
  let id ← v.require "id"
  let category ← NodeCategory.ofValue (← v.require "type")
  let name ← v.require "name"
  let shape ← Shape.ofValue (← v.require "geometry")
  let transform ← Transform.ofValue (← v.require "transform")
  let description ← v.optional "description" .null
  let style ← NodeStyle.ofValue (← v.optional "visual" emptyRecord)
  let annotations ← (← v.optional "metadata" emptyRecord).asTable
  let children ← (← v.optional "children" (.list [])).asItems
  let parents ← (← v.optional "parents" (.list [])).asItems
  return { make id category name shape transform with
    description, style, annotations, children, parents }

end Node

namespace Terminal

/-- Reads the end of a connection. -/
def ofValue (v : Value) : Except Failure Terminal := do
  let anchor ← v.optional "anchor" .null
  let node ← v.require "nodeId"
  let face ← v.optional "faceId" .null
  if anchor = .null then return { node, face }
  else return { node, face, anchor := some (← Vec.ofValue anchor) }

end Terminal

namespace Label

/-- Reads a label, with defaults for all but its text. -/
def ofValue (v : Value) : Except Failure Label := do
  let position ← v.optional "position" .null
  let text ← v.require "text"
  let size ← v.optional "size" (.int 12)
  let color ← v.optional "color" (.str "#FFFFFF")
  let position ← if position.isPresent then Vec.ofValue position else pure Vec.zero
  return { text, size, color, position }

end Label

namespace ConnectionStyle

/-- Reads the style of a connection, with defaults for what is missing. -/
def ofValue (v : Value) : Except Failure ConnectionStyle := do
  let label ← v.optional "label" .null
  let color ← v.optional "color" (.str neutralGray)
  let opacity ← (← v.optional "opacity" (.float 0.8)).asFloat
  if label.isPresent then return { color, opacity, label := some (← Label.ofValue label) }
  else return { color, opacity }

end ConnectionStyle

namespace Connection

/-- Reads a connection. -/
def ofValue (v : Value) : Except Failure Connection := do
  let id ← v.require "id"
  let category ← ConnectionCategory.ofValue (← v.require "type")
  let source ← Terminal.ofValue (← v.require "source")
  let target ← Terminal.ofValue (← v.require "target")
  let style ← ConnectionStyle.ofValue (← v.optional "visual" emptyRecord)
  let annotations ← (← v.optional "metadata" emptyRecord).asTable
  let waypoints ← (← (← v.optional "waypoints" (.list [])).asItems).mapM Vec.ofValue
  return { id, category, source, target, style, annotations, waypoints }

end Connection

namespace Graph

/-- Reads a node and adds it. -/
def readNode (g : Graph) (v : Value) : Trace Graph := do
  let n ← .ofResult (Node.ofValue v)
  let _ ← .ofResult n.id.asKey
  g.addNodeLogged n

/-- Reads a connection and adds it with the anchors it has. -/
def readConnection (g : Graph) (v : Value) : Trace Graph :=
  .ofResult do
    let c ← Connection.ofValue v
    let _ ← c.source.node.asKey
    let _ ← c.target.node.asKey
    let connected ← g.connect c false
    let _ ← c.id.asKey
    return connected

/-- Reads a graph: first all its nodes, then all its connections. -/
def ofValue (v : Value) : Trace Graph := do
  let id ← .ofResult (v.require "id")
  let name ← .ofResult (v.require "name")
  let description ← .ofResult (v.optional "description" .null)
  let nodes ← .ofResult (v.optional "nodes" (.list []) >>= Value.asItems)
  let g ← nodes.foldlM readNode { id, name, description }
  let connections ← .ofResult (v.optional "connections" (.list []) >>= Value.asItems)
  let g ← connections.foldlM readConnection g
  let annotations ← .ofResult (v.optional "metadata" emptyRecord >>= Value.asTable)
  return { g with annotations }

end Graph

/-- The value of a JSON text; a malformed text is a failure that says where. -/
def parseJson (text : String) : Except Failure Value :=
  match Json.read text.toList with
  | .ok v => .ok v
  | .error (.digits n) => .error (.digitLimit n)
  | .error (.malformed e left) => .error (.json (Json.located text.toList e left))

/-- The graph of a JSON text. -/
def Graph.ofJson (text : String) : Trace Graph := do
  Graph.ofValue (← .ofResult (parseJson text))

end SpatialDiagram
