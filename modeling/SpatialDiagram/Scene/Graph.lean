import SpatialDiagram.Scene.Connection
import SpatialDiagram.Trace

/-!
# Graphs

A graph holds nodes and connections under their names, in the order in which
the names first came. Connecting two nodes enters each in the other's list;
the entries go when the last connection between the two is removed or one of
the nodes is.
-/

namespace SpatialDiagram

/-- Nodes and the connections between them, each under a name of its own. -/
structure Graph where
  id : Value
  name : Value
  description : Value := .null
  nodes : List Node := []
  connections : List Connection := []
  annotations : Annotations := .empty
deriving DecidableEq, Repr

namespace Graph

/-- The logger that changes of a graph write to. -/
def graphLogger : String := "ast3d_core.model.graph"

/-- The node of a name. -/
def node? (g : Graph) (id : Value) : Option Node := Keyed.find? Node.id id g.nodes

/-- The connection of a name. -/
def connection? (g : Graph) (id : Value) : Option Connection :=
  Keyed.find? Connection.id id g.connections

/-- The names of the nodes in their order. -/
def nodeIds (g : Graph) : List Value := g.nodes.map Node.id

/-- Changes the node of a name, if there is one. -/
def modifyNode (g : Graph) (id : Value) (f : Node → Node) : Graph :=
  { g with nodes := Keyed.modify Node.id id f g.nodes }

/-- Changes the connection of a name, if there is one. -/
def modifyConnection (g : Graph) (id : Value) (f : Connection → Connection) : Graph :=
  { g with connections := Keyed.modify Connection.id id f g.connections }

/-! ## Nodes -/

/-- A node that takes the place of another one also takes over its entries. -/
def inherit (n previous : Node) : Node :=
  { n with
    children := previous.children.foldl (fun xs x => addOnce x xs) n.children
    parents := previous.parents.foldl (fun xs x => addOnce x xs) n.parents }

/-- Adds a node, or puts it in the place of the node of the same name. -/
def addNode (g : Graph) (n : Node) : Graph :=
  let n := match g.node? n.id with
    | some previous => inherit n previous
    | none => n
  { g with nodes := Keyed.put Node.id n g.nodes }

/-- Removes a node, the connections that touch it, and the entries of it at its neighbours. -/
def removeNode (g : Graph) (id : Value) : Graph :=
  match g.node? id with
  | none => g
  | some n =>
      let unlinked := g.nodes.map fun m =>
        let m := if m.id ∈ n.parents then m.removeChild id else m
        if m.id ∈ n.children then m.removeParent id else m
      { g with
        nodes := Keyed.erase Node.id id unlinked
        connections := g.connections.filter fun c => !c.touches id }

/-- The nodes of a category. -/
def nodesOfCategory (g : Graph) (category : String) : List Node :=
  g.nodes.filter fun n => n.category.name = category

/-- The nodes without parents. -/
def roots (g : Graph) : List Node := g.nodes.filter fun n => n.parents.isEmpty

/-- The nodes without children. -/
def leaves (g : Graph) : List Node := g.nodes.filter fun n => n.children.isEmpty

/-! ## Anchors -/

/-- The face that an end names, if its node has it. -/
def face? (g : Graph) (t : Terminal) : Option (Face Float) :=
  (g.node? t.node).bind fun n => if t.face = .null then none else n.face? t.face

/-- The centre of the face that an end names, or else the centre of its node. -/
def anchor? (g : Graph) (t : Terminal) : Option (Vec Float) :=
  (g.node? t.node).map fun n => ((g.face? t).map Face.center).getD n.position

/-- An end with its anchor computed anew, if its node is known. -/
def anchored (g : Graph) (t : Terminal) : Terminal :=
  match g.anchor? t with
  | some p => { t with anchor := some p }
  | none => t

/-- Computes the anchors of all connections anew. -/
def refreshAnchors (g : Graph) : Graph :=
  { g with connections := g.connections.map fun c =>
      { c with source := g.anchored c.source, target := g.anchored c.target } }

/-! ## Connections -/

/-- Enters two nodes in each other's lists. -/
def link (g : Graph) (source target : Value) : Graph :=
  (g.modifyNode source (·.addChild target)).modifyNode target (·.addParent source)

/-- Removes two nodes from each other's lists. -/
def unlink (g : Graph) (source target : Value) : Graph :=
  (g.modifyNode source (·.removeChild target)).modifyNode target (·.removeParent source)

/-- The nodes of a connection that the graph does not have. -/
def missing (g : Graph) (c : Connection) : List Value :=
  [c.source.node, c.target.node].filter fun id => (g.node? id).isNone

/-- Adds a connection between two nodes of the graph, or puts it in the place of the one of the
same name. -/
def connect (g : Graph) (c : Connection) (anchors : Bool) : Except Failure Graph :=
  match g.missing c with
  | [] =>
      let c := if anchors then
        { c with source := g.anchored c.source, target := g.anchored c.target } else c
      let linked := g.link c.source.node c.target.node
      .ok { linked with connections := Keyed.put Connection.id c linked.connections }
  | missing => .error (.diagnosed (.unknownNodes c.id missing))

/-- Removes a connection. Its nodes stay in each other's lists while another connection joins
them in the same direction. -/
def disconnect (g : Graph) (id : Value) : Graph :=
  match g.connection? id with
  | none => g
  | some c =>
      let rest := { g with connections := Keyed.erase Connection.id id g.connections }
      if rest.connections.any fun d => d.joins c.source.node c.target.node then rest
      else rest.unlink c.source.node c.target.node

/-- The connections of a category. -/
def connectionsOfCategory (g : Graph) (category : String) : List Connection :=
  g.connections.filter fun c => c.category.name = category

/-- The connections that begin or end at a node. -/
def connectionsAt (g : Graph) (id : Value) : List Connection :=
  g.connections.filter fun c => c.touches id

/-! ## Operations that are logged -/

/-- Adds a node and logs that it replaces another one. -/
def addNodeLogged (g : Graph) (n : Node) : Trace Graph := do
  if (g.node? n.id).isSome then
    Trace.log .debug graphLogger ("Replacing existing node '" ++ n.id.display ++ "'.")
  return g.addNode n

/-- Removes a node and logs it. -/
def removeNodeLogged (g : Graph) (id : Value) : Trace Graph := do
  if (g.node? id).isSome then
    Trace.log .debug graphLogger ("Removed node '" ++ id.display ++ "'.")
  return g.removeNode id

/-- The graph on one line. -/
def summary (g : Graph) : String :=
  "Graph(id=" ++ g.id.written ++ ", name=" ++ g.name.written ++ ", nodes=" ++
    toString g.nodes.length ++ ", connections=" ++ toString g.connections.length ++ ")"

end Graph

end SpatialDiagram
