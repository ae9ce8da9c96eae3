import SpatialDiagram.Layout.Algorithm
import SpatialDiagram.Layout.Arrangement
import SpatialDiagram.Layout.Forces
import SpatialDiagram.Scene.Graph

/-!
# Laying out a graph

A layout computes new positions for the nodes that are not pinned, and these
are moved; it changes nothing else. Only the layered layout looks at the lists
of children and parents, only the simulated one at connections and at the
places of pinned nodes.
-/

namespace SpatialDiagram

namespace Layout

/-- The logger that applying a layout writes to. -/
def registryLogger : String := "ast3d_core.layout.registry"

/-- The logger that the layered layout writes to. -/
def layersLogger : String := "ast3d_core.layout.hierarchical"

/-- The logger that the simulated layout writes to. -/
def forcesLogger : String := "ast3d_core.layout.force_directed"

/-- What a layout works on. -/
structure Context where
  graph : Graph
  pinned : List Value := []
  spacing : Float := 2.0

namespace Context

/-- The nodes that a layout may move. -/
def unpinned (c : Context) : List Node := c.graph.nodes.filter fun n => n.id ∉ c.pinned

/-- The names of the nodes that a layout may move. -/
def unpinnedIds (c : Context) : List Value := c.unpinned.map Node.id

/-- The spacing that is kept between nodes. -/
def clampedSpacing (c : Context) : Float := Arrangement.clamped c.spacing

end Context

/-- The nodes of a graph with their lists. -/
def membersOf (g : Graph) : List (Member Value) :=
  g.nodes.map fun n => { id := n.id, children := n.children, parents := n.parents }

/-- The layers of all nodes, with notes on cycles and on nodes that no root leads to. -/
def assignLayers (g : Graph) : Trace (Layering Value) := do
  let l := Layering.ofMembers (membersOf g)
  if l.capped then
    Trace.log .warning layersLogger
      "Hierarchical layering stopped at the layer cap; the graph contains a cycle."
  if !l.stranded.isEmpty then
    Trace.log .debug layersLogger
      (toString l.stranded.length ++ " node(s) unreachable from any root placed in layer " ++
        toString l.extraLayer ++ ".")
  return l

/-- New positions by name. -/
abbrev Positions := List (Value × Vec Float)

/-- The positions of the nodes in rows, one for each layer. -/
def layered (c : Context) : Trace Positions := do
  let l ← assignLayers c.graph
  return Arrangement.rows c.clampedSpacing l.layerOf c.graph.nodes.length c.unpinnedIds

/-- The body that a node is in the simulation. -/
def bodyOf (c : Context) (ids : List Value) (id : Value) : Forces.Body :=
  match ids.idxOf? id with
  | some i => .free i
  | none => .fixed (((c.graph.node? id).map Node.position).getD Vec.zero)

/-- The connections with at least one free end. -/
def pulls (c : Context) (ids : List Value) : List (Forces.Body × Forces.Body) :=
  (c.graph.connections.filter fun d => d.source.node ∈ ids || d.target.node ∈ ids).map fun d =>
    (bodyOf c ids d.source.node, bodyOf c ids d.target.node)

/-- The positions that forces between the nodes bring them to from a circle. -/
def simulated (c : Context) : Trace Positions :=
  let ids := c.unpinnedIds
  if ids.isEmpty then .done []
  else do
    let start := (Arrangement.circle c.spacing ids).map Prod.snd
    let places := Forces.settle (pulls c ids) start.toArray
    Trace.log .debug forcesLogger
      ("Force-directed layout finished after " ++ toString Forces.rounds ++ " iterations.")
    return ids.zip places.toList

/-- The positions that an algorithm finds for the nodes that are not pinned. -/
def positions (a : LayoutAlgorithm) (c : Context) : Trace Positions :=
  match a with
  | .hierarchical => layered c
  | .forceDirected => simulated c
  | .circular => .done (Arrangement.circle c.spacing c.unpinnedIds)
  | .grid => .done (Arrangement.grid c.clampedSpacing c.unpinnedIds)

/-- Moves nodes to new positions. -/
def moveAll (g : Graph) (ps : Positions) : Graph :=
  { g with nodes := g.nodes.map fun n =>
      match ps.lookup n.id with
      | some p => n.setPosition p
      | none => n }

/-- A layout of its own: the positions it finds for the nodes that are not pinned. -/
abbrev Rule := Context → Trace Positions

/-- The layout in use for each algorithm. -/
structure Registry where
  rule : LayoutAlgorithm → Rule

namespace Registry

/-- The layouts of the program under their own names. -/
def standard : Registry := ⟨positions⟩

/-- Puts a named layout in the place of the one in use, which is logged as a warning. -/
def register (r : Registry) (a : LayoutAlgorithm) (name : String) (rule : Rule) :
    Trace Registry := do
  Trace.log .warning registryLogger
    ("Layout '" ++ a.name ++ "' is being redefined by " ++ name ++ ".")
  return ⟨fun b => if b = a then rule else r.rule b⟩

end Registry

/-- The layout that leaves every node where it is. -/
def leaveAlone : Rule := fun _ => .done []

/-- Notes what is about to be laid out. -/
def announce (a : LayoutAlgorithm) (c : Context) : Trace Unit :=
  Trace.log .debug registryLogger
    ("Applying '" ++ a.name ++ "' layout to " ++ toString c.graph.nodes.length ++ " node(s), " ++
      toString c.pinned.length ++ " pinned.")

/-- Lays out a graph with the layout that is registered for an algorithm. -/
def applyWith (r : Registry) (a : LayoutAlgorithm) (c : Context) : Trace Graph := do
  announce a c
  let ps ← r.rule a c
  return moveAll c.graph ps

/-- Lays out a graph. -/
def apply (a : LayoutAlgorithm) (c : Context) : Trace Graph := applyWith .standard a c

end Layout

end SpatialDiagram
