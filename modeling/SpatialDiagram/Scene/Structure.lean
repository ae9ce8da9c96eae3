import SpatialDiagram.Digraph
import SpatialDiagram.Scene.Graph

/-!
# The structure of a graph

The children lists make a graph a directed one, in which entries that name no
node of the graph are left out. From it follow cycles and depth; the bounds are
those of all nodes together.
-/

namespace SpatialDiagram

namespace Graph

/-- The nodes with those of their children that the graph has. -/
def digraph (g : Graph) : Digraph Value :=
  let ids := g.nodeIds
  ⟨g.nodes.map fun n => (n.id, (n.children.filter (· ∈ ids)).eraseDups)⟩

/-- The names of the nodes of one cycle, the first one again at the end; empty without a cycle. -/
def findCycle (g : Graph) : List Value := g.digraph.findCycle?.getD []

/-- Whether connections lead from some node back to it. -/
def hasCycles (g : Graph) : Bool := g.digraph.isCyclic

/-- The number of levels from a root to the deepest leaf. -/
def depth (g : Graph) : Nat := g.digraph.depth

/-- The box around all nodes. -/
def bounds (g : Graph) : Box Float := Box.enclosing (g.nodes.map Node.box)

end Graph

end SpatialDiagram
