/-!
# Layout algorithms
-/

namespace SpatialDiagram

/-- How nodes that have no position of their own are placed. -/
inductive LayoutAlgorithm where
  | hierarchical
  | forceDirected
  | circular
  | grid
deriving DecidableEq, Repr

namespace LayoutAlgorithm

/-- The algorithms in the order in which they are defined. -/
def all : List LayoutAlgorithm := [hierarchical, forceDirected, circular, grid]

/-- The name under which an algorithm is chosen. -/
def name : LayoutAlgorithm → String
  | hierarchical => "hierarchical"
  | forceDirected => "force-directed"
  | circular => "circular"
  | grid => "grid"

/-- The algorithm that is chosen under a name. -/
def ofName? (s : String) : Option LayoutAlgorithm := all.find? fun a => a.name = s

/-- Every algorithm is found by its own name. -/
theorem ofName_name (a : LayoutAlgorithm) : ofName? a.name = some a := by cases a <;> decide

end LayoutAlgorithm

end SpatialDiagram
