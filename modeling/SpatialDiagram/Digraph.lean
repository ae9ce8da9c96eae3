import SpatialDiagram.Keyed

/-!
# Directed graphs

A graph lists its vertices, each with its successors. A search along the
successors finds a cycle. Peeling takes away, round by round, all vertices that
nothing left blocks: blocked by their predecessors, all vertices go exactly when
there is no cycle; blocked by the vertices strictly below them, the number of
rounds is the number of vertices on the longest chain.
-/

namespace SpatialDiagram

/-- Vertices with their successors. -/
structure Digraph (ι : Type) where
  adjacency : List (ι × List ι)
deriving DecidableEq, Repr

namespace Digraph

variable {ι : Type} [DecidableEq ι]

/-- The vertices in their order. -/
def vertices (g : Digraph ι) : List ι := g.adjacency.map Prod.fst

/-- The vertices that the edges of a vertex lead to, in the order of these edges. -/
def succ (g : Digraph ι) (u : ι) : List ι := (g.adjacency.lookup u).getD []

/-- The graph on given vertices with the edges that join two of them. -/
def ofEdges (vertices : List ι) (edges : List (ι × ι)) : Digraph ι :=
  ⟨vertices.map fun u =>
    (u, ((edges.filter fun e => e.1 = u && e.2 ∈ vertices).map Prod.snd).eraseDups)⟩

/-- The edges in the order of their vertices. -/
def edges (g : Digraph ι) : List (ι × ι) :=
  g.adjacency.flatMap fun a => a.2.map fun v => (a.1, v)

/-! ## Cycles -/

/-- What a search has seen, and the cycle it met, if any. -/
structure Search (ι : Type) where
  seen : List ι
  cycle : Option (List ι) := none

/-- The part of a path, last vertex first, that leads from a vertex of it back to the vertex. -/
def closing (path : List ι) (v : ι) : List ι :=
  v :: (v :: path.takeWhile (· ≠ v)).reverse

/-- Searches the successors of the last vertex of a path in turn. An edge back to the path
closes a cycle; a vertex that was seen before is not entered again. The first argument bounds the
length by which the path can grow. -/
def explore (g : Digraph ι) : (room : Nat) → (path : List ι) → (seen : List ι) → ι → Search ι
  | 0, _, seen, _ => { seen }
  | room + 1, path, seen, u =>
      (g.succ u).foldl (fun s v =>
        if s.cycle.isSome then s
        else if v ∈ u :: path then { s with cycle := some (closing (u :: path) v) }
        else if v ∈ s.seen then s
        else g.explore room (u :: path) s.seen v) { seen := u :: seen }

/-- The first cycle that a search from each vertex in turn meets: its vertices in order, the
first one again at the end. -/
def findCycle? (g : Digraph ι) : Option (List ι) :=
  (g.vertices.foldl (fun s u =>
    if s.cycle.isSome || u ∈ s.seen then s
    else g.explore g.vertices.length [] s.seen u) { seen := [] }).cycle

/-! ## Peeling -/

/-- The vertices that nothing blocks. -/
def free (waiting : List (ι × List ι)) : List ι :=
  (waiting.filter fun w => w.2.isEmpty).map Prod.fst

/-- The other vertices, no longer blocked by the free ones. -/
def blocked (waiting : List (ι × List ι)) : List (ι × List ι) :=
  let gone := free waiting
  (waiting.filter fun w => !w.2.isEmpty).map fun w => (w.1, w.2.filter (· ∉ gone))

/-- Takes away the free vertices round by round until there is none. Counts the rounds and returns
what is left. -/
def peel (waiting : List (ι × List ι)) : Nat × List (ι × List ι) :=
  if (blocked waiting).length < waiting.length then
    let (rounds, left) := peel (blocked waiting)
    (rounds + 1, left)
  else (0, waiting)
termination_by waiting.length

/-- The vertices with an edge to a given one. -/
def predecessors (g : Digraph ι) (v : ι) : List ι :=
  (g.adjacency.filter fun a => v ∈ a.2).map Prod.fst

/-- Whether the vertices cannot all be taken away one after another, each after its
predecessors. -/
def isCyclic (g : Digraph ι) : Bool :=
  !(peel (g.vertices.map fun v => (v, g.predecessors v))).2.isEmpty

/-! ## Depth -/

/-- Adds to the vertices seen all that can be reached from the frontier. -/
def grow (g : Digraph ι) : (room : Nat) → (seen frontier : List ι) → List ι
  | 0, seen, _ => seen
  | room + 1, seen, frontier =>
      let new := ((frontier.flatMap g.succ).filter (· ∉ seen)).eraseDups
      if new.isEmpty then seen else g.grow room (seen ++ new) new

/-- The vertices that a path from `u` leads to, `u` included. -/
def reachable (g : Digraph ι) (u : ι) : List ι := g.grow g.vertices.length [u] [u]

/-- Each vertex with the vertices that it reaches and that do not reach it. -/
def strictlyBelow (g : Digraph ι) : List (ι × List ι) :=
  let reach := g.vertices.map fun u => (u, g.reachable u)
  reach.map fun r => (r.1, r.2.filter fun v => r.1 ∉ (reach.lookup v).getD [])

/-- The number of vertices on the longest chain in which each is strictly below the one before;
vertices that reach each other share a level. -/
def depth (g : Digraph ι) : Nat := (peel g.strictlyBelow).1

end Digraph

end SpatialDiagram
