import SpatialDiagram.Proofs.Building.KeptConnections

/-!
# The name of a built graph

A build is given a name for its graph and looks at it nowhere. So builds of one
diagram under different names end alike, in graphs that differ in their names
only or in the same failure.
-/

namespace SpatialDiagram

open Notation

def Graph.named (id : String) (g : Graph) : Graph := { g with id := .str id }

def Build.Draft.named (id : String) (draft : Draft) : Draft :=
  { draft with graph := draft.graph.named id }

/-- A connection does not look at the id of the graph it is added to. -/
theorem Graph.connect_named (id : String) (g : Graph) (c : Connection) (anchors : Bool) :
    (g.named id).connect c anchors = (g.connect c anchors).map (Graph.named id) := by
  have hmissing : (g.named id).missing c = g.missing c := rfl
  rw [connect, connect, hmissing]
  split <;> rfl

namespace Build

/-- A node is added alike, whatever the graph is called. -/
theorem result_addNode_named (id : String) (c : Config) (draft : Draft) (n : NodeDeclaration) :
    (addNode c (draft.named id) n).result = (addNode c draft n).result.map (Draft.named id) := by
  rw [addNode, addNode]
  refine Trace.result_bind_map_right _ fun b => ?_
  refine Trace.result_bind_map (k := Graph.named id) ?_ fun _ => rfl
  rw [Graph.result_addNodeLogged, Graph.result_addNodeLogged]
  rfl

theorem result_addConnection_named (id : String) (g : Graph) (e : ConnectionDeclaration) :
    (addConnection (g.named id) e).result = (addConnection g e).result.map (Graph.named id) := by
  have hundeclared : undeclared? (g.named id) e = undeclared? g e := rfl
  rw [addConnection, addConnection, hundeclared]
  split
  · rfl
  · refine Trace.result_bind_map (k := Graph.named id) (Graph.connect_named id g _ true)
      fun g' => ?_
    simp only [Trace.result_bind, result_checkFace]
    rfl

/-- The assembly of a diagram does not look at the id of the graph. -/
theorem result_assemble_named (id id' : String) (c : Config) (d : Diagram) :
    (assemble id c d).result = (assemble id' c d).result.map (Draft.named id) := by
  have hshell : ({ graph := shell id d } : Draft) = Draft.named id { graph := shell id' d } := rfl
  rw [assemble, assemble, hshell]
  refine Trace.result_bind_map_right _ fun _ => ?_
  refine Trace.result_bind_map
    (Trace.result_foldlM_map (Draft.named id) (result_addNode_named id c) d.nodes _) fun draft => ?_
  refine Trace.result_bind_map_right _ fun _ => ?_
  refine Trace.result_bind_map
    (Trace.result_foldlM_map (Graph.named id) (result_addConnection_named id) d.connections _)
    fun g => ?_
  exact Trace.result_bind_map_right (checkCycle g) fun _ => rfl

/-- No layout looks at the name of a graph. -/
theorem result_arrange_named (id : String) (c : Config) (draft : Draft) :
    (arrange .standard c (draft.named id)).result =
      (arrange .standard c draft).result.map (Graph.named id) := by
  rw [arrange, arrange]
  refine Trace.result_bind_map_right _ fun spacing => ?_
  refine Trace.result_bind_map (k := Graph.named id) ?_ fun _ => rfl
  let context (g : Graph) : Layout.Context :=
    { graph := g, pinned := draft.pinned.map Value.str, spacing }
  have hrule : Layout.Registry.standard.rule c.algorithm (context (draft.graph.named id)) =
      Layout.Registry.standard.rule c.algorithm (context draft.graph) := by
    cases c.algorithm <;> rfl
  have hannounce : Layout.announce c.algorithm (context (draft.graph.named id)) =
      Layout.announce c.algorithm (context draft.graph) := rfl
  change (Layout.applyWith .standard c.algorithm (context (draft.graph.named id))).result =
    (Layout.applyWith .standard c.algorithm (context draft.graph)).result.map (Graph.named id)
  rw [Layout.applyWith, Layout.applyWith, hannounce, hrule]
  refine Trace.result_bind_map_right _ fun _ => ?_
  exact Trace.result_bind_map_right _ fun ps => rfl

/-- Two builds of one diagram under two ids differ in the id alone. -/
theorem result_run_named (id id' : String) (c : Config) (d : Diagram) :
    (run id c d).result = (run id' c d).result.map (Graph.named id) := by
  have hgraph : (graphOf .standard id c d).result =
      (graphOf .standard id' c d).result.map (Graph.named id) := by
    rw [graphOf, graphOf]
    refine Trace.result_bind_map (result_assemble_named id id' c d) fun draft => ?_
    refine Trace.result_bind_map (result_arrange_named id c draft) fun g => ?_
    rfl
  rw [run, run, runWith, runWith, Trace.result_mapFailure, Trace.result_mapFailure]
  simp only [hgraph]
  cases (graphOf .standard id' c d).result <;> rfl

end Build

end SpatialDiagram
