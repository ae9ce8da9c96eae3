import SpatialDiagram.Proofs.Structure.CycleSearch

/-!
# Cycles of a graph

A node leads to those of its children that the graph has. The list of a cycle
that a graph gives is one of this relation, and it is empty exactly if the graph
says that it has no cycles.
-/

namespace SpatialDiagram

namespace Graph

/-- One node lists another one of the graph as its child. -/
def Child (g : Graph) (u v : Value) : Prop := v ∈ g.childrenOf u ∧ v ∈ g.nodeIds

instance (g : Graph) (u v : Value) : Decidable (g.Child u v) :=
  inferInstanceAs (Decidable (v ∈ g.childrenOf u ∧ v ∈ g.nodeIds))

theorem Child.mem_left {g : Graph} {u v : Value} (h : g.Child u v) : u ∈ g.nodeIds :=
  mem_nodeIds_of_mem_entries h.1

theorem vertices_digraph (g : Graph) : g.digraph.vertices = g.nodeIds := by
  rw [Digraph.vertices, digraph, List.map_map, nodeIds]
  rfl

/-- The edges of the digraph of a graph go from nodes to their children. -/
theorem edge_digraph_iff (g : Graph) (u v : Value) : g.digraph.Edge u v ↔ g.Child u v := by
  have hlookup : g.digraph.adjacency.lookup u =
      (g.node? u).map fun n => (n.children.filter (· ∈ g.nodeIds)).eraseDups := by
    rw [Keyed.lookup_eq_find, digraph, node?]
    induction g.nodes with
    | nil => rfl
    | cons n ns ih =>
        rw [List.map_cons, Keyed.find_cons, Keyed.find_cons]
        split
        · rfl
        · exact ih
  rw [Digraph.Edge, Digraph.succ, hlookup, Child, childrenOf, entries]
  cases g.node? u <;> simp

/-- The digraph of a graph with distinct ids is closed. -/
theorem isClosed_digraph {g : Graph} (hids : g.nodeIds.Nodup) : g.digraph.IsClosed := by
  constructor
  · rwa [vertices_digraph]
  · intro u v h
    rw [vertices_digraph]
    exact ((edge_digraph_iff g u v).mp h).2

/-- A cycle is given exactly if the graph has one, and it is one: a list of nodes that comes back
to its first and repeats no other, each the child of the one before. Entries that name no node of
the graph make no difference. -/
theorem findCycle_reports {g : Graph} (hids : g.nodeIds.Nodup) :
    (g.findCycle = [] ↔ g.hasCycles = false) ∧
      (g.findCycle ≠ [] → IsCycle g.Child g.findCycle ∧ ∀ u ∈ g.findCycle, u ∈ g.nodeIds) := by
  have hclosed := isClosed_digraph hids
  have hsound (c : List Value) (hc : g.digraph.findCycle? = some c) : IsCycle g.Child c :=
    (Digraph.isCycle_of_findCycle hc).mono fun u v => (edge_digraph_iff g u v).mp
  rw [hasCycles, ← Digraph.findCycle_eq_none_iff hclosed, findCycle]
  cases hfound : g.digraph.findCycle? with
  | none => simp
  | some c =>
      have hcycle := hsound c hfound
      refine ⟨by simpa using hcycle.ne_nil, fun _ => ⟨hcycle, fun u hu => ?_⟩⟩
      obtain ⟨v, -, hvu⟩ := hcycle.exists_before hu
      exact hvu.2

/-- The search starts at A, but the first edge back leads to B. The graph has no node X. -/
theorem findCycle_reports_tail :
    let g : Graph :=
      { id := .str "g", name := .str "Test"
        nodes := [{ Node.plain "A" with children := [.str "X", .str "B", .str "C"] },
          { Node.plain "B" with children := [.str "C"] },
          { Node.plain "C" with children := [.str "B", .str "A"] }] }
    g.nodeIds.Nodup ∧ g.findCycle = [.str "B", .str "C", .str "B"] ∧ g.hasCycles = true := by
  intro g
  have hids : g.nodeIds.Nodup := by decide
  have hcycle : g.findCycle = [.str "B", .str "C", .str "B"] := by decide
  obtain ⟨hiff, -⟩ := findCycle_reports hids
  refine ⟨hids, hcycle, ?_⟩
  rw [← Bool.not_eq_false, ← hiff, hcycle]
  simp

end Graph

end SpatialDiagram
