import SpatialDiagram.Proofs.Building.KeptConnections

/-!
# Assembly and arrangement

A build has two parts. The assembly makes the nodes, connects them and notices
what is wrong with the diagram. The arrangement moves nodes that are not pinned
and computes anchors; it fails for a spacing beyond all floating-point numbers
only, and notices nothing.
-/

namespace SpatialDiagram

open Notation

namespace Build

/-! ## The whole assembly -/

/-- Once its nodes are in, a draft is wired as far as no connection at all. -/
theorem wired_of_drafted {id : String} {c : Config} {d : Diagram} {draft : Draft}
    (h : Drafted id c d d.nodes draft) : Wired d draft.graph [] draft.graph := by
  have hshows : Shows d draft.graph := by
    refine ⟨h.nodeIds, fun name n hn => ?_⟩
    obtain ⟨o, -, hnode⟩ := h.node name n hn
    exact ⟨_, hnode, rfl, rfl, Face.ids_generate _ _⟩
  refine wired_nil hshows ?_ fun name m hm => ?_
  · rw [h.shell]
    rfl
  · have hname : .str name ∈ draft.graph.nodeIds :=
      (Graph.mem_nodeIds_iff _ _).mpr (by rw [hm]; rfl)
    rw [h.nodeIds, List.mem_map_of_injective fun _ _ => Value.str.inj] at hname
    obtain ⟨n, hn⟩ := (mem_names_iff d name).mp hname
    obtain ⟨o, -, hnode⟩ := h.node name n hn
    obtain rfl := Option.some.inj (hm.symm.trans hnode)
    exact isNew_declaredNode c n o

/-- Adding the nodes reports what cannot be read of their placement, and nothing else. -/
theorem issues_addNodes {c : Config} {ns : List NodeDeclaration} {draft draft' : Draft}
    (h : (ns.foldlM (addNode c) draft).result = .ok draft') :
    (ns.foldlM (addNode c) draft).issues = ns.flatMap unreadablePlacement :=
  Trace.issues_foldlM_of_ok (fun _ => True) unreadablePlacement trivial
    (fun _ _ _ _ hn => ⟨trivial, (addNode_of_ok hn).2⟩) h

/-- What is assembled from a diagram: the node of the last declaration of each name, with the
entries of the connections that are kept. -/
structure Assembled (id : String) (c : Config) (d : Diagram) (draft : Draft) : Prop where
  frame : draft.graph =
    { shell id d with nodes := draft.graph.nodes, connections := draft.graph.connections }
  nodeIds : draft.graph.nodeIds = (Validation.names d).map Value.str
  node : ∀ name n, Validation.declared? d name = some n →
    ∃ o, opacityOf c n = .ok o ∧ draft.graph.node? (.str name) = some
      { declaredNode c n o with
        children := (targets (kept d) name).map Value.str
        parents := (sources (kept d) name).map Value.str }
  connections : draft.graph.connections.map Connection.bare = (kept d).map connectionOf
  pinned : ∀ name, name ∈ draft.pinned ↔
    ∃ n, Validation.declared? d name = some n ∧ isPinned n = true

/-- What is noticed of a cycle of a graph. -/
def cycleIssues (cycle : List Value) : List Issue :=
  match cycle with
  | [] => []
  | first :: rest =>
      [.ofCode .warning .cycleDetected none [("node_id", first),
        ("cycle", .str (" -> ".intercalate ((first :: rest).map Value.display)))]]

theorem only_cycleIssues (code : IssueCode) (cycle : List Value) :
    Issue.only code (cycleIssues cycle) =
      if .cycleDetected = code then cycleIssues cycle else [] := by
  cases cycle <;> simp [cycleIssues]

/-- The check reports the cycle that the graph finds, if it finds one. -/
theorem issues_checkCycle (g : Graph) : (checkCycle g).issues = cycleIssues g.findCycle := by
  rw [checkCycle]
  cases g.findCycle <;> rfl

/-- An assembly that returns has put the whole diagram into its draft, and reports the nodes, the
connections and the cycle in this order. -/
theorem assembled_of_ok {id : String} {c : Config} {d : Diagram} {draft : Draft}
    (hids : (d.connections.map ConnectionDeclaration.id).Nodup)
    (h : (assemble id c d).result = .ok draft) :
    Assembled id c d draft ∧
      (assemble id c d).issues = d.nodes.flatMap unreadablePlacement ++
        (d.connections.flatMap (connectionIssues d) ++ cycleIssues draft.graph.findCycle) := by
  rw [assemble] at h ⊢
  obtain ⟨_, -, h⟩ := Trace.exists_of_result_bind h
  obtain ⟨nodes, hnodes, h⟩ := Trace.exists_of_result_bind h
  obtain ⟨_, -, h⟩ := Trace.exists_of_result_bind h
  obtain ⟨g, hg, h⟩ := Trace.exists_of_result_bind h
  obtain ⟨_, hcycle, h⟩ := Trace.exists_of_result_bind h
  obtain rfl := Except.ok.inj h
  have hdrafted := drafted_foldlM hnodes
  obtain ⟨hwired, hissues⟩ := wired_foldlM (wired_of_drafted hdrafted) hids hg
  constructor
  · exact
      { frame := hwired.frame.trans (congrArg (fun x : Graph =>
          { x with nodes := g.nodes, connections := g.connections }) hdrafted.shell)
        nodeIds := hwired.shows.nodeIds
        node := fun name n hn => by
          obtain ⟨o, ho, hnode⟩ := hdrafted.node name n hn
          exact ⟨o, ho, hwired.node name _ hnode⟩
        connections := hwired.connections
        pinned := hdrafted.pinned }
  · rw [Trace.issues_bind_of_ok (a := ()) rfl, Trace.issues_bind_of_ok hnodes,
      Trace.issues_bind_of_ok (a := ()) rfl, Trace.issues_bind_of_ok hg,
      Trace.issues_bind_of_ok hcycle, hissues, issues_addNodes hnodes, issues_checkCycle]
    simp

end Build

/-! ## Layout -/

namespace Layout

theorem mem_of_mem_zipIdx_map {α β : Type} {xs : List α} {f : α × Nat → β} {y : α × β}
    (h : y ∈ xs.zipIdx.map fun x => (x.1, f x)) : y.1 ∈ xs := by
  obtain ⟨x, hx, rfl⟩ := List.mem_map.mp h
  exact List.fst_mem_of_mem_zipIdx hx

/-- A layout finds positions for nodes that are not pinned only. -/
theorem unpinned_of_positions {a : LayoutAlgorithm} {context : Context} {ps : Positions}
    (h : (positions a context).result = .ok ps) {p : Value × Vec Float} (hp : p ∈ ps) :
    p.1 ∈ context.unpinnedIds := by
  cases a with
  | hierarchical =>
      obtain ⟨l, -, hl⟩ := Trace.exists_of_result_bind h
      obtain rfl := Except.ok.inj hl
      obtain ⟨layer, -, hrow⟩ := List.mem_flatMap.mp hp
      exact (List.mem_filter.mp (mem_of_mem_zipIdx_map hrow)).1
  | forceDirected =>
      rw [positions, simulated] at h
      split at h
      · obtain rfl := Except.ok.inj h
        cases hp
      · obtain ⟨_, -, hl⟩ := Trace.exists_of_result_bind h
        obtain rfl := Except.ok.inj hl
        exact (List.of_mem_zip hp).1
  | circular =>
      obtain rfl := Except.ok.inj h
      exact mem_of_mem_zipIdx_map hp
  | grid =>
      obtain rfl := Except.ok.inj h
      exact mem_of_mem_zipIdx_map hp

/-- The place of a node after all moves. -/
def placed (ps : Positions) (n : Node) : Node :=
  match ps.lookup n.id with
  | some p => n.setPosition p
  | none => n

theorem id_placed (ps : Positions) (n : Node) : (placed ps n).id = n.id := by
  rw [placed]
  split <;> rfl

/-- A node is found after a layout as it was placed by it. -/
theorem node_moveAll (g : Graph) (ps : Positions) (u : Value) :
    (moveAll g ps).node? u = (g.node? u).map (placed ps) :=
  Keyed.find_map Node.id (placed ps) (id_placed ps) u g.nodes

/-- A layout keeps the nodes and their order. -/
theorem nodeIds_moveAll (g : Graph) (ps : Positions) : (moveAll g ps).nodeIds = g.nodeIds := by
  rw [Graph.nodeIds, moveAll, List.map_map]
  exact List.map_congr_left fun n _ => id_placed ps n

/-- No layout reports an issue. -/
theorem issues_positions (a : LayoutAlgorithm) (context : Context) :
    (positions a context).issues = [] := by
  cases a with
  | hierarchical =>
      have hassign : (assignLayers context.graph).issues = [] := by
        rw [assignLayers]
        split <;> split <;> rfl
      obtain ⟨l, hl⟩ : ∃ l, (assignLayers context.graph).result = .ok l := by
        rw [assignLayers]
        split <;> split <;> exact ⟨_, rfl⟩
      rw [positions, layered, Trace.issues_bind_of_ok hl, hassign]
      rfl
  | forceDirected =>
      rw [positions, simulated]
      split <;> rfl
  | circular => rfl
  | grid => rfl

end Layout

namespace Build

/-- An arrangement moves nodes that are not pinned, and then computes the anchors. -/
theorem arrange_of_ok {c : Config} {draft : Draft} {g : Graph}
    (h : (arrange .standard c draft).result = .ok g) :
    (∃ ps : Layout.Positions, g = (Layout.moveAll draft.graph ps).refreshAnchors ∧
      ∀ p ∈ ps, p.1 ∉ draft.pinned.map Value.str) ∧
      (arrange .standard c draft).issues = [] := by
  rw [arrange] at h ⊢
  obtain ⟨spacing, hspacing, h⟩ := Trace.exists_of_result_bind h
  obtain ⟨moved, hmoved, h⟩ := Trace.exists_of_result_bind h
  obtain rfl := Except.ok.inj h
  rw [Trace.issues_bind_of_ok hspacing, Trace.issues_bind_of_ok hmoved]
  rw [Layout.applyWith] at hmoved ⊢
  obtain ⟨_, -, hmoved⟩ := Trace.exists_of_result_bind hmoved
  obtain ⟨ps, hps, hmoved⟩ := Trace.exists_of_result_bind hmoved
  obtain rfl := Except.ok.inj hmoved
  constructor
  · refine ⟨ps, rfl, fun p hp => ?_⟩
    obtain ⟨n, hn, hid⟩ := List.mem_map.mp (Layout.unpinned_of_positions hps hp)
    have hfree := (List.mem_filter.mp hn).2
    rw [hid] at hfree
    simpa using hfree
  · rw [Trace.issues_bind_of_ok (a := ()) rfl, Trace.issues_bind_of_ok hps]
    have hquiet (context : Layout.Context) :
        (Layout.Registry.standard.rule c.algorithm context).issues = [] :=
      Layout.issues_positions c.algorithm context
    rw [hquiet]
    rfl

/-- A build in which no node is rejected gives a graph. -/
theorem exists_of_run (id : String) {c : Config} {x : Float} (hx : c.spacing = .float x)
    {d : Diagram} (hd : d.nodes.findSome? rejection? = none) :
    ∃ g, (run id c d).result = .ok g := by
  apply (run id c d).failure_eq_none_iff.mp
  rw [failure_run id hx, hd]
  rfl

/-- A build assembles its graph and arranges it; only the assembly notices anything. -/
theorem run_of_ok {id : String} {c : Config} {d : Diagram} {g : Graph}
    (h : (run id c d).result = .ok g) :
    ∃ draft, (assemble id c d).result = .ok draft ∧ (arrange .standard c draft).result = .ok g ∧
      (run id c d).issues = (assemble id c d).issues := by
  have hgraph : (graphOf .standard id c d).result = .ok g := by
    rw [run, runWith, Trace.result_mapFailure] at h
    cases hr : (graphOf .standard id c d).result with
    | error f => rw [hr] at h; cases h
    | ok g' => rw [hr] at h; rw [Except.ok.inj h]
  rw [run, runWith, Trace.issues_mapFailure]
  rw [graphOf] at hgraph ⊢
  obtain ⟨draft, hdraft, hgraph⟩ := Trace.exists_of_result_bind hgraph
  obtain ⟨g', hg', hgraph⟩ := Trace.exists_of_result_bind hgraph
  obtain rfl := Except.ok.inj hgraph
  refine ⟨draft, hdraft, hg', ?_⟩
  rw [Trace.issues_bind_of_ok hdraft, Trace.issues_bind_of_ok hg', (arrange_of_ok hg').2,
    Trace.issues_bind_of_ok (a := ()) rfl]
  simp

end Build

end SpatialDiagram
