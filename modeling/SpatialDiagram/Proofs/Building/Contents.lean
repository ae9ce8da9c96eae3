import SpatialDiagram.Proofs.Building.Assembly

/-!
# What a build contains

A graph that was built has a node for each declared name, in the order of first
declarations, and each node is what the last declaration of its name says; only
the position of a node that is not pinned may come from the layout. Its
connections are those between declared nodes, and every other one is noticed
once, with the first of its ends that is missing.
-/

namespace SpatialDiagram

open Notation

namespace Build

/-- A graph holds what a diagram declares. The last declaration of a name is the one behind which
the name is not declared again. -/
structure Contains (c : Config) (d : Diagram) (g : Graph) : Prop where
  nodeIds : g.nodeIds = (d.nodes.map NodeDeclaration.id).eraseDups.map Value.str
  node : ∀ before n after, d.nodes = before ++ n :: after →
    n.id ∉ after.map NodeDeclaration.id →
      ∃ o p, opacityOf c n = .ok o ∧ (isPinned n = true → positionOf n = some p) ∧
        g.node? (.str n.id) = some
          { (declaredNode c n o).setPosition p with
            children := (targets (kept d) n.id).map Value.str
            parents := (sources (kept d) n.id).map Value.str }
  connections : g.connections.map Connection.bare = (kept d).map connectionOf
  children : ∀ s, g.childrenOf (.str s) = (targets (kept d) s).map Value.str
  parents : ∀ t, g.parentsOf (.str t) = (sources (kept d) t).map Value.str

/-- A pinned node stays at its declared position. -/
theorem position_of_isPinned {n : NodeDeclaration} (h : isPinned n = true) :
    positionOf n = some (transformOf n).position := by
  rw [isPinned, Option.any_eq_true] at h
  obtain ⟨p, hp, -⟩ := h
  rw [transformOf, hp]
  rfl

/-- The moves leave the node of a declaration as it was assembled, but for its position, and that
only if the node is not pinned. -/
theorem node_of_assembled {id : String} {c : Config} {d : Diagram} {draft : Draft}
    (h : Assembled id c d draft) {ps : Layout.Positions}
    (hfree : ∀ p ∈ ps, p.1 ∉ draft.pinned.map Value.str) {name : String} {n : NodeDeclaration}
    (hn : Validation.declared? d name = some n) :
    ∃ o p, opacityOf c n = .ok o ∧ (isPinned n = true → positionOf n = some p) ∧
      (Layout.moveAll draft.graph ps).node? (.str name) = some
        { (declaredNode c n o).setPosition p with
          children := (targets (kept d) name).map Value.str
          parents := (sources (kept d) name).map Value.str } := by
  obtain rfl : n.id = name := (Keyed.find_some_key hn).1
  obtain ⟨o, ho, hdrafted⟩ := h.node n.id n hn
  refine ⟨o, (ps.lookup (.str n.id)).getD (transformOf n).position, ho, fun hpin => ?_, ?_⟩
  · have hpinned : n.id ∈ draft.pinned := (h.pinned n.id).mpr ⟨n, hn, hpin⟩
    have hstays : ps.lookup (.str n.id) = none := by
      rw [List.lookup_eq_none_iff]
      intro p hp
      have hne : Value.str n.id ≠ p.1 := fun he =>
        hfree p hp (he ▸ List.mem_map_of_mem hpinned)
      simpa using hne
    rw [hstays, position_of_isPinned hpin]
    rfl
  · have hid : (declaredNode c n o).id = .str n.id := rfl
    rw [Layout.node_moveAll, hdrafted, Option.map_some, Layout.placed]
    simp only [hid]
    cases ps.lookup (.str n.id) <;> rfl

/-- A list of the nodes is known if it is known of the declared ones: a name that is not declared
has no entries, and no kept connection ends at it. -/
theorem entries_of_declared {d : Diagram} {g : Graph} (list : Node → List Value)
    (hids : g.nodeIds = (Validation.names d).map Value.str) {name : String} {xs : List String}
    (hdeclared : ∀ n, Validation.declared? d name = some n →
      ∃ m, g.node? (.str name) = some m ∧ list m = xs.map Value.str)
    (hundeclared : name ∉ Validation.names d → xs = []) :
    g.entries list (.str name) = xs.map Value.str := by
  by_cases hname : name ∈ Validation.names d
  · obtain ⟨n, hn⟩ := (mem_names_iff d name).mp hname
    obtain ⟨m, hm, hlist⟩ := hdeclared n hn
    rw [Graph.entries, hm]
    exact hlist
  · have hunknown : Value.str name ∉ g.nodeIds := by
      rw [hids, List.mem_map_of_injective fun _ _ => Value.str.inj]
      exact hname
    rw [Graph.entries_eq_nil list hunknown, hundeclared hname]
    rfl

/-- What an assembly has put together is still there after the layout. -/
theorem contains_of_assembled {id : String} {c : Config} {d : Diagram} {draft : Draft} {g : Graph}
    (h : Assembled id c d draft) (hg : (arrange .standard c draft).result = .ok g) :
    Contains c d g := by
  obtain ⟨⟨ps, rfl, hfree⟩, -⟩ := arrange_of_ok hg
  let moved := (Layout.moveAll draft.graph ps).refreshAnchors
  have hids : moved.nodeIds = (Validation.names d).map Value.str :=
    (Layout.nodeIds_moveAll draft.graph ps).trans h.nodeIds
  have hnode (name : String) (n : NodeDeclaration) (hn : Validation.declared? d name = some n) :=
    node_of_assembled h hfree hn
  constructor
  · exact hids
  · intro before n after hsplit hlast
    exact hnode n.id n ((Keyed.last_eq_some_iff _ _ _ _).mpr ⟨before, after, hsplit, rfl, hlast⟩)
  · exact (Graph.bare_refreshAnchors _).trans h.connections
  · intro s
    apply entries_of_declared (g := moved) Node.children hids
    · intro n hn
      obtain ⟨_, _, -, -, hm⟩ := hnode s n hn
      exact ⟨_, hm, rfl⟩
    · intro hs
      exact neighbours_eq_nil _ _ fun e he hend => hs (hend ▸ (declared_of_mem_kept he).1)
  · intro t
    apply entries_of_declared (g := moved) Node.parents hids
    · intro n hn
      obtain ⟨_, _, -, -, hm⟩ := hnode t n hn
      exact ⟨_, hm, rfl⟩
    · intro ht
      exact neighbours_eq_nil _ _ fun e he hend => ht (hend ▸ (declared_of_mem_kept he).2)

/-- Each connection that is not kept is noticed once. -/
theorem dropped_of_assembled {id : String} {c : Config} {d : Diagram} {draft : Draft}
    (hids : (d.connections.map ConnectionDeclaration.id).Nodup)
    (h : (assemble id c d).result = .ok draft) :
    Issue.only .connectionDropped (assemble id c d).issues =
      d.connections.filterMap fun e =>
        (firstMissing? (Validation.names d) e).map (dropped e) := by
  rw [(assembled_of_ok hids h).2, List.filterMap_eq_flatMap_toList]
  simp [only_unreadablePlacement, only_dropped_connectionIssues, only_cycleIssues]

/-- A graph that was built of a parsed diagram contains what the diagram declares; a name is pinned
as its last declaration says; and each connection that is not kept is noticed once, with the first
of its ends that is missing. -/
theorem contents_of_run {source : Value} {d : Diagram} (hd : (Diagram.parse source).result = .ok d)
    {id : String} {c : Config} {g : Graph} (hg : (run id c d).result = .ok g) :
    Contains c d g ∧
      (∃ draft, (assemble id c d).result = .ok draft ∧
        (arrange .standard c draft).result = .ok g ∧
        ∀ name, name ∈ draft.pinned ↔ ∃ before n after, d.nodes = before ++ n :: after ∧
          n.id = name ∧ name ∉ after.map NodeDeclaration.id ∧ isPinned n = true) ∧
      Issue.only .connectionDropped (run id c d).issues =
        d.connections.filterMap fun e =>
          ([e.source.node, e.target.node].find? (· ∉ d.nodes.map NodeDeclaration.id)).map
            (dropped e) := by
  obtain ⟨draft, hassemble, harrange, hissues⟩ := run_of_ok hg
  obtain ⟨hassembled, -⟩ := assembled_of_ok (Diagram.nodup_connections hd) hassemble
  refine ⟨contains_of_assembled hassembled harrange, ⟨draft, hassemble, harrange, fun name => ?_⟩,
    ?_⟩
  · rw [hassembled.pinned]
    constructor
    · rintro ⟨n, hn, hpin⟩
      obtain ⟨before, after, hsplit, hid, hlast⟩ := (Keyed.last_eq_some_iff _ _ _ _).mp hn
      exact ⟨before, n, after, hsplit, hid, hlast, hpin⟩
    · rintro ⟨before, n, after, hsplit, hid, hlast, hpin⟩
      exact ⟨n, (Keyed.last_eq_some_iff _ _ _ _).mpr ⟨before, after, hsplit, hid, hlast⟩, hpin⟩
  · have hmissing (e : ConnectionDeclaration) : firstMissing? (Validation.names d) e =
        [e.source.node, e.target.node].find? (· ∉ d.nodes.map NodeDeclaration.id) := by
      simp only [firstMissing?, Validation.names, List.mem_eraseDups]
    rw [hissues, dropped_of_assembled (Diagram.nodup_connections hd) hassemble]
    simp only [hmissing]

/-- A connection before its nodes, a name that is declared twice, a parallel connection and one that
is dropped. -/
theorem contents_of_run_redeclared :
    let text := "A --> B\nA[Function: f]\nB[Function: g]\nA[Function: h]\nA --> B\nA --> Z"
    let node (id name : String) (line : Nat) : NodeDeclaration :=
      { id, category := .function, name, delimiter := .square, properties := .empty, line }
    let connection (k : Nat) (target : String) (line : Nat) : ConnectionDeclaration :=
      { id := "conn_" ++ toString k, category := .dataFlow, source := ⟨"A", none⟩
        target := ⟨target, none⟩, label := none, line }
    let d : Diagram :=
      { nodes := [node "A" "f" 2, node "B" "g" 3, node "A" "h" 4]
        connections := [connection 0 "B" 1, connection 1 "B" 5, connection 2 "Z" 6] }
    (Diagram.parse (.str text)).result = .ok d ∧ ∃ g, (run "g" {} d).result = .ok g ∧
      g.nodeIds = [.str "A", .str "B"] ∧ g.childrenOf (.str "A") = [.str "B"] ∧
      (g.node? (.str "A")).map Node.name = some (.str "h") ∧
      Issue.only .connectionDropped (run "g" {} d).issues = [dropped (connection 2 "Z" 6) "Z"] := by
  intro text node connection d
  have hlines : SourceLine.ofText text.toList =
      [⟨1, "A --> B".toList⟩, ⟨2, "A[Function: f]".toList⟩, ⟨3, "B[Function: g]".toList⟩,
        ⟨4, "A[Function: h]".toList⟩, ⟨5, "A --> B".toList⟩, ⟨6, "A --> Z".toList⟩] := by decide
  have hd : (Diagram.parse (.str text)).result = .ok d := by
    rw [Diagram.parse_of_no_block hlines (by decide)]
    rfl
  obtain ⟨g, hg⟩ := exists_of_run "g" (c := {}) (x := 2.0) rfl (d := d) rfl
  obtain ⟨hcontains, -, hdropped⟩ := contents_of_run hd hg
  obtain ⟨o, p, -, -, hnode⟩ := hcontains.node [node "A" "f" 2, node "B" "g" 3]
    (node "A" "h" 4) [] rfl (by simp)
  refine ⟨hd, g, hg, hcontains.nodeIds.trans (by decide),
    (hcontains.children "A").trans (by decide), ?_, hdropped.trans (by decide)⟩
  exact congrArg (Option.map Node.name) hnode

end Build

end SpatialDiagram
