import SpatialDiagram.Proofs.Scene.Rereading

/-!
# Reading normalizes

A document may list a node twice, leave fields out, write numbers as texts and
give lists of children and parents that fit nothing else in it. The graph that
is read from it is settled all the same: adding a node or a connection keeps
one of each name, keeps what a node derives from its transform, and leaves the
ends of every connection in each other's lists. Its record form therefore reads
back as this very graph.
-/

namespace SpatialDiagram

open Value

namespace Node

/-- A node with a name that can be a key, whose box and faces follow from its transform and whose
opacity is a floating-point number. Its lists may hold anything. -/
structure IsSettled (n : Node) : Prop where
  key : n.id.isScalar = true
  derived : n.IsDerived
  opacity : ∃ x, n.style.opacity = .float x

theorem reread_of_isSettled {n : Node} (h : n.IsSettled) : n.reread = n := by
  obtain ⟨x, hx⟩ := h.opacity
  rw [reread, hx, withOpacity]
  exact congrArg (fun o => { n with style := { n.style with opacity := o } }) hx.symm

/-- The lists of a node do not matter for whether it is settled. -/
theorem isSettled_withLists {n : Node} (h : n.IsSettled) (children parents : List Value) :
    ({ n with children, parents } : Node).IsSettled :=
  ⟨h.key, ⟨h.derived.scale, h.derived.box, h.derived.faces⟩, h.opacity⟩

end Node

theorem Transform.isUsable_of_ofValue {v : Value} {t : Transform Float} (h : ofValue v = .ok t) :
    isUsable t.scale = true := by
  simp only [ofValue, bind_eq_ok_iff] at h
  obtain ⟨_, _, position, _, _, _, rotation, _, _, _, scale, _, h⟩ := h
  rw [checked, make?] at h
  by_cases hs : isUsable scale = true
  · rw [if_pos hs] at h
    rw [← Except.ok.inj h]
    exact hs
  · rw [if_neg hs] at h
    cases h

theorem NodeStyle.opacity_of_ofValue {v : Value} {s : NodeStyle} (h : ofValue v = .ok s) :
    ∃ x, s.opacity = .float x := by
  simp only [ofValue, bind_eq_ok_iff] at h
  obtain ⟨_, _, _, _, x, _, _, _, h⟩ := h
  exact ⟨x, (congrArg NodeStyle.opacity (Except.ok.inj h)).symm⟩

/-- A node that was read is read back as it is. -/
theorem Node.isSettled_of_ofValue {v : Value} {n : Node} (h : ofValue v = .ok n)
    (hkey : n.id.isScalar = true) : n.IsSettled := by
  simp only [ofValue, bind_eq_ok_iff] at h
  obtain ⟨id, _, _, _, category, _, name, _, _, _, shape, _, _, _, transform, htransform,
    description, _, _, _, style, hstyle, _, _, annotations, _, _, _, children, _, _, _, parents, _,
    hn⟩ := h
  obtain rfl := Except.ok.inj hn
  exact
    { key := hkey
      derived := ⟨Transform.isUsable_of_ofValue htransform, rfl, rfl⟩
      opacity := NodeStyle.opacity_of_ofValue hstyle }

namespace Graph

/-- A graph with one settled node or one connection under each name, in which the nodes of every
connection have each other in their lists. -/
structure IsSettled (g : Graph) : Prop where
  nodup_nodes : g.nodeIds.Nodup
  nodup_connections : (g.connections.map Connection.id).Nodup
  node : ∀ n ∈ g.nodes, n.IsSettled
  connectionKey : ∀ c ∈ g.connections, c.id.isScalar = true
  linked : ∀ (side : Side), ∀ c ∈ g.connections,
    side.entry c ∈ g.entries side.list (side.holder c)

theorem IsSettled.isRestorable {g : Graph} (h : g.IsSettled) : g.IsRestorable :=
  { h with
    nodeKey := fun n hn => (h.node n hn).key
    derived := fun n hn => (h.node n hn).derived
    child := h.linked .children
    parent := h.linked .parents }

theorem reread_of_isSettled {g : Graph} (h : g.IsSettled) : g.reread = g := by
  have hnodes : g.nodes.map Node.reread = g.nodes :=
    (List.map_congr_left fun n hn => Node.reread_of_isSettled (h.node n hn)).trans (List.map_id _)
  rw [reread, hnodes]

theorem isSettled_blank (g : Graph) : g.blank.IsSettled := by
  constructor <;> simp [blank, nodeIds]

/-! ## What is added keeps a graph settled -/

theorem isSettled_succeeding (g : Graph) {n : Node} (hn : n.IsSettled) :
    (g.succeeding n).IsSettled := by
  rw [succeeding]
  split
  · exact Node.isSettled_withLists hn _ _
  · exact hn

section

variable {g : Graph} (h : g.IsSettled)

include h

theorem isSettled_addNode {n : Node} (hn : n.IsSettled) : (g.addNode n).IsSettled where
  nodup_nodes := Keyed.nodup_keys_put h.nodup_nodes _
  nodup_connections := h.nodup_connections
  node := fun m hm => by
    rcases (Keyed.mem_put_iff h.nodup_nodes (g.succeeding n) m).mp hm with rfl | ⟨hm, -⟩
    · exact isSettled_succeeding g hn
    · exact h.node m hm
  connectionKey := h.connectionKey
  linked := fun side c hc =>
    (mem_entries_addNode side g n _ _).mpr (Or.inl (h.linked side c hc))

/-- Entering two nodes in each other's lists changes nothing else about them. -/
theorem isSettled_of_mem_link (s t : Value) : ∀ n ∈ (g.link s t).nodes, n.IsSettled := by
  have hmodified (k : Graph) (hk : ∀ n ∈ k.nodes, n.IsSettled) (id : Value) (f : Node → Node)
      (hf : ∀ n, n.IsSettled → (f n).IsSettled) : ∀ n ∈ (k.modifyNode id f).nodes, n.IsSettled := by
    intro n hn
    obtain ⟨m, hm, rfl⟩ := List.mem_map.mp hn
    split
    · exact hf m (hk m hm)
    · exact hk m hm
  exact hmodified _ (hmodified g h.node s _ fun n hn => Node.isSettled_withLists hn _ _) t _
    fun n hn => Node.isSettled_withLists hn _ _

theorem isSettled_withConnection {c : Connection} (hc : g.Admits c) :
    (g.withConnection c).IsSettled := by
  have hmem (d : Connection) (hd : d ∈ (g.withConnection c).connections) :
      d = c ∨ d ∈ g.connections :=
    ((Keyed.mem_put_iff h.nodup_connections c d).mp hd).imp_right And.left
  exact
    { nodup_nodes := by rw [nodeIds_withConnection]; exact h.nodup_nodes
      nodup_connections := Keyed.nodup_keys_put h.nodup_connections _
      node := isSettled_of_mem_link h _ _
      connectionKey := fun d hd => by
        rcases hmem d hd with rfl | hd
        · exact hc.1.1
        · exact h.connectionKey d hd
      linked := fun side d hd => by
        rw [mem_entries_withConnection (hc.holder side)]
        rcases hmem d hd with rfl | hd
        · exact Or.inr ⟨rfl, rfl⟩
        · exact Or.inl (h.linked side d hd) }

/-- Nodes that are read keep a graph settled. -/
theorem isSettled_addNodes {ns : List Node} (hns : ∀ n ∈ ns, n.IsSettled) :
    (ns.foldl addNode g).IsSettled :=
  List.foldlRecOn ns addNode h fun _ hk n hn => isSettled_addNode hk (hns n hn)

/-- Connections that are read keep a graph settled. -/
theorem isSettled_withConnections {cs : List Connection} (hcs : ∀ c ∈ cs, g.Admits c) :
    (cs.foldl withConnection g).IsSettled := by
  -- The nodes that a connection needs are those there were before the first connection.
  refine (List.foldlRecOn cs withConnection (motive := fun k : Graph =>
    k.IsSettled ∧ k.nodeIds = g.nodeIds) ⟨h, rfl⟩ fun k hk c hc => ?_).1
  obtain ⟨hsettled, hids⟩ := hk
  have hadmits : k.Admits c := by
    rw [Admits, hids]
    exact hcs c hc
  exact ⟨isSettled_withConnection hsettled hadmits, (nodeIds_withConnection k c).trans hids⟩

end

/-- Every graph that was read is settled. -/
theorem IsReadFrom.isSettled {g : Graph} {v : Value} {ns : List Node} {cs : List Connection}
    (h : g.IsReadFrom v ns cs) : g.IsSettled := by
  have hnodes : ∀ n ∈ ns, n.IsSettled := by
    intro n hn
    obtain ⟨items, -, hns⟩ := bind_eq_ok_iff.mp h.listedNodes
    obtain ⟨w, -, hw⟩ := exists_of_mem_mapM hns hn
    exact Node.isSettled_of_ofValue hw (h.nodeKeys n hn)
  have hfilled : (g.blank.filled ns cs).IsSettled :=
    isSettled_withConnections (isSettled_addNodes (isSettled_blank g) hnodes) h.admitted
  rw [h.contents]
  exact { hfilled with }

/-- Whatever document a graph was read from, its record form is read without a failure, and what is
read is this graph again, with the order of its nodes, of its connections and of every list. -/
theorem ofValue_settles {v : Value} {g : Graph} (h : (ofValue v).result = .ok g) :
    (ofValue g.toValue).result = .ok g := by
  obtain ⟨ns, cs, hread⟩ := (result_ofValue_eq_ok_iff v g).mp h
  have hsettled := hread.isSettled
  have hopacity : ∀ n ∈ g.nodes, n.style.opacity.toFloat?.isSome = true := by
    intro n hn
    obtain ⟨x, hx⟩ := (hsettled.node n hn).opacity
    rw [hx]
    rfl
  exact (result_ofValue_toValue hsettled.isRestorable g).mpr
    ⟨hopacity, (reread_of_isSettled hsettled).symm⟩

/-- A node comes twice, the second time with a text as its opacity and with a list that repeats a
name no node has; two connections that lead opposite ways have one name. -/
theorem ofValue_settles_disorder :
    let v : Value := .plainGraph
      [.plainNode "A" [("children", .list [.str "B"]), ("parents", .list [.str "A"])],
        .plainNode "B" [],
        .plainNode "A" [("children", .list [.str "Z", .str "Z"]),
          ("visual", .record [("opacity", .str "0.5")])]]
      [.plainConnection "c" "A" "B", .plainConnection "c" "B" "A"]
    ∃ g, (ofValue v).result = .ok g ∧ (ofValue g.toValue).result = .ok g ∧
      g.nodeIds = [.str "A", .str "B"] ∧ g.connections.length = 1 ∧
      g.childrenOf (.str "A") = [.str "Z", .str "Z", .str "B"] ∧
      g.parentsOf (.str "A") = [.str "A", .str "B"] ∧ g.childrenOf (.str "B") = [.str "A"] := by
  intro v
  have hread : (ofValue v).result.map (fun g =>
      (g.nodeIds, g.connections.length, g.childrenOf (.str "A"), g.parentsOf (.str "A"),
        g.childrenOf (.str "B"))) =
      .ok ([.str "A", .str "B"], 1, [.str "Z", .str "Z", .str "B"], [.str "A", .str "B"],
        [.str "A"]) := by decide +kernel
  obtain ⟨g, h, hlists⟩ := map_eq_ok_iff.mp hread
  simp only [Prod.mk.injEq] at hlists
  exact ⟨g, h, ofValue_settles h, hlists⟩

end Graph

end SpatialDiagram
