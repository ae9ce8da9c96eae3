import SpatialDiagram.Proofs.Scene.Adjacency

/-!
# What a removal takes away

Removing a node looks for entries of it only where its own lists point. As the
lists of an edited graph mirror each other, no entry is missed: what is left is
the graph with the node cut out and all else in place, so the order of two
removals makes no difference. Removing a connection takes away the connection
and, unless another one joins its nodes, their entries for each other.
-/

namespace SpatialDiagram

namespace Node

/-- A node without any entry for a name. -/
def forgetting (id : Value) (n : Node) : Node :=
  { n with children := n.children.filter (· ≠ id), parents := n.parents.filter (· ≠ id) }

/-- A node without the entries that a link from one name to another needs. -/
def parted (source target : Value) (n : Node) : Node :=
  { n with
    children := if n.id = source then n.children.filter (· ≠ target) else n.children
    parents := if n.id = target then n.parents.filter (· ≠ source) else n.parents }

theorem forgetting_of_not_mem {id : Value} {n : Node} (hc : id ∉ n.children)
    (hp : id ∉ n.parents) : n.forgetting id = n := by
  rw [forgetting, filter_ne_of_not_mem hc, filter_ne_of_not_mem hp]

theorem forgetting_comm (a b : Value) (n : Node) :
    (n.forgetting a).forgetting b = (n.forgetting b).forgetting a := by
  simp only [forgetting, List.filter_comm (· ≠ a)]

end Node

namespace Graph

/-- The graph with a name cut out: the node, the connections that touch it, and all entries. -/
def cleared (g : Graph) (id : Value) : Graph :=
  { g with
    nodes := (g.nodes.filter fun n => n.id ≠ id).map (Node.forgetting id)
    connections := g.connections.filter fun c => !c.touches id }

/-- The graph with a connection cut out. Its nodes keep their entries for each other as long as
another connection joins them. -/
def severed (g : Graph) (c : Connection) : Graph :=
  let rest := g.connections.filter (· ≠ c)
  { g with
    nodes :=
      if ∃ d ∈ rest, d.joins c.source.node c.target.node = true then g.nodes
      else g.nodes.map (Node.parted c.source.node c.target.node)
    connections := rest }

/-- It does not matter which of two nodes is cleared first. -/
theorem cleared_comm (g : Graph) (a b : Value) :
    (g.cleared a).cleared b = (g.cleared b).cleared a := by
  have hnodes (a b : Value) : ((g.cleared a).cleared b).nodes =
      ((g.nodes.filter fun n => n.id ≠ a).filter fun n => n.id ≠ b).map
        (Node.forgetting b ∘ Node.forgetting a) := by
    simp only [cleared, List.filter_map, List.map_map]
    rfl
  have hforget : Node.forgetting b ∘ Node.forgetting a = Node.forgetting a ∘ Node.forgetting b :=
    funext (Node.forgetting_comm a b)
  have hsame : ((g.cleared a).cleared b).nodes = ((g.cleared b).cleared a).nodes := by
    rw [hnodes, hnodes, hforget, List.filter_comm]
  rw [cleared, cleared, mk.injEq]
  exact ⟨rfl, rfl, rfl, hsame, List.filter_comm _ _ _, rfl⟩

/-! ## Removing a node -/

/-- An entry at a neighbour is found if the removed node points back to it. -/
theorem detached_eq_forgetting {id : Value} {n m : Node} (hc : id ∈ m.children → m.id ∈ n.parents)
    (hp : id ∈ m.parents → m.id ∈ n.children) : detached id n m = m.forgetting id := by
  have hchildren : (detached id n m).children = m.children.filter (· ≠ id) := by
    rw [children_detached]
    split
    · rfl
    · rename_i hm
      exact (filter_ne_of_not_mem fun h => hm (hc h)).symm
  have hparents : (detached id n m).parents = m.parents.filter (· ≠ id) := by
    rw [parents_detached]
    split
    · rfl
    · rename_i hm
      exact (filter_ne_of_not_mem fun h => hm (hp h)).symm
  have hrest : detached id n m =
      { m with children := (detached id n m).children, parents := (detached id n m).parents } := by
    rw [detached]
    split <;> split <;> rfl
  rw [hrest, hchildren, hparents, Node.forgetting]

section

variable {g : Graph} (h : g.Consistent)

include h

/-- In a consistent graph, to remove a node is to clear it everywhere. -/
theorem removeNode_eq_cleared (id : Value) : g.removeNode id = g.cleared id := by
  have hchildren (m : Node) (hm : m ∈ g.nodes) : g.childrenOf m.id = m.children :=
    entries_of_mem Node.children h.nodup_nodes hm
  have hparents (m : Node) (hm : m ∈ g.nodes) : g.parentsOf m.id = m.parents :=
    entries_of_mem Node.parents h.nodup_nodes hm
  cases hn : g.node? id with
  | none =>
      have hid := (node_eq_none_iff g id).mp hn
      have hfilter : (g.nodes.filter fun m => m.id ≠ id) = g.nodes :=
        List.filter_eq_self.mpr fun m hm => by
          simpa using fun he : m.id = id => hid (he ▸ List.mem_map_of_mem hm)
      have hnodes : g.nodes.map (Node.forgetting id) = g.nodes := by
        refine (List.map_congr_left fun m hm => ?_).trans (List.map_id _)
        refine Node.forgetting_of_not_mem (fun hc => hid ?_) fun hp => hid ?_
        · exact h.children_known m.id id (hchildren m hm ▸ hc)
        · exact h.parents_known id m.id (hparents m hm ▸ hp)
      have hconnections := connections_removeNode id fun c hc => ends_of_touches h hc
      rw [removeNode_of_none hn] at hconnections ⊢
      rw [cleared, hfilter, hnodes, ← hconnections]
  | some n =>
      obtain ⟨rfl, hmem⟩ := Keyed.find_some_key hn
      have hnodes : g.nodes.map (detached n.id n) = g.nodes.map (Node.forgetting n.id) := by
        refine List.map_congr_left fun m hm => detached_eq_forgetting (fun hc => ?_) fun hp => ?_
        · rw [← hchildren m hm, h.mirrored, hparents n hmem] at hc
          exact hc
        · rw [← hparents m hm, ← h.mirrored, hchildren n hmem] at hp
          exact hp
      rw [removeNode_of_some hn, hnodes, Keyed.erase, List.filter_map]
      rfl

theorem removeNode_comm (a b : Value) :
    (g.removeNode a).removeNode b = (g.removeNode b).removeNode a :=
  calc (g.removeNode a).removeNode b
      = (g.cleared a).cleared b := by
        rw [removeNode_eq_cleared (consistent_removeNode h a), removeNode_eq_cleared h]
    _ = (g.cleared b).cleared a := cleared_comm g a b
    _ = (g.removeNode b).removeNode a := by
        rw [removeNode_eq_cleared (consistent_removeNode h b), removeNode_eq_cleared h]

/-! ## Removing a connection -/

omit h in
theorem unlink_eq_parted (g : Graph) (s t : Value) :
    g.unlink s t = { g with nodes := g.nodes.map (Node.parted s t) } := by
  have hnode (n : Node) :
      (let m := if n.id = s then n.removeChild t else n
       if m.id = t then m.removeParent s else m) = n.parted s t := by
    have hid : (if n.id = s then n.removeChild t else n).id = n.id := by split <;> rfl
    simp only [hid, Node.parted]
    split_ifs <;> rfl
  rw [unlink, modifyNode, modifyNode, Keyed.modify, Keyed.modify, List.map_map]
  exact congrArg (fun ns => { g with nodes := ns }) (List.map_congr_left fun n _ => hnode n)

/-- A name stands for one connection, so that no other one goes with it. -/
theorem without_eq_filter {c : Connection} (hc : c ∈ g.connections) :
    g.without c.id = { g with connections := g.connections.filter (· ≠ c) } := by
  have hname (d : Connection) (hd : d ∈ g.connections) : d.id = c.id ↔ d = c := by
    refine ⟨fun he => ?_, fun he => he ▸ rfl⟩
    have hfind := Keyed.find_of_mem h.nodup_connections hd
    rw [he, Keyed.find_of_mem h.nodup_connections hc] at hfind
    exact (Option.some.inj hfind).symm
  rw [without, Keyed.erase]
  congr 1
  exact List.filter_congr fun d hd => by simp [hname d hd]

/-- In a consistent graph, to remove a connection is to cut it out. -/
theorem disconnect_eq_severed {c : Connection} (hc : c ∈ g.connections) :
    g.disconnect c.id = g.severed c := by
  have hfind : g.connection? c.id = some c := Keyed.find_of_mem h.nodup_connections hc
  have hrest := without_eq_filter h hc
  have hjoined : (g.without c.id).Joined c.source.node c.target.node ↔
      ∃ d ∈ g.connections.filter (· ≠ c), d.joins c.source.node c.target.node = true := by
    rw [hrest, Joined]
  by_cases hj : (g.without c.id).Joined c.source.node c.target.node
  · simp only [disconnect_of_joined hfind hj, severed, if_pos (hjoined.mp hj), hrest]
  · simp only [disconnect_of_not_joined hfind hj, severed, if_neg (mt hjoined.mpr hj),
      unlink_eq_parted, hrest]

end

/-- In a graph that has been edited from an empty one, a removal cuts out what it names and leaves
all else as it was, whichever of two nodes goes first. The entries that removing a connection may
take away were there before. -/
theorem edited_removals {g : Graph} (hn : g.nodes = []) (hc : g.connections = [])
    {es : List Edit} (hes : ∀ e ∈ es, e.IsNew) :
    (∀ id, ((Edit.removeNode id).apply (g.run es)).result = .ok ((g.run es).cleared id)) ∧
      (∀ a b, (g.run es).run [.removeNode a, .removeNode b] =
        (g.run es).run [.removeNode b, .removeNode a]) ∧
      ∀ c ∈ (g.run es).connections,
        ((Edit.disconnect c.id).apply (g.run es)).result = .ok ((g.run es).severed c) ∧
          c.target.node ∈ (g.run es).childrenOf c.source.node ∧
          c.source.node ∈ (g.run es).parentsOf c.target.node := by
  have h := consistent_run (consistent_of_empty hn hc) hes
  refine ⟨fun id => ?_, fun a b => ?_, fun c hmem => ⟨?_, ?_, ?_⟩⟩
  · rw [Edit.apply, result_removeNodeLogged, removeNode_eq_cleared h]
  · simp only [run_cons, run_nil, after_removeNode]
    exact removeNode_comm h a b
  · exact congrArg Except.ok (disconnect_eq_severed h hmem)
  · exact h.linked c hmem
  · exact (h.mirrored _ _).mp (h.linked c hmem)

/-- Two connections lead from A to B and one from A to itself. The link to B outlasts the first of
the two, the loop goes with its connection. -/
theorem edited_removals_parallel :
    let g : Graph := { id := .str "g", name := .str "Test" }
    let es : List Edit :=
      [.addNode (.plain "A"), .addNode (.plain "B"), .connect (.plain "c" "A" "B") true,
        .connect (.plain "d" "A" "B") false, .connect (.plain "e" "A" "A") false]
    let parallel : Connection := .plain "d" "A" "B"
    let loop : Connection := .plain "e" "A" "A"
    (g.nodes = [] ∧ g.connections = [] ∧ (∀ e ∈ es, e.IsNew) ∧
        parallel ∈ (g.run es).connections ∧ loop ∈ (g.run es).connections) ∧
      (g.run es).run [.removeNode (.str "A"), .removeNode (.str "B")] =
        (g.run es).run [.removeNode (.str "B"), .removeNode (.str "A")] ∧
      ((Edit.removeNode (.str "A")).apply (g.run es)).result =
        .ok ((g.run es).cleared (.str "A")) ∧
      ((g.run es).cleared (.str "A")).connections = [] ∧
      ((Edit.disconnect (.str "d")).apply (g.run es)).result = .ok ((g.run es).severed parallel) ∧
      ((g.run es).severed parallel).childrenOf (.str "A") = [.str "B", .str "A"] ∧
      ((Edit.disconnect (.str "e")).apply (g.run es)).result = .ok ((g.run es).severed loop) ∧
      ((g.run es).severed loop).childrenOf (.str "A") = [.str "B"] := by
  intro g es parallel loop
  have hes : ∀ e ∈ es, e.IsNew := by decide
  have hparallel : parallel ∈ (g.run es).connections := by decide
  have hloop : loop ∈ (g.run es).connections := by decide
  obtain ⟨hnode, hswap, hconnection⟩ := edited_removals (g := g) rfl rfl hes
  exact ⟨⟨rfl, rfl, hes, hparallel, hloop⟩, hswap _ _, hnode _, by decide,
    (hconnection parallel hparallel).1, by decide, (hconnection loop hloop).1, by decide⟩

end Graph

end SpatialDiagram
