import SpatialDiagram.Proofs.Scene.Normalization
import SpatialDiagram.Value.Order

/-!
# The lists of a graph that was read

A node is read with the lists that its document gives it, and nothing compares
them with the other nodes or with the connections. What a node holds afterwards
is what any of the nodes listed under its name gives, and what the connections
add. The lists are therefore consistent exactly if the document is coherent;
where it is not, an entry outlives the node that it names. Names are texts here,
which are one key only if they are equal.
-/

namespace SpatialDiagram

/-! ## Names that are texts -/

/-- The names in a node, its own and those in its lists, are texts. -/
def Node.HasTextIds (n : Node) : Prop :=
  n.id.isText = true ∧ (∀ v ∈ n.children, v.isText = true) ∧ ∀ v ∈ n.parents, v.isText = true

/-- The names in a connection, its own and those of its nodes, are texts. -/
def Connection.HasTextIds (c : Connection) : Prop :=
  c.id.isText = true ∧ c.source.node.isText = true ∧ c.target.node.isText = true

instance (n : Node) : Decidable n.HasTextIds :=
  inferInstanceAs (Decidable (n.id.isText = true ∧ (∀ v ∈ n.children, v.isText = true) ∧
    ∀ v ∈ n.parents, v.isText = true))

instance (c : Connection) : Decidable c.HasTextIds :=
  inferInstanceAs (Decidable (c.id.isText = true ∧ c.source.node.isText = true ∧
    c.target.node.isText = true))

/-- The names in the nodes and the connections that a document lists are texts. -/
def Value.HasTextIds (v : Value) : Prop :=
  (∀ ns ∈ v.listedNodes.toOption, ∀ n ∈ ns, n.HasTextIds) ∧
    ∀ cs ∈ v.listedConnections.toOption, ∀ c ∈ cs, c.HasTextIds

instance (v : Value) : Decidable v.HasTextIds :=
  inferInstanceAs (Decidable ((∀ ns ∈ v.listedNodes.toOption, ∀ n ∈ ns, n.HasTextIds) ∧
    ∀ cs ∈ v.listedConnections.toOption, ∀ c ∈ cs, c.HasTextIds))

/-- The names in what an edit adds are texts. -/
def Edit.HasTextIds : Edit → Prop
  | addNode n => n.HasTextIds
  | connect c _ => c.HasTextIds
  | _ => True

instance : (e : Edit) → Decidable e.HasTextIds
  | .addNode n => inferInstanceAs (Decidable n.HasTextIds)
  | .connect c _ => inferInstanceAs (Decidable c.HasTextIds)
  | .disconnect _ => isTrue trivial
  | .removeNode _ => isTrue trivial

namespace Side

theorem isText_of_mem_list (side : Side) {n : Node} (hn : n.HasTextIds) {v : Value}
    (hv : v ∈ side.list n) : v.isText = true := by
  cases side
  case children => exact hn.2.1 v hv
  case parents => exact hn.2.2 v hv

theorem isText_entry (side : Side) {c : Connection} (hc : c.HasTextIds) :
    (side.entry c).isText = true := by
  cases side
  case children => exact hc.2.2
  case parents => exact hc.2.1

/-- One of the nodes listed under a name has a certain entry. -/
def Declares (side : Side) (ns : List Node) (u v : Value) : Prop :=
  ∃ n ∈ ns, n.id = u ∧ v ∈ side.list n

/-- One of the connections makes a certain entry at a node. -/
def Enters (side : Side) (cs : List Connection) (u v : Value) : Prop :=
  ∃ c ∈ cs, side.holder c = u ∧ side.entry c = v

instance (side : Side) (ns : List Node) (u v : Value) : Decidable (side.Declares ns u v) :=
  inferInstanceAs (Decidable (∃ n ∈ ns, n.id = u ∧ v ∈ side.list n))

instance (side : Side) (cs : List Connection) (u v : Value) : Decidable (side.Enters cs u v) :=
  inferInstanceAs (Decidable (∃ c ∈ cs, side.holder c = u ∧ side.entry c = v))

/-- What is listed on one side of some nodes fits the rest: the node that comes last under a name
repeats nothing, and every entry is returned by a node of its name or made by a connection. -/
structure Coherent (side : Side) (ns : List Node) (cs : List Connection) : Prop where
  nodup : ∀ n ∈ ns, Keyed.last? Node.id n.id ns = some n → (side.list n).Nodup
  returned : ∀ n ∈ ns, ∀ v ∈ side.list n, side.other.Declares ns v n.id ∨ side.Enters cs n.id v

instance (side : Side) (ns : List Node) (cs : List Connection) : Decidable (side.Coherent ns cs) :=
  decidable_of_iff
    ((∀ n ∈ ns, Keyed.last? Node.id n.id ns = some n → (side.list n).Nodup) ∧
      ∀ n ∈ ns, ∀ v ∈ side.list n, side.other.Declares ns v n.id ∨ side.Enters cs n.id v)
    ⟨fun ⟨hnodup, hreturned⟩ => ⟨hnodup, hreturned⟩, fun h => ⟨h.nodup, h.returned⟩⟩

theorem enters_other_iff (side : Side) (cs : List Connection) (u v : Value) :
    side.other.Enters cs u v ↔ side.Enters cs v u := by
  cases side <;> simp only [Enters, entry, other, and_comm]

/-- Removing a node looks for its name in the lists of those that it names on the other side. -/
theorem list_detached (side : Side) (id : Value) (n m : Node) :
    side.list (Graph.detached id n m) =
      if m.id ∈ side.other.list n then (side.list m).filter (· ≠ id) else side.list m := by
  cases side
  case children => exact Graph.children_detached id n m
  case parents => exact Graph.parents_detached id n m

end Side

namespace Graph

variable {side : Side} {g : Graph}

/-- The lists of a settled graph are consistent if they repeat nothing and return each other's
entries: whoever returns an entry is a node, and connections are entered at both ends anyway. -/
theorem IsSettled.consistent_iff (h : g.IsSettled) :
    g.Consistent ↔ ∀ side : Side, (∀ u, (g.entries side.list u).Nodup) ∧
      ∀ u w, w ∈ g.entries side.list u → u ∈ g.entries side.other.list w := by
  constructor
  · intro hg side
    cases side
    case children => exact ⟨hg.nodup_children, fun s t => (hg.mirrored s t).mp⟩
    case parents => exact ⟨hg.nodup_parents, fun t s => (hg.mirrored s t).mpr⟩
  · intro hs
    obtain ⟨hchildren, hreturned⟩ := hs .children
    obtain ⟨hparents, hreturns⟩ := hs .parents
    exact
      { nodup_nodes := h.nodup_nodes
        nodup_connections := h.nodup_connections
        nodup_children := hchildren
        nodup_parents := hparents
        children_known := fun s t ht => mem_nodeIds_of_mem_entries (hreturned s t ht)
        parents_known := fun s t hs => mem_nodeIds_of_mem_entries (hreturns t s hs)
        mirrored := fun s t => ⟨hreturned s t, hreturns t s⟩
        ends_known := fun c hc =>
          ⟨mem_nodeIds_of_mem_entries (h.linked .children c hc),
            mem_nodeIds_of_mem_entries (h.linked .parents c hc)⟩
        linked := h.linked .children }

/-! ## What the nodes give -/

theorem mem_entries_addNodes (ns : List Node) (u v : Value) :
    v ∈ (ns.foldl addNode g).entries side.list u ↔
      v ∈ g.entries side.list u ∨ side.Declares ns u v := by
  induction ns generalizing g with
  | nil => simp [Side.Declares]
  | cons n ns ih =>
      rw [List.foldl_cons, ih, mem_entries_addNode]
      simp only [Side.Declares, List.exists_mem_cons_iff, or_assoc]

/-- Only the node that comes last can bring a repetition, since it is not compared with itself. -/
theorem nodup_entries_addNodes_iff {u : Value} (hg : (g.entries side.list u).Nodup)
    (ns : List Node) :
    ((ns.foldl addNode g).entries side.list u).Nodup ↔
      ∀ n, Keyed.last? Node.id u ns = some n → (side.list n).Nodup := by
  induction ns using List.reverseRecOn with
  | nil => simpa [Keyed.last?] using hg
  | append_singleton ns n ih =>
      rw [List.foldl_append, List.foldl_cons, List.foldl_nil,
        entries_addNode side.list _ n (side.list_inherit n), Keyed.last_concat]
      by_cases hu : n.id = u
      · rw [if_pos hu, if_pos hu, nodup_foldl_addOnce_iff]
        simp
      · rw [if_neg hu, if_neg hu, ih]

/-! ## What the connections add -/

/-- Connections that are read bring their entries to those of the nodes. -/
theorem mem_entries_withConnections {cs : List Connection}
    (hcs : ∀ c ∈ cs, side.holder c ∈ g.nodeIds) (u v : Value) :
    v ∈ (cs.foldl withConnection g).entries side.list u ↔
      v ∈ g.entries side.list u ∨ side.Enters cs u v := by
  induction cs generalizing g with
  | nil => simp [Side.Enters]
  | cons c cs ih =>
      obtain ⟨hc, hcs⟩ := List.forall_mem_cons.mp hcs
      have hrest : ∀ d ∈ cs, side.holder d ∈ (g.withConnection c).nodeIds := by
        rwa [nodeIds_withConnection]
      rw [List.foldl_cons, ih hrest, mem_entries_withConnection hc]
      simp only [Side.Enters, List.exists_mem_cons_iff, or_assoc]

theorem nodup_entries_withConnections_iff {cs : List Connection}
    (hcs : ∀ c ∈ cs, side.holder c ∈ g.nodeIds) (u : Value) :
    ((cs.foldl withConnection g).entries side.list u).Nodup ↔
      (g.entries side.list u).Nodup := by
  induction cs generalizing g with
  | nil => rfl
  | cons c cs ih =>
      obtain ⟨hc, hcs⟩ := List.forall_mem_cons.mp hcs
      have hrest : ∀ d ∈ cs, side.holder d ∈ (g.withConnection c).nodeIds := by
        rwa [nodeIds_withConnection]
      rw [List.foldl_cons, ih hrest, entries_withConnection hc]
      split
      · exact nodup_addOnce_iff _ _
      · rfl

section

variable {v : Value} {ns : List Node} {cs : List Connection} (h : g.IsReadFrom v ns cs)

include h

theorem IsReadFrom.entries_eq (u : Value) :
    g.entries side.list u = (g.blank.filled ns cs).entries side.list u :=
  (congrArg (entries side.list · u) h.contents).trans rfl

/-- An entry of a graph that was read is declared by a node or entered by a connection. -/
theorem IsReadFrom.mem_entries_iff (u w : Value) :
    w ∈ g.entries side.list u ↔ side.Declares ns u w ∨ side.Enters cs u w := by
  rw [h.entries_eq, filled, mem_entries_withConnections fun c hc => (h.admitted c hc).holder side,
    mem_entries_addNodes, entries_eq_nil side.list (by simp [blank, nodeIds])]
  simp

/-- The entries of a graph that was read repeat only where the last declaration of a node does. -/
theorem IsReadFrom.nodup_entries_iff (u : Value) :
    (g.entries side.list u).Nodup ↔
      ∀ n, Keyed.last? Node.id u ns = some n → (side.list n).Nodup := by
  rw [h.entries_eq, filled,
    nodup_entries_withConnections_iff fun c hc => (h.admitted c hc).holder side]
  apply nodup_entries_addNodes_iff
  rw [entries_eq_nil side.list (by simp [blank, nodeIds])]
  exact List.nodup_nil

/-- What a connection enters is returned by its other end, so this is up to the listed entries. -/
theorem IsReadFrom.consistent_iff : g.Consistent ↔ ∀ side : Side, side.Coherent ns cs := by
  rw [h.isSettled.consistent_iff]
  refine forall_congr' fun side => ⟨fun hg => ?_, fun hc => ⟨fun u => ?_, fun u w hw => ?_⟩⟩
  · refine ⟨fun n _ => (h.nodup_entries_iff n.id).mp (hg.1 n.id) n, fun n hn w hw => ?_⟩
    have hentry : w ∈ g.entries side.list n.id :=
      (h.mem_entries_iff n.id w).mpr (Or.inl ⟨n, hn, rfl, hw⟩)
    rw [← side.enters_other_iff, ← h.mem_entries_iff]
    exact hg.2 n.id w hentry
  · refine (h.nodup_entries_iff u).mpr fun n hlast => ?_
    obtain ⟨hid, hn⟩ := Keyed.find_some_key hlast
    exact hc.nodup n (List.mem_reverse.mp hn) (hid ▸ hlast)
  · rw [h.mem_entries_iff, side.enters_other_iff]
    rcases (h.mem_entries_iff u w).mp hw with ⟨n, hn, rfl, hlisted⟩ | hentered
    · exact hc.returned n hn w hlisted
    · exact Or.inr hentered

/-- Where the names in a document are texts, so are those in the graph. -/
theorem IsReadFrom.hasTextIds (hids : v.HasTextIds) : ∀ n ∈ g.nodes, n.HasTextIds := by
  have hnodes := hids.1 ns (by rw [h.listedNodes]; rfl)
  have hconnections := hids.2 cs (by rw [h.listedConnections]; rfl)
  have hkey : ∀ u ∈ g.nodeIds, u.isText = true := by
    have hadded : ∀ u ∈ (ns.foldl addNode g.blank).nodeIds, u.isText = true := by
      have hblank : ∀ u ∈ g.blank.nodeIds, u.isText = true := by simp [blank, nodeIds]
      refine List.foldlRecOn ns addNode (motive := fun k => ∀ u ∈ k.nodeIds, u.isText = true)
        hblank fun k hk n hn => ?_
      rw [nodeIds_addNode]
      split
      · exact hk
      · exact List.forall_mem_append.mpr ⟨hk, List.forall_mem_singleton.mpr (hnodes n hn).1⟩
    have hfilled : ∀ u ∈ (g.blank.filled ns cs).nodeIds, u.isText = true := by
      refine List.foldlRecOn cs withConnection (motive := fun k => ∀ u ∈ k.nodeIds, u.isText = true)
        hadded fun k hk c _ => ?_
      rwa [nodeIds_withConnection]
    rw [h.contents]
    exact hfilled
  have hentry (side : Side) {n : Node} (hn : n ∈ g.nodes) {w : Value} (hw : w ∈ side.list n) :
      w.isText = true := by
    rw [← entries_of_mem side.list h.isSettled.nodup_nodes hn, h.mem_entries_iff] at hw
    rcases hw with ⟨m, hm, -, hlisted⟩ | ⟨c, hc, -, rfl⟩
    · exact side.isText_of_mem_list (hnodes m hm) hlisted
    · exact side.isText_entry (hconnections c hc)
  intro n hn
  exact ⟨hkey n.id (List.mem_map_of_mem hn), fun w => hentry .children hn,
    fun w => hentry .parents hn⟩

end

/-! ## Removing a node -/

/-- An entry outlives its node exactly where that node does not return it. -/
theorem mem_entries_removeNode_iff {id : Value} (hid : id ∈ g.nodeIds) (u : Value) :
    id ∈ (g.removeNode id).entries side.list u ↔
      u ≠ id ∧ id ∈ g.entries side.list u ∧ u ∉ g.entries side.other.list id := by
  obtain ⟨n, hn⟩ := Option.isSome_iff_exists.mp ((mem_nodeIds_iff g id).mp hid)
  have hback : g.entries side.other.list id = side.other.list n := by simp [entries, hn]
  rw [entries_removeNode side.list hn (side.other.list n) (side.list_detached id n), hback]
  by_cases hu : u = id <;> by_cases hm : u ∈ side.other.list n <;> simp [hu, hm]

/-- In a consistent graph no entry outlives the node that it names. -/
theorem not_mem_entries_removeNode_of_consistent (h : g.Consistent) (id u : Value) :
    id ∉ (g.removeNode id).entries side.list u := by
  have hremoved : (g.removeNode id).entries side.list u =
      if u = id then [] else (g.entries side.list u).filter (· ≠ id) := by
    cases side
    case children => exact childrenOf_removeNode h id u
    case parents => exact parentsOf_removeNode h id u
  rw [hremoved]
  split <;> simp

/-- Where names are texts, the lists of a graph that was read are consistent exactly if those of its
document fit together on both sides, and then no node that is removed after any edits leaves an
entry behind. In any case the entries that removing a node of the graph leaves are those which some
node lists although none of the removed name returns it and no connection makes it. -/
theorem read_consistent_iff {v : Value} {g : Graph} (hids : v.HasTextIds)
    (h : (ofValue v).result = .ok g) :
    ∃ ns cs, v.listedNodes = .ok ns ∧ v.listedConnections = .ok cs ∧
      (∀ n ∈ g.nodes, n.HasTextIds ∧ g.childrenOf n.id = n.children ∧
        g.parentsOf n.id = n.parents) ∧
      (g.Consistent ↔ ∀ side : Side, side.Coherent ns cs) ∧
      ((∀ side : Side, side.Coherent ns cs) →
        ∀ es : List Edit, (∀ e ∈ es, e.IsNew ∧ e.HasTextIds) →
          ∀ (side : Side) (id u : Value), id ∉ ((g.run es).removeNode id).entries side.list u) ∧
      ∀ id ∈ g.nodeIds, ∀ (side : Side) (u : Value),
        id ∈ (g.removeNode id).entries side.list u ↔
          u ≠ id ∧ side.Declares ns u id ∧ ¬ side.other.Declares ns id u ∧
            ¬ side.Enters cs u id := by
  obtain ⟨ns, cs, hread⟩ := (result_ofValue_eq_ok_iff v g).mp h
  have hd := hread.isSettled.nodup_nodes
  refine ⟨ns, cs, hread.listedNodes, hread.listedConnections, fun n hn => ?_,
    hread.consistent_iff, fun hc es hes side id u => ?_, fun id hid side u => ?_⟩
  · exact ⟨hread.hasTextIds hids n hn, entries_of_mem Node.children hd hn,
      entries_of_mem Node.parents hd hn⟩
  · exact not_mem_entries_removeNode_of_consistent
      (consistent_run (hread.consistent_iff.mpr hc) fun e he => (hes e he).1) id u
  · rw [mem_entries_removeNode_iff hid, hread.mem_entries_iff, hread.mem_entries_iff,
      side.enters_other_iff]
    tauto

/-- A node comes first with a list that repeats a name and then without one. -/
theorem read_consistent_iff_repeated :
    let v : Value := .plainGraph
      [.plainNode "A" [("children", .list [.str "B", .str "B"])],
        .plainNode "B" [("parents", .list [.str "A"])], .plainNode "A" []]
      [.plainConnection "c" "B" "A"]
    v.HasTextIds ∧ ∃ g, (ofValue v).result = .ok g ∧ g.Consistent ∧
      g.childrenOf (.str "A") = [.str "B"] ∧ ∀ (side : Side) (u : Value), .str "B" ∉
        ((g.run [.disconnect (.str "c")]).removeNode (.str "B")).entries side.list u := by
  intro v
  have hids : v.HasTextIds := by decide +kernel
  have hread : (ofValue v).result.map (·.childrenOf (.str "A")) = .ok [.str "B"] := by
    decide +kernel
  have hcoherent (side : Side) : side.Coherent (v.listedNodes.toOption.getD [])
      (v.listedConnections.toOption.getD []) := by
    cases side <;> decide +kernel
  obtain ⟨g, h, hlists⟩ := map_eq_ok_iff.mp hread
  obtain ⟨ns, cs, hns, hcs, -, hiff, hedits, -⟩ := read_consistent_iff hids h
  rw [hns, hcs] at hcoherent
  exact ⟨hids, g, h, hiff.mpr hcoherent, hlists,
    fun side u => hedits hcoherent _ (by decide) side (.str "B") u⟩

/-- A node lists another one that does not return it. The entry stays when the other one goes. -/
theorem entry_outlives_node :
    let v : Value :=
      .plainGraph [.plainNode "A" [("children", .list [.str "B"])], .plainNode "B" []] []
    ∃ g, (ofValue v).result = .ok g ∧ ¬ g.Consistent ∧
      .str "B" ∈ g.childrenOf (.str "A") ∧ .str "A" ∉ g.parentsOf (.str "B") ∧
      .str "B" ∉ (g.removeNode (.str "B")).nodeIds ∧
      .str "B" ∈ (g.removeNode (.str "B")).childrenOf (.str "A") := by
  intro v
  have hread : (ofValue v).result.map (fun g =>
      (g.childrenOf (.str "A"), g.parentsOf (.str "B"), (g.removeNode (.str "B")).nodeIds,
        (g.removeNode (.str "B")).childrenOf (.str "A"))) =
      .ok ([.str "B"], [], [.str "A"], [.str "B"]) := by decide +kernel
  obtain ⟨g, h, hlists⟩ := map_eq_ok_iff.mp hread
  simp only [Prod.mk.injEq] at hlists
  obtain ⟨hchildren, hparents, hids, hleft⟩ := hlists
  refine ⟨g, h, fun hg => ?_, by simp [hchildren], by simp [hparents], by simp [hids],
    by simp [hleft]⟩
  have hmirrored := (hg.mirrored (.str "A") (.str "B")).mp (by simp [hchildren])
  simp [hparents] at hmirrored

end Graph

end SpatialDiagram
