import SpatialDiagram.Proofs.Endings
import SpatialDiagram.Proofs.Scene.Editing
import SpatialDiagram.Scene.Decoding

/-!
# What a document becomes

A document lists nodes and connections. A graph is read from it exactly if all
of them can be read, have names that can be keys, and lead from and to listed
nodes; it is then put together from them in turn, the nodes first.
-/

namespace SpatialDiagram

open Value

theorem Value.asKey_eq_ok_iff {v w : Value} : v.asKey = .ok w ↔ v.isScalar = true ∧ w = v := by
  rw [asKey]
  split <;> simp [*, eq_comm]

/-- A node has two lists. A connection is entered in one list of each of its ends. -/
inductive Side where
  | children
  | parents

namespace Side

/-- The list that a node keeps on one side of it. -/
def list : Side → Node → List Value
  | children => Node.children
  | parents => Node.parents

/-- The opposite side. -/
def other : Side → Side
  | children => parents
  | parents => children

/-- The end of a connection that has it in its list on one side. -/
def holder : Side → Connection → Value
  | children, c => c.source.node
  | parents, c => c.target.node

/-- What a connection enters on one side. -/
def entry (side : Side) (c : Connection) : Value := side.other.holder c

theorem list_inherit (side : Side) (n p : Node) :
    side.list (Graph.inherit n p) =
      (side.list p).foldl (fun xs x => addOnce x xs) (side.list n) := by
  cases side <;> rfl

end Side

/-- The nodes that a document lists, in its order. -/
def Value.listedNodes (v : Value) : Except Failure (List Node) := do
  (← v.optional "nodes" (.list []) >>= asItems).mapM Node.ofValue

/-- The connections that a document lists, in its order. -/
def Value.listedConnections (v : Value) : Except Failure (List Connection) := do
  (← v.optional "connections" (.list []) >>= asItems).mapM Connection.ofValue

/-- The record of a component in place, with the fields that it cannot do without and some more. -/
def Value.plainNode (id : String) (more : List (String × Value)) : Value :=
  record ([("id", str id), ("type", str NodeCategory.component.name), ("name", str id),
    ("geometry", str Shape.box.name), ("transform", Transform.unit.toValue)] ++ more)

/-- The record of a data flow between two nodes, with the fields that it cannot do without. -/
def Value.plainConnection (id source target : String) : Value :=
  record [("id", str id), ("type", str ConnectionCategory.dataFlow.name),
    ("source", record [("nodeId", str source)]), ("target", record [("nodeId", str target)])]

/-- The record of a graph with the nodes and the connections that some records describe. -/
def Value.plainGraph (nodes connections : List Value) : Value :=
  record [("id", str "g"), ("name", str "Test"), ("nodes", list nodes),
    ("connections", list connections)]

/-- The names of a connection and of its ends can be keys. -/
def Connection.IsKeyed (c : Connection) : Prop :=
  c.id.isScalar = true ∧ c.source.node.isScalar = true ∧ c.target.node.isScalar = true

namespace Graph

/-- The graph with a connection that comes with the anchors it has. -/
def withConnection (g : Graph) (c : Connection) : Graph := g.connected c false

/-- The graph with some nodes and then some connections added in turn. -/
def filled (g : Graph) (ns : List Node) (cs : List Connection) : Graph :=
  cs.foldl withConnection (ns.foldl addNode g)

/-- What is there of a graph before anything is read into it. -/
def blank (g : Graph) : Graph := { id := g.id, name := g.name, description := g.description }

/-! ## Putting a graph together -/

theorem nodeIds_withConnection (g : Graph) (c : Connection) :
    (g.withConnection c).nodeIds = g.nodeIds := nodeIds_link g c.source.node c.target.node

/-- A node brings the entries that it lists. -/
theorem mem_entries_addNode (side : Side) (g : Graph) (n : Node) (u v : Value) :
    v ∈ (g.addNode n).entries side.list u ↔
      v ∈ g.entries side.list u ∨ n.id = u ∧ v ∈ side.list n := by
  rw [entries_addNode side.list g n (side.list_inherit n)]
  by_cases hu : n.id = u <;> simp [hu, mem_foldl_addOnce, or_comm]

theorem entries_withConnection {side : Side} {g : Graph} {c : Connection}
    (hc : side.holder c ∈ g.nodeIds) (u : Value) :
    (g.withConnection c).entries side.list u =
      if u = side.holder c then addOnce (side.entry c) (g.entries side.list u)
      else g.entries side.list u := by
  cases side
  case children => exact childrenOf_link hc c.target.node u
  case parents => exact parentsOf_link hc c.source.node u

/-- A connection brings one entry on each side. -/
theorem mem_entries_withConnection {side : Side} {g : Graph} {c : Connection}
    (hc : side.holder c ∈ g.nodeIds) (u v : Value) :
    v ∈ (g.withConnection c).entries side.list u ↔
      v ∈ g.entries side.list u ∨ side.holder c = u ∧ side.entry c = v := by
  rw [entries_withConnection hc]
  by_cases hu : u = side.holder c <;> simp [hu, eq_comm]

/-- Only nodes and connections are put into a graph. -/
theorem filled_eq (g : Graph) (ns : List Node) (cs : List Connection) :
    g.filled ns cs =
      { g with
        nodes := (g.filled ns cs).nodes
        connections := (g.filled ns cs).connections } := by
  have hnodes : ns.foldl addNode g = { g with nodes := (ns.foldl addNode g).nodes } :=
    List.foldlRecOn ns addNode (motive := fun h : Graph => h = { g with nodes := h.nodes }) rfl
      fun h hh n _ => by rw [addNode, hh]
  refine List.foldlRecOn cs withConnection (motive := fun h : Graph =>
    h = { g with nodes := h.nodes, connections := h.connections }) ?_ fun h hh c _ => ?_
  · rw [hnodes]
  · rw [withConnection, connected, hh]
    rfl

/-! ## Reading a graph -/

theorem result_readNode_eq_ok_iff (g : Graph) (v : Value) (g' : Graph) :
    (readNode g v).result = .ok g' ↔
      ∃ n, Node.ofValue v = .ok n ∧ n.id.isScalar = true ∧ g' = g.addNode n := by
  simp only [readNode, Trace.result_bind_eq_ok_iff, Trace.result_ofResult, asKey_eq_ok_iff,
    result_addNodeLogged, Except.ok.injEq]
  constructor
  · rintro ⟨n, hn, _, ⟨hkey, -⟩, rfl⟩
    exact ⟨n, hn, hkey, rfl⟩
  · rintro ⟨n, hn, hkey, rfl⟩
    exact ⟨n, hn, _, ⟨hkey, rfl⟩, rfl⟩

/-- A connection can be added to a graph that has its ends. -/
def Admits (g : Graph) (c : Connection) : Prop :=
  c.IsKeyed ∧ c.source.node ∈ g.nodeIds ∧ c.target.node ∈ g.nodeIds

theorem Admits.holder {g : Graph} {c : Connection} (h : g.Admits c) (side : Side) :
    side.holder c ∈ g.nodeIds := by
  cases side
  case children => exact h.2.1
  case parents => exact h.2.2

theorem result_readConnection_eq_ok_iff (g : Graph) (v : Value) (g' : Graph) :
    (readConnection g v).result = .ok g' ↔
      ∃ c, Connection.ofValue v = .ok c ∧ g.Admits c ∧ g' = g.withConnection c := by
  have hconnect (c : Connection) (h : Graph) : g.connect c false = .ok h ↔
      (c.source.node ∈ g.nodeIds ∧ c.target.node ∈ g.nodeIds) ∧ h = g.withConnection c := by
    by_cases hk : c.source.node ∈ g.nodeIds ∧ c.target.node ∈ g.nodeIds
    · simp [connect_of_known false hk.1 hk.2, hk, withConnection, eq_comm]
    · simp [connect_of_unknown false hk, hk]
  simp only [readConnection, Trace.result_ofResult, bind_eq_ok_iff, asKey_eq_ok_iff, hconnect]
  constructor
  · rintro ⟨c, hc, _, ⟨hsource, -⟩, _, ⟨htarget, -⟩, _, ⟨hk, rfl⟩, _, ⟨hid, -⟩, he⟩
    exact ⟨c, hc, ⟨⟨hid, hsource, htarget⟩, hk⟩, (Except.ok.inj he).symm⟩
  · rintro ⟨c, hc, ⟨⟨hid, hsource, htarget⟩, hk⟩, rfl⟩
    exact ⟨c, hc, _, ⟨hsource, rfl⟩, _, ⟨htarget, rfl⟩, _, ⟨hk, rfl⟩, _, ⟨hid, rfl⟩, rfl⟩

/-- A graph is put together from the nodes and the connections that a document lists. -/
structure IsReadFrom (g : Graph) (v : Value) (ns : List Node) (cs : List Connection) : Prop where
  id : v.require "id" = .ok g.id
  name : v.require "name" = .ok g.name
  description : v.optional "description" .null = .ok g.description
  annotations : (v.optional "metadata" emptyRecord >>= asTable) = .ok g.annotations
  listedNodes : v.listedNodes = .ok ns
  listedConnections : v.listedConnections = .ok cs
  nodeKeys : ∀ n ∈ ns, n.id.isScalar = true
  admitted : ∀ c ∈ cs, (ns.foldl addNode g.blank).Admits c
  contents : g = { g.blank.filled ns cs with annotations := g.annotations }

/-- A graph is read exactly if all its parts, its nodes and its connections are, in turn. -/
theorem result_ofValue_eq_ok_iff (v : Value) (g : Graph) :
    (ofValue v).result = .ok g ↔ ∃ ns cs, g.IsReadFrom v ns cs := by
  have hnodes (items : List Value) (h h' : Graph) : (items.foldlM readNode h).result = .ok h' ↔
      ∃ ns, items.mapM Node.ofValue = .ok ns ∧ (∀ n ∈ ns, n.id.isScalar = true) ∧
        h' = ns.foldl addNode h :=
    Trace.result_foldlM_eq_ok_iff result_readNode_eq_ok_iff fun _ _ _ _ => Iff.rfl
  have hconnections (items : List Value) (h h' : Graph) :
      (items.foldlM readConnection h).result = .ok h' ↔
        ∃ cs, items.mapM Connection.ofValue = .ok cs ∧ (∀ c ∈ cs, h.Admits c) ∧
          h' = cs.foldl withConnection h :=
    Trace.result_foldlM_eq_ok_iff result_readConnection_eq_ok_iff fun h c d _ => by
      rw [Admits, Admits, nodeIds_withConnection]
  simp only [ofValue, Trace.result_bind_eq_ok_iff, Trace.result_ofResult, hnodes, hconnections,
    Trace.result_pure, Except.ok.injEq]
  constructor
  · rintro ⟨id, hid, name, hname, description, hdescription, items, hitems, _,
      ⟨ns, hns, hkeys, rfl⟩, links, hlinks, _, ⟨cs, hcs, hadmitted, rfl⟩, annotations,
      hannotations, rfl⟩
    let start : Graph := { id, name, description }
    let g : Graph := { start.filled ns cs with annotations }
    have hblank : g.blank = start := by
      rw [blank]
      simp only [g]
      rw [start.filled_eq ns cs]
    have hstart : g.id = id ∧ g.name = name ∧ g.description = description :=
      ⟨congrArg Graph.id hblank, congrArg Graph.name hblank, congrArg Graph.description hblank⟩
    refine ⟨ns, cs, ?_⟩
    constructor
    case id => exact hid.trans (congrArg Except.ok hstart.1.symm)
    case name => exact hname.trans (congrArg Except.ok hstart.2.1.symm)
    case description => exact hdescription.trans (congrArg Except.ok hstart.2.2.symm)
    case annotations => exact hannotations
    case listedNodes => exact bind_eq_ok_iff.mpr ⟨items, hitems, hns⟩
    case listedConnections => exact bind_eq_ok_iff.mpr ⟨links, hlinks, hcs⟩
    case nodeKeys => exact hkeys
    case admitted => exact fun c hc => hblank ▸ hadmitted c hc
    case contents =>
      change g = { g.blank.filled ns cs with annotations := annotations }
      rw [hblank]
  · rintro ⟨ns, cs, h⟩
    obtain ⟨items, hitems, hns⟩ := bind_eq_ok_iff.mp h.listedNodes
    obtain ⟨links, hlinks, hcs⟩ := bind_eq_ok_iff.mp h.listedConnections
    exact ⟨g.id, h.id, g.name, h.name, g.description, h.description, items, hitems, _,
      ⟨ns, hns, h.nodeKeys, rfl⟩, links, hlinks, _, ⟨cs, hcs, h.admitted, rfl⟩, g.annotations,
      h.annotations, h.contents.symm⟩

end Graph

end SpatialDiagram
