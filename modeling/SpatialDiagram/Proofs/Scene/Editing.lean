import Mathlib.Data.List.Nodup
import SpatialDiagram.Proofs.FirstOccurrences
import SpatialDiagram.Scene.Structure

/-!
# Runs of edits

An edit is one call that changes a graph: a node or a connection comes or goes.
A run carries out edits one after another; an edit that fails leaves the graph
as it was. The lemmas say what each operation does to the lists of children and
parents, read through a look-up by name.
-/

namespace SpatialDiagram

namespace Graph

/-- One of the lists of a node by name; a node that the graph lacks has an empty one. -/
def entries (list : Node → List Value) (g : Graph) (id : Value) : List Value :=
  ((g.node? id).map list).getD []

/-- The children that a graph records for an id. -/
abbrev childrenOf : Graph → Value → List Value := entries Node.children

/-- The parents that a graph records for an id. -/
abbrev parentsOf : Graph → Value → List Value := entries Node.parents

/-- A connection of the graph leads from one node to another. -/
def Joined (g : Graph) (source target : Value) : Prop :=
  ∃ c ∈ g.connections, c.joins source target = true

end Graph

namespace Node

/-- A node that nothing has been connected to yet. -/
def IsNew (n : Node) : Prop := n.children = [] ∧ n.parents = []

instance (n : Node) : Decidable n.IsNew :=
  inferInstanceAs (Decidable (n.children = [] ∧ n.parents = []))

/-- A component of a name, in place. -/
def plain (id : String) : Node := make (.str id) .component (.str id) .box .unit

end Node

/-- A data flow between two nodes, without faces. -/
def Connection.plain (id source target : String) : Connection :=
  make (.str id) .dataFlow { node := .str source } { node := .str target }

/-- One call that changes a graph. -/
inductive Edit where
  | addNode (n : Node)
  | connect (c : Connection) (anchors : Bool)
  | disconnect (id : Value)
  | removeNode (id : Value)

namespace Edit

/-- A node that is added has to be new; a connection may replace another one. -/
def IsNew : Edit → Prop
  | addNode n => n.IsNew
  | _ => True

instance : (e : Edit) → Decidable e.IsNew
  | addNode n => inferInstanceAs (Decidable n.IsNew)
  | connect _ _ => isTrue trivial
  | disconnect _ => isTrue trivial
  | removeNode _ => isTrue trivial

/-- What an edit does to a graph. -/
def apply (g : Graph) : Edit → Trace Graph
  | addNode n => g.addNodeLogged n
  | connect c anchors => .ofResult (g.connect c anchors)
  | disconnect id => .done (g.disconnect id)
  | removeNode id => g.removeNodeLogged id

/-- The graph after a call, which is the graph before it if the call fails. -/
def after (g : Graph) (e : Edit) : Graph :=
  match (e.apply g).result with
  | .ok g' => g'
  | .error _ => g

end Edit

namespace Graph

/-- The graph after some calls in turn. -/
def run (g : Graph) (es : List Edit) : Graph := es.foldl Edit.after g

@[simp] theorem run_nil (g : Graph) : g.run [] = g := rfl

@[simp] theorem run_cons (g : Graph) (e : Edit) (es : List Edit) :
    g.run (e :: es) = (e.after g).run es := rfl

theorem run_append (g : Graph) (es more : List Edit) : g.run (es ++ more) = (g.run es).run more :=
  List.foldl_append

end Graph

/-! ## Lists without repetition -/

theorem filter_ne_of_not_mem {x : Value} {xs : List Value} (h : x ∉ xs) :
    xs.filter (· ≠ x) = xs :=
  List.filter_eq_self.mpr fun y hy => by simpa using fun he : y = x => h (he ▸ hy)

theorem nodup_addOnce_iff (x : Value) (xs : List Value) : (addOnce x xs).Nodup ↔ xs.Nodup := by
  rw [addOnce]
  split
  · rfl
  · rename_i hx
    rw [nodup_concat_iff]
    exact and_iff_right hx

theorem mem_foldl_addOnce (x : Value) (xs ys : List Value) :
    x ∈ xs.foldl (fun zs y => addOnce y zs) ys ↔ x ∈ ys ∨ x ∈ xs := by
  induction xs generalizing ys with
  | nil => simp
  | cons y xs ih => rw [List.foldl_cons, ih, mem_addOnce, List.mem_cons, or_assoc]

theorem nodup_foldl_addOnce_iff (xs ys : List Value) :
    (xs.foldl (fun zs y => addOnce y zs) ys).Nodup ↔ ys.Nodup := by
  induction xs generalizing ys with
  | nil => rfl
  | cons y xs ih => rw [List.foldl_cons, ih, nodup_addOnce_iff]

/-- Entries that are new to a list and differ from each other are appended as they are. -/
theorem foldl_addOnce_of_nodup {xs ys : List Value} (h : (ys ++ xs).Nodup) :
    xs.foldl (fun zs x => addOnce x zs) ys = ys ++ xs := by
  induction xs generalizing ys with
  | nil => simp
  | cons x xs ih =>
      have hx : x ∉ ys := fun hm =>
        (List.nodup_append.mp h).2.2 x hm x List.mem_cons_self rfl
      have hs : (ys ++ [x] ++ xs).Nodup := by simpa using h
      rw [List.foldl_cons, addOnce, if_neg hx, ih hs, List.append_assoc]
      rfl

namespace Graph

/-! ## Look-ups -/

theorem mem_nodeIds_iff (g : Graph) (id : Value) : id ∈ g.nodeIds ↔ (g.node? id).isSome = true :=
  (Keyed.find_isSome_iff Node.id id g.nodes).symm

theorem node_eq_none_iff (g : Graph) (id : Value) : g.node? id = none ↔ id ∉ g.nodeIds := by
  rw [mem_nodeIds_iff]
  cases g.node? id <;> simp

theorem entries_eq_nil (list : Node → List Value) {g : Graph} {id : Value} (h : id ∉ g.nodeIds) :
    g.entries list id = [] := by
  simp [entries, (node_eq_none_iff g id).mpr h]

theorem mem_nodeIds_of_mem_entries {list : Node → List Value} {g : Graph} {u v : Value}
    (h : v ∈ g.entries list u) : u ∈ g.nodeIds := by
  by_contra hu
  simp [entries_eq_nil list hu] at h

theorem entries_of_mem (list : Node → List Value) {g : Graph} (hd : g.nodeIds.Nodup) {n : Node}
    (hn : n ∈ g.nodes) : g.entries list n.id = list n := by
  have hf : g.node? n.id = some n := Keyed.find_of_mem hd hn
  simp [entries, hf]

/-! ## Changing one node -/

theorem node_modifyNode (g : Graph) (id : Value) (f : Node → Node) (hf : ∀ n, (f n).id = n.id)
    (u : Value) :
    (g.modifyNode id f).node? u = if u = id then (g.node? u).map f else g.node? u :=
  Keyed.find_modify Node.id id f hf u g.nodes

@[simp] theorem nodeIds_modifyNode (g : Graph) (id : Value) (f : Node → Node)
    (hf : ∀ n, (f n).id = n.id) : (g.modifyNode id f).nodeIds = g.nodeIds :=
  Keyed.keys_modify Node.id id f hf g.nodes

/-- A change of one node acts on its list as `k` does, provided the node is known or `k` keeps the
empty list. -/
theorem entries_modifyNode (list : Node → List Value) (g : Graph) (id : Value) (f : Node → Node)
    (k : List Value → List Value) (hf : ∀ n, (f n).id = n.id) (hk : ∀ n, list (f n) = k (list n))
    (hid : id ∈ g.nodeIds ∨ k [] = []) (u : Value) :
    (g.modifyNode id f).entries list u =
      if u = id then k (g.entries list u) else g.entries list u := by
  rw [entries, node_modifyNode g id f hf]
  by_cases hu : u = id
  · subst hu
    cases hn : g.node? u with
    | some n => simp [entries, hn, hk]
    | none =>
        have hu : u ∉ g.nodeIds := (node_eq_none_iff g u).mp hn
        simp [entries, hn, hid.resolve_left hu]
  · simp [entries, hu]

theorem entries_modifyNode_of_eq (list : Node → List Value) (g : Graph) (id : Value)
    (f : Node → Node) (hf : ∀ n, (f n).id = n.id) (hk : ∀ n, list (f n) = list n) (u : Value) :
    (g.modifyNode id f).entries list u = g.entries list u := by
  rw [entries_modifyNode list g id f (fun xs => xs) hf hk (Or.inr rfl), ite_self]

/-! ## Linking two nodes -/

theorem nodeIds_link (g : Graph) (s t : Value) : (g.link s t).nodeIds = g.nodeIds := by
  rw [link, nodeIds_modifyNode _ t (·.addParent s) fun _ => rfl,
    nodeIds_modifyNode g s (·.addChild t) fun _ => rfl]

theorem nodeIds_unlink (g : Graph) (s t : Value) : (g.unlink s t).nodeIds = g.nodeIds := by
  rw [unlink, nodeIds_modifyNode _ t (·.removeParent s) fun _ => rfl,
    nodeIds_modifyNode g s (·.removeChild t) fun _ => rfl]

theorem childrenOf_link {g : Graph} {s : Value} (hs : s ∈ g.nodeIds) (t u : Value) :
    (g.link s t).childrenOf u = if u = s then addOnce t (g.childrenOf u) else g.childrenOf u := by
  rw [link, childrenOf,
    entries_modifyNode_of_eq _ _ t (·.addParent s) (fun _ => rfl) (fun _ => rfl),
    entries_modifyNode _ g s (·.addChild t) (addOnce t) (fun _ => rfl) (fun _ => rfl) (Or.inl hs)]

theorem parentsOf_link {g : Graph} {t : Value} (ht : t ∈ g.nodeIds) (s u : Value) :
    (g.link s t).parentsOf u = if u = t then addOnce s (g.parentsOf u) else g.parentsOf u := by
  have ht' : t ∈ (g.modifyNode s (·.addChild t)).nodeIds := by
    rwa [nodeIds_modifyNode g s (·.addChild t) fun _ => rfl]
  rw [link, parentsOf, entries_modifyNode _ _ t (·.addParent s) (addOnce s) (fun _ => rfl)
      (fun _ => rfl) (Or.inl ht'),
    entries_modifyNode_of_eq _ g s (·.addChild t) (fun _ => rfl) (fun _ => rfl)]

theorem childrenOf_unlink (g : Graph) (s t u : Value) :
    (g.unlink s t).childrenOf u =
      if u = s then (g.childrenOf u).filter (· ≠ t) else g.childrenOf u := by
  rw [unlink, childrenOf,
    entries_modifyNode_of_eq _ _ t (·.removeParent s) (fun _ => rfl) (fun _ => rfl),
    entries_modifyNode _ g s (·.removeChild t) (List.filter (· ≠ t)) (fun _ => rfl) (fun _ => rfl)
      (Or.inr rfl)]

theorem parentsOf_unlink (g : Graph) (s t u : Value) :
    (g.unlink s t).parentsOf u =
      if u = t then (g.parentsOf u).filter (· ≠ s) else g.parentsOf u := by
  rw [unlink, parentsOf, entries_modifyNode _ _ t (·.removeParent s) (List.filter (· ≠ s))
      (fun _ => rfl) (fun _ => rfl) (Or.inr rfl),
    entries_modifyNode_of_eq _ g s (·.removeChild t) (fun _ => rfl) (fun _ => rfl)]

/-! ## Adding a node -/

theorem nodeIds_addNode (g : Graph) (n : Node) :
    (g.addNode n).nodeIds = if n.id ∈ g.nodeIds then g.nodeIds else g.nodeIds ++ [n.id] := by
  simp only [addNode, nodeIds]
  rw [Keyed.keys_put]
  cases g.node? n.id <;> rfl

/-- A node as it is added: it takes over the entries of the node in whose place it is put. -/
def succeeding (g : Graph) (n : Node) : Node :=
  match g.node? n.id with
  | some previous => inherit n previous
  | none => n

theorem id_succeeding (g : Graph) (n : Node) : (g.succeeding n).id = n.id := by
  rw [succeeding]
  split <;> rfl

/-- A node that is added stands at its id, with what it takes over from the one before. -/
theorem node_addNode (g : Graph) (n : Node) (u : Value) :
    (g.addNode n).node? u = if n.id = u then some (g.succeeding n) else g.node? u := by
  have h := Keyed.find_put Node.id (g.succeeding n) u g.nodes
  rwa [id_succeeding] at h

/-- What a node lists comes before what it takes over. -/
theorem entries_addNode (list : Node → List Value) (g : Graph) (n : Node)
    (hl : ∀ p, list (inherit n p) = (list p).foldl (fun xs x => addOnce x xs) (list n))
    (u : Value) :
    (g.addNode n).entries list u =
      if n.id = u then (g.entries list u).foldl (fun xs x => addOnce x xs) (list n)
      else g.entries list u := by
  rw [entries, node_addNode]
  by_cases hu : n.id = u
  · subst hu
    cases hp : g.node? n.id with
    | none => simp [succeeding, entries, hp]
    | some p => simp [succeeding, entries, hp, hl]
  · simp [hu, entries]

/-- The lists of a new node are those of the node in whose place it is put. -/
theorem entries_addNode_of_new (list : Node → List Value) (g : Graph) (n : Node)
    (hl : ∀ p, list (inherit n p) = (list p).foldl (fun xs x => addOnce x xs) (list n))
    (hn : list n = []) (hd : (g.entries list n.id).Nodup) (u : Value) :
    (g.addNode n).entries list u = g.entries list u := by
  rw [entries_addNode list g n hl]
  split
  · rename_i hu
    subst hu
    rw [hn]
    exact foldl_addOnce_of_nodup hd
  · rfl

/-! ## Removing a node -/

/-- A node without its entries for a neighbour that is removed. -/
def detached (id : Value) (n m : Node) : Node :=
  let m := if m.id ∈ n.parents then m.removeChild id else m
  if m.id ∈ n.children then m.removeParent id else m

@[simp] theorem id_detached (id : Value) (n m : Node) : (detached id n m).id = m.id := by
  simp only [detached]
  split <;> split <;> rfl

theorem children_detached (id : Value) (n m : Node) :
    (detached id n m).children =
      if m.id ∈ n.parents then m.children.filter (· ≠ id) else m.children := by
  simp only [detached]
  split <;> split <;> rfl

theorem parents_detached (id : Value) (n m : Node) :
    (detached id n m).parents =
      if m.id ∈ n.children then m.parents.filter (· ≠ id) else m.parents := by
  by_cases hp : m.id ∈ n.parents <;> by_cases hc : m.id ∈ n.children <;>
    simp [detached, hp, hc, Node.removeChild, Node.removeParent]

theorem removeNode_of_none {g : Graph} {id : Value} (h : g.node? id = none) :
    g.removeNode id = g := by
  simp [removeNode, h]

/-- A node that is removed is taken out of the lists of the nodes that it lists. -/
theorem removeNode_of_some {g : Graph} {id : Value} {n : Node} (h : g.node? id = some n) :
    g.removeNode id =
      { g with
        nodes := Keyed.erase Node.id id (g.nodes.map (detached id n))
        connections := g.connections.filter fun c => !c.touches id } := by
  simp only [removeNode, h]
  rfl

theorem nodeIds_removeNode (g : Graph) (id : Value) :
    (g.removeNode id).nodeIds = g.nodeIds.filter (· ≠ id) := by
  cases h : g.node? id with
  | none =>
      rw [removeNode_of_none h, filter_ne_of_not_mem ((node_eq_none_iff g id).mp h)]
  | some n =>
      rw [removeNode_of_some h, nodeIds, Keyed.keys_erase]
      simp [nodeIds, Function.comp_def]

theorem mem_nodeIds_removeNode (g : Graph) (id u : Value) :
    u ∈ (g.removeNode id).nodeIds ↔ u ∈ g.nodeIds ∧ u ≠ id := by
  simp [nodeIds_removeNode]

/-- Removing a node removes the connections that touch it. -/
theorem connections_removeNode {g : Graph} (id : Value)
    (h : ∀ c ∈ g.connections, c.touches id = true → id ∈ g.nodeIds) :
    (g.removeNode id).connections = g.connections.filter fun c => !c.touches id := by
  cases hn : g.node? id with
  | none =>
      rw [removeNode_of_none hn, eq_comm, List.filter_eq_self]
      intro c hc
      have hid := (node_eq_none_iff g id).mp hn
      simpa using fun ht => hid (h c hc ht)
  | some n => rw [removeNode_of_some hn]

/-- What is left of the list of a node when another one is removed, given where the operation
looks for entries. -/
theorem entries_removeNode (list : Node → List Value) {g : Graph} {id : Value} {n : Node}
    (hn : g.node? id = some n) (holders : List Value)
    (hl : ∀ m, list (detached id n m) =
      if m.id ∈ holders then (list m).filter (· ≠ id) else list m) (u : Value) :
    (g.removeNode id).entries list u =
      if u = id then []
      else if u ∈ holders then (g.entries list u).filter (· ≠ id) else g.entries list u := by
  rw [removeNode_of_some hn]
  simp only [entries, node?, Keyed.find_erase]
  by_cases hu : u = id
  · simp [hu]
  · rw [Keyed.find_map Node.id (detached id n) (id_detached id n)]
    cases hm : Keyed.find? Node.id u g.nodes with
    | none => simp [hu]
    | some m =>
        have hid : m.id = u := (Keyed.find_some_key hm).1
        simp only [hu, if_false, Option.map_some, Option.getD_some, hl, hid]

/-! ## Connecting two nodes -/

theorem missing_eq_nil_iff (g : Graph) (c : Connection) :
    g.missing c = [] ↔ c.source.node ∈ g.nodeIds ∧ c.target.node ∈ g.nodeIds := by
  simp [missing, mem_nodeIds_iff, List.filter_cons]
  cases g.node? c.source.node <;> cases g.node? c.target.node <;> simp

/-- A connection as it is registered, with anchors if they are asked for. -/
def registered (g : Graph) (c : Connection) (anchors : Bool) : Connection :=
  if anchors then { c with source := g.anchored c.source, target := g.anchored c.target } else c

theorem node_anchored (g : Graph) (t : Terminal) : (g.anchored t).node = t.node := by
  simp only [anchored]
  split <;> rfl

@[simp] theorem id_registered (g : Graph) (c : Connection) (anchors : Bool) :
    (g.registered c anchors).id = c.id := by
  cases anchors <;> rfl

@[simp] theorem source_registered (g : Graph) (c : Connection) (anchors : Bool) :
    (g.registered c anchors).source.node = c.source.node := by
  cases anchors
  · rfl
  · exact node_anchored g c.source

@[simp] theorem target_registered (g : Graph) (c : Connection) (anchors : Bool) :
    (g.registered c anchors).target.node = c.target.node := by
  cases anchors
  · rfl
  · exact node_anchored g c.target

/-- The graph in which a connection has been added. -/
def connected (g : Graph) (c : Connection) (anchors : Bool) : Graph :=
  { g.link c.source.node c.target.node with
    connections := Keyed.put Connection.id (g.registered c anchors) g.connections }

/-- A connection between known nodes is made. -/
theorem connect_of_known {g : Graph} {c : Connection} (anchors : Bool)
    (hs : c.source.node ∈ g.nodeIds) (ht : c.target.node ∈ g.nodeIds) :
    g.connect c anchors = .ok (g.connected c anchors) := by
  have hm := (missing_eq_nil_iff g c).mpr ⟨hs, ht⟩
  rw [connect, hm]
  cases anchors
  · rfl
  · simp only [if_true, node_anchored]
    rfl

/-- A connection with an unknown end is refused, and the report names what is missing. -/
theorem connect_of_unknown {g : Graph} {c : Connection} (anchors : Bool)
    (h : ¬ (c.source.node ∈ g.nodeIds ∧ c.target.node ∈ g.nodeIds)) :
    g.connect c anchors = .error (.diagnosed (.unknownNodes c.id (g.missing c))) := by
  have hm : g.missing c ≠ [] := fun hm => h ((missing_eq_nil_iff g c).mp hm)
  rw [connect]
  split
  · exact absurd ‹_› hm
  · rfl

theorem childrenOf_connected {g : Graph} {c : Connection} (hs : c.source.node ∈ g.nodeIds)
    (anchors : Bool) (u : Value) :
    (g.connected c anchors).childrenOf u =
      if u = c.source.node then addOnce c.target.node (g.childrenOf u) else g.childrenOf u :=
  childrenOf_link hs c.target.node u

/-! ## Removing a connection -/

theorem disconnect_of_none {g : Graph} {id : Value} (h : g.connection? id = none) :
    g.disconnect id = g := by
  simp [disconnect, h]

/-- The graph without the connection of a name. -/
def without (g : Graph) (id : Value) : Graph :=
  { g with connections := Keyed.erase Connection.id id g.connections }

/-- Where another connection joins the same nodes, the link between them stays. -/
theorem disconnect_of_joined {g : Graph} {id : Value} {c : Connection}
    (h : g.connection? id = some c) (hj : (g.without id).Joined c.source.node c.target.node) :
    g.disconnect id = g.without id := by
  have hany : (g.without id).connections.any
      (fun d => d.joins c.source.node c.target.node) = true := List.any_eq_true.mpr hj
  simp only [without] at hany
  simp [disconnect, h, hany, without]

/-- Where no other connection joins the nodes, the link between them goes. -/
theorem disconnect_of_not_joined {g : Graph} {id : Value} {c : Connection}
    (h : g.connection? id = some c) (hj : ¬ (g.without id).Joined c.source.node c.target.node) :
    g.disconnect id = (g.without id).unlink c.source.node c.target.node := by
  have hany : (g.without id).connections.any
      (fun d => d.joins c.source.node c.target.node) = false :=
    Bool.eq_false_iff.mpr fun ha => hj (List.any_eq_true.mp ha)
  simp only [without] at hany
  simp [disconnect, h, hany, without]

theorem connections_disconnect (g : Graph) (id : Value) :
    (g.disconnect id).connections = Keyed.erase Connection.id id g.connections := by
  cases h : g.connection? id with
  | none =>
      rw [disconnect_of_none h, eq_comm, Keyed.erase, List.filter_eq_self]
      intro c hc
      have hid : id ∉ g.connections.map Connection.id := fun hm => by
        have := (Keyed.find_isSome_iff Connection.id id g.connections).mpr hm
        rw [connection?] at h
        simp [h] at this
      simpa using fun he : c.id = id => hid (he ▸ List.mem_map_of_mem hc)
  | some c =>
      by_cases hj : (g.without id).Joined c.source.node c.target.node
      · rw [disconnect_of_joined h hj]
        rfl
      · rw [disconnect_of_not_joined h hj]
        rfl

/-! ## Edits by their kind -/

theorem result_addNodeLogged (g : Graph) (n : Node) :
    (g.addNodeLogged n).result = .ok (g.addNode n) := by
  rw [addNodeLogged]
  split <;> rfl

theorem result_removeNodeLogged (g : Graph) (id : Value) :
    (g.removeNodeLogged id).result = .ok (g.removeNode id) := by
  rw [removeNodeLogged]
  split <;> rfl

theorem after_addNode (g : Graph) (n : Node) : (Edit.addNode n).after g = g.addNode n := by
  simp [Edit.after, Edit.apply, result_addNodeLogged]

theorem after_removeNode (g : Graph) (id : Value) :
    (Edit.removeNode id).after g = g.removeNode id := by
  simp [Edit.after, Edit.apply, result_removeNodeLogged]

theorem after_disconnect (g : Graph) (id : Value) :
    (Edit.disconnect id).after g = g.disconnect id := rfl

theorem after_connect_of_known {g : Graph} {c : Connection} (anchors : Bool)
    (hs : c.source.node ∈ g.nodeIds) (ht : c.target.node ∈ g.nodeIds) :
    (Edit.connect c anchors).after g = g.connected c anchors := by
  simp [Edit.after, Edit.apply, connect_of_known anchors hs ht]

/-- A refused connection leaves the graph as it is. -/
theorem after_connect_of_unknown {g : Graph} {c : Connection} (anchors : Bool)
    (h : ¬ (c.source.node ∈ g.nodeIds ∧ c.target.node ∈ g.nodeIds)) :
    (Edit.connect c anchors).after g = g := by
  simp [Edit.after, Edit.apply, connect_of_unknown anchors h]

end Graph

end SpatialDiagram
