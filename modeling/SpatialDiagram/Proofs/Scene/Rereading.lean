import SpatialDiagram.Proofs.FirstOccurrences
import SpatialDiagram.Proofs.Scene.Adjacency
import SpatialDiagram.Proofs.Scene.Amounts
import SpatialDiagram.Proofs.Scene.Documents

/-!
# Reading back what was written

The parts of a graph can be read back from their record form. All come back as
they were but for the opacity of a node, which comes back as a floating-point
number; a node must have the box and the faces that follow from its transform,
since these are computed anew.
-/

namespace SpatialDiagram

namespace Value

/-! ## Fields of records -/

theorem lookup_record (fields : List (String × Value)) (name : String) :
    (fields.map fun f => (str f.1, f.2)).lookup (str name) = fields.lookup name := by
  induction fields with
  | nil => rfl
  | cons f fields ih =>
      have hkey : (str name == str f.1) = (name == f.1) := by
        rw [Bool.eq_iff_iff, beq_iff_eq, beq_iff_eq, str.injEq]
      rw [List.map_cons, List.lookup_cons, List.lookup_cons, hkey, ih]

theorem require_record {fields : List (String × Value)} {name : String} {v : Value}
    (h : fields.lookup name = some v) : (record fields).require name = .ok v := by
  rw [record, require_mapping, lookup_record, h]

theorem optional_record (fields : List (String × Value)) (name : String) (default : Value) :
    (record fields).optional name default = .ok ((fields.lookup name).getD default) := by
  rw [record, optional, lookup_record]

/-- A field that is left out when its value is null reads as null when it is absent. -/
theorem lookup_presentField {fields : List (String × Value)} {name : String}
    (h : fields.lookup name = none) (v : Value) :
    ((fields ++ presentField name v).lookup name).getD .null = v := by
  rw [List.lookup_append, h, Option.none_or, presentField]
  split
  · simp [*]
  · simp

end Value

open Value

/-! ## Vectors and transforms -/

theorem Vec.ofValue_toValue (v : Vec Float) : ofValue v.toValue = .ok v := rfl

theorem Vec.mapM_ofValue (vs : List (Vec Float)) :
    (vs.map toValue).mapM ofValue = .ok vs := mapM_map_of_inverse ofValue_toValue vs

theorem Transform.ofValue_toValue {t : Transform Float} (h : isUsable t.scale = true) :
    ofValue t.toValue = .ok t := by
  have hchecked : checked t.position t.rotation t.scale = .ok t := by
    rw [checked, make?, if_pos h]
  exact hchecked

/-! ## Connections -/

theorem Terminal.ofValue_toValue (t : Terminal) : ofValue t.toValue = .ok t := by
  obtain ⟨node, face, anchor⟩ := t
  by_cases hface : face = .null
  · subst hface
    cases anchor <;> rfl
  · rw [toValue, presentField, if_neg hface]
    cases anchor <;> rfl

theorem Label.ofValue_toValue (l : Label) : ofValue l.toValue = .ok l := rfl

theorem ConnectionStyle.ofValue_toValue (s : ConnectionStyle) : ofValue s.toValue = .ok s := by
  obtain ⟨color, opacity, label⟩ := s
  cases label <;> rfl

theorem ConnectionCategory.ofValue_name (k : ConnectionCategory) :
    ofValue (.str k.name) = .ok k := by
  rw [ofValue, memberOf]
  simp only [ofName_name]

/-- A connection is read back from its record form. -/
theorem Connection.ofValue_toValue (c : Connection) : ofValue c.toValue = .ok c := by
  have hsource := Terminal.ofValue_toValue c.source
  have htarget := Terminal.ofValue_toValue c.target
  have hcategory := ConnectionCategory.ofValue_name c.category
  have hstyle := ConnectionStyle.ofValue_toValue c.style
  have hwaypoints := Vec.mapM_ofValue c.waypoints
  rw [ofValue, toValue, require_record (v := c.id) rfl,
    require_record (v := .str c.category.name) rfl, require_record (v := c.source.toValue) rfl,
    require_record (v := c.target.toValue) rfl, optional_record, optional_record, optional_record]
  simp only [List.lookup_cons, String.reduceBEq, Option.getD_some, bind,
    Except.bind, hsource, htarget, hcategory, hstyle, asTable, asItems, hwaypoints]
  rfl

/-! ## Nodes -/

theorem Value.asFloat_toValue (n : Number) :
    n.toValue.asFloat = match n.toFloat? with
      | some x => .ok x
      | none => .error .tooLarge := by
  cases n with
  | int k =>
      rw [Number.toValue, Number.toFloat?]
      unfold asFloat
      split
      case h_1 l hl =>
        obtain rfl := int.inj hl
        cases Number.intToFloat? k <;> rfl
      case h_5 hint _ _ _ => exact (hint k rfl).elim
      all_goals contradiction
  | float x => rfl

theorem NodeStyle.ofValue_toValue (s : NodeStyle) :
    ofValue s.toValue = match s.opacity.toFloat? with
      | some x => .ok { s with opacity := .float x }
      | none => .error .tooLarge := by
  rw [ofValue, toValue, optional_record, optional_record, optional_record]
  simp only [List.lookup_cons, String.reduceBEq, Option.getD_some, bind, Except.bind,
    asFloat_toValue]
  cases s.opacity.toFloat? <;> rfl

theorem NodeCategory.ofValue_name (k : NodeCategory) : ofValue (.str k.name) = .ok k := by
  rw [ofValue, memberOf]
  simp only [ofName_name]

theorem Shape.ofValue_name (k : Shape) : ofValue (.str k.name) = .ok k := by
  rw [ofValue, memberOf]
  simp only [ofName_name]

namespace Node

/-- A node whose box and faces follow from a transform that a node can have. -/
structure IsDerived (n : Node) : Prop where
  scale : Transform.isUsable n.transform.scale = true
  box : n.box = .ofTransform n.transform
  faces : n.faces = Face.generate n.shape n.transform

/-- A node whose box and faces follow from a transform that a node can have, and whose name is a
text. -/
structure IsSound (n : Node) : Prop where
  named : ∃ s, n.id = .str s
  scale : Transform.isUsable n.transform.scale = true
  box : n.box = .ofTransform n.transform
  faces : n.faces = Face.generate n.shape n.transform

theorem IsSound.isDerived {n : Node} (h : n.IsSound) : n.IsDerived := ⟨h.scale, h.box, h.faces⟩

/-- The node with an opacity that has been read as a floating-point number. -/
def withOpacity (n : Node) (x : Float) : Node := { n with style.opacity := .float x }

/-- Such a node is read back but for its opacity, which has to fit a floating-point number. -/
theorem ofValue_toValue {n : Node} (h : n.IsDerived) :
    ofValue n.toValue = match n.style.opacity.toFloat? with
      | some x => .ok (n.withOpacity x)
      | none => .error .tooLarge := by
  have hcategory := NodeCategory.ofValue_name n.category
  have hshape := Shape.ofValue_name n.shape
  have htransform := Transform.ofValue_toValue h.scale
  have hstyle := NodeStyle.ofValue_toValue n.style
  let base : List (String × Value) :=
    [("id", n.id), ("type", .str n.category.name), ("name", n.name),
      ("geometry", .str n.shape.name), ("transform", n.transform.toValue),
      ("boundingBox", n.box.toValue), ("faces", .list (n.faces.map Face.toValue)),
      ("visual", n.style.toValue), ("metadata", .mapping n.annotations.entries),
      ("children", .list n.children), ("parents", .list n.parents)]
  have hvalue : n.toValue = record (base ++ presentField "description" n.description) := rfl
  have hdescription : ((base ++ presentField "description" n.description).lookup
      "description").getD .null = n.description := lookup_presentField rfl n.description
  have hvisual : ((base ++ presentField "description" n.description).lookup "visual").getD
      emptyRecord = n.style.toValue := rfl
  have hmetadata : ((base ++ presentField "description" n.description).lookup "metadata").getD
      emptyRecord = .mapping n.annotations.entries := rfl
  have hchildren : ((base ++ presentField "description" n.description).lookup "children").getD
      (.list []) = .list n.children := rfl
  have hparents : ((base ++ presentField "description" n.description).lookup "parents").getD
      (.list []) = .list n.parents := rfl
  rw [ofValue, hvalue, require_record (v := n.id) rfl,
    require_record (v := .str n.category.name) rfl, require_record (v := n.name) rfl,
    require_record (v := .str n.shape.name) rfl, require_record (v := n.transform.toValue) rfl,
    optional_record, optional_record, optional_record, optional_record, optional_record,
    hdescription]
  simp only [bind, Except.bind, hcategory, hshape, htransform, hvisual, hmetadata, hchildren,
    hparents, hstyle, asTable, asItems]
  cases n.style.opacity.toFloat? with
  | none => rfl
  | some x =>
      exact congrArg₂ (fun b fs => Except.ok { n.withOpacity x with box := b, faces := fs })
        h.box.symm h.faces.symm

/-- The node with its opacity as a floating-point number. -/
def reread (n : Node) : Node := n.withOpacity (n.style.opacity.toFloat?.getD 0.0)

/-- A node is read back exactly if its opacity has a float, and then with that float. -/
theorem ofValue_toValue_eq_ok_iff {n : Node} (h : n.IsDerived) (m : Node) :
    ofValue n.toValue = .ok m ↔ n.style.opacity.toFloat?.isSome = true ∧ m = n.reread := by
  rw [ofValue_toValue h, reread]
  cases n.style.opacity.toFloat? <;> simp [eq_comm]

theorem mapM_ofValue_toValue_eq_ok_iff {ns : List Node} (h : ∀ n ∈ ns, n.IsDerived)
    (ms : List Node) :
    (ns.map toValue).mapM ofValue = .ok ms ↔
      (∀ n ∈ ns, n.style.opacity.toFloat?.isSome = true) ∧ ms = ns.map reread := by
  induction ns generalizing ms with
  | nil =>
      rw [List.map_nil, List.mapM_nil, List.map_nil]
      exact ⟨fun h => ⟨by simp, (Except.ok.inj h).symm⟩, fun h => congrArg Except.ok h.2.symm⟩
  | cons n ns ih =>
      obtain ⟨hn, hns⟩ := List.forall_mem_cons.mp h
      simp only [List.map_cons, mapM_cons_eq_ok_iff, ofValue_toValue_eq_ok_iff hn, ih hns,
        List.forall_mem_cons]
      constructor
      · rintro ⟨_, _, ⟨hx, rfl⟩, ⟨hxs, rfl⟩, rfl⟩
        exact ⟨⟨hx, hxs⟩, rfl⟩
      · rintro ⟨⟨hx, hxs⟩, rfl⟩
        exact ⟨_, _, ⟨hx, rfl⟩, ⟨hxs, rfl⟩, rfl⟩

/-- A node that has been read back is written like before exactly if its opacity is exact. -/
theorem alike_reread_iff {n : Node} (hx : n.style.opacity.toFloat?.isSome = true) :
    n.reread.toValue.alike n.toValue = true ↔ n.style.opacity.IsExact := by
  obtain ⟨x, hx⟩ := Option.isSome_iff_exists.mp hx
  have hexact : n.style.opacity.IsExact ↔ (Number.float x).alike n.style.opacity = true := by
    simp [Number.IsExact, hx]
  have hstyle : ({ n.style with opacity := .float x } : NodeStyle).toValue.alike
      n.style.toValue = true ↔ (Number.float x).alike n.style.opacity = true := by
    rw [NodeStyle.toValue, NodeStyle.toValue, alike_record_iff]
    simp [alike_refl, alike_toValue]
  rw [reread, hx, Option.getD_some, hexact, ← hstyle, toValue, toValue, alike_record_iff]
  simp [alike_refl, withOpacity, List.forall₂_same]

end Node

/-! ## Graphs -/

namespace Graph

/-- A graph whose lists are consistent, whose nodes are sound and have opacities of some kind, and
whose connections have texts as names. It can be read back if the opacities are exact. -/
structure IsSound (kind : Number → Prop) (g : Graph) : Prop where
  consistent : g.Consistent
  node : ∀ n ∈ g.nodes, n.IsSound
  opacity : ∀ n ∈ g.nodes, kind n.style.opacity
  connection : ∀ c ∈ g.connections, ∃ s, c.id = .str s

theorem modifyNode_of_fixed {g : Graph} {id : Value} {f : Node → Node}
    (h : ∀ n ∈ g.nodes, n.id = id → f n = n) : g.modifyNode id f = g := by
  have hnodes : Keyed.modify Node.id id f g.nodes = g.nodes := by
    refine (List.map_congr_left fun n hn => ?_).trans (List.map_id _)
    by_cases hid : n.id = id
    · rw [if_pos hid, h n hn hid]
      rfl
    · rw [if_neg hid]
      rfl
  rw [modifyNode, hnodes]

/-- Nodes that have each other in their lists are not linked anew. -/
theorem link_of_linked {g : Graph} (hd : g.nodeIds.Nodup) {s t : Value}
    (ht : t ∈ g.childrenOf s) (hs : s ∈ g.parentsOf t) : g.link s t = g := by
  have hsource : g.modifyNode s (·.addChild t) = g := by
    apply modifyNode_of_fixed
    rintro n hn rfl
    rw [childrenOf, entries_of_mem Node.children hd hn] at ht
    rw [Node.addChild, addOnce, if_pos ht]
  have htarget : g.modifyNode t (·.addParent s) = g := by
    apply modifyNode_of_fixed
    rintro n hn rfl
    rw [parentsOf, entries_of_mem Node.parents hd hn] at hs
    rw [Node.addParent, addOnce, if_pos hs]
  rw [link, hsource, htarget]

theorem addNode_of_not_mem {g : Graph} {n : Node} (h : n.id ∉ g.nodeIds) :
    g.addNode n = { g with nodes := g.nodes ++ [n] } := by
  have hnone : g.node? n.id = none := (node_eq_none_iff g n.id).mpr h
  rw [addNode, hnone]
  simp only [Keyed.put_of_not_mem h]

/-- Nodes under different names are added in their order. -/
theorem foldl_addNode_of_nodup {ns : List Node} {g : Graph}
    (hids : (g.nodeIds ++ ns.map Node.id).Nodup) :
    ns.foldl addNode g = { g with nodes := g.nodes ++ ns } := by
  induction ns generalizing g with
  | nil => simp
  | cons n ns ih =>
      rw [List.map_cons, List.append_cons] at hids
      have hnew : n.id ∉ g.nodeIds :=
        ((nodup_concat_iff _ _).mp (List.nodup_append.mp hids).1).1
      have hrest : ((({ g with nodes := g.nodes ++ [n] } : Graph).nodeIds) ++
          ns.map Node.id).Nodup := by
        rw [nodeIds, List.map_append]
        exact hids
      rw [List.foldl_cons, addNode_of_not_mem hnew, ih hrest]
      simp

/-- Connections under different names whose nodes have each other in their lists are added in their
order and change no node. -/
theorem foldl_withConnection_of_linked {cs : List Connection} {g : Graph} (hd : g.nodeIds.Nodup)
    (hchildren : ∀ c ∈ cs, c.target.node ∈ g.childrenOf c.source.node)
    (hparents : ∀ c ∈ cs, c.source.node ∈ g.parentsOf c.target.node)
    (hids : (g.connections.map Connection.id ++ cs.map Connection.id).Nodup) :
    cs.foldl withConnection g = { g with connections := g.connections ++ cs } := by
  induction cs generalizing g with
  | nil => simp
  | cons c cs ih =>
      rw [List.map_cons, List.append_cons] at hids
      have hnew : c.id ∉ g.connections.map Connection.id :=
        ((nodup_concat_iff _ _).mp (List.nodup_append.mp hids).1).1
      have hrest : (({ g with connections := g.connections ++ [c] } : Graph).connections.map
          Connection.id ++ cs.map Connection.id).Nodup := by
        rw [List.map_append]
        exact hids
      have hadded : g.withConnection c = { g with connections := g.connections ++ [c] } := by
        have hregistered : g.registered c false = c := rfl
        rw [withConnection, connected, hregistered, Keyed.put_of_not_mem hnew,
          link_of_linked hd (hchildren c List.mem_cons_self) (hparents c List.mem_cons_self)]
      rw [List.foldl_cons, hadded, ih (g := { g with connections := g.connections ++ [c] }) hd
        (fun e he => hchildren e (List.mem_cons_of_mem _ he))
        (fun e he => hparents e (List.mem_cons_of_mem _ he)) hrest]
      simp

/-! ## Changing nodes in place -/

section

variable {f : Node → Node} (hid : ∀ n, (f n).id = n.id)

include hid

theorem nodeIds_map_nodes (g : Graph) :
    ({ g with nodes := g.nodes.map f } : Graph).nodeIds = g.nodeIds := by
  rw [nodeIds, List.map_map]
  exact List.map_congr_left fun n _ => hid n

/-- A change that leaves one of the lists of a node alone is not seen in that list. -/
theorem entries_map_nodes {list : Node → List Value} (hlist : ∀ n, list (f n) = list n) (g : Graph)
    (u : Value) :
    ({ g with nodes := g.nodes.map f } : Graph).entries list u = g.entries list u := by
  rw [entries, entries, node?, node?, Keyed.find_map Node.id f hid, Option.map_map]
  exact congrArg (fun k => (Option.map k (Keyed.find? Node.id u g.nodes)).getD []) (funext hlist)

/-- A change of the nodes that leaves their names and lists alone keeps the lists consistent. -/
theorem consistent_map_nodes (hchildren : ∀ n, (f n).children = n.children)
    (hparents : ∀ n, (f n).parents = n.parents) {g : Graph} (h : g.Consistent) :
    ({ g with nodes := g.nodes.map f } : Graph).Consistent := by
  have hids := nodeIds_map_nodes hid g
  have hchild := entries_map_nodes hid hchildren g
  have hparent := entries_map_nodes hid hparents g
  exact
    { nodup_nodes := by rw [hids]; exact h.nodup_nodes
      nodup_connections := h.nodup_connections
      nodup_children := fun s => by rw [childrenOf, hchild]; exact h.nodup_children s
      nodup_parents := fun t => by rw [parentsOf, hparent]; exact h.nodup_parents t
      children_known := fun s t => by
        rw [childrenOf, hchild, hids]
        exact h.children_known s t
      parents_known := fun s t => by
        rw [parentsOf, hparent, hids]
        exact h.parents_known s t
      mirrored := fun s t => by
        rw [childrenOf, parentsOf, hchild, hparent]
        exact h.mirrored s t
      ends_known := fun c hc => by
        rw [hids]
        exact h.ends_known c hc
      linked := fun c hc => by
        rw [childrenOf, hchild]
        exact h.linked c hc }

end

/-- The graph with all opacities as floating-point numbers. -/
def reread (g : Graph) : Graph := { g with nodes := g.nodes.map Node.reread }

theorem consistent_reread {g : Graph} (h : g.Consistent) : g.reread.Consistent :=
  consistent_map_nodes (f := Node.reread) (fun _ => rfl) (fun _ => rfl) (fun _ => rfl) h

/-- What is there of a graph when its nodes have been read. -/
def drawn (g : Graph) : Graph := { g.blank with nodes := g.nodes.map Node.reread }

/-! ## Reading a graph back -/

/-- A graph under whose names there is one node or connection each, whose nodes are derived, and in
which the nodes of every connection have each other in their lists. The lists may hold more. -/
structure IsRestorable (g : Graph) : Prop where
  nodup_nodes : g.nodeIds.Nodup
  nodup_connections : (g.connections.map Connection.id).Nodup
  nodeKey : ∀ n ∈ g.nodes, n.id.isScalar = true
  derived : ∀ n ∈ g.nodes, n.IsDerived
  connectionKey : ∀ c ∈ g.connections, c.id.isScalar = true
  child : ∀ c ∈ g.connections, c.target.node ∈ g.childrenOf c.source.node
  parent : ∀ c ∈ g.connections, c.source.node ∈ g.parentsOf c.target.node

theorem IsSound.isRestorable {kind : Number → Prop} {g : Graph} (h : g.IsSound kind) :
    g.IsRestorable where
  nodup_nodes := h.consistent.nodup_nodes
  nodup_connections := h.consistent.nodup_connections
  nodeKey := fun n hn => by
    obtain ⟨s, hs⟩ := (h.node n hn).named
    rw [hs]
    rfl
  derived := fun n hn => (h.node n hn).isDerived
  connectionKey := fun c hc => by
    obtain ⟨s, hs⟩ := h.connection c hc
    rw [hs]
    rfl
  child := h.consistent.linked
  parent := fun c hc => (h.consistent.mirrored _ _).mp (h.consistent.linked c hc)

theorem parts_toValue (g : Graph) :
    g.toValue.require "id" = .ok g.id ∧ g.toValue.require "name" = .ok g.name ∧
      g.toValue.optional "description" .null = .ok g.description ∧
      (g.toValue.optional "metadata" emptyRecord >>= asTable) = .ok g.annotations ∧
      g.toValue.listedNodes = (g.nodes.map Node.toValue).mapM Node.ofValue ∧
      g.toValue.listedConnections = .ok g.connections := by
  let base : List (String × Value) :=
    [("id", g.id), ("name", g.name), ("nodes", .list (g.nodes.map Node.toValue)),
      ("connections", .list (g.connections.map Connection.toValue)),
      ("metadata", .mapping g.annotations.entries), ("bounds", g.bounds.toValue)]
  have hvalue : g.toValue = record (base ++ presentField "description" g.description) := rfl
  have hconnections := mapM_map_of_inverse Connection.ofValue_toValue g.connections
  rw [listedNodes, listedConnections, hvalue, require_record (v := g.id) rfl,
    require_record (v := g.name) rfl, optional_record, optional_record, optional_record,
    optional_record, lookup_presentField rfl g.description]
  exact ⟨rfl, rfl, rfl, rfl, rfl, hconnections⟩

section

variable {g : Graph} (h : g.IsRestorable)

include h

/-- A node that a connection leads from or to is one of the graph. -/
theorem admits_of_mem {c : Connection} (hc : c ∈ g.connections) : g.Admits c := by
  have hsource := mem_nodeIds_of_mem_entries (h.child c hc)
  have htarget := mem_nodeIds_of_mem_entries (h.parent c hc)
  have hkey (u : Value) (hu : u ∈ g.nodeIds) : u.isScalar = true := by
    obtain ⟨n, hn, rfl⟩ := List.mem_map.mp hu
    exact h.nodeKey n hn
  exact ⟨⟨h.connectionKey c hc, hkey _ hsource, hkey _ htarget⟩, hsource, htarget⟩

theorem filled_blank :
    g.blank.filled g.nodes g.connections =
      { g.blank with nodes := g.nodes, connections := g.connections } := by
  have hnodes : g.nodes.foldl addNode g.blank = { g.blank with nodes := g.nodes } :=
    foldl_addNode_of_nodup h.nodup_nodes
  have hconnections := foldl_withConnection_of_linked
    (g := { g.blank with nodes := g.nodes }) h.nodup_nodes h.child h.parent h.nodup_connections
  rw [filled, hnodes, hconnections]
  rfl

theorem isRestorable_reread : g.reread.IsRestorable where
  nodup_nodes := by
    rw [reread, nodeIds_map_nodes (f := Node.reread) fun _ => rfl]
    exact h.nodup_nodes
  nodup_connections := h.nodup_connections
  nodeKey := fun m hm => by
    obtain ⟨n, hn, rfl⟩ := List.mem_map.mp hm
    exact h.nodeKey n hn
  derived := fun m hm => by
    obtain ⟨n, hn, rfl⟩ := List.mem_map.mp hm
    exact ⟨(h.derived n hn).scale, (h.derived n hn).box, (h.derived n hn).faces⟩
  connectionKey := h.connectionKey
  child := fun c hc => by
    rw [reread, childrenOf, entries_map_nodes (f := Node.reread) (fun _ => rfl) fun _ => rfl]
    exact h.child c hc
  parent := fun c hc => by
    rw [reread, parentsOf, entries_map_nodes (f := Node.reread) (fun _ => rfl) fun _ => rfl]
    exact h.parent c hc

/-- Such a graph can be read back exactly if every opacity fits a floating-point number. -/
theorem result_ofValue_toValue (g' : Graph) :
    (ofValue g.toValue).result = .ok g' ↔
      (∀ n ∈ g.nodes, n.style.opacity.toFloat?.isSome = true) ∧ g' = g.reread := by
  obtain ⟨hid, hname, hdescription, hannotations, hnodes, hconnections⟩ := g.parts_toValue
  have hreread := isRestorable_reread h
  have hlisted (ns : List Node) : g.toValue.listedNodes = .ok ns ↔
      (∀ n ∈ g.nodes, n.style.opacity.toFloat?.isSome = true) ∧ ns = g.reread.nodes := by
    rw [hnodes]
    exact Node.mapM_ofValue_toValue_eq_ok_iff h.derived ns
  rw [result_ofValue_eq_ok_iff]
  constructor
  · rintro ⟨ns, cs, hread⟩
    obtain ⟨hx, rfl⟩ := (hlisted ns).mp hread.listedNodes
    obtain rfl := Except.ok.inj (hconnections.symm.trans hread.listedConnections)
    have hblank : g'.blank = g.reread.blank := by
      rw [blank, Except.ok.inj (hread.id.symm.trans hid),
        Except.ok.inj (hread.name.symm.trans hname),
        Except.ok.inj (hread.description.symm.trans hdescription)]
      rfl
    have hfilled := filled_blank hreread
    refine ⟨hx, hread.contents.trans ?_⟩
    rw [hblank, Except.ok.inj (hread.annotations.symm.trans hannotations)]
    exact congrArg (fun k : Graph => { k with annotations := g.annotations }) hfilled
  · rintro ⟨hx, rfl⟩
    have hfilled := filled_blank hreread
    refine ⟨g.reread.nodes, g.connections, ?_⟩
    exact
      { id := hid
        name := hname
        description := hdescription
        annotations := hannotations
        listedNodes := (hlisted _).mpr ⟨hx, rfl⟩
        listedConnections := hconnections
        nodeKeys := hreread.nodeKey
        admitted := fun c hc => by
          have hdrawn : g.reread.nodes.foldl addNode g.reread.blank = g.drawn :=
            foldl_addNode_of_nodup hreread.nodup_nodes
          rw [hdrawn]
          exact admits_of_mem hreread hc
        contents :=
          (congrArg (fun k : Graph => { k with annotations := g.annotations }) hfilled).symm }

end

/-- What is read back is written alike exactly if every opacity is exact. -/
theorem alike_reread {g : Graph} (hx : ∀ n ∈ g.nodes, n.style.opacity.toFloat?.isSome = true) :
    g.reread.toValue.alike g.toValue = true ↔ ∀ n ∈ g.nodes, n.style.opacity.IsExact := by
  have hnodes : (Value.list (g.reread.nodes.map Node.toValue)).alike
      (.list (g.nodes.map Node.toValue)) = true ↔ ∀ n ∈ g.nodes, n.style.opacity.IsExact := by
    rw [reread, List.map_map, alike, alikeItems_map_iff]
    exact forall₂_congr fun n hn => Node.alike_reread_iff (hx n hn)
  have hbounds : g.reread.bounds = g.bounds := by
    rw [bounds, bounds, reread, List.map_map]
    rfl
  rw [← hnodes, toValue, toValue, hbounds, alike_record_iff]
  simp [alike_refl, List.forall₂_same, -List.map_map, reread]

/-- Every opacity of the graph is one that a floating-point number can hold. -/
def IsExact (g : Graph) : Prop := ∀ n ∈ g.nodes, n.style.opacity.IsExact

/-- A graph can be read back: the reading succeeds, what it gives is written like the graph, and
its lists are consistent. -/
def RoundTrips (g : Graph) : Prop :=
  ∃ h, (ofValue g.toValue).result = .ok h ∧ h.toValue.alike g.toValue = true ∧ h.Consistent

/-- A sound graph survives writing and reading exactly if its opacities are exact. -/
theorem roundTrips_iff {kind : Number → Prop} {g : Graph} (h : g.IsSound kind) :
    g.RoundTrips ↔ g.IsExact := by
  constructor
  · rintro ⟨k, hk, halike, -⟩
    obtain ⟨hx, rfl⟩ := (result_ofValue_toValue h.isRestorable k).mp hk
    exact (alike_reread hx).mp halike
  · intro hx
    have hsome : ∀ n ∈ g.nodes, n.style.opacity.toFloat?.isSome = true := by
      intro n hn
      obtain ⟨x, hx, -⟩ := hx n hn
      rw [hx]
      rfl
    exact ⟨g.reread, (result_ofValue_toValue h.isRestorable _).mpr ⟨hsome, rfl⟩,
      (alike_reread hsome).mpr hx, consistent_reread h.consistent⟩

end Graph

end SpatialDiagram
