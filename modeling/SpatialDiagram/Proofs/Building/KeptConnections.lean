import SpatialDiagram.Proofs.Building.Declarations
import SpatialDiagram.Proofs.Notation.Reference

/-!
# Connections as they are declared

A connection is kept if both of its ends are declared anywhere in the diagram,
and dropped otherwise, which is noticed. The kept connections give the lists of
children and parents in the order in which their ends first occur; a face that
a node does not have is noticed and changes nothing else.
-/

namespace SpatialDiagram

open Notation

/-! ## The numbers of connections -/

theorem toString_injective : Function.Injective (toString : Nat → String) := by
  intro j k h
  simp only [Nat.toString_eq_repr, Nat.repr_eq_ofList_toDigits, String.ofList_inj] at h
  calc j
    _ = Nat.ofDigitChars 10 (Nat.toDigits 10 j) 0 := Nat.ofDigitChars_ten_toDigits.symm
    _ = Nat.ofDigitChars 10 (Nat.toDigits 10 k) 0 := by rw [h]
    _ = k := Nat.ofDigitChars_ten_toDigits

/-- Parsing gives no two connections the same name. -/
theorem Notation.Diagram.nodup_connections {source : Value} {d : Diagram}
    (h : (Diagram.parse source).result = .ok d) :
    (d.connections.map ConnectionDeclaration.id).Nodup := by
  cases source with
  | str text =>
      obtain ⟨ps, -, -, hall⟩ := exists_positions (SourceLine.ofText text.toList) 0
      have hreads := reads_foldlM hall (reads_nil _) (result_parse text ▸ h)
      rw [hreads.connections, List.nodup_iff_injective_getElem]
      rintro ⟨j, hj⟩ ⟨k, hk⟩ hjk
      simp only [List.getElem_map, List.getElem_mapIdx, numbered, String.append_right_inj] at hjk
      exact Fin.ext (toString_injective hjk)
  | _ => cases h

/-! ## Kept connections -/

namespace Build

/-- Both ends of a connection are among the declared names. -/
def isKept (names : List String) (e : ConnectionDeclaration) : Bool :=
  e.source.node ∈ names && e.target.node ∈ names

/-- The first end of a connection, the source before the target, that no node is declared for. -/
def firstMissing? (names : List String) (e : ConnectionDeclaration) : Option String :=
  [e.source.node, e.target.node].find? (· ∉ names)

theorem isKept_iff (names : List String) (e : ConnectionDeclaration) :
    isKept names e = true ↔ e.source.node ∈ names ∧ e.target.node ∈ names := by
  rw [isKept, Bool.and_eq_true, decide_eq_true_iff, decide_eq_true_iff]

/-- The connections of a diagram between declared nodes. -/
def kept (d : Diagram) : List ConnectionDeclaration :=
  d.connections.filter (isKept (Validation.names d))

theorem declared_of_mem_kept {d : Diagram} {e : ConnectionDeclaration} (h : e ∈ kept d) :
    e.source.node ∈ Validation.names d ∧ e.target.node ∈ Validation.names d :=
  (isKept_iff _ e).mp (List.mem_filter.mp h).2

/-- Nothing is missing of exactly the connections that are kept. -/
theorem firstMissing_eq_none_iff (names : List String) (e : ConnectionDeclaration) :
    firstMissing? names e = none ↔ isKept names e = true := by
  simp [firstMissing?, isKept]

/-- The names at the far ends of the connections that have a name at their near end, in the order
in which they first occur. -/
def neighbours (near far : ConnectionDeclaration → Endpoint) (es : List ConnectionDeclaration)
    (name : String) : List String :=
  ((es.filter fun e => (near e).node = name).map fun e => (far e).node).eraseDups

/-- The names that some connections lead to from a node. -/
abbrev targets : List ConnectionDeclaration → String → List String :=
  neighbours ConnectionDeclaration.source ConnectionDeclaration.target

/-- The names from which some connections lead to a node. -/
abbrev sources : List ConnectionDeclaration → String → List String :=
  neighbours ConnectionDeclaration.target ConnectionDeclaration.source

/-- The neighbours of a node are the far ends of the connections it is the near end of. -/
theorem mem_neighbours (near far : ConnectionDeclaration → Endpoint)
    (es : List ConnectionDeclaration) (name other : String) :
    other ∈ neighbours near far es name ↔
      ∃ e ∈ es, (near e).node = name ∧ (far e).node = other := by
  simp [neighbours, and_assoc]

/-- Adding what is not there yet keeps a list one of first occurrences. -/
theorem addOnce_eraseDups (xs : List String) (x : String) :
    addOnce (.str x) (xs.eraseDups.map Value.str) = (xs ++ [x]).eraseDups.map Value.str := by
  rw [eraseDups_concat, addOnce]
  by_cases hx : x ∈ xs <;> simp [hx]

/-- One more connection adds its far end to the neighbours of its near end, unless it is there. -/
theorem neighbours_concat (near far : ConnectionDeclaration → Endpoint)
    (es : List ConnectionDeclaration) (e : ConnectionDeclaration) (name : String) :
    (neighbours near far (es ++ [e]) name).map Value.str =
      if Value.str name = .str (near e).node then
        addOnce (.str (far e).node) ((neighbours near far es name).map Value.str)
      else (neighbours near far es name).map Value.str := by
  rw [neighbours, neighbours, addOnce_eraseDups]
  by_cases hname : name = (near e).node <;> simp [hname, eq_comm]

theorem neighbours_eq_nil (near far : ConnectionDeclaration → Endpoint)
    {es : List ConnectionDeclaration} {name : String} (h : ∀ e ∈ es, (near e).node ≠ name) :
    neighbours near far es name = [] := by
  have hnone : es.filter (fun e => (near e).node = name) = [] :=
    List.filter_eq_nil_iff.mpr fun e he => by simpa using h e he
  rw [neighbours, hnone]
  rfl

end Build

/-- A connection without what was computed for its ends. -/
def Connection.bare (c : Connection) : Connection :=
  { c with source.anchor := none, target.anchor := none }

@[simp] theorem Connection.id_bare (c : Connection) : c.bare.id = c.id := rfl

namespace Graph

theorem bare_anchored (g : Graph) (c : Connection) :
    ({ c with source := g.anchored c.source, target := g.anchored c.target } : Connection).bare =
      c.bare := by
  have hterminal (t : Terminal) :
      ({ g.anchored t with anchor := none } : Terminal) = { t with anchor := none } := by
    rw [anchored]
    split <;> rfl
  simp only [Connection.bare, hterminal]

/-- Fresh anchors change nothing of the connections but the anchors. -/
theorem bare_refreshAnchors (g : Graph) :
    g.refreshAnchors.connections.map Connection.bare = g.connections.map Connection.bare := by
  rw [refreshAnchors, List.map_map]
  exact List.map_congr_left fun c _ => bare_anchored g c

/-- The anchors apart, a connection is stored as it was made. -/
theorem bare_registered (g : Graph) (c : Connection) (anchors : Bool) :
    (g.registered c anchors).bare = c.bare := by
  cases anchors
  · rfl
  · exact bare_anchored g c

/-- A connection enters its nodes in each other's lists and changes nothing else of any node. -/
theorem node_connected (g : Graph) (c : Connection) (anchors : Bool) (u : Value) :
    (g.connected c anchors).node? u = (g.node? u).map fun n =>
      { n with
        children :=
          if u = c.source.node then addOnce c.target.node n.children else n.children
        parents :=
          if u = c.target.node then addOnce c.source.node n.parents else n.parents } := by
  have hlink : (g.connected c anchors).node? u =
      (g.link c.source.node c.target.node).node? u := rfl
  rw [hlink, link, node_modifyNode _ c.target.node (·.addParent c.source.node) fun _ => rfl,
    node_modifyNode _ c.source.node (·.addChild c.target.node) fun _ => rfl]
  cases g.node? u <;> split_ifs <;> rfl

end Graph

namespace Build

/-! ## One connection -/

theorem id_connectionOf (e : ConnectionDeclaration) : (connectionOf e).id = .str e.id := by
  rw [connectionOf]
  split
  · split <;> rfl
  · rfl

theorem bare_connectionOf (e : ConnectionDeclaration) : (connectionOf e).bare = connectionOf e := by
  rw [connectionOf]
  split
  · split <;> rfl
  · rfl

theorem terminals_connectionOf (e : ConnectionDeclaration) :
    (connectionOf e).source = terminalOf e.source ∧
      (connectionOf e).target = terminalOf e.target := by
  rw [connectionOf]
  split
  · split <;> exact ⟨rfl, rfl⟩
  · exact ⟨rfl, rfl⟩

/-- What is noticed of an end whose node is declared without the face that the end names. -/
def unknownFace (d : Diagram) (e : ConnectionDeclaration) (t : Endpoint) (line : Option Nat) :
    List Issue :=
  match Validation.declared? d t.node, t.face with
  | some n, some face =>
      if face ∈ Face.idsOf n.shape then []
      else [.ofCode .warning .unknownFace line
        (Validation.faceDetails (.str e.id) (.str face) (.str n.id) n.shape)]
  | _, _ => []

theorem only_unknownFace (code : IssueCode) (d : Diagram) (e : ConnectionDeclaration)
    (t : Endpoint) (line : Option Nat) :
    Issue.only code (unknownFace d e t line) =
      if .unknownFace = code then unknownFace d e t line else [] := by
  rw [unknownFace]
  split
  · split <;> simp
  · simp

/-- What is noticed of a connection that is dropped for want of a node. -/
def dropped (e : ConnectionDeclaration) (name : String) : Issue :=
  .ofCode .info .connectionDropped (some e.line)
    [("connection_id", .str e.id), ("node_id", .str name)]

/-- What is noticed of a connection of a diagram. -/
def connectionIssues (d : Diagram) (e : ConnectionDeclaration) : List Issue :=
  match firstMissing? (Validation.names d) e with
  | some name => [dropped e name]
  | none => unknownFace d e e.source none ++ unknownFace d e e.target none

theorem only_connectionIssues (code : IssueCode) (d : Diagram) (e : ConnectionDeclaration)
    (hface : code ≠ .unknownFace) (hdropped : code ≠ .connectionDropped) :
    Issue.only code (connectionIssues d e) = [] := by
  rw [connectionIssues]
  split <;> simp [only_unknownFace, dropped, Ne.symm hface, Ne.symm hdropped]

/-- A connection is reported as dropped for its first missing end. -/
theorem only_dropped_connectionIssues (d : Diagram) (e : ConnectionDeclaration) :
    Issue.only .connectionDropped (connectionIssues d e) =
      ((firstMissing? (Validation.names d) e).map (dropped e)).toList := by
  rw [connectionIssues]
  split <;> simp [only_unknownFace, dropped, *]

/-- Exactly the names in use have a declaration. -/
theorem mem_names_iff (d : Diagram) (name : String) :
    name ∈ Validation.names d ↔ ∃ n, Validation.declared? d name = some n := by
  rw [Validation.names, List.mem_eraseDups, ← Keyed.last_isSome_iff, Option.isSome_iff_exists]
  rfl

/-- A graph has the nodes that are declared, in shape and name, each with the faces of its
shape. -/
structure Shows (d : Diagram) (g : Graph) : Prop where
  nodeIds : g.nodeIds = (Validation.names d).map Value.str
  node : ∀ name n, Validation.declared? d name = some n →
    ∃ m, g.node? (.str name) = some m ∧ m.id = .str n.id ∧ m.shape = n.shape ∧
      m.faces.map Face.id = Face.idsOf n.shape

/-- In a graph that shows the nodes of a diagram, an end is undeclared as it is missing in the
diagram. -/
theorem undeclared_of_shows {d : Diagram} {g : Graph} (h : Shows d g) (e : ConnectionDeclaration) :
    undeclared? g e = firstMissing? (Validation.names d) e := by
  have hname (name : String) :
      (g.node? (.str name)).isNone = decide (name ∉ Validation.names d) := by
    rw [Bool.eq_iff_iff, Option.isNone_iff_eq_none, Graph.node_eq_none_iff, h.nodeIds,
      decide_eq_true_iff]
    simp
  simp only [undeclared?, firstMissing?, hname]

theorem result_checkFace (g : Graph) (c : Connection) (t : Terminal) :
    (checkFace g c t).result = .ok () :=
  ((checkFace g c t).failure_eq_none_iff.mp (failure_checkFace g c t)).choose_spec

/-- The face of an end is reported as the diagram alone tells. -/
theorem issues_checkFace {d : Diagram} {g : Graph} (h : Shows d g) {e : ConnectionDeclaration}
    {t : Endpoint} (ht : t.node ∈ Validation.names d) :
    (checkFace g (connectionOf e) (terminalOf t)).issues = unknownFace d e t none := by
  obtain ⟨n, hn⟩ := (mem_names_iff d t.node).mp ht
  obtain ⟨m, hm, hid, hshape, hfaces⟩ := h.node t.node n hn
  have hnode : g.node? (terminalOf t).node = some m := hm
  rw [checkFace, unknownFace, hn, hnode]
  cases hface : t.face with
  | none => simp [terminalOf, hface]
  | some face =>
      have hterminal : (terminalOf t).face = .str face := by simp [terminalOf, hface]
      have hknown : (g.face? (terminalOf t)).isSome = true ↔ face ∈ Face.idsOf n.shape := by
        rw [Graph.face?, hnode, hterminal, ← hfaces]
        simp [Node.face?]
      by_cases hf : face ∈ Face.idsOf n.shape
      · simp [hterminal, hknown.mpr hf, hf]
      · have hnot : (g.face? (terminalOf t)).isSome = false := by
          rw [Bool.eq_false_iff]
          exact fun hs => hf (hknown.mp hs)
        simp only [hterminal, hnot, hf, id_connectionOf, hid, hshape, reduceCtorEq,
          decide_false, Bool.or_self, Bool.false_eq_true, if_false]
        rfl

/-- A new connection keeps the nodes and what is drawn of them. -/
theorem shows_connected {d : Diagram} {g : Graph} (h : Shows d g) (c : Connection)
    (anchors : Bool) : Shows d (g.connected c anchors) where
  nodeIds := (g.nodeIds_link _ _).trans h.nodeIds
  node name n hn := by
    obtain ⟨m, hm, hfacts⟩ := h.node name n hn
    have hnode := g.node_connected c anchors (.str name)
    rw [hm, Option.map_some] at hnode
    exact ⟨_, hnode, hfacts⟩

/-- A connection that is kept is added, one that is not leaves the graph alone. -/
theorem addConnection_of_ok {d : Diagram} {g g' : Graph} (h : Shows d g)
    {e : ConnectionDeclaration} (he : (addConnection g e).result = .ok g') :
    g' = (if isKept (Validation.names d) e then g.connected (connectionOf e) true else g) ∧
      (addConnection g e).issues = connectionIssues d e := by
  rw [addConnection, undeclared_of_shows h] at he ⊢
  rw [connectionIssues]
  cases hmissing : firstMissing? (Validation.names d) e with
  | some name =>
      have hdropped : isKept (Validation.names d) e = false := by
        rw [← Bool.not_eq_true, ← firstMissing_eq_none_iff, hmissing]
        simp
      rw [hmissing] at he
      rw [hdropped]
      exact ⟨(Except.ok.inj he).symm, rfl⟩
  | none =>
      have hkept := (firstMissing_eq_none_iff _ e).mp hmissing
      obtain ⟨hsource, htarget⟩ := (isKept_iff _ e).mp hkept
      have hend {t : Endpoint} (ht : t.node ∈ Validation.names d) :
          (terminalOf t).node ∈ g.nodeIds := by
        rw [h.nodeIds]
        exact List.mem_map_of_mem ht
      obtain ⟨hs, ht⟩ := terminals_connectionOf e
      have hadd : g.connect (connectionOf e) true = .ok (g.connected (connectionOf e) true) :=
        Graph.connect_of_known true (hs ▸ hend hsource) (ht ▸ hend htarget)
      have hshows := shows_connected h (connectionOf e) true
      simp only [hmissing, hadd] at he ⊢
      rw [hkept]
      simp only [Trace.result_bind, Trace.result_ofResult, result_checkFace] at he
      refine ⟨(Except.ok.inj he).symm, ?_⟩
      rw [Trace.issues_bind_of_ok (a := g.connected (connectionOf e) true) rfl,
        Trace.issues_bind_of_ok (result_checkFace _ _ _),
        Trace.issues_bind_of_ok (result_checkFace _ _ _), hs, ht,
        issues_checkFace hshows hsource, issues_checkFace hshows htarget]
      simp

/-! ## All connections -/

/-- A graph has, besides the nodes it began with, those of some connections that are kept, and its
nodes have the entries of these. -/
structure Wired (d : Diagram) (g₀ : Graph) (es : List ConnectionDeclaration) (g : Graph) :
    Prop where
  frame : g = { g₀ with nodes := g.nodes, connections := g.connections }
  shows : Shows d g
  node : ∀ name n, g₀.node? (.str name) = some n → g.node? (.str name) = some
    { n with
      children := (targets (es.filter (isKept (Validation.names d))) name).map Value.str
      parents := (sources (es.filter (isKept (Validation.names d))) name).map Value.str }
  connections : g.connections.map Connection.bare =
    (es.filter (isKept (Validation.names d))).map connectionOf

/-- A graph without connections is wired as far as no connection at all. -/
theorem wired_nil {d : Diagram} {g : Graph} (h : Shows d g) (hc : g.connections = [])
    (hn : ∀ name n, g.node? (.str name) = some n → n.IsNew) : Wired d g [] g where
  frame := rfl
  shows := h
  node name n hname := by
    obtain ⟨hchildren, hparents⟩ := hn name n hname
    rw [hname]
    exact congrArg₂ (fun cs ps => some { n with children := cs, parents := ps }) hchildren hparents
  connections := by simp [hc]

/-- One more connection of the diagram keeps the wiring in step. -/
theorem wired_addConnection {d : Diagram} {g₀ g g' : Graph} {es : List ConnectionDeclaration}
    {e : ConnectionDeclaration} (h : Wired d g₀ es g)
    (hnew : e.id ∉ es.map ConnectionDeclaration.id)
    (he : (addConnection g e).result = .ok g') : Wired d g₀ (es ++ [e]) g' := by
  obtain ⟨hg', -⟩ := addConnection_of_ok h.shows he
  cases hkept : isKept (Validation.names d) e with
  | false =>
      have hsame : (es ++ [e]).filter (isKept (Validation.names d)) =
          es.filter (isKept (Validation.names d)) := by simp [hkept]
      rw [hkept] at hg'
      obtain rfl : g' = g := hg'
      exact ⟨h.frame, h.shows, hsame ▸ h.node, hsame ▸ h.connections⟩
  | true =>
      have hmore : (es ++ [e]).filter (isKept (Validation.names d)) =
          es.filter (isKept (Validation.names d)) ++ [e] := by simp [hkept]
      rw [hkept] at hg'
      obtain rfl : g' = g.connected (connectionOf e) true := hg'
      obtain ⟨hsource, htarget⟩ := terminals_connectionOf e
      have hids : g.connections.map Connection.id =
          (es.filter (isKept (Validation.names d))).map fun e => .str e.id := by
        have hbare := congrArg (List.map Connection.id) h.connections
        simpa only [List.map_map, Function.comp_def, Connection.id_bare, id_connectionOf]
          using hbare
      have hput : (connectionOf e).id ∉ g.connections.map Connection.id := by
        rw [hids, id_connectionOf, List.mem_map]
        rintro ⟨e', he', hid⟩
        exact hnew (Value.str.inj hid ▸ List.mem_map_of_mem (List.mem_filter.mp he').1)
      constructor
      · exact congrArg (fun x : Graph =>
          { x with
            nodes := (g.connected (connectionOf e) true).nodes
            connections := (g.connected (connectionOf e) true).connections }) h.frame
      · exact shows_connected h.shows (connectionOf e) true
      · intro name n hname
        rw [Graph.node_connected, hsource, htarget, h.node name n hname, hmore, neighbours_concat,
          neighbours_concat]
        rfl
      · rw [hmore, List.map_append, ← h.connections, List.map_singleton]
        simp only [Graph.connected]
        rw [Keyed.put_of_not_mem (by rwa [Graph.id_registered]), List.map_append,
          List.map_singleton, Graph.bare_registered, bare_connectionOf]

/-- All the connections in turn keep the wiring in step, and report what they report one by one. -/
theorem wired_foldlM {d : Diagram} {g₀ g : Graph} (h : Wired d g₀ [] g₀)
    (hids : (d.connections.map ConnectionDeclaration.id).Nodup)
    (hg : (d.connections.foldlM addConnection g₀).result = .ok g) :
    Wired d g₀ d.connections g ∧
      (d.connections.foldlM addConnection g₀).issues =
        d.connections.flatMap (connectionIssues d) := by
  constructor
  · refine Trace.foldlM_induction (Wired d g₀) h ?_ hg
    intro before e after b b' hes hb he
    refine wired_addConnection hb ?_ he
    rw [hes, List.map_append, List.map_cons, List.nodup_append] at hids
    exact fun hm => hids.2.2 _ hm _ List.mem_cons_self rfl
  · refine Trace.issues_foldlM_of_ok (Shows d) (connectionIssues d) h.shows ?_ hg
    intro b e b' hb he
    obtain ⟨rfl, hissues⟩ := addConnection_of_ok hb he
    refine ⟨?_, hissues⟩
    split
    · exact shows_connected hb (connectionOf e) true
    · exact hb

end Build

end SpatialDiagram
