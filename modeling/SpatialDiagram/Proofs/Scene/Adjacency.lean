import SpatialDiagram.Proofs.Scene.Editing

/-!
# The lists of children and parents under edits

The edges of a graph are written down twice, as connections and as entries at
both of their nodes. Every edit keeps these in step in one direction: the two
lists mirror each other and hold an entry for each connection. The converse is
not kept, so it is no part of the invariant here.
-/

namespace SpatialDiagram

namespace Graph

/-- The lists of a graph mirror each other, name its nodes only, repeat nothing, and hold the ends
of every connection. -/
structure Consistent (g : Graph) : Prop where
  nodup_nodes : g.nodeIds.Nodup
  nodup_connections : (g.connections.map Connection.id).Nodup
  nodup_children : ∀ s, (g.childrenOf s).Nodup
  nodup_parents : ∀ t, (g.parentsOf t).Nodup
  children_known : ∀ s t, t ∈ g.childrenOf s → t ∈ g.nodeIds
  parents_known : ∀ s t, s ∈ g.parentsOf t → s ∈ g.nodeIds
  mirrored : ∀ s t, t ∈ g.childrenOf s ↔ s ∈ g.parentsOf t
  ends_known : ∀ c ∈ g.connections, c.source.node ∈ g.nodeIds ∧ c.target.node ∈ g.nodeIds
  linked : ∀ c ∈ g.connections, c.target.node ∈ g.childrenOf c.source.node

/-- A graph without nodes and connections is consistent. -/
theorem consistent_of_empty {g : Graph} (hn : g.nodes = []) (hc : g.connections = []) :
    g.Consistent := by
  have hids : g.nodeIds = [] := by simp [nodeIds, hn]
  have hnil (list : Node → List Value) (u : Value) : g.entries list u = [] :=
    entries_eq_nil list (by simp [hids])
  constructor <;> simp [hids, hc, childrenOf, parentsOf, hnil]

/-- The operation looks for entries only where the removed node's own list points, which misses
none when that list mirrors the others. -/
theorem entries_removeNode_of_mirrored (list back : Node → List Value) {g : Graph} {id : Value}
    (hl : ∀ n m, list (detached id n m) =
      if m.id ∈ back n then (list m).filter (· ≠ id) else list m)
    (hback : ∀ u, id ∈ g.entries list u ↔ u ∈ g.entries back id) (u : Value) :
    (g.removeNode id).entries list u =
      if u = id then [] else (g.entries list u).filter (· ≠ id) := by
  cases hn : g.node? id with
  | none =>
      have hid := (node_eq_none_iff g id).mp hn
      have hu : id ∉ g.entries list u := fun hm =>
        hid (mem_nodeIds_of_mem_entries ((hback u).mp hm))
      rw [removeNode_of_none hn, filter_ne_of_not_mem hu]
      by_cases he : u = id
      · rw [if_pos he, he, entries_eq_nil list hid]
      · rw [if_neg he]
  | some n =>
      have hb : g.entries back id = back n := by simp [entries, hn]
      rw [entries_removeNode list hn (back n) (hl n)]
      by_cases hu : u ∈ back n
      · rw [if_pos hu]
      · have hm : id ∉ g.entries list u := fun hm => hu (hb ▸ (hback u).mp hm)
        rw [if_neg hu, filter_ne_of_not_mem hm]

/-! ## Each operation in terms of the lists -/

section

variable {g : Graph} (h : g.Consistent)

include h

theorem childrenOf_addNode {n : Node} (hn : n.IsNew) (u : Value) :
    (g.addNode n).childrenOf u = g.childrenOf u :=
  entries_addNode_of_new Node.children g n (fun _ => rfl) hn.1 (h.nodup_children n.id) u

theorem parentsOf_addNode {n : Node} (hn : n.IsNew) (u : Value) :
    (g.addNode n).parentsOf u = g.parentsOf u :=
  entries_addNode_of_new Node.parents g n (fun _ => rfl) hn.2 (h.nodup_parents n.id) u

theorem childrenOf_removeNode (id u : Value) :
    (g.removeNode id).childrenOf u =
      if u = id then [] else (g.childrenOf u).filter (· ≠ id) :=
  entries_removeNode_of_mirrored Node.children Node.parents (children_detached id)
    (fun v => h.mirrored v id) u

theorem parentsOf_removeNode (id u : Value) :
    (g.removeNode id).parentsOf u =
      if u = id then [] else (g.parentsOf u).filter (· ≠ id) :=
  entries_removeNode_of_mirrored Node.parents Node.children (parents_detached id)
    (fun v => (h.mirrored id v).symm) u

theorem ends_of_touches {c : Connection} (hc : c ∈ g.connections) {id : Value}
    (ht : c.touches id = true) : id ∈ g.nodeIds := by
  obtain ⟨hsource, htarget⟩ := h.ends_known c hc
  rw [Connection.touches, Bool.or_eq_true, decide_eq_true_iff, decide_eq_true_iff] at ht
  rcases ht with he | he
  · exact he ▸ hsource
  · exact he ▸ htarget

/-! ## Operations keep the lists consistent -/

/-- A new node keeps a graph consistent. -/
theorem consistent_addNode {n : Node} (hn : n.IsNew) : (g.addNode n).Consistent := by
  have hknown (u : Value) (hu : u ∈ g.nodeIds) : u ∈ (g.addNode n).nodeIds := by
    rw [nodeIds_addNode]
    split
    · exact hu
    · exact List.mem_append_left _ hu
  exact
    { nodup_nodes := Keyed.nodup_keys_put h.nodup_nodes _
      nodup_connections := h.nodup_connections
      nodup_children := fun s => by rw [childrenOf_addNode h hn]; exact h.nodup_children s
      nodup_parents := fun t => by rw [parentsOf_addNode h hn]; exact h.nodup_parents t
      children_known := fun s t ht => by
        rw [childrenOf_addNode h hn] at ht
        exact hknown t (h.children_known s t ht)
      parents_known := fun s t hs => by
        rw [parentsOf_addNode h hn] at hs
        exact hknown s (h.parents_known s t hs)
      mirrored := fun s t => by
        rw [childrenOf_addNode h hn, parentsOf_addNode h hn]
        exact h.mirrored s t
      ends_known := fun c hc =>
        ⟨hknown _ (h.ends_known c hc).1, hknown _ (h.ends_known c hc).2⟩
      linked := fun c hc => by
        rw [childrenOf_addNode h hn]
        exact h.linked c hc }

/-- Removing a node keeps a graph consistent. -/
theorem consistent_removeNode (id : Value) : (g.removeNode id).Consistent := by
  have hconn := connections_removeNode id fun c hc => ends_of_touches h hc
  have hchild (s t : Value) :
      t ∈ (g.removeNode id).childrenOf s ↔ s ≠ id ∧ t ≠ id ∧ t ∈ g.childrenOf s := by
    rw [childrenOf_removeNode h]
    by_cases hs : s = id <;> simp [hs, and_comm]
  have hparent (s t : Value) :
      s ∈ (g.removeNode id).parentsOf t ↔ t ≠ id ∧ s ≠ id ∧ s ∈ g.parentsOf t := by
    rw [parentsOf_removeNode h]
    by_cases ht : t = id <;> simp [ht, and_comm]
  have hids := mem_nodeIds_removeNode g id
  have hkept (c : Connection) (hc : c ∈ (g.removeNode id).connections) :
      c ∈ g.connections ∧ c.source.node ≠ id ∧ c.target.node ≠ id := by
    rw [hconn] at hc
    simpa [Connection.touches] using hc
  exact
    { nodup_nodes := by rw [nodeIds_removeNode]; exact h.nodup_nodes.filter _
      nodup_connections := by
        rw [hconn]
        exact (List.filter_sublist.map _).nodup h.nodup_connections
      nodup_children := fun s => by
        rw [childrenOf_removeNode h]
        split
        · exact List.nodup_nil
        · exact (h.nodup_children s).filter _
      nodup_parents := fun t => by
        rw [parentsOf_removeNode h]
        split
        · exact List.nodup_nil
        · exact (h.nodup_parents t).filter _
      children_known := fun s t ht => by
        obtain ⟨-, hne, ht⟩ := (hchild s t).mp ht
        exact (hids t).mpr ⟨h.children_known s t ht, hne⟩
      parents_known := fun s t hs => by
        obtain ⟨-, hne, hs⟩ := (hparent s t).mp hs
        exact (hids s).mpr ⟨h.parents_known s t hs, hne⟩
      mirrored := fun s t => by
        rw [hchild, hparent, h.mirrored s t]
        tauto
      ends_known := fun c hc => by
        obtain ⟨hc, hs, ht⟩ := hkept c hc
        exact ⟨(hids _).mpr ⟨(h.ends_known c hc).1, hs⟩, (hids _).mpr ⟨(h.ends_known c hc).2, ht⟩⟩
      linked := fun c hc => by
        obtain ⟨hc, hs, ht⟩ := hkept c hc
        exact (hchild _ _).mpr ⟨hs, ht, h.linked c hc⟩ }

theorem consistent_link {s t : Value} (hs : s ∈ g.nodeIds) (ht : t ∈ g.nodeIds) :
    (g.link s t).Consistent := by
  have hchild (u v : Value) :
      v ∈ (g.link s t).childrenOf u ↔ v ∈ g.childrenOf u ∨ u = s ∧ v = t := by
    rw [childrenOf_link hs]
    by_cases hu : u = s <;> simp [hu]
  have hparent (u v : Value) :
      u ∈ (g.link s t).parentsOf v ↔ u ∈ g.parentsOf v ∨ v = t ∧ u = s := by
    rw [parentsOf_link ht]
    by_cases hv : v = t <;> simp [hv]
  exact
    { nodup_nodes := by rw [nodeIds_link]; exact h.nodup_nodes
      nodup_connections := h.nodup_connections
      nodup_children := fun u => by
        rw [childrenOf_link hs]
        split
        · exact (nodup_addOnce_iff _ _).mpr (h.nodup_children u)
        · exact h.nodup_children u
      nodup_parents := fun u => by
        rw [parentsOf_link ht]
        split
        · exact (nodup_addOnce_iff _ _).mpr (h.nodup_parents u)
        · exact h.nodup_parents u
      children_known := fun u v hv => by
        rw [nodeIds_link]
        rcases (hchild u v).mp hv with hv | ⟨-, rfl⟩
        · exact h.children_known u v hv
        · exact ht
      parents_known := fun u v hu => by
        rw [nodeIds_link]
        rcases (hparent u v).mp hu with hu | ⟨-, rfl⟩
        · exact h.parents_known u v hu
        · exact hs
      mirrored := fun u v => by
        rw [hchild, hparent, h.mirrored u v, and_comm]
      ends_known := fun c hc => by
        rw [nodeIds_link]
        exact h.ends_known c hc
      linked := fun c hc => (hchild _ _).mpr (Or.inl (h.linked c hc)) }

/-- Entries may go once no connection needs them. -/
theorem consistent_unlink {s t : Value} (hj : ¬ g.Joined s t) : (g.unlink s t).Consistent := by
  have hchild (u v : Value) :
      v ∈ (g.unlink s t).childrenOf u ↔ v ∈ g.childrenOf u ∧ ¬ (u = s ∧ v = t) := by
    rw [childrenOf_unlink]
    by_cases hu : u = s <;> simp [hu]
  have hparent (u v : Value) :
      u ∈ (g.unlink s t).parentsOf v ↔ u ∈ g.parentsOf v ∧ ¬ (v = t ∧ u = s) := by
    rw [parentsOf_unlink]
    by_cases hv : v = t <;> simp [hv]
  exact
    { nodup_nodes := by rw [nodeIds_unlink]; exact h.nodup_nodes
      nodup_connections := h.nodup_connections
      nodup_children := fun u => by
        rw [childrenOf_unlink]
        split
        · exact (h.nodup_children u).filter _
        · exact h.nodup_children u
      nodup_parents := fun u => by
        rw [parentsOf_unlink]
        split
        · exact (h.nodup_parents u).filter _
        · exact h.nodup_parents u
      children_known := fun u v hv => by
        rw [nodeIds_unlink]
        exact h.children_known u v ((hchild u v).mp hv).1
      parents_known := fun u v hu => by
        rw [nodeIds_unlink]
        exact h.parents_known u v ((hparent u v).mp hu).1
      mirrored := fun u v => by
        rw [hchild, hparent, h.mirrored u v, and_comm (a := u = s)]
      ends_known := fun c hc => by
        rw [nodeIds_unlink]
        exact h.ends_known c hc
      linked := fun c hc => (hchild _ _).mpr ⟨h.linked c hc, fun ⟨hs, ht⟩ =>
        hj ⟨c, hc, by simp [Connection.joins, hs, ht]⟩⟩ }

/-- Connections may be exchanged for others whose ends are in each other's lists. -/
theorem consistent_with_connections {cs : List Connection} (hd : (cs.map Connection.id).Nodup)
    (hl : ∀ c ∈ cs, c.target.node ∈ g.childrenOf c.source.node) :
    Consistent { g with connections := cs } :=
  { h with
    nodup_connections := hd
    ends_known := fun c hc =>
      ⟨mem_nodeIds_of_mem_entries (hl c hc), h.children_known _ _ (hl c hc)⟩
    linked := hl }

/-- A connection between known nodes keeps a graph consistent. -/
theorem consistent_connected {c : Connection} (anchors : Bool) (hs : c.source.node ∈ g.nodeIds)
    (ht : c.target.node ∈ g.nodeIds) : (g.connected c anchors).Consistent := by
  have hlink := consistent_link h hs ht
  apply consistent_with_connections hlink (Keyed.nodup_keys_put h.nodup_connections _)
  intro d hd
  rcases (Keyed.mem_put_iff h.nodup_connections _ d).mp hd with rfl | ⟨hd, -⟩
  · rw [source_registered, target_registered, childrenOf_link hs, if_pos rfl, mem_addOnce]
    exact Or.inr rfl
  · exact hlink.linked d hd

theorem consistent_without (id : Value) : (g.without id).Consistent := by
  apply consistent_with_connections h (Keyed.nodup_keys_erase h.nodup_connections id)
  intro c hc
  exact h.linked c ((Keyed.mem_erase Connection.id id g.connections c).mp hc).1

/-- Removing a connection keeps a graph consistent. -/
theorem consistent_disconnect (id : Value) : (g.disconnect id).Consistent := by
  cases hc : g.connection? id with
  | none =>
      rw [disconnect_of_none hc]
      exact h
  | some c =>
      by_cases hj : (g.without id).Joined c.source.node c.target.node
      · rw [disconnect_of_joined hc hj]
        exact consistent_without h id
      · rw [disconnect_of_not_joined hc hj]
        exact consistent_unlink (consistent_without h id) hj

/-- Every edit keeps a graph consistent. -/
theorem consistent_after {e : Edit} (he : e.IsNew) : (e.after g).Consistent := by
  cases e with
  | addNode n =>
      rw [after_addNode]
      exact consistent_addNode h he
  | connect c anchors =>
      by_cases hk : c.source.node ∈ g.nodeIds ∧ c.target.node ∈ g.nodeIds
      · rw [after_connect_of_known anchors hk.1 hk.2]
        exact consistent_connected h anchors hk.1 hk.2
      · rw [after_connect_of_unknown anchors hk]
        exact h
  | disconnect id =>
      rw [after_disconnect]
      exact consistent_disconnect h id
  | removeNode id =>
      rw [after_removeNode]
      exact consistent_removeNode h id

end

/-- Every run of edits keeps a graph consistent. -/
theorem consistent_run {g : Graph} (h : g.Consistent) {es : List Edit} (hes : ∀ e ∈ es, e.IsNew) :
    (g.run es).Consistent := by
  induction es generalizing g with
  | nil => exact h
  | cons e es ih =>
      exact ih (consistent_after h (hes e List.mem_cons_self))
        fun e' he' => hes e' (List.mem_cons_of_mem _ he')

/-- Whatever edits have been made to an empty graph, its lists are consistent; and a connection is
refused exactly when one of its ends is unknown, which leaves the graph as it was. -/
theorem edited_consistent {g : Graph} (hn : g.nodes = []) (hc : g.connections = [])
    {es : List Edit} (hes : ∀ e ∈ es, e.IsNew) :
    (g.run es).Consistent ∧
      (∀ n ∈ (g.run es).nodes,
        (g.run es).childrenOf n.id = n.children ∧ (g.run es).parentsOf n.id = n.parents) ∧
      ∀ (c : Connection) (anchors : Bool) (f : Failure),
        (((Edit.connect c anchors).apply (g.run es)).result = .error f ↔
          f = .diagnosed (.unknownNodes c.id ((g.run es).missing c)) ∧
            ¬ (c.source.node ∈ (g.run es).nodeIds ∧ c.target.node ∈ (g.run es).nodeIds)) ∧
        (((Edit.connect c anchors).apply (g.run es)).result = .error f →
          (Edit.connect c anchors).after (g.run es) = g.run es) := by
  have hcons := consistent_run (consistent_of_empty hn hc) hes
  refine ⟨hcons, fun n hm => ?_, fun c anchors f => ⟨?_, ?_⟩⟩
  · exact ⟨entries_of_mem _ hcons.nodup_nodes hm, entries_of_mem _ hcons.nodup_nodes hm⟩
  · rw [Edit.apply, Trace.result_ofResult]
    by_cases hk : c.source.node ∈ (g.run es).nodeIds ∧ c.target.node ∈ (g.run es).nodeIds
    · simp [connect_of_known anchors hk.1 hk.2, hk]
    · rw [connect_of_unknown anchors hk, Except.error.injEq, eq_comm]
      exact ⟨fun hf => ⟨hf, hk⟩, And.left⟩
  · intro hf
    rw [Edit.after, hf]

/-- A run with a node that is replaced, a loop, a connection that is refused and one that is added
twice. -/
theorem edited_consistent_loop :
    let g : Graph := { id := .str "g", name := .str "Test" }
    let es : List Edit :=
      [.addNode (.plain "A"), .addNode (.plain "B"), .connect (.plain "c" "A" "B") true,
        .connect (.plain "d" "A" "A") false, .connect (.plain "e" "A" "Z") true,
        .addNode (.plain "A"), .connect (.plain "c" "B" "A") true, .disconnect (.str "d"),
        .removeNode (.str "B")]
    (g.nodes = [] ∧ g.connections = [] ∧ ∀ e ∈ es, e.IsNew) ∧ (g.run es).Consistent ∧
      (Edit.connect (.plain "f" "A" "B") true).after (g.run es) = g.run es := by
  intro g es
  have hes : ∀ e ∈ es, e.IsNew := by decide
  obtain ⟨hcons, -, hrefuse⟩ := edited_consistent (g := g) rfl rfl hes
  refine ⟨⟨rfl, rfl, hes⟩, hcons, ?_⟩
  obtain ⟨hiff, hsame⟩ := hrefuse (.plain "f" "A" "B") true _
  exact hsame (hiff.mpr ⟨rfl, by decide⟩)

end Graph

end SpatialDiagram
