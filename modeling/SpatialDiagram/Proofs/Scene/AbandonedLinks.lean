import Mathlib.Data.List.Induction
import SpatialDiagram.Proofs.Scene.Adjacency

/-!
# Links that no connection accounts for

The lists of children may hold an entry without a connection: when a connection
is put in the place of another one of its name, the entries of the old one stay.
Nothing else leaves such an entry behind. It is accounted for again when another
connection joins the two nodes, and it goes when one of them is removed. So the
lists of a graph are exactly its connections unless a run has abandoned a link.
-/

namespace SpatialDiagram

theorem Connection.joins_iff (c : Connection) (s t : Value) :
    c.joins s t = true ↔ c.source.node = s ∧ c.target.node = t := by
  simp [joins]

/-- A connection that stands under the name of one that a call puts in. -/
def Edit.Replaces (g : Graph) (e : Edit) (d : Connection) : Prop :=
  ∃ c anchors, e = .connect c anchors ∧ g.connection? c.id = some d

namespace Graph

/-- Two nodes of the graph between which no connection leads. -/
def Unjoined (g : Graph) (s t : Value) : Prop :=
  s ∈ g.nodeIds ∧ t ∈ g.nodeIds ∧ ¬ g.Joined s t

/-- At some point of a run the connection from one node to another was replaced, and ever since
both nodes have been there and no connection has joined them. -/
def Abandoned (g : Graph) (es : List Edit) (s t : Value) : Prop :=
  ∃ before e since d, es = before ++ e :: since ∧
    e.Replaces (g.run before) d ∧ d.joins s t = true ∧
    ∀ more, more <+: since → (g.run (before ++ e :: more)).Unjoined s t

theorem not_abandoned_nil (g : Graph) (s t : Value) : ¬ g.Abandoned [] s t := by
  rintro ⟨before, e, since, d, he, -⟩
  simp at he

/-- An abandoned link stands between nodes that no connection joins. -/
theorem Abandoned.unjoined {g : Graph} {es : List Edit} {s t : Value}
    (h : g.Abandoned es s t) : (g.run es).Unjoined s t := by
  obtain ⟨before, e, since, d, rfl, -, -, hs⟩ := h
  exact hs since (List.prefix_refl since)

/-- One more call abandons what it replaces, and a link stays abandoned as long as its nodes are
there and unjoined. -/
theorem abandoned_concat_iff (g : Graph) (es : List Edit) (e : Edit) (s t : Value) :
    g.Abandoned (es ++ [e]) s t ↔
      (g.Abandoned es s t ∨ ∃ d, e.Replaces (g.run es) d ∧ d.joins s t = true) ∧
        (g.run (es ++ [e])).Unjoined s t := by
  constructor
  · rintro ⟨before, e', since, d, he, hr, hd, hs⟩
    have hend : (g.run (es ++ [e])).Unjoined s t := he ▸ hs since (List.prefix_refl since)
    refine ⟨?_, hend⟩
    -- The last call is the replacing one or comes after it.
    rcases List.eq_nil_or_concat since with rfl | ⟨since, x, rfl⟩
    · obtain ⟨rfl, hlast⟩ := List.append_inj' he rfl
      obtain rfl := List.singleton_inj.mp hlast
      exact Or.inr ⟨d, hr, hd⟩
    · rw [List.concat_eq_append, ← List.cons_append, ← List.append_assoc] at he
      obtain ⟨rfl, -⟩ := List.append_inj' he rfl
      refine Or.inl ⟨before, e', since, d, rfl, hr, hd, fun more hm => hs more ?_⟩
      exact hm.trans (by simp)
  · rintro ⟨⟨before, e', since, d, rfl, hr, hd, hs⟩ | ⟨d, hr, hd⟩, hend⟩
    · refine ⟨before, e', since ++ [e], d, by simp, hr, hd, fun more hm => ?_⟩
      rcases List.prefix_concat_iff.mp hm with rfl | hm
      · simpa using hend
      · exact hs more hm
    · refine ⟨es, e, [], d, rfl, hr, hd, fun more hm => ?_⟩
      rw [List.prefix_nil.mp hm]
      exact hend

/-! ## One call -/

/-- A connection leads from one node to another under another name or under the given one. -/
theorem joined_iff_by_name {g : Graph} (h : g.Consistent) (id s t : Value) :
    g.Joined s t ↔
      (∃ d ∈ g.connections, d.id ≠ id ∧ d.joins s t = true) ∨
        ∃ d, g.connection? id = some d ∧ d.joins s t = true := by
  constructor
  · rintro ⟨d, hd, hj⟩
    by_cases hid : d.id = id
    · subst hid
      exact Or.inr ⟨d, Keyed.find_of_mem h.nodup_connections hd, hj⟩
    · exact Or.inl ⟨d, hd, hid, hj⟩
  · rintro (⟨d, hd, -, hj⟩ | ⟨d, hd, hj⟩)
    · exact ⟨d, hd, hj⟩
    · exact ⟨d, (Keyed.find_some_key hd).2, hj⟩

theorem mem_childrenOf_of_joined {g : Graph} (h : g.Consistent) {s t : Value}
    (hj : g.Joined s t) : t ∈ g.childrenOf s := by
  obtain ⟨c, hc, hj⟩ := hj
  obtain ⟨rfl, rfl⟩ := c.joins_iff s t |>.mp hj
  exact h.linked c hc

theorem unjoined_of_mem {g : Graph} (h : g.Consistent) {s t : Value} (ht : t ∈ g.childrenOf s)
    (hj : ¬ g.Joined s t) : g.Unjoined s t :=
  ⟨mem_nodeIds_of_mem_entries ht, h.children_known s t ht, hj⟩

theorem joined_addNode (g : Graph) (n : Node) (s t : Value) :
    (g.addNode n).Joined s t ↔ g.Joined s t := Iff.rfl

theorem joined_removeNode {g : Graph} (h : g.Consistent) {id s t : Value} (hs : s ≠ id)
    (ht : t ≠ id) : (g.removeNode id).Joined s t ↔ g.Joined s t := by
  have hconn := connections_removeNode id fun c hc => ends_of_touches h hc
  simp only [Joined, hconn, List.mem_filter, Connection.joins_iff]
  constructor
  · rintro ⟨c, ⟨hc, -⟩, hj⟩
    exact ⟨c, hc, hj⟩
  · rintro ⟨c, hc, rfl, rfl⟩
    exact ⟨c, ⟨hc, by simp [Connection.touches, hs, ht]⟩, rfl, rfl⟩

/-- After a connection is registered, it and all others under other ids join their ends. -/
theorem joined_connected {g : Graph} (h : g.Consistent) (c : Connection) (anchors : Bool)
    (s t : Value) :
    (g.connected c anchors).Joined s t ↔
      c.joins s t = true ∨ ∃ d ∈ g.connections, d.id ≠ c.id ∧ d.joins s t = true := by
  simp only [Joined, connected, Keyed.mem_put_iff h.nodup_connections, id_registered,
    Connection.joins_iff]
  constructor
  · rintro ⟨d, rfl | ⟨hd, hne⟩, hj⟩
    · exact Or.inl (by simpa using hj)
    · exact Or.inr ⟨d, hd, hne, hj⟩
  · rintro (hj | ⟨d, hd, hne, hj⟩)
    · exact ⟨g.registered c anchors, Or.inl rfl, by simpa using hj⟩
    · exact ⟨d, Or.inr ⟨hd, hne⟩, hj⟩

/-- After a connection is removed, the others join their ends. -/
theorem joined_disconnect (g : Graph) (id s t : Value) :
    (g.disconnect id).Joined s t ↔
      ∃ d ∈ g.connections, d.id ≠ id ∧ d.joins s t = true := by
  simp only [Joined, connections_disconnect, Keyed.mem_erase, and_assoc]

section

variable {g : Graph} (h : g.Consistent) {s t : Value}

include h

theorem mem_childrenOf_disconnect_iff (id : Value) (hj : ¬ (g.disconnect id).Joined s t) :
    t ∈ (g.disconnect id).childrenOf s ↔ t ∈ g.childrenOf s ∧ ¬ g.Joined s t := by
  have hrest : ¬ ∃ d ∈ g.connections, d.id ≠ id ∧ d.joins s t = true := fun he =>
    hj ((joined_disconnect g id s t).mpr he)
  have hiff : g.Joined s t ↔ ∃ d, g.connection? id = some d ∧ d.joins s t = true := by
    rw [joined_iff_by_name h id, or_iff_right hrest]
  cases hc : g.connection? id with
  | none => simp [disconnect_of_none hc, hiff, hc]
  | some c =>
      have hends : g.Joined s t ↔ c.source.node = s ∧ c.target.node = t := by
        rw [hiff, hc, ← c.joins_iff]
        simp
      by_cases hkeep : (g.without id).Joined c.source.node c.target.node
      · have hne : ¬ (c.source.node = s ∧ c.target.node = t) := by
          rintro ⟨rfl, rfl⟩
          exact hj (disconnect_of_joined hc hkeep ▸ hkeep)
        rw [disconnect_of_joined hc hkeep, hends, and_iff_left hne]
        rfl
      · rw [disconnect_of_not_joined hc hkeep, childrenOf_unlink, hends]
        by_cases hs : s = c.source.node
        · subst hs
          simp [childrenOf, without, entries, node?, eq_comm (a := t)]
        · simp [hs, Ne.symm hs, childrenOf, without, entries, node?]

theorem mem_childrenOf_connected_iff {c : Connection} (anchors : Bool)
    (hs : c.source.node ∈ g.nodeIds) (hj : ¬ (g.connected c anchors).Joined s t) :
    t ∈ (g.connected c anchors).childrenOf s ↔
      t ∈ g.childrenOf s ∧ ¬ g.Joined s t ∨
        ∃ d, g.connection? c.id = some d ∧ d.joins s t = true := by
  obtain ⟨hne, hrest⟩ := not_or.mp fun ho => hj ((joined_connected h c anchors s t).mpr ho)
  have hold : t ∈ (g.connected c anchors).childrenOf s ↔ t ∈ g.childrenOf s := by
    rw [childrenOf_connected hs]
    by_cases he : s = c.source.node
    · subst he
      have ht : t ≠ c.target.node := fun he => hne ((c.joins_iff _ t).mpr ⟨rfl, he.symm⟩)
      simp [ht]
    · rw [if_neg he]
  have hiff : g.Joined s t ↔ ∃ d, g.connection? c.id = some d ∧ d.joins s t = true := by
    rw [joined_iff_by_name h c.id, or_iff_right hrest]
  rw [hold, ← hiff]
  have hlinked := mem_childrenOf_of_joined h (s := s) (t := t)
  tauto

/-- An entry without a connection was one before the call, or the call replaced the connection that
accounted for it. -/
theorem mem_childrenOf_after_iff {e : Edit} (he : e.IsNew) (hu : (e.after g).Unjoined s t) :
    t ∈ (e.after g).childrenOf s ↔
      t ∈ g.childrenOf s ∧ ¬ g.Joined s t ∨ ∃ d, e.Replaces g d ∧ d.joins s t = true := by
  have hnone (hr : ∀ d, ¬ e.Replaces g d) : ¬ ∃ d, e.Replaces g d ∧ d.joins s t = true :=
    fun ⟨d, hd, _⟩ => hr d hd
  cases e with
  | addNode n =>
      rw [after_addNode] at hu ⊢
      obtain ⟨-, -, hj⟩ := hu
      rw [joined_addNode] at hj
      rw [or_iff_left (hnone (by simp [Edit.Replaces])), childrenOf_addNode h he,
        and_iff_left hj]
  | removeNode id =>
      rw [after_removeNode] at hu ⊢
      obtain ⟨hs, ht, hj⟩ := hu
      have hs' : s ≠ id := ((mem_nodeIds_removeNode g id s).mp hs).2
      have ht' : t ≠ id := ((mem_nodeIds_removeNode g id t).mp ht).2
      rw [joined_removeNode h hs' ht'] at hj
      rw [or_iff_left (hnone (by simp [Edit.Replaces])), childrenOf_removeNode h, if_neg hs',
        and_iff_left hj]
      simp [ht']
  | disconnect id =>
      rw [after_disconnect] at hu ⊢
      rw [or_iff_left (hnone (by simp [Edit.Replaces])), mem_childrenOf_disconnect_iff h id hu.2.2]
  | connect c anchors =>
      have hr (d : Connection) :
          (Edit.connect c anchors).Replaces g d ↔ g.connection? c.id = some d := by
        simp [Edit.Replaces]
      simp only [hr]
      by_cases hk : c.source.node ∈ g.nodeIds ∧ c.target.node ∈ g.nodeIds
      · rw [after_connect_of_known anchors hk.1 hk.2] at hu ⊢
        exact mem_childrenOf_connected_iff h anchors hk.1 hu.2.2
      · -- A refused call changes nothing, so what it would have replaced still joins its nodes.
        rw [after_connect_of_unknown anchors hk] at hu ⊢
        rw [and_iff_left hu.2.2, or_iff_left]
        rintro ⟨d, hd, hj⟩
        exact hu.2.2 ⟨d, (Keyed.find_some_key hd).2, hj⟩

/-- The edges of the directed graph are the entries of the lists. -/
theorem mem_edges_digraph : (s, t) ∈ g.digraph.edges ↔ t ∈ g.childrenOf s := by
  simp only [Digraph.edges, digraph, List.mem_flatMap, List.mem_map]
  constructor
  · rintro ⟨a, ⟨n, hn, rfl⟩, v, hv, he⟩
    obtain ⟨rfl, rfl⟩ := Prod.mk.inj he
    rw [childrenOf, entries_of_mem Node.children h.nodup_nodes hn]
    exact (List.mem_filter.mp (List.mem_eraseDups.mp hv)).1
  · intro ht
    obtain ⟨n, hn, rfl⟩ := List.mem_map.mp (mem_nodeIds_of_mem_entries ht)
    have hknown := h.children_known n.id t ht
    rw [childrenOf, entries_of_mem Node.children h.nodup_nodes hn] at ht
    exact ⟨_, ⟨n, hn, rfl⟩, t, by simp [ht, hknown], rfl⟩

end

/-! ## Runs -/

/-- After any edits of an empty graph, the children are the joined nodes and the abandoned links. -/
theorem mem_childrenOf_run_iff {g : Graph} (hn : g.nodes = []) (hc : g.connections = [])
    {es : List Edit} (hes : ∀ e ∈ es, e.IsNew) (s t : Value) :
    t ∈ (g.run es).childrenOf s ↔ (g.run es).Joined s t ∨ g.Abandoned es s t := by
  induction es using List.reverseRecOn with
  | nil =>
      have hids : s ∉ g.nodeIds := by simp [nodeIds, hn]
      have hj : ¬ g.Joined s t := by simp [Joined, hc]
      simp [childrenOf, entries_eq_nil Node.children hids, hj, not_abandoned_nil]
  | append_singleton es e ih =>
      have hbefore : ∀ e' ∈ es, e'.IsNew := fun e' he' => hes e' (by simp [he'])
      have hcons := consistent_run (consistent_of_empty hn hc) hbefore
      have hend := consistent_run (consistent_of_empty hn hc) hes
      -- An abandoned link is an entry that was unjoined before the last call.
      have hsame : g.Abandoned es s t ↔
          t ∈ (g.run es).childrenOf s ∧ ¬ (g.run es).Joined s t := by
        rw [ih hbefore]
        exact ⟨fun ha => ⟨Or.inr ha, ha.unjoined.2.2⟩, fun h => h.1.resolve_left h.2⟩
      by_cases hj : (g.run (es ++ [e])).Joined s t
      · exact iff_of_true (mem_childrenOf_of_joined hend hj) (Or.inl hj)
      · rw [or_iff_right hj, abandoned_concat_iff, hsame]
        have hstep := mem_childrenOf_after_iff hcons (s := s) (t := t) (hes e (by simp))
        rw [run_append] at hj hend ⊢
        constructor
        · intro ht
          have hu := unjoined_of_mem hend ht hj
          exact ⟨(hstep hu).mp ht, hu⟩
        · rintro ⟨ho, hu⟩
          exact (hstep hu).mpr ho

/-- After a run from an empty graph the entries of the lists, and with them the edges that cycles
and depth are computed from, are the joined pairs and the abandoned links. So they are exactly the
joined pairs if and only if the run has abandoned no link. -/
theorem edited_edges_iff {g : Graph} (hn : g.nodes = []) (hc : g.connections = [])
    {es : List Edit} (hes : ∀ e ∈ es, e.IsNew) :
    (∀ s t, t ∈ (g.run es).childrenOf s ↔ (g.run es).Joined s t ∨ g.Abandoned es s t) ∧
      (∀ s t, (s, t) ∈ (g.run es).digraph.edges ↔
        (g.run es).Joined s t ∨ g.Abandoned es s t) ∧
      ((∀ s t, t ∈ (g.run es).childrenOf s → (g.run es).Joined s t) ↔
        ∀ s t, ¬ g.Abandoned es s t) ∧
      ((∀ s t, (s, t) ∈ (g.run es).digraph.edges ↔ (g.run es).Joined s t) ↔
        ∀ s t, ¬ g.Abandoned es s t) := by
  have hcons := consistent_run (consistent_of_empty hn hc) hes
  have hlist := mem_childrenOf_run_iff hn hc hes
  have hedges (s t : Value) : (s, t) ∈ (g.run es).digraph.edges ↔
      (g.run es).Joined s t ∨ g.Abandoned es s t :=
    (mem_edges_digraph hcons).trans (hlist s t)
  refine ⟨hlist, hedges, ⟨fun hsub s t ha => ?_, fun hnone s t ht => ?_⟩,
    ⟨fun hsame s t ha => ?_, fun hnone s t => ?_⟩⟩
  · exact ha.unjoined.2.2 (hsub s t ((hlist s t).mpr (Or.inr ha)))
  · exact ((hlist s t).mp ht).resolve_right (hnone s t)
  · exact ha.unjoined.2.2 ((hsame s t).mp ((hedges s t).mpr (Or.inr ha)))
  · rw [hedges s t, or_iff_left (hnone s t)]

/-- A connection is put in the place of one that led elsewhere. -/
theorem replaced_link_stays :
    let g : Graph := { id := .str "g", name := .str "Test" }
    let es : List Edit :=
      [.addNode (.plain "A"), .addNode (.plain "B"), .addNode (.plain "C"),
        .connect (.plain "c" "A" "B") true, .connect (.plain "c" "A" "C") true]
    g.nodes = [] ∧ g.connections = [] ∧ (∀ e ∈ es, e.IsNew) ∧
      .str "B" ∈ (g.run es).childrenOf (.str "A") ∧
      (.str "A", .str "B") ∈ (g.run es).digraph.edges ∧
      ¬ (g.run es).Joined (.str "A") (.str "B") := by
  intro g es
  have hgone : ¬ ∃ c ∈ (g.run es).connections, c.joins (.str "A") (.str "B") = true := by decide
  exact ⟨rfl, rfl, by decide, by decide, by decide, hgone⟩

/-- The link to B is abandoned, and only that one: A and C are joined. -/
theorem edited_edges_iff_detour :
    let g : Graph := { id := .str "g", name := .str "Test" }
    let es : List Edit :=
      [.addNode (.plain "A"), .addNode (.plain "B"), .addNode (.plain "C"),
        .connect (.plain "c" "A" "B") true, .connect (.plain "c" "A" "C") true]
    (g.nodes = [] ∧ g.connections = [] ∧ ∀ e ∈ es, e.IsNew) ∧
      g.Abandoned es (.str "A") (.str "B") ∧ ¬ g.Abandoned es (.str "A") (.str "C") := by
  intro g es
  have hes : ∀ e ∈ es, e.IsNew := by decide
  obtain ⟨hlist, -, -⟩ := edited_edges_iff (g := g) rfl rfl hes
  have hkept : .str "B" ∈ (g.run es).childrenOf (.str "A") := by decide
  have hgone : ¬ ∃ c ∈ (g.run es).connections, c.joins (.str "A") (.str "B") = true := by decide
  have hjoined : ∃ c ∈ (g.run es).connections, c.joins (.str "A") (.str "C") = true := by decide
  exact ⟨⟨rfl, rfl, hes⟩, ((hlist _ _).mp hkept).resolve_left hgone,
    fun ha => ha.unjoined.2.2 hjoined⟩

end Graph

end SpatialDiagram
