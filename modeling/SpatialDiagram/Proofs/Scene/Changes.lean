import SpatialDiagram.Proofs.Scene.Rereading

/-!
# Runs of changes

Besides the edits, a change moves a node, leads a connection along other
waypoints, or computes all anchors anew. Every change keeps a graph sound: an
edit gives nodes other lists, a move gives one of them another transform with
the box and the faces that follow from it, and all else concerns connections.
-/

namespace SpatialDiagram

/-- Another place for a node. -/
inductive Move where
  | transform (t : Transform Float)
  | position (p : Vec Float)
  | scale (s : Vec Float)

/-- The node after a move, which a refused scale stops. -/
def Node.moved (n : Node) : Move → Except Failure Node
  | .transform t => .ok (n.place t)
  | .position p => .ok (n.setPosition p)
  | .scale s => n.setScale s

/-- Other waypoints for a connection. -/
inductive Detour where
  | add (p : Vec Float)
  | replace (ps : List (Vec Float))

def Connection.detoured (c : Connection) : Detour → Connection
  | .add p => c.addWaypoint p
  | .replace ps => { c with waypoints := ps }

namespace Graph

/-- Moves a node that the graph has to have. -/
def moved (g : Graph) (id : Value) (m : Move) : Except Failure Graph :=
  match g.node? id with
  | some n => (n.moved m).map fun k => g.modifyNode id fun _ => k
  | none => .error (.missingKey id)

/-- Changes the waypoints of a connection that the graph has to have. -/
def detoured (g : Graph) (id : Value) (w : Detour) : Except Failure Graph :=
  match g.connection? id with
  | some _ => .ok (g.modifyConnection id (·.detoured w))
  | none => .error (.missingKey id)

end Graph

/-- One call that changes a graph or one of its parts. -/
inductive Change where
  | edit (e : Edit)
  | move (node : Value) (m : Move)
  | detour (connection : Value) (w : Detour)
  | refreshAnchors

namespace Change

/-- What a change of the graph or of what stands in it does. -/
def apply (g : Graph) : Change → Trace Graph
  | edit e => e.apply g
  | move node m => .ofResult (g.moved node m)
  | detour connection w => .ofResult (g.detoured connection w)
  | refreshAnchors => .done g.refreshAnchors

/-- The graph after a call, which is the graph before it if the call fails. -/
def after (g : Graph) (c : Change) : Graph :=
  match (c.apply g).result with
  | .ok g' => g'
  | .error _ => g

/-- What a change brings in: a new and sound node with an exact opacity, a connection that has a
text as its name, a transform that a node can have. -/
def IsProper : Change → Prop
  | edit (.addNode n) => n.IsNew ∧ n.IsSound ∧ n.style.opacity.IsExact
  | edit (.connect c _) => ∃ s, c.id = .str s
  | move _ (.transform t) => Transform.isUsable t.scale = true
  | _ => True

end Change

/-! ## Nodes -/

theorem Transform.isUsable_of_checked {p r s : Vec Float} {t : Transform Float}
    (h : checked p r s = .ok t) : Transform.isUsable t.scale = true := by
  rw [checked] at h
  split at h
  · rename_i u hu
    obtain rfl := Except.ok.inj h
    obtain ⟨hs, rfl⟩ := (make_eq_some_iff p r s u).mp hu
    exact hs
  · cases h

namespace Node

theorem isSound_make (id : String) (category : NodeCategory) (name : Value) (shape : Shape)
    {t : Transform Float} (ht : Transform.isUsable t.scale = true) :
    (make (.str id) category name shape t).IsSound := ⟨⟨id, rfl⟩, ht, rfl, rfl⟩

theorem isSound_place {n : Node} (h : n.IsSound) {t : Transform Float}
    (ht : Transform.isUsable t.scale = true) : (n.place t).IsSound := ⟨h.named, ht, rfl, rfl⟩

/-- Two nodes differ in their lists at most. -/
def Resembles (m n : Node) : Prop := ∃ cs ps, m = { n with children := cs, parents := ps }

theorem resembles_refl (n : Node) : n.Resembles n := ⟨n.children, n.parents, rfl⟩

/-- A node that differs in its lists only from one that does so differs in its lists only. -/
theorem resembles_trans {l m n : Node} (h : l.Resembles m) (h' : m.Resembles n) :
    l.Resembles n := by
  obtain ⟨cs, ps, rfl⟩ := h
  obtain ⟨_, _, rfl⟩ := h'
  exact ⟨cs, ps, rfl⟩

/-- The lists of a node do not matter to its soundness. -/
theorem isSound_of_resembles {m n : Node} (h : m.Resembles n) (hn : n.IsSound) : m.IsSound := by
  obtain ⟨_, _, rfl⟩ := h
  exact ⟨hn.named, hn.scale, hn.box, hn.faces⟩

theorem style_of_resembles {m n : Node} (h : m.Resembles n) : m.style = n.style := by
  obtain ⟨_, _, rfl⟩ := h
  rfl

/-- A move places a node by a transform that it can have. -/
theorem exists_of_moved {n k : Node} {m : Move} (h : n.moved m = .ok k)
    (hm : ∀ t, m = .transform t → Transform.isUsable t.scale = true) (hn : n.IsSound) :
    ∃ t, Transform.isUsable t.scale = true ∧ k = n.place t := by
  cases m with
  | transform t => exact ⟨t, hm t rfl, (Except.ok.inj h).symm⟩
  | position p => exact ⟨{ n.transform with position := p }, hn.scale, (Except.ok.inj h).symm⟩
  | scale s =>
      rw [moved, setScale] at h
      cases ht : Transform.checked n.transform.position n.transform.rotation s with
      | error f => rw [ht] at h; cases h
      | ok t =>
          rw [ht] at h
          exact ⟨t, Transform.isUsable_of_checked ht, (Except.ok.inj h).symm⟩

end Node

namespace Graph

/-! ## Nodes after an edit resemble nodes before it -/

theorem resembles_modifyNode {g : Graph} {id : Value} {f : Node → Node}
    (hf : ∀ n, (f n).Resembles n) {m : Node} (hm : m ∈ (g.modifyNode id f).nodes) :
    ∃ n ∈ g.nodes, m.Resembles n := by
  obtain ⟨n, hn, rfl⟩ := List.mem_map.mp hm
  refine ⟨n, hn, ?_⟩
  split
  · exact hf n
  · exact n.resembles_refl

theorem resembles_modifyNode_modifyNode {g : Graph} {s t : Value} {f k : Node → Node}
    (hf : ∀ n, (f n).Resembles n) (hk : ∀ n, (k n).Resembles n) {m : Node}
    (hm : m ∈ ((g.modifyNode s f).modifyNode t k).nodes) : ∃ n ∈ g.nodes, m.Resembles n := by
  obtain ⟨l, hl, hml⟩ := resembles_modifyNode hk hm
  obtain ⟨n, hn, hln⟩ := resembles_modifyNode hf hl
  exact ⟨n, hn, Node.resembles_trans hml hln⟩

theorem resembles_link {g : Graph} {s t : Value} {m : Node} (hm : m ∈ (g.link s t).nodes) :
    ∃ n ∈ g.nodes, m.Resembles n :=
  resembles_modifyNode_modifyNode (fun n => ⟨_, n.parents, rfl⟩) (fun n => ⟨n.children, _, rfl⟩) hm

theorem resembles_unlink {g : Graph} {s t : Value} {m : Node} (hm : m ∈ (g.unlink s t).nodes) :
    ∃ n ∈ g.nodes, m.Resembles n :=
  resembles_modifyNode_modifyNode (fun n => ⟨_, n.parents, rfl⟩) (fun n => ⟨n.children, _, rfl⟩) hm

theorem resembles_disconnect {g : Graph} {id : Value} {m : Node}
    (hm : m ∈ (g.disconnect id).nodes) : ∃ n ∈ g.nodes, m.Resembles n := by
  cases hc : g.connection? id with
  | none =>
      rw [disconnect_of_none hc] at hm
      exact ⟨m, hm, m.resembles_refl⟩
  | some c =>
      by_cases hj : (g.without id).Joined c.source.node c.target.node
      · rw [disconnect_of_joined hc hj] at hm
        exact ⟨m, hm, m.resembles_refl⟩
      · rw [disconnect_of_not_joined hc hj] at hm
        exact resembles_unlink hm

/-- Removing a node changes nothing of the others but their lists. -/
theorem resembles_removeNode {g : Graph} {id : Value} {m : Node}
    (hm : m ∈ (g.removeNode id).nodes) : ∃ n ∈ g.nodes, m.Resembles n := by
  cases hn : g.node? id with
  | none =>
      rw [removeNode_of_none hn] at hm
      exact ⟨m, hm, m.resembles_refl⟩
  | some r =>
      rw [removeNode_of_some hn] at hm
      obtain ⟨n, hn, rfl⟩ := List.mem_map.mp ((Keyed.mem_erase _ _ _ _).mp hm).1
      refine ⟨n, hn, ?_⟩
      rw [detached]
      split <;> split <;> exact ⟨_, _, rfl⟩

theorem resembles_addNode {g : Graph} (hd : g.nodeIds.Nodup) {n m : Node}
    (hm : m ∈ (g.addNode n).nodes) : m.Resembles n ∨ m ∈ g.nodes := by
  rcases (Keyed.mem_put_iff hd _ m).mp hm with rfl | ⟨hm, -⟩
  · left
    split <;> exact ⟨_, _, rfl⟩
  · exact Or.inr hm

/-! ## Changes by their kind -/

/-- What is put in the place of a node may be computed from any node of its name. -/
theorem modifyNode_of_node {g : Graph} (hd : g.nodeIds.Nodup) {id : Value} {n : Node}
    (hn : g.node? id = some n) (f : Node → Node) :
    (g.modifyNode id fun _ => f n) = g.modifyNode id f := by
  have hnodes : Keyed.modify Node.id id (fun _ => f n) g.nodes =
      Keyed.modify Node.id id f g.nodes := by
    apply List.map_congr_left
    intro m hm
    by_cases hid : m.id = id
    · have hsome : g.node? m.id = some m := Keyed.find_of_mem hd hm
      rw [hid, hn] at hsome
      rw [Option.some.inj hsome]
    · rw [if_neg hid, if_neg hid]
  rw [modifyNode, modifyNode, hnodes]

theorem exists_of_moved {g g' : Graph} {id : Value} {m : Move} (h : g.moved id m = .ok g') :
    ∃ n k, g.node? id = some n ∧ n.moved m = .ok k ∧ g' = g.modifyNode id fun _ => k := by
  rw [moved] at h
  cases hn : g.node? id with
  | none => rw [hn] at h; cases h
  | some n =>
      rw [hn] at h
      cases hk : n.moved m with
      | error f => simp only [hk] at h; cases h
      | ok k =>
          simp only [hk] at h
          exact ⟨n, k, rfl, hk, (Except.ok.inj h).symm⟩

theorem eq_of_detoured {g g' : Graph} {id : Value} {w : Detour}
    (h : g.detoured id w = .ok g') :
    g' = { g with connections := Keyed.modify Connection.id id (·.detoured w) g.connections } := by
  rw [detoured] at h
  cases hc : g.connection? id with
  | none => rw [hc] at h; cases h
  | some c =>
      rw [hc] at h
      exact (Except.ok.inj h).symm

/-! ## Changes keep a graph sound -/

section

variable {kind : Number → Prop} {g : Graph} (h : g.IsSound kind)

include h

/-- A graph is sound if its nodes resemble those of a sound one. -/
theorem isSound_of_resembling {g' : Graph} (hc : g'.Consistent)
    (hn : ∀ m ∈ g'.nodes, ∃ n ∈ g.nodes, m.Resembles n)
    (hk : ∀ c ∈ g'.connections, ∃ s, c.id = .str s) : g'.IsSound kind where
  consistent := hc
  node := fun m hm => by
    obtain ⟨n, hn, hmn⟩ := hn m hm
    exact Node.isSound_of_resembles hmn (h.node n hn)
  opacity := fun m hm => by
    obtain ⟨n, hn, hmn⟩ := hn m hm
    rw [Node.style_of_resembles hmn]
    exact h.opacity n hn
  connection := hk

/-- A new sound node keeps a graph sound. -/
theorem isSound_addNode {n : Node} (hnew : n.IsNew) (hn : n.IsSound)
    (hkind : kind n.style.opacity) : (g.addNode n).IsSound kind where
  consistent := consistent_addNode h.consistent hnew
  node := fun m hm => by
    rcases resembles_addNode h.consistent.nodup_nodes hm with hmn | hm
    · exact Node.isSound_of_resembles hmn hn
    · exact h.node m hm
  opacity := fun m hm => by
    rcases resembles_addNode h.consistent.nodup_nodes hm with hmn | hm
    · rw [Node.style_of_resembles hmn]
      exact hkind
    · exact h.opacity m hm
  connection := h.connection

/-- A connection between known nodes keeps a graph sound. -/
theorem isSound_connected {c : Connection} (anchors : Bool) (hs : c.source.node ∈ g.nodeIds)
    (ht : c.target.node ∈ g.nodeIds) (hc : ∃ s, c.id = .str s) :
    (g.connected c anchors).IsSound kind := by
  refine isSound_of_resembling h (consistent_connected h.consistent anchors hs ht)
    (fun m hm => resembles_link hm) fun d hd => ?_
  rcases (Keyed.mem_put_iff h.consistent.nodup_connections _ d).mp hd with rfl | ⟨hd, -⟩
  · rw [id_registered]
    exact hc
  · exact h.connection d hd

theorem isSound_disconnect (id : Value) : (g.disconnect id).IsSound kind := by
  refine isSound_of_resembling h (consistent_disconnect h.consistent id)
    (fun m hm => resembles_disconnect hm) fun c hc => ?_
  rw [connections_disconnect] at hc
  exact h.connection c ((Keyed.mem_erase _ _ _ _).mp hc).1

/-- Removing a node keeps a graph sound. -/
theorem isSound_removeNode (id : Value) : (g.removeNode id).IsSound kind := by
  refine isSound_of_resembling h (consistent_removeNode h.consistent id)
    (fun m hm => resembles_removeNode hm) fun c hc => ?_
  rw [connections_removeNode id fun c hc => ends_of_touches h.consistent hc] at hc
  exact h.connection c (List.mem_filter.mp hc).1

/-- Nodes may be moved to transforms that they can have. -/
theorem isSound_map_nodes {f : Node → Node}
    (hf : ∀ n, f n = n ∨ ∃ t, (n.IsSound → Transform.isUsable t.scale = true) ∧ f n = n.place t) :
    ({ g with nodes := g.nodes.map f } : Graph).IsSound kind := by
  have hsame (n : Node) : (f n).id = n.id ∧ (f n).children = n.children ∧
      (f n).parents = n.parents ∧ (f n).style = n.style := by
    rcases hf n with he | ⟨t, -, he⟩
    · rw [he]
      exact ⟨rfl, rfl, rfl, rfl⟩
    · rw [he]
      exact ⟨rfl, rfl, rfl, rfl⟩
  constructor
  case consistent =>
    exact consistent_map_nodes (fun n => (hsame n).1) (fun n => (hsame n).2.1)
      (fun n => (hsame n).2.2.1) h.consistent
  case node =>
    intro m hm
    obtain ⟨n, hn, rfl⟩ := List.mem_map.mp hm
    rcases hf n with he | ⟨t, ht, he⟩
    · rw [he]
      exact h.node n hn
    · rw [he]
      exact Node.isSound_place (h.node n hn) (ht (h.node n hn))
  case opacity =>
    intro m hm
    obtain ⟨n, hn, rfl⟩ := List.mem_map.mp hm
    rw [(hsame n).2.2.2]
    exact h.opacity n hn
  case connection => exact h.connection

/-- Connections may be changed as long as they lead from and to the same nodes. -/
theorem isSound_map_connections {f : Connection → Connection} (hid : ∀ c, (f c).id = c.id)
    (hs : ∀ c, (f c).source.node = c.source.node) (ht : ∀ c, (f c).target.node = c.target.node) :
    ({ g with connections := g.connections.map f } : Graph).IsSound kind := by
  have hids : (g.connections.map f).map Connection.id = g.connections.map Connection.id := by
    rw [List.map_map]
    exact List.map_congr_left fun c _ => hid c
  constructor
  case consistent =>
    apply consistent_with_connections h.consistent
    · rw [hids]
      exact h.consistent.nodup_connections
    · intro d hd
      obtain ⟨c, hc, rfl⟩ := List.mem_map.mp hd
      rw [hs, ht]
      exact h.consistent.linked c hc
  case node => exact h.node
  case opacity => exact h.opacity
  case connection =>
    intro d hd
    obtain ⟨c, hc, rfl⟩ := List.mem_map.mp hd
    rw [hid]
    exact h.connection c hc

theorem isSound_refreshAnchors : g.refreshAnchors.IsSound kind :=
  isSound_map_connections h (fun _ => rfl) (fun c => node_anchored g c.source)
    fun c => node_anchored g c.target

/-- A node that is moved by a usable transform keeps a graph sound. -/
theorem isSound_moved {id : Value} {m : Move}
    (hm : ∀ t, m = .transform t → Transform.isUsable t.scale = true) {g' : Graph}
    (hg : g.moved id m = .ok g') : g'.IsSound kind := by
  obtain ⟨n, k, hn, hk, rfl⟩ := exists_of_moved hg
  have hmem : n ∈ g.nodes := (Keyed.find_some_key hn).2
  obtain ⟨t, ht, rfl⟩ := Node.exists_of_moved hk hm (h.node n hmem)
  rw [modifyNode_of_node h.consistent.nodup_nodes hn (·.place t)]
  apply isSound_map_nodes h
  intro l
  split
  · exact Or.inr ⟨t, fun _ => ht, rfl⟩
  · exact Or.inl rfl

theorem isSound_detoured {id : Value} {w : Detour} {g' : Graph}
    (hg : g.detoured id w = .ok g') : g'.IsSound kind := by
  have hkeep (c : Connection) : (c.detoured w).id = c.id ∧
      (c.detoured w).source = c.source ∧ (c.detoured w).target = c.target := by
    cases w <;> exact ⟨rfl, rfl, rfl⟩
  rw [eq_of_detoured hg]
  apply isSound_map_connections h
  all_goals
    intro c
    split
    · simp only [hkeep c]
    · rfl

end

theorem isSound_after_edit {kind : Number → Prop} {g : Graph} (h : g.IsSound kind) {e : Edit}
    (hnode : ∀ n, e = .addNode n → n.IsNew ∧ n.IsSound ∧ kind n.style.opacity)
    (hconnection : ∀ c anchors, e = .connect c anchors → ∃ s, c.id = .str s) :
    (e.after g).IsSound kind := by
  cases e with
  | addNode n =>
      obtain ⟨hnew, hn, hkind⟩ := hnode n rfl
      rw [after_addNode]
      exact isSound_addNode h hnew hn hkind
  | connect c anchors =>
      by_cases hk : c.source.node ∈ g.nodeIds ∧ c.target.node ∈ g.nodeIds
      · rw [after_connect_of_known anchors hk.1 hk.2]
        exact isSound_connected h anchors hk.1 hk.2 (hconnection c anchors rfl)
      · rw [after_connect_of_unknown anchors hk]
        exact h
  | disconnect id =>
      rw [after_disconnect]
      exact isSound_disconnect h id
  | removeNode id =>
      rw [after_removeNode]
      exact isSound_removeNode h id

/-- Every proper change keeps a graph sound. -/
theorem isSound_after {g : Graph} (h : g.IsSound Number.IsExact) {c : Change} (hc : c.IsProper) :
    (c.after g).IsSound Number.IsExact := by
  cases c with
  | edit e =>
      exact isSound_after_edit h (fun n he => by subst he; exact hc)
        (fun d anchors he => by subst he; exact hc)
  | move id m =>
      rw [Change.after, Change.apply, Trace.result_ofResult]
      cases hg : g.moved id m with
      | error f => exact h
      | ok g' => exact isSound_moved h (fun t he => by subst he; exact hc) hg
  | detour id w =>
      rw [Change.after, Change.apply, Trace.result_ofResult]
      cases hg : g.detoured id w with
      | error f => exact h
      | ok g' => exact isSound_detoured h hg
  | refreshAnchors => exact isSound_refreshAnchors h

/-- The graph after some changes in turn. -/
def evolve (g : Graph) (cs : List Change) : Graph := cs.foldl Change.after g

theorem isSound_of_empty {kind : Number → Prop} {g : Graph} (hn : g.nodes = [])
    (hc : g.connections = []) : g.IsSound kind where
  consistent := consistent_of_empty hn hc
  node := by simp [hn]
  opacity := by simp [hn]
  connection := by simp [hc]

/-- Proper changes, in any order and number, keep a graph sound. -/
theorem isSound_evolve {g : Graph} (h : g.IsSound Number.IsExact) {cs : List Change}
    (hcs : ∀ c ∈ cs, c.IsProper) : (g.evolve cs).IsSound Number.IsExact := by
  induction cs generalizing g with
  | nil => exact h
  | cons c cs ih =>
      exact ih (isSound_after h (hcs c List.mem_cons_self))
        fun d hd => hcs d (List.mem_cons_of_mem _ hd)

end Graph

end SpatialDiagram
